import Synchrony.Proofs.Json.NormalForm
import Synchrony.Proofs.Society.BuiltIn
import Synchrony.Service.Reply

/-!
# Replies mirror runs

A request to run an action either brings a body that gives no arguments, and then nothing runs and
the client is told so, or it gives arguments, and then the reply is that of one run of the action
with them (`Engine.reply_mirrors_run`): the same events, the same state in the end, and an answer
that tells how the run ended.

What a body gives is said in terms of what was read in it (`Body.Gives`, `Body.Unusable`), and what
a client is told of a failure in terms of its kind (`Failure.ToldAs`). No failure is told under the
status of success.
-/

set_option autoImplicit false

namespace Synchrony

/-! ## What a body gives -/

namespace Body

/-- The body gives these arguments. A body in which nothing could be read gives none, and so does
null, or a record that says nothing about them. -/
inductive Gives : Option Value → List Value → Prop
  | nothing : Gives none []
  | null : Gives (some .null) []
  | unsaid {fields : List (String × Value)} (h : Keyed.get? fields "args" = none) :
    Gives (some (.record fields)) []
  | list {fields : List (String × Value)} {args : List Value}
    (h : Keyed.get? fields "args" = some (.list args)) : Gives (some (.record fields)) args

/-- The body gives no arguments, for this reason. -/
inductive Unusable : Option Value → String → Prop
  | notRecord {v : Value} (hnull : v ≠ .null) (hrecord : ∀ fields, v ≠ .record fields) :
    Unusable (some v) "body must be a JSON object"
  | notList {fields : List (String × Value)} {v : Value}
    (h : Keyed.get? fields "args" = some v) (hlist : ∀ items, v ≠ .list items) :
    Unusable (some (.record fields)) "args must be a list"

variable {body : Option Value}

theorem arguments_of_gives {args : List Value} (h : Gives body args) :
    Answer.arguments body = .ok args := by
  cases h with
  | nothing => rfl
  | null => rfl
  | unsaid h => simp only [Answer.arguments, h]
  | list h => simp only [Answer.arguments, h]

theorem arguments_of_unusable {message : String} (h : Unusable body message) :
    Answer.arguments body = .error message := by
  cases h with
  | @notRecord v hnull hrecord =>
    cases v with
    | null => exact absurd rfl hnull
    | record fields => exact absurd rfl (hrecord fields)
    | _ => rfl
  | @notList fields v h hlist =>
    cases v with
    | list items => exact absurd rfl (hlist items)
    | _ => simp only [Answer.arguments, h]

theorem gives_or_unusable (body : Option Value) :
    (∃ args, Gives body args) ∨ ∃ message, Unusable body message := by
  cases body with
  | none => exact Or.inl ⟨[], .nothing⟩
  | some v =>
    cases v with
    | null => exact Or.inl ⟨[], .null⟩
    | record fields =>
      cases hargs : Keyed.get? fields "args" with
      | none => exact Or.inl ⟨[], .unsaid hargs⟩
      | some v =>
        cases v with
        | list args => exact Or.inl ⟨args, .list hargs⟩
        | _ => exact Or.inr ⟨_, .notList hargs (by simp)⟩
    | _ => exact Or.inr ⟨_, .notRecord (by simp) (by simp)⟩

/-- A body is one or the other, and never both. -/
theorem gives_iff_not_unusable :
    (∃ args, Gives body args) ↔ ¬∃ message, Unusable body message := by
  constructor
  · rintro ⟨args, hgives⟩ ⟨message, hunusable⟩
    have hargs := arguments_of_gives hgives
    rw [arguments_of_unusable hunusable] at hargs
    cases hargs
  · exact (gives_or_unusable body).resolve_right

end Body

/-! ## What a client is told -/

namespace Failure

/-- The codes of the engine's own failures, apart from that of an action that is not registered. -/
inductive Coded : Failure → String → Prop
  | general (message : String) : Coded (.general message) "SYNC_ERROR"
  | source (reason : String) (line column : Int) (text : String) :
    Coded (.source reason line column text) "PARSE_ERROR"
  | duplicateAction (action : String) : Coded (.duplicateAction action) "DUPLICATE_ACTION"
  | cascadeLimit (limit : Int) : Coded (.cascadeLimit limit) "CASCADE_LIMIT"
  | mismatch (message : String) : Coded (.mismatch (.general message)) "MATCH_FAILURE"
  | actionMismatch (expected actual : String) :
    Coded (.mismatch (.action expected actual)) "ACTION_MISMATCH"
  | valueMismatch (place : String) (expected actual : Value) :
    Coded (.mismatch (.value place expected actual)) "VALUE_MISMATCH"
  | arityMismatch (place : String) (expected : Int) (actual : Option Int) :
    Coded (.mismatch (.arity place expected actual)) "ARITY_MISMATCH"
  | unbound (name : String) : Coded (.mismatch (.unbound name)) "UNBOUND_VARIABLE"
  | violation (anchor action : String) (cause : Failure) :
    Coded (.violation anchor action cause) "CONSEQUENCE_VIOLATION"

/-- What a client is told of a failure: the status, the code and the message. The action was not
registered, or something else went wrong in the engine, or a concept refused a call, or an action
failed by a fault of its own. -/
inductive ToldAs : Failure → Nat → String → String → Prop
  | unknownAction (action : String) :
    ToldAs (.unknownAction action) 404 "UNKNOWN_ACTION" ("Unknown action: " ++ action)
  | engine {e : Failure} {code : String} (h : e.Coded code) : ToldAs e 500 code e.message
  | refused (message : String) :
    ToldAs (.concept .general message) 400 "ConceptError" message
  | notFound (message : String) :
    ToldAs (.concept .notFound message) 404 "NotFoundError" message
  | notAllowed (message : String) :
    ToldAs (.concept .notAllowed message) 403 "NotAllowedError" message
  | fault (kind : FaultKind) (message : String) :
    ToldAs (.fault kind message) 400 "ACTION_FAILED" (kind.name ++ ": " ++ message)

theorem ToldAs.status_ne {e : Failure} {status : Nat} {code message : String}
    (h : e.ToldAs status code message) : status ≠ 200 := by
  cases h <;> decide

/-- Every failure is told in some way. -/
theorem exists_toldAs (e : Failure) : ∃ status code message, e.ToldAs status code message := by
  cases e with
  | general message => exact ⟨_, _, _, .engine (.general message)⟩
  | source reason line column text => exact ⟨_, _, _, .engine (.source reason line column text)⟩
  | unknownAction action => exact ⟨_, _, _, .unknownAction action⟩
  | duplicateAction action => exact ⟨_, _, _, .engine (.duplicateAction action)⟩
  | cascadeLimit limit => exact ⟨_, _, _, .engine (.cascadeLimit limit)⟩
  | mismatch cause =>
    cases cause with
    | general message => exact ⟨_, _, _, .engine (.mismatch message)⟩
    | action expected actual => exact ⟨_, _, _, .engine (.actionMismatch expected actual)⟩
    | value place expected actual =>
      exact ⟨_, _, _, .engine (.valueMismatch place expected actual)⟩
    | arity place expected actual =>
      exact ⟨_, _, _, .engine (.arityMismatch place expected actual)⟩
    | unbound name => exact ⟨_, _, _, .engine (.unbound name)⟩
  | violation anchor action cause =>
    exact ⟨_, _, _, .engine (.violation anchor action cause)⟩
  | concept refusal message =>
    cases refusal with
    | general => exact ⟨_, _, _, .refused message⟩
    | notFound => exact ⟨_, _, _, .notFound message⟩
    | notAllowed => exact ⟨_, _, _, .notAllowed message⟩
  | fault kind message => exact ⟨_, _, _, .fault kind message⟩

end Failure

namespace Answer

/-- A failed run is answered with what is to be told of the failure. -/
theorem ofFailure_of_toldAs {e : Failure} {status : Nat} {code message : String}
    (h : e.ToldAs status code message) :
    (ofFailure e).1 = ⟨status, .record [("error", .record
      [("code", .text code), ("message", .text message)])]⟩ := by
  cases h with
  | engine h => cases h <;> rfl
  | _ => rfl

end Answer

/-- Taking the form changes no integer, so it leaves as many digits as there were. -/
theorem Value.hasText_jsonForm (v : Value) : v.jsonForm.hasText = v.hasText := by
  have hitems (items : List Value) (ih : ∀ item ∈ items, item.jsonForm.hasText = item.hasText) :
      itemsHaveText (items.map jsonForm) = itemsHaveText items := by
    rw [Bool.eq_iff_iff, itemsHaveText_iff, itemsHaveText_iff, List.forall_mem_map]
    exact forall₂_congr fun item hmem => by rw [ih item hmem]
  induction v using Value.induction_on_members with
  | list items ih => simp only [jsonForm, hasText, jsonItems_eq_map, hitems items ih]
  | tuple items ih => simp only [jsonForm, hasText, jsonItems_eq_map, hitems items ih]
  | record fields ih =>
    simp only [jsonForm, hasText, jsonFields_eq_mapValues]
    rw [Bool.eq_iff_iff, fieldsHaveText_iff, fieldsHaveText_iff, Keyed.mapValues,
      List.forall_mem_map]
    exact forall₂_congr fun field hmem => by rw [ih field hmem]
  | _ => rfl

/-! ## Replies -/

namespace Engine

/-- Once there are arguments, everything in a reply is taken from one run. -/
theorem replyToRun_of_arguments {σ : Type} (engine : Engine σ) (steps : Nat) (action : String)
    {body : Option Value} {args : List Value} (state : σ)
    (h : Answer.arguments body = .ok args) :
    engine.replyToRun steps action body state =
      { answer := (Answer.ofEnding (engine.run steps action args state).ending).map Prod.fst
        state := (engine.run steps action args state).state
        events := (engine.run steps action args state).events
        notices := ((Answer.ofEnding (engine.run steps action args state).ending).map
          Prod.snd).getD [] } := by
  rw [replyToRun, h]
  simp only
  cases Answer.ofEnding (engine.run steps action args state).ending <;> rfl

/-- **A reply mirrors one run.** Whatever the engine, its state, the action and the body:

* if the body is unusable, the client is told so, nothing happens and the state stays;
* if it gives arguments, what happens and the state in the end are those of one run of the action
  with them. A run that returned is answered with the JSON form of its result, one that failed by
  what is to be told of the failure, which is never success, and one that does not end has no
  answer.

A body is one or the other. -/
theorem reply_mirrors_run {σ : Type} (engine : Engine σ) (steps : Nat) (action : String)
    (body : Option Value) (state : σ) :
    let reply := engine.replyToRun steps action body state
    ((∃ args, Body.Gives body args) ↔ ¬∃ message, Body.Unusable body message) ∧
    (∀ message, Body.Unusable body message →
      reply.answer = some ⟨400, .record [("error", .record
        [("code", .text "BAD_REQUEST"), ("message", .text message)])]⟩ ∧
      reply.events = [] ∧ reply.state = state) ∧
    (∀ args, Body.Gives body args →
      let run := engine.run steps action args state
      reply.events = run.events ∧ reply.state = run.state ∧
      (∀ result, run.ending = .returned result → result.hasText = true →
        reply.answer = some ⟨200, .record [("result", result.jsonForm)]⟩) ∧
      (∀ e, run.ending = .failed e → ∃ status code message,
        e.ToldAs status code message ∧ status ≠ 200 ∧
        reply.answer = some ⟨status, .record [("error", .record
          [("code", .text code), ("message", .text message)])]⟩) ∧
      (run.ending = .unfinished → reply.answer = none)) := by
  refine ⟨Body.gives_iff_not_unusable, ?_, ?_⟩
  · intro message h
    rw [replyToRun, Body.arguments_of_unusable h]
    exact ⟨rfl, rfl, rfl⟩
  · intro args h
    rw [replyToRun_of_arguments engine steps action state (Body.arguments_of_gives h)]
    intro run
    refine ⟨rfl, rfl, ?_, ?_, ?_⟩
    · intro result hending htext
      have hform : result.jsonForm.hasText = true := result.hasText_jsonForm ▸ htext
      show (Answer.ofEnding run.ending).map Prod.fst = _
      rw [hending, Answer.ofEnding, Answer.ofResult, if_pos hform]
      rfl
    · intro e hending
      obtain ⟨status, code, message, htold⟩ := e.exists_toldAs
      refine ⟨status, code, message, htold, htold.status_ne, ?_⟩
      show (Answer.ofEnding run.ending).map Prod.fst = _
      rw [hending, Answer.ofEnding, Option.map_some, Answer.ofFailure_of_toldAs htold]
    · intro hending
      show (Answer.ofEnding run.ending).map Prod.fst = _
      rw [hending]
      rfl

/-- A body that gives these arguments. -/
def bodyOf (args : List Value) : Option Value :=
  some (.record [("args", .list args)])

/-- Ann opens an account, and a rule gives her a profile. -/
def annOpens : Reply Society :=
  (builtIn none).replyToRun 4 "Account.create"
    (bodyOf [.text "ann", .text "secret", .text "ann@"]) {}

/-- Bob tries to, but what he gives is no list. -/
def bobTries : Reply Society :=
  (builtIn none).replyToRun 4 "Account.create" (some (.record [("args", .text "bob")]))
    annOpens.state

/-- Ann follows Bob, whose followers a rule cannot count, since he has no profile. -/
def annFollowsBob : Reply Society :=
  (builtIn none).replyToRun 4 "Follower.follow"
    (bodyOf [.text (Supply.hexText 1), .text "bob"]) annOpens.state

/-- A run that returns, a body that gives no arguments, and a run that fails in a rule. -/
theorem reply_mirrors_run_three_ways :
    annOpens.answer = some ⟨200, .record [("result", .text (Supply.hexText 1))]⟩ ∧
    annOpens.events.filterMap (fun event => event.call?.map Prod.fst) =
      ["Account.create", "Profile.create"] ∧
    (annOpens.state.profiles.get? (Supply.hexText 1)).map Profile.username =
      some (.text "ann") ∧
    bobTries.answer = some ⟨400, .record [("error", .record
      [("code", .text "BAD_REQUEST"), ("message", .text "args must be a list")])]⟩ ∧
    bobTries.events = [] ∧ bobTries.state = annOpens.state ∧
    annFollowsBob.answer = some ⟨404, .record [("error", .record
      [("code", .text "NotFoundError"), ("message", .text "Profile not found!")])]⟩ ∧
    annFollowsBob.events.filterMap (fun event => event.call?.map Prod.fst) =
      ["Follower.follow", "Profile.adjustFollowers"] ∧
    annFollowsBob.state.edges = [⟨⟨Supply.hexText 1, 2⟩, ⟨"bob", 3⟩⟩] := by
  obtain ⟨-, -, hopened⟩ := reply_mirrors_run (builtIn none) 4 "Account.create"
    (bodyOf [.text "ann", .text "secret", .text "ann@"]) {}
  obtain ⟨hevents, hstate, hreturned, -, -⟩ := hopened _ (.list rfl)
  obtain ⟨-, hunusable, -⟩ := reply_mirrors_run (builtIn none) 4 "Account.create"
    (some (.record [("args", .text "bob")])) annOpens.state
  obtain ⟨hrefused, hnothing, hsame⟩ := hunusable _ (.notList rfl (by simp))
  obtain ⟨-, -, hfollows⟩ := reply_mirrors_run (builtIn none) 4 "Follower.follow"
    (bodyOf [.text (Supply.hexText 1), .text "bob"]) annOpens.state
  obtain ⟨hevents', hstate', -, hfailed, -⟩ := hfollows _ (.list rfl)
  obtain ⟨status, code, message, htold, -, hanswer⟩ :=
    hfailed (.concept .notFound "Profile not found!") rfl
  refine ⟨hreturned _ rfl rfl, ?_, ?_, hrefused, hnothing, hsame, ?_, ?_, ?_⟩
  · rw [annOpens, hevents]
    rfl
  · rw [annOpens, hstate]
    rfl
  · cases htold with
    | engine h => cases h
    | notFound => exact hanswer
  · rw [annFollowsBob, hevents']
    rfl
  · rw [annFollowsBob, hstate']
    rfl

end Engine

end Synchrony
