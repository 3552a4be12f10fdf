import Synchrony.Proofs.Engine.Escapes

/-!
# What the log of a run says

A run logs what becomes of its attempts, and how it concludes (`Engine.log_is_faithful`). Every
attempt that was completed has one record, in the order of the attempts, and behind these records
the log closes in one of a few ways, which are those in which a run can conclude
(`Engine.Concludes`).

The one attempt that breaks a run is not among the completed ones. If a guard broke it, nothing is
logged of it. If a consequence did, it had fired by then and this is logged; and if the consequence
did something else than the rule says, one record more says so, the only one of its level.

An action may fail with a violation of its own, of rules in another engine say. It is passed on as
it is and this engine has nothing to say about it, so the failure of a run does not tell whether
something was logged about a violation. The conclusion does.
-/

set_option autoImplicit false

namespace Synchrony

/-! ## Records -/

namespace Rule

/-- The record that a rule fires. -/
def firingRecord (rule : Rule) : Log.Record where
  severity := .debug
  logger := "engine"
  message := "Firing sync"
  extras := { anchor := some (.text rule.anchor), rule := some (.int rule.line) }

/-- The record that a rule does not apply, and why. -/
def decliningRecord (rule : Rule) (reason : Failure) : Log.Record where
  severity := .debug
  logger := "engine"
  message := "When clause failed to match due to: " ++ reason.message
  extras := { anchor := some (.text rule.anchor), rule := some (.int rule.line) }

/-- The record that a consequence of a rule is violated, and how. -/
def violationRecord (rule : Rule) (action : String) (cause : Mismatch) : Log.Record where
  severity := .error
  logger := "engine"
  message := "Sync consequence violated: " ++ cause.message
  extras := {
    action := some (.text action)
    anchor := some (.text rule.anchor)
    rule := some (.int rule.line) }

end Rule

/-- The record of the history of a call. -/
def History.record (history : History) (action : String) : Log.Record where
  severity := .debug
  logger := "engine"
  message := "Execution history: " ++ Trace.shownAll history.traces
  extras := { action := some (.text action), traces := some (.int history.traces.length) }

namespace Attempt

def fired (attempt : Attempt) : Bool :=
  match attempt.outcome with
  | .fired _ _ => true
  | .declined _ _ => false

/-- The record of a completed attempt. -/
def record (attempt : Attempt) : Log.Record :=
  match attempt.outcome with
  | .fired _ _ => attempt.rule.firingRecord
  | .declined _ reason => attempt.rule.decliningRecord reason

theorem severity_record (attempt : Attempt) : attempt.record.severity = .debug := by
  rw [record]
  split <;> rfl

theorem traces_record (attempt : Attempt) : attempt.record.extras.traces = none := by
  rw [record]
  split <;> rfl

end Attempt

namespace Event

/-- The records among some events, in order. -/
def log (events : List Event) : List Log.Record :=
  events.filterMap Event.record?

@[simp] theorem log_nil : log [] = [] := rfl

@[simp] theorem log_append (front back : List Event) :
    log (front ++ back) = log front ++ log back :=
  List.filterMap_append

@[simp] theorem log_cons_fired (rule : Rule) (events : List Event) :
    log (.fired rule :: events) = rule.firingRecord :: log events := rfl

@[simp] theorem log_declined (rule : Rule) (reason : Failure) :
    log [.declined rule reason] = [rule.decliningRecord reason] := rfl

/-- Calls are not logged. -/
@[simp] theorem log_map_ofCall (calls : List (String × List Value)) :
    log (calls.map ofCall) = [] := by
  rw [log, List.filterMap_eq_nil_iff]
  intro event hevent
  obtain ⟨call, -, rfl⟩ := List.mem_map.mp hevent
  rfl

theorem log_of_calls {events : List Event} (h : events = (calls events).map ofCall) :
    log events = [] := by
  rw [h, log_map_ofCall]

theorem log_events (attempt : Attempt) : log attempt.events = [attempt.record] := by
  obtain ⟨occasion, outcome⟩ := attempt
  cases outcome with
  | fired guards consequences =>
    rw [Attempt.events, Outcome.events, log_append, log_cons_fired, log_map_ofCall, log_map_ofCall]
    rfl
  | declined made reason =>
    rw [Attempt.events, Outcome.events, log_append, log_map_ofCall, log_declined]
    rfl

theorem log_attempts (attempts : List Attempt) :
    log (attempts.flatMap Attempt.events) = attempts.map Attempt.record := by
  induction attempts with
  | nil => rfl
  | cons attempt rest ih =>
    rw [List.flatMap_cons, log_append, log_events, ih, List.map_cons, List.singleton_append]

end Event

/-- The log of a run. -/
def Run.log {σ α : Type} (run : Run σ α) : List Log.Record :=
  Event.log run.events

namespace Engine

variable {σ : Type} (engine : Engine σ) {action : String} {args : List Value} {s : σ}

/-! ## How a run concludes -/

/-- A run meets a rule on a trace, behind these attempts: those at every rule on every trace before
this one, and those at the rules before this one on this trace. -/
inductive Meets (action : String) (args : List Value) (s : σ) :
    List Attempt → Trace → Rule → σ → Prop
  | intro {opening stage : Stage σ} {earlier attempts : List Attempt} {trace : Trace}
    {pending : List Trace} {done rest : List Rule} {rule : Rule} {u : σ}
    (opens : engine.Opens action args s opening)
    (path : Relation.ReflTransGen engine.Passes opening stage)
    (account : engine.Accounts opening stage earlier)
    (pending_eq : stage.pending = trace :: pending)
    (under_eq : engine.rulebook.under trace.action = done ++ rule :: rest)
    (occasions_eq : attempts.map Attempt.toOccasion =
      done.map fun rule => ⟨stage.settled.length, trace, rule⟩)
    (attempted : engine.Attempted attempts stage.state u) :
    Meets action args s (earlier ++ attempts) trace rule u

/-- How a run concludes behind the attempts that it completed: its ending, and what the log says
behind the records of these attempts. -/
inductive Concludes (action : String) (args : List Value) (s : σ) :
    List Attempt → Ending History → List Log.Record → Prop
  /-- The first call has no answer. -/
  | unanswered {e : Failure} {t : σ} {events : List Event}
    (call_eq : engine.call action args s = ⟨.failed e, t, events⟩) :
    Concludes action args s [] (.failed e) []
  /-- A guard meets an action that is not registered. -/
  | unregistered {attempts : List Attempt} {trace : Trace} {rule : Rule} {u t : σ} {name : String}
    {events : List Event} (meets : engine.Meets action args s attempts trace rule u)
    (guard_eq : engine.guard rule trace u = ⟨.failed (.unknownAction name), t, events⟩) :
    Concludes action args s attempts (.failed (.unknownAction name)) []
  /-- A rule fires, and one of its consequences is violated. -/
  | violated {attempts : List Attempt} {trace : Trace} {rule : Rule} {line : Line} {u v t : σ}
    {bindings : Bindings} {guards : List Trace} {front back : List Event} {cause : Mismatch}
    (meets : engine.Meets action args s attempts trace rule u)
    (guard_eq : engine.guard rule trace u = ⟨.returned (bindings, guards), v, front⟩)
    (fails : engine.FailsAt rule.consequences bindings v line
      ⟨.failed (.mismatch cause), t, back⟩) :
    Concludes action args s attempts
      (.failed (.violation rule.anchor line.action (.mismatch cause)))
      [rule.firingRecord, rule.violationRecord line.action cause]
  /-- A rule fires, and one of its consequences fails for any other reason. -/
  | broken {attempts : List Attempt} {trace : Trace} {rule : Rule} {line : Line} {u v t : σ}
    {bindings : Bindings} {guards : List Trace} {front back : List Event} {e : Failure}
    (meets : engine.Meets action args s attempts trace rule u)
    (guard_eq : engine.guard rule trace u = ⟨.returned (bindings, guards), v, front⟩)
    (fails : engine.FailsAt rule.consequences bindings v line ⟨.failed e, t, back⟩)
    (other : ∀ cause, e ≠ .mismatch cause) :
    Concludes action args s attempts (.failed e) [rule.firingRecord]
  /-- A whole reaction leaves more traces than the cap allows. -/
  | capped {opening stage next : Stage σ} {attempts : List Attempt} {limit : Int}
    (opens : engine.Opens action args s opening)
    (path : Relation.ReflTransGen engine.Passes opening stage)
    (reacts : engine.Reacts stage next) (cap_eq : engine.cap = some limit)
    (exceeds : limit < next.traces.length) (account : engine.Accounts opening next attempts) :
    Concludes action args s attempts (.failed (.cascadeLimit limit)) []
  /-- The number of steps is used up. -/
  | cut {opening stage : Stage σ} {attempts : List Attempt}
    (opens : engine.Opens action args s opening)
    (path : Relation.ReflTransGen engine.Passes opening stage)
    (account : engine.Accounts opening stage attempts) (pending_ne : stage.pending ≠ []) :
    Concludes action args s attempts .unfinished []
  /-- Nothing is pending. -/
  | returned {first : Trace} {u : σ} {events : List Event} {stage : Stage σ}
    {attempts : List Attempt} (opens : engine.Opens action args s ⟨[], [first], u, events⟩)
    (path : Relation.ReflTransGen engine.Passes ⟨[], [first], u, events⟩ stage)
    (account : engine.Accounts ⟨[], [first], u, events⟩ stage attempts)
    (pending_eq : stage.pending = []) :
    Concludes action args s attempts (.returned ⟨first.result, stage.traces⟩)
      [History.record ⟨first.result, stage.traces⟩ action]

/-- What the log of a run says, and what it does not say. -/
structure Logs (action : String) (args : List Value) (s : σ) (run : Run σ History)
    (attempts : List Attempt) (closing : List Log.Record) : Prop where
  concludes : engine.Concludes action args s attempts run.ending closing
  log_eq : run.log = attempts.map Attempt.record ++ closing
  /-- Only violations are logged as errors, and nothing is logged behind them. -/
  errors : ∀ record ∈ run.log, record.severity = .error →
    ∃ (rule : Rule) (name : String) (cause : Mismatch),
      run.ending = .failed (.violation rule.anchor name (.mismatch cause)) ∧
      closing = [rule.firingRecord, record] ∧ record = rule.violationRecord name cause
  /-- The history is logged if there is one, and once. -/
  returned_iff : (∃ history, run.ending = .returned history) ↔
    ∃ record ∈ run.log, record.extras.traces ≠ none
  history : ∀ history, run.ending = .returned history →
    closing = [history.record action] ∧
      attempts.map Attempt.toOccasion = engine.occasions history.traces ∧
      history.traces.length = 1 + ((attempts.filter Attempt.fired).map fun attempt =>
        attempt.rule.guards.length + attempt.rule.consequences.length).sum

variable {engine}

/-! ## What is logged on the way -/

/-- A call is no record, whatever comes of it. -/
theorem log_call {ending : Ending Trace} {t : σ} {events : List Event}
    (h : engine.call action args s = ⟨ending, t, events⟩) : Event.log events = [] := by
  have hevents := engine.call_events action args s
  rw [h] at hevents
  rcases hevents with hnone | hone
  · rw [show events = [] from hnone, Event.log_nil]
  · rw [show events = _ from hone]
    rfl

theorem Opens.log {opening : Stage σ} (h : engine.Opens action args s opening) :
    Event.log opening.events = [] := by
  cases h with
  | intro call_eq => exact log_call call_eq

theorem Accounts.log {opening stage : Stage σ} {attempts : List Attempt}
    (h : engine.Accounts opening stage attempts) (hopens : engine.Opens action args s opening) :
    Event.log stage.events = attempts.map Attempt.record := by
  rw [h.events_eq, Event.log_append, hopens.log, Event.log_attempts, List.nil_append]

/-- What a rule that breaks the run makes of it, and what it logs. -/
theorem Breaks.concludes {attempts : List Attempt} {trace : Trace} {rule : Rule} {u t : σ}
    {e : Failure} {events : List Event} (hmeets : engine.Meets action args s attempts trace rule u)
    (h : engine.Breaks rule trace u ⟨.failed e, t, events⟩) :
    engine.Concludes action args s attempts (.failed e) (Event.log events) := by
  cases h with
  | guard guard_eq hard =>
    rw [Event.log_of_calls (guard_events guard_eq).1]
    cases e with
    | unknownAction name => exact .unregistered hmeets guard_eq
    | _ => cases hard
  | @consequence bindings guards e line v t front back guard_eq fails =>
    have hfront := Event.log_of_calls (guard_events guard_eq).1
    have hback := Event.log_of_calls (performAll_events fails.performAll).1
    simp only [Event.log_append, Event.log_cons_fired, hfront, hback, List.nil_append]
    by_cases hcause : ∃ cause, e = .mismatch cause
    · obtain ⟨cause, rfl⟩ := hcause
      exact .violated hmeets guard_eq fails
    · have hother : ∀ cause, e ≠ .mismatch cause := fun cause heq => hcause ⟨cause, heq⟩
      have hquiet : rule.complaints line e = [] := by
        cases e with
        | mismatch cause => exact absurd rfl (hother cause)
        | _ => rfl
      have hverdict : rule.verdict line e = e := by
        cases e with
        | mismatch cause => exact absurd rfl (hother cause)
        | _ => rfl
      rw [hquiet, hverdict]
      exact .broken hmeets guard_eq fails hother

theorem concludes_of_halts {opening stage : Stage σ} {earlier : List Attempt} {e : Failure} {t : σ}
    {events : List Event} (hopens : engine.Opens action args s opening)
    (hpath : Relation.ReflTransGen engine.Passes opening stage)
    (haccount : engine.Accounts opening stage earlier)
    (h : engine.Halts stage ⟨.failed e, t, events⟩) :
    ∃ attempts closing, engine.Concludes action args s attempts (.failed e) closing ∧
      Event.log events = attempts.map Attempt.record ++ closing := by
  cases h with
  | @intro settled pending trace v w e' before more react_eq =>
    obtain ⟨done, rule, rest, attempts, u, last, hunder, hoccasions, hattempted, hbreaks, rfl⟩ :=
      applyRules_failed settled.length react_eq
    have hmeets := Meets.intro hopens hpath haccount rfl hunder hoccasions hattempted
    refine ⟨_, _, hbreaks.concludes hmeets, ?_⟩
    rw [Event.log_append, Event.log_append, Event.log_attempts, haccount.log hopens,
      List.map_append, List.append_assoc]

/-- Every run concludes in one of these ways, and its log is what they say. -/
theorem concludes_of_cascade (engine : Engine σ) (steps : Nat) (action : String)
    (args : List Value) (s : σ) :
    ∃ attempts closing,
      engine.Concludes action args s attempts (engine.cascade steps action args s).ending closing ∧
      (engine.cascade steps action args s).log = attempts.map Attempt.record ++ closing := by
  rcases engine.cascade_stops steps action args s with
    ⟨e, u, front, hcall, hrun⟩ | ⟨first, u, front, stage, earlier, hcall, hpath, haccount,
      ⟨hpending, hrun⟩ | ⟨run, hstops, hrun⟩⟩
  · rw [hrun]
    exact ⟨[], [], .unanswered hcall, log_call hcall⟩
  · have hopens : engine.Opens action args s ⟨[], [first], u, front⟩ := ⟨hcall⟩
    rw [hrun]
    refine ⟨earlier, [], .cut hopens hpath haccount hpending, ?_⟩
    rw [List.append_nil, ← haccount.log hopens]
    rfl
  · have hopens : engine.Opens action args s ⟨[], [first], u, front⟩ := ⟨hcall⟩
    rw [hrun]
    cases hstops with
    | settled pending_eq =>
      refine ⟨earlier, _, .returned hopens hpath haccount pending_eq, ?_⟩
      rw [concluded, Run.log, Event.log_append, haccount.log hopens]
      rfl
    | halted halts =>
      obtain ⟨settled, pending, v, before⟩ := stage
      cases halts with
      | intro react_eq => exact concludes_of_halts hopens hpath haccount (.intro react_eq)
    | @capped next limit reacts cap_eq exceeds =>
      obtain ⟨more, hnext⟩ := haccount.reacts reacts
      refine ⟨_, [], .capped hopens hpath reacts cap_eq exceeds hnext, ?_⟩
      rw [List.append_nil, ← hnext.log hopens]
      rfl

/-! ## What a conclusion says -/

section Concludes

variable {attempts : List Attempt} {ending : Ending History} {closing : List Log.Record}

/-- A conclusion with an error is a violation. -/
theorem Concludes.errors (h : engine.Concludes action args s attempts ending closing) :
    ∀ record ∈ closing, record.severity = .error →
      ∃ (rule : Rule) (name : String) (cause : Mismatch),
        ending = .failed (.violation rule.anchor name (.mismatch cause)) ∧
        closing = [rule.firingRecord, record] ∧ record = rule.violationRecord name cause := by
  intro record hmem herror
  cases h with
  | @violated _ trace rule line u v t bindings guards front back cause meets guard_eq fails =>
    rcases List.mem_cons.mp hmem with rfl | hmem
    · cases herror
    · obtain rfl := List.mem_singleton.mp hmem
      exact ⟨rule, line.action, cause, rfl, rfl, rfl⟩
  | broken meets guard_eq fails other =>
    obtain rfl := List.mem_singleton.mp hmem
    cases herror
  | returned opens path account pending_eq =>
    obtain rfl := List.mem_singleton.mp hmem
    cases herror
  | _ => cases hmem

/-- A conclusion with a history is that of a run that returned. -/
theorem Concludes.returned_iff (h : engine.Concludes action args s attempts ending closing) :
    (∃ history, ending = .returned history) ↔ ∃ record ∈ closing, record.extras.traces ≠ none := by
  constructor
  · rintro ⟨history, rfl⟩
    cases h with
    | returned opens path account pending_eq =>
      exact ⟨_, List.mem_singleton_self _, Option.some_ne_none _⟩
  · rintro ⟨record, hmem, htraces⟩
    cases h with
    | returned opens path account pending_eq => exact ⟨_, rfl⟩
    | violated meets guard_eq fails =>
      rcases List.mem_cons.mp hmem with rfl | hmem
      · exact absurd rfl htraces
      · obtain rfl := List.mem_singleton.mp hmem
        exact absurd rfl htraces
    | broken meets guard_eq fails other =>
      obtain rfl := List.mem_singleton.mp hmem
      exact absurd rfl htraces
    | _ => cases hmem

/-- Attempts that fired have a trace for each line of their rule but the first, and the others have
none. -/
theorem length_traces_of_follows (h : ∀ attempt ∈ attempts, attempt.outcome.Follows attempt.rule) :
    (attempts.flatMap fun attempt => attempt.outcome.traces).length =
      ((attempts.filter Attempt.fired).map fun attempt =>
        attempt.rule.guards.length + attempt.rule.consequences.length).sum := by
  induction attempts with
  | nil => rfl
  | cons attempt rest ih =>
    obtain ⟨hattempt, hrest⟩ := List.forall_mem_cons.mp h
    obtain ⟨occasion, outcome⟩ := attempt
    rw [List.flatMap_cons, List.length_append, ih hrest]
    cases outcome with
    | fired guards consequences =>
      have hguards := congrArg List.length hattempt.1
      have hconsequences := congrArg List.length hattempt.2
      rw [List.length_map, List.length_map] at hguards hconsequences
      rw [List.filter_cons_of_pos rfl, List.map_cons, List.sum_cons, Outcome.traces,
        List.length_append, hguards, hconsequences]
    | declined made reason =>
      rw [List.filter_cons_of_neg Bool.false_ne_true, Outcome.traces, List.length_nil, Nat.zero_add]

theorem Concludes.history {history : History}
    (h : engine.Concludes action args s attempts (.returned history) closing) :
    closing = [history.record action] ∧
      attempts.map Attempt.toOccasion = engine.occasions history.traces ∧
      history.traces.length = 1 + ((attempts.filter Attempt.fired).map fun attempt =>
        attempt.rule.guards.length + attempt.rule.consequences.length).sum := by
  cases h with
  | @returned first u events stage _ opens path account pending_eq =>
    have hsettled : stage.settled = stage.traces := by
      rw [Stage.traces, pending_eq, List.append_nil]
    refine ⟨rfl, by rw [account.occasions_eq, hsettled], ?_⟩
    rw [account.traces_eq, List.length_append,
      length_traces_of_follows account.attempted.follows]
    rfl

end Concludes

/-- **The log is a faithful account of the run**, whatever rules and actions there are, whatever is
called and whatever the cap is. -/
theorem log_is_faithful (engine : Engine σ) (steps : Nat) (action : String) (args : List Value)
    (s : σ) :
    ∃ attempts closing,
      engine.Logs action args s (engine.cascade steps action args s) attempts closing := by
  obtain ⟨attempts, closing, hconcludes, hlog⟩ := engine.concludes_of_cascade steps action args s
  generalize engine.cascade steps action args s = run at hconcludes hlog
  refine ⟨attempts, closing, hconcludes, hlog, ?_, ?_, ?_⟩
  · intro record hmem herror
    rw [hlog] at hmem
    rcases List.mem_append.mp hmem with hmem | hmem
    · obtain ⟨attempt, -, rfl⟩ := List.mem_map.mp hmem
      rw [attempt.severity_record] at herror
      cases herror
    · exact hconcludes.errors record hmem herror
  · rw [hconcludes.returned_iff, hlog]
    constructor
    · rintro ⟨record, hmem, htraces⟩
      exact ⟨record, List.mem_append_right _ hmem, htraces⟩
    · rintro ⟨record, hmem, htraces⟩
      rcases List.mem_append.mp hmem with hmem | hmem
      · obtain ⟨attempt, -, rfl⟩ := List.mem_map.mp hmem
        exact absurd attempt.traces_record htraces
      · exact ⟨record, hmem, htraces⟩
  · intro history hreturned
    rw [hreturned] at hconcludes
    exact hconcludes.history

/-- A rule that is declined, and one that fires and is violated. -/
example : (unruly.cascade 1 "A.a" [] 0).log.map
      (fun record => (record.severity, record.extras.rule, record.extras.action)) =
    [(.debug, some (.int 1), none), (.debug, some (.int 6), none),
      (.error, some (.int 6), some (.text "C.c"))] := rfl

end Engine

end Synchrony
