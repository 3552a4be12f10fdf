import Synchrony.Log.Line
import Synchrony.Proofs.Json.RoundTrip
import Synchrony.Proofs.Log.Timestamps

/-!
# Log lines lose nothing

What an entry says comes back from its line: the timestamp, the level, the logger and the message,
each extra that says anything, and the failure (`Entry.read?_line`). The texts of these can be any
texts, line breaks and quotes among them, and the line is still one line.

The moment comes back to the microsecond, which is as much of it as a timestamp tells
(`Timestamp.Tells`). It can be any moment from the beginning of the year 1 to the end of the year
9999. What is in the extras is subject to `Value.Lossless`.
-/

set_option autoImplicit false

namespace Synchrony

namespace Log

/-! ## Extras by name -/

namespace Extras

/-- The names of extras, in their fixed order. -/
def names : List String :=
  ["action", "anchor", "rule", "traces", "error_code"]

/-- The extra of that name. -/
def get? (extras : Extras) (name : String) : Option Value :=
  if name = "action" then extras.action
  else if name = "anchor" then extras.anchor
  else if name = "rule" then extras.rule
  else if name = "traces" then extras.traces
  else if name = "error_code" then extras.errorCode
  else none

/-- Whether the extra of that name is set to something that says anything. -/
def tells (extras : Extras) (name : String) : Bool :=
  (extras.get? name).any isPresent

theorem fields_eq (extras : Extras) :
    extras.fields = names.flatMap fun name => field name (extras.get? name) := by
  simp [fields, names, get?]

theorem mem_field {name : String} {extra : Option Value} {entry : String × Value} :
    entry ∈ field name extra ↔ entry.1 = name ∧ extra = some entry.2 := by
  cases extra with
  | none => simp [field]
  | some v =>
    simp only [field, List.mem_singleton, Option.some.injEq]
    constructor
    · rintro rfl
      exact ⟨rfl, rfl⟩
    · rintro ⟨hname, hv⟩
      rw [← hname, hv]

theorem mem_names_of_get? {extras : Extras} {name : String} {v : Value}
    (h : extras.get? name = some v) : name ∈ names := by
  unfold get? at h
  split at h
  · simp [names, *]
  split at h
  · simp [names, *]
  split at h
  · simp [names, *]
  split at h
  · simp [names, *]
  split at h
  · simp [names, *]
  · cases h

theorem mem_present {extras : Extras} {entry : String × Value} :
    entry ∈ extras.present ↔ extras.get? entry.1 = some entry.2 ∧ isPresent entry.2 = true := by
  rw [present, List.mem_filter, fields_eq, List.mem_flatMap]
  simp only [mem_field]
  constructor
  · rintro ⟨⟨name, -, rfl, hget⟩, hpresent⟩
    exact ⟨hget, hpresent⟩
  · rintro ⟨hget, hpresent⟩
    exact ⟨⟨entry.1, mem_names_of_get? hget, rfl, hget⟩, hpresent⟩

theorem keys_filter_field (name : String) (extra : Option Value) :
    Keyed.keys ((field name extra).filter fun entry => isPresent entry.2) =
      if extra.any isPresent = true then [name] else [] := by
  cases extra with
  | none => rfl
  | some v => cases h : isPresent v <;> simp [field, Keyed.keys, h]

/-- The names of the extras that say anything are in their fixed order. -/
theorem keys_present (extras : Extras) :
    Keyed.keys extras.present = names.filter extras.tells := by
  rw [present, fields_eq]
  induction names with
  | nil => rfl
  | cons name names ih =>
    rw [Keyed.keys] at ih ⊢
    rw [List.flatMap_cons, List.filter_append, List.map_append, ih, List.filter_cons]
    have hname := keys_filter_field name (extras.get? name)
    rw [Keyed.keys] at hname
    rw [hname, tells]
    cases (extras.get? name).any isPresent <;> rfl

end Extras

/-! ## Lines -/

namespace Entry

variable {entry : Entry} (stamp message : String)

theorem keys_fieldsWith : Keyed.keys (entry.fieldsWith stamp message) =
    ["timestamp", "level", "logger", "message"] ++ Extras.names.filter entry.extras.tells ++
      (if entry.exception.isSome then ["exception"] else []) := by
  rw [← Extras.keys_present]
  unfold fieldsWith Keyed.keys
  cases entry.exception <;> simp

/-- No key of a line comes twice, since all keys that there can be are different. -/
theorem nodup_keys_fieldsWith : (Keyed.keys (entry.fieldsWith stamp message)).Nodup := by
  have hall : (["timestamp", "level", "logger", "message"] ++ Extras.names ++
      ["exception"]).Nodup := by decide
  rw [keys_fieldsWith]
  refine List.Nodup.sublist ?_ hall
  apply List.Sublist.append
  · exact (List.Sublist.refl _).append List.filter_sublist
  · split
    · exact List.Sublist.refl _
    · exact List.nil_sublist _

theorem lossless_fieldsWith
    (hextras : ∀ name v, entry.extras.get? name = some v → v.Lossless) :
    (Value.record (entry.fieldsWith stamp message)).Lossless := by
  apply Value.Lossless.record (nodup_keys_fieldsWith stamp message)
  intro field hfield
  rcases List.mem_append.mp hfield with hfield | hfield
  · rcases List.mem_append.mp hfield with hfield | hfield
    · simp only [List.mem_cons, List.not_mem_nil, or_false] at hfield
      rcases hfield with rfl | rfl | rfl | rfl <;> exact .text _
    · exact hextras _ _ (Extras.mem_present.mp hfield).1
  · cases hexception : entry.exception with
    | none =>
      rw [hexception] at hfield
      cases hfield
    | some text =>
      rw [hexception] at hfield
      rw [List.mem_singleton.mp hfield]
      exact .text text

/-- **A log line loses nothing.** An entry with a moment in the calendar, a message that can be
formatted and extras that JSON can say has a line without control characters, which is read back as
one record. Its keys are the four of every line, then those extras that are set to something, in
their order, then the failure, if there is one, and none of them comes twice. Under each key is what
the entry says. The moment is there as a text, which is read back as seconds and microseconds that
tell it. -/
theorem read?_line (entry : Entry) {message : String}
    (hcreated : Timestamp.InCalendar entry.created)
    (hmessage : Template.format entry.template entry.args = .ok message)
    (hextras : ∀ name v, entry.extras.get? name = some v → v.Lossless) :
    ∃ line stamp fields seconds micros,
      entry.line = .ok line ∧
      Timestamp.stamp entry.created = .ok stamp ∧
      Timestamp.read? stamp.toList = some (seconds, micros) ∧
      Timestamp.Tells entry.created seconds micros ∧
      (∀ c ∈ line.toList, 32 ≤ c.toNat) ∧
      Json.read? line.toList = some (.record fields) ∧
      Keyed.keys fields =
        ["timestamp", "level", "logger", "message"] ++ Extras.names.filter entry.extras.tells ++
          (if entry.exception.isSome then ["exception"] else []) ∧
      (Keyed.keys fields).Nodup ∧
      Keyed.get? fields "timestamp" = some (.text stamp) ∧
      Keyed.get? fields "level" = some (.text entry.label) ∧
      Keyed.get? fields "logger" = some (.text entry.logger) ∧
      Keyed.get? fields "message" = some (.text message) ∧
      (∀ name v, entry.extras.get? name = some v → v ≠ .null →
        Keyed.get? fields name = some v) ∧
      (∀ text, entry.exception = some text →
        Keyed.get? fields "exception" = some (.text text)) := by
  obtain ⟨stamp, hstamp⟩ := Timestamp.exists_stamp hcreated
  obtain ⟨seconds, micros, hparts, -⟩ := hcreated.exists_parts
  have hlossless := lossless_fieldsWith stamp message hextras
  have hnodup : (Keyed.keys (entry.fieldsWith stamp message)).Nodup :=
    nodup_keys_fieldsWith stamp message
  have hline : entry.line =
      .ok (Json.line (.record (entry.fieldsWith stamp message))) := by
    simp only [line, fields, hstamp, hmessage, bind, Except.bind, pure, Except.pure]
    rw [if_pos hlossless.hasText]
  have htext : (Json.line (.record (entry.fieldsWith stamp message))).toList =
      Json.write (.record (entry.fieldsWith stamp message)) := by
    rw [Json.line, String.toList_ofList]
  have hget {name : String} {v : Value} (hmem : (name, v) ∈ entry.fieldsWith stamp message) :
      Keyed.get? (entry.fieldsWith stamp message) name = some v :=
    Keyed.get?_of_mem hnodup hmem
  refine ⟨_, stamp, entry.fieldsWith stamp message, seconds, micros, hline, hstamp,
    Timestamp.read?_stamp hparts hstamp, Timestamp.parts_tells hparts, ?_, ?_,
    keys_fieldsWith stamp message, hnodup, rfl, rfl, rfl, rfl, ?_, ?_⟩
  · rw [htext]
    exact Json.printable_write hlossless
  · rw [htext]
    exact Json.read?_write hlossless
  · intro name v hextra hv
    apply hget
    have hpresent : isPresent v = true := by
      cases v with
      | null => exact absurd rfl hv
      | _ => rfl
    have hmem : (name, v) ∈ entry.extras.present := Extras.mem_present.mpr ⟨hextra, hpresent⟩
    exact List.mem_append_left _ (List.mem_append_right _ hmem)
  · intro text htext
    apply hget
    apply List.mem_append_right
    rw [htext]
    exact List.mem_singleton_self _

/-- The line of an entry whose message and failure have line breaks and quotes in them. It is made
half a second before the epoch. -/
theorem read?_line_with_line_breaks :
    let entry : Entry :=
      { created := .float (.finite true (twoTo 1073)), level := 20, logger := "engine"
        template := "Fired\nfor %s"
        args := [.text "A.a"]
        extras := { anchor := some (.text "A.a"), rule := some (.int 2), errorCode := some .null }
        exception := some "concepts.NotFound: \"a\"\n" }
    ∃ line stamp fields,
      entry.line = .ok line ∧
      Timestamp.read? stamp.toList = some (-1, 500000) ∧
      (∀ c ∈ line.toList, 32 ≤ c.toNat) ∧
      Json.read? line.toList = some (.record fields) ∧
      Keyed.keys fields =
        ["timestamp", "level", "logger", "message", "anchor", "rule", "exception"] ∧
      Keyed.get? fields "timestamp" = some (.text stamp) ∧
      Keyed.get? fields "message" = some (.text "Fired\nfor A.a") ∧
      Keyed.get? fields "rule" = some (.int 2) ∧
      Keyed.get? fields "exception" = some (.text "concepts.NotFound: \"a\"\n") := by
  intro entry
  have hextras : ∀ name v, entry.extras.get? name = some v → v.Lossless := by
    intro name v h
    have hname := Extras.mem_names_of_get? h
    simp only [Extras.names, List.mem_cons, List.not_mem_nil, or_false] at hname
    rcases hname with rfl | rfl | rfl | rfl | rfl
    · cases h
    · cases h
      exact .text "A.a"
    · cases h
      refine .int ?_
      rw [Decimal.digits_of_lt (by decide)]
      decide
    · cases h
    · cases h
      exact .null
  have hformat : Template.format entry.template entry.args = .ok "Fired\nfor A.a" := by
    show Template.format "Fired\nfor %s" [.text "A.a"] = .ok "Fired\nfor A.a"
    rfl
  have hcreated : Timestamp.InCalendar entry.created :=
    Timestamp.inCalendar_float (by decide +kernel) (by decide +kernel)
  have hsplit : Timestamp.split true (twoTo 1073) = (-1, 500000) := by
    decide +kernel
  have hparts : Timestamp.parts entry.created = .ok (-1, 500000) :=
    congrArg Except.ok hsplit
  obtain ⟨line, stamp, fields, seconds, micros, hline, hstamp, -, -, hprintable, hread, hkeys, -,
    htimestamp, -, -, hmessage, hextra, hexception⟩ :=
    read?_line entry hcreated hformat hextras
  exact ⟨line, stamp, fields, hline, Timestamp.read?_stamp hparts hstamp, hprintable, hread, hkeys,
    htimestamp, hmessage, hextra "rule" (.int 2) rfl (by simp), hexception _ rfl⟩

end Entry

end Log

end Synchrony
