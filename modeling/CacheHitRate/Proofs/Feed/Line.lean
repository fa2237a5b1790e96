import CacheHitRate.Monitor.Feed
/-!
One line of the event feed. Reading a payload fails exactly on a value that is not an object,
or is one whose `type` member names no kind of event, and the error says which. A line blank
once trimmed changes nothing; any other line is counted and then either counts one parse error
and changes nothing else, or goes to the monitor as the one event its payload reads as.
Handling a line has no way to fail: every failure downstream is caught where it arises.
-/
namespace CacheHitRate

namespace Event

/-- The `type` members that name a kind of event. -/
def IsKind (type : Json) : Prop :=
  type = .str (Text.ofString "request_start") ∨ type = .str (Text.ofString "request_completion")

theorem ofJson_eq_error_iff (v : Json) (err : EventError) :
    ofJson v = .error err ↔
      (v.isObject = false ∧ err = .notObject) ∨
        (v.isObject = true ∧ ¬ IsKind (v.field "type") ∧ err = .unknownType (v.field "type")) := by
  cases hobj : v.isObject
  · simp only [ofJson, hobj, Bool.not_false, if_true, Except.error.injEq, true_and]
    constructor
    · exact fun h => Or.inl h.symm
    · rintro (h | ⟨h, _⟩)
      · exact h.symm
      · simp at h
  · simp only [ofJson, hobj, Bool.not_true, Bool.false_eq_true, if_false, true_and, IsKind]
    split
    · rename_i t htype
      by_cases hstart : t = Text.ofString "request_start"
      · simp [hstart, htype]
      · by_cases hcompletion : t = Text.ofString "request_completion"
        · have hkinds : Text.ofString "request_completion" ≠ Text.ofString "request_start" := by
            decide
          simp [hcompletion, htype, hkinds]
        · simp [hstart, hcompletion, htype, eq_comm]
    · rename_i htype
      have hkind : ¬ (v.field "type" = .str (Text.ofString "request_start") ∨
          v.field "type" = .str (Text.ofString "request_completion")) := by
        rintro (h | h) <;> exact htype _ h
      simp [hkind, eq_comm]

theorem ofJson_fails_iff (v : Json) :
    (∃ err, ofJson v = .error err) ↔ v.isObject = false ∨ ¬ IsKind (v.field "type") := by
  simp only [ofJson_eq_error_iff]
  constructor
  · rintro ⟨_, ⟨hobj, _⟩ | ⟨_, hkind, _⟩⟩
    · exact Or.inl hobj
    · exact Or.inr hkind
  · intro h
    cases hobj : v.isObject
    · exact ⟨_, Or.inl ⟨rfl, rfl⟩⟩
    · have hkind : ¬ IsKind (v.field "type") := by simpa [hobj] using h
      exact ⟨_, Or.inr ⟨rfl, hkind, rfl⟩⟩

end Event

namespace Monitor

def countParseError (m : Monitor) : Monitor :=
  m.withMetrics fun x => { x with ingestErrors := x.ingestErrors.bump (Text.ofString "parse") }

/-- Hands one event to the monitor at time `now`: the monitor after it and the notices given. -/
def ingest (m : Monitor) (e : Event) (now : Int) : Monitor × List Notice :=
  match e with
  | .start e => (m.ingestStart e now, [])
  | .completion e => m.completion e now

theorem countParseError_count (m : Monitor) :
    m.countParseError.metrics.ingestErrors.count (Text.ofString "parse") =
      m.metrics.ingestErrors.count (Text.ofString "parse") + 1 :=
  Metrics.Tally.count_bump_self _ _

theorem eventOfLine_eq_none_iff (limit : Nat) (t : Text) :
    eventOfLine limit t = none ↔
      Json.read? limit t = none ∨
        ∃ v, Json.read? limit t = some v ∧ ∃ err, Event.ofJson v = .error err := by
  unfold eventOfLine
  split
  · rename_i v hread
    cases hev : Event.ofJson v <;> simp [hread, hev]
  · rename_i hread
    simp [hread]

theorem eventOfLine_eq_some_iff (limit : Nat) (t : Text) (e : Event) :
    eventOfLine limit t = some e ↔ ∃ v, Json.read? limit t = some v ∧ Event.ofJson v = .ok e := by
  unfold eventOfLine
  split
  · rename_i v hread
    cases hev : Event.ofJson v <;> simp [hread, hev]
  · rename_i hread
    simp [hread]

theorem handleLineWithin_of_blank (limit : Nat) (m : Monitor) (line : Text) (now : Int)
    (h : (Text.strip line).isEmpty = true) :
    m.handleLineWithin limit line now = (m, .blank, []) := by
  simp [handleLineWithin, h]

theorem handleLineWithin_of_none (limit : Nat) (m : Monitor) (line : Text) (now : Int)
    (h : (Text.strip line).isEmpty = false) (hev : eventOfLine limit (Text.strip line) = none) :
    m.handleLineWithin limit line now = (m.countParseError, .malformed, []) := by
  simp [handleLineWithin, h, hev, countParseError]

theorem handleLineWithin_of_some (limit : Nat) (m : Monitor) (line : Text) (now : Int) (e : Event)
    (h : (Text.strip line).isEmpty = false) (hev : eventOfLine limit (Text.strip line) = some e) :
    m.handleLineWithin limit line now = ((m.ingest e now).1, .event, (m.ingest e now).2) := by
  cases e <;> simp [handleLineWithin, h, hev, ingest]

/-- A line is counted exactly when it is not blank once trimmed. -/
theorem handleLineWithin_counted_iff (limit : Nat) (m : Monitor) (line : Text) (now : Int) :
    (m.handleLineWithin limit line now).2.1 ≠ .blank ↔ (Text.strip line).isEmpty = false := by
  cases hblank : (Text.strip line).isEmpty
  · cases hev : eventOfLine limit (Text.strip line) with
    | none => simp [handleLineWithin_of_none limit m line now hblank hev]
    | some e => simp [handleLineWithin_of_some limit m line now e hblank hev]
  · simp [handleLineWithin_of_blank limit m line now hblank]

end Monitor

open Monitor

/-- One line of the feed, read with the nesting budget `limit`. It is counted exactly when it is
not blank once trimmed, and a blank line changes nothing. Any other line does exactly one of two
things: its text is no JSON document within the budget, or its document is no event, and then one
parse error is counted and nothing else changes; or its document reads as an event, and handing
that event to the monitor is the line's whole effect. The payload reader fails exactly on a value
that is not an object or names no kind of event. -/
theorem line_handled_once (limit : Nat) (m : Monitor) (line : Text) (now : Int) :
    ((m.handleLineWithin limit line now).2.1 ≠ .blank ↔ (Text.strip line).isEmpty = false) ∧
    ((Text.strip line).isEmpty = true → m.handleLineWithin limit line now = (m, .blank, [])) ∧
    ((Text.strip line).isEmpty = false →
      (m.handleLineWithin limit line now = (m.countParseError, .malformed, []) ∧
          m.countParseError.metrics.ingestErrors.count (Text.ofString "parse") =
            m.metrics.ingestErrors.count (Text.ofString "parse") + 1 ∧
          (Json.read? limit (Text.strip line) = none ∨
            ∃ v, Json.read? limit (Text.strip line) = some v ∧ ∃ err, Event.ofJson v = .error err)) ∨
        (∃ v e, Json.read? limit (Text.strip line) = some v ∧ Event.ofJson v = .ok e ∧
          m.handleLineWithin limit line now = ((m.ingest e now).1, .event, (m.ingest e now).2))) ∧
    (∀ v, (∃ err, Event.ofJson v = .error err) ↔
      v.isObject = false ∨ ¬ Event.IsKind (v.field "type")) := by
  refine ⟨handleLineWithin_counted_iff limit m line now, handleLineWithin_of_blank limit m line now,
    ?_, Event.ofJson_fails_iff⟩
  intro hblank
  cases hev : eventOfLine limit (Text.strip line) with
  | none =>
    exact Or.inl ⟨handleLineWithin_of_none limit m line now hblank hev, countParseError_count m,
      (eventOfLine_eq_none_iff limit _).1 hev⟩
  | some e =>
    obtain ⟨v, hread, hok⟩ := (eventOfLine_eq_some_iff limit _ e).1 hev
    exact Or.inr ⟨v, e, hread, hok, handleLineWithin_of_some limit m line now e hblank hev⟩

end CacheHitRate
