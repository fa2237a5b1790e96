import CacheHitRate.Json.Numeric
import CacheHitRate.Number.Quantity
import CacheHitRate.Text.Basic
/-!
Normal forms of raw event fields. A token count is the floor of the field read as a number,
zero when the field is missing, non-numeric, non-finite or negative; a provider id is the same
floor, absent instead of zero; a model name is the trimmed text cut to 200 code points, or
`Unknown`. An integer beyond the binary64 range is an error, not a zero.
-/
namespace CacheHitRate.Normalize

def unknown : Text := Text.ofString "Unknown"

/-- The longest model name kept, in code points. -/
def maxModelNameLength : Nat := 200

/-- The floor of a field read as a number; `none` when it is null, a truth value, no number or
not finite. -/
def floorOf (v : Json) : Except ArithError (Option Int) :=
  match v with
  | .null => .ok none
  | .bool _ => .ok none
  | v =>
    match v.toFloat with
    | .error .tooLarge => .error .intTooLarge
    | .error .notNumeric => .ok none
    | .ok x => .ok (Binary64.floor? x)

/-- A raw token field as a count of at least zero. -/
def tokenCount (v : Json) : Except ArithError Nat :=
  (floorOf v).map fun n => (n.getD 0).toNat

/-- A raw provider id as a natural number, `none` when it is invalid or negative. -/
def providerId? (v : Json) : Except ArithError (Option Nat) :=
  (floorOf v).map fun n => n.bind fun k => if k < 0 then none else some k.toNat

/-- A requested model as a non-empty name of at most 200 code points. -/
def modelName (v : Json) : Text :=
  match v with
  | .str s =>
    let t := Text.strip s
    if t.isEmpty then unknown else t.take maxModelNameLength
  | _ => unknown

/-- A name trimmed of white space, `Unknown` when nothing is left. -/
def nameOr (t : Text) : Text :=
  let s := Text.strip t
  if s.isEmpty then unknown else s

theorem modelName_length_le (v : Json) : (modelName v).length ≤ maxModelNameLength := by
  unfold modelName
  split
  · simp only
    split
    · decide
    · rw [Text.length_take]; exact Nat.min_le_left _ _
  · decide

end CacheHitRate.Normalize
