import CacheHitRate.Json.Basic
import CacheHitRate.Number.Decimal
/-!
Numbers from JSON values. `toFloat` reads integers (rounded once; an error past the binary64
range), binary64 values, truth values and text in the float grammar; `toInt?` reads integers,
truth values, finite binary64 values (toward zero) and text in the integer grammar.
-/
namespace CacheHitRate.Json

/-- Why a value gives no binary64 number. -/
inductive FloatFault where
  /-- The value is of a kind, or a text, that is no number. -/
  | notNumeric
  /-- The value is an integer too large for binary64. -/
  | tooLarge
  deriving DecidableEq

def toFloat : Json → Except FloatFault Float
  | .int n =>
    match Binary64.ofInt? n with
    | some x => .ok x
    | none => .error .tooLarge
  | .float x => .ok x
  | .bool b => .ok (if b then 1.0 else 0.0)
  | .str s =>
    match Decimal.readFloat? s with
    | some x => .ok x
    | none => .error .notNumeric
  | _ => .error .notNumeric

/-- The value as an integer, `none` when it has none. -/
def toInt? : Json → Option Int
  | .int n => some n
  | .bool b => some (if b then 1 else 0)
  | .float x => Binary64.truncate? x
  | .str s => Decimal.readInt? s
  | _ => none

end CacheHitRate.Json
