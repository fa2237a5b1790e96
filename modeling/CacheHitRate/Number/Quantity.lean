import CacheHitRate.Number.Binary64
import CacheHitRate.Number.Shortest
/-!
Quantities: integers and binary64 values under one exact order. Thresholds and counters may be
written as either kind, and a count is compared with a rate without rounding the count; NaN is
unordered, so every comparison with it is false. The quotient of two integers is rounded once;
as soon as one side is binary64, the other is converted first and binary64 division follows.
-/
namespace CacheHitRate

/-! ### Arithmetic faults

The cases where a conversion or a division has no binary64 or integer answer. Each has one
fixed message.
-/

inductive ArithError where
  | intTooLarge
  | quotientTooLarge
  | divisionByZero
  | floatDivisionByZero
  | moduloByZero
  deriving DecidableEq, Repr

def ArithError.message : ArithError → String
  | .intTooLarge => "int too large to convert to float"
  | .quotientTooLarge => "integer division result too large for a float"
  | .divisionByZero => "division by zero"
  | .floatDivisionByZero => "float division by zero"
  | .moduloByZero => "integer modulo by zero"

/-- An integer or a binary64 value. -/
inductive Quantity where
  | int (n : Int)
  | float (x : Float)

namespace Quantity

/-- A point of the extended line; `finite v e` is `v * 2^e`. -/
inductive Extended where
  | negInf
  | finite (v : Int) (e : Int)
  | posInf

def Extended.compare : Extended → Extended → Ordering
  | .negInf, .negInf => .eq
  | .negInf, _ => .lt
  | _, .negInf => .gt
  | .posInf, .posInf => .eq
  | .posInf, _ => .gt
  | _, .posInf => .lt
  | .finite a ea, .finite b eb =>
    let e := min ea eb
    Ord.compare (a * Int.pow 2 (ea - e).toNat) (b * Int.pow 2 (eb - e).toNat)

/-- The exact value, `none` for NaN. -/
def extended? : Quantity → Option Extended
  | .int n => some (.finite n 0)
  | .float x =>
    match Binary64.parts x with
    | .nan => none
    | .infinite neg => some (if neg then .negInf else .posInf)
    | .finite neg m e => some (.finite (if neg then -(m : Int) else m) e)

/-- The exact order of two quantities, `none` when either is NaN. -/
def compare? (a b : Quantity) : Option Ordering :=
  match a.extended?, b.extended? with
  | some x, some y => some (x.compare y)
  | _, _ => none

/-- `a < b`, false when either is NaN. -/
def lt (a b : Quantity) : Bool := a.compare? b == some .lt

/-- `a ≤ b`, false when either is NaN. -/
def le (a b : Quantity) : Bool :=
  match a.compare? b with
  | some .lt | some .eq => true
  | _ => false

/-- `q = 0`, false for NaN. -/
def isZero (q : Quantity) : Bool := q.compare? (.int 0) == some .eq

/-- `0 < q`, false for NaN. -/
def isPositive (q : Quantity) : Bool := (Quantity.int 0).lt q

/-- The nearest binary64 value, an error for an integer beyond the binary64 range. -/
def toFloat : Quantity → Except ArithError Float
  | .int n =>
    match Binary64.ofInt? n with
    | some x => .ok x
    | none => .error .intTooLarge
  | .float x => .ok x

/-- `a / b`. Two integers give their quotient rounded once; otherwise both sides are converted
and divided as binary64 values, and a zero divisor is an error. -/
def div (a b : Quantity) : Except ArithError Float :=
  match a, b with
  | .int m, .int n =>
    if n = 0 then .error .divisionByZero
    else match Binary64.quotient? m n with
      | some x => .ok x
      | none => .error .quotientTooLarge
  | _, _ => do
    let x ← a.toFloat
    let y ← b.toFloat
    if y == 0.0 then throw .floatDivisionByZero
    return x / y

/-- The decimal text of a quantity: the digits of an integer, the shortest text of a binary64
value. -/
def text : Quantity → String
  | .int n => toString n
  | .float x => Shortest.render Shortest.plain x

theorem le_int_int (a b : Int) : le (.int a) (.int b) = decide (a ≤ b) := by
  simp only [le, compare?, extended?, Extended.compare, Int.min_self, Int.sub_self,
    Int.toNat_zero, show Int.pow 2 0 = 1 from rfl, Int.mul_one]
  rcases Int.lt_trichotomy a b with h | h | h
  · simp [Int.compare_eq_lt.mpr h, Int.le_of_lt h]
  · simp [h]
  · simp [Int.compare_eq_gt.mpr h, Int.not_le.mpr h]

theorem isZero_int (n : Int) : (Quantity.int n).isZero = decide (n = 0) := by
  simp only [isZero, compare?, extended?, Extended.compare, Int.min_self, Int.sub_self,
    Int.toNat_zero, show Int.pow 2 0 = 1 from rfl, Int.mul_one]
  rcases Int.lt_trichotomy n 0 with h | h | h
  · simp [Int.compare_eq_lt.mpr h, Int.ne_of_lt h]
  · simp [h]
  · simp [Int.compare_eq_gt.mpr h, Int.ne_of_gt h]

end Quantity

end CacheHitRate
