/-!
Binary64 values as exact numbers. A finite value is `±m * 2^e`, read off its bits by `parts`;
`roundRatio` goes the other way, rounding a ratio of naturals to the nearest value with ties to
even and building the bits directly. Every conversion of the library (integers, quotients,
decimal text) rounds once through `roundRatio`, and comparisons with integers are exact.
-/
namespace CacheHitRate.Binary64

/-- The value of a binary64 number. A finite value is `(-1)^neg * m * 2^e`. -/
inductive Parts where
  | nan
  | infinite (neg : Bool)
  | finite (neg : Bool) (m : Nat) (e : Int)
  deriving Repr, DecidableEq

def parts (x : Float) : Parts :=
  let b : Nat := x.toBits.toNat
  let neg : Bool := decide (Nat.pow 2 63 ≤ b)
  let biased : Nat := b / Nat.pow 2 52 % 2048
  let frac : Nat := b % Nat.pow 2 52
  if biased = 2047 then
    if frac = 0 then .infinite neg else .nan
  else if biased = 0 then .finite neg frac (-1074)
  else .finite neg (frac + Nat.pow 2 52) ((biased : Int) - 1075)

/-- The number with the given sign, biased exponent and fraction field. -/
def ofFields (neg : Bool) (biased frac : Nat) : Float :=
  Float.ofBits (UInt64.ofNat ((if neg then Nat.pow 2 63 else 0) + biased * Nat.pow 2 52 + frac))

def zero (neg : Bool) : Float := ofFields neg 0 0

def infinity (neg : Bool) : Float := ofFields neg 2047 0

def nan : Float := ofFields false 2047 (Nat.pow 2 51)

/-- Quotient, remainder and divisor of `num * 2^(-e)` by `den`, the shift going to whichever
side keeps both natural. -/
def shiftedDivMod (num den : Nat) (e : Int) : Nat × Nat × Nat :=
  let n := num * Nat.pow 2 (-e).toNat
  let d := den * Nat.pow 2 e.toNat
  (n / d, n % d, d)

/-- The exponent of the last place kept when `num / den` is rounded: the one that puts the
quotient in `[2^52, 2^53)`, raised to `-1074` for the subnormal range. -/
def placeOf (num den : Nat) : Int :=
  let e := ((num.log2 : Int) - den.log2) - 52
  let e := if (shiftedDivMod num den e).1 < Nat.pow 2 52 then e - 1 else e
  max e (-1074)

/-- `num / den` rounded to the nearest binary64 value, ties to even, with the sign `neg`.
`none` when the rounded magnitude would reach `2^1024`, that is, overflow. -/
def roundRatio (neg : Bool) (num den : Nat) : Option Float :=
  if num = 0 then some (zero neg) else
  let e := placeOf num den
  let (q, r, d) := shiftedDivMod num den e
  let q := if 2 * r > d || (2 * r == d && q % 2 == 1) then q + 1 else q
  let (q, e) := if q = Nat.pow 2 53 then (Nat.pow 2 52, e + 1) else (q, e)
  if q < Nat.pow 2 52 then some (ofFields neg 0 q)
  else if e > 971 then none
  else some (ofFields neg (e + 1075).toNat (q - Nat.pow 2 52))

/-- The nearest binary64 value to an integer, `none` when it overflows. -/
def ofInt? (n : Int) : Option Float := roundRatio (n < 0) n.natAbs 1

/-- The quotient `a / b` of integers rounded once, `none` when it overflows. The sign is that
of the exact quotient, so `0 / -5` is `-0.0`. -/
def quotient? (a b : Int) : Option Float := roundRatio ((a < 0) != (b < 0)) a.natAbs b.natAbs

/-- The signed integer `v * 2^e`'s floor. -/
def floorScaled (v : Int) (e : Int) : Int :=
  if 0 ≤ e then v * Int.pow 2 e.toNat else Int.fdiv v (Int.pow 2 (-e).toNat)

/-- The greatest integer not above a finite value; `none` for infinities and NaN. -/
def floor? (x : Float) : Option Int :=
  match parts x with
  | .finite neg m e => some (floorScaled (if neg then -(m : Int) else m) e)
  | _ => none

/-- The integer part of a finite value (rounding toward zero); `none` for infinities and NaN. -/
def truncate? (x : Float) : Option Int :=
  match parts x with
  | .finite neg m e =>
    let t : Int := if 0 ≤ e then (m : Int) * Int.pow 2 e.toNat else (m / Nat.pow 2 (-e).toNat : Nat)
    some (if neg then -t else t)
  | _ => none

def isFinite (x : Float) : Bool :=
  match parts x with
  | .finite .. => true
  | _ => false

theorem roundRatio_zero (neg : Bool) (den : Nat) : roundRatio neg 0 den = some (zero neg) := rfl

example : parts 1.0 = .finite false (2 ^ 52) (-52) := by decide +kernel
example : (ofInt? 3).map parts = some (.finite false (3 * 2 ^ 51) (-51)) := by decide +kernel

end CacheHitRate.Binary64
