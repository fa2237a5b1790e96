import CacheHitRate.Number.Binary64
/-!
Shortest decimal text of a binary64 value. The reals that round to `m * 2^e` form an interval
around it, closed when `m` is even; `digits` tries decimal grids of 1 to 17 significant digits
and on the first grid that meets the interval takes the nearest of the value's two neighbours.
`Notation` holds the choices of layout beyond the digits, and `render` writes a value with them.
-/
namespace CacheHitRate.Shortest

def decimalDigits (n : Nat) : List Char := Nat.toDigits 10 n

def digitCount (n : Nat) : Nat := (decimalDigits n).length

/-- `⌊log₁₀ (num / den)⌋` for positive `num` and `den`. -/
def log10Floor (num den : Nat) : Int :=
  let k : Int := (digitCount num : Int) - digitCount den
  if den * Nat.pow 10 k.toNat ≤ num * Nat.pow 10 (-k).toNat then k else k - 1

/-- Of the two multiples of `unit` around `x`, the one inside the interval from `lo` to `hi`
(closed or open), the nearer one if both are, the even one on a tie. -/
def pick (lo x hi unit : Nat) (closed : Bool) : Option Nat :=
  let below := x / unit
  let inside (d : Nat) : Bool :=
    if closed then lo ≤ d * unit && d * unit ≤ hi else lo < d * unit && d * unit < hi
  let dist (d : Nat) : Nat := if x ≤ d * unit then d * unit - x else x - d * unit
  match inside below, inside (below + 1) with
  | true, true =>
    if dist below < dist (below + 1) then some below
    else if dist (below + 1) < dist below then some (below + 1)
    else some (if below % 2 = 0 then below else below + 1)
  | true, false => some below
  | false, true => some (below + 1)
  | false, false => none

/-- Drops trailing zeros of `d`, raising the exponent `p` for each. -/
def dropZeros : Nat → Nat → Int → Nat × Int
  | 0, d, p => (d, p)
  | fuel + 1, d, p => if d ≠ 0 ∧ d % 10 = 0 then dropZeros fuel (d / 10) (p + 1) else (d, p)

/-- The shortest decimal `d * 10^p` that reads back as `m * 2^e` (for `m > 0`): fewest
significant digits first, then nearest to the value, then even; `d` has no trailing zero. -/
def digits (m : Nat) (e : Int) : Nat × Int :=
  let lowGap := if m = Nat.pow 2 52 ∧ e > -1074 then 1 else 2
  let t := e - 2
  let up := Nat.pow 2 t.toNat
  let den := Nat.pow 2 (-t).toNat
  let x := 4 * m * up
  let lo := (4 * m - lowGap) * up
  let hi := (4 * m + 2) * up
  let k := log10Floor x den
  let onGrid (n : Nat) (closed : Bool) : Option (Nat × Int) :=
    let p := k - n + 1
    let s := Nat.pow 10 (-p).toNat
    (pick (lo * s) (x * s) (hi * s) (den * Nat.pow 10 p.toNat) closed).map (·, p)
  let found := ((List.range 17).findSome? fun i => onGrid (i + 1) (m % 2 == 0)).getD
    ((onGrid 17 true).getD (0, 0))
  dropZeros (digitCount found.1) found.1 found.2

/-- How a value is written beyond its digits. -/
structure Notation where
  /-- Decimal exponents `k` with `positionalFrom ≤ k < positionalBelow` are written
  positionally, the others as a mantissa and an exponent. -/
  positionalFrom : Int
  positionalBelow : Int
  /-- Least number of digits of a written exponent. -/
  exponentWidth : Nat
  nanText : String
  infinityText : String

/-- The notation of display text: `nan` and `inf`, positional from `1e-4` up to `1e16`. -/
def plain : Notation := ⟨-4, 16, 2, "nan", "inf"⟩

def zeros (n : Nat) : String := String.ofList (List.replicate n '0')

/-- The text of `d * 10^p` for `d > 0` without trailing zeros. -/
def layout (style : Notation) (d : Nat) (p : Int) : String :=
  let ds := decimalDigits d
  let k : Int := ds.length - 1 + p
  if style.positionalFrom ≤ k ∧ k < style.positionalBelow then
    if 0 ≤ p then String.ofList ds ++ zeros p.toNat ++ ".0"
    else if 0 ≤ k then
      String.ofList (ds.take (k.toNat + 1)) ++ "." ++ String.ofList (ds.drop (k.toNat + 1))
    else "0." ++ zeros ((-k).toNat - 1) ++ String.ofList ds
  else
    let mantissa := match ds with
      | [c] => c.toString
      | c :: rest => c.toString ++ "." ++ String.ofList rest
      | [] => "0"
    let width := decimalDigits k.natAbs
    mantissa ++ "e" ++ (if k < 0 then "-" else "+") ++ zeros (style.exponentWidth - width.length) ++
      String.ofList width

/-- The shortest text of a value that reads back as the same value. -/
def render (style : Notation) (x : Float) : String :=
  match Binary64.parts x with
  | .nan => style.nanText
  | .infinite neg => (if neg then "-" else "") ++ style.infinityText
  | .finite neg m e =>
    let sign := if neg then "-" else ""
    if m = 0 then sign ++ "0.0"
    else
      let (d, p) := digits m e
      sign ++ layout style d p

end CacheHitRate.Shortest
