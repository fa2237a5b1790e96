import CacheHitRate.Group
import CacheHitRate.Rule
import CacheHitRate.Number.Binary64
/-!
Notices sent to the user. A warning names the anomalous group and shows its observe and
baseline windows; an error reports that a failed self-check turned monitoring off. Rates are
shown as percentages and ratios with two places, `-` when there is no rate.
-/

/-! ### Fixed-point text

The text of a binary64 value with a given number of places after the point, rounded half
to even from the exact binary value, so `0.125` at two places is `0.12`. The sign is the sign
bit, which keeps `-0.00` for small negatives.
-/

namespace CacheHitRate.Fixed

/-- `num / den` rounded to the nearest natural, ties to even. -/
def roundHalfEven (num den : Nat) : Nat :=
  let q := num / den
  let r := num % den
  if 2 * r > den || (2 * r == den && q % 2 == 1) then q + 1 else q

/-- `n` in decimal, padded with zeros on the left to `width` digits. -/
def padded (width n : Nat) : String :=
  let ds := Nat.toDigits 10 n
  String.ofList (List.replicate (width - ds.length) '0' ++ ds)

/-- `x` with `places` digits after the point; NaN and infinities as `nan`, `inf`, `-inf`. -/
def render (places : Nat) (x : Float) : String :=
  match Binary64.parts x with
  | .nan => "nan"
  | .infinite neg => (if neg then "-" else "") ++ "inf"
  | .finite neg m e =>
    let scale := Nat.pow 10 places
    let n := if 0 ≤ e then m * Nat.pow 2 e.toNat * scale else roundHalfEven (m * scale) (Nat.pow 2 (-e).toNat)
    let whole := String.ofList (Nat.toDigits 10 (n / scale))
    (if neg then "-" else "") ++ whole ++ (if places = 0 then "" else "." ++ padded places (n % scale))

theorem roundHalfEven_le (num den : Nat) : num / den ≤ roundHalfEven num den := by
  simp only [roundHalfEven]
  split <;> omega

end CacheHitRate.Fixed

namespace CacheHitRate

inductive Level where
  | warning
  | error
  deriving DecidableEq, Repr

def Level.text : Level → String
  | .warning => "warning"
  | .error => "error"

structure Notice where
  level : Level
  title : Text
  body : Text
  deriving Repr

namespace Notice

/-- A rate as a percentage with two places, `-` when it is not finite. -/
def formatPct (x : Float) : String :=
  if Binary64.isFinite x then Fixed.render 2 (x * 100.0) ++ "%" else "-"

/-- A ratio with two places, `-` when it is not finite. -/
def formatRatio (x : Float) : String :=
  if Binary64.isFinite x then Fixed.render 2 x ++ "x" else "-"

/-- `formatPct` of a quantity. An integer must have a binary64 value; it is scaled exactly
and the product rounded once. -/
def formatPctOf : Quantity → Except ArithError String
  | .float x => .ok (formatPct x)
  | .int n => do
    let _ ← (Quantity.int n).toFloat
    let x ← (Quantity.int (n * 100)).toFloat
    return Fixed.render 2 x ++ "%"

/-- `formatRatio` of a quantity; an integer must have a binary64 value. -/
def formatRatioOf : Quantity → Except ArithError String
  | .float x => .ok (formatRatio x)
  | .int n => do
    let x ← (Quantity.int n).toFloat
    return Fixed.render 2 x ++ "x"

/-- The warning for an anomaly of a group, titled with the reason. -/
def alert (key : GroupKey) (providerName : Text) (row : Row) (reason : Text) :
    Except ArithError Notice := do
  let observeRate ← row.observe.hitRate
  let share ← row.observe.createShare
  let ratio ← row.observe.createReadRatio
  let baselineRate ← row.baseline.hitRate
  let o := row.observe
  let b := row.baseline
  let s := Text.ofString
  let n (i : Int) := Text.ofInt i
  let q (x : Quantity) := s x.text
  let dot := s " · "
  let label := if row.coldStart then "Cold start" else "Recent"
  let lines : List Text :=
    [ s "CLI: " ++ key.cliKey,
      s "Provider: " ++ providerName ++ s " (#" ++ n key.providerId ++ s ")",
      s "Model: " ++ key.model,
      s label ++ s " (" ++ n row.observeMinutes ++ s "m): hit rate " ++ s (formatPct observeRate) ++
        dot ++ s "read tokens " ++ q o.cacheReadTokens ++
        dot ++ s "create tokens " ++ q o.cacheCreateTokens ++
        dot ++ s "denominator tokens " ++ q o.denomTokens ++
        dot ++ s "successful requests " ++ q o.successRequests,
      s "Create share " ++ s (formatPct share) ++ dot ++ s "create/read " ++ s (formatRatio ratio),
      s "Baseline (45m): hit rate " ++ s (formatPct baselineRate) ++
        dot ++ s "denominator tokens " ++ q b.denomTokens ++
        dot ++ s "successful requests " ++ q b.successRequests ]
  return ⟨.warning, s "Cache anomaly (" ++ reason ++ s ")", Text.join (s "\n") lines⟩

/-- The error sent when a failed self-check turns monitoring off. -/
def selfCheckFailed : Notice :=
  ⟨.error, Text.ofString "Cache anomaly monitor disabled",
    Text.ofString ("The rolling window self-check failed (likely a bug in the statistics code), " ++
      "so monitoring was turned off. See the logs for details.")⟩

end Notice

end CacheHitRate
