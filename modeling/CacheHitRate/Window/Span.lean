import CacheHitRate.Sample
/-!
The windows of one evaluation, as inclusive minute ranges ending at the current minute `m`:
the baseline `[m-59, m-15]` (45 minutes), the recent window `[m-14, m]` (15 minutes), and the
observe window, which is the recent window except during the first ten minutes after enabling
(cold start), when it grows by one minute per minute.
-/
namespace CacheHitRate

def baselineMinutes : Int := 45
def recentMinutes : Int := 15
def coldStartMinutes : Int := 10

/-- An inclusive range of minutes. -/
structure Span where
  first : Int
  last : Int
  deriving DecidableEq, Repr

def Span.contains (s : Span) (minute : Int) : Bool := decide (s.first ≤ minute ∧ minute ≤ s.last)

structure Windows where
  minuteNow : Int
  baseline : Span
  recent : Span
  observe : Span
  observeMinutes : Int
  coldStart : Bool
  deriving Repr

/-- The windows of an evaluation at `now`, for a monitor enabled at `enabledAt` (0 when it
was not enabled). -/
def Windows.compute (now enabledAt : Int) : Windows :=
  let m := minuteOf now
  let cold := decide (enabledAt > 0 ∧ now - enabledAt < coldStartMinutes * minuteMs)
  let om := if cold then min coldStartMinutes (Int.fdiv (now - enabledAt) minuteMs + 1)
    else recentMinutes
  { minuteNow := m
    baseline := ⟨m - (baselineMinutes + recentMinutes - 1), m - recentMinutes⟩
    recent := ⟨m - (recentMinutes - 1), m⟩
    observe := ⟨m - (om - 1), m⟩
    observeMinutes := om
    coldStart := cold }

end CacheHitRate
