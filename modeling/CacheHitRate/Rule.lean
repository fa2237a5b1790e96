import CacheHitRate.Window.Sums
import CacheHitRate.Number.Quantity
/-!
Anomaly rules. A group's row holds its baseline, recent and observe sums. Three absolute rules
look at the observe window once it has enough volume (the cold-start gate during cold start,
the recent gate otherwise): creation with no reads, a high creation share, and creation far
above reads. The hit-rate cliff compares the recent hit rate with the baseline one, behind its
own volume gates. `shouldAlert` gives the first rule that fires. Thresholds are quantities and
compared exactly; a NaN threshold never passes.
-/
namespace CacheHitRate

structure Thresholds where
  baselineDenomTokensMin : Quantity := .int 10000
  recentDenomTokensMin : Quantity := .int 3000
  baselineSuccessRequestsMin : Quantity := .int 30
  recentSuccessRequestsMin : Quantity := .int 10
  baselineHitRateMin : Quantity := .float 0.05
  dropRatioMax : Quantity := .float 0.25
  dropAbsMin : Quantity := .float 0.05
  coldDenomTokensMin : Quantity := .int 2000
  coldSuccessRequestsMin : Quantity := .int 5
  createShareMin : Quantity := .float 0.9
  createReadImbalanceMin : Quantity := .float 3.0

inductive Reason where
  | createWithoutRead
  | createShareHigh
  | createReadImbalance
  | hitRateCliff
  deriving DecidableEq, Repr

def Reason.text : Reason → String
  | .createWithoutRead => "cache creation but zero reads"
  | .createShareHigh => "cache-create share abnormally high"
  | .createReadImbalance => "cache creation far exceeds reads"
  | .hitRateCliff => "hit-rate cliff"

/-- One group in one evaluation: the counters of its three windows. -/
structure Row where
  baseline : Counts
  recent : Counts
  observe : Counts
  observeMinutes : Int
  coldStart : Bool

namespace Row

/-- Whether the observe window has the volume the absolute rules need. -/
def passesVolumeGate (r : Row) (t : Thresholds) : Bool :=
  let (denomMin, successMin) := if r.coldStart then (t.coldDenomTokensMin, t.coldSuccessRequestsMin)
    else (t.recentDenomTokensMin, t.recentSuccessRequestsMin)
  denomMin.le r.observe.denomTokens && successMin.le r.observe.successRequests

/-- Whether the recent hit rate fell to at most `dropRatioMax` of the baseline one, by at least
`dropAbsMin`, with both windows busy enough. -/
def isHitRateCliff (r : Row) (t : Thresholds) : Except ArithError Bool := do
  if r.baseline.denomTokens.lt t.baselineDenomTokensMin then return false
  if r.recent.denomTokens.lt t.recentDenomTokensMin then return false
  if r.baseline.successRequests.lt t.baselineSuccessRequestsMin then return false
  if r.recent.successRequests.lt t.recentSuccessRequestsMin then return false
  let base ← r.baseline.hitRate
  let recent ← r.recent.hitRate
  if !Binary64.isFinite base then return false
  if (Quantity.float base).lt t.baselineHitRateMin then return false
  if !Binary64.isFinite recent then return false
  if base == 0.0 then throw .floatDivisionByZero
  let ratio := recent / base
  let drop := base - recent
  return (Quantity.float ratio).le t.dropRatioMax && t.dropAbsMin.le (.float drop)

/-- The first rule that fires for the row, `none` when the group looks healthy. -/
def shouldAlert (r : Row) (t : Thresholds) : Except ArithError (Option Reason) := do
  if r.passesVolumeGate t then
    let o := r.observe
    if o.cacheReadTokens.isZero && o.cacheCreateTokens.isPositive then
      return some .createWithoutRead
    let share ← o.createShare
    if Binary64.isFinite share && t.createShareMin.le (.float share) then
      return some .createShareHigh
    let ratio ← o.createReadRatio
    if Binary64.isFinite ratio && t.createReadImbalanceMin.le (.float ratio) then
      return some .createReadImbalance
  if ← r.isHitRateCliff t then return some .hitRateCliff
  return none

end Row

end CacheHitRate
