import CacheHitRate.Group
import CacheHitRate.Rule
/-!
One evaluation cycle over the tracked groups. Groups unseen for longer than the ring window are
evicted; every other group gets a row of ring sums over the three windows. The busiest groups
(by baseline plus recent denominator, a stable order) are audited: their buffers are pruned to
the retention and their sums recomputed from the raw samples, and the first disagreement with
the ring is the self-check failure. A cycle with a failure raises no anomalies; otherwise each
row is checked by the anomaly rules, in group order.
-/
namespace CacheHitRate

/-- Number of busiest groups audited per cycle. -/
def selfCheckGroups : Int := 20

/-- The sums of the three windows of one group. -/
structure Triple where
  baseline : Sums
  recent : Sums
  observe : Sums
  deriving DecidableEq, Repr

namespace Triple

/-- Baseline plus recent denominator tokens: how busy the group is. -/
def totalDenomTokens (t : Triple) : Int := t.baseline.denomTokens + t.recent.denomTokens

def row (w : Windows) (t : Triple) : Row :=
  { baseline := t.baseline.counts, recent := t.recent.counts, observe := t.observe.counts
    observeMinutes := w.observeMinutes, coldStart := w.coldStart }

end Triple

/-- The audited group whose ring disagreed with its samples. -/
structure SelfCheckFailure where
  key : GroupKey
  providerName : Text
  ring : Triple
  slow : Triple
  deriving Repr

structure Evaluation where
  windows : Windows
  evicted : Nat
  rows : List (GroupKey × Triple)
  anomalies : List (GroupKey × Row × Reason)
  failure : Option SelfCheckFailure

namespace Evaluation

/-- A group's window sums from its minute ring. -/
def ringTriple (w : Windows) (g : Group) : Triple :=
  let recent := g.ring.sumRange w.recent
  ⟨g.ring.sumRange w.baseline, recent, if w.coldStart then g.ring.sumRange w.observe else recent⟩

/-- A group's window sums recomputed from its raw samples. -/
def slowTriple (w : Windows) (g : Group) : Triple :=
  let recent := g.samples.sumRange w.recent
  ⟨g.samples.sumRange w.baseline, recent,
    if w.coldStart then g.samples.sumRange w.observe else recent⟩

/-- The first `n` items, or for negative `n` all but the last `-n`. -/
def leading {α : Type} (n : Int) (xs : List α) : List α :=
  if 0 ≤ n then xs.take n.toNat else xs.take (xs.length - n.natAbs)

/-- Whether a group has been unseen for longer than the ring window at minute `m`. -/
def isStale (m : Int) (g : Group) : Bool := decide (g.lastSeenMinute < m - Ring.windowMinutes)

/-- Audits the rows in the given order: prunes each group's buffer and compares its sums with
the row; stops at the first disagreement. -/
def auditRows (w : Windows) : List (GroupKey × Triple) → Groups → Option SelfCheckFailure × Groups
  | [], gs => (none, gs)
  | (key, ring) :: rest, gs =>
    let gs := gs.modify key fun g =>
      { g with samples := (g.samples.prune (w.minuteNow - Buffer.retentionMinutes)).2 }
    match gs.find? key with
    | none => auditRows w rest gs
    | some g =>
      let slow := slowTriple w g
      if ring = slow then auditRows w rest gs
      else (some ⟨key, g.providerName, ring, slow⟩, gs)

/-- The rows in the order of the audit: busiest first, ties in group order. -/
def busiest (rows : List (GroupKey × Triple)) : List (GroupKey × Triple) :=
  rows.mergeSort fun a b => decide (b.2.totalDenomTokens ≤ a.2.totalDenomTokens)

end Evaluation

/-- Runs one evaluation at `now` for a monitor enabled at `enabledAt`, auditing `audited`
groups. Gives the groups after eviction and pruning, which stand even when the rules then stop
on an arithmetic error, and the result. -/
def evaluate (t : Thresholds) (audited : Int) (gs : Groups) (now enabledAt : Int) :
    Groups × Except ArithError Evaluation :=
  let w := Windows.compute now enabledAt
  let kept := gs.filter fun g => !Evaluation.isStale w.minuteNow g
  let rows := kept.map fun g => (g.key, Evaluation.ringTriple w g)
  let base : Evaluation :=
    { windows := w, evicted := gs.length - kept.length, rows, anomalies := [], failure := none }
  match Evaluation.auditRows w (Evaluation.leading audited (Evaluation.busiest rows)) kept with
  | (some f, gs') => (gs', .ok { base with failure := some f })
  | (none, gs') =>
    let anomalies := rows.filterMapM fun (key, sums) => do
      let row := sums.row w
      let r ← row.shouldAlert t
      return r.map fun reason => (key, row, reason)
    (gs', anomalies.map fun anomalies => { base with anomalies })

end CacheHitRate
