import CacheHitRate.Text.Basic
/-!
The monitor's own activity as counters and gauges. Counters with a label keep one count per
label value; `samples` lists every series under its exposition name with its labels.
-/
namespace CacheHitRate

/-- Counts per label value, in the order the values first appeared. -/
abbrev Tally := List (Text × Nat)

def Tally.bump (t : Tally) (k : Text) : Tally :=
  if t.any (·.1 = k) then t.map fun p => if p.1 = k then (k, p.2 + 1) else p
  else t ++ [(k, 1)]

def Tally.count (t : Tally) (k : Text) : Nat := (t.lookup k).getD 0

structure Metrics where
  samples : Tally := []
  dropped : Tally := []
  alerts : Tally := []
  alertsSuppressed : Nat := 0
  selfCheckFailures : Nat := 0
  noticeFailures : Tally := []
  ingestErrors : Tally := []
  trackedGroups : Int := 0
  enabled : Int := 0
  evaluations : Nat := 0

namespace Metrics

/-- One series: its name, its labels and its value. -/
structure Series where
  name : String
  labels : List (String × Text)
  value : Int

def labelled (name label : String) (t : Tally) : List Series :=
  t.map fun (k, n) => ⟨name, [(label, k)], n⟩

/-- Every series under its exposition name. -/
def series (m : Metrics) : List Series :=
  labelled "cachewatch_samples_total" "cli_key" m.samples ++
  labelled "cachewatch_samples_dropped_total" "reason" m.dropped ++
  labelled "cachewatch_alerts_total" "reason" m.alerts ++
  [⟨"cachewatch_alerts_suppressed_total", [], m.alertsSuppressed⟩,
   ⟨"cachewatch_self_check_failures_total", [], m.selfCheckFailures⟩] ++
  labelled "cachewatch_notice_failures_total" "level" m.noticeFailures ++
  labelled "cachewatch_ingest_errors_total" "stage" m.ingestErrors ++
  [⟨"cachewatch_tracked_groups", [], m.trackedGroups⟩,
   ⟨"cachewatch_enabled", [], m.enabled⟩,
   ⟨"cachewatch_evaluation_duration_seconds_count", [], m.evaluations⟩]

theorem Tally.count_bump_self (t : Tally) (k : Text) : (t.bump k).count k = t.count k + 1 := by
  unfold Tally.bump Tally.count
  split
  · rename_i h
    induction t with
    | nil => simp at h
    | cons p rest ih =>
      obtain ⟨k', n⟩ := p
      by_cases hk : k' = k
      · subst hk; simp
      · have hb : (k == k') = false := beq_false_of_ne (Ne.symm hk)
        have hr : rest.any (·.1 = k) = true := by simpa [hk] using h
        simp [hk, List.lookup_cons, hb, ih hr]
  · rename_i h
    induction t with
    | nil => simp
    | cons p rest ih =>
      obtain ⟨k', n⟩ := p
      have hk : k' ≠ k := by intro e; simp [e] at h
      have hb : (k == k') = false := beq_false_of_ne (Ne.symm hk)
      have hr : ¬ rest.any (·.1 = k) = true := by simpa [hk] using h
      simp [List.lookup_cons, hb, ih hr]

end Metrics

end CacheHitRate
