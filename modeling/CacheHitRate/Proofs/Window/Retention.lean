import CacheHitRate.Proofs.Window.Sums

/-!
Pruning the sample buffer, whatever order its samples arrived in. Pruning to a bound drops the
longest prefix of samples older than the bound and nothing after it, and reports how many it
dropped; the rest stays in order. A late sample therefore stops it, and older samples behind it
stay. Still, no range that starts at the bound or later loses anything, and when the samples
arrived in minute order none older than the bound is left.
-/

namespace CacheHitRate

namespace Buffer

variable (b : Buffer) (minMinute : Int)

/-- What pruning drops: the samples before the first one as new as the bound. -/
def pruned : List Sample := b.samples.takeWhile (isOlder minMinute)

theorem samples_eq_pruned_append :
    b.samples = b.pruned minMinute ++ (b.prune minMinute).2.samples :=
  List.takeWhile_append_dropWhile.symm

theorem prune_fst : (b.prune minMinute).1 = (b.pruned minMinute).length := by
  have hlen := congrArg List.length (b.samples_eq_pruned_append minMinute)
  rw [List.length_append, prune_samples] at hlen
  simp only [prune]
  omega

variable {b minMinute}

theorem minute_lt_of_mem_pruned {s : Sample} (hs : s ∈ b.pruned minMinute) :
    s.minute < minMinute := by
  simpa [isOlder] using List.all_eq_true.1 List.all_takeWhile s hs

theorem le_minute_of_head?_prune {s : Sample} (hs : s ∈ (b.prune minMinute).2.samples.head?) :
    minMinute ≤ s.minute := by
  have hstop := List.head?_dropWhile_not (isOlder minMinute) b.samples
  rw [← prune_samples, Option.mem_def.1 hs] at hstop
  simpa [isOlder] using hstop

theorem le_minute_of_mem_prune (hsorted : b.samples.Pairwise fun x y => x.minute ≤ y.minute)
    {s : Sample} (hs : s ∈ (b.prune minMinute).2.samples) : minMinute ≤ s.minute := by
  have hkept : ((b.prune minMinute).2.samples).Pairwise fun x y => x.minute ≤ y.minute :=
    hsorted.sublist (by rw [prune_samples]; exact List.dropWhile_sublist _)
  cases hrest : (b.prune minMinute).2.samples with
  | nil => simp [hrest] at hs
  | cons first rest =>
    have hfirst : minMinute ≤ first.minute := le_minute_of_head?_prune (by rw [hrest]; rfl)
    rw [hrest] at hs hkept
    rcases List.mem_cons.1 hs with rfl | hs
    · exact hfirst
    · exact Int.le_trans hfirst (List.rel_of_pairwise_cons hkept hs)

end Buffer

/-- Pruning a buffer to `minMinute`, whatever the order of its samples, splits them into a
dropped prefix of samples older than `minMinute` and the kept rest, in order; the first kept
sample, if any, is not older, so the prefix is the longest such. Pruning returns the prefix's
length, keeps every range sum that starts at `minMinute` or later, and leaves no sample older
than `minMinute` when the samples were in minute order. -/
theorem Buffer.prune_drops_longest_old_prefix (b : Buffer) (minMinute : Int) :
    ∃ dropped : List Sample,
      b.samples = dropped ++ (b.prune minMinute).2.samples ∧
      (∀ s ∈ dropped, s.minute < minMinute) ∧
      (∀ s ∈ (b.prune minMinute).2.samples.head?, minMinute ≤ s.minute) ∧
      (b.prune minMinute).1 = dropped.length ∧
      (∀ span : Span, minMinute ≤ span.first →
        (b.prune minMinute).2.sumRange span = b.sumRange span) ∧
      (b.samples.Pairwise (fun x y => x.minute ≤ y.minute) →
        ∀ s ∈ (b.prune minMinute).2.samples, minMinute ≤ s.minute) :=
  ⟨b.pruned minMinute, b.samples_eq_pruned_append minMinute,
    fun _ hs => Buffer.minute_lt_of_mem_pruned hs, fun _ hs => Buffer.le_minute_of_head?_prune hs,
    b.prune_fst minMinute, fun _ hspan => b.sumRange_prune hspan,
    fun hsorted _ hs => Buffer.le_minute_of_mem_prune hsorted hs⟩

end CacheHitRate
