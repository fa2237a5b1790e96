import Mathlib.Data.List.Induction
import CacheHitRate.Proofs.Window.Agreement

/-!
What each slot of the minute ring holds, for samples added in any order. Slot `i` of a ring of
`n` slots sees exactly the samples whose minute is `i` modulo `n`, rounding toward minus
infinity, and nothing else touches it: the ring is determined slot by slot by these residue
classes. A slot keeps the minute of the last sample it saw, or the tag of an untouched slot, and
the counters of the last run of samples of that minute: a sample of another minute starts the
slot afresh. A range sum then adds the slots whose tag lies in the range.
-/

namespace CacheHitRate

/-- The samples of `xs` that a ring of `n` slots puts into slot `i`: those whose minute is `i`
modulo `n`, rounding toward minus infinity. -/
def Ring.residue (n : Nat) (i : Nat) (xs : List Sample) : List Sample :=
  xs.filter fun x => x.minute.fmod n = i

namespace Bucket

theorem foldl_add_minute (S : List Sample) (b : Bucket) :
    (S.foldl Bucket.add b).minute = (S.getLast?.map (·.minute)).getD b.minute := by
  induction S using List.reverseRecOn with
  | nil => rfl
  | append_singleton S x _ => simp [Bucket.add]

theorem foldl_add_sums (S : List Sample) :
    ∃ pre run, S = pre ++ run ∧ (∀ x ∈ run, x.minute = (S.foldl Bucket.add {}).minute) ∧
      (∀ x ∈ pre.getLast?, x.minute ≠ (S.foldl Bucket.add {}).minute) ∧
      (S.foldl Bucket.add {}).sums = (run.map Sums.ofSample).sum := by
  induction S using List.reverseRecOn with
  | nil => exact ⟨[], [], rfl, by simp, by simp, rfl⟩
  | append_singleton S x ih =>
    obtain ⟨pre, run, hS, hrun, hpre, hsums⟩ := ih
    rw [List.foldl_append, List.foldl_cons, List.foldl_nil]
    set b := S.foldl Bucket.add {}
    by_cases hm : b.minute = x.minute
    · refine ⟨pre, run ++ [x], by rw [hS, List.append_assoc], ?_, ?_, ?_⟩
      · intro y hy
        rcases List.mem_append.1 hy with hy | hy
        · simpa [Bucket.add, hm] using hrun y hy
        · simp [Bucket.add, List.mem_singleton.1 hy]
      · simpa [Bucket.add, hm] using hpre
      · simp [Bucket.add, hm, hsums]
    · refine ⟨S, [x], rfl, by simp [Bucket.add], ?_, by simp [Bucket.add, hm]⟩
      intro y hy
      have hlast : b.minute = y.minute := by
        simpa [b, Option.mem_def.1 hy] using foldl_add_minute S {}
      simpa [Bucket.add, ← hlast] using hm

end Bucket

namespace Ring

theorem getElem?_foldl_insert {n : Nat} (hn : 0 < n) (xs : List Sample) :
    ∀ (r : Ring), r.size = n → ∀ i : Nat,
      (xs.foldl Ring.insert r).buckets[i]? =
        r.buckets[i]?.map fun b => (residue n i xs).foldl Bucket.add b := by
  induction xs with
  | nil => intro r _ i; simp [residue]
  | cons x xs ih =>
    intro r hr i
    rw [List.foldl_cons, ih (r.insert x) (by rw [size_insert, hr])]
    have hslot : (slotOf n x.minute : Int) = x.minute.fmod n := by
      rw [Int.fmod_eq_emod_of_nonneg _ (by omega), slotOf,
        Int.toNat_of_nonneg (Int.emod_nonneg _ (by omega))]
    by_cases hi : i = slotOf r.size x.minute
    · subst hi
      rw [getElem_insert_self, Option.map_map]
      simp [residue, hr, ← hslot, Function.comp_def]
    · rw [getElem_insert_of_ne x hi]
      have hne : x.minute.fmod n ≠ i := by
        rw [← hslot, hr] at *
        omega
      simp [residue, hne]

theorem getElem?_create (n i : Nat) :
    (create n).buckets[i]? = if i < n then some {} else none := by
  simp [create, List.getElem?_replicate]

/-- A range sum adds the counters of the slots whose tag lies in the range. -/
theorem sumRange_eq_sum_filter (r : Ring) (span : Span) :
    r.sumRange span = ((r.buckets.filter fun b => span.contains b.minute).map (·.sums)).sum := by
  rw [sumRange_eq_sum]
  induction r.buckets with
  | nil => rfl
  | cons b bs ih => by_cases h : span.contains b.minute <;> simp [Bucket.within, h, ih]

theorem foldl_insert_create {n : Nat} (hn : 0 < n) (xs : List Sample) :
    (xs.foldl Ring.insert (create n)).buckets =
      (List.range n).map fun i => (residue n i xs).foldl Bucket.add {} := by
  apply List.ext_getElem?
  intro i
  rw [getElem?_foldl_insert hn xs (create n) (size_create n), getElem?_create,
    List.getElem?_map]
  by_cases hi : i < n <;> simp [hi]

end Ring

/-- Samples out of minute order: a late minute, one below zero, a lap back and the tag of an
untouched slot. -/
def Ring.xsOutOfOrder : List Sample :=
  [⟨5, 3, 3, 0, 0, 1⟩, ⟨-1, 2, 1, 0, 0, 1⟩, ⟨2, 5, 2, 1, 0, 1⟩, ⟨emptyMinute, 4, 0, 2, 0, 1⟩]

/-- A ring of `n ≥ 1` slots fed any samples, in any order, never fails, and each slot `i` is
determined by the samples whose minute is `i` modulo `n` (floor modulo), alone: its tag is the
minute of the last of them, or the tag of an untouched slot when there is none, and its counters
are the sums over the longest suffix of them whose minutes all equal that tag, zero when there
is none. A range sum adds the counters of the slots whose tag lies in the range. -/
theorem Ring.slots_determined_by_residue (n : Nat) (hn : 0 < n) (xs : List Sample) :
    ∃ r : Ring, xs.foldlM Ring.add (Ring.create n) = .ok r ∧
      r.buckets = (List.range n).map (fun i => (residue n i xs).foldl Bucket.add {}) ∧
      (∀ i < n, ∃ b, r.buckets[i]? = some b ∧
        b.minute = ((residue n i xs).getLast?.map (·.minute)).getD emptyMinute ∧
        ∃ pre run, residue n i xs = pre ++ run ∧ (∀ x ∈ run, x.minute = b.minute) ∧
          (∀ x ∈ pre.getLast?, x.minute ≠ b.minute) ∧ b.sums = (run.map Sums.ofSample).sum) ∧
      ∀ span : Span, r.sumRange span =
        ((r.buckets.filter fun b => span.contains b.minute).map (·.sums)).sum := by
  have hsize : 0 < (create n).size := by simpa using hn
  refine ⟨_, foldlM_add hsize xs, foldl_insert_create hn xs, fun i hi => ?_, fun span => ?_⟩
  · refine ⟨_, by simp [foldl_insert_create hn xs, hi], Bucket.foldl_add_minute _ _,
      Bucket.foldl_add_sums _⟩
  · exact sumRange_eq_sum_filter _ span

/-- Three slots fed minutes out of order, one below zero and one at the untouched tag. -/
theorem Ring.slots_of_three_residues :
    0 < 3 ∧ ∃ r : Ring, xsOutOfOrder.foldlM Ring.add (Ring.create 3) = .ok r ∧
      r.buckets = (List.range 3).map (fun i => (residue 3 i xsOutOfOrder).foldl Bucket.add {}) ∧
      (∀ i < 3, ∃ b, r.buckets[i]? = some b ∧
        b.minute = ((residue 3 i xsOutOfOrder).getLast?.map (·.minute)).getD emptyMinute ∧
        ∃ pre run, residue 3 i xsOutOfOrder = pre ++ run ∧ (∀ x ∈ run, x.minute = b.minute) ∧
          (∀ x ∈ pre.getLast?, x.minute ≠ b.minute) ∧ b.sums = (run.map Sums.ofSample).sum) ∧
      ∀ span : Span, r.sumRange span =
        ((r.buckets.filter fun b => span.contains b.minute).map (·.sums)).sum :=
  ⟨by decide, Ring.slots_determined_by_residue 3 (by decide) xsOutOfOrder⟩

example : (Ring.xsOutOfOrder.foldl Ring.insert (Ring.create 3)).sumRange ⟨-10, 10⟩ =
    ⟨5, 2, 1, 1⟩ := by
  decide

end CacheHitRate
