import Mathlib.Algebra.BigOperators.Group.List.Basic
import Mathlib.Tactic.Abel
import CacheHitRate.Window.Ring
import CacheHitRate.Window.Buffer

/-!
Window sums form a commutative group under counter-wise addition, so a range sum of the minute
ring or of the sample buffer is a list sum: each slot, or each raw sample, adds its counters when
its minute lies in the range and nothing otherwise. An insert into the ring changes one term of
that sum, an append to the buffer adds one, and pruning the buffer below a range leaves its sum
alone. The agreement of ring and buffer is built on these three facts.
-/

namespace CacheHitRate

namespace Sums

@[ext] theorem ext {a b : Sums} (h₁ : a.denomTokens = b.denomTokens)
    (h₂ : a.cacheReadTokens = b.cacheReadTokens) (h₃ : a.cacheCreateTokens = b.cacheCreateTokens)
    (h₄ : a.successRequests = b.successRequests) : a = b := by
  cases a
  cases b
  simp_all

instance : Neg Sums :=
  ⟨fun a => ⟨-a.denomTokens, -a.cacheReadTokens, -a.cacheCreateTokens, -a.successRequests⟩⟩

@[simp] theorem zero_denomTokens : (0 : Sums).denomTokens = 0 := rfl
@[simp] theorem zero_cacheReadTokens : (0 : Sums).cacheReadTokens = 0 := rfl
@[simp] theorem zero_cacheCreateTokens : (0 : Sums).cacheCreateTokens = 0 := rfl
@[simp] theorem zero_successRequests : (0 : Sums).successRequests = 0 := rfl
@[simp] theorem neg_denomTokens (a : Sums) : (-a).denomTokens = -a.denomTokens := rfl
@[simp] theorem neg_cacheReadTokens (a : Sums) : (-a).cacheReadTokens = -a.cacheReadTokens := rfl
@[simp] theorem neg_cacheCreateTokens (a : Sums) :
    (-a).cacheCreateTokens = -a.cacheCreateTokens := rfl
@[simp] theorem neg_successRequests (a : Sums) : (-a).successRequests = -a.successRequests := rfl

instance : AddCommGroup Sums where
  add_assoc a b c := by ext <;> simp [Int.add_assoc]
  zero_add a := by ext <;> simp
  add_zero a := by ext <;> simp
  add_comm a b := by ext <;> simp [Int.add_comm]
  neg_add_cancel a := by ext <;> simp
  nsmul := nsmulRec
  zsmul := zsmulRec

/-- The empty sums the windows start from are the group's zero. -/
@[simp] theorem empty_eq_zero : ({} : Sums) = 0 := rfl

end Sums

theorem foldl_add_ite {α M : Type} [AddCommMonoid M] (p : α → Bool) (f : α → M) (a : M)
    (l : List α) :
    l.foldl (fun acc x => if p x then acc + f x else acc) a =
      a + (l.map fun x => if p x then f x else 0).sum := by
  induction l generalizing a with
  | nil => simp
  | cons x l ih =>
    rw [List.foldl_cons, ih]
    by_cases hx : p x <;> simp [hx, add_assoc]

/-- What a slot adds to the sum of a range: its counters when its minute lies in the range. -/
def Bucket.within (span : Span) (b : Bucket) : Sums :=
  if span.contains b.minute then b.sums else 0

/-- What a raw sample adds to the sum of a range. -/
def Sample.within (span : Span) (s : Sample) : Sums :=
  if span.contains s.minute then Sums.ofSample s else 0

theorem Bucket.within_of_not_contains {span : Span} {b : Bucket}
    (h : span.contains b.minute = false) : b.within span = 0 := by
  simp [within, h]

theorem Bucket.within_add (span : Span) (b : Bucket) (s : Sample) :
    (b.add s).within span =
      (if b.minute = s.minute then b.within span else 0) + s.within span := by
  by_cases hm : b.minute = s.minute <;> by_cases hc : span.contains s.minute <;>
    simp [Bucket.add, Bucket.within, Sample.within, hm, hc]

namespace Ring

theorem sumRange_eq_sum (r : Ring) (span : Span) :
    r.sumRange span = (r.buckets.map (Bucket.within span)).sum := by
  simp only [sumRange, Sums.empty_eq_zero, foldl_add_ite, zero_add]
  rfl

@[simp] theorem size_create (n : Nat) : (create n).size = n := by
  simp [create, size]

theorem sumRange_eq_zero {r : Ring} (h : ∀ b ∈ r.buckets, b.sums = 0) (span : Span) :
    r.sumRange span = 0 := by
  rw [sumRange_eq_sum]
  apply List.sum_eq_zero
  intro x hx
  obtain ⟨b, hb, rfl⟩ := List.mem_map.1 hx
  simp [Bucket.within, h b hb]

theorem sums_of_mem_create {n : Nat} {b : Bucket} (h : b ∈ (create n).buckets) : b.sums = 0 := by
  simp only [create, List.mem_replicate] at h
  rw [h.2]
  rfl

theorem slotOf_lt {n : Nat} (hn : 0 < n) (minute : Int) : slotOf n minute < n := by
  have h₁ := Int.emod_nonneg minute (show (n : Int) ≠ 0 by omega)
  have h₂ := Int.emod_lt_of_pos minute (show (0 : Int) < n by omega)
  simp only [slotOf]
  omega

theorem add_le_of_slotOf_eq {n : Nat} (hn : 0 < n) {a b : Int} (h : slotOf n a = slotOf n b)
    (hab : a < b) : a + n ≤ b := by
  have hmod : a % n = b % n := by
    have ha := Int.emod_nonneg a (show (n : Int) ≠ 0 by omega)
    have hb := Int.emod_nonneg b (show (n : Int) ≠ 0 by omega)
    simp only [slotOf] at h
    omega
  have hdvd : (n : Int) ∣ b - a := by
    apply Int.dvd_of_emod_eq_zero
    rw [Int.sub_emod, hmod, Int.sub_self, Int.zero_emod]
  have hle := Int.le_of_dvd (by omega) hdvd
  omega

/-- An insert changes the one term of the range sum that belongs to the sample's slot. -/
theorem sumRange_insert {r : Ring} {b : Bucket} (s : Sample) (span : Span)
    (hb : r.buckets[slotOf r.size s.minute]? = some b) :
    (r.insert s).sumRange span = r.sumRange span - b.within span + (b.add s).within span := by
  obtain ⟨hlt, rfl⟩ := List.getElem?_eq_some_iff.1 hb
  simp only [insert, sumRange_eq_sum, List.modify_eq_set, List.map_set, List.sum_set',
    size] at hlt ⊢
  simp [hlt]
  abel

theorem getElem_insert_self (r : Ring) (s : Sample) :
    (r.insert s).buckets[slotOf r.size s.minute]? =
      r.buckets[slotOf r.size s.minute]?.map (·.add s) := by
  simp [insert]

theorem getElem_insert_of_ne {r : Ring} (s : Sample) {i : Nat} (h : i ≠ slotOf r.size s.minute) :
    (r.insert s).buckets[i]? = r.buckets[i]? := by
  simp [insert, Ne.symm h]

end Ring

namespace Buffer

theorem sumRange_eq_sum (b : Buffer) (span : Span) :
    b.sumRange span = (b.samples.map (Sample.within span)).sum := by
  simp only [sumRange, Sums.empty_eq_zero, foldl_add_ite, zero_add]
  rfl

@[simp] theorem sumRange_empty (span : Span) : ({} : Buffer).sumRange span = 0 := rfl

theorem sumRange_append (b : Buffer) (s : Sample) (span : Span) :
    (b.append s).sumRange span = b.sumRange span + s.within span := by
  simp [sumRange_eq_sum, append]

theorem sumRange_prune (b : Buffer) {minMinute : Int} {span : Span}
    (h : minMinute ≤ span.first) : (b.prune minMinute).2.sumRange span = b.sumRange span := by
  have hsplit : b.samples.takeWhile (isOlder minMinute) ++
      b.samples.dropWhile (isOlder minMinute) = b.samples := List.takeWhile_append_dropWhile
  have hold : ((b.samples.takeWhile (isOlder minMinute)).map (Sample.within span)).sum = 0 := by
    apply List.sum_eq_zero
    intro x hx
    obtain ⟨s, hs, rfl⟩ := List.mem_map.1 hx
    have hs' : s.minute < minMinute := by
      simpa [isOlder] using List.all_eq_true.1 List.all_takeWhile s hs
    simp [Sample.within, Span.contains]
    omega
  conv_rhs => rw [sumRange_eq_sum, ← hsplit, List.map_append, List.sum_append, hold, zero_add]
  rw [sumRange_eq_sum, prune_samples]

end Buffer

end CacheHitRate
