import CacheHitRate.Proofs.Window.Sums

/-!
The minute ring agrees with the raw samples. Fed samples in minute order, a ring of `n` slots
answers every range that starts within its last `n` minutes as the unbounded buffer does. The
invariant `Ring.Tracks` carries this along a run: besides the agreement itself it says that a
slot holding counts holds them for a minute of its own residue, no later than the last sample.
That is what makes the reset on a new tag safe: the minute it throws away lies a whole lap
back, before every range the ring still answers for.
-/

namespace CacheHitRate

namespace Ring

/-- The ring answers like the buffer `b` for every range that starts within its last `size`
minutes up to `last`, and each slot holding counts holds them for a minute of its own slot, not
after `last`. -/
structure Tracks (r : Ring) (b : Buffer) (last : Int) : Prop where
  slot : ∀ i c, r.buckets[i]? = some c →
    c.sums = 0 ∨ (slotOf r.size c.minute = i ∧ c.minute ≤ last)
  agree : ∀ span : Span, last - r.size + 1 ≤ span.first → r.sumRange span = b.sumRange span

theorem tracks_create (n : Nat) (last : Int) : (create n).Tracks {} last where
  slot i c hc := Or.inl (sums_of_mem_create (List.mem_of_getElem? hc))
  agree span _ := by
    rw [sumRange_eq_zero (fun _ hb => sums_of_mem_create hb), Buffer.sumRange_empty]

variable {r : Ring} {b : Buffer} {last : Int}

theorem Tracks.mono (h : r.Tracks b last) {last' : Int} (hle : last ≤ last') :
    r.Tracks b last' where
  slot i c hc := (h.slot i c hc).imp_right fun ⟨hi, hc⟩ => ⟨hi, Int.le_trans hc hle⟩
  agree span hspan := h.agree span (by omega)

theorem Tracks.prune (h : r.Tracks b last) {minMinute : Int}
    (hmin : minMinute ≤ last - r.size + 1) : r.Tracks (b.prune minMinute).2 last where
  slot := h.slot
  agree span hspan := by
    rw [Buffer.sumRange_prune b (by omega)]
    exact h.agree span hspan

theorem Tracks.within_eq_zero (h : r.Tracks b last) (hr : 0 < r.size) {s : Sample}
    (hs : last ≤ s.minute) {c : Bucket} (hc : r.buckets[slotOf r.size s.minute]? = some c)
    (hm : c.minute ≠ s.minute) {span : Span} (hspan : s.minute - r.size + 1 ≤ span.first) :
    c.within span = 0 := by
  rcases h.slot _ c hc with hzero | ⟨hslot, hle⟩
  · simp [Bucket.within, hzero]
  · have hlap := add_le_of_slotOf_eq hr hslot (by omega)
    apply Bucket.within_of_not_contains
    simp [Span.contains]
    omega

theorem Tracks.insert (h : r.Tracks b last) (hr : 0 < r.size) {s : Sample}
    (hs : last ≤ s.minute) : (r.insert s).Tracks (b.append s) s.minute where
  slot i c hc := by
    rw [size_insert]
    by_cases hi : i = slotOf r.size s.minute
    · subst hi
      rw [getElem_insert_self] at hc
      obtain ⟨c', -, rfl⟩ := Option.map_eq_some_iff.1 hc
      exact Or.inr ⟨rfl, Int.le_refl _⟩
    · rw [getElem_insert_of_ne s hi] at hc
      exact (h.slot i c hc).imp_right fun ⟨hi, hc⟩ => ⟨hi, Int.le_trans hc hs⟩
  agree span hspan := by
    rw [size_insert] at hspan
    obtain ⟨c, hc⟩ : ∃ c, r.buckets[slotOf r.size s.minute]? = some c :=
      Option.isSome_iff_exists.1 (by simpa [size] using slotOf_lt hr s.minute)
    rw [sumRange_insert s span hc, Buffer.sumRange_append, ← h.agree span (by omega),
      Bucket.within_add]
    by_cases hm : c.minute = s.minute
    · simp only [hm, if_true]
      abel
    · simp [hm, h.within_eq_zero hr hs hc hm hspan]

/-- A run of inserts in minute order keeps the agreement up to any bound of its minutes. -/
theorem Tracks.foldl_insert (h : r.Tracks b last) (hr : 0 < r.size) (xs : List Sample)
    (hsorted : xs.Pairwise fun x y => x.minute ≤ y.minute) (hfrom : ∀ x ∈ xs, last ≤ x.minute)
    {bound : Int} (hle : last ≤ bound) (hbound : ∀ x ∈ xs, x.minute ≤ bound) :
    (xs.foldl Ring.insert r).Tracks (xs.foldl Buffer.append b) bound := by
  induction xs generalizing r b last with
  | nil => exact h.mono hle
  | cons x xs ih =>
    have hx := List.pairwise_cons.1 hsorted
    exact ih (h.insert hr (hfrom x List.mem_cons_self)) (by rwa [size_insert]) hx.2 hx.1
      (hbound x List.mem_cons_self) fun y hy => hbound y (List.mem_cons_of_mem x hy)

@[simp] theorem size_foldl_insert (xs : List Sample) (r : Ring) :
    (xs.foldl Ring.insert r).size = r.size := by
  induction xs generalizing r with
  | nil => rfl
  | cons x xs ih => rw [List.foldl_cons, ih, size_insert]

theorem foldlM_add (hr : 0 < r.size) (xs : List Sample) :
    xs.foldlM add r = .ok (xs.foldl Ring.insert r) := by
  induction xs generalizing r with
  | nil => rfl
  | cons x xs ih =>
    have hadd : r.add x = .ok (r.insert x) := if_neg (Nat.pos_iff_ne_zero.1 hr)
    simp only [List.foldlM_cons, hadd, List.foldl_cons]
    exact ih (by rwa [size_insert])

end Ring

theorem minute_le_of_getLast? {xs : List Sample}
    (hsorted : xs.Pairwise fun x y => x.minute ≤ y.minute) {x y : Sample} (hx : x ∈ xs) (hy : y ∈ xs.getLast?) : x.minute ≤ y.minute := by
  obtain ⟨init, rfl⟩ := List.getLast?_eq_some_iff.1 hy
  rcases List.mem_append.1 hx with hx | hx
  · exact (List.pairwise_append.1 hsorted).2.2 x hx y (List.mem_singleton_self y)
  · exact Int.le_of_eq (congrArg Sample.minute (List.mem_singleton.1 hx))

/-- A ring of `n` slots fed a run of samples in minute order answers every range that starts
within the `n` minutes up to the last sample exactly as the raw samples do, on all four
counters. This covers empty ranges and samples at the minute that tags untouched slots. -/
theorem Ring.sumRange_addAll_eq_buffer (n : Nat) (hn : 0 < n) (samples : List Sample)
    (hsorted : samples.Pairwise fun x y => x.minute ≤ y.minute) (first last : Int)
    (hfirst : ∀ x ∈ samples.getLast?, x.minute - n + 1 ≤ first) :
    (samples.foldlM Ring.add (Ring.create n)).map (·.sumRange ⟨first, last⟩) =
      .ok ((samples.foldl Buffer.append {}).sumRange ⟨first, last⟩) := by
  have hsize : 0 < (Ring.create n).size := by simpa using hn
  rw [Ring.foldlM_add hsize]
  apply congrArg Except.ok
  cases samples with
  | nil =>
    exact (Ring.tracks_create n (first + n - 1)).agree ⟨first, last⟩
      (by simp only [Ring.size_create]; omega)
  | cons x₀ rest =>
    obtain ⟨xl, hxl⟩ :=
      Option.isSome_iff_exists.1 (List.getLast?_isSome.2 (List.cons_ne_nil x₀ rest))
    have hfrom : ∀ x ∈ x₀ :: rest, x₀.minute ≤ x.minute := by
      intro x hx
      rcases List.mem_cons.1 hx with rfl | hx
      · exact Int.le_refl _
      · exact List.rel_of_pairwise_cons hsorted hx
    have htracks := (Ring.tracks_create n x₀.minute).foldl_insert hsize (x₀ :: rest) hsorted
      hfrom (hfrom xl (List.mem_of_getLast? hxl)) fun x hx => minute_le_of_getLast? hsorted hx hxl
    exact htracks.agree ⟨first, last⟩
      (by simp only [Ring.size_foldl_insert, Ring.size_create]; exact hfirst xl hxl)

/-- Three slots fed a sample at the sentinel minute, a repeated minute and a lap's reuse. -/
theorem Ring.sumRange_addAll_three_slots :
    (List.foldlM Ring.add (Ring.create 3) [⟨emptyMinute, 2, 1, 0, 0, 1⟩, ⟨4, 5, 2, 1, 0, 1⟩,
        ⟨5, 3, 3, 0, 0, 1⟩, ⟨5, 1, 1, 1, 0, 1⟩, ⟨7, 4, 0, 2, 0, 1⟩]).map (·.sumRange ⟨5, 9⟩) =
      .ok ((List.foldl Buffer.append {} [⟨emptyMinute, 2, 1, 0, 0, 1⟩, ⟨4, 5, 2, 1, 0, 1⟩,
        ⟨5, 3, 3, 0, 0, 1⟩, ⟨5, 1, 1, 1, 0, 1⟩, ⟨7, 4, 0, 2, 0, 1⟩]).sumRange ⟨5, 9⟩) :=
  Ring.sumRange_addAll_eq_buffer 3 (by decide) _ (by decide) 5 9 (by decide)

example : (List.foldl Buffer.append {} [⟨emptyMinute, 2, 1, 0, 0, 1⟩, ⟨4, 5, 2, 1, 0, 1⟩,
    ⟨5, 3, 3, 0, 0, 1⟩, ⟨5, 1, 1, 1, 0, 1⟩, ⟨7, 4, 0, 2, 0, 1⟩]).sumRange ⟨5, 9⟩ = ⟨8, 4, 3, 3⟩ := by
  decide

end CacheHitRate
