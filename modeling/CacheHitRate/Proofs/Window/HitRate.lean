import Mathlib.Algebra.Group.Submonoid.BigOperators
import CacheHitRate.Proofs.Window.Sums
import CacheHitRate.Proofs.Number.Ratio

/-!
Hit rates of extracted samples. A completion becomes a sample stamped with the minute of its
arrival, with a positive denominator and with cache reads between zero and that denominator: the
denominator is the input plus the reads, or, for CLIs whose input already counts the reads, the
larger of the two. Window sums whose reads lie between zero and the denominator form an additive
submonoid (`Sums.readBounded`), so every range sum of a minute ring or a sample buffer fed such
samples lies in it, and its hit rate is computed without error: NaN exactly when the window has
no denominator, and otherwise a finite value in `[0, 1]`.
-/

namespace CacheHitRate

namespace CompletionEvent

variable {p : DenominatorPolicy} {e : CompletionEvent} {now : Int} {s : Sample}

theorem sample?_eq_ok_some (h : e.sample? p now = .ok (some s)) :
    ∃ input read create : Nat, Normalize.tokenCount e.inputTokens = .ok input ∧
      Normalize.tokenCount e.cacheReadTokens = .ok read ∧ e.createTokens = .ok create ∧
      0 < p.denominator e.cliKey input read ∧
      s = { minute := minuteOf now, denomTokens := p.denominator e.cliKey input read,
            cacheReadTokens := read, cacheCreateTokens := create, tsMs := now } := by
  simp only [sample?, bind, Except.bind, pure, Except.pure] at h
  split at h
  · cases h
  cases hi : Normalize.tokenCount e.inputTokens with
  | error _ => simp [hi] at h
  | ok input =>
    cases hr : Normalize.tokenCount e.cacheReadTokens with
    | error _ => simp [hi, hr] at h
    | ok read =>
      cases hc : e.createTokens with
      | error _ => simp [hi, hr, hc] at h; split at h <;> cases h
      | ok create =>
        simp only [hi, hr, hc] at h
        split at h
        · cases h
        · cases h
          exact ⟨input, read, create, rfl, rfl, rfl, by omega, rfl⟩

end CompletionEvent

theorem DenominatorPolicy.denominator_eq (p : DenominatorPolicy) (cli : Text) (input read : Nat) :
    p.denominator cli input read =
      if p.subtractClis.contains cli then max (input : Int) read else input + read := by
  unfold DenominatorPolicy.denominator DenominatorPolicy.effectiveInput
  split <;> omega

/-- The sample of a completion: stamped with the floor of its arrival in minutes, with a
positive denominator that is the input plus the reads, or the larger of the two for a CLI whose
input already counts the reads, reads between zero and the denominator, and no negative
creation. -/
theorem CompletionEvent.sample?_bounds {p : DenominatorPolicy} {e : CompletionEvent} {now : Int}
    {s : Sample} (h : e.sample? p now = .ok (some s)) :
    ∃ input read : Nat, Normalize.tokenCount e.inputTokens = .ok input ∧
      Normalize.tokenCount e.cacheReadTokens = .ok read ∧
      s.minute = Int.fdiv now 60000 ∧ 1 ≤ s.denomTokens ∧ 0 ≤ s.cacheReadTokens ∧
      s.cacheReadTokens ≤ s.denomTokens ∧ 0 ≤ s.cacheCreateTokens ∧
      s.denomTokens =
        if p.subtractClis.contains e.cliKey then max (input : Int) read else input + read := by
  obtain ⟨input, read, create, hi, hr, -, hpos, rfl⟩ := e.sample?_eq_ok_some h
  have hden := p.denominator_eq e.cliKey input read
  refine ⟨input, read, hi, hr, rfl, by dsimp only; omega, by simp, ?_, by simp, hden⟩
  show (read : Int) ≤ p.denominator e.cliKey input read
  rw [hden]
  split <;> omega

/-- A sample that some completion gives. -/
def Sample.Extracted (s : Sample) : Prop :=
  ∃ (p : DenominatorPolicy) (e : CompletionEvent) (now : Int), e.sample? p now = .ok (some s)

namespace Sums

/-- Window sums with no negative cache reads and no more reads than denominator tokens. -/
def readBounded : AddSubmonoid Sums where
  carrier := {x | 0 ≤ x.cacheReadTokens ∧ x.cacheReadTokens ≤ x.denomTokens}
  zero_mem' := by simp
  add_mem' := by
    rintro a b ⟨ha₁, ha₂⟩ ⟨hb₁, hb₂⟩
    refine ⟨?_, ?_⟩ <;> simp only [add_cacheReadTokens, add_denomTokens] <;> omega

theorem mem_readBounded {x : Sums} :
    x ∈ readBounded ↔ 0 ≤ x.cacheReadTokens ∧ x.cacheReadTokens ≤ x.denomTokens := Iff.rfl

theorem ofSample_mem_readBounded {s : Sample} (h : s.Extracted) : ofSample s ∈ readBounded := by
  obtain ⟨p, e, now, hs⟩ := h
  obtain ⟨-, -, -, -, -, -, hread, hle, -, -⟩ := e.sample?_bounds hs
  exact ⟨hread, hle⟩

/-- What window sums of extracted samples promise: reads between zero and the denominator, and
a hit rate computed without error that is NaN exactly when there is no denominator and
otherwise a finite value in `[0, 1]`. -/
structure SoundRate (x : Sums) : Prop where
  read_nonneg : 0 ≤ x.cacheReadTokens
  read_le : x.cacheReadTokens ≤ x.denomTokens
  hitRate : ∃ h, x.counts.hitRate = .ok h ∧ (Binary64.parts h = .nan ↔ x.denomTokens = 0) ∧
    (x.denomTokens ≠ 0 → Binary64.isFinite h = true ∧ (Quantity.int 0).le (.float h) = true ∧
      (Quantity.float h).le (.int 1) = true)

theorem soundRate_of_mem {x : Sums} (hx : x ∈ readBounded) : x.SoundRate := by
  obtain ⟨hread, hle⟩ := mem_readBounded.1 hx
  refine ⟨hread, hle, ?_⟩
  by_cases hden : x.denomTokens = 0
  · refine ⟨Binary64.nan, ?_, by simp [Binary64.parts_nan, hden], fun h => absurd hden h⟩
    simp [counts, Counts.hitRate, Counts.rate, Quantity.le_int_int, hden]
  · obtain ⟨r, m, e, hdiv, hparts, he, hm⟩ := Quantity.div_int_of_le hread hle (by omega)
    refine ⟨r, ?_, by simp [hparts, hden], fun _ => ⟨by simp [Binary64.isFinite, hparts],
      Quantity.le_zero_one_of_parts hparts he hm⟩⟩
    simp [counts, Counts.hitRate, Counts.rate, Quantity.le_int_int, show ¬ x.denomTokens ≤ 0 by
      omega, hdiv]

end Sums

section Submonoid

variable {S : AddSubmonoid Sums}

theorem Bucket.within_mem {b : Bucket} (h : b.sums ∈ S) (span : Span) : b.within span ∈ S := by
  unfold Bucket.within
  split
  · exact h
  · exact S.zero_mem

theorem Sample.within_mem {s : Sample} (h : Sums.ofSample s ∈ S) (span : Span) :
    s.within span ∈ S := by
  unfold Sample.within
  split
  · exact h
  · exact S.zero_mem

theorem Bucket.sums_add_mem {b : Bucket} {s : Sample} (hb : b.sums ∈ S)
    (hs : Sums.ofSample s ∈ S) : (b.add s).sums ∈ S := by
  refine S.add_mem ?_ hs
  split
  · exact hb
  · exact S.zero_mem

namespace Ring

theorem sumRange_mem {r : Ring} (h : ∀ b ∈ r.buckets, b.sums ∈ S) (span : Span) :
    r.sumRange span ∈ S := by
  rw [sumRange_eq_sum]
  refine list_sum_mem fun x hx => ?_
  obtain ⟨b, hb, rfl⟩ := List.mem_map.1 hx
  exact Bucket.within_mem (h b hb) span

theorem sums_mem_insert {r : Ring} {s : Sample} (h : ∀ b ∈ r.buckets, b.sums ∈ S)
    (hs : Sums.ofSample s ∈ S) : ∀ b ∈ (r.insert s).buckets, b.sums ∈ S := by
  intro b hb
  obtain ⟨i, hi, rfl⟩ := List.getElem_of_mem hb
  simp only [insert, List.getElem_modify] at hi ⊢
  split
  · exact Bucket.sums_add_mem (h _ (List.getElem_mem _)) hs
  · exact h _ (List.getElem_mem _)

theorem sums_mem_foldl_insert {r : Ring} (h : ∀ b ∈ r.buckets, b.sums ∈ S) (xs : List Sample)
    (hxs : ∀ x ∈ xs, Sums.ofSample x ∈ S) : ∀ b ∈ (xs.foldl Ring.insert r).buckets, b.sums ∈ S := by
  induction xs generalizing r with
  | nil => exact h
  | cons x xs ih =>
    exact ih (sums_mem_insert h (hxs x List.mem_cons_self))
      fun y hy => hxs y (List.mem_cons_of_mem x hy)

theorem sums_mem_create (n : Nat) : ∀ b ∈ (create n).buckets, b.sums ∈ S :=
  fun _ hb => sums_of_mem_create hb ▸ S.zero_mem

end Ring

theorem Buffer.sumRange_mem {b : Buffer} (h : ∀ s ∈ b.samples, Sums.ofSample s ∈ S)
    (span : Span) : b.sumRange span ∈ S := by
  rw [sumRange_eq_sum]
  refine list_sum_mem fun x hx => ?_
  obtain ⟨s, hs, rfl⟩ := List.mem_map.1 hx
  exact Sample.within_mem (h s hs) span

end Submonoid

theorem Buffer.samples_foldl_append (xs : List Sample) (b : Buffer) :
    (xs.foldl Buffer.append b).samples = b.samples ++ xs := by
  induction xs generalizing b with
  | nil => simp
  | cons x xs ih => simp [ih, Buffer.append]

theorem Ring.sumRange_foldl_mem_readBounded {samples : List Sample}
    (hs : ∀ s ∈ samples, s.Extracted) (n : Nat) (span : Span) :
    (samples.foldl Ring.insert (Ring.create n)).sumRange span ∈ Sums.readBounded :=
  Ring.sumRange_mem (Ring.sums_mem_foldl_insert (Ring.sums_mem_create n) samples
    fun s h => Sums.ofSample_mem_readBounded (hs s h)) span

theorem Buffer.sumRange_foldl_mem_readBounded {samples : List Sample}
    (hs : ∀ s ∈ samples, s.Extracted) (span : Span) :
    (samples.foldl Buffer.append {}).sumRange span ∈ Sums.readBounded := by
  refine Buffer.sumRange_mem ?_ span
  simpa [Buffer.samples_foldl_append] using fun s h => Sums.ofSample_mem_readBounded (hs s h)

/-- Samples that completions give have a positive denominator and reads between zero and it;
so over every range of minutes, a minute ring of any size and a sample buffer fed such samples,
in any order, sum to reads between zero and the denominator, whose hit rate is computed without
error, NaN exactly when the denominator is zero and otherwise a finite value in `[0, 1]`. -/
theorem extracted_samples_rate_within_unit :
    (∀ (p : DenominatorPolicy) (e : CompletionEvent) (now : Int) (s : Sample),
      e.sample? p now = .ok (some s) →
      ∃ input read : Nat, Normalize.tokenCount e.inputTokens = .ok input ∧
        Normalize.tokenCount e.cacheReadTokens = .ok read ∧
        s.minute = Int.fdiv now 60000 ∧ 1 ≤ s.denomTokens ∧ 0 ≤ s.cacheReadTokens ∧
        s.cacheReadTokens ≤ s.denomTokens ∧ 0 ≤ s.cacheCreateTokens ∧
        s.denomTokens =
          if p.subtractClis.contains e.cliKey then max (input : Int) read else input + read) ∧
    ∀ samples : List Sample, (∀ s ∈ samples, s.Extracted) → ∀ (n : Nat) (span : Span),
      ((samples.foldl Ring.insert (Ring.create n)).sumRange span).SoundRate ∧
      ((samples.foldl Buffer.append {}).sumRange span).SoundRate := by
  refine ⟨fun p e now s h => e.sample?_bounds h, fun samples hs n span => ?_⟩
  exact ⟨Sums.soundRate_of_mem (Ring.sumRange_foldl_mem_readBounded hs n span),
    Sums.soundRate_of_mem (Buffer.sumRange_foldl_mem_readBounded hs span)⟩

/-- A codex completion of 1000 input tokens, 400 of them read from the cache: its sample has the
denominator 1000, and a ring of sixty slots fed it has a sound hit rate over the recent window. -/
theorem codex_sample_rate_within_unit :
    (⟨Text.ofString "t", Text.ofString "codex", some 200, none, [], .int 1000, .int 400,
        .int 50, .null, .null⟩ : CompletionEvent).sample? .default 1700000040000 =
      .ok (some ⟨28333334, 1000, 400, 50, 1700000040000, 1⟩) ∧
    Sums.SoundRate ((([⟨28333334, 1000, 400, 50, 1700000040000, 1⟩] : List Sample).foldl
      Ring.insert (Ring.create 60)).sumRange ⟨28333320, 28333334⟩) := by
  have hs : (⟨Text.ofString "t", Text.ofString "codex", some 200, none, [], .int 1000, .int 400,
      .int 50, .null, .null⟩ : CompletionEvent).sample? .default 1700000040000 =
      .ok (some ⟨28333334, 1000, 400, 50, 1700000040000, 1⟩) := by
    decide +kernel
  refine ⟨hs, (extracted_samples_rate_within_unit.2 _ ?_ 60 _).1⟩
  intro x hx
  rw [List.mem_singleton.1 hx]
  exact ⟨_, _, _, hs⟩

end CacheHitRate
