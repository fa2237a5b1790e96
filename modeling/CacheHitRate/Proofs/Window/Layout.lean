import CacheHitRate.Window.Ring

/-!
The layout of the windows of an evaluation at minute `m`. The baseline `[m-59, m-15]` and the
recent window `[m-14, m]` meet without overlap and together cover the sixty minutes a ring of
`Ring.windowMinutes` slots answers for. Cold start is the first ten minutes after a positive
enable time, and the observe window is a suffix of the recent one whose length never shrinks as
the clock moves on. The suffix is empty exactly when the enable time lies after `now`: nothing
keeps a clock that stepped back from giving a negative elapsed time, and the floor of that over a
minute leaves no minute to observe.
-/

namespace CacheHitRate

theorem Span.contains_iff (s : Span) (x : Int) :
    s.contains x = true ↔ s.first ≤ x ∧ x ≤ s.last := by
  simp [Span.contains]

theorem fdiv_minute (t : Int) : Int.fdiv t 60000 = t / 60000 :=
  Int.fdiv_eq_ediv_of_nonneg t (by decide)

namespace Windows

variable (now enabledAt : Int)

@[simp] theorem compute_minuteNow : (compute now enabledAt).minuteNow = Int.fdiv now 60000 := rfl

theorem compute_baseline :
    (compute now enabledAt).baseline = ⟨Int.fdiv now 60000 - 59, Int.fdiv now 60000 - 15⟩ := by
  simp only [compute, minuteOf, minuteMs, baselineMinutes, recentMinutes, Span.mk.injEq, and_true]
  omega

theorem compute_recent :
    (compute now enabledAt).recent = ⟨Int.fdiv now 60000 - 14, Int.fdiv now 60000⟩ := by
  simp only [compute, minuteOf, minuteMs, recentMinutes, Span.mk.injEq, and_true]
  omega

theorem compute_coldStart :
    (compute now enabledAt).coldStart = decide (0 < enabledAt ∧ now - enabledAt < 600000) := by
  simp only [compute, coldStartMinutes, minuteMs]
  rfl

theorem compute_observeMinutes :
    (compute now enabledAt).observeMinutes =
      if (compute now enabledAt).coldStart then min 10 (Int.fdiv (now - enabledAt) 60000 + 1)
      else 15 := rfl

theorem compute_observe :
    (compute now enabledAt).observe =
      ⟨Int.fdiv now 60000 - (compute now enabledAt).observeMinutes + 1, Int.fdiv now 60000⟩ := by
  simp only [compute, minuteOf, minuteMs, Span.mk.injEq, and_true]
  omega

theorem observeMinutes_le : (compute now enabledAt).observeMinutes ≤ 15 := by
  rw [compute_observeMinutes]
  split <;> omega

theorem one_le_observeMinutes_iff :
    1 ≤ (compute now enabledAt).observeMinutes ↔ ¬ (0 < enabledAt ∧ now < enabledAt) := by
  simp only [compute_observeMinutes, compute_coldStart, fdiv_minute, decide_eq_true_eq]
  split <;> omega

theorem observeMinutes_mono {now now' : Int} (h : now ≤ now') :
    (compute now enabledAt).observeMinutes ≤ (compute now' enabledAt).observeMinutes := by
  simp only [compute_observeMinutes, compute_coldStart, fdiv_minute, decide_eq_true_eq]
  have hdiv : (now - enabledAt) / 60000 ≤ (now' - enabledAt) / 60000 :=
    Int.ediv_le_ediv (by decide) (by omega)
  split <;> split <;> omega

end Windows

/-- The windows of an evaluation at `now` for a monitor enabled at `enabledAt`, with `m` the
floor of `now` in minutes. The baseline and recent windows are adjacent and disjoint and cover
exactly the last `Ring.windowMinutes` minutes up to `m`. Cold start is the first ten minutes
after a positive enable time; the observe window ends at `m`, lies inside the recent window,
holds at most fifteen minutes and at least one unless the enable time is after `now`, grows one
minute per minute during cold start and never shrinks as `now` grows. -/
theorem Windows.compute_spans (now enabledAt : Int) :
    (compute now enabledAt).minuteNow = Int.fdiv now 60000 ∧
    (compute now enabledAt).baseline = ⟨Int.fdiv now 60000 - 59, Int.fdiv now 60000 - 15⟩ ∧
    (compute now enabledAt).recent = ⟨Int.fdiv now 60000 - 14, Int.fdiv now 60000⟩ ∧
    (compute now enabledAt).recent.first = (compute now enabledAt).baseline.last + 1 ∧
    (∀ x, ¬ ((compute now enabledAt).baseline.contains x ∧
      (compute now enabledAt).recent.contains x)) ∧
    (∀ x, ((compute now enabledAt).baseline.contains x ∨
        (compute now enabledAt).recent.contains x) ↔
      Int.fdiv now 60000 - Ring.windowMinutes < x ∧ x ≤ Int.fdiv now 60000) ∧
    ((compute now enabledAt).coldStart = true ↔ 0 < enabledAt ∧ now - enabledAt < 600000) ∧
    (compute now enabledAt).observe =
      ⟨Int.fdiv now 60000 - (compute now enabledAt).observeMinutes + 1, Int.fdiv now 60000⟩ ∧
    (compute now enabledAt).recent.first ≤ (compute now enabledAt).observe.first ∧
    (compute now enabledAt).observe.last = (compute now enabledAt).recent.last ∧
    (compute now enabledAt).observeMinutes ≤ 15 ∧
    (1 ≤ (compute now enabledAt).observeMinutes ↔ ¬ (0 < enabledAt ∧ now < enabledAt)) ∧
    ((compute now enabledAt).coldStart = true →
      (compute now enabledAt).observeMinutes = min 10 (Int.fdiv (now - enabledAt) 60000 + 1)) ∧
    ∀ now', now ≤ now' →
      (compute now enabledAt).observeMinutes ≤ (compute now' enabledAt).observeMinutes := by
  have hb := Windows.compute_baseline now enabledAt
  have hr := Windows.compute_recent now enabledAt
  have ho := Windows.compute_observe now enabledAt
  have hle := Windows.observeMinutes_le now enabledAt
  refine ⟨rfl, hb, hr, by rw [hb, hr]; dsimp only; omega, ?_, ?_, by simp [Windows.compute_coldStart],
    ho, by rw [hr, ho]; dsimp only; omega, by rw [hr, ho], hle,
    Windows.one_le_observeMinutes_iff now enabledAt,
    fun hcold => by rw [Windows.compute_observeMinutes, if_pos hcold],
    fun now' h => Windows.observeMinutes_mono enabledAt h⟩
  · intro x
    simp only [hb, hr, Span.contains_iff]
    omega
  · intro x
    simp only [hb, hr, Span.contains_iff, Ring.windowMinutes]
    omega

/-- A monitor enabled one millisecond after `now` is in cold start with nothing to observe:
its observe window `[1, 0]` is empty. -/
theorem Windows.observe_empty_before_enable :
    (Windows.compute 0 1).coldStart = true ∧ (Windows.compute 0 1).observeMinutes = 0 ∧
      (Windows.compute 0 1).observe = ⟨1, 0⟩ := by
  decide

end CacheHitRate
