import Mathlib
import CacheHitRate.Proofs.Window.HitRate
import CacheHitRate.Proofs.Monitor.AlertSpacing

/-!
Where the anomaly rules and an alert can stop on an arithmetic error. Each rate of a window is a
quotient of two integer counters rounded once, and fails only when that quotient is beyond the
binary64 range. Sums of extracted samples hold no more reads than denominator tokens, so their
hit rates never fail; the create share and the create/read ratio have no such bound on the
creation tokens. The rules therefore fail only in those two ratios of the observe window, or in
the hit-rate cliff, which divides by the baseline rate and is kept from a zero rate only by a
positive baseline threshold. An alert fails only in the two ratios, and by then it has marked
its group as alerted.
-/

namespace CacheHitRate

theorem Binary64.parts_of_beq_zero {x : Float} (h : (x == 0.0) = true) :
    ∃ neg e, Binary64.parts x = .finite neg 0 e := by
  obtain ⟨-, -, hx⟩ := Float.beq_iff_ne_nan_and_eq.1 h
  rcases hx with rfl | ⟨rfl, -⟩ | ⟨rfl, -⟩
  · exact ⟨false, -1074, by decide +kernel⟩
  · exact ⟨false, -1074, by decide +kernel⟩
  · exact ⟨true, -1074, by decide +kernel⟩

namespace Quantity

theorem compare_zero_mul_pow (b : Int) (k : Nat) :
    Ord.compare 0 (b * Int.pow 2 k) = Ord.compare 0 b := by
  have hk : 0 < Int.pow 2 k := by
    rw [show Int.pow 2 k = ((2 ^ k : Nat) : Int) by rw [Int.natCast_pow]; rfl]
    exact Int.natCast_pos.2 (Nat.two_pow_pos k)
  rcases Int.lt_trichotomy b 0 with hb | rfl | hb
  · rw [Int.compare_eq_gt.2 (Int.mul_neg_of_neg_of_pos hb hk), Int.compare_eq_gt.2 hb]
  · simp
  · rw [Int.compare_eq_lt.2 (Int.mul_pos hb hk), Int.compare_eq_lt.2 hb]

theorem Extended.compare_zero (e : Int) (y : Extended) :
    (Extended.finite 0 e).compare y = (Extended.finite 0 0).compare y := by
  cases y with
  | negInf => rfl
  | posInf => rfl
  | finite b eb => simp only [Extended.compare, Int.zero_mul, compare_zero_mul_pow]

theorem lt_float_of_beq_zero {x : Float} (h : (x == 0.0) = true) (q : Quantity) :
    (Quantity.float x).lt q = (Quantity.int 0).lt q := by
  obtain ⟨neg, e, hx⟩ := Binary64.parts_of_beq_zero h
  have hext : (Quantity.float x).extended? = some (.finite 0 e) := by
    cases neg <;> simp [extended?, hx]
  unfold lt compare?
  rw [hext]
  cases q.extended? with
  | none => rfl
  | some y => simp only [extended?, Extended.compare_zero]

end Quantity

theorem Counts.rate_int_eq_error {a b : Int} {err : ArithError} :
    Counts.rate (.int a) (.int b) = .error err ↔
      err = .quotientTooLarge ∧ 0 < b ∧ Binary64.quotient? a b = none := by
  by_cases hb : b ≤ 0
  · simp [Counts.rate, Quantity.le_int_int, hb]
  · have hpos : 0 < b := by omega
    cases hq : Binary64.quotient? a b with
    | some x => simp [Counts.rate, Quantity.le_int_int, Quantity.div, hb, hq, Int.ne_of_gt hpos]
    | none =>
      simp [Counts.rate, Quantity.le_int_int, Quantity.div, hb, hq, Int.ne_of_gt hpos, hpos,
        eq_comm]

/-- Whether the create share or the create/read ratio of the window is beyond the binary64
range: its divisor is positive and the rounded quotient is not finite. -/
def Sums.createOverflows (x : Sums) : Bool :=
  (decide (0 < x.denomTokens) &&
      (Binary64.quotient? x.cacheCreateTokens x.denomTokens).isNone) ||
    (decide (0 < x.cacheReadTokens) &&
      (Binary64.quotient? x.cacheCreateTokens x.cacheReadTokens).isNone)

namespace Sums

variable {x : Sums} {err : ArithError}

theorem createOverflows_of_share (h : x.counts.createShare = .error err) :
    err = .quotientTooLarge ∧ x.createOverflows = true := by
  obtain ⟨herr, hpos, hq⟩ := Counts.rate_int_eq_error.1 h
  exact ⟨herr, by simp [createOverflows, hpos, hq]⟩

theorem createOverflows_of_ratio (h : x.counts.createReadRatio = .error err) :
    err = .quotientTooLarge ∧ x.createOverflows = true := by
  obtain ⟨herr, hpos, hq⟩ := Counts.rate_int_eq_error.1 h
  exact ⟨herr, by simp [createOverflows, hpos, hq]⟩

theorem hitRate_ok (hx : x ∈ readBounded) : ∃ r, x.counts.hitRate = .ok r :=
  let ⟨r, hr, _⟩ := (soundRate_of_mem hx).hitRate
  ⟨r, hr⟩

theorem hitRate_ne_error (hx : x ∈ readBounded) : x.counts.hitRate ≠ .error err := by
  obtain ⟨r, hr⟩ := hitRate_ok hx
  rw [hr]
  intro h
  cases h

end Sums

namespace Row

variable {r : Row} {t : Thresholds} {err : ArithError}

theorem isHitRateCliff_error_of_ok {base recent : Float} (hb : r.baseline.hitRate = .ok base)
    (hr : r.recent.hitRate = .ok recent) (h : r.isHitRateCliff t = .error err) :
    err = .floatDivisionByZero ∧ (base == 0.0) = true ∧
      (Quantity.float base).lt t.baselineHitRateMin = false := by
  simp only [isHitRateCliff, bind, Except.bind, pure, Except.pure, hb, hr] at h
  split at h
  · cases h
  split at h
  · cases h
  split at h
  · cases h
  split at h
  · cases h
  split at h
  · cases h
  split at h
  · cases h
  rename_i hlt
  split at h
  · cases h
  split at h
  · rename_i hzero
    cases h
    exact ⟨rfl, hzero, by simpa using hlt⟩
  · cases h

theorem shouldAlert_error (h : r.shouldAlert t = .error err) :
    r.observe.createShare = .error err ∨ r.observe.createReadRatio = .error err ∨
      r.isHitRateCliff t = .error err := by
  simp only [shouldAlert, bind, Except.bind, pure, Except.pure] at h
  split at h
  · split at h
    · cases h
    split at h
    · rename_i hs
      cases h
      exact Or.inl hs
    split at h
    · cases h
    split at h
    · rename_i hq
      cases h
      exact Or.inr (Or.inl hq)
    split at h
    · cases h
    split at h
    · rename_i hc
      cases h
      exact Or.inr (Or.inr hc)
    · split at h <;> simp at h
  · split at h
    · rename_i hc
      cases h
      exact Or.inr (Or.inr hc)
    · split at h <;> simp at h

end Row

theorem Notice.alert_error {key : GroupKey} {name reason : Text} {r : Row} {err : ArithError}
    (h : Notice.alert key name r reason = .error err) :
    r.observe.hitRate = .error err ∨ r.observe.createShare = .error err ∨
      r.observe.createReadRatio = .error err ∨ r.baseline.hitRate = .error err := by
  simp only [Notice.alert, bind, Except.bind, pure, Except.pure] at h
  split at h
  · rename_i h₁
    cases h
    exact Or.inl h₁
  split at h
  · rename_i h₂
    cases h
    exact Or.inr (Or.inl h₂)
  split at h
  · rename_i h₃
    cases h
    exact Or.inr (Or.inr (Or.inl h₃))
  split at h
  · rename_i h₄
    cases h
    exact Or.inr (Or.inr (Or.inr h₄))
  · cases h

theorem Monitor.prepareAlert_error {key : GroupKey} {r : Row} {reason : Reason} {now : Int}
    {m : Monitor} {err : ArithError}
    (h : (runOp (prepareAlert key r reason now) m).1 = .error err) :
    ∃ g, m.groups.find? key = some g ∧
      Notice.alert key g.providerName r (Text.ofString reason.text) = .error err ∧
      (runOp (prepareAlert key r reason now) m).2 = m.markAlerted key now := by
  rw [runOp_prepareAlert] at h ⊢
  cases hg : m.groups.find? key with
  | none => simp only [hg] at h; cases h
  | some g =>
    simp only [hg] at h ⊢
    by_cases hdup : now - g.lastAlertAt.getD 0 < alertDedupMs
    · simp only [hdup, if_true] at h
      cases h
    · simp only [hdup, if_false] at h ⊢
      cases ha : Notice.alert key g.providerName r (Text.ofString reason.text) with
      | error e =>
        simp only [ha] at h ⊢
        cases h
        exact ⟨g, rfl, ha, trivial⟩
      | ok n => simp only [ha] at h; cases h

namespace Triple

variable {tr : Triple} (w : Windows) {t : Thresholds} {err : ArithError}

/-- On window sums of extracted samples the rules fail only when a create ratio of the observe
window overflows, or when the cliff divides by a zero baseline rate that a baseline threshold
that is not positive let through. -/
theorem shouldAlert_error_cases (hb : tr.baseline ∈ Sums.readBounded)
    (hr : tr.recent ∈ Sums.readBounded) (h : (tr.row w).shouldAlert t = .error err) :
    (err = .quotientTooLarge ∧ tr.observe.createOverflows = true) ∨
      (err = .floatDivisionByZero ∧ t.baselineHitRateMin.isPositive = false) := by
  rcases Row.shouldAlert_error h with hs | hq | hc
  · exact Or.inl (Sums.createOverflows_of_share hs)
  · exact Or.inl (Sums.createOverflows_of_ratio hq)
  · obtain ⟨base, hbase⟩ := Sums.hitRate_ok hb
    obtain ⟨rec, hrec⟩ := Sums.hitRate_ok hr
    obtain ⟨herr, hzero, hlt⟩ := Row.isHitRateCliff_error_of_ok hbase hrec hc
    refine Or.inr ⟨herr, ?_⟩
    rwa [Quantity.lt_float_of_beq_zero hzero] at hlt

/-- On window sums of extracted samples an alert notice fails only when a create ratio of the
observe window overflows. -/
theorem alert_error_cases (hb : tr.baseline ∈ Sums.readBounded)
    (ho : tr.observe ∈ Sums.readBounded) {key : GroupKey} {name reason : Text}
    (h : Notice.alert key name (tr.row w) reason = .error err) :
    err = .quotientTooLarge ∧ tr.observe.createOverflows = true := by
  rcases Notice.alert_error h with h₁ | h₂ | h₃ | h₄
  · exact absurd h₁ (Sums.hitRate_ne_error ho)
  · exact Sums.createOverflows_of_share h₂
  · exact Sums.createOverflows_of_ratio h₃
  · exact absurd h₄ (Sums.hitRate_ne_error hb)

end Triple

/-- How the rules and the alert of the row `tr.row w` can stop on an arithmetic error. -/
structure Triple.FailureModes (tr : Triple) (w : Windows) (t : Thresholds) : Prop where
  /-- The rules stop only on a create ratio of the observe window beyond the binary64 range, or
  on dividing by a zero baseline rate that a baseline threshold that is not positive let
  through. -/
  rules : ∀ err, (tr.row w).shouldAlert t = .error err →
    (err = .quotientTooLarge ∧ tr.observe.createOverflows = true) ∨
      (err = .floatDivisionByZero ∧ t.baselineHitRateMin.isPositive = false)
  /-- Without either, the rules answer. -/
  rules_ok : tr.observe.createOverflows = false → t.baselineHitRateMin.isPositive = true →
    ∃ v, (tr.row w).shouldAlert t = .ok v
  /-- An alert stops only on such a create ratio, and leaves its group marked as alerted. -/
  alert : ∀ key reason now (m : Monitor) err,
    (Monitor.runOp (Monitor.prepareAlert key (tr.row w) reason now) m).1 = .error err →
      err = .quotientTooLarge ∧ tr.observe.createOverflows = true ∧
        (Monitor.runOp (Monitor.prepareAlert key (tr.row w) reason now) m).2 =
          m.markAlerted key now
  /-- Without one, the alert answers. -/
  alert_ok : tr.observe.createOverflows = false → ∀ key reason now (m : Monitor),
    ∃ v, (Monitor.runOp (Monitor.prepareAlert key (tr.row w) reason now) m).1 = .ok v

/-- The rules and the alert of a row whose windows are sums of extracted samples, under any
windows and thresholds, stop on an arithmetic error only when the create share or the
create/read ratio of the observe window is beyond the binary64 range, or, for the rules, when
the cliff divides by a zero baseline rate because the baseline threshold is not positive. -/
theorem rules_fail_only_on_overflow {tr : Triple} (hb : tr.baseline ∈ Sums.readBounded)
    (hr : tr.recent ∈ Sums.readBounded) (ho : tr.observe ∈ Sums.readBounded) (w : Windows)
    (t : Thresholds) : tr.FailureModes w t := by
  have hrules := fun err (h : (tr.row w).shouldAlert t = .error err) =>
    Triple.shouldAlert_error_cases w hb hr h
  have halert : ∀ key reason now (m : Monitor) err,
      (Monitor.runOp (Monitor.prepareAlert key (tr.row w) reason now) m).1 = .error err →
        err = .quotientTooLarge ∧ tr.observe.createOverflows = true ∧
          (Monitor.runOp (Monitor.prepareAlert key (tr.row w) reason now) m).2 =
            m.markAlerted key now := by
    intro key reason now m err h
    obtain ⟨g, -, hn, hm⟩ := Monitor.prepareAlert_error h
    exact ⟨(Triple.alert_error_cases w hb ho hn).1, (Triple.alert_error_cases w hb ho hn).2, hm⟩
  refine ⟨hrules, fun hover hpos => ?_, halert, fun hover key reason now m => ?_⟩
  · cases hres : (tr.row w).shouldAlert t with
    | ok v => exact ⟨v, rfl⟩
    | error err =>
      rcases hrules err hres with ⟨-, h⟩ | ⟨-, h⟩
      · rw [hover] at h; cases h
      · rw [hpos] at h; cases h
  · cases hres : (Monitor.runOp (Monitor.prepareAlert key (tr.row w) reason now) m).1 with
    | ok v => exact ⟨v, rfl⟩
    | error err =>
      have h := (halert key reason now m err hres).2.1
      rw [hover] at h
      cases h

/-- A claude completion of `2^1023` input tokens and `read` cache reads that creates `create`
tokens in each of the two creation tiers. -/
def bulkCompletion (read create : Int) : CompletionEvent :=
  ⟨Text.ofString "t", Text.ofString "claude", some 200, none, [], .int (Int.pow 2 1023),
    .int read, .null, .int create, .int create⟩

/-- The samples of ten bulk completions within one minute: one with a cache read that creates
`2^1024` tokens, and nine without reads or creation. -/
def bulkSamples : List Sample :=
  ⟨28333334, Int.pow 2 1023 + 1, 1, Int.pow 2 1024, 1700000040000, 1⟩ ::
    List.replicate 9 ⟨28333334, Int.pow 2 1023, 0, 0, 1700000040000, 1⟩

/-- The window sums, at the minute of the bulk samples, of a minute ring fed them. -/
def bulkTriple : Triple :=
  let ring := bulkSamples.foldl Ring.insert (Ring.create Ring.windowMinutes)
  let w := Windows.compute 1700000040000 0
  ⟨ring.sumRange w.baseline, ring.sumRange w.recent, ring.sumRange w.recent⟩

theorem bulkSamples_extracted : ∀ s ∈ bulkSamples, s.Extracted := by
  have h₁ : (bulkCompletion 1 (Int.pow 2 1023)).sample? .default 1700000040000 =
      .ok (some ⟨28333334, Int.pow 2 1023 + 1, 1, Int.pow 2 1024, 1700000040000, 1⟩) := by
    decide +kernel
  have h₀ : (bulkCompletion 0 0).sample? .default 1700000040000 =
      .ok (some ⟨28333334, Int.pow 2 1023, 0, 0, 1700000040000, 1⟩) := by
    decide +kernel
  intro s hs
  rcases List.mem_cons.1 hs with rfl | hs
  · exact ⟨_, _, _, h₁⟩
  · rw [List.eq_of_mem_replicate hs]
    exact ⟨_, _, _, h₀⟩

/-- The bulk samples come from completions, and the rows of their sums fail only as the model
says. -/
theorem bulk_rows_fail_only_on_overflow :
    bulkTriple.baseline ∈ Sums.readBounded ∧ bulkTriple.recent ∈ Sums.readBounded ∧
      bulkTriple.observe ∈ Sums.readBounded ∧
      bulkTriple.FailureModes (Windows.compute 1700000040000 0) {} := by
  have hmem := Ring.sumRange_foldl_mem_readBounded bulkSamples_extracted Ring.windowMinutes
  exact ⟨hmem _, hmem _, hmem _, rules_fail_only_on_overflow (hmem _) (hmem _) (hmem _) _ _⟩

/-- The rules stop on sums of extracted samples in both ways. Ten completions within a minute,
one of them with a single cache read, sum to a recent window that creates `2^1024` tokens: its
create share is about a fifth, but its create/read ratio is beyond the binary64 range, and the
rules stop on it under the default thresholds. And a busy baseline without cache reads passes a
baseline threshold of zero, so the cliff divides by its zero rate. -/
theorem rules_stop_on_extracted_sums :
    bulkTriple.observe = ⟨10 * Int.pow 2 1023 + 1, 1, Int.pow 2 1024, 10⟩ ∧
      bulkTriple.observe.createOverflows = true ∧
      (bulkTriple.row (Windows.compute 1700000040000 0)).shouldAlert {} =
        .error .quotientTooLarge ∧
      ((⟨⟨10000, 0, 0, 30⟩, ⟨3000, 0, 0, 10⟩, ⟨3000, 0, 0, 10⟩⟩ : Triple).row
          (Windows.compute 1700000040000 0)).shouldAlert { baselineHitRateMin := .int 0 } =
        .error .floatDivisionByZero := by
  refine ⟨by decide +kernel, by decide +kernel, by decide +kernel, by decide +kernel⟩

end CacheHitRate
