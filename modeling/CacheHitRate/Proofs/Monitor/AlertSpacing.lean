import Mathlib.Data.List.Nodup
import CacheHitRate.Proofs.Monitor.Step
import CacheHitRate.Proofs.Monitor.SelfCheck

/-!
Warnings of one group are fifteen minutes apart. The dedup time of a group lives in the group,
and an evaluation evicts a group unseen for an hour, so the time is lost with it; the spacing
survives because of the volume the rules ask for. Under the default thresholds a row alerts only
when its observe or recent window counts denominator tokens, so the group has a sample of the
last fifteen minutes, and it is not evicted before that sample is an hour old: at least 46 minutes
after the alert. A group started again after that has no alert time, but the fifteen minutes
have passed.

`Monitor.Spaced` carries this along a run with the warnings given so far: the pairs of warnings of
one key are spaced, and each warning is still held by its group's alert time or lies fifteen
minutes back. A reset drops all groups and starts a new log.
-/

namespace CacheHitRate

namespace Quantity

theorem lt_int_int (a b : Int) : lt (.int a) (.int b) = decide (a < b) := by
  simp only [lt, compare?, extended?, Extended.compare, Int.min_self, Int.sub_self,
    Int.toNat_zero, show Int.pow 2 0 = 1 from rfl, Int.mul_one]
  rcases Int.lt_trichotomy a b with h | h | h
  · simp [Int.compare_eq_lt.mpr h, h]
  · simp [h]
  · simp [Int.compare_eq_gt.mpr h, Int.not_lt.mpr (Int.le_of_lt h)]

end Quantity

theorem Sums.exists_denomTokens_ne_zero {l : List Sums} (h : l.sum.denomTokens ≠ 0) :
    ∃ x ∈ l, x.denomTokens ≠ 0 := by
  induction l with
  | nil => exact absurd rfl h
  | cons x l ih =>
    by_cases hx : x.denomTokens = 0
    · obtain ⟨y, hy, hne⟩ := ih (by simpa [List.sum_cons, hx] using h)
      exact ⟨y, List.mem_cons_of_mem _ hy, hne⟩
    · exact ⟨x, List.mem_cons_self, hx⟩

namespace Ring

/-- Every slot holding counts is tagged with a minute no later than `last`. -/
def TaggedBy (r : Ring) (last : Int) : Prop := ∀ c ∈ r.buckets, c.sums = 0 ∨ c.minute ≤ last

variable {r : Ring} {last : Int}

theorem taggedBy_create (n : Nat) (last : Int) : (create n).TaggedBy last :=
  fun _ hc => Or.inl (sums_of_mem_create hc)

theorem TaggedBy.insert (h : r.TaggedBy last) {s : Sample} (hs : last ≤ s.minute) :
    (r.insert s).TaggedBy s.minute := by
  intro c hc
  obtain ⟨i, hi⟩ := List.mem_iff_getElem?.1 hc
  by_cases hslot : i = slotOf r.size s.minute
  · subst hslot
    rw [getElem_insert_self] at hi
    obtain ⟨c', -, rfl⟩ := Option.map_eq_some_iff.1 hi
    exact Or.inr (Int.le_refl _)
  · rw [getElem_insert_of_ne s hslot] at hi
    exact (h c (List.mem_of_getElem? hi)).imp_right fun hc => Int.le_trans hc hs

theorem TaggedBy.first_le (h : r.TaggedBy last) {span : Span}
    (hs : (r.sumRange span).denomTokens ≠ 0) : span.first ≤ last := by
  rw [sumRange_eq_sum] at hs
  obtain ⟨x, hx, hne⟩ := Sums.exists_denomTokens_ne_zero hs
  obtain ⟨c, hc, rfl⟩ := List.mem_map.1 hx
  have hin : span.contains c.minute = true := by
    by_contra hout
    exact hne (by simp [Bucket.within_of_not_contains (Bool.of_not_eq_true hout)])
  have hsums : c.sums ≠ 0 := by
    intro h0
    exact hne (by simp [Bucket.within, h0])
  have hle := (h c hc).resolve_left hsums
  simp only [Span.contains, decide_eq_true_eq] at hin
  omega

end Ring

theorem Windows.compute_observe_first (now enabledAt : Int) :
    (compute now enabledAt).recent.first = minuteOf now - 14 ∧
      minuteOf now - 14 ≤ (compute now enabledAt).observe.first := by
  simp only [compute, recentMinutes, coldStartMinutes]
  refine ⟨by omega, ?_⟩
  cases decide (enabledAt > 0 ∧ now - enabledAt < 10 * minuteMs) <;> simp <;> omega

namespace Row

theorem volume_of_shouldAlert {r : Row} {reason : Reason}
    (h : r.shouldAlert {} = .ok (some reason)) :
    r.passesVolumeGate {} = true ∨ r.recent.denomTokens.lt (.int 3000) = false := by
  by_cases hgate : r.passesVolumeGate {} = true
  · exact Or.inl hgate
  refine Or.inr ?_
  have hcliff : r.isHitRateCliff {} = .ok true := by
    simp only [shouldAlert, hgate, Bool.false_eq_true, if_false, bind, Except.bind] at h
    split at h
    · cases h
    · rename_i b hb
      cases b
      · cases h
      · exact hb
  simp only [isHitRateCliff, bind, Except.bind, pure, Except.pure] at hcliff
  by_cases hb : r.baseline.denomTokens.lt ({} : Thresholds).baselineDenomTokensMin = true
  · simp [hb] at hcliff
  by_cases hrec : r.recent.denomTokens.lt (.int 3000) = true
  · simp [hb, hrec] at hcliff
  simpa using hrec

end Row

namespace Triple

theorem volume_of_shouldAlert {tr : Triple} {w : Windows} {reason : Reason}
    (h : (tr.row w).shouldAlert {} = .ok (some reason)) :
    2000 ≤ tr.observe.denomTokens ∨ 3000 ≤ tr.recent.denomTokens := by
  rcases Row.volume_of_shouldAlert h with hgate | hrec
  · left
    simp only [Row.passesVolumeGate, row, Sums.counts, Bool.and_eq_true] at hgate
    by_cases hcold : w.coldStart = true <;>
      simp [hcold, Quantity.le_int_int] at hgate <;> omega
  · right
    simp only [row, Sums.counts, Quantity.lt_int_int, decide_eq_false_iff_not, Int.not_lt] at hrec
    exact hrec

end Triple

theorem Except.exists_of_map_eq_ok {ε α β : Type} {f : α → β} {x : Except ε α} {b : β}
    (h : Except.map f x = .ok b) : ∃ a, x = .ok a ∧ f a = b := by
  cases x with
  | error e => cases h
  | ok a => exact ⟨a, rfl, by simpa [Except.map] using h⟩

theorem mem_of_filterMapM_ok {α β ε : Type} {f : α → Except ε (Option β)} {xs : List α}
    {ys : List β} (h : xs.filterMapM f = .ok ys) {y : β} (hy : y ∈ ys) :
    ∃ x ∈ xs, f x = .ok (some y) := by
  induction xs generalizing ys with
  | nil =>
    simp only [List.filterMapM_nil, pure, Except.pure, Except.ok.injEq] at h
    subst h
    cases hy
  | cons x xs ih =>
    simp only [List.filterMapM_cons, bind, Except.bind] at h
    rcases hx : f x with err | b
    · simp [hx] at h
    rcases hrest : xs.filterMapM f with err | zs
    · cases b <;> simp [hx, hrest] at h
    cases b with
    | none =>
      simp only [hx, hrest, Except.ok.injEq] at h
      subst h
      obtain ⟨x', hx', hfx'⟩ := ih hrest hy
      exact ⟨x', List.mem_cons_of_mem _ hx', hfx'⟩
    | some b =>
      simp only [hx, hrest, pure, Except.pure, Except.ok.injEq] at h
      subst h
      rcases List.mem_cons.1 hy with rfl | hy
      · exact ⟨x, List.mem_cons_self, hx⟩
      · obtain ⟨x', hx', hfx'⟩ := ih hrest hy
        exact ⟨x', List.mem_cons_of_mem _ hx', hfx'⟩

theorem anomaly_of_evaluate {t : Thresholds} {audited : Int} {gs : Groups} {now enabledAt : Int}
    {ev : Evaluation} (h : (evaluate t audited gs now enabledAt).2 = .ok ev)
    {a : GroupKey × Row × Reason} (ha : a ∈ ev.anomalies) :
    ∃ g ∈ gs, Evaluation.isStale (minuteOf now) g = false ∧ g.key = a.1 ∧
      ((Evaluation.ringTriple (Windows.compute now enabledAt) g).row
        (Windows.compute now enabledAt)).shouldAlert t = .ok (some a.2.2) := by
  simp only [evaluate] at h
  split at h
  · cases h
    cases ha
  · obtain ⟨anomalies, hrun, rfl⟩ := Except.exists_of_map_eq_ok h
    obtain ⟨⟨key, tr⟩, hrow, hfx⟩ := mem_of_filterMapM_ok hrun ha
    obtain ⟨g, hg, hrow⟩ := List.mem_map.1 hrow
    obtain ⟨rfl, rfl⟩ := Prod.mk.inj hrow
    simp only [bind, Except.bind] at hfx
    rcases hr : ((Evaluation.ringTriple (Windows.compute now enabledAt) g).row
      (Windows.compute now enabledAt)).shouldAlert t with err | reason <;> rw [hr] at hfx
    · cases hfx
    · cases reason with
      | none => cases hfx
      | some reason =>
        cases hfx
        obtain ⟨hgs, hfresh⟩ := List.mem_filter.1 hg
        exact ⟨g, hgs, by simpa [Windows.compute] using hfresh, rfl, hr⟩

theorem anomaly_seen_recently {audited : Int} {gs : Groups} {now enabledAt : Int}
    {ev : Evaluation} (h : (evaluate {} audited gs now enabledAt).2 = .ok ev)
    (htag : ∀ g ∈ gs, g.ring.TaggedBy g.lastSeenMinute)
    {a : GroupKey × Row × Reason} (ha : a ∈ ev.anomalies) :
    ∃ g ∈ gs, Evaluation.isStale (minuteOf now) g = false ∧ g.key = a.1 ∧
      minuteOf now - 14 ≤ g.lastSeenMinute := by
  obtain ⟨g, hg, hfresh, hkey, halert⟩ := anomaly_of_evaluate h ha
  refine ⟨g, hg, hfresh, hkey, ?_⟩
  obtain ⟨hrecent, hobserve⟩ := Windows.compute_observe_first now enabledAt
  have hvol := Triple.volume_of_shouldAlert halert
  simp only [Evaluation.ringTriple] at hvol
  have hrecent_le : (g.ring.sumRange (Windows.compute now enabledAt).recent).denomTokens ≠ 0 →
      minuteOf now - 14 ≤ g.lastSeenMinute := fun hne => hrecent ▸ (htag g hg).first_le hne
  rcases hvol with hvol | hvol
  · split at hvol
    · have hobserve_ne :
          (g.ring.sumRange (Windows.compute now enabledAt).observe).denomTokens ≠ 0 := by
        omega
      have := (htag g hg).first_le hobserve_ne
      omega
    · exact hrecent_le (by omega)
  · exact hrecent_le (by omega)

namespace Group

/-- A group as a clock at minute `M` finds it: its last sample is no later than `M`, its slots
holding counts are tagged no later than its last sample, and it alerted, if at all, while its last
sample was at most fourteen minutes old. -/
structure Paced (M : Int) (g : Group) : Prop where
  seen : g.lastSeenMinute ≤ M
  tagged : g.ring.TaggedBy g.lastSeenMinute
  alerted : ∀ x, g.lastAlertAt = some x → minuteOf x - 14 ≤ g.lastSeenMinute

variable {M : Int} {g : Group}

theorem Paced.mono (h : g.Paced M) {M' : Int} (hle : M ≤ M') : g.Paced M' :=
  ⟨Int.le_trans h.seen hle, h.tagged, h.alerted⟩

theorem paced_fresh (key : GroupKey) (name : Text) (s : Sample) :
    (fresh key name s).Paced s.minute :=
  ⟨Int.le_refl _, Ring.taggedBy_create _ _, fun _ hx => by cases hx⟩

theorem Paced.record (h : g.Paced M) {s : Sample} (hs : M ≤ s.minute) :
    (g.record s).Paced s.minute where
  seen := Int.le_refl _
  tagged := h.tagged.insert (Int.le_trans h.seen hs)
  alerted x hx := Int.le_trans (h.alerted x hx) (Int.le_trans h.seen hs)

theorem Paced.prunedTo (h : g.Paced M) (k : Int) : (g.prunedTo k).Paced M :=
  ⟨h.seen, h.tagged, h.alerted⟩

theorem Paced.mark (h : g.Paced M) {now : Int} (hrecent : minuteOf now - 14 ≤ g.lastSeenMinute) :
    ({ g with lastAlertAt := some now } : Group).Paced M :=
  ⟨h.seen, h.tagged, fun x hx => by
    cases hx
    exact hrecent⟩

theorem Paced.alert_add_le_of_stale (h : g.Paced M) {now x : Int}
    (hstale : Evaluation.isStale (minuteOf now) g = true) (hx : g.lastAlertAt = some x) :
    x + Monitor.alertDedupMs ≤ now := by
  have halert := h.alerted x hx
  have hold : g.lastSeenMinute < minuteOf now - Ring.windowMinutes := of_decide_eq_true hstale
  simp only [Ring.windowMinutes, Nat.cast_ofNat, minuteOf, minuteMs,
    Int.fdiv_eq_ediv_of_nonneg _ (show (0 : Int) ≤ 60000 by decide)] at halert hold
  simp only [Monitor.alertDedupMs]
  omega

end Group

namespace Monitor

/-- The warnings of an outcome at `now`, each with the key of its group. -/
def Outcome.alerts (o : Outcome) (now : Int) : List (Int × GroupKey) :=
  o.notices.filterMap fun p => p.1.map fun k => (now, k)

/-- What holds at a time `t` of a run under the default thresholds, with the warnings `log` given
since the last reset: keys are distinct and every group is paced at the minute of `t`; two
warnings of one key are fifteen minutes apart; and each warning lies in the past and is still
held by its group's alert time, or lies fifteen minutes back. -/
structure Spaced (m : Monitor) (t : Int) (log : List (Int × GroupKey)) : Prop where
  thresholds : m.settings.thresholds = {}
  keys : (m.groups.map (·.key)).Nodup
  groups : ∀ g ∈ m.groups, g.Paced (minuteOf t)
  apart : log.Pairwise fun a b => a.2 = b.2 → a.1 + alertDedupMs ≤ b.1
  past : ∀ p ∈ log, p.1 ≤ t
  held : ∀ p ∈ log, (∃ g ∈ m.groups, g.key = p.2 ∧ ∃ x, g.lastAlertAt = some x ∧ p.1 ≤ x) ∨
    p.1 + alertDedupMs ≤ t

variable {m : Monitor} {t : Int} {log : List (Int × GroupKey)}

theorem Spaced.mono (h : m.Spaced t log) {t' : Int} (hle : t ≤ t') : m.Spaced t' log where
  thresholds := h.thresholds
  keys := h.keys
  groups g hg := (h.groups g hg).mono (minuteOf_mono hle)
  apart := h.apart
  past p hp := Int.le_trans (h.past p hp) hle
  held p hp := (h.held p hp).imp_right fun hp => Int.le_trans hp hle

theorem Spaced.of_append {more : List (Int × GroupKey)} (h : m.Spaced t (log ++ more)) :
    m.Spaced t log where
  thresholds := h.thresholds
  keys := h.keys
  groups := h.groups
  apart := (List.pairwise_append.1 h.apart).1
  past p hp := h.past p (List.mem_append_left _ hp)
  held p hp := h.held p (List.mem_append_left _ hp)

theorem Spaced.congr (h : m.Spaced t log) {m' : Monitor} (hs : m'.settings = m.settings)
    (hg : m'.groups = m.groups) : m'.Spaced t log where
  thresholds := by rw [hs]; exact h.thresholds
  keys := by rw [hg]; exact h.keys
  groups := by rw [hg]; exact h.groups
  apart := h.apart
  past := h.past
  held := by rw [hg]; exact h.held

theorem spaced_applyEnabled (hth : m.settings.thresholds = {}) (v : Json) (now t : Int) :
    (m.applyEnabled v now).Spaced t [] where
  thresholds := hth
  keys := List.nodup_nil
  groups _ hg := absurd hg List.not_mem_nil
  apart := List.Pairwise.nil
  past _ hp := absurd hp List.not_mem_nil
  held _ hp := absurd hp List.not_mem_nil

theorem exists_addSample_of_mem (hkeys : (m.groups.map (·.key)).Nodup) (key : GroupKey)
    (name : Text) (s : Sample) {g : Group} (hg : g ∈ m.groups) :
    ∃ g' ∈ (addSample key name s m).groups, g'.key = g.key ∧ g'.lastAlertAt = g.lastAlertAt := by
  have hfind := Groups.find?_of_mem hkeys hg
  by_cases hk : g.key = key
  · have hself := find?_addSample_self key name s m
    rw [hk] at hfind
    rw [hfind, Option.getD_some] at hself
    exact ⟨_, (Groups.mem_of_find? hself).1, rfl, rfl⟩
  · have hother := find?_addSample_of_ne key name s m hk
    rw [hfind] at hother
    exact ⟨g, (Groups.mem_of_find? hother).1, rfl, rfl⟩

theorem Spaced.addSample (h : m.Spaced t log) (key : GroupKey) (name : Text) {s : Sample}
    {now : Int} (hle : t ≤ now) (hs : s.minute = minuteOf now) :
    (addSample key name s m).Spaced now log where
  thresholds := h.thresholds
  keys := nodup_keys_addSample key name s m h.keys
  groups := by
    intro g hg
    rcases mem_addSample key name s m hg with ⟨hg, -⟩ | ⟨g₀, hg₀, -, rfl⟩
    · exact (h.groups g hg).mono (minuteOf_mono hle)
    · have h₀ : ({ g₀ with providerName := name } : Group).Paced s.minute := by
        rcases hg₀ with hg₀ | rfl
        · have hp := (h.groups g₀ hg₀).mono (hs ▸ minuteOf_mono hle)
          exact ⟨hp.seen, hp.tagged, hp.alerted⟩
        · exact Group.paced_fresh key name s
      rw [← hs]
      exact h₀.record (Int.le_refl _)
  apart := h.apart
  past p hp := Int.le_trans (h.past p hp) hle
  held := by
    intro p hp
    rcases h.held p hp with ⟨g, hg, hkey, x, hx, hpx⟩ | hback
    · obtain ⟨g', hg', hkey', hx'⟩ := exists_addSample_of_mem h.keys key name s hg
      exact Or.inl ⟨g', hg', hkey'.trans hkey, x, hx'.trans hx, hpx⟩
    · exact Or.inr (Int.le_trans hback hle)

theorem Spaced.evict (h : m.Spaced t log) {now : Int} (hle : t ≤ now) :
    ({ m with lastEval := now, groups :=
      (evaluate m.settings.thresholds m.settings.audited m.groups now m.enabledAt).1 } :
        Monitor).Spaced now log := by
  obtain ⟨f, hf, heq⟩ := evaluate_groups m.settings.thresholds m.settings.audited m.groups now
    m.enabledAt
  have hm := h.mono hle
  have hmem : ∀ g ∈ m.groups, Evaluation.isStale (minuteOf now) g = false →
      f g ∈ (evaluate m.settings.thresholds m.settings.audited m.groups now m.enabledAt).1 := by
    intro g hg hfresh
    rw [heq]
    exact List.mem_map_of_mem (List.mem_filter.2 ⟨hg, by simpa using hfresh⟩)
  refine ⟨h.thresholds, ?_, ?_, h.apart, hm.past, ?_⟩
  · show ((evaluate m.settings.thresholds m.settings.audited m.groups now m.enabledAt).1.map
      (·.key)).Nodup
    rw [keys_evaluate]
    exact h.keys.sublist (List.filter_sublist.map _)
  · intro g hg
    change g ∈ (evaluate m.settings.thresholds m.settings.audited m.groups now m.enabledAt).1 at hg
    rw [heq] at hg
    obtain ⟨g₀, hg₀, rfl⟩ := List.mem_map.1 hg
    have h₀ := hm.groups g₀ (List.mem_of_mem_filter hg₀)
    rcases hf g₀ with hfg | hfg <;> rw [hfg]
    · exact h₀
    · exact h₀.prunedTo _
  · intro p hp
    rcases hm.held p hp with ⟨g, hg, hkey, x, hx, hpx⟩ | hback
    · cases hstale : Evaluation.isStale (minuteOf now) g
      · have hx' : (f g).lastAlertAt = some x := by
          rcases hf g with hfg | hfg <;> rw [hfg]
          · exact hx
          · exact hx
        exact Or.inl ⟨f g, hmem g hg hstale, (hf.key_eq g).trans hkey, x, hx', hpx⟩
      · have := (hm.groups g hg).alert_add_le_of_stale hstale hx
        exact Or.inr (by omega)
    · exact Or.inr hback

theorem Spaced.anomaly_recent (h : m.Spaced t log) {now : Int} {ev : Evaluation}
    (hev : (evaluate m.settings.thresholds m.settings.audited m.groups now m.enabledAt).2 =
      .ok ev) :
    ∀ a ∈ ev.anomalies, ∀ g ∈ (evaluate m.settings.thresholds m.settings.audited m.groups now
      m.enabledAt).1, g.key = a.1 → minuteOf now - 14 ≤ g.lastSeenMinute := by
  intro a ha g hg hkey
  obtain ⟨f, hf, heq⟩ := evaluate_groups m.settings.thresholds m.settings.audited m.groups now
    m.enabledAt
  rw [h.thresholds] at hev
  obtain ⟨g₀, hg₀, -, hkey₀, hrecent⟩ :=
    anomaly_seen_recently hev (fun g hg => (h.groups g hg).tagged) ha
  rw [heq] at hg
  obtain ⟨g₁, hg₁, rfl⟩ := List.mem_map.1 hg
  have hsame : g₁ = g₀ :=
    List.inj_on_of_nodup_map h.keys (List.mem_of_mem_filter hg₁) hg₀
      (((hf.key_eq g₁).symm.trans hkey).trans hkey₀.symm)
  subst hsame
  rcases hf g₁ with hfg | hfg <;> rw [hfg]
  · exact hrecent
  · exact hrecent

def markAlerted (m : Monitor) (key : GroupKey) (now : Int) : Monitor :=
  { m with groups := m.groups.modify key fun g => { g with lastAlertAt := some now } }

theorem runOp_prepareAlert (key : GroupKey) (row : Row) (reason : Reason) (now : Int)
    (m : Monitor) :
    runOp (prepareAlert key row reason now) m =
      match m.groups.find? key with
      | none => (.ok none, m)
      | some g =>
        if now - g.lastAlertAt.getD 0 < alertDedupMs then
          (.ok none, m.withMetrics fun x => { x with alertsSuppressed := x.alertsSuppressed + 1 })
        else
          match Notice.alert key g.providerName row (Text.ofString reason.text) with
          | .error err => (.error err, m.markAlerted key now)
          | .ok n => (.ok (some n), (m.markAlerted key now).withMetrics fun x =>
              { x with alerts := x.alerts.bump (Text.ofString reason.text) }) := by
  unfold prepareAlert
  simp only [runOp_bind, runOp_get]
  cases m.groups.find? key with
  | none => rfl
  | some g =>
    by_cases hdup : now - g.lastAlertAt.getD 0 < alertDedupMs
    · simp only [hdup, if_true, runOp_bind, runOp_modify]
      rfl
    · simp only [hdup, if_false, runOp_bind, runOp_modify, runOp_check]
      cases Notice.alert key g.providerName row (Text.ofString reason.text) <;> rfl

theorem mem_markAlerted {key : GroupKey} {now : Int} {g : Group} (hg : g ∈ m.groups) :
    (if g.key = key then { g with lastAlertAt := some now } else g) ∈
      (m.markAlerted key now).groups :=
  List.mem_map_of_mem hg

theorem Spaced.withMetrics (h : m.Spaced t log) (f : Metrics → Metrics) :
    (m.withMetrics f).Spaced t log :=
  h.congr rfl rfl

theorem Spaced.mark (h : m.Spaced now log) {key : GroupKey}
    (hact : ∀ g ∈ m.groups, g.key = key → minuteOf now - 14 ≤ g.lastSeenMinute) :
    (m.markAlerted key now).Spaced now log := by
  have hmem : ∀ g ∈ m.groups, (if g.key = key then { g with lastAlertAt := some now } else g) ∈
      (m.markAlerted key now).groups := fun g hg => mem_markAlerted hg
  refine ⟨h.thresholds, ?_, ?_, h.apart, h.past, ?_⟩
  · show ((m.groups.modify key _).map (·.key)).Nodup
    rw [Groups.keys_modify m.groups key (fun g => { g with lastAlertAt := some now })
      (fun _ => rfl)]
    exact h.keys
  · intro g' hg'
    obtain ⟨g, hg, rfl⟩ := List.mem_map.1 hg'
    by_cases hk : g.key = key
    · simpa [hk] using (h.groups g hg).mark (hact g hg hk)
    · simpa [hk] using h.groups g hg
  · intro p hp
    rcases h.held p hp with ⟨g, hg, hkey, x, hx, hpx⟩ | hback
    · by_cases hk : g.key = key
      · refine Or.inl ⟨_, hmem g hg, by simp [hk, ← hkey], now, by simp [hk], h.past p hp⟩
      · exact Or.inl ⟨g, by simpa [hk] using hmem g hg, hkey, x, hx, hpx⟩
    · exact Or.inr hback

theorem Spaced.mark_alert (h : m.Spaced now log) {key : GroupKey} {g : Group}
    (hact : ∀ g ∈ m.groups, g.key = key → minuteOf now - 14 ≤ g.lastSeenMinute)
    (hfind : m.groups.find? key = some g) (hdup : ¬now - g.lastAlertAt.getD 0 < alertDedupMs) :
    (m.markAlerted key now).Spaced now (log ++ [(now, key)]) := by
  have hm := h.mark hact
  obtain ⟨hg, hgkey⟩ := Groups.mem_of_find? hfind
  refine ⟨hm.thresholds, hm.keys, hm.groups, ?_, ?_, ?_⟩
  · refine List.pairwise_append.2 ⟨h.apart, List.pairwise_singleton _ _, ?_⟩
    intro a ha b hb hab
    rw [List.mem_singleton.1 hb] at hab ⊢
    rcases h.held a ha with ⟨g', hg', hkey', x, hx, hax⟩ | hback
    · have hsame : g' = g :=
        List.inj_on_of_nodup_map h.keys hg' hg (hkey'.trans (hab.trans hgkey.symm))
      subst hsame
      simp only [hx, Option.getD_some] at hdup
      omega
    · exact hback
  · intro p hp
    rcases List.mem_append.1 hp with hp | hp
    · exact h.past p hp
    · rw [List.mem_singleton.1 hp]
  · intro p hp
    rcases List.mem_append.1 hp with hp | hp
    · exact hm.held p hp
    · rw [List.mem_singleton.1 hp]
      have hmarked : (if g.key = key then { g with lastAlertAt := some now } else g) ∈
          (m.markAlerted key now).groups := mem_markAlerted hg
      rw [if_pos hgkey] at hmarked
      exact Or.inl ⟨_, hmarked, hgkey, now, rfl, Int.le_refl now⟩

theorem Spaced.offerAlert (h : m.Spaced now log) {key : GroupKey} (row : Row) (reason : Reason)
    (hact : ∀ g ∈ m.groups, g.key = key → minuteOf now - 14 ≤ g.lastSeenMinute) :
    (runOp (prepareAlert key row reason now) m).2.Spaced now
      (log ++ match (runOp (prepareAlert key row reason now) m).1 with
        | .ok (some _) => [(now, key)]
        | _ => []) := by
  rw [runOp_prepareAlert]
  cases hfind : m.groups.find? key with
  | none => simpa using h
  | some g =>
    by_cases hdup : now - g.lastAlertAt.getD 0 < alertDedupMs
    · simpa [hdup] using h.withMetrics _
    · simp only [hdup, if_false]
      cases Notice.alert key g.providerName row (Text.ofString reason.text) with
      | error err => simpa using h.mark hact
      | ok n => exact (h.mark_alert hact hfind hdup).congr rfl rfl

theorem exists_of_withoutAlerts_eq {m' : Monitor} (h : m'.withoutAlerts = m.withoutAlerts)
    {g' : Group} (hg' : g' ∈ m'.groups) :
    ∃ g ∈ m.groups, g.key = g'.key ∧ g.lastSeenMinute = g'.lastSeenMinute := by
  have hmem : ({ g' with lastAlertAt := none } : Group) ∈ m.withoutAlerts.groups := by
    rw [← h]
    exact List.mem_map_of_mem hg'
  obtain ⟨g, hg, heq⟩ := List.mem_map.1 hmem
  have hkey := congrArg Group.key heq
  have hseen := congrArg Group.lastSeenMinute heq
  exact ⟨g, hg, hkey, hseen⟩

theorem runOp_keyedAlerts_cons (key : GroupKey) (row : Row) (reason : Reason)
    (rest : List (GroupKey × Row × Reason)) (now : Int) (m : Monitor) :
    runOp (keyedAlerts ((key, row, reason) :: rest) now) m =
      match runOp (prepareAlert key row reason now) m with
      | (.error err, m₁) => (.error err, m₁)
      | (.ok none, m₁) => runOp (keyedAlerts rest now) m₁
      | (.ok (some n), m₁) =>
        match runOp (keyedAlerts rest now) m₁ with
        | (.ok alerts, m₂) => (.ok ((key, n) :: alerts), m₂)
        | (.error err, m₂) => (.error err, m₂) := by
  simp only [keyedAlerts, List.filterMapM_cons, runOp_bind, runOp_map]
  rcases runOp (prepareAlert key row reason now) m with ⟨r, m₁⟩
  cases r with
  | error err => rfl
  | ok b =>
    cases b with
    | none => rfl
    | some n =>
      simp only [Option.map_some, runOp_bind, runOp_pure]
      split <;> rename_i hrest <;> rw [hrest]

theorem Spaced.offerAlerts (anomalies : List (GroupKey × Row × Reason)) {m : Monitor}
    {log : List (Int × GroupKey)} (h : m.Spaced now log)
    (hact : ∀ a ∈ anomalies, ∀ g ∈ m.groups, g.key = a.1 → minuteOf now - 14 ≤ g.lastSeenMinute) :
    (runOp (keyedAlerts anomalies now) m).2.Spaced now
      (log ++ match (runOp (keyedAlerts anomalies now) m).1 with
        | .ok alerts => alerts.map fun p => (now, p.1)
        | .error _ => []) := by
  induction anomalies generalizing m log with
  | nil => simpa [keyedAlerts] using h
  | cons a rest ih =>
    obtain ⟨key, row, reason⟩ := a
    have h₁ := h.offerAlert row reason (hact _ List.mem_cons_self)
    have hwithout := withoutAlerts_prepareAlert key row reason now m
    rw [runOp_keyedAlerts_cons]
    revert h₁ hwithout
    rcases runOp (prepareAlert key row reason now) m with ⟨r, m₁⟩
    intro h₁ hwithout
    have hact₁ :
        ∀ a ∈ rest, ∀ g ∈ m₁.groups, g.key = a.1 → minuteOf now - 14 ≤ g.lastSeenMinute := by
      intro a ha g hg hkey
      obtain ⟨g₀, hg₀, hkey₀, hseen⟩ := exists_of_withoutAlerts_eq hwithout hg
      rw [← hseen]
      exact hact a (List.mem_cons_of_mem _ ha) g₀ hg₀ (hkey₀.trans hkey)
    cases r with
    | error err => simpa using h₁
    | ok b =>
      cases b with
      | none =>
        have h₁' : m₁.Spaced now log := by simpa using h₁
        exact ih h₁' hact₁
      | some n =>
        have hrest := ih (h₁ : m₁.Spaced now (log ++ [(now, key)])) hact₁
        dsimp only
        split
        · rename_i alerts m₂ hrun
          rw [hrun] at hrest
          simpa using hrest
        · rename_i err m₂ hrun
          rw [hrun] at hrest
          simpa using hrest.of_append.of_append

theorem Spaced.persist (h : m.Spaced t log) (on : Bool) : (m.persist on).Spaced t log :=
  h.congr rfl rfl

theorem Spaced.cycle (h : m.Spaced t log) {now : Int} (hle : t ≤ now) :
    (cycleWith evaluate m now).saved.Spaced now
      (if (cycleWith evaluate m now).reset then [] else
        log ++ (cycleWith evaluate m now).alerts now) := by
  have hm := h.mono hle
  have hevict := h.evict hle
  unfold cycleWith
  by_cases hdue : (!m.isEnabled || decide (now - m.lastEval < evalIntervalMs)) = true
  · simp only [hdue, if_true]
    simpa [Outcome.saved, Outcome.alerts] using hm
  simp only [hdue, Bool.false_eq_true, if_false]
  rcases hE : evaluate m.settings.thresholds m.settings.audited m.groups now m.enabledAt with
    ⟨gs, res⟩
  rw [hE] at hevict
  simp only at hevict ⊢
  cases res with
  | error err => simpa [Outcome.saved, Outcome.alerts] using hevict
  | ok ev =>
    dsimp only
    rcases Option.eq_none_or_eq_some ev.failure with hf | ⟨f, hf⟩
    · have hact := h.anomaly_recent (show (evaluate m.settings.thresholds m.settings.audited
        m.groups now m.enabledAt).2 = .ok ev by rw [hE])
      rw [hE] at hact
      have hbatch := (hevict.withMetrics fun x =>
        { x with evaluations := x.evaluations + 1, trackedGroups := gs.length }).offerAlerts
          ev.anomalies hact
      simp only [hf, alertOutcome]
      split
      · rename_i alerts m' hrun
        rw [hrun] at hbatch
        simpa [Outcome.saved, Outcome.alerts, List.filterMap_map, Function.comp_def] using hbatch
      · rename_i err m' hrun
        rw [hrun] at hbatch
        simpa [Outcome.saved, Outcome.alerts] using hbatch
    · simp only [hf, failureOutcome, Outcome.saved, if_true]
      refine (spaced_applyEnabled ?_ _ now now).persist false
      exact h.thresholds

theorem Spaced.completion (h : m.Spaced t log) (e : CompletionEvent) {now : Int} (hle : t ≤ now) :
    (completionWith evaluate m e now).saved.Spaced now
      (if (completionWith evaluate m e now).reset then [] else
        log ++ (completionWith evaluate m e now).alerts now) := by
  have hm := h.mono hle
  have hkeep : ∀ {m' : Monitor}, m'.settings = m.settings → m'.groups = m.groups →
      m'.Spaced now (log ++ []) := fun hs hg => by simpa using hm.congr hs hg
  unfold completionWith
  cases m.isEnabled
  · exact hkeep rfl rfl
  simp only [Bool.not_true, Bool.false_eq_true, if_false]
  cases hadm : m.admission e now with
  | dropped r traces => exact hkeep rfl rfl
  | failed err traces => exact hkeep rfl rfl
  | admitted key name s traces =>
    have htraces : ({ m with traces } : Monitor).Spaced now log := hm.congr rfl rfl
    have hcycle := (htraces.addSample key name (Int.le_refl now)
      (minute_of_admission hadm)).cycle (Int.le_refl now)
    dsimp only
    split
    · rename_i hhalt
      have hq := (cycleWith_halt hhalt).1
      simp only [Outcome.saved, hq] at hcycle ⊢
      exact hcycle.withMetrics _
    · exact hcycle

/-- Every call keeps the invariant: the warnings it gives enter the log, and a call that resets
the monitor starts a new one. -/
theorem Spaced.call (h : m.Spaced t log) {now : Int} (hle : t ≤ now) (c : Call) :
    (m.step now c).saved.Spaced now
      (if (m.step now c).reset then [] else log ++ (m.step now c).alerts now) := by
  have hm := h.mono hle
  have hkeep : ∀ {m' : Monitor}, m'.settings = m.settings → m'.groups = m.groups →
      m'.Spaced now (log ++ []) := fun hs hg => by simpa using hm.congr hs hg
  cases c with
  | start =>
    simp only [step, stepWith]
    cases hload : m.store.load startDepth with
    | error err =>
      simp only [start, hload]
      exact hkeep rfl rfl
    | ok v =>
      simp only [start, hload]
      exact spaced_applyEnabled h.thresholds v now now
  | stop => exact spaced_applyEnabled h.thresholds _ now now
  | setEnabled v =>
    simp only [step, stepWith]
    split
    · exact hkeep rfl rfl
    · exact (spaced_applyEnabled h.thresholds _ now now).persist _
  | ingestStart e =>
    obtain ⟨traces, heq⟩ := ingestStart_eq m e now
    simp only [step, stepWith, heq]
    exact hkeep rfl rfl
  | ingestCompletion e => exact h.completion e hle
  | line limit text =>
    simp only [step, stepWith]
    split
    · exact hkeep rfl rfl
    · split
      · exact hkeep rfl rfl
      · rename_i e _
        obtain ⟨traces, heq⟩ := ingestStart_eq m e now
        simp only [heq]
        exact hkeep rfl rfl
      · exact h.completion _ hle
  | maybeEvaluate => exact h.cycle hle
  | deliver ns timeout ok =>
    obtain ⟨failures, hf⟩ := deliver_eq m ns timeout ok
    simp only [step, stepWith, hf]
    exact hkeep rfl rfl
  | storeWritten store => exact hkeep rfl rfl

/-- Every state reached under the default thresholds on a clock that never goes back keeps the
invariant with an empty log. -/
theorem ReachesBy.spaced {settings : Settings} {store : FlagStore}
    (hm : ReachesBy settings store m t) (hth : settings.thresholds = {}) : m.Spaced t [] := by
  induction hm with
  | built t =>
    exact ⟨hth, List.nodup_nil, fun _ hg => absurd hg List.not_mem_nil, List.Pairwise.nil,
      fun _ hp => absurd hp List.not_mem_nil, fun _ hp => absurd hp List.not_mem_nil⟩
  | wait _ hle ih => exact ih.mono hle
  | call c now _ hle ih =>
    have hstep := ih.call hle c
    rw [(step_saved _ now c).1] at hstep
    split at hstep
    · exact hstep
    · exact hstep.of_append

/-- A run from `m` at time `t` to `m'` at `t'` on a clock that never goes back, none of whose
calls resets the monitor, with the warnings it gives: each with its time and its group's key. -/
inductive Warnings (m : Monitor) (t : Int) : List (Int × GroupKey) → Monitor → Int → Prop
  | nil : Warnings m t [] m t
  | call {log : List (Int × GroupKey)} {m' : Monitor} {t' : Int} (c : Call) (now : Int) :
      Warnings m t log m' t' → t' ≤ now → (m'.step now c).reset = false →
      Warnings m t (log ++ (m'.step now c).alerts now) (m'.step now c).saved now

/-- The warnings of a run of calls, added to those of `acc` and with the monitor and clock it
ends at; none when a call goes back in time or resets the monitor. -/
def warningRun : List (Int × GroupKey) × Monitor × Int → List (Int × Call) →
    Option (List (Int × GroupKey) × Monitor × Int)
  | acc, [] => some acc
  | (log, m, t), (now, c) :: calls =>
    if t ≤ now ∧ (m.step now c).reset = false then
      warningRun (log ++ (m.step now c).alerts now, (m.step now c).saved, now) calls
    else none

theorem Warnings.warningRun {m : Monitor} {t : Int} {log : List (Int × GroupKey)} {m' : Monitor}
    {t' : Int} (h : m.Warnings t log m' t') (calls : List (Int × Call))
    {r : List (Int × GroupKey) × Monitor × Int} (hr : warningRun (log, m', t') calls = some r) :
    m.Warnings t r.1 r.2.1 r.2.2 := by
  induction calls generalizing log m' t' with
  | nil =>
    cases hr
    exact h
  | cons c calls ih =>
    obtain ⟨now, c⟩ := c
    simp only [Monitor.warningRun] at hr
    split at hr
    · next hgo => exact ih (h.call c now hgo.1 hgo.2) hr
    · cases hr

end Monitor

/-- Under the default thresholds, on a clock that never goes back, two warnings for one group are
fifteen minutes apart. This holds for any stretch of a run from a reached state in which no call
resets the monitor, also when the group is evicted and started again between the two. -/
theorem warnings_of_a_key_spaced {settings : Settings} {store : FlagStore} {m m' : Monitor}
    {t t' : Int} {log : List (Int × GroupKey)} (hm : Monitor.ReachesBy settings store m t)
    (hth : settings.thresholds = {}) (hrun : m.Warnings t log m' t') :
    log.Pairwise fun a b => a.2 = b.2 → a.1 + Monitor.alertDedupMs ≤ b.1 := by
  have hspaced : m'.Spaced t' log := by
    induction hrun with
    | nil => exact hm.spaced hth
    | call c now _ hle hreset ih =>
      have hstep := ih.call hle c
      simpa [hreset] using hstep
  exact hspaced.apart

/-- From a monitor started over a store that holds `true`, two busy minutes a quarter of an hour
apart warn about one group twice, with no reset between: at exactly the fifteen minutes the
spacing asks for. -/
theorem warnings_spaced_over_two_busy_minutes :
    (∃ m' t', (({ store := .memory (.bool true) } : Monitor).call 0 .start).Warnings 0
      [(900000, quietKey), (1800000, quietKey)] m' t') ∧
    ([(900000, quietKey), (1800000, quietKey)] : List (Int × GroupKey)).Pairwise
      fun a b => a.2 = b.2 → a.1 + Monitor.alertDedupMs ≤ b.1 := by
  have hwarn : (Monitor.warningRun ([], ({ store := .memory (.bool true) } : Monitor).call 0 .start,
      0) (busyMinute 840000 ++ busyMinute 1740000)).map (·.1) =
        some [(900000, quietKey), (1800000, quietKey)] := by
    decide +kernel
  obtain ⟨r, hr, hlog⟩ := Option.map_eq_some_iff.1 hwarn
  have hrun := Monitor.Warnings.nil.warningRun _ hr
  rw [hlog] at hrun
  exact ⟨⟨_, _, hrun⟩, warnings_of_a_key_spaced (.call .start 0 (.built 0) (Int.le_refl 0)) rfl hrun⟩

end CacheHitRate
