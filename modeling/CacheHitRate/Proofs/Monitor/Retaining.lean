import CacheHitRate.Proofs.Monitor.AlertSpacing

/-!
The monitor beside one whose evaluation keeps the stale groups. An evaluation evicts every group
unseen for longer than the ring window; `evaluateRetaining` runs the same audit and rules over
every group it is given. On the same calls the two runs hold the same groups but for two
differences: a group the monitor evicted lives on in the other run, and a group the monitor then
starts afresh is an old one there. Each such pair agrees on everything a later evaluation reads,
since ring slots and samples older than the earliest window are invisible to every later window,
and an alert time that old holds back no alert.
-/

namespace CacheHitRate

/-- The evaluation of `evaluate` with the eviction left out: every group given is audited and
checked by the rules. -/
def evaluateRetaining (t : Thresholds) (audited : Int) (gs : Groups) (now enabledAt : Int) :
    Groups × Except ArithError Evaluation :=
  let w := Windows.compute now enabledAt
  let rows := gs.map fun g => (g.key, Evaluation.ringTriple w g)
  let base : Evaluation := { windows := w, evicted := 0, rows, anomalies := [], failure := none }
  match Evaluation.auditRows w (Evaluation.leading audited (Evaluation.busiest rows)) gs with
  | (some f, gs') => (gs', .ok { base with failure := some f })
  | (none, gs') =>
    let anomalies := rows.filterMapM fun (key, sums) => do
      let row := sums.row w
      let r ← row.shouldAlert t
      return r.map fun reason => (key, row, reason)
    (gs', anomalies.map fun anomalies => { base with anomalies })

/-- An evaluation is the one that keeps stale groups, run over the groups it does not evict. -/
theorem evaluate_eq_retaining (t : Thresholds) (audited : Int) (gs : Groups) (now enabledAt : Int) :
    evaluate t audited gs now enabledAt =
      ((evaluateRetaining t audited (gs.filter fun g => !Evaluation.isStale (minuteOf now) g)
          now enabledAt).1,
        (evaluateRetaining t audited (gs.filter fun g => !Evaluation.isStale (minuteOf now) g)
          now enabledAt).2.map fun ev =>
            { ev with evicted := gs.length -
              (gs.filter fun g => !Evaluation.isStale (minuteOf now) g).length }) := by
  have hminute : (Windows.compute now enabledAt).minuteNow = minuteOf now := rfl
  simp only [evaluate, evaluateRetaining, hminute]
  generalize Evaluation.auditRows _ _ _ = audit
  rcases audit with ⟨_ | f, gs'⟩
  · simp only [Except.map]
    split <;> rfl
  · rfl

namespace Monitor

/-- A cycle that is due evaluates the groups it does not evict as the run keeping stale groups
would: the count of evicted groups is the one thing between them, and nothing reads it. -/
theorem cycleWith_evaluate_of_due {m : Monitor} {now : Int}
    (hdue : (!m.isEnabled || decide (now - m.lastEval < evalIntervalMs)) = false) :
    cycleWith evaluate m now =
      cycleWith evaluateRetaining
        { m with groups := m.groups.filter fun g => !Evaluation.isStale (minuteOf now) g } now := by
  have hdue' : (!({ m with groups := m.groups.filter fun g => !Evaluation.isStale (minuteOf now) g }
      : Monitor).isEnabled || decide (now - m.lastEval < evalIntervalMs)) = false := hdue
  unfold cycleWith
  rw [hdue, hdue', evaluate_eq_retaining]
  simp only [Bool.false_eq_true, if_false]
  cases (evaluateRetaining m.settings.thresholds m.settings.audited
    (m.groups.filter fun g => !Evaluation.isStale (minuteOf now) g) now m.enabledAt).2 <;> rfl

end Monitor

/-! ### What later windows see of a ring and a buffer -/

theorem horizon_mono {t t' : Int} (hle : t ≤ t') : minuteOf t - 59 ≤ minuteOf t' - 59 := by
  have := minuteOf_mono hle
  omega

/-- A slot that no range from minute `h` on sees: it holds nothing, or an older minute. -/
def Bucket.Unseen (h : Int) (b : Bucket) : Prop := b.sums = 0 ∨ b.minute < h

theorem Bucket.Unseen.mono {h h' : Int} {b : Bucket} (hb : b.Unseen h) (hle : h ≤ h') :
    b.Unseen h' :=
  hb.imp id fun hlt => Int.lt_of_lt_of_le hlt hle

theorem Bucket.Unseen.within_eq_zero {h : Int} {b : Bucket} (hb : b.Unseen h) {span : Span}
    (hspan : h ≤ span.first) : b.within span = 0 := by
  rcases hb with hzero | hold
  · simp [Bucket.within, hzero]
  · apply Bucket.within_of_not_contains
    simp only [Span.contains, decide_eq_false_iff_not, not_and, not_le]
    omega

theorem Bucket.Unseen.add_eq {h : Int} {b : Bucket} (hb : b.Unseen h) {s : Sample}
    (hs : h ≤ s.minute) : b.add s = ⟨s.minute, 0 + Sums.ofSample s⟩ := by
  simp only [Bucket.add, Bucket.mk.injEq, true_and]
  rcases hb with hzero | hold
  · split
    · rw [hzero]
    · rfl
  · rw [if_neg (by omega)]
    rfl

namespace Ring

/-- Two rings that agree on every range from minute `h` on, slot by slot: each pair of slots is
the same slot, or neither slot is seen from `h` on. -/
def Alike (h : Int) (r₁ r₂ : Ring) : Prop :=
  List.Forall₂ (fun b₁ b₂ => b₁ = b₂ ∨ b₁.Unseen h ∧ b₂.Unseen h) r₁.buckets r₂.buckets

variable {h : Int} {r₁ r₂ : Ring}

theorem Alike.refl (h : Int) (r : Ring) : r.Alike h r :=
  List.forall₂_same.2 fun _ _ => Or.inl rfl

theorem Alike.mono (hr : r₁.Alike h r₂) {h' : Int} (hle : h ≤ h') : r₁.Alike h' r₂ :=
  hr.imp fun _ _ hb => hb.imp id fun hu => ⟨hu.1.mono hle, hu.2.mono hle⟩

theorem Alike.size_eq (hr : r₁.Alike h r₂) : r₁.size = r₂.size :=
  hr.length_eq

theorem Alike.sumRange_eq (hr : r₁.Alike h r₂) {span : Span} (hspan : h ≤ span.first) :
    r₁.sumRange span = r₂.sumRange span := by
  obtain ⟨l₁⟩ := r₁
  obtain ⟨l₂⟩ := r₂
  rw [sumRange_eq_sum, sumRange_eq_sum]
  dsimp only [Alike] at hr ⊢
  congr 1
  induction hr with
  | nil => rfl
  | cons hb _ ih =>
    rw [List.map_cons, List.map_cons, ih]
    rcases hb with rfl | ⟨hu₁, hu₂⟩
    · rfl
    · rw [hu₁.within_eq_zero hspan, hu₂.within_eq_zero hspan]

theorem Alike.insert (hr : r₁.Alike h r₂) {s : Sample} (hs : h ≤ s.minute) :
    (r₁.insert s).Alike h (r₂.insert s) := by
  have hsize := hr.size_eq
  obtain ⟨l₁⟩ := r₁
  obtain ⟨l₂⟩ := r₂
  unfold Ring.insert Alike at *
  rw [hsize]
  generalize slotOf (Ring.size ⟨l₂⟩) s.minute = i
  dsimp only at hr ⊢
  clear hsize
  induction hr generalizing i with
  | nil => simp only [List.modify_nil, List.Forall₂.nil]
  | cons hb _ ih =>
    cases i with
    | zero =>
      simp only [List.modify_zero_cons]
      refine List.Forall₂.cons (Or.inl ?_) ‹_›
      rcases hb with rfl | ⟨hu₁, hu₂⟩
      · rfl
      · rw [hu₁.add_eq hs, hu₂.add_eq hs]
    | succ i =>
      simp only [List.modify_succ_cons]
      exact List.Forall₂.cons hb (ih i)

theorem alike_create {r : Ring} (hsize : r.size = windowMinutes)
    (hu : ∀ b ∈ r.buckets, b.Unseen h) : (create windowMinutes).Alike h r := by
  obtain ⟨l⟩ := r
  unfold Alike create
  rw [← hsize]
  unfold size
  dsimp only at hu ⊢
  clear hsize
  induction l with
  | nil => exact List.Forall₂.nil
  | cons b bs ih =>
    refine List.Forall₂.cons (Or.inr ⟨Or.inl rfl, hu b List.mem_cons_self⟩) ?_
    exact ih fun b hb => hu b (List.mem_cons_of_mem _ hb)

theorem Alike.unseen_right (hr : r₁.Alike h r₂) (hu : ∀ b ∈ r₁.buckets, b.Unseen h) :
    ∀ b ∈ r₂.buckets, b.Unseen h := by
  obtain ⟨l₁⟩ := r₁
  obtain ⟨l₂⟩ := r₂
  unfold Alike at hr
  dsimp only at hr hu ⊢
  induction hr with
  | nil => exact fun _ hb => absurd hb List.not_mem_nil
  | cons hb _ ih =>
    intro b hmem
    rcases List.mem_cons.1 hmem with rfl | hmem
    · rcases hb with rfl | ⟨-, hu₂⟩
      · exact hu _ List.mem_cons_self
      · exact hu₂
    · exact ih (fun b hb => hu b (List.mem_cons_of_mem _ hb)) b hmem

end Ring

namespace Buffer

/-- Two buffers that hold the same samples from minute `h` on, in the same order. -/
def Alike (h : Int) (b₁ b₂ : Buffer) : Prop :=
  b₁.samples.filter (fun s => decide (h ≤ s.minute)) =
    b₂.samples.filter fun s => decide (h ≤ s.minute)

variable {h : Int} {b₁ b₂ : Buffer}

theorem Alike.refl (h : Int) (b : Buffer) : b.Alike h b := rfl

theorem Alike.mono (hb : b₁.Alike h b₂) {h' : Int} (hle : h ≤ h') : b₁.Alike h' b₂ := by
  have hsub : ∀ b : Buffer, b.samples.filter (fun s => decide (h' ≤ s.minute)) =
      (b.samples.filter fun s => decide (h ≤ s.minute)).filter
        fun s => decide (h' ≤ s.minute) := by
    intro b
    rw [List.filter_filter]
    congr 1
    funext s
    by_cases hs : h' ≤ s.minute
    · simp [hs, show h ≤ s.minute by omega]
    · simp [hs]
  unfold Alike
  rw [hsub b₁, hsub b₂, hb]

theorem Alike.append (hb : b₁.Alike h b₂) (s : Sample) : (b₁.append s).Alike h (b₂.append s) := by
  unfold Alike Buffer.append at *
  simp only [List.filter_append, hb]

theorem filter_prune {k : Int} (hk : k ≤ h) (b : Buffer) :
    (b.prune k).2.samples.filter (fun s => decide (h ≤ s.minute)) =
      b.samples.filter fun s => decide (h ≤ s.minute) := by
  rw [prune_samples]
  induction b.samples with
  | nil => rfl
  | cons s rest ih =>
    rw [List.dropWhile_cons]
    split
    · rename_i hold
      have hlt : s.minute < k := by simpa [isOlder] using hold
      rw [ih, List.filter_cons_of_neg (by simp only [decide_eq_true_eq]; omega)]
    · rfl

theorem Alike.prune_left (hb : b₁.Alike h b₂) {k : Int} (hk : k ≤ h) :
    (b₁.prune k).2.Alike h b₂ := by
  unfold Alike at *
  rw [filter_prune hk, hb]

theorem Alike.prune_right (hb : b₁.Alike h b₂) {k : Int} (hk : k ≤ h) :
    b₁.Alike h (b₂.prune k).2 := by
  unfold Alike at *
  rw [filter_prune hk, hb]

theorem sumRange_filter (b : Buffer) {span : Span} (hspan : h ≤ span.first) :
    b.sumRange span =
      ((b.samples.filter fun s => decide (h ≤ s.minute)).map (Sample.within span)).sum := by
  rw [sumRange_eq_sum]
  induction b.samples with
  | nil => rfl
  | cons s rest ih =>
    rw [List.filter_cons]
    by_cases hs : h ≤ s.minute
    · simp [hs, ih]
    · have hout : s.within span = 0 := by
        unfold Sample.within
        split
        · rename_i hc
          simp only [Span.contains, decide_eq_true_eq] at hc
          omega
        · rfl
      simp [hs, ih, hout]

theorem Alike.sumRange_eq (hb : b₁.Alike h b₂) {span : Span} (hspan : h ≤ span.first) :
    b₁.sumRange span = b₂.sumRange span := by
  rw [sumRange_filter b₁ hspan, sumRange_filter b₂ hspan, hb]

end Buffer

/-! ### A group beside its shadow -/

namespace Group

variable {t : Int} {g ga gb : Group}

/-- What a group of the run that evicts keeps of its own past: its samples are from its last
minute or before, and its alert time, if any, is not before the clock's origin. -/
structure Sound (g : Group) : Prop where
  samples : ∀ s ∈ g.samples.samples, s.minute ≤ g.lastSeenMinute
  alert : ∀ x, g.lastAlertAt = some x → 0 ≤ x

theorem sound_fresh (key : GroupKey) (name : Text) (s : Sample) : (fresh key name s).Sound :=
  ⟨fun _ hs => absurd hs List.not_mem_nil, fun _ hx => by cases hx⟩

theorem Sound.rename (h : g.Sound) (name : Text) :
    ({ g with providerName := name } : Group).Sound :=
  ⟨h.samples, h.alert⟩

theorem Sound.record (h : g.Sound) {s : Sample} (hs : g.lastSeenMinute ≤ s.minute) :
    (g.record s).Sound where
  samples x hx := by
    have hmem : x ∈ g.samples.samples ++ [s] := (List.dropWhile_suffix _).subset hx
    rcases List.mem_append.1 hmem with hx | hx
    · exact Int.le_trans (h.samples x hx) hs
    · rw [List.mem_singleton.1 hx]
      exact Int.le_refl _
  alert := h.alert

theorem Sound.prunedTo (h : g.Sound) (k : Int) : (g.prunedTo k).Sound :=
  ⟨fun x hx => h.samples x ((List.dropWhile_suffix _).subset hx), h.alert⟩

theorem Sound.kept (h : g.Sound) {k : Int} {f : Group → Group} (hf : KeptOrPruned k f) :
    (f g).Sound := by
  rcases hf g with hfg | hfg <;> rw [hfg]
  · exact h
  · exact h.prunedTo k

theorem Sound.mark (h : g.Sound) {now : Int} (hnow : 0 ≤ now) :
    ({ g with lastAlertAt := some now } : Group).Sound :=
  ⟨h.samples, fun x hx => by
    cases hx
    exact hnow⟩

/-- The group `gb` of the run keeping stale groups stands for the group `ga` of the run that
evicts, at time `t`: one key and one provider name, the same ring sums and samples for every
window from `t` on, and alert times that hold back the same alerts from `t` on. A shadow may
keep an alert time that a group started afresh lacks, but only one fifteen minutes back. -/
structure Shadows (t : Int) (ga gb : Group) : Prop where
  key : gb.key = ga.key
  name : gb.providerName = ga.providerName
  ring : ga.ring.Alike (minuteOf t - 59) gb.ring
  samples : ga.samples.Alike (minuteOf t - 59) gb.samples
  alert : gb.lastAlertAt = ga.lastAlertAt ∨
    ga.lastAlertAt = none ∧ ∃ x, gb.lastAlertAt = some x ∧ 0 ≤ x ∧ x + Monitor.alertDedupMs ≤ t

theorem Shadows.refl (t : Int) (g : Group) : g.Shadows t g :=
  ⟨rfl, rfl, Ring.Alike.refl _ _, Buffer.Alike.refl _ _, Or.inl rfl⟩

theorem Shadows.mono (h : ga.Shadows t gb) {t' : Int} (hle : t ≤ t') : ga.Shadows t' gb where
  key := h.key
  name := h.name
  ring := h.ring.mono (horizon_mono hle)
  samples := h.samples.mono (horizon_mono hle)
  alert := h.alert.imp_right fun ⟨hnone, x, hx, hpos, hold⟩ =>
    ⟨hnone, x, hx, hpos, Int.le_trans hold hle⟩

theorem Shadows.rename (h : ga.Shadows t gb) (name : Text) :
    ({ ga with providerName := name } : Group).Shadows t { gb with providerName := name } :=
  ⟨h.key, rfl, h.ring, h.samples, h.alert⟩

theorem Shadows.record (h : ga.Shadows t gb) {s : Sample} (hs : s.minute = minuteOf t) :
    (ga.record s).Shadows t (gb.record s) where
  key := h.key
  name := h.name
  ring := h.ring.insert (by omega)
  samples := by
    have hk : s.minute - Buffer.retentionMinutes ≤ minuteOf t - 59 := by
      simp only [Buffer.retentionMinutes]
      omega
    exact ((h.samples.append s).prune_left hk).prune_right hk
  alert := h.alert

theorem Shadows.kept (h : ga.Shadows t gb) {k : Int} (hk : k ≤ minuteOf t - 59)
    {f f' : Group → Group} (hf : KeptOrPruned k f) (hf' : KeptOrPruned k f') :
    (f ga).Shadows t (f' gb) := by
  have hleft : ∀ g', ga.Shadows t g' → (f ga).Shadows t g' := by
    intro g' h'
    rcases hf ga with hfa | hfa <;> rw [hfa]
    · exact h'
    · exact ⟨h'.key, h'.name, h'.ring, h'.samples.prune_left hk, h'.alert⟩
  rcases hf' gb with hfb | hfb <;> rw [hfb]
  · exact hleft gb h
  · exact hleft _ ⟨h.key, h.name, h.ring, h.samples.prune_right hk, h.alert⟩

theorem Shadows.mark (h : ga.Shadows t gb) (now : Int) :
    ({ ga with lastAlertAt := some now } : Group).Shadows t { gb with lastAlertAt := some now } :=
  ⟨h.key, h.name, h.ring, h.samples, Or.inl rfl⟩

theorem Shadows.held_iff (h : ga.Shadows t gb) {now : Int} (hle : t ≤ now) :
    now - gb.lastAlertAt.getD 0 < Monitor.alertDedupMs ↔
      now - ga.lastAlertAt.getD 0 < Monitor.alertDedupMs := by
  rcases h.alert with heq | ⟨hnone, x, hx, hpos, hold⟩
  · rw [heq]
  · rw [hnone, hx, Option.getD_some, Option.getD_none]
    omega

theorem Shadows.ringTriple_eq (h : ga.Shadows t gb) {now : Int} (hle : t ≤ now) (enabledAt : Int) :
    Evaluation.ringTriple (Windows.compute now enabledAt) gb =
      Evaluation.ringTriple (Windows.compute now enabledAt) ga := by
  have hsum : ∀ span : Span, minuteOf now - 59 ≤ span.first →
      gb.ring.sumRange span = ga.ring.sumRange span :=
    fun span hspan => (h.ring.sumRange_eq (Int.le_trans (horizon_mono hle) hspan)).symm
  obtain ⟨hb, hr, ho⟩ := Windows.compute_first_ge now enabledAt
  simp only [Evaluation.ringTriple, hsum _ hb, hsum _ hr, hsum _ ho]

theorem Shadows.slowTriple_eq (h : ga.Shadows t gb) {now : Int} (hle : t ≤ now) (enabledAt : Int) :
    Evaluation.slowTriple (Windows.compute now enabledAt) gb =
      Evaluation.slowTriple (Windows.compute now enabledAt) ga := by
  have hsum : ∀ span : Span, minuteOf now - 59 ≤ span.first →
      gb.samples.sumRange span = ga.samples.sumRange span :=
    fun span hspan => (h.samples.sumRange_eq (Int.le_trans (horizon_mono hle) hspan)).symm
  obtain ⟨hb, hr, ho⟩ := Windows.compute_first_ge now enabledAt
  simp only [Evaluation.slowTriple, hsum _ hb, hsum _ hr, hsum _ ho]

/-- A group that only the run keeping stale groups still holds, at time `t`: a full ring and
samples that no window from `t` on sees, and an alert time, if any, fifteen minutes back. -/
structure Dead (t : Int) (g : Group) : Prop where
  size : g.ring.size = Ring.windowMinutes
  ring : ∀ b ∈ g.ring.buckets, b.Unseen (minuteOf t - 59)
  samples : ∀ s ∈ g.samples.samples, s.minute < minuteOf t - 59
  alert : ∀ x, g.lastAlertAt = some x → 0 ≤ x ∧ x + Monitor.alertDedupMs ≤ t

theorem Dead.mono (h : g.Dead t) {t' : Int} (hle : t ≤ t') : g.Dead t' where
  size := h.size
  ring b hb := (h.ring b hb).mono (horizon_mono hle)
  samples s hs := Int.lt_of_lt_of_le (h.samples s hs) (horizon_mono hle)
  alert x hx := ⟨(h.alert x hx).1, Int.le_trans (h.alert x hx).2 hle⟩

theorem Dead.kept (h : g.Dead t) {k : Int} {f : Group → Group} (hf : KeptOrPruned k f) :
    (f g).Dead t := by
  rcases hf g with hfg | hfg <;> rw [hfg]
  · exact h
  · exact ⟨h.size, h.ring, fun s hs => h.samples s ((List.dropWhile_suffix _).subset hs), h.alert⟩

theorem Dead.sumRange_ring (h : g.Dead t) {span : Span} (hspan : minuteOf t - 59 ≤ span.first) :
    g.ring.sumRange span = 0 := by
  rw [Ring.sumRange_eq_sum]
  apply List.sum_eq_zero
  intro x hx
  obtain ⟨b, hb, rfl⟩ := List.mem_map.1 hx
  exact (h.ring b hb).within_eq_zero hspan

theorem Dead.sumRange_samples (h : g.Dead t) {span : Span} (hspan : minuteOf t - 59 ≤ span.first) :
    g.samples.sumRange span = 0 := by
  rw [Buffer.sumRange_filter _ hspan, List.filter_eq_nil_iff.2 fun s hs => by
    rw [decide_eq_true_eq, Int.not_le]
    exact h.samples s hs]
  rfl

theorem Dead.triples_eq_zero (h : g.Dead t) {now : Int} (hle : t ≤ now) (enabledAt : Int) :
    Evaluation.ringTriple (Windows.compute now enabledAt) g = ⟨0, 0, 0⟩ ∧
      Evaluation.slowTriple (Windows.compute now enabledAt) g = ⟨0, 0, 0⟩ := by
  have hfirst : ∀ span : Span, minuteOf now - 59 ≤ span.first → minuteOf t - 59 ≤ span.first :=
    fun _ hspan => Int.le_trans (horizon_mono hle) hspan
  obtain ⟨hb, hr, ho⟩ := Windows.compute_first_ge now enabledAt
  simp only [Evaluation.ringTriple, Evaluation.slowTriple, h.sumRange_ring (hfirst _ hb),
    h.sumRange_ring (hfirst _ hr), h.sumRange_ring (hfirst _ ho), h.sumRange_samples (hfirst _ hb),
    h.sumRange_samples (hfirst _ hr), h.sumRange_samples (hfirst _ ho), ite_self, and_self]

/-- The shadow of a group that the other run evicts at `now` is dead from then on: the evicted
group was last seen over an hour back, its ring and samples hold nothing later, and it alerted,
if at all, fifteen minutes back. -/
theorem Shadows.dead_of_stale {M : Int} (h : ga.Shadows t gb)
    (hsize : ga.ring.size = Ring.windowMinutes) (hpaced : ga.Paced M) (hsound : ga.Sound)
    {now : Int} (hle : t ≤ now) (hstale : Evaluation.isStale (minuteOf now) ga = true) :
    gb.Dead now := by
  have hold : ga.lastSeenMinute < minuteOf now - Ring.windowMinutes := of_decide_eq_true hstale
  simp only [Ring.windowMinutes, Nat.cast_ofNat] at hold
  have hring : ga.ring.Alike (minuteOf now - 59) gb.ring := h.ring.mono (horizon_mono hle)
  refine ⟨?_, ?_, ?_, ?_⟩
  · rw [← hring.size_eq, hsize]
  · refine hring.unseen_right fun c hc => ?_
    exact (hpaced.tagged c hc).imp id fun hc => by omega
  · intro s hs
    by_contra hnew
    have hin : s ∈ ga.samples.samples.filter fun s => decide (minuteOf now - 59 ≤ s.minute) := by
      rw [h.samples.mono (horizon_mono hle)]
      exact List.mem_filter.2 ⟨hs, by simpa using hnew⟩
    have := hsound.samples s (List.mem_of_mem_filter hin)
    omega
  · intro x hx
    rcases h.alert with heq | ⟨-, x', hx', hpos, hback⟩
    · rw [heq] at hx
      exact ⟨hsound.alert x hx, hpaced.alert_add_le_of_stale hstale hx⟩
    · rw [hx'] at hx
      cases hx
      exact ⟨hpos, Int.le_trans hback hle⟩

theorem Dead.shadows_fresh (h : g.Dead t) {now : Int} (hle : t ≤ now) (name : Text) (s : Sample) :
    (fresh g.key name s).Shadows now { g with providerName := name } where
  key := rfl
  name := rfl
  ring := Ring.alike_create h.size fun b hb => (h.ring b hb).mono (horizon_mono hle)
  samples := by
    show ([] : List Sample).filter _ = g.samples.samples.filter _
    rw [List.filter_nil, eq_comm, List.filter_eq_nil_iff]
    intro x hx
    rw [decide_eq_true_eq, Int.not_le]
    exact Int.lt_of_lt_of_le (h.samples x hx) (horizon_mono hle)
  alert := by
    cases hx : g.lastAlertAt with
    | none => exact Or.inl rfl
    | some x => exact Or.inr ⟨rfl, x, rfl, (h.alert x hx).1, Int.le_trans (h.alert x hx).2 hle⟩

/-- What the two runs hold under one key at time `t`: nothing in either, a dead group only in
the run keeping stale groups, or a group and its shadow. -/
inductive Counterpart (t : Int) : Option Group → Option Group → Prop
  | absent : Counterpart t none none
  | dead {gb : Group} : gb.Dead t → Counterpart t none (some gb)
  | shadow {ga gb : Group} : ga.Shadows t gb → Counterpart t (some ga) (some gb)

variable {oa ob : Option Group}

theorem Counterpart.mono (h : Counterpart t oa ob) {t' : Int} (hle : t ≤ t') :
    Counterpart t' oa ob := by
  cases h with
  | absent => exact .absent
  | dead hd => exact .dead (hd.mono hle)
  | shadow hs => exact .shadow (hs.mono hle)

theorem Counterpart.kept (h : Counterpart t oa ob) {k : Int} (hk : k ≤ minuteOf t - 59)
    {f f' : Group → Group} (hf : KeptOrPruned k f) (hf' : KeptOrPruned k f') :
    Counterpart t (oa.map f) (ob.map f') := by
  cases h with
  | absent => exact .absent
  | dead hd => exact .dead (hd.kept hf')
  | shadow hs => exact .shadow (hs.kept hk hf hf')

end Group

namespace Groups

theorem keys_map {f : Group → Group} (hf : ∀ g, (f g).key = g.key) (gs : Groups) :
    (gs.map f).map (·.key) = gs.map (·.key) := by
  rw [List.map_map]
  exact List.map_congr_left fun g _ => hf g

theorem find?_map {f : Group → Group} (hf : ∀ g, (f g).key = g.key) (gs : Groups) (k : GroupKey) :
    Groups.find? (gs.map f) k = (gs.find? k).map f := by
  simp only [find?, List.find?_map]
  congr 1
  apply List.find?_congr
  intro g _
  simp [hf]

theorem find?_filter {gs : Groups} (hnodup : (gs.map (·.key)).Nodup) (p : Group → Bool)
    (k : GroupKey) : Groups.find? (gs.filter p) k = (gs.find? k).filter p := by
  unfold find?
  induction gs with
  | nil => rfl
  | cons g gs ih =>
    simp only [List.map_cons, List.nodup_cons, List.mem_map] at hnodup
    by_cases hk : g.key = k
    · have hnone : List.find? (fun g => decide (g.key = k)) (gs.filter p) = none := by
        simp only [List.find?_eq_none, decide_eq_true_eq]
        exact fun g' hg' hk' => hnodup.1 ⟨g', List.mem_of_mem_filter hg', hk'.trans hk.symm⟩
      by_cases hp : p g = true <;> simp [hp, hk, hnone, Option.filter]
    · by_cases hp : p g = true <;> simp [hp, hk, ih hnodup.2]

/-- The groups `gsb` of the run keeping stale groups beside the groups `gsa` of the run that
evicts, at time `t`: keys are distinct in each, and every key has counterparts in the two. -/
structure Retains (t : Int) (gsa gsb : Groups) : Prop where
  keysA : (gsa.map (·.key)).Nodup
  keysB : (gsb.map (·.key)).Nodup
  counterpart : ∀ k, Group.Counterpart t (gsa.find? k) (gsb.find? k)

variable {t : Int} {gsa gsb : Groups}

theorem Retains.mono (h : Retains t gsa gsb) {t' : Int} (hle : t ≤ t') : Retains t' gsa gsb :=
  ⟨h.keysA, h.keysB, fun k => (h.counterpart k).mono hle⟩

theorem Retains.shadow_of_mem (h : Retains t gsa gsb) {ga : Group} (hga : ga ∈ gsa) :
    ∃ gb, gsb.find? ga.key = some gb ∧ ga.Shadows t gb := by
  have hc := h.counterpart ga.key
  rw [find?_of_mem h.keysA hga] at hc
  generalize gsb.find? ga.key = ob at hc ⊢
  cases hc with
  | shadow hs => exact ⟨_, rfl, hs⟩

theorem Retains.of_mem_right (h : Retains t gsa gsb) {gb : Group} (hgb : gb ∈ gsb) :
    (∃ ga, gsa.find? gb.key = some ga ∧ ga.Shadows t gb) ∨
      (gsa.find? gb.key = none ∧ gb.Dead t) := by
  have hc := h.counterpart gb.key
  rw [find?_of_mem h.keysB hgb] at hc
  generalize gsa.find? gb.key = oa at hc ⊢
  cases hc with
  | dead hd => exact Or.inr ⟨rfl, hd⟩
  | shadow hs => exact Or.inl ⟨_, rfl, hs⟩

theorem Retains.kept (h : Retains t gsa gsb) {k : Int} (hk : k ≤ minuteOf t - 59)
    {f f' : Group → Group} (hf : KeptOrPruned k f) (hf' : KeptOrPruned k f') :
    Retains t (gsa.map f) (gsb.map f') where
  keysA := by
    rw [keys_map hf.key_eq]
    exact h.keysA
  keysB := by
    rw [keys_map hf'.key_eq]
    exact h.keysB
  counterpart k' := by
    rw [find?_map hf.key_eq, find?_map hf'.key_eq]
    exact (h.counterpart k').kept hk hf hf'

theorem Retains.evict (h : Retains t gsa gsb) {M : Int}
    (hsize : ∀ g ∈ gsa, g.ring.size = Ring.windowMinutes) (hpaced : ∀ g ∈ gsa, g.Paced M)
    (hsound : ∀ g ∈ gsa, g.Sound) {now : Int} (hle : t ≤ now) :
    Retains now (gsa.filter fun g => !Evaluation.isStale (minuteOf now) g) gsb where
  keysA := h.keysA.sublist (List.filter_sublist.map _)
  keysB := h.keysB
  counterpart k := by
    rw [find?_filter h.keysA]
    have hc := h.counterpart k
    cases hfind : gsa.find? k with
    | none =>
      rw [hfind] at hc
      exact hc.mono hle
    | some ga =>
      rw [hfind] at hc
      have hga := (mem_of_find? hfind).1
      generalize gsb.find? k = ob at hc ⊢
      cases hc with
      | shadow hs =>
        cases hstale : Evaluation.isStale (minuteOf now) ga
        · simpa [Option.filter, hstale] using Group.Counterpart.shadow (hs.mono hle)
        · simpa [Option.filter, hstale] using
            Group.Counterpart.dead (hs.dead_of_stale (hsize ga hga) (hpaced ga hga) (hsound ga hga)
              hle hstale)

end Groups

/-! ### The evaluation of both runs -/

section filterMapM

variable {α β ε : Type} {f : α → Except ε (Option β)} {xs : List α}

theorem filterMapM_eq_ok_of (h : ∀ x ∈ xs, ∃ r, f x = .ok r) :
    xs.filterMapM f = .ok (xs.filterMap fun x => (f x).toOption.join) := by
  induction xs with
  | nil => rfl
  | cons x xs ih =>
    obtain ⟨r, hr⟩ := h x List.mem_cons_self
    have hrest := ih fun y hy => h y (List.mem_cons_of_mem _ hy)
    simp only [List.filterMapM_cons, bind, Except.bind, hr, hrest]
    cases r <;> simp [Except.toOption, hr, pure, Except.pure]

theorem filterMapM_eq_error_of {x : α} (hx : x ∈ xs) {e : ε} (h : f x = .error e) :
    ∃ e', xs.filterMapM f = .error e' := by
  induction xs with
  | nil => cases hx
  | cons y xs ih =>
    simp only [List.filterMapM_cons, bind, Except.bind]
    rcases hy : f y with e' | r
    · exact ⟨e', rfl⟩
    · rcases List.mem_cons.1 hx with rfl | hx
      · rw [h] at hy
        cases hy
      · obtain ⟨e', he'⟩ := ih hx
        cases r <;> simp [he']

end filterMapM

theorem map_filterMap_sublist {α β κ : Type} (f : α → Option β) (ka : α → κ) (kb : β → κ)
    (hf : ∀ a b, f a = some b → kb b = ka a) (l : List α) :
    ((l.filterMap f).map kb).Sublist (l.map ka) := by
  induction l with
  | nil => exact List.Sublist.slnil
  | cons a l ih =>
    rw [List.filterMap_cons]
    cases hfa : f a with
    | none => exact ih.cons _
    | some b =>
      rw [List.map_cons, List.map_cons, hf a b hfa]
      exact ih.cons_cons _

namespace Evaluation

/-- The anomaly a row of window sums raises under the thresholds `t`, as an evaluation checks its
rows. -/
def anomalyOf (t : Thresholds) (w : Windows) (p : GroupKey × Triple) :
    Except ArithError (Option (GroupKey × Row × Reason)) :=
  ((p.2.row w).shouldAlert t).map fun r => r.map fun reason => (p.1, p.2.row w, reason)

/-- The anomalies the rules find among the rows of the groups, in group order. -/
def anomaliesOf (t : Thresholds) (w : Windows) (gs : Groups) :
    Except ArithError (List (GroupKey × Row × Reason)) :=
  (gs.map fun g => (g.key, ringTriple w g)).filterMapM (anomalyOf t w)

theorem anomalyOf_zero (w : Windows) (key : GroupKey) :
    anomalyOf {} w (key, ⟨0, 0, 0⟩) = .ok none := by
  obtain ⟨m, b, r, o, om, cold⟩ := w
  cases cold <;> rfl

theorem key_of_anomalyOf {t : Thresholds} {w : Windows} {p : GroupKey × Triple}
    {a : GroupKey × Row × Reason} (h : (anomalyOf t w p).toOption.join = some a) : a.1 = p.1 := by
  unfold anomalyOf at h
  cases hr : (p.2.row w).shouldAlert t with
  | error e => simp [hr, Except.map, Except.toOption] at h
  | ok r =>
    cases r with
    | none => simp [hr, Except.map, Except.toOption] at h
    | some reason =>
      simp only [hr, Except.map, Except.toOption, Option.map_some, Option.join_some,
        Option.some.injEq] at h
      rw [← h]

theorem anomalies_perm {t : Thresholds} {w : Windows} {rs rs' : List (GroupKey × Triple)}
    (hkeys : (rs.map (·.1)).Nodup) (hkeys' : (rs'.map (·.1)).Nodup) (hsub : ∀ p ∈ rs, p ∈ rs')
    (hquiet : ∀ p ∈ rs', p ∈ rs ∨ anomalyOf t w p = .ok none) :
    (∃ e e', rs.filterMapM (anomalyOf t w) = .error e ∧
      rs'.filterMapM (anomalyOf t w) = .error e') ∨
      ∃ xs ys, rs.filterMapM (anomalyOf t w) = .ok xs ∧ rs'.filterMapM (anomalyOf t w) = .ok ys ∧
        xs.Perm ys ∧ (xs.map (·.1)).Sublist (rs.map (·.1)) := by
  by_cases herr : ∃ p ∈ rs, ∃ e, anomalyOf t w p = .error e
  · obtain ⟨p, hp, e, he⟩ := herr
    obtain ⟨e₁, h₁⟩ := filterMapM_eq_error_of hp he
    obtain ⟨e₂, h₂⟩ := filterMapM_eq_error_of (hsub p hp) he
    exact Or.inl ⟨e₁, e₂, h₁, h₂⟩
  have hok : ∀ p ∈ rs, ∃ r, anomalyOf t w p = .ok r := by
    intro p hp
    rcases hr : anomalyOf t w p with e | r
    · exact absurd ⟨p, hp, e, hr⟩ herr
    · exact ⟨r, rfl⟩
  have hok' : ∀ p ∈ rs', ∃ r, anomalyOf t w p = .ok r := by
    intro p hp
    rcases hquiet p hp with hp | hnone
    · exact hok p hp
    · exact ⟨none, hnone⟩
  let φ := fun p => (anomalyOf t w p).toOption.join
  have hkeyed : ∀ l : List (GroupKey × Triple), ((l.filterMap φ).map (·.1)).Sublist (l.map (·.1)) :=
    map_filterMap_sublist φ _ _ fun _ _ h => key_of_anomalyOf h
  refine Or.inr ⟨rs.filterMap φ, rs'.filterMap φ, filterMapM_eq_ok_of hok, filterMapM_eq_ok_of hok',
    ?_, hkeyed rs⟩
  apply (List.perm_ext_iff_of_nodup (((hkeyed rs).nodup hkeys).of_map _)
    (((hkeyed rs').nodup hkeys').of_map _)).2
  intro a
  simp only [List.mem_filterMap]
  constructor
  · rintro ⟨p, hp, hpa⟩
    exact ⟨p, hsub p hp, hpa⟩
  · rintro ⟨p, hp, hpa⟩
    rcases hquiet p hp with hp | hnone
    · exact ⟨p, hp, hpa⟩
    · simp [φ, hnone, Except.toOption] at hpa

end Evaluation

theorem evaluateRetaining_of_agree (P : Group → Prop) (t : Thresholds) (audited : Int)
    {gs : Groups} {now enabledAt : Int}
    (hprune : ∀ g, P g → P (g.prunedTo (minuteOf now - Buffer.retentionMinutes)))
    (hagree : ∀ g, P g → Evaluation.ringTriple (Windows.compute now enabledAt) g =
      Evaluation.slowTriple (Windows.compute now enabledAt) g)
    (hgs : ∀ g ∈ gs, P g) (hkeys : (gs.map (·.key)).Nodup) :
    ∃ f, KeptOrPruned (minuteOf now - Buffer.retentionMinutes) f ∧
      evaluateRetaining t audited gs now enabledAt =
        (gs.map f,
          (Evaluation.anomaliesOf t (Windows.compute now enabledAt) gs).map fun anomalies =>
            { windows := Windows.compute now enabledAt, evicted := 0,
              rows := gs.map fun g =>
                (g.key, Evaluation.ringTriple (Windows.compute now enabledAt) g),
              anomalies, failure := none }) := by
  let w := Windows.compute now enabledAt
  let rows := gs.map fun g => (g.key, Evaluation.ringTriple w g)
  obtain ⟨f, hf, heq⟩ :=
    auditRows_groups w (Evaluation.leading audited (Evaluation.busiest rows)) gs
  have hrows : ∀ p ∈ Evaluation.leading audited (Evaluation.busiest rows), ∀ g ∈ gs,
      g.key = p.1 → p.2 = Evaluation.ringTriple w g := by
    intro p hp g hg hkey
    obtain ⟨g', hg', rfl⟩ :=
      List.mem_map.1 (Evaluation.mem_of_mem_busiest (Evaluation.mem_of_mem_leading hp))
    rw [List.inj_on_of_nodup_map hkeys hg hg' hkey]
  have hnone := Evaluation.auditRows_eq_none_of P w _ gs hprune hagree hgs hrows
  refine ⟨f, hf, ?_⟩
  simp only [evaluateRetaining]
  rcases haudit : Evaluation.auditRows w (Evaluation.leading audited (Evaluation.busiest rows)) gs
    with ⟨r, gs'⟩
  rw [haudit] at hnone heq
  simp only at hnone heq
  subst hnone heq
  rfl

namespace Groups

variable {now : Int} {gsa gsb : Groups}

/-- In both runs the audit at `now` passes: the groups of the run that evicts are in step, their
shadows agree with them, and dead groups show nothing in any window. -/
theorem Retains.evaluateRetaining (h : Retains now gsa gsb)
    (hin : ∀ g ∈ gsa, g.InStep (minuteOf now))
    (t : Thresholds) (audited enabledAt : Int) :
    ∃ fa fb, KeptOrPruned (minuteOf now - Buffer.retentionMinutes) fa ∧
      KeptOrPruned (minuteOf now - Buffer.retentionMinutes) fb ∧
      CacheHitRate.evaluateRetaining t audited gsa now enabledAt =
        (gsa.map fa,
          (Evaluation.anomaliesOf t (Windows.compute now enabledAt) gsa).map fun anomalies =>
            { windows := Windows.compute now enabledAt, evicted := 0,
              rows := gsa.map fun g =>
                (g.key, Evaluation.ringTriple (Windows.compute now enabledAt) g),
              anomalies, failure := none }) ∧
      CacheHitRate.evaluateRetaining t audited gsb now enabledAt =
        (gsb.map fb,
          (Evaluation.anomaliesOf t (Windows.compute now enabledAt) gsb).map fun anomalies =>
            { windows := Windows.compute now enabledAt, evicted := 0,
              rows := gsb.map fun g =>
                (g.key, Evaluation.ringTriple (Windows.compute now enabledAt) g),
              anomalies, failure := none }) := by
  have hk : minuteOf now - Buffer.retentionMinutes ≤ minuteOf now - 59 := by
    simp only [Buffer.retentionMinutes]
    omega
  obtain ⟨fa, hfa, hea⟩ := evaluateRetaining_of_agree (fun g => g.InStep (minuteOf now)) t audited
    (fun g hg => hg.prunedTo hk) (fun g hg => hg.ringTriple_eq (Int.le_refl _) enabledAt) hin
    h.keysA
  let P : Group → Prop := fun gb =>
    (∃ ga : Group, ga.InStep (minuteOf now) ∧ ga.Shadows now gb) ∨ gb.Dead now
  have hprune : ∀ gb, P gb → P (gb.prunedTo (minuteOf now - Buffer.retentionMinutes)) := by
    rintro gb (⟨ga, hin, hs⟩ | hd)
    · exact Or.inl ⟨ga, hin, hs.kept hk (keptOrPruned_id _) fun g => Or.inr rfl⟩
    · exact Or.inr (hd.kept fun g => Or.inr rfl)
  have hagree : ∀ gb, P gb → Evaluation.ringTriple (Windows.compute now enabledAt) gb =
      Evaluation.slowTriple (Windows.compute now enabledAt) gb := by
    rintro gb (⟨ga, hin, hs⟩ | hd)
    · rw [hs.ringTriple_eq (Int.le_refl _), hs.slowTriple_eq (Int.le_refl _),
        hin.ringTriple_eq (Int.le_refl _)]
    · obtain ⟨hring, hslow⟩ := hd.triples_eq_zero (Int.le_refl _) enabledAt
      rw [hring, hslow]
  have hgs : ∀ gb ∈ gsb, P gb := by
    intro gb hgb
    rcases h.of_mem_right hgb with ⟨ga, hfind, hs⟩ | ⟨-, hd⟩
    · exact Or.inl ⟨ga, hin ga (mem_of_find? hfind).1, hs⟩
    · exact Or.inr hd
  obtain ⟨fb, hfb, heb⟩ := evaluateRetaining_of_agree P t audited hprune hagree hgs h.keysB
  exact ⟨fa, fb, hfa, hfb, hea, heb⟩

theorem Retains.anomaliesOf (h : Retains now gsa gsb) (enabledAt : Int) :
    (∃ e e', Evaluation.anomaliesOf {} (Windows.compute now enabledAt) gsa = .error e ∧
      Evaluation.anomaliesOf {} (Windows.compute now enabledAt) gsb = .error e') ∨
    ∃ xs ys, Evaluation.anomaliesOf {} (Windows.compute now enabledAt) gsa = .ok xs ∧
      Evaluation.anomaliesOf {} (Windows.compute now enabledAt) gsb = .ok ys ∧
      xs.Perm ys ∧ (xs.map (·.1)).Sublist (gsa.map (·.key)) := by
  let row := fun g : Group => (g.key, Evaluation.ringTriple (Windows.compute now enabledAt) g)
  have hkeys : ∀ gs : Groups, (gs.map row).map (·.1) = gs.map (·.key) := fun gs => by
    rw [List.map_map]
    rfl
  have hsub : ∀ p ∈ gsa.map row, p ∈ gsb.map row := by
    intro p hp
    obtain ⟨ga, hga, rfl⟩ := List.mem_map.1 hp
    obtain ⟨gb, hfind, hs⟩ := h.shadow_of_mem hga
    refine List.mem_map.2 ⟨gb, (mem_of_find? hfind).1, ?_⟩
    simp only [row, hs.key, hs.ringTriple_eq (Int.le_refl _)]
  have hquiet : ∀ p ∈ gsb.map row,
      p ∈ gsa.map row ∨ Evaluation.anomalyOf {} (Windows.compute now enabledAt) p = .ok none := by
    intro p hp
    obtain ⟨gb, hgb, rfl⟩ := List.mem_map.1 hp
    rcases h.of_mem_right hgb with ⟨ga, hfind, hs⟩ | ⟨-, hd⟩
    · refine Or.inl (List.mem_map.2 ⟨ga, (mem_of_find? hfind).1, ?_⟩)
      simp only [row, hs.key, hs.ringTriple_eq (Int.le_refl _)]
    · right
      simp only [row, (hd.triples_eq_zero (Int.le_refl _) enabledAt).1]
      exact Evaluation.anomalyOf_zero _ _
  have hperm := Evaluation.anomalies_perm (t := {}) (w := Windows.compute now enabledAt)
    ((hkeys gsa).symm ▸ h.keysA) ((hkeys gsb).symm ▸ h.keysB) hsub hquiet
  rw [hkeys gsa] at hperm
  exact hperm

end Groups

end CacheHitRate
