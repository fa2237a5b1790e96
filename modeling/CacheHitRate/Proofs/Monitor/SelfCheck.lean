import CacheHitRate.Proofs.Window.Agreement
import CacheHitRate.Proofs.Monitor.Run

/-!
The self-check cannot fail on a clock that never goes back. Every group keeps its ring in step
with its buffer up to the current minute: a sample is stamped with the minute of its arrival, so
it is never older than what the ring holds, and the buffer is only pruned below the ranges the
ring answers for (75 minutes back, where the ring answers for 60). The windows of an evaluation
reach back 59 minutes, so each group's ring sums are its raw sums, and the audit, which looks up
each row's group by its key, finds the very group the row was computed from because keys are
distinct. No evaluation then reports a failure, the failure counter stays at zero, and only the
calls that set the switch turn the monitor off.
-/

namespace CacheHitRate

theorem minuteOf_mono {t t' : Int} (h : t ≤ t') : minuteOf t ≤ minuteOf t' := by
  simp only [minuteOf, Int.fdiv_eq_ediv_of_nonneg _ (show (0 : Int) ≤ minuteMs by decide)]
  exact Int.ediv_le_ediv (by decide) h

theorem Windows.compute_first_ge (now enabledAt : Int) :
    minuteOf now - 59 ≤ (compute now enabledAt).baseline.first ∧
      minuteOf now - 59 ≤ (compute now enabledAt).recent.first ∧
      minuteOf now - 59 ≤ (compute now enabledAt).observe.first := by
  simp only [compute, baselineMinutes, recentMinutes, coldStartMinutes]
  refine ⟨by omega, by omega, ?_⟩
  cases decide (enabledAt > 0 ∧ now - enabledAt < 10 * minuteMs) <;> simp <;> omega

namespace Group

/-- A group whose ring has the full window of slots and is in step with its buffer up to the
minute `M`. -/
structure InStep (M : Int) (g : Group) : Prop where
  size : g.ring.size = Ring.windowMinutes
  tracks : g.ring.Tracks g.samples M

variable {M : Int} {g : Group}

theorem InStep.mono (h : g.InStep M) {M' : Int} (hle : M ≤ M') : g.InStep M' :=
  ⟨h.size, h.tracks.mono hle⟩

theorem inStep_fresh (key : GroupKey) (name : Text) (s : Sample) (M : Int) :
    (fresh key name s).InStep M :=
  ⟨Ring.size_create _, Ring.tracks_create _ M⟩

theorem InStep.record (h : g.InStep M) {s : Sample} (hs : M ≤ s.minute) :
    (g.record s).InStep s.minute where
  size := by rw [Group.record, Ring.size_insert, h.size]
  tracks := by
    have hr : 0 < g.ring.size := by rw [h.size]; decide
    refine (h.tracks.insert hr hs).prune ?_
    rw [Ring.size_insert, h.size]
    simp only [Buffer.retentionMinutes, Ring.windowMinutes]
    omega

theorem InStep.prunedTo (h : g.InStep M) {k : Int} (hk : k ≤ M - 59) : (g.prunedTo k).InStep M where
  size := h.size
  tracks := h.tracks.prune (by rw [h.size]; simp only [Ring.windowMinutes]; omega)

theorem InStep.ringTriple_eq (h : g.InStep M) {now : Int} (hM : M ≤ minuteOf now)
    (enabledAt : Int) :
    Evaluation.ringTriple (Windows.compute now enabledAt) g =
      Evaluation.slowTriple (Windows.compute now enabledAt) g := by
  have hagree : ∀ span : Span, minuteOf now - 59 ≤ span.first →
      g.ring.sumRange span = g.samples.sumRange span := by
    intro span hspan
    apply h.tracks.agree span
    rw [h.size]
    simp only [Ring.windowMinutes]
    omega
  obtain ⟨hb, hr, ho⟩ := Windows.compute_first_ge now enabledAt
  simp only [Evaluation.ringTriple, Evaluation.slowTriple, hagree _ hb, hagree _ hr, hagree _ ho]

end Group

namespace Evaluation

theorem mem_of_mem_leading {α : Type} {n : Int} {xs : List α} {x : α} (h : x ∈ leading n xs) :
    x ∈ xs := by
  unfold leading at h
  split at h <;> exact List.mem_of_mem_take h

theorem mem_of_mem_busiest {rows : List (GroupKey × Triple)} {p : GroupKey × Triple}
    (h : p ∈ busiest rows) : p ∈ rows :=
  List.mem_mergeSort.1 h

theorem auditRows_eq_none_of (P : Group → Prop) (w : Windows) (rows : List (GroupKey × Triple))
    (gs : Groups) (hprune : ∀ g, P g → P (g.prunedTo (w.minuteNow - Buffer.retentionMinutes)))
    (hagree : ∀ g, P g → ringTriple w g = slowTriple w g) (hgs : ∀ g ∈ gs, P g)
    (hrows : ∀ p ∈ rows, ∀ g ∈ gs, g.key = p.1 → p.2 = ringTriple w g) :
    (auditRows w rows gs).1 = none := by
  induction rows generalizing gs with
  | nil => rfl
  | cons row rows ih =>
    obtain ⟨key, ring⟩ := row
    let k := w.minuteNow - Buffer.retentionMinutes
    have hgs' : ∀ g ∈ gs.modify key (Group.prunedTo k), P g := by
      intro g hg
      obtain ⟨g₀, hg₀, rfl⟩ := List.mem_map.1 hg
      by_cases hk : g₀.key = key
      · simp only [hk, if_true]
        exact hprune g₀ (hgs g₀ hg₀)
      · simpa [hk] using hgs g₀ hg₀
    have hrows' : ∀ p ∈ (key, ring) :: rows, ∀ g ∈ gs.modify key (Group.prunedTo k),
        g.key = p.1 → p.2 = ringTriple w g := by
      intro p hp g hg hkey
      obtain ⟨g₀, hg₀, rfl⟩ := List.mem_map.1 hg
      by_cases hk : g₀.key = key
      · simp only [hk, if_true] at hkey ⊢
        exact hrows p hp g₀ hg₀ (by simpa [hk] using hkey)
      · simp only [hk, if_false] at hkey ⊢
        exact hrows p hp g₀ hg₀ hkey
    have hrest := ih _ hgs' fun p hp => hrows' p (List.mem_cons_of_mem _ hp)
    simp only [auditRows]
    split
    · exact hrest
    · rename_i g hfind
      obtain ⟨hg, hkey⟩ := Groups.mem_of_find? hfind
      have hring : ring = slowTriple w g :=
        (hrows' _ List.mem_cons_self g hg hkey).trans (hagree g (hgs' g hg))
      rw [if_pos hring]
      exact hrest

theorem auditRows_eq_none (now enabledAt : Int) (rows : List (GroupKey × Triple)) (gs : Groups)
    (hgs : ∀ g ∈ gs, g.InStep (minuteOf now))
    (hrows : ∀ p ∈ rows, ∀ g ∈ gs, g.key = p.1 →
      p.2 = ringTriple (Windows.compute now enabledAt) g) :
    (auditRows (Windows.compute now enabledAt) rows gs).1 = none := by
  refine auditRows_eq_none_of (fun g => g.InStep (minuteOf now)) _ rows gs (fun g hg => ?_)
    (fun g hg => hg.ringTriple_eq (Int.le_refl _) enabledAt) hgs hrows
  exact hg.prunedTo (by simp only [Windows.compute, Buffer.retentionMinutes]; omega)

end Evaluation

theorem evaluate_failure_eq_none (t : Thresholds) (audited : Int) (gs : Groups)
    (now enabledAt : Int) (hkeys : (gs.map (·.key)).Nodup)
    (hgs : ∀ g ∈ gs, g.InStep (minuteOf now)) {ev : Evaluation}
    (hev : (evaluate t audited gs now enabledAt).2 = .ok ev) : ev.failure = none := by
  let w := Windows.compute now enabledAt
  let kept := gs.filter fun g => !Evaluation.isStale (minuteOf now) g
  have hkept : (kept.map (·.key)).Nodup := hkeys.sublist (List.filter_sublist.map _)
  have haudit : (Evaluation.auditRows w (Evaluation.leading audited (Evaluation.busiest
      (kept.map fun g => (g.key, Evaluation.ringTriple w g)))) kept).1 = none := by
    apply Evaluation.auditRows_eq_none now enabledAt
    · exact fun g hg => hgs g (List.mem_of_mem_filter hg)
    · intro p hp g hg hkey
      obtain ⟨g₀, hg₀, rfl⟩ := List.mem_map.1
        (Evaluation.mem_of_mem_busiest (Evaluation.mem_of_mem_leading hp))
      have hsame : g = g₀ := Option.some.inj
        ((Groups.find?_of_mem hkept hg).symm.trans (hkey ▸ Groups.find?_of_mem hkept hg₀))
      rw [hsame]
  simp only [evaluate] at hev
  split at hev
  · rename_i f gs' hrun
    exact absurd ((congrArg Prod.fst hrun).symm.trans haudit) (by simp)
  · simp only [Except.map] at hev
    split at hev
    · cases hev
    · cases hev
      rfl

theorem CompletionEvent.minute_of_sample? {p : DenominatorPolicy} {e : CompletionEvent}
    {now : Int} {s : Sample} (h : e.sample? p now = .ok (some s)) : s.minute = minuteOf now := by
  simp only [CompletionEvent.sample?, bind, Except.bind, pure, Except.pure] at h
  repeat' split at h
  all_goals cases h
  rfl

namespace Monitor

theorem minute_of_admission {m : Monitor} {e : CompletionEvent} {now : Int} {key : GroupKey}
    {name : Text} {s : Sample} {traces : TraceModels}
    (h : m.admission e now = .admitted key name s traces) : s.minute = minuteOf now :=
  CompletionEvent.minute_of_sample? (admission_admitted h).2.1

/-- What keeps the self-check quiet on a clock that has reached `t`: keys are distinct, every
group is in step up to the minute of `t`, and no self-check has failed. -/
structure InStep (m : Monitor) (t : Int) : Prop where
  keys : (m.groups.map (·.key)).Nodup
  groups : ∀ g ∈ m.groups, g.InStep (minuteOf t)
  failures : m.metrics.selfCheckFailures = 0

variable {m : Monitor} {t : Int}

theorem InStep.mono (h : m.InStep t) {t' : Int} (hle : t ≤ t') : m.InStep t' :=
  ⟨h.keys, fun g hg => (h.groups g hg).mono (minuteOf_mono hle), h.failures⟩

theorem InStep.withMetrics (h : m.InStep t) (f : Metrics → Metrics)
    (hf : (f m.metrics).selfCheckFailures = m.metrics.selfCheckFailures) :
    (m.withMetrics f).InStep t :=
  ⟨h.keys, h.groups, hf.trans h.failures⟩

theorem InStep.countDrop (h : m.InStep t) (r : DropReason) : (countDrop r m).InStep t :=
  h.withMetrics _ rfl

theorem InStep.persist (h : m.InStep t) (on : Bool) : (m.persist on).InStep t :=
  ⟨h.keys, h.groups, h.failures⟩

theorem InStep.applyEnabled (h : m.InStep t) (v : Json) (now t' : Int) :
    (m.applyEnabled v now).InStep t' :=
  ⟨List.nodup_nil, fun _ hg => absurd hg List.not_mem_nil, h.failures⟩

theorem inStep_withoutAlerts : m.withoutAlerts.InStep t ↔ m.InStep t := by
  have hkeys : m.withoutAlerts.groups.map (·.key) = m.groups.map (·.key) := by
    simp [withoutAlerts]
  have hgroups : (∀ g ∈ m.withoutAlerts.groups, g.InStep (minuteOf t)) ↔
      ∀ g ∈ m.groups, g.InStep (minuteOf t) := by
    simp only [withoutAlerts, List.forall_mem_map]
    exact ⟨fun h g hg => ⟨(h g hg).size, (h g hg).tracks⟩,
      fun h g hg => ⟨(h g hg).size, (h g hg).tracks⟩⟩
  exact ⟨fun h => ⟨hkeys ▸ h.keys, hgroups.1 h.groups, h.failures⟩,
    fun h => ⟨hkeys ▸ h.keys, hgroups.2 h.groups, h.failures⟩⟩

theorem InStep.addSample (h : m.InStep t) (key : GroupKey) (name : Text) {s : Sample}
    {now : Int} (hle : t ≤ now) (hs : s.minute = minuteOf now) :
    (addSample key name s m).InStep now where
  keys := nodup_keys_addSample key name s m h.keys
  groups := by
    intro g hg
    rcases mem_addSample key name s m hg with ⟨hg, -⟩ | ⟨g₀, hg₀, -, rfl⟩
    · exact (h.groups g hg).mono (minuteOf_mono hle)
    · have h₀ : g₀.InStep (minuteOf t) := by
        rcases hg₀ with hg₀ | rfl
        · exact h.groups g₀ hg₀
        · exact Group.inStep_fresh key name s _
      have hrenamed : ({ g₀ with providerName := name } : Group).InStep (minuteOf t) :=
        ⟨h₀.size, h₀.tracks⟩
      rw [← hs]
      exact hrenamed.record (hs ▸ minuteOf_mono hle)
  failures := h.failures

theorem InStep.prepareAlerts (h : m.InStep t) (anomalies : List (GroupKey × Row × Reason))
    (now : Int) :
    (runOp (anomalies.filterMapM fun (key, row, reason) =>
        prepareAlert key row reason now) m).2.InStep t ∧
      (runOp (anomalies.filterMapM fun (key, row, reason) =>
        prepareAlert key row reason now) m).2.enabled = m.enabled := by
  have halerts := withoutAlerts_prepareAlerts anomalies now m
  have henabled := congrArg Monitor.enabled halerts
  refine ⟨inStep_withoutAlerts.1 ?_, henabled⟩
  rw [halerts, inStep_withoutAlerts]
  exact h

theorem InStep.evaluateDue (h : m.InStep t) {now : Int} (hle : t ≤ now) :
    (runOp (evaluateDue now) m).2.InStep now ∧
      (runOp (evaluateDue now) m).2.enabled = m.enabled := by
  have hgs : ∀ g ∈ m.groups, g.InStep (minuteOf now) :=
    fun g hg => (h.groups g hg).mono (minuteOf_mono hle)
  have hkept : ({ m with lastEval := now, groups :=
      (evaluate m.settings.thresholds m.settings.audited m.groups now m.enabledAt).1 } :
        Monitor).InStep now := by
    obtain ⟨f, hf, heq⟩ :=
      evaluate_groups m.settings.thresholds m.settings.audited m.groups now m.enabledAt
    refine ⟨?_, ?_, h.failures⟩
    · show ((evaluate m.settings.thresholds m.settings.audited m.groups now m.enabledAt).1.map
        (·.key)).Nodup
      rw [keys_evaluate]
      exact h.keys.sublist (List.filter_sublist.map _)
    · intro g hg
      change g ∈ (evaluate m.settings.thresholds m.settings.audited m.groups now m.enabledAt).1
        at hg
      rw [heq] at hg
      obtain ⟨g₀, hg₀, rfl⟩ := List.mem_map.1 hg
      have h₀ := hgs g₀ (List.mem_of_mem_filter hg₀)
      rcases hf g₀ with hfg | hfg <;> rw [hfg]
      · exact h₀
      · exact h₀.prunedTo (by simp only [Buffer.retentionMinutes]; omega)
  rw [runOp_evaluateDue]
  split
  · exact ⟨h.mono hle, rfl⟩
  · split
    · exact ⟨hkept, rfl⟩
    · rename_i ev hev
      rw [evaluate_failure_eq_none _ _ _ _ _ h.keys hgs hev]
      exact (hkept.withMetrics _ rfl).prepareAlerts ev.anomalies now

theorem InStep.ingestStart (h : m.InStep t) (e : StartEvent) (now : Int) :
    (m.ingestStart e now).InStep t := by
  obtain ⟨traces, heq⟩ := ingestStart_eq m e now
  rw [heq]
  exact ⟨h.keys, h.groups, h.failures⟩

theorem InStep.completion (h : m.InStep t) (e : CompletionEvent) {now : Int} (hle : t ≤ now) :
    (m.completion e now).1.InStep now ∧ (m.completion e now).1.enabled = m.enabled := by
  have hm := h.mono hle
  have hwith : ∀ traces, ({ m with traces } : Monitor).InStep now :=
    fun _ => ⟨hm.keys, hm.groups, hm.failures⟩
  have hrun : (runOp (ingestCompletion e now) m).2.InStep now ∧
      (runOp (ingestCompletion e now) m).2.enabled = m.enabled := by
    rw [runOp_ingestCompletion]
    split
    · exact ⟨hm, rfl⟩
    · split
      · exact ⟨(hwith _).countDrop _, rfl⟩
      · exact ⟨hwith _, rfl⟩
      · rename_i key name s traces hadmitted
        have hadd := InStep.addSample (m := { m with traces }) ⟨h.keys, h.groups, h.failures⟩
          key name hle (minute_of_admission hadmitted)
        exact hadd.evaluateDue (Int.le_refl now)
  unfold Monitor.completion
  split
  · rename_i ns m' hres
    rw [hres] at hrun
    exact hrun
  · rename_i err m' hres
    rw [hres] at hrun
    dsimp only at hrun ⊢
    exact ⟨hrun.1.withMetrics _ rfl, hrun.2⟩

/-- Every call at `now`, on a clock that has reached no later than `now`, leaves the monitor in
step at `now`. -/
theorem InStep.call (h : m.InStep t) {now : Int} (hle : t ≤ now) (c : Call) :
    (m.call now c).InStep now := by
  have hm := h.mono hle
  cases c with
  | start =>
    rw [call_start]
    split
    · exact h.applyEnabled _ _ _
    · exact hm
  | stop => exact h.applyEnabled _ _ _
  | setEnabled v =>
    rcases setEnabled_cases m v now with h' | ⟨-, h'⟩ | ⟨-, h'⟩ <;> simp only [Monitor.call, h']
    · exact hm
    · exact (h.applyEnabled _ now now).persist true
    · exact (h.applyEnabled _ now now).persist false
  | ingestStart e => exact (h.ingestStart e now).mono hle
  | ingestCompletion e => exact (h.completion e hle).1
  | line limit text =>
    rcases handleLineWithin_cases m limit text now with h' | h' | ⟨e, h'⟩ | ⟨e, h'⟩ <;>
      simp only [Monitor.call, h']
    · exact hm
    · exact hm.withMetrics _ rfl
    · exact (h.ingestStart e now).mono hle
    · exact (h.completion e hle).1
  | maybeEvaluate => exact (h.evaluateDue hle).1
  | deliver ns timeout ok =>
    obtain ⟨failures, hf⟩ := deliver_eq m ns timeout ok
    simp only [Monitor.call, hf]
    exact hm.withMetrics _ rfl
  | storeWritten store => exact ⟨hm.keys, hm.groups, hm.failures⟩

theorem InStep.enabled_call (h : m.InStep t) {now : Int} (hle : t ≤ now) (c : Call)
    (hc : c.setsSwitch = false) : (m.call now c).enabled = m.enabled := by
  cases c with
  | start | stop | setEnabled v => cases hc
  | ingestStart e =>
    obtain ⟨traces, heq⟩ := ingestStart_eq m e now
    simp only [Monitor.call, heq]
  | ingestCompletion e => exact (h.completion e hle).2
  | line limit text =>
    rcases handleLineWithin_cases m limit text now with h' | h' | ⟨e, h'⟩ | ⟨e, h'⟩ <;>
      simp only [Monitor.call, h']
    · rfl
    · obtain ⟨traces, heq⟩ := ingestStart_eq m e now
      simp only [heq]
    · exact (h.completion e hle).2
  | maybeEvaluate => exact (h.evaluateDue hle).2
  | deliver ns timeout ok =>
    obtain ⟨failures, hf⟩ := deliver_eq m ns timeout ok
    simp only [Monitor.call, hf]
    rfl
  | storeWritten store => rfl

theorem InStep.switchedOff (h : m.InStep t) {now : Int} (hle : t ≤ now) (c : Call)
    (hon : m.isEnabled = true) (hoff : (m.call now c).isEnabled = false) :
    c = .stop ∨ (∃ v, c = .setEnabled v ∧ v ≠ .bool true) ∨
      (c = .start ∧ ∃ v, m.store.load startDepth = .ok v ∧ v.truthy = false) := by
  have hkeep : ∀ {m' : Monitor}, m'.enabled = m.enabled → m'.isEnabled = false → False := by
    intro m' he hoff'
    rw [isEnabled, he] at hoff'
    exact Bool.false_ne_true (hoff'.symm.trans hon)
  cases hc : c.setsSwitch
  · exact (hkeep (h.enabled_call hle c hc) hoff).elim
  cases c with
  | start =>
    rw [call_start] at hoff
    split at hoff
    · rename_i v hv
      exact Or.inr (Or.inr ⟨rfl, v, hv, hoff⟩)
    · exact (hkeep rfl hoff).elim
  | stop => exact Or.inl rfl
  | setEnabled v =>
    rcases setEnabled_cases m v now with h' | ⟨-, h'⟩ | ⟨hv, -⟩
    · rw [Monitor.call, h'] at hoff
      exact (hkeep rfl hoff).elim
    · rw [Monitor.call, h'] at hoff
      cases hoff
    · exact Or.inr (Or.inl ⟨v, rfl, hv⟩)
  | _ => cases hc

/-- Every state reached on a clock that never goes back is in step at the clock's time. -/
theorem ReachesBy.inStep {settings : Settings} {store : FlagStore}
    (hm : ReachesBy settings store m t) : m.InStep t := by
  induction hm with
  | built t => exact ⟨List.nodup_nil, fun _ hg => absurd hg List.not_mem_nil, rfl⟩
  | wait _ hle ih => exact ih.mono hle
  | call c now _ hle ih => exact ih.call hle c

end Monitor

/-- On a clock that never goes back, the self-check never fails. In every state a monitor
reaches, with any settings, events and switch store, each group's ring sums over the windows of
any later evaluation are its raw sums; an evaluation of the monitor's groups reports no
failure; the count of failed self-checks is zero; and the next call turns the monitor off only
if it is a stop, a switch to anything but true, or a start that loads a false value. -/
theorem selfCheck_never_fails {settings : Settings} {store : FlagStore} {m : Monitor}
    {t : Int} (hm : Monitor.ReachesBy settings store m t) {now : Int} (hnow : t ≤ now) :
    (∀ g ∈ m.groups, ∀ enabledAt : Int,
      Evaluation.ringTriple (Windows.compute now enabledAt) g =
        Evaluation.slowTriple (Windows.compute now enabledAt) g) ∧
    (∀ ev, (evaluate m.settings.thresholds m.settings.audited m.groups now m.enabledAt).2 =
      .ok ev → ev.failure = none) ∧
    m.metrics.selfCheckFailures = 0 ∧
    ∀ c : Call, m.isEnabled = true → (m.call now c).isEnabled = false →
      c = .stop ∨ (∃ v, c = .setEnabled v ∧ v ≠ .bool true) ∨
        (c = .start ∧ ∃ v, m.store.load Monitor.startDepth = .ok v ∧ v.truthy = false) := by
  have h := hm.inStep.mono hnow
  have hgs : ∀ g ∈ m.groups, g.InStep (minuteOf now) := h.groups
  refine ⟨fun g hg => (hgs g hg).ringTriple_eq (Int.le_refl _), ?_, h.failures, ?_⟩
  · exact fun ev hev => evaluate_failure_eq_none _ _ _ _ _ h.keys hgs hev
  · exact fun c hon hoff => hm.inStep.switchedOff hnow c hon hoff

/-- The key of a group of Claude traffic served by provider 1 for an unknown model. -/
def quietKey : GroupKey := ⟨Text.ofString "claude", 1, Text.ofString "Unknown"⟩

/-- A completion of a group of that key that creates cache and reads none. -/
def coldCompletion : Call :=
  .ingestCompletion ⟨Text.ofString "a", Text.ofString "claude", some 200, none,
    [⟨.int 1, Text.ofString "p", Text.ofString "success", some 200⟩], .int 1000, .int 0, .int 500,
    .null, .null⟩

/-- Ten such completions at `t` and an evaluation a minute later. -/
def busyMinute (t : Int) : List (Int × Call) :=
  List.replicate 10 (t, coldCompletion) ++ [(t + 60000, .maybeEvaluate)]

/-- A monitor started over a store that holds `true` that then took ten completions fourteen
minutes on and evaluated its one group a minute later. -/
def warmMonitor : Monitor :=
  (({ store := .memory (.bool true) } : Monitor).call 0 .start).run (busyMinute 840000)

/-- That monitor is quiet a minute after its evaluation. -/
theorem selfCheck_quiet_after_busy_minute :
    warmMonitor.groups.length = 1 ∧
    (∀ g ∈ warmMonitor.groups, ∀ enabledAt : Int,
      Evaluation.ringTriple (Windows.compute 960000 enabledAt) g =
        Evaluation.slowTriple (Windows.compute 960000 enabledAt) g) ∧
    (∀ ev, (evaluate warmMonitor.settings.thresholds warmMonitor.settings.audited
      warmMonitor.groups 960000 warmMonitor.enabledAt).2 = .ok ev → ev.failure = none) ∧
    warmMonitor.metrics.selfCheckFailures = 0 ∧
    ∀ c : Call, warmMonitor.isEnabled = true → (warmMonitor.call 960000 c).isEnabled = false →
      c = .stop ∨ (∃ v, c = .setEnabled v ∧ v ≠ .bool true) ∨
        (c = .start ∧ ∃ v, warmMonitor.store.load Monitor.startDepth = .ok v ∧
          v.truthy = false) :=
  by
  have hm : Monitor.ReachesBy {} (.memory (.bool true)) warmMonitor 900000 :=
    (Monitor.ReachesBy.call .start 0 (.built 0) (Int.le_refl 0)).run (busyMinute 840000)
      (by decide)
  exact ⟨by decide +kernel, selfCheck_never_fails hm (by decide)⟩

end CacheHitRate
