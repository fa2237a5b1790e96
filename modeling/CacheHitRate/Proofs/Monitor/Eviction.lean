import CacheHitRate.Proofs.Monitor.AlertBatch

/-!
Eviction and the alerts. A monitor runs beside the same monitor whose evaluation keeps the groups
unseen for an hour, both taking the same calls at the same times on a clock that never goes back.
Key by key the two hold counterparts (`Groups.Retains`), and they agree on everything else but
their counters. Each call keeps that and gives the same notices in both runs up to their order,
as long as no batch of alerts stops on an error: such a stop leaves the groups before the failing
anomaly marked and those after it not, in the order of the groups, which eviction changes. From
then on the two runs can part, and a later evaluation can warn in one and not in the other.
-/

namespace CacheHitRate

namespace Monitor

/-- The monitor with its groups and counters emptied: what the two runs share. -/
def shell (m : Monitor) : Monitor := { m with groups := [], metrics := {} }

/-- The monitor `b` of the run keeping stale groups beside the monitor `a` of the run that evicts,
at time `t`: one shell, a last evaluation at or after the clock's origin, sound groups in `a`, and
counterparts under every key. -/
structure Retains (a b : Monitor) (t : Int) : Prop where
  shell : b.shell = a.shell
  lastEval : 0 ≤ a.lastEval
  sound : ∀ g ∈ a.groups, g.Sound
  groups : Groups.Retains t a.groups b.groups

/-- What a call leaves behind in the two runs, at time `t`: the same notices up to order, the same
value queued, reset and halt, and, unless a batch of alerts stopped on an error, monitors that
still retain. -/
structure Outcome.Retains (oa ob : Outcome) (t : Int) : Prop where
  notices : oa.notices.Perm ob.notices
  queued : ob.queued = oa.queued
  reset : ob.reset = oa.reset
  halt : ob.halt = oa.halt
  mon : oa.halt ≠ some .alerts → oa.mon.Retains ob.mon t

theorem Groups.retains_nil (t : Int) : Groups.Retains t [] [] :=
  ⟨List.nodup_nil, List.nodup_nil, fun _ => .absent⟩

variable {a b : Monitor} {t now : Int}

section Shell

/-! Everything a monitor reads apart from its groups and counters is in its shell. -/

variable (h : b.shell = a.shell)
include h

theorem settings_eq_of_shell : b.settings = a.settings := (congrArg Monitor.settings h :)

theorem store_eq_of_shell : b.store = a.store := (congrArg Monitor.store h :)

theorem enabled_eq_of_shell : b.enabled = a.enabled := (congrArg Monitor.enabled h :)

theorem isEnabled_eq_of_shell : b.isEnabled = a.isEnabled :=
  congrArg Json.truthy (enabled_eq_of_shell h)

theorem enabledAt_eq_of_shell : b.enabledAt = a.enabledAt := (congrArg Monitor.enabledAt h :)

theorem traces_eq_of_shell : b.traces = a.traces := (congrArg Monitor.traces h :)

theorem lastEval_eq_of_shell : b.lastEval = a.lastEval := (congrArg Monitor.lastEval h :)

end Shell

theorem Retains.mono (h : a.Retains b t) (hle : t ≤ now) : a.Retains b now :=
  ⟨h.shell, h.lastEval, h.sound, h.groups.mono hle⟩

theorem Retains.withMetrics (h : a.Retains b t) (f g : Metrics → Metrics) :
    (a.withMetrics f).Retains (b.withMetrics g) t :=
  ⟨h.shell, h.lastEval, h.sound, h.groups⟩

theorem Retains.countIngestError (h : a.Retains b t) :
    a.countIngestError.Retains b.countIngestError t :=
  h.withMetrics _ _

theorem Retains.withTraces (h : a.Retains b t) (traces : TraceModels) :
    ({ a with traces } : Monitor).Retains { b with traces } t := by
  have hshell := congrArg (fun m : Monitor => ({ m with traces } : Monitor).shell) h.shell
  exact ⟨hshell, h.lastEval, h.sound, h.groups⟩

theorem Retains.persist (h : a.Retains b t) (on : Bool) :
    (a.persist on).Retains (b.persist on) t := by
  have hshell := congrArg (fun m : Monitor => (m.persist on).shell) h.shell
  exact ⟨hshell, h.lastEval, h.sound, h.groups⟩

theorem retains_applyEnabled (hshell : b.shell = a.shell) (v : Json) (now t : Int) :
    (a.applyEnabled v now).Retains (b.applyEnabled v now) t where
  shell := by
    have h := congrArg (fun m : Monitor => (m.applyEnabled v now).shell) hshell
    exact h
  lastEval := Int.le_refl 0
  sound _ hg := absurd hg List.not_mem_nil
  groups := Groups.retains_nil t

theorem Outcome.Retains.of_mon {a b : Monitor} (h : a.Retains b t) :
    Outcome.Retains { mon := a } { mon := b } t :=
  ⟨List.Perm.refl _, rfl, rfl, rfl, fun _ => h⟩

theorem Outcome.Retains.saved {oa ob : Outcome} (h : oa.Retains ob t)
    (hhalt : oa.halt ≠ some .alerts) : oa.saved.Retains ob.saved t := by
  unfold Outcome.saved
  rw [h.queued]
  cases oa.queued with
  | none => exact h.mon hhalt
  | some on => exact (h.mon hhalt).persist on

theorem Retains.addSample (h : a.Retains b t)
    (hseen : ∀ g ∈ a.groups, g.lastSeenMinute ≤ minuteOf t)
    (key : GroupKey) (name : Text) {s : Sample} (hle : t ≤ now) (hs : s.minute = minuteOf now) :
    (addSample key name s a).Retains (addSample key name s b) now where
  shell := h.shell
  lastEval := h.lastEval
  sound := by
    intro g hg
    rcases mem_addSample key name s a hg with ⟨hg, -⟩ | ⟨g₀, hg₀, -, rfl⟩
    · exact h.sound g hg
    · rcases hg₀ with hg₀ | rfl
      · exact ((h.sound g₀ hg₀).rename name).record
          (Int.le_trans (hseen g₀ hg₀) (hs ▸ minuteOf_mono hle))
      · exact ((Group.sound_fresh key name s).rename name).record (Int.le_refl _)
  groups := by
    refine ⟨nodup_keys_addSample key name s a h.groups.keysA,
      nodup_keys_addSample key name s b h.groups.keysB, fun k => ?_⟩
    by_cases hk : k = key
    · subst hk
      rw [find?_addSample_self, find?_addSample_self]
      refine .shadow (Group.Shadows.record ?_ hs)
      have hc := (h.groups.counterpart k).mono hle
      cases hfa : a.groups.find? k <;> cases hfb : b.groups.find? k <;> rw [hfa, hfb] at hc
      · exact (Group.Shadows.refl now _).rename name
      · rename_i gb
        cases hc with
        | dead hd =>
          have hkey := (Groups.mem_of_find? hfb).2
          subst hkey
          exact hd.shadows_fresh (Int.le_refl now) name s
      · cases hc
      · cases hc with
        | shadow hsh => exact hsh.rename name
    · rw [find?_addSample_of_ne key name s a hk, find?_addSample_of_ne key name s b hk]
      exact (h.groups.counterpart k).mono hle

theorem Retains.evict (h : a.Retains b t) (hin : a.InStep t) (hsp : a.Spaced t []) (hle : t ≤ now) :
    ({ a with groups := a.groups.filter fun g => !Evaluation.isStale (minuteOf now) g } :
      Monitor).Retains b now where
  shell := h.shell
  lastEval := h.lastEval
  sound g hg := h.sound g (List.mem_of_mem_filter hg)
  groups := h.groups.evict (fun g hg => (hin.groups g hg).size) (fun g hg => hsp.groups g hg)
    h.sound hle

theorem shell_keyedAlerts (anomalies : List (GroupKey × Row × Reason)) (now : Int) (m : Monitor) :
    (runOp (keyedAlerts anomalies now) m).2.shell = m.shell := by
  have h := withoutAlerts_prepareAlerts anomalies now m
  rw [runOp_keyedAlerts] at h
  have hshell := congrArg shell h
  exact hshell

theorem Retains.alertOutcome (h : a.Retains b now) (hnow : 0 ≤ now)
    {xs ys : List (GroupKey × Row × Reason)} (hperm : xs.Perm ys)
    (hkeys : (xs.map (·.1)).Sublist (a.groups.map (·.key))) :
    Outcome.Retains (alertOutcome xs now a) (alertOutcome ys now b) now := by
  have hxs : (xs.map (·.1)).Nodup := hkeys.nodup h.groups.keysA
  have hys : (ys.map (·.1)).Nodup := ((hperm.map _).nodup_iff).1 hxs
  have hmem : ∀ x ∈ xs, x.1 ∈ a.groups.map (·.key) := fun x hx =>
    hkeys.subset (List.mem_map_of_mem hx)
  have hresA : (runOp (keyedAlerts xs now) a).1 = xs.filterMapM (offered a.groups now) :=
    runOp_keyedAlerts_result xs a hxs
  have hresB : (runOp (keyedAlerts ys now) b).1 = ys.filterMapM (offered b.groups now) :=
    runOp_keyedAlerts_result ys b hys
  have hshellA := shell_keyedAlerts xs now a
  have hshellB := shell_keyedAlerts ys now b
  have hgroupsA : ∀ {alerts}, (runOp (keyedAlerts xs now) a).1 = .ok alerts →
      (runOp (keyedAlerts xs now) a).2.groups = a.groups.map (Group.afterAlerts xs now) :=
    fun hok => runOp_keyedAlerts_groups xs a h.groups.keysA hok
  have hgroupsB : ∀ {alerts}, (runOp (keyedAlerts ys now) b).1 = .ok alerts →
      (runOp (keyedAlerts ys now) b).2.groups = b.groups.map (Group.afterAlerts ys now) :=
    fun hok => runOp_keyedAlerts_groups ys b h.groups.keysB hok
  unfold Monitor.alertOutcome
  revert hresA hresB hshellA hshellB hgroupsA hgroupsB
  rcases runOp (keyedAlerts xs now) a with ⟨ra, ma⟩
  rcases runOp (keyedAlerts ys now) b with ⟨rb, mb⟩
  intro hresA hresB hshellA hshellB hgroupsA hgroupsB
  simp only at hresA hresB hshellA hshellB hgroupsA hgroupsB
  rcases h.groups.offered (Int.le_refl now) hperm hmem with ⟨e, e', hea, heb⟩ |
    ⟨as, bs, hoka, hokb, hperm'⟩
  · rw [hresA, hea, hresB, heb]
    exact ⟨List.Perm.refl _, rfl, rfl, rfl, fun hne => absurd rfl hne⟩
  · rw [hresA, hoka, hresB, hokb]
    refine ⟨hperm'.map _, rfl, rfl, rfl, fun _ => ⟨?_, ?_, ?_, ?_⟩⟩
    · show mb.shell = ma.shell
      rw [hshellA, hshellB, h.shell]
    · show 0 ≤ ma.lastEval
      rw [lastEval_eq_of_shell hshellA]
      exact h.lastEval
    · show ∀ g ∈ ma.groups, g.Sound
      rw [hgroupsA (hresA.trans hoka)]
      intro g hg
      obtain ⟨g₀, hg₀, rfl⟩ := List.mem_map.1 hg
      exact (h.sound g₀ hg₀).afterAlerts hnow
    · show Groups.Retains now ma.groups mb.groups
      rw [hgroupsA (hresA.trans hoka), hgroupsB (hresB.trans hokb)]
      exact h.groups.afterAlerts (Int.le_refl now) hperm hmem

theorem Retains.due_eq (h : a.Retains b t) (now : Int) :
    (!b.isEnabled || decide (now - b.lastEval < evalIntervalMs)) =
      (!a.isEnabled || decide (now - a.lastEval < evalIntervalMs)) := by
  rw [isEnabled_eq_of_shell h.shell, lastEval_eq_of_shell h.shell]

theorem Retains.cycleRetaining (h : a.Retains b now)
    (hin : ∀ g ∈ a.groups, g.InStep (minuteOf now)) (hth : a.settings.thresholds = {}) :
    Outcome.Retains (cycleWith evaluateRetaining a now) (cycleWith evaluateRetaining b now)
      now := by
  unfold cycleWith
  rw [h.due_eq now]
  by_cases hdue : (!a.isEnabled || decide (now - a.lastEval < evalIntervalMs)) = true
  · rw [if_pos hdue, if_pos hdue]
    exact Outcome.Retains.of_mon h
  rw [if_neg hdue, if_neg hdue]
  have hnow : 0 ≤ now := by
    have hge : ¬now - a.lastEval < evalIntervalMs := fun hlt => hdue (by simp [hlt])
    have := h.lastEval
    simp only [evalIntervalMs] at hge
    omega
  obtain ⟨fa, fb, hfa, hfb, hea, heb⟩ :=
    h.groups.evaluateRetaining hin a.settings.thresholds a.settings.audited a.enabledAt
  have hargs : evaluateRetaining b.settings.thresholds b.settings.audited b.groups now b.enabledAt =
      evaluateRetaining a.settings.thresholds a.settings.audited b.groups now a.enabledAt := by
    rw [settings_eq_of_shell h.shell, enabledAt_eq_of_shell h.shell]
  rw [hea, hargs, heb, hth]
  have hk : minuteOf now - Buffer.retentionMinutes ≤ minuteOf now - 59 := by
    simp only [Buffer.retentionMinutes]
    omega
  have hkept : ({ a with lastEval := now, groups := a.groups.map fa } : Monitor).Retains
      { b with lastEval := now, groups := b.groups.map fb } now := by
    have hshell :=
      congrArg (fun m : Monitor => ({ m with lastEval := now } : Monitor).shell) h.shell
    refine ⟨hshell, hnow, ?_, h.groups.kept hk hfa hfb⟩
    intro g hg
    obtain ⟨g₀, hg₀, rfl⟩ := List.mem_map.1 hg
    exact (h.sound g₀ hg₀).kept hfa
  rcases h.groups.anomaliesOf a.enabledAt with ⟨e, e', hra, hrb⟩ |
    ⟨xs, ys, hra, hrb, hperm, hkeys⟩
  · rw [hra, hrb]
    exact ⟨List.Perm.refl _, rfl, rfl, rfl, fun _ => hkept⟩
  · rw [hra, hrb]
    have hkeys' : (xs.map (·.1)).Sublist ((a.groups.map fa).map (·.key)) := by
      rw [Groups.keys_map hfa.key_eq]
      exact hkeys
    exact (hkept.withMetrics _ _).alertOutcome hnow hperm hkeys'

theorem Retains.cycle (h : a.Retains b t) (hin : a.InStep t) (hsp : a.Spaced t []) (hle : t ≤ now) :
    Outcome.Retains (cycleWith evaluate a now) (cycleWith evaluateRetaining b now) now := by
  by_cases hdue : (!a.isEnabled || decide (now - a.lastEval < evalIntervalMs)) = true
  · have hdue' := hdue
    rw [← h.due_eq now] at hdue'
    unfold cycleWith
    rw [if_pos hdue, if_pos hdue']
    exact Outcome.Retains.of_mon (h.mono hle)
  · rw [cycleWith_evaluate_of_due (Bool.eq_false_iff.2 hdue)]
    exact (h.evict hin hsp hle).cycleRetaining
      (fun g hg => (hin.groups g (List.mem_of_mem_filter hg)).mono (minuteOf_mono hle))
      hsp.thresholds

theorem admission_eq_of_shell (h : b.shell = a.shell) (e : CompletionEvent) (now : Int) :
    b.admission e now = a.admission e now := by
  unfold admission
  rw [traces_eq_of_shell h, settings_eq_of_shell h]

theorem Retains.ingestStart (h : a.Retains b t) (e : StartEvent) (now : Int) :
    (a.ingestStart e now).Retains (b.ingestStart e now) t := by
  have henabled' := isEnabled_eq_of_shell h.shell
  have hsettings' := settings_eq_of_shell h.shell
  unfold Monitor.ingestStart
  by_cases hoff :
      (!a.isEnabled || e.traceId.isEmpty || !a.settings.supportedClis.contains e.cliKey) = true
  · have hoff' := hoff
    rw [← henabled', ← hsettings'] at hoff'
    rw [if_pos hoff, if_pos hoff']
    exact h
  · have hoff' := hoff
    rw [← henabled', ← hsettings'] at hoff'
    rw [if_neg hoff, if_neg hoff', traces_eq_of_shell h.shell]
    exact h.withTraces _

theorem Retains.completion (h : a.Retains b t) (hin : a.InStep t) (hsp : a.Spaced t [])
    (hle : t ≤ now) (e : CompletionEvent) :
    Outcome.Retains (completionWith evaluate a e now) (completionWith evaluateRetaining b e now)
      now := by
  have hm := h.mono hle
  unfold completionWith
  rw [isEnabled_eq_of_shell h.shell, admission_eq_of_shell h.shell]
  cases a.isEnabled
  · exact Outcome.Retains.of_mon hm
  simp only [Bool.not_true, Bool.false_eq_true, if_false]
  cases hadm : a.admission e now with
  | dropped r traces => exact Outcome.Retains.of_mon ((hm.withTraces traces).withMetrics _ _)
  | failed err traces => exact Outcome.Retains.of_mon ((hm.withTraces traces).withMetrics _ _)
  | admitted key name s traces =>
    have hs := minute_of_admission hadm
    have hin₁ : ({ a with traces } : Monitor).InStep t := ⟨hin.keys, hin.groups, hin.failures⟩
    have hsp₁ : ({ a with traces } : Monitor).Spaced t [] := hsp.congr rfl rfl
    have h₁ := (h.withTraces traces).addSample (fun g hg => (hsp.groups g hg).seen) key name hle hs
    have ho := h₁.cycle (hin₁.addSample key name hle hs) (hsp₁.addSample key name hle hs)
      (Int.le_refl now)
    dsimp only
    have hhalt : (cycleWith evaluateRetaining (Monitor.addSample key name s { b with traces })
        now).halt.isSome = (cycleWith evaluate (Monitor.addSample key name s { a with traces })
        now).halt.isSome := by
      rw [ho.halt]
    rw [hhalt]
    split_ifs
    · exact ⟨ho.notices, ho.queued, ho.reset, ho.halt, fun hne => (ho.mon hne).countIngestError⟩
    · exact ho

/-- Every call, made at the same time in both runs, leaves them as `Outcome.Retains` says. -/
theorem Retains.step (h : a.Retains b t) (hin : a.InStep t) (hsp : a.Spaced t []) (hle : t ≤ now)
    (c : Call) : Outcome.Retains (a.step now c) (b.stepWith evaluateRetaining now c) now := by
  have hm := h.mono hle
  cases c with
  | start =>
    simp only [Monitor.step, Monitor.stepWith, Monitor.start, store_eq_of_shell h.shell]
    cases a.store.load startDepth with
    | error err => exact Outcome.Retains.of_mon hm
    | ok v =>
      exact ⟨List.Perm.refl _, rfl, rfl, rfl, fun _ => retains_applyEnabled h.shell v now now⟩
  | stop => exact ⟨List.Perm.refl _, rfl, rfl, rfl, fun _ => retains_applyEnabled h.shell _ now now⟩
  | setEnabled v =>
    simp only [Monitor.step, Monitor.stepWith, enabled_eq_of_shell h.shell]
    split
    · exact Outcome.Retains.of_mon hm
    · exact ⟨List.Perm.refl _, rfl, rfl, rfl, fun _ => retains_applyEnabled h.shell _ now now⟩
  | ingestStart e => exact Outcome.Retains.of_mon (hm.ingestStart e now)
  | ingestCompletion e => exact h.completion hin hsp hle e
  | line limit text =>
    simp only [Monitor.step, Monitor.stepWith]
    split
    · exact Outcome.Retains.of_mon hm
    · split
      · exact Outcome.Retains.of_mon (hm.withMetrics _ _)
      · exact Outcome.Retains.of_mon (hm.ingestStart _ now)
      · exact h.completion hin hsp hle _
  | maybeEvaluate => exact h.cycle hin hsp hle
  | deliver ns timeout ok =>
    obtain ⟨fa, hfa⟩ := deliver_eq a ns timeout ok
    obtain ⟨fb, hfb⟩ := deliver_eq b ns timeout ok
    simp only [Monitor.step, Monitor.stepWith, hfa, hfb]
    exact Outcome.Retains.of_mon (hm.withMetrics _ _)
  | storeWritten store =>
    have hshell := congrArg (fun m : Monitor => ({ m with store } : Monitor).shell) h.shell
    exact Outcome.Retains.of_mon ⟨hshell, hm.lastEval, hm.sound, hm.groups⟩

/-- Two runs on the same calls from a monitor built with `settings` over `store`, on a clock that
never goes back, with `t` a time the clock has reached: one by the monitor, one evaluating by
`evaluateRetaining`. They go on while no batch of alerts of the first stops on an error. -/
inductive Twins (settings : Settings) (store : FlagStore) : Monitor → Monitor → Int → Prop
  | built (t : Int) : Twins settings store { settings, store } { settings, store } t
  | wait {a b : Monitor} {t t' : Int} : Twins settings store a b t → t ≤ t' →
      Twins settings store a b t'
  | call {a b : Monitor} {t : Int} (c : Call) (now : Int) : Twins settings store a b t → t ≤ now →
      (a.step now c).halt ≠ some .alerts →
      Twins settings store (a.step now c).saved (b.stepWith evaluateRetaining now c).saved now

variable {settings : Settings} {store : FlagStore}

theorem Twins.reachesBy (h : Twins settings store a b t) : ReachesBy settings store a t := by
  induction h with
  | built t => exact .built t
  | wait _ hle ih => exact ih.wait hle
  | call c now _ hle _ ih =>
    rw [(step_saved _ now c).1]
    exact ih.call c now hle

theorem Twins.retains (h : Twins settings store a b t) (hth : settings.thresholds = {}) :
    a.Retains b t := by
  induction h with
  | built t =>
    exact ⟨rfl, Int.le_refl 0, fun _ hg => absurd hg List.not_mem_nil, Groups.retains_nil t⟩
  | wait _ hle ih => exact ih.mono hle
  | call c now hrun hle hhalt ih =>
    have hreach := hrun.reachesBy
    exact (ih.step hreach.inStep (hreach.spaced hth) hle c).saved hhalt

end Monitor

/-- Under the default thresholds, on a clock that never goes back, eviction changes no notice but
for its order: from a built monitor, the run that evicts stale groups and the run that keeps them
give, call by call, the same warnings, each for the same group, and the same errors, up to and
including the first call whose batch of alerts stops on an error. -/
theorem eviction_keeps_notices {settings : Settings} {store : FlagStore} {a b : Monitor} {t : Int}
    (hrun : Monitor.Twins settings store a b t) (hth : settings.thresholds = {}) {now : Int}
    (hle : t ≤ now) (c : Call) :
    (a.step now c).notices.Perm (b.stepWith evaluateRetaining now c).notices := by
  have hreach := hrun.reachesBy
  exact ((hrun.retains hth).step hreach.inStep (hreach.spaced hth) hle c).notices

/-- The monitor after a run of calls, each made at its own time, its evaluations by `E`. -/
def Monitor.runWith (E : Evaluator) (m : Monitor) (calls : List (Int × Call)) : Monitor :=
  calls.foldl (fun m c => (m.stepWith E c.1 c.2).saved) m

/-- A successful completion for the CLI "claude" on the trace `trace`, served by the provider
`provider`, with 300 input tokens and the given cache-read and cache-creation tokens. -/
def claudeCompletion (trace : String) (provider read create : Int) : Call :=
  .ingestCompletion ⟨Text.ofString trace, Text.ofString "claude", some 200, none,
    [⟨.int provider, Text.ofString "p", Text.ofString "success", some 200⟩],
    .int 300, .int read, .int create, .null, .null⟩

/-- Group "x" is seen once and evicted an hour later; the completion that starts it afresh gives
the same notices in the run that kept it. -/
theorem eviction_keeps_notices_on_return :
    ((({ store := .memory (.bool true) } : Monitor).runWith evaluate
        [(1700000040000, .start), (1700000040000, claudeCompletion "x" 1 0 100),
          (1700003700000, .maybeEvaluate)]).step 1700003700000
        (claudeCompletion "x" 1 0 100)).notices.Perm
      ((({ store := .memory (.bool true) } : Monitor).runWith evaluateRetaining
        [(1700000040000, .start), (1700000040000, claudeCompletion "x" 1 0 100),
          (1700003700000, .maybeEvaluate)]).stepWith evaluateRetaining 1700003700000
        (claudeCompletion "x" 1 0 100)).notices :=
  eviction_keeps_notices
    (.call .maybeEvaluate 1700003700000
      (.call (claudeCompletion "x" 1 0 100) 1700000040000
        (.call .start 1700000040000 (.built 1700000040000) (Int.le_refl _) (by decide +kernel))
        (Int.le_refl _) (by decide +kernel))
      (by decide) (by decide +kernel))
    rfl (Int.le_refl _) _

/-- A monitor over a store that holds `true`, under the default thresholds, auditing no group. -/
def unaudited : Monitor := { settings := { audited := 0 }, store := .memory (.bool true) }

/-- A run on a clock that never goes back: group "x" is seen once and evicted an hour later;
group "y" then takes completions whose creation tokens are too many for a binary64, and "x" comes
back with ten completions that create without reading. A minute later both are anomalies. -/
def evictionRun : List (Int × Call) :=
  [(1700000040000, .start), (1700000040000, claudeCompletion "x" 1 0 100),
    (1700003700000, .maybeEvaluate),
    (1700003700000, claudeCompletion "y" 2 1 (Int.pow 10 308))] ++
  List.replicate 9 (1700003700000, claudeCompletion "y" 2 0 (Int.pow 10 308)) ++
  List.replicate 10 (1700003700000, claudeCompletion "x" 1 0 100) ++
  [(1700003760000, claudeCompletion "x" 1 0 100)]

/-- Eviction can change a later warning. The last completion of the run evaluates with "x" and
"y" both anomalies, and the warning of "y" cannot be built. The run that evicts started "x"
afresh after "y", so it marks "y" and stops; the run that keeps "x" marks "x", then "y", and
stops. A minute later the run that evicts warns for "x" and the other gives nothing. -/
theorem eviction_changes_notices_after_alert_error :
    ((evictionRun.map Prod.fst) ++ [1700003820000]).Pairwise (· ≤ ·) ∧
      unaudited.settings.thresholds = {} ∧
      ¬((unaudited.runWith evaluate evictionRun).step 1700003820000 .maybeEvaluate).notices.Perm
        ((unaudited.runWith evaluateRetaining evictionRun).stepWith evaluateRetaining 1700003820000
          .maybeEvaluate).notices := by
  refine ⟨by decide +kernel, rfl, fun hperm => ?_⟩
  have hlength := hperm.length_eq
  revert hlength
  decide +kernel

end CacheHitRate
