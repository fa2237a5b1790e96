import CacheHitRate.Proofs.Monitor.Persistence
import CacheHitRate.Proofs.Monitor.AlertSpacing

/-!
A failed self-check shuts the monitor down. Whichever call runs the failing cycle (an
evaluation, or a completion, handed over or read from a line, once its sample is recorded), the
call ends in one state: the monitor is off with every statistic dropped and the cold start
disarmed, the failure is counted, no alert is prepared, and `false` is queued and saved, so the
store loads `false` whatever kind of store it is.

The error notice is rate limited by the time of the last one, which no reset clears. `NoticeLog`
follows a run on any clock together with the time of the last error notice it gave; along it the
monitor's time is that one, `0` before the first. A cycle runs only a minute after the last, and
the last is never before zero, so the first failure of a run is always notified: a monitor that
never failed is not taken for one that failed at time zero.
-/

namespace CacheHitRate

namespace Notice

/-- Whether a notice reports an error; only a failed self-check gives one. -/
def isError (n : Notice) : Bool := n.level == .error

theorem level_of_alert {key : GroupKey} {name reason : Text} {r : Row} {n : Notice}
    (h : Notice.alert key name r reason = .ok n) : n.level = .warning := by
  simp only [Notice.alert, bind, Except.bind, pure, Except.pure] at h
  split at h
  · cases h
  split at h
  · cases h
  split at h
  · cases h
  split at h
  · cases h
  · cases h
    rfl

end Notice

namespace FlagStore

theorem load_saveOrKeep_false (st : FlagStore) :
    (st.saveOrKeep (.bool false)).load Monitor.startDepth = .ok (.bool false) := by
  cases st with
  | memory v => rfl
  | file text blocked =>
    cases blocked with
    | false =>
      exact @load_of_save (file text false) _ false rfl
    | true => cases text <;> rfl

end FlagStore

namespace Monitor

/-! ### The time of the last error notice -/

/-- The time of the last self-check notice once a call at `now` handed `ns` to the sender. -/
def lastNoticeAfter (last : Option Int) (now : Int) (ns : List Notice) : Option Int :=
  if ns.any Notice.isError then some now else last

theorem level_of_prepareAlert {key : GroupKey} {row : Row} {reason : Reason} {now : Int}
    {m : Monitor} {n : Notice} (h : (runOp (prepareAlert key row reason now) m).1 = .ok (some n)) :
    n.level = .warning := by
  rw [runOp_prepareAlert] at h
  split at h
  · cases h
  · split at h
    · cases h
    · split at h
      · cases h
      · rename_i n' halert
        cases h
        exact Notice.level_of_alert halert

theorem keyedAlerts_not_error (anomalies : List (GroupKey × Row × Reason)) (now : Int)
    (m : Monitor) {alerts : List (GroupKey × Notice)}
    (h : (runOp (keyedAlerts anomalies now) m).1 = .ok alerts) :
    (alerts.map Prod.snd).any Notice.isError = false := by
  induction anomalies generalizing m alerts with
  | nil =>
    cases h
    rfl
  | cons a rest ih =>
    obtain ⟨key, row, reason⟩ := a
    rw [runOp_keyedAlerts_cons] at h
    rcases hp : runOp (prepareAlert key row reason now) m with ⟨r, m₁⟩
    rw [hp] at h
    rcases r with err | _ | n
    · cases h
    · exact ih m₁ h
    · have hn : n.level = .warning := level_of_prepareAlert (by rw [hp])
      rcases hrest : runOp (keyedAlerts rest now) m₁ with ⟨r', m₂⟩
      dsimp only at h
      rw [hrest] at h
      cases r' with
      | error err => cases h
      | ok alerts' =>
        cases h
        simp only [List.map_cons, List.any_cons, ih m₁ (by rw [hrest]), Notice.isError, hn]
        rfl

/-- What a run keeps of its self-check notices: evaluations have run only at times from zero on,
and the monitor's time of the last error notice is the run's, `0` before the first. -/
structure Logged (m : Monitor) (last : Option Int) : Prop where
  lastEval : 0 ≤ m.lastEval
  lastSelfCheckFailure : m.lastSelfCheckFailure = last.getD 0

variable {m : Monitor} {last : Option Int}

theorem Logged.of_eq (h : m.Logged last) {m' : Monitor} (heval : 0 ≤ m'.lastEval)
    (hfail : m'.lastSelfCheckFailure = m.lastSelfCheckFailure) : m'.Logged last :=
  ⟨heval, hfail.trans h.lastSelfCheckFailure⟩

theorem Logged.applyEnabled (h : m.Logged last) (v : Json) (now : Int) :
    (m.applyEnabled v now).Logged last :=
  h.of_eq (Int.le_refl 0) rfl

theorem Logged.failureOutcome (h : m.Logged last) (now : Int) :
    (failureOutcome now m).mon.Logged
      (lastNoticeAfter last now ((failureOutcome now m).notices.map Prod.snd)) := by
  refine ⟨Int.le_refl 0, ?_⟩
  have hmon : (Monitor.failureOutcome now m).mon.lastSelfCheckFailure =
      if now - m.lastSelfCheckFailure ≥ selfCheckCooldownMs then now else m.lastSelfCheckFailure := by
    simp [Monitor.failureOutcome, Monitor.applyEnabled, Monitor.withMetrics]
  have hnotices : ((Monitor.failureOutcome now m).notices.map Prod.snd).any Notice.isError =
      decide (now - m.lastSelfCheckFailure ≥ selfCheckCooldownMs) := by
    by_cases hnotify : now - m.lastSelfCheckFailure ≥ selfCheckCooldownMs <;>
      simp [Monitor.failureOutcome, hnotify, Notice.isError, Notice.selfCheckFailed]
  rw [hmon, lastNoticeAfter, hnotices]
  by_cases hnotify : now - m.lastSelfCheckFailure ≥ selfCheckCooldownMs
  · rw [if_pos hnotify, decide_eq_true hnotify, if_pos rfl]
    rfl
  · rw [if_neg hnotify, decide_eq_false hnotify]
    exact h.lastSelfCheckFailure

theorem Logged.alertOutcome (h : m.Logged last) (anomalies : List (GroupKey × Row × Reason))
    (now : Int) :
    (alertOutcome anomalies now m).mon.Logged
      (lastNoticeAfter last now ((alertOutcome anomalies now m).notices.map Prod.snd)) := by
  have hkeep := (alertOutcome_withoutAlerts anomalies now m).1
  have heval : (Monitor.alertOutcome anomalies now m).mon.lastEval = m.lastEval :=
    (congrArg Monitor.lastEval hkeep :)
  have hfail : (Monitor.alertOutcome anomalies now m).mon.lastSelfCheckFailure =
      m.lastSelfCheckFailure :=
    (congrArg Monitor.lastSelfCheckFailure hkeep :)
  have hquiet : lastNoticeAfter last now
      ((Monitor.alertOutcome anomalies now m).notices.map Prod.snd) = last := by
    unfold Monitor.alertOutcome
    rcases hr : runOp (keyedAlerts anomalies now) m with ⟨r, m'⟩
    cases r with
    | error err => rfl
    | ok alerts =>
      have hwarn := keyedAlerts_not_error anomalies now m (by rw [hr])
      simp only [lastNoticeAfter, List.map_map]
      simp only [Function.comp_def] at hwarn ⊢
      simp [hwarn]
  rw [hquiet]
  exact h.of_eq (heval ▸ h.lastEval) hfail

theorem Logged.cycleWith (h : m.Logged last) (E : Evaluator) (now : Int) :
    (cycleWith E m now).mon.Logged
      (lastNoticeAfter last now ((cycleWith E m now).notices.map Prod.snd)) := by
  unfold Monitor.cycleWith
  by_cases hdue : (!m.isEnabled || decide (now - m.lastEval < evalIntervalMs)) = true
  · simp only [hdue, if_true]
    exact h
  simp only [hdue, Bool.false_eq_true, if_false]
  have hnow : 0 ≤ now := by
    have hlate : ¬ now - m.lastEval < evalIntervalMs := fun hlt => hdue (by simp [hlt])
    have := h.lastEval
    simp only [evalIntervalMs] at hlate
    omega
  rcases E m.settings.thresholds m.settings.audited m.groups now m.enabledAt with ⟨gs, res⟩
  dsimp only
  cases res with
  | error err => exact h.of_eq hnow rfl
  | ok ev =>
    have hm : ({ m with lastEval := now, groups := gs } : Monitor).withMetrics (fun x =>
        { x with evaluations := x.evaluations + 1, trackedGroups := gs.length }) |>.Logged last :=
      h.of_eq hnow rfl
    rcases Option.eq_none_or_eq_some ev.failure with hf | ⟨f, hf⟩
    · simp only [hf]
      exact hm.alertOutcome ev.anomalies now
    · simp only [hf]
      exact hm.failureOutcome now

theorem Logged.completionWith (h : m.Logged last) (E : Evaluator) (e : CompletionEvent)
    (now : Int) :
    (completionWith E m e now).mon.Logged
      (lastNoticeAfter last now ((completionWith E m e now).notices.map Prod.snd)) := by
  unfold Monitor.completionWith
  cases m.isEnabled
  · exact h
  simp only [Bool.not_true, Bool.false_eq_true, if_false]
  cases m.admission e now with
  | dropped r traces => exact h.of_eq h.lastEval rfl
  | failed err traces => exact h.of_eq h.lastEval rfl
  | admitted key name s traces =>
    have hrec : (addSample key name s { m with traces }).Logged last := h.of_eq h.lastEval rfl
    have hc := hrec.cycleWith E now
    dsimp only
    split
    · exact hc.of_eq hc.lastEval rfl
    · exact hc

theorem Logged.stepWith (h : m.Logged last) (E : Evaluator) (now : Int) (c : Call) :
    (m.stepWith E now c).mon.Logged
      (lastNoticeAfter last now ((m.stepWith E now c).notices.map Prod.snd)) := by
  cases c with
  | start =>
    simp only [Monitor.stepWith, Monitor.start]
    cases m.store.load startDepth with
    | error err => exact h
    | ok v => exact h.applyEnabled v now
  | stop => exact h.applyEnabled _ now
  | setEnabled v =>
    simp only [Monitor.stepWith]
    split
    · exact h
    · exact h.applyEnabled _ now
  | ingestStart e =>
    obtain ⟨traces, heq⟩ := ingestStart_eq m e now
    simp only [Monitor.stepWith, heq]
    exact h.of_eq h.lastEval rfl
  | ingestCompletion e => exact h.completionWith E e now
  | line limit t =>
    simp only [Monitor.stepWith]
    split
    · exact h
    · split
      · exact h.of_eq h.lastEval rfl
      · rename_i e _
        obtain ⟨traces, heq⟩ := ingestStart_eq m e now
        simp only [heq]
        exact h.of_eq h.lastEval rfl
      · exact h.completionWith E _ now
  | maybeEvaluate => exact h.cycleWith E now
  | deliver ns timeout ok =>
    obtain ⟨failures, hf⟩ := deliver_eq m ns timeout ok
    simp only [Monitor.stepWith, hf]
    exact h.of_eq h.lastEval rfl
  | storeWritten store => exact h.of_eq h.lastEval rfl

/-- The log after a call, with the notices it hands to the sender. -/
theorem Logged.call (h : m.Logged last) (now : Int) (c : Call) :
    (m.call now c).Logged (lastNoticeAfter last now (m.yielded now c)) := by
  obtain ⟨hsaved, hnotices⟩ := step_saved m now c
  have hstep := h.stepWith evaluate now c
  rw [← hsaved, ← hnotices]
  unfold Outcome.saved
  split
  · exact hstep
  · exact hstep.of_eq hstep.lastEval rfl

/-! ### The failing cycle -/

/-- Whether the evaluation due at `now` reports a failed self-check: the monitor is on, the last
evaluation is a minute old, and the audit finds a group whose ring disagrees with its samples. -/
def failsSelfCheck (m : Monitor) (now : Int) : Bool :=
  m.isEnabled && decide (evalIntervalMs ≤ now - m.lastEval) &&
    match (evaluate m.settings.thresholds m.settings.audited m.groups now m.enabledAt).2 with
    | .ok ev => ev.failure.isSome
    | .error _ => false

/-- The monitor a completion evaluates: the monitor with the completion's sample recorded, when
it is on and admits the completion. -/
def recorded (m : Monitor) (e : CompletionEvent) (now : Int) : Option Monitor :=
  if !m.isEnabled then none else
  match m.admission e now with
  | .admitted key name s traces => some (addSample key name s { m with traces })
  | _ => none

/-- The monitor on which a call at `now` runs an evaluation cycle: the monitor itself for an
evaluation, and the monitor with the sample recorded for a completion, handed over or read from
a line; `none` for a call that runs no cycle. -/
def cycleInput (m : Monitor) (now : Int) : Call → Option Monitor
  | .ingestCompletion e => m.recorded e now
  | .line limit t =>
    if (Text.strip t).isEmpty then none else
    match eventOfLine limit (Text.strip t) with
    | some (.completion e) => m.recorded e now
    | _ => none
  | .maybeEvaluate => some m
  | _ => none

/-- What a call leaves alone up to the end of its cycle's audit: the store, the time of the last
self-check notice, and the self-check and alert counters. -/
structure Keeps (m m' : Monitor) : Prop where
  store : m'.store = m.store
  lastSelfCheckFailure : m'.lastSelfCheckFailure = m.lastSelfCheckFailure
  selfCheckFailures : m'.metrics.selfCheckFailures = m.metrics.selfCheckFailures
  alerts : m'.metrics.alerts = m.metrics.alerts
  alertsSuppressed : m'.metrics.alertsSuppressed = m.metrics.alertsSuppressed

theorem Keeps.trans {m₁ m₂ : Monitor} (h₁ : Keeps m m₁) (h₂ : Keeps m₁ m₂) : Keeps m m₂ :=
  ⟨h₂.store.trans h₁.store, h₂.lastSelfCheckFailure.trans h₁.lastSelfCheckFailure,
    h₂.selfCheckFailures.trans h₁.selfCheckFailures, h₂.alerts.trans h₁.alerts,
    h₂.alertsSuppressed.trans h₁.alertsSuppressed⟩

theorem keeps_cycleInput {now : Int} {c : Call} {m₀ : Monitor}
    (h : m.cycleInput now c = some m₀) : Keeps m m₀ ∧ m₀.lastEval = m.lastEval := by
  have hrec : ∀ {e : CompletionEvent}, m.recorded e now = some m₀ →
      Keeps m m₀ ∧ m₀.lastEval = m.lastEval := by
    intro e hr
    unfold recorded at hr
    split at hr
    · cases hr
    · split at hr
      · cases hr
        exact ⟨⟨rfl, rfl, rfl, rfl, rfl⟩, rfl⟩
      · cases hr
  cases c with
  | ingestCompletion e => exact hrec h
  | line limit t =>
    simp only [cycleInput] at h
    split at h
    · cases h
    · split at h
      · exact hrec h
      · cases h
  | maybeEvaluate =>
    cases h
    exact ⟨⟨rfl, rfl, rfl, rfl, rfl⟩, rfl⟩
  | _ => cases h

theorem completionWith_of_recorded {E : Evaluator} {e : CompletionEvent} {now : Int}
    {m₀ : Monitor} (h : m.recorded e now = some m₀) (hhalt : (cycleWith E m₀ now).halt = none) :
    completionWith E m e now = cycleWith E m₀ now := by
  unfold recorded at h
  unfold completionWith
  split at h
  · cases h
  · rename_i hon
    simp only [hon]
    split at h
    · rename_i key name s traces hadm
      cases h
      simp only [hadm, hhalt, Option.isSome_none, Bool.false_eq_true, if_false]
    · cases h

theorem step_of_cycleInput {now : Int} {c : Call} {m₀ : Monitor}
    (h : m.cycleInput now c = some m₀) (hhalt : (cycleWith evaluate m₀ now).halt = none) :
    m.step now c = cycleWith evaluate m₀ now := by
  cases c with
  | ingestCompletion e => exact completionWith_of_recorded h hhalt
  | line limit t =>
    simp only [cycleInput] at h
    simp only [step, stepWith]
    split at h
    · cases h
    · rename_i hblank
      simp only [hblank, Bool.false_eq_true, if_false]
      split at h
      · rename_i e hev
        simp only [hev]
        exact completionWith_of_recorded h hhalt
      · cases h
  | maybeEvaluate =>
    cases h
    rfl
  | _ => cases h

theorem cycleWith_of_failsSelfCheck {now : Int} (h : m.failsSelfCheck now = true) :
    ∃ m', Keeps m m' ∧ cycleWith evaluate m now = failureOutcome now m' := by
  unfold failsSelfCheck at h
  simp only [Bool.and_eq_true, decide_eq_true_eq] at h
  obtain ⟨⟨hon, hdue⟩, hfail⟩ := h
  unfold cycleWith
  have hgo : (!m.isEnabled || decide (now - m.lastEval < evalIntervalMs)) = false := by
    simp only [hon, Bool.not_true, Bool.false_or, decide_eq_false_iff_not, Int.not_lt]
    exact hdue
  simp only [hgo, Bool.false_eq_true, if_false]
  revert hfail
  rcases evaluate m.settings.thresholds m.settings.audited m.groups now m.enabledAt with ⟨gs, res⟩
  intro hfail
  dsimp only at hfail ⊢
  cases res with
  | error err => cases hfail
  | ok ev =>
    obtain ⟨f, hf⟩ := Option.isSome_iff_exists.1 hfail
    simp only [hf]
    refine ⟨_, ?_, rfl⟩
    exact ⟨rfl, rfl, rfl, rfl, rfl⟩

theorem failureOutcome_saved (now : Int) (m : Monitor) :
    (failureOutcome now m).saved =
      { m with enabled := .bool false, enabledAt := 0, groups := [], traces := {}, lastEval := 0
               lastSelfCheckFailure := if now - m.lastSelfCheckFailure ≥ selfCheckCooldownMs
                 then now else m.lastSelfCheckFailure
               store := m.store.saveOrKeep (.bool false)
               metrics := { m.metrics with selfCheckFailures := m.metrics.selfCheckFailures + 1
                                           enabled := 0, trackedGroups := 0 } } := by
  by_cases hnotify : now - m.lastSelfCheckFailure ≥ selfCheckCooldownMs <;>
    simp [failureOutcome, Outcome.saved, applyEnabled, persist, withMetrics, Json.truthy, hnotify]

theorem failureOutcome_notices (now : Int) (m : Monitor) :
    (failureOutcome now m).notices.map Prod.snd =
      if now - m.lastSelfCheckFailure ≥ selfCheckCooldownMs then [Notice.selfCheckFailed] else [] := by
  by_cases hnotify : now - m.lastSelfCheckFailure ≥ selfCheckCooldownMs <;>
    simp [failureOutcome, hnotify]

end Monitor

/-- The states a monitor built with `settings` over `store` reaches on any clock, each with the
time of the last self-check error notice its run handed to the sender, `none` before the first. -/
inductive NoticeLog (settings : Settings) (store : FlagStore) : Monitor → Option Int → Prop
  | built : NoticeLog settings store { settings, store } none
  | call {m : Monitor} {last : Option Int} (c : Call) (now : Int) :
      NoticeLog settings store m last →
      NoticeLog settings store (m.call now c) (Monitor.lastNoticeAfter last now (m.yielded now c))

theorem NoticeLog.logged {settings : Settings} {store : FlagStore} {m : Monitor}
    {last : Option Int} (h : NoticeLog settings store m last) : m.Logged last := by
  induction h with
  | built => exact ⟨Int.le_refl 0, rfl⟩
  | call c now _ ih => exact ih.call now c

theorem NoticeLog.quiet {settings : Settings} {store : FlagStore} {m : Monitor}
    {last : Option Int} (h : NoticeLog settings store m last) (c : Call) (now : Int)
    (hq : (m.yielded now c).any Notice.isError = false) :
    NoticeLog settings store (m.call now c) last := by
  have hstep := h.call c now
  rw [Monitor.lastNoticeAfter, hq] at hstep
  exact hstep


/-- A failed self-check shuts the monitor down. Take any state that a run reaches on any clock,
with the time of the last self-check error notice the run gave, and a call at `now` whose cycle
(an evaluation, or the evaluation after a recorded completion) reports a failed self-check. After
the call the monitor is off, holds no group and no trace model, has no cold start and no
evaluation time, has counted the failure and prepared no alert, and has queued and saved `false`,
so a start loads `false`. The call gives the error notice and nothing else when no error notice
was given before or the last one is at least the cooldown old, and nothing otherwise; the
monitor's notice time is the run's, kept across every reset, and moves to `now` with a notice. -/
theorem selfCheck_failure_shuts_down {settings : Settings} {store : FlagStore} {m m₀ : Monitor}
    {last : Option Int} (hlog : NoticeLog settings store m last) {now : Int} {c : Call}
    (hin : m.cycleInput now c = some m₀) (hfail : m₀.failsSelfCheck now = true) :
    (m.call now c).enabled = .bool false ∧ (m.call now c).groups = [] ∧
    (m.call now c).traces = {} ∧ (m.call now c).enabledAt = 0 ∧ (m.call now c).lastEval = 0 ∧
    (m.call now c).metrics.selfCheckFailures = m.metrics.selfCheckFailures + 1 ∧
    (m.call now c).metrics.alerts = m.metrics.alerts ∧
    (m.call now c).metrics.alertsSuppressed = m.metrics.alertsSuppressed ∧
    (m.step now c).queued = some false ∧
    (m.call now c).store = m.store.saveOrKeep (.bool false) ∧
    (m.call now c).store.load Monitor.startDepth = .ok (.bool false) ∧
    m.lastSelfCheckFailure = last.getD 0 ∧
    ((m.yielded now c = [Notice.selfCheckFailed] ∧ (m.call now c).lastSelfCheckFailure = now ∧
        ∀ t, last = some t → Monitor.selfCheckCooldownMs ≤ now - t) ∨
      (m.yielded now c = [] ∧ (m.call now c).lastSelfCheckFailure = m.lastSelfCheckFailure ∧
        ∃ t, last = some t ∧ now - t < Monitor.selfCheckCooldownMs)) := by
  have hlogged := hlog.logged
  obtain ⟨hkeep₀, heval₀⟩ := Monitor.keeps_cycleInput hin
  obtain ⟨m', hkeep', hcycle⟩ := Monitor.cycleWith_of_failsSelfCheck hfail
  have hkeep := hkeep₀.trans hkeep'
  have hstep : m.step now c = Monitor.failureOutcome now m' :=
    (Monitor.step_of_cycleInput hin (by rw [hcycle]; rfl)).trans hcycle
  obtain ⟨hsaved, hnotices⟩ := Monitor.step_saved m now c
  rw [hstep, Monitor.failureOutcome_saved] at hsaved
  rw [hstep, Monitor.failureOutcome_notices] at hnotices
  have hnow : Monitor.evalIntervalMs ≤ now := by
    have hdue : Monitor.evalIntervalMs ≤ now - m₀.lastEval := by
      simp only [Monitor.failsSelfCheck, Bool.and_eq_true, decide_eq_true_eq] at hfail
      exact hfail.1.2
    have := hlogged.lastEval
    omega
  have hlast : m'.lastSelfCheckFailure = last.getD 0 :=
    hkeep.lastSelfCheckFailure.trans hlogged.lastSelfCheckFailure
  rw [← hsaved, ← hnotices]
  refine ⟨rfl, rfl, rfl, rfl, rfl, by rw [hkeep.selfCheckFailures], hkeep.alerts,
    hkeep.alertsSuppressed, by rw [hstep]; rfl, by rw [hkeep.store],
    FlagStore.load_saveOrKeep_false _, hlogged.lastSelfCheckFailure, ?_⟩
  by_cases hnotify : now - m'.lastSelfCheckFailure ≥ Monitor.selfCheckCooldownMs
  · refine Or.inl ⟨if_pos hnotify, if_pos hnotify, fun t ht => ?_⟩
    rw [hlast, ht, Option.getD_some] at hnotify
    exact hnotify
  · refine Or.inr ⟨if_neg hnotify, (if_neg hnotify).trans hkeep.lastSelfCheckFailure, ?_⟩
    rw [hlast] at hnotify
    cases last with
    | none =>
      simp only [Option.getD_none, Int.sub_zero] at hnotify
      simp only [Monitor.evalIntervalMs] at hnow
      simp only [Monitor.selfCheckCooldownMs] at hnotify
      omega
    | some t => exact ⟨t, rfl, Int.lt_of_not_ge hnotify⟩


/-- A completion from Claude of request `trace`, served by provider 1, of 100 input tokens. -/
def claudeServed (trace : String) : CompletionEvent :=
  ⟨Text.ofString trace, Text.ofString "claude", some 200, none,
    [⟨.int 1, Text.ofString "p", Text.ofString "success", some 200⟩], .int 100, .null, .null, .null,
    .null⟩

/-- A monitor started at minute 100 over a store that holds `true`, which records a completion
at minute 100 and then, the clock stepped back, one at minute 40 and one at minute 99. The ring
slot of minutes 40 and 100 holds minute 40, while the buffer still has the sample of minute 100. -/
def steppedBack : Monitor :=
  ({ store := .memory (.bool true) } : Monitor).run
    [(6000000, .start), (6000000, .ingestCompletion (claudeServed "a")),
      (2400000, .ingestCompletion (claudeServed "b")),
      (5940000, .ingestCompletion (claudeServed "c"))]

theorem noticeLog_steppedBack : NoticeLog {} (.memory (.bool true)) steppedBack none :=
  ((((NoticeLog.built.quiet .start 6000000 (by decide)).quiet
    (.ingestCompletion (claudeServed "a")) 6000000 (by decide +kernel)).quiet
    (.ingestCompletion (claudeServed "b")) 2400000 (by decide +kernel)).quiet
    (.ingestCompletion (claudeServed "c")) 5940000 (by decide +kernel))

/-- The evaluation a minute after the first finds the lost sample, and shuts the monitor down
with the error notice. -/
theorem selfCheck_failure_after_clock_step :
    steppedBack.failsSelfCheck 6060000 = true ∧
    (steppedBack.call 6060000 .maybeEvaluate).enabled = .bool false ∧
    (steppedBack.call 6060000 .maybeEvaluate).groups = [] ∧
    (steppedBack.call 6060000 .maybeEvaluate).traces = {} ∧
    (steppedBack.call 6060000 .maybeEvaluate).enabledAt = 0 ∧
    (steppedBack.call 6060000 .maybeEvaluate).lastEval = 0 ∧
    (steppedBack.call 6060000 .maybeEvaluate).metrics.selfCheckFailures =
      steppedBack.metrics.selfCheckFailures + 1 ∧
    (steppedBack.call 6060000 .maybeEvaluate).metrics.alerts = steppedBack.metrics.alerts ∧
    (steppedBack.call 6060000 .maybeEvaluate).metrics.alertsSuppressed =
      steppedBack.metrics.alertsSuppressed ∧
    (steppedBack.step 6060000 .maybeEvaluate).queued = some false ∧
    (steppedBack.call 6060000 .maybeEvaluate).store = steppedBack.store.saveOrKeep (.bool false) ∧
    (steppedBack.call 6060000 .maybeEvaluate).store.load Monitor.startDepth = .ok (.bool false) ∧
    steppedBack.lastSelfCheckFailure = (none : Option Int).getD 0 ∧
    ((steppedBack.yielded 6060000 .maybeEvaluate = [Notice.selfCheckFailed] ∧
        (steppedBack.call 6060000 .maybeEvaluate).lastSelfCheckFailure = 6060000 ∧
        ∀ t, (none : Option Int) = some t → Monitor.selfCheckCooldownMs ≤ 6060000 - t) ∨
      (steppedBack.yielded 6060000 .maybeEvaluate = [] ∧
        (steppedBack.call 6060000 .maybeEvaluate).lastSelfCheckFailure =
          steppedBack.lastSelfCheckFailure ∧
        ∃ t, (none : Option Int) = some t ∧ 6060000 - t < Monitor.selfCheckCooldownMs)) :=
  ⟨by decide +kernel,
    selfCheck_failure_shuts_down noticeLog_steppedBack rfl (by decide +kernel)⟩

end CacheHitRate
