import CacheHitRate.Monitor

/-!
Monitor operations as state transformers. Running a sequence of operations runs its parts in
turn, so each operation gets one equation that says what it does. A completion is dropped,
stopped by an arithmetic error, or admitted as the sample of one group and then evaluated; where
it stands before the evaluation is `Monitor.admission`, a plain function of the state and the event.
An evaluation runs only when the monitor is on and a minute has passed; it evicts and audits,
then either switches the monitor off or prepares alerts, and an alert touches nothing but its
group's alert time and the alert counters.
-/

namespace CacheHitRate

namespace Monitor

section Run

variable {α β : Type}

theorem runOp_bind (x : Op α) (f : α → Op β) (m : Monitor) :
    runOp (x >>= f) m =
      match runOp x m with
      | (.ok a, m') => runOp (f a) m'
      | (.error e, m') => (.error e, m') := by
  simp only [runOp, ExceptT.run_bind, StateT.run_bind]
  rcases (x.run).run m with ⟨r, m'⟩
  cases r <;> rfl

theorem runOp_map (f : α → β) (x : Op α) (m : Monitor) :
    runOp (f <$> x) m =
      match runOp x m with
      | (.ok a, m') => (.ok (f a), m')
      | (.error e, m') => (.error e, m') := by
  simp only [runOp, ExceptT.run_map, StateT.run_map]
  rcases (x.run).run m with ⟨r, m'⟩
  cases r <;> rfl

@[simp] theorem runOp_get (m : Monitor) : runOp (get : Op Monitor) m = (.ok m, m) := rfl

@[simp] theorem runOp_set (m m' : Monitor) : runOp (set m' : Op PUnit) m = (.ok ⟨⟩, m') := rfl

@[simp] theorem runOp_modify (f : Monitor → Monitor) (m : Monitor) :
    runOp (modify f : Op PUnit) m = (.ok ⟨⟩, f m) := rfl

@[simp] theorem runOp_pure (a : α) (m : Monitor) : runOp (pure a : Op α) m = (.ok a, m) := rfl

@[simp] theorem runOp_check (x : Except ArithError α) (m : Monitor) :
    runOp (Op.check x) m = (x, m) := by
  cases x <;> rfl

end Run

/-- Where a completion stands before its evaluation, with the trace models as it left them. -/
inductive Admission where
  /-- Dropped for a reason. -/
  | dropped (r : DropReason) (traces : TraceModels)
  /-- Stopped by an arithmetic error while reading the provider id or the token counts. -/
  | failed (err : ArithError) (traces : TraceModels)
  /-- The sample `s` of the group `key`, served by the provider named `providerName`. -/
  | admitted (key : GroupKey) (providerName : Text) (s : Sample) (traces : TraceModels)

/-- The trace models as an admission leaves them. -/
def Admission.traces : Admission → TraceModels
  | .dropped _ traces | .failed _ traces | .admitted _ _ _ traces => traces

/-- The checks a completion passes through on a monitor that is on. The trace models lose their
expired entries once the request is known to have succeeded, and the completion's own entry once
its provider is known. -/
def admission (m : Monitor) (e : CompletionEvent) (now : Int) : Admission :=
  if e.traceId.isEmpty then .dropped .missingTraceId m.traces
  else if !m.settings.supportedClis.contains e.cliKey then .dropped .unsupportedCli m.traces
  else if !e.isSuccess then .dropped .notSuccess m.traces
  else
    let live := (m.traces.evictBefore (now - traceModelTtlMs)).2
    match finalAttempt e.attempts with
    | none => .dropped .noAttempt live
    | some attempt =>
      match Normalize.providerId? attempt.providerId with
      | .error err => .failed err live
      | .ok none => .dropped .invalidProvider live
      | .ok (some pid) =>
        let (model, rest) := live.take e.traceId
        match e.sample? m.settings.policy now with
        | .error err => .failed err rest
        | .ok none => .dropped .zeroDenominator rest
        | .ok (some s) =>
          .admitted ⟨e.cliKey, pid, model.getD Normalize.unknown⟩
            (Normalize.nameOr attempt.providerName) s rest

theorem admission_admitted {m : Monitor} {e : CompletionEvent} {now : Int} {key : GroupKey}
    {name : Text} {s : Sample} {traces : TraceModels}
    (h : m.admission e now = .admitted key name s traces) :
    m.settings.supportedClis.contains e.cliKey = true ∧
    e.sample? m.settings.policy now = .ok (some s) ∧
    ∃ a pid, finalAttempt e.attempts = some a ∧ Normalize.providerId? a.providerId = .ok (some pid) ∧
      key = ⟨e.cliKey, pid, ((m.traces.evictBefore (now - traceModelTtlMs)).2.take
        e.traceId).1.getD Normalize.unknown⟩ ∧
      traces = ((m.traces.evictBefore (now - traceModelTtlMs)).2.take e.traceId).2 := by
  unfold admission at h
  repeat' split at h
  all_goals (try cases h)
  exact ⟨by simpa using ‹¬(!m.settings.supportedClis.contains e.cliKey) = true›, by assumption,
    _, _, by assumption, by assumption, rfl, rfl⟩

def countDrop (r : DropReason) (m : Monitor) : Monitor :=
  m.withMetrics fun x => { x with dropped := x.dropped.bump (Text.ofString r.text) }

/-- A completion on a monitor that is on either stops where `admission` leaves it, or records its
sample and evaluates. -/
theorem runOp_ingestCompletion (m : Monitor) (e : CompletionEvent) (now : Int) :
    runOp (ingestCompletion e now) m =
      if !m.isEnabled then (.ok [], m) else
      match m.admission e now with
      | .dropped r traces => (.ok [], countDrop r { m with traces })
      | .failed err traces => (.error err, { m with traces })
      | .admitted key name s traces =>
        runOp (evaluateDue now) (addSample key name s { m with traces }) := by
  unfold ingestCompletion admission
  simp only [runOp_bind, runOp_get]
  cases hen : m.isEnabled
  · simp
  simp only [Bool.not_true, Bool.false_eq_true, if_false]
  cases e.traceId.isEmpty
  case true => rfl
  cases m.settings.supportedClis.contains e.cliKey
  case false => rfl
  cases e.isSuccess
  case false => rfl
  simp only [Bool.not_true, Bool.false_eq_true, if_false, runOp_bind, runOp_modify]
  cases finalAttempt e.attempts with
  | none => rfl
  | some a =>
    simp only [runOp_bind, runOp_check]
    cases Normalize.providerId? a.providerId with
    | error err => rfl
    | ok pid =>
      cases pid with
      | none => rfl
      | some pid =>
        simp only [runOp_bind, runOp_get, runOp_set, runOp_check]
        cases e.sample? m.settings.policy now with
        | error err => rfl
        | ok s =>
          cases s with
          | none => rfl
          | some s => simp only [runOp_bind, runOp_modify]

/-- An evaluation runs when the monitor is on and the last one is a minute old. The evicted and
pruned groups stand even when the rules then stop on an arithmetic error; a failed self-check
switches the monitor off, and otherwise each anomaly is offered as an alert. -/
theorem runOp_evaluateDue (m : Monitor) (now : Int) :
    runOp (evaluateDue now) m =
      if !m.isEnabled || now - m.lastEval < evalIntervalMs then (.ok [], m) else
      let gs := (evaluate m.settings.thresholds m.settings.audited m.groups now m.enabledAt).1
      match (evaluate m.settings.thresholds m.settings.audited m.groups now m.enabledAt).2 with
      | .error err => (.error err, { m with lastEval := now, groups := gs })
      | .ok ev =>
        let m' := { m with lastEval := now, groups := gs }.withMetrics fun x =>
          { x with evaluations := x.evaluations + 1, trackedGroups := gs.length }
        match ev.failure with
        | some _ => runOp (disableAfterFailure now) m'
        | none => runOp (ev.anomalies.filterMapM fun (key, row, reason) =>
            prepareAlert key row reason now) m' := by
  unfold evaluateDue
  simp only [runOp_bind, runOp_get]
  cases hdue : (!m.isEnabled || decide (now - m.lastEval < evalIntervalMs))
  · simp only [Bool.false_eq_true, if_false, runOp_bind, runOp_set, runOp_check]
    cases (evaluate m.settings.thresholds m.settings.audited m.groups now m.enabledAt).2 with
    | error err => rfl
    | ok ev =>
      simp only [runOp_modify]
      cases ev.failure <;> rfl
  · simp

theorem runOp_disableAfterFailure (now : Int) (m : Monitor) :
    runOp (disableAfterFailure now) m =
      let notify := decide (now - m.lastSelfCheckFailure ≥ selfCheckCooldownMs)
      (.ok (if notify then [Notice.selfCheckFailed] else []),
        (({ m with lastSelfCheckFailure := if notify then now else m.lastSelfCheckFailure }.withMetrics
          fun x => { x with selfCheckFailures := x.selfCheckFailures + 1 }).applyEnabled
            (.bool false) now).persist false) := by
  unfold disableAfterFailure
  by_cases h : now - m.lastSelfCheckFailure ≥ selfCheckCooldownMs <;>
    simp [runOp_bind, runOp_map, h, withMetrics]

/-- The monitor with the groups' alert times and the alert counters cleared: all that an alert
leaves alone. -/
def withoutAlerts (m : Monitor) : Monitor :=
  { m with groups := m.groups.map fun g => { g with lastAlertAt := none }
           metrics := { m.metrics with alerts := [], alertsSuppressed := 0 } }

theorem withoutAlerts_prepareAlert (key : GroupKey) (row : Row) (reason : Reason) (now : Int)
    (m : Monitor) :
    (runOp (prepareAlert key row reason now) m).2.withoutAlerts = m.withoutAlerts := by
  have hmark : (m.groups.modify key fun g => { g with lastAlertAt := some now }).map
      (fun g => { g with lastAlertAt := none }) = m.groups.map fun g => { g with lastAlertAt := none } := by
    simp only [Groups.modify, List.map_map]
    apply List.map_congr_left
    intro g _
    by_cases hg : g.key = key <;> simp [hg]
  unfold prepareAlert
  simp only [runOp_bind, runOp_get]
  cases m.groups.find? key with
  | none => rfl
  | some g =>
    by_cases hdup : now - g.lastAlertAt.getD 0 < alertDedupMs
    · simp only [hdup, if_true, runOp_bind, runOp_modify]
      rfl
    · simp only [hdup, if_false, runOp_bind, runOp_modify, runOp_check]
      cases Notice.alert key g.providerName row (Text.ofString reason.text) with
      | error err => simp [withoutAlerts, hmark]
      | ok notice => simp [withoutAlerts, withMetrics, hmark]

theorem withoutAlerts_filterMapM {γ : Type} (f : γ → Op (Option Notice))
    (hf : ∀ x m, (runOp (f x) m).2.withoutAlerts = m.withoutAlerts) (xs : List γ) (m : Monitor) :
    (runOp (xs.filterMapM f) m).2.withoutAlerts = m.withoutAlerts := by
  induction xs generalizing m with
  | nil => rfl
  | cons x xs ih =>
    rw [List.filterMapM_cons, runOp_bind]
    rcases hx : runOp (f x) m with ⟨r, m'⟩
    have hm' : m'.withoutAlerts = m.withoutAlerts := by rw [← hf x m, hx]
    cases r with
    | error err => exact hm'
    | ok b =>
      cases b with
      | none => exact (ih m').trans hm'
      | some b =>
        simp only [runOp_bind, runOp_pure]
        rcases hrest : runOp (xs.filterMapM f) m' with ⟨r', m''⟩
        have hm'' : m''.withoutAlerts = m.withoutAlerts := by rw [← hm', ← ih m', hrest]
        cases r' <;> exact hm''

theorem withoutAlerts_prepareAlerts (anomalies : List (GroupKey × Row × Reason)) (now : Int)
    (m : Monitor) :
    (runOp (anomalies.filterMapM fun (key, row, reason) => prepareAlert key row reason now) m).2.withoutAlerts =
      m.withoutAlerts :=
  withoutAlerts_filterMapM (fun (key, row, reason) => prepareAlert key row reason now)
    (fun x m => by
      obtain ⟨key, row, reason⟩ := x
      exact withoutAlerts_prepareAlert key row reason now m) anomalies m

end Monitor

end CacheHitRate