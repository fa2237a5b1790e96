import CacheHitRate.Proofs.Monitor.Completion

/-!
A call as the monitor makes it under its lock. What a call leaves behind is one `Outcome`: the
monitor before anything is saved, the switch value it queues for the store, the notices it yields
and whether it dropped all statistics; saving the queued value gives `Monitor.call`. Each warning
carries the key of the group it was raised for, and the evaluation of the groups is a parameter,
so the monitor can be set beside one whose evaluation differs.
-/

namespace CacheHitRate

/-- An evaluation of the tracked groups at a time, for a monitor enabled at a time. -/
abbrev Evaluator := Thresholds → Int → Groups → Int → Int → Groups × Except ArithError Evaluation

namespace Monitor

/-- Where an evaluation stopped on an arithmetic error: in the rules or in its alerts. -/
inductive Halt where
  | rules
  | alerts
  deriving DecidableEq, Repr

/-- What a call leaves behind under the monitor's lock. -/
structure Outcome where
  mon : Monitor
  /-- The switch value queued for the store. -/
  queued : Option Bool := none
  notices : List (Option GroupKey × Notice) := []
  reset : Bool := false
  /-- Where an evaluation of the call stopped on an arithmetic error. -/
  halt : Option Halt := none

/-- The monitor once the queued switch value is saved. -/
def Outcome.saved (o : Outcome) : Monitor :=
  match o.queued with
  | none => o.mon
  | some on => o.mon.persist on

/-- The switch a `set_enabled` argument asks for: only `true` is on. -/
def switchOf : Json → Bool
  | .bool true => true
  | _ => false

theorem setEnabled_eq (m : Monitor) (v : Json) (now : Int) :
    m.setEnabled v now =
      if m.enabled.equalsBool (switchOf v) then m
      else (m.applyEnabled (.bool (switchOf v)) now).persist (switchOf v) := rfl

/-- The alerts of a cycle's anomalies, each with the key of its group. -/
def keyedAlerts (anomalies : List (GroupKey × Row × Reason)) (now : Int) :
    Op (List (GroupKey × Notice)) :=
  anomalies.filterMapM fun (key, row, reason) =>
    Option.map (fun n => (key, n)) <$> prepareAlert key row reason now

/-- The outcome of offering a cycle's anomalies as alerts; an arithmetic error stops it and loses
its notices. -/
def alertOutcome (anomalies : List (GroupKey × Row × Reason)) (now : Int) (m : Monitor) : Outcome :=
  match runOp (keyedAlerts anomalies now) m with
  | (.ok alerts, m') => { mon := m', notices := alerts.map fun (k, n) => (some k, n) }
  | (.error _, m') => { mon := m', halt := some .alerts }

/-- The outcome of a failed self-check: it is counted, the error notice is given unless one was
given within the cooldown, and the monitor is switched off with `false` queued for the store. -/
def failureOutcome (now : Int) (m : Monitor) : Outcome :=
  let notify := decide (now - m.lastSelfCheckFailure ≥ selfCheckCooldownMs)
  { mon := ({ m with lastSelfCheckFailure := if notify then now else m.lastSelfCheckFailure }
        |>.withMetrics fun x => { x with selfCheckFailures := x.selfCheckFailures + 1 })
        |>.applyEnabled (.bool false) now
    queued := some false
    notices := if notify then [(none, Notice.selfCheckFailed)] else []
    reset := true }

/-- The evaluation that is due at `now`, by the evaluator `E`. -/
def cycleWith (E : Evaluator) (m : Monitor) (now : Int) : Outcome :=
  if !m.isEnabled || now - m.lastEval < evalIntervalMs then { mon := m } else
  let r := E m.settings.thresholds m.settings.audited m.groups now m.enabledAt
  let m₁ : Monitor := { m with lastEval := now, groups := r.1 }
  match r.2 with
  | .error _ => { mon := m₁, halt := some .rules }
  | .ok ev =>
    let m₂ := m₁.withMetrics fun x =>
      { x with evaluations := x.evaluations + 1, trackedGroups := r.1.length }
    match ev.failure with
    | some _ => failureOutcome now m₂
    | none => alertOutcome ev.anomalies now m₂

/-- A completion, its evaluation by `E`; an evaluation stopped by an error counts an ingest
error. -/
def completionWith (E : Evaluator) (m : Monitor) (e : CompletionEvent) (now : Int) : Outcome :=
  if !m.isEnabled then { mon := m } else
  match m.admission e now with
  | .dropped r traces => { mon := countDrop r { m with traces } }
  | .failed _ traces => { mon := countIngestError { m with traces } }
  | .admitted key name s traces =>
    let o := cycleWith E (addSample key name s { m with traces }) now
    if o.halt.isSome then { o with mon := countIngestError o.mon } else o

/-- One call at time `now` under the monitor's lock, its evaluations by `E`. -/
def stepWith (E : Evaluator) (m : Monitor) (now : Int) : Call → Outcome
  | .start =>
    match m.start now with
    | .ok m' => { mon := m', reset := true }
    | .error _ => { mon := m }
  | .stop => { mon := m.stop now, reset := true }
  | .setEnabled v =>
    if m.enabled.equalsBool (switchOf v) then { mon := m }
    else { mon := m.applyEnabled (.bool (switchOf v)) now, queued := some (switchOf v), reset := true }
  | .ingestStart e => { mon := m.ingestStart e now }
  | .ingestCompletion e => completionWith E m e now
  | .line limit t =>
    if (Text.strip t).isEmpty then { mon := m } else
    match eventOfLine limit (Text.strip t) with
    | none => { mon := m.withMetrics fun x =>
        { x with ingestErrors := x.ingestErrors.bump (Text.ofString "parse") } }
    | some (.start e) => { mon := m.ingestStart e now }
    | some (.completion e) => completionWith E m e now
  | .maybeEvaluate => cycleWith E m now
  | .deliver ns timeout ok => { mon := (m.deliver ns timeout ok).1 }
  | .storeWritten store => { mon := { m with store } }

def step (m : Monitor) (now : Int) (c : Call) : Outcome := m.stepWith evaluate now c

/-- The notices a call hands to the sender. -/
def yielded (m : Monitor) (now : Int) : Call → List Notice
  | .ingestCompletion e => (m.completion e now).2
  | .line limit t => (m.handleLineWithin limit t now).2.2
  | .maybeEvaluate =>
    match (m.maybeEvaluate now).2 with
    | .ok ns => ns
    | .error _ => []
  | _ => []

theorem runOp_filterMapM_tagged {α β κ : Type} (f : α → Op (Option β)) (k : α → κ)
    (xs : List α) (m : Monitor) :
    (fun p => (p.1.map (List.map Prod.snd), p.2))
        (runOp (xs.filterMapM fun x => Option.map (fun b => (k x, b)) <$> f x) m) =
      runOp (xs.filterMapM f) m := by
  induction xs generalizing m with
  | nil => rfl
  | cons x xs ih =>
    simp only [List.filterMapM_cons, runOp_bind, runOp_map]
    rcases runOp (f x) m with ⟨r, m'⟩
    cases r with
    | error err => rfl
    | ok b =>
      cases b with
      | none => exact ih m'
      | some b =>
        simp only [Option.map_some, runOp_bind, runOp_pure]
        have hrest := ih m'
        revert hrest
        rcases runOp (xs.filterMapM fun x => Option.map (fun b => (k x, b)) <$> f x) m' with
          ⟨r', m''⟩
        intro hrest
        rw [← hrest]
        cases r' <;> rfl

theorem runOp_keyedAlerts (anomalies : List (GroupKey × Row × Reason)) (now : Int) (m : Monitor) :
    runOp (anomalies.filterMapM fun (key, row, reason) => prepareAlert key row reason now) m =
      ((runOp (keyedAlerts anomalies now) m).1.map (List.map Prod.snd),
        (runOp (keyedAlerts anomalies now) m).2) :=
  (runOp_filterMapM_tagged (fun (x : GroupKey × Row × Reason) => prepareAlert x.1 x.2.1 x.2.2 now)
    Prod.fst anomalies m).symm

theorem runOp_evaluateDue_cycle (m : Monitor) (now : Int) :
    (runOp (evaluateDue now) m).2 = (cycleWith evaluate m now).saved ∧
      (runOp (evaluateDue now) m).1.toOption =
        if (cycleWith evaluate m now).halt.isSome then none
        else some ((cycleWith evaluate m now).notices.map Prod.snd) := by
  rw [runOp_evaluateDue]
  unfold cycleWith
  split
  · exact ⟨rfl, rfl⟩
  rcases hE : evaluate m.settings.thresholds m.settings.audited m.groups now m.enabledAt with
    ⟨gs, res⟩
  simp only
  cases res with
  | error err => exact ⟨rfl, rfl⟩
  | ok ev =>
    dsimp only
    rcases Option.eq_none_or_eq_some ev.failure with hf | ⟨f, hf⟩
    · simp only [hf, alertOutcome]
      rw [runOp_keyedAlerts]
      rcases runOp (keyedAlerts ev.anomalies now) _ with ⟨r, m₃⟩
      cases r with
      | error err => exact ⟨rfl, rfl⟩
      | ok alerts =>
        exact ⟨rfl, by simp [Except.map, Except.toOption, List.map_map, Function.comp_def]⟩
    · simp only [hf, failureOutcome]
      rw [runOp_disableAfterFailure]
      refine ⟨rfl, ?_⟩
      simp only [Option.isSome_none, Bool.false_eq_true, if_false]
      split <;> rfl

theorem alertOutcome_halt {anomalies : List (GroupKey × Row × Reason)} {now : Int} {m : Monitor}
    (h : (alertOutcome anomalies now m).halt.isSome) :
    (alertOutcome anomalies now m).queued = none ∧ (alertOutcome anomalies now m).notices = [] := by
  unfold alertOutcome at h ⊢
  split
  · rename_i alerts m' hr
    simp [hr] at h
  · exact ⟨rfl, rfl⟩

theorem cycleWith_halt {E : Evaluator} {m : Monitor} {now : Int}
    (h : (cycleWith E m now).halt.isSome) :
    (cycleWith E m now).queued = none ∧ (cycleWith E m now).notices = [] := by
  unfold cycleWith at h ⊢
  by_cases hdue : (!m.isEnabled || decide (now - m.lastEval < evalIntervalMs)) = true
  · simp [hdue] at h
  simp only [hdue, Bool.false_eq_true, if_false] at h ⊢
  rcases hE : E m.settings.thresholds m.settings.audited m.groups now m.enabledAt with ⟨gs, res⟩
  simp only [hE] at h ⊢
  cases res with
  | error err => exact ⟨rfl, rfl⟩
  | ok ev =>
    rcases Option.eq_none_or_eq_some ev.failure with hf | ⟨f, hf⟩
    · simp only [hf] at h ⊢
      exact alertOutcome_halt h
    · simp [hf, failureOutcome] at h

theorem completionWith_saved (m : Monitor) (e : CompletionEvent) (now : Int) :
    (completionWith evaluate m e now).saved = (m.completion e now).1 ∧
      (completionWith evaluate m e now).notices.map Prod.snd = (m.completion e now).2 := by
  rw [completion_eq]
  unfold completionWith
  cases m.isEnabled
  · exact ⟨rfl, rfl⟩
  simp only [Bool.not_true, Bool.false_eq_true, if_false]
  cases m.admission e now with
  | dropped r traces => exact ⟨rfl, rfl⟩
  | failed err traces => exact ⟨rfl, rfl⟩
  | admitted key name s traces =>
    dsimp only
    obtain ⟨hstate, hresult⟩ := runOp_evaluateDue_cycle (addSample key name s { m with traces }) now
    unfold evaluateRecorded
    revert hstate hresult
    rcases runOp (evaluateDue now) (addSample key name s { m with traces }) with ⟨r, m'⟩
    intro hstate hresult
    dsimp only at hstate hresult
    by_cases hhalt : (cycleWith evaluate (addSample key name s { m with traces }) now).halt.isSome
    · obtain ⟨hq, hn⟩ := cycleWith_halt hhalt
      simp only [hhalt, if_true] at hresult ⊢
      cases r with
      | ok ns => cases hresult
      | error err =>
        simp only [Outcome.saved, hq] at hstate ⊢
        exact ⟨by rw [hstate], by simp [hn]⟩
    · simp only [hhalt, Bool.false_eq_true, if_false] at hresult ⊢
      cases r with
      | error err => cases hresult
      | ok ns =>
        simp only [Except.toOption, Option.some.injEq] at hresult
        exact ⟨hstate.symm, hresult.symm⟩

/-- Under the monitor's own evaluation, a call saves what `Monitor.call` saves and yields the
notices the call hands to the sender. -/
theorem step_saved (m : Monitor) (now : Int) (c : Call) :
    (m.step now c).saved = m.call now c ∧ (m.step now c).notices.map Prod.snd = m.yielded now c := by
  cases c with
  | start =>
    simp only [step, stepWith, call]
    cases m.start now <;> exact ⟨rfl, rfl⟩
  | stop => exact ⟨rfl, rfl⟩
  | setEnabled v =>
    simp only [step, stepWith, call, setEnabled_eq]
    by_cases hon : m.enabled.equalsBool (switchOf v) = true
    · simp only [hon, if_true]
      exact ⟨rfl, rfl⟩
    · simp only [hon, Bool.false_eq_true, if_false]
      exact ⟨rfl, rfl⟩
  | ingestStart e => exact ⟨rfl, rfl⟩
  | ingestCompletion e => exact completionWith_saved m e now
  | line limit t =>
    simp only [step, stepWith, call, yielded, handleLineWithin]
    by_cases hblank : (Text.strip t).isEmpty = true
    · simp only [hblank, if_true]
      exact ⟨rfl, rfl⟩
    simp only [hblank, Bool.false_eq_true, if_false]
    cases eventOfLine limit (Text.strip t) with
    | none => exact ⟨rfl, rfl⟩
    | some ev =>
      cases ev with
      | start e => exact ⟨rfl, rfl⟩
      | completion e => exact completionWith_saved m e now
  | maybeEvaluate =>
    obtain ⟨hstate, hresult⟩ := runOp_evaluateDue_cycle m now
    simp only [step, stepWith, call, yielded, maybeEvaluate]
    refine ⟨hstate.symm, ?_⟩
    revert hresult
    rcases runOp (evaluateDue now) m with ⟨r, m'⟩
    intro hresult
    by_cases hhalt : (cycleWith evaluate m now).halt.isSome
    · simp only [hhalt, if_true] at hresult
      cases r with
      | ok ns => cases hresult
      | error err => simp [(cycleWith_halt hhalt).2]
    · simp only [hhalt, Bool.false_eq_true, if_false] at hresult
      cases r with
      | error err => cases hresult
      | ok ns =>
        simp only [Except.toOption, Option.some.injEq] at hresult
        exact hresult.symm
  | deliver ns timeout ok => exact ⟨rfl, rfl⟩
  | storeWritten store => exact ⟨rfl, rfl⟩

/-! ### The switch -/

theorem alertOutcome_withoutAlerts (anomalies : List (GroupKey × Row × Reason)) (now : Int)
    (m : Monitor) :
    (alertOutcome anomalies now m).mon.withoutAlerts = m.withoutAlerts ∧
      (alertOutcome anomalies now m).queued = none := by
  have h := withoutAlerts_prepareAlerts anomalies now m
  rw [runOp_keyedAlerts] at h
  unfold alertOutcome
  rcases hr : runOp (keyedAlerts anomalies now) m with ⟨r, m'⟩
  rw [hr] at h
  cases r <;> exact ⟨h, rfl⟩

theorem alertOutcome_enabled (anomalies : List (GroupKey × Row × Reason)) (now : Int)
    (m : Monitor) :
    (alertOutcome anomalies now m).mon.enabled = m.enabled ∧
      (alertOutcome anomalies now m).queued = none := by
  obtain ⟨h, hq⟩ := alertOutcome_withoutAlerts anomalies now m
  have he := congrArg Monitor.enabled h
  exact ⟨he, hq⟩

theorem cycleWith_enabled (E : Evaluator) (m : Monitor) (now : Int) :
    (cycleWith E m now).mon.enabled = ((cycleWith E m now).queued.map Json.bool).getD m.enabled := by
  unfold cycleWith
  by_cases hdue : (!m.isEnabled || decide (now - m.lastEval < evalIntervalMs)) = true
  · simp only [hdue, if_true]
    rfl
  simp only [hdue, Bool.false_eq_true, if_false]
  rcases hE : E m.settings.thresholds m.settings.audited m.groups now m.enabledAt with ⟨gs, res⟩
  simp only
  cases res with
  | error err => rfl
  | ok ev =>
    rcases Option.eq_none_or_eq_some ev.failure with hf | ⟨f, hf⟩
    · simp only [hf]
      obtain ⟨he, hq⟩ := alertOutcome_enabled ev.anomalies now
        (({ m with lastEval := now, groups := gs } : Monitor).withMetrics fun x =>
          { x with evaluations := x.evaluations + 1, trackedGroups := gs.length })
      rw [hq]
      exact he
    · simp only [hf]
      rfl

theorem completionWith_enabled (E : Evaluator) (m : Monitor) (e : CompletionEvent) (now : Int) :
    (completionWith E m e now).mon.enabled =
      ((completionWith E m e now).queued.map Json.bool).getD m.enabled := by
  unfold completionWith
  cases m.isEnabled
  · rfl
  simp only [Bool.not_true, Bool.false_eq_true, if_false]
  cases m.admission e now with
  | dropped r traces => rfl
  | failed err traces => rfl
  | admitted key name s traces =>
    have h := cycleWith_enabled E (addSample key name s { m with traces }) now
    dsimp only
    split
    · rename_i hhalt
      have hq := (cycleWith_halt hhalt).1
      simp only [hq, Option.map_none, Option.getD_none] at h ⊢
      exact h
    · exact h

theorem stepWith_enabled (E : Evaluator) (m : Monitor) (now : Int) {c : Call} (hstart : c ≠ .start)
    (hstop : c ≠ .stop) :
    (m.stepWith E now c).mon.enabled = ((m.stepWith E now c).queued.map Json.bool).getD m.enabled := by
  cases c with
  | start => exact absurd rfl hstart
  | stop => exact absurd rfl hstop
  | setEnabled v =>
    simp only [stepWith]
    split <;> rfl
  | ingestStart e =>
    obtain ⟨traces, heq⟩ := ingestStart_eq m e now
    simp only [stepWith, heq]
    rfl
  | ingestCompletion e => exact completionWith_enabled E m e now
  | line limit t =>
    simp only [stepWith]
    split
    · rfl
    · split
      · rfl
      · rename_i e _
        obtain ⟨traces, heq⟩ := ingestStart_eq m e now
        simp only [heq]
        rfl
      · exact completionWith_enabled E m _ now
  | maybeEvaluate => exact cycleWith_enabled E m now
  | deliver ns timeout ok =>
    obtain ⟨failures, hf⟩ := deliver_eq m ns timeout ok
    simp only [stepWith, hf]
    rfl
  | storeWritten store => rfl

theorem stepWith_start_queued (E : Evaluator) (m : Monitor) (now : Int) :
    (m.stepWith E now .start).queued = none ∧ (m.stepWith E now .stop).queued = none := by
  refine ⟨?_, rfl⟩
  simp only [stepWith]
  split <;> rfl

/-! ### The store -/

theorem cycleWith_store (E : Evaluator) (m : Monitor) (now : Int) :
    (cycleWith E m now).mon.store = m.store := by
  unfold cycleWith
  by_cases hdue : (!m.isEnabled || decide (now - m.lastEval < evalIntervalMs)) = true
  · simp only [hdue, if_true]
  simp only [hdue, Bool.false_eq_true, if_false]
  rcases hE : E m.settings.thresholds m.settings.audited m.groups now m.enabledAt with ⟨gs, res⟩
  simp only
  cases res with
  | error err => rfl
  | ok ev =>
    rcases Option.eq_none_or_eq_some ev.failure with hf | ⟨f, hf⟩
    · simp only [hf]
      have h := congrArg Monitor.store (alertOutcome_withoutAlerts ev.anomalies now
        (({ m with lastEval := now, groups := gs } : Monitor).withMetrics fun x =>
          { x with evaluations := x.evaluations + 1, trackedGroups := gs.length })).1
      exact h
    · simp only [hf]
      rfl

theorem completionWith_store (E : Evaluator) (m : Monitor) (e : CompletionEvent) (now : Int) :
    (completionWith E m e now).mon.store = m.store := by
  unfold completionWith
  cases m.isEnabled
  · rfl
  simp only [Bool.not_true, Bool.false_eq_true, if_false]
  cases m.admission e now with
  | dropped r traces => rfl
  | failed err traces => rfl
  | admitted key name s traces =>
    have h := cycleWith_store E (addSample key name s { m with traces }) now
    dsimp only
    split
    · exact h
    · exact h

theorem stepWith_store (E : Evaluator) (m : Monitor) (now : Int) {c : Call}
    (hc : ∀ store, c ≠ .storeWritten store) : (m.stepWith E now c).mon.store = m.store := by
  cases c with
  | start =>
    simp only [stepWith, start]
    cases m.store.load startDepth <;> rfl
  | stop => rfl
  | ingestStart e =>
    obtain ⟨traces, heq⟩ := ingestStart_eq m e now
    simp only [stepWith, heq]
  | setEnabled v =>
    simp only [stepWith]
    split <;> rfl
  | ingestCompletion e => exact completionWith_store E m e now
  | line limit t =>
    simp only [stepWith]
    split
    · rfl
    · split
      · rfl
      · rename_i e _
        obtain ⟨traces, heq⟩ := ingestStart_eq m e now
        simp only [heq]
      · exact completionWith_store E m _ now
  | maybeEvaluate => exact cycleWith_store E m now
  | deliver ns timeout ok =>
    obtain ⟨failures, hf⟩ := deliver_eq m ns timeout ok
    simp only [stepWith, hf]
    rfl
  | storeWritten store => exact absurd rfl (hc store)

end Monitor

end CacheHitRate
