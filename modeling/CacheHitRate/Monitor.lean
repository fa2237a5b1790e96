import CacheHitRate.Evaluation
import CacheHitRate.Notice
import CacheHitRate.TraceModels
import CacheHitRate.FlagStore
import CacheHitRate.Metrics
/-!
The monitor: the long-lived state behind the feature and the operations on it. It is switched
on and off (each real change resets all statistics and is persisted), correlates request
starts with completions, turns completions into samples of their group, and evaluates at most
once a minute, piggy-backed on ingestion. An evaluation gives warnings for anomalies, at most
one per group per fifteen minutes, or, when the self-check fails, switches the monitor off and
gives an error notice, at most one per ten seconds.

Operations run in `Op`, which keeps the state reached when an arithmetic error stops them; a
completion that stops this way is counted as an ingest error and changes nothing more.
-/
namespace CacheHitRate

/-- The bound put on one send of a notice, as it is configured. -/
inductive SendTimeout where
  /-- No bound: the send runs to its end. -/
  | unbounded
  /-- A bound in seconds. -/
  | seconds (q : Quantity)
  /-- A value that is no number, which cannot be compared with zero. -/
  | malformed

/-- Whether a send reaches the sender at all. A bound of zero or less cancels the send before
its first step; a malformed bound fails the comparison with zero, and an integer bound too large
for a binary64 fails when its deadline is computed. In those cases the sender sees nothing and
the send fails. A NaN bound is not at most zero and has a deadline, so that send starts. -/
def SendTimeout.starts : SendTimeout → Bool
  | .unbounded => true
  | .seconds q => !q.le (.int 0) && (match q.toFloat with | .ok _ => true | .error _ => false)
  | .malformed => false

/-- The fixed choices of a monitor. -/
structure Settings where
  supportedClis : List Text := [Text.ofString "claude", Text.ofString "codex"]
  policy : DenominatorPolicy := .default
  thresholds : Thresholds := {}
  audited : Int := selfCheckGroups

structure Monitor where
  settings : Settings := {}
  store : FlagStore
  /-- The switch as loaded or set; any value, read by its truth value. -/
  enabled : Json := .bool false
  enabledAt : Int := 0
  groups : Groups := []
  traces : TraceModels := {}
  lastEval : Int := 0
  /-- Kept across resets, so a storm of failures cannot bypass the cooldown. -/
  lastSelfCheckFailure : Int := 0
  metrics : Metrics := {}

/-- Why a completion did not become a sample. -/
inductive DropReason where
  | missingTraceId
  | unsupportedCli
  | notSuccess
  | noAttempt
  | invalidProvider
  | zeroDenominator
  deriving DecidableEq, Repr

def DropReason.text : DropReason → String
  | .missingTraceId => "missing_trace_id"
  | .unsupportedCli => "unsupported_cli"
  | .notSuccess => "not_success"
  | .noAttempt => "no_attempt"
  | .invalidProvider => "invalid_provider"
  | .zeroDenominator => "zero_denominator"

/-- A monitor operation: the state it reaches is kept when an arithmetic error stops it. -/
abbrev Op := ExceptT ArithError (StateM Monitor)

/-- Stops the operation on an error of a pure step. -/
def Op.check {α : Type} : Except ArithError α → Op α
  | .ok a => pure a
  | .error e => throw e

namespace Monitor

def evalIntervalMs : Int := 60000
def alertDedupMs : Int := 15 * 60000
def selfCheckCooldownMs : Int := 10000

def isEnabled (m : Monitor) : Bool := m.enabled.truthy

def withMetrics (m : Monitor) (f : Metrics → Metrics) : Monitor := { m with metrics := f m.metrics }

/-- Drops all statistics and sets the switch to `v`, arming the cold start when it is on. -/
def applyEnabled (m : Monitor) (v : Json) (now : Int) : Monitor :=
  { m with enabled := v, enabledAt := if v.truthy then now else 0, groups := [], traces := {},
           lastEval := 0,
           metrics := { m.metrics with enabled := if v.truthy then 1 else 0, trackedGroups := 0 } }

/-- Saves the switch; a store that cannot be written is left as it was. -/
def persist (m : Monitor) (on : Bool) : Monitor := { m with store := m.store.saveOrKeep (.bool on) }

/-- The reader's budget of open arrays and objects for the switch's file when the monitor
starts. -/
def startDepth : Nat := 990

/-- Loads the persisted switch and arms the monitor accordingly; a switch file on which the
reader overflows a budget of `startDepth` fails the start. -/
def start (m : Monitor) (now : Int) : Except Json.Overflow Monitor := do
  return m.applyEnabled (← m.store.load startDepth) now

/-- Drops all statistics; the persisted switch is left as it is. -/
def stop (m : Monitor) (now : Int) : Monitor := m.applyEnabled (.bool false) now

/-- Switches the monitor; only `true` turns it on. A real change resets and is persisted. -/
def setEnabled (m : Monitor) (v : Json) (now : Int) : Monitor :=
  let on := match v with
    | .bool true => true
    | _ => false
  if m.enabled.equalsBool on then m else (m.applyEnabled (.bool on) now).persist on

/-- Remembers the requested model of a request start from a supported CLI. -/
def ingestStart (m : Monitor) (e : StartEvent) (now : Int) : Monitor :=
  if !m.isEnabled || e.traceId.isEmpty || !m.settings.supportedClis.contains e.cliKey then m
  else { m with traces := m.traces.record e.traceId (Normalize.modelName e.requestedModel) now }

def dropWith (r : DropReason) : Op (List Notice) := do
  modify fun m => m.withMetrics fun x => { x with dropped := x.dropped.bump (Text.ofString r.text) }
  return []

/-- The notice for an anomaly, unless the group alerted within the dedup window. -/
def prepareAlert (key : GroupKey) (row : Row) (reason : Reason) (now : Int) :
    Op (Option Notice) := do
  let m ← get
  match m.groups.find? key with
  | none => return none
  | some g =>
    if now - g.lastAlertAt.getD 0 < alertDedupMs then
      modify fun m => m.withMetrics fun x => { x with alertsSuppressed := x.alertsSuppressed + 1 }
      return none
    modify fun m => { m with groups := m.groups.modify key fun g => { g with lastAlertAt := some now } }
    let notice ← Op.check
      (Notice.alert key g.providerName row (Text.ofString reason.text))
    modify fun m => m.withMetrics fun x => { x with alerts := x.alerts.bump (Text.ofString reason.text) }
    return some notice

/-- After a failed self-check: counts it, gives the error notice unless one was given within
the cooldown, switches off and persists that. -/
def disableAfterFailure (now : Int) : Op (List Notice) := do
  modify fun m => m.withMetrics fun x => { x with selfCheckFailures := x.selfCheckFailures + 1 }
  let m ← get
  let notices := if now - m.lastSelfCheckFailure ≥ selfCheckCooldownMs then
    [Notice.selfCheckFailed] else []
  if !notices.isEmpty then set { m with lastSelfCheckFailure := now }
  modify fun m => (m.applyEnabled (.bool false) now).persist false
  return notices

/-- Evaluates when the monitor is on and the last evaluation is a minute old. -/
def evaluateDue (now : Int) : Op (List Notice) := do
  let m ← get
  if !m.isEnabled || now - m.lastEval < evalIntervalMs then return []
  let (gs, result) := evaluate m.settings.thresholds m.settings.audited m.groups now m.enabledAt
  set { m with lastEval := now, groups := gs }
  let ev ← Op.check result
  modify fun m => m.withMetrics fun x =>
    { x with evaluations := x.evaluations + 1, trackedGroups := gs.length }
  match ev.failure with
  | some _ => disableAfterFailure now
  | none => ev.anomalies.filterMapM fun (key, row, reason) => prepareAlert key row reason now

/-- Adds a sample to the group of `key`, creating the group if needed. -/
def addSample (key : GroupKey) (providerName : Text) (s : Sample) (m : Monitor) : Monitor :=
  let gs := if (m.groups.find? key).isSome then
      m.groups.modify key fun g => { g with providerName }
    else m.groups ++ [{ key, providerName, lastSeenMinute := s.minute }]
  let gs := gs.modify key (·.record s)
  { m with groups := gs }.withMetrics fun x =>
    { x with samples := x.samples.bump key.cliKey, trackedGroups := gs.length }

/-- Ingests a completion: drops it with a reason, or records its sample and evaluates if due. -/
def ingestCompletion (e : CompletionEvent) (now : Int) : Op (List Notice) := do
  let m ← get
  if !m.isEnabled then return []
  if e.traceId.isEmpty then return ← dropWith .missingTraceId
  if !m.settings.supportedClis.contains e.cliKey then return ← dropWith .unsupportedCli
  if !e.isSuccess then return ← dropWith .notSuccess
  modify fun m => { m with traces := (m.traces.evictBefore (now - traceModelTtlMs)).2 }
  let some attempt := finalAttempt e.attempts | dropWith .noAttempt
  let some pid ← Op.check (Normalize.providerId? attempt.providerId)
    | dropWith .invalidProvider
  let providerName := Normalize.nameOr attempt.providerName
  let m ← get
  let (model, traces) := m.traces.take e.traceId
  set { m with traces }
  let model := model.getD Normalize.unknown
  let some sample ← Op.check (e.sample? m.settings.policy now)
    | dropWith .zeroDenominator
  modify (addSample ⟨e.cliKey, pid, model⟩ providerName sample)
  evaluateDue now

def runOp {α : Type} (op : Op α) (m : Monitor) : Except ArithError α × Monitor := (op.run).run m

/-- Ingests a completion; an arithmetic error is counted as an ingest error. -/
def completion (m : Monitor) (e : CompletionEvent) (now : Int) : Monitor × List Notice :=
  match runOp (ingestCompletion e now) m with
  | (.ok ns, m') => (m', ns)
  | (.error _, m') =>
    (m'.withMetrics fun x => { x with ingestErrors := x.ingestErrors.bump (Text.ofString "request_completion") }, [])

/-- Evaluates if due; an arithmetic error stops it and is passed on. -/
def maybeEvaluate (m : Monitor) (now : Int) : Monitor × Except ArithError (List Notice) :=
  let (r, m') := runOp (evaluateDue now) m
  (m', r)

/-- Accounts for a notice handed to the sender: one that was not delivered is counted. -/
def delivered (m : Monitor) (n : Notice) (ok : Bool) : Monitor :=
  if ok then m
  else m.withMetrics fun x => { x with noticeFailures := x.noticeFailures.bump (Text.ofString n.level.text) }

/-- Hands notices to a sender whose sends are bounded by `timeout` and succeed when `ok`: the
monitor with every failed send counted, and the notices the sender received, in order. -/
def deliver (m : Monitor) (ns : List Notice) (timeout : SendTimeout) (ok : Bool) :
    Monitor × List Notice :=
  if timeout.starts then (ns.foldl (fun m n => m.delivered n ok) m, ns)
  else (ns.foldl (fun m n => m.delivered n false) m, [])

end Monitor

end CacheHitRate
