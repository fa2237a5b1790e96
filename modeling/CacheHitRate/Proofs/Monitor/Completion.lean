import CacheHitRate.Proofs.Monitor.Run

/-!
How a completion is accounted for. A monitor that is off ignores it. On a monitor that is on,
the completion is dropped for one reason, stops on an arithmetic error before its sample is
recorded, or is recorded as one sample of one group and followed by the evaluation that is due;
which of the three is decided by `Monitor.admission` alone. A drop counts the reason and an
early error counts one ingest error; neither touches a group or another counter.

The trace models are not left alone on the way: once the request is known to have succeeded
their expired entries are evicted, and once its provider is known its own entry is taken. An
error after that point keeps both changes, and an error in the evaluation after a recorded
sample keeps the sample and counts an ingest error as well.
-/

namespace CacheHitRate

namespace Monitor

def countIngestError (m : Monitor) : Monitor :=
  m.withMetrics fun x => { x with ingestErrors := x.ingestErrors.bump (Text.ofString "request_completion") }

/-- What a completion gives once its sample is in: the evaluation that is due, an arithmetic
error in it counted as an ingest error. -/
def evaluateRecorded (m : Monitor) (now : Int) : Monitor × List Notice :=
  match runOp (evaluateDue now) m with
  | (.ok ns, m') => (m', ns)
  | (.error _, m') => (countIngestError m', [])

theorem completion_eq (m : Monitor) (e : CompletionEvent) (now : Int) :
    m.completion e now =
      if !m.isEnabled then (m, []) else
      match m.admission e now with
      | .dropped r traces => (countDrop r { m with traces }, [])
      | .failed _ traces => (countIngestError { m with traces }, [])
      | .admitted key name s traces => evaluateRecorded (addSample key name s { m with traces }) now := by
  unfold completion
  rw [runOp_ingestCompletion]
  cases m.isEnabled
  · rfl
  · simp only [Bool.not_true, Bool.false_eq_true, if_false]
    cases m.admission e now <;> rfl

/-- A completion is accounted for once. A monitor that is off ignores it. On one that is on,
`admission` decides which one of three things happens: the completion is dropped for one
reason, which is counted, and nothing but the trace models changes; or it stops on an
arithmetic error before its sample is recorded, which is counted as one ingest error, and again
nothing but the trace models changes; or its sample is recorded, counted under its CLI, into the
group of its CLI, the provider id of its final attempt and the model of its trace and into no
other, and the evaluation that is due follows, an error in it counted as an ingest error. -/
theorem completion_accounts_once (m : Monitor) (e : CompletionEvent) (now : Int) :
    (m.isEnabled = false → m.completion e now = (m, [])) ∧
    (m.isEnabled = true →
      (∃ r traces, m.admission e now = .dropped r traces ∧
        m.completion e now = (countDrop r { m with traces }, [])) ∨
      (∃ err traces, m.admission e now = .failed err traces ∧
        m.completion e now = (countIngestError { m with traces }, [])) ∨
      (∃ key name s traces, m.admission e now = .admitted key name s traces ∧
        (∃ a pid, finalAttempt e.attempts = some a ∧
          Normalize.providerId? a.providerId = .ok (some pid) ∧
          key = ⟨e.cliKey, pid, ((m.traces.evictBefore (now - traceModelTtlMs)).2.take
            e.traceId).1.getD Normalize.unknown⟩) ∧
        (addSample key name s { m with traces }).metrics.samples =
          m.metrics.samples.bump e.cliKey ∧
        (addSample key name s { m with traces }).groups.find? key =
          some ({ ((m.groups.find? key).getD (Group.fresh key name s)) with
            providerName := name }.record s) ∧
        (∀ k, k ≠ key →
          (addSample key name s { m with traces }).groups.find? k = m.groups.find? k) ∧
        m.completion e now = evaluateRecorded (addSample key name s { m with traces }) now)) := by
  rw [completion_eq]
  refine ⟨fun hoff => by simp [hoff], fun hon => ?_⟩
  simp only [hon, Bool.not_true, Bool.false_eq_true, if_false]
  cases hadm : m.admission e now with
  | dropped r traces => exact Or.inl ⟨r, traces, rfl, rfl⟩
  | failed err traces => exact Or.inr (Or.inl ⟨err, traces, rfl, rfl⟩)
  | admitted key name s traces =>
    obtain ⟨-, -, a, pid, ha, hpid, hkey, -⟩ := admission_admitted hadm
    refine Or.inr (Or.inr ⟨key, name, s, traces, rfl, ⟨a, pid, ha, hpid, hkey⟩, ?_,
      find?_addSample_self key name s { m with traces },
      fun k hk => find?_addSample_of_ne key name s { m with traces } hk, rfl⟩)
    rw [metrics_addSample, hkey]

end Monitor

/-- A started monitor that was told of request "old", whose trace recorded model "m". -/
def tracedMonitor : Monitor :=
  (({ store := .memory (.bool true) } : Monitor).call 1700000040000 .start).call 1700000040000
    (.ingestStart ⟨Text.ofString "old", Text.ofString "claude", .str (Text.ofString "m")⟩)

/-- A successful completion of request "new" whose provider id is out of range. -/
def oversizedProviderCompletion : CompletionEvent :=
  ⟨Text.ofString "new", Text.ofString "claude", some 200, none,
    [⟨.int (Int.pow 10 400), Text.ofString "p", Text.ofString "success", some 200⟩],
    .int 10, .null, .null, .null, .null⟩

/-- A completion that fails on its provider id after the expired trace models were evicted keeps
the eviction: the trace models are not left as they were. -/
theorem completion_error_evicts_traces :
    tracedMonitor.traces.size = 1 ∧
    (tracedMonitor.completion oversizedProviderCompletion 1700000640001).1.traces.size = 0 ∧
    (tracedMonitor.completion oversizedProviderCompletion 1700000640001).1.metrics.ingestErrors =
      [(Text.ofString "request_completion", 1)] := by
  decide +kernel

end CacheHitRate
