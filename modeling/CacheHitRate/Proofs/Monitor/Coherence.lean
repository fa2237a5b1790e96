import CacheHitRate.Proofs.Monitor.Completion

/-!
What holds of a monitor between calls. A monitor that is off holds no groups, no trace models
and no times; every group has a key of its own, made of a supported CLI, a provider id of at
least zero and a model name as normalisation leaves it; and the gauge of the switch reads the
switch. All three hold in every state a monitor reaches.

The gauge of tracked groups is another matter. Every step that changes the groups sets it,
except one: an evaluation evicts the stale groups before it runs the rules, and when a rule then
stops on an arithmetic error the gauge keeps the count from before the eviction. From a state
where the gauge is right, a call leaves it right exactly when it does not run such an evaluation.
-/

namespace CacheHitRate

theorem Text.isBlank_head_strip {t : Text} {c : Nat} {rest : List Nat}
    (h : (strip t).points = c :: rest) : isBlank c = false := by
  have hpre : (strip t).points <+: t.points.dropWhile isBlank :=
    List.rdropWhile_prefix isBlank (t.points.dropWhile isBlank)
  rw [h] at hpre
  obtain ⟨u, hu⟩ := hpre
  have hhead := List.head?_dropWhile_not isBlank t.points
  rw [← hu] at hhead
  simpa using hhead

namespace Normalize

/-- A model name as normalisation leaves it: unknown, or a name of at most 200 code points whose
first one is not white space. -/
def IsModelName (t : Text) : Prop :=
  t = unknown ∨
    ∃ c rest, t.points = c :: rest ∧ Text.isBlank c = false ∧ t.length ≤ maxModelNameLength

theorem isModelName_modelName (v : Json) : IsModelName (modelName v) := by
  unfold modelName
  split
  · simp only
    split
    · exact Or.inl rfl
    · rename_i s hne
      obtain ⟨c, rest, hcons⟩ : ∃ c rest, (Text.strip s).points = c :: rest := by
        cases hs : (Text.strip s).points with
        | nil => simp [Text.isEmpty, hs] at hne
        | cons c rest => exact ⟨c, rest, rfl⟩
      refine Or.inr ⟨c, rest.take (maxModelNameLength - 1), ?_, Text.isBlank_head_strip hcons, ?_⟩
      · simp [Text.take, hcons, maxModelNameLength]
      · rw [Text.length_take]
        exact Nat.min_le_left _ _
  · exact Or.inl rfl

end Normalize

namespace TraceModels

theorem mem_of_take {t : TraceModels} {trace model : Text} (h : (t.take trace).1 = some model) :
    ∃ p ∈ t.entries, p.2.model = model := by
  simp only [take, Option.map_eq_some_iff] at h
  obtain ⟨entry, hlookup, rfl⟩ := h
  obtain ⟨l₁, l₂, heq, -⟩ := List.lookup_eq_some_iff.1 hlookup
  exact ⟨(trace, entry), by rw [heq]; simp, rfl⟩

theorem mem_record {t : TraceModels} {trace model : Text} {now : Int} {p : Text × TraceEntry}
    (hp : p ∈ (t.record trace model now).entries) : p ∈ t.entries ∨ p.2.model = model := by
  unfold record at hp
  split at hp
  · obtain ⟨q, hq, rfl⟩ := List.mem_map.1 hp
    by_cases hqt : q.1 = trace
    · simp [hqt]
    · simp [hqt, hq]
  · rcases List.mem_append.1 hp with hp | hp
    · exact Or.inl hp
    · rw [List.mem_singleton.1 hp]
      exact Or.inr rfl

end TraceModels

/-- A group key as ingestion builds it: a CLI of `clis`, a provider id of at least zero and a
model name as normalisation leaves it. -/
structure GroupKey.Valid (clis : List Text) (k : GroupKey) : Prop where
  cli : clis.contains k.cliKey = true
  provider : 0 ≤ k.providerId
  model : Normalize.IsModelName k.model

namespace Monitor

/-- What holds of a monitor between calls, whatever happened before: off, it holds no groups,
trace models or times; its keys are distinct and valid; its trace models hold model names; and
the gauge of the switch reads the switch. -/
structure WellFormed (m : Monitor) : Prop where
  off : m.isEnabled = false →
    m.groups = [] ∧ m.traces.entries = [] ∧ m.enabledAt = 0 ∧ m.lastEval = 0
  keys : (m.groups.map (·.key)).Nodup
  valid : ∀ g ∈ m.groups, g.key.Valid m.settings.supportedClis
  models : ∀ p ∈ m.traces.entries, Normalize.IsModelName p.2.model
  gauge : m.metrics.enabled = if m.isEnabled then 1 else 0

/-- A well-formed monitor whose gauge of tracked groups counts its groups. -/
structure Coherent (m : Monitor) : Prop extends m.WellFormed where
  tracked : m.metrics.trackedGroups = m.groups.length

/-- An evaluation that is due at `now`, evicts a group and then stops on an arithmetic error:
the evicted groups are gone, but the gauge of tracked groups still counts them. -/
def EvaluationStalls (m : Monitor) (now : Int) : Prop :=
  m.isEnabled = true ∧ evalIntervalMs ≤ now - m.lastEval ∧
    (∃ err, (evaluate m.settings.thresholds m.settings.audited m.groups now m.enabledAt).2 =
      .error err) ∧
    (evaluate m.settings.thresholds m.settings.audited m.groups now m.enabledAt).1.length <
      m.groups.length

/-- A completion whose sample is recorded and whose evaluation then stalls. -/
def CompletionStalls (m : Monitor) (e : CompletionEvent) (now : Int) : Prop :=
  m.isEnabled = true ∧ ∃ key name s traces, m.admission e now = .admitted key name s traces ∧
    (addSample key name s { m with traces }).EvaluationStalls now

/-- Whether a call runs an evaluation that stalls. -/
def Stalls (m : Monitor) (now : Int) : Call → Prop
  | .ingestCompletion e => m.CompletionStalls e now
  | .line limit t =>
    if (Text.strip t).isEmpty then False else
    match eventOfLine limit (Text.strip t) with
    | some (.completion e) => m.CompletionStalls e now
    | _ => False
  | .maybeEvaluate => m.EvaluationStalls now
  | _ => False

theorem coherent_applyEnabled (m : Monitor) (v : Json) (now : Int) :
    (m.applyEnabled v now).Coherent where
  off hoff := by
    simp only [isEnabled, applyEnabled] at hoff ⊢
    simp [hoff]
  keys := List.nodup_nil
  valid _ hg := absurd hg List.not_mem_nil
  models _ hp := absurd hp List.not_mem_nil
  gauge := rfl
  tracked := rfl

variable {m : Monitor}

theorem Coherent.persist (h : m.Coherent) (on : Bool) : (m.persist on).Coherent :=
  ⟨⟨h.off, h.keys, h.valid, h.models, h.gauge⟩, h.tracked⟩

theorem WellFormed.withMetrics (h : m.WellFormed) (f : Metrics → Metrics)
    (hf : (f m.metrics).enabled = m.metrics.enabled) : (m.withMetrics f).WellFormed :=
  ⟨h.off, h.keys, h.valid, h.models, hf.trans h.gauge⟩

theorem WellFormed.withTraces (h : m.WellFormed) (hon : m.isEnabled = true) (traces : TraceModels)
    (hsub : ∀ p ∈ traces.entries, p ∈ m.traces.entries) : ({ m with traces } : Monitor).WellFormed :=
  ⟨fun hoff => (Bool.false_ne_true (hoff.symm.trans hon)).elim, h.keys, h.valid,
    fun p hp => h.models p (hsub p hp), h.gauge⟩

theorem WellFormed.ingestStart (h : m.WellFormed) (e : StartEvent) (now : Int) :
    (m.ingestStart e now).WellFormed := by
  unfold Monitor.ingestStart
  split
  · exact h
  · rename_i hcond
    have hon : m.isEnabled = true := by simp_all
    refine ⟨fun hoff => (Bool.false_ne_true (hoff.symm.trans hon)).elim, h.keys, h.valid, ?_,
      h.gauge⟩
    intro p hp
    rcases TraceModels.mem_record hp with hp | hp
    · exact h.models p hp
    · rw [hp]
      exact Normalize.isModelName_modelName _

theorem tracked_ingestStart (e : StartEvent) (now : Int) :
    (m.ingestStart e now).metrics.trackedGroups = (m.ingestStart e now).groups.length ↔
      m.metrics.trackedGroups = m.groups.length := by
  obtain ⟨traces, heq⟩ := ingestStart_eq m e now
  rw [heq]

theorem WellFormed.addSample (h : m.WellFormed) (hon : m.isEnabled = true) {key : GroupKey}
    (hkey : key.Valid m.settings.supportedClis) (name : Text) (s : Sample) :
    (addSample key name s m).Coherent where
  off hoff := (Bool.false_ne_true (hoff.symm.trans hon)).elim
  keys := nodup_keys_addSample key name s m h.keys
  valid g hg := by
    rcases key_of_mem_addSample key name s m hg with hg | hg
    · exact h.valid g hg
    · rw [hg]
      exact hkey
  models := h.models
  gauge := h.gauge
  tracked := rfl

theorem WellFormed.valid_of_admission (h : m.WellFormed) {e : CompletionEvent} {now : Int}
    {key : GroupKey} {name : Text} {s : Sample} {traces : TraceModels}
    (hadm : m.admission e now = .admitted key name s traces) :
    key.Valid m.settings.supportedClis := by
  obtain ⟨hcli, -, a, pid, -, -, rfl, -⟩ := admission_admitted hadm
  refine ⟨hcli, by simp, ?_⟩
  cases htake : ((m.traces.evictBefore (now - traceModelTtlMs)).2.take e.traceId).1 with
  | none => exact Or.inl rfl
  | some model =>
    obtain ⟨p, hp, hmodel⟩ := TraceModels.mem_of_take htake
    have := h.models p (List.mem_filter.1 hp).1
    rw [hmodel] at this
    simpa using this

theorem admission_traces_subset (m : Monitor) (e : CompletionEvent) (now : Int) :
    ∀ p ∈ (m.admission e now).traces.entries, p ∈ m.traces.entries := by
  have hlive : ∀ p ∈ (m.traces.evictBefore (now - traceModelTtlMs)).2.entries,
      p ∈ m.traces.entries := fun p hp => (List.mem_filter.1 hp).1
  have hrest : ∀ p ∈ ((m.traces.evictBefore (now - traceModelTtlMs)).2.take e.traceId).2.entries,
      p ∈ m.traces.entries := fun p hp => hlive p (List.mem_filter.1 hp).1
  intro p hp
  unfold admission at hp
  repeat' split at hp
  all_goals simp only [Admission.traces] at hp
  all_goals first | exact hp | exact hlive p hp | exact hrest p hp

theorem coherent_withoutAlerts : m.withoutAlerts.Coherent ↔ m.Coherent := by
  have hoff : (m.withoutAlerts.isEnabled = false → m.withoutAlerts.groups = [] ∧
      m.withoutAlerts.traces.entries = [] ∧ m.withoutAlerts.enabledAt = 0 ∧
      m.withoutAlerts.lastEval = 0) ↔
      (m.isEnabled = false → m.groups = [] ∧ m.traces.entries = [] ∧ m.enabledAt = 0 ∧
        m.lastEval = 0) := by
    simp [withoutAlerts, isEnabled]
  have hkeys : m.withoutAlerts.groups.map (·.key) = m.groups.map (·.key) := by
    simp [withoutAlerts]
  have hvalid : (∀ g ∈ m.withoutAlerts.groups, g.key.Valid m.settings.supportedClis) ↔
      ∀ g ∈ m.groups, g.key.Valid m.settings.supportedClis := by
    simp [withoutAlerts]
  have hlen : m.withoutAlerts.groups.length = m.groups.length := by
    simp [withoutAlerts]
  exact ⟨fun h => ⟨⟨hoff.1 h.off, hkeys ▸ h.keys, hvalid.1 h.valid, h.models, h.gauge⟩,
      hlen ▸ h.tracked⟩,
    fun h => ⟨⟨hoff.2 h.off, hkeys ▸ h.keys, hvalid.2 h.valid, h.models, h.gauge⟩,
      hlen ▸ h.tracked⟩⟩

theorem Coherent.prepareAlerts (h : m.Coherent) (anomalies : List (GroupKey × Row × Reason))
    (now : Int) :
    (runOp (anomalies.filterMapM fun (key, row, reason) => prepareAlert key row reason now) m).2.Coherent := by
  rw [← coherent_withoutAlerts, withoutAlerts_prepareAlerts, coherent_withoutAlerts]
  exact h

theorem coherent_disableAfterFailure (m : Monitor) (now : Int) :
    (runOp (disableAfterFailure now) m).2.Coherent := by
  rw [runOp_disableAfterFailure]
  exact (coherent_applyEnabled _ _ _).persist false

theorem WellFormed.evaluated (h : m.WellFormed) (hon : m.isEnabled = true) (now : Int) :
    ({ m with lastEval := now, groups :=
      (evaluate m.settings.thresholds m.settings.audited m.groups now m.enabledAt).1 } :
        Monitor).WellFormed := by
  have hsub : ((evaluate m.settings.thresholds m.settings.audited m.groups now
      m.enabledAt).1.map (·.key)).Sublist (m.groups.map (·.key)) := by
    rw [keys_evaluate]
    exact List.filter_sublist.map _
  refine ⟨fun hoff => (Bool.false_ne_true (hoff.symm.trans hon)).elim, h.keys.sublist hsub, ?_,
    h.models, h.gauge⟩
  intro g hg
  obtain ⟨g₀, hg₀, hkey⟩ := List.mem_map.1 (hsub.subset (List.mem_map_of_mem hg))
  rw [← hkey]
  exact h.valid g₀ hg₀

theorem WellFormed.evaluateDue (h : m.WellFormed) (now : Int) :
    (runOp (evaluateDue now) m).2.WellFormed ∧
      (m.metrics.trackedGroups = m.groups.length →
        ((runOp (evaluateDue now) m).2.metrics.trackedGroups =
            (runOp (evaluateDue now) m).2.groups.length ↔ ¬ m.EvaluationStalls now)) := by
  have hlen : (evaluate m.settings.thresholds m.settings.audited m.groups now
      m.enabledAt).1.length ≤ m.groups.length := by
    have := congrArg List.length
      (keys_evaluate m.settings.thresholds m.settings.audited m.groups now m.enabledAt)
    simp only [List.length_map] at this
    rw [this]
    exact List.length_filter_le _ _
  rw [runOp_evaluateDue]
  split
  · rename_i hskip
    refine ⟨h, fun ht => ⟨fun _ ⟨hon, hdue, _⟩ => ?_, fun _ => ht⟩⟩
    simp only [hon, Bool.not_true, Bool.false_or, decide_eq_true_eq] at hskip
    omega
  · rename_i hrun
    have hon : m.isEnabled = true := by
      cases hen : m.isEnabled
      · simp [hen] at hrun
      · rfl
    have hdue : evalIntervalMs ≤ now - m.lastEval := by
      simp only [hon, Bool.not_true, Bool.false_or, decide_eq_true_eq] at hrun
      omega
    split
    · rename_i err herr
      refine ⟨h.evaluated hon now, fun ht => ?_⟩
      dsimp only
      rw [ht]
      constructor
      · rintro heq ⟨-, -, -, hlt⟩
        omega
      · intro hns
        by_contra hne
        exact hns ⟨hon, hdue, ⟨err, herr⟩, by omega⟩
    · rename_i ev hev
      have hns : ¬ m.EvaluationStalls now := fun ⟨_, _, ⟨err, herr⟩, _⟩ => by
        rw [hev] at herr
        cases herr
      have hcounted := (h.evaluated hon now).withMetrics (fun x => { x with
        evaluations := x.evaluations + 1,
        trackedGroups := (evaluate m.settings.thresholds m.settings.audited m.groups now
          m.enabledAt).1.length }) rfl
      have hset : ∀ m' : Monitor, m'.Coherent → m'.WellFormed ∧
          (m.metrics.trackedGroups = m.groups.length →
            (m'.metrics.trackedGroups = m'.groups.length ↔ ¬ m.EvaluationStalls now)) :=
        fun m' h' => ⟨h'.toWellFormed, fun _ => ⟨fun _ => hns, fun _ => h'.tracked⟩⟩
      cases ev.failure
      · exact hset _ ((Coherent.mk hcounted rfl).prepareAlerts ev.anomalies now)
      · exact hset _ (coherent_disableAfterFailure _ now)

theorem WellFormed.completion (h : m.WellFormed) (e : CompletionEvent) (now : Int) :
    (m.completion e now).1.WellFormed ∧
      (m.metrics.trackedGroups = m.groups.length →
        ((m.completion e now).1.metrics.trackedGroups = (m.completion e now).1.groups.length ↔
          ¬ m.CompletionStalls e now)) := by
  rw [completion_eq]
  cases hen : m.isEnabled
  · simp only [Bool.not_false, if_true]
    exact ⟨h, fun ht => ⟨fun _ ⟨hon, _⟩ => by simp_all, fun _ => ht⟩⟩
  simp only [Bool.not_true, Bool.false_eq_true, if_false]
  have hsub := admission_traces_subset m e now
  have hnot : ∀ a : Admission, (∀ key name s traces, a ≠ .admitted key name s traces) →
      m.admission e now = a → ¬ m.CompletionStalls e now := by
    rintro a ha hadm ⟨-, key, name, s, traces, hadm', -⟩
    exact ha key name s traces (hadm.symm.trans hadm')
  cases hadm : m.admission e now with
  | dropped r traces =>
    simp only [hadm, Admission.traces] at hsub
    dsimp only
    exact ⟨(h.withTraces hen traces hsub).withMetrics _ rfl,
      fun ht => ⟨fun _ => hnot _ (by simp) hadm, fun _ => ht⟩⟩
  | failed err traces =>
    simp only [hadm, Admission.traces] at hsub
    dsimp only
    exact ⟨(h.withTraces hen traces hsub).withMetrics _ rfl,
      fun ht => ⟨fun _ => hnot _ (by simp) hadm, fun _ => ht⟩⟩
  | admitted key name s traces =>
    simp only [hadm, Admission.traces] at hsub
    have hrec := (h.withTraces hen traces hsub).addSample hen (h.valid_of_admission hadm) name s
    have hstalls : m.CompletionStalls e now ↔
        (Monitor.addSample key name s { m with traces }).EvaluationStalls now := by
      constructor
      · rintro ⟨-, key', name', s', traces', hadm', hst⟩
        rw [hadm] at hadm'
        cases hadm'
        exact hst
      · exact fun hst => ⟨hen, key, name, s, traces, hadm, hst⟩
    obtain ⟨hwf, htr⟩ := hrec.toWellFormed.evaluateDue now
    dsimp only
    rw [hstalls]
    unfold evaluateRecorded
    split
    · rename_i ns m' hres
      rw [hres] at hwf htr
      exact ⟨hwf, fun _ => htr hrec.tracked⟩
    · rename_i err m' hres
      rw [hres] at hwf htr
      dsimp only at hwf htr ⊢
      exact ⟨hwf.withMetrics _ rfl, fun _ => htr hrec.tracked⟩

/-- Every call keeps a monitor well formed, and leaves a right gauge of tracked groups right
exactly when it does not run an evaluation that stalls. -/
theorem WellFormed.call (h : m.WellFormed) (now : Int) (c : Call) :
    (m.call now c).WellFormed ∧
      (m.metrics.trackedGroups = m.groups.length →
        ((m.call now c).metrics.trackedGroups = (m.call now c).groups.length ↔
          ¬ m.Stalls now c)) := by
  have hframe : ∀ m' : Monitor, m'.Coherent → m'.WellFormed ∧
      (m.metrics.trackedGroups = m.groups.length →
        (m'.metrics.trackedGroups = m'.groups.length ↔ ¬ False)) :=
    fun m' h' => ⟨h'.toWellFormed, fun _ => ⟨fun _ => id, fun _ => h'.tracked⟩⟩
  have hkeep : ∀ m' : Monitor, m'.WellFormed → m'.groups = m.groups →
      m'.metrics.trackedGroups = m.metrics.trackedGroups → m'.WellFormed ∧
        (m.metrics.trackedGroups = m.groups.length →
          (m'.metrics.trackedGroups = m'.groups.length ↔ ¬ False)) :=
    fun m' h' hg ht => ⟨h', fun h0 => ⟨fun _ => id, fun _ => by rw [hg, ht, h0]⟩⟩
  cases c with
  | start =>
    rw [call_start]
    split
    · exact hframe _ (coherent_applyEnabled _ _ _)
    · exact hkeep _ h rfl rfl
  | stop => exact hframe _ (coherent_applyEnabled _ _ _)
  | setEnabled v =>
    rcases setEnabled_cases m v now with h' | ⟨-, h'⟩ | ⟨-, h'⟩ <;> simp only [Monitor.call, h']
    · exact hkeep _ h rfl rfl
    · exact hframe _ ((coherent_applyEnabled _ _ _).persist true)
    · exact hframe _ ((coherent_applyEnabled _ _ _).persist false)
  | ingestStart e =>
    exact ⟨h.ingestStart e now, fun ht => ⟨fun _ => id, fun _ => (tracked_ingestStart e now).2 ht⟩⟩
  | ingestCompletion e => exact h.completion e now
  | line limit t =>
    simp only [Monitor.call, handleLineWithin, Stalls]
    by_cases hblank : (Text.strip t).isEmpty = true
    · simp only [hblank, if_true]
      exact hkeep _ h rfl rfl
    simp only [hblank, if_false, Bool.false_eq_true]
    cases hev : eventOfLine limit (Text.strip t) with
    | none =>
      dsimp only
      exact hkeep _ (h.withMetrics _ rfl) rfl rfl
    | some ev =>
      cases ev with
      | start e =>
        dsimp only
        exact ⟨h.ingestStart e now,
          fun ht => ⟨fun _ => id, fun _ => (tracked_ingestStart e now).2 ht⟩⟩
      | completion e =>
        dsimp only
        exact h.completion e now
  | maybeEvaluate => exact h.evaluateDue now
  | deliver ns timeout ok =>
    obtain ⟨failures, hf⟩ := deliver_eq m ns timeout ok
    simp only [Monitor.call, hf]
    exact hkeep _ (h.withMetrics _ rfl) rfl rfl
  | storeWritten store =>
    exact hkeep _ ⟨h.off, h.keys, h.valid, h.models, h.gauge⟩ rfl rfl

theorem coherent_built (settings : Settings) (store : FlagStore) :
    ({ settings, store } : Monitor).Coherent where
  off _ := ⟨rfl, rfl, rfl, rfl⟩
  keys := List.nodup_nil
  valid _ hg := absurd hg List.not_mem_nil
  models _ hp := absurd hp List.not_mem_nil
  gauge := rfl
  tracked := rfl

theorem Reaches.wellFormed {settings : Settings} {store : FlagStore}
    (hm : Reaches settings store m) : m.WellFormed := by
  induction hm with
  | built => exact (coherent_built settings store).toWellFormed
  | call c now _ ih => exact (ih.call now c).1

end Monitor

/-- A monitor keeps three of its promises in every state it reaches: when off it holds no groups,
trace models or times; its groups have distinct keys of supported CLIs, provider ids of at least
zero and normalised model names; and the gauge of the switch reads the switch. The gauge of
tracked groups counts the groups when the monitor is built, and a call from a state that keeps
all four promises keeps them exactly when it does not run an evaluation that evicts a group and
then stops on an arithmetic error. -/
theorem coherent_unless_evaluation_stalls {settings : Settings} {store : FlagStore}
    {m : Monitor} (hm : Monitor.Reaches settings store m) :
    m.WellFormed ∧ ({ settings, store } : Monitor).Coherent ∧
      ∀ (now : Int) (c : Call), m.Coherent → ((m.call now c).Coherent ↔ ¬ m.Stalls now c) := by
  refine ⟨hm.wellFormed, Monitor.coherent_built settings store, fun now c hc => ?_⟩
  obtain ⟨hwf, htr⟩ := hc.toWellFormed.call now c
  exact ⟨fun h' => (htr hc.tracked).1 h'.tracked, fun hns => ⟨hwf, (htr hc.tracked).2 hns⟩⟩

/-- A run in which group "a" stays quiet for an hour while group "b" takes completions whose
token counts overflow its rules' arithmetic. -/
def staleGroupRun : List (Int × Call) :=
  let b (read : Int) : Call := .ingestCompletion ⟨Text.ofString "b", Text.ofString "claude",
    some 200, none, [⟨.int 2, Text.ofString "p", Text.ofString "success", some 200⟩],
    .int (Int.pow 10 308), .int read, .int (8 * Int.pow 10 307), .null, .null⟩
  [(1700000040000, .start),
    (1700000040000, .ingestCompletion ⟨Text.ofString "a", Text.ofString "claude", some 200,
      none, [⟨.int 1, Text.ofString "p", Text.ofString "success", some 200⟩], .int 100,
      .null, .null, .null, .null⟩),
    (1700003640000, .maybeEvaluate),
    (1700003670000, b 1)] ++
  List.replicate 8 (1700003670000, b 0) ++ [(1700003700000, b 0)]

/-- A monitor after a start, a completion of "a", a completion of "b" and an evaluation that
evicts the stale "a". -/
def evictedMonitor : Monitor :=
  ({ store := .memory (.bool true) } : Monitor).run
    (staleGroupRun.take 4 ++ [(1700003700000, .maybeEvaluate)])

/-- That monitor holds "b" alone and keeps its promises, and each later call keeps them exactly
when it does not stall. -/
theorem coherent_after_eviction :
    evictedMonitor.groups.length = 1 ∧ evictedMonitor.WellFormed ∧
      ({ settings := {}, store := .memory (.bool true) } : Monitor).Coherent ∧
      ∀ (now : Int) (c : Call), evictedMonitor.Coherent →
        ((evictedMonitor.call now c).Coherent ↔ ¬ evictedMonitor.Stalls now c) := by
  have hm : Monitor.Reaches {} (.memory (.bool true)) evictedMonitor :=
    Monitor.Reaches.built.run _
  exact ⟨by decide +kernel, coherent_unless_evaluation_stalls hm⟩

/-- The stale group "a" is evicted by the evaluation that a completion of "b" runs, and the
rules of "b" then overflow: the gauge still counts two groups where one is left. -/
theorem tracked_groups_stale_after_overflow :
    Monitor.Reaches {} (.memory (.bool true))
      (({ store := .memory (.bool true) } : Monitor).run staleGroupRun) ∧
    (({ store := .memory (.bool true) } : Monitor).run staleGroupRun).metrics.trackedGroups = 2 ∧
    (({ store := .memory (.bool true) } : Monitor).run staleGroupRun).groups.length = 1 :=
  ⟨Monitor.Reaches.built.run _, by decide +kernel, by decide +kernel⟩

end CacheHitRate
