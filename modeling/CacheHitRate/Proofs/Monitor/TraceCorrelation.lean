import Mathlib.Data.List.Induction
import CacheHitRate.Proofs.Monitor.Step

/-!
Which request start a completion is grouped under. Between two resets the correlator is told two
kinds of things: a start it records, with the requested model and the time it was seen, and a
completion that takes the model of its trace. A completion admitted at `now` is keyed by the model
of the most recent start of its trace seen since `now - traceModelTtlMs` with no take of the trace
after it, and by the unknown model when there is none. The eviction that runs on successful
completions never removes more than this age cutoff does, whatever the interleaving of starts and
completions of other traces: what the trace models hold for a trace is the last thing they were
told of it, cut at an eviction horizon that stays a full time-to-live behind the clock.
-/

namespace CacheHitRate

/-- What the correlator is told: a start of `trace` recorded with its model at `seenAt`, or a
completion of `trace` that took its model. -/
inductive TraceEvent where
  | recorded (trace model : Text) (seenAt : Int)
  | taken (trace : Text)
  deriving DecidableEq, Repr

namespace TraceEvent

def seenAt? : TraceEvent → Option Int
  | .recorded _ _ seenAt => some seenAt
  | .taken _ => none

/-- One event in the choice of a model for a completion of `x` at `now`: a start of `x` seen since
`now - traceModelTtlMs` becomes the choice, and a take of `x` drops it. -/
def pick (x : Text) (now : Int) (choice : Option Text) : TraceEvent → Option Text
  | .recorded y model seenAt =>
    if y = x ∧ now - traceModelTtlMs ≤ seenAt then some model else choice
  | .taken y => if y = x then none else choice

/-- One event in what is known of `x`: a start of `x` is its entry, a take of `x` removes it. -/
def last (x : Text) (known : Option TraceEntry) : TraceEvent → Option TraceEntry
  | .recorded y model seenAt => if y = x then some ⟨model, seenAt⟩ else known
  | .taken y => if y = x then none else known

end TraceEvent

/-- The model a completion of `x` at `now` is keyed by, given what the correlator was told since
the last reset: that of the most recent start of `x` seen since `now - traceModelTtlMs` with no
take of `x` after it, and the unknown model when there is none. -/
def expectedModel (log : List TraceEvent) (x : Text) (now : Int) : Text :=
  (log.foldl (TraceEvent.pick x now) none).getD Normalize.unknown

/-- The entry of the last start of `x` the correlator was told of, unless a take of `x` came
after it. -/
def lastEntry (log : List TraceEvent) (x : Text) : Option TraceEntry :=
  log.foldl (TraceEvent.last x) none

theorem lastEntry_append_singleton (log : List TraceEvent) (ev : TraceEvent) (x : Text) :
    lastEntry (log ++ [ev]) x = TraceEvent.last x (lastEntry log x) ev := by
  simp [lastEntry]

theorem seenAt_mem_of_lastEntry {log : List TraceEvent} {x : Text} {e : TraceEntry}
    (h : lastEntry log x = some e) : e.seenAt ∈ log.filterMap TraceEvent.seenAt? := by
  induction log using List.reverseRecOn generalizing e with
  | nil => simp [lastEntry] at h
  | append_singleton log ev ih =>
    rw [lastEntry_append_singleton] at h
    rw [List.filterMap_append, List.mem_append]
    cases ev with
    | recorded y model seenAt =>
      by_cases hy : y = x
      · simp only [TraceEvent.last, hy, if_true, Option.some.injEq] at h
        subst h
        simp [TraceEvent.seenAt?]
      · simp only [TraceEvent.last, hy, if_false] at h
        exact Or.inl (ih h)
    | taken y =>
      by_cases hy : y = x
      · simp [TraceEvent.last, hy] at h
      · simp only [TraceEvent.last, hy, if_false] at h
        exact Or.inl (ih h)

theorem expectedModel_eq_lastEntry {log : List TraceEvent} (x : Text) (now : Int)
    (hsorted : (log.filterMap TraceEvent.seenAt?).Pairwise (· ≤ ·)) :
    expectedModel log x now =
      (((lastEntry log x).filter fun e => now - traceModelTtlMs ≤ e.seenAt).map
        (·.model)).getD Normalize.unknown := by
  unfold expectedModel
  congr 1
  induction log using List.reverseRecOn with
  | nil => rfl
  | append_singleton log ev ih =>
    have hprefix : (log.filterMap TraceEvent.seenAt?).Pairwise (· ≤ ·) := by
      rw [List.filterMap_append] at hsorted
      exact (List.pairwise_append.1 hsorted).1
    rw [List.foldl_append, List.foldl_cons, List.foldl_nil, lastEntry_append_singleton,
      ih hprefix]
    cases ev with
    | taken y =>
      by_cases hy : y = x <;> simp [TraceEvent.pick, TraceEvent.last, hy]
    | recorded y model seenAt =>
      by_cases hy : y = x
      · by_cases hlive : now - traceModelTtlMs ≤ seenAt
        · simp only [TraceEvent.pick, TraceEvent.last, hy, hlive, and_self, if_true,
            Option.filter_some, decide_true, Option.map_some]
        · have hold : ∀ e, lastEntry log x = some e → e.seenAt ≤ seenAt := by
            intro e he
            rw [List.filterMap_append] at hsorted
            exact (List.pairwise_append.1 hsorted).2.2 _ (seenAt_mem_of_lastEntry he) _
              (by simp [TraceEvent.seenAt?])
          simp only [TraceEvent.pick, TraceEvent.last, hy, hlive, and_false, if_false, if_true,
            Option.filter_some]
          cases hl : lastEntry log x with
          | none => rfl
          | some e =>
            have := hold e hl
            simp only [Option.filter_some]
            rw [if_neg (by simp only [decide_eq_true_eq]; omega)]
            simp
      · simp [TraceEvent.pick, TraceEvent.last, hy]

namespace TraceModels

theorem lookup_cons_ne {x k : Text} (v : TraceEntry) (l : List (Text × TraceEntry)) (h : x ≠ k) :
    ((k, v) :: l).lookup x = l.lookup x := by
  simp [List.lookup_cons, beq_eq_false_iff_ne.mpr h]

theorem lookup_map_replace (l : List (Text × TraceEntry)) (y x : Text) (e : TraceEntry) :
    (l.map fun p => if p.1 = y then (y, e) else p).lookup x =
      if x = y then (if l.any (·.1 = y) then some e else none) else l.lookup x := by
  induction l with
  | nil => split <;> rfl
  | cons p l ih =>
    obtain ⟨k, v⟩ := p
    by_cases hk : k = y
    · subst hk
      by_cases hx : x = k
      · subst hx
        simp [List.lookup_cons_self]
      · simp [hx, lookup_cons_ne _ _ hx, ih]
    · by_cases hx : x = k
      · subst hx
        simp [hk, List.lookup_cons_self]
      · simp only [List.map_cons, hk, if_false, lookup_cons_ne _ _ hx, ih, List.any_cons]
        by_cases hxy : x = y
        · simp only [hxy, if_true, decide_false, Bool.false_or]
        · simp only [hxy, if_false]

theorem lookup_record (t : TraceModels) (y model : Text) (now : Int) (x : Text) :
    (t.record y model now).entries.lookup x =
      if x = y then some ⟨model, now⟩ else t.entries.lookup x := by
  unfold record
  split
  · rename_i hany
    simp only [lookup_map_replace, hany, if_true]
  · rename_i hany
    rw [List.lookup_append]
    by_cases hx : x = y
    · subst hx
      have hnone : t.entries.lookup x = none := by
        refine List.lookup_eq_none_iff.2 fun p hp => ?_
        have : ¬ p.1 = x := fun hp1 => hany (List.any_eq_true.2 ⟨p, hp, by simp [hp1]⟩)
        simp [Ne.symm this]
      simp [hnone, List.lookup_cons_self]
    · simp [hx, lookup_cons_ne _ _ hx]

theorem lookup_filter_ne (l : List (Text × TraceEntry)) (y x : Text) :
    (l.filter (·.1 ≠ y)).lookup x = if x = y then none else l.lookup x := by
  induction l with
  | nil => split <;> rfl
  | cons p l ih =>
    obtain ⟨k, v⟩ := p
    rw [List.filter_cons]
    by_cases hk : k = y
    · rw [if_neg (by simp [hk]), ih]
      by_cases hx : x = y
      · rw [if_pos hx, if_pos hx]
      · rw [if_neg hx, if_neg hx, lookup_cons_ne _ _ (hk ▸ hx)]
    · rw [if_pos (by simp [hk])]
      by_cases hx : x = k
      · subst hx
        rw [List.lookup_cons_self, if_neg hk, List.lookup_cons_self]
      · rw [lookup_cons_ne _ _ hx, lookup_cons_ne _ _ hx, ih]

theorem lookup_take (t : TraceModels) (y x : Text) :
    (t.take y).2.entries.lookup x = if x = y then none else t.entries.lookup x :=
  lookup_filter_ne t.entries y x

theorem lookup_filter_of_nodup {l : List (Text × TraceEntry)} (q : TraceEntry → Bool) (x : Text)
    (hnd : (l.map Prod.fst).Nodup) :
    (l.filter fun p => q p.2).lookup x = (l.lookup x).filter q := by
  induction l with
  | nil => rfl
  | cons p l ih =>
    obtain ⟨k, v⟩ := p
    rw [List.map_cons, List.nodup_cons] at hnd
    rw [List.filter_cons]
    by_cases hx : x = k
    · subst hx
      have hnone : l.lookup x = none := by
        refine List.lookup_eq_none_iff.2 fun p hp => ?_
        have hm : p.1 ∈ l.map Prod.fst := List.mem_map_of_mem hp
        have : p.1 ≠ x := fun h => hnd.1 (by rw [← h]; exact hm)
        simp [Ne.symm this]
      rw [List.lookup_cons_self, Option.filter_some]
      split
      · rw [List.lookup_cons_self]
      · rw [ih hnd.2, hnone]
        rfl
    · rw [lookup_cons_ne _ _ hx]
      split
      · rw [lookup_cons_ne _ _ hx, ih hnd.2]
      · exact ih hnd.2

theorem nodup_record {t : TraceModels} (y model : Text) (now : Int)
    (hnd : (t.entries.map Prod.fst).Nodup) :
    ((t.record y model now).entries.map Prod.fst).Nodup := by
  unfold record
  split
  · have hkeys : (t.entries.map fun p =>
        if p.1 = y then (y, (⟨model, now⟩ : TraceEntry)) else p).map Prod.fst =
          t.entries.map Prod.fst := by
      rw [List.map_map]
      refine List.map_congr_left fun p _ => ?_
      by_cases hp : p.1 = y <;> simp [hp]
    rw [hkeys]
    exact hnd
  · rename_i hany
    rw [List.map_append, List.nodup_append]
    refine ⟨hnd, by simp, ?_⟩
    intro a ha b hb
    simp only [List.map_cons, List.map_nil, List.mem_singleton] at hb
    obtain ⟨p, hp, rfl⟩ := List.mem_map.1 ha
    intro hpy
    exact hany (List.any_eq_true.2 ⟨p, hp, by simp [hpy, hb]⟩)

theorem nodup_filter {l : List (Text × TraceEntry)} (q : Text × TraceEntry → Bool)
    (hnd : (l.map Prod.fst).Nodup) : ((l.filter q).map Prod.fst).Nodup :=
  hnd.sublist (List.filter_sublist.map Prod.fst)

/-- The trace models follow what the correlator was told up to time `t`: their keys are distinct,
each trace holds the last entry it was told of unless that entry is older than an eviction horizon
a full time-to-live behind `t`, and the starts were seen in the order of the clock, by `t`. -/
structure Follows (tm : TraceModels) (t : Int) (log : List TraceEvent) : Prop where
  keys : (tm.entries.map Prod.fst).Nodup
  horizon : ∃ h, h ≤ t - traceModelTtlMs ∧
    ∀ x, tm.entries.lookup x = (lastEntry log x).filter fun e => h ≤ e.seenAt
  past : ∀ τ ∈ log.filterMap TraceEvent.seenAt?, τ ≤ t
  sorted : (log.filterMap TraceEvent.seenAt?).Pairwise (· ≤ ·)

theorem follows_empty (t : Int) : ({} : TraceModels).Follows t [] :=
  ⟨List.nodup_nil, ⟨t - traceModelTtlMs, le_refl _, fun _ => rfl⟩, by simp, by simp⟩

section Follows

variable {tm : TraceModels} {t now : Int} {log : List TraceEvent}

theorem Follows.mono (h : tm.Follows t log) (hle : t ≤ now) : tm.Follows now log := by
  obtain ⟨hor, hhor, hlookup⟩ := h.horizon
  exact ⟨h.keys, ⟨hor, by omega, hlookup⟩, fun τ hτ => le_trans (h.past τ hτ) hle, h.sorted⟩

theorem Follows.record (h : tm.Follows t log) (hle : t ≤ now) (y model : Text) :
    (tm.record y model now).Follows now (log ++ [TraceEvent.recorded y model now]) := by
  obtain ⟨hor, hhor, hlookup⟩ := h.horizon
  have hseen : (log ++ [TraceEvent.recorded y model now]).filterMap TraceEvent.seenAt? =
      log.filterMap TraceEvent.seenAt? ++ [now] := by
    simp [TraceEvent.seenAt?]
  refine ⟨nodup_record y model now h.keys, ⟨hor, by omega, fun x => ?_⟩, ?_, ?_⟩
  · have hin : hor ≤ now := by simp only [traceModelTtlMs] at hhor; omega
    rw [lookup_record, lastEntry_append_singleton, hlookup]
    by_cases hx : x = y
    · simp [hx, TraceEvent.last, hin, Option.filter_some]
    · simp [hx, TraceEvent.last, Ne.symm hx]
  · intro τ hτ
    rw [hseen, List.mem_append, List.mem_singleton] at hτ
    rcases hτ with hτ | rfl
    · exact le_trans (h.past τ hτ) hle
    · exact le_refl _
  · rw [hseen, List.pairwise_append]
    refine ⟨h.sorted, by simp, fun a ha b hb => ?_⟩
    rw [List.mem_singleton] at hb
    subst hb
    exact le_trans (h.past a ha) hle

theorem Follows.take (h : tm.Follows t log) (y : Text) :
    (tm.take y).2.Follows t (log ++ [TraceEvent.taken y]) := by
  obtain ⟨hor, hhor, hlookup⟩ := h.horizon
  have hseen : (log ++ [TraceEvent.taken y]).filterMap TraceEvent.seenAt? =
      log.filterMap TraceEvent.seenAt? := by
    simp [TraceEvent.seenAt?]
  refine ⟨nodup_filter _ h.keys, ⟨hor, hhor, fun x => ?_⟩, hseen ▸ h.past, hseen ▸ h.sorted⟩
  rw [lookup_take, lastEntry_append_singleton, hlookup]
  by_cases hx : x = y
  · simp [hx, TraceEvent.last]
  · simp [hx, TraceEvent.last, Ne.symm hx]

theorem Follows.lookup_evict (h : tm.Follows t log) (hle : t ≤ now) (x : Text) :
    (tm.evictBefore (now - traceModelTtlMs)).2.entries.lookup x =
      (lastEntry log x).filter fun e => now - traceModelTtlMs ≤ e.seenAt := by
  obtain ⟨hor, hhor, hlookup⟩ := h.horizon
  have hcut : hor ≤ now - traceModelTtlMs := by omega
  simp only [evictBefore]
  rw [lookup_filter_of_nodup (fun e => !(e.seenAt < now - traceModelTtlMs)) x h.keys, hlookup,
    Option.filter_filter]
  congr 1
  funext e
  by_cases he : now - traceModelTtlMs ≤ e.seenAt
  · simp [he, show hor ≤ e.seenAt by omega]
  · simp only [he, decide_false, Bool.and_eq_false_iff, Bool.not_eq_false', decide_eq_true_eq]
    omega

theorem Follows.evict (h : tm.Follows t log) (hle : t ≤ now) :
    (tm.evictBefore (now - traceModelTtlMs)).2.Follows now log :=
  ⟨nodup_filter _ h.keys, ⟨now - traceModelTtlMs, le_refl _, h.lookup_evict hle⟩,
    fun τ hτ => le_trans (h.past τ hτ) hle, h.sorted⟩

theorem Follows.take_evict (h : tm.Follows t log) (hle : t ≤ now) (x : Text) :
    (((tm.evictBefore (now - traceModelTtlMs)).2.take x).1).getD Normalize.unknown =
      expectedModel log x now := by
  rw [expectedModel_eq_lastEntry x now h.sorted, ← h.lookup_evict hle x]
  rfl

end Follows

end TraceModels

namespace Monitor

/-- Whether a request start is recorded: the monitor is on, and the start has a trace id and
comes from a supported CLI. -/
def recordsStart (m : Monitor) (e : StartEvent) : Bool :=
  m.isEnabled && !e.traceId.isEmpty && m.settings.supportedClis.contains e.cliKey

/-- Whether a completion reaches the correlator's take: the monitor is on, and the completion has
a trace id, comes from a supported CLI, succeeded, and the provider id of its final attempt
reads as an id. -/
def reachesTake (m : Monitor) (e : CompletionEvent) : Bool :=
  m.isEnabled && !e.traceId.isEmpty && m.settings.supportedClis.contains e.cliKey &&
    e.isSuccess &&
    match finalAttempt e.attempts with
    | some a =>
      match Normalize.providerId? a.providerId with
      | .ok (some _) => true
      | _ => false
    | none => false

/-- What the correlator is told of a request start. -/
def startEvents (m : Monitor) (e : StartEvent) (now : Int) : List TraceEvent :=
  if m.recordsStart e then [.recorded e.traceId (Normalize.modelName e.requestedModel) now] else []

/-- What the correlator is told of a completion. -/
def completionEvents (m : Monitor) (e : CompletionEvent) : List TraceEvent :=
  if m.reachesTake e then [.taken e.traceId] else []

/-- What the correlator is told by a call at `now`. -/
def traceEvents (m : Monitor) (now : Int) : Call → List TraceEvent
  | .ingestStart e => m.startEvents e now
  | .ingestCompletion e => m.completionEvents e
  | .line limit t =>
    if (Text.strip t).isEmpty then [] else
    match eventOfLine limit (Text.strip t) with
    | some (.start e) => m.startEvents e now
    | some (.completion e) => m.completionEvents e
    | none => []
  | _ => []

/-- The states a monitor built with `settings` over `store` reaches on a clock that never goes
back, each with a time the clock has reached and what the correlator was told since the last
reset. -/
inductive TraceLog (settings : Settings) (store : FlagStore) :
    Monitor → Int → List TraceEvent → Prop
  | built (t : Int) : TraceLog settings store { settings, store } t []
  | wait {m : Monitor} {t t' : Int} {log : List TraceEvent} :
      TraceLog settings store m t log → t ≤ t' → TraceLog settings store m t' log
  | call {m : Monitor} {t : Int} {log : List TraceEvent} (c : Call) (now : Int) :
      TraceLog settings store m t log → t ≤ now →
      TraceLog settings store (m.call now c) now
        (if (m.step now c).reset then [] else log ++ m.traceEvents now c)

theorem alertOutcome_reset (anomalies : List (GroupKey × Row × Reason)) (now : Int)
    (m : Monitor) : (alertOutcome anomalies now m).reset = false := by
  unfold alertOutcome
  split <;> rfl

theorem cycleWith_traces (E : Evaluator) (m : Monitor) (now : Int) :
    (cycleWith E m now).saved.traces = if (cycleWith E m now).reset then {} else m.traces := by
  unfold cycleWith
  by_cases hdue : (!m.isEnabled || decide (now - m.lastEval < evalIntervalMs)) = true
  · simp only [hdue, if_true]
    rfl
  simp only [hdue, Bool.false_eq_true, if_false]
  rcases hE : E m.settings.thresholds m.settings.audited m.groups now m.enabledAt with ⟨gs, res⟩
  simp only
  cases res with
  | error err => rfl
  | ok ev =>
    rcases Option.eq_none_or_eq_some ev.failure with hf | ⟨f, hf⟩
    · simp only [hf]
      obtain ⟨hw, hq⟩ := alertOutcome_withoutAlerts ev.anomalies now
        (({ m with lastEval := now, groups := gs } : Monitor).withMetrics fun x =>
          { x with evaluations := x.evaluations + 1, trackedGroups := gs.length })
      simp only [Outcome.saved, hq, alertOutcome_reset]
      have htraces := congrArg Monitor.traces hw
      exact htraces
    · simp only [hf]
      rfl

theorem stepWith_start (E : Evaluator) (m : Monitor) (now : Int) :
    m.stepWith E now .start =
      match m.store.load startDepth with
      | .ok v => { mon := m.applyEnabled v now, reset := true }
      | .error _ => { mon := m } := by
  simp only [stepWith, start]
  cases m.store.load startDepth <;> rfl

theorem saved_countIngestError_traces (o : Outcome) :
    ({ o with mon := countIngestError o.mon } : Outcome).saved.traces = o.saved.traces := by
  unfold Outcome.saved
  cases o.queued <;> rfl

end Monitor

namespace TraceModels.Follows

open Monitor

variable {m : Monitor} {t now : Int} {log : List TraceEvent}

theorem ingestStart (h : m.traces.Follows t log) (hle : t ≤ now) (e : StartEvent) :
    (m.ingestStart e now).traces.Follows now (log ++ m.startEvents e now) := by
  have hskip : (!m.isEnabled || e.traceId.isEmpty || !m.settings.supportedClis.contains e.cliKey) =
      !m.recordsStart e := by
    unfold recordsStart
    cases m.isEnabled <;> cases e.traceId.isEmpty <;>
      cases m.settings.supportedClis.contains e.cliKey <;> rfl
  unfold Monitor.ingestStart startEvents
  rw [hskip]
  cases m.recordsStart e
  · simp only [Bool.not_false, ↓reduceIte, Bool.false_eq_true, List.append_nil]
    exact h.mono hle
  · simp only [Bool.not_true, ↓reduceIte, Bool.false_eq_true]
    exact h.record hle _ _

theorem admission (h : m.traces.Follows t log) (hle : t ≤ now) (hon : m.isEnabled = true)
    (e : CompletionEvent) :
    (m.admission e now).traces.Follows now (log ++ m.completionEvents e) := by
  have hlive := h.evict hle
  cases hempty : e.traceId.isEmpty
  case true =>
    simp only [Monitor.admission, completionEvents, reachesTake, hempty, ↓reduceIte,
      Bool.not_true, Bool.and_false, Bool.false_and, Bool.false_eq_true, List.append_nil,
      Admission.traces]
    exact h.mono hle
  cases hcli : m.settings.supportedClis.contains e.cliKey
  case false =>
    simp only [Monitor.admission, completionEvents, reachesTake, hempty, hcli, ↓reduceIte,
      Bool.not_false, Bool.and_false, Bool.false_and, Bool.false_eq_true, List.append_nil,
      Admission.traces]
    exact h.mono hle
  cases hs : e.isSuccess
  case false =>
    simp only [Monitor.admission, completionEvents, reachesTake, hempty, hcli, hs, ↓reduceIte,
      Bool.not_false, Bool.and_false, Bool.false_and, Bool.false_eq_true, List.append_nil,
      Admission.traces]
    exact h.mono hle
  cases hfa : finalAttempt e.attempts with
  | none =>
    simp only [Monitor.admission, completionEvents, reachesTake, hempty, hcli, hs, hfa,
      ↓reduceIte, Bool.not_false, Bool.not_true, Bool.and_false, Bool.false_eq_true,
      List.append_nil, Admission.traces]
    exact hlive
  | some a =>
    cases hpid : Normalize.providerId? a.providerId with
    | error err =>
      simp only [Monitor.admission, completionEvents, reachesTake, hempty, hcli, hs, hfa, hpid,
        ↓reduceIte, Bool.not_false, Bool.not_true, Bool.and_false, Bool.false_eq_true,
        List.append_nil, Admission.traces]
      exact hlive
    | ok pid =>
      cases pid with
      | none =>
        simp only [Monitor.admission, completionEvents, reachesTake, hempty, hcli, hs, hfa, hpid,
          ↓reduceIte, Bool.not_false, Bool.not_true, Bool.and_false, Bool.false_eq_true,
          List.append_nil, Admission.traces]
        exact hlive
      | some pid =>
        simp only [Monitor.admission, completionEvents, reachesTake, hempty, hcli, hs, hfa, hpid,
          hon, ↓reduceIte, Bool.not_false, Bool.not_true, Bool.and_self, Bool.false_eq_true]
        split <;> exact hlive.take e.traceId

theorem completionWith (h : m.traces.Follows t log) (hle : t ≤ now) (E : Evaluator)
    (e : CompletionEvent) :
    (completionWith E m e now).saved.traces.Follows now
      (if (completionWith E m e now).reset then [] else log ++ m.completionEvents e) := by
  unfold Monitor.completionWith
  cases hon : m.isEnabled
  · simp only [Bool.not_false, ↓reduceIte, Bool.false_eq_true, completionEvents, reachesTake, hon,
      Bool.false_and, List.append_nil, Outcome.saved]
    exact h.mono hle
  have hadm := h.admission hle hon e
  simp only [Bool.not_true, Bool.false_eq_true, ↓reduceIte]
  cases hA : m.admission e now with
  | dropped r traces =>
    rw [hA] at hadm
    exact hadm
  | failed err traces =>
    rw [hA] at hadm
    exact hadm
  | admitted key name s traces =>
    rw [hA] at hadm
    have hcycle := cycleWith_traces E (addSample key name s { m with traces }) now
    have hkeep : ∀ o : Outcome, o.saved.traces =
        (if o.reset then {} else traces) →
        o.saved.traces.Follows now (if o.reset then [] else log ++ m.completionEvents e) := by
      intro o ho
      rw [ho]
      cases o.reset
      · exact hadm
      · exact follows_empty now
    dsimp only
    split
    · exact hkeep _ (by rw [saved_countIngestError_traces]; exact hcycle)
    · exact hkeep _ hcycle

theorem stepWith (h : m.traces.Follows t log) (hle : t ≤ now) (E : Evaluator) (c : Call) :
    (m.stepWith E now c).saved.traces.Follows now
      (if (m.stepWith E now c).reset then [] else log ++ m.traceEvents now c) := by
  cases c with
  | start =>
    rw [stepWith_start]
    cases m.store.load startDepth
    · simpa [traceEvents, Outcome.saved] using h.mono hle
    · exact follows_empty now
  | stop => exact follows_empty now
  | setEnabled v =>
    simp only [Monitor.stepWith]
    split
    · simpa [traceEvents, Outcome.saved] using h.mono hle
    · exact follows_empty now
  | ingestStart e => exact h.ingestStart hle e
  | ingestCompletion e => exact h.completionWith hle E e
  | line limit text =>
    simp only [Monitor.stepWith, traceEvents]
    split
    · simpa [Outcome.saved] using h.mono hle
    · split <;> rename_i hev <;> simp only [hev]
      · simpa [Outcome.saved, withMetrics] using h.mono hle
      · exact h.ingestStart hle _
      · exact h.completionWith hle E _
  | maybeEvaluate =>
    simp only [Monitor.stepWith, traceEvents, List.append_nil]
    rw [cycleWith_traces]
    cases (cycleWith E m now).reset
    · exact h.mono hle
    · exact follows_empty now
  | deliver ns timeout ok =>
    obtain ⟨failures, hf⟩ := deliver_eq m ns timeout ok
    simp only [Monitor.stepWith, Outcome.saved, hf, traceEvents]
    simpa [withMetrics] using h.mono hle
  | storeWritten store => simpa [Monitor.stepWith, traceEvents, Outcome.saved] using h.mono hle

end TraceModels.Follows

namespace Monitor

variable {settings : Settings} {store : FlagStore}

theorem TraceLog.follows {m : Monitor} {t : Int} {log : List TraceEvent}
    (hrun : m.TraceLog settings store t log) : m.traces.Follows t log := by
  induction hrun with
  | built t => exact TraceModels.follows_empty t
  | wait _ hle ih => exact ih.mono hle
  | call c now _ hle ih =>
    rw [← (step_saved _ now c).1]
    exact ih.stepWith hle evaluate c

/-- Every state a run reaches has what the correlator was told since its last reset. -/
theorem ReachesBy.traceLog {m : Monitor} {t : Int} (h : ReachesBy settings store m t) :
    ∃ log, m.TraceLog settings store t log := by
  induction h with
  | built t => exact ⟨[], .built t⟩
  | wait _ hle ih =>
    obtain ⟨log, hlog⟩ := ih
    exact ⟨log, hlog.wait hle⟩
  | call c now _ hle ih =>
    obtain ⟨log, hlog⟩ := ih
    exact ⟨_, hlog.call c now hle⟩

/-- A completion admitted at `now` is keyed by the model of the most recent start of its trace
seen since `now - traceModelTtlMs`, recorded since the last reset and with no take of the trace
after it; by the unknown model when there is none. -/
theorem completion_keyed_by_latest_live_start {m : Monitor} {t now : Int}
    {log : List TraceEvent} (hrun : m.TraceLog settings store t log) (hle : t ≤ now)
    {e : CompletionEvent} {key : GroupKey} {name : Text} {s : Sample} {traces : TraceModels}
    (hadm : m.admission e now = .admitted key name s traces) :
    key.model = expectedModel log e.traceId now := by
  obtain ⟨-, -, a, pid, -, -, hkey, -⟩ := admission_admitted hadm
  rw [hkey]
  exact hrun.follows.take_evict hle e.traceId

/-- A started monitor told of two starts of request "a", for models "m1" and then "m2". -/
def twiceStarted : Monitor :=
  ((({ store := .memory (.bool true) } : Monitor).call 0 .start).call 1000
    (.ingestStart ⟨Text.ofString "a", Text.ofString "claude", .str (Text.ofString "m1")⟩)).call 2000
    (.ingestStart ⟨Text.ofString "a", Text.ofString "claude", .str (Text.ofString "m2")⟩)

/-- What the correlator of `twiceStarted` was told. -/
def twiceStartedLog : List TraceEvent :=
  [.recorded (Text.ofString "a") (Text.ofString "m1") 1000,
    .recorded (Text.ofString "a") (Text.ofString "m2") 2000]

/-- A successful completion of request "a", served by provider 1. -/
def completionOfA : CompletionEvent :=
  ⟨Text.ofString "a", Text.ofString "claude", some 200, none,
    [⟨.int 1, Text.ofString "p", Text.ofString "success", some 200⟩],
    .int 10, .null, .null, .null, .null⟩

theorem completion_keyed_by_later_start :
    (⟨Text.ofString "claude", 1, Text.ofString "m2"⟩ : GroupKey).model =
      expectedModel twiceStartedLog (Text.ofString "a") 60000 := by
  have hrun : twiceStarted.TraceLog {} (.memory (.bool true)) 2000 twiceStartedLog :=
    (((TraceLog.built 0).call .start 0 (le_refl 0)).call
      (.ingestStart ⟨Text.ofString "a", Text.ofString "claude", .str (Text.ofString "m1")⟩) 1000
      (by decide)).call
      (.ingestStart ⟨Text.ofString "a", Text.ofString "claude", .str (Text.ofString "m2")⟩) 2000
      (by decide)
  have hadm : twiceStarted.admission completionOfA 60000 =
      .admitted ⟨Text.ofString "claude", 1, Text.ofString "m2"⟩ (Text.ofString "p")
        { minute := 1, denomTokens := 10, cacheReadTokens := 0, cacheCreateTokens := 0,
          tsMs := 60000 } {} := rfl
  exact completion_keyed_by_latest_live_start hrun (by decide) hadm

end Monitor

end CacheHitRate
