import CacheHitRate.Monitor.Feed
import CacheHitRate.Proofs.Monitor.Groups

/-!
Runs of a monitor. A program holds one monitor and calls it: it starts and stops it, switches
it, hands it request starts and completions (as events or as lines of the event feed), lets it
evaluate, sends the notices it gave, and between calls the store that keeps the switch may be
rewritten from outside. `Reaches` collects the states reached so with any settings, events and
clock values; `ReachesBy` those reached on a clock that never goes back, with the clock's last
value. A feed of several lines is a run of line calls at one clock value.

Each call that only counts gets its inversion lemma here: the delivery of notices counts the
failed sends, and a line of the feed is skipped, counted as a parse error, or handed on as an
event.
-/

namespace CacheHitRate

/-- A call a program makes on its monitor. -/
inductive Call where
  | start
  | stop
  | setEnabled (v : Json)
  | ingestStart (e : StartEvent)
  | ingestCompletion (e : CompletionEvent)
  /-- One line of the event feed, read with a nesting budget of `limit`. -/
  | line (limit : Nat) (t : Text)
  | maybeEvaluate
  /-- Notices handed to a sender whose sends are bounded by `timeout` and succeed when `ok`. -/
  | deliver (ns : List Notice) (timeout : SendTimeout) (ok : Bool)
  | storeWritten (store : FlagStore)

/-- Whether a call sets the switch: a start, a stop or a switch. -/
def Call.setsSwitch : Call → Bool
  | .start | .stop | .setEnabled _ => true
  | _ => false

namespace Monitor

/-- The monitor after one call at time `now`. A start whose switch file overflows the reader
fails and leaves the monitor as it was. -/
def call (m : Monitor) (now : Int) : Call → Monitor
  | .start =>
    match m.start now with
    | .ok m' => m'
    | .error _ => m
  | .stop => m.stop now
  | .setEnabled v => m.setEnabled v now
  | .ingestStart e => m.ingestStart e now
  | .ingestCompletion e => (m.completion e now).1
  | .line limit t => (m.handleLineWithin limit t now).1
  | .maybeEvaluate => (m.maybeEvaluate now).1
  | .deliver ns timeout ok => (m.deliver ns timeout ok).1
  | .storeWritten store => { m with store }

/-- The monitor after a run of calls, each made at its own time. -/
def run (m : Monitor) (calls : List (Int × Call)) : Monitor :=
  calls.foldl (fun m c => m.call c.1 c.2) m

/-- The states a monitor built with `settings` over `store` reaches, at any clock values. -/
inductive Reaches (settings : Settings) (store : FlagStore) : Monitor → Prop
  | built : Reaches settings store { settings, store }
  | call {m : Monitor} (c : Call) (now : Int) :
      Reaches settings store m → Reaches settings store (m.call now c)

/-- The states reached on a clock that never goes back, each with a time `t` the clock has
reached: the calls so far were made at times up to `t`, and the next is made at `t` or later. -/
inductive ReachesBy (settings : Settings) (store : FlagStore) : Monitor → Int → Prop
  | built (t : Int) : ReachesBy settings store { settings, store } t
  | wait {m : Monitor} {t t' : Int} :
      ReachesBy settings store m t → t ≤ t' → ReachesBy settings store m t'
  | call {m : Monitor} {t : Int} (c : Call) (now : Int) :
      ReachesBy settings store m t → t ≤ now → ReachesBy settings store (m.call now c) now

theorem Reaches.run {settings : Settings} {store : FlagStore} {m : Monitor}
    (h : Reaches settings store m) (calls : List (Int × Call)) :
    Reaches settings store (m.run calls) := by
  induction calls generalizing m with
  | nil => exact h
  | cons c calls ih => exact ih (h.call c.2 c.1)

/-- Whether the times of a run of calls never go back, from a clock at `t`. -/
def forward (t : Int) : List (Int × Call) → Bool
  | [] => true
  | c :: calls => decide (t ≤ c.1) && forward c.1 calls

/-- The clock after a run of calls from `t`: the time of its last call. -/
def lastTime (t : Int) (calls : List (Int × Call)) : Int := calls.foldl (fun _ c => c.1) t

theorem ReachesBy.run {settings : Settings} {store : FlagStore} {m : Monitor} {t : Int}
    (h : ReachesBy settings store m t) (calls : List (Int × Call)) (hfwd : forward t calls) :
    ReachesBy settings store (m.run calls) (lastTime t calls) := by
  induction calls generalizing m t with
  | nil => exact h
  | cons c calls ih =>
    obtain ⟨hle, hrest⟩ : t ≤ c.1 ∧ forward c.1 calls = true := by simpa [forward] using hfwd
    exact ih (h.call c.2 c.1 hle) hrest

theorem ReachesBy.reaches {settings : Settings} {store : FlagStore} {m : Monitor} {t : Int}
    (h : ReachesBy settings store m t) : Reaches settings store m := by
  induction h with
  | built t => exact .built
  | wait _ _ ih => exact ih
  | call c now _ _ ih => exact .call c now ih

/-- A feed of lines is a run of line calls at one clock value. -/
theorem ReachesBy.feed {settings : Settings} {store : FlagStore} {m : Monitor} {t : Int}
    (h : ReachesBy settings store m t) {now : Int} (hle : t ≤ now) (text : Text) :
    ReachesBy settings store (m.feed text now).1 now := by
  have hrun : ∀ (f : Monitor × Nat × List Notice → Text → Monitor × Nat × List Notice),
      (∀ acc line, (f acc line).1 = acc.1.call now (.line streamDepth line)) →
      ∀ (lines : List Text) acc, ReachesBy settings store acc.1 now →
        ReachesBy settings store (lines.foldl f acc).1 now := by
    intro f hf lines
    induction lines with
    | nil => exact fun _ hacc => hacc
    | cons line lines ih =>
      intro acc hacc
      have hstep := hacc.call (.line streamDepth line) now (Int.le_refl now)
      rw [← hf acc line] at hstep
      exact ih _ hstep
  unfold Monitor.feed
  refine hrun _ (fun acc line => ?_) _ _ (h.wait hle)
  obtain ⟨m, n, ns⟩ := acc
  rfl

variable (m : Monitor)

theorem call_start (now : Int) :
    m.call now .start =
      match m.store.load startDepth with
      | .ok v => m.applyEnabled v now
      | .error _ => m := by
  simp only [call, start]
  cases m.store.load startDepth <;> rfl

theorem setEnabled_cases (v : Json) (now : Int) :
    m.setEnabled v now = m ∨
      (v = .bool true ∧ m.setEnabled v now = (m.applyEnabled (.bool true) now).persist true) ∨
      (v ≠ .bool true ∧ m.setEnabled v now = (m.applyEnabled (.bool false) now).persist false) := by
  simp only [setEnabled]
  split
  · split
    · exact Or.inl rfl
    · exact Or.inr (Or.inl ⟨rfl, rfl⟩)
  · rename_i hv
    split
    · exact Or.inl rfl
    · exact Or.inr (Or.inr ⟨hv, rfl⟩)

theorem ingestStart_eq (e : StartEvent) (now : Int) :
    ∃ traces, m.ingestStart e now = { m with traces } := by
  unfold ingestStart
  split
  · exact ⟨m.traces, rfl⟩
  · exact ⟨_, rfl⟩

theorem deliver_eq (ns : List Notice) (timeout : SendTimeout) (ok : Bool) :
    ∃ failures, (m.deliver ns timeout ok).1 =
      m.withMetrics fun x => { x with noticeFailures := failures } := by
  have hfold : ∀ (ok : Bool) (ns : List Notice) (m : Monitor), ∃ failures,
      ns.foldl (fun m n => m.delivered n ok) m =
        m.withMetrics fun x => { x with noticeFailures := failures } := by
    intro ok ns
    induction ns with
    | nil => exact fun m => ⟨m.metrics.noticeFailures, rfl⟩
    | cons n ns ih =>
      intro m
      obtain ⟨failures, hf⟩ := ih (m.delivered n ok)
      refine ⟨failures, ?_⟩
      rw [List.foldl_cons, hf]
      unfold delivered
      cases ok <;> rfl
  unfold deliver
  split
  · exact hfold ok ns m
  · exact hfold false ns m

theorem handleLineWithin_cases (limit : Nat) (line : Text) (now : Int) :
    (m.handleLineWithin limit line now).1 = m ∨
      (m.handleLineWithin limit line now).1 = m.withMetrics (fun x =>
        { x with ingestErrors := x.ingestErrors.bump (Text.ofString "parse") }) ∨
      (∃ e, (m.handleLineWithin limit line now).1 = m.ingestStart e now) ∨
      (∃ e, (m.handleLineWithin limit line now).1 = (m.completion e now).1) := by
  simp only [handleLineWithin]
  split
  · exact Or.inl rfl
  · split
    · exact Or.inr (Or.inl rfl)
    · exact Or.inr (Or.inr (Or.inl ⟨_, rfl⟩))
    · exact Or.inr (Or.inr (Or.inr ⟨_, rfl⟩))

end Monitor

end CacheHitRate
