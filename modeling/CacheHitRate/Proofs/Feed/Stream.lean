import CacheHitRate.Proofs.Feed.Line
/-!
The event feed read from a stream by two threads. A reader thread calls `readline` and posts each
line into a queue of `queueSize` lines, waiting while it is full; once the stream is over, or
`readline` raises, it posts the empty text as an end marker. The consumer loop takes lines from
the queue and hands each to the line handler until it takes the end marker or is stopped. A stop
is seen at the loop's condition and while the loop waits for a line. Once the loop is gone a
post fails and the reader returns.

`Step` lets the two threads, `stop` and the closing of the loop interleave in any order. Every
interleaving ends, since `State.work` falls at each step. The lines handled are always a prefix
of the stream (`Sound`). While no stop is asked, a run cannot get stuck before the loop returns,
and when it returns it has handled the whole stream, each line once and in order.
-/
namespace CacheHitRate

namespace StreamFeed

/-- What the reader posts once the stream is over: the empty text, which `readline` gives only at
the end of a stream, so that no line can be taken for it. -/
def endMarker : Text := Text.empty

/-- Lines buffered ahead of the monitor before the reader waits. -/
def queueSize : Nat := 1024

/-- Where the reader thread is, with the lines of the stream it has not read yet. -/
inductive Reader where
  /-- Not started. -/
  | idle (rest : List Text)
  /-- About to call `readline`. -/
  | reading (rest : List Text)
  /-- Waiting to put a line it has read into the queue. -/
  | posting (line : Text) (rest : List Text)
  /-- The stream is over: about to post the end marker. -/
  | ending
  /-- Returned. -/
  | done

/-- Where the consumer loop is. -/
inductive Consumer where
  /-- The feed has not been run. -/
  | idle
  /-- At the loop's condition, which reads the stop signal. -/
  | head
  /-- Waiting for the first of a line from the queue and the stop signal. -/
  | waiting
  /-- The run has returned. -/
  | finished
  deriving DecidableEq

/-- A feed in the middle of a run: the two threads, the queue between them, whether a stop was
asked and whether the loop is closed. `handled` lists the lines handed to the line handler, in
the order it got them. -/
structure State where
  reader : Reader
  consumer : Consumer
  queue : List Text
  stopped : Bool
  closed : Bool
  handled : List Text

def init (lines : List Text) : State where
  reader := .idle lines
  consumer := .idle
  queue := []
  stopped := false
  closed := false
  handled := []

/-- One step of the reader thread. -/
inductive ReaderStep : State → State → Prop
  /-- `readline` gives the next line. -/
  | read {s : State} {line : Text} {rest : List Text} :
      s.reader = .reading (line :: rest) → ReaderStep s { s with reader := .posting line rest }
  /-- `readline` gives the empty text: the stream is over. -/
  | eof {s : State} : s.reader = .reading [] → ReaderStep s { s with reader := .ending }
  /-- `readline` raises after the last line it gave: the reader ends the stream there. -/
  | fail {s : State} : s.reader = .reading [] → ReaderStep s { s with reader := .ending }
  /-- The line goes into the queue, which has room. -/
  | post {s : State} {line : Text} {rest : List Text} :
      s.reader = .posting line rest → s.queue.length < queueSize → s.closed = false →
      ReaderStep s { s with reader := .reading rest, queue := s.queue ++ [line] }
  /-- The end marker goes into the queue, and the reader returns. -/
  | postEnd {s : State} :
      s.reader = .ending → s.queue.length < queueSize → s.closed = false →
      ReaderStep s { s with reader := .done, queue := s.queue ++ [endMarker] }
  /-- The loop is closed: the post fails and the reader returns. -/
  | lost {s : State} {line : Text} {rest : List Text} :
      s.reader = .posting line rest → s.closed = true → ReaderStep s { s with reader := .done }
  /-- The loop is closed: posting the end marker fails and the reader returns. -/
  | lostEnd {s : State} :
      s.reader = .ending → s.closed = true → ReaderStep s { s with reader := .done }

/-- One step of the consumer loop. -/
inductive ConsumerStep : State → State → Prop
  /-- The run starts the reader and enters the loop. -/
  | start {s : State} {rest : List Text} :
      s.consumer = .idle → s.stopped = false → s.reader = .idle rest →
      ConsumerStep s { s with consumer := .head, reader := .reading rest }
  /-- The run is called after a stop and returns at once. -/
  | skip {s : State} :
      s.consumer = .idle → s.stopped = true → ConsumerStep s { s with consumer := .finished }
  /-- No stop was asked: the loop waits for a line. -/
  | wait {s : State} :
      s.consumer = .head → s.stopped = false → ConsumerStep s { s with consumer := .waiting }
  /-- A stop was asked: the loop ends. -/
  | leave {s : State} :
      s.consumer = .head → s.stopped = true → ConsumerStep s { s with consumer := .finished }
  /-- A line comes first, and it is handled. -/
  | take {s : State} {line : Text} {rest : List Text} :
      s.consumer = .waiting → s.queue = line :: rest → line.isEmpty = false →
      ConsumerStep s { s with consumer := .head, queue := rest, handled := s.handled ++ [line] }
  /-- The end marker comes first: the run returns. -/
  | takeEnd {s : State} {line : Text} {rest : List Text} :
      s.consumer = .waiting → s.queue = line :: rest → line.isEmpty = true →
      ConsumerStep s { s with consumer := .finished, queue := rest }
  /-- The stop signal comes first: the pending read is dropped and the run returns. -/
  | quit {s : State} :
      s.consumer = .waiting → s.stopped = true → ConsumerStep s { s with consumer := .finished }

/-- One step of a run: a step of either thread, a first call of `stop`, or the loop closing once
the run has returned. -/
inductive Step : State → State → Prop
  | reader {s s' : State} : ReaderStep s s' → Step s s'
  | consumer {s s' : State} : ConsumerStep s s' → Step s s'
  | stop {s : State} : s.stopped = false → Step s { s with stopped := true }
  | close {s : State} : s.consumer = .finished → s.closed = false → Step s { s with closed := true }

/-- The states a run over a stream of `lines` can reach, in any interleaving. -/
inductive Reachable (lines : List Text) : State → Prop
  | initial : Reachable lines (init lines)
  | step {s s' : State} : Reachable lines s → Step s s' → Reachable lines s'

/-! ### Every run ends -/

/-- The reader's steps left, weighted so that each line it posts also pays for the two steps
the loop takes over it. -/
def Reader.work : Reader → Nat
  | .idle rest => 4 * rest.length + 4
  | .reading rest => 4 * rest.length + 4
  | .posting _ rest => 4 * rest.length + 7
  | .ending => 3
  | .done => 0

def Consumer.work : Consumer → Nat
  | .idle => 3
  | .head => 2
  | .waiting => 1
  | .finished => 0

/-- A bound on the steps a run has left. -/
def State.work (s : State) : Nat :=
  s.reader.work + 2 * s.queue.length + s.consumer.work + (if s.stopped then 0 else 1) +
    (if s.closed then 0 else 1)

theorem ReaderStep.work_lt {s s' : State} (h : ReaderStep s s') : s'.work < s.work := by
  cases h <;> simp_all [State.work, Reader.work] <;> omega

theorem ConsumerStep.work_lt {s s' : State} (h : ConsumerStep s s') : s'.work < s.work := by
  cases h with
  | start hc hs hr => simp only [State.work, Reader.work, Consumer.work, hc, hs, hr]; omega
  | skip hc hs => simp only [State.work, Consumer.work, hc, hs]; omega
  | wait hc hs => simp only [State.work, Consumer.work, hc, hs]; omega
  | leave hc hs => simp only [State.work, Consumer.work, hc, hs]; omega
  | take hc hq _ => simp only [State.work, Consumer.work, hc, hq, List.length_cons]; omega
  | takeEnd hc hq _ => simp only [State.work, Consumer.work, hc, hq, List.length_cons]; omega
  | quit hc hs => simp only [State.work, Consumer.work, hc, hs]; omega

theorem Step.work_lt {s s' : State} (h : Step s s') : s'.work < s.work := by
  cases h with
  | reader h => exact h.work_lt
  | consumer h => exact h.work_lt
  | stop h => simp [State.work, h]
  | close _ h => simp [State.work, h]

theorem step_wellFounded : WellFounded (flip Step) :=
  Subrelation.wf (fun h => Step.work_lt h) (InvImage.wf State.work Nat.lt_wfRel.wf)

/-! ### What every run keeps -/

/-- What the reader will still post, in order: the lines it has not posted and the end marker. -/
def Reader.ahead : Reader → List Text
  | .idle rest => rest ++ [endMarker]
  | .reading rest => rest ++ [endMarker]
  | .posting line rest => line :: rest ++ [endMarker]
  | .ending => [endMarker]
  | .done => []

theorem ReaderStep.flow {s s' : State} (h : ReaderStep s s') (hopen : s.closed = false) :
    s'.queue ++ s'.reader.ahead = s.queue ++ s.reader.ahead := by
  cases h with
  | read hr => simp [hr, Reader.ahead]
  | eof hr => simp [hr, Reader.ahead]
  | fail hr => simp [hr, Reader.ahead]
  | post hr _ _ => simp [hr, Reader.ahead]
  | postEnd hr _ _ => simp [hr, Reader.ahead]
  | lost _ hclosed => simp [hclosed] at hopen
  | lostEnd _ hclosed => simp [hclosed] at hopen

theorem ReaderStep.frame {s s' : State} (h : ReaderStep s s') :
    s'.consumer = s.consumer ∧ s'.handled = s.handled ∧ s'.stopped = s.stopped ∧
      s'.closed = s.closed ∧ (∀ rest, s.reader ≠ .idle rest) ∧ (∀ rest, s'.reader ≠ .idle rest) := by
  cases h <;> simp_all

/-- What holds of every state a run over `lines` reaches. Until the loop returns, the lines
handled, the queue and what the reader has ahead make up the stream and then its end marker. -/
structure Sound (lines : List Text) (s : State) : Prop where
  flow : s.consumer ≠ .finished → s.handled ++ s.queue ++ s.reader.ahead = lines ++ [endMarker]
  closed : s.closed = true → s.consumer = .finished
  idle : s.consumer = .idle → ∃ rest, s.reader = .idle rest
  unstarted : ∀ rest, s.reader = .idle rest → s.consumer = .idle ∨ s.consumer = .finished
  along : s.handled <+: lines
  drained : s.consumer = .finished → s.stopped = false → s.handled = lines

section Sound

variable {lines : List Text} {s s' : State}

theorem sound_init : Sound lines (init lines) where
  flow _ := by simp [init, Reader.ahead]
  closed h := by simp [init] at h
  idle _ := ⟨lines, rfl⟩
  unstarted _ _ := Or.inl rfl
  along := List.nil_prefix
  drained h := by simp [init] at h

theorem Sound.loopOpen (hs : Sound lines s) (hrun : s.consumer ≠ .finished) : s.closed = false := by
  cases hclosed : s.closed
  · rfl
  · exact absurd (hs.closed hclosed) hrun

theorem next_in_stream {handled more : List Text} {line : Text}
    (hlines : ∀ l ∈ lines, l.isEmpty = false) (hpre : handled <+: lines)
    (hflow : handled ++ line :: more = lines ++ [endMarker]) :
    (line.isEmpty = false ∧ handled ++ [line] <+: lines) ∨
      (line.isEmpty = true ∧ handled = lines) := by
  obtain ⟨rest, rfl⟩ := hpre
  cases rest with
  | nil =>
    obtain ⟨hline, -⟩ : line = endMarker ∧ more = [] := by simpa using hflow
    exact Or.inr ⟨by simp [hline, endMarker, Text.empty, Text.isEmpty], by simp⟩
  | cons next rest =>
    obtain ⟨hnext, -⟩ : line = next ∧ more = rest ++ [endMarker] := by simpa using hflow
    subst hnext
    exact Or.inl ⟨hlines line (by simp), ⟨rest, by simp⟩⟩

theorem sound_of_finished (hfin : s.consumer = .finished) (halong : s.handled <+: lines)
    (hdrained : s.stopped = false → s.handled = lines) : Sound lines s where
  flow h := absurd hfin h
  closed _ := hfin
  idle h := by simp [hfin] at h
  unstarted _ _ := Or.inr hfin
  along := halong
  drained _ := hdrained

theorem Sound.started (hs : Sound lines s) (hc : s.consumer = .head ∨ s.consumer = .waiting) :
    ∀ rest, s.reader ≠ .idle rest := fun rest hr => by
  rcases hs.unstarted rest hr with h | h <;> rcases hc with hc | hc <;> simp [hc] at h

theorem Sound.running (hs : Sound lines s) (hrun : s.consumer ≠ .finished)
    (hc : s'.consumer = .head ∨ s'.consumer = .waiting) (hclosed : s'.closed = s.closed)
    (hstarted : ∀ rest, s'.reader ≠ .idle rest)
    (hflow : s'.handled ++ s'.queue ++ s'.reader.ahead = lines ++ [endMarker])
    (halong : s'.handled <+: lines) : Sound lines s' where
  flow _ := hflow
  closed h := by simp [hclosed, hs.loopOpen hrun] at h
  idle h := by rcases hc with hc | hc <;> simp [hc] at h
  unstarted rest hr := absurd hr (hstarted rest)
  along := halong
  drained h := by rcases hc with hc | hc <;> simp [hc] at h

theorem Sound.readerStep (hs : Sound lines s) (h : ReaderStep s s') : Sound lines s' := by
  obtain ⟨hconsumer, hhandled, hstopped, hclosed, hstarted, hstarted'⟩ := h.frame
  refine ⟨fun hrun => ?_, fun hc => ?_, fun hidle => ?_, fun rest hr => ?_, hhandled ▸ hs.along,
    fun hfin hstop => ?_⟩
  · rw [hconsumer] at hrun
    rw [hhandled, List.append_assoc, h.flow (hs.loopOpen hrun), ← List.append_assoc]
    exact hs.flow hrun
  · rw [hconsumer]
    exact hs.closed (hclosed ▸ hc)
  · obtain ⟨rest, hr⟩ := hs.idle (hconsumer ▸ hidle)
    exact absurd hr (hstarted rest)
  · exact absurd hr (hstarted' rest)
  · rw [hhandled]
    exact hs.drained (hconsumer ▸ hfin) (hstopped ▸ hstop)

theorem Sound.consumerStep (hlines : ∀ l ∈ lines, l.isEmpty = false) (hs : Sound lines s)
    (h : ConsumerStep s s') : Sound lines s' := by
  cases h with
  | start hidle _ hr =>
    exact hs.running (by simp [hidle]) (Or.inl rfl) rfl (fun _ => by simp)
      (by simpa [hr, Reader.ahead] using hs.flow (by simp [hidle])) hs.along
  | skip _ hstop => exact sound_of_finished rfl hs.along (fun h => by simp [hstop] at h)
  | wait hhead _ =>
    exact hs.running (by simp [hhead]) (Or.inr rfl) rfl (hs.started (Or.inl hhead))
      (hs.flow (by simp [hhead])) hs.along
  | leave _ hstop => exact sound_of_finished rfl hs.along (fun h => by simp [hstop] at h)
  | take hwait hq hline =>
    have hflow := hs.flow (by simp [hwait])
    rw [hq, List.append_assoc, List.cons_append] at hflow
    have hnext := (next_in_stream hlines hs.along hflow).resolve_right (by simp [hline])
    exact hs.running (by simp [hwait]) (Or.inl rfl) rfl (hs.started (Or.inr hwait))
      (by simpa using hflow) hnext.2
  | takeEnd hwait hq hline =>
    have hflow := hs.flow (by simp [hwait])
    rw [hq, List.append_assoc, List.cons_append] at hflow
    have hend := (next_in_stream hlines hs.along hflow).resolve_left (by simp [hline])
    exact sound_of_finished rfl hs.along (fun _ => hend.2)
  | quit _ hstop => exact sound_of_finished rfl hs.along (fun h => by simp [hstop] at h)

theorem Sound.step (hlines : ∀ l ∈ lines, l.isEmpty = false) (hs : Sound lines s)
    (h : Step s s') : Sound lines s' := by
  cases h with
  | reader h => exact hs.readerStep h
  | consumer h => exact hs.consumerStep hlines h
  | stop _ =>
    exact ⟨hs.flow, hs.closed, hs.idle, hs.unstarted, hs.along, fun _ hstop => by simp at hstop⟩
  | close hfin _ => exact sound_of_finished hfin hs.along (hs.drained hfin)

theorem Reachable.sound (hlines : ∀ l ∈ lines, l.isEmpty = false) (h : Reachable lines s) :
    Sound lines s := by
  induction h with
  | initial => exact sound_init
  | step _ hstep ih => exact ih.step hlines hstep

/-- While no stop is asked, a run that has not returned can go on: one of the two threads has a
step. -/
theorem Sound.progress (hs : Sound lines s) (hstop : s.stopped = false)
    (hrun : s.consumer ≠ .finished) : ∃ s', ReaderStep s s' ∨ ConsumerStep s s' := by
  have hopen := hs.loopOpen hrun
  cases hc : s.consumer with
  | idle =>
    obtain ⟨rest, hr⟩ := hs.idle hc
    exact ⟨_, .inr (.start hc hstop hr)⟩
  | head => exact ⟨_, .inr (.wait hc hstop)⟩
  | waiting =>
    cases hq : s.queue with
    | cons line rest =>
      cases hline : line.isEmpty
      · exact ⟨_, .inr (.take hc hq hline)⟩
      · exact ⟨_, .inr (.takeEnd hc hq hline)⟩
    | nil =>
      cases hr : s.reader with
      | idle rest => rcases hs.unstarted rest hr with h | h <;> simp [hc] at h
      | reading rest =>
        cases rest with
        | nil => exact ⟨_, .inl (.eof hr)⟩
        | cons line rest => exact ⟨_, .inl (.read hr)⟩
      | posting line rest => exact ⟨_, .inl (.post hr (by simp [hq, queueSize]) hopen)⟩
      | ending => exact ⟨_, .inl (.postEnd hr (by simp [hq, queueSize]) hopen)⟩
      | done =>
        have hflow := hs.flow hrun
        obtain ⟨unread, hunread⟩ := hs.along
        rw [hq, hr, ← hunread] at hflow
        have hlen := congrArg List.length hflow
        simp [Reader.ahead] at hlen
  | finished => exact absurd hc hrun

end Sound

theorem ConsumerStep.finish_of_stopped {s : State} (hstop : s.stopped = true)
    (hrun : s.consumer ≠ .finished) :
    ∃ s', ConsumerStep s s' ∧ s'.consumer = .finished ∧ s'.handled = s.handled := by
  cases hc : s.consumer with
  | idle => exact ⟨_, .skip hc hstop, rfl, rfl⟩
  | head => exact ⟨_, .leave hc hstop, rfl, rfl⟩
  | waiting => exact ⟨_, .quit hc hstop, rfl, rfl⟩
  | finished => exact absurd hc hrun

end StreamFeed

namespace Monitor

/-- Hands one line of a stream to the monitor at time `now`, counting it unless it is blank and
keeping the notices in order. -/
def feedStep (now : Int) : Monitor × Nat × List Notice → Text → Monitor × Nat × List Notice :=
  fun (m, n, ns) line =>
    let (m, kind, more) := m.handleStreamLine line now
    (m, if kind = .blank then n else n + 1, ns ++ more)

def feedLines (m : Monitor) (lines : List Text) (now : Int) : Monitor × Nat × List Notice :=
  lines.foldl (feedStep now) (m, 0, [])

theorem feed_eq_feedLines (m : Monitor) (text : Text) (now : Int) :
    m.feed text now = m.feedLines (streamLines text) now := rfl

theorem feedStep_count (now : Int) (acc : Monitor × Nat × List Notice) (line : Text) :
    (feedStep now acc line).2.1 = acc.2.1 + if (Text.strip line).isEmpty then 0 else 1 := by
  obtain ⟨m, n, ns⟩ := acc
  have hcounted := handleLineWithin_counted_iff streamDepth m line now
  simp only [feedStep, handleStreamLine]
  cases hblank : (Text.strip line).isEmpty
  · have hkind : (m.handleLineWithin streamDepth line now).2.1 ≠ .blank := hcounted.2 hblank
    simp [hkind]
  · have hkind : (m.handleLineWithin streamDepth line now).2.1 = .blank :=
      Decidable.not_not.1 fun hne => by simp [hcounted.1 hne] at hblank
    simp [hkind]

/-- The lines counted are those that are not blank once trimmed. -/
theorem feedLines_count (m : Monitor) (lines : List Text) (now : Int) :
    (m.feedLines lines now).2.1 = (lines.filter fun l => !(Text.strip l).isEmpty).length := by
  have hfold : ∀ (acc : Monitor × Nat × List Notice),
      (lines.foldl (feedStep now) acc).2.1 =
        acc.2.1 + (lines.filter fun l => !(Text.strip l).isEmpty).length := by
    induction lines with
    | nil => simp
    | cons line lines ih =>
      intro acc
      rw [List.foldl_cons, ih, feedStep_count, List.filter_cons]
      cases (Text.strip line).isEmpty <;> simp
      omega
  simpa [feedLines] using hfold (m, 0, [])

end Monitor

theorem isEmpty_of_mem_streamLines {text line : Text} (h : line ∈ Monitor.streamLines text) :
    line.isEmpty = false := by
  simp only [Monitor.streamLines, List.mem_filterMap] at h
  obtain ⟨⟨piece, i⟩, _, hpiece⟩ := h
  split at hpiece
  · cases hpiece
    have hfeed : (Text.ofString "\n").points ≠ [] := by decide
    simp [Text.isEmpty, hfeed]
  · split at hpiece
    · cases hpiece
    · cases hpiece
      simpa using ‹¬ piece.isEmpty = true›

open StreamFeed

/-- The feed over any stream. However the reader thread, the consumer loop, `stop` and the
closing of the loop interleave, every run ends, and the lines handled are a prefix of the
stream. While no stop is asked the run cannot stop short: until the loop returns one of the
threads has a step, and when it returns it has handled every line of the stream, once and in
order, so the monitor is left as reading the stream line by line leaves it and the lines
counted are the stream's lines that are not blank once trimmed. A stream whose `readline` raises
is read as the lines it gave before. Once a stop is asked the loop returns at its next step,
without waiting for the reader. -/
theorem stream_lines_handled_in_order (text : Text) :
    WellFounded (flip Step) ∧
    (∀ s, Reachable (Monitor.streamLines text) s → s.handled <+: Monitor.streamLines text) ∧
    (∀ s, Reachable (Monitor.streamLines text) s → s.stopped = false →
      (s.consumer ≠ .finished → ∃ s', ReaderStep s s' ∨ ConsumerStep s s') ∧
      (s.consumer = .finished → s.handled = Monitor.streamLines text ∧
        ∀ (m : Monitor) (now : Int), m.feedLines s.handled now = m.feed text now ∧
          (m.feed text now).2.1 =
            ((Monitor.streamLines text).filter fun l => !(Text.strip l).isEmpty).length)) ∧
    (∀ s : State, s.stopped = true → s.consumer ≠ .finished →
      ∃ s', ConsumerStep s s' ∧ s'.consumer = .finished ∧ s'.handled = s.handled) := by
  have hlines : ∀ l ∈ Monitor.streamLines text, l.isEmpty = false :=
    fun _ h => isEmpty_of_mem_streamLines h
  refine ⟨step_wellFounded, fun s h => (h.sound hlines).along, fun s h hstop => ?_,
    fun s hstop hrun => ConsumerStep.finish_of_stopped hstop hrun⟩
  have hs := h.sound hlines
  refine ⟨hs.progress hstop, fun hfin => ?_⟩
  have hall := hs.drained hfin hstop
  refine ⟨hall, fun m now => ⟨?_, ?_⟩⟩
  · rw [hall, Monitor.feed_eq_feedLines]
  · rw [Monitor.feed_eq_feedLines, Monitor.feedLines_count]

end CacheHitRate
