import CacheHitRate.Monitor
/-!
Handing notices to the sender without making the caller wait, across threads and event loops.
A caller inside a running loop gets a task on that loop, put into the dispatcher's set of
pending tasks until the task's done callback drops it. Any other caller hands the send to the
dispatcher's own background loop: under a lock it takes the loop, making and starting one when
there is none, then, outside the lock, schedules the send on the loop it took, and last puts the
send's future into a set under the lock, which the future's done callback leaves again. A loop
runs the first steps of the sends scheduled on it in the order they were scheduled. The first
step starts the sender, unless the timeout cancels the send before (`SendTimeout.starts`); a
started send ends with a truthy or a falsy result, an exception, or, under a bound, by timing
out. A send that ends without a truthy result, or never starts, is counted as a failed notice of
its level, as `Monitor.delivered` counts it.

A caller's loop is run to the end of the caller's work: it starts running, and when the run
returns the tasks still unfinished are cancelled, every done callback runs, and the loop is
closed. `close` takes the background loop away under the lock and stops it; the thread running
it then ends and the loop is closed. A send scheduled on a stopped loop never runs, and
scheduling on a closed loop raises. Draining returns once the set of pending tasks is empty; flushing returns once the
futures in the set when it was called are done.

`Step` lets all of this interleave in any order.
-/
namespace CacheHitRate

namespace Delivery

/-- How a send that the sender started ends. -/
inductive Outcome where
  | truthy
  | falsy
  | raised
  /-- Not finished within the timeout. -/
  | overdue
  deriving DecidableEq, Repr

/-- Whether a send that ended so delivered its notice. -/
def Outcome.ok : Outcome → Bool
  | .truthy => true
  | _ => false

/-- Whether a send can end so under a timeout: only a bounded send times out. -/
def Outcome.allowed (timeout : SendTimeout) : Outcome → Bool
  | .overdue => match timeout with
    | .unbounded => false
    | _ => true
  | _ => true

/-- Where the send of a delivered notice is. -/
inductive Phase where
  /-- Scheduled on its loop; its first step has not run. -/
  | queued
  /-- The sender has the notice and has not finished. -/
  | sending
  /-- The send is over, with a notice delivered or not. -/
  | done (ok : Bool)
  /-- Cancelled with its loop before it was over. -/
  | cancelled
  deriving DecidableEq, Repr

/-- Whether a phase is one the send never leaves. -/
def Phase.final : Phase → Bool
  | .done _ | .cancelled => true
  | _ => false

/-- Where a send's task or future stands towards the dispatcher's set. -/
inductive Listing where
  /-- A background send's future, not yet put into the set. -/
  | unlisted
  | listed
  /-- Left the set through its done callback. -/
  | dropped
  deriving DecidableEq, Repr

/-- One delivered notice. `epoch` counts the closes begun before the send took its loop. -/
structure Job where
  notice : Notice
  loop : Nat
  background : Bool
  epoch : Nat
  phase : Phase
  listing : Listing

/-- What the end of a caller's run does to a task of its loop: an unfinished one is cancelled,
and its done callback drops it from the pending set. -/
def Job.cancel (job : Job) : Job :=
  { job with phase := if job.phase.final then job.phase else .cancelled, listing := .dropped }

inductive LoopState where
  | running
  | stopped
  | closed
  deriving DecidableEq, Repr

/-- An event loop: the dispatcher's own background loop, or a caller's. -/
structure Loop where
  background : Bool
  state : LoopState

/-- A background `deliver` that took its loop and has not scheduled the send on it yet. -/
structure Handoff where
  notice : Notice
  loop : Nat
  epoch : Nat

/-- The dispatcher, the loops it meets and what the sender has seen. Jobs are numbered by the
order their sends were scheduled; `sent` lists the jobs whose send the sender started, in the
order it started them; `refused` lists the notices whose `deliver` raised. -/
structure State where
  mon : Monitor
  jobs : List Job := []
  sent : List Nat := []
  loops : List Loop := []
  /-- The background loop, if one is kept. -/
  current : Option Nat := none
  /-- How many times `close` has taken the background loop away. -/
  epoch : Nat := 0
  handoffs : List Handoff := []
  refused : List Notice := []

namespace State

def loopState (s : State) (l : Nat) : Option LoopState := s.loops[l]?.map (·.state)

/-- A new loop, started by a caller's run in some thread. -/
def openLoop (s : State) : State := { s with loops := s.loops ++ [⟨false, .running⟩] }

/-- `deliver` inside the running loop `l`: a task on that loop, in the pending set. -/
def deliverHere (s : State) (l : Nat) (n : Notice) : State :=
  { s with jobs := s.jobs ++ [⟨n, l, false, s.epoch, .queued, .listed⟩] }

/-- `deliver` outside any loop takes the background loop, making one when there is none. -/
def pick (s : State) (n : Notice) : State :=
  match s.current with
  | some l => { s with handoffs := s.handoffs ++ [⟨n, l, s.epoch⟩] }
  | none =>
    { s with loops := s.loops ++ [⟨true, .running⟩], current := some s.loops.length,
             handoffs := s.handoffs ++ [⟨n, s.loops.length, s.epoch⟩] }

/-- The send of handoff `i` is scheduled on the loop it took. -/
def schedule (s : State) (i : Nat) (h : Handoff) : State :=
  { s with handoffs := s.handoffs.eraseIdx i,
           jobs := s.jobs ++ [⟨h.notice, h.loop, true, h.epoch, .queued, .unlisted⟩] }

/-- The loop handoff `i` took is closed: scheduling raises, and so does `deliver`. -/
def refuse (s : State) (i : Nat) (h : Handoff) : State :=
  { s with handoffs := s.handoffs.eraseIdx i, refused := s.refused ++ [h.notice] }

def modifyJob (s : State) (j : Nat) (f : Job → Job) : State :=
  { s with jobs := s.jobs.modify j f }

@[simp] theorem modifyJob_jobs (s : State) (j : Nat) (f : Job → Job) :
    (s.modifyJob j f).jobs = s.jobs.modify j f := rfl
@[simp] theorem modifyJob_sent (s : State) (j : Nat) (f : Job → Job) :
    (s.modifyJob j f).sent = s.sent := rfl
@[simp] theorem modifyJob_mon (s : State) (j : Nat) (f : Job → Job) :
    (s.modifyJob j f).mon = s.mon := rfl
@[simp] theorem modifyJob_loops (s : State) (j : Nat) (f : Job → Job) :
    (s.modifyJob j f).loops = s.loops := rfl
@[simp] theorem modifyJob_current (s : State) (j : Nat) (f : Job → Job) :
    (s.modifyJob j f).current = s.current := rfl
@[simp] theorem modifyJob_epoch (s : State) (j : Nat) (f : Job → Job) :
    (s.modifyJob j f).epoch = s.epoch := rfl
@[simp] theorem modifyJob_handoffs (s : State) (j : Nat) (f : Job → Job) :
    (s.modifyJob j f).handoffs = s.handoffs := rfl

/-- The first step of the send of job `j`, a notice of loop `job.loop`: it starts the sender,
or, when the timeout cancels the send first, counts a failure. -/
def start (timeout : SendTimeout) (s : State) (j : Nat) (job : Job) : State :=
  if timeout.starts then
    { s.modifyJob j ({ · with phase := .sending }) with sent := s.sent ++ [j] }
  else
    { s.modifyJob j ({ · with phase := .done false }) with mon := s.mon.delivered job.notice false }

@[simp] theorem start_loops (timeout : SendTimeout) (s : State) (j : Nat) (job : Job) :
    (s.start timeout j job).loops = s.loops := by
  unfold start
  split <;> rfl

/-- The started send of job `j` ends with outcome `o`, counted as the dispatcher counts it. -/
def finish (s : State) (j : Nat) (job : Job) (o : Outcome) : State :=
  { s.modifyJob j ({ · with phase := .done o.ok }) with mon := s.mon.delivered job.notice o.ok }

@[simp] theorem finish_loops (s : State) (j : Nat) (job : Job) (o : Outcome) :
    (s.finish j job o).loops = s.loops := rfl

/-- The run of caller's loop `l` returns. -/
def shutdown (s : State) (l : Nat) : State :=
  { s with jobs := s.jobs.map (fun job => if job.loop = l then job.cancel else job),
           loops := s.loops.modify l ({ · with state := .closed }) }

def setLoop (s : State) (l : Nat) (st : LoopState) : State :=
  { s with loops := s.loops.modify l ({ · with state := st }) }

end State

open State

/-- One step of the dispatcher, its loops and its callers, with sends bounded by `timeout`. -/
inductive Step (timeout : SendTimeout) : State → State → Prop
  | openLoop {s : State} : Step timeout s s.openLoop
  /-- A caller inside a running loop delivers. -/
  | deliverHere {s : State} {l : Nat} (n : Notice) :
      s.loopState l = some .running → Step timeout s (s.deliverHere l n)
  /-- A caller outside any loop delivers: it takes the background loop, -/
  | pick {s : State} (n : Notice) : Step timeout s (s.pick n)
  /-- schedules the send on it, -/
  | schedule {s : State} {i : Nat} {h : Handoff} :
      s.handoffs[i]? = some h → s.loopState h.loop ≠ some .closed →
      Step timeout s (s.schedule i h)
  /-- or raises when that loop is closed, -/
  | refuse {s : State} {i : Nat} {h : Handoff} :
      s.handoffs[i]? = some h → s.loopState h.loop = some .closed →
      Step timeout s (s.refuse i h)
  /-- and puts the send's future into the set. -/
  | track {s : State} {j : Nat} {job : Job} :
      s.jobs[j]? = some job → job.listing = .unlisted →
      Step timeout s (s.modifyJob j ({ · with listing := .listed }))
  /-- A running loop runs the first step of its earliest scheduled send. -/
  | start {s : State} {j : Nat} {job : Job} :
      s.jobs[j]? = some job → job.phase = .queued → s.loopState job.loop = some .running →
      (∀ i other, i < j → s.jobs[i]? = some other → other.loop = job.loop →
        other.phase ≠ .queued) →
      Step timeout s (s.start timeout j job)
  /-- A started send ends, on its running loop. -/
  | finish {s : State} {j : Nat} {job : Job} (o : Outcome) :
      s.jobs[j]? = some job → job.phase = .sending → s.loopState job.loop = some .running →
      o.allowed timeout = true → Step timeout s (s.finish j job o)
  /-- The done callback of a send that is over drops it from its set; a task's callback runs on
  its loop, a background future's in whichever thread completes or watches it. -/
  | forget {s : State} {j : Nat} {job : Job} :
      s.jobs[j]? = some job → job.listing = .listed → job.phase.final = true →
      (job.background = true ∨ s.loopState job.loop = some .running) →
      Step timeout s (s.modifyJob j ({ · with listing := .dropped }))
  /-- A caller's run returns. -/
  | shutdown {s : State} {l : Nat} :
      s.loops[l]? = some ⟨false, .running⟩ → Step timeout s (s.shutdown l)
  /-- `close` takes the background loop away, under the lock. -/
  | detach {s : State} : Step timeout s { s with current := none, epoch := s.epoch + 1 }
  /-- A background loop taken away stops, -/
  | stop {s : State} {l : Nat} :
      s.loops[l]? = some ⟨true, .running⟩ → s.current ≠ some l →
      Step timeout s (s.setLoop l .stopped)
  /-- and is closed once its thread has ended. -/
  | closeLoop {s : State} {l : Nat} :
      s.loops[l]? = some ⟨true, .stopped⟩ → Step timeout s (s.setLoop l .closed)

/-- The states reachable from a dispatcher counting into the metrics of `m`. -/
inductive Reachable (timeout : SendTimeout) (m : Monitor) : State → Prop
  | init : Reachable timeout m { mon := m }
  | step {s s' : State} : Reachable timeout m s → Step timeout s s' → Reachable timeout m s'

/-- Whether the set of pending tasks is empty, so that draining returns. -/
def State.drained (s : State) : Prop := ∀ job ∈ s.jobs, job.background = false → job.listing ≠ .listed

/-- Whether every future in the set when flushing began at `s` is done at `s'`, so that the
flush returns there. -/
def State.flushedBy (s s' : State) : Prop :=
  ∀ (j : Nat) (job : Job), s.jobs[j]? = some job → job.background = true →
    job.listing = .listed → ∃ (job' : Job) (ok : Bool), s'.jobs[j]? = some job' ∧ job'.phase = .done ok

end Delivery

end CacheHitRate
