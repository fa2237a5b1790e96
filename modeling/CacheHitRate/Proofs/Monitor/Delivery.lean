import Mathlib.Data.List.Nodup
import Mathlib.Logic.Relation
import CacheHitRate.Monitor.Delivery

/-!
Notices handed to the sender from event loops and threads. However callers, loops, senders,
done callbacks, the ends of callers' runs and `close` interleave, the dispatcher keeps one
account of its sends (`Sound`): the sender starts each send at most once, only when the timeout
lets sends start at all, and on each loop in the order the sends were scheduled; every send that
is over without a truthy result, or that the timeout cancelled, is counted once as a failed
notice of its level, and nothing else is; a send that is not over is still in its set;
background sends taken between two closes share one loop. Once draining can return every send of a running loop is
over, and once flushing can return so is every background send whose future was in the set
(`reachable_delivered`). A background `deliver` can still raise, when a close takes its loop
away before it schedules the send; and under a timeout of zero or less the sender sees no notice
at all. Handing notices over one at a time, as `Monitor.deliver` does, is one run of the
dispatcher (`deliver_eq_run`).
-/

namespace CacheHitRate

theorem Metrics.Tally.count_bump_of_ne (t : Tally) {k k' : Text} (h : k' ≠ k) :
    (t.bump k').count k = t.count k := by
  have hb : (k == k') = false := beq_false_of_ne (Ne.symm h)
  have hraise : ∀ t : Tally,
      (t.map fun p => if p.1 = k' then (k', p.2 + 1) else p).lookup k = t.lookup k := by
    intro t
    induction t with
    | nil => rfl
    | cons p rest ih =>
      obtain ⟨k₀, n⟩ := p
      by_cases hk : k₀ = k'
      · subst hk
        simp [List.lookup_cons, hb, ih]
      · simp only [List.map_cons, hk, if_false, List.lookup_cons, ih]
  have happend : ∀ t : Tally, (t ++ [(k', 1)]).lookup k = t.lookup k := by
    intro t
    induction t with
    | nil => simp [List.lookup_cons, hb]
    | cons p rest ih =>
      obtain ⟨k₀, n⟩ := p
      simp only [List.cons_append, List.lookup_cons]
      cases k == k₀ <;> simp [ih]
  unfold Tally.bump Tally.count
  split
  · rw [hraise]
  · rw [happend]

theorem Level.text_inj {a b : Level} : Text.ofString a.text = Text.ofString b.text ↔ a = b := by
  cases a <;> cases b <;> decide

theorem Monitor.count_delivered (m : Monitor) (n : Notice) (ok : Bool) (ℓ : Level) :
    (m.delivered n ok).metrics.noticeFailures.count (Text.ofString ℓ.text) =
      m.metrics.noticeFailures.count (Text.ofString ℓ.text) +
        if ok = false ∧ n.level = ℓ then 1 else 0 := by
  cases ok with
  | true => simp [Monitor.delivered]
  | false =>
    by_cases hℓ : n.level = ℓ
    · subst hℓ
      simp [Monitor.delivered, Monitor.withMetrics, Metrics.Tally.count_bump_self]
    · have hne : Text.ofString n.level.text ≠ Text.ofString ℓ.text := fun h => hℓ (Level.text_inj.1 h)
      simp [Monitor.delivered, Monitor.withMetrics, Metrics.Tally.count_bump_of_ne _ hne, hℓ]

section Lists

variable {α : Type} {l : List α} {x y : α} {i j : Nat}

theorem getElem?_concat_eq_some :
    (l ++ [x])[j]? = some y ↔ l[j]? = some y ∨ (j = l.length ∧ x = y) := by
  rcases Nat.lt_trichotomy j l.length with hj | rfl | hj
  · simp [List.getElem?_append_left hj, Nat.ne_of_lt hj]
  · simp
  · have hnew : (l ++ [x])[j]? = none := List.getElem?_eq_none_iff.2 (by simp; omega)
    have hold : l[j]? = none := List.getElem?_eq_none_iff.2 (Nat.le_of_lt hj)
    simp [hnew, hold, Nat.ne_of_gt hj]

theorem getElem?_modify_eq_some {f : α → α} :
    (l.modify i f)[j]? = some y ↔ ∃ x, l[j]? = some x ∧ y = if i = j then f x else x := by
  rw [List.getElem?_modify]
  cases l[j]? with
  | none => simp
  | some x => simp [eq_comm]

theorem getElem?_modify_cases {f : α → α} (hx : l[i]? = some x) (hy : (l.modify i f)[j]? = some y) :
    (j = i ∧ y = f x) ∨ (j ≠ i ∧ l[j]? = some y) := by
  obtain ⟨z, hz, rfl⟩ := getElem?_modify_eq_some.1 hy
  by_cases hij : i = j
  · subst hij
    rw [hx] at hz
    cases hz
    exact .inl ⟨rfl, by simp⟩
  · exact .inr ⟨Ne.symm hij, by simpa [hij] using hz⟩

theorem getElem?_modify_self {f : α → α} (hx : l[i]? = some x) : (l.modify i f)[i]? = some (f x) := by
  simp [hx]

theorem getElem?_modify_of_ne {f : α → α} (h : j ≠ i) : (l.modify i f)[j]? = l[j]? := by
  rw [List.getElem?_modify]
  cases l[j]? <;> simp [Ne.symm h]

theorem countP_modify {p : α → Bool} {f : α → α} (hx : l[i]? = some x) :
    (l.modify i f).countP p + (if p x then 1 else 0) = l.countP p + (if p (f x) then 1 else 0) := by
  induction l generalizing i with
  | nil => simp at hx
  | cons a l ih =>
    cases i with
    | zero =>
      simp only [List.getElem?_cons_zero, Option.some.injEq] at hx
      subst hx
      simp only [List.modify_zero_cons, List.countP_cons]
      omega
    | succ i =>
      simp only [List.getElem?_cons_succ] at hx
      have := ih hx
      simp only [List.modify_succ_cons, List.countP_cons]
      omega

end Lists

namespace Delivery

open State

/-- A failed notice of level `ℓ`: its send is over without a truthy result. -/
def Job.failedAt (ℓ : Level) (job : Job) : Bool :=
  decide (job.phase = .done false ∧ job.notice.level = ℓ)

def failures (m : Monitor) (ℓ : Level) : Nat := m.metrics.noticeFailures.count (Text.ofString ℓ.text)

/-- The loops background sends took, each with the epoch it was taken in: those of the calls
still handing over and those of the sends scheduled. -/
def State.picks (s : State) : List (Nat × Nat) :=
  s.handoffs.map (fun h => (h.epoch, h.loop)) ++
    (s.jobs.filter (·.background)).map fun job => (job.epoch, job.loop)

/-- On each loop the sends whose first step has run come before those still scheduled. -/
def Fifo (jobs : List Job) : Prop :=
  ∀ (i k : Nat) (a b : Job), jobs[i]? = some a → jobs[k]? = some b → a.loop = b.loop →
    a.phase ≠ .queued → b.phase = .queued → i < k

/-- The sends listed in `sent` come, on each loop, in the order they were scheduled. -/
def InOrder (jobs : List Job) (sent : List Nat) : Prop :=
  sent.Pairwise fun i k => ∀ a b : Job, jobs[i]? = some a → jobs[k]? = some b → a.loop = b.loop → i < k

section Order

variable {jobs : List Job} {sent : List Nat} {j : Nat} {job : Job} {f : Job → Job}

theorem exists_of_modify_loop (hj : jobs[j]? = some job) (hloop : (f job).loop = job.loop) {i : Nat}
    {a : Job} (ha : (jobs.modify j f)[i]? = some a) : ∃ a₀, jobs[i]? = some a₀ ∧ a.loop = a₀.loop := by
  rcases getElem?_modify_cases hj ha with ⟨rfl, rfl⟩ | ⟨-, ha⟩
  · exact ⟨job, hj, hloop⟩
  · exact ⟨a, ha, rfl⟩

theorem Fifo.start (h : Fifo jobs) (hj : jobs[j]? = some job)
    (hfirst : ∀ i other, i < j → jobs[i]? = some other → other.loop = job.loop →
      other.phase ≠ .queued)
    (hloop : (f job).loop = job.loop) (hran : (f job).phase ≠ .queued) : Fifo (jobs.modify j f) := by
  intro i k a b ha hb hl hqa hqb
  rcases getElem?_modify_cases hj ha with ⟨rfl, rfl⟩ | ⟨-, ha₀⟩ <;>
    rcases getElem?_modify_cases hj hb with ⟨rfl, rfl⟩ | ⟨hk, hb₀⟩
  · exact absurd hqb hqa
  · rcases Nat.lt_or_gt_of_ne hk with hlt | hgt
    · exact absurd hqb (hfirst k b hlt hb₀ (hloop ▸ hl.symm))
    · exact hgt
  · exact absurd hqb hran
  · exact h i k a b ha₀ hb₀ hl hqa hqb

theorem Fifo.keep (h : Fifo jobs) (hj : jobs[j]? = some job) (hloop : (f job).loop = job.loop)
    (hqueued : (f job).phase = .queued ↔ job.phase = .queued) : Fifo (jobs.modify j f) := by
  intro i k a b ha hb hl hqa hqb
  rcases getElem?_modify_cases hj ha with ⟨rfl, rfl⟩ | ⟨-, ha₀⟩ <;>
    rcases getElem?_modify_cases hj hb with ⟨rfl, rfl⟩ | ⟨-, hb₀⟩
  · exact absurd hqb hqa
  · exact h i k job b hj hb₀ (hloop ▸ hl) (fun hq => hqa (hqueued.2 hq)) hqb
  · exact h i k a job ha₀ hj (hloop ▸ hl) hqa (hqueued.1 hqb)
  · exact h i k a b ha₀ hb₀ hl hqa hqb

theorem InOrder.modify (h : InOrder jobs sent) (hj : jobs[j]? = some job)
    (hloop : (f job).loop = job.loop) : InOrder (jobs.modify j f) sent :=
  h.imp fun hord a b ha hb hl => by
    obtain ⟨a₀, ha₀, hla⟩ := exists_of_modify_loop hj hloop ha
    obtain ⟨b₀, hb₀, hlb⟩ := exists_of_modify_loop hj hloop hb
    exact hord a₀ b₀ ha₀ hb₀ (hla ▸ hlb ▸ hl)

end Order

/-- The account the dispatcher keeps of its sends, counting into the metrics of `m`. -/
structure Account (timeout : SendTimeout) (m : Monitor) (s : State) : Prop where
  /-- The sender started each send once at most, -/
  sent_nodup : s.sent.Nodup
  /-- and only under a timeout that lets sends start, after the send's first step. -/
  sent_started : ∀ j ∈ s.sent,
    timeout.starts = true ∧ ∃ job : Job, s.jobs[j]? = some job ∧ job.phase ≠ .queued
  sending_sent : ∀ (j : Nat) (job : Job), s.jobs[j]? = some job → job.phase = .sending → j ∈ s.sent
  /-- A send that is over was started exactly when the timeout lets sends start. -/
  done_sent : ∀ (j : Nat) (job : Job) (ok : Bool), s.jobs[j]? = some job → job.phase = .done ok →
    (j ∈ s.sent ↔ timeout.starts = true)
  fifo : Fifo s.jobs
  /-- The sender started the sends of one loop in the order they were scheduled. -/
  sent_order : InOrder s.jobs s.sent
  /-- Each failed send is counted once, and nothing else is. -/
  counted : ∀ ℓ, failures s.mon ℓ = failures m ℓ + s.jobs.countP (Job.failedAt ℓ)
  /-- A send that is not over is in its set, or a background one not yet put there. -/
  listed : ∀ (j : Nat) (job : Job), s.jobs[j]? = some job → job.phase.final = false →
    job.listing ≠ .dropped ∧ (job.background = false → job.listing = .listed)
  /-- Only the end of a run cancels a send, and it closes the loop. -/
  cancelled : ∀ (j : Nat) (job : Job), s.jobs[j]? = some job → job.phase = .cancelled →
    s.loopState job.loop = some .closed

/-- What the dispatcher keeps of its background loop: the loop it keeps runs, every background
send took a background loop, all those that took a loop between two closes took one loop, the
one kept since the last close, and no background send is ever cancelled. -/
structure Kept (s : State) : Prop where
  current : ∀ l, s.current = some l → s.loops[l]? = some ⟨true, .running⟩
  picks_background : ∀ p ∈ s.picks, ∃ st, s.loops[p.2]? = some ⟨true, st⟩
  picks_epoch : ∀ p ∈ s.picks, p.1 ≤ s.epoch
  picks_current : ∀ p ∈ s.picks, p.1 = s.epoch → s.current = some p.2
  picks_shared : ∀ p ∈ s.picks, ∀ q ∈ s.picks, p.1 = q.1 → p.2 = q.2
  not_cancelled : ∀ (j : Nat) (job : Job), s.jobs[j]? = some job → job.background = true →
    job.phase ≠ .cancelled

structure Sound (timeout : SendTimeout) (m : Monitor) (s : State) : Prop where
  account : Account timeout m s
  kept : Kept s

section Account

variable {timeout : SendTimeout} {m : Monitor} {s s' : State}

theorem Account.frame (h : Account timeout m s) (hjobs : s'.jobs = s.jobs) (hsent : s'.sent = s.sent)
    (hmon : s'.mon = s.mon)
    (hclosed : ∀ l, s.loopState l = some .closed → s'.loopState l = some .closed) :
    Account timeout m s' where
  sent_nodup := hsent ▸ h.sent_nodup
  sent_started := hsent ▸ hjobs ▸ h.sent_started
  sending_sent := hsent ▸ hjobs ▸ h.sending_sent
  done_sent := hsent ▸ hjobs ▸ h.done_sent
  fifo := hjobs ▸ h.fifo
  sent_order := hsent ▸ hjobs ▸ h.sent_order
  counted := hmon ▸ hjobs ▸ h.counted
  listed := hjobs ▸ h.listed
  cancelled j job hj hc := hclosed _ (h.cancelled j job (hjobs ▸ hj) hc)

theorem Account.lt_length_of_mem_sent (h : Account timeout m s) {j : Nat} (hj : j ∈ s.sent) :
    j < s.jobs.length := by
  obtain ⟨-, job, hjob, -⟩ := h.sent_started j hj
  exact (List.getElem?_eq_some_iff.1 hjob).1

theorem Account.append (h : Account timeout m s) {x : Job} (hx : x.phase = .queued)
    (hlisted : x.listing ≠ .dropped ∧ (x.background = false → x.listing = .listed))
    (hjobs : s'.jobs = s.jobs ++ [x]) (hsent : s'.sent = s.sent) (hmon : s'.mon = s.mon)
    (hloops : s'.loops = s.loops) : Account timeout m s' where
  sent_nodup := hsent ▸ h.sent_nodup
  sent_started j hj := by
    rw [hsent] at hj
    obtain ⟨hstarts, job, hjob, hq⟩ := h.sent_started j hj
    exact ⟨hstarts, job, by rw [hjobs, getElem?_concat_eq_some]; exact .inl hjob, hq⟩
  sending_sent j job hj hp := by
    rw [hjobs, getElem?_concat_eq_some] at hj
    rcases hj with hj | ⟨-, rfl⟩
    · exact hsent ▸ h.sending_sent j job hj hp
    · simp [hx] at hp
  done_sent j job ok hj hp := by
    rw [hjobs, getElem?_concat_eq_some] at hj
    rcases hj with hj | ⟨-, rfl⟩
    · exact hsent ▸ h.done_sent j job ok hj hp
    · simp [hx] at hp
  fifo i k a b ha hb hloop hqa hqb := by
    rw [hjobs, getElem?_concat_eq_some] at ha hb
    rcases ha with ha | ⟨-, rfl⟩
    · rcases hb with hb | ⟨rfl, -⟩
      · exact h.fifo i k a b ha hb hloop hqa hqb
      · exact (List.getElem?_eq_some_iff.1 ha).1
    · exact absurd hx hqa
  sent_order := by
    rw [hsent]
    refine h.sent_order.imp_of_mem fun hi hk hord a b ha hb => hord a b ?_ ?_
    · rwa [hjobs, List.getElem?_append_left (h.lt_length_of_mem_sent hi)] at ha
    · rwa [hjobs, List.getElem?_append_left (h.lt_length_of_mem_sent hk)] at hb
  counted ℓ := by
    rw [hmon, hjobs, List.countP_append, h.counted ℓ]
    simp [Job.failedAt, hx]
  listed j job hj hfinal := by
    rw [hjobs, getElem?_concat_eq_some] at hj
    rcases hj with hj | ⟨-, rfl⟩
    · exact h.listed j job hj hfinal
    · exact hlisted
  cancelled j job hj hc := by
    rw [hjobs, getElem?_concat_eq_some] at hj
    rcases hj with hj | ⟨-, rfl⟩
    · simpa [State.loopState, hloops] using h.cancelled j job hj hc
    · simp [hx] at hc

/-- What the account reads of a send besides its listing: its loop, its phase and its level. -/
def Job.view (job : Job) : Nat × Phase × Level := (job.loop, job.phase, job.notice.level)

theorem exists_of_map_view {l l' : List Job} (hv : l'.map Job.view = l.map Job.view) {i : Nat}
    {a : Job} (ha : l'[i]? = some a) :
    ∃ a₀, l[i]? = some a₀ ∧ a.loop = a₀.loop ∧ a.phase = a₀.phase := by
  have hi := congrArg (·[i]?) hv
  simp only [List.getElem?_map, ha, Option.map_some] at hi
  obtain ⟨a₀, ha₀, hview⟩ := Option.map_eq_some_iff.1 hi.symm
  simp only [Job.view, Prod.mk.injEq] at hview
  exact ⟨a₀, ha₀, hview.1.symm, hview.2.1.symm⟩

theorem Account.of_view (h : Account timeout m s) (hv : s'.jobs.map Job.view = s.jobs.map Job.view)
    (hsent : s'.sent = s.sent) (hmon : s'.mon = s.mon) (hloops : s'.loops = s.loops)
    (hlisted : ∀ (j : Nat) (job : Job), s'.jobs[j]? = some job → job.phase.final = false →
      job.listing ≠ .dropped ∧ (job.background = false → job.listing = .listed)) :
    Account timeout m s' where
  sent_nodup := hsent ▸ h.sent_nodup
  sent_started j hj := by
    rw [hsent] at hj
    obtain ⟨hstarts, job, hjob, hq⟩ := h.sent_started j hj
    obtain ⟨a, ha, -, hphase⟩ := exists_of_map_view hv.symm hjob
    exact ⟨hstarts, a, ha, hphase ▸ hq⟩
  sending_sent j job hj hp := by
    obtain ⟨a₀, ha₀, -, hphase⟩ := exists_of_map_view hv hj
    exact hsent ▸ h.sending_sent j a₀ ha₀ (hphase ▸ hp)
  done_sent j job ok hj hp := by
    obtain ⟨a₀, ha₀, -, hphase⟩ := exists_of_map_view hv hj
    exact hsent ▸ h.done_sent j a₀ ok ha₀ (hphase ▸ hp)
  fifo i k a b ha hb hloop hqa hqb := by
    obtain ⟨a₀, ha₀, hla, hpa⟩ := exists_of_map_view hv ha
    obtain ⟨b₀, hb₀, hlb, hpb⟩ := exists_of_map_view hv hb
    exact h.fifo i k a₀ b₀ ha₀ hb₀ (hla ▸ hlb ▸ hloop) (hpa ▸ hqa) (hpb ▸ hqb)
  sent_order := by
    rw [hsent]
    refine h.sent_order.imp fun hord a b ha hb hloop => ?_
    obtain ⟨a₀, ha₀, hla, -⟩ := exists_of_map_view hv ha
    obtain ⟨b₀, hb₀, hlb, -⟩ := exists_of_map_view hv hb
    exact hord a₀ b₀ ha₀ hb₀ (hla ▸ hlb ▸ hloop)
  counted ℓ := by
    have hcount : s'.jobs.countP (Job.failedAt ℓ) = s.jobs.countP (Job.failedAt ℓ) := by
      have hcomp : Job.failedAt ℓ =
          (fun v : Nat × Phase × Level => decide (v.2.1 = .done false ∧ v.2.2 = ℓ)) ∘ Job.view :=
        rfl
      rw [hcomp, ← List.countP_map, hv, List.countP_map]
    rw [hmon, hcount, h.counted ℓ]
  listed := hlisted
  cancelled j job hj hc := by
    obtain ⟨a₀, ha₀, hloop, hphase⟩ := exists_of_map_view hv hj
    simpa [State.loopState, hloops, hloop] using h.cancelled j a₀ ha₀ (hphase ▸ hc)

theorem Account.not_mem_sent (h : Account timeout m s) {j : Nat} {job : Job}
    (hj : s.jobs[j]? = some job) (hq : job.phase = .queued) : j ∉ s.sent := fun hmem => by
  obtain ⟨-, job', hjob', hq'⟩ := h.sent_started j hmem
  rw [hj] at hjob'
  cases hjob'
  exact hq' hq

theorem Account.listed_setPhase (h : Account timeout m s) {j : Nat} {job : Job}
    (hj : s.jobs[j]? = some job) (hlive : job.phase.final = false) (p : Phase) (i : Nat) (a : Job)
    (ha : (s.jobs.modify j ({ · with phase := p }))[i]? = some a) (hfinal : a.phase.final = false) :
    a.listing ≠ .dropped ∧ (a.background = false → a.listing = .listed) := by
  rcases getElem?_modify_cases hj ha with ⟨rfl, rfl⟩ | ⟨-, ha₀⟩
  · exact h.listed i job hj hlive
  · exact h.listed i a ha₀ hfinal

theorem Account.cancelled_setPhase (h : Account timeout m s) {j : Nat} {job : Job}
    (hj : s.jobs[j]? = some job) {p : Phase} (hp : p ≠ .cancelled) (i : Nat) (a : Job)
    (ha : (s.jobs.modify j ({ · with phase := p }))[i]? = some a) (hc : a.phase = .cancelled) :
    s.loopState a.loop = some .closed := by
  rcases getElem?_modify_cases hj ha with ⟨rfl, rfl⟩ | ⟨-, ha₀⟩
  · exact absurd hc hp
  · exact h.cancelled i a ha₀ hc

theorem Account.start_sending (h : Account timeout m s) {j : Nat} {job : Job}
    (hj : s.jobs[j]? = some job) (hq : job.phase = .queued)
    (hfirst : ∀ i other, i < j → s.jobs[i]? = some other → other.loop = job.loop →
      other.phase ≠ .queued)
    (hstarts : timeout.starts = true) :
    Account timeout m { s.modifyJob j ({ · with phase := .sending }) with sent := s.sent ++ [j] } where
  sent_nodup := by
    have hnot := h.not_mem_sent hj hq
    exact List.nodup_append.2 ⟨h.sent_nodup, List.pairwise_singleton _ j,
      fun a ha b hb => by rw [List.mem_singleton.1 hb]; exact fun e => hnot (e ▸ ha)⟩
  sent_started i hi := by
    rcases List.mem_append.1 hi with hi | hi
    · obtain ⟨hs, a, ha, hqa⟩ := h.sent_started i hi
      have hne : i ≠ j := fun e => h.not_mem_sent hj hq (e ▸ hi)
      exact ⟨hs, a, by simpa [modifyJob, getElem?_modify_of_ne hne] using ha, hqa⟩
    · rw [List.mem_singleton.1 hi]
      exact ⟨hstarts, _, getElem?_modify_self hj, by simp⟩
  sending_sent i a ha hp := by
    rcases getElem?_modify_cases hj ha with ⟨rfl, -⟩ | ⟨-, ha₀⟩
    · exact List.mem_append_right _ (List.mem_singleton_self _)
    · exact List.mem_append_left _ (h.sending_sent i a ha₀ hp)
  done_sent i a ok ha hp := by
    rcases getElem?_modify_cases hj ha with ⟨rfl, rfl⟩ | ⟨hne, ha₀⟩
    · simp at hp
    · simpa [hne] using h.done_sent i a ok ha₀ hp
  fifo := h.fifo.start hj hfirst rfl (by simp)
  sent_order := by
    refine List.pairwise_append.2 ⟨h.sent_order.modify hj rfl, List.pairwise_singleton _ _, ?_⟩
    intro i hi k hk a b ha hb hl
    rw [List.mem_singleton.1 hk] at hb ⊢
    have hne : i ≠ j := fun e => h.not_mem_sent hj hq (e ▸ hi)
    rw [modifyJob, getElem?_modify_of_ne hne] at ha
    rw [modifyJob, getElem?_modify_self hj] at hb
    cases hb
    obtain ⟨-, a', ha', hqa⟩ := h.sent_started i hi
    rw [ha] at ha'
    cases ha'
    exact h.fifo i j a job ha hj hl hqa hq
  counted ℓ := by
    have hcount := countP_modify (p := Job.failedAt ℓ) (f := ({ · with phase := .sending })) hj
    simp only [Job.failedAt, hq, reduceCtorEq, false_and, decide_false, Bool.false_eq_true,
      if_false, Nat.add_zero] at hcount
    simpa [modifyJob, hcount] using h.counted ℓ
  listed := h.listed_setPhase hj (by simp [hq, Phase.final]) _
  cancelled := h.cancelled_setPhase hj (by simp)

theorem Account.counted_done (h : Account timeout m s) {j : Nat} {job : Job}
    (hj : s.jobs[j]? = some job) (hlive : job.phase ≠ .done false) (ok : Bool) (ℓ : Level) :
    failures (s.mon.delivered job.notice ok) ℓ =
      failures m ℓ + (s.jobs.modify j ({ · with phase := .done ok })).countP (Job.failedAt ℓ) := by
  have hcount := countP_modify (p := Job.failedAt ℓ) (f := ({ · with phase := .done ok })) hj
  simp only [Job.failedAt, hlive, false_and, decide_false, Bool.false_eq_true, if_false,
    Nat.add_zero] at hcount
  rw [failures, Monitor.count_delivered, ← failures, h.counted ℓ, Nat.add_assoc, hcount]
  by_cases hℓ : job.notice.level = ℓ <;> cases ok <;> simp [hℓ]

theorem Account.start_cancelled (h : Account timeout m s) {j : Nat} {job : Job}
    (hj : s.jobs[j]? = some job) (hq : job.phase = .queued)
    (hfirst : ∀ i other, i < j → s.jobs[i]? = some other → other.loop = job.loop →
      other.phase ≠ .queued)
    (hstarts : timeout.starts = false) :
    Account timeout m { s.modifyJob j ({ · with phase := .done false }) with
      mon := s.mon.delivered job.notice false } where
  sent_nodup := h.sent_nodup
  sent_started i hi := absurd (h.sent_started i hi).1 (by simp [hstarts])
  sending_sent i a ha hp := by
    rcases getElem?_modify_cases hj ha with ⟨rfl, rfl⟩ | ⟨-, ha₀⟩
    · simp at hp
    · exact h.sending_sent i a ha₀ hp
  done_sent i a ok ha hp := by
    rcases getElem?_modify_cases hj ha with ⟨rfl, rfl⟩ | ⟨-, ha₀⟩
    · simpa [hstarts] using h.not_mem_sent hj hq
    · exact h.done_sent i a ok ha₀ hp
  fifo := h.fifo.start hj hfirst rfl (by simp)
  sent_order := h.sent_order.modify hj rfl
  counted := h.counted_done hj (by simp [hq]) false
  listed := h.listed_setPhase hj (by simp [hq, Phase.final]) _
  cancelled := h.cancelled_setPhase hj (by simp)

theorem Account.finish (h : Account timeout m s) {j : Nat} {job : Job}
    (hj : s.jobs[j]? = some job) (hsending : job.phase = .sending) (o : Outcome) :
    Account timeout m { s.modifyJob j ({ · with phase := .done o.ok }) with
      mon := s.mon.delivered job.notice o.ok } where
  sent_nodup := h.sent_nodup
  sent_started i hi := by
    obtain ⟨hs, a, ha, hqa⟩ := h.sent_started i hi
    by_cases hij : i = j
    · subst hij
      exact ⟨hs, _, getElem?_modify_self hj, by simp⟩
    · exact ⟨hs, a, by simpa [getElem?_modify_of_ne hij] using ha, hqa⟩
  sending_sent i a ha hp := by
    rcases getElem?_modify_cases hj ha with ⟨rfl, rfl⟩ | ⟨-, ha₀⟩
    · simp at hp
    · exact h.sending_sent i a ha₀ hp
  done_sent i a ok ha hp := by
    rcases getElem?_modify_cases hj ha with ⟨rfl, rfl⟩ | ⟨-, ha₀⟩
    · have hsent := h.sending_sent i job hj hsending
      simpa [hsent] using (h.sent_started i hsent).1
    · exact h.done_sent i a ok ha₀ hp
  fifo := h.fifo.keep hj rfl (by simp [hsending])
  sent_order := h.sent_order.modify hj rfl
  counted := h.counted_done hj (by simp [hsending]) o.ok
  listed := h.listed_setPhase hj (by simp [hsending, Phase.final]) _
  cancelled := h.cancelled_setPhase hj (by simp)

theorem map_modify_of_comp {β : Type} {l : List Job} {g : Job → β} {f : Job → Job}
    (hf : ∀ x, g (f x) = g x) (j : Nat) : (l.modify j f).map g = l.map g := by
  apply List.ext_getElem?
  intro i
  simp only [List.getElem?_map, List.getElem?_modify]
  cases l[i]? with
  | none => rfl
  | some x => by_cases hji : j = i <;> simp [hji, hf]

theorem Account.relist (h : Account timeout m s) {j : Nat} {job : Job} (hj : s.jobs[j]? = some job)
    {L : Listing}
    (hL : job.phase.final = false → L ≠ .dropped ∧ (job.background = false → L = .listed)) :
    Account timeout m (s.modifyJob j ({ · with listing := L })) := by
  refine h.of_view (@map_modify_of_comp _ s.jobs Job.view (fun x => { x with listing := L })
    (fun _ => rfl) j) rfl rfl rfl ?_
  intro i a ha hfinal
  rcases getElem?_modify_cases hj ha with ⟨rfl, rfl⟩ | ⟨-, ha₀⟩
  · exact hL hfinal
  · exact h.listed i a ha₀ hfinal

theorem Job.cancel_phase_ne_queued (job : Job) : job.cancel.phase ≠ .queued := by
  unfold Job.cancel
  cases hp : job.phase <;> simp [Phase.final]

theorem Job.final_cancel (job : Job) : job.cancel.phase.final = true := by
  unfold Job.cancel
  cases hp : job.phase <;> simp [Phase.final]

@[simp] theorem Job.loop_cancel_ite (c : Prop) [Decidable c] (job : Job) :
    (if c then job.cancel else job).loop = job.loop := by
  split <;> rfl

theorem Job.failedAt_cancel (ℓ : Level) (job : Job) : job.cancel.failedAt ℓ = job.failedAt ℓ := by
  unfold Job.cancel Job.failedAt
  cases hp : job.phase <;> simp [Phase.final]

theorem getElem?_shutdown_eq_some {l i : Nat} {a : Job} (ha : (s.shutdown l).jobs[i]? = some a) :
    ∃ a₀, s.jobs[i]? = some a₀ ∧ a = (if a₀.loop = l then a₀.cancel else a₀) := by
  simp only [State.shutdown, List.getElem?_map] at ha
  obtain ⟨a₀, ha₀, rfl⟩ := Option.map_eq_some_iff.1 ha
  exact ⟨a₀, ha₀, rfl⟩

theorem loopState_setLoop (l k : Nat) (st : LoopState) :
    (s.setLoop l st).loopState k = if k = l then (s.loopState k).map fun _ => st
      else s.loopState k := by
  simp only [State.setLoop, State.loopState, List.getElem?_modify]
  by_cases hk : k = l
  · subst hk
    cases s.loops[k]? <;> simp
  · simp [hk, Ne.symm hk]

theorem loopState_shutdown (l k : Nat) :
    (s.shutdown l).loopState k = if k = l then (s.loopState k).map fun _ => .closed
      else s.loopState k :=
  loopState_setLoop l k .closed

theorem loopState_of_loops (hloops : ∀ (k : Nat) (x : Loop), s.loops[k]? = some x → s'.loops[k]? = some x)
    {k : Nat} {c : LoopState} (hc : s.loopState k = some c) : s'.loopState k = some c := by
  unfold State.loopState at hc ⊢
  obtain ⟨x, hx, rfl⟩ := Option.map_eq_some_iff.1 hc
  rw [hloops k x hx]
  rfl

theorem Account.shutdown (h : Account timeout m s) {l : Nat} (hl : (s.loopState l).isSome) :
    Account timeout m (s.shutdown l) where
  sent_nodup := h.sent_nodup
  sent_started i hi := by
    obtain ⟨hs, a, ha, hqa⟩ := h.sent_started i hi
    refine ⟨hs, if a.loop = l then a.cancel else a, by simp [State.shutdown, ha], ?_⟩
    split
    · exact a.cancel_phase_ne_queued
    · exact hqa
  sending_sent i a ha hp := by
    obtain ⟨a₀, ha₀, rfl⟩ := getElem?_shutdown_eq_some ha
    split at hp
    · simpa [hp, Phase.final] using a₀.final_cancel
    · exact h.sending_sent i a₀ ha₀ hp
  done_sent i a ok ha hp := by
    obtain ⟨a₀, ha₀, rfl⟩ := getElem?_shutdown_eq_some ha
    refine h.done_sent i a₀ ok ha₀ ?_
    split at hp
    · unfold Job.cancel at hp
      split at hp
      · exact hp
      · simp at hp
    · exact hp
  fifo i k a b ha hb hl hqa hqb := by
    obtain ⟨a₀, ha₀, rfl⟩ := getElem?_shutdown_eq_some ha
    obtain ⟨b₀, hb₀, rfl⟩ := getElem?_shutdown_eq_some hb
    rw [Job.loop_cancel_ite, Job.loop_cancel_ite] at hl
    by_cases hbl : b₀.loop = l
    · simp [hbl, b₀.cancel_phase_ne_queued] at hqb
    · have hal : a₀.loop ≠ l := hl ▸ hbl
      simp only [hal, hbl, if_false] at hqa hqb
      exact h.fifo i k a₀ b₀ ha₀ hb₀ hl hqa hqb
  sent_order := h.sent_order.imp fun hord a b ha hb hl => by
    obtain ⟨a₀, ha₀, rfl⟩ := getElem?_shutdown_eq_some ha
    obtain ⟨b₀, hb₀, rfl⟩ := getElem?_shutdown_eq_some hb
    rw [Job.loop_cancel_ite, Job.loop_cancel_ite] at hl
    exact hord a₀ b₀ ha₀ hb₀ hl
  counted ℓ := by
    have hcount : (s.shutdown l).jobs.countP (Job.failedAt ℓ) = s.jobs.countP (Job.failedAt ℓ) := by
      simp only [State.shutdown, List.countP_map]
      congr 1
      funext job
      simp only [Function.comp_def]
      split <;> simp [Job.failedAt_cancel]
    rw [hcount, ← h.counted ℓ]
    rfl
  listed i a ha hfinal := by
    obtain ⟨a₀, ha₀, rfl⟩ := getElem?_shutdown_eq_some ha
    split at hfinal
    · simp [Job.final_cancel] at hfinal
    · rename_i hal
      simpa [hal] using h.listed i a₀ ha₀ hfinal
  cancelled i a ha hc := by
    obtain ⟨a₀, ha₀, rfl⟩ := getElem?_shutdown_eq_some ha
    rw [Job.loop_cancel_ite, loopState_shutdown]
    split at hc
    · rename_i hal
      obtain ⟨st, hst⟩ := Option.isSome_iff_exists.1 hl
      simp [hal, hst]
    · rename_i hal
      simp [hal, h.cancelled i a₀ ha₀ hc]

end Account

section Kept

variable {s s' : State}

/-- What the bookkeeping of background loops reads of a send. -/
def Job.key (job : Job) : Bool × Nat × Nat := (job.background, job.epoch, job.loop)

theorem State.picks_eq (s : State) : s.picks = s.handoffs.map (fun h => (h.epoch, h.loop)) ++
    ((s.jobs.map Job.key).filter (·.1)).map (·.2) := by
  simp [State.picks, List.filter_map, Function.comp_def, Job.key]

theorem State.picks_congr (hh : s'.handoffs = s.handoffs)
    (hk : s'.jobs.map Job.key = s.jobs.map Job.key) : s'.picks = s.picks := by
  rw [picks_eq, picks_eq, hh, hk]

theorem mem_picks_of_background {job : Job} (hj : job ∈ s.jobs) (hb : job.background = true) :
    (job.epoch, job.loop) ∈ s.picks :=
  List.mem_append_right _ (List.mem_map.2 ⟨job, List.mem_filter.2 ⟨hj, hb⟩, rfl⟩)

theorem mem_picks_of_handoff {h : Handoff} (hh : h ∈ s.handoffs) : (h.epoch, h.loop) ∈ s.picks :=
  List.mem_append_left _ (List.mem_map.2 ⟨h, hh, rfl⟩)

theorem Kept.frame (h : Kept s) (hpicks : ∀ p ∈ s'.picks, p ∈ s.picks) (hepoch : s'.epoch = s.epoch)
    (hcur : s'.current = s.current) (hkept : ∀ l, s.current = some l → s'.loops[l]? = s.loops[l]?)
    (hbg : ∀ (l : Nat) (st : LoopState), s.loops[l]? = some ⟨true, st⟩ →
      ∃ st', s'.loops[l]? = some ⟨true, st'⟩)
    (hnc : ∀ (j : Nat) (job : Job), s'.jobs[j]? = some job → job.background = true →
      job.phase ≠ .cancelled) : Kept s' where
  current l hl := by
    rw [hcur] at hl
    rw [hkept l hl]
    exact h.current l hl
  picks_background p hp := by
    obtain ⟨st, hst⟩ := h.picks_background p (hpicks p hp)
    exact hbg _ st hst
  picks_epoch p hp := hepoch ▸ h.picks_epoch p (hpicks p hp)
  picks_current p hp he := hcur ▸ h.picks_current p (hpicks p hp) (hepoch ▸ he)
  picks_shared p hp q hq := h.picks_shared p (hpicks p hp) q (hpicks q hq)
  not_cancelled := hnc

theorem mem_picks {p : Nat × Nat} : p ∈ s.picks ↔ (∃ h ∈ s.handoffs, (h.epoch, h.loop) = p) ∨
    ∃ job ∈ s.jobs, job.background = true ∧ (job.epoch, job.loop) = p := by
  simp [State.picks, and_assoc]

theorem mem_picks_of_handoffs_append (h : Handoff) (hh : s'.handoffs = s.handoffs ++ [h])
    (hjobs : s'.jobs = s.jobs) (p : Nat × Nat) :
    p ∈ s'.picks ↔ p ∈ s.picks ∨ p = (h.epoch, h.loop) := by
  simp only [State.picks, hh, hjobs, List.map_append, List.map_cons, List.map_nil, List.mem_append,
    List.mem_singleton]
  rw [or_right_comm]

theorem Kept.pick_into (h : Kept s) {l : Nat}
    (hpicks : ∀ p, p ∈ s'.picks ↔ p ∈ s.picks ∨ p = (s.epoch, l)) (hepoch : s'.epoch = s.epoch)
    (hcur : s'.current = some l) (hrun : s'.loops[l]? = some ⟨true, .running⟩)
    (hbg : ∀ (k : Nat) (st : LoopState), s.loops[k]? = some ⟨true, st⟩ →
      s'.loops[k]? = some ⟨true, st⟩)
    (hsame : ∀ p ∈ s.picks, p.1 = s.epoch → p.2 = l) (hjobs : s'.jobs = s.jobs) : Kept s' where
  current k hk := by
    rw [hcur, Option.some.injEq] at hk
    exact hk ▸ hrun
  picks_background p hp := by
    rcases (hpicks p).1 hp with hp | rfl
    · obtain ⟨st, hst⟩ := h.picks_background p hp
      exact ⟨st, hbg _ st hst⟩
    · exact ⟨.running, hrun⟩
  picks_epoch p hp := by
    rcases (hpicks p).1 hp with hp | rfl
    · exact hepoch ▸ h.picks_epoch p hp
    · exact Nat.le_of_eq hepoch.symm
  picks_current p hp he := by
    rcases (hpicks p).1 hp with hp | rfl
    · rw [hcur, hsame p hp (hepoch ▸ he)]
    · exact hcur
  picks_shared p hp q hq he := by
    rcases (hpicks p).1 hp with hp | rfl <;> rcases (hpicks q).1 hq with hq | rfl
    · exact h.picks_shared p hp q hq he
    · exact hsame p hp he
    · exact (hsame q hq he.symm).symm
    · rfl
  not_cancelled := hjobs ▸ h.not_cancelled

theorem Kept.pick (h : Kept s) (n : Notice) : Kept (s.pick n) := by
  unfold State.pick
  split
  · rename_i l hl
    refine h.pick_into (mem_picks_of_handoffs_append ⟨n, l, s.epoch⟩ rfl rfl) rfl hl
      (h.current l hl) (fun _ _ hk => hk) ?_ rfl
    intro p hp he
    exact Option.some.inj ((h.picks_current p hp he).symm.trans hl)
  · rename_i hl
    refine h.pick_into (mem_picks_of_handoffs_append ⟨n, s.loops.length, s.epoch⟩ rfl rfl) rfl rfl
      (by simp) (fun _ _ hk => getElem?_concat_eq_some.2 (.inl hk)) ?_ rfl
    intro p hp he
    exact absurd (h.picks_current p hp he) (by simp [hl])

theorem Kept.detach (h : Kept s) : Kept { s with current := none, epoch := s.epoch + 1 } where
  current l hl := by simp at hl
  picks_background := h.picks_background
  picks_epoch p hp := Nat.le_succ_of_le (h.picks_epoch p hp)
  picks_current p hp he := absurd he (Nat.ne_of_lt (Nat.lt_succ_of_le (h.picks_epoch p hp)))
  picks_shared := h.picks_shared
  not_cancelled := h.not_cancelled

theorem Kept.openLoop (h : Kept s) : Kept s.openLoop :=
  h.frame (fun _ hp => hp) rfl rfl
    (fun k hk => by
      rw [h.current k hk]
      exact getElem?_concat_eq_some.2 (.inl (h.current k hk)))
    (fun _ st hk => ⟨st, getElem?_concat_eq_some.2 (.inl hk)⟩) h.not_cancelled

theorem Kept.deliverHere (h : Kept s) (l : Nat) (n : Notice) : Kept (s.deliverHere l n) :=
  h.frame (fun p hp => by simpa [State.picks, State.deliverHere] using hp) rfl rfl (fun _ _ => rfl)
    (fun _ st hst => ⟨st, hst⟩) fun j job hj hb => by
      rcases getElem?_concat_eq_some.1 hj with hj | ⟨-, rfl⟩
      · exact h.not_cancelled j job hj hb
      · simp at hb

theorem Kept.schedule (h : Kept s) {i : Nat} {hd : Handoff} (hi : s.handoffs[i]? = some hd) :
    Kept (s.schedule i hd) := by
  refine h.frame (fun p hp => ?_) rfl rfl (fun _ _ => rfl) (fun _ st hst => ⟨st, hst⟩) ?_
  · rcases mem_picks.1 hp with ⟨h', hh', rfl⟩ | ⟨job, hjob, hb, rfl⟩
    · exact mem_picks_of_handoff (List.mem_of_mem_eraseIdx hh')
    · rcases List.mem_append.1 hjob with hjob | hjob
      · exact mem_picks_of_background hjob hb
      · rw [List.mem_singleton.1 hjob]
        exact mem_picks_of_handoff (List.mem_of_getElem? hi)
  · intro j job hj hb
    rcases getElem?_concat_eq_some.1 hj with hj | ⟨-, rfl⟩
    · exact h.not_cancelled j job hj hb
    · simp

theorem Kept.refuse (h : Kept s) (i : Nat) (hd : Handoff) : Kept (s.refuse i hd) :=
  h.frame
    (fun p hp => by
      rcases mem_picks.1 hp with ⟨h', hh', rfl⟩ | ⟨job, hjob, hb, rfl⟩
      · exact mem_picks_of_handoff (List.mem_of_mem_eraseIdx hh')
      · exact mem_picks_of_background hjob hb)
    rfl rfl (fun _ _ => rfl) (fun _ st hst => ⟨st, hst⟩) h.not_cancelled

theorem Kept.modify (h : Kept s) {j : Nat} {job : Job} {f : Job → Job} (hj : s.jobs[j]? = some job)
    (hjobs : s'.jobs = s.jobs.modify j f) (hh : s'.handoffs = s.handoffs)
    (hloops : s'.loops = s.loops) (hcur : s'.current = s.current) (hepoch : s'.epoch = s.epoch)
    (hkey : ∀ x, (f x).key = x.key) (hphase : (f job).phase = .cancelled → job.phase = .cancelled) :
    Kept s' := by
  have hpicks : s'.picks = s.picks := picks_congr hh (by rw [hjobs]; exact map_modify_of_comp hkey j)
  refine h.frame (fun p hp => hpicks ▸ hp) hepoch hcur (fun _ _ => by rw [hloops])
    (fun _ st hst => ⟨st, hloops ▸ hst⟩) ?_
  intro i a ha hb
  rw [hjobs] at ha
  rcases getElem?_modify_cases hj ha with ⟨rfl, rfl⟩ | ⟨-, ha₀⟩
  · have hb₀ : job.background = true := (congrArg Prod.fst (hkey job)).symm.trans hb
    exact fun hc => h.not_cancelled i job hj hb₀ (hphase hc)
  · exact h.not_cancelled i a ha₀ hb

theorem Kept.shutdown (h : Kept s) {l : Nat} (hl : s.loops[l]? = some ⟨false, .running⟩) :
    Kept (s.shutdown l) := by
  have hne : ∀ (k : Nat) (st : LoopState), s.loops[k]? = some ⟨true, st⟩ → k ≠ l := by
    rintro k st hk rfl
    rw [hl] at hk
    simp at hk
  have hpicks : (s.shutdown l).picks = s.picks := by
    refine picks_congr rfl ?_
    simp only [State.shutdown, List.map_map]
    congr 1
    funext x
    simp only [Function.comp_apply]
    split <;> rfl
  refine h.frame (fun p hp => hpicks ▸ hp) rfl rfl
    (fun k hk => getElem?_modify_of_ne (hne k .running (h.current k hk)))
    (fun k st hk => ⟨st, (getElem?_modify_of_ne (hne k st hk)).trans hk⟩) ?_
  intro i a ha hb
  obtain ⟨a₀, ha₀, rfl⟩ := getElem?_shutdown_eq_some ha
  have hb₀ : a₀.background = true := by
    split at hb
    · exact hb
    · exact hb
  have hloop : a₀.loop ≠ l := by
    obtain ⟨st, hst⟩ := h.picks_background _ (mem_picks_of_background (List.mem_of_getElem? ha₀) hb₀)
    exact hne _ st hst
  simp only [hloop, if_false]
  exact h.not_cancelled i a₀ ha₀ hb₀

theorem Kept.setLoop (h : Kept s) {l : Nat} {st : LoopState} (hl : s.current ≠ some l) :
    Kept (s.setLoop l st) := by
  refine h.frame (fun _ hp => hp) rfl rfl
    (fun k hk => getElem?_modify_of_ne fun e => hl (e ▸ hk)) (fun k st' hk => ?_) h.not_cancelled
  by_cases hkl : k = l
  · subst hkl
    exact ⟨st, getElem?_modify_self hk⟩
  · exact ⟨st', (getElem?_modify_of_ne hkl).trans hk⟩

end Kept

section Run

variable {timeout : SendTimeout} {m : Monitor} {s s' : State}

theorem Account.pick (h : Account timeout m s) (n : Notice) : Account timeout m (s.pick n) := by
  unfold State.pick
  split
  · exact h.frame rfl rfl rfl fun _ => id
  · exact h.frame rfl rfl rfl fun _ => loopState_of_loops fun _ _ hx =>
      getElem?_concat_eq_some.2 (.inl hx)

theorem Account.setLoop (h : Account timeout m s) {l : Nat} {st : LoopState}
    (hopen : s.loopState l ≠ some .closed ∨ st = .closed) : Account timeout m (s.setLoop l st) :=
  h.frame rfl rfl rfl fun k hk => by
    rw [loopState_setLoop]
    split
    · rename_i hkl
      subst hkl
      rcases hopen with hopen | rfl
      · exact absurd hk hopen
      · simp [hk]
    · exact hk

/-- Every step keeps the account and the bookkeeping. -/
theorem Sound.step (h : Sound timeout m s) (hstep : Step timeout s s') : Sound timeout m s' := by
  obtain ⟨ha, hk⟩ := h
  cases hstep with
  | openLoop =>
    exact ⟨ha.frame rfl rfl rfl fun _ => loopState_of_loops fun _ _ hx =>
      getElem?_concat_eq_some.2 (.inl hx), hk.openLoop⟩
  | deliverHere n hrun =>
    exact ⟨ha.append rfl ⟨by simp, fun _ => rfl⟩ rfl rfl rfl rfl, hk.deliverHere _ n⟩
  | pick n => exact ⟨ha.pick n, hk.pick n⟩
  | schedule hi hopen =>
    exact ⟨ha.append rfl ⟨by simp, by simp⟩ rfl rfl rfl rfl, hk.schedule hi⟩
  | refuse hi hclosed => exact ⟨ha.frame rfl rfl rfl fun _ => id, hk.refuse _ _⟩
  | track hj hun =>
    exact ⟨ha.relist hj fun _ => ⟨by simp, fun _ => rfl⟩,
      hk.modify hj rfl rfl rfl rfl rfl (fun _ => rfl) id⟩
  | start hj hq hrun hfirst =>
    unfold State.start
    split
    · rename_i hstarts
      exact ⟨ha.start_sending hj hq hfirst hstarts,
        hk.modify hj rfl rfl rfl rfl rfl (fun _ => rfl) (by simp)⟩
    · rename_i hstarts
      exact ⟨ha.start_cancelled hj hq hfirst (by simpa using hstarts),
        hk.modify hj rfl rfl rfl rfl rfl (fun _ => rfl) (by simp)⟩
  | finish o hj hsending hrun hallowed =>
    exact ⟨ha.finish hj hsending o, hk.modify hj rfl rfl rfl rfl rfl (fun _ => rfl) (by simp)⟩
  | forget hj hlisted hfinal hwhere =>
    exact ⟨ha.relist hj fun hf => absurd hfinal (by simp [hf]),
      hk.modify hj rfl rfl rfl rfl rfl (fun _ => rfl) id⟩
  | shutdown hl =>
    exact ⟨ha.shutdown (by simp [State.loopState, hl]), hk.shutdown hl⟩
  | detach => exact ⟨ha.frame rfl rfl rfl fun _ => id, hk.detach⟩
  | stop hl hcur =>
    exact ⟨ha.setLoop (.inl (by simp [State.loopState, hl])), hk.setLoop hcur⟩
  | closeLoop hl =>
    have hcur : s.current ≠ some _ := fun hc => by
      have hrun := hk.current _ hc
      rw [hl] at hrun
      simp at hrun
    exact ⟨ha.setLoop (.inr rfl), hk.setLoop hcur⟩

theorem Sound.init : Sound timeout m { mon := m } where
  account :=
    { sent_nodup := List.nodup_nil
      sent_started := by simp
      sending_sent := by simp
      done_sent := by simp
      fifo := by simp [Fifo]
      sent_order := List.Pairwise.nil
      counted := by simp
      listed := by simp
      cancelled := by simp }
  kept :=
    { current := by simp
      picks_background := by simp [State.picks]
      picks_epoch := by simp [State.picks]
      picks_current := by simp [State.picks]
      picks_shared := by simp [State.picks]
      not_cancelled := by simp }

/-- Every reachable state is sound. -/
theorem Reachable.sound (h : Reachable timeout m s) : Sound timeout m s := by
  induction h with
  | init => exact Sound.init
  | step _ hstep ih => exact ih.step hstep

theorem Reachable.of_reflTransGen (h : Reachable timeout m s)
    (hrun : Relation.ReflTransGen (Step timeout) s s') : Reachable timeout m s' := by
  induction hrun with
  | refl => exact h
  | tail _ hstep ih => exact ih.step hstep

theorem Job.phase_cancel_of_final {job : Job} (hf : job.phase.final = true) :
    job.cancel.phase = job.phase := by
  simp [Job.cancel, hf]

theorem exists_phase_modify {jobs : List Job} {i j : Nat} {job : Job} {f : Job → Job}
    (hj : jobs[j]? = some job) (hkeep : i = j → (f job).phase = job.phase) :
    ∃ job', (jobs.modify i f)[j]? = some job' ∧ job'.phase = job.phase := by
  by_cases hij : i = j
  · subst hij
    exact ⟨f job, getElem?_modify_self hj, hkeep rfl⟩
  · exact ⟨job, (getElem?_modify_of_ne (Ne.symm hij)).trans hj, rfl⟩

theorem Step.final_stays (hstep : Step timeout s s') {j : Nat} {job : Job}
    (hj : s.jobs[j]? = some job) (hf : job.phase.final = true) :
    ∃ job', s'.jobs[j]? = some job' ∧ job'.phase = job.phase := by
  have hother : ∀ {i : Nat} {other : Job}, s.jobs[i]? = some other → other.phase.final = false →
      i ≠ j := by
    rintro i other hi hof rfl
    rw [hj] at hi
    cases hi
    simp [hf] at hof
  cases hstep with
  | openLoop | refuse | detach | stop | closeLoop => exact ⟨job, hj, rfl⟩
  | pick n =>
    refine ⟨job, ?_, rfl⟩
    unfold State.pick
    split <;> exact hj
  | deliverHere | schedule => exact ⟨job, getElem?_concat_eq_some.2 (.inl hj), rfl⟩
  | track | forget => exact exists_phase_modify hj fun _ => rfl
  | start hi hq =>
    unfold State.start
    split <;> exact exists_phase_modify hj fun e => absurd e (hother hi (by simp [hq, Phase.final]))
  | finish o hi hsending =>
    exact exists_phase_modify hj fun e => absurd e (hother hi (by simp [hsending, Phase.final]))
  | shutdown =>
    simp only [State.shutdown, List.getElem?_map, hj, Option.map_some, Option.some.injEq,
      exists_eq_left']
    split
    · exact Job.phase_cancel_of_final hf
    · rfl

theorem final_stays_of_reflTransGen (hrun : Relation.ReflTransGen (Step timeout) s s') {j : Nat}
    {job : Job} (hj : s.jobs[j]? = some job) (hf : job.phase.final = true) :
    ∃ job', s'.jobs[j]? = some job' ∧ job'.phase = job.phase := by
  induction hrun with
  | refl => exact ⟨job, hj, rfl⟩
  | tail _ hstep ih =>
    obtain ⟨job', hj', hphase⟩ := ih
    obtain ⟨job'', hj'', hphase'⟩ := hstep.final_stays hj' (hphase ▸ hf)
    exact ⟨job'', hj'', hphase'.trans hphase⟩

end Run

section Consequences

variable {timeout : SendTimeout} {m : Monitor} {s s' : State}

theorem Account.count_sent_of_done (h : Account timeout m s) {j : Nat} {job : Job} {ok : Bool}
    (hj : s.jobs[j]? = some job) (hd : job.phase = .done ok) :
    s.sent.count j = if timeout.starts then 1 else 0 := by
  have hiff := h.done_sent j job ok hj hd
  split
  · rename_i hstarts
    exact List.count_eq_one_of_mem h.sent_nodup (hiff.2 hstarts)
  · rename_i hstarts
    exact List.count_eq_zero.2 fun hmem => hstarts (hiff.1 hmem)

theorem Account.done_of_drained (h : Account timeout m s) (hdrained : s.drained) {j : Nat}
    {job : Job} (hj : s.jobs[j]? = some job) (hb : job.background = false)
    (hrun : s.loopState job.loop = some .running) : ∃ ok, job.phase = .done ok := by
  cases hp : job.phase with
  | done ok => exact ⟨ok, rfl⟩
  | cancelled =>
    have hclosed := h.cancelled j job hj hp
    rw [hrun] at hclosed
    cases hclosed
  | queued | sending =>
    have hlisted := (h.listed j job hj (by simp [hp, Phase.final])).2 hb
    exact absurd hlisted (hdrained job (List.mem_of_getElem? hj) hb)

theorem Sound.done_of_flushed (h : Sound timeout m s)
    (hrun : Relation.ReflTransGen (Step timeout) s s') (hflushed : s.flushedBy s') {j : Nat}
    {job : Job} (hj : s.jobs[j]? = some job) (hb : job.background = true)
    (hreturned : job.listing ≠ .unlisted) :
    ∃ job' ok, s'.jobs[j]? = some job' ∧ job'.phase = .done ok := by
  cases hl : job.listing with
  | unlisted => exact absurd hl hreturned
  | listed => exact hflushed j job hj hb hl
  | dropped =>
    have hfinal : job.phase.final = true := by
      cases hf : job.phase.final with
      | true => rfl
      | false => exact absurd hl (h.account.listed j job hj hf).1
    have hnc := h.kept.not_cancelled j job hj hb
    cases hp : job.phase with
    | done ok =>
      obtain ⟨job', hj', hphase⟩ := final_stays_of_reflTransGen hrun hj hfinal
      exact ⟨job', ok, hj', hphase.trans hp⟩
    | cancelled => exact absurd hp hnc
    | queued | sending => simp [hp, Phase.final] at hfinal

theorem Kept.epoch_lt_of_closed (h : Kept s) {hd : Handoff} (hh : hd ∈ s.handoffs)
    (hclosed : s.loopState hd.loop = some .closed) : hd.epoch < s.epoch := by
  have hp := mem_picks_of_handoff hh
  refine Nat.lt_of_le_of_ne (h.picks_epoch _ hp) fun he => ?_
  have hrun := h.current _ (h.picks_current _ hp he)
  simp [State.loopState, hrun] at hclosed

end Consequences

/-- What the dispatcher promises in a state reached from a monitor `m` with sends bounded by
`timeout`. -/
structure Delivered (timeout : SendTimeout) (m : Monitor) (s : State) : Prop where
  /-- The sender started each send at most once, -/
  sent_nodup : s.sent.Nodup
  /-- none at all under a timeout that cancels sends before they start, -/
  nothing_sent : timeout.starts = false → s.sent = []
  /-- and those of one loop in the order they were scheduled. -/
  in_order : InOrder s.jobs s.sent
  /-- Each send over without a truthy result is counted once under its level, and nothing else. -/
  counted : ∀ ℓ, failures s.mon ℓ = failures m ℓ + s.jobs.countP (Job.failedAt ℓ)
  /-- Background sends since the last close run on the loop the dispatcher keeps, -/
  kept_loop : ∀ a ∈ s.jobs, a.background = true → a.epoch = s.epoch → s.current = some a.loop
  /-- and those between two closes on one loop. -/
  shared_loop : ∀ a ∈ s.jobs, ∀ b ∈ s.jobs, a.background = true → b.background = true →
    a.epoch = b.epoch → a.loop = b.loop
  /-- A background `deliver` finds the loop it took closed only after a close. -/
  closed_after_close : ∀ h ∈ s.handoffs, s.loopState h.loop = some .closed → h.epoch < s.epoch
  /-- Once draining can return, every send of a caller's running loop is over, and reached the
  sender once if the timeout lets sends start, never otherwise. -/
  drained : s.drained → ∀ (j : Nat) (job : Job), s.jobs[j]? = some job → job.background = false →
    s.loopState job.loop = some .running →
    (∃ ok, job.phase = .done ok) ∧ s.sent.count j = if timeout.starts then 1 else 0
  /-- Once a flush begun here can return, so it is with every background send whose `deliver`
  had returned. -/
  flushed : ∀ s', Relation.ReflTransGen (Step timeout) s s' → s.flushedBy s' →
    ∀ (j : Nat) (job : Job), s.jobs[j]? = some job → job.background = true →
      job.listing ≠ .unlisted → ∃ job', s'.jobs[j]? = some job' ∧ (∃ ok, job'.phase = .done ok) ∧
        s'.sent.count j = if timeout.starts then 1 else 0

/-- However deliveries from callers' loops and from threads, sends with any outcome, done
callbacks, the ends of callers' runs and `close` interleave, every reachable state keeps the
dispatcher's promise. -/
theorem reachable_delivered {timeout : SendTimeout} {m : Monitor} {s : State}
    (hs : Reachable timeout m s) : Delivered timeout m s := by
  obtain ⟨ha, hk⟩ := hs.sound
  refine ⟨ha.sent_nodup, ?_, ha.sent_order, ha.counted, ?_, ?_, ?_, ?_, ?_⟩
  · intro hstarts
    apply List.eq_nil_iff_forall_not_mem.2
    intro j hj
    have hsent := (ha.sent_started j hj).1
    simp [hstarts] at hsent
  · intro a ha' hb he
    exact hk.picks_current _ (mem_picks_of_background ha' hb) he
  · intro a ha' b hb' hab hbb he
    exact hk.picks_shared _ (mem_picks_of_background ha' hab) _ (mem_picks_of_background hb' hbb) he
  · intro h hh hclosed
    exact hk.epoch_lt_of_closed hh hclosed
  · intro hdrained j job hj hb hrun
    obtain ⟨ok, hd⟩ := ha.done_of_drained hdrained hj hb hrun
    exact ⟨⟨ok, hd⟩, ha.count_sent_of_done hj hd⟩
  · intro s' hrun hflushed j job hj hb hreturned
    obtain ⟨job', ok, hj', hd⟩ := Sound.done_of_flushed ⟨ha, hk⟩ hrun hflushed hj hb hreturned
    exact ⟨job', hj', ⟨ok, hd⟩, ((hs.of_reflTransGen hrun).sound.account.count_sent_of_done hj' hd)⟩

/-- A caller's loop delivers a warning and a thread delivers an error through the background
loop; the sender answers the warning with a falsy result and the error with a truthy one, both
done callbacks run, and `close` stops and closes the background loop. The pending set is then
empty, each send reached the sender once, and the promise holds there. -/
theorem falsy_send_drained_after_close :
    ∃ s, Reachable .unbounded { store := .memory (.bool true) } s ∧ s.drained ∧
      s.jobs.length = 2 ∧ s.sent = [0, 1] ∧ s.loopState 1 = some .closed ∧
      Delivered .unbounded { store := .memory (.bool true) } s := by
  let n : Notice := ⟨.warning, ⟨[]⟩, ⟨[]⟩⟩
  let n' : Notice := ⟨.error, ⟨[]⟩, ⟨[]⟩⟩
  have hscheduled := (((((@Reachable.init .unbounded { store := .memory (.bool true) }).step
    .openLoop).step (@Step.deliverHere _ _ 0 n rfl)).step (.pick n')).step
      (@Step.schedule _ _ 0 ⟨n', 1, 0⟩ rfl (by decide))).step
      (@Step.track _ _ 1 ⟨n', 1, true, 0, .queued, .unlisted⟩ rfl rfl)
  have hsent := (hscheduled.step
      (@Step.start _ _ 0 ⟨n, 0, false, 0, .queued, .listed⟩ rfl rfl rfl
        fun i _ hi => absurd hi (Nat.not_lt_zero i))).step
      (@Step.start _ _ 1 ⟨n', 1, true, 0, .queued, .listed⟩ rfl rfl rfl
        fun i other hi ho hloop => by
          obtain rfl : i = 0 := by omega
          cases ho
          cases hloop)
  have hdone := (((hsent.step
      (@Step.finish _ _ 0 ⟨n, 0, false, 0, .sending, .listed⟩ .falsy rfl rfl rfl rfl)).step
      (@Step.finish _ _ 1 ⟨n', 1, true, 0, .sending, .listed⟩ .truthy rfl rfl rfl rfl)).step
      (@Step.forget _ _ 0 ⟨n, 0, false, 0, .done false, .listed⟩ rfl rfl rfl (.inr rfl))).step
      (@Step.forget _ _ 1 ⟨n', 1, true, 0, .done true, .listed⟩ rfl rfl rfl (.inl rfl))
  have hclosed := ((hdone.step .detach).step (@Step.stop _ _ 1 rfl (by decide))).step
      (@Step.closeLoop _ _ 1 rfl)
  exact ⟨_, hclosed, by unfold State.drained; decide, rfl, rfl, rfl, reachable_delivered hclosed⟩

/-- Under a timeout of zero a caller's loop delivers a notice and drains, and the sender never
saw the notice: the timeout cancels the send before its first step. -/
theorem zero_timeout_drains_unsent :
    ∃ s j job, Reachable (.seconds (.int 0)) { store := .memory (.bool true) } s ∧ s.drained ∧
      s.jobs[j]? = some job ∧ job.background = false ∧ s.loopState job.loop = some .running ∧
      s.sent.count j = 0 := by
  let n : Notice := ⟨.warning, ⟨[]⟩, ⟨[]⟩⟩
  have hrun : Reachable (.seconds (.int 0)) { store := .memory (.bool true) }
      (((({ mon := { store := .memory (.bool true) } } : State).openLoop.deliverHere 0 n).start
        (.seconds (.int 0)) 0 ⟨n, 0, false, 0, .queued, .listed⟩).modifyJob 0
          ({ · with listing := .dropped })) :=
    (((Reachable.init.step .openLoop).step (@Step.deliverHere _ _ 0 n rfl)).step
      (@Step.start _ _ 0 ⟨n, 0, false, 0, .queued, .listed⟩ rfl rfl rfl
        fun i _ hi => absurd hi (Nat.not_lt_zero i))).step
      (@Step.forget _ _ 0 ⟨n, 0, false, 0, .done false, .listed⟩ rfl rfl rfl (.inr rfl))
  exact ⟨_, 0, ⟨n, 0, false, 0, .done false, .dropped⟩, hrun, by unfold State.drained; decide, rfl,
    rfl, rfl, rfl⟩

/-- A background `deliver` that took the loop just before a close took it away, and that
schedules its send once the loop is closed, raises. -/
theorem deliver_raises_after_close (timeout : SendTimeout) (m : Monitor) (n : Notice) :
    ∃ s, Reachable timeout m s ∧ s.refused = [n] :=
  ⟨_, (((((Reachable.init.step (.pick n)).step .detach).step (@Step.stop _ _ 0 rfl nofun)).step
    (@Step.closeLoop _ _ 0 rfl)).step (@Step.refuse _ _ 0 ⟨n, 0, 0⟩ rfl rfl)), rfl⟩

section Sequential

variable {timeout : SendTimeout} {s : State} {l : Nat}

theorem modify_concat_length {α : Type} (xs : List α) (x : α) (f : α → α) :
    (xs ++ [x]).modify xs.length f = xs ++ [f x] := by
  induction xs with
  | nil => rfl
  | cons a xs ih => simp only [List.cons_append, List.length_cons, List.modify_succ_cons, ih]

def Outcome.ofBool (ok : Bool) : Outcome := if ok then .truthy else .falsy

theorem Outcome.ok_ofBool (ok : Bool) : (Outcome.ofBool ok).ok = ok := by
  cases ok <;> rfl

theorem sendHere (hl : s.loopState l = some .running)
    (hidle : ∀ job ∈ s.jobs, job.phase ≠ .queued) (n : Notice) (ok : Bool) :
    ∃ s', Relation.ReflTransGen (Step timeout) s s' ∧ s'.loops = s.loops ∧
      s'.mon = s.mon.delivered n (timeout.starts && ok) ∧
      s'.jobs = s.jobs ++ [⟨n, l, false, s.epoch, .done (timeout.starts && ok), .dropped⟩] ∧
      s'.sent = s.sent ++ (if timeout.starts then [s.jobs.length] else []) := by
  let x : Job := ⟨n, l, false, s.epoch, .queued, .listed⟩
  have hx : (s.deliverHere l n).jobs[s.jobs.length]? = some x := by simp [State.deliverHere, x]
  have hfirst : ∀ i other, i < s.jobs.length → (s.deliverHere l n).jobs[i]? = some other →
      other.loop = x.loop → other.phase ≠ .queued := by
    intro i other hi ho _
    rw [State.deliverHere, List.getElem?_append_left hi] at ho
    exact hidle other (List.mem_of_getElem? ho)
  have hstart : Relation.ReflTransGen (Step timeout) s
      (State.start timeout (s.deliverHere l n) s.jobs.length x) :=
    (Relation.ReflTransGen.single (.deliverHere n hl)).tail (.start hx rfl hl hfirst)
  have hrun : (State.start timeout (s.deliverHere l n) s.jobs.length x).loopState l =
      some .running := by
    simp only [State.loopState, State.start_loops]
    exact hl
  cases hst : timeout.starts with
  | false =>
    have hend : (State.start timeout (s.deliverHere l n) s.jobs.length x).jobs[s.jobs.length]? =
        some ⟨n, l, false, s.epoch, .done false, .listed⟩ := by
      simp [State.start, hst, State.deliverHere, modify_concat_length, x]
    refine ⟨_, hstart.tail (.forget hend rfl rfl (.inr hrun)), by simp [State.deliverHere], ?_, ?_,
      ?_⟩ <;> simp [State.start, hst, State.deliverHere, modify_concat_length, x]
  | true =>
    have hsending : (State.start timeout (s.deliverHere l n) s.jobs.length x).jobs[s.jobs.length]? =
        some ⟨n, l, false, s.epoch, .sending, .listed⟩ := by
      simp [State.start, hst, State.deliverHere, modify_concat_length]
    have hfinish := hstart.tail
      (.finish (Outcome.ofBool ok) hsending rfl hrun (by cases ok <;> rfl))
    have hend : ((State.start timeout (s.deliverHere l n) s.jobs.length x).finish s.jobs.length
        ⟨n, l, false, s.epoch, .sending, .listed⟩ (Outcome.ofBool ok)).jobs[s.jobs.length]? =
        some ⟨n, l, false, s.epoch, .done ok, .listed⟩ := by
      simp [State.finish, State.start, hst, State.deliverHere, modify_concat_length,
        Outcome.ok_ofBool]
    refine ⟨_, hfinish.tail (.forget hend rfl rfl (.inr hrun)), by simp [State.deliverHere], ?_, ?_,
      ?_⟩ <;>
      simp [State.finish, State.start, hst, State.deliverHere, modify_concat_length,
        Outcome.ok_ofBool]

/-- A caller on a running loop with no send waiting delivers notices one after another, waiting
for each send and its done callback: every send is over and out of the set, and the monitor and
the sender see the notices in order as `Monitor.delivered` counts them. -/
theorem sendAllHere (ok : Bool) (ns : List Notice) :
    ∀ s : State, s.loopState l = some .running → (∀ job ∈ s.jobs, job.phase ≠ .queued) →
    ∃ s', Relation.ReflTransGen (Step timeout) s s' ∧ s'.loops = s.loops ∧
      s'.mon = ns.foldl (fun m n => m.delivered n (timeout.starts && ok)) s.mon ∧
      s'.jobs.map Job.notice = s.jobs.map Job.notice ++ ns ∧
      (∀ job ∈ s'.jobs, job ∈ s.jobs ∨
        (job.background = false ∧ job.phase = .done (timeout.starts && ok) ∧
          job.listing = .dropped)) ∧
      s'.sent = s.sent ++ (if timeout.starts then List.range' s.jobs.length ns.length else []) := by
  induction ns with
  | nil =>
    intro s _ _
    exact ⟨s, .refl, rfl, rfl, by simp, fun job h => .inl h, by simp⟩
  | cons n ns ih =>
    intro s hl hidle
    obtain ⟨s₁, hrun₁, hloops₁, hmon₁, hjobs₁, hsent₁⟩ := @sendHere timeout _ _ hl hidle n ok
    have hl₁ : s₁.loopState l = some .running := by
      simp only [State.loopState, hloops₁]
      exact hl
    have hidle₁ : ∀ job ∈ s₁.jobs, job.phase ≠ .queued := by
      intro job hjob
      rw [hjobs₁, List.mem_append, List.mem_singleton] at hjob
      rcases hjob with hjob | rfl
      · exact hidle job hjob
      · simp
    obtain ⟨s₂, hrun₂, hloops₂, hmon₂, hnotices₂, hkind₂, hsent₂⟩ := ih s₁ hl₁ hidle₁
    refine ⟨s₂, hrun₁.trans hrun₂, hloops₂.trans hloops₁, by rw [hmon₂, hmon₁]; rfl, ?_, ?_, ?_⟩
    · rw [hnotices₂, hjobs₁]
      simp
    · intro job hjob
      rcases hkind₂ job hjob with hjob | hnew
      · rw [hjobs₁, List.mem_append, List.mem_singleton] at hjob
        rcases hjob with hjob | rfl
        · exact .inl hjob
        · exact .inr ⟨rfl, rfl, rfl⟩
      · exact .inr hnew
    · rw [hsent₂, hsent₁, hjobs₁]
      cases timeout.starts <;> simp [List.range'_succ]

theorem map_getElem?_range {α : Type} (xs : List α) :
    (List.range xs.length).map (xs[·]?) = xs.map some := by
  apply List.ext_getElem (by simp)
  intro i hi _
  simp only [List.length_map, List.length_range] at hi
  simp [hi]

/-- `Monitor.deliver`, which hands notices to the sender one after another, is a run of the
dispatcher on a caller's loop that waits for each send: the run drains, its monitor is the one
`Monitor.deliver` returns, and the sender received exactly the notices it reports, in order. -/
theorem deliver_eq_run (timeout : SendTimeout) (m : Monitor) (ns : List Notice) (ok : Bool) :
    ∃ s, Reachable timeout m s ∧ s.drained ∧ s.mon = (m.deliver ns timeout ok).1 ∧
      s.sent.map (fun j => (s.jobs.map Job.notice)[j]?) = (m.deliver ns timeout ok).2.map some := by
  have hopen : Reachable timeout m ({ mon := m } : State).openLoop := .step .init .openLoop
  obtain ⟨s, hrun, -, hmon, hnotices, hkind, hsent⟩ :=
    @sendAllHere timeout 0 ok ns ({ mon := m } : State).openLoop rfl (by simp [State.openLoop])
  refine ⟨s, hopen.of_reflTransGen hrun, ?_, ?_, ?_⟩
  · intro job hjob _
    rcases hkind job hjob with hjob | ⟨-, -, hdropped⟩
    · simp [State.openLoop] at hjob
    · simp [hdropped]
  · rw [hmon]
    cases hst : timeout.starts <;> simp [Monitor.deliver, State.openLoop, hst]
  · simp only [State.openLoop, List.map_nil, List.nil_append, List.length_nil] at hnotices hsent
    rw [hsent, hnotices]
    cases hst : timeout.starts
    · simp [Monitor.deliver, hst]
    · simp [Monitor.deliver, hst, ← List.range_eq_range', map_getElem?_range]

end Sequential

end Delivery

end CacheHitRate
