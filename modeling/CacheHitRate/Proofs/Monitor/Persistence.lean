import Mathlib.Data.List.Nodup
import CacheHitRate.Proofs.Monitor.Step

/-!
Saving the switch while calls run on many threads. A call runs in two steps. The first, under the
monitor's lock, makes the call; when the call sets the switch (a real change of the switch, or a
failed self-check) it queues the new value in a single slot with the next number of a counter,
and takes the write out of the slot before the lock is released. The second, under the store's
lock, saves the write unless a write with a higher number was saved already. Between its two
steps the write is in flight. Any number of calls may be in flight at once, and the steps of
different calls interleave in any order.

`Persisting` is that system together with its history: the calls made under the lock with the
write each took, the writes handed to the store, and the writes whose second step has run.
Whatever the interleaving, the store is handed writes with ever higher numbers and no queued
write is lost; once no call is in flight, the last write handed to the store is the one with the
highest number, the store holds its value unless that save failed, and the monitor's switch is
that value unless a start or a stop came after it.
-/

namespace CacheHitRate

namespace FlagStore

theorem load_of_save {st st' : FlagStore} {b : Bool} (h : st.save (.bool b) = some st') :
    st'.load Monitor.startDepth = .ok (.bool b) := by
  cases st with
  | memory v =>
    cases h
    rfl
  | file text blocked =>
    cases blocked with
    | true => cases h
    | false =>
      cases h
      have hread : enabledIn Monitor.startDepth (document (.bool b)) = .ok b := by
        cases b <;> decide
      show Json.bool <$> enabledIn Monitor.startDepth (document (.bool b)) = _
      rw [hread]
      rfl

end FlagStore

/-- A switch value queued for the store, with its number. -/
structure FlagWrite where
  on : Bool
  seq : Nat
  deriving DecidableEq, Repr

/-- The monitor with the switch writes of its calls. -/
structure Persisting where
  mon : Monitor
  /-- The number of the last write queued. -/
  seq : Nat := 0
  /-- The slot a call queues its write in. -/
  slot : Option FlagWrite := none
  /-- The number of the last write saved. -/
  persistedSeq : Nat := 0
  /-- The writes taken out of the slot whose call has not made its second step. -/
  inFlight : List FlagWrite := []
  /-- The calls made under the lock, each with the write it took. -/
  history : List (Call × Option FlagWrite) := []
  /-- The writes handed to the store, each with whether the store took it. -/
  saves : List (FlagWrite × Bool) := []
  /-- The writes whose second step has run. -/
  settled : List FlagWrite := []

namespace Persisting

def writes (s : Persisting) : List FlagWrite := s.history.filterMap Prod.snd

/-- Queues a switch value in the slot with the next number. -/
def queue (s : Persisting) (on : Bool) : Persisting :=
  { s with seq := s.seq + 1, slot := some ⟨on, s.seq + 1⟩ }

/-- Takes the write out of the slot. -/
def take (s : Persisting) : Persisting :=
  { s with slot := none, inFlight := s.inFlight ++ s.slot.toList }

/-- The first step of a call at `now`: the call under the monitor's lock, which queues the switch
value it set and takes the write out of the slot. -/
def lock (s : Persisting) (now : Int) (c : Call) : Persisting :=
  let o := s.mon.step now c
  let s₁ : Persisting := { s with mon := o.mon }
  let s₂ := match o.queued with
    | some on => s₁.queue on
    | none => s₁
  { s₂.take with history := s.history ++ [(c, s₂.slot)] }

/-- The second step of a call whose write is `w`, under the store's lock: a write with a lower
number than one saved already is skipped; any other is handed to the store, which may refuse it. -/
def persist (s : Persisting) (w : FlagWrite) : Persisting :=
  let s₁ := { s with inFlight := s.inFlight.erase w, settled := s.settled ++ [w] }
  if w.seq < s.persistedSeq then s₁
  else { s₁ with persistedSeq := w.seq, mon := s.mon.persist w.on,
                 saves := s.saves ++ [(w, (s.mon.store.save (.bool w.on)).isSome)] }

/-- One step of one call, in any interleaving: a call made under the lock (the store is written
by the monitor alone), or the second step of a write in flight. -/
inductive Step : Persisting → Persisting → Prop
  | lock (s : Persisting) (now : Int) (c : Call) (hc : ∀ store, c ≠ .storeWritten store) :
      Step s (s.lock now c)
  | persist (s : Persisting) (w : FlagWrite) (hw : w ∈ s.inFlight) : Step s (s.persist w)

/-- The states reached from the monitor `m` in any interleaving of its calls. -/
inductive Reaches (m : Monitor) : Persisting → Prop
  | start : Reaches m { mon := m }
  | step {s s' : Persisting} : Reaches m s → Step s s' → Reaches m s'

/-- What holds between the steps of any interleaving. The slot is empty; the writes are numbered
one after another; each is in flight or settled; the store was handed settled writes in rising
order, the last of them the last saved number; once the newest write is settled it is the last
one handed to the store; a save the store took is held by it; the switch is the value of the
last write while only calls that queue nothing and neither start nor stop the monitor follow it;
and the store was handed each settled write or a newer one. -/
structure Inv (s : Persisting) : Prop where
  slot : s.slot = none
  numbered : s.writes.map FlagWrite.seq = List.range' 1 s.seq
  accounted : s.writes.Perm (s.settled ++ s.inFlight)
  saved : ∀ p ∈ s.saves, p.1 ∈ s.settled
  rising : (s.saves.map fun p => p.1.seq).Pairwise (· < ·)
  persisted : s.persistedSeq = (s.saves.getLast?.map fun p => p.1.seq).getD 0
  newest : ∀ w ∈ s.settled, w.seq = s.seq → s.saves.getLast?.map Prod.fst = some w
  stored : ∀ w, s.saves.getLast? = some (w, true) →
    s.mon.store.load Monitor.startDepth = .ok (.bool w.on)
  switch : ∀ pre c w post, s.history = pre ++ (c, some w) :: post →
    (∀ p ∈ post, p.2 = none ∧ p.1 ≠ .start ∧ p.1 ≠ .stop) → s.mon.enabled = .bool w.on
  superseded : ∀ w ∈ s.settled, ∃ p ∈ s.saves, w.seq ≤ p.1.seq

section Lists

variable {α : Type}

theorem eq_or_of_append_singleton {l pre post : List α} {e x : α}
    (h : l ++ [e] = pre ++ x :: post) :
    (post = [] ∧ x = e ∧ l = pre) ∨ ∃ post₀, post = post₀ ++ [e] ∧ l = pre ++ x :: post₀ := by
  rcases List.eq_nil_or_concat post with rfl | ⟨post₀, y, rfl⟩
  · obtain ⟨hl, he⟩ := List.append_inj' h rfl
    exact Or.inl ⟨rfl, (List.singleton_inj.1 he).symm, hl⟩
  · have h' : l ++ [e] = (pre ++ x :: post₀) ++ [y] := by simpa using h
    obtain ⟨hl, he⟩ := List.append_inj' h' rfl
    obtain rfl := (List.singleton_inj.1 he)
    exact Or.inr ⟨post₀, List.concat_eq_append, hl⟩

theorem le_getLast_of_rising {l : List Nat} (h : l.Pairwise (· < ·)) {x y : Nat} (hx : x ∈ l)
    (hy : l.getLast? = some y) : x ≤ y := by
  obtain ⟨init, rfl⟩ := List.getLast?_eq_some_iff.1 hy
  rcases List.mem_append.1 hx with hx | hx
  · exact Nat.le_of_lt ((List.pairwise_append.1 h).2.2 x hx y (List.mem_singleton_self y))
  · exact Nat.le_of_eq (List.mem_singleton.1 hx)

end Lists

variable {s : Persisting}

theorem Inv.seq_le (h : s.Inv) {w : FlagWrite} (hw : w ∈ s.writes) : 1 ≤ w.seq ∧ w.seq ≤ s.seq := by
  have hmem : w.seq ∈ List.range' 1 s.seq := h.numbered ▸ List.mem_map_of_mem hw
  simp only [List.mem_range'_1] at hmem
  omega

theorem Inv.eq_of_seq (h : s.Inv) {w w' : FlagWrite} (hw : w ∈ s.writes) (hw' : w' ∈ s.writes)
    (hseq : w.seq = w'.seq) : w = w' := by
  have hnodup : (s.writes.map FlagWrite.seq).Nodup := h.numbered ▸ List.nodup_range'
  exact List.inj_on_of_nodup_map hnodup hw hw' hseq

theorem Inv.not_settled_of_inFlight (h : s.Inv) {w : FlagWrite} (hw : w ∈ s.inFlight) :
    ∀ v ∈ s.settled, v.seq ≠ w.seq := by
  intro v hv hseq
  have hnodup : (s.settled ++ s.inFlight).Nodup := by
    have hn : s.writes.Nodup := List.Nodup.of_map FlagWrite.seq (h.numbered ▸ List.nodup_range')
    exact h.accounted.nodup_iff.1 hn
  have hv' : v ∈ s.writes := h.accounted.symm.subset (List.mem_append_left _ hv)
  have hw' : w ∈ s.writes := h.accounted.symm.subset (List.mem_append_right _ hw)
  obtain rfl := h.eq_of_seq hv' hw' hseq
  exact List.disjoint_of_nodup_append hnodup hv hw

theorem Inv.persistedSeq_lt (h : s.Inv) {w : FlagWrite} (hw : w ∈ s.inFlight)
    (hle : s.persistedSeq ≤ w.seq) : s.persistedSeq < w.seq := by
  rcases hlast : s.saves.getLast? with _ | ⟨v, ok⟩
  · have hw' : w ∈ s.writes := h.accounted.symm.subset (List.mem_append_right _ hw)
    have := (h.seq_le hw').1
    rw [h.persisted, hlast]
    simp only [Option.map_none, Option.getD_none]
    omega
  · have hv : v ∈ s.settled := h.saved (v, ok) (List.mem_of_getLast? hlast)
    have hne := h.not_settled_of_inFlight hw v hv
    rw [h.persisted, hlast] at hle ⊢
    simp only [Option.map_some, Option.getD_some] at hle ⊢
    omega

theorem Inv.persistedSeq_le (h : s.Inv) : s.persistedSeq ≤ s.seq := by
  rw [h.persisted]
  rcases hlast : s.saves.getLast? with _ | ⟨v, ok⟩
  · simp
  · have hv : v ∈ s.writes :=
      h.accounted.symm.subset
        (List.mem_append_left _ (h.saved (v, ok) (List.mem_of_getLast? hlast)))
    simpa using (h.seq_le hv).2

theorem Inv.exists_save_of_lt (h : s.Inv) {n : Nat} (hlt : n < s.persistedSeq) :
    ∃ p ∈ s.saves, n ≤ p.1.seq := by
  rw [h.persisted] at hlt
  rcases hlast : s.saves.getLast? with _ | ⟨v, ok⟩
  · rw [hlast] at hlt
    simp at hlt
  · rw [hlast] at hlt
    exact ⟨(v, ok), List.mem_of_getLast? hlast, Nat.le_of_lt hlt⟩

theorem Inv.seq_eq_of_max (h : s.Inv) {w : FlagWrite} (hw : w ∈ s.writes)
    (hmax : ∀ v ∈ s.writes, v.seq ≤ w.seq) : w.seq = s.seq := by
  have hw' := h.seq_le hw
  have hmem : s.seq ∈ s.writes.map FlagWrite.seq := by
    rw [h.numbered, List.mem_range'_1]
    omega
  obtain ⟨v, hv, hvseq⟩ := List.mem_map.1 hmem
  have := hmax v hv
  omega

theorem Inv.seq_lt_of_later (h : s.Inv) {pre post : List (Call × Option FlagWrite)} {c : Call}
    {w v : FlagWrite} (hh : s.history = pre ++ (c, some w) :: post)
    (hv : v ∈ post.filterMap Prod.snd) : w.seq < v.seq := by
  have hrise : (s.writes.map FlagWrite.seq).Pairwise (· < ·) := h.numbered ▸ List.pairwise_lt_range'
  have hsplit : s.writes = pre.filterMap Prod.snd ++ w :: post.filterMap Prod.snd := by
    simp [writes, hh]
  rw [hsplit, List.map_append, List.map_cons, List.pairwise_append, List.pairwise_cons] at hrise
  exact hrise.2.1.1 _ (List.mem_map_of_mem hv)

theorem inv_start (m : Monitor) : ({ mon := m } : Persisting).Inv where
  slot := rfl
  numbered := rfl
  accounted := List.Perm.refl []
  saved _ hp := absurd hp List.not_mem_nil
  rising := List.Pairwise.nil
  persisted := rfl
  newest _ hw := absurd hw List.not_mem_nil
  stored _ hw := by cases hw
  switch pre c w post hh := by simp at hh
  superseded _ hw := absurd hw List.not_mem_nil

theorem lock_of_queued (hslot : s.slot = none) {now : Int} {c : Call} {on : Bool}
    (hq : (s.mon.step now c).queued = some on) :
    s.lock now c =
      { s with
        mon := (s.mon.step now c).mon
        seq := s.seq + 1
        inFlight := s.inFlight ++ [⟨on, s.seq + 1⟩]
        history := s.history ++ [(c, some ⟨on, s.seq + 1⟩)] } := by
  simp only [lock, hq, queue, take, hslot, Option.toList_some]

theorem lock_of_none (hslot : s.slot = none) {now : Int} {c : Call}
    (hq : (s.mon.step now c).queued = none) :
    s.lock now c =
      { s with mon := (s.mon.step now c).mon, history := s.history ++ [(c, none)] } := by
  simp only [lock, hq, take, hslot, Option.toList_none, List.append_nil]

theorem Inv.lock (h : s.Inv) (now : Int) {c : Call} (hc : ∀ store, c ≠ .storeWritten store) :
    (s.lock now c).Inv := by
  have hstore : (s.mon.step now c).mon.store = s.mon.store :=
    Monitor.stepWith_store evaluate s.mon now hc
  rcases hq : (s.mon.step now c).queued with _ | on
  · rw [lock_of_none h.slot hq]
    have henabled : c ≠ .start → c ≠ .stop → (s.mon.step now c).mon.enabled = s.mon.enabled := by
      intro hstart hstop
      have := Monitor.stepWith_enabled evaluate s.mon now hstart hstop
      simp only [Monitor.step] at hq
      rw [hq] at this
      exact this
    refine ⟨h.slot, ?_, by simpa [writes] using h.accounted, h.saved, h.rising, h.persisted,
      h.newest, ?_, ?_, ?_⟩
    · simpa [writes] using h.numbered
    · intro w hw
      show (s.mon.step now c).mon.store.load _ = _
      rw [hstore]
      exact h.stored w hw
    · intro pre c' w post hh hpost
      rcases eq_or_of_append_singleton hh with ⟨-, hx, -⟩ | ⟨post₀, rfl, hh₀⟩
      · cases hx
      · have hlast := hpost (c, none) (List.mem_append_right _ (List.mem_singleton_self _))
        have hrest : ∀ p ∈ post₀, p.2 = none ∧ p.1 ≠ .start ∧ p.1 ≠ .stop :=
          fun p hp => hpost p (List.mem_append_left _ hp)
        simp only
        rw [henabled hlast.2.1 hlast.2.2]
        exact h.switch pre c' w post₀ hh₀ hrest
    · exact h.superseded
  · rw [lock_of_queued h.slot hq]
    have hstart : c ≠ .start := by
      rintro rfl
      have h0 : (s.mon.step now .start).queued = none :=
        (Monitor.stepWith_start_queued evaluate s.mon now).1
      rw [h0] at hq
      cases hq
    have hstop : c ≠ .stop := by
      rintro rfl
      have h0 : (s.mon.step now .stop).queued = none :=
        (Monitor.stepWith_start_queued evaluate s.mon now).2
      rw [h0] at hq
      cases hq
    have henabled : (s.mon.step now c).mon.enabled = .bool on := by
      have := Monitor.stepWith_enabled evaluate s.mon now hstart hstop
      simp only [Monitor.step] at hq
      rw [hq] at this
      exact this
    have hwrites : (s.history ++ [(c, some (⟨on, s.seq + 1⟩ : FlagWrite))]).filterMap Prod.snd =
        s.writes ++ [⟨on, s.seq + 1⟩] := by
      simp [writes]
    refine ⟨h.slot, ?_, ?_, h.saved, h.rising, h.persisted, ?_, ?_, ?_, h.superseded⟩
    · show ((s.history ++ _).filterMap Prod.snd).map FlagWrite.seq = _
      rw [hwrites, List.map_append, h.numbered, List.range'_concat]
      simp [Nat.add_comm]
    · show ((s.history ++ _).filterMap Prod.snd).Perm _
      rw [hwrites, ← List.append_assoc]
      exact h.accounted.append_right _
    · intro w hw hseq
      have := (h.seq_le (h.accounted.symm.subset (List.mem_append_left _ hw))).2
      simp only at hseq
      omega
    · intro w hw
      show (s.mon.step now c).mon.store.load _ = _
      rw [hstore]
      exact h.stored w hw
    · intro pre c' w post hh hpost
      rcases eq_or_of_append_singleton hh with ⟨-, hx, -⟩ | ⟨post₀, rfl, -⟩
      · cases hx
        exact henabled
      · have := (hpost (c, some ⟨on, s.seq + 1⟩)
          (List.mem_append_right _ (List.mem_singleton_self _))).1
        cases this

theorem persist_of_lt {w : FlagWrite} (hlt : w.seq < s.persistedSeq) :
    s.persist w = { s with inFlight := s.inFlight.erase w, settled := s.settled ++ [w] } := by
  simp only [persist, if_pos hlt]

theorem persist_of_le {w : FlagWrite} (hle : s.persistedSeq ≤ w.seq) :
    s.persist w =
      { s with
        mon := s.mon.persist w.on
        persistedSeq := w.seq
        inFlight := s.inFlight.erase w
        saves := s.saves ++ [(w, (s.mon.store.save (.bool w.on)).isSome)]
        settled := s.settled ++ [w] } := by
  simp only [persist, if_neg (Nat.not_lt.2 hle)]

theorem Inv.persist (h : s.Inv) {w : FlagWrite} (hw : w ∈ s.inFlight) : (s.persist w).Inv := by
  have hacc : s.writes.Perm ((s.settled ++ [w]) ++ s.inFlight.erase w) := by
    refine h.accounted.trans ?_
    rw [List.append_assoc, List.singleton_append]
    exact (List.perm_cons_erase hw).append_left _
  have hsettled : ∀ v ∈ s.settled ++ [w], v ∈ s.settled ∨ v = w := by
    intro v hv
    simpa using hv
  rcases Nat.lt_or_ge w.seq s.persistedSeq with hlt | hge
  · rw [persist_of_lt hlt]
    refine ⟨h.slot, h.numbered, hacc, fun p hp => List.mem_append_left _ (h.saved p hp), h.rising,
      h.persisted, ?_, h.stored, h.switch, ?_⟩
    · intro v hv hseq
      change v.seq = s.seq at hseq
      rcases hsettled v hv with hv | rfl
      · exact h.newest v hv hseq
      · have := h.persistedSeq_le
        omega
    · intro v hv
      rcases hsettled v hv with hv | rfl
      · exact h.superseded v hv
      · exact h.exists_save_of_lt hlt
  · rw [persist_of_le hge]
    have hlt := h.persistedSeq_lt hw hge
    refine ⟨h.slot, h.numbered, hacc, ?_, ?_, ?_, ?_, ?_, h.switch, ?_⟩
    · intro p hp
      rcases List.mem_append.1 hp with hp | hp
      · exact List.mem_append_left _ (h.saved p hp)
      · rw [List.mem_singleton.1 hp]
        exact List.mem_append_right _ (List.mem_singleton_self w)
    · rw [List.map_append, List.pairwise_append]
      refine ⟨h.rising, List.pairwise_singleton _ _, ?_⟩
      intro x hx y hy
      rw [List.mem_singleton.1 hy]
      rcases hlast : s.saves.getLast? with _ | ⟨v, ok⟩
      · simp [List.getLast?_eq_none_iff.1 hlast] at hx
      · have hle := le_getLast_of_rising h.rising hx
          (by rw [List.getLast?_map, hlast]; rfl)
        rw [h.persisted, hlast] at hlt
        simp only [Option.map_some, Option.getD_some] at hlt hle ⊢
        omega
    · simp
    · intro v hv hseq
      change v.seq = s.seq at hseq
      rcases hsettled v hv with hv | rfl
      · have hv' := h.newest v hv hseq
        have hlast : s.persistedSeq = v.seq := by
          rw [h.persisted, show (s.saves.getLast?.map fun p => p.1.seq) =
            (s.saves.getLast?.map Prod.fst).map FlagWrite.seq from (Option.map_map _ _ _).symm, hv']
          rfl
        have hw' : w ∈ s.writes := h.accounted.symm.subset (List.mem_append_right _ hw)
        have := (h.seq_le hw').2
        exact absurd (hseq.trans (by omega)) (h.not_settled_of_inFlight hw v hv)
      · simp
    · intro v hv
      simp only [List.getLast?_append, List.getLast?_singleton, Option.some_or,
        Option.some.injEq, Prod.mk.injEq] at hv
      obtain ⟨rfl, hok⟩ := hv
      obtain ⟨st', hst'⟩ := Option.isSome_iff_exists.1 hok
      show (s.mon.store.saveOrKeep _).load Monitor.startDepth = _
      rw [FlagStore.saveOrKeep, hst']
      exact FlagStore.load_of_save hst'
    · intro v hv
      rcases hsettled v hv with hv | rfl
      · obtain ⟨p, hp, hle⟩ := h.superseded v hv
        exact ⟨p, List.mem_append_left _ hp, hle⟩
      · exact ⟨_, List.mem_append_right _ (List.mem_singleton_self _), Nat.le_refl _⟩

/-- Every state of every interleaving keeps the invariant. -/
theorem Reaches.inv {m : Monitor} (hs : s.Reaches m) : s.Inv := by
  induction hs with
  | start => exact inv_start m
  | step _ hstep ih =>
    cases hstep with
    | lock now c hc => exact ih.lock now hc
    | persist w hw => exact ih.persist hw

/-- The switch writes of any interleaving of calls. The store is handed them with ever higher
numbers; each write queued is in flight, or settled with the store handed it or a newer one; and
once no call is in flight, the last write handed to the store is the newest one queued, the store
holds its value unless that save failed, and the switch is that value unless a start or a stop
came after it. -/
theorem flag_writes_saved_in_order {m : Monitor} {s : Persisting} (hs : s.Reaches m) :
    (s.saves.map fun p => p.1.seq).Pairwise (· < ·) ∧
    (∀ w ∈ s.writes, w ∈ s.inFlight ∨ (w ∈ s.settled ∧ ∃ p ∈ s.saves, w.seq ≤ p.1.seq)) ∧
    (s.inFlight = [] → ∀ w ∈ s.writes, (∀ v ∈ s.writes, v.seq ≤ w.seq) →
      ∃ ok, s.saves.getLast? = some (w, ok) ∧
        (ok = true → s.mon.store.load Monitor.startDepth = .ok (.bool w.on)) ∧
        ∀ pre c post, s.history = pre ++ (c, some w) :: post →
          (∀ p ∈ post, p.1 ≠ .start ∧ p.1 ≠ .stop) → s.mon.enabled = .bool w.on) := by
  have h := hs.inv
  refine ⟨h.rising, ?_, ?_⟩
  · intro w hw
    rcases List.mem_append.1 (h.accounted.subset hw) with hset | hfly
    · exact Or.inr ⟨hset, h.superseded w hset⟩
    · exact Or.inl hfly
  · intro hidle w hw hmax
    have hset : w ∈ s.settled := by simpa [hidle] using h.accounted.subset hw
    obtain ⟨⟨w', ok⟩, hlast, rfl⟩ := Option.map_eq_some_iff.1 (h.newest w hset (h.seq_eq_of_max hw hmax))
    refine ⟨ok, hlast, fun hok => h.stored w' (hok ▸ hlast), ?_⟩
    intro pre c post hh hpost
    refine h.switch pre c w' post hh fun p hp => ⟨?_, hpost p hp⟩
    rcases hp2 : p.2 with _ | v
    · rfl
    · have hv : v ∈ post.filterMap Prod.snd := List.mem_filterMap.2 ⟨p, hp, hp2⟩
      have hv' : v ∈ s.writes := by
        refine List.mem_filterMap.2 ⟨p, ?_, hp2⟩
        rw [hh]
        exact List.mem_append_right _ (List.mem_cons_of_mem _ hp)
      have := h.seq_lt_of_later hh hv
      have := hmax v hv'
      omega

/-- Two switches, each queued by its own call, whose saves cross: the newer write is saved first
and the older one is then skipped. -/
def crossed : Persisting :=
  ((({ mon := { store := .memory (.bool false) } } : Persisting).lock 0 (.setEnabled (.bool true))
    |>.lock 0 (.setEnabled (.bool false))).persist ⟨false, 2⟩).persist ⟨true, 1⟩

theorem crossed_keeps_newest :
    (crossed.saves.map fun p => p.1.seq).Pairwise (· < ·) ∧
    (∀ w ∈ crossed.writes, w ∈ crossed.inFlight ∨
      (w ∈ crossed.settled ∧ ∃ p ∈ crossed.saves, w.seq ≤ p.1.seq)) ∧
    (crossed.inFlight = [] → ∀ w ∈ crossed.writes, (∀ v ∈ crossed.writes, v.seq ≤ w.seq) →
      ∃ ok, crossed.saves.getLast? = some (w, ok) ∧
        (ok = true → crossed.mon.store.load Monitor.startDepth = .ok (.bool w.on)) ∧
        ∀ pre c post, crossed.history = pre ++ (c, some w) :: post →
          (∀ p ∈ post, p.1 ≠ .start ∧ p.1 ≠ .stop) → crossed.mon.enabled = .bool w.on) :=
  flag_writes_saved_in_order
    (.step (.step (.step (.step .start (.lock _ 0 _ (by simp))) (.lock _ 0 _ (by simp)))
      (.persist _ _ (by decide))) (.persist _ _ (by decide)))

end Persisting

end CacheHitRate
