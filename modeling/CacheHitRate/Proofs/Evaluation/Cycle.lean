import Mathlib
import CacheHitRate.Proofs.Monitor.Retaining
import CacheHitRate.Proofs.Monitor.SelfCheck

/-!
One evaluation cycle, step by step. The groups unseen for longer than the ring window are
deleted and counted; each remaining group gets a row of ring sums, in group order. The rows are
ranked by a stable merge sort, busiest first, and the audit takes a slice of them, a prefix for
a non-negative bound and all but a suffix for a negative one. It prunes and checks one group at
a time and stops at the first whose ring sums disagree with its raw samples: exactly the groups
it looked at are pruned, and that group is the failure. A failure suppresses every anomaly;
without one the rules run over all rows.
-/

namespace CacheHitRate

section SortDesc

variable {α : Type} (f : α → Int) (l : List α)

theorem desc_le_trans (a b c : α) (hab : decide (f b ≤ f a) = true)
    (hbc : decide (f c ≤ f b) = true) : decide (f c ≤ f a) = true := by
  simp only [decide_eq_true_eq] at *
  omega

theorem desc_le_total (a b : α) : (decide (f b ≤ f a) || decide (f a ≤ f b)) = true := by
  simp only [Bool.or_eq_true, decide_eq_true_eq]
  omega

theorem mergeSort_desc_perm : (l.mergeSort fun a b => decide (f b ≤ f a)).Perm l :=
  List.mergeSort_perm l _

theorem mergeSort_desc_pairwise :
    (l.mergeSort fun a b => decide (f b ≤ f a)).Pairwise fun a b => f b ≤ f a := by
  have h := @List.pairwise_mergeSort α (fun a b => decide (f b ≤ f a))
    (desc_le_trans f) (desc_le_total f) l
  simpa only [decide_eq_true_eq] using h

theorem mergeSort_desc_filter_eq (v : Int) :
    (l.mergeSort fun a b => decide (f b ≤ f a)).filter (fun a => f a = v) =
      l.filter (fun a => f a = v) := by
  have hpair : (l.filter fun a => f a = v).Pairwise fun a b => decide (f b ≤ f a) := by
    refine List.pairwise_of_forall_mem_list fun a ha b hb => ?_
    simp only [List.mem_filter, decide_eq_true_eq] at ha hb
    simp only [decide_eq_true_eq]
    omega
  have hsub := (@List.sublist_mergeSort α (fun a b => decide (f b ≤ f a)) l
    (desc_le_trans f) (desc_le_total f) _ hpair List.filter_sublist).filter
      (fun a => decide (f a = v))
  rw [List.filter_filter, List.filter_congr (fun a _ => Bool.and_self _)] at hsub
  exact (hsub.eq_of_length ((mergeSort_desc_perm f l).filter _).length_eq.symm).symm

end SortDesc

namespace Evaluation

theorem leading_map {β γ : Type} (n : Int) (xs : List β) (f : β → γ) :
    leading n (xs.map f) = (leading n xs).map f := by
  unfold leading
  split <;> simp [List.map_take]

theorem leading_sublist {β : Type} (n : Int) (xs : List β) : (leading n xs).Sublist xs := by
  unfold leading
  split <;> exact List.take_sublist _ _

/-- Whether the ring sums of a group agree with its raw-sample sums in the windows `w`. -/
def agrees (w : Windows) (g : Group) : Bool := decide (ringTriple w g = slowTriple w g)

/-- The groups an audit of `audited` looks at, in order: the ones that agree, up to and
including the first that does not. -/
def checked (w : Windows) (audited : List Group) : List Group :=
  audited.takeWhile (agrees w) ++ (audited.dropWhile (agrees w)).take 1

/-- The self-check failure of a group whose sums disagree. -/
def failureOf (w : Windows) (g : Group) : SelfCheckFailure :=
  ⟨g.key, g.providerName, ringTriple w g, slowTriple w g⟩

theorem checked_nil (w : Windows) : checked w [] = [] := rfl

theorem checked_cons_of_agrees {w : Windows} {g : Group} (h : agrees w g = true)
    (audited : List Group) : checked w (g :: audited) = g :: checked w audited := by
  simp [checked, h]

theorem checked_cons_of_disagrees {w : Windows} {g : Group} (h : agrees w g = false)
    (audited : List Group) : checked w (g :: audited) = [g] := by
  simp [checked, h]

theorem checked_sublist (w : Windows) (audited : List Group) :
    (checked w audited).Sublist audited := by
  have h := (List.Sublist.refl (audited.takeWhile (agrees w))).append
    (List.take_sublist 1 (audited.dropWhile (agrees w)))
  rwa [List.takeWhile_append_dropWhile] at h

/-- Auditing the rows of distinct groups of `gs`, in order: each group's buffer is pruned as the
audit reaches it, and the audit stops at the first group whose sums disagree and reports it.
Pruning must leave the raw sums of the windows as they were. -/
theorem auditRows_eq (w : Windows)
    (hslow : ∀ g : Group,
      slowTriple w (g.prunedTo (w.minuteNow - Buffer.retentionMinutes)) = slowTriple w g)
    {gs : Groups} (hkeys : (gs.map (·.key)).Nodup) {audited : List Group}
    (hsub : ∀ g ∈ audited, g ∈ gs) (hnodup : (audited.map (·.key)).Nodup) :
    auditRows w (audited.map fun g => (g.key, ringTriple w g)) gs =
      ((audited.find? fun g => !agrees w g).map (failureOf w),
        gs.map fun g => if g.key ∈ (checked w audited).map (·.key) then
          g.prunedTo (w.minuteNow - Buffer.retentionMinutes) else g) := by
  induction audited generalizing gs with
  | nil => simp [auditRows, checked_nil]
  | cons g audited ih =>
    set k := w.minuteNow - Buffer.retentionMinutes with hk
    obtain ⟨hfresh, hnodup'⟩ : g.key ∉ audited.map (·.key) ∧ (audited.map (·.key)).Nodup := by
      simpa using hnodup
    have hg : g ∈ gs := hsub g List.mem_cons_self
    have hfind : (gs.modify g.key (Group.prunedTo k)).find? g.key = some (g.prunedTo k) := by
      rw [Groups.find?_modify _ _ _ (Group.prunedTo k) (fun _ => rfl), if_pos rfl, Groups.find?_of_mem hkeys hg]
      rfl
    have hkeys₁ : ((gs.modify g.key (Group.prunedTo k)).map (·.key)).Nodup := by
      rwa [Groups.keys_modify _ _ (Group.prunedTo k) (fun _ => rfl)]
    have hsub₁ : ∀ g' ∈ audited, g' ∈ gs.modify g.key (Group.prunedTo k) := by
      intro g' hg'
      have hne : g'.key ≠ g.key := fun h => hfresh (h ▸ List.mem_map_of_mem hg')
      exact List.mem_map.2 ⟨g', hsub g' (List.mem_cons_of_mem _ hg'), by simp [hne]⟩
    have hprune : (fun g : Group => { g with samples := (g.samples.prune k).2 }) =
        Group.prunedTo k := rfl
    simp only [List.map_cons, auditRows]
    rw [hprune, hfind]
    dsimp only
    rw [hslow]
    cases hag : agrees w g with
    | true =>
      have heq : ringTriple w g = slowTriple w g := by simpa [agrees] using hag
      rw [if_pos heq, ih hkeys₁ hsub₁ hnodup', checked_cons_of_agrees hag]
      refine Prod.ext (by simp [hag]) ?_
      simp only [Groups.modify, List.map_map]
      refine List.map_congr_left fun x _ => ?_
      by_cases hx : x.key = g.key
      · simp [hx, Group.prunedTo_prunedTo]
      · simp [hx]
    | false =>
      have hne : ringTriple w g ≠ slowTriple w g := by simpa [agrees] using hag
      rw [if_neg hne, checked_cons_of_disagrees hag]
      simp [hag, failureOf, Groups.modify, Group.prunedTo]

theorem slowTriple_prunedTo (now enabledAt : Int) (g : Group) :
    slowTriple (Windows.compute now enabledAt)
        (g.prunedTo ((Windows.compute now enabledAt).minuteNow - Buffer.retentionMinutes)) =
      slowTriple (Windows.compute now enabledAt) g := by
  obtain ⟨hb, hr, ho⟩ := Windows.compute_first_ge now enabledAt
  have hcut : ∀ span : Span, minuteOf now - 59 ≤ span.first →
      (g.samples.prune (minuteOf now - Buffer.retentionMinutes)).2.sumRange span =
        g.samples.sumRange span :=
    fun span h => Buffer.sumRange_prune _ (by simp only [Buffer.retentionMinutes]; omega)
  have hm : (Windows.compute now enabledAt).minuteNow = minuteOf now := rfl
  simp only [slowTriple, Group.prunedTo, hm, hcut _ hb, hcut _ hr, hcut _ ho]

theorem filter_not_stale (m : Int) (gs : Groups) :
    gs.filter (fun g => !isStale m g) = gs.filter fun g => decide (m - 60 ≤ g.lastSeenMinute) :=
  List.filter_congr fun g _ => by
    rw [isStale, ← decide_not]
    exact decide_eq_decide.2 (by simp only [Ring.windowMinutes]; omega)

theorem length_sub_kept (m : Int) (gs : Groups) :
    gs.length - (gs.filter fun g => decide (m - 60 ≤ g.lastSeenMinute)).length =
      (gs.filter fun g => decide (g.lastSeenMinute < m - 60)).length := by
  have hsplit := List.length_eq_length_filter_add (l := gs)
    (fun g => decide (m - 60 ≤ g.lastSeenMinute))
  have hstale : (gs.filter fun g => !decide (m - 60 ≤ g.lastSeenMinute)) =
      gs.filter fun g => decide (g.lastSeenMinute < m - 60) :=
    List.filter_congr fun g _ => by
      rw [← decide_not]
      exact decide_eq_decide.2 (by omega)
  rw [hstale] at hsplit
  omega

theorem busiest_map (w : Windows) (gs : Groups) :
    busiest (gs.map fun g => (g.key, ringTriple w g)) =
      (gs.mergeSort fun a b => decide
        ((ringTriple w b).totalDenomTokens ≤ (ringTriple w a).totalDenomTokens)).map
        fun g => (g.key, ringTriple w g) := by
  symm
  apply List.map_mergeSort
  intro a _ b _
  rfl

end Evaluation

/-- An evaluation at `now`, over groups with distinct keys, at minute `m`: it deletes the groups
unseen since before `m - 60` and counts them, and gives every other group, in order, a row of
its ring sums over the baseline and recent windows, and over the observe window during cold
start. The audited groups are a slice of these ranked by a stable merge sort, busiest first: the
first `k`, or all but the last `-k` for a negative `k`. The audit prunes their buffers below
`m - 75`, one group at a time, up to and including the first whose ring and raw sums disagree,
which is the failure; the other groups keep their buffers. A failure leaves no anomalies,
and without one the anomalies are those the rules find among the rows. -/
theorem evaluate_evicts_ranks_and_audits (t : Thresholds) (k : Int) (gs : Groups)
    (hkeys : (gs.map (·.key)).Nodup) (now enabledAt : Int) :
    let w := Windows.compute now enabledAt
    let kept := gs.filter fun g => decide (w.minuteNow - 60 ≤ g.lastSeenMinute)
    let total := fun g : Group =>
      (g.ring.sumRange w.baseline).denomTokens + (g.ring.sumRange w.recent).denomTokens
    let rows := kept.map fun g => (g.key, (⟨g.ring.sumRange w.baseline,
      g.ring.sumRange w.recent,
      if w.coldStart then g.ring.sumRange w.observe else g.ring.sumRange w.recent⟩ : Triple))
    let evicted := (gs.filter fun g => decide (g.lastSeenMinute < w.minuteNow - 60)).length
    ∃ ranked : List Group, ranked.Perm kept ∧ ranked.Pairwise (fun a b => total b ≤ total a) ∧
      (∀ v, ranked.filter (fun g => total g = v) = kept.filter (fun g => total g = v)) ∧
      let audited := if 0 ≤ k then ranked.take k.toNat else ranked.rdrop k.natAbs
      let failure := (audited.find? fun g => !Evaluation.agrees w g).map (Evaluation.failureOf w)
      (evaluate t k gs now enabledAt).1 = kept.map (fun g =>
        if g.key ∈ (Evaluation.checked w audited).map (·.key) then g.prunedTo (w.minuteNow - 75)
        else g) ∧
      (∀ f, failure = some f →
        (evaluate t k gs now enabledAt).2 = .ok ⟨w, evicted, rows, [], some f⟩) ∧
      (failure = none → (evaluate t k gs now enabledAt).2 =
        (Evaluation.anomaliesOf t w kept).map fun anomalies => ⟨w, evicted, rows, anomalies, none⟩) := by
  intro w kept total rows evicted
  refine ⟨kept.mergeSort fun a b => decide (total b ≤ total a), mergeSort_desc_perm total kept,
    mergeSort_desc_pairwise total kept, mergeSort_desc_filter_eq total kept, ?_⟩
  intro audited failure
  have hkept : gs.filter (fun g => !Evaluation.isStale w.minuteNow g) = kept :=
    Evaluation.filter_not_stale w.minuteNow gs
  have hkeys' : (kept.map (·.key)).Nodup := hkeys.sublist (List.filter_sublist.map _)
  have hperm := mergeSort_desc_perm total kept
  have haud : audited.Sublist (kept.mergeSort fun a b => decide (total b ≤ total a)) :=
    Evaluation.leading_sublist k _
  have hsub : ∀ g ∈ audited, g ∈ kept := fun g hg => hperm.subset (haud.subset hg)
  have hnodup : (audited.map (·.key)).Nodup :=
    ((hperm.map _).nodup_iff.2 hkeys').sublist (haud.map _)
  have hrows : Evaluation.leading k (Evaluation.busiest
      (kept.map fun g => (g.key, Evaluation.ringTriple w g))) =
        audited.map fun g => (g.key, Evaluation.ringTriple w g) := by
    rw [Evaluation.busiest_map, Evaluation.leading_map]
    rfl
  have haudit := Evaluation.auditRows_eq w (Evaluation.slowTriple_prunedTo now enabledAt)
    hkeys' hsub hnodup
  have hevicted : gs.length - kept.length = evicted := Evaluation.length_sub_kept w.minuteNow gs
  simp only [evaluate]
  rw [hkept, hrows, haudit, hevicted]
  simp only [failure]
  rcases hF : audited.find? fun g => !Evaluation.agrees w g with _ | g₀
  · simp only [Option.map_none]
    exact ⟨rfl, fun f hf => absurd hf (by simp), fun _ => rfl⟩
  · simp only [Option.map_some]
    refine ⟨rfl, fun f hf => ?_, fun h => absurd h (by simp)⟩
    cases hf
    rfl

/-- Three groups with one sample each: two alike in volume, seen at minutes 100 and 110, and one
last seen at minute 10. -/
def tiedGroups : Groups :=
  [(Group.fresh ⟨Text.ofString "claude", 1, Text.ofString "a"⟩ (Text.ofString "p")
      ⟨100, 500, 100, 0, 0, 1⟩).record ⟨100, 500, 100, 0, 0, 1⟩,
    (Group.fresh ⟨Text.ofString "claude", 2, Text.ofString "b"⟩ (Text.ofString "q")
      ⟨110, 500, 0, 50, 0, 1⟩).record ⟨110, 500, 0, 50, 0, 1⟩,
    (Group.fresh ⟨Text.ofString "claude", 3, Text.ofString "s"⟩ (Text.ofString "r")
      ⟨10, 900, 0, 0, 0, 1⟩).record ⟨10, 900, 0, 0, 0, 1⟩]

/-- Evaluated at minute 120, the third group is evicted, the other two tie in the ranking, and
the audit skips the last of the ranked groups. -/
theorem evaluate_tied_groups_cycle :
    (tiedGroups.map (·.key)).Nodup ∧
    let w := Windows.compute 7200000 0
    let kept := tiedGroups.filter fun g => decide (w.minuteNow - 60 ≤ g.lastSeenMinute)
    let total := fun g : Group =>
      (g.ring.sumRange w.baseline).denomTokens + (g.ring.sumRange w.recent).denomTokens
    let rows := kept.map fun g => (g.key, (⟨g.ring.sumRange w.baseline,
      g.ring.sumRange w.recent,
      if w.coldStart then g.ring.sumRange w.observe else g.ring.sumRange w.recent⟩ : Triple))
    let evicted := (tiedGroups.filter fun g => decide (g.lastSeenMinute < w.minuteNow - 60)).length
    ∃ ranked : List Group, ranked.Perm kept ∧ ranked.Pairwise (fun a b => total b ≤ total a) ∧
      (∀ v, ranked.filter (fun g => total g = v) = kept.filter (fun g => total g = v)) ∧
      let audited := if 0 ≤ (-1 : Int) then ranked.take (-1 : Int).toNat
        else ranked.rdrop (-1 : Int).natAbs
      let failure := (audited.find? fun g => !Evaluation.agrees w g).map (Evaluation.failureOf w)
      (evaluate {} (-1) tiedGroups 7200000 0).1 = kept.map (fun g =>
        if g.key ∈ (Evaluation.checked w audited).map (·.key) then g.prunedTo (w.minuteNow - 75)
        else g) ∧
      (∀ f, failure = some f →
        (evaluate {} (-1) tiedGroups 7200000 0).2 = .ok ⟨w, evicted, rows, [], some f⟩) ∧
      (failure = none → (evaluate {} (-1) tiedGroups 7200000 0).2 =
        (Evaluation.anomaliesOf {} w kept).map fun anomalies =>
          ⟨w, evicted, rows, anomalies, none⟩) := by
  have hkeys : (tiedGroups.map (·.key)).Nodup := by decide
  exact ⟨hkeys, evaluate_evicts_ranks_and_audits {} (-1) tiedGroups hkeys 7200000 0⟩

end CacheHitRate
