import CacheHitRate.Proofs.Monitor.Retaining

/-!
The alerts of one evaluation, taken as a batch. An anomaly reads and marks only the group of its
own key, so over anomalies of distinct keys each one gets what its group, as the batch found it,
gives: nothing, its notice, or the error met in building the notice. A batch that ends has marked
exactly the groups of its anomalies that were past their dedup window. Two runs whose groups are
counterparts key by key therefore give the same alerts, in the order of their anomalies.
-/

namespace CacheHitRate

namespace Monitor

/-- What the anomaly `a` gives among the groups `gs` at `now`, with its key: nothing when no group
has its key or its group alerted within the dedup window, and otherwise the notice for its group
or the error met in building it. -/
def offered (gs : Groups) (now : Int) (a : GroupKey × Row × Reason) :
    Except ArithError (Option (GroupKey × Notice)) :=
  match gs.find? a.1 with
  | none => .ok none
  | some g =>
    if now - g.lastAlertAt.getD 0 < alertDedupMs then .ok none
    else
      (Notice.alert a.1 g.providerName a.2.1 (Text.ofString a.2.2.text)).map fun n => some (a.1, n)

/-- Whether an alert of `key` at `now` gets past the dedup window among the groups `gs`. -/
def passes (gs : Groups) (now : Int) (key : GroupKey) : Bool :=
  match gs.find? key with
  | none => false
  | some g => !decide (now - g.lastAlertAt.getD 0 < alertDedupMs)

end Monitor

/-- A group as a batch of anomalies at `now` leaves it: marked when one of them is its own and it
is past its dedup window. -/
def Group.afterAlerts (anomalies : List (GroupKey × Row × Reason)) (now : Int) (g : Group) :
    Group :=
  if (anomalies.any fun a => decide (a.1 = g.key)) &&
      !decide (now - g.lastAlertAt.getD 0 < Monitor.alertDedupMs) then
    { g with lastAlertAt := some now }
  else g

@[simp] theorem Group.key_afterAlerts (anomalies : List (GroupKey × Row × Reason)) (now : Int)
    (g : Group) : (g.afterAlerts anomalies now).key = g.key := by
  unfold Group.afterAlerts
  split <;> rfl

namespace Monitor

variable {now : Int}

theorem runOp_prepareAlert_offered (key : GroupKey) (row : Row) (reason : Reason) (now : Int)
    (m : Monitor) :
    (runOp (prepareAlert key row reason now) m).1.map (Option.map fun n => (key, n)) =
        offered m.groups now (key, row, reason) ∧
      (runOp (prepareAlert key row reason now) m).2.groups =
        if passes m.groups now key then (m.markAlerted key now).groups else m.groups := by
  rw [runOp_prepareAlert]
  unfold offered passes
  cases m.groups.find? key with
  | none => exact ⟨rfl, rfl⟩
  | some g =>
    by_cases hdup : now - g.lastAlertAt.getD 0 < alertDedupMs
    · simp only [hdup, if_true, decide_true, Bool.not_true, Bool.false_eq_true, if_false]
      exact ⟨rfl, rfl⟩
    · simp only [hdup, if_false, decide_false, Bool.not_false, if_true]
      cases Notice.alert key g.providerName row (Text.ofString reason.text) <;> exact ⟨rfl, rfl⟩

theorem find?_prepareAlert_of_ne (key : GroupKey) (row : Row) (reason : Reason) (m : Monitor)
    {k : GroupKey} (hk : k ≠ key) :
    (runOp (prepareAlert key row reason now) m).2.groups.find? k = m.groups.find? k := by
  rw [(runOp_prepareAlert_offered key row reason now m).2]
  split
  · exact (Groups.find?_modify m.groups key k (fun g => { g with lastAlertAt := some now })
      fun _ => rfl).trans (if_neg hk)
  · rfl

theorem filterMapM_offered_congr {gs gs' : Groups} {xs : List (GroupKey × Row × Reason)}
    (h : ∀ a ∈ xs, gs'.find? a.1 = gs.find? a.1) :
    xs.filterMapM (offered gs' now) = xs.filterMapM (offered gs now) := by
  induction xs with
  | nil => rfl
  | cons a xs ih =>
    have ha : offered gs' now a = offered gs now a := by
      unfold offered
      rw [h a List.mem_cons_self]
    rw [List.filterMapM_cons, List.filterMapM_cons, ha,
      ih fun b hb => h b (List.mem_cons_of_mem _ hb)]

/-- Over anomalies of distinct keys, the batch gives what each anomaly gives on the groups as the
batch found them. -/
theorem runOp_keyedAlerts_result (anomalies : List (GroupKey × Row × Reason)) (m : Monitor)
    (hkeys : (anomalies.map (·.1)).Nodup) :
    (runOp (keyedAlerts anomalies now) m).1 = anomalies.filterMapM (offered m.groups now) := by
  induction anomalies generalizing m with
  | nil => rfl
  | cons a rest ih =>
    obtain ⟨key, row, reason⟩ := a
    simp only [List.map_cons, List.nodup_cons, List.mem_map] at hkeys
    obtain ⟨hres, -⟩ := runOp_prepareAlert_offered key row reason now m
    have hrest : ∀ m₁ : Monitor, (∀ k ≠ key, m₁.groups.find? k = m.groups.find? k) →
        (runOp (keyedAlerts rest now) m₁).1 = rest.filterMapM (offered m.groups now) := by
      intro m₁ hm₁
      rw [ih m₁ hkeys.2]
      exact filterMapM_offered_congr fun b hb => hm₁ b.1 fun hb' => hkeys.1 ⟨b, hb, hb'⟩
    have hframe : ∀ k ≠ key, (runOp (prepareAlert key row reason now) m).2.groups.find? k =
        m.groups.find? k := fun k hk => find?_prepareAlert_of_ne key row reason m hk
    rw [runOp_keyedAlerts_cons, List.filterMapM_cons, ← hres]
    revert hframe
    rcases runOp (prepareAlert key row reason now) m with ⟨r, m₁⟩
    intro hframe
    have hrun := hrest m₁ hframe
    cases r with
    | error e => rfl
    | ok b =>
      cases b with
      | none => exact hrun
      | some n =>
        dsimp only
        rw [← hrun]
        split <;> rename_i hr <;> rw [hr] <;> rfl

theorem groups_prepareAlert (key : GroupKey) (row : Row) (reason : Reason) (now : Int)
    (m : Monitor) :
    (runOp (prepareAlert key row reason now) m).2.groups =
      m.groups.map fun g => if passes m.groups now key = true ∧ g.key = key then
        { g with lastAlertAt := some now } else g := by
  rw [(runOp_prepareAlert_offered key row reason now m).2]
  split
  · rename_i hpass
    simp [markAlerted, Groups.modify, hpass]
  · rename_i hpass
    simp [hpass]

theorem afterAlerts_cons {gs : Groups} (hgroups : (gs.map (·.key)).Nodup) {g : Group} (hg : g ∈ gs)
    (key : GroupKey) (row : Row) (reason : Reason) (rest : List (GroupKey × Row × Reason)) :
    (if passes gs now key = true ∧ g.key = key then
        { g with lastAlertAt := some now } else g).afterAlerts rest now =
      g.afterAlerts ((key, row, reason) :: rest) now := by
  by_cases hk : g.key = key
  · have hpass : passes gs now key = !decide (now - g.lastAlertAt.getD 0 < alertDedupMs) := by
      rw [← hk]
      simp [passes, Groups.find?_of_mem hgroups hg]
    by_cases hdup : now - g.lastAlertAt.getD 0 < alertDedupMs <;>
      simp [Group.afterAlerts, hk, hpass, hdup]
  · have hne : decide (key = g.key) = false := decide_eq_false (Ne.symm hk)
    rw [if_neg fun h => hk h.2]
    simp only [Group.afterAlerts, List.any_cons, hne, Bool.false_or]

theorem runOp_keyedAlerts_groups (anomalies : List (GroupKey × Row × Reason)) (m : Monitor)
    (hgroups : (m.groups.map (·.key)).Nodup)
    {alerts : List (GroupKey × Notice)}
    (hok : (runOp (keyedAlerts anomalies now) m).1 = .ok alerts) :
    (runOp (keyedAlerts anomalies now) m).2.groups =
      m.groups.map (Group.afterAlerts anomalies now) := by
  induction anomalies generalizing m alerts with
  | nil =>
    have hid : Group.afterAlerts [] now = id := funext fun g => by simp [Group.afterAlerts]
    rw [hid, List.map_id]
    rfl
  | cons a rest ih =>
    obtain ⟨key, row, reason⟩ := a
    have hm₁ := groups_prepareAlert key row reason now m
    have hgroups₁ : ((runOp (prepareAlert key row reason now) m).2.groups.map (·.key)).Nodup := by
      rw [hm₁, List.map_map]
      convert hgroups using 1
      apply List.map_congr_left
      intro g _
      simp only [Function.comp_apply]
      split <;> rfl
    rw [runOp_keyedAlerts_cons] at hok ⊢
    revert hok hm₁ hgroups₁
    rcases runOp (prepareAlert key row reason now) m with ⟨r, m₁⟩
    intro hok hm₁ hgroups₁
    have hfinish : ∀ {alerts'}, (runOp (keyedAlerts rest now) m₁).1 = .ok alerts' →
        (runOp (keyedAlerts rest now) m₁).2.groups =
          m.groups.map (Group.afterAlerts ((key, row, reason) :: rest) now) := by
      intro alerts' hok'
      rw [ih m₁ hgroups₁ hok', hm₁, List.map_map]
      exact List.map_congr_left fun g hg => afterAlerts_cons hgroups hg key row reason rest
    cases r with
    | error e => simp at hok
    | ok b =>
      cases b with
      | none => exact hfinish hok
      | some n =>
        dsimp only at hok ⊢
        revert hok
        rcases hrun : runOp (keyedAlerts rest now) m₁ with ⟨r', m₂⟩
        intro hok
        cases r' with
        | error e => simp at hok
        | ok alerts' =>
          have := @hfinish alerts' (by rw [hrun])
          rw [hrun] at this
          exact this

end Monitor

/-! ### The batch in both runs -/

namespace Group

variable {now : Int} {g ga gb : Group} {xs ys : List (GroupKey × Row × Reason)}

theorem Sound.afterAlerts (h : g.Sound) (hnow : 0 ≤ now) : (g.afterAlerts xs now).Sound := by
  unfold Group.afterAlerts
  split
  · exact h.mark hnow
  · exact h

theorem Shadows.afterAlerts (h : ga.Shadows now gb)
    (hany : (ys.any fun a => decide (a.1 = gb.key)) = xs.any fun a => decide (a.1 = ga.key)) :
    (ga.afterAlerts xs now).Shadows now (gb.afterAlerts ys now) := by
  have hheld : decide (now - gb.lastAlertAt.getD 0 < Monitor.alertDedupMs) =
      decide (now - ga.lastAlertAt.getD 0 < Monitor.alertDedupMs) :=
    decide_eq_decide.2 (h.held_iff (Int.le_refl now))
  unfold Group.afterAlerts
  rw [hany, hheld]
  split
  · exact h.mark now
  · exact h

end Group

namespace Monitor

variable {t now : Int} {gsa gsb : Groups}

theorem offered_eq_of_shadows {k : GroupKey} {ga gb : Group} (hs : ga.Shadows t gb) (hle : t ≤ now)
    (hfa : gsa.find? k = some ga) (hfb : gsb.find? k = some gb) (row : Row) (reason : Reason) :
    offered gsb now (k, row, reason) = offered gsa now (k, row, reason) := by
  unfold offered
  simp only [hfa, hfb, hs.name]
  by_cases hdup : now - ga.lastAlertAt.getD 0 < alertDedupMs
  · rw [if_pos ((hs.held_iff hle).2 hdup), if_pos hdup]
  · rw [if_neg (mt (hs.held_iff hle).1 hdup), if_neg hdup]

end Monitor

namespace Groups

variable {t now : Int} {gsa gsb : Groups} {xs ys : List (GroupKey × Row × Reason)}

theorem Retains.offered (h : Retains t gsa gsb) (hle : t ≤ now) (hperm : xs.Perm ys)
    (hkeys : ∀ a ∈ xs, a.1 ∈ gsa.map (·.key)) :
    (∃ e e', xs.filterMapM (Monitor.offered gsa now) = .error e ∧
      ys.filterMapM (Monitor.offered gsb now) = .error e') ∨
    ∃ as bs, xs.filterMapM (Monitor.offered gsa now) = .ok as ∧
      ys.filterMapM (Monitor.offered gsb now) = .ok bs ∧ as.Perm bs := by
  have heq : ∀ a ∈ xs, Monitor.offered gsb now a = Monitor.offered gsa now a := by
    intro a ha
    obtain ⟨ga, hga, hkey⟩ := List.mem_map.1 (hkeys a ha)
    obtain ⟨gb, hfb, hs⟩ := h.shadow_of_mem hga
    obtain ⟨k, row, reason⟩ := a
    simp only at hkey
    subst hkey
    exact Monitor.offered_eq_of_shadows hs hle (find?_of_mem h.keysA hga) hfb row reason
  by_cases herr : ∃ a ∈ xs, ∃ e, Monitor.offered gsa now a = .error e
  · obtain ⟨a, ha, e, he⟩ := herr
    obtain ⟨e₁, h₁⟩ := filterMapM_eq_error_of ha he
    obtain ⟨e₂, h₂⟩ := filterMapM_eq_error_of (hperm.subset ha) ((heq a ha).trans he)
    exact Or.inl ⟨e₁, e₂, h₁, h₂⟩
  have hok : ∀ a ∈ xs, ∃ r, Monitor.offered gsa now a = .ok r := by
    intro a ha
    rcases hr : Monitor.offered gsa now a with e | r
    · exact absurd ⟨a, ha, e, hr⟩ herr
    · exact ⟨r, rfl⟩
  have hok' : ∀ a ∈ ys, ∃ r, Monitor.offered gsb now a = .ok r := fun a ha => by
    rw [heq a (hperm.symm.subset ha)]
    exact hok a (hperm.symm.subset ha)
  refine Or.inr ⟨_, _, filterMapM_eq_ok_of hok, filterMapM_eq_ok_of hok', ?_⟩
  refine (hperm.filterMap _).trans (List.Perm.of_eq (List.filterMap_congr fun a ha => ?_))
  rw [heq a (hperm.symm.subset ha)]

theorem Retains.afterAlerts (h : Retains t gsa gsb) (hle : t ≤ now) (hperm : xs.Perm ys)
    (hkeys : ∀ a ∈ xs, a.1 ∈ gsa.map (·.key)) :
    Retains now (gsa.map (Group.afterAlerts xs now)) (gsb.map (Group.afterAlerts ys now)) where
  keysA := by
    rw [keys_map (Group.key_afterAlerts xs now)]
    exact h.keysA
  keysB := by
    rw [keys_map (Group.key_afterAlerts ys now)]
    exact h.keysB
  counterpart k := by
    rw [find?_map (Group.key_afterAlerts xs now), find?_map (Group.key_afterAlerts ys now)]
    have hc := (h.counterpart k).mono hle
    cases hfb : gsb.find? k with
    | none =>
      rw [hfb] at hc
      generalize gsa.find? k = oa at hc ⊢
      cases hc with
      | absent => exact .absent
    | some gb =>
      have hkey := (mem_of_find? hfb).2
      rw [hfb] at hc
      cases hfa : gsa.find? k with
      | none =>
        rw [hfa] at hc
        cases hc with
        | dead hd =>
          have hany : (ys.any fun a => decide (a.1 = gb.key)) = false := by
            simp only [List.any_eq_false, decide_eq_true_eq]
            intro a ha hak
            obtain ⟨g, hg, hgk⟩ := List.mem_map.1 (hkeys a (hperm.symm.subset ha))
            have hfind := find?_of_mem h.keysA hg
            rw [hgk, hak, hkey, hfa] at hfind
            cases hfind
          have hsame : gb.afterAlerts ys now = gb := by simp [Group.afterAlerts, hany]
          rw [Option.map_some, hsame]
          exact .dead hd
      | some ga =>
        rw [hfa] at hc
        cases hc with
        | shadow hs =>
          refine .shadow (hs.afterAlerts ?_)
          rw [hs.key, Bool.eq_iff_iff]
          simp only [List.any_eq_true, decide_eq_true_eq]
          exact ⟨fun ⟨a, ha, hak⟩ => ⟨a, hperm.symm.subset ha, hak⟩,
            fun ⟨a, ha, hak⟩ => ⟨a, hperm.subset ha, hak⟩⟩

end Groups

end CacheHitRate
