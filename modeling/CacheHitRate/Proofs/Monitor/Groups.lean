import Mathlib.Data.List.DropRight
import Mathlib.Data.List.Find
import CacheHitRate.Proofs.Monitor.Op

/-!
The group collection under the monitor's operations. Groups are kept in creation order, each
under its own key: a lookup finds the first group of a key, and a change by key touches every
group of that key, which is one group while the keys are distinct. A recorded sample goes into
the group of its key, created when there is none, and into no other. An evaluation keeps the
groups it does not evict in their order, each as it was or with its buffer pruned.
-/

namespace CacheHitRate

namespace Group

def prunedTo (minMinute : Int) (g : Group) : Group :=
  { g with samples := (g.samples.prune minMinute).2 }

@[simp] theorem key_prunedTo (k : Int) (g : Group) : (g.prunedTo k).key = g.key := rfl

@[simp] theorem ring_prunedTo (k : Int) (g : Group) : (g.prunedTo k).ring = g.ring := rfl

theorem prunedTo_prunedTo (k : Int) (g : Group) : (g.prunedTo k).prunedTo k = g.prunedTo k := by
  simp [prunedTo, Buffer.prune, List.dropWhile_idempotent]

/-- The group a sample of `key` starts when no group has that key. -/
def fresh (key : GroupKey) (providerName : Text) (s : Sample) : Group :=
  { key, providerName, lastSeenMinute := s.minute }

end Group

namespace Groups

theorem keys_modify (gs : Groups) (k : GroupKey) (f : Group → Group)
    (hf : ∀ g, (f g).key = g.key) : (gs.modify k f).map (·.key) = gs.map (·.key) := by
  simp only [modify, List.map_map]
  apply List.map_congr_left
  intro g _
  by_cases hg : g.key = k <;> simp [hg, hf]

theorem mem_of_find? {gs : Groups} {k : GroupKey} {g : Group} (h : gs.find? k = some g) :
    g ∈ gs ∧ g.key = k :=
  ⟨List.mem_of_find?_eq_some h, by simpa using List.find?_some h⟩

theorem find?_modify (gs : Groups) (k k' : GroupKey) (f : Group → Group)
    (hf : ∀ g, (f g).key = g.key) :
    (gs.modify k f).find? k' = if k' = k then (gs.find? k').map f else gs.find? k' := by
  have hmap : (gs.modify k f).find? k' =
      (gs.find? k').map fun g => if g.key = k then f g else g := by
    simp only [modify, find?, List.find?_map]
    congr 1
    apply List.find?_congr
    intro g _
    by_cases hg : g.key = k <;> simp [hg, hf]
  rw [hmap]
  cases hfind : gs.find? k' with
  | none => simp
  | some g =>
    have hg := (mem_of_find? hfind).2
    by_cases hk : k' = k <;> simp [hg, hk]

theorem find?_of_mem {gs : Groups} (hnodup : (gs.map (·.key)).Nodup) {g : Group} (hg : g ∈ gs) :
    gs.find? g.key = some g := by
  induction gs with
  | nil => simp at hg
  | cons g' gs ih =>
    simp only [List.map_cons, List.nodup_cons, List.mem_map] at hnodup
    rcases List.mem_cons.1 hg with rfl | hg
    · simp [find?]
    · have hne : g'.key ≠ g.key := fun h => hnodup.1 ⟨g, hg, h.symm⟩
      simpa [find?, hne] using ih hnodup.2 hg

end Groups

namespace Monitor

variable (key : GroupKey) (name : Text) (s : Sample) (m : Monitor)

theorem find?_eq_none_iff : m.groups.find? key = none ↔ key ∉ m.groups.map (·.key) := by
  simp [Groups.find?]

theorem keys_addSample :
    (addSample key name s m).groups.map (·.key) =
      if key ∈ m.groups.map (·.key) then m.groups.map (·.key)
      else m.groups.map (·.key) ++ [key] := by
  unfold addSample
  cases hfind : m.groups.find? key with
  | some g =>
    have hk : key ∈ m.groups.map (·.key) := by
      by_contra hk
      rw [← find?_eq_none_iff] at hk
      simp [hk] at hfind
    simp only [Option.isSome_some, if_true, hk, withMetrics]
    rw [Groups.keys_modify _ _ (fun g => g.record s) (fun _ => rfl),
      Groups.keys_modify _ _ (fun g => { g with providerName := name }) (fun _ => rfl)]
  | none =>
    have hk := (find?_eq_none_iff key m).1 hfind
    simp only [Option.isSome_none, Bool.false_eq_true, if_false, hk, withMetrics]
    rw [Groups.keys_modify _ _ (fun g => g.record s) (fun _ => rfl)]
    simp

@[simp] theorem metrics_addSample :
    (addSample key name s m).metrics =
      { m.metrics with samples := m.metrics.samples.bump key.cliKey
                       trackedGroups := (addSample key name s m).groups.length } := rfl

@[simp] theorem enabled_addSample : (addSample key name s m).enabled = m.enabled := rfl

theorem mem_addSample {g : Group} (hg : g ∈ (addSample key name s m).groups) :
    (g ∈ m.groups ∧ g.key ≠ key) ∨
      ∃ g₀, (g₀ ∈ m.groups ∨ g₀ = Group.fresh key name s) ∧ g₀.key = key ∧
        g = { g₀ with providerName := name }.record s := by
  unfold addSample at hg
  cases hfind : m.groups.find? key with
  | some g' =>
    simp only [hfind, Option.isSome_some, if_true, withMetrics, Groups.modify, List.map_map,
      List.mem_map, Function.comp] at hg
    obtain ⟨g₀, hg₀, rfl⟩ := hg
    by_cases hk : g₀.key = key
    · exact Or.inr ⟨g₀, Or.inl hg₀, hk, by simp [hk]⟩
    · exact Or.inl ⟨by simpa [hk] using hg₀, by simp [hk]⟩
  | none =>
    simp only [hfind, Option.isSome_none, Bool.false_eq_true, if_false, withMetrics,
      Groups.modify, List.mem_map, List.mem_append, List.mem_singleton] at hg
    obtain ⟨g₀, hg₀ | rfl, rfl⟩ := hg
    · have hk : g₀.key ≠ key := by
        intro hk
        have := (find?_eq_none_iff key m).1 hfind
        exact this (List.mem_map.2 ⟨g₀, hg₀, hk⟩)
      exact Or.inl ⟨by simpa [hk] using hg₀, by simp [hk]⟩
    · exact Or.inr ⟨Group.fresh key name s, Or.inr rfl, rfl, by simp [Group.fresh]⟩

theorem nodup_keys_addSample (h : (m.groups.map (·.key)).Nodup) :
    ((addSample key name s m).groups.map (·.key)).Nodup := by
  rw [keys_addSample]
  split
  · exact h
  · rename_i hk
    exact List.nodup_append.2 ⟨h, by simp,
      fun a ha b hb => by rw [List.mem_singleton.1 hb]; exact fun hab => hk (hab ▸ ha)⟩

theorem key_of_mem_addSample {g : Group} (hg : g ∈ (addSample key name s m).groups) :
    g ∈ m.groups ∨ g.key = key := by
  rcases mem_addSample key name s m hg with ⟨hg, -⟩ | ⟨g₀, -, hkey, rfl⟩
  · exact Or.inl hg
  · exact Or.inr hkey

theorem find?_addSample_self :
    (addSample key name s m).groups.find? key =
      some ({ ((m.groups.find? key).getD (Group.fresh key name s)) with
        providerName := name }.record s) := by
  unfold addSample
  cases hfind : m.groups.find? key with
  | some g =>
    simp only [Option.isSome_some, if_true, withMetrics, Option.getD_some]
    rw [Groups.find?_modify _ _ _ (fun g => g.record s) (fun _ => rfl), if_pos rfl,
      Groups.find?_modify _ _ _ (fun g => { g with providerName := name }) (fun _ => rfl),
      if_pos rfl, hfind]
    rfl
  | none =>
    have hnew : (m.groups ++ [Group.fresh key name s]).find? key = some (Group.fresh key name s) := by
      simp only [Groups.find?, List.find?_append]
      simp only [Groups.find?] at hfind
      simp [hfind, Group.fresh]
    simp only [Option.isSome_none, Bool.false_eq_true, if_false, withMetrics, Option.getD_none]
    rw [Groups.find?_modify _ _ _ (fun g => g.record s) (fun _ => rfl), if_pos rfl]
    exact congrArg (Option.map _) hnew

theorem find?_addSample_of_ne {k : GroupKey} (hk : k ≠ key) :
    (addSample key name s m).groups.find? k = m.groups.find? k := by
  unfold addSample
  cases hfind : m.groups.find? key with
  | some g =>
    simp only [Option.isSome_some, if_true, withMetrics]
    rw [Groups.find?_modify _ _ _ (fun g => g.record s) (fun _ => rfl), if_neg hk,
      Groups.find?_modify _ _ _ (fun g => { g with providerName := name }) (fun _ => rfl), if_neg hk]
  | none =>
    simp only [Option.isSome_none, Bool.false_eq_true, if_false, withMetrics]
    rw [Groups.find?_modify _ _ _ (fun g => g.record s) (fun _ => rfl), if_neg hk]
    simp only [Groups.find?, List.find?_append]
    cases m.groups.find? k <;> simp [Ne.symm hk]

end Monitor

/-- Each group is kept as it was or with its buffer pruned below `k`. -/
def KeptOrPruned (k : Int) (f : Group → Group) : Prop := ∀ g, f g = g ∨ f g = g.prunedTo k

theorem keptOrPruned_id (k : Int) : KeptOrPruned k fun g => g := fun _ => Or.inl rfl

theorem KeptOrPruned.comp {k : Int} {f f' : Group → Group} (hf : KeptOrPruned k f)
    (hf' : KeptOrPruned k f') : KeptOrPruned k (f' ∘ f) := by
  intro g
  rcases hf g with h | h
  · rw [Function.comp_apply, h]
    exact hf' g
  · rw [Function.comp_apply, h]
    rcases hf' (g.prunedTo k) with h' | h'
    · exact Or.inr h'
    · exact Or.inr (h'.trans (Group.prunedTo_prunedTo k g))

theorem KeptOrPruned.key_eq {k : Int} {f : Group → Group} (hf : KeptOrPruned k f) (g : Group) :
    (f g).key = g.key := by
  rcases hf g with h | h <;> simp [h]

theorem auditRows_groups (w : Windows) (rows : List (GroupKey × Triple)) (gs : Groups) :
    ∃ f, KeptOrPruned (w.minuteNow - Buffer.retentionMinutes) f ∧
      (Evaluation.auditRows w rows gs).2 = gs.map f := by
  induction rows generalizing gs with
  | nil => exact ⟨fun g => g, keptOrPruned_id _, by simp [Evaluation.auditRows]⟩
  | cons row rows ih =>
    obtain ⟨key, ring⟩ := row
    let k := w.minuteNow - Buffer.retentionMinutes
    have hstep : KeptOrPruned k fun g => if g.key = key then g.prunedTo k else g := by
      intro g
      by_cases hg : g.key = key <;> simp [hg]
    have hrest : ∃ f, KeptOrPruned k f ∧
        (Evaluation.auditRows w rows (gs.modify key (Group.prunedTo k))).2 = gs.map f := by
      obtain ⟨f, hf, heq⟩ := ih (gs.modify key (Group.prunedTo k))
      exact ⟨_, hstep.comp hf, by rw [heq, Groups.modify, List.map_map]⟩
    simp only [Evaluation.auditRows]
    split
    · exact hrest
    · split
      · exact hrest
      · exact ⟨_, hstep, rfl⟩

/-- An evaluation evicts the stale groups, keeps the others in order, and prunes some buffers. -/
theorem evaluate_groups (t : Thresholds) (audited : Int) (gs : Groups) (now enabledAt : Int) :
    ∃ f, KeptOrPruned (minuteOf now - Buffer.retentionMinutes) f ∧
      (evaluate t audited gs now enabledAt).1 =
        (gs.filter fun g => !Evaluation.isStale (minuteOf now) g).map f := by
  obtain ⟨f, hf, heq⟩ := auditRows_groups (Windows.compute now enabledAt)
    (Evaluation.leading audited (Evaluation.busiest
      ((gs.filter fun g => !Evaluation.isStale (minuteOf now) g).map
        fun g => (g.key, Evaluation.ringTriple (Windows.compute now enabledAt) g))))
    (gs.filter fun g => !Evaluation.isStale (minuteOf now) g)
  refine ⟨f, hf, ?_⟩
  simp only [evaluate]
  split
  all_goals
    rename_i hrun
    rw [← heq]
    exact (congrArg Prod.snd hrun).symm

theorem keys_evaluate (t : Thresholds) (audited : Int) (gs : Groups) (now enabledAt : Int) :
    (evaluate t audited gs now enabledAt).1.map (·.key) =
      (gs.filter fun g => !Evaluation.isStale (minuteOf now) g).map (·.key) := by
  obtain ⟨f, hf, heq⟩ := evaluate_groups t audited gs now enabledAt
  rw [heq, List.map_map]
  exact List.map_congr_left fun g _ => hf.key_eq g

end CacheHitRate
