import Mathlib.Data.List.Nodup
import Runlist.Proofs.Load.Role

/-!
# Lists of handles

Entities get their handles in the order in which they are loaded, and a list of handles is put
together as they are given. So the lists of a graph ascend, and none of them lists an entity twice.

* `Ascends`: handles that ascend from one number of entities to another.
* `Graph.Ranked`: **every list of the graph ascends.**
* `Graph.Widens`: a graph with more in it, and still ranked if it was.
* `stampTasks_widens`: declared tasks get ascending handles.
-/

namespace Runlist

/-- Positions that **ascend**, from the first of two numbers up to the second one. -/
structure Ascends (lo hi : Nat) (l : List Nat) : Prop where
  pairwise : l.Pairwise (· < ·)
  ge : ∀ i ∈ l, lo ≤ i
  lt : ∀ i ∈ l, i < hi

namespace Ascends

variable {lo mid hi i : Nat} {l l' : List Nat}

theorem nil : Ascends lo hi [] :=
  ⟨.nil, fun _ h => (List.not_mem_nil h).elim, fun _ h => (List.not_mem_nil h).elim⟩

theorem singleton (hlo : lo ≤ i) (hhi : i < hi) : Ascends lo hi [i] :=
  ⟨List.pairwise_singleton _ _, fun _ h => by rw [List.mem_singleton.1 h]; exact hlo,
    fun _ h => by rw [List.mem_singleton.1 h]; exact hhi⟩

theorem mono {lo' hi' : Nat} (h : Ascends lo hi l) (hlo : lo' ≤ lo) (hhi : hi ≤ hi') :
    Ascends lo' hi' l :=
  ⟨h.pairwise, fun i hi => le_trans hlo (h.ge i hi), fun i hi => lt_of_lt_of_le (h.lt i hi) hhi⟩

/-- What was loaded later comes later. -/
theorem append (h : Ascends lo mid l) (h' : Ascends mid hi l') (hlo : lo ≤ mid) (hhi : mid ≤ hi) :
    Ascends lo hi (l ++ l') where
  pairwise := List.pairwise_append.2
    ⟨h.pairwise, h'.pairwise, fun i hi j hj => lt_of_lt_of_le (h.lt i hi) (h'.ge j hj)⟩
  ge i hi := by
    rcases List.mem_append.1 hi with hi | hi
    · exact h.ge i hi
    · exact le_trans hlo (h'.ge i hi)
  lt i hi := by
    rcases List.mem_append.1 hi with hi | hi
    · exact lt_of_lt_of_le (h.lt i hi) hhi
    · exact h'.lt i hi

/-- Handles whose positions ascend are told apart. -/
theorem nodup {α : Type} {index : α → Nat} {ids : List α}
    (h : Ascends lo hi (ids.map index)) : ids.Nodup :=
  List.Nodup.of_map index (h.pairwise.imp fun hlt => ne_of_lt hlt)

end Ascends

namespace Graph

variable {g g₁ g₂ : Graph}

/-- **Every list of the graph ascends.** -/
structure Ranked (g : Graph) : Prop where
  block : ∀ x, Ascends 0 g.tasks.size ((g.task x).block.map (·.index))
  playTasks : ∀ p, Ascends 0 g.tasks.size ((g.play p).tasks.map (·.index))
  playRoles : ∀ p, Ascends 0 g.roles.size ((g.play p).roles.map (·.index))
  roleTasks : ∀ r, Ascends 0 g.tasks.size ((g.role r).tasks.map (·.index))
  direct : ∀ r ds, (g.role r).directDependencies = some ds →
      Ascends 0 g.roles.size (ds.map (·.index))

theorem play_of_not_has {p : PlayId} (h : ¬ g.HasPlay p) : g.play p = default := by
  rw [play, Array.getElem?_eq_none (not_lt.1 h)]; rfl

theorem ranked_empty : Ranked empty where
  block x := by rw [task_of_not_has (Nat.not_lt_zero _)]; exact .nil
  playTasks p := by rw [play_of_not_has (Nat.not_lt_zero _)]; exact .nil
  playRoles p := by rw [play_of_not_has (Nat.not_lt_zero _)]; exact .nil
  roleTasks r := by rw [role_of_not_has (Nat.not_lt_zero _)]; exact .nil
  direct r ds h := by rw [role_of_not_has (Nat.not_lt_zero _)] at h; cases h

/-- **A graph with more in it**, and still ranked if it was. -/
structure Widens (g g' : Graph) : Prop where
  tasks_le : g.tasks.size ≤ g'.tasks.size
  plays_le : g.plays.size ≤ g'.plays.size
  roles_le : g.roles.size ≤ g'.roles.size
  ranked : g.Ranked → g'.Ranked

namespace Widens

theorem refl (g : Graph) : g.Widens g := ⟨le_rfl, le_rfl, le_rfl, id⟩

theorem trans (h : g.Widens g₁) (h' : g₁.Widens g₂) : g.Widens g₂ :=
  ⟨le_trans h.tasks_le h'.tasks_le, le_trans h.plays_le h'.plays_le,
    le_trans h.roles_le h'.roles_le,
    fun hr => h'.ranked (h.ranked hr)⟩

/-- Every list is one that was there, or ascends. -/
theorem of_lists {g' : Graph} (tasks_le : g.tasks.size ≤ g'.tasks.size)
    (plays_le : g.plays.size ≤ g'.plays.size) (roles_le : g.roles.size ≤ g'.roles.size)
    (task : g.Ranked → ∀ x, (g'.task x).block = (g.task x).block ∨
      Ascends 0 g'.tasks.size ((g'.task x).block.map (·.index)))
    (play : g.Ranked → ∀ p, g'.play p = g.play p ∨
      Ascends 0 g'.tasks.size ((g'.play p).tasks.map (·.index)) ∧
        Ascends 0 g'.roles.size ((g'.play p).roles.map (·.index)))
    (role : g.Ranked → ∀ r, g'.role r = g.role r ∨
      Ascends 0 g'.tasks.size ((g'.role r).tasks.map (·.index)) ∧
        ∀ ds, (g'.role r).directDependencies = some ds →
          Ascends 0 g'.roles.size (ds.map (·.index))) :
    g.Widens g' where
  tasks_le := tasks_le
  plays_le := plays_le
  roles_le := roles_le
  ranked hr :=
    { block := fun x => by
        rcases task hr x with h | h
        · rw [h]; exact (hr.block x).mono le_rfl tasks_le
        · exact h
      playTasks := fun p => by
        rcases play hr p with h | h
        · rw [h]; exact (hr.playTasks p).mono le_rfl tasks_le
        · exact h.1
      playRoles := fun p => by
        rcases play hr p with h | h
        · rw [h]; exact (hr.playRoles p).mono le_rfl roles_le
        · exact h.2
      roleTasks := fun r => by
        rcases role hr r with h | h
        · rw [h]; exact (hr.roleTasks r).mono le_rfl tasks_le
        · exact h.1
      direct := fun r ds hd => by
        rcases role hr r with h | h
        · rw [h] at hd; exact (hr.direct r ds hd).mono le_rfl roles_le
        · exact h.2 ds hd }

end Widens

/-! ## Single changes -/

theorem widens_addOrigin (o : Origin) : g.Widens (g.addOrigin o).2 :=
  .of_lists le_rfl le_rfl le_rfl (fun _ _ => Or.inl rfl) (fun _ _ => Or.inl rfl)
    fun _ _ => Or.inl rfl

theorem widens_addTask {t : Task} (hblock : t.block = []) : g.Widens (g.addTask t).2 := by
  refine .of_lists ?_ le_rfl le_rfl (fun _ x => ?_) (fun _ _ => Or.inl rfl) fun _ _ => Or.inl rfl
  · simp [addTask]
  · rw [task_addTask]
    split
    · right; rw [hblock]; exact .nil
    · exact Or.inl rfl

theorem widens_addPlay {p : Play} (htasks : p.tasks = []) (hroles : p.roles = []) :
    g.Widens (g.addPlay p).2 := by
  refine .of_lists le_rfl ?_ le_rfl (fun _ _ => Or.inl rfl) (fun _ q => ?_) fun _ _ => Or.inl rfl
  · simp [addPlay]
  · rw [play_addPlay]
    split
    · right; rw [htasks, hroles]; exact ⟨.nil, .nil⟩
    · exact Or.inl rfl

theorem widens_addRole {r : Role} (htasks : r.tasks = []) (hdirect : r.directDependencies = none) :
    g.Widens (g.addRole r).2 := by
  refine .of_lists le_rfl le_rfl ?_ (fun _ _ => Or.inl rfl) (fun _ _ => Or.inl rfl) fun _ q => ?_
  · simp [addRole]
  · rw [role_addRole]
    split
    · right; rw [htasks, hdirect]; exact ⟨.nil, fun _ h => by cases h⟩
    · exact Or.inl rfl

theorem widens_modifyTask {x : TaskId} {f : Task → Task}
    (h : g.Ranked → Ascends 0 g.tasks.size ((f (g.task x)).block.map (·.index))) :
    g.Widens (g.modifyTask x f) := by
  refine .of_lists ?_ le_rfl le_rfl (fun hr y => ?_) (fun _ _ => Or.inl rfl) fun _ _ => Or.inl rfl
  · simp [modifyTask]
  · rw [task_modifyTask]
    split
    · right; simp only [modifyTask, Array.size_modify]; exact h hr
    · exact Or.inl rfl

theorem widens_modifyPlay {p : PlayId} {f : Play → Play}
    (htasks : Ascends 0 g.tasks.size ((f (g.play p)).tasks.map (·.index)))
    (hroles : Ascends 0 g.roles.size ((f (g.play p)).roles.map (·.index))) :
    g.Widens (g.modifyPlay p f) := by
  refine .of_lists le_rfl ?_ le_rfl (fun _ _ => Or.inl rfl) (fun _ q => ?_) fun _ _ => Or.inl rfl
  · simp [modifyPlay]
  · rw [play_modifyPlay]
    split
    · exact Or.inr ⟨htasks, hroles⟩
    · exact Or.inl rfl

theorem widens_modifyRole {r : RoleId} {f : Role → Role}
    (htasks : g.Ranked → Ascends 0 g.tasks.size ((f (g.role r)).tasks.map (·.index)))
    (hdirect : g.Ranked → ∀ ds, (f (g.role r)).directDependencies = some ds →
      Ascends 0 g.roles.size (ds.map (·.index))) : g.Widens (g.modifyRole r f) := by
  refine .of_lists le_rfl le_rfl ?_ (fun _ _ => Or.inl rfl) (fun _ _ => Or.inl rfl) fun hr q => ?_
  · simp [modifyRole]
  · rw [role_modifyRole]
    split
    · right; simp only [modifyRole, Array.size_modify]; exact ⟨htasks hr, hdirect hr⟩
    · exact Or.inl rfl

/-- A role with the same tasks and known dependencies. -/
theorem widens_fillRole {r : RoleId} {f : Role → Role}
    (htasks : (f (g.role r)).tasks = (g.role r).tasks)
    (hdirect : (f (g.role r)).directDependencies = (g.role r).directDependencies) :
    g.Widens (g.modifyRole r f) :=
  widens_modifyRole (fun hr => by rw [htasks]; exact hr.roleTasks r)
    fun hr ds hd => hr.direct r ds (hdirect ▸ hd)

theorem widens_adoptOne (parent x : TaskId) : g.Widens (g.adoptOne parent x) := by
  unfold adoptOne
  simp only
  split
  · exact widens_modifyTask fun hr => hr.block _
  · exact .refl g

/-- To make a task an ancestor changes no list. -/
theorem widens_adopt (ids : List TaskId) (parent : TaskId) : g.Widens (g.adopt ids parent) := by
  unfold adopt
  induction ids generalizing g with
  | nil => exact .refl g
  | cons x ids ih => exact (widens_adoptOne parent x).trans ih

/-! ## Declarations -/

mutual
/-- A declared task gets the next handle. -/
theorem stampTask_widens (g : Graph) (context : TaskContext) (o : Option OriginId)
    (parent : Option TaskId) (d : TaskDeclaration) : g.Widens (g.stampTask context o parent d).2 ∧
      Ascends g.tasks.size (g.stampTask context o parent d).2.tasks.size
        [(g.stampTask context o parent d).1.index] := by
  match d with
  | ⟨range, name, vars, raw, block⟩ =>
    rw [stampTask_eq]
    -- the handle of the task is given out first, then those of its block
    have hhead : g.Widens (g.stampHead context o parent range name vars raw) :=
      (widens_addOrigin _).trans (widens_addTask rfl)
    have hsize : (g.stampHead context o parent range name vars raw).tasks.size = g.tasks.size + 1 :=
      Array.size_push _
    obtain ⟨hinner, hchildren⟩ :=
      stampTasks_widens (g.stampHead context o parent range name vars raw) context
      (some ⟨g.origins.size⟩) (some ⟨g.tasks.size⟩) block
    refine ⟨(hhead.trans hinner).trans (widens_modifyTask fun _ =>
      hchildren.mono (Nat.zero_le _) le_rfl), ?_⟩
    refine .singleton le_rfl ?_
    have hle := hinner.tasks_le
    simp only [modifyTask, Array.size_modify]
    omega

/-- **Declared tasks get ascending handles**, all of them new. -/
theorem stampTasks_widens (g : Graph) (context : TaskContext) (o : Option OriginId)
    (parent : Option TaskId) (ds : List TaskDeclaration) :
    g.Widens (Graph.stampTasks context o parent g ds).2 ∧
    Ascends g.tasks.size (Graph.stampTasks context o parent g ds).2.tasks.size
      ((Graph.stampTasks context o parent g ds).1.map (·.index)) := by
  match ds with
  | [] => rw [stampTasks]; exact ⟨.refl g, .nil⟩
  | d :: ds =>
    rw [stampTasks]
    obtain ⟨h₁, hfirst⟩ := stampTask_widens g context o parent d
    obtain ⟨h₂, hrest⟩ := stampTasks_widens (g.stampTask context o parent d).2 context o parent ds
    exact ⟨h₁.trans h₂, hfirst.append hrest h₁.tasks_le h₂.tasks_le⟩
end

theorem widens_stampReferences (g : Graph) (path : FilePath) (o : OriginId)
    (rs : List RoleReference) : g.Widens (g.stampReferences path o rs).2 := by
  induction rs generalizing g with
  | nil => exact .refl g
  | cons r rs ih => exact (widens_addOrigin _).trans (ih _)

end Graph

end Runlist
