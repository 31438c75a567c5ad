import Runlist.Proofs.Along
import Runlist.Proofs.Forms

/-!
# Blocks and what their mappings declare

A block of a task has a task for each item that the mapping of the task declares, and it keeps them:
expansion puts tasks below others by their parents, and never changes a block.

* `Graph.Wraps`: a task has a block as its mapping declares it.
* `Forest.wraps`, `wrapped_stampTasks`: **so has every task that is declared by a document.**
* `steady_wraps`: everything that may be done to a state keeps this.
* `Reachable.wrapped`: **in every state that is reached every task has the block that its mapping
  declares.**
-/

namespace Runlist

namespace Graph

variable {g g' : Graph} {context : TaskContext} {o : Option OriginId}
  {parent : Option TaskId} {x : TaskId}

/-- **A task has a block as its mapping declares it**, with a task for each item. -/
def Wraps (g : Graph) (x : TaskId) : Prop :=
  ∃ items, taskMappings? ((g.task x).raw.get? "block") = some items ∧
    (g.task x).block.length = items.length

/-- All tasks of a graph have blocks as their mappings declare them. -/
def Wrapped (g : Graph) : Prop := ∀ x, g.HasTask x → g.Wraps x

theorem wrapped_empty : Wrapped empty := fun _ hx => absurd hx (Nat.not_lt_zero _)

/-- A block without tasks is missing, null or empty. -/
theorem Wraps.of_nil (h : g.Wraps x) (hblock : (g.task x).block = []) {value : Json}
    (hvalue : (g.task x).raw.get? "block" = some value) : value = .null ∨ value = .array [] := by
  obtain ⟨items, hitems, hlength⟩ := h
  rw [hblock] at hlength
  have hnone : items = [] := List.eq_nil_of_length_eq_zero hlength.symm
  subst hnone
  rw [hvalue] at hitems
  unfold taskMappings? at hitems
  split at hitems
  · rename_i heq
    cases heq
  · rename_i heq
    cases heq
    exact .inl rfl
  · rename_i heq
    cases heq
    cases hitems
    exact .inr rfl
  · cases hitems

theorem Wraps.of_same (h : g.Wraps x) (hraw : (g'.task x).raw = (g.task x).raw)
    (hblock : (g'.task x).block = (g.task x).block) : g'.Wraps x := by
  unfold Wraps
  rw [hraw, hblock]
  exact h

/-! ## Changes -/

/-- Origins, plays and roles do not matter. -/
theorem Wrapped.of_tasks (h : g.Wrapped) (htasks : g'.tasks = g.tasks) : g'.Wrapped := by
  intro x hx
  have htask : g'.task x = g.task x := by rw [task, task, htasks]
  rw [HasTask, htasks] at hx
  exact (h x hx).of_same (by rw [htask]) (by rw [htask])

theorem Wrapped.modifyTask (h : g.Wrapped) {f : Task → Task} (hraw : ∀ t, (f t).raw = t.raw)
    (hblock : ∀ t, (f t).block = t.block) (x : TaskId) : (g.modifyTask x f).Wrapped := by
  intro y hy
  rw [hasTask_modifyTask] at hy
  by_cases hyx : y = x
  · subst hyx
    refine (h y hy).of_same ?_ ?_ <;> rw [task_modifyTask_self hy]
    · exact hraw _
    · exact hblock _
  · refine (h y hy).of_same ?_ ?_ <;> rw [task_modifyTask_of_ne hyx]

/-- To be adopted changes parents only. -/
theorem Wrapped.adopt (h : g.Wrapped) (ids : List TaskId) (x : TaskId) :
    (g.adopt ids x).Wrapped := by
  induction ids generalizing g with
  | nil => exact h
  | cons c ids ih =>
    refine ih (g := g.adoptOne x c) ?_
    unfold adoptOne
    simp only
    split
    · exact h.modifyTask (f := fun t => { t with parent := some x }) (fun _ => rfl) (fun _ => rfl) _
    · exact h

/-! ## Documents -/

/-- A forest has a tree for each item. -/
theorem Forest.length {xs ids : List TaskId} {items : List Json}
    (h : g.Forest context o parent xs items ids) : xs.length = items.length := by
  induction h with
  | nil => rfl
  | cons _ _ _ _ _ ih => rw [List.length_cons, List.length_cons, ih]

/-- **Every task of a forest has the block that its mapping declares.** -/
theorem Forest.wraps {xs ids : List TaskId} {items : List Json}
    (h : g.Forest context o parent xs items ids) : ∀ x ∈ ids, g.Wraps x := by
  induction h with
  | nil => exact fun _ hx => (List.not_mem_nil hx).elim
  | @cons o parent x xs below others entries items rest hstands hitems hbelow _ ihbelow ihothers =>
    intro y hy
    rcases List.mem_cons.1 hy with rfl | hy
    · exact ⟨items, by rw [hstands.raw]; exact hitems, hbelow.length⟩
    · rcases List.mem_append.1 hy with hy | hy
      · exact ihbelow y hy
      · exact ihothers y hy

/-- The tasks that are numbered are all of those numbers. -/
theorem Numbered.mem_of_index {firstTask firstOrigin : Nat} {ids : List TaskId}
    (h : g.Numbered firstTask firstOrigin ids) (hle : firstTask ≤ x.index)
    (hlt : x.index < firstTask + ids.length) : x ∈ ids := by
  have hmem : x.index ∈ ids.map (·.index) := by
    rw [h.tasks, List.mem_range'_1]
    exact ⟨hle, hlt⟩
  obtain ⟨y, hy, hindex⟩ := List.mem_map.1 hmem
  have heq : y = x := congrArg TaskId.mk hindex
  exact heq ▸ hy

/-- **Declared tasks get their blocks** while they are stamped. -/
theorem wrapped_stampTasks {ds : List TaskDeclaration} {items : List Json} (h : Declares ds items)
    (hg : g.Wrapped) (context : TaskContext) (o : Option OriginId) (parent : Option TaskId) :
    (g.stampTasks context o parent ds).2.Wrapped := by
  obtain ⟨ids, hforest, hnumbered, happends⟩ :
      ∃ ids, (g.stampTasks context o parent ds).2.Forest context o parent
      (g.stampTasks context o parent ds).1 items ids ∧ _ := stampTasks_forest h g o parent
  intro x hx
  by_cases hold : g.HasTask x
  · have hsame := happends.task x hold
    exact (hg x hold).of_same (by rw [hsame]) (by rw [hsame])
  · refine hforest.wraps x (hnumbered.mem_of_index ?_ ?_)
    · exact Nat.le_of_not_lt hold
    · rw [← happends.tasks_size]
      exact hx

theorem tasks_stampReferences (g : Graph) (path : FilePath) (o : OriginId)
    (rs : List RoleReference) : (g.stampReferences path o rs).2.tasks = g.tasks := by
  induction rs generalizing g with
  | nil => rfl
  | cons r rs ih => exact ih _

end Graph

/-! ## Loading -/

/-- A loop goes along if each of its rounds does. -/
theorem Along.mapM_mem {ε σ α β : Type} {R : σ → σ → Prop} [IsPreorder σ R]
    {f : α → ExceptT ε (StateM σ) β} {l : List α} (hf : ∀ a ∈ l, Along R (f a)) :
    Along R (l.mapM f) := by
  induction l with
  | nil => exact .pure []
  | cons a l ih =>
    rw [List.mapM_cons]
    refine (hf a List.mem_cons_self).bind fun _ => ?_
    exact (ih fun b hb => hf b (List.mem_cons_of_mem _ hb)).bind fun _ => .pure _

/-- If a state has all blocks as they are declared, so has the other. -/
def Store.WrapsOn (s s' : Store) : Prop := s.graph.Wrapped → s'.graph.Wrapped

instance : IsPreorder Store Store.WrapsOn where
  refl _ h := h
  trans _ _ _ h h' hs := h' (h hs)

variable {site : Site}

/-- A change that leaves tasks alone. -/
theorem along_sameTasks {α : Type} {f : Graph → α × Graph} (h : ∀ g, (f g).2.tasks = g.tasks) :
    Along Store.WrapsOn (Load.change f) := fun s hs => hs.of_tasks (h s.graph)

theorem along_updateRole (r : RoleId) (f : Role → Role) :
    Along Store.WrapsOn (Load.update fun g => g.modifyRole r f) := fun _ hs => hs.of_tasks rfl

theorem wraps_note (n : Notice) : Along Store.WrapsOn (Load.note n) := fun _ hs => hs

theorem wraps_stampTasks {ds : List TaskDeclaration} {items : List Json} (h : Declares ds items)
    (context : TaskContext) (o : Option OriginId) :
    Along Store.WrapsOn (Load.change fun g => g.stampTasks context o none ds) :=
  fun _ hs => Graph.wrapped_stampTasks h hs context o none

/-- **The tasks of a file** have their blocks. -/
theorem wraps_loadTasksIn (site : Site) (o : Option OriginId) (role : Option RoleId)
    (play : Option PlayId) (path : FilePath) :
    Along Store.WrapsOn (loadTasksIn site o role play path) := by
  unfold loadTasksIn readFile
  refine .bind ?_ fun text => ?_
  · split
    · exact .pure _
    · exact .throw _
  · split
    · exact .throw _
    · rename_i ds hds
      obtain ⟨d, -, hread⟩ := Declaration.ofText_ok hds
      obtain ⟨items, -, hdeclares⟩ := Declaration.declares_tasks hread
      exact wraps_stampTasks hdeclares _ _

theorem wraps_loadRoleVars (site : Site) (path : FilePath) :
    Along Store.WrapsOn (loadRoleVars site path) := by
  unfold loadRoleVars
  split
  · exact .pure _
  · exact (wraps_note _).bind fun _ => .pure _

theorem wraps_loadRoleFile (site : Site) (selection : RoleSelection) (r : RoleId) (folder : String)
    (file : List String) (path : FilePath) :
    Along Store.WrapsOn (loadRoleFile site selection r folder file path) := by
  unfold loadRoleFile
  refine Steady.along_graph.bind fun g => ?_
  split
  · split
    · exact (wraps_loadTasksIn site _ _ _ path).bind fun _ => along_updateRole r _
    · exact .pure _
  · split
    · exact (wraps_loadRoleVars site path).bind fun _ => along_updateRole r _
    · exact .pure _
  · split
    · exact (wraps_loadRoleVars site path).bind fun _ => along_updateRole r _
    · exact .pure _
  · split
    · split
      · refine .bind (along_sameTasks fun g => ?_) fun _ => along_updateRole r _
        exact Graph.tasks_stampReferences _ _ _ _
      · exact wraps_note _
    · exact .pure _
  · exact .pure _

/-- **A role that is loaded** has the tasks of its files. -/
theorem wraps_loadRoleWith (site : Site) (o : Option OriginId) (play : Option PlayId)
    (name : String) (selection : RoleSelection) :
    Along Store.WrapsOn (loadRoleWith site o play name selection) := by
  unfold loadRoleWith
  refine Along.get.bind fun s => (Steady.along_ofExcept _).bind fun dir => ?_
  refine (along_sameTasks fun _ => rfl).bind fun id => .bind ?_ fun _ =>
    .bind (fun s hs => ?_) fun _ => .pure _
  · unfold loadRoleFiles
    split
    · exact .throw _
    · refine .forM (fun names => ?_) _
      split
      · exact .pure _
      · exact wraps_loadRoleFile site selection id _ _ _
  · rw [graph_addRoleDir]
    exact hs

theorem wraps_loadDefinitions (site : Site) (play : Option PlayId)
    (definitions : List RoleDefinition) :
    Along Store.WrapsOn (loadDefinitions site play definitions) := by
  unfold loadDefinitions
  refine Along.mapM (fun d => ?_) definitions
  unfold loadRole
  exact wraps_loadRoleWith site (some d.origin) play d.name .main

/-- **A play that a document declares** has the tasks of its sections, and its roles. -/
theorem wraps_loadPlay (site : Site) (path : FilePath) (o : Option OriginId) {d : PlayDeclaration}
    {entries : Fields} (h : DeclaresPlay d entries) :
    Along Store.WrapsOn (loadPlay site path o d) := by
  obtain ⟨_, -, hpre⟩ := h.preTasks
  obtain ⟨_, -, hmain⟩ := h.mainTasks
  obtain ⟨_, -, hpost⟩ := h.postTasks
  unfold loadPlay
  refine (along_sameTasks fun _ => rfl).bind fun _ => (wraps_stampTasks hpre _ _).bind fun _ =>
    (wraps_stampTasks hmain _ _).bind fun _ => (wraps_stampTasks hpost _ _).bind fun _ => ?_
  refine (along_sameTasks fun g => Graph.tasks_stampReferences g _ _ _).bind fun _ => ?_
  exact (wraps_loadDefinitions site _ _).bind fun _ =>
    .bind (fun _ hs => hs.of_tasks rfl) fun _ => .pure _

theorem wraps_loadPlaybook (site : Site) (o : Option OriginId) (path : FilePath) :
    Along Store.WrapsOn (loadPlaybook site o path) := by
  unfold loadPlaybook readFile
  refine .bind ?_ fun text => ?_
  · split
    · exact .pure _
    · exact .throw _
  · split
    · exact (wraps_note _).bind fun _ => .pure _
    · rename_i ds hds
      obtain ⟨plays, -, hdeclares⟩ := Declaration.playbook_ok hds
      refine .bind (Along.mapM_mem fun d hd => ?_) fun _ => .pure _
      obtain ⟨entries, -, hplay⟩ := exists_right hdeclares hd
      exact wraps_loadPlay site path o hplay

/-! ## States that are reached -/

/-- **Everything that may be done to a state keeps blocks as they are declared.** -/
theorem steady_wraps (site : Site) : Steady site Store.WrapsOn where
  note := wraps_note
  tasks := wraps_loadTasksIn site
  role := wraps_loadRoleWith site
  playbook := wraps_loadPlaybook site
  direct r := by
    unfold directDependencies
    refine Steady.along_graph.bind fun g => ?_
    simp only
    split
    · exact .pure _
    · exact (wraps_loadDefinitions site _ _).bind fun found =>
        (along_updateRole r _).bind fun _ => .pure _
  all r _ := along_updateRole r _
  cached x vars _ hs :=
    hs.modifyTask (f := fun t => { t with cachedVars := some vars }) (fun _ => rfl) (fun _ => rfl) x
  adopt xs x _ hs := hs.adopt xs x

/-- **In every state that is reached every task has the block that its mapping declares.** -/
theorem Reachable.wrapped {sites : Site → Prop} {s : Store} (h : Reachable sites s) :
    s.graph.Wrapped :=
  reaches_along (fun site _ => steady_wraps site) h Graph.wrapped_empty

end Runlist
