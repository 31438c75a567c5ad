import Runlist.Proofs.Along
import Runlist.Proofs.Graph.Ranks

/-!
# Lists of handles in every state

Loading and expansion keep the lists of handles ascending, whatever they are asked and however they
end.

* `loadTasksIn_ascends`, `loadDefinitions_ascends`, `loadPlaybook_ascends`: what is loaded gets
  ascending handles.
* `Reachable.ranked`: **in every state that is reached the lists of handles ascend.**
-/

namespace Runlist

/-- The graph of a state widens. -/
def Store.Widens (s s' : Store) : Prop := s.graph.Widens s'.graph

instance : IsPreorder Store Store.Widens where
  refl s := .refl s.graph
  trans _ _ _ h h' := Graph.Widens.trans h h'

/-- A role with the same tasks and known dependencies. -/
theorem along_fillRole {r : RoleId} {f : Role → Role} (htasks : ∀ role, (f role).tasks = role.tasks)
    (hdirect : ∀ role, (f role).directDependencies = role.directDependencies) :
    Along Store.Widens (Load.update fun g => g.modifyRole r f) :=
  fun _ => Graph.widens_fillRole (htasks _) (hdirect _)

theorem along_note (n : Notice) : Along Store.Widens (Load.note n) := fun s => .refl s.graph

/-! ## What is loaded -/

variable {site : Site} {s : Store}

/-- One entity after the other, each with a handle that is new. -/
theorem mapM_ascends {α β : Type} {count : Graph → Nat} {index : β → Nat}
    (hle : ∀ {g g' : Graph}, g.Widens g' → count g ≤ count g') {f : α → Load β}
    (round : ∀ a s, Ends (f a) s
      (fun b s' => s.graph.Widens s'.graph ∧ Ascends (count s.graph) (count s'.graph) [index b])
      fun _ s' => s.graph.Widens s'.graph) (l : List α) (s : Store) :
    Ends (l.mapM f) s
      (fun bs s' => s.graph.Widens s'.graph ∧
        Ascends (count s.graph) (count s'.graph) (bs.map index))
      fun _ s' => s.graph.Widens s'.graph := by
  induction l generalizing s with
  | nil => rw [List.mapM_nil, ends_pure]; exact ⟨.refl _, .nil⟩
  | cons a l ih =>
    simp only [List.mapM_cons, ends_bind, ends_pure]
    refine (round a s).mono ?_ fun _ _ h => h
    rintro b s₁ ⟨h₁, hb⟩
    refine (ih s₁).mono ?_ fun _ _ h => h₁.trans h
    rintro bs s₂ ⟨h₂, hbs⟩
    exact ⟨h₁.trans h₂, hb.append hbs (hle h₁) (hle h₂)⟩

theorem stampTasks_ascends (context : TaskContext) (o : Option OriginId)
    (ds : List TaskDeclaration) (s : Store) :
    Ends (Load.change fun g => g.stampTasks context o none ds) s
      (fun xs s' => s.graph.Widens s'.graph ∧ s'.graph.roles = s.graph.roles ∧
        Ascends s.graph.tasks.size s'.graph.tasks.size (xs.map (·.index)))
      fun _ s' => s.graph.Widens s'.graph := by
  obtain ⟨hwidens, hascends⟩ := Graph.stampTasks_widens s.graph context o none ds
  exact ⟨hwidens, roles_stampTasks s.graph context o none ds, hascends⟩

/-- **The tasks of a file get ascending handles.** -/
theorem loadTasksIn_ascends (site : Site) (o : Option OriginId) (role : Option RoleId)
    (play : Option PlayId) (path : FilePath) (s : Store) :
    Ends (loadTasksIn site o role play path) s
      (fun xs s' => s.graph.Widens s'.graph ∧ s'.graph.roles = s.graph.roles ∧
        Ascends s.graph.tasks.size s'.graph.tasks.size (xs.map (·.index)))
      fun _ s' => s.graph.Widens s'.graph := by
  unfold loadTasksIn readFile
  rw [ends_bind]
  cases site.disk.read path with
  | error e => exact .refl s.graph
  | ok text =>
    simp only [ends_pure]
    split
    · exact .refl s.graph
    · exact stampTasks_ascends _ o _ s

theorem loadRoleVars_widens (site : Site) (path : FilePath) :
    Along Store.Widens (loadRoleVars site path) := by
  unfold loadRoleVars
  split
  · exact .pure _
  · exact (along_note _).bind fun _ => .pure _

/-- The tasks of one more file come after those that a role has. -/
theorem Graph.widens_appendTasks {g g₁ : Graph} (h : g.Widens g₁) (hroles : g₁.roles = g.roles)
    {xs : List TaskId} (hxs : Ascends g.tasks.size g₁.tasks.size (xs.map (·.index))) (r : RoleId) :
    g.Widens (g₁.modifyRole r fun r => { r with tasks := r.tasks ++ xs }) where
  tasks_le := h.tasks_le
  plays_le := h.plays_le
  roles_le := by simp only [modifyRole, Array.size_modify]; exact h.roles_le
  ranked hr := by
    have hrole : g₁.role r = g.role r := by rw [role, hroles]; rfl
    refine (widens_modifyRole (fun _ => ?_) fun hr₁ => hr₁.direct r).ranked (h.ranked hr)
    rw [hrole, List.map_append]
    exact (hr.roleTasks r).append hxs (Nat.zero_le _) h.tasks_le

theorem loadRoleFile_widens (site : Site) (selection : RoleSelection) (r : RoleId) (folder : String)
    (file : List String) (path : FilePath) :
    Along Store.Widens (loadRoleFile site selection r folder file path) := by
  unfold loadRoleFile
  refine Steady.along_graph.bind fun g => ?_
  split
  -- only a file of tasks makes a list of the role longer
  · split
    · intro s
      rw [ends_bind]
      refine (loadTasksIn_ascends site _ _ _ path s).mono ?_ fun _ _ h => h
      rintro xs s₁ ⟨h₁, hroles, hxs⟩
      exact Graph.widens_appendTasks h₁ hroles hxs r
    · exact .pure _
  · split
    · refine (loadRoleVars_widens site path).bind fun _ => ?_
      exact along_fillRole (fun _ => rfl) fun _ => rfl
    · exact .pure _
  · split
    · refine (loadRoleVars_widens site path).bind fun _ => ?_
      exact along_fillRole (fun _ => rfl) fun _ => rfl
    · exact .pure _
  · split
    · split
      · refine .bind (fun s => ?_) fun _ => ?_
        · exact (Graph.widens_addOrigin _).trans (Graph.widens_stampReferences _ _ _ _)
        · exact along_fillRole (fun _ => rfl) fun _ => rfl
      · exact along_note _
    · exact .pure _
  · exact .pure _

theorem loadRoleFiles_widens (site : Site) (selection : RoleSelection) (r : RoleId)
    (dir : FilePath) : Along Store.Widens (loadRoleFiles site selection r dir) := by
  unfold loadRoleFiles
  split
  · exact .throw _
  · refine .forM (fun names => ?_) _
    split
    · exact .pure _
    · exact loadRoleFile_widens site selection r _ _ _

/-- A role gets a new handle. -/
theorem loadRoleWith_ascends (site : Site) (o : Option OriginId) (play : Option PlayId)
    (name : String) (selection : RoleSelection) (s : Store) :
    Ends (loadRoleWith site o play name selection) s
      (fun r s' => s.graph.Widens s'.graph ∧
        Ascends s.graph.roles.size s'.graph.roles.size [r.index])
      fun _ s' => s.graph.Widens s'.graph := by
  unfold loadRoleWith
  rw [ends_bind, ends_get, ends_bind, ends_ofExcept]
  refine ⟨fun dir _ => ?_, fun _ _ => .refl s.graph⟩
  rw [ends_bind, ends_change, ends_bind]
  have hrole : s.graph.Widens ((s.graph.addOrigin ⟨.role, dir, .unknown, some name, o⟩).2.addRole
      { name, path := dir, isPublic := selection.isPublic.getD false
        origin := ⟨s.graph.origins.size⟩, play
        tasks := [], defaults := [], vars := [], declared := .empty
        directDependencies := none, allDependencies := none }).2 :=
    (Graph.widens_addOrigin _).trans (Graph.widens_addRole rfl rfl)
  refine (loadRoleFiles_widens site selection _ dir _).mono (fun _ s₁ h₁ => ?_)
    fun _ _ h => hrole.trans h
  rw [ends_bind, ends_modify, ends_pure, graph_addRoleDir]
  have hsize := h₁.roles_le
  simp only [Graph.addRole, Array.size_push] at hsize
  exact ⟨hrole.trans h₁, .singleton le_rfl hsize⟩

/-- **The roles that references name get ascending handles.** -/
theorem loadDefinitions_ascends (site : Site) (play : Option PlayId)
    (definitions : List RoleDefinition) (s : Store) :
    Ends (loadDefinitions site play definitions) s
      (fun rs s' => s.graph.Widens s'.graph ∧
        Ascends s.graph.roles.size s'.graph.roles.size (rs.map (·.index)))
      fun _ s' => s.graph.Widens s'.graph := by
  unfold loadDefinitions loadRole
  refine mapM_ascends (fun h => h.roles_le) (fun d s => ?_) definitions s
  exact loadRoleWith_ascends site (some d.origin) play d.name .main s

/-- A play gets a new handle, and its lists ascend. -/
theorem loadPlay_ascends (site : Site) (path : FilePath) (o : Option OriginId)
    (d : PlayDeclaration) (s : Store) :
    Ends (loadPlay site path o d) s
      (fun p s' => s.graph.Widens s'.graph ∧
        Ascends s.graph.plays.size s'.graph.plays.size [p.index])
      fun _ s' => s.graph.Widens s'.graph := by
  unfold loadPlay
  rw [ends_bind, ends_change]
  have h₁ : s.graph.Widens (s.graph.stampPlay path o d).2 :=
    (Graph.widens_addOrigin _).trans (Graph.widens_addPlay rfl rfl)
  have hnew : (s.graph.stampPlay path o d).2.plays.size = s.graph.plays.size + 1 :=
    Array.size_push _
  simp only [ends_bind]
  refine (stampTasks_ascends _ _ d.preTasks _).mono ?_ fun _ _ h => h₁.trans h
  rintro preTasks s₂ ⟨h₂, -, hpre⟩
  refine (stampTasks_ascends _ _ d.mainTasks s₂).mono ?_ fun _ _ h => (h₁.trans h₂).trans h
  rintro mainTasks s₃ ⟨h₃, -, hmain⟩
  have h₁₃ := (h₁.trans h₂).trans h₃
  refine (stampTasks_ascends _ _ d.postTasks s₃).mono ?_ fun _ _ h => h₁₃.trans h
  rintro postTasks s₄ ⟨h₄, -, hpost⟩
  rw [ends_change]
  have h₅ := Graph.widens_stampReferences s₄.graph path (s.graph.stampPlay path o d).1.2 d.roles
  refine (loadDefinitions_ascends site _ _ _).mono ?_ fun _ _ h => ((h₁₃.trans h₄).trans h₅).trans h
  rintro roles s₆ ⟨h₆, hroles⟩
  rw [ends_update, ends_pure]
  -- the lists are put together at the end, out of what was loaded on the way
  have h₄₆ := h₅.trans h₆
  refine ⟨((h₁₃.trans h₄).trans h₄₆).trans (Graph.widens_modifyPlay ?_ ?_), .singleton le_rfl ?_⟩
  · simp only [Play.tasks, List.map_append]
    have htasks := (hpre.append hmain h₂.tasks_le h₃.tasks_le).append hpost
      (le_trans h₂.tasks_le h₃.tasks_le) h₄.tasks_le
    exact htasks.mono (Nat.zero_le _) h₄₆.tasks_le
  · exact hroles.mono (Nat.zero_le _) le_rfl
  · have hle : (s.graph.stampPlay path o d).2.plays.size ≤ s₆.graph.plays.size :=
      (((h₂.trans h₃).trans h₄).trans h₄₆).plays_le
    rw [hnew] at hle
    simp only [Graph.modifyPlay, Array.size_modify]
    exact hle

/-- **The plays of a document get ascending handles.** -/
theorem loadPlaybook_ascends (site : Site) (o : Option OriginId) (path : FilePath) (s : Store) :
    Ends (loadPlaybook site o path) s
      (fun pb s' => s.graph.Widens s'.graph ∧
        Ascends s.graph.plays.size s'.graph.plays.size (pb.plays.map (·.index)))
      fun _ s' => s.graph.Widens s'.graph := by
  unfold loadPlaybook readFile
  rw [ends_bind]
  cases site.disk.read path with
  | error e => exact .refl s.graph
  | ok text =>
    simp only [ends_pure]
    split
    · rw [ends_bind, ends_note, ends_pure]
      exact ⟨.refl s.graph, .nil⟩
    · simp only [ends_bind, ends_pure]
      exact mapM_ascends (fun h => h.plays_le) (loadPlay_ascends site path o) _ s

/-! ## What is filled in -/

/-- The roles on which a role depends are loaded in their order. -/
theorem directDependencies_widens (site : Site) (r : RoleId) :
    Along Store.Widens (directDependencies site r) := by
  unfold directDependencies
  refine Steady.along_graph.bind fun g => ?_
  simp only
  split
  · exact .pure _
  · intro s
    rw [ends_bind]
    refine (loadDefinitions_ascends site _ _ s).mono ?_ fun _ _ h => h
    rintro ds s₁ ⟨h₁, hds⟩
    rw [ends_bind, ends_update, ends_pure]
    refine h₁.trans (Graph.widens_modifyRole (fun hr => hr.roleTasks r) fun _ ds' h => ?_)
    cases h
    exact hds.mono (Nat.zero_le _) le_rfl

/-- **Everything that may be done to a state keeps the lists of handles ascending.** -/
theorem steady_widens (site : Site) : Steady site Store.Widens where
  note := along_note
  tasks o role play path s :=
    (loadTasksIn_ascends site o role play path s).mono (fun _ _ h => h.1) fun _ _ h => h
  role o play name selection s :=
    (loadRoleWith_ascends site o play name selection s).mono (fun _ _ h => h.1) fun _ _ h => h
  playbook o path s := (loadPlaybook_ascends site o path s).mono (fun _ _ h => h.1) fun _ _ h => h
  direct := directDependencies_widens site
  all _ _ := along_fillRole (fun _ => rfl) fun _ => rfl
  cached x _ _ := Graph.widens_modifyTask fun hr => hr.block x
  adopt xs x _ := Graph.widens_adopt xs x

/-! ## States that are reached -/

theorem Reaches.ranked {sites : Site → Prop} {s₁ : Store} (h : Reaches sites s s₁)
    (hs : s.graph.Ranked) : s₁.graph.Ranked :=
  (reaches_along (fun site _ => steady_widens site) h).ranked hs

/-- **In every state that is reached the lists of handles ascend.** -/
theorem Reachable.ranked {sites : Site → Prop} (h : Reachable sites s) : s.graph.Ranked :=
  Reaches.ranked h Graph.ranked_empty

end Runlist
