import Runlist.Proofs.Permanence
import Runlist.Proofs.Spelling.Twin

/-!
# A directive without one of its parameters

Two states that differ in one thing: a directive is declared with a parameter in the first one, and
without it in the second. Nothing but the directive itself looks at its mapping, so that whatever is
loaded in the one state is loaded in the other.

* `Fields.without`: a mapping without a parameter of one of its actions.
* `Unrendered`: a parameter is declared, and cannot be rendered.
* `Graph.Omits`, `Store.Omits`: **the two states.**
* `Load.Blind`: a step of loading ends in the same way in both of them. `blind_loadRoleWith`,
  `blind_taskVars` and the like: so does each of them.
* `renderParams_omits`: **a parameter that cannot be rendered is left out**, whether it is declared
  or not.
-/

namespace Runlist

/-! ## Mappings -/

/-- **The mapping without one of the parameters of an action**, otherwise as it is declared. -/
def Fields.without (raw : Fields) (action key : String) : Fields :=
  match raw.get? action with
  | some (.object params) => raw.insert action (.object (Fields.erase params key))
  | _ => raw

section Fields

variable {raw params : Fields} {action key : String}

theorem Fields.get?_without (hraw : raw.get? action = some (.object params)) (other : String) :
    (raw.without action key).get? other =
      if action = other then some (.object (params.erase key)) else raw.get? other := by
  rw [Fields.without, hraw, Fields.get?_insert]

theorem Fields.has_without (raw : Fields) (action key other : String) :
    (raw.without action key).has other = raw.has other := by
  cases hraw : raw.get? action with
  | none => rw [Fields.without, hraw]
  | some value =>
    cases value with
    | object params =>
      rw [Fields.has, Fields.has, Fields.get?_without hraw]
      split
      · rename_i h
        rw [← h, hraw]; rfl
      · rfl
    | _ => rw [Fields.without, hraw]

end Fields

/-- **A parameter is declared and cannot be rendered.** -/
structure Unrendered (t : Templater) (vars : Variables) (params : Fields)
    (key : String) : Prop where
  declared : ∃ value, (key, value) ∈ params
  fails : ∀ value, (key, value) ∈ params → ∃ err, renderValue t vars value = .error err

/-! ## Graphs -/

/-- **A directive with a mapping**, and the parameter that it has in the first of two states. -/
structure Omission where
  task : TaskId
  raw : Fields
  action : String
  key : String

variable {o : Omission} {known : Option Variables} {g g' : Graph}

/-- **Two graphs that differ in one parameter of a directive.** The variables of the directive may
be known. -/
structure Graph.Omits (o : Omission) (known : Option Variables) (g g' : Graph) : Prop where
  origins : g'.origins = g.origins
  plays : g'.plays = g.plays
  roles : g'.roles = g.roles
  tasks : g'.tasks.size = g.tasks.size
  task : ∀ y, g'.task y = { g.task y with raw := (g'.task y).raw }
  raw : ∀ y, y ≠ o.task → (g'.task y).raw = (g.task y).raw
  omitted : (g'.task o.task).raw = o.raw.without o.action o.key
  declared : (g.task o.task).raw = o.raw
  has : g.HasTask o.task
  known : ∀ vars, known = some vars → (g.task o.task).cachedVars = some vars

namespace Graph.Omits

variable (h : g.Omits o known g')
include h

/-! ### What is the same -/

theorem role (r : RoleId) : g'.role r = g.role r := by rw [Graph.role, Graph.role, h.roles]

theorem play (p : PlayId) : g'.play p = g.play p := by rw [Graph.play, Graph.play, h.plays]

theorem origin (id : OriginId) : g'.origin id = g.origin id := by
  rw [Graph.origin, Graph.origin, h.origins]

theorem hasTask (y : TaskId) : g'.HasTask y ↔ g.HasTask y := by rw [HasTask, HasTask, h.tasks]

theorem task_block (y : TaskId) : (g'.task y).block = (g.task y).block := by rw [h.task y]

theorem task_name (y : TaskId) : (g'.task y).name = (g.task y).name := by rw [h.task y]

theorem task_vars (y : TaskId) : (g'.task y).vars = (g.task y).vars := by rw [h.task y]

theorem task_origin (y : TaskId) : (g'.task y).origin = (g.task y).origin := by rw [h.task y]

theorem task_parent (y : TaskId) : (g'.task y).parent = (g.task y).parent := by rw [h.task y]

theorem task_role (y : TaskId) : (g'.task y).role = (g.task y).role := by rw [h.task y]

theorem task_play (y : TaskId) : (g'.task y).play = (g.task y).play := by rw [h.task y]

theorem task_cached (y : TaskId) :
    (g'.task y).cachedVars = (g.task y).cachedVars := by rw [h.task y]

theorem taskPlay (y : TaskId) : g'.taskPlay y = g.taskPlay y := by
  unfold Graph.taskPlay
  dsimp only
  rw [h.task_role, h.task_play]
  cases (g.task y).role with
  | none => rfl
  | some r => exact congrArg Role.play (h.role r)

theorem taskPath (y : TaskId) : g'.taskPath y = g.taskPath y := by
  rw [Graph.taskPath, Graph.taskPath, h.task_origin, h.origin]

theorem provenance (id : OriginId) : g'.provenance id = g.provenance id := by
  have hchain : ∀ n id, g'.chain n id = g.chain n id := by
    intro n
    induction n with
    | zero => exact fun _ => rfl
    | succ n ih =>
      intro id
      unfold Graph.chain
      dsimp only
      rw [h.origin]
      cases (g.origin id).parent with
      | none => rfl
      | some parent => exact congrArg (· ++ _) (ih parent)
  rw [Graph.provenance, Graph.provenance, h.origins, hchain]

/-- The directive has the same keys. -/
theorem firstAction? (y : TaskId) (actions : List String) :
    (g'.task y).firstAction? actions = (g.task y).firstAction? actions := by
  unfold Task.firstAction?
  by_cases hy : y = o.task
  · subst hy
    rw [h.omitted, h.declared]
    simp only [Fields.has_without]
  · rw [h.raw y hy]

/-! ### What keeps them so -/

theorem addOrigin (p : Origin) : (g.addOrigin p).2.Omits o known (g'.addOrigin p).2 :=
  { h with origins := by simp only [Graph.addOrigin, h.origins] }

theorem addRole (r : Role) : (g.addRole r).2.Omits o known (g'.addRole r).2 :=
  { h with roles := by simp only [Graph.addRole, h.roles] }

theorem modifyRole (r : RoleId) (f : Role → Role) :
    (g.modifyRole r f).Omits o known (g'.modifyRole r f) :=
  { h with roles := by simp only [Graph.modifyRole, h.roles] }

theorem addTask (t : Task) : (g.addTask t).2.Omits o known (g'.addTask t).2 := by
  have hold : (g.addTask t).2.task o.task = g.task o.task := task_addTask_of_has t h.has
  have hold' : (g'.addTask t).2.task o.task = g'.task o.task :=
    task_addTask_of_has t ((h.hasTask _).2 h.has)
  refine { h with
    tasks := ?_, task := fun y => ?_, raw := fun y hy => ?_, omitted := ?_, declared := ?_
    has := ?_, known := fun vars hvars => ?_ }
  · simp only [Graph.addTask, Array.size_push, h.tasks]
  · rw [task_addTask, task_addTask, h.tasks]
    split
    · rfl
    · exact h.task y
  · rw [task_addTask, task_addTask, h.tasks]
    split
    · rfl
    · exact h.raw y hy
  · rw [hold']; exact h.omitted
  · rw [hold]; exact h.declared
  · exact hasTask_addTask.2 (.inr h.has)
  · rw [hold]; exact h.known vars hvars

/-- A change of a task that leaves its mapping alone, and its variables if they are known. -/
theorem modifyTask {x : TaskId} {f : Task → Task} (hraw : ∀ t, (f t).raw = t.raw)
    (hsame : ∀ t raw, f { t with raw } = { f t with raw := (f { t with raw }).raw })
    (hknown : ∀ vars, known = some vars → x = o.task → (f (g.task o.task)).cachedVars = some vars) :
    (g.modifyTask x f).Omits o known (g'.modifyTask x f) := by
  have hraws : ∀ y, ((g.modifyTask x f).task y).raw = (g.task y).raw := by
    intro y
    rw [task_modifyTask]
    split
    · rename_i hy
      rw [hraw, hy.1]
    · rfl
  have hraws' : ∀ y, ((g'.modifyTask x f).task y).raw = (g'.task y).raw := by
    intro y
    rw [task_modifyTask]
    split
    · rename_i hy
      rw [hraw, hy.1]
    · rfl
  refine { h with
    tasks := ?_, task := fun y => ?_, raw := fun y hy => ?_, omitted := ?_, declared := ?_
    has := ?_, known := fun vars hvars => ?_ }
  · simp only [Graph.modifyTask, Array.size_modify, h.tasks]
  · simp only [task_modifyTask, h.hasTask]
    split
    · rw [h.task x]
      exact hsame _ _
    · exact h.task y
  · rw [hraws, hraws']; exact h.raw y hy
  · rw [hraws']; exact h.omitted
  · rw [hraws]; exact h.declared
  · exact hasTask_modifyTask.2 h.has
  · rw [task_modifyTask]
    split
    · rename_i hx
      rw [← hx.1]
      exact hknown vars hvars hx.1.symm
    · exact h.known vars hvars

theorem chainRoot (parent : TaskId) (n : Nat) (y : TaskId) :
    g'.chainRoot parent n y = g.chainRoot parent n y := by
  induction n generalizing y with
  | zero => rfl
  | succ n ih =>
    unfold Graph.chainRoot
    rw [h.task_parent]
    cases (g.task y).parent with
    | none => rfl
    | some next => simp only [ih]

omit h in
/-- The same tasks are adopted. -/
theorem adopt (h : g.Omits o known g') (xs : List TaskId) (parent : TaskId) :
    (g.adopt xs parent).Omits o known (g'.adopt xs parent) := by
  unfold Graph.adopt
  induction xs generalizing g g' with
  | nil => exact h
  | cons x xs ih =>
    have hone : (g.adoptOne parent x).Omits o known (g'.adoptOne parent x) := by
      unfold Graph.adoptOne
      dsimp only
      rw [h.tasks, h.chainRoot, h.task_parent]
      split
      · exact h.modifyTask (fun _ => rfl) (fun _ _ => rfl) fun vars hvars _ => h.known vars hvars
      · exact h
    exact ih hone

end Graph.Omits

/-! ### Stamping -/

theorem Graph.Omits.stampHead (h : g.Omits o known g') (context : TaskContext)
    (around : Option OriginId) (parent : Option TaskId) (range : LineRange) (name : Option String)
    (vars : Variables) (raw : Fields) :
    (g.stampHead context around parent range name vars raw).Omits o known
      (g'.stampHead context around parent range name vars raw) := by
  unfold Graph.stampHead
  rw [h.origins]
  exact (h.addOrigin _).addTask _

mutual
theorem Graph.Omits.stampTask {g g' : Graph} (h : g.Omits o known g') (context : TaskContext)
    (around : Option OriginId) (parent : Option TaskId) (d : TaskDeclaration) :
    (g.stampTask context around parent d).1 = (g'.stampTask context around parent d).1 ∧
      (g.stampTask context around parent d).2.Omits o known
        (g'.stampTask context around parent d).2 := by
  match d with
  | ⟨range, name, vars, raw, block⟩ =>
    rw [stampTask_eq, stampTask_eq, h.origins, h.tasks]
    obtain ⟨hids, hinner⟩ :=
      (h.stampHead context around parent range name vars raw).stampTasks context
      (some ⟨g.origins.size⟩) (some ⟨g.tasks.size⟩) block
    dsimp only
    rw [← hids]
    exact ⟨rfl, hinner.modifyTask (fun _ => rfl) (fun _ _ => rfl) fun vars hvars _ =>
      hinner.known vars hvars⟩

/-- **Declared tasks are stamped alike.** -/
theorem Graph.Omits.stampTasks {g g' : Graph} (h : g.Omits o known g') (context : TaskContext)
    (around : Option OriginId) (parent : Option TaskId) (ds : List TaskDeclaration) :
    (g.stampTasks context around parent ds).1 = (g'.stampTasks context around parent ds).1 ∧
      (g.stampTasks context around parent ds).2.Omits o known
        (g'.stampTasks context around parent ds).2 := by
  match ds with
  | [] => unfold Graph.stampTasks; exact ⟨rfl, h⟩
  | d :: ds =>
    unfold Graph.stampTasks
    obtain ⟨hfirst, h₁⟩ := h.stampTask context around parent d
    obtain ⟨hrest, h₂⟩ := h₁.stampTasks context around parent ds
    exact ⟨congrArg₂ List.cons hfirst hrest, h₂⟩
end

theorem Graph.Omits.stampReferences (h : g.Omits o known g') (path : FilePath) (around : OriginId)
    (rs : List RoleReference) :
    (g.stampReferences path around rs).1 = (g'.stampReferences path around rs).1 ∧
    (g.stampReferences path around rs).2.Omits o known (g'.stampReferences path around rs).2 := by
  induction rs generalizing g g' with
  | nil => exact ⟨rfl, h⟩
  | cons r rs ih =>
    obtain ⟨hrest, h₁⟩ :=
      ih (h.addOrigin ⟨.roleDefinition, path, r.range, some r.name, some around⟩)
    unfold Graph.stampReferences Graph.stampReference
    refine ⟨congrArg₂ List.cons ?_ hrest, h₁⟩
    show (⟨r.name, r.vars, ⟨g.origins.size⟩⟩ : RoleDefinition) = ⟨r.name, r.vars, ⟨g'.origins.size⟩⟩
    rw [h.origins]

theorem Graph.Omits.stampMeta (h : g.Omits o known g') (path : FilePath) (around : OriginId)
    (m : MetaDeclaration) :
    (g.stampMeta path around m).1 = (g'.stampMeta path around m).1 ∧
      (g.stampMeta path around m).2.Omits o known (g'.stampMeta path around m).2 := by
  obtain ⟨hrest, h₁⟩ :=
    (h.addOrigin ⟨.roleMeta, path, m.range, none, some around⟩).stampReferences path
    ⟨g.origins.size⟩ m.dependencies
  have hsize : g'.origins.size = g.origins.size := congrArg Array.size h.origins
  unfold Graph.stampMeta Graph.addOrigin
  dsimp only
  rw [hsize]
  exact ⟨congrArg (RoleMeta.mk (some ⟨g.origins.size⟩)) hrest, h₁⟩

/-! ## Loading -/

/-- **Two states that differ in one parameter of a directive.** What was passed over does not
count. -/
structure Store.Omits (o : Omission) (known : Option Variables) (s s' : Store) : Prop where
  graph : s.graph.Omits o known s'.graph
  roleDirs : s'.roleDirs = s.roleDirs

/-- **A step of loading does not look at the parameter**: it ends in the same way in both states. -/
abbrev Load.Blind (o : Omission) (known : Option Variables) {α : Type} (x : Load α) : Prop :=
  Twin (Store.Omits o known) Eq Eq x x

section Load

variable {site : Site} {α : Type}

theorem omits_graph : Twin (Store.Omits o known) Eq (Graph.Omits o known) Load.graph Load.graph :=
  fun _ _ h => ⟨.ok h.graph, h⟩

theorem blind_ofExcept (r : Except LoadError α) : Load.Blind o known (Load.ofExcept r) := by
  cases r with
  | ok a => exact .pure rfl
  | error e => exact .throw rfl

theorem blind_note (n : Notice) : Load.Blind o known (Load.note n) :=
  fun _ _ h => ⟨.ok rfl, h.graph, h.roleDirs⟩

theorem blind_update {f : Graph → Graph}
    (h : ∀ g g', g.Omits o known g' → (f g).Omits o known (f g')) :
    Load.Blind o known (Load.update f) := fun _ _ hs => ⟨.ok rfl, h _ _ hs.graph, hs.roleDirs⟩

theorem blind_change {f : Graph → α × Graph}
    (h : ∀ g g', g.Omits o known g' → (f g).1 = (f g').1 ∧ (f g).2.Omits o known (f g').2) :
    Load.Blind o known (Load.change f) :=
  fun _ _ hs => ⟨.ok (h _ _ hs.graph).1, (h _ _ hs.graph).2, hs.roleDirs⟩

theorem blind_loadTasksIn (site : Site) (around : Option OriginId) (role : Option RoleId)
    (play : Option PlayId) (path : FilePath) :
    Load.Blind o known (loadTasksIn site around role play path) := by
  unfold loadTasksIn readFile
  refine Twin.next ?_ fun text => ?_
  · split
    · exact .pure rfl
    · exact .throw rfl
  · split
    · exact .throw rfl
    · exact blind_change fun g g' hg => hg.stampTasks _ _ _ _

theorem blind_loadRoleVars (site : Site) (path : FilePath) :
    Load.Blind o known (loadRoleVars site path) := by
  unfold loadRoleVars
  split
  · exact .pure rfl
  · exact (blind_note _).next fun _ => .pure rfl

theorem blind_loadRoleFile (site : Site) (selection : RoleSelection) (r : RoleId) (folder : String)
    (file : List String) (path : FilePath) :
    Load.Blind o known (loadRoleFile site selection r folder file path) := by
  have hfill : ∀ f, Load.Blind o known (Load.update fun g => g.modifyRole r f) :=
    fun f => blind_update fun g g' hg => hg.modifyRole r f
  unfold loadRoleFile
  refine omits_graph.bind fun g g' hg => ?_
  simp only [hg.role]
  split
  · split
    · exact (blind_loadTasksIn site _ _ _ path).next fun _ => hfill _
    · exact .pure rfl
  · split
    · exact (blind_loadRoleVars site path).next fun _ => hfill _
    · exact .pure rfl
  · split
    · exact (blind_loadRoleVars site path).next fun _ => hfill _
    · exact .pure rfl
  · split
    · split
      · exact (blind_change fun g g' hg => hg.stampMeta _ _ _).next fun _ => hfill _
      · exact blind_note _
    · exact .pure rfl
  · exact .pure rfl

/-- **A role is loaded** in both states. -/
theorem blind_loadRoleWith (site : Site) (around : Option OriginId) (play : Option PlayId)
    (name : String) (selection : RoleSelection) :
    Load.Blind o known (loadRoleWith site around play name selection) := by
  unfold loadRoleWith
  refine Twin.get.bind fun s s' hs => ?_
  have hlocate : s'.locate site name = s.locate site name := by
    unfold Store.locate Store.roleDir?
    rw [hs.roleDirs]
  rw [hlocate]
  refine (blind_ofExcept _).next fun dir => (blind_change fun g g' hg => ?_).next fun r => ?_
  · have hsize : g'.origins.size = g.origins.size := congrArg Array.size hg.origins
    have hroles : g'.roles.size = g.roles.size := congrArg Array.size hg.roles
    have hnext := hg.addOrigin ⟨.role, dir, .unknown, some name, around⟩
    unfold Graph.addOrigin Graph.addRole
    dsimp only
    rw [hsize, hroles]
    exact ⟨rfl, hnext.addRole _⟩
  · refine Twin.next ?_ fun _ => (Twin.modify fun s s' hs => ?_).next fun _ => .pure rfl
    · unfold loadRoleFiles
      split
      · exact .throw rfl
      · refine Twin.forM (fun names => ?_) _
        split
        · exact .pure rfl
        · exact blind_loadRoleFile site selection r _ _ _
    · exact ⟨hs.graph, congrArg (List.cons (name, dir)) hs.roleDirs⟩

/-! ### Dependencies and variables -/

theorem blind_directDependencies (site : Site) (r : RoleId) :
    Load.Blind o known (directDependencies site r) := by
  unfold directDependencies loadDefinitions
  refine omits_graph.bind fun g g' hg => ?_
  simp only [hg.role]
  split
  · exact .pure rfl
  · refine Twin.next ?_ fun found =>
      (blind_update fun g g' hg => hg.modifyRole r _).next fun _ => .pure rfl
    refine Twin.mapM_same (fun d => ?_) _
    unfold loadRole
    exact blind_loadRoleWith site (some d.origin) _ d.name .main

theorem blind_collectDependencies (site : Site) (n : Nat) (r : RoleId) (path : List String) :
    Load.Blind o known (collectDependencies site n r path) := by
  induction n generalizing r path with
  | zero => exact .throw rfl
  | succ n ih =>
    unfold collectDependencies
    refine omits_graph.bind fun g g' hg => ?_
    simp only [hg.role]
    split
    · exact .pure rfl
    · refine omits_graph.bind fun g g' hg => ?_
      rw [show enterDependency g' r path =
        enterDependency g r path by unfold enterDependency; rw [hg.role]]
      refine (blind_ofExcept _).next fun path =>
        (blind_directDependencies site r).next fun direct => ?_
      refine (Twin.concatEach (fun dep => (ih dep path).next fun _ => .pure rfl) direct).next
        fun found => ?_
      exact (blind_update fun g g' hg => hg.modifyRole r _).next fun _ => .pure rfl

theorem blind_defaultVars (site : Site) (r : RoleId) : Load.Blind o known (defaultVars site r) := by
  unfold defaultVars
  refine Twin.next ?_ fun found => omits_graph.bind fun g g' hg => .pure ?_
  · unfold allDependencies
    refine Twin.get.bind fun s s' hs => ?_
    have hbound : dependencyBound site s' = dependencyBound site s := by
      unfold dependencyBound roleNames
      rw [hs.graph.roles]
    rw [hbound]
    exact blind_collectDependencies site _ r []
  · simp only [hg.role]

theorem blind_assignPlay (site : Site) (vars : Variables) (play : Option PlayId) :
    Load.Blind o known (assignPlay site vars play) := by
  cases play with
  | none => exact .pure rfl
  | some p =>
    unfold assignPlay assignFiles
    refine omits_graph.bind fun g g' hg => ?_
    simp only [hg.play, hg.origin]
    refine Twin.next (Twin.foldlM (fun vars file => ?_) _ _) fun vars =>
      omits_graph.bind fun g g' hg => .pure ?_
    · split
      · exact (blind_note _).next fun _ => .pure rfl
      · split
        · exact .pure rfl
        · exact .throw rfl
    · unfold assignRoleVars
      simp only [hg.role]

theorem blind_resolveVars (site : Site) (play : Option PlayId) (task : Option TaskId) :
    Load.Blind o known (resolveVars site play task) := by
  unfold resolveVars assignDefaults
  refine omits_graph.bind fun g g' hg => ?_
  have hroles : g'.defaultRoles play task = g.defaultRoles play task := by
    unfold Graph.defaultRoles
    simp only [hg.play, hg.task_role]
  rw [hroles]
  refine Twin.next
    (Twin.foldlM (fun vars r => (blind_defaultVars site r).next fun _ => .pure rfl) _ _)
    fun vars => ?_
  refine (blind_assignPlay site vars play).next fun vars => ?_
  cases task with
  | none => exact .pure rfl
  | some x =>
    refine omits_graph.bind fun g g' hg => .pure ?_
    unfold assignRoleVars
    rw [hg.task_role, hg.task_vars]
    simp only [hg.role]

/-- **The variables of a task are the same.** -/
theorem blind_taskVars (site : Site) (x : TaskId) : Load.Blind o known (taskVars site x) := by
  unfold taskVars
  refine omits_graph.bind fun g g' hg => ?_
  rw [hg.task_cached, hg.taskPlay]
  cases hcached : (g.task x).cachedVars with
  | some vars => exact .pure rfl
  | none =>
    -- variables that are known are not resolved again
    have hfree : ∀ vars, known = some vars → x ≠ o.task := by
      rintro vars hvars rfl
      rw [hg.known vars hvars] at hcached
      cases hcached
    refine (blind_resolveVars site _ _).next fun vars =>
      (blind_update fun g g' hg => ?_).next fun _ => .pure rfl
    exact hg.modifyTask (fun _ => rfl) (fun _ _ => rfl) fun vars hvars hx =>
      absurd hx (hfree vars hvars)

/-- The same parameters are rendered to the same. -/
theorem blind_renderParams (t : Templater) (vars : Variables) (action : String) (params : Fields) :
    Load.Blind o known (renderParams t vars action params) := by
  induction params with
  | nil => exact .pure rfl
  | cons entry rest ih =>
    unfold renderParams
    split
    · exact ih.next fun _ => .pure rfl
    · exact (blind_note _).next fun _ => ih

/-- **A parameter that cannot be rendered is left out**, whether it is declared or not. -/
theorem renderParams_omits {t : Templater} {vars : Variables} {params : Fields} {key : String}
    (h : ∀ value, (key, value) ∈ params → ∃ err, renderValue t vars value = .error err)
    (action : String) :
    Twin (Store.Omits o known) Eq Eq (renderParams t vars action params)
      (renderParams t vars action (params.erase key)) := by
  induction params with
  | nil => exact .pure rfl
  | cons entry rest ih =>
    obtain ⟨k, value⟩ := entry
    have hrest := ih fun v hv => h v (List.mem_cons_of_mem _ hv)
    by_cases hk : k = key
    · subst hk
      obtain ⟨err, herr⟩ := h value List.mem_cons_self
      have herase : Fields.erase ((k, value) :: rest) k = Fields.erase rest k := by
        simp [Fields.erase]
      have hnote : renderParams t vars action ((k, value) :: rest) =
          (do Load.note (.droppedParameter k action err); renderParams t vars action rest) := by
        conv_lhs => unfold renderParams
        rw [herr]
      rw [herase, hnote]
      exact fun s s' hs => hrest _ s' ⟨hs.graph, hs.roleDirs⟩
    · have herase : Fields.erase ((k, value) :: rest) key =
          (k, value) :: Fields.erase rest key := by
        simp [Fields.erase, hk]
      rw [herase]
      unfold renderParams
      cases renderValue t vars value with
      | ok value => exact hrest.next fun _ => .pure rfl
      | error err => exact (blind_note _).next fun _ => hrest

end Load

end Runlist
