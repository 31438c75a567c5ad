import Runlist.Proofs.Load.Stamp

/-!
# Files of tasks as forests

A file of tasks is loaded whole or not at all. Once it is loaded, the lists of blocks lead from its
tasks through everything that the file declares.

* `Graph.Forest`: tasks of a graph, and what their blocks lead to, are what the items of a document
  say.
* `Declares`, `declares_taskList`: what is declared is what the document says, at every depth.
* `Graph.Appends`, `Graph.Numbered`: a number of tasks are added, each with an origin, in the order
  of the document.
* `stampTasks_forest`: **declared tasks become a forest** behind everything else.
* `loadTasks_forest`: **a file of tasks becomes the forest that its document says**, or the state is
  as before.
-/

namespace Runlist

/-! ## What a document says -/

/-- The items of a list of tasks; there are none if it is null or missing. -/
def taskMappings? : Option Json → Option (List Json)
  | none => some []
  | some .null => some []
  | some (.array items) => some items
  | some _ => none

/-- A name is a string, or a number or a boolean by its text. -/
def declaredName : Option Json → Option String
  | some (.string s) => some s
  | some (.number n) => some n.text
  | some (.bool b) => some (if b then "true" else "false")
  | _ => none

/-- Variables are a mapping. -/
def declaredVars : Option Json → Variables
  | some (.object entries) => entries
  | _ => []

namespace Graph

variable {g g₁ g₂ : Graph} {context : TaskContext} {o : Option OriginId} {parent : Option TaskId}

/-- A task is what a mapping says, in a file and a role, inside a task and an origin. -/
structure StandsFor (g : Graph) (context : TaskContext) (o : Option OriginId)
    (parent : Option TaskId) (x : TaskId) (entries : Fields) : Prop where
  name : (g.task x).name = declaredName (entries.get? "name")
  vars : (g.task x).vars = declaredVars (entries.get? "vars")
  raw : (g.task x).raw = entries
  parent : (g.task x).parent = parent
  role : (g.task x).role = context.role
  play : (g.task x).play = context.play
  cachedVars : (g.task x).cachedVars = none
  origin : ∃ range, g.origin (g.task x).origin =
      ⟨.task, context.path, range, declaredName (entries.get? "name"), o⟩

/-- **Tasks, and what their blocks lead to, are what some items say**: a task for each mapping, in
the order of the items, and in its block the tasks of the mapping's block, inside the task and its
origin. Last come all of the tasks, in the order of the document. -/
inductive Forest (g : Graph) (context : TaskContext) :
    Option OriginId → Option TaskId → List TaskId → List Json → List TaskId → Prop
  | nil {o : Option OriginId} {parent : Option TaskId} : Forest g context o parent [] [] []
  | cons {o : Option OriginId} {parent : Option TaskId} {x : TaskId} {xs below others : List TaskId}
      {entries : Fields}
      {items rest : List Json} :
      g.StandsFor context o parent x entries → taskMappings? (entries.get? "block") = some items →
      Forest g context (some (g.task x).origin) (some x) (g.task x).block items below →
      Forest g context o parent xs rest others →
      Forest g context o parent (x :: xs) (.object entries :: rest) (x :: (below ++ others))

/-- A forest is in its tasks and their origins. -/
theorem Forest.of_same {xs ids : List TaskId} {items : List Json}
    (h : g.Forest context o parent xs items ids)
    (hsame : ∀ x ∈ ids, g₁.task x = g.task x ∧
      g₁.origin (g.task x).origin = g.origin (g.task x).origin) :
    g₁.Forest context o parent xs items ids := by
  induction h with
  | nil => exact .nil
  | @cons o parent x xs below others entries items rest hstands hitems _ _ ihbelow ihothers =>
    obtain ⟨htask, horigin⟩ := hsame x List.mem_cons_self
    have hbelow := ihbelow fun y hy => hsame y (List.mem_cons_of_mem _ (List.mem_append_left _ hy))
    have hothers :=
      ihothers fun y hy => hsame y (List.mem_cons_of_mem _ (List.mem_append_right _ hy))
    refine .cons ?_ hitems ?_ hothers
    · obtain ⟨hname, hvars, hraw, hparent, hrole, hplay, hcached, range, hplace⟩ := hstands
      constructor <;> rw [htask]
      · exact hname
      · exact hvars
      · exact hraw
      · exact hparent
      · exact hrole
      · exact hplay
      · exact hcached
      · exact ⟨range, horigin.trans hplace⟩
    · rw [htask]
      exact hbelow

/-! ## What is added -/

/-- **A number of tasks are added, each with an origin**, and nothing else. -/
structure Appends (g g₁ : Graph) (n : Nat) : Prop where
  tasks_size : g₁.tasks.size = g.tasks.size + n
  origins_size : g₁.origins.size = g.origins.size + n
  task : ∀ x, g.HasTask x → g₁.task x = g.task x
  origin : ∀ o, g.HasOrigin o → g₁.origin o = g.origin o
  plays : g₁.plays = g.plays
  roles : g₁.roles = g.roles

namespace Appends

variable {m n : Nat}

theorem refl (g : Graph) : g.Appends g 0 := ⟨rfl, rfl, fun _ _ => rfl, fun _ _ => rfl, rfl, rfl⟩

theorem trans (h : g.Appends g₁ m) (h' : g₁.Appends g₂ n) : g.Appends g₂ (m + n) where
  tasks_size := by rw [h'.tasks_size, h.tasks_size, Nat.add_assoc]
  origins_size := by rw [h'.origins_size, h.origins_size, Nat.add_assoc]
  task x hx := by
    have hx₁ : g₁.HasTask x := by have := h.tasks_size; unfold HasTask at hx ⊢; omega
    exact (h'.task x hx₁).trans (h.task x hx)
  origin o ho := by
    have ho₁ : g₁.HasOrigin o := by have := h.origins_size; unfold HasOrigin at ho ⊢; omega
    exact (h'.origin o ho₁).trans (h.origin o ho)
  plays := h'.plays.trans h.plays
  roles := h'.roles.trans h.roles

/-- A task that was added may change. -/
theorem modifyTask (h : g.Appends g₁ n) {x : TaskId} (hx : ¬ g.HasTask x) (f : Task → Task) :
    g.Appends (g₁.modifyTask x f) n where
  tasks_size := by rw [Graph.modifyTask, Array.size_modify]; exact h.tasks_size
  origins_size := h.origins_size
  task y hy := by
    have hne : y ≠ x := fun heq => hx (heq ▸ hy)
    rw [task_modifyTask_of_ne hne]
    exact h.task y hy
  origin := h.origin
  plays := h.plays
  roles := h.roles

end Appends

/-- **The tasks have the handles from one on**, in their order, and so have their origins. -/
structure Numbered (g : Graph) (firstTask firstOrigin : Nat) (ids : List TaskId) : Prop where
  tasks : ids.map (·.index) = List.range' firstTask ids.length
  origins : (ids.map fun x => (g.task x).origin.index) = List.range' firstOrigin ids.length

namespace Numbered

variable {firstTask firstOrigin : Nat} {ids below : List TaskId}

theorem mem (h : g.Numbered firstTask firstOrigin ids) {x : TaskId} (hx : x ∈ ids) :
    (firstTask ≤ x.index ∧ x.index < firstTask + ids.length) ∧
      firstOrigin ≤ (g.task x).origin.index ∧
      (g.task x).origin.index < firstOrigin + ids.length := by
  have htask : x.index ∈ List.range' firstTask ids.length := h.tasks ▸ List.mem_map_of_mem hx
  have horigin : (g.task x).origin.index ∈ List.range' firstOrigin ids.length :=
    h.origins ▸ List.mem_map_of_mem (f := fun x => (g.task x).origin.index) hx
  rw [List.mem_range'_1] at htask horigin
  exact ⟨htask, horigin⟩

theorem of_same (h : g.Numbered firstTask firstOrigin ids)
    (hsame : ∀ x ∈ ids, g₁.task x = g.task x) : g₁.Numbered firstTask firstOrigin ids where
  tasks := h.tasks
  origins := by
    rw [← h.origins]
    exact List.map_congr_left fun x hx => by rw [hsame x hx]

/-- A task, what is below it and what comes after it are numbered one after the other. -/
theorem cons {x : TaskId} (hx : x.index = firstTask)
    (hplace : (g.task x).origin.index = firstOrigin)
    (hbelow : g.Numbered (firstTask + 1) (firstOrigin + 1) below)
    (hothers : g.Numbered (firstTask + (1 + below.length)) (firstOrigin + (1 + below.length)) ids) :
    g.Numbered firstTask firstOrigin (x :: (below ++ ids)) := by
  constructor
  · rw [List.map_cons, List.map_append, hbelow.tasks, hothers.tasks, hx, List.length_cons,
      List.length_append, List.range'_succ, ← List.range'_append_1, Nat.add_assoc]
  · rw [List.map_cons, List.map_append, hbelow.origins, hothers.origins, hplace, List.length_cons,
      List.length_append, List.range'_succ, ← List.range'_append_1, Nat.add_assoc]

end Numbered

end Graph

/-! ## Declarations -/

/-- **What is declared is what some items say**, at every depth. -/
inductive Declares : List TaskDeclaration → List Json → Prop
  | nil : Declares [] []
  | cons {range : LineRange} {entries : Fields} {items rest : List Json}
      {block ds : List TaskDeclaration} :
      taskMappings? (entries.get? "block") = some items → Declares block items → Declares ds rest →
      Declares (⟨range, declaredName (entries.get? "name"), declaredVars (entries.get? "vars"),
        entries, block⟩ :: ds)
        (.object entries :: rest)

namespace Declaration

open Yaml (Rows)

variable {location : Location} {value : Option Json}

theorem readName_ok {name : Option String} (h : readName value location = .ok name) :
    name = declaredName value := by
  unfold readName at h
  split at h <;> cases h <;> rfl

theorem readVariables_ok {vars : Variables} (h : readVariables value location = .ok vars) :
    vars = declaredVars value := by
  unfold readVariables at h
  split at h <;> cases h <;> rfl

mutual
theorem declares_tasks {rows : Rows} {location : Location} {value : Json}
    {ds : List TaskDeclaration} (h : tasks rows location value = .ok ds) :
    ∃ items, taskMappings? (some value) = some items ∧ Declares ds items := by
  match value with
  | .null => rw [tasks] at h; cases h; exact ⟨[], rfl, .nil⟩
  | .array items => rw [tasks] at h; exact ⟨items, rfl, declares_taskItems h⟩
  | .bool _ | .number _ | .string _ | .object _ => simp [tasks] at h

theorem declares_taskItems {rows : Rows} {location : Location} {index : Nat} {items : List Json}
    {ds : List TaskDeclaration} (h : taskItems rows location index items = .ok ds) :
    Declares ds items := by
  match items with
  | [] => rw [taskItems] at h; cases h; exact .nil
  | .object entries :: rest =>
    rw [taskItems] at h
    obtain ⟨first, hfirst, h⟩ := except_bind_ok.1 h
    obtain ⟨others, hothers, h⟩ := except_bind_ok.1 h
    cases h
    rw [task] at hfirst
    obtain ⟨block, hblock, hfirst⟩ := except_bind_ok.1 hfirst
    obtain ⟨name, hname, hfirst⟩ := except_bind_ok.1 hfirst
    obtain ⟨vars, hvars, hfirst⟩ := except_bind_ok.1 hfirst
    cases hfirst
    obtain ⟨items, hitems, hdeclares⟩ := declares_taskBlock hblock
    rw [readName_ok hname, readVariables_ok hvars]
    exact .cons hitems hdeclares (declares_taskItems hothers)
  | .null :: _ | .bool _ :: _ | .number _ :: _ | .string _ :: _ | .array _ :: _ =>
    rw [taskItems] at h
    obtain ⟨first, hfirst, -⟩ := except_bind_ok.1 h
    simp [task] at hfirst

theorem declares_taskBlock {rows : Rows} {location : Location} {entries : List (String × Json)}
    {ds : List TaskDeclaration} (h : taskBlock rows location entries = .ok ds) :
    ∃ items, taskMappings? (Fields.get? entries "block") = some items ∧ Declares ds items := by
  match entries with
  | [] => rw [taskBlock] at h; cases h; exact ⟨[], rfl, .nil⟩
  | (key, value) :: rest =>
    rw [taskBlock] at h
    rw [Fields.get?]
    split at h
    · rename_i hkey
      rw [if_pos hkey]
      exact declares_tasks h
    · rename_i hkey
      rw [if_neg hkey]
      exact declares_taskBlock h
end

end Declaration

/-! ## Stamping -/

namespace Graph

variable {g : Graph} {context : TaskContext} {o : Option OriginId} {parent : Option TaskId}

theorem appends_stampHead {range : LineRange} {name : Option String} {vars : Variables}
    {raw : Fields} : g.Appends (g.stampHead context o parent range name vars raw) 1 where
  tasks_size := Array.size_push _
  origins_size := Array.size_push _
  task := adds_stampHead.task
  origin := adds_stampHead.origin
  plays := rfl
  roles := rfl

/-- A mapping's task with its block in front of other tasks: `g₂` has what is below the task as
well, which is then put into its block, and `g₁` has the other tasks too. -/
theorem Forest.stamped {range : LineRange} {entries : Fields} {items rest : List Json}
    {children xs below others : List TaskId}
    (hitems : taskMappings? (entries.get? "block") = some items)
    (hbelow : g₂.Forest context (some ⟨g.origins.size⟩) (some ⟨g.tasks.size⟩) children items below)
    (hnumbered : g₂.Numbered (g.tasks.size + 1) (g.origins.size + 1) below)
    (happends : (g.stampHead context o parent range (declaredName (entries.get? "name"))
      (declaredVars (entries.get? "vars"))
      entries).Appends g₂ below.length)
    (hothers : g₁.Forest context o parent xs rest others)
    (hnumbered' : g₁.Numbered (g.tasks.size + (1 + below.length))
      (g.origins.size + (1 + below.length)) others)
    (happends' : (g₂.modifyTask ⟨g.tasks.size⟩ fun t => { t with block := children }).Appends g₁
      others.length) :
    g₁.Forest context o parent (⟨g.tasks.size⟩ :: xs) (.object entries :: rest)
      (⟨g.tasks.size⟩ :: (below ++ others)) ∧
      g₁.Numbered g.tasks.size g.origins.size (⟨g.tasks.size⟩ :: (below ++ others)) ∧
      g.Appends g₁ (⟨g.tasks.size⟩ :: (below ++ others) : List TaskId).length := by
  have hadded := appends_stampHead.trans happends
  have htasks := hadded.tasks_size
  have horigins := hadded.origins_size
  have hx : g₂.HasTask ⟨g.tasks.size⟩ := by
    show g.tasks.size < g₂.tasks.size
    omega
  have ho : g₂.HasOrigin ⟨g.origins.size⟩ := by
    show g.origins.size < g₂.origins.size
    omega
  have htask : g₁.task ⟨g.tasks.size⟩ =
      ⟨declaredName (entries.get? "name"), children, declaredVars (entries.get? "vars"),
      entries, ⟨g.origins.size⟩, parent, context.role, context.play, none⟩ := by
    rw [happends'.task _ (hasTask_modifyTask.2 hx), task_modifyTask_self hx,
      happends.task _ hasTask_stampHead, task_stampHead]
  have horigin : g₁.origin ⟨g.origins.size⟩ =
      ⟨.task, context.path, range, declaredName (entries.get? "name"), o⟩ := by
    have hhead : (g.stampHead context o parent range (declaredName (entries.get? "name"))
        (declaredVars (entries.get? "vars")) entries).HasOrigin ⟨g.origins.size⟩ :=
      hasOrigin_addOrigin.2 (.inl rfl)
    exact (happends'.origin _ ho).trans ((happends.origin _ hhead).trans origin_stampHead)
  -- what is below the task stays while its block is put in and the other tasks are added
  have hsame : ∀ y ∈ below, g₁.task y = g₂.task y ∧
      g₁.origin (g₂.task y).origin = g₂.origin (g₂.task y).origin := by
    intro y hy
    obtain ⟨hindex, hplace⟩ := hnumbered.mem hy
    have hne : y ≠ ⟨g.tasks.size⟩ := by
      rintro rfl
      exact absurd hindex.1 (Nat.not_succ_le_self _)
    have hy₂ : g₂.HasTask y := by
      show y.index < g₂.tasks.size
      omega
    refine ⟨?_, happends'.origin _ ?_⟩
    · rw [happends'.task _ (hasTask_modifyTask.2 hy₂), task_modifyTask_of_ne hne]
    · show (g₂.task y).origin.index < g₂.origins.size
      omega
  refine ⟨.cons ?_ hitems ?_ hothers, .cons rfl (by rw [htask]) (hnumbered.of_same fun y hy =>
    (hsame y hy).1) hnumbered', ?_⟩
  · constructor <;> rw [htask]
    exact ⟨range, horigin⟩
  · rw [htask]
    exact hbelow.of_same hsame
  · rw [List.length_cons, List.length_append, Nat.add_comm _ 1, ← Nat.add_assoc]
    exact (hadded.modifyTask (lt_irrefl _) _).trans happends'

/-- **Declared tasks become a forest** behind everything else. -/
theorem stampTasks_forest {ds : List TaskDeclaration} {items : List Json} (h : Declares ds items)
    (g : Graph) (o : Option OriginId) (parent : Option TaskId) : ∃ ids,
      (g.stampTasks context o parent ds).2.Forest context o parent
        (g.stampTasks context o parent ds).1 items ids ∧
      (g.stampTasks context o parent ds).2.Numbered g.tasks.size g.origins.size ids ∧
      g.Appends (g.stampTasks context o parent ds).2 ids.length := by
  induction h generalizing g o parent with
  | nil => exact ⟨[], .nil, ⟨rfl, rfl⟩, .refl g⟩
  | @cons range entries items rest block ds hitems _ _ ihblock ihrest =>
    -- the block is stamped behind the head of its task, and the rest of the list behind the block
    rw [stampTasks, stampTask_eq]
    obtain ⟨below, hbelow, hnumbered, happends⟩ := ihblock
      (g.stampHead context o parent range (declaredName (entries.get? "name"))
        (declaredVars (entries.get? "vars")) entries)
      (some ⟨g.origins.size⟩) (some ⟨g.tasks.size⟩)
    generalize Graph.stampTasks context (some ⟨g.origins.size⟩) (some ⟨g.tasks.size⟩)
      (g.stampHead context o parent range _ _ entries) block = inner at *
    obtain ⟨children, g₂⟩ := inner
    obtain ⟨others, hothers, hnumbered', happends'⟩ :=
      ihrest (g₂.modifyTask ⟨g.tasks.size⟩ fun t => { t with block := children }) o parent
    have hadded := (appends_stampHead.trans happends).modifyTask (x := ⟨g.tasks.size⟩) (lt_irrefl _)
      fun t => { t with block := children }
    rw [hadded.tasks_size, hadded.origins_size] at hnumbered'
    rw [appends_stampHead.tasks_size, appends_stampHead.origins_size] at hnumbered
    exact ⟨_, Forest.stamped hitems hbelow hnumbered happends hothers hnumbered' happends'⟩

end Graph

/-! ## Loading -/

/-- **A file of tasks becomes the forest that its document says**, or the state is as before. -/
theorem loadTasks_forest (site : Site) (o : Option OriginId) (role : Option RoleId)
    (path : FilePath) (s : Store) :
    Ends (loadTasks site o role path) s
      (fun xs s' => ∃ text document items ids, site.disk.read path = .ok text ∧
        Document.read? text = some document ∧
        taskMappings? (some document.value) = some items ∧
        s'.graph.Forest ⟨path, role, none⟩ o none xs items ids ∧
        s'.graph.Numbered s.graph.tasks.size s.graph.origins.size ids ∧
        s.graph.Appends s'.graph ids.length ∧ s'.roleDirs = s.roleDirs ∧ s'.notices = s.notices)
      fun _ s' => s' = s := by
  unfold loadTasks loadTasksIn readFile
  rw [ends_bind]
  cases hread : site.disk.read path with
  | error e => exact rfl
  | ok text =>
    rw [ends_pure]
    cases hdeclared : Declaration.ofText Declaration.taskList text with
    | error e => exact rfl
    | ok ds =>
      obtain ⟨document, hdocument, hds⟩ : ∃ document, Document.read? text = some document ∧
          Declaration.taskList document = .ok ds := by
        unfold Declaration.ofText at hdeclared
        split at hdeclared
        · rename_i document hdocument
          exact ⟨document, hdocument, hdeclared⟩
        · cases hdeclared
      obtain ⟨items, hitems, hdeclares⟩ := Declaration.declares_tasks hds
      obtain ⟨ids, hforest, hnumbered, happends⟩ := Graph.stampTasks_forest hdeclares s.graph o none
      exact ⟨text, document, items, ids, rfl, hdocument, hitems, hforest, hnumbered,
        happends, rfl, rfl⟩

end Runlist
