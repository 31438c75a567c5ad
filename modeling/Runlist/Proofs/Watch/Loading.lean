import Runlist.Proofs.Watch.Course
import Runlist.Proofs.Watch.Load

/-!
# Loading is legal

Every step of loading goes on by a course, given handles of entities. What it adds it completes
itself, and to what was there it adds what is remembered only.

* `Accepts`: where tasks may be added. `Fresh`: an entity that was added since.
* `legal_tasksIn`, `legal_roleWith`, `legal_playbook`: **files of tasks, roles and playbooks.**
* `legal_direct`, `legal_all`: dependencies, which are remembered where none were.
* `legal_taskVars`, `legal_module`, `legal_text`: variables, which are remembered where none were.
-/

namespace Runlist

open Runlist.Graph (Spans Write Writes Within WellFormedTask WellFormedRole TaskChange RoleChange)

variable {L : Limits} {site : Site} {t : Tape Store Look} {g g' : Graph}

/-! ## Tasks -/

/-- **Where tasks may be added**: in the scope, inside the origin and below the parent. -/
structure Accepts (L : Limits) (g : Graph) (context : TaskContext) (origin : Option OriginId)
    (parent : Option TaskId) : Prop where
  origin : ∀ o, origin = some o → g.HasOrigin o
  parent : ∀ p, parent = some p → g.HasTask p ∧ L.parents ≤ p.index
  role : ∀ r, context.role = some r → g.HasRole r
  play : ∀ p, context.play = some p → g.HasPlay p

theorem Accepts.spans {context : TaskContext} {origin : Option OriginId} {parent : Option TaskId}
    (h : Accepts L g context origin parent) (hg : g.Spans g') :
    Accepts L g' context origin parent where
  origin o ho := hg.hasOrigin (h.origin o ho)
  parent p hp := ⟨hg.hasTask (h.parent p hp).1, (h.parent p hp).2⟩
  role r hr := hg.hasRole (h.role r hr)
  play p hp := hg.hasPlay (h.play p hp)

/-- The task was added when there were `n` tasks or more. -/
def Fresh (n : Nat) (x : TaskId) (g : Graph) : Prop := n ≤ x.index ∧ g.HasTask x

theorem Fresh.writes {n : Nat} (x : TaskId) (g g' : Graph) (hw : Writes L g g') (h : Fresh n x g) :
    Fresh n x g' := ⟨h.1, hw.spans.hasTask h.2⟩

theorem Fresh.of_le {m n : Nat} {x : TaskId} (h : Fresh n x g) (hmn : m ≤ n) : Fresh m x g :=
  ⟨hmn.trans h.1, h.2⟩

mutual
theorem legal_stampTask (context : TaskContext) (origin : Option OriginId)
    (parent : Option TaskId) :
    ∀ (d : TaskDeclaration) (t : Tape Store Look), Began L t.graph →
      Accepts L t.graph context origin parent →
      Legal L (watchStampTask context origin parent d) t (Fresh t.graph.tasks.size)
  | ⟨range, name, vars, raw, block⟩, t, hb, ha => by
    rw [watchStampTask]
    refine legal_bind (legal_change (.addOrigin fun p hp => ⟨ha.origin p hp, ha.origin p hp⟩))
      fun o t₁ h₁ hq₁ => ?_
    have ha₁ := ha.spans h₁.spans
    have ho : t₁.graph.HasOrigin o := by
      rw [hq₁.1, hq₁.2]; exact Graph.hasOrigin_addOrigin.2 (.inl rfl)
    refine legal_bind
      (legal_change (.addTask ⟨ho, fun p hp => ⟨(ha₁.parent p hp).1, (ha₁.parent p hp).1⟩,
      fun _ hc => (List.not_mem_nil hc).elim, ha₁.role, ha₁.play⟩ fun p hp =>
        (ha₁.parent p hp).2)) ?_
    intro id t₂ h₂ hq₂
    have hid : id.index = t₁.graph.tasks.size := congrArg TaskId.index hq₂.1
    have hhas : t₂.graph.HasTask id := by
      rw [hq₂.2]; exact Graph.hasTask_addTask.2 (.inl hid)
    have hnew : L.start.tasks.size ≤ id.index := by
      rw [hid]; exact (hb.continues h₁).spans.tasks
    -- the task itself is a parent that the limits allow, since it is new
    have ha₂ : Accepts L t₂.graph context (some o) (some id) := by
      refine ⟨?_, ?_, (ha₁.spans h₂.spans).role, (ha₁.spans h₂.spans).play⟩
      · rintro _ ⟨⟩; exact h₂.spans.hasOrigin ho
      · rintro _ ⟨⟩; exact ⟨hhas, hb.parents.trans hnew⟩
    refine legal_bind (legal_stampTasks context (some o) (some id) block t₂
      ((hb.continues h₁).continues h₂) ha₂) fun children t₃ h₃ hchildren => ?_
    have hhas₃ : t₃.graph.HasTask id := h₃.spans.hasTask hhas
    refine legal_bind (legal_update (.task id) hhas₃ (.changeTask (fun ht => ?_) ?_))
      fun _ t₄ h₄ _ => ?_
    · exact { ht with block := fun c hc => ⟨(hchildren c hc).2, hhas.trans_le (hchildren c hc).1⟩ }
    · exact ⟨fun hold => absurd hold (not_lt.2 hnew), fun _ => rfl, fun _ h => h, fun _ h => h,
        fun _ h => .inl h⟩
    · exact legal_pure ⟨h₁.spans.tasks.trans hid.ge, h₄.spans.hasTask hhas₃⟩

theorem legal_stampTasks (context : TaskContext) (origin : Option OriginId)
    (parent : Option TaskId) :
    ∀ (ds : List TaskDeclaration) (t : Tape Store Look), Began L t.graph →
      Accepts L t.graph context origin parent →
      Legal L (watchStampTasks context origin parent ds) t fun xs g =>
        ∀ x ∈ xs, Fresh t.graph.tasks.size x g
  | [], t, _, _ => by
    rw [watchStampTasks]
    exact legal_pure fun _ hx => (List.not_mem_nil hx).elim
  | d :: ds, t, hb, ha => by
    rw [watchStampTasks]
    refine legal_bind (legal_stampTask context origin parent d t hb ha) fun x t₁ h₁ hx => ?_
    refine legal_bind
      (legal_stampTasks context origin parent ds t₁ (hb.continues h₁) (ha.spans h₁.spans)) ?_
    intro xs t₂ h₂ hxs
    refine legal_pure fun y hy => ?_
    rcases List.mem_cons.1 hy with rfl | hy
    · exact hx.writes _ _ _ h₂.writes
    · exact (hxs y hy).of_le h₁.spans.tasks
end

theorem quiet_readFile (path : FilePath) : Quiet (readFile site path) := by
  unfold readFile
  split
  · exact quiet_pure _
  · exact quiet_throw _

/-- **The tasks of a file** are added where tasks may be added. -/
theorem legal_tasksIn {origin : Option OriginId} {role : Option RoleId} {play : Option PlayId}
    {path : FilePath} (hb : Began L t.graph)
    (ha : Accepts L t.graph ⟨path, role, play⟩ origin none) :
    Legal L (watchTasksIn site origin role play path) t fun xs g =>
      ∀ x ∈ xs, Fresh t.graph.tasks.size x g := by
  refine legal_bind (legal_aside (quiet_readFile path)) fun text t₁ h₁ _ => ?_
  cases Declaration.ofText Declaration.taskList text with
  | error e => exact legal_throw _
  | ok ds =>
    refine (legal_stampTasks _ _ _ ds t₁ (hb.continues h₁) (ha.spans h₁.spans)).mono
      fun xs g _ hxs x hx => ?_
    exact (hxs x hx).of_le h₁.spans.tasks

/-! ## Roles -/

theorem legal_reference {path : FilePath} {o : OriginId} (ho : t.graph.HasOrigin o)
    (r : RoleReference) : Legal L (watchReference path o r) t fun d g => g.HasOrigin d.origin := by
  refine legal_bind (legal_change (.addOrigin ?_)) fun id t₁ _ hq₁ => legal_pure ?_
  · rintro _ ⟨⟩; exact ⟨ho, ho⟩
  · rw [hq₁.1, hq₁.2]; exact Graph.hasOrigin_addOrigin.2 (.inl rfl)

theorem legal_references {path : FilePath} {o : OriginId} (ho : t.graph.HasOrigin o)
    (rs : List RoleReference) :
    Legal L (rs.mapM (watchReference path o)) t fun ds g => ∀ d ∈ ds, g.HasOrigin d.origin :=
  legal_mapM (P := fun (d : RoleDefinition) g => g.HasOrigin d.origin)
    (fun _ _ _ hw h => hw.spans.hasOrigin h)
    fun r _ _ h' => legal_reference (h'.spans.hasOrigin ho) r

theorem legal_meta {path : FilePath} {o : OriginId} (ho : t.graph.HasOrigin o)
    (m : MetaDeclaration) :
    Legal L (watchMeta path o m) t fun declared g =>
      (∀ o, declared.origin = some o → g.HasOrigin o) ∧
        ∀ d ∈ declared.dependencies, g.HasOrigin d.origin := by
  refine legal_bind (legal_change (.addOrigin ?_)) fun id t₁ _ hq₁ => ?_
  · rintro _ ⟨⟩; exact ⟨ho, ho⟩
  have hid : t₁.graph.HasOrigin id := by
    rw [hq₁.1, hq₁.2]; exact Graph.hasOrigin_addOrigin.2 (.inl rfl)
  refine legal_bind (legal_references hid m.dependencies) fun ds t₂ h₂ hds => legal_pure ⟨?_, hds⟩
  rintro _ ⟨⟩; exact h₂.spans.hasOrigin hid

theorem quiet_loadRoleVars (path : FilePath) : Quiet (loadRoleVars site path) := by
  unfold loadRoleVars
  split
  · exact quiet_pure _
  · exact quiet_bind (quiet_note _) fun _ => quiet_pure _

/-- **A role that is being loaded** is one that the operation has added. -/
structure Loading (L : Limits) (g : Graph) (r : RoleId) : Prop where
  has : g.HasRole r
  new : ¬ L.start.HasRole r

theorem Loading.continues {r : RoleId} (h : Loading L t.graph r) {t₁ : Tape Store Look}
    (h₁ : Continues L t t₁) :
    Loading L t₁.graph r := ⟨h₁.spans.hasRole h.has, h.new⟩

/-- What is filled into a role that is being loaded: new tasks, and whatever is no memory. -/
theorem legal_fill {r : RoleId} (h : Loading L t.graph r) {f : Role → Role}
    (hwell : ∀ q, WellFormedRole t.graph r q → WellFormedRole t.graph r (f q))
    (hmemory : ∀ q, (f q).directDependencies = q.directDependencies ∧
      (f q).allDependencies = q.allDependencies)
    (htasks : ∀ q, ∀ x ∈ (f q).tasks, x ∈ q.tasks ∨ ¬ L.start.HasTask x) :
    Legal L (Watch.update (.role r) fun g => g.modifyRole r f) t fun _ _ => True := by
  refine (legal_update (.role r) h.has (.changeRole (hwell _) ?_)).mono fun _ _ _ _ => trivial
  exact ⟨fun hold => absurd hold h.new, fun _ => hmemory _, fun ds hds => (hmemory _).1.trans hds,
    fun ds hds => (hmemory _).2.trans hds, htasks _⟩

theorem legal_roleFile {selection : RoleSelection} {r : RoleId} (hb : Began L t.graph)
    (hr : Loading L t.graph r) (folder : String) (file : List String) (path : FilePath) :
    Legal L (watchRoleFile site selection r folder file path) t fun _ _ => True := by
  refine legal_bind (legal_look fun m hm => ?_) fun g t₁ h₁ hg => ?_
  · rw [List.mem_singleton.1 hm]; exact hr.has
  obtain ⟨hg, -⟩ := hg
  have hb₁ := hb.continues h₁
  have hr₁ := hr.continues h₁
  have hrole : WellFormedRole t₁.graph r (g.role r) := by
    rw [hg]; exact (hb.wellFormed.roles r hr.has).spans h₁.spans
  simp only
  split
  · split
    · have ha :
          Accepts L t₁.graph ⟨path, some r, (g.role r).play⟩ (some (g.role r).origin) none := by
        refine ⟨?_, ?_, ?_, hrole.play⟩
        · rintro _ ⟨⟩; exact hrole.origin
        · rintro _ ⟨⟩
        · rintro _ ⟨⟩; exact hr₁.has
      refine legal_bind (legal_tasksIn hb₁ ha) fun xs t₂ h₂ hxs => ?_
      refine legal_fill (hr₁.continues h₂) (fun q hq => ?_) (fun _ => ⟨rfl, rfl⟩) fun q x hx => ?_
      · refine { hq with tasks := fun x hx => ?_ }
        rcases List.mem_append.1 hx with hx | hx
        · exact hq.tasks x hx
        · exact (hxs x hx).2
      · refine (List.mem_append.1 hx).imp id fun hx hold => ?_
        exact absurd (hb₁.spans.hasTask hold) (not_lt.2 (hxs x hx).1)
    · exact legal_pure trivial
  · split
    · refine legal_bind (legal_aside (quiet_loadRoleVars path)) fun vars t₂ h₂ _ => ?_
      exact legal_fill (hr₁.continues h₂) (fun q hq => { hq with }) (fun _ => ⟨rfl, rfl⟩)
        fun _ _ hx => .inl hx
    · exact legal_pure trivial
  · split
    · refine legal_bind (legal_aside (quiet_loadRoleVars path)) fun vars t₂ h₂ _ => ?_
      exact legal_fill (hr₁.continues h₂) (fun q hq => { hq with }) (fun _ => ⟨rfl, rfl⟩)
        fun _ _ hx => .inl hx
    · exact legal_pure trivial
  · split
    · split
      · rename_i declaration _
        refine legal_bind (legal_meta hrole.origin declaration) fun declared t₂ h₂ hdeclared => ?_
        exact legal_fill (hr₁.continues h₂)
          (fun q hq => { hq with declared := hdeclared.1, definitions := hdeclared.2 })
          (fun _ => ⟨rfl, rfl⟩) fun _ _ hx => .inl hx
      · exact (legal_aside (quiet_note _)).mono fun _ _ _ _ => trivial
    · exact legal_pure trivial
  · exact legal_pure trivial

theorem legal_roleFiles {selection : RoleSelection} {r : RoleId} (hb : Began L t.graph)
    (hr : Loading L t.graph r) (dir : FilePath) :
    Legal L (watchRoleFiles site selection r dir) t fun _ _ => True := by
  unfold watchRoleFiles
  split
  · exact legal_throw _
  · refine legal_forM fun names _ t₁ h₁ => ?_
    cases names with
    | nil => exact legal_pure trivial
    | cons folder file => exact legal_roleFile (hb.continues h₁) (hr.continues h₁) folder file _

/-- A role that was added when there were `n` roles or more. -/
def FreshRole (n : Nat) (r : RoleId) (g : Graph) : Prop := n ≤ r.index ∧ g.HasRole r

theorem FreshRole.writes {n : Nat} (r : RoleId) (g g' : Graph) (hw : Writes L g g')
    (h : FreshRole n r g) :
    FreshRole n r g' := ⟨h.1, hw.spans.hasRole h.2⟩

theorem legal_newRole {origin : Option OriginId} {play : Option PlayId}
    (ho : ∀ o, origin = some o → t.graph.HasOrigin o) (hp : ∀ p, play = some p → t.graph.HasPlay p)
    (name : String) (dir : FilePath) (isPublic : Bool) :
    Legal L (watchNewRole origin play name dir isPublic) t (FreshRole t.graph.roles.size) := by
  refine legal_bind (legal_change (.addOrigin fun p hp => ⟨ho p hp, ho p hp⟩)) fun o t₁ h₁ hq₁ => ?_
  have ho₁ : t₁.graph.HasOrigin o := by
    rw [hq₁.1, hq₁.2]; exact Graph.hasOrigin_addOrigin.2 (.inl rfl)
  refine (legal_change (.addRole ?_ rfl)).mono ?_
  · exact {
      origin := ho₁
      play := fun p h => h₁.spans.hasPlay (hp p h)
      tasks := fun _ hx => (List.not_mem_nil hx).elim
      declared := fun _ h => (Option.some_ne_none _ h.symm).elim
      definitions := fun _ hd => (List.not_mem_nil hd).elim
      direct := fun _ h => (Option.some_ne_none _ h.symm).elim
      all := fun _ h => (Option.some_ne_none _ h.symm).elim }
  rintro r g - ⟨hr, hg⟩
  refine ⟨h₁.spans.roles.trans (congrArg RoleId.index hr).ge, ?_⟩
  rw [hr, hg]; exact Graph.hasRole_addRole.2 (.inl rfl)

/-- **A role** is added, and completed with its files. -/
theorem legal_roleWith {origin : Option OriginId} {play : Option PlayId} (hb : Began L t.graph)
    (ho : ∀ o, origin = some o → t.graph.HasOrigin o) (hp : ∀ p, play = some p → t.graph.HasPlay p)
    (name : String) (selection : RoleSelection) :
    Legal L (watchRoleWith site origin play name selection) t (FreshRole t.graph.roles.size) := by
  refine legal_bind (legal_aside quiet_get) fun s t₁ h₁ _ => ?_
  refine legal_bind (legal_aside (quiet_ofExcept _)) fun dir t₂ h₂ _ => ?_
  have h₂ := h₁.trans h₂
  refine legal_bind (legal_newRole (fun o h => h₂.spans.hasOrigin (ho o h))
    (fun p h => h₂.spans.hasPlay (hp p h)) name dir _) fun r t₃ h₃ hr => ?_
  have hloading : Loading L t₃.graph r :=
    ⟨hr.2, not_lt.2 ((hb.continues h₂).spans.roles.trans hr.1)⟩
  refine legal_bind (legal_roleFiles (hb.continues (h₂.trans h₃)) hloading dir) fun _ t₄ h₄ _ => ?_
  have hquiet : Quiet (modify fun s : Store => s.addRoleDir name dir) := by
    intro s
    rw [ends_modify]
    rfl
  refine legal_bind (legal_aside hquiet) fun _ t₅ h₅ _ => legal_pure ⟨h₂.spans.roles.trans hr.1, ?_⟩
  exact (h₄.trans h₅).spans.hasRole hr.2

theorem legal_definitions {play : Option PlayId} {ds : List RoleDefinition} (hb : Began L t.graph)
    (hp : ∀ p, play = some p → t.graph.HasPlay p) (hds : ∀ d ∈ ds, t.graph.HasOrigin d.origin) :
    Legal L (watchDefinitions site play ds) t fun rs g =>
      ∀ r ∈ rs, FreshRole t.graph.roles.size r g := by
  refine legal_mapM FreshRole.writes fun d hd t₁ h₁ => ?_
  refine (legal_roleWith (hb.continues h₁) ?_ (fun p h => h₁.spans.hasPlay (hp p h)) d.name
    .main).mono ?_
  · rintro _ ⟨⟩; exact h₁.spans.hasOrigin (hds d hd)
  · exact fun r g _ hr => ⟨h₁.spans.roles.trans hr.1, hr.2⟩

/-! ## Playbooks -/

theorem legal_newPlay {origin : Option OriginId} (ho : ∀ o, origin = some o → t.graph.HasOrigin o)
    (path : FilePath) (d : PlayDeclaration) :
    Legal L (watchNewPlay path origin d) t fun p g =>
      t.graph.plays.size ≤ p.1.index ∧ g.HasPlay p.1 ∧ g.HasOrigin p.2 := by
  refine legal_bind (legal_change (.addOrigin fun p hp => ⟨ho p hp, ho p hp⟩)) fun o t₁ h₁ hq₁ => ?_
  have ho₁ : t₁.graph.HasOrigin o := by
    rw [hq₁.1, hq₁.2]; exact Graph.hasOrigin_addOrigin.2 (.inl rfl)
  refine legal_bind (legal_change (.addPlay ?_)) fun p t₂ h₂ hq₂ =>
    legal_pure ⟨?_, ?_, h₂.spans.hasOrigin ho₁⟩
  · exact {
      origin := ho₁
      preTasks := fun _ hx => (List.not_mem_nil hx).elim
      mainTasks := fun _ hx => (List.not_mem_nil hx).elim
      postTasks := fun _ hx => (List.not_mem_nil hx).elim
      roles := fun _ hr => (List.not_mem_nil hr).elim
      definitions := fun _ hd => (List.not_mem_nil hd).elim }
  · exact h₁.spans.plays.trans (congrArg PlayId.index hq₂.1).ge
  · rw [hq₂.1, hq₂.2]; exact Graph.hasPlay_addPlay.2 (.inl rfl)

/-- **A play** is added, and completed with its tasks and roles. -/
theorem legal_play {origin : Option OriginId} (hb : Began L t.graph)
    (ho : ∀ o, origin = some o → t.graph.HasOrigin o) (path : FilePath) (d : PlayDeclaration) :
    Legal L (watchPlay site path origin d) t fun p g => g.HasPlay p := by
  refine legal_bind (legal_newPlay ho path d) fun p t₁ h₁ hq₁ => ?_
  obtain ⟨hsize, hp, ho₁⟩ := hq₁
  have hb₁ := hb.continues h₁
  have hnew : ¬ L.start.HasPlay p.1 := not_lt.2 (hb.spans.plays.trans hsize)
  have ha : Accepts L t₁.graph ⟨path, none, some p.1⟩ (some p.2) none := by
    refine ⟨?_, ?_, ?_, ?_⟩
    · rintro _ ⟨⟩; exact ho₁
    · rintro _ ⟨⟩
    · rintro _ ⟨⟩
    · rintro _ ⟨⟩; exact hp
  refine legal_bind (legal_stampTasks _ _ _ d.preTasks t₁ hb₁ ha) fun pre t₂ h₂ hpre => ?_
  have ha₂ := ha.spans h₂.spans
  have hb₂ := hb₁.continues h₂
  refine legal_bind (legal_stampTasks _ _ _ d.mainTasks t₂ hb₂ ha₂) fun main t₃ h₃ hmain => ?_
  have ha₃ := ha₂.spans h₃.spans
  have hb₃ := hb₂.continues h₃
  refine legal_bind (legal_stampTasks _ _ _ d.postTasks t₃ hb₃ ha₃) fun post t₄ h₄ hpost => ?_
  have h₁₄ := (h₂.trans h₃).trans h₄
  refine legal_bind (legal_references (h₁₄.spans.hasOrigin ho₁) d.roles) fun ds t₅ h₅ hds => ?_
  have h₁₅ := h₁₄.trans h₅
  have hplay : ∀ q, some p.1 = some q → t₅.graph.HasPlay q := by
    rintro _ ⟨⟩; exact h₁₅.spans.hasPlay hp
  refine legal_bind (legal_definitions (hb₁.continues h₁₅) hplay hds) fun rs t₆ h₆ hrs => ?_
  have hp₆ : t₆.graph.HasPlay p.1 := (h₁₅.trans h₆).spans.hasPlay hp
  refine legal_bind (legal_update (.play p.1) hp₆ (.changePlay (fun hq => ?_) hnew)) ?_
  · exact { hq with
      preTasks := fun x hx => (((h₃.trans h₄).trans h₅).trans h₆).spans.hasTask (hpre x hx).2
      mainTasks := fun x hx => ((h₄.trans h₅).trans h₆).spans.hasTask (hmain x hx).2
      postTasks := fun x hx => (h₅.trans h₆).spans.hasTask (hpost x hx).2
      roles := fun r hr => (hrs r hr).2
      definitions := fun d hd => h₆.spans.hasOrigin (hds d hd) }
  · exact fun _ t₇ h₇ _ => legal_pure (h₇.spans.hasPlay hp₆)

theorem legal_playbook {origin : Option OriginId} (hb : Began L t.graph)
    (ho : ∀ o, origin = some o → t.graph.HasOrigin o) (path : FilePath) :
    Legal L (watchPlaybook site origin path) t fun pb g => ∀ p ∈ pb.plays, g.HasPlay p := by
  refine legal_bind (legal_aside (quiet_readFile path)) fun text t₁ h₁ _ => ?_
  cases Declaration.ofText Declaration.playbook text with
  | error e =>
    refine legal_bind (legal_aside (quiet_note _)) fun _ _ _ _ => legal_pure fun _ hp => ?_
    exact (List.not_mem_nil hp).elim
  | ok ds =>
    refine legal_bind
      (legal_mapM (P := fun p g => g.HasPlay p) (fun _ _ _ hw h => hw.spans.hasPlay h)
      fun d _ t₂ h₂ => ?_) fun ps t₃ _ hps => legal_pure hps
    exact legal_play ((hb.continues h₁).continues h₂)
      (fun o h => (h₁.trans h₂).spans.hasOrigin (ho o h)) path d

/-! ## Dependencies -/

/-- **The direct dependencies of a role** are younger than the role. They are remembered where none
were, and nothing else is. -/
theorem legal_direct {r : RoleId} (hb : Began L t.graph) (hr : t.graph.HasRole r)
    (hfrom : L.dependencies ≤ r.index) :
    Legal L (watchDirect site r) t fun ds g => (∀ d ∈ ds, g.HasRole d ∧ r.index < d.index) ∧
      (g.role r).allDependencies = (t.graph.role r).allDependencies := by
  refine legal_bind (legal_look fun m hm => ?_) fun g t₁ h₁ hg => ?_
  · rw [List.mem_singleton.1 hm]; exact hr
  obtain ⟨rfl, hg₁⟩ := hg
  have hb₁ := hb.continues h₁
  have hr₁ := h₁.spans.hasRole hr
  have hrole := hb₁.wellFormed.roles r hr₁
  rw [← hg₁]
  simp only
  cases hd : (t₁.graph.role r).directDependencies with
  | some known => exact legal_pure ⟨hrole.direct known hd, rfl⟩
  | none =>
    -- no role that was there is written to while the dependencies are loaded
    have hpart : Within L ⟨t₁.graph, L.parents, L.vars, t₁.graph.roles.size⟩ :=
      hb₁.within_part le_rfl (hfrom.trans (le_of_lt hr₁))
    refine legal_bind
      ((legal_definitions (hb₁.part _ _) hrole.play hrole.definitions).within hpart) ?_
    rintro found t₂ h₂ ⟨hfound, hwrites⟩
    have hsame : t₂.graph.role r = t₁.graph.role r := hwrites.role hr₁ hr₁ hr₁
    have hr₂ := h₂.spans.hasRole hr₁
    have hnew : ∀ d ∈ found, t₂.graph.HasRole d ∧ r.index < d.index :=
      fun d hmem => ⟨(hfound d hmem).2, hr₁.trans_le (hfound d hmem).1⟩
    refine legal_bind (legal_update (.role r) hr₂ (.changeRole (fun hq => ?_) ?_)) ?_
    · refine { hq with direct := fun ds hds => ?_ }
      cases hds; exact hnew
    · refine ⟨fun _ => rfl, fun hlt => absurd hlt (not_lt.2 hfrom), fun ds hds => ?_, fun _ h => h,
        fun _ hx => .inl hx⟩
      rw [hsame, hd] at hds; cases hds
    · intro _ t₃ h₃ hg₃
      refine legal_pure ⟨fun d hmem => ⟨h₃.spans.hasRole (hnew d hmem).1, (hnew d hmem).2⟩, ?_⟩
      rw [hg₃, Graph.role_modifyRole_self hr₂, hsame]

/-- **All dependencies of a role** are remembered where none were. While they are collected, only
younger roles are written to. -/
theorem legal_collect (n : Nat) {r : RoleId} (path : List String) (hb : Began L t.graph)
    (hr : t.graph.HasRole r) (hfrom : L.dependencies ≤ r.index) :
    Legal L (watchCollect site n r path) t fun ds g => ∀ d ∈ ds, g.HasRole d := by
  induction n generalizing L t r path with
  | zero => exact legal_throw _
  | succ n ih =>
    have hlook : ∀ g : Graph, g.HasRole r → ∀ m ∈ [Handle.role r], g.Has m := by
      intro g hg m hm
      rw [List.mem_singleton.1 hm]; exact hg
    refine legal_bind (legal_look (hlook _ hr)) fun g t₁ h₁ hg => ?_
    obtain ⟨rfl, hg₁⟩ := hg
    have hr₁ := h₁.spans.hasRole hr
    have hb₁ := hb.continues h₁
    rw [← hg₁]
    cases hall : (t₁.graph.role r).allDependencies with
    | some known => exact legal_pure ((hb₁.wellFormed.roles r hr₁).all known hall)
    | none =>
      refine legal_bind (legal_look (hlook _ hr₁)) fun _ t₂ h₂ hg₂ => ?_
      refine legal_bind (legal_aside (quiet_ofExcept _)) fun path t₃ h₃ hg₃ => ?_
      have h₁₃ := h₂.trans h₃
      have hgraph : t₃.graph = t₁.graph := hg₃.trans hg₂.2
      have hr₃ := h₁₃.spans.hasRole hr₁
      refine legal_bind (legal_direct (hb₁.continues h₁₃) hr₃ hfrom) fun direct t₄ h₄ hq₄ => ?_
      obtain ⟨hdirect, hsame⟩ := hq₄
      have hb₄ := (hb₁.continues h₁₃).continues h₄
      have hr₄ := h₄.spans.hasRole hr₃
      -- what is collected from younger roles leaves this one as it is
      have hbelow : Legal ⟨t₄.graph, L.parents, L.vars, r.index + 1⟩ (concatEach (fun dep => do
          let below ← watchCollect site n dep path
          return below ++ [dep]) direct) t₄ fun ds g => ∀ d ∈ ds, g.HasRole d := by
        refine legal_concatEach (P := fun d g => g.HasRole d)
          (fun _ _ _ hw h => hw.spans.hasRole h) ?_
        intro dep hdep t' h'
        have hdep' := h'.spans.hasRole (hdirect dep hdep).1
        refine legal_bind (ih path ((hb₄.part _ _).continues h') hdep' (hdirect dep hdep).2) ?_
        intro below t'' h'' hbelow
        refine legal_pure fun d hd => ?_
        rcases List.mem_append.1 hd with hd | hd
        · exact hbelow d hd
        · rw [List.mem_singleton.1 hd]; exact h''.spans.hasRole hdep'
      refine legal_bind (hbelow.within (hb₄.within_part le_rfl (hfrom.trans (Nat.le_succ _)))) ?_
      rintro found t₅ h₅ ⟨hfound, hwrites⟩
      have hr₅ := h₅.spans.hasRole hr₄
      have hnone : (t₅.graph.role r).allDependencies = none := by
        rw [hwrites.role hr₄ hr₄ (Nat.lt_succ_self _), hsame, hgraph, hall]
      refine legal_bind (legal_update (.role r) hr₅ (.changeRole (fun hq => ?_) ?_)) ?_
      · refine { hq with all := fun ds hds => ?_ }
        cases hds; exact hfound
      · refine ⟨fun _ => rfl, fun hlt => absurd hlt (not_lt.2 hfrom), fun _ h => h,
          fun ds hds => ?_,
          fun _ hx => .inl hx⟩
        rw [hnone] at hds; cases hds
      · exact fun _ t₆ h₆ _ => legal_pure fun d hd => h₆.spans.hasRole (hfound d hd)

theorem legal_all {r : RoleId} (hb : Began L t.graph) (hr : t.graph.HasRole r)
    (hfrom : L.dependencies ≤ r.index) :
    Legal L (watchAll site r) t fun ds g => ∀ d ∈ ds, g.HasRole d := by
  refine legal_bind (legal_aside quiet_get) fun s t₁ h₁ _ => ?_
  exact legal_collect _ [] (hb.continues h₁) (h₁.spans.hasRole hr) hfrom

theorem legal_defaultVars {r : RoleId} (hb : Began L t.graph) (hr : t.graph.HasRole r)
    (hfrom : L.dependencies ≤ r.index) : Legal L (watchDefaultVars site r) t fun _ _ => True := by
  refine legal_bind (legal_all hb hr hfrom) fun found t₁ h₁ hfound => ?_
  refine legal_bind (legal_look fun m hm => ?_) fun _ _ _ _ => legal_pure trivial
  obtain ⟨q, hq, rfl⟩ := List.mem_map.1 hm
  rcases List.mem_append.1 hq with hq | hq
  · exact hfound q hq
  · rw [List.mem_singleton.1 hq]; exact h₁.spans.hasRole hr

/-! ## Variables -/

/-- The roles whose defaults count are there. -/
theorem Graph.WellFormed.hasRole_defaultRoles (hg : g.WellFormed) {play : Option PlayId}
    {task : Option TaskId} (hp : ∀ p, play = some p → g.HasPlay p)
    (hx : ∀ x, task = some x → g.HasTask x) : ∀ r ∈ g.defaultRoles play task, g.HasRole r := by
  intro r hr
  unfold Graph.defaultRoles at hr
  rcases List.mem_append.1 hr with hr | hr
  · cases play with
    | none => cases hr
    | some p => exact (hg.plays p (hp p rfl)).roles r hr
  · have hown := Option.mem_toList.1 (List.mem_filter.1 hr).1
    obtain ⟨x, hx', hrole⟩ := Option.bind_eq_some_iff.1 hown
    exact (hg.tasks x (hx x hx')).role r hrole

theorem Graph.WellFormed.hasPlay_taskPlay (hg : g.WellFormed) {x : TaskId} (hx : g.HasTask x) :
    ∀ p, g.taskPlay x = some p → g.HasPlay p := by
  intro p hp
  have htask := hg.tasks x hx
  unfold Graph.taskPlay at hp
  simp only at hp
  split at hp
  · rename_i r hr
    exact (hg.roles r (htask.role r hr)).play p hp
  · exact htask.play p hp

theorem Graph.WellFormed.has_taskHandles (hg : g.WellFormed) {x : TaskId} (hx : g.HasTask x) :
    ∀ m ∈ g.taskHandles x, g.Has m := by
  intro m hm
  rcases List.mem_cons.1 hm with rfl | hm
  · exact hx
  · obtain ⟨r, hr, rfl⟩ := List.mem_map.1 hm
    exact (hg.tasks x hx).role r (Option.mem_toList.1 hr)

theorem quiet_assignFiles (dir : FilePath) (vars : Variables) (files : List String) :
    Quiet (assignFiles site dir vars files) := by
  induction files generalizing vars with
  | nil => exact quiet_pure _
  | cons file files ih =>
    unfold assignFiles at ih ⊢
    rw [List.foldlM_cons]
    refine quiet_bind ?_ ih
    split
    · exact quiet_bind (quiet_note _) fun _ => quiet_pure _
    · split
      · exact quiet_pure _
      · exact quiet_throw _

theorem legal_playVars {play : Option PlayId} (hb : Began L t.graph)
    (hp : ∀ p, play = some p → t.graph.HasPlay p) (vars : Variables) :
    Legal L (watchPlayVars site vars play) t fun _ _ => True := by
  cases play with
  | none => exact legal_pure trivial
  | some p =>
    have hplay := hb.wellFormed.plays p (hp p rfl)
    refine legal_bind (legal_look fun m hm => ?_) fun g t₁ h₁ hg => ?_
    · rcases List.mem_cons.1 hm with rfl | hm
      · exact hp p rfl
      · rw [List.mem_singleton.1 hm]; exact hplay.origin
    obtain ⟨rfl, -⟩ := hg
    refine legal_bind (legal_aside (quiet_assignFiles _ _ _)) fun _ t₂ h₂ _ => ?_
    refine legal_bind (legal_look fun m hm => ?_) fun _ _ _ _ => legal_pure trivial
    obtain ⟨r, hr, rfl⟩ := List.mem_map.1 hm
    exact (h₁.trans h₂).spans.hasRole (hplay.roles r hr)

theorem legal_ownVars {task : Option TaskId} (hb : Began L t.graph)
    (hx : ∀ x, task = some x → t.graph.HasTask x) (vars : Variables) :
    Legal L (watchOwnVars vars task) t fun _ _ => True := by
  cases task with
  | none => exact legal_pure trivial
  | some x =>
    refine legal_bind (legal_look ?_) fun _ _ _ _ => legal_pure trivial
    exact hb.wellFormed.has_taskHandles (hx x rfl)

theorem legal_vars {play : Option PlayId} {task : Option TaskId} (hb : Began L t.graph)
    (hp : ∀ p, play = some p → t.graph.HasPlay p) (hx : ∀ x, task = some x → t.graph.HasTask x)
    (hfrom : L.dependencies = 0) : Legal L (watchVars site play task) t fun _ _ => True := by
  refine legal_bind (legal_look fun m hm => ?_) fun g t₁ h₁ hg => ?_
  · rcases List.mem_append.1 hm with hm | hm
    · obtain ⟨p, hmem, rfl⟩ := List.mem_map.1 hm
      exact hp p (Option.mem_toList.1 hmem)
    · obtain ⟨x, hmem, rfl⟩ := List.mem_map.1 hm
      exact hx x (Option.mem_toList.1 hmem)
  obtain ⟨rfl, -⟩ := hg
  have hroles := hb.wellFormed.hasRole_defaultRoles hp hx
  have hdefaults :
      Legal L (watchDefaults site [] (t.graph.defaultRoles play task)) t₁ fun _ _ => True := by
    refine legal_foldlM (fun vars r hr t' h' => ?_) []
    have hr' := (h₁.trans h').spans.hasRole (hroles r hr)
    refine legal_bind (legal_defaultVars (hb.continues (h₁.trans h')) hr' ?_)
      fun _ _ _ _ => legal_pure trivial
    rw [hfrom]; exact Nat.zero_le _
  refine legal_bind hdefaults fun vars t₂ h₂ _ => ?_
  have h₂ := h₁.trans h₂
  refine legal_bind
    (legal_playVars (hb.continues h₂) (fun p h => h₂.spans.hasPlay (hp p h)) vars) ?_
  intro vars t₃ h₃ _
  have h₃ := h₂.trans h₃
  exact legal_ownVars (hb.continues h₃) (fun x h => h₃.spans.hasTask (hx x h)) vars

/-- **The variables of a task** are remembered where none were. -/
theorem legal_taskVars {x : TaskId} (hb : Began L t.graph) (hx : t.graph.HasTask x)
    (hvars : L.vars ≤ x.index) (hfrom : L.dependencies = 0) :
    Legal L (watchTaskVars site x) t fun _ _ => True := by
  refine legal_bind (legal_look (hb.wellFormed.has_taskHandles hx)) fun g t₁ h₁ hg => ?_
  obtain ⟨rfl, hg₁⟩ := hg
  have hb₁ := hb.continues h₁
  have hx₁ := h₁.spans.hasTask hx
  rw [← hg₁]
  cases hc : (t₁.graph.task x).cachedVars with
  | some vars => exact legal_pure trivial
  | none =>
    -- no variables are remembered with a task that was there while these are resolved
    have hpart : Within L ⟨t₁.graph, L.parents, t₁.graph.tasks.size, L.dependencies⟩ :=
      hb₁.within_part (hvars.trans (le_of_lt hx₁)) le_rfl
    have hplay := hb₁.wellFormed.hasPlay_taskPlay hx₁
    have hown : ∀ y, some x = some y → t₁.graph.HasTask y := by
      rintro _ ⟨⟩; exact hx₁
    refine legal_bind ((legal_vars (hb₁.part _ _) hplay hown hfrom).within hpart) ?_
    rintro vars t₂ h₂ ⟨-, hwrites⟩
    have hx₂ := h₂.spans.hasTask hx₁
    refine legal_bind (legal_update (.task x) hx₂ (.changeTask (fun ht => { ht with }) ?_)) ?_
    · refine ⟨fun _ => rfl, fun hlt => absurd hlt (not_lt.2 hvars), fun vars hv => ?_, fun _ h => h,
        fun _ h => .inl h⟩
      rw [hwrites.task hx₁ hx₁ hx₁, hc] at hv; cases hv
    · exact fun _ _ _ _ => legal_pure trivial

theorem quiet_renderParams (templater : Templater) (vars : Variables) (action : String)
    (params : Fields) : Quiet (renderParams templater vars action params) := by
  induction params with
  | nil => exact quiet_pure _
  | cons entry params ih =>
    obtain ⟨key, value⟩ := entry
    rw [renderParams]
    split
    · exact quiet_bind ih fun _ => quiet_pure _
    · exact quiet_bind (quiet_note _) fun _ => ih

section Render

variable {x : TaskId} (hb : Began L t.graph) (hx : t.graph.HasTask x) (hvars : L.vars = 0)
  (hfrom : L.dependencies = 0)
include hb hx hvars hfrom

theorem legal_module (templater : Templater) (action : String) :
    Legal L (watchModule site templater x action) t fun _ _ => True := by
  refine legal_bind (legal_look fun m hm => ?_) fun g t₁ h₁ _ => ?_
  · rw [List.mem_singleton.1 hm]; exact hx
  split
  · refine legal_bind (legal_taskVars (hb.continues h₁) (h₁.spans.hasTask hx) ?_ hfrom)
      fun vars _ _ _ => ?_
    · rw [hvars]; exact Nat.zero_le _
    · exact legal_bind (legal_aside (quiet_renderParams _ _ _ _)) fun _ _ _ _ => legal_pure trivial
  · exact legal_pure trivial

theorem legal_text (templater : Templater) (action : String) :
    Legal L (watchText site templater x action) t fun _ _ => True := by
  refine legal_bind (legal_look fun m hm => ?_) fun g t₁ h₁ _ => ?_
  · rw [List.mem_singleton.1 hm]; exact hx
  split
  · refine legal_bind (legal_taskVars (hb.continues h₁) (h₁.spans.hasTask hx) ?_ hfrom)
      fun vars _ _ _ => ?_
    · rw [hvars]; exact Nat.zero_le _
    · split
      · exact legal_pure trivial
      · exact legal_bind (legal_aside (quiet_note _)) fun _ _ _ _ => legal_pure trivial
  · exact legal_pure trivial

end Render

end Runlist
