import Runlist.Proofs.Graph.Dependency
import Runlist.Proofs.Graph.Ranks

/-!
# Where entities are listed

A task is listed in a block, among the tasks of a role, or in a section of a play; a role in a play,
or among the dependencies of another role. Its origin tells which one it is, so that there is one
place at most.

* `TaskPlace`, `RolePlace`: where tasks and roles may be listed. `Graph.tasksAt`, `Graph.rolesAt`:
  what is listed there.
* `Graph.ListedOnce`: **every task and every role is listed in one place at most, and once there.**
* `Sound.listedOnce`: so it is in a sound graph whose lists ascend.
-/

namespace Runlist

/-- The sections of a play. -/
inductive PlaySection where
  | pre
  | main
  | post
deriving DecidableEq, Repr

/-- The tasks of a section. -/
def Play.sectionTasks (p : Play) : PlaySection → List TaskId
  | .pre => p.preTasks
  | .main => p.mainTasks
  | .post => p.postTasks

/-- Where tasks are listed. -/
inductive TaskPlace where
  | block (task : TaskId)
  | role (role : RoleId)
  | play (play : PlayId) (part : PlaySection)
deriving DecidableEq, Repr

/-- The kind of what lists the tasks. -/
def TaskPlace.kind : TaskPlace → OriginKind
  | .block _ => .task
  | .role _ => .role
  | .play _ _ => .play

/-- Where roles are listed. -/
inductive RolePlace where
  | play (play : PlayId)
  | dependencies (role : RoleId)
deriving DecidableEq, Repr

namespace Graph

variable {g : Graph}

/-- The tasks that are listed in a place. -/
def tasksAt (g : Graph) : TaskPlace → List TaskId
  | .block x => (g.task x).block
  | .role r => (g.role r).tasks
  | .play p part => (g.play p).sectionTasks part

/-- The origin of what lists the tasks. -/
def placeOrigin (g : Graph) : TaskPlace → OriginId
  | .block x => (g.task x).origin
  | .role r => (g.role r).origin
  | .play p _ => (g.play p).origin

/-- The roles that are listed in a place. -/
def rolesAt (g : Graph) : RolePlace → List RoleId
  | .play p => (g.play p).roles
  | .dependencies r => ((g.role r).directDependencies).getD []

/-- **Every task and every role is listed in one place at most**, and once there. -/
structure ListedOnce (g : Graph) : Prop where
  tasks : ∀ place, (g.tasksAt place).Nodup
  task : ∀ {x : TaskId} {place place' : TaskPlace}, x ∈ g.tasksAt place → x ∈ g.tasksAt place' →
    place = place'
  roles : ∀ place, (g.rolesAt place).Nodup
  role : ∀ {r : RoleId} {place place' : RolePlace}, r ∈ g.rolesAt place → r ∈ g.rolesAt place' →
    place = place'

theorem hasTask_of_block {x c : TaskId} (h : c ∈ (g.task x).block) : g.HasTask x := by
  by_contra hx
  rw [task_of_not_has hx] at h; cases h

theorem hasPlay_of_tasks {p : PlayId} {x : TaskId} (h : x ∈ (g.play p).tasks) : g.HasPlay p := by
  by_contra hp
  rw [play_of_not_has hp] at h; cases h

theorem hasPlay_of_roles {p : PlayId} {r : RoleId} (h : r ∈ (g.play p).roles) : g.HasPlay p := by
  by_contra hp
  rw [play_of_not_has hp] at h; cases h

theorem hasRole_of_tasks {r : RoleId} {x : TaskId} (h : x ∈ (g.role r).tasks) : g.HasRole r := by
  by_contra hr
  rw [role_of_not_has hr] at h; cases h

theorem mem_tasks_of_section {p : Play} {part : PlaySection} {x : TaskId}
    (h : x ∈ p.sectionTasks part) : x ∈ p.tasks := by
  simp only [Play.tasks, List.mem_append]
  cases part with
  | pre => exact Or.inl (Or.inl h)
  | main => exact Or.inl (Or.inr h)
  | post => exact Or.inr h

/-- Sections of a play have no task in common if no task is listed twice. -/
theorem section_unique {p : Play} (hp : p.tasks.Nodup) {part part' : PlaySection} {x : TaskId}
    (h : x ∈ p.sectionTasks part) (h' : x ∈ p.sectionTasks part') : part = part' := by
  obtain ⟨hfront, -, hpost⟩ := List.nodup_append.1 hp
  obtain ⟨-, -, hmain⟩ := List.nodup_append.1 hfront
  have hpm : ∀ x ∈ p.preTasks, x ∉ p.mainTasks := fun x hx hx' => hmain x hx x hx' rfl
  have hpp : ∀ x ∈ p.preTasks, x ∉ p.postTasks :=
    fun x hx hx' => hpost x (List.mem_append_left _ hx) x hx' rfl
  have hmp : ∀ x ∈ p.mainTasks, x ∉ p.postTasks :=
    fun x hx hx' => hpost x (List.mem_append_right _ hx) x hx' rfl
  cases part <;> cases part'
  case pre.pre | main.main | post.post => rfl
  case pre.main => exact absurd h' (hpm x h)
  case pre.post => exact absurd h' (hpp x h)
  case main.pre => exact absurd h (hpm x h')
  case main.post => exact absurd h' (hmp x h)
  case post.pre => exact absurd h (hpp x h')
  case post.main => exact absurd h (hmp x h')

namespace Sound

variable (hs : g.Sound)
include hs

/-- A task that is listed in a place is inside the origin of that place. -/
theorem around_task {x : TaskId} {place : TaskPlace} (h : x ∈ g.tasksAt place) :
    (g.origin (g.task x).origin).parent = some (g.placeOrigin place) ∧
      (g.origin (g.placeOrigin place)).kind = place.kind := by
  cases place with
  | block y =>
    have hy := hs.tasks y (hasTask_of_block h)
    exact ⟨(hy.block x h).2.origin, hy.kind⟩
  | role r =>
    have hr := hs.roles r (hasRole_of_tasks h)
    exact ⟨(hr.tasks x h).origin, hr.kind⟩
  | play p part =>
    have hmem := mem_tasks_of_section h
    have hp := hs.plays p (hasPlay_of_tasks hmem)
    exact ⟨(hp.tasks x hmem).origin, hp.kind⟩

/-- **What is around a task tells where it is listed.** -/
theorem taskPlace_unique (hr : g.Ranked) {x : TaskId} {place place' : TaskPlace}
    (h : x ∈ g.tasksAt place) (h' : x ∈ g.tasksAt place') : place = place' := by
  obtain ⟨ho, hkind⟩ := hs.around_task h
  obtain ⟨ho', hkind'⟩ := hs.around_task h'
  have heq : g.placeOrigin place = g.placeOrigin place' := Option.some.inj (ho.symm.trans ho')
  have hsame : place.kind = place'.kind := by rw [← hkind, ← hkind', heq]
  -- places of two kinds are told apart by the kinds of their origins
  cases place <;> cases place' <;> try cases hsame
  case block.block => rw [hs.taskInj (hasTask_of_block h) (hasTask_of_block h') heq]
  case role.role => rw [hs.roleInj (hasRole_of_tasks h) (hasRole_of_tasks h') heq]
  case play.play =>
    have hmem := mem_tasks_of_section h
    have hmem' := mem_tasks_of_section h'
    obtain rfl := hs.playInj (hasPlay_of_tasks hmem) (hasPlay_of_tasks hmem') heq
    rw [section_unique (hr.playTasks _).nodup h h']

/-- A role that a play lists is not a dependency. -/
theorem not_depends {p : PlayId} {r q : RoleId} (h : r ∈ (g.play p).roles) : ¬ g.Depends q r := by
  intro hd
  obtain ⟨d, hin, hst⟩ := (hs.plays p (hasPlay_of_roles h)).roles r h
  obtain ⟨e, m, -, hm, -, hlin⟩ := hs.lineage_depends hd
  -- around the reference there is a play in one case, and what a role declares in the other
  have hplay : (g.origin (g.play p).origin).kind = .play := (hs.plays p (hasPlay_of_roles h)).kind
  rw [hs.origins.lineage (hs.roles r hst.has).origin hst.origin,
    hs.origins.lineage hin.has hin.origin, lineage_cons] at hlin
  simp only [List.cons.injEq, true_and] at hlin
  rw [hlin.2.1, hm] at hplay
  cases hplay

/-- **What is around a role tells where it is listed.** -/
theorem rolePlace_unique {r : RoleId} {place place' : RolePlace} (h : r ∈ g.rolesAt place)
    (h' : r ∈ g.rolesAt place') : place = place' := by
  have depends : ∀ {q : RoleId}, r ∈ g.rolesAt (.dependencies q) → g.Depends q r := by
    intro q hq
    have hq : r ∈ ((g.role q).directDependencies).getD [] := hq
    cases hd : (g.role q).directDependencies with
    | none => rw [hd] at hq; cases hq
    | some ds => rw [hd] at hq; exact ⟨ds, hd, hq⟩
  cases place with
  | play p =>
    cases place' with
    | play q =>
      obtain ⟨d, hin, hst⟩ := (hs.plays p (hasPlay_of_roles h)).roles r h
      obtain ⟨d', hin', hst'⟩ := (hs.plays q (hasPlay_of_roles h')).roles r h'
      obtain rfl : d = d' := Option.some.inj (hst.origin.symm.trans hst'.origin)
      have heq := hs.playInj (hasPlay_of_roles h) (hasPlay_of_roles h')
        (Option.some.inj (hin.origin.symm.trans hin'.origin))
      rw [heq]
    | dependencies q => exact (hs.not_depends h (depends h')).elim
  | dependencies q =>
    cases place' with
    | play p => exact (hs.not_depends h' (depends h)).elim
    | dependencies q' => rw [hs.depends_unique (depends h) (depends h')]

/-- **In a sound graph whose lists ascend**, every task and every role is listed in one place at
most. -/
theorem listedOnce (hr : g.Ranked) : g.ListedOnce where
  tasks place := by
    cases place with
    | block x => exact (hr.block x).nodup
    | role r => exact (hr.roleTasks r).nodup
    | play p part =>
      have hp := (hr.playTasks p).nodup
      obtain ⟨hfront, hpost, -⟩ := List.nodup_append.1 hp
      obtain ⟨hpre, hmain, -⟩ := List.nodup_append.1 hfront
      cases part with
      | pre => exact hpre
      | main => exact hmain
      | post => exact hpost
  task h h' := hs.taskPlace_unique hr h h'
  roles place := by
    cases place with
    | play p => exact (hr.playRoles p).nodup
    | dependencies r =>
      show (((g.role r).directDependencies).getD []).Nodup
      cases hd : (g.role r).directDependencies with
      | none => exact List.nodup_nil
      | some ds => exact (hr.direct r ds hd).nodup
  role h h' := hs.rolePlace_unique h h'

end Sound

end Graph

end Runlist
