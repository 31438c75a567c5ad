import Runlist.Graph
import Mathlib.Order.Nat

/-!
# How a graph grows

Entities are added and never taken away. What an operation may change of the ones that are there
is said by four relations, each stronger than the one before.

* `Graph.Keeps`: places, scopes, links to parents and known dependencies stay.
* `Graph.Stays`: everything stays but what is filled in once: the parent of a task, its resolved
  variables, and the dependencies of a role.
* `Graph.Grows`: the same, and no task gets another parent.
* `Graph.Adds`: everything stays, and nothing is filled in yet in what is new.
-/

namespace Runlist.Graph

variable {g g₁ g₂ : Graph}

/-! ## Handles and single changes -/

/-- The handle is that of an origin of the graph. -/
def HasOrigin (g : Graph) (id : OriginId) : Prop := id.index < g.origins.size

/-- The handle is that of a task of the graph. -/
def HasTask (g : Graph) (id : TaskId) : Prop := id.index < g.tasks.size

/-- The handle is that of a play of the graph. -/
def HasPlay (g : Graph) (id : PlayId) : Prop := id.index < g.plays.size

/-- The handle is that of a role of the graph. -/
def HasRole (g : Graph) (id : RoleId) : Prop := id.index < g.roles.size

instance (x : TaskId) : Decidable (g.HasTask x) := inferInstanceAs (Decidable (_ < _))

instance (p : PlayId) : Decidable (g.HasPlay p) := inferInstanceAs (Decidable (_ < _))

instance (r : RoleId) : Decidable (g.HasRole r) := inferInstanceAs (Decidable (_ < _))

theorem getD_push {α : Type} [Inhabited α] (a : Array α) (v : α) (i : Nat) :
    ((a.push v)[i]?.getD default) = if i = a.size then v else a[i]?.getD default := by
  rw [Array.getElem?_push]; split <;> rfl

theorem getD_modify {α : Type} [Inhabited α] (a : Array α) (f : α → α) (i j : Nat) :
    ((a.modify i f)[j]?.getD default) =
      if j = i ∧ i < a.size then f (a[i]?.getD default) else a[j]?.getD default := by
  rw [Array.getElem?_modify]
  by_cases h : i = j
  · subst h
    by_cases hi : i < a.size
    · simp [hi]
    · simp [hi]
  · rw [if_neg h, if_neg fun h' => h h'.1.symm]

theorem origin_addOrigin (o : Origin) (id : OriginId) :
    (g.addOrigin o).2.origin id = if id.index = g.origins.size then o else g.origin id :=
  getD_push g.origins o id.index

theorem task_addTask (t : Task) (id : TaskId) :
    (g.addTask t).2.task id = if id.index = g.tasks.size then t else g.task id :=
  getD_push g.tasks t id.index

theorem play_addPlay (p : Play) (id : PlayId) :
    (g.addPlay p).2.play id = if id.index = g.plays.size then p else g.play id :=
  getD_push g.plays p id.index

theorem role_addRole (r : Role) (id : RoleId) :
    (g.addRole r).2.role id = if id.index = g.roles.size then r else g.role id :=
  getD_push g.roles r id.index

theorem task_modifyTask (x id : TaskId) (f : Task → Task) :
    (g.modifyTask x f).task id = if id = x ∧ g.HasTask x then f (g.task x) else g.task id := by
  obtain ⟨i⟩ := id; obtain ⟨j⟩ := x
  simp only [task, modifyTask, getD_modify, HasTask, TaskId.mk.injEq]

theorem play_modifyPlay (p id : PlayId) (f : Play → Play) :
    (g.modifyPlay p f).play id = if id = p ∧ g.HasPlay p then f (g.play p) else g.play id := by
  obtain ⟨i⟩ := id; obtain ⟨j⟩ := p
  simp only [play, modifyPlay, getD_modify, HasPlay, PlayId.mk.injEq]

theorem role_modifyRole (r id : RoleId) (f : Role → Role) :
    (g.modifyRole r f).role id = if id = r ∧ g.HasRole r then f (g.role r) else g.role id := by
  obtain ⟨i⟩ := id; obtain ⟨j⟩ := r
  simp only [role, modifyRole, getD_modify, HasRole, RoleId.mk.injEq]

/-! ## Growth -/

/-- A task keeps its place, its scope and the link to its parent. -/
structure KeepsTask (t t' : Task) : Prop where
  origin : t'.origin = t.origin
  role : t'.role = t.role
  play : t'.play = t.play
  parent : ∀ p, t.parent = some p → t'.parent = some p

/-- A role keeps its place, its name and the dependencies that are known. -/
structure KeepsRole (r r' : Role) : Prop where
  origin : r'.origin = r.origin
  play : r'.play = r.play
  name : r'.name = r.name
  direct : ∀ ds, r.directDependencies = some ds → r'.directDependencies = some ds
  all : ∀ ds, r.allDependencies = some ds → r'.allDependencies = some ds

/-- **Places, scopes and links stay.** -/
structure Keeps (g g' : Graph) : Prop where
  origins_le : g.origins.size ≤ g'.origins.size
  tasks_le : g.tasks.size ≤ g'.tasks.size
  plays_le : g.plays.size ≤ g'.plays.size
  roles_le : g.roles.size ≤ g'.roles.size
  origin : ∀ o, g.HasOrigin o → g'.origin o = g.origin o
  task : ∀ x, g.HasTask x → KeepsTask (g.task x) (g'.task x)
  play : ∀ p, g.HasPlay p → (g'.play p).origin = (g.play p).origin
  role : ∀ r, g.HasRole r → KeepsRole (g.role r) (g'.role r)

namespace Keeps

theorem hasOrigin (h : g.Keeps g₁) {o : OriginId} (ho : g.HasOrigin o) : g₁.HasOrigin o :=
  lt_of_lt_of_le ho h.origins_le

theorem hasTask (h : g.Keeps g₁) {x : TaskId} (hx : g.HasTask x) : g₁.HasTask x :=
  lt_of_lt_of_le hx h.tasks_le

theorem hasPlay (h : g.Keeps g₁) {p : PlayId} (hp : g.HasPlay p) : g₁.HasPlay p :=
  lt_of_lt_of_le hp h.plays_le

theorem hasRole (h : g.Keeps g₁) {r : RoleId} (hr : g.HasRole r) : g₁.HasRole r :=
  lt_of_lt_of_le hr h.roles_le

theorem trans (h : g.Keeps g₁) (h' : g₁.Keeps g₂) : g.Keeps g₂ where
  origins_le := le_trans h.origins_le h'.origins_le
  tasks_le := le_trans h.tasks_le h'.tasks_le
  plays_le := le_trans h.plays_le h'.plays_le
  roles_le := le_trans h.roles_le h'.roles_le
  origin o ho := (h'.origin o (h.hasOrigin ho)).trans (h.origin o ho)
  task x hx := by
    have h₁ := h.task x hx
    have h₂ := h'.task x (h.hasTask hx)
    exact ⟨h₂.origin.trans h₁.origin, h₂.role.trans h₁.role, h₂.play.trans h₁.play,
      fun p hp => h₂.parent p (h₁.parent p hp)⟩
  play p hp := (h'.play p (h.hasPlay hp)).trans (h.play p hp)
  role r hr := by
    have h₁ := h.role r hr
    have h₂ := h'.role r (h.hasRole hr)
    exact ⟨h₂.origin.trans h₁.origin, h₂.play.trans h₁.play, h₂.name.trans h₁.name,
      fun v hv => h₂.direct v (h₁.direct v hv), fun v hv => h₂.all v (h₁.all v hv)⟩

end Keeps

/-- A task stays but for the link to its parent and its resolved variables, which are filled in
once. -/
structure StaysTask (t t' : Task) : Prop where
  same : t' = { t with parent := t'.parent, cachedVars := t'.cachedVars }
  parent : ∀ p, t.parent = some p → t'.parent = some p
  cached : ∀ vars, t.cachedVars = some vars → t'.cachedVars = some vars

/-- A role stays but for its known dependencies, which are filled in once. -/
structure StaysRole (r r' : Role) : Prop where
  same : r' = { r with
    directDependencies := r'.directDependencies, allDependencies := r'.allDependencies }
  direct : ∀ ds, r.directDependencies = some ds → r'.directDependencies = some ds
  all : ∀ ds, r.allDependencies = some ds → r'.allDependencies = some ds

theorem StaysRole.refl (r : Role) : StaysRole r r := ⟨rfl, fun _ h => h, fun _ h => h⟩

/-- **Everything stays but what is filled in once.** -/
structure Stays (g g' : Graph) : Prop where
  origins_le : g.origins.size ≤ g'.origins.size
  tasks_le : g.tasks.size ≤ g'.tasks.size
  plays_le : g.plays.size ≤ g'.plays.size
  roles_le : g.roles.size ≤ g'.roles.size
  origin : ∀ o, g.HasOrigin o → g'.origin o = g.origin o
  task : ∀ x, g.HasTask x → StaysTask (g.task x) (g'.task x)
  play : ∀ p, g.HasPlay p → g'.play p = g.play p
  role : ∀ r, g.HasRole r → StaysRole (g.role r) (g'.role r)

namespace Stays

theorem refl (g : Graph) : g.Stays g where
  origins_le := le_rfl
  tasks_le := le_rfl
  plays_le := le_rfl
  roles_le := le_rfl
  origin _ _ := rfl
  task _ _ := ⟨rfl, fun _ h => h, fun _ h => h⟩
  play _ _ := rfl
  role _ _ := StaysRole.refl _

theorem keeps (h : g.Stays g₁) : g.Keeps g₁ where
  origins_le := h.origins_le
  tasks_le := h.tasks_le
  plays_le := h.plays_le
  roles_le := h.roles_le
  origin := h.origin
  task x hx := by
    have hs := (h.task x hx).same
    exact ⟨by rw [hs], by rw [hs], by rw [hs], (h.task x hx).parent⟩
  play p hp := by rw [h.play p hp]
  role r hr := by
    have hs := (h.role r hr).same
    exact ⟨by rw [hs], by rw [hs], by rw [hs], (h.role r hr).direct, (h.role r hr).all⟩

theorem trans (h : g.Stays g₁) (h' : g₁.Stays g₂) : g.Stays g₂ where
  origins_le := le_trans h.origins_le h'.origins_le
  tasks_le := le_trans h.tasks_le h'.tasks_le
  plays_le := le_trans h.plays_le h'.plays_le
  roles_le := le_trans h.roles_le h'.roles_le
  origin o ho := (h'.origin o (h.keeps.hasOrigin ho)).trans (h.origin o ho)
  task x hx := by
    have h₁ := h.task x hx
    have h₂ := h'.task x (h.keeps.hasTask hx)
    exact ⟨by rw [h₂.same, h₁.same], fun p hp => h₂.parent p (h₁.parent p hp),
      fun v hv => h₂.cached v (h₁.cached v hv)⟩
  play p hp := (h'.play p (h.keeps.hasPlay hp)).trans (h.play p hp)
  role r hr := by
    have h₁ := h.role r hr
    have h₂ := h'.role r (h.keeps.hasRole hr)
    exact ⟨by rw [h₂.same, h₁.same], fun v hv => h₂.direct v (h₁.direct v hv),
      fun v hv => h₂.all v (h₁.all v hv)⟩

end Stays

/-- **Everything stays but resolved variables and known dependencies**: no task of the graph gets
another parent. -/
structure Grows (g g' : Graph) : Prop extends Stays g g' where
  parent : ∀ x, g.HasTask x → (g'.task x).parent = (g.task x).parent

namespace Grows

theorem refl (g : Graph) : g.Grows g := ⟨Stays.refl g, fun _ _ => rfl⟩

theorem keeps (h : g.Grows g₁) : g.Keeps g₁ := h.toStays.keeps

theorem trans (h : g.Grows g₁) (h' : g₁.Grows g₂) : g.Grows g₂ :=
  ⟨h.toStays.trans h'.toStays,
    fun x hx => (h'.parent x (h.keeps.hasTask hx)).trans (h.parent x hx)⟩

end Grows

/-- **Everything stays, and nothing is filled in yet in what is new.** -/
structure Adds (g g' : Graph) : Prop where
  origins_le : g.origins.size ≤ g'.origins.size
  tasks_le : g.tasks.size ≤ g'.tasks.size
  plays_le : g.plays.size ≤ g'.plays.size
  roles_le : g.roles.size ≤ g'.roles.size
  origin : ∀ o, g.HasOrigin o → g'.origin o = g.origin o
  task : ∀ x, g.HasTask x → g'.task x = g.task x
  play : ∀ p, g.HasPlay p → g'.play p = g.play p
  role : ∀ r, g.HasRole r → g'.role r = g.role r
  newTask : ∀ x, ¬ g.HasTask x → (g'.task x).cachedVars = none
  newRole : ∀ r, ¬ g.HasRole r →
    (g'.role r).directDependencies = none ∧ (g'.role r).allDependencies = none

theorem task_of_not_has {x : TaskId} (h : ¬ g.HasTask x) : g.task x = default := by
  rw [task, Array.getElem?_eq_none (not_lt.1 h)]; rfl

theorem role_of_not_has {r : RoleId} (h : ¬ g.HasRole r) : g.role r = default := by
  rw [role, Array.getElem?_eq_none (not_lt.1 h)]; rfl

namespace Adds

theorem refl (g : Graph) : g.Adds g where
  origins_le := le_rfl
  tasks_le := le_rfl
  plays_le := le_rfl
  roles_le := le_rfl
  origin _ _ := rfl
  task _ _ := rfl
  play _ _ := rfl
  role _ _ := rfl
  newTask x hx := by rw [task_of_not_has hx]; rfl
  newRole r hr := by rw [role_of_not_has hr]; exact ⟨rfl, rfl⟩

theorem grows (h : g.Adds g₁) : g.Grows g₁ where
  origins_le := h.origins_le
  tasks_le := h.tasks_le
  plays_le := h.plays_le
  roles_le := h.roles_le
  origin := h.origin
  task x hx := by rw [h.task x hx]; exact ⟨rfl, fun _ h => h, fun _ h => h⟩
  play := h.play
  role r hr := by rw [h.role r hr]; exact StaysRole.refl _
  parent x hx := by rw [h.task x hx]

theorem keeps (h : g.Adds g₁) : g.Keeps g₁ := h.grows.keeps

theorem trans (h : g.Adds g₁) (h' : g₁.Adds g₂) : g.Adds g₂ where
  origins_le := le_trans h.origins_le h'.origins_le
  tasks_le := le_trans h.tasks_le h'.tasks_le
  plays_le := le_trans h.plays_le h'.plays_le
  roles_le := le_trans h.roles_le h'.roles_le
  origin o ho := (h'.origin o (h.keeps.hasOrigin ho)).trans (h.origin o ho)
  task x hx := (h'.task x (h.keeps.hasTask hx)).trans (h.task x hx)
  play p hp := (h'.play p (h.keeps.hasPlay hp)).trans (h.play p hp)
  role r hr := (h'.role r (h.keeps.hasRole hr)).trans (h.role r hr)
  newTask x hx := by
    by_cases h₁ : g₁.HasTask x
    · rw [h'.task x h₁]; exact h.newTask x hx
    · exact h'.newTask x h₁
  newRole r hr := by
    by_cases h₁ : g₁.HasRole r
    · rw [h'.role r h₁]; exact h.newRole r hr
    · exact h'.newRole r h₁

end Adds

end Runlist.Graph
