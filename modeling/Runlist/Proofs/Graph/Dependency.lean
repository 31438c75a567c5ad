import Mathlib.Logic.Relation
import Runlist.Proofs.Graph.Change

/-!
# Known dependencies

A role is loaded anew for every role that depends on it, so that the known dependencies of the roles
of a graph form a forest.

* `Graph.Depends`: a role is a known direct dependency of another one.
* `Sound.depends_unique`, `Sound.comparable`: of at most one, so that of two roles above a third one
  is above the other.
* `Sound.known_below`: below a role all of whose dependencies are known, so are those of every role.
* `Graph.Same`: the roles below a role are the same in two graphs.
* `Sound.setDirect`, `Sound.setAll`: dependencies that become known.
-/

namespace Runlist.Graph

open Relation (ReflTransGen)

variable {g g' : Graph} {r d q : RoleId}

/-- A role is a known direct dependency of another one. -/
def Depends (g : Graph) (r d : RoleId) : Prop :=
  ∃ ds, (g.role r).directDependencies = some ds ∧ d ∈ ds

/-- What is above a dependency: its reference, what the role declares about itself, and the role. -/
theorem Sound.lineage_depends (hs : g.Sound) (h : g.Depends r d) : ∃ definition m,
    (g.origin definition).kind = .roleDefinition ∧ (g.origin m).kind = .roleMeta ∧
    (g.origin m).parent = some (g.role r).origin ∧
    g.lineage (g.role d).origin =
      (g.role d).origin :: definition :: m :: g.lineage (g.role r).origin := by
  obtain ⟨ds, hds, hd⟩ := h
  have hr := hs.hasRole_of_direct hds
  obtain ⟨e, he, hst, _⟩ := exists_left ((hs.roles r hr).direct ds hds) hd
  obtain ⟨m, hm, hdef⟩ := (hs.roles r hr).declared e he
  refine ⟨e.origin, m, hdef.kind, hm.kind, hm.origin, ?_⟩
  rw [hs.origins.lineage (hs.roles d hst.has).origin hst.origin,
    hs.origins.lineage hdef.has hdef.origin, hs.origins.lineage hm.has hm.origin]

theorem Sound.hasRole_depends (hs : g.Sound) (h : g.Depends r d) : g.HasRole r ∧ g.HasRole d := by
  obtain ⟨ds, hds, hd⟩ := h
  exact ⟨hs.hasRole_of_direct hds, hs.hasRole_dep hds hd⟩

/-- A dependency is younger. -/
theorem Sound.depends_lt (hs : g.Sound) (h : g.Depends r d) :
    (g.role r).origin.index < (g.role d).origin.index := by
  obtain ⟨definition, m, hdef, hm, hparent, hlin⟩ := hs.lineage_depends h
  have hd := (hs.roles d (hs.hasRole_depends h).2).origin
  have h₁ : m ∈ g.lineage (g.role d).origin := by rw [hlin]; simp
  have h₂ := hs.origins m _ (hd.mem h₁) hparent
  have h₃ := index_le_of_mem_lineage h₁
  omega

theorem Sound.below_le (hs : g.Sound) (h : ReflTransGen g.Depends r q) :
    (g.role r).origin.index ≤ (g.role q).origin.index := by
  induction h with
  | refl => exact le_rfl
  | tail _ hd ih => exact le_trans ih (le_of_lt (hs.depends_lt hd))

/-- **A role is a dependency of one role only.** -/
theorem Sound.depends_unique (hs : g.Sound) (h : g.Depends r d) (h' : g.Depends q d) : r = q := by
  obtain ⟨_, m, -, -, -, hlin⟩ := hs.lineage_depends h
  obtain ⟨_, m', -, -, -, hlin'⟩ := hs.lineage_depends h'
  rw [hlin] at hlin'
  simp only [List.cons.injEq, true_and] at hlin'
  have := hlin'.2.2
  rw [lineage_cons, lineage_cons g (g.role q).origin] at this
  exact hs.roleInj (hs.hasRole_depends h).1 (hs.hasRole_depends h').1 (List.cons.inj this).1

/-- Of two roles above a third one, one is above the other. -/
theorem Sound.comparable (hs : g.Sound) {x : RoleId} (h : ReflTransGen g.Depends r x)
    (h' : ReflTransGen g.Depends q x) :
    ReflTransGen g.Depends r q ∨ ReflTransGen g.Depends q r := by
  have h₁ := Relation.reflTransGen_swap.2 h
  have h₂ := Relation.reflTransGen_swap.2 h'
  have unique : Relator.RightUnique (Function.swap g.Depends) :=
    fun _ _ _ h h' => hs.depends_unique h h'
  rcases Relation.ReflTransGen.total_of_right_unique unique h₁ h₂ with h | h
  · exact Or.inr (Relation.reflTransGen_swap.1 h)
  · exact Or.inl (Relation.reflTransGen_swap.1 h)

/-- Two dependencies of a role are not above one another. -/
theorem Sound.not_below_sibling (hs : g.Sound) {d' : RoleId} (h : g.Depends r d)
    (h' : g.Depends r d') (hne : d ≠ d') : ¬ ReflTransGen g.Depends d d' := by
  intro hb
  rcases Relation.ReflTransGen.cases_tail hb with heq | ⟨p, hp, hd'⟩
  · exact hne heq.symm
  · have hle := hs.below_le hp
    rw [hs.depends_unique hd' h'] at hle
    have := hs.depends_lt h
    omega

/-- A role that is nobody's dependency is below itself only. -/
theorem eq_of_below (h : ReflTransGen g.Depends r d) (hd : ∀ q, ¬ g.Depends q d) : r = d := by
  rcases Relation.ReflTransGen.cases_tail h with heq | ⟨q, _, hq⟩
  · exact heq.symm
  · exact absurd hq (hd q)

/-- Below a role all of whose dependencies are known, those of every role are. -/
theorem Sound.known_below (hs : g.Sound) (h : ReflTransGen g.Depends r q)
    (hk : (g.role r).allDependencies ≠ none) : (g.role q).allDependencies ≠ none := by
  induction h with
  | refl => exact hk
  | @tail p q _ hd ih =>
    obtain ⟨l, hl⟩ := Option.ne_none_iff_exists'.1 ih
    obtain ⟨ds, hds, hdp⟩ := hd
    obtain ⟨ds', hds', _, hall⟩ := (hs.roles p (hs.hasRole_of_direct hds)).all l hl
    rw [hds] at hds'
    cases hds'
    exact hall q hdp

theorem depends_keeps (hs : g.Sound) (k : g.Keeps g') (h : g.Depends r d) : g'.Depends r d := by
  obtain ⟨ds, hds, hd⟩ := h
  exact ⟨ds, (k.role r (hs.hasRole_of_direct hds)).direct ds hds, hd⟩

theorem below_keeps (hs : g.Sound) (k : g.Keeps g') (h : ReflTransGen g.Depends r q) :
    ReflTransGen g'.Depends r q :=
  Relation.ReflTransGen.mono (fun _ _ hd => depends_keeps hs k hd) _ _ h

/-- **The roles below a role are the same** in two graphs. -/
def Same (g g' : Graph) (r : RoleId) : Prop :=
  ∀ q, ReflTransGen g.Depends r q → g'.role q = g.role q

theorem Same.self (h : g.Same g' r) : g'.role r = g.role r := h r .refl

theorem Same.dep (h : g.Same g' r) (hd : g.Depends r d) : g.Same g' d :=
  fun q hq => h q (Relation.ReflTransGen.head hd hq)

theorem Same.below (h : g.Same g' r) (hq : ReflTransGen g'.Depends r q) :
    ReflTransGen g.Depends r q := by
  induction hq with
  | refl => exact .refl
  | @tail p q _ hd ih =>
    obtain ⟨ds, hds, hdp⟩ := hd
    rw [h p ih] at hds
    exact ih.tail ⟨ds, hds, hdp⟩

theorem Same.symm (h : g.Same g' r) : g'.Same g r := fun q hq => (h q (h.below hq)).symm

/-- What is known of each of some roles is the post-order below them. -/
theorem postOrder_known (hs : g.Sound) {ds : List RoleId} {parts : List (List RoleId)}
    (h : List.Forall₂ (fun d part => ∃ below, (g.role d).allDependencies = some below ∧
      part = below ++ [d]) ds parts) : g.PostOrder ds parts.flatten := by
  induction h with
  | nil => exact .nil
  | @cons d part ds parts hd _ ih =>
    obtain ⟨below, hall, rfl⟩ := hd
    have hrole : g.HasRole d := by
      by_contra hr
      rw [role_of_not_has hr] at hall; cases hall
    obtain ⟨direct, hdirect, hpost, _⟩ := (hs.roles d hrole).all below hall
    rw [List.flatten_cons, List.append_assoc]
    exact .cons hdirect hpost ih

/-- Direct dependencies become known. -/
theorem Sound.setDirect (hs : g.Sound) {ds : List RoleId}
    (hnone : (g.role r).directDependencies = none)
    (hds : List.Forall₂ (fun d dep => g.Stands d.origin (g.role r).play dep ∧
      (g.role dep).name = d.name)
      (g.role r).declared.dependencies ds) :
    (g.modifyRole r fun r => { r with directDependencies := some ds }).Sound := by
  have hk : KeepsRole (g.role r) { g.role r with directDependencies := some ds } :=
    ⟨rfl, rfl, rfl, fun _ h => (Option.some_ne_none _ (h.symm.trans hnone)).elim, fun _ h => h⟩
  have k : g.Keeps (g.modifyRole r fun r => { r with directDependencies := some ds }) :=
    keeps_modifyRole hk
  refine hs.modifyRole hk fun hr => ?_
  have h := hs.roles r hr
  obtain ⟨h₁, h₂, h₃, h₄⟩ := SoundRole.frame k hs hr
  refine ⟨h₁, h₂, h₃, h₄, fun x hx => ?_, fun d hd => ?_,
    fun ds' hds' => ?_, fun l hl => ?_, ?_, ?_⟩
  · rw [role_modifyRole_self hr] at hx
    exact SoundRole.tasks_keeps k hs hr x hx
  · rw [role_modifyRole_self hr] at hd
    exact SoundRole.declared_keeps k hs hr d hd
  · rw [role_modifyRole_self hr] at hds' ⊢
    cases hds'
    refine hds.imp fun d dep hd => ⟨hd.1.keeps k hs, ?_⟩
    rw [(k.role dep hd.1.has).name]; exact hd.2
  · rw [role_modifyRole_self hr] at hl
    obtain ⟨_, hsome, _⟩ := h.all l hl
    rw [hnone] at hsome; cases hsome
  · rw [role_modifyRole_self hr]; exact h.defaults
  · rw [role_modifyRole_self hr]; exact h.vars

/-- All dependencies become known. -/
theorem Sound.setAll (hs : g.Sound) {ds l : List RoleId} (hnone : (g.role r).allDependencies = none)
    (hdirect : (g.role r).directDependencies = some ds) (hpost : g.PostOrder ds l)
    (hall : ∀ d ∈ ds, (g.role d).allDependencies ≠ none) :
    (g.modifyRole r fun r => { r with allDependencies := some l }).Sound := by
  have hk : KeepsRole (g.role r) { g.role r with allDependencies := some l } :=
    ⟨rfl, rfl, rfl, fun _ h => h, fun _ h => (Option.some_ne_none _ (h.symm.trans hnone)).elim⟩
  have k : g.Keeps (g.modifyRole r fun r => { r with allDependencies := some l }) :=
    keeps_modifyRole hk
  refine hs.modifyRole hk fun hr => ?_
  have h := hs.roles r hr
  obtain ⟨h₁, h₂, h₃, h₄⟩ := SoundRole.frame k hs hr
  refine ⟨h₁, h₂, h₃, h₄, fun x hx => ?_, fun d hd => ?_,
    fun ds' hds' => ?_, fun l' hl' => ?_, ?_, ?_⟩
  · rw [role_modifyRole_self hr] at hx
    exact SoundRole.tasks_keeps k hs hr x hx
  · rw [role_modifyRole_self hr] at hd
    exact SoundRole.declared_keeps k hs hr d hd
  · rw [role_modifyRole_self hr] at hds' ⊢
    have := SoundRole.direct_keeps k hs hr hds'
    rw [role_modifyRole_self hr] at this
    exact this
  · rw [role_modifyRole_self hr] at hl' ⊢
    cases hl'
    refine ⟨ds, hdirect, hpost.keeps k fun _ _ h => hs.hasRole_of_direct h, fun d hd hn => ?_⟩
    obtain ⟨m, hm⟩ := Option.ne_none_iff_exists'.1 (hall d hd)
    rw [(k.role d (hs.hasRole_dep hdirect hd)).all m hm] at hn; cases hn
  · rw [role_modifyRole_self hr]; exact h.defaults
  · rw [role_modifyRole_self hr]; exact h.vars

end Runlist.Graph
