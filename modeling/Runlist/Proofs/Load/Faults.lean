import Runlist.Proofs.Graph.Dependency
import Runlist.Proofs.Load.Playbook

/-!
# What is wrong with dependencies

Dependencies are reached along paths of names. What is wrong with a role on a path is said without
running anything: of a role that is not loaded yet, from its files; of a loaded one, from what the
graph knows of its dependencies.

* `Broken`: a name on a path leads to a cycle, or to a role that cannot be loaded.
* `Graph.Faulty`: so does a loaded role, or a role below it.
* `Faulty.climb`: what is wrong with a role is wrong with every role above it.
* `Same.faulty_iff`: it depends on the roles below only.
-/

namespace Runlist

open Relation (ReflTransGen)

variable {read : String → Except LoadError RoleText} {path path' : List String} {name : String}

/-- **A name on a path** closes a cycle, or names a role that cannot be loaded, or leads to such a
name. -/
inductive Broken (read : String → Except LoadError RoleText) : List String → String → Prop
  | cycle {path : List String} {name : String} : name ∈ path → Broken read path name
  | load {path : List String} {name : String} {e : LoadError} : read name = .error e →
      Broken read path name
  | leads {path : List String} {name n : String} {text : RoleText} : read name = .ok text →
      n ∈ text.dependencies → Broken read (path ++ [name]) n → Broken read path name

theorem longer (h : path ⊆ path') : path ++ [name] ⊆ path' ++ [name] :=
  List.append_subset.2 ⟨List.subset_append_of_subset_left _ h, List.subset_append_right _ _⟩

theorem Broken.mono (h : Broken read path name) (hsub : path ⊆ path') : Broken read path' name := by
  induction h generalizing path' with
  | cycle hmem => exact .cycle (hsub hmem)
  | load he => exact .load he
  | leads hread hn _ ih => exact .leads hread hn (ih (longer hsub))

namespace Graph

variable {g g' : Graph} {r d : RoleId}

/-- **A loaded role on a path** closes a cycle, or leads to one or to a role that cannot be loaded.
Nothing is wrong with a role all of whose dependencies are known. -/
inductive Faulty (g : Graph) (read : String → Except LoadError RoleText) :
    List String → RoleId → Prop
  | cycle {path : List String} {r : RoleId} : (g.role r).allDependencies = none →
      (g.role r).name ∈ path → Faulty g read path r
  | known {path : List String} {r d : RoleId} {ds : List RoleId} :
      (g.role r).allDependencies = none →
      (g.role r).directDependencies = some ds → d ∈ ds →
      Faulty g read (path ++ [(g.role r).name]) d → Faulty g read path r
  | declared {path : List String} {r : RoleId} {n : String} : (g.role r).allDependencies = none →
      (g.role r).directDependencies = none → n ∈ (g.role r).declared.dependencies.map (·.name) →
      Broken read (path ++ [(g.role r).name]) n → Faulty g read path r

theorem Faulty.all_none (h : g.Faulty read path r) : (g.role r).allDependencies = none := by
  cases h <;> assumption

theorem Faulty.mono (h : g.Faulty read path r) (hsub : path ⊆ path') : g.Faulty read path' r := by
  induction h generalizing path' with
  | cycle ha hmem => exact .cycle ha (hsub hmem)
  | known ha hds hd _ ih => exact .known ha hds hd (ih (longer hsub))
  | declared ha hd hn hb => exact .declared ha hd hn (hb.mono (longer hsub))

/-- **What is wrong with a role is wrong with every role above it.** -/
theorem Faulty.climb (hs : g.Sound) (hb : ReflTransGen g.Depends r d) (h : g.Faulty read path d) :
    g.Faulty read path r := by
  induction hb using Relation.ReflTransGen.head_induction_on with
  | refl => exact h
  | @head r e he hed ih =>
    have hr : (g.role r).allDependencies = none := by
      by_contra hk
      exact hs.known_below (ReflTransGen.single he) hk ih.all_none
    obtain ⟨ds, hds, hmem⟩ := he
    exact .known hr hds hmem (ih.mono (List.subset_append_left _ _))

theorem Same.faulty (hsame : g.Same g' r) (h : g.Faulty read path r) : g'.Faulty read path r := by
  induction h with
  | cycle ha hmem =>
    rw [← hsame.self] at ha hmem
    exact .cycle ha hmem
  | known ha hds hd _ ih =>
    have := ih (hsame.dep ⟨_, hds, hd⟩)
    rw [← hsame.self] at ha hds this
    exact .known ha hds hd this
  | declared ha hd hn hb =>
    rw [← hsame.self] at ha hd hn hb
    exact .declared ha hd hn hb

/-- **What is wrong with a role depends on the roles below it only.** -/
theorem Same.faulty_iff (hsame : g.Same g' r) : g'.Faulty read path r ↔ g.Faulty read path r :=
  ⟨hsame.symm.faulty, hsame.faulty⟩

/-- What is wrong with a role that was just loaded is wrong with its name. -/
theorem faulty_new {text : RoleText} (hall : (g.role r).allDependencies = none)
    (hdirect : (g.role r).directDependencies = none) (hread : read (g.role r).name = .ok text)
    (hdeps : (g.role r).declared.dependencies.map (·.name) = text.dependencies) :
    g.Faulty read path r ↔ Broken read path (g.role r).name := by
  constructor
  · intro h
    cases h with
    | cycle _ hmem => exact .cycle hmem
    | known _ hds => rw [hdirect] at hds; cases hds
    | declared _ _ hn hb =>
      rw [hdeps] at hn
      exact .leads hread hn hb
  · intro h
    cases h with
    | cycle hmem => exact .cycle hall hmem
    | load he => rw [hread] at he; cases he
    | leads hread' hn hb =>
      rw [hread] at hread'
      cases hread'
      rw [← hdeps] at hn
      exact .declared hall hdirect hn hb

end Graph

end Runlist
