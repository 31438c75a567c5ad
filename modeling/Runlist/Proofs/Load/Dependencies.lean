import Mathlib.Data.List.Nodup
import Mathlib.Data.List.Perm.Subperm
import Runlist.Proofs.Load.Faults

/-!
# Finding dependencies

* `directDependencies_ends`: the roles on which a role depends, loaded or known.
* `collectDependencies_ends`: **dependencies are found unless something is wrong with them**, and
  what is found is in post-order. Only roles below the one that is asked for change.
* `allDependencies_ends`: the bound on the path is never reached.
-/

namespace Runlist

open Relation (ReflTransGen)

variable {site : Site} {s s₁ s₂ s₃ : Store} {r : RoleId}

/-! ## Dependencies that become known -/

namespace Graph

variable {g : Graph}

theorem grows_modifyRole {f : Role → Role} (h : g.HasRole r → StaysRole (g.role r) (f (g.role r))) :
    g.Grows (g.modifyRole r f) :=
  { Grows.refl g with
    roles_le := by simp only [modifyRole, Array.size_modify]; omega
    role := fun q hq => by
      by_cases hqr : q = r
      · subst hqr; rw [role_modifyRole_self hq]; exact h hq
      · rw [role_modifyRole_of_ne hqr]; exact StaysRole.refl _ }

theorem grows_setDirect {ds : List RoleId} (hnone : (g.role r).directDependencies = none) :
    g.Grows (g.modifyRole r fun r => { r with directDependencies := some ds }) :=
  grows_modifyRole fun _ =>
    ⟨rfl, fun _ h => (Option.some_ne_none _ (h.symm.trans hnone)).elim, fun _ h => h⟩

theorem grows_setAll {l : List RoleId} (hnone : (g.role r).allDependencies = none) :
    g.Grows (g.modifyRole r fun r => { r with allDependencies := some l }) :=
  grows_modifyRole fun _ =>
    ⟨rfl, fun _ h => h, fun _ h => (Option.some_ne_none _ (h.symm.trans hnone)).elim⟩

end Graph

theorem learns_setDirect (hr : s.graph.HasRole r) {ds : List RoleId}
    (hnone : (s.graph.role r).directDependencies = none)
    (hds : List.Forall₂ (fun d dep => s.graph.Stands d.origin (s.graph.role r).play dep ∧
      (s.graph.role dep).name = d.name) (s.graph.role r).declared.dependencies ds)
    (hnamed : ∃ roles, ((s.graph.role r).declared.dependencies.map (·.name)).mapM
      (s.readNamed site · .main) = .ok roles ∧ List.Forall₂ s.graph.ShowsNamed ds roles) :
    Learns site s { s with
      graph := s.graph.modifyRole r fun r => { r with directDependencies := some ds } } := by
  have hgrows :
      s.graph.Grows (s.graph.modifyRole r fun r => { r with directDependencies := some ds }) :=
    Graph.grows_setDirect hnone
  have hreal : s.Real site → Store.Real site { s with graph := s.graph.modifyRole r fun r =>
      { r with directDependencies := some ds } } :=
    fun h => h.stays hgrows.toStays (fun _ => rfl) fun _ hq => Graph.hasRole_modifyRole.1 hq
  refine ⟨.of_grows (fun hs => hs.setDirect hnone hds) hgrows (fun _ => rfl) hreal
    (fun hs hf q ds' hd => ?_) fun _ _ _ _ hv => Or.inl hv, fun _ _ => rfl⟩
  by_cases hq : q = r
  · subst hq
    right
    simp only at hd ⊢
    rw [Graph.role_modifyRole_self hr] at hd
    cases hd
    obtain ⟨roles, hread, hshows⟩ := hnamed
    rw [funext fun name => hf.readNamed name .main] at hread
    rw [Graph.roleHead_stays hgrows.toStays hr]
    exact ⟨roles, hread, hshows.imp fun _ _ h => h.stays hs hgrows.toStays⟩
  · left
    simp only at hd
    rw [Graph.role_modifyRole_of_ne hq] at hd; exact hd

theorem learns_setAll {ds l : List RoleId} (hnone : (s.graph.role r).allDependencies = none)
    (hdirect : (s.graph.role r).directDependencies = some ds) (hpost : s.graph.PostOrder ds l)
    (hall : ∀ d ∈ ds, (s.graph.role d).allDependencies ≠ none) :
    Learns site s
      { s with graph := s.graph.modifyRole r fun r => { r with allDependencies := some l } } := by
  have hgrows :
      s.graph.Grows (s.graph.modifyRole r fun r => { r with allDependencies := some l }) :=
    Graph.grows_setAll hnone
  have hreal : s.Real site → Store.Real site { s with graph := s.graph.modifyRole r fun r =>
      { r with allDependencies := some l } } :=
    fun h => h.stays hgrows.toStays (fun _ => rfl) fun _ hq => Graph.hasRole_modifyRole.1 hq
  refine ⟨.of_grows (fun hs => hs.setAll hnone hdirect hpost hall) hgrows (fun _ => rfl) hreal
    (fun hs hf q ds' hd => Or.inl ?_) fun _ _ _ _ hv => Or.inl hv, fun _ _ => rfl⟩
  by_cases hq : q = r
  · subst hq
    have hr := hs.hasRole_of_direct hdirect
    simp only at hd
    rw [Graph.role_modifyRole_self hr] at hd; exact hd
  · simp only at hd
    rw [Graph.role_modifyRole_of_ne hq] at hd; exact hd

/-! ## Direct dependencies -/

/-- A role that was just loaded as a dependency. -/
structure NewDependency (site : Site) (s s' : Store) (d : RoleDefinition) (r : RoleId) : Prop where
  new : ¬ s.graph.HasRole r
  has : s'.graph.HasRole r
  name : (s'.graph.role r).name = d.name
  direct : (s'.graph.role r).directDependencies = none
  all : (s'.graph.role r).allDependencies = none
  reads : ∃ text, s.readRole site d.name .main = .ok text ∧
    (s'.graph.role r).declared.dependencies.map (·.name) = text.dependencies

/-- The direct dependencies of a role were found. -/
structure FoundDirect (site : Site) (s s' : Store) (r : RoleId) (ds : List RoleId) : Prop where
  learns : Learns site s s'
  direct : (s'.graph.role r).directDependencies = some ds
  all : (s'.graph.role r).allDependencies = (s.graph.role r).allDependencies
  frame : ∀ q, s.graph.HasRole q → q ≠ r → s'.graph.role q = s.graph.role q
  known : ((s.graph.role r).directDependencies = some ds ∧ s' = s) ∨
    ((s.graph.role r).directDependencies = none ∧
      List.Forall₂ (NewDependency site s s') (s.graph.role r).declared.dependencies ds)

/-- **The roles on which a role depends directly**, loaded unless they are known. -/
theorem directDependencies_ends (hs : s.graph.Sound) (hr : s.graph.HasRole r) :
    Ends (directDependencies site r) s (fun ds s' => FoundDirect site s s' r ds)
      fun e s' => Learns site s s' ∧ (s.graph.role r).directDependencies = none ∧
        (s.graph.roleHead r).dependencies.mapM (s.readNamed site · .main) = .error e := by
  unfold directDependencies
  rw [ends_bind, ends_graph]
  simp only
  cases hd : (s.graph.role r).directDependencies with
  | some known => exact ⟨.refl s, hd, rfl, fun _ _ _ => rfl, Or.inl ⟨hd, rfl⟩⟩
  | none =>
    simp only [ends_bind, true_and]
    have hrole := hs.roles r hr
    have horigins : ∀ d ∈ (s.graph.role r).declared.dependencies, s.graph.HasOrigin d.origin := by
      intro d hd
      obtain ⟨m, -, hin⟩ := hrole.declared d hd
      exact hin.has
    refine (loadDefinitions_ends hs hrole.play horigins).mono ?_ ?_
    · rintro ds s₁ ⟨hext, hloaded⟩
      rw [ends_update, ends_pure]
      have hsame : s₁.graph.role r = s.graph.role r := hext.adds.role r hr
      have hr₁ := hext.adds.keeps.hasRole hr
      have hnone₁ : (s₁.graph.role r).directDependencies = none := by rw [hsame]; exact hd
      have hset : Learns site s₁ { s₁ with graph := s₁.graph.modifyRole r fun r =>
          { r with directDependencies := some ds } } := by
        refine learns_setDirect hr₁ hnone₁ ?_ ?_
        · rw [hsame]; exact hloaded.imp fun _ _ h => ⟨h.stands, h.name⟩
        · rw [hsame]
          obtain ⟨roles, hread, hshows⟩ := loadedDefinition_roles hloaded
          rw [← funext fun name => hext.readNamed name .main] at hread
          exact ⟨roles, hread, hshows⟩
      refine ⟨hext.learns.trans hset, ?_, ?_,
        fun q hq hne => ?_, Or.inr ⟨hd, hloaded.imp fun d q h => ?_⟩⟩
      · rw [Graph.role_modifyRole_self hr₁]
      · rw [Graph.role_modifyRole_self hr₁, hsame]
      · rw [Graph.role_modifyRole_of_ne hne]; exact hext.adds.role q hq
      · -- a dependency that was loaded just now is another role
        have hne : q ≠ r := by rintro rfl; exact h.new hr
        have hq : (s₁.graph.modifyRole r fun r => { r with directDependencies := some ds }).role q =
          s₁.graph.role q := Graph.role_modifyRole_of_ne hne
        obtain ⟨role, hread, hshows⟩ := h.shows
        refine ⟨h.new, Graph.hasRole_modifyRole.2 h.stands.has, by rw [hq]; exact h.name,
          by rw [hq]; exact (hext.adds.newRole q h.new).1, by
        rw [hq]; exact (hext.adds.newRole q h.new).2,
          role.toRoleText, Store.readNamed_ok hread, ?_⟩
        rw [hq]
        exact congrArg RoleHead.dependencies hshows.shows.head
    · rintro e s₁ ⟨hext, hfail⟩
      exact ⟨hext.learns, hfail⟩

/-! ## Visits -/

section Visits

variable {read : String → Except LoadError RoleText} {path : List String} {g g₂ g₃ : Graph}
  {d d' q : RoleId}

/-- The role has been visited: all its dependencies are known, and nothing was wrong with it. -/
structure Visited (read : String → Except LoadError RoleText) (path : List String) (g g' : Graph)
    (d : RoleId) : Prop where
  known : (g'.role d).allDependencies ≠ none
  sane : ¬ g.Faulty read path d

/-- The role has been visited, or nothing below it has changed. -/
def Pending (read : String → Except LoadError RoleText) (path : List String) (g g' : Graph)
    (d : RoleId) : Prop := Visited read path g g' d ∨ g.Same g' d

/-- **A visit** changes roles below the visited one only, and those only whose dependencies were not
all known. -/
structure Visit (site : Site) (read : String → Except LoadError RoleText) (path : List String)
    (s s' : Store) (d : RoleId) (found : List RoleId) : Prop where
  learns : Learns site s s'
  known : (s'.graph.role d).allDependencies = some found
  sane : ¬ s.graph.Faulty read path d
  frame : ∀ q, s.graph.HasRole q → ¬ ReflTransGen s.graph.Depends d q ∨
    (s.graph.role q).allDependencies ≠ none → s'.graph.role q = s.graph.role q

theorem Pending.sane (h : Pending read path g g₂ d) (hd : ¬ g₂.Faulty read path d) :
    ¬ g.Faulty read path d := by
  rcases h with h | h
  · exact h.sane
  · rw [← h.faulty_iff]; exact hd

theorem Pending.faulty (h : Pending read path g g₂ d) (hd : g₂.Faulty read path d) :
    g.Faulty read path d := by
  rcases h with h | h
  · exact absurd hd.all_none h.known
  · exact h.faulty_iff.1 hd

/-- What was not below the visited role at the start is left alone. -/
theorem Pending.frame (h : Pending read path g s.graph d) (hs : s.graph.Sound) {found : List RoleId}
    (hv : Visit site read path s s₁ d found) (hq : s.graph.HasRole q)
    (hb : ¬ ReflTransGen g.Depends d q ∨ (s.graph.role q).allDependencies ≠ none) :
    s₁.graph.role q = s.graph.role q := by
  refine hv.frame q hq ?_
  rcases hb with hb | hb
  · rcases h with h | h
    · by_cases hdq : ReflTransGen s.graph.Depends d q
      · exact Or.inr (hs.known_below hdq h.known)
      · exact Or.inl hdq
    · exact Or.inl fun hdq => hb (h.below hdq)
  · exact Or.inr hb

theorem hasRole_below (hs : g.Sound) (h : ReflTransGen g.Depends d q)
    (hd : g.HasRole d) : g.HasRole q := by
  rcases Relation.ReflTransGen.cases_tail h with rfl | ⟨p, _, hp⟩
  · exact hd
  · exact (hs.hasRole_depends hp).2

/-- After a visit, a role that is not above the visited one has been visited, or nothing below it
has changed. -/
theorem Pending.visit (hs₁ : s₁.graph.Sound) (h₁₂ : Learns site s₁ s₂) {found : List RoleId}
    (hv : Visit site read path s₂ s₃ d found) (hd : Pending read path s₁.graph s₂.graph d)
    (h : Pending read path s₁.graph s₂.graph d') (hd' : s₁.graph.HasRole d')
    (hapart : d' = d ∨ ¬ ReflTransGen s₁.graph.Depends d' d) :
    Pending read path s₁.graph s₃.graph d' := by
  have hs₂ := h₁₂.sound hs₁
  have hs₃ := hv.learns.sound hs₂
  have hknown : (s₃.graph.role d).allDependencies ≠ none := by
    rw [hv.known]; exact Option.some_ne_none _
  by_cases hbelow : ReflTransGen s₁.graph.Depends d d'
  · left
    refine ⟨?_, fun hf => hd.sane hv.sane (hf.climb hs₁ hbelow)⟩
    exact hs₃.known_below (Graph.below_keeps hs₁ (h₁₂.trans hv.learns).grows.keeps hbelow) hknown
  · have hne : ¬ ReflTransGen s₁.graph.Depends d' d := by
      rcases hapart with rfl | hapart
      · exact absurd .refl hbelow
      · exact hapart
    rcases h with h | h
    · left
      refine ⟨?_, h.sane⟩
      obtain ⟨l, hl⟩ := Option.ne_none_iff_exists'.1 h.known
      rw [(hv.learns.grows.keeps.role d' (h₁₂.grows.keeps.hasRole hd')).all l hl]
      exact Option.some_ne_none _
    · right
      intro q hq
      have hq₂ := h₁₂.grows.keeps.hasRole (hasRole_below hs₁ hq hd')
      rw [hd.frame hs₂ hv hq₂ (Or.inl fun hdq => ?_), h q hq]
      rcases hs₁.comparable hdq hq with h | h
      · exact hbelow h
      · exact hne h

/-- **Between two visits** of roles, those in front were visited, and what follows is as it was. -/
structure Progress (site : Site) (read : String → Except LoadError RoleText) (path : List String)
    (s s' : Store) (front rest : List RoleId) : Prop where
  learns : Learns site s s'
  visited : ∀ d ∈ front, Visited read path s.graph s'.graph d
  pending : ∀ d ∈ rest, Pending read path s.graph s'.graph d
  has : ∀ d ∈ rest, s.graph.HasRole d
  apart : rest.Pairwise fun d d' => d' = d ∨ ¬ ReflTransGen s.graph.Depends d' d
  frame : ∀ q, s.graph.HasRole q → (∀ d ∈ front, ¬ ReflTransGen s.graph.Depends d q) ∨
    (s.graph.role q).allDependencies ≠ none → s'.graph.role q = s.graph.role q

namespace Progress

variable {front rest ds : List RoleId}

theorem start (has : ∀ d ∈ ds, s.graph.HasRole d)
    (apart : ds.Pairwise fun d d' => d' = d ∨ ¬ ReflTransGen s.graph.Depends d' d) :
    Progress site read path s s [] ds where
  learns := .refl s
  visited _ h := (List.not_mem_nil h).elim
  pending _ _ := Or.inr fun _ _ => rfl
  has := has
  apart := apart
  frame _ _ _ := rfl

theorem step (h : Progress site read path s s₁ front (d :: rest)) (hs : s.graph.Sound)
    {found : List RoleId} (hv : Visit site read path s₁ s₂ d found) :
    Progress site read path s s₂ (front ++ [d]) rest := by
  have hs₁ := h.learns.sound hs
  have hd := h.pending d List.mem_cons_self
  refine ⟨h.learns.trans hv.learns, fun d' hd' => ?_, fun d' hd' => ?_,
    fun d' hd' => h.has d' (List.mem_cons_of_mem _ hd'), (List.pairwise_cons.1 h.apart).2,
    fun q hq hb => ?_⟩
  · rcases List.mem_append.1 hd' with hd' | hd'
    · have hf := h.visited d' hd'
      refine ⟨?_, hf.sane⟩
      obtain ⟨l, hl⟩ := Option.ne_none_iff_exists'.1 hf.known
      have hrole : s₁.graph.HasRole d' := by
        by_contra hn
        rw [Graph.role_of_not_has hn] at hl; cases hl
      rw [(hv.learns.grows.keeps.role d' hrole).all l hl]
      exact Option.some_ne_none _
    · rw [List.mem_singleton.1 hd']
      exact ⟨by rw [hv.known]; exact Option.some_ne_none _, hd.sane hv.sane⟩
  · exact hd.visit hs h.learns hv (h.pending d' (List.mem_cons_of_mem _ hd'))
      (h.has d' (List.mem_cons_of_mem _ hd')) ((List.pairwise_cons.1 h.apart).1 d' hd')
  · have hb₁ : (∀ d ∈ front, ¬ ReflTransGen s.graph.Depends d q) ∨
        (s.graph.role q).allDependencies ≠ none :=
      hb.imp_left fun h d hd => h d (List.mem_append_left _ hd)
    have h₁ := h.frame q hq hb₁
    rw [hd.frame hs₁ hv (h.learns.grows.keeps.hasRole hq) ?_, h₁]
    rcases hb with hb | hb
    · exact Or.inl (hb d (List.mem_append_right _ List.mem_cons_self))
    · rw [h₁]; exact Or.inr hb

end Progress

/-- Visits of some roles, one after the other. -/
theorem concatEach_visits {visit : RoleId → Load (List RoleId)} (hs : s.graph.Sound)
    {front rest : List RoleId} (h : Progress site read path s s₁ front rest)
    (hvisit : ∀ d ∈ rest, ∀ s₁, Learns site s s₁ → Pending read path s.graph s₁.graph d →
      Ends (visit d) s₁ (fun found s₂ => Visit site read path s₁ s₂ d found)
        fun _ s₂ => Learns site s₁ s₂ ∧ s₁.graph.Faulty read path d) :
    Ends (concatEach (fun d => do return (← visit d) ++ [d]) rest) s₁
      (fun found s₂ => Progress site read path s s₂ (front ++ rest) [] ∧ Learns site s₁ s₂ ∧
        ∃ parts, found = parts.flatten ∧ List.Forall₂ (fun d part =>
          ∃ below, (s₂.graph.role d).allDependencies = some below ∧ part = below ++ [d]) rest parts)
      fun _ s₂ => Learns site s s₂ ∧ ∃ d ∈ rest, s.graph.Faulty read path d := by
  induction rest generalizing front s₁ with
  | nil =>
    rw [concatEach, ends_pure, List.append_nil]
    exact ⟨h, .refl _, [], rfl, .nil⟩
  | cons d rest ih =>
    rw [concatEach, ends_bind]
    have hd := h.pending d List.mem_cons_self
    simp only [ends_bind, ends_pure]
    refine (hvisit d List.mem_cons_self s₁ h.learns hd).mono ?_ ?_
    · rintro found s₂ hv
      refine (ih (h.step hs hv) fun d hd => hvisit d (List.mem_cons_of_mem _ hd)).mono ?_ ?_
      · rintro others s₃ ⟨h₃, h₂₃, parts, rfl, hparts⟩
        have hrole := (h.learns.trans hv.learns).grows.keeps.hasRole (h.has d List.mem_cons_self)
        have hfound := (h₂₃.grows.keeps.role d hrole).all found hv.known
        rw [List.append_assoc] at h₃
        exact ⟨h₃, hv.learns.trans h₂₃, (found ++ [d]) :: parts, rfl,
          .cons ⟨found, hfound, rfl⟩ hparts⟩
      · rintro e s₃ ⟨h₃, d', hd', hf⟩
        exact ⟨h₃, d', List.mem_cons_of_mem _ hd', hf⟩
    · rintro e s₂ ⟨h₂, hf⟩
      exact ⟨h.learns.trans h₂, d, List.mem_cons_self, hd.faulty hf⟩

end Visits

/-! ## Transitive dependencies -/

/-- Names that may be met below a role whose dependencies are not all known. -/
def Graph.NamesBelow (g : Graph) (names : List String) (r : RoleId) : Prop :=
  (g.role r).allDependencies = none → ∀ q, ReflTransGen g.Depends r q →
    (g.role q).name ∈ names ∧ (g.role q).declared.dependencies.map (·.name) ⊆ names

theorem Pending.namesBelow {read : String → Except LoadError RoleText} {names path : List String}
    {g g' : Graph} {d : RoleId} (h : Pending read path g g' d) (hn : g.NamesBelow names d) :
    g'.NamesBelow names d := by
  intro hall q hq
  rcases h with h | h
  · exact absurd hall h.known
  · rw [h.self] at hall
    have hq' := h.below hq
    rw [h q hq']
    exact hn hall q hq'

section Collect

variable {read : String → Except LoadError RoleText} {names path : List String} {ds : List RoleId}

namespace FoundDirect

/-- What is wrong with a role is wrong with one of its dependencies, once they are found. -/
theorem faulty_iff (h : FoundDirect site s s₁ r ds)
    (hread : ∀ name, s.readRole site name .main = read name)
    (hall : (s.graph.role r).allDependencies = none) (hpath : (s.graph.role r).name ∉ path) :
    s.graph.Faulty read path r ↔
    ∃ d ∈ ds, s₁.graph.Faulty read (path ++ [(s.graph.role r).name]) d := by
  rcases h.known with ⟨hdirect, rfl⟩ | ⟨hdirect, hnew⟩
  · constructor
    · intro hf
      cases hf with
      | cycle _ hmem => exact absurd hmem hpath
      | known _ hds hd hf => rw [hdirect] at hds; cases hds; exact ⟨_, hd, hf⟩
      | declared _ hnone => rw [hdirect] at hnone; cases hnone
    · rintro ⟨d, hd, hf⟩
      exact .known hall hdirect hd hf
  · have hiff : ∀ e d, NewDependency site s s₁ e d → ∀ path,
        s₁.graph.Faulty read path d ↔ Broken read path e.name := by
      intro e d hd path
      obtain ⟨text, htext, hdeps⟩ := hd.reads
      rw [hread] at htext
      rw [← hd.name] at htext ⊢
      exact Graph.faulty_new hd.all hd.direct htext hdeps
    constructor
    · intro hf
      cases hf with
      | cycle _ hmem => exact absurd hmem hpath
      | known _ hds => rw [hdirect] at hds; cases hds
      | declared _ _ hn hb =>
        obtain ⟨e, he, rfl⟩ := List.mem_map.1 hn
        obtain ⟨d, hd, hd'⟩ := exists_right hnew he
        exact ⟨d, hd, (hiff e d hd' _).2 hb⟩
    · rintro ⟨d, hd, hf⟩
      obtain ⟨e, he, hd'⟩ := exists_left hnew hd
      exact .declared hall hdirect (List.mem_map_of_mem he) ((hiff e d hd' _).1 hf)

/-- The names below a dependency are among those below the role. -/
theorem namesBelow (h : FoundDirect site s s₁ r ds) (hs : s.graph.Sound)
    (hread : ∀ name, s.readRole site name .main = read name)
    (hfiles : ∀ name text, read name = .ok text → text.dependencies ⊆ names)
    (hall : (s.graph.role r).allDependencies = none) (hnames : s.graph.NamesBelow names r)
    {d : RoleId} (hd : d ∈ ds) : s₁.graph.NamesBelow names d := by
  intro _ q hq
  rcases h.known with ⟨hdirect, rfl⟩ | ⟨hdirect, hnew⟩
  · exact hnames hall q (.head ⟨ds, hdirect, hd⟩ hq)
  · obtain ⟨e, he, hd'⟩ := exists_left hnew hd
    have hqd : q = d := by
      rcases Relation.ReflTransGen.cases_head hq with rfl | ⟨p, ⟨_, hp, _⟩, _⟩
      · rfl
      · rw [hd'.direct] at hp; cases hp
    subst hqd
    obtain ⟨text, htext, hdeps⟩ := hd'.reads
    rw [hread] at htext
    rw [hd'.name, hdeps]
    exact ⟨(hnames hall r .refl).2 (List.mem_map_of_mem he), hfiles _ _ htext⟩

/-- A role that was there is below a dependency only if it is below the role. -/
theorem below (h : FoundDirect site s s₁ r ds) {d q : RoleId} (hd : d ∈ ds) (hq : s.graph.HasRole q)
    (hb : ReflTransGen s₁.graph.Depends d q) : ReflTransGen s.graph.Depends r q := by
  rcases h.known with ⟨hdirect, rfl⟩ | ⟨hdirect, hnew⟩
  · exact .head ⟨ds, hdirect, hd⟩ hb
  · obtain ⟨e, he, hd'⟩ := exists_left hnew hd
    rcases Relation.ReflTransGen.cases_head hb with rfl | ⟨p, ⟨_, hp, _⟩, _⟩
    · exact absurd hq hd'.new
    · rw [hd'.direct] at hp; cases hp

/-- The dependencies may be visited. -/
theorem progress (h : FoundDirect site s s₁ r ds) (hs : s.graph.Sound) :
    Progress site read path s₁ s₁ [] ds := by
  have hs₁ := h.learns.sound hs
  refine .start (fun d hd => hs₁.hasRole_dep h.direct hd) (List.pairwise_of_forall_mem_list ?_)
  intro d hd d' hd'
  by_cases hne : d' = d
  · exact Or.inl hne
  · exact Or.inr (hs₁.not_below_sibling ⟨ds, h.direct, hd'⟩ ⟨ds, h.direct, hd⟩ hne)

/-- Once its dependencies were visited, the role was visited. -/
theorem visit (h : FoundDirect site s s₁ r ds) (hs : s.graph.Sound)
    (hread : ∀ name, s.readRole site name .main = read name)
    (hall : (s.graph.role r).allDependencies = none) (hpath : (s.graph.role r).name ∉ path)
    (hprog : Progress site read (path ++ [(s.graph.role r).name]) s₁ s₂ ([] ++ ds) [])
    {parts : List (List RoleId)}
    (hparts : List.Forall₂ (fun d part => ∃ below, (s₂.graph.role d).allDependencies = some below ∧
      part = below ++ [d]) ds parts) :
    Visit site read path s { s₂ with graph := s₂.graph.modifyRole r fun r =>
      { r with allDependencies := some parts.flatten } } r parts.flatten := by
  have hs₁ := h.learns.sound hs
  have hs₂ := hprog.learns.sound hs₁
  have hr := hs₁.hasRole_of_direct h.direct
  have hr₂ := hprog.learns.grows.keeps.hasRole hr
  -- the role is above its dependencies, so that visits of them leave it alone
  have hsame : s₂.graph.role r = s₁.graph.role r := by
    refine hprog.frame r hr (Or.inl fun d hd hb => ?_)
    have hle := hs₁.below_le hb
    have hlt := hs₁.depends_lt ⟨ds, h.direct, hd⟩
    omega
  have hset : Learns site s₂ { s₂ with graph := s₂.graph.modifyRole r fun r =>
      { r with allDependencies := some parts.flatten } } := by
    have hdirect : (s₂.graph.role r).directDependencies = some ds := by rw [hsame]; exact h.direct
    exact learns_setAll (by rw [hsame, h.all]; exact hall) hdirect
      (Graph.postOrder_known hs₂ hparts)
      fun d hd => (hprog.visited d hd).known
  refine ⟨h.learns.trans (hprog.learns.trans hset), ?_, ?_, fun q hq hb => ?_⟩
  · rw [Graph.role_modifyRole_self hr₂]
  · rw [h.faulty_iff hread hall hpath]
    rintro ⟨d, hd, hf⟩
    exact (hprog.visited d hd).sane hf
  · have hne : q ≠ r := by
      rintro rfl
      rcases hb with hb | hb
      · exact hb .refl
      · exact hb hall
    have h₁ := h.frame q hq hne
    rw [Graph.role_modifyRole_of_ne hne, hprog.frame q (h.learns.grows.keeps.hasRole hq) ?_, h₁]
    rcases hb with hb | hb
    · exact Or.inl fun d hd hdq => hb (h.below hd hq hdq)
    · rw [h₁]; exact Or.inr hb

end FoundDirect

/-- A path of distinct names is not longer than the list of all names. -/
theorem length_le_of_nodup {path names : List String} (hnodup : path.Nodup) (hsub : path ⊆ names) :
    path.length ≤ names.length :=
  (hnodup.subperm hsub).length_le

/-- **Dependencies are found unless something is wrong with them.** -/
theorem collectDependencies_ends (names : List String)
    (hfiles : ∀ name text, read name = .ok text → text.dependencies ⊆ names) :
    ∀ (n : Nat) (r : RoleId) (path : List String) (s : Store), s.graph.Sound → s.graph.HasRole r →
      (∀ name, s.readRole site name .main = read name) → s.graph.NamesBelow names r → path.Nodup →
      path ⊆ names → names.length < path.length + n →
      Ends (collectDependencies site n r path) s (fun found s' => Visit site read path s s' r found)
        fun _ s' => Learns site s s' ∧ s.graph.Faulty read path r := by
  -- a path of distinct names cannot use up the bound
  intro n
  induction n with
  | zero =>
    intro r path s _ _ _ _ hnodup hsub hlen
    have hle := length_le_of_nodup hnodup hsub
    omega
  | succ n ih =>
    intro r path s hs hr hread hnames hnodup hsub hlen
    rw [collectDependencies, ends_bind, ends_graph]
    cases hall : (s.graph.role r).allDependencies with
    | some known =>
      simp only
      refine ⟨.refl s, hall, fun hf => ?_, fun _ _ _ => rfl⟩
      rw [hf.all_none] at hall; cases hall
    | none =>
      simp only [ends_bind, ends_graph, ends_ofExcept, enterDependency]
      have hname := hnames hall r .refl
      refine ⟨fun path' hpath => ?_, fun e hpath => ?_⟩
      · split at hpath
        · cases hpath
        · rename_i hnot
          cases hpath
          rw [List.contains_iff_mem] at hnot
          refine (directDependencies_ends hs hr).mono ?_ ?_
          · intro ds s₁ hfound
            have hs₁ := hfound.learns.sound hs
            have hprog : Progress site read (path ++ [(s.graph.role r).name]) s₁ s₁ [] ds :=
              hfound.progress hs
            refine (concatEach_visits hs₁ hprog fun d hd s₂ h₂ hp => ?_).mono ?_ ?_
            · refine ih d _ s₂ (h₂.sound hs₁) (h₂.grows.keeps.hasRole (hprog.has d hd))
                (fun name => ?_)
                (hp.namesBelow (hfound.namesBelow hs hread hfiles hall hnames hd)) ?_ ?_ ?_
              · rw [(hfound.learns.trans h₂).readRole, hread]
              · rw [← List.concat_eq_append]
                exact hnodup.concat hnot
              · exact List.append_subset.2 ⟨hsub, List.cons_subset.2 ⟨hname.1, List.nil_subset _⟩⟩
              · rw [List.length_append, List.length_singleton]; omega
            · rintro _ s₂ ⟨hprog, h₁₂, parts, rfl, hparts⟩
              rw [ends_update, ends_pure]
              exact hfound.visit hs hread hall hnot hprog hparts
            · rintro e s₂ ⟨h₁₂, hf⟩
              exact ⟨hfound.learns.trans h₁₂, (hfound.faulty_iff hread hall hnot).2 hf⟩
          · -- the failure is that of the first name that cannot be read
            rintro e s₁ ⟨hadv, hdirect, hfail⟩
            obtain ⟨front, n, back, hnames, -, hfail⟩ := mapM_error_iff.1 hfail
            have hn : n ∈ (s.graph.role r).declared.dependencies.map (·.name) := by
              show n ∈ (s.graph.roleHead r).dependencies
              rw [hnames]; exact List.mem_append_right _ List.mem_cons_self
            rw [Store.readNamed_error, hread] at hfail
            exact ⟨hadv, .declared hall hdirect hn (.load hfail)⟩
      · split at hpath
        · rename_i hmem
          exact ⟨.refl s, .cycle hall (List.contains_iff_mem.1 hmem)⟩
        · cases hpath

end Collect

end Runlist
