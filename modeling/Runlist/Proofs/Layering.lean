import Runlist.Proofs.DependencyOrder
import Runlist.Proofs.Watch.Tape

/-!
# Defaults, dependency by dependency

The defaults of a role are laid over one another in one pass over all roles below it. It comes to
the same to take the complete defaults of each direct dependency, one after the other, and the
role's own at last.

* `Layers.compose`: **a role's layers are those of its dependencies**, one over the other, and its
  own.
* `Discovers.faulty_before`: whatever is asked of a site, nothing goes wrong that was not wrong
  before.
* `SameRole`, `Graph.PostOrder.defaults_eq`: dependencies that are discovered twice have the same
  defaults.
* `defaultVars_through`: what a role depends on directly is found first.
* `defaultVars_stay`, `defaultVars_again`: what a role was answered is answered again, and what is
  asked later is the same.
* `defaultVars_layered`: **defaults are those of the dependencies and the role's own**, whether the
  dependencies are asked for theirs before or after.
-/

namespace Runlist

open Relation (ReflTransGen)

variable {site : Site} {s s' s₁ s₂ : Store} {r d : RoleId} {path : List String} {name : String}
  {rs rs' l l' : List RoleId} {vars : Variables}

/-! ## Layers of layers -/

namespace Graph

variable {g : Graph}

/-- There is one way to lay defaults over one another. -/
theorem Layers.unique {vars' : Variables} (h : g.Layers rs vars) (h' : g.Layers rs vars') :
    vars = vars' := by
  obtain ⟨layers, hpost, rfl⟩ := h
  obtain ⟨layers', hpost', rfl⟩ := h'
  rw [hpost.unique hpost']

/-- The complete defaults of one more role. -/
theorem Layers.snoc {part : Variables} (hs : g.Sound) (h : g.Layers rs vars)
    (hr : g.Layers [r] part) : g.Layers (rs ++ [r]) (vars.assign part) := by
  obtain ⟨layers, hpost, rfl⟩ := h
  obtain ⟨own, hown, rfl⟩ := hr
  have hsorted : ∀ source ∈ own.map (fun q => (g.role q).defaults), Fields.Sorted source := by
    intro source hsource
    obtain ⟨q, hq, rfl⟩ := List.mem_map.1 hsource
    exact (hs.roles q (hown.hasRole hs q hq)).defaults
  refine ⟨layers ++ own, hpost.append hown, ?_⟩
  rw [Variables.assign_ofSources (Variables.sorted_ofSources _) hsorted, Variables.ofSources,
    Variables.ofSources, ← List.foldl_append, ← List.map_append]

/-- The complete defaults of some roles, one over the other. -/
theorem Layers.foldl {parts : List Variables} (hs : g.Sound) (h : g.Layers rs vars)
    (hparts : List.Forall₂ (fun q part => g.Layers [q] part) rs' parts) :
    g.Layers (rs ++ rs') (parts.foldl Variables.assign vars) := by
  induction hparts generalizing rs vars with
  | nil => rw [List.append_nil]; exact h
  | @cons q part rest parts hq _ ih =>
    rw [List.append_cons]
    exact ih (h.snoc hs hq)

/-- **A role's layers are those of its dependencies**, one over the other, and its own. -/
theorem Layers.compose {direct : List RoleId} {parts : List Variables} (hs : g.Sound)
    (hdirect : (g.role r).directDependencies = some direct)
    (hparts : List.Forall₂ (fun d part => g.Layers [d] part) direct parts) (h : g.Layers [r] vars) :
    vars = (parts.foldl Variables.assign []).assign (g.role r).defaults := by
  obtain ⟨layers, hpost, rfl⟩ := h
  obtain ⟨below, hbelow, hfold⟩ := Layers.foldl hs (⟨[], .nil, rfl⟩ : g.Layers [] []) hparts
  have hlayers : layers = below ++ [r] := hpost.unique (.cons hdirect hbelow .nil)
  rw [hlayers, hfold, List.map_append, Variables.ofSources, List.foldl_append]
  rfl

end Graph

/-! ## No faults are added -/

/-- What is wrong with a role that was discovered was wrong with its name. -/
theorem Discovers.broken_before (h : Discovers site s s₁) (hr : Discovered site s s₁ name r)
    (hfault : s₁.graph.Faulty (s.readRole site · .main) path r) :
    Broken (s.readRole site · .main) path name := by
  induction hfault generalizing name with
  | cycle _ hmem =>
    rw [hr.named] at hmem
    exact .cycle hmem
  | @known path r d ds _ hd hmem _ ih =>
    obtain ⟨text, hread, hhead⟩ := hr.reads
    -- the role is new, so that what it depends on is new as well
    have hnew :
        List.Forall₂ (Discovered site s s₁)
          ((s₁.graph.role r).declared.dependencies.map (·.name)) ds := by
      refine (h.introduced r ds hd).resolve_left fun hold => ?_
      rw [Graph.role_of_not_has hr.new] at hold; cases hold
    obtain ⟨n, hn, hdiscovered⟩ := exists_left hnew hmem
    have hbroken := ih hdiscovered
    rw [hr.named] at hbroken
    have hdeps : (s₁.graph.role r).declared.dependencies.map (·.name) = text.dependencies :=
      congrArg RoleHead.dependencies hhead
    exact .leads hread (hdeps ▸ hn) hbroken
  | @declared path r n _ _ hn hbroken =>
    obtain ⟨text, hread, hhead⟩ := hr.reads
    rw [hr.named] at hbroken
    have hdeps : (s₁.graph.role r).declared.dependencies.map (·.name) = text.dependencies :=
      congrArg RoleHead.dependencies hhead
    exact .leads hread (hdeps ▸ hn) hbroken

/-- **Whatever is asked of a site, nothing goes wrong with a role that was not wrong before.** -/
theorem Discovers.faulty_before (h : Discovers site s s₁) (hg : s.graph.Grows s₁.graph)
    (hs : s.graph.Linked) (hr : s.graph.HasRole r)
    (hfault : s₁.graph.Faulty (s.readRole site · .main) path r) :
    s.graph.Faulty (s.readRole site · .main) path r := by
  have hnone : ∀ q, s.graph.HasRole q → (s₁.graph.role q).allDependencies = none →
      (s.graph.role q).allDependencies = none := by
    intro q hq hall
    by_contra hknown
    obtain ⟨found, hfound⟩ := Option.ne_none_iff_exists'.1 hknown
    rw [(hg.keeps.role q hq).all found hfound] at hall
    cases hall
  induction hfault with
  | cycle hall hmem =>
    rw [(h.retains _ hr).name] at hmem
    exact .cycle (hnone _ hr hall) hmem
  | @known path r d ds hall hd hmem hbelow ih =>
    rw [(h.retains r hr).name] at hbelow ih
    rcases h.introduced r ds hd with hold | hnew
    · exact .known (hnone r hr hall) hold hmem (ih (hs r ds hold d hmem))
    · -- it was known before, or it is what its declaration says now
      have hdirect : (s.graph.role r).directDependencies = none ∨
          (s.graph.role r).directDependencies = some ds := by
        cases hold : (s.graph.role r).directDependencies with
        | none => exact .inl rfl
        | some known =>
          have hkept := (h.retains r hr).direct known hold
          rw [hd] at hkept
          exact .inr hkept.symm
      rcases hdirect with hold | hold
      · obtain ⟨n, hn, hdiscovered⟩ := exists_left hnew hmem
        rw [(h.retains r hr).declared] at hn
        exact .declared (hnone r hr hall) hold hn (h.broken_before hdiscovered hbelow)
      · exact .known (hnone r hr hall) hold hmem (ih (hs r ds hold d hmem))
  | @declared path r n hall hd hn hbroken =>
    rw [(h.retains r hr).declared] at hn
    rw [(h.retains r hr).name] at hbroken
    refine .declared (hnone r hr hall) ?_ hn hbroken
    cases hold : (s.graph.role r).directDependencies with
    | none => rfl
    | some known =>
      rw [(h.retains r hr).direct known hold] at hd
      cases hd

/-! ## Roles that are discovered twice -/

/-- **The same role in two continuations of a state**: it was there, or it was discovered in both
for one name. -/
def SameRole (site : Site) (s s₁ s₂ : Store) (r r' : RoleId) : Prop :=
  r = r' ∧ s.graph.HasRole r ∨ ∃ name, Discovered site s s₁ name r ∧ Discovered site s s₂ name r'

theorem sameRoles_discovered {names : List String} (h : List.Forall₂ (Discovered site s s₁) names l)
    (h' : List.Forall₂ (Discovered site s s₂) names l') :
    List.Forall₂ (SameRole site s s₁ s₂) l l' := by
  induction h generalizing l' with
  | nil => cases h'; exact .nil
  | @cons name r names l hr _ ih =>
    cases h' with
    | cons hr' hrest => exact .cons (.inr ⟨name, hr, hr'⟩) (ih hrest)

theorem sameRoles_refl (h : ∀ r ∈ l, s.graph.HasRole r) :
    List.Forall₂ (SameRole site s s₁ s₂) l l :=
  List.forall₂_same.2 fun r hr => .inl ⟨rfl, h r hr⟩

namespace SameRole

variable {r' : RoleId} {ds ds' : List RoleId}

theorem defaults (h₁ : Discovers site s s₁) (h₂ : Discovers site s s₂)
    (h : SameRole site s s₁ s₂ r r') :
    (s₁.graph.role r).defaults = (s₂.graph.role r').defaults := by
  rcases h with ⟨rfl, hr⟩ | ⟨name, hr, hr'⟩
  · have hhead := (h₁.retains r hr).head.trans (h₂.retains r hr).head.symm
    exact congrArg RoleHead.defaults hhead
  · obtain ⟨text, hread, hhead⟩ := hr.reads
    obtain ⟨text', hread', hhead'⟩ := hr'.reads
    rw [hread] at hread'
    cases hread'
    exact congrArg RoleHead.defaults (hhead.trans hhead'.symm)

/-- What they depend on is the same as well. -/
theorem direct (h₁ : Discovers site s s₁) (h₂ : Discovers site s s₂) (hs : s.graph.Linked)
    (h : SameRole site s s₁ s₂ r r') (hd : (s₁.graph.role r).directDependencies = some ds)
    (hd' : (s₂.graph.role r').directDependencies = some ds') :
    List.Forall₂ (SameRole site s s₁ s₂) ds ds' := by
  rcases h with ⟨rfl, hr⟩ | ⟨name, hr, hr'⟩
  · cases hold : (s.graph.role r).directDependencies with
    | some known =>
      rw [(h₁.retains r hr).direct known hold] at hd
      rw [(h₂.retains r hr).direct known hold] at hd'
      cases hd
      cases hd'
      exact sameRoles_refl fun d hmem => hs r ds hold d hmem
    | none =>
      have hnew := (h₁.introduced r ds hd).resolve_left fun h => by rw [hold] at h; cases h
      have hnew' := (h₂.introduced r ds' hd').resolve_left fun h => by rw [hold] at h; cases h
      rw [(h₁.retains r hr).declared] at hnew
      rw [(h₂.retains r hr).declared] at hnew'
      exact sameRoles_discovered hnew hnew'
  · have hnew := (h₁.introduced r ds hd).resolve_left fun h => by
      rw [Graph.role_of_not_has hr.new] at h; cases h
    have hnew' := (h₂.introduced r' ds' hd').resolve_left fun h => by
      rw [Graph.role_of_not_has hr'.new] at h; cases h
    obtain ⟨text, hread, hhead⟩ := hr.reads
    obtain ⟨text', hread', hhead'⟩ := hr'.reads
    rw [hread] at hread'
    cases hread'
    have hnames : (s₁.graph.role r).declared.dependencies.map (·.name) =
        (s₂.graph.role r').declared.dependencies.map (·.name) :=
      congrArg RoleHead.dependencies (hhead.trans hhead'.symm)
    rw [hnames] at hnew
    exact sameRoles_discovered hnew hnew'

end SameRole

/-- **Dependencies that are discovered twice have the same defaults**, in the same order. -/
theorem Graph.PostOrder.defaults_eq (h₁ : Discovers site s s₁) (h₂ : Discovers site s s₂)
    (hs : s.graph.Linked) (h : s₁.graph.PostOrder rs l) (h' : s₂.graph.PostOrder rs' l')
    (hmatches : List.Forall₂ (SameRole site s s₁ s₂) rs rs') :
    l.map (fun r => (s₁.graph.role r).defaults) = l'.map fun r => (s₂.graph.role r).defaults := by
  induction h generalizing rs' l' with
  | nil =>
    cases hmatches
    cases h'
    rfl
  | cons hd _ _ ihbelow ihrest =>
    cases hmatches with
    | cons hmatch hrest =>
      cases h' with
      | cons hd' hbelow' hrest' =>
        have hbelow := ihbelow hbelow' (hmatch.direct h₁ h₂ hs hd hd')
        have hothers := ihrest hrest' hrest
        rw [List.map_append, List.map_append, List.map_cons, List.map_cons, hbelow,
          hmatch.defaults h₁ h₂, hothers]

/-! ## Finding defaults -/

/-- Defaults are found unless something is wrong, and are layers then. -/
theorem defaultVars_layers (hs : s.graph.Sound) (hr : s.graph.HasRole r)
    (hsane : ¬ s.graph.Faulty (s.readRole site · .main) [] r) :
    ∃ vars s', (defaultVars site r).run.run s = (.ok vars, s') ∧
    Discovers site s s' ∧ s'.graph.Layers [r] vars := by
  have hdiscovers := ((steady_discovers site).defaultVars r s)
  cases hrun : (defaultVars site r).run.run s with
  | mk result s' =>
    cases result with
    | error err => exact absurd ((defaultVars_ends hs hr).of_error hrun).2 hsane
    | ok vars =>
      obtain ⟨found, hvisit, hvars⟩ := (defaultVars_ends hs hr).of_ok hrun
      have hrole := (hvisit.learns.sound hs).roles r (hvisit.learns.grows.keeps.hasRole hr)
      obtain ⟨direct, hdirect, hpost, -⟩ := hrole.all found hvisit.known
      exact ⟨vars, s', rfl, hdiscovers.of_ok hrun, found ++ [r], .cons hdirect hpost .nil, hvars⟩

/-- Defaults of a role all of whose dependencies are known are theirs and its own, and nothing
changes. -/
theorem defaultVars_of_known {found : List RoleId}
    (hfound : (s.graph.role r).allDependencies = some found) (site : Site) :
    (defaultVars site r).run.run s =
      (.ok (Variables.ofSources ((found ++ [r]).map fun q => (s.graph.role q).defaults)), s) := by
  have hall := allDependencies_known hfound site
  refine run_eq_ok ?_
  unfold defaultVars
  rw [ends_bind]
  refine ends_iff.2 ⟨fun a s₁ h => ?_, fun e s₁ h => ?_⟩
  · rw [hall] at h
    cases h
    rw [ends_bind, ends_graph, ends_pure, Variables.ofSources, List.foldl_map]
    exact ⟨rfl, rfl⟩
  · rw [hall] at h
    cases h

/-- Defaults of a role all of whose dependencies are known are layers, and nothing changes. -/
theorem defaultVars_known {found : List RoleId} (hs : s.graph.Sound)
    (hfound : (s.graph.role r).allDependencies = some found) (site : Site) :
    ∃ vars, (defaultVars site r).run.run s = (.ok vars, s) ∧ s.graph.Layers [r] vars := by
  obtain ⟨direct, hdirect, hpost, -⟩ := (hs.roles r (Graph.hasRole_of_all hfound)).all found hfound
  exact ⟨_, defaultVars_of_known hfound site, found ++ [r], .cons hdirect hpost .nil, rfl⟩

/-- **What a role depends on directly is found first**, on the way to its defaults. -/
theorem defaultVars_through (hs : s.graph.Sound) (hr : s.graph.HasRole r) (site : Site) :
    Ends (defaultVars site r) s
      (fun _ s' => ∃ direct s₁, (directDependencies site r).run.run s = (.ok direct, s₁) ∧
        Discovers site s₁ s')
      fun _ _ => True := by
  cases hall : (s.graph.role r).allDependencies with
  | some found =>
    obtain ⟨direct, hdirect, -⟩ := (hs.roles r hr).all found hall
    have hrun := directDependencies_known hdirect site
    exact ((steady_discovers site).defaultVars r s).mono (fun _ s' h => ⟨direct, s, hrun, h⟩)
      fun _ _ _ => trivial
  | none =>
    unfold defaultVars allDependencies dependencyBound
    simp only [ends_bind, ends_get, collectDependencies, ends_graph, hall, ends_ofExcept,
      enterDependency]
    refine ⟨fun path hpath => ?_, fun _ _ => trivial⟩
    refine (Ends.run (directDependencies site r) s).mono (fun direct s₁ hrun => ?_)
      fun _ _ _ => trivial
    refine ((Along.concatEach (fun d => ?_) direct : Along (Discovers site) _) s₁).mono
      (fun found s₂ h₂ => ?_)
      fun _ _ _ => trivial
    · exact ((steady_discovers site).collectDependencies _ d path).bind fun _ => .pure _
    · exact ⟨direct, s₁, hrun, h₂.trans ((steady_discovers site).all r found s₂)⟩

/-- Nothing is wrong with the dependencies of a role with which nothing is wrong. -/
theorem FoundDirect.sane {ds : List RoleId} (h : FoundDirect site s s₁ r ds) (hs : s.graph.Sound)
    (hsane : ¬ s.graph.Faulty (s.readRole site · .main) [] r) (hd : d ∈ ds) :
    ¬ s₁.graph.Faulty (s.readRole site · .main) [] d := by
  intro hfault
  cases hall : (s.graph.role r).allDependencies with
  | none =>
    have hbelow := hfault.mono (List.nil_subset ([] ++ [(s.graph.role r).name]))
    exact hsane ((h.faulty_iff (fun _ => rfl) hall List.not_mem_nil).2 ⟨d, hd, hbelow⟩)
  | some found =>
    rcases h.known with ⟨hdirect, rfl⟩ | ⟨hnone, -⟩
    · have hknown :=
        hs.known_below (.single ⟨ds, hdirect, hd⟩) (by rw [hall]; exact Option.some_ne_none found)
      exact hknown hfault.all_none
    · obtain ⟨direct, hdirect, -⟩ := (hs.roles r (Graph.hasRole_of_all hall)).all found hall
      rw [hnone] at hdirect
      cases hdirect

/-! ## The two ways -/

/-- Defaults that were composed once are composed again, in every state after and on every site. -/
theorem defaultVars_stay {sites' : Site → Prop} {below : List RoleId} {part : Variables}
    (hs' : s'.graph.Sound) (hall : (s'.graph.role r).allDependencies = some below)
    (hpart : s'.graph.Layers [r] part) (hreaches : Reaches sites' s' s₂) (site' : Site) :
    (defaultVars site' r).run.run s₂ = (.ok part, s₂) := by
  have hgrows := hreaches.grows hs'
  have hknown := (hgrows.keeps.role r (Graph.hasRole_of_all hall)).all below hall
  obtain ⟨part', hrun, hpart'⟩ := defaultVars_known (hreaches.sound hs') hknown site'
  rw [(hpart.grows hs' hgrows).unique hpart']
  exact hrun

/-- **A role that is sane has the same defaults whenever it is asked**, on the same site: what was
discovered below it is discovered again. -/
theorem defaultVars_again {part : Variables} (hs₁ : s₁.graph.Sound) (hd : s₁.graph.HasRole d)
    (hsane : ¬ s₁.graph.Faulty (s₁.readRole site · .main) [] d) (hafter : Discovers site s₁ s')
    (hpart : s'.graph.Layers [d] part) (hreaches : Reaches (· = site) s₁ s₂) :
    ∃ s₃, (defaultVars site d).run.run s₂ = (.ok part, s₃) := by
  have hon : Discovers site s₁ s₂ := reaches_along (fun _ h => h ▸ steady_discovers site) hreaches
  have hread : (s₂.readRole site · .main) = (s₁.readRole site · .main) :=
    funext fun name => hon.readRole name .main
  have hsane₂ : ¬ s₂.graph.Faulty (s₂.readRole site · .main) [] d := by
    rw [hread]; exact fun hfault =>
      hsane (hon.faulty_before (hreaches.grows hs₁) hs₁.linked hd hfault)
  obtain ⟨part', s₃, hrun, hmore, layers', hpost', rfl⟩ :=
    defaultVars_layers (hreaches.sound hs₁) (hon.hasRole hd) hsane₂
  obtain ⟨layers, hpost, rfl⟩ := hpart
  -- both have discovered the same roles, starting from this one
  have hmatches : List.Forall₂ (SameRole site s₁ s₃ s') [d] [d] := sameRoles_refl fun q hq => by
    rw [List.mem_singleton.1 hq]; exact hd
  rw [← hpost'.defaults_eq (hon.trans hmore) hafter hs₁.linked hpost hmatches]
  exact ⟨s₃, hrun⟩

/-- **Defaults are those of the direct dependencies, one over the other, and the role's own.** If a
role has its defaults, what it depends on directly is found in the order in which it is declared,
and has its defaults as well: in every state to which requests of the site lead from there, and in
every state after, whatever the files have become. -/
theorem defaultVars_layered {sites : Site → Prop} (h : Reachable sites s) (hr : s.graph.HasRole r)
    (hrun : (defaultVars site r).run.run s = (.ok vars, s')) : ∃ direct parts s₁,
      (directDependencies site r).run.run s = (.ok direct, s₁) ∧
      direct.map (fun d => (s₁.graph.role d).name) =
        (s.graph.role r).declared.dependencies.map (·.name) ∧
      vars = (parts.foldl Variables.assign []).assign (s.graph.role r).defaults ∧
      (∀ s₂, Reaches (· = site) s₁ s₂ →
        List.Forall₂ (fun d part => ∃ s₃, (defaultVars site d).run.run s₂ = (.ok part, s₃))
          direct parts) ∧
      ∀ sites' s₂ site', Reaches sites' s' s₂ →
        (directDependencies site' r).run.run s₂ = (.ok direct, s₂) ∧
        (defaultVars site' r).run.run s₂ = (.ok vars, s₂) ∧
        List.Forall₂ (fun d part => (defaultVars site' d).run.run s₂ = (.ok part, s₂))
          direct parts := by
  have hs := h.sound
  obtain ⟨found, hvisit, hvars⟩ := (defaultVars_ends hs hr).of_ok hrun
  have hs' := hvisit.learns.sound hs
  have hr' := hvisit.learns.grows.keeps.hasRole hr
  obtain ⟨direct, s₁, hdirect, hafter⟩ := (defaultVars_through hs hr site).of_ok hrun
  have hfound := (directDependencies_ends hs hr).of_ok hdirect
  have hs₁ := hfound.learns.sound hs
  have hr₁ := hs₁.hasRole_of_direct hfound.direct
  have hknown : (s'.graph.role r).directDependencies = some direct :=
    (hafter.retains r hr₁).direct direct hfound.direct
  have hlayers : s'.graph.Layers [r] vars := by
    obtain ⟨direct', hdirect', hpost, -⟩ := (hs'.roles r hr').all found hvisit.known
    exact ⟨found ++ [r], .cons hdirect' hpost .nil, hvars⟩
  -- the complete defaults of each dependency, as they are known in the end
  have hbelow : ∀ d ∈ direct, ∃ below, (s'.graph.role d).allDependencies = some below :=
    fun d hd => by
    have hsome :=
      hs'.known_below (.single ⟨direct, hknown, hd⟩)
        (by rw [hvisit.known]; exact Option.some_ne_none found)
    exact Option.ne_none_iff_exists'.1 hsome
  obtain ⟨parts, hparts⟩ :=
    exists_forall₂ (R := fun d part => s'.graph.Layers [d] part) fun d hd => by
    obtain ⟨below, hall⟩ := hbelow d hd
    obtain ⟨part, -, hpart⟩ := defaultVars_known hs' hall site
    exact ⟨part, hpart⟩
  refine ⟨direct, parts, s₁, hdirect, ?_, ?_,
    fun s₂ hreaches => ?_, fun sites' s₂ site' hreaches => ?_⟩
  · have hnames :=
      ((hs₁.roles r hr₁).direct direct hfound.direct).imp fun _ _ hstands => hstands.2.symm
    rw [← forall₂_map_eq hnames, (hfound.learns.grows.role r hr).same]
  · rw [Graph.Layers.compose hs' hknown hparts hlayers, (hvisit.learns.grows.role r hr).same]
  · have hread : (s₁.readRole site · .main) = (s.readRole site · .main) :=
      funext fun name => hfound.learns.readRole name .main
    refine forall₂_mem hparts fun d part hd _ hpart => ?_
    have hsane : ¬ s₁.graph.Faulty (s₁.readRole site · .main) [] d := by
      rw [hread]; exact hfound.sane hs hvisit.sane hd
    exact defaultVars_again hs₁ (hs₁.hasRole_dep hfound.direct hd) hsane hafter hpart hreaches
  · refine ⟨run_eq_ok ?_, defaultVars_stay hs' hvisit.known hlayers hreaches site',
      forall₂_mem hparts fun d part hd _ hpart => ?_⟩
    · unfold directDependencies
      simp only [ends_bind, ends_graph,
        ((hreaches.grows hs').keeps.role r hr').direct direct hknown]
      exact ⟨rfl, rfl⟩
    · obtain ⟨below, hall⟩ := hbelow d hd
      exact defaultVars_stay hs' hall hpart hreaches site'

/-- A role that depends on two others, both of which depend on one more; the first of the two
changes a default. -/
def overlapSite : Site where
  disk := ⟨.dir [("roles", .dir [
    ("base", .dir [("defaults", .dir [("main.yml", .file (.text "port: 1\n"))])]),
    ("left", .dir [("defaults", .dir [("main.yml", .file (.text "port: 2\n"))]),
      ("meta", .dir [("main.yml", .file (.text "dependencies:\n  - base\n"))])]),
    ("right", .dir [("meta", .dir [("main.yml", .file (.text "dependencies:\n  - base\n"))])]),
    ("top", .dir [("meta", .dir [
      ("main.yml", .file (.text "dependencies:\n  - left\n  - right\n"))])])])], []⟩
  root := ⟨"."⟩
  config := ⟨[]⟩

/-- The first of these roles is loaded into an empty state. -/
def overlapLoad : Except LoadError RoleId × Store :=
  (loadRole overlapSite none none "top").run.run .empty

/-- Its defaults, in the state in which it was loaded. -/
def overlapDefaults : Except LoadError Variables × Store :=
  (defaultVars overlapSite ⟨0⟩).run.run overlapLoad.2

/-- The default that the first dependency changes is changed back by what the second depends on. -/
theorem overlap_layered :
    ∃ vars direct parts s₁, (Fields.get? vars "port").map Json.text = some "1" ∧
    (directDependencies overlapSite ⟨0⟩).run.run overlapLoad.2 = (.ok direct, s₁) ∧
    vars = (parts.foldl Variables.assign []).assign (overlapLoad.2.graph.role ⟨0⟩).defaults ∧
    List.Forall₂ (fun d part => ∃ s₃, (defaultVars overlapSite d).run.run s₁ = (.ok part, s₃))
      direct parts := by
  have hreach : Reachable (· = overlapSite) overlapLoad.2 := reachable_loadRole overlapSite "top"
  obtain ⟨hhas, hport⟩ : overlapLoad.2.graph.HasRole ⟨0⟩ ∧
      overlapDefaults.1.toOption.map (fun vars => (Fields.get? vars "port").map Json.text) =
        some (some "1") := by
    decide +kernel
  obtain ⟨vars, hvars, hvalue⟩ := Option.map_eq_some_iff.1 hport
  obtain ⟨direct, parts, s₁, hdirect, -, hlayered, hparts, -⟩ :=
    defaultVars_layered hreach hhas (run_ok hvars)
  exact ⟨vars, direct, parts, s₁, hvalue, hdirect, hlayered, hparts s₁ .refl⟩

end Runlist
