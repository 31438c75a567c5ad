import Runlist.Proofs.Outcome.Layers
import Runlist.Proofs.Outcome.Nodes

/-!
# Dependencies as the documents have them

Dependencies that are known are taken as they are, without a look at the path that leads to them.
They are those that the documents give on this path: what has been followed to its end is on no
cycle.

* `Graph.PostOrder.stacked`: known dependencies stack.
* `collectDependencies_follows`: **dependencies are those of the documents, or fail as these do.**
* `allDependencies_follows`, `defaultVars_follows`: the same without a path.
-/

namespace Runlist

open Relation (ReflTransGen)

variable {site : Site} {s s₁ : Store} {r : RoleId}

namespace Graph

variable {g : Graph}

/-- Known dependencies stack. -/
theorem PostOrder.stacked (hf : Faithful site s) {rs l : List RoleId} (h : s.graph.PostOrder rs l) :
    site.Stacked (rs.map s.graph.namedHead) (l.map s.graph.namedHead) := by
  induction h with
  | nil => exact .nil
  | @cons r direct below rest l hd _ _ ih₁ ih₂ =>
    obtain ⟨roles, hread, hshows⟩ := hf.direct r direct hd
    have hheads : direct.map s.graph.namedHead = roles.map (·.head) :=
      forall₂_map_eq (hshows.imp fun _ _ h => h.head)
    rw [List.map_cons, List.map_append, List.map_cons]
    exact .cons (readHeads_iff.2 ⟨roles, hread, hheads⟩) ih₁ ih₂

theorem namedHead_setAll (g : Graph) (r q : RoleId) (l : List RoleId) :
    (g.modifyRole r fun r => { r with allDependencies := some l }).namedHead q = g.namedHead q := by
  rw [namedHead, namedHead, roleHead, roleHead, role_modifyRole]
  split
  · rename_i h
    rw [h.1]
  · rfl

end Graph

/-- The roles of a state over a tree in order depend on what the files of their names declare. -/
theorem Faithful.namedReal (hf : Faithful site s) (hordered : site.disk.tree.Ordered)
    (hr : s.graph.HasRole r) :
    (s.graph.namedHead r).Real site := hf.real hordered hf.dirs r hr

/-- The names below a role are declared in the tree. -/
theorem namesBelow_of_real (hs : s.graph.Sound) (hf : Faithful site s)
    (hordered : site.disk.tree.Ordered) (hr : s.graph.HasRole r) {names : List String}
    (hname : (s.graph.role r).name ∈ names) (hdeclared : site.declaredNames ⊆ names) :
    s.graph.NamesBelow names r := by
  intro _ q hq
  have hdeps : ∀ q, s.graph.HasRole q →
      (s.graph.role q).declared.dependencies.map (·.name) ⊆ names := by
    intro q hq
    have hreal : (s.graph.role q).declared.dependencies.map (·.name) =
        site.dependencyNames (s.graph.role q).name :=
      hf.namedReal hordered hq
    rw [hreal]
    exact List.Subset.trans (dependencyNames_subset site _) hdeclared
  refine ⟨?_, hdeps q (hasRole_below hs hq hr)⟩
  rcases Relation.ReflTransGen.cases_tail hq with rfl | ⟨p, hp, ds, hds, hmem⟩
  · exact hname
  · obtain ⟨d, hd, -, hdname⟩ :=
      exists_left ((hs.roles p (hs.hasRole_of_direct hds)).direct ds hds) hmem
    rw [hdname]
    exact hdeps p (hs.hasRole_of_direct hds) (List.mem_map_of_mem hd)

/-- The direct dependencies that were found are those of the documents. -/
theorem FoundDirect.readHeads {ds : List RoleId} (h : FoundDirect site s s₁ r ds)
    (hf : Faithful site s₁) (hr : s.graph.HasRole r) :
    site.readHeads (s.graph.roleHead r).dependencies = .ok (ds.map s₁.graph.namedHead) := by
  obtain ⟨roles, hread, hshows⟩ := hf.direct r ds h.direct
  rw [Graph.roleHead_stays h.learns.grows.toStays hr] at hread
  exact readHeads_iff.2 ⟨roles, hread, forall₂_map_eq (hshows.imp fun _ _ h => h.head)⟩

/-- The name of a role leads to those of its dependencies. -/
theorem Graph.Real.leads {heads : List NamedHead} (h : s.graph.Real site r)
    (hread : site.readHeads (s.graph.roleHead r).dependencies = .ok heads) {head : NamedHead}
    (hhead : head ∈ heads) : site.Leads (s.graph.role r).name head.name := by
  rw [Site.Leads, ← h, ← (readHeads_ok hread).1]
  exact List.mem_map_of_mem hhead

/-- The names and the declarations of some roles of a state. -/
structure HeadsOf (found : List RoleId) (heads : List NamedHead) (s : Store) : Prop where
  has : ∀ q ∈ found, s.graph.HasRole q
  heads : heads = found.map s.graph.namedHead

namespace HeadsOf

variable {found found' : List RoleId} {heads heads' : List NamedHead}

theorem nil (s : Store) : HeadsOf [] [] s := ⟨fun _ h => (List.not_mem_nil h).elim, rfl⟩

theorem single (hr : s.graph.HasRole r) : HeadsOf [r] [s.graph.namedHead r] s :=
  ⟨fun q hq => by rw [List.mem_singleton.1 hq]; exact hr, rfl⟩

theorem append (h : HeadsOf found heads s) (h' : HeadsOf found' heads' s) :
    HeadsOf (found ++ found') (heads ++ heads') s where
  has q hq := (List.mem_append.1 hq).elim (h.has q) (h'.has q)
  heads := by rw [h.heads, h'.heads, List.map_append]

theorem stays (hst : s.graph.Stays s₁.graph) (h : HeadsOf found heads s) :
    HeadsOf found heads s₁ where
  has q hq := hst.keeps.hasRole (h.has q hq)
  heads :=
    h.heads.trans (List.map_congr_left fun q hq => (Graph.namedHead_stays hst (h.has q hq)).symm)

/-- What is known of all its dependencies is no part of what a role declares. -/
theorem setAll (h : HeadsOf found heads s) (r : RoleId) (l : List RoleId) :
    HeadsOf found heads
      { s with graph := s.graph.modifyRole r fun r => { r with allDependencies := some l } } where
  has q hq := Graph.hasRole_modifyRole.2 (h.has q hq)
  heads := h.heads.trans (List.map_congr_left fun q _ => (s.graph.namedHead_setAll r q l).symm)

end HeadsOf

section Collect

variable {names path : List String}

/-- On a path that has not used up its bound, dependencies are visited. -/
theorem collectDependencies_visits (hs : s.graph.Sound) (hf : Faithful site s)
    (hordered : site.disk.tree.Ordered) (hr : s.graph.HasRole r) {n : Nat}
    (hpath : site.OnPath names path n (s.graph.role r).name) :
    Ends (collectDependencies site n r path) s
      (fun found s' => Visit site (s.readRole site · .main) path s s' r found)
      fun _ s' => Learns site s s' := by
  refine (collectDependencies_ends names (fun name text h => ?_) n r path s hs hr (fun _ => rfl)
    (namesBelow_of_real hs hf hordered hr hpath.mem hpath.declared) hpath.nodup hpath.subset
    hpath.bound).mono
    (fun _ _ h => h) fun _ _ h => h.1
  exact List.Subset.trans (dependencies_subset h) hpath.declared

/-- **Dependencies are those of the documents**, or fail as these do. -/
theorem collectDependencies_follows (hordered : site.disk.tree.Ordered) :
    ∀ (n m : Nat) (r : RoleId) (path : List String) (s : Store), s.graph.Sound → Faithful site s →
      s.graph.HasRole r → site.OnPath names path n (s.graph.role r).name →
      site.OnPath names path m (s.graph.role r).name →
      Ends (collectDependencies site n r path) s
        (fun found s' => Learns site s s' ∧ ∃ heads,
          site.layersOn m path (s.graph.namedHead r) = .ok heads ∧ HeadsOf (found ++ [r]) heads s')
        fun e s' => Learns site s s' ∧ site.layersOn m path (s.graph.namedHead r) = .error e := by
  intro n
  induction n with
  | zero =>
    intro m r path s _ _ _ hpath _
    obtain ⟨_, hpos⟩ := hpath.pos
    cases hpos
  | succ n ih =>
    intro m r path s hs hf hr hpath hpath'
    obtain ⟨m, rfl⟩ := hpath'.pos
    suffices h : Ends (collectDependencies site (n + 1) r path) s
        (fun found s' => ∃ heads,
          site.layersOn (m + 1) path (s.graph.namedHead r) = .ok heads ∧
          HeadsOf (found ++ [r]) heads s')
        fun e _ => site.layersOn (m + 1) path (s.graph.namedHead r) = .error e from
      ((collectDependencies_visits hs hf hordered hr hpath).and h).mono
        (fun _ _ h => ⟨h.1.learns, h.2⟩) fun _ _ h => h
    rw [collectDependencies, ends_bind, ends_graph]
    cases hall : (s.graph.role r).allDependencies with
    | some known =>
      obtain ⟨ds, hds, hpost, -⟩ := (hs.roles r hr).all known hall
      have hone : s.graph.PostOrder [r] (known ++ [r]) := .cons hds hpost .nil
      -- what is known has been followed to its end, so that no path leads to a cycle in it
      have hlayers := layersOn_of_stacked_one (hf.namedReal hordered hr) (hone.stacked hf) hpath'
      exact ⟨_, hlayers, hone.hasRole hs, rfl⟩
    | none =>
      have henter : enterDependency s.graph r path = enterName path (s.graph.namedHead r).name :=
        rfl
      simp only [ends_bind, ends_graph, ends_ofExcept, henter]
      refine ⟨fun path₁ hpath₁ => ?_, fun e hpath₁ => layersOn_cycle hpath₁⟩
      obtain ⟨hnot, rfl⟩ := enterName_ok hpath₁
      refine (directDependencies_ends hs hr).mono ?_ ?_
      · intro ds s₁ hfound
        have hs₁ := hfound.learns.sound hs
        have hf₁ := hfound.learns.faithful hs hf
        have hread := hfound.readHeads hf₁ hr
        have hreal : s.graph.Real site r := hf.namedReal hordered hr
        refine (Ends.concatEach_beside (R := Learns site) (P := HeadsOf) (v := id)
          (o := fun d => site.layersOn m (path ++ [(s.graph.role r).name]) (s₁.graph.namedHead d))
          Learns.refl Learns.trans (fun h => HeadsOf.stays h.grows.toStays) HeadsOf.append
          (fun s _ => HeadsOf.nil s) fun d hd s₂ h₂ => ?_).mono ?_ ?_
        · have hd₁ := hs₁.hasRole_dep hfound.direct hd
          have hname := Graph.namedHead_stays h₂.grows.toStays hd₁
          have hleads := hreal.leads hread (List.mem_map_of_mem hd)
          rw [← hname] at hleads ⊢
          simp only [ends_bind, ends_pure]
          exact ih m d _ s₂ (h₂.sound hs₁) (h₂.faithful hs₁ hf₁) (h₂.grows.keeps.hasRole hd₁)
            (hpath.step hnot hleads) (hpath'.step hnot hleads)
        · rintro found s₂ ⟨h₂, heads, hheads, hfound₂⟩
          rw [ends_update, ends_pure]
          rw [← concatEach_of_map] at hheads
          have hst := (hfound.learns.trans h₂).grows.toStays
          have hr₂ : HeadsOf [r] [s.graph.namedHead r] s₂ := (HeadsOf.single hr).stays hst
          exact ⟨_, layersOn_ok hnot hread hheads, (hfound₂.append hr₂).setAll r found⟩
        · rintro e s₂ ⟨-, hheads⟩
          rw [← concatEach_of_map] at hheads
          exact layersOn_error hnot hread hheads
      · rintro e s₁ ⟨-, -, hfail⟩
        rw [funext fun name => hf.readNamed name .main] at hfail
        exact layersOn_unread hnot (readHeads_error hfail)

end Collect

/-- **The roles on which a role depends** are those of the documents, or fail as these do. -/
theorem allDependencies_follows (hs : s.graph.Sound) (hf : Faithful site s)
    (hordered : site.disk.tree.Ordered) (hr : s.graph.HasRole r) : Ends (allDependencies site r) s
      (fun found s' => Learns site s s' ∧ ∃ heads,
        site.layers (s.graph.namedHead r) = .ok heads ∧ HeadsOf (found ++ [r]) heads s')
      fun e s' => Learns site s s' ∧ site.layers (s.graph.namedHead r) = .error e := by
  have hbound : site.declaredNames.length + 2 ≤ dependencyBound site s := by
    have hrole : s.graph.role r ∈ s.graph.roles.toList := by
      rw [Graph.role, Array.getElem?_eq_getElem hr]
      exact Array.getElem_mem_toList hr
    have hname : (s.graph.role r).name ∈
        s.graph.roles.toList.flatMap fun r => r.name :: r.declared.dependencies.map (·.name) :=
      List.mem_flatMap.2 ⟨_, hrole, List.mem_cons_self⟩
    have hlength := List.length_pos_of_mem hname
    have hnames : roleNames site s =
        (s.graph.roles.toList.flatMap fun r => r.name :: r.declared.dependencies.map (·.name)) ++
          site.declaredNames := rfl
    rw [dependencyBound, hnames, List.length_append]
    omega
  unfold allDependencies
  rw [ends_bind, ends_get]
  exact collectDependencies_follows hordered _ _ r [] s hs hf hr (.start site _ hbound)
    (.start site _ le_rfl)

/-- **The defaults of a role** over those of its dependencies are those of the documents. -/
theorem defaultVars_follows (hs : s.graph.Sound) (hf : Faithful site s)
    (hordered : site.disk.tree.Ordered) (hr : s.graph.HasRole r) : Ends (defaultVars site r) s
      (fun vars s' => Learns site s s' ∧ ∃ heads, site.layers (s.graph.namedHead r) = .ok heads ∧
        (∀ head ∈ heads, Fields.Sorted head.defaults) ∧
        vars = Variables.ofSources (heads.map (·.defaults)))
      fun e s' => Learns site s s' ∧ site.layers (s.graph.namedHead r) = .error e := by
  unfold defaultVars
  rw [ends_bind]
  refine (allDependencies_follows hs hf hordered hr).mono ?_ fun _ _ h => h
  rintro found s' ⟨h, heads, hlayers, hheads⟩
  rw [ends_bind, ends_graph, ends_pure]
  refine ⟨h, heads, hlayers, fun head hhead => ?_, ?_⟩
  · rw [hheads.heads] at hhead
    obtain ⟨q, hq, rfl⟩ := List.mem_map.1 hhead
    exact ((h.sound hs).roles q (hheads.has q hq)).defaults
  · rw [Variables.ofSources, hheads.heads, List.map_map, List.foldl_map]; rfl

end Runlist
