import Runlist.Proofs.Layering

/-!
# Dependencies are loaded once

What a role depends on is found once. From then on it is remembered with the role and with every
role below it, and nothing is loaded for it again, whatever is asked in between and whatever the
files become.

* `Answers`: what a role is answered, while the state stays as it is.
* `Graph.PostOrder.reached`: what is found is below the role.
* `answers_known`: **a role that was followed to its end is answered from what is remembered.**
* `dependencies_loaded_once`: so are a role and all roles that were found for it; and where a cycle
  was told of, it is told of again.
-/

namespace Runlist

open Relation (ReflTransGen)

variable {site : Site} {sites : Site → Prop} {s s' s₂ : Store} {r q : RoleId}
  {rs l direct below : List RoleId}

/-- **What a role is answered, while the state stays as it is**: on which roles it depends directly,
on which it depends at all, and its defaults. -/
structure Answers (site : Site) (s : Store) (r : RoleId) (direct below : List RoleId)
    (vars : Variables) : Prop where
  direct : (directDependencies site r).run.run s = (.ok direct, s)
  all : (allDependencies site r).run.run s = (.ok below, s)
  defaults : (defaultVars site r).run.run s = (.ok vars, s)

/-- Roles in post-order are below the first ones. -/
theorem Graph.PostOrder.reached {g : Graph} (h : g.PostOrder rs l) (hq : q ∈ l) :
    ∃ r ∈ rs, ReflTransGen g.Depends r q := by
  induction h with
  | nil => cases hq
  | @cons r direct below rest l hdirect _ _ ihbelow ihrest =>
    rcases List.mem_append.1 hq with hq | hq
    · obtain ⟨d, hd, hdq⟩ := ihbelow hq
      exact ⟨r, List.mem_cons_self, .head ⟨direct, hdirect, hd⟩ hdq⟩
    rcases List.mem_cons.1 hq with rfl | hq
    · exact ⟨q, List.mem_cons_self, .refl⟩
    · obtain ⟨p, hp, hpq⟩ := ihrest hq
      exact ⟨p, List.mem_cons_of_mem _ hp, hpq⟩

/-- **A role that was followed to its end is answered from what is remembered**, in every state
after. -/
theorem answers_known (hs : s.graph.Sound) (hall : (s.graph.role q).allDependencies = some below) :
    ∃ direct, s.graph.PostOrder direct below ∧ ∀ sites' s₂ site', Reaches sites' s s₂ →
      Answers site' s₂ q direct below
        (.ofSources ((below ++ [q]).map fun d => (s.graph.role d).defaults)) := by
  have hq := Graph.hasRole_of_all hall
  obtain ⟨direct, hdirect, hpost, -⟩ := (hs.roles q hq).all below hall
  refine ⟨direct, hpost, fun sites' s₂ site' hreach => ?_⟩
  have hgrows := hreach.grows hs
  have hall₂ := (hgrows.keeps.role q hq).all below hall
  have hdefaults : (below ++ [q]).map (fun d => (s₂.graph.role d).defaults) =
      (below ++ [q]).map fun d => (s.graph.role d).defaults := by
    refine List.map_congr_left fun d hd => ?_
    have hhas : s.graph.HasRole d := by
      rcases List.mem_append.1 hd with hd | hd
      · exact hpost.hasRole hs d hd
      · rw [List.mem_singleton.1 hd]
        exact hq
    rw [(hgrows.role d hhas).same]
  have hdirect₂ := (hgrows.keeps.role q hq).direct direct hdirect
  refine ⟨directDependencies_known hdirect₂ site', allDependencies_known hall₂ site', ?_⟩
  rw [← hdefaults]
  exact defaultVars_of_known hall₂ site'

theorem Reaches.mono {sites' : Site → Prop} (h : Reaches sites s s')
    (hsites : ∀ site, sites site → sites' site) : Reaches sites' s s' := by
  induction h with
  | refl => exact .refl
  | step _ hsite hq ih => exact .step ih (hsites _ hsite) hq

/-- **Dependencies are loaded once.** Once the roles on which a role depends were found, it and each
of them is answered the same roles, and the defaults of the same roles, in every state after, and
nothing changes: no entity is added, and no directory is remembered. Once a cycle was told of, the
same cycle is told of again, and nothing changes: at once, on whatever site; after any requests,
unless the role at which the search has halted was followed in between; and, as long as everything
was asked of one site, after any requests of that site. -/
theorem dependencies_loaded_once (h : Reachable sites s) (hr : s.graph.HasRole r) :
    (∀ site found s', (allDependencies site r).run.run s = (.ok found, s') →
      ∀ q, q = r ∨ q ∈ found →
      ∃ direct below, s'.graph.PostOrder direct below ∧ (q = r → below = found) ∧
        ∀ sites' s₂ site', Reaches sites' s' s₂ →
          Answers site' s₂ q direct below
            (.ofSources ((below ++ [q]).map fun d => (s'.graph.role d).defaults))) ∧
    ∀ site cycle s', (allDependencies site r).run.run s = (.error (.cyclicDependency cycle), s') →
      (∀ site', (allDependencies site' r).run.run s' = (.error (.cyclicDependency cycle), s')) ∧
      (∃ x, (s'.graph.role x).allDependencies = none ∧ ∀ sites' s₂ site', Reaches sites' s' s₂ →
        (s₂.graph.role x).allDependencies = none →
          (allDependencies site' r).run.run s₂ = (.error (.cyclicDependency cycle), s₂)) ∧
      ((∀ site', sites site' → site' = site) → site.disk.tree.Ordered →
        ∀ s₂ site', Reaches (· = site) s' s₂ →
        (allDependencies site' r).run.run s₂ = (.error (.cyclicDependency cycle), s₂)) := by
  have hs := h.sound
  refine ⟨fun site found s' hrun q hq => ?_, fun site cycle s' hrun => ?_⟩
  · have hvisit := (allDependencies_ends hs hr).of_ok hrun
    have hs' := hvisit.learns.sound hs
    obtain ⟨direct, hdirect, hpost, -⟩ :=
      (hs'.roles r (Graph.hasRole_of_all hvisit.known)).all found hvisit.known
    -- everything below the role was followed to its end
    have hbelow : ReflTransGen s'.graph.Depends r q := by
      rcases hq with rfl | hq
      · exact .refl
      · obtain ⟨d, hd, hdq⟩ := hpost.reached hq
        exact .head ⟨direct, hdirect, hd⟩ hdq
    have hknown := hs'.known_below hbelow (by rw [hvisit.known]; exact Option.some_ne_none found)
    obtain ⟨below, hall⟩ := Option.ne_none_iff_exists'.1 hknown
    obtain ⟨direct', hpost', hanswers⟩ := answers_known hs' hall
    refine ⟨direct', below, hpost', ?_, hanswers⟩
    rintro rfl
    rw [hvisit.known] at hall
    exact (Option.some.inj hall).symm
  · have hs' := ((allDependencies_ends hs hr).of_error hrun).1.sound hs
    obtain ⟨x, hx⟩ := allDependencies_halts hs hr hrun
    have hagain : ∀ sites' s₂ site', Reaches sites' s' s₂ →
        (s₂.graph.role x).allDependencies = none →
        (allDependencies site' r).run.run s₂ = (.error (.cyclicDependency cycle), s₂) :=
      fun sites' s₂ site' hreach hnone =>
        allDependencies_halted (hreach.sound hs') (hx.keeps (hreach.grows hs').keeps hnone) site'
    refine ⟨allDependencies_halted hs' hx, ⟨x, hx.halted, hagain⟩,
      fun hone hordered s₂ site' hreach => ?_⟩
    exact hagain _ s₂ site' hreach (hx.unknown (h.mono hone) hordered hr hrun hreach)

/-- **In a diamond**, whose files are gone, the roles that were found are answered, and with them
those of each one; **in a knot** the cycle is. -/
theorem diamond_loaded_once :
    (allDependencies loopSite ⟨0⟩).run.run diamondFound.2 =
      (.ok [⟨3⟩, ⟨1⟩, ⟨4⟩, ⟨2⟩], diamondFound.2) ∧
    (∃ direct below vars, Answers loopSite diamondFound.2 ⟨2⟩ direct below vars) ∧
    (allDependencies loopSite ⟨0⟩).run.run knotFound.2 =
      (.error (.cyclicDependency ["left", "right", "left"]), knotFound.2) := by
  have hdiamond : Reachable (· = diamondSite) diamondLoad.2 := reachable_loadRole diamondSite "top"
  have hknot : Reachable (· = knotSite) knotLoad.2 := reachable_loadRole knotSite "left"
  obtain ⟨hhas, hfound⟩ : diamondLoad.2.graph.HasRole ⟨0⟩ ∧
      diamondFound.1.toOption = some [⟨3⟩, ⟨1⟩, ⟨4⟩, ⟨2⟩] := by decide +kernel
  obtain ⟨hhas', hcycle⟩ : knotLoad.2.graph.HasRole ⟨0⟩ ∧
    cycle? knotFound.1 = some ["left", "right", "left"] := by
    decide +kernel
  have honce :=
    (dependencies_loaded_once hdiamond hhas).1 diamondSite _ diamondFound.2 (run_ok hfound)
  obtain ⟨_, below, -, hbelow, hself⟩ := honce ⟨0⟩ (.inl rfl)
  obtain rfl := hbelow rfl
  obtain ⟨direct, below, -, -, hother⟩ := honce ⟨2⟩ (.inr (by decide))
  refine ⟨(hself (· = loopSite) _ loopSite .refl).all,
    ⟨direct, below, _, hother (· = loopSite) _ loopSite .refl⟩, ?_⟩
  exact ((dependencies_loaded_once hknot hhas').2 knotSite _ knotFound.2 (run_cycle hcycle)).1
    loopSite

end Runlist
