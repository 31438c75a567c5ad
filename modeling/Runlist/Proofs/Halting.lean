import Runlist.Proofs.Lookup

/-!
# Where the search for dependencies halts

A search that meets a name below itself gives up, and tells of the cycle. What it has found on the
way stays known: of the roles on the path, those on which they depend directly, and of the roles
beside it, everything below. So the same search goes the same way again, without loading anything,
as long as the role at which it has halted is not followed from elsewhere.

* `Graph.Halts`: the way to the role at which a search halts, as it is known afterwards.
* `Searches`: **what is known stays known**, whatever is done to a state.
* `collectDependencies_halts`: a search that tells of a cycle leaves the way to it.
* `collectDependencies_halted`: **where there is such a way, the search goes along it**, and nothing
  changes.
* `Graph.Halts.unknown`: over one site, the role at which a search has halted is never followed.
-/

namespace Runlist

open Relation (ReflTransGen TransGen)

variable {site : Site} {sites : Site → Prop} {s s' s₁ s₂ : Store} {r d x : RoleId}
  {path names cycle : List String}

/-! ## The way to a cycle -/

namespace Graph

variable {g g' : Graph}

theorem hasRole_of_known (h : (g.role r).allDependencies ≠ none) : g.HasRole r := by
  obtain ⟨found, hfound⟩ := Option.ne_none_iff_exists'.1 h
  exact hasRole_of_all hfound

/-- **A search halts at a role**, below another one on a path of names. Of the roles on the way,
those on which they depend directly are known, and everything is known below those in front. The
role at which it halts is not followed, and its name is on the path. -/
inductive Halts (g : Graph) (x : RoleId) : List String → RoleId → List String → Prop
  | here {path : List String} : g.HasRole x → (g.role x).allDependencies = none →
      (g.role x).name ∈ path →
      Halts g x path x (cycleOf path (g.role x).name)
  | through {path cycle : List String} {r d : RoleId} {front back : List RoleId} :
      (g.role r).name ∉ path →
      (g.role r).directDependencies = some (front ++ d :: back) →
      (∀ q ∈ front, (g.role q).allDependencies ≠ none) →
      Halts g x (path ++ [(g.role r).name]) d cycle → Halts g x path r cycle

namespace Halts

theorem depends (h : g.Halts x path r cycle) : ReflTransGen g.Depends r x := by
  induction h with
  | here => exact .refl
  | through _ hdirect _ _ ih =>
    exact .head ⟨_, hdirect, List.mem_append_right _ List.mem_cons_self⟩ ih

theorem halted (h : g.Halts x path r cycle) : (g.role x).allDependencies = none := by
  induction h with
  | here _ hnone _ => exact hnone
  | through _ _ _ _ ih => exact ih

/-- No role on the way was followed to its end. -/
theorem all_none (hs : g.Sound) (h : g.Halts x path r cycle) :
    (g.role r).allDependencies = none := by
  by_contra hknown
  exact hs.known_below h.depends hknown h.halted

/-- The cycle ends with the role at which the search has halted. -/
theorem last (h : g.Halts x path r cycle) : cycle.getLast? = some (g.role x).name := by
  induction h with
  | here => exact List.getLast?_concat
  | through _ _ _ _ ih => exact ih

/-- The way stays, as long as the role at its end is not followed. -/
theorem keeps (k : g.Keeps g') (hx : (g'.role x).allDependencies = none)
    (h : g.Halts x path r cycle) : g'.Halts x path r cycle := by
  induction h with
  | here hhas _ hmem =>
    rw [← (k.role x hhas).name] at hmem ⊢
    exact .here (k.hasRole hhas) hx hmem
  | through hname hdirect hfront _ ih =>
    have hr := k.role _ (hasRole_of_direct hdirect)
    rw [← hr.name] at hname ih
    refine .through hname (hr.direct _ hdirect) (fun q hq => ?_) ih
    obtain ⟨found, hfound⟩ := Option.ne_none_iff_exists'.1 (hfront q hq)
    rw [(k.role q (hasRole_of_known (hfront q hq))).all found hfound]
    exact Option.some_ne_none found

end Halts

/-- The known dependencies of roles are roles. -/
def Linked (g : Graph) : Prop :=
  ∀ r ds, (g.role r).directDependencies = some ds → ∀ d ∈ ds, g.HasRole d

theorem Sound.linked (hs : g.Sound) : g.Linked := fun _ _ hd _ hmem => hs.hasRole_dep hd hmem

end Graph

theorem Discovers.linked (h : Discovers site s s₁) (hs : s.graph.Linked) : s₁.graph.Linked := by
  intro r ds hd d hmem
  rcases h.introduced r ds hd with hd | hnew
  · exact h.hasRole (hs r ds hd d hmem)
  · obtain ⟨name, -, hname⟩ := exists_left hnew hmem
    exact hname.has

/-! ## What stays known -/

/-- **What is known stays known**: on which roles a role depends directly, and that it was followed
to its end. -/
structure Searches (site : Site) (s s' : Store) : Prop extends Discovers site s s' where
  known : ∀ q, (s.graph.role q).allDependencies ≠ none → (s'.graph.role q).allDependencies ≠ none

instance Searches.isPreorder : IsPreorder Store (Searches site) where
  refl s := ⟨.refl s, fun _ h => h⟩
  trans _ _ _ h h' := ⟨h.toDiscovers.trans h'.toDiscovers, fun q hq => h'.known q (h.known q hq)⟩

/-- Roles that were followed to their ends stay so. -/
theorem Part.known (h : Part site s s') {q : RoleId}
    (hq : (s.graph.role q).allDependencies ≠ none) : (s'.graph.role q).allDependencies ≠ none := by
  have hroles : ∀ s₁ : Store, s₁.graph.roles = s.graph.roles →
      (s₁.graph.role q).allDependencies ≠ none := by
    intro s₁ h₁
    rw [Graph.role, h₁]
    exact hq
  have hadds : ∀ s₁ : Store, s.graph.Adds s₁.graph → (s₁.graph.role q).allDependencies ≠ none := by
    intro s₁ h₁
    rw [h₁.role q (Graph.hasRole_of_known hq)]
    exact hq
  -- each part leaves the roles as they are, adds to them, or writes down what is known of one
  cases h with
  | note => exact hq
  | tasks o role play path =>
    refine hroles _
      ((loadTasksIn_adds site o role play path s).state
        (P := fun s' => s'.graph.roles = s.graph.roles)
        (fun _ _ h => h.1.roles_eq) fun _ _ h => ?_)
    rw [h]
  | role o play name selection =>
    refine hadds _
      ((loadRoleWith_adds site o play name selection s).state (P := fun s' => s.graph.Adds s'.graph)
      ?_ fun _ _ h => h.1)
    rintro _ _ ⟨-, dir, s₁, -, hadded, rfl⟩
    rw [graph_addRoleDir]
    exact hadded.adds
  | stampPlay path o d => exact hroles _ rfl
  | stampTasks context o ds => exact hroles _ (roles_stampTasks s.graph context o none ds)
  | stampReferences path o rs => exact hroles _ (Graph.roles_stampReferences s.graph path o rs)
  | fillPlay p f => exact hroles _ rfl
  | direct p found =>
    simp only [Graph.role_modifyRole]
    split
    · rename_i hp
      rw [← hp.1]
      exact hq
    · exact hq
  | all p found =>
    simp only [Graph.role_modifyRole]
    split
    · exact Option.some_ne_none found
    · exact hq
  | cached x vars => exact hroles _ rfl
  | adopt xs x => exact hroles _ (roles_adopt s.graph xs x)

theorem Parts.known (h : Parts sites s s') {q : RoleId}
    (hq : (s.graph.role q).allDependencies ≠ none) : (s'.graph.role q).allDependencies ≠ none := by
  induction h with
  | refl => exact hq
  | tail _ hpart ih =>
    obtain ⟨site, -, hpart⟩ := hpart
    exact hpart.known ih

theorem Along.searches {α : Type} {m : Load α} (h : Along (Discovers site) m)
    (h' : Along (Parts (· = site)) m) :
    Along (Searches site) m := fun s =>
  ((h s).and (h' s)).mono (fun _ _ h => ⟨h.1, fun _ => h.2.known⟩) fun _ _ h =>
    ⟨h.1, fun _ => h.2.known⟩

/-! ## A cycle that is told of -/

/-- A role that does not load tells of no cycle. -/
theorem Store.readRole_ne_cycle {name : String} {selection : RoleSelection} :
    s.readRole site name selection ≠ .error (.cyclicDependency cycle) := by
  intro h
  rcases except_bind_error.1 h with h | ⟨dir, -, h⟩
  · unfold Store.locate Site.findRole at h
    dsimp only at h
    split at h
    · cases h
    · split at h <;> cases h
  · unfold Site.readRoleAt at h
    split at h
    · cases h
    · obtain ⟨_, _, -, h⟩ := foldlM_error h
      obtain ⟨file, h⟩ := readBelow_error h
      exact readTasks_ne_cycle h

/-- **A search that tells of a cycle leaves the way to it.** -/
theorem collectDependencies_halts (n : Nat) (hs : s.graph.Linked) (hr : s.graph.HasRole r) :
    Ends (collectDependencies site n r path) s
      (fun _ s' => Searches site s s' ∧ (s'.graph.role r).allDependencies ≠ none)
      fun err s' => Searches site s s' ∧ ∀ cycle, err = .cyclicDependency cycle →
      ∃ x, s'.graph.Halts x path r cycle := by
  induction n generalizing s r path with
  | zero => exact ⟨Searches.isPreorder.refl s, by rintro _ ⟨⟩⟩
  | succ n ih =>
    rw [collectDependencies, ends_bind, ends_graph]
    cases hall : (s.graph.role r).allDependencies with
    | some known =>
      exact ⟨Searches.isPreorder.refl s, by rw [hall]; exact Option.some_ne_none known⟩
    | none =>
      simp only [ends_bind, ends_graph, ends_ofExcept, enterDependency]
      refine ⟨fun path' hpath => ?_, fun e hpath => ?_⟩
      · -- the role is entered, its name is not on the path
        split at hpath
        · cases hpath
        rename_i hname
        rw [List.contains_iff_mem] at hname
        cases hpath
        have hparts : Steady site (Parts (· = site)) := steady_parts rfl
        have hsearch := ((steady_discovers site).direct r).searches (hparts.direct r)
        refine ((hsearch s).and (directDependencies_discovers site r s)).mono ?_ ?_
        · rintro direct s₁ ⟨h₁, -, hdirect⟩
          have hdirect := hdirect hr
          have hs₁ := h₁.linked hs
          refine (Ends.concatEach_stops (R := Searches site) (P := fun d s' =>
            (s'.graph.role d).allDependencies ≠ none)
            (F := fun d err s' => ∀ cycle, err = .cyclicDependency cycle →
              ∃ x, s'.graph.Halts x (path ++ [(s.graph.role r).name]) d cycle)
            (fun h hd => h.known _ hd) fun d hd s₂ h₂ => ?_).mono ?_ ?_
          · simp only [ends_bind, ends_pure]
            exact ih (h₂.linked hs₁) (h₂.hasRole (hs₁ r direct hdirect d hd))
          · -- every search below it has come to an end
            rintro found s₂ ⟨h₂, -⟩
            rw [ends_update, ends_pure]
            have hafter : Searches site s₂ { s₂ with graph := s₂.graph.modifyRole r fun r =>
                { r with allDependencies := some found } } :=
              ⟨ends_update.1 ((steady_discovers site).all r found s₂), fun _ =>
                (Part.all r found : Part site s₂ _).known⟩
            refine ⟨Searches.isPreorder.trans _ _ _ h₁ (Searches.isPreorder.trans _ _ _ h₂ hafter),
              ?_⟩
            rw [Graph.role_modifyRole_self (h₂.hasRole (h₁.hasRole hr))]
            exact Option.some_ne_none found
          · -- one of them has failed, and the way to the cycle leads through this role
            rintro err s₂ ⟨h₂, front, d, back, rfl, hfront, hhalts⟩
            have h := Searches.isPreorder.trans _ _ _ h₁ h₂
            refine ⟨h, fun cycle herr => ?_⟩
            obtain ⟨x, hx⟩ := hhalts cycle herr
            rw [← (h.retains r hr).name] at hname hx
            exact ⟨x, .through hname ((h₂.retains r (h₁.hasRole hr)).direct _ hdirect) hfront hx⟩
        · rintro err s₁ ⟨h₁, -, _, hfail⟩
          refine ⟨h₁, ?_⟩
          rintro cycle rfl
          exact absurd hfail Store.readRole_ne_cycle
      · -- it is not entered, and the search halts at it
        split at hpath
        · rename_i hmem
          cases hpath
          refine ⟨Searches.isPreorder.refl s, fun cycle herr => ⟨r, ?_⟩⟩
          cases herr
          exact .here hr hall (List.contains_iff_mem.1 hmem)
        · cases hpath

/-! ## The same way again -/

/-- What a role is known to depend on directly is answered, and nothing changes. -/
theorem directDependencies_known {direct : List RoleId}
    (h : (s.graph.role r).directDependencies = some direct) (site : Site) :
    (directDependencies site r).run.run s = (.ok direct, s) := by
  refine run_eq_ok ?_
  unfold directDependencies
  simp only [ends_bind, ends_graph, h]
  exact ⟨rfl, rfl⟩

/-- What a role is known to depend on is found on every path, and nothing changes. -/
theorem collectDependencies_known {found : List RoleId}
    (h : (s.graph.role r).allDependencies = some found) (site : Site) (n : Nat)
    (path : List String) :
    Ends (collectDependencies site (n + 1) r path) s (fun l s' => l = found ∧ s' = s)
      fun _ _ => False := by
  rw [collectDependencies, ends_bind, ends_graph, h]
  exact ⟨rfl, rfl⟩

theorem allDependencies_known {found : List RoleId}
    (h : (s.graph.role r).allDependencies = some found) (site : Site) :
    (allDependencies site r).run.run s = (.ok found, s) := by
  refine run_eq_ok ?_
  unfold allDependencies dependencyBound
  rw [ends_bind, ends_get]
  exact collectDependencies_known h site _ []

/-- A loop in front of a round that fails, where nothing changes. -/
theorem Ends.concatEach_at {ε σ α β : Type} {f : α → ExceptT ε (StateM σ) (List β)}
    {front back : List α} {a : α} {s : σ} {err : ε}
    (hfront : ∀ b ∈ front, Ends (f b) s (fun _ s' => s' = s) fun _ _ => False)
    (ha : Ends (f a) s (fun _ _ => False) fun e s' => e = err ∧ s' = s) :
    Ends (Runlist.concatEach f (front ++ a :: back)) s (fun _ _ => False) fun e s' =>
      e = err ∧ s' = s := by
  induction front with
  | nil =>
    rw [List.nil_append, Runlist.concatEach, ends_bind]
    exact ha.mono (fun _ _ h => h.elim) fun _ _ h => h
  | cons b front ih =>
    rw [List.cons_append, Runlist.concatEach, ends_bind]
    refine (hfront b List.mem_cons_self).mono (fun _ s' hsame => ?_) fun _ _ h => h.elim
    rw [hsame, ends_bind]
    exact (ih fun c hc => hfront c (List.mem_cons_of_mem _ hc)).mono (fun _ _ h => h.elim)
      fun _ _ h => h

/-- **Where there is a way to a cycle, the search goes along it**, and nothing changes. -/
theorem collectDependencies_halted (hs : s.graph.Sound)
    (hnames : ∀ q, s.graph.HasRole q → (s.graph.role q).name ∈ names)
    (h : s.graph.Halts x path r cycle) {n : Nat} (hnodup : path.Nodup) (hsub : path ⊆ names)
    (hlen : names.length < path.length + n) :
    Ends (collectDependencies site n r path) s (fun _ _ => False)
      fun e s' => e = .cyclicDependency cycle ∧ s' = s := by
  induction h generalizing n with
  | here hhas hnone hmem =>
    have hle := length_le_of_nodup hnodup hsub
    obtain ⟨m, rfl⟩ : ∃ m, n = m + 1 := ⟨n - 1, by omega⟩
    rw [collectDependencies, ends_bind, ends_graph, hnone]
    simp only [ends_bind, ends_graph, ends_ofExcept, enterDependency,
      if_pos (List.contains_iff_mem.2 hmem)]
    exact ⟨by rintro _ ⟨⟩, by rintro _ ⟨⟩; exact ⟨rfl, trivial⟩⟩
  | @through path cycle r d front back hname hdirect hfront hbelow ih =>
    -- the path is one name longer, which is a name of the state
    have hr := Graph.hasRole_of_direct hdirect
    have hnodup' : (path ++ [(s.graph.role r).name]).Nodup := by
      rw [← List.concat_eq_append]
      exact hnodup.concat hname
    have hsub' : path ++ [(s.graph.role r).name] ⊆ names :=
      List.append_subset.2 ⟨hsub, List.cons_subset.2 ⟨hnames r hr, List.nil_subset _⟩⟩
    have hle := length_le_of_nodup hnodup' hsub'
    rw [List.length_append, List.length_singleton] at hle
    obtain ⟨m, rfl⟩ : ∃ m, n = m + 2 := ⟨n - 2, by omega⟩
    have hnone := (Graph.Halts.through hname hdirect hfront hbelow).all_none hs
    have henter : enterDependency s.graph r path = .ok (path ++ [(s.graph.role r).name]) := by
      rw [enterDependency, if_neg fun h => hname (List.contains_iff_mem.1 h)]
    rw [collectDependencies, ends_bind, ends_graph, hnone]
    simp only [directDependencies, henter, Load.ofExcept, ends_bind, ends_graph, ends_pure, hdirect]
    refine (Ends.concatEach_at (fun q hq => ?_) ?_).mono (fun _ _ h => h.elim) fun _ _ h => h
    · obtain ⟨found, hfound⟩ := Option.ne_none_iff_exists'.1 (hfront q hq)
      simp only [ends_bind, ends_pure]
      exact (collectDependencies_known hfound site m _).mono (fun _ _ h => h.2) fun _ _ h => h
    · simp only [ends_bind, ends_pure]
      refine ih hnodup' hsub' ?_
      rw [List.length_append, List.length_singleton]
      omega

/-- A search that has halted halts again, whatever the files are. -/
theorem allDependencies_halted (hs : s.graph.Sound) (h : s.graph.Halts x [] r cycle) (site : Site) :
    (allDependencies site r).run.run s = (.error (.cyclicDependency cycle), s) := by
  refine run_eq_error ?_
  unfold allDependencies
  rw [ends_bind, ends_get]
  refine collectDependencies_halted hs (fun q hq =>
    (names_subset_roleNames site hq) List.mem_cons_self) h
    List.nodup_nil (List.nil_subset _) ?_
  rw [dependencyBound, List.length_nil]
  omega

/-- **A search that tells of a cycle leaves the way to it**, from the role that was asked for. -/
theorem allDependencies_halts (hs : s.graph.Sound) (hr : s.graph.HasRole r)
    (hrun : (allDependencies site r).run.run s = (.error (.cyclicDependency cycle), s')) :
    ∃ x, s'.graph.Halts x [] r cycle := by
  have hends : Ends (allDependencies site r) s (fun _ _ => True) fun err s' =>
      ∀ cycle, err = .cyclicDependency cycle → ∃ x, s'.graph.Halts x [] r cycle := by
    unfold allDependencies
    rw [ends_bind, ends_get]
    exact (collectDependencies_halts _ hs.linked hr).mono (fun _ _ _ => trivial) fun _ _ h => h.2
  exact hends.of_error hrun cycle rfl

/-- **Over one site, the role at which a search has halted is never followed**: its name leads to
itself. -/
theorem Graph.Halts.unknown (h : s'.graph.Halts x [] r cycle) (hreach : Reachable (· = site) s)
    (hordered : site.disk.tree.Ordered) (hr : s.graph.HasRole r)
    (hrun : (allDependencies site r).run.run s = (.error (.cyclicDependency cycle), s'))
    (hafter : Reaches (· = site) s' s₂) : (s₂.graph.role x).allDependencies = none := by
  by_contra hknown
  obtain ⟨found, hfound⟩ := Option.ne_none_iff_exists'.1 hknown
  have hreach' : Reachable (· = site) s' := by
    have hasked : Reachable (· = site) ((Request.allDependencies r).run site s) :=
      .step hreach rfl hr
    rwa [Request.run, hrun] at hasked
  have hcycle : site.Cycle cycle := by
    rcases allDependencies_fails hreach hordered hr hrun with ⟨_, herr, hcycle, -⟩ | hfails
    · cases herr
      exact hcycle
    · exact absurd rfl (hfails.ne_cycle cycle)
  have hx : s'.graph.HasRole x := by
    rcases ReflTransGen.cases_tail h.depends with rfl | ⟨_, -, hdepends⟩
    · exact ((allDependencies_ends hreach.sound hr).of_error hrun).1.grows.keeps.hasRole hr
    · exact (hreach'.sound.hasRole_depends hdepends).2
  have hname := ((hafter.grows hreach'.sound).keeps.role x hx).name
  -- what is known of it is an answer on this site, so its name leads to no cycle
  obtain ⟨hresolvable, -⟩ :=
    allDependencies_found (hreach'.trans hafter) hordered (hasRole_of_all hfound)
    (allDependencies_known hfound site)
  rw [hname] at hresolvable
  exact hresolvable.acyclic _ .refl (hcycle.loop_last h.last)

end Runlist
