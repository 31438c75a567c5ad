import Runlist.Proofs.Halting
import Runlist.Proofs.Outcome.Expansion

/-!
# Expansion and resolution agree on dependencies

Two recursions follow the dependencies of a role: one finds them, the other expands them, and runs
includes and resolves variables on the way. Each keeps its own path of names, and both of them load
what is not known yet.

* `Graph.Clear`: the dependencies of some roles are known, no name is met again below itself, and
  this is their order. `Graph.Looped`: a name is met again.
* `Clear.not_faulty`, `Discovers.not_faulty`: nothing is wrong with clear roles, and nothing was
  wrong with them before their dependencies were discovered.
* `Recalls`: states that differ in the dependencies that are remembered. `allDependencies_recalls`:
  to find clear dependencies loads nothing.
* `OwnPart`: what the own tasks of a role expand to. `expandRoleOn_parts`: **an expansion is made of
  such parts.**
* `expandRole_agrees`: **the parts of an expansion are those of the dependencies, in their order**,
  and where no dependencies are found there is no expansion.
-/

namespace Runlist

variable {site : Site} {t : Templater} {s s₁ s₂ : Store} {e e₁ e₂ : Expansion} {r d : RoleId}
  {path : List String}
  {rs l l' : List RoleId}

theorem KeepsDeclared.of_stays {role role' : Role} (h : Graph.StaysRole role role') :
    KeepsDeclared role role' :=
  ⟨by rw [h.same], by rw [h.same], by rw [h.same]; rfl, h.direct⟩

/-! ## Clear dependencies -/

namespace Graph

variable {g g' : Graph}

/-- **Clear dependencies**, below some roles on a path of names: all of them are known, and no name
is met again below itself. They are listed in post-order. -/
inductive Clear (g : Graph) : List String → List RoleId → List RoleId → Prop
  | nil {path : List String} : Clear g path [] []
  | cons {path : List String} {r : RoleId} {direct below rest l : List RoleId} :
      (g.role r).name ∉ path →
      (g.role r).directDependencies = some direct →
      Clear g (path ++ [(g.role r).name]) direct below →
      Clear g path rest l → Clear g path (r :: rest) (below ++ r :: l)

/-- **A name is met again**, below a role on a path of names. -/
inductive Looped (g : Graph) : List String → RoleId → Prop
  | here {path : List String} {r : RoleId} : g.HasRole r → (g.role r).name ∈ path → Looped g path r
  | deeper {path : List String} {r d : RoleId} {direct : List RoleId} :
      (g.role r).directDependencies = some direct → d ∈ direct →
      Looped g (path ++ [(g.role r).name]) d →
      Looped g path r

theorem Clear.append (h : g.Clear path rs l) {rs' l' : List RoleId} (h' : g.Clear path rs' l') :
    g.Clear path (rs ++ rs') (l ++ l') := by
  induction h with
  | nil => exact h'
  | cons hname hd hbelow _ _ ih =>
    rw [List.append_assoc, List.cons_append, List.cons_append]
    exact .cons hname hd hbelow (ih h')

/-- Each of the roles is clear. -/
theorem Clear.of_mem (h : g.Clear path rs l) (hr : r ∈ rs) : (g.role r).name ∉ path ∧
    ∃ direct below, (g.role r).directDependencies = some direct ∧
      g.Clear (path ++ [(g.role r).name]) direct below := by
  induction h with
  | nil => cases hr
  | cons hname hd hbelow _ _ ih =>
    rcases List.mem_cons.1 hr with rfl | hr
    · exact ⟨hname, _, _, hd, hbelow⟩
    · exact ih hr

theorem Clear.postOrder (h : g.Clear path rs l) : g.PostOrder rs l := by
  induction h with
  | nil => exact .nil
  | cons _ hd _ _ ih₁ ih₂ => exact .cons hd ih₁ ih₂

/-- There is one post-order. -/
theorem PostOrder.unique (h : g.PostOrder rs l) (h' : g.PostOrder rs l') : l = l' := by
  induction h generalizing l' with
  | nil => cases h'; rfl
  | cons hd _ _ ih₁ ih₂ =>
    cases h' with
    | cons hd' hbelow hrest =>
      rw [hd] at hd'
      cases hd'
      rw [ih₁ hbelow, ih₂ hrest]

/-- What is known stays. -/
theorem Clear.mono (hrole : ∀ r, g.HasRole r → KeepsDeclared (g.role r) (g'.role r))
    (h : g.Clear path rs l) : g'.Clear path rs l := by
  induction h with
  | nil => exact .nil
  | cons hname hd _ _ ih₁ ih₂ =>
    have hr := hrole _ (hasRole_of_direct hd)
    rw [← hr.name] at hname ih₁
    exact .cons hname (hr.direct _ hd) ih₁ ih₂

theorem Looped.mono (hrole : ∀ r, g.HasRole r → g'.HasRole r ∧ KeepsDeclared (g.role r) (g'.role r))
    (h : g.Looped path r) : g'.Looped path r := by
  induction h with
  | here hr hname =>
    rw [← (hrole _ hr).2.name] at hname
    exact .here (hrole _ hr).1 hname
  | deeper hd hmem _ ih =>
    have hr := (hrole _ (hasRole_of_direct hd)).2
    rw [← hr.name] at ih
    exact .deeper (hr.direct _ hd) hmem ih

/-- **Below clear roles no name is met again.** -/
theorem Clear.not_looped (h : g.Clear path rs l) (hr : r ∈ rs) : ¬ g.Looped path r := by
  intro hloop
  induction hloop generalizing rs l with
  | here _ hname => exact (h.of_mem hr).1 hname
  | deeper hd hmem _ ih =>
    obtain ⟨-, direct, below, hd', hbelow⟩ := h.of_mem hr
    rw [hd] at hd'
    cases hd'
    exact ih hbelow hmem

/-- **Nothing is wrong with clear roles.** -/
theorem Clear.not_faulty {read : String → Except LoadError RoleText} (h : g.Clear path rs l)
    (hr : r ∈ rs) : ¬ g.Faulty read path r := by
  intro hfault
  induction hfault generalizing rs l with
  | cycle _ hname => exact (h.of_mem hr).1 hname
  | known _ hd hmem _ ih =>
    obtain ⟨-, direct, below, hd', hbelow⟩ := h.of_mem hr
    rw [hd] at hd'
    cases hd'
    exact ih hbelow hmem
  | declared _ hnone =>
    obtain ⟨-, direct, below, hd, -⟩ := h.of_mem hr
    rw [hnone] at hd; cases hd

end Graph

/-! ## Before they were discovered -/

/-- A name leads nowhere wrong if its role was discovered, and is clear now. -/
theorem Discovers.not_broken (h : Discovers site s s₁) (hclear : s₁.graph.Clear path rs l)
    (hr : r ∈ rs) {name : String} (hname : Discovered site s s₁ name r) :
    ¬ Broken (s.readRole site · .main) path name := by
  intro hbroken
  induction hbroken generalizing rs l r with
  | cycle hmem =>
    rw [← hname.named] at hmem
    exact (hclear.of_mem hr).1 hmem
  | load hfail =>
    obtain ⟨text, hread, -⟩ := hname.reads
    rw [hread] at hfail; cases hfail
  | leads hread hdep _ ih =>
    obtain ⟨text, hread', hhead⟩ := hname.reads
    rw [hread] at hread'
    cases hread'
    have hnames : (s₁.graph.role _).declared.dependencies.map (·.name) = _ :=
      congrArg RoleHead.dependencies hhead
    obtain ⟨-, direct, below, hd, hbelow⟩ := hclear.of_mem hr
    -- the role is new, so that what it depends on is new as well
    have hnew :
        List.Forall₂ (Discovered site s s₁)
          ((s₁.graph.role r).declared.dependencies.map (·.name)) direct := by
      refine (h.introduced r direct hd).resolve_left fun hold => ?_
      rw [Graph.role_of_not_has hname.new] at hold; cases hold
    rw [hnames] at hnew
    obtain ⟨d, hmem, hd⟩ := exists_right hnew hdep
    rw [hname.named] at hbelow
    exact ih hbelow hmem hd

/-- **Nothing was wrong with a role that is clear now**, before its dependencies were discovered. -/
theorem Discovers.not_faulty (h : Discovers site s s₁) (hs : s.graph.Sound)
    (hclear : s₁.graph.Clear path rs l) (hr : r ∈ rs) (hhas : s.graph.HasRole r) :
    ¬ s.graph.Faulty (s.readRole site · .main) path r := by
  intro hfault
  induction hfault generalizing rs l with
  | cycle _ hmem =>
    rw [← (h.retains _ hhas).name] at hmem
    exact (hclear.of_mem hr).1 hmem
  | known _ hd hmem _ ih =>
    obtain ⟨-, direct, below, hd', hbelow⟩ := hclear.of_mem hr
    rw [(h.retains _ hhas).direct _ hd] at hd'
    cases hd'
    rw [(h.retains _ hhas).name] at hbelow
    exact ih hbelow hmem (hs.hasRole_dep hd hmem)
  | declared _ hnone hdep hbroken =>
    obtain ⟨-, direct, below, hd, hbelow⟩ := hclear.of_mem hr
    have hnew := (h.introduced _ direct hd).resolve_left fun hold => by
      rw [hnone] at hold; cases hold
    rw [(h.retains _ hhas).declared] at hnew
    rw [(h.retains _ hhas).name] at hbelow
    obtain ⟨d, hmem, hd⟩ := exists_right hnew hdep
    exact h.not_broken hbelow hmem hd hbroken

/-! ## A cycle that is told of -/

/-- Where a search halts, a name is met again. -/
theorem Graph.Halts.looped {g : Graph} {x : RoleId} {cycle : List String}
    (h : g.Halts x path r cycle) : g.Looped path r := by
  induction h with
  | here hhas _ hmem => exact .here hhas hmem
  | through _ hdirect _ _ ih =>
    exact .deeper hdirect (List.mem_append_right _ List.mem_cons_self) ih

/-- **A cycle that is told of is in the graph**, once it was met. -/
theorem collectDependencies_looped (n : Nat) (hs : s.graph.Linked) (hr : s.graph.HasRole r) :
    Ends (collectDependencies site n r path) s (fun _ s' => Discovers site s s') fun err s' =>
      Discovers site s s' ∧ ∀ cycle, err = .cyclicDependency cycle → s'.graph.Looped path r := by
  refine (collectDependencies_halts n hs hr).mono (fun _ _ h => h.1.toDiscovers) fun err s' h => ?_
  refine ⟨h.1.toDiscovers, fun cycle herr => ?_⟩
  obtain ⟨x, hx⟩ := h.2 cycle herr
  exact hx.looped

/-! ## Dependencies that are clear already -/

/-- **States that differ in the dependencies that are remembered**, and in nothing else. -/
structure Recalls (s s' : Store) : Prop where
  rest : s' = { s with graph := { s.graph with roles := s'.graph.roles } }
  size : s'.graph.roles.size = s.graph.roles.size
  role : ∀ r, s'.graph.role r =
    { s.graph.role r with allDependencies := (s'.graph.role r).allDependencies }

namespace Recalls

theorem refl (s : Store) : Recalls s s := ⟨rfl, rfl, fun _ => rfl⟩

theorem trans (h : Recalls s s₁) (h' : Recalls s₁ s₂) : Recalls s s₂ where
  rest := by rw [h'.rest, h.rest]
  size := h'.size.trans h.size
  role r := by rw [h'.role, h.role]

instance isPreorder : IsPreorder Store Recalls where
  refl := refl
  trans _ _ _ := trans

theorem clear (h : Recalls s s₁) (hclear : s.graph.Clear path rs l) : s₁.graph.Clear path rs l := by
  refine hclear.mono fun r _ => ⟨?_, ?_, ?_, fun ds hd => ?_⟩
  · rw [h.role]
  · rw [h.role]
  · rw [h.role]; rfl
  · rw [h.role]; exact hd

theorem setAll (s : Store) (r : RoleId) (found : List RoleId) :
    Recalls s { s with
      graph := s.graph.modifyRole r fun r => { r with allDependencies := some found } } := by
  refine ⟨rfl, Array.size_modify .., fun q => ?_⟩
  simp only [Graph.role_modifyRole]
  split
  · rename_i hq; rw [hq.1]
  · rfl

end Recalls

/-- **To find clear dependencies loads nothing.** -/
theorem collectDependencies_recalls (n : Nat) (hclear : s.graph.Clear path rs l) (hr : r ∈ rs) :
    Ends (collectDependencies site n r path) s (fun _ s' => Recalls s s')
      fun _ s' => Recalls s s' := by
  induction n generalizing s r path rs l with
  | zero => exact .refl s
  | succ n ih =>
    obtain ⟨hname, direct, below, hdirect, hbelow⟩ := hclear.of_mem hr
    have henter : enterDependency s.graph r path = .ok (path ++ [(s.graph.role r).name]) := by
      rw [enterDependency, if_neg fun h => hname (List.contains_iff_mem.1 h)]
    rw [collectDependencies, ends_bind, ends_graph]
    cases hall : (s.graph.role r).allDependencies with
    | some known => exact .refl s
    | none =>
      simp only [directDependencies, henter, Load.ofExcept, ends_bind, ends_graph,
        ends_pure, hdirect]
      refine (Ends.concatEach_fails (R := Recalls) (F := fun _ _ _ => True)
        fun d hd s₁ h₁ => ?_).mono
        (fun found s₁ h₁ => ?_) fun _ _ h => h.1
      · simp only [ends_bind, ends_pure]
        exact (ih (h₁.clear hbelow) hd).mono (fun _ _ h => h) fun _ _ h => ⟨h, trivial⟩
      · rw [ends_update]
        exact h₁.trans (.setAll s₁ r found)

/-- **The dependencies of a clear role are found in their order**, and nothing else changes. -/
theorem allDependencies_recalls (hs : s.graph.Sound) (hclear : s.graph.Clear [] [r] (l ++ [r]))
    (site : Site) : ∃ s', (allDependencies site r).run.run s = (.ok l, s') ∧ Recalls s s' := by
  obtain ⟨-, direct, below, hdirect, hbelow⟩ := hclear.of_mem List.mem_cons_self
  have hr := Graph.hasRole_of_direct hdirect
  have hrecalls :
      Ends (allDependencies site r) s (fun _ s' => Recalls s s') fun _ s' => Recalls s s' := by
    unfold allDependencies
    rw [ends_bind, ends_get]
    exact collectDependencies_recalls _ hclear List.mem_cons_self
  have hends :=
    (Ends.run (allDependencies site r) s).and ((allDependencies_ends hs hr).and hrecalls)
  cases hrun : (allDependencies site r).run.run s with
  | mk result s' =>
    cases result with
    | error err => exact absurd (hends.of_error hrun).2.1.2 (hclear.not_faulty List.mem_cons_self)
    | ok found =>
      obtain ⟨-, hvisit, hrecall⟩ := hends.of_ok hrun
      refine ⟨s', ?_, hrecall⟩
      obtain ⟨ds, hds, hpost, -⟩ :=
        ((hvisit.learns.sound hs).roles r (hvisit.learns.grows.keeps.hasRole hr)).all found
        hvisit.known
      have hone : s'.graph.PostOrder [r] (found ++ [r]) := .cons hds hpost .nil
      rw [List.append_cancel_right (hone.unique (hrecall.clear hclear).postOrder)]

/-! ## The parts of an expansion -/

/-- **What the own tasks of a role are expanded to**, in a state between two others. -/
def OwnPart (site : Site) (t : Templater) (e e' : Expansion) (r : RoleId)
    (part : List TaskId) : Prop :=
  ∃ n e₁ e₂, GoesOn site e e₁ ∧ e₁.store.graph.HasRole r ∧
    (concatEach (expandTask site t n) (e₁.store.graph.role r).tasks).run.run e₁ = (.ok part, e₂) ∧
    GoesOn site e₂ e'

/-- **Roles are expanded part by part**, in the order of their dependencies, which are clear
then. -/
def InParts (site : Site) (t : Templater) (path : List String) (rs : List RoleId) (e e' : Expansion)
    (ids : List TaskId) : Prop :=
  ∃ order parts, e'.store.graph.Clear path rs order ∧ ids = parts.flatten ∧
    List.Forall₂ (OwnPart site t e e') order parts

theorem OwnPart.between {e₀ e₃ : Expansion} {part : List TaskId} (h : OwnPart site t e e₁ r part)
    (h₀ : GoesOn site e₀ e) (h₁ : GoesOn site e₁ e₃) : OwnPart site t e₀ e₃ r part := by
  obtain ⟨n, a, b, ha, hr, hrun, hb⟩ := h
  exact ⟨n, a, b, h₀.trans ha, hr, hrun, hb.trans h₁⟩

namespace InParts

variable {ids ids' : List TaskId} {rs' : List RoleId}

theorem between {e₀ e₃ : Expansion} (h : InParts site t path rs e e₁ ids) (h₀ : GoesOn site e₀ e)
    (h₁ : GoesOn site e₁ e₃) : InParts site t path rs e₀ e₃ ids := by
  obtain ⟨order, parts, hclear, hids, hparts⟩ := h
  refine ⟨order, parts, hclear.mono fun r hr => ?_, hids, hparts.imp fun _ _ h => h.between h₀ h₁⟩
  exact .of_stays (h₁.advances.grows.role r hr)

theorem append (h : InParts site t path rs e e₁ ids) (h' : InParts site t path rs' e e₁ ids') :
    InParts site t path (rs ++ rs') e e₁ (ids ++ ids') := by
  obtain ⟨order, parts, hclear, rfl, hparts⟩ := h
  obtain ⟨order', parts', hclear', rfl, hparts'⟩ := h'
  exact ⟨order ++ order', parts ++ parts', hclear.append hclear', (List.flatten_append ..).symm,
    List.rel_append hparts hparts'⟩

theorem flatten {pieces : List (List TaskId)}
    (h : List.Forall₂ (fun r ids => InParts site t path [r] e e₁ ids) rs pieces) :
    InParts site t path rs e e₁ pieces.flatten := by
  induction h with
  | nil => exact ⟨[], [], .nil, rfl, .nil⟩
  | cons hr _ ih => exact hr.append ih

/-- A role after its dependencies. -/
theorem role {direct : List RoleId} {part : List TaskId}
    (hname : (e₁.store.graph.role r).name ∉ path)
    (hdirect : (e₁.store.graph.role r).directDependencies = some direct)
    (h : InParts site t (path ++ [(e₁.store.graph.role r).name]) direct e e₁ ids)
    (hown : OwnPart site t e e₁ r part) : InParts site t path [r] e e₁ (ids ++ part) := by
  obtain ⟨order, parts, hclear, rfl, hparts⟩ := h
  refine ⟨order ++ [r], parts ++ [part], .cons hname hdirect hclear .nil, ?_,
    List.rel_append hparts (.cons hown .nil)⟩
  rw [List.flatten_append, List.flatten_singleton]

end InParts

/-- The tasks of a role, expanded one after the other. -/
theorem expandOwn_goesOn (n : Nat) (hs : e.store.graph.Sound) {xs : List TaskId}
    (hxs : ∀ x ∈ xs, e.store.graph.HasTask x) :
    Ends (concatEach (expandTask site t n) xs) e (fun _ e' => GoesOn site e e') fun _ e' =>
      GoesOn site e e' := by
  refine (Ends.concatEach (R := GoesOn site) (P := fun _ _ _ => True) .refl .trans (fun _ h => h)
    fun x hx e₁ h₁ => ?_).mono (fun _ _ h => h.1) fun _ _ h => h
  have hx₁ := h₁.advances.grows.keeps.hasTask (hxs x hx)
  exact ((expandTask_ends n (h₁.advances.sound hs) hx₁).and
    ((steady_discovers site).expandTask n x e₁)).mono
    (fun _ _ h => ⟨⟨h.1, h.2.2⟩, trivial⟩) fun _ _ h => ⟨h.1, h.2.2⟩

/-- **The expansion of a role is made of parts**: those of its dependencies, and its own. -/
theorem expandRoleOn_parts (n : Nat) (hs : e.store.graph.Sound) (hr : e.store.graph.HasRole r) :
    Ends (expandRoleOn site t n r path) e
      (fun ids e' => GoesOn site e e' ∧ InParts site t path [r] e e' ids) fun _ e' =>
      GoesOn site e e' := by
  induction n generalizing e r path with
  | zero => exact ends_expandRoleOn_zero.2 (.refl e)
  | succ n ih =>
    refine ends_expandRoleOn (fun path' hpath => ?_) fun _ _ => .refl e
    simp only [ends_bind, ends_expand_graph, ends_load, ends_pure]
    simp only [enterDependency] at hpath
    split at hpath
    · cases hpath
    rename_i hname
    rw [List.contains_iff_mem] at hname
    cases hpath
    refine ((directDependencies_ends hs hr).and (directDependencies_discovers site r e.store)).mono
      ?_
      fun _ _ h => ⟨h.1.1.toAdvances, rfl⟩
    rintro direct s₁ ⟨hfound, -, hdirect⟩
    have hdirect := hdirect hr
    have h₁ : GoesOn site e { e with store := s₁ } := ⟨hfound.learns.toAdvances, rfl⟩
    have hs₁ := h₁.advances.sound hs
    -- the dependencies, each from a state in which it was loaded
    refine (Ends.concatEach (R := GoesOn site) (P := fun d ids e' =>
        InParts site t (path ++ [(e.store.graph.role r).name]) [d] { e with store := s₁ } e' ids)
      .refl .trans (fun h hparts => hparts.between (.refl _) h)
        fun d hd e₂ h₂ => ?_).mono ?_ fun _ _ h => h₁.trans h
    · refine (ih (h₂.advances.sound hs₁)
        (h₂.advances.grows.keeps.hasRole (hs₁.hasRole_dep hdirect hd))).mono
        (fun _ _ h => ⟨h.1, h.2.between h₂ (.refl _)⟩) fun _ _ h => h
    · rintro _ e₂ ⟨h₂, pieces, rfl, hpieces⟩
      have hon := h₁.trans h₂
      have hs₂ := hon.advances.sound hs
      have hr₂ := hon.advances.grows.keeps.hasRole hr
      have htasks : ∀ x ∈ (e₂.store.graph.role r).tasks, e₂.store.graph.HasTask x :=
        fun x hx => ((hs₂.roles r hr₂).tasks x hx).has
      refine ((Ends.run _ e₂).and (expandOwn_goesOn n hs₂ htasks)).mono ?_
        fun _ _ h => hon.trans h.2
      rintro own e₃ ⟨hrun, h₃⟩
      have hrole := (hon.trans h₃).advances.grows.keeps.role r hr
      have hsame := (h₂.trans h₃).advances.grows.keeps.role r (Graph.hasRole_of_direct hdirect)
      refine ⟨hon.trans h₃,
        .role ?_ (hsame.direct direct hdirect) ?_ ⟨n, e₂, e₃, hon, hr₂, hrun, .refl _⟩⟩
      · rw [hrole.name]; exact hname
      · rw [hrole.name]
        exact (InParts.flatten hpieces).between h₁ h₃

/-! ## Agreement -/

/-- A role that is expanded has its dependencies in their order, and these are clear. -/
theorem expandRole_parts {n : Nat} {ids : List TaskId} (hs : e.store.graph.Sound)
    (hr : e.store.graph.HasRole r) (hrun : (expandRole site t n r).run.run e = (.ok ids, e₁)) :
    e₁.store.graph.Sound ∧ ∃ found parts,
    e₁.store.graph.Clear [] [r] (found ++ [r]) ∧ ids = parts.flatten ∧
      List.Forall₂ (OwnPart site t e e₁) (found ++ [r]) parts := by
  have hends : Ends (expandRoleOn site t n r []) e _ _ := expandRoleOn_parts n hs hr
  obtain ⟨hon, order, parts, hclear, hids, hparts⟩ := hends.of_ok hrun
  refine ⟨hon.advances.sound hs, ?_⟩
  cases hclear with
  | cons hname hdirect hbelow hnil =>
    cases hnil
    exact ⟨_, parts, .cons hname hdirect hbelow .nil, hids, hparts⟩

/-- **A role whose name is met again below itself** is not expanded. -/
theorem expandRole_looped {n : Nat} {ids : List TaskId} (hs : e.store.graph.Sound)
    (hr : e.store.graph.HasRole r) (hloop : e.store.graph.Looped [] r) :
    (expandRole site t n r).run.run e ≠ (.ok ids, e₁) := by
  intro hrun
  obtain ⟨-, found, parts, hclear, -⟩ := expandRole_parts hs hr hrun
  have hgrows := ((expandRoleOn_ends n [] hs hr).of_ok hrun).grows
  refine hclear.not_looped List.mem_cons_self (hloop.mono fun q hq => ?_)
  exact ⟨hgrows.keeps.hasRole hq, .of_stays (hgrows.role q hq)⟩

/-- **The expansion of a role agrees with its dependencies.** If it ends well, its dependencies are
found then, nothing is loaded for that, and the expansion consists of what the own tasks of each of
them are expanded to, in their order and those of the role last. If they are not found, it does not
end well; and once they are said to depend on each other it never does, whatever is asked in
between. -/
theorem expandRole_agrees {sites : Site → Prop} (h : Reachable sites s) (hr : s.graph.HasRole r) :
    (∀ site t n opened ids e, (expandRole site t n r).run.run ⟨s, opened⟩ = (.ok ids, e) →
      ∃ found parts,
      (∀ site', ∃ s', (allDependencies site' r).run.run e.store = (.ok found, s') ∧
        Recalls e.store s') ∧
        ids = parts.flatten ∧ List.Forall₂ (OwnPart site t ⟨s, opened⟩ e) (found ++ [r]) parts) ∧
    (∀ site err s', (allDependencies site r).run.run s = (.error err, s') →
      ∀ t n opened ids e, (expandRole site t n r).run.run ⟨s, opened⟩ ≠ (.ok ids, e)) ∧
    ∀ site cycle s', (allDependencies site r).run.run s = (.error (.cyclicDependency cycle), s') →
      ∀ sites' s'', Reaches sites' s' s'' →
        ∀ site' t n opened ids e, (expandRole site' t n r).run.run ⟨s'', opened⟩ ≠
          (.ok ids, e) := by
  have hs := h.sound
  refine ⟨fun site t n opened ids e hrun => ?_, fun site err s' hfail t n opened ids e hrun => ?_,
    fun site cycle s' hfail sites' s'' hreaches site' t n opened ids e => ?_⟩
  · obtain ⟨hs', found, parts, hclear, hids, hparts⟩ :=
      expandRole_parts (e := ⟨s, opened⟩) hs hr hrun
    exact ⟨found, parts, allDependencies_recalls hs' hclear, hids, hparts⟩
  · obtain ⟨-, found, parts, hclear, -⟩ := expandRole_parts (e := ⟨s, opened⟩) hs hr hrun
    have hdiscovers : Discovers site s e.store :=
      (((steady_discovers site).expandRoleOn n r [] ⟨s, opened⟩).of_ok hrun).1
    exact hdiscovers.not_faulty hs hclear List.mem_cons_self hr
      ((allDependencies_ends hs hr).of_error hfail).2
  · have hlearns := ((allDependencies_ends hs hr).of_error hfail).1
    have hgrows := hreaches.grows (hlearns.sound hs)
    have hloop : s'.graph.Looped [] r := by
      have hends : Ends (allDependencies site r) s (fun _ _ => True) fun err s' =>
          ∀ cycle, err = .cyclicDependency cycle → s'.graph.Looped [] r := by
        unfold allDependencies
        rw [ends_bind, ends_get]
        exact (collectDependencies_looped _ hs.linked hr).mono (fun _ _ _ => trivial)
          fun _ _ h => h.2
      exact hends.of_error hfail cycle rfl
    refine expandRole_looped (e := ⟨s'', opened⟩) (hreaches.sound (hlearns.sound hs))
      (hgrows.keeps.hasRole (hlearns.grows.keeps.hasRole hr)) (hloop.mono fun q hq => ?_)
    exact ⟨hgrows.keeps.hasRole hq, .of_stays (hgrows.role q hq)⟩

/-- Two roles that depend on each other. -/
def knotSite : Site where
  disk := ⟨.dir [("roles", .dir [
    ("left", .dir [("meta", .dir [("main.yml", .file (.text "dependencies:\n  - right\n"))])]),
    ("right", .dir [("meta", .dir [
      ("main.yml", .file (.text "dependencies:\n  - left\n"))])])])], []⟩
  root := ⟨"."⟩
  config := ⟨[]⟩

/-- The first of them is loaded into an empty state. -/
def knotLoad : Except LoadError RoleId × Store :=
  (loadRole knotSite none none "left").run.run .empty

/-- The roles on which it depends. -/
def knotFound : Except LoadError (List RoleId) × Store :=
  (allDependencies knotSite ⟨0⟩).run.run knotLoad.2

/-- The names on a cycle that is told of. -/
def cycle? {α : Type} : Except LoadError α → Option (List String)
  | .error (.cyclicDependency cycle) => some cycle
  | _ => none

theorem run_cycle {α : Type} {r : Except LoadError α × Store} {cycle : List String}
    (h : cycle? r.1 = some cycle) : r = (.error (.cyclicDependency cycle), r.2) := by
  obtain ⟨result, s⟩ := r
  unfold cycle? at h
  split at h
  · rename_i hresult
    cases h
    exact congrArg (·, s) hresult
  · cases h

/-- The first role of the diamond is expanded where it was loaded. -/
def diamondExpansion : Except ExpandError (List TaskId) × Expansion :=
  (expandRole diamondSite (.ofMode false) 10 ⟨0⟩).run.run ⟨diamondLoad.2, []⟩

/-- **In a diamond**, what is met twice is expanded twice, each time in front of what depends on it;
**in a knot** there is no expansion. -/
theorem diamond_agrees : (∃ e s' parts, diamondExpansion = (.ok [⟨0⟩, ⟨1⟩], e) ∧
      (allDependencies diamondSite ⟨0⟩).run.run e.store = (.ok [⟨3⟩, ⟨1⟩, ⟨4⟩, ⟨2⟩], s') ∧
      Recalls e.store s' ∧
      [⟨0⟩, ⟨1⟩] = parts.flatten ∧
      List.Forall₂ (OwnPart diamondSite (.ofMode false) ⟨diamondLoad.2, []⟩ e)
        [⟨3⟩, ⟨1⟩, ⟨4⟩, ⟨2⟩, ⟨0⟩] parts) ∧
    knotFound.1 = .error (.cyclicDependency ["left", "right", "left"]) ∧
    ∀ t n ids e, (expandRole knotSite t n ⟨0⟩).run.run ⟨knotFound.2, []⟩ ≠ (.ok ids, e) := by
  have hdiamond : Reachable (· = diamondSite) diamondLoad.2 := reachable_loadRole diamondSite "top"
  have hknot : Reachable (· = knotSite) knotLoad.2 := reachable_loadRole knotSite "left"
  obtain ⟨hhas, hids, hfound⟩ : diamondLoad.2.graph.HasRole ⟨0⟩ ∧
      diamondExpansion.1.toOption = some [⟨0⟩, ⟨1⟩] ∧
      ((allDependencies diamondSite ⟨0⟩).run.run diamondExpansion.2.store).1.toOption =
        some [⟨3⟩, ⟨1⟩, ⟨4⟩, ⟨2⟩] := by decide +kernel
  obtain ⟨hhas', hcycle⟩ : knotLoad.2.graph.HasRole ⟨0⟩ ∧
    cycle? knotFound.1 = some ["left", "right", "left"] := by
    decide +kernel
  have hok := run_ok hids
  have hfail := run_cycle hcycle
  obtain ⟨found, parts, hall, hparts⟩ :=
    (expandRole_agrees hdiamond hhas).1 diamondSite (.ofMode false) 10 []
    [⟨0⟩, ⟨1⟩] diamondExpansion.2 hok
  obtain ⟨s', hs', hrecalls⟩ := hall diamondSite
  rw [hs'] at hfound
  obtain rfl : found = [⟨3⟩, ⟨1⟩, ⟨4⟩, ⟨2⟩] := Option.some.inj hfound
  refine ⟨⟨diamondExpansion.2, s', parts, hok, hs', hrecalls, hparts⟩, congrArg Prod.fst hfail,
    fun t n => ?_⟩
  exact (expandRole_agrees hknot hhas').2.2 knotSite ["left", "right", "left"] knotFound.2 hfail
    (· = knotSite)
    knotFound.2 .refl knotSite t n []

end Runlist
