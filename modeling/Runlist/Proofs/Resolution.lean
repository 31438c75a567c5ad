import Mathlib.Data.List.Chain
import Runlist.Proofs.Outcome.Dependencies
import Runlist.Proofs.Reach

/-!
# Which dependencies are found, and what is wrong where none are

The dependencies of a role are a graph of names, which the files draw. That graph says when they are
found, in which order, and what is told where they are not.

* `Site.Resolvable`: every role below a name loads, and none of them depends on itself.
* `Site.PostOrder`: the order in which the trees below some names are written down.
* `Site.Cycle`: names, each of which depends on the next one, and the last one is the first.
* `Site.FailsFirst`: the first role that does not load, where the dependencies of a role are all
  loaded before any of them is followed.
* `layersOn_fails`: **what is wrong is one of the two**, a cycle or a role that does not load.
* `readNamed_error`, `loads_iff`: why a role does not load, and that it loads whatever was loaded
  before.
* `dependencies_resolve`: **dependencies are found exactly if the graph allows it.**
-/

namespace Runlist

open Relation (TransGen ReflTransGen)

variable {site : Site} {names path l l' : List String} {name dep start : String} {e : LoadError}
  {heads ls : List NamedHead} {head : NamedHead}

/-- The role of a name loads. -/
def Site.Loads (site : Site) (name : String) : Prop := ∃ role, site.readNamed name .main = .ok role

/-- **The dependencies of a name can be followed to their ends**: every role below it loads, and no
name that is reached from it leads to itself. -/
structure Site.Resolvable (site : Site) (name : String) : Prop where
  loads : ∀ dep, TransGen site.Leads name dep → site.Loads dep
  acyclic : ∀ m, ReflTransGen site.Leads name m → ¬ TransGen site.Leads m m

/-- **The post-order** of the trees below some names: each name after what is below it, as often as
it is met. -/
inductive Site.PostOrder (site : Site) : List String → List String → Prop
  | nil : site.PostOrder [] []
  | cons {name : String} {below rest l : List String} :
      site.PostOrder (site.dependencyNames name) below →
      site.PostOrder rest l → site.PostOrder (name :: rest) (below ++ name :: l)

/-- **A cycle of dependencies**, from a name to itself, with no other name twice. -/
structure Site.Cycle (site : Site) (cycle : List String) : Prop where
  length : 2 ≤ cycle.length
  closed : cycle.head? = cycle.getLast?
  nodup : cycle.dropLast.Nodup
  leads : cycle.IsChain site.Leads

/-- **The first role that does not load**, below a name. It is the first one among the direct
dependencies; if all of these load, it is below the first one that cannot be followed to its end. -/
inductive Site.FailsFirst (site : Site) : String → LoadError → Prop
  | direct {name dep : String} {front back : List String} {e : LoadError} :
      site.dependencyNames name = front ++ dep :: back → (∀ d ∈ front, site.Loads d) →
      site.readNamed dep .main = .error e → site.FailsFirst name e
  | deeper {name dep : String} {front back : List String} {e : LoadError} :
      site.dependencyNames name = front ++ dep :: back →
      (∀ d ∈ site.dependencyNames name, site.Loads d) →
      (∀ d ∈ front, site.Resolvable d) → site.FailsFirst dep e → site.FailsFirst name e

/-! ## The graph of names -/

/-- There is one post-order. -/
theorem Site.PostOrder.unique (h : site.PostOrder names l)
    (h' : site.PostOrder names l') : l = l' := by
  induction h generalizing l' with
  | nil => cases h'; rfl
  | cons _ _ ih₁ ih₂ =>
    cases h' with
    | cons hbelow hrest => rw [ih₁ hbelow, ih₂ hrest]

/-- Below one name, that name comes last. -/
theorem Site.PostOrder.one (h : site.PostOrder [name] l) :
    ∃ below, site.PostOrder (site.dependencyNames name) below ∧ l = below ++ [name] := by
  cases h with
  | cons hbelow hnil => cases hnil; exact ⟨_, hbelow, rfl⟩

theorem leads_of_split {front back : List String}
    (h : site.dependencyNames name = front ++ dep :: back) : site.Leads name dep := by
  rw [Site.Leads, h]; exact List.mem_append_right _ List.mem_cons_self

/-- The last name on a cycle leads to itself. -/
theorem Site.Cycle.loop_last {cycle : List String} (h : site.Cycle cycle)
    (hlast : cycle.getLast? = some name) : TransGen site.Leads name name := by
  obtain ⟨hlength, hclosed, -, hleads⟩ := h
  match cycle, hlength with
  | first :: next :: rest, _ =>
    rw [hlast] at hclosed
    cases hclosed
    rw [List.getLast?_cons_cons] at hlast
    have hreach := (hleads.imp fun _ _ => TransGen.single).pairwise
    exact List.rel_of_pairwise_cons hreach (List.mem_of_getLast? hlast)

/-- A name on a cycle leads to itself. -/
theorem Site.Cycle.loop {cycle : List String} (h : site.Cycle cycle) :
    ∃ m ∈ cycle, TransGen site.Leads m m := by
  have hne : cycle ≠ [] := List.ne_nil_of_length_pos (by have := h.length; omega)
  exact ⟨_, List.getLast_mem hne, h.loop_last (List.getLast?_eq_some_getLast hne)⟩

/-- A role that does not load is in the way. -/
theorem Site.FailsFirst.not_resolvable (h : site.FailsFirst name e) : ¬ site.Resolvable name := by
  induction h with
  | @direct name dep front back e hdeps _ hread =>
    intro hname
    obtain ⟨role, hrole⟩ := hname.loads dep (.single (leads_of_split hdeps))
    rw [hread] at hrole; cases hrole
  | @deeper name dep front back e hdeps _ _ _ ih =>
    intro hname
    have hdep := leads_of_split hdeps
    exact ih ⟨fun d hd => hname.loads d (.head hdep hd), fun m hm =>
      hname.acyclic m (.head hdep hm)⟩

/-- Names of which the roles were read load. -/
theorem loads_of_readHeads (h : site.readHeads names = .ok heads) :
    ∀ name ∈ names, site.Loads name := by
  intro name hname
  obtain ⟨roles, hroles, -⟩ := readHeads_iff.1 h
  obtain ⟨role, -, hrole⟩ := exists_right (mapM_ok.1 hroles) hname
  exact ⟨role, hrole⟩

/-- Roles are not read because of the first one that does not load. -/
theorem readHeads_error_split (h : site.readHeads names = .error e) :
    ∃ front dep back, names = front ++ dep :: back ∧ (∀ d ∈ front, site.Loads d) ∧
      site.readNamed dep .main = .error e := by
  obtain ⟨front, dep, back, hsplit, hfront, hdep⟩ := mapM_error_iff.1 h
  refine ⟨front, dep, back, hsplit, fun d hd => ?_, ?_⟩
  · obtain ⟨_, hd⟩ := hfront d hd
    obtain ⟨role, hrole, -⟩ := except_bind_ok.1 hd
    exact ⟨role, hrole⟩
  · rcases except_bind_error.1 hdep with hdep | ⟨_, -, hdep⟩
    · exact hdep
    · cases hdep

/-- What can be followed to its end is on no cycle. -/
theorem not_loop_of_acc (h : Acc (fun dep name => site.Leads name dep) name) :
    ¬ TransGen site.Leads name name := by
  induction h with
  | intro name _ ih =>
    intro hloop
    obtain ⟨next, hnext, hback⟩ := TransGen.head'_iff.1 hloop
    -- the next name on the cycle leads to itself as well
    exact ih next hnext (TransGen.tail' hback hnext)

namespace Site.Stacked

/-- Roles that stack are in post-order. -/
theorem postOrder (h : site.Stacked heads ls) (hreal : ∀ head ∈ heads, head.Real site) :
    site.PostOrder (heads.map (·.name)) (ls.map (·.name)) := by
  induction h with
  | nil => exact .nil
  | @cons r direct below rest l hread _ _ ih₁ ih₂ =>
    obtain ⟨hnames, hdirect⟩ := readHeads_ok hread
    rw [List.map_cons, List.map_append, List.map_cons]
    refine .cons ?_ (ih₂ fun head hhead => hreal head (List.mem_cons_of_mem _ hhead))
    rw [← hreal r List.mem_cons_self, ← hnames]
    exact ih₁ hdirect

/-- Every role below roles that stack loads. -/
theorem loads (h : site.Stacked heads ls) (hreal : ∀ head ∈ heads, head.Real site) :
    ∀ head ∈ heads, ∀ dep, TransGen site.Leads head.name dep → site.Loads dep := by
  induction h with
  | nil => exact fun _ h => (List.not_mem_nil h).elim
  | @cons r direct below rest l hread _ _ ih₁ ih₂ =>
    intro head hhead dep hdep
    rcases List.mem_cons.1 hhead with rfl | hhead
    · obtain ⟨hnames, hdirect⟩ := readHeads_ok hread
      obtain ⟨next, hnext, hrest⟩ := TransGen.head'_iff.1 hdep
      rw [Site.Leads, ← hreal head List.mem_cons_self] at hnext
      rcases ReflTransGen.cases_head hrest with rfl | ⟨_, hstep, hrest'⟩
      · exact loads_of_readHeads hread _ hnext
      · rw [← hnames] at hnext
        obtain ⟨d, hd, rfl⟩ := List.mem_map.1 hnext
        exact ih₁ hdirect d hd dep (TransGen.head' hstep hrest')
    · exact ih₂ (fun head hhead => hreal head (List.mem_cons_of_mem _ hhead)) head hhead dep hdep

/-- **The dependencies of roles that stack** can be followed to their ends. -/
theorem resolvable (h : site.Stacked heads ls) (hreal : ∀ head ∈ heads, head.Real site)
    (hhead : head ∈ heads) : site.Resolvable head.name where
  loads := h.loads hreal head hhead
  acyclic m hm := by
    refine not_loop_of_acc ?_
    have hacc := h.acc hreal head hhead
    rcases Relation.reflTransGen_iff_eq_or_transGen.1 hm with rfl | hm
    · exact hacc
    · exact hacc.inv_of_transGen (Relation.transGen_swap.2 hm)

end Site.Stacked

theorem stacked_of_layersOn_one {n : Nat} (h : site.layersOn n path head = .ok ls) :
    site.Stacked [head] ls := by
  rw [← concatEach_singleton (site.layersOn _ _)] at h
  exact stacked_of_layersOn h

/-! ## What is wrong -/

theorem enterName_error (h : enterName path name = .error e) :
    name ∈ path ∧ e = .cyclicDependency (cycleOf path name) := by
  unfold enterName at h
  split at h
  · rename_i hmem; cases h; exact ⟨List.contains_iff_mem.1 hmem, rfl⟩
  · cases h

/-- A name that is met again closes a cycle. -/
theorem cycleOf_cycle (hnodup : path.Nodup) (hchain : (path ++ [name]).IsChain site.Leads)
    (hmem : name ∈ path) : site.Cycle (cycleOf path name) ∧ cycleOf path name ⊆ path ++ [name] := by
  obtain ⟨before, between, hsplit⟩ := List.append_of_mem hmem
  rw [hsplit] at hnodup
  have hbefore : name ∉ before :=
    fun hin => (List.nodup_append.1 hnodup).2.2 _ hin _ List.mem_cons_self rfl
  have hcycle : cycleOf path name = name :: between ++ [name] := by
    rw [cycleOf, hsplit, List.dropWhile_append_of_pos fun m hm => by
      simpa using fun heq : m = name => hbefore (heq ▸ hm)]
    rw [List.dropWhile_cons_of_neg (by simp)]
  rw [hcycle]
  refine ⟨⟨?_, ?_, ?_, ?_⟩, ?_⟩
  · simp
  · rw [List.getLast?_concat]; rfl
  · rw [List.dropLast_concat]
    exact (List.nodup_append.1 hnodup).2.1
  · rw [hsplit, List.append_assoc] at hchain
    exact hchain.right_of_append
  · rw [hsplit, List.append_assoc]
    exact List.subset_append_right _ _

/-- **What is wrong with a role on a path**: it closes a cycle, or one below it does; or there is a
first role that does not load. -/
theorem layersOn_fails {n : Nat} (hreal : head.Real site)
    (hpath : site.OnPath names path n head.name) (hchain : (path ++ [head.name]).IsChain site.Leads)
    (hstart : ∀ m ∈ path ++ [head.name], ReflTransGen site.Leads start m)
    (h : site.layersOn n path head = .error e) :
    (∃ cycle, e = .cyclicDependency cycle ∧ site.Cycle cycle ∧
      ∀ m ∈ cycle, ReflTransGen site.Leads start m) ∨
      site.FailsFirst head.name e := by
  induction n generalizing path head with
  | zero =>
    obtain ⟨_, hpos⟩ := hpath.pos
    cases hpos
  | succ n ih =>
    rw [Site.layersOn] at h
    rcases except_bind_error.1 h with h | ⟨path₁, hpath₁, h⟩
    · obtain ⟨hmem, rfl⟩ := enterName_error h
      obtain ⟨hcycle, hsubset⟩ := cycleOf_cycle hpath.nodup hchain hmem
      exact .inl ⟨_, rfl, hcycle, fun m hm => hstart m (hsubset hm)⟩
    obtain ⟨hnew, rfl⟩ := enterName_ok hpath₁
    rcases except_bind_error.1 h with h | ⟨direct, hdirect, h⟩
    -- one of the direct dependencies does not load
    · obtain ⟨front, d, back, hsplit, hfront, hd⟩ := readHeads_error_split h
      exact .inr (.direct (hreal.symm.trans hsplit) hfront hd)
    rcases except_bind_error.1 h with h | ⟨_, -, h⟩
    -- they load, and below one of them something is wrong
    · obtain ⟨hnames, hdirectReal⟩ := readHeads_ok hdirect
      obtain ⟨front, d, back, rfl, hfront, hd⟩ := concatEach_error_split h
      have hdmem : d ∈ front ++ d :: back := List.mem_append_right _ List.mem_cons_self
      have hleads : site.Leads head.name d.name := by
        rw [Site.Leads, ← hreal, ← hnames]; exact List.mem_map_of_mem hdmem
      have hchain' : (path ++ [head.name] ++ [d.name]).IsChain site.Leads := by
        rw [List.append_assoc]
        exact List.isChain_split.2 ⟨hchain, List.isChain_pair.2 hleads⟩
      have hstart' : ∀ m ∈ path ++ [head.name] ++ [d.name], ReflTransGen site.Leads start m := by
        intro m hm
        rcases List.mem_append.1 hm with hm | hm
        · exact hstart m hm
        · rw [List.mem_singleton.1 hm]
          exact (hstart _ (List.mem_append_right _ List.mem_cons_self)).tail hleads
      refine (ih (hdirectReal d hdmem) (hpath.step hnew hleads) hchain' hstart' hd).imp_right
        fun hfails => ?_
      have hsplit : site.dependencyNames head.name =
          front.map (·.name) ++ d.name :: back.map (·.name) := by
        rw [← hreal, ← hnames, List.map_append, List.map_cons]
      refine .deeper hsplit (hreal ▸ loads_of_readHeads hdirect) (fun m hm => ?_) hfails
      · obtain ⟨f, hf, rfl⟩ := List.mem_map.1 hm
        obtain ⟨_, hlayers⟩ := hfront f hf
        refine (stacked_of_layersOn_one hlayers).resolvable (fun q hq => ?_) List.mem_cons_self
        rw [List.mem_singleton.1 hq]
        exact hdirectReal f (List.mem_append_left _ hf)
    · cases h

/-! ## Errors of loading -/

/-- A file of a role that is in the way is one of its tasks. -/
theorem readBelow_error {selection : RoleSelection} {dir : FilePath} {text : RoleText}
    {file : List String} (h : site.readBelow selection dir text file = .error e) :
    ∃ path, site.readTasks path = .error e := by
  cases file with
  | nil => cases h
  | cons folder file =>
    rw [Site.readBelow] at h
    unfold Site.readRoleFile at h
    split at h
    · split at h
      · rcases except_bind_error.1 h with h | ⟨_, -, h⟩
        · exact ⟨_, h⟩
        · cases h
      · cases h
    · split at h <;> cases h
    · split at h <;> cases h
    · split at h
      · split at h <;> cases h
      · cases h
    · cases h

/-- **Why a role does not load**: it is not found, its directory cannot be listed, or one of its
files of tasks cannot be read. -/
theorem readNamed_error {selection : RoleSelection} (h : site.readNamed name selection = .error e) :
    e = .roleNotFound name (site.roleCandidates name) ∨ (∃ dir reason, e = .walk dir reason) ∨
      ∃ path, site.readTasks path = .error e := by
  rcases except_bind_error.1 h with h | ⟨dir, -, h⟩
  · unfold Site.findRole at h
    dsimp only at h
    split at h
    · cases h
    · cases h; exact .inl rfl
  rcases except_bind_error.1 h with h | ⟨_, -, h⟩
  · unfold Site.readRoleAt at h
    split at h
    · cases h; exact .inr (.inl ⟨dir, _, rfl⟩)
    · obtain ⟨_, _, -, h⟩ := foldlM_error h
      exact .inr (.inr (readBelow_error h))
  · cases h

/-- Files of tasks tell of no cycle. -/
theorem readTasks_ne_cycle {file : FilePath} {cycle : List String} :
    site.readTasks file ≠ .error (.cyclicDependency cycle) := by
  unfold Site.readTasks
  intro h
  split at h
  · cases h
  · obtain ⟨_, -, h⟩ := mapError_error.1 h
    cases h

/-- A role that does not load closes no cycle. -/
theorem Site.FailsFirst.ne_cycle (h : site.FailsFirst name e) (cycle : List String) :
    e ≠ .cyclicDependency cycle := by
  induction h with
  | direct _ _ hread =>
    rintro rfl
    obtain h | ⟨_, _, h⟩ | ⟨path, h⟩ := readNamed_error hread
    · cases h
    · cases h
    · exact readTasks_ne_cycle h
  | deeper _ _ _ _ ih => exact ih

/-! ## Dependencies of a state -/

section Reachable

variable {s : Store} {r : RoleId}

/-- A role loads now exactly if it loads from the files. -/
theorem loads_iff (h : Reachable (· = site) s) :
    site.Loads name ↔ ∃ q s', (loadRole site none none name).run.run s = (.ok q, s') := by
  have hends : Ends (loadRole site none none name) s _ _ :=
    loadRoleWith_ends h.sound (by rintro _ ⟨⟩) (by rintro _ ⟨⟩) name .main
  rw [Site.Loads, ← h.faithful.readNamed name .main]
  constructor
  · rintro ⟨role, hrole⟩
    cases hrun : (loadRole site none none name).run.run s with
    | mk result s' =>
      cases result with
      | ok q => exact ⟨q, s', rfl⟩
      | error e => have hfail := (hends.of_error hrun).2; rw [hrole] at hfail; cases hfail
  · rintro ⟨q, s', hrun⟩
    obtain ⟨-, role, hrole, -⟩ := hends.of_ok hrun
    exact ⟨role, hrole⟩

/-- What is found is below the declared dependencies, and all that is below the role could be
followed to its end. -/
theorem allDependencies_found (h : Reachable (· = site) s) (hordered : site.disk.tree.Ordered)
    (hr : s.graph.HasRole r) {found : List RoleId} {s' : Store}
    (hrun : (allDependencies site r).run.run s = (.ok found, s')) :
    site.Resolvable (s.graph.role r).name ∧
      site.PostOrder (site.dependencyNames (s.graph.role r).name) (found.map fun q =>
        (s'.graph.role q).name) := by
  have hreal : ∀ head ∈ [s.graph.namedHead r], head.Real site := fun head hhead => by
    rw [List.mem_singleton.1 hhead]; exact h.faithful.namedReal hordered hr
  obtain ⟨-, heads, hlayers, hfound⟩ :=
    (allDependencies_follows h.sound h.faithful hordered hr).of_ok hrun
  have hstacked : site.Stacked [s.graph.namedHead r] heads := stacked_of_layersOn_one hlayers
  refine ⟨hstacked.resolvable hreal List.mem_cons_self, ?_⟩
  -- the role itself comes last
  obtain ⟨below, hbelow, hnames⟩ := (hstacked.postOrder hreal).one
  rw [hfound.heads, List.map_map, List.map_append] at hnames
  obtain ⟨rfl, -⟩ := List.append_inj' hnames rfl
  exact hbelow

/-- Where nothing is found, a cycle or a role that does not load is below the role. -/
theorem allDependencies_fails (h : Reachable (· = site) s) (hordered : site.disk.tree.Ordered)
    (hr : s.graph.HasRole r) {s' : Store}
    (hrun : (allDependencies site r).run.run s = (.error e, s')) :
    (∃ cycle, e = .cyclicDependency cycle ∧ site.Cycle cycle ∧
      ∀ m ∈ cycle, ReflTransGen site.Leads (s.graph.role r).name m) ∨
    site.FailsFirst (s.graph.role r).name e := by
  have hpath :
      site.OnPath ((s.graph.role r).name :: site.declaredNames) [] (site.declaredNames.length + 2)
      (s.graph.namedHead r).name := .start site _ le_rfl
  refine layersOn_fails (h.faithful.namedReal hordered hr) hpath (.singleton _) (fun m hm => ?_)
    ((allDependencies_follows h.sound h.faithful hordered hr).of_error hrun).2
  rw [List.mem_singleton.1 hm]; exact .refl

/-- **Dependencies are found exactly if the graph allows it**: every role below loads, and none
depends on itself. What is found is the one post-order of the trees below the declared dependencies.
Where nothing is found, there is a cycle to tell of, and it is below the role; or there is none to
tell of, and the error is that of the first role that does not load. -/
theorem dependencies_resolve (h : Reachable (· = site) s) (hordered : site.disk.tree.Ordered)
    (hr : s.graph.HasRole r) :
    ((∃ found s', (allDependencies site r).run.run s = (.ok found, s')) ↔
      site.Resolvable (s.graph.role r).name) ∧
    (∀ found s', (allDependencies site r).run.run s = (.ok found, s') → ∀ names,
      site.PostOrder (site.dependencyNames (s.graph.role r).name) names ↔
        names = found.map fun q => (s'.graph.role q).name) ∧
    ∀ e s', (allDependencies site r).run.run s = (.error e, s') →
      (∃ cycle, e = .cyclicDependency cycle ∧ site.Cycle cycle ∧
        ∀ m ∈ cycle, ReflTransGen site.Leads (s.graph.role r).name m) ∨
      (∀ cycle, e ≠ .cyclicDependency cycle) ∧ site.FailsFirst (s.graph.role r).name e := by
  refine ⟨⟨fun ⟨found, s', hrun⟩ => (allDependencies_found h hordered hr hrun).1, fun hname => ?_⟩,
    fun found s' hrun names => ?_, fun e s' hrun => ?_⟩
  · cases hrun : (allDependencies site r).run.run s with
    | mk result s' =>
      cases result with
      | ok found => exact ⟨found, s', rfl⟩
      | error e =>
        rcases allDependencies_fails h hordered hr hrun with ⟨cycle, -, hcycle, hbelow⟩ | hfails
        · obtain ⟨m, hm, hloop⟩ := hcycle.loop
          exact (hname.acyclic m (hbelow m hm) hloop).elim
        · exact (hfails.not_resolvable hname).elim
  · obtain ⟨-, hpost⟩ := allDependencies_found h hordered hr hrun
    exact ⟨fun hnames => hnames.unique hpost, by rintro rfl; exact hpost⟩
  · exact (allDependencies_fails h hordered hr hrun).imp_right fun hfails =>
      ⟨hfails.ne_cycle, hfails⟩

/-- The state after a role was loaded first. -/
theorem reachable_loadRole (site : Site) (name : String) :
    Reachable (· = site) ((loadRole site none none name).run.run .empty).2 := by
  have hvalid : (Request.role none none name .main).Valid Store.empty.graph := by
    refine ⟨?_, ?_⟩ <;> rintro _ ⟨⟩
  have hreach : Reachable (· = site) ((Request.role none none name .main).run site .empty) :=
    .step .refl rfl hvalid
  exact hreach

end Reachable

/-! ## A diamond -/

/-- A role that depends on two others, and both of these on one more. -/
def diamondSite : Site where
  disk := ⟨.dir [("roles", .dir [
    ("base", .dir [("tasks", .dir [("main.yml", .file (.text "- debug:\n"))])]),
    ("left", .dir [("meta", .dir [("main.yml", .file (.text "dependencies:\n  - base\n"))])]),
    ("right", .dir [("meta", .dir [("main.yml", .file (.text "dependencies:\n  - base\n"))])]),
    ("top", .dir [("meta", .dir [
      ("main.yml", .file (.text "dependencies:\n  - left\n  - right\n"))])])])], []⟩
  root := ⟨"."⟩
  config := ⟨[]⟩

/-- The first of these roles is loaded into an empty state. -/
def diamondLoad : Except LoadError RoleId × Store :=
  (loadRole diamondSite none none "top").run.run .empty

/-- The roles on which it depends. -/
def diamondFound : Except LoadError (List RoleId) × Store :=
  (allDependencies diamondSite ⟨0⟩).run.run diamondLoad.2

/-- What both depend on is found twice. -/
theorem diamond_resolves :
    Reachable (· = diamondSite) diamondLoad.2 ∧ diamondSite.disk.tree.Ordered ∧
    diamondLoad.2.graph.HasRole ⟨0⟩ ∧ diamondSite.Resolvable "top" ∧
    diamondSite.PostOrder (diamondSite.dependencyNames "top")
      ["base", "left", "base", "right"] := by
  have hreach : Reachable (· = diamondSite) diamondLoad.2 := by
    rw [diamondLoad]; exact reachable_loadRole diamondSite "top"
  have hordered : diamondSite.disk.tree.Ordered := by
    unfold diamondSite
    simp only [FileTree.Ordered, FileTree.OrderedEntries]
    decide
  obtain ⟨hhas, hname, hnames⟩ : diamondLoad.2.graph.HasRole ⟨0⟩ ∧
      (diamondLoad.2.graph.role ⟨0⟩).name = "top" ∧
      diamondFound.1.toOption.map (fun found => found.map fun q =>
        (diamondFound.2.graph.role q).name) =
        some ["base", "left", "base", "right"] := by decide +kernel
  obtain ⟨found, hfound, hnames⟩ := Option.map_eq_some_iff.1 hnames
  obtain ⟨hok, hpost, -⟩ := dependencies_resolve hreach hordered hhas
  rw [hname] at hok hpost
  exact ⟨hreach, hordered, hhas, hok.1 ⟨found, _, run_ok hfound⟩,
    (hpost found diamondFound.2 (run_ok hfound) _).2 hnames.symm⟩

/-! ## Two roles that are not found -/

/-- A role that depends on one with a missing dependency, and on a missing one. -/
def forkSite : Site where
  disk := ⟨.dir [("roles", .dir [
    ("a", .dir [("meta", .dir [("main.yml", .file (.text "dependencies:\n  - missing1\n"))])]),
    ("r", .dir [("meta", .dir [
      ("main.yml", .file (.text "dependencies:\n  - a\n  - missing2\n"))])])])], []⟩
  root := ⟨"."⟩
  config := ⟨[]⟩

/-- The role is loaded into an empty state. -/
def forkLoad : Except LoadError RoleId × Store := (loadRole forkSite none none "r").run.run .empty

/-- The roles on which it depends. -/
def forkFound : Except LoadError (List RoleId) × Store :=
  (allDependencies forkSite ⟨0⟩).run.run forkLoad.2

/-- The name of the role that is not found. -/
def notFound? {α : Type} : Except LoadError α → Option String
  | .error (.roleNotFound name _) => some name
  | _ => none

theorem of_notFound {α : Type} {result : Except LoadError α} (h : notFound? result = some name) :
    ∃ searched, result = .error (.roleNotFound name searched) := by
  unfold notFound? at h
  split at h
  · cases h; exact ⟨_, rfl⟩
  · cases h

/-- **It is not the first role of the post-order** that is told of: that one is met only where the
dependencies of the first role are followed, and all of them are loaded before. -/
theorem fork_tells_later : Reachable (· = forkSite) forkLoad.2 ∧ forkSite.disk.tree.Ordered ∧
    forkLoad.1.toOption = some ⟨0⟩ ∧
    forkSite.PostOrder (forkSite.dependencyNames "r") ["missing1", "a", "missing2"] ∧
    ∃ e e', forkFound.1 = .error e ∧ (∀ cycle, e ≠ .cyclicDependency cycle) ∧
      forkSite.readNamed "missing1" .main = .error e' ∧ e ≠ e' := by
  have hreach : Reachable (· = forkSite) forkLoad.2 := by
    rw [forkLoad]; exact reachable_loadRole forkSite "r"
  have hordered : forkSite.disk.tree.Ordered := by
    unfold forkSite
    simp only [FileTree.Ordered, FileTree.OrderedEntries]
    decide
  obtain ⟨hfirst, hfail, hmissing⟩ : forkLoad.1.toOption = some ⟨0⟩ ∧
      notFound? forkFound.1 = some "missing2" ∧
      notFound? (forkSite.readNamed "missing1" .main) = some "missing1" := by decide +kernel
  obtain ⟨htop, ha, hleaf, hleaf'⟩ : forkSite.dependencyNames "r" = ["a", "missing2"] ∧
      forkSite.dependencyNames "a" = ["missing1"] ∧ forkSite.dependencyNames "missing1" = [] ∧
      forkSite.dependencyNames "missing2" = [] := by decide +kernel
  have hpost :
      forkSite.PostOrder ["a", "missing2"] (["missing1"] ++ "a" :: ([] ++ "missing2" :: [])) := by
    refine .cons ?_ (.cons ?_ .nil)
    · have hbelow : forkSite.PostOrder (forkSite.dependencyNames "missing1") [] := by
        rw [hleaf]; exact .nil
      rw [ha]
      exact hbelow.cons .nil
    · rw [hleaf']; exact .nil
  obtain ⟨searched, hfail⟩ := of_notFound hfail
  obtain ⟨searched', hmissing⟩ := of_notFound hmissing
  refine ⟨hreach, hordered, hfirst, ?_, _, _, hfail, ?_, hmissing, fun hsame => ?_⟩
  · rw [htop]; exact hpost
  · rintro _ ⟨⟩
  · exact absurd (LoadError.roleNotFound.inj hsame).1 (by decide)

end Runlist
