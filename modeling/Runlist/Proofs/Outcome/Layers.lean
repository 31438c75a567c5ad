import Runlist.Proofs.Outcome.Documents

/-!
# Layers of defaults on the documents

Dependencies are followed along paths of names, and a path ends where a name is met again. A role
whose dependencies can be followed to their ends is on no cycle, whatever the path that leads to it.

* `Site.Leads`: a name is among those on which the role of another name depends.
* `Site.Stacked`: roles, each after those on which it depends, as the files declare them.
* `Stacked.acc`: **such roles lead to no cycle.**
* `Site.OnPath`: a name at the end of a path that has not used up its bound.
* `layersOn_of_stacked`, `stacked_of_layersOn`: the layers of roles are found exactly if they stack.
-/

namespace Runlist

open Relation (TransGen)

variable {site : Site} {names path : List String} {heads ls : List NamedHead} {r : NamedHead}

/-- A name is among those on which the role of another one depends. -/
def Site.Leads (site : Site) (name dep : String) : Prop := dep ∈ site.dependencyNames name

theorem readMetaFile_subset {dir : FilePath} {declared : Option (FilePath × MetaDeclaration)}
    {file : List String}
    (h : ((declared.map fun m => m.2.dependencies.map (·.name)).getD []) ⊆ site.declaredNames) :
    (((site.readMetaFile dir declared file).map fun m => m.2.dependencies.map (·.name)).getD []) ⊆
      site.declaredNames := by
  cases file with
  | nil => exact h
  | cons folder file =>
    rw [Site.readMetaFile]
    split
    · split
      · rename_i m hm
        exact names_subset hm
      · exact h
    · exact h

/-- **The names on which a role depends** are declared in the tree. -/
theorem dependencyNames_subset (site : Site) (name : String) :
    site.dependencyNames name ⊆ site.declaredNames := by
  unfold Site.dependencyNames
  split
  · rename_i dir _
    unfold Site.readMeta
    split
    · rename_i files hfiles
      clear hfiles
      have hfold : ∀ {declared : Option (FilePath × MetaDeclaration)},
          ((declared.map fun m => m.2.dependencies.map (·.name)).getD []) ⊆ site.declaredNames →
          (((files.foldl (site.readMetaFile dir) declared).map fun m =>
            m.2.dependencies.map (·.name)).getD []) ⊆
            site.declaredNames := by
        induction files with
        | nil => exact id
        | cons file files ih => exact fun h => ih (readMetaFile_subset h)
      exact hfold (List.nil_subset _)
    · exact List.nil_subset _
  · exact List.nil_subset _

/-! ## Roles without their tasks -/

/-- To read roles without their tasks is to read them. -/
theorem readHeads_iff : site.readHeads names = .ok heads ↔
    ∃ roles : List NamedRole, names.mapM (site.readNamed · .main) = .ok roles ∧
      heads = roles.map (·.head) := by
  constructor
  · intro h
    rw [Site.readHeads, mapM_ok] at h
    have hthrough : List.Forall₂ (fun name (head : NamedHead) => ∃ role : NamedRole,
        site.readNamed name .main = .ok role ∧ role.head = head) names heads := by
      refine h.imp fun name head hhead => ?_
      obtain ⟨role, hrole, hhead⟩ := except_bind_ok.1 hhead
      cases hhead
      exact ⟨role, hrole, rfl⟩
    obtain ⟨roles, hroles, hheads⟩ := forall₂_through hthrough
    exact ⟨roles, mapM_ok.2 hroles, hheads⟩
  · rintro ⟨roles, h, rfl⟩
    exact mapM_ok_map (fun _ _ _ hr => except_bind_ok.2 ⟨_, hr, rfl⟩) h

theorem readHeads_error {e : LoadError} (h : names.mapM (site.readNamed · .main) = .error e) :
    site.readHeads names = .error e :=
  mapM_error_congr (fun _ role hr => ⟨role.head, except_bind_ok.2 ⟨role, hr, rfl⟩⟩)
    (fun _ _ he => except_bind_error.2 (Or.inl he)) h

/-- Roles that are read have the names that were asked for, and depend on what these declare. -/
theorem readHeads_ok (h : site.readHeads names = .ok heads) :
    heads.map (·.name) = names ∧ ∀ head ∈ heads, head.Real site := by
  obtain ⟨roles, hroles, rfl⟩ := readHeads_iff.1 h
  rw [mapM_ok] at hroles
  constructor
  · have hnames : List.Forall₂ (fun (role : NamedRole) name => role.name = id name) roles names :=
      (hroles.imp fun name role hrole => (readNamed_iff.1 hrole).1).flip
    rw [List.map_map]
    exact (forall₂_map_eq hnames).trans (List.map_id _)
  · intro head hhead
    obtain ⟨role, hrole, rfl⟩ := List.mem_map.1 hhead
    obtain ⟨_, -, hread⟩ := exists_left hroles hrole
    exact readNamed_real hread

/-! ## Stacks -/

/-- **Roles, each after those on which it depends**, as the files declare them. -/
inductive Site.Stacked (site : Site) : List NamedHead → List NamedHead → Prop
  | nil : site.Stacked [] []
  | cons {r : NamedHead} {direct below rest l : List NamedHead} :
      site.readHeads r.dependencies = .ok direct → site.Stacked direct below → site.Stacked rest l →
      site.Stacked (r :: rest) (below ++ r :: l)

namespace Site.Stacked

/-- **Roles that stack lead to no cycle.** -/
theorem acc (h : site.Stacked heads ls) (hreal : ∀ head ∈ heads, head.Real site) :
    ∀ head ∈ heads, Acc (fun dep name => site.Leads name dep) head.name := by
  induction h with
  | nil => exact fun _ h => (List.not_mem_nil h).elim
  | @cons r direct below rest l hread _ _ ih₁ ih₂ =>
    intro head hhead
    rcases List.mem_cons.1 hhead with rfl | hhead
    · obtain ⟨hnames, hdirect⟩ := readHeads_ok hread
      refine Acc.intro _ fun dep hdep => ?_
      have hdep' : dep ∈ head.dependencies := by
        rw [hreal head List.mem_cons_self]; exact hdep
      rw [← hnames] at hdep'
      obtain ⟨d, hd, rfl⟩ := List.mem_map.1 hdep'
      exact ih₁ hdirect d hd
    · exact ih₂ (fun head hhead => hreal head (List.mem_cons_of_mem _ hhead)) head hhead

/-- Without their names, they are laid over one another in this order. -/
theorem layered (h : site.Stacked heads ls) :
    site.Layered (heads.map (·.toRoleHead)) (ls.map (·.toRoleHead)) := by
  induction h with
  | nil => exact .nil
  | @cons r direct below rest l hread _ _ ih₁ ih₂ =>
    obtain ⟨roles, hroles, rfl⟩ := readHeads_iff.1 hread
    rw [List.map_cons, List.map_append, List.map_cons]
    refine .cons (readRoles_of_named hroles) ?_ ih₂
    rw [List.map_map] at ih₁ ⊢
    exact ih₁

end Site.Stacked

/-- Roles that are laid over one another stack. -/
theorem Site.Layered.stacked {rs l : List RoleHead} (h : site.Layered rs l)
    (hheads : heads.map (·.toRoleHead) = rs) : ∃ ls, site.Stacked heads ls ∧
    ls.map (·.toRoleHead) = l := by
  induction h generalizing heads with
  | nil =>
    rw [List.map_eq_nil_iff.1 hheads]
    exact ⟨[], .nil, rfl⟩
  | @cons r deps below rest l hread _ _ ih₁ ih₂ =>
    obtain ⟨head, others, rfl, rfl, hothers⟩ := List.map_eq_cons_iff.1 hheads
    obtain ⟨roles, hroles, hdeps⟩ := named_of_readRoles hread
    obtain ⟨ls, hls, rfl⟩ := ih₂ hothers
    have hdirect : (roles.map (·.head)).map (·.toRoleHead) = deps.map (·.toRoleHead) := by
      rw [hdeps, List.map_map, List.map_map]; rfl
    obtain ⟨bs, hbs, rfl⟩ := ih₁ hdirect
    refine ⟨bs ++ head :: ls, .cons (readHeads_iff.2 ⟨roles, hroles, rfl⟩) hbs hls, ?_⟩
    rw [List.map_append, List.map_cons]

/-- Layers that are found stack. -/
theorem stacked_of_layersOn {n : Nat} (h : concatEach (site.layersOn n path) heads = .ok ls) :
    site.Stacked heads ls := by
  induction n generalizing path heads ls with
  | zero =>
    cases heads with
    | nil => cases h; exact .nil
    | cons r rest => cases h
  | succ n ih =>
    obtain ⟨parts, hparts, rfl⟩ := concatEach_ok.1 h
    clear h
    induction hparts with
    | nil => exact .nil
    | @cons r part rest parts hr _ ihrest =>
      rw [Site.layersOn] at hr
      obtain ⟨path', -, hr⟩ := except_bind_ok.1 hr
      obtain ⟨direct, hdirect, hr⟩ := except_bind_ok.1 hr
      obtain ⟨below, hbelow, hr⟩ := except_bind_ok.1 hr
      cases hr
      rw [List.flatten_cons, List.append_assoc]
      exact .cons hdirect (ih hbelow) ihrest

/-! ## Paths -/

/-- **A name at the end of a path** of names that lead to it; the path is not longer than the list
of all names, so that the bound is not used up. -/
structure Site.OnPath (site : Site) (names path : List String) (n : Nat)
    (name : String) : Prop where
  nodup : path.Nodup
  subset : path ⊆ names
  mem : name ∈ names
  declared : site.declaredNames ⊆ names
  leads : ∀ m ∈ path, TransGen site.Leads m name
  bound : names.length < path.length + n

namespace Site.OnPath

variable {n : Nat} {name dep : String}

/-- A role by itself. -/
theorem start (site : Site) (name : String) (hn : site.declaredNames.length + 2 ≤ n) :
    site.OnPath (name :: site.declaredNames) [] n name where
  nodup := List.nodup_nil
  subset := List.nil_subset _
  mem := List.mem_cons_self
  declared := List.subset_cons_self _ _
  leads _ h := (List.not_mem_nil h).elim
  bound := by rw [List.length_cons, List.length_nil]; omega

/-- The bound is not used up. -/
theorem pos (h : site.OnPath names path n name) : ∃ m, n = m + 1 := by
  have hlength := length_le_of_nodup h.nodup h.subset
  have hbound := h.bound
  exact Nat.exists_eq_succ_of_ne_zero (by omega)

/-- One step further along the path. -/
theorem step (h : site.OnPath names path (n + 1) name) (hname : name ∉ path)
    (hdep : site.Leads name dep) : site.OnPath names (path ++ [name]) n dep where
  nodup := by
    rw [← List.concat_eq_append]
    exact h.nodup.concat hname
  subset := List.append_subset.2 ⟨h.subset, List.cons_subset.2 ⟨h.mem, List.nil_subset _⟩⟩
  mem := h.declared (dependencyNames_subset site name hdep)
  declared := h.declared
  leads m hm := by
    rcases List.mem_append.1 hm with hm | hm
    · exact (h.leads m hm).tail hdep
    · rw [List.mem_singleton.1 hm]; exact .single hdep
  bound := by
    have := h.bound
    rw [List.length_append, List.length_singleton]; omega

/-- A name that leads to no cycle is new on the path. -/
theorem not_mem (h : site.OnPath names path n name)
    (hacc : Acc (fun dep name => site.Leads name dep) name) : name ∉ path := by
  intro hmem
  have hcycle := h.leads name hmem
  have hswap : TransGen (fun dep name => site.Leads name dep) name name :=
    Relation.transGen_swap.2 hcycle
  clear h hmem hcycle
  induction hacc.transGen with
  | intro name _ ih => exact ih name hswap (hacc.inv_of_transGen hswap) hswap

end Site.OnPath

theorem enterName_of_not_mem {name : String} (h : name ∉ path) :
    enterName path name = .ok (path ++ [name]) := by
  rw [enterName, if_neg]
  rw [List.contains_iff_mem]; exact h

theorem enterName_ok {path' : List String} {name : String} (h : enterName path name = .ok path') :
    name ∉ path ∧ path' = path ++ [name] := by
  rw [enterName] at h
  split at h
  · cases h
  · rename_i hnot
    cases h
    exact ⟨fun hmem => hnot (List.contains_iff_mem.2 hmem), rfl⟩

section Unfold

variable {n : Nat} {direct below : List NamedHead} {e : LoadError}

/-- The layers of a role on a path, from those of the roles on which it depends. -/
theorem layersOn_ok (hname : r.name ∉ path) (hread : site.readHeads r.dependencies = .ok direct)
    (h : concatEach (site.layersOn n (path ++ [r.name])) direct = .ok below) :
    site.layersOn (n + 1) path r = .ok (below ++ [r]) := by
  rw [Site.layersOn, enterName_of_not_mem hname]
  exact except_bind_ok.2
    ⟨_, rfl, except_bind_ok.2 ⟨direct, hread, except_bind_ok.2 ⟨below, h, rfl⟩⟩⟩

/-- A role on a path that depends on one without layers. -/
theorem layersOn_error (hname : r.name ∉ path) (hread : site.readHeads r.dependencies = .ok direct)
    (h : concatEach (site.layersOn n (path ++ [r.name])) direct = .error e) :
    site.layersOn (n + 1) path r = .error e := by
  rw [Site.layersOn, enterName_of_not_mem hname]
  refine except_bind_error.2 (Or.inr ⟨_, rfl, except_bind_error.2 (Or.inr ⟨direct, hread, ?_⟩)⟩)
  exact except_bind_error.2 (Or.inl h)

/-- A role on a path that depends on one that cannot be read. -/
theorem layersOn_unread (hname : r.name ∉ path) (hread : site.readHeads r.dependencies = .error e) :
    site.layersOn (n + 1) path r = .error e := by
  rw [Site.layersOn, enterName_of_not_mem hname]
  exact except_bind_error.2 (Or.inr ⟨_, rfl, except_bind_error.2 (Or.inl hread)⟩)

/-- A role that is met again. -/
theorem layersOn_cycle (h : enterName path r.name = .error e) :
    site.layersOn (n + 1) path r = .error e := by
  rw [Site.layersOn]
  exact except_bind_error.2 (Or.inl h)

end Unfold

/-- **Roles that stack have the layers of the stack**, whatever the path that leads to them. -/
theorem layersOn_of_stacked (h : site.Stacked heads ls) (hreal : ∀ head ∈ heads, head.Real site)
    {n : Nat} (hpath : ∀ head ∈ heads, site.OnPath names path n head.name) :
    concatEach (site.layersOn n path) heads = .ok ls := by
  induction h generalizing path n with
  | nil => rfl
  | @cons r direct below rest l hread hbelow hrest ih₁ ih₂ =>
    have hr := hpath r List.mem_cons_self
    obtain ⟨m, rfl⟩ := hr.pos
    have hname : r.name ∉ path :=
      hr.not_mem ((Site.Stacked.cons hread hbelow hrest).acc hreal r List.mem_cons_self)
    obtain ⟨hnames, hdirect⟩ := readHeads_ok hread
    have hdeps : concatEach (site.layersOn m (path ++ [r.name])) direct = .ok below := by
      refine ih₁ hdirect fun d hd => hr.step hname ?_
      rw [Site.Leads, ← hreal r List.mem_cons_self, ← hnames]
      exact List.mem_map_of_mem hd
    have hothers := ih₂ (fun head hhead => hreal head (List.mem_cons_of_mem _ hhead))
      fun head hhead => hpath head (List.mem_cons_of_mem _ hhead)
    rw [concatEach, layersOn_ok hname hread hdeps, hothers]
    show Except.ok (below ++ [r] ++ l) = _
    rw [List.append_assoc]; rfl

/-- The same of one role. -/
theorem layersOn_of_stacked_one (hreal : r.Real site) (h : site.Stacked [r] ls) {n : Nat}
    (hpath : site.OnPath names path n r.name) : site.layersOn n path r = .ok ls := by
  have hone : ∀ head ∈ [r], head = r := fun head hhead => List.mem_singleton.1 hhead
  have hlayers : concatEach (site.layersOn n path) [r] = .ok ls :=
    layersOn_of_stacked h (fun head hhead => by rw [hone head hhead]; exact hreal)
      fun head hhead => by rw [hone head hhead]; exact hpath
  rw [concatEach_singleton] at hlayers
  exact hlayers

/-- **The layers of roles** are found exactly if the roles stack. -/
theorem layers_iff_stacked (hreal : ∀ head ∈ heads, head.Real site) :
    concatEach site.layers heads = .ok ls ↔ site.Stacked heads ls := by
  constructor
  · intro h
    obtain ⟨parts, hparts, rfl⟩ := concatEach_ok.1 h
    clear h hreal
    induction hparts with
    | nil => exact .nil
    | @cons r part rest parts hr _ ih =>
      rw [Site.layers, ← concatEach_singleton (site.layersOn _ _)] at hr
      rcases stacked_of_layersOn hr with - | ⟨hread, hbelow, hnil⟩
      cases hnil
      rw [List.flatten_cons, List.append_assoc]
      exact .cons hread hbelow ih
  · intro h
    induction h with
    | nil => rfl
    | @cons r direct below rest l hread hbelow _ _ ih =>
      have hr : site.layers r = .ok (below ++ [r]) :=
        layersOn_of_stacked_one (hreal r List.mem_cons_self)
        (.cons hread hbelow .nil) (.start site r.name le_rfl)
      have hrest := ih fun head hhead => hreal head (List.mem_cons_of_mem _ hhead)
      rw [concatEach, hr, hrest]
      show Except.ok (below ++ [r] ++ l) = _
      rw [List.append_assoc]; rfl

end Runlist
