import Runlist.Proofs.Load.Dependencies

/-!
# The names that are met on paths of dependencies

* `FileTree.mem_files`: a file at a list of names is listed among the files of the tree.
* `dependencies_subset`: the names on which a role's files make it depend are declared in the tree.
* `allDependencies_ends`: **the bound on the length of a path is never reached**, so that
  dependencies are found exactly if nothing is wrong with them.
-/

namespace Runlist

variable {site : Site} {s : Store} {r : RoleId}

theorem FileTree.mem_filesOf {entries : List (String × FileTree)} {name : String} {child : FileTree}
    {names : List String} {c : Content} (h : FileTree.child? entries name = some child)
    (hc : (names, c) ∈ child.files) : (name :: names, c) ∈ FileTree.filesOf entries := by
  induction entries with
  | nil => cases h
  | cons e rest ih =>
    obtain ⟨key, tree⟩ := e
    rw [FileTree.filesOf, List.mem_append]
    rw [FileTree.child?] at h
    split at h
    · rename_i hk
      cases h
      left
      rw [hk, List.mem_map]
      exact ⟨(names, c), hc, rfl⟩
    · exact Or.inr (ih h)

/-- **A file at a list of names** is listed among the files of the tree. -/
theorem FileTree.mem_files {tree : FileTree} {names : List String} {c : Content}
    (h : tree.at? names = some (.file c)) : (names, c) ∈ tree.files := by
  induction names generalizing tree with
  | nil =>
    rw [FileTree.at?] at h
    cases h
    rw [FileTree.files]; exact List.mem_singleton.2 rfl
  | cons name names ih =>
    rw [FileTree.at?] at h
    obtain ⟨child, hchild, hat⟩ := Option.bind_eq_some_iff.1 h
    cases tree with
    | file content => cases hchild
    | dir entries => rw [FileTree.files]; exact FileTree.mem_filesOf hchild (ih hat)

theorem Disk.mem_files {disk : Disk} {path : FilePath} {text : String}
    (h : disk.read path = .ok text) : ∃ names, (names, Content.text text) ∈ disk.tree.files := by
  unfold Disk.read Disk.node at h
  cases hr : disk.resolve path with
  | error e => simp [hr] at h
  | ok names =>
    cases hat : disk.tree.at? names with
    | none => simp [hr, hat] at h
    | some tree =>
      simp only [hr, hat] at h
      match tree with
      | .dir _ => cases h
      | .file .binary => cases h
      | .file (.text _) =>
        cases h
        exact ⟨names, FileTree.mem_files hat⟩

/-- The names that files declare as dependencies. -/
def Site.declaredNames (site : Site) : List String :=
  site.disk.tree.files.flatMap fun (_, content) => content.roleNames

theorem names_subset {path : FilePath} {m : MetaDeclaration}
    (h : readDeclared site Declaration.roleMeta path = .ok m) :
    m.dependencies.map (·.name) ⊆ site.declaredNames := by
  unfold readDeclared at h
  cases hread : site.disk.read path with
  | error e => simp [hread] at h
  | ok text =>
    obtain ⟨names, hmem⟩ := Disk.mem_files hread
    cases hm : Declaration.ofText Declaration.roleMeta text with
    | error e => simp [hread, hm, Except.mapError] at h
    | ok m' =>
      simp only [hread, hm, Except.mapError, Except.ok.injEq] at h
      subst h
      intro n hn
      refine List.mem_flatMap.2 ⟨_, hmem, ?_⟩
      simp only [Content.roleNames, hm]
      exact hn

/-- **The names on which a role's files make it depend** are declared in the tree. -/
theorem dependencies_subset {name : String} {selection : RoleSelection} {text : RoleText}
    (h : s.readRole site name selection = .ok text) : text.dependencies ⊆ site.declaredNames := by
  obtain ⟨dir, -, h⟩ := except_bind_ok.1 h
  refine (readRoleAt_keeps (P := fun _ text => text.dependencies ⊆ site.declaredNames) h
    (List.nil_subset _) ?_).elim ?_
  · intro front names text text' hkept hnext
    rcases readBelow_cases hnext with rfl | ⟨path, ds, -, rfl⟩ | ⟨path, rfl⟩ | ⟨path,
      rfl⟩ | ⟨path, m, hm, rfl⟩
    · exact hkept
    · exact hkept
    · exact hkept
    · exact hkept
    · exact names_subset hm
  · exact fun _ h => h.2

/-- The name of a role, and those that it declares, are names of the state. -/
theorem names_subset_roleNames (site : Site) (hr : s.graph.HasRole r) :
    (s.graph.role r).name :: (s.graph.role r).declared.dependencies.map
      (·.name) ⊆ roleNames site s := by
  have hrole : s.graph.role r ∈ s.graph.roles.toList := by
    rw [Graph.role, Array.getElem?_eq_getElem hr]
    exact Array.getElem_mem_toList hr
  exact fun n hn => List.mem_append_left _ (List.mem_flatMap.2 ⟨_, hrole, hn⟩)

/-- **Dependencies are found exactly if nothing is wrong with them.** -/
theorem allDependencies_ends (hs : s.graph.Sound) (hr : s.graph.HasRole r) :
    Ends (allDependencies site r) s
      (fun found s' => Visit site (s.readRole site · .main) [] s s' r found)
      fun _ s' => Learns site s s' ∧ s.graph.Faulty (s.readRole site · .main) [] r := by
  unfold allDependencies
  rw [ends_bind, ends_get]
  refine collectDependencies_ends (roleNames site s) (fun name text h => ?_) _ r [] s hs hr
    (fun _ => rfl) (fun _ q hq => ?_) List.nodup_nil (List.nil_subset _) ?_
  · exact fun n hn => List.mem_append_right _ (dependencies_subset h hn)
  · exact List.cons_subset.1 (names_subset_roleNames site (hasRole_below hs hq hr))
  · rw [dependencyBound, List.length_nil]; omega

end Runlist
