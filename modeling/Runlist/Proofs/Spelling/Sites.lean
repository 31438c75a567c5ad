import Runlist.Expand.Target
import Runlist.Proofs.Spelling.Declared

/-!
# Sites that are alike

Two trees of files are alike if they differ in documents only, and in these only in spellings.
Whatever a path leads to in one of them, it leads to the like in the other.

* `FileTree.Alike`, `Site.Alike`: trees and sites that are alike.
* `Site.Alike.read`: **a path leads to texts that are alike.** `Site.Alike.key`,
  `Site.Alike.filesBelow`, `Site.Alike.findRole`: everything else that is asked of a site has one
  answer.
-/

namespace Runlist

variable {lines : LineRange → LineRange → Prop}

mutual
/-- **Two trees that are alike**: the same directories and files, with documents that are alike. -/
inductive FileTree.Alike (lines : LineRange → LineRange → Prop) : FileTree → FileTree → Prop
  | text {text text' : String} : TextAlike lines text text' →
      FileTree.Alike lines (.file (.text text)) (.file (.text text'))
  | binary : FileTree.Alike lines (.file .binary) (.file .binary)
  | dir {entries entries' : List (String × FileTree)} : FileTree.AllAlike lines entries entries' →
      FileTree.Alike lines (.dir entries) (.dir entries')

/-- Two lists of entries that are alike. -/
inductive FileTree.AllAlike (lines : LineRange → LineRange → Prop) :
    List (String × FileTree) → List (String × FileTree) → Prop
  | nil : FileTree.AllAlike lines [] []
  | cons {name : String} {tree tree' : FileTree} {rest rest' : List (String × FileTree)} :
      tree.Alike lines tree' →
      FileTree.AllAlike lines rest rest' →
      FileTree.AllAlike lines ((name, tree) :: rest) ((name, tree') :: rest')
end

namespace FileTree

mutual
theorem Alike.refl (hlines : ∀ l, lines l l) : ∀ tree : FileTree, tree.Alike lines tree
  | .file (.text text) => .text (.refl hlines text)
  | .file .binary => .binary
  | .dir entries => .dir (AllAlike.refl hlines entries)

theorem AllAlike.refl (hlines : ∀ l, lines l l) :
    ∀ entries : List (String × FileTree), AllAlike lines entries entries
  | [] => .nil
  | (_, tree) :: rest => .cons (Alike.refl hlines tree) (AllAlike.refl hlines rest)
end

variable {tree tree' : FileTree} {es es' : List (String × FileTree)}

theorem Alike.isDir (h : tree.Alike lines tree') : tree'.isDir = tree.isDir := by
  cases h <;> rfl

theorem Alike.entries (h : tree.Alike lines tree') : AllAlike lines tree.entries tree'.entries := by
  cases h with
  | text => exact .nil
  | binary => exact .nil
  | dir h => exact h

theorem AllAlike.child? (h : AllAlike lines es es') (name : String) :
    Option.Rel (Alike lines) (child? es name) (child? es' name) := by
  induction es generalizing es' with
  | nil => cases h; exact .none
  | cons entry rest ih =>
    cases h with
    | @cons k _ _ _ _ htree hrest =>
      unfold FileTree.child?
      by_cases hk : k = name
      · rw [if_pos hk, if_pos hk]; exact .some htree
      · rw [if_neg hk, if_neg hk]; exact ih hrest

theorem Alike.at? (h : tree.Alike lines tree') (names : List String) :
    Option.Rel (Alike lines) (tree.at? names) (tree'.at? names) := by
  induction names generalizing tree tree' with
  | nil => unfold FileTree.at?; exact .some h
  | cons name names ih =>
    unfold FileTree.at?
    have hchild := h.entries.child? name
    generalize FileTree.child? tree.entries name = child, FileTree.child? tree'.entries name =
      child' at hchild ⊢
    cases hchild with
    | none => exact .none
    | some h => exact ih h

mutual
/-- The same files are below both, with contents that are alike. -/
theorem Alike.files : ∀ {tree tree' : FileTree}, tree.Alike lines tree' →
    List.Forall₂ (fun e e' => e'.1 = e.1 ∧ Alike lines (.file e.2) (.file e'.2))
      tree.files tree'.files
  | _, _, .text h => by simpa only [FileTree.files] using .cons ⟨rfl, .text h⟩ .nil
  | _, _, .binary => by simpa only [FileTree.files] using .cons ⟨rfl, .binary⟩ .nil
  | _, _, .dir h => by simpa only [FileTree.files] using AllAlike.files h

theorem AllAlike.files :
    ∀ {entries entries' : List (String × FileTree)}, AllAlike lines entries entries' →
    List.Forall₂ (fun e e' => e'.1 = e.1 ∧ Alike lines (.file e.2) (.file e'.2)) (filesOf entries)
      (filesOf entries')
  | _, _, .nil => by simp only [FileTree.filesOf]; exact .nil
  | _, _, .cons htree hrest => by
    simp only [FileTree.filesOf]
    refine List.rel_append ?_ (AllAlike.files hrest)
    refine List.forall₂_map_left_iff.2
      (List.forall₂_map_right_iff.2 ((Alike.files htree).imp fun e e' h => ?_))
    exact ⟨congrArg (_ :: ·) h.1, h.2⟩
end

end FileTree

/-- Documents that are alike declare the same names of roles. -/
theorem TextAlike.roleNames {text text' : String} (h : TextAlike lines text text') :
    (Content.text text').roleNames = (Content.text text).roleNames := by
  have hdeclared := h.declared
  unfold Content.roleNames
  dsimp only
  generalize Declaration.ofText Declaration.roleMeta text =
    m, Declaration.ofText Declaration.roleMeta text' = m'
    at hdeclared ⊢
  cases hdeclared with
  | ok hm => rw [hm]
  | error => rfl

/-! ## Sites -/

/-- **Two sites that are alike**: their trees are, and the rest is the same. -/
structure Site.Alike (lines : LineRange → LineRange → Prop) (site site' : Site) : Prop where
  tree : site.disk.tree.Alike lines site'.disk.tree
  workingDirectory : site'.disk.workingDirectory = site.disk.workingDirectory
  root : site'.root = site.root
  config : site'.config = site.config

namespace Site.Alike

variable {site site' : Site}

theorem refl (hlines : ∀ l, lines l l) (site : Site) : site.Alike lines site :=
  ⟨.refl hlines _, rfl, rfl, rfl⟩

theorem follow {tree tree' : FileTree} (h : tree.Alike lines tree') (segments here : List String) :
    Disk.follow tree' here segments = Disk.follow tree here segments := by
  induction segments generalizing here with
  | nil => rfl
  | cons segment rest ih =>
    unfold Disk.follow
    have hnode := h.at? here
    generalize tree.at? here = node, tree'.at? here = node' at hnode ⊢
    cases hnode with
    | none => rfl
    | @some node node' hnode =>
      simp only [hnode.isDir, ih]
      have hchild := hnode.entries.child? segment
      generalize FileTree.child? node.entries segment =
        child, FileTree.child? node'.entries segment = child'
        at hchild ⊢
      cases hchild <;> rfl

variable (h : site.Alike lines site')
include h

theorem resolve (path : FilePath) : site'.disk.resolve path = site.disk.resolve path := by
  unfold Disk.resolve
  rw [h.workingDirectory, follow h.tree]

theorem node (path : FilePath) :
    Both Eq (FileTree.Alike lines) (site.disk.node path) (site'.disk.node path) := by
  unfold Disk.node
  rw [h.resolve]
  cases site.disk.resolve path with
  | error e => exact .error rfl
  | ok names =>
    have hnode := h.tree.at? names
    dsimp only
    generalize site.disk.tree.at? names = node, site'.disk.tree.at? names = node' at hnode ⊢
    cases hnode with
    | none => exact .error rfl
    | some hnode => exact .ok hnode

/-- **A path leads to texts that are alike**, or fails in the same way. -/
theorem read (path : FilePath) :
    Both Eq (TextAlike lines) (site.disk.read path) (site'.disk.read path) := by
  unfold Disk.read
  have hnode := h.node path
  generalize site.disk.node path = node, site'.disk.node path = node' at hnode ⊢
  cases hnode with
  | error he => exact .error he
  | ok hnode =>
    cases hnode with
    | text htext => exact .ok htext
    | binary => exact .error rfl
    | dir => exact .error rfl

theorem isDir (path : FilePath) : site'.disk.isDir path = site.disk.isDir path := by
  unfold Disk.isDir
  have hnode := h.node path
  generalize site.disk.node path = node, site'.disk.node path = node' at hnode ⊢
  cases hnode with
  | error => rfl
  | ok hnode => cases hnode <;> rfl

/-- A target has one key. -/
theorem key (target : Target) : target.key site'.disk = target.key site.disk := by
  cases target with
  | file path =>
    show ((site'.disk.canonical? path).getD path).text =
      ((site.disk.canonical? path).getD path).text
    unfold Disk.canonical?
    rw [h.resolve]
  | role => rfl

/-- The same files are below a path. -/
theorem filesBelow (path : FilePath) : site'.disk.filesBelow path = site.disk.filesBelow path := by
  unfold Disk.filesBelow
  have hnode := h.node path
  generalize site.disk.node path = node, site'.disk.node path = node' at hnode ⊢
  cases hnode with
  | error he => exact congrArg Except.error he.symm
  | ok hnode =>
    dsimp only
    rw [forall₂_map_eq (hnode.files.imp fun _ _ he => he.1.symm)]

/-- A role is found in one directory. -/
theorem findRole (name : String) : site'.findRole name = site.findRole name := by
  unfold Site.findRole Site.roleCandidates
  rw [h.root, h.config, funext h.isDir]

/-- The files declare the same names. -/
theorem roleNames : (site'.disk.tree.files.flatMap fun e => e.2.roleNames) =
    site.disk.tree.files.flatMap fun e => e.2.roleNames := by
  rw [List.flatMap_def, List.flatMap_def]
  refine congrArg List.flatten (forall₂_map_eq (h.tree.files.imp fun e e' he => ?_)).symm
  obtain ⟨names, content⟩ := e
  obtain ⟨names', content'⟩ := e'
  cases he.2 with
  | binary => rfl
  | text htext => exact htext.roleNames.symm

end Site.Alike

end Runlist
