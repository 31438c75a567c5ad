import Mathlib.Data.String.Basic
import Runlist.Disk

/-!
# Files in the order of their names

The entries of a directory are in the order of their names, and the files below it are met in that
order.

* `FileTree.Ordered`: the directories of a tree are in order.
* `Disk.filesBelow_sorted`: **the files below a directory are met in the order of their names.**
-/

namespace Runlist

namespace FileTree

mutual
/-- The entries of every directory are in the order of their names. -/
def Ordered : FileTree → Prop
  | .file _ => True
  | .dir entries => OrderedEntries entries

/-- The entries of a directory are in the order of their names, and so are those below. -/
def OrderedEntries : List (String × FileTree) → Prop
  | [] => True
  | (name, tree) :: rest => tree.Ordered ∧ (∀ e ∈ rest, name < e.1) ∧ OrderedEntries rest
end

theorem Ordered.entries {tree : FileTree} (h : tree.Ordered) : OrderedEntries tree.entries := by
  cases tree with
  | file content => exact trivial
  | dir entries => exact h

theorem OrderedEntries.child {entries : List (String × FileTree)} {name : String} {child : FileTree}
    (h : OrderedEntries entries) (hchild : child? entries name = some child) : child.Ordered := by
  induction entries with
  | nil => cases hchild
  | cons e rest ih =>
    obtain ⟨key, tree⟩ := e
    rw [child?] at hchild
    split at hchild
    · cases hchild; exact h.1
    · exact ih h.2.2 hchild

theorem Ordered.at {tree node : FileTree} {names : List String} (h : tree.Ordered)
    (hat : tree.at? names = some node) : node.Ordered := by
  induction names generalizing tree with
  | nil => rw [at?] at hat; cases hat; exact h
  | cons name names ih =>
    rw [at?] at hat
    obtain ⟨child, hchild, hat⟩ := Option.bind_eq_some_iff.1 hat
    exact ih (h.entries.child hchild) hat

/-! ## The order of files -/

theorem head_filesOf {entries : List (String × FileTree)} {file : List String × Content}
    (h : file ∈ filesOf entries) : ∃ e ∈ entries, ∃ below, file.1 = e.1 :: below := by
  induction entries with
  | nil => cases h
  | cons first rest ih =>
    obtain ⟨name, tree⟩ := first
    rw [filesOf] at h
    rcases List.mem_append.1 h with h | h
    · obtain ⟨below, -, rfl⟩ := List.mem_map.1 h
      exact ⟨_, List.mem_cons_self, _, rfl⟩
    · obtain ⟨e, he, hhead⟩ := ih h
      exact ⟨e, List.mem_cons_of_mem _ he, hhead⟩

theorem files_entry (name : String) (tree : FileTree) :
    (tree.files.map fun file => (name :: file.1, file.2)).map (·.1) =
      (tree.files.map (·.1)).map (name :: ·) := by
  rw [List.map_map, List.map_map]; rfl

mutual
/-- The files of a tree in order are in the order of their names, compared from the first name
on. -/
theorem Ordered.files_sorted {tree : FileTree} (h : tree.Ordered) :
    (tree.files.map (·.1)).Pairwise (· < ·) := by
  cases tree with
  | file content => exact List.pairwise_singleton _ _
  | dir entries => exact OrderedEntries.filesOf_sorted h

/-- The files of entries in order are in order, too. -/
theorem OrderedEntries.filesOf_sorted {entries : List (String × FileTree)}
    (h : OrderedEntries entries) : ((filesOf entries).map (·.1)).Pairwise (· < ·) := by
  cases entries with
  | nil => exact List.Pairwise.nil
  | cons first rest =>
    obtain ⟨name, tree⟩ := first
    obtain ⟨htree, hlt, hrest⟩ := h
    rw [filesOf, List.map_append, files_entry, List.pairwise_append]
    refine ⟨?_, OrderedEntries.filesOf_sorted hrest, fun a ha b hb => ?_⟩
    · exact List.pairwise_map.2 ((Ordered.files_sorted htree).imp fun h =>
        List.cons_lt_cons_iff.2 (.inr ⟨rfl, h⟩))
    · obtain ⟨below, -, rfl⟩ := List.mem_map.1 ha
      obtain ⟨file, hfile, rfl⟩ := List.mem_map.1 hb
      obtain ⟨e, he, below', hnames⟩ := head_filesOf hfile
      rw [hnames]
      exact List.cons_lt_cons_iff.2 (.inl (hlt e he))
end

/-- The first name of one path is not after that of another. -/
def NotAfter (names names' : List String) : Prop :=
  ∀ name ∈ names.head?, ∀ name' ∈ names'.head?, name ≤ name'

theorem notAfter_of_lt {names names' : List String} (h : names < names') :
    NotAfter names names' := by
  intro name hname name' hname'
  obtain ⟨rest, rfl⟩ := List.head?_eq_some_iff.1 hname
  obtain ⟨rest', rfl⟩ := List.head?_eq_some_iff.1 hname'
  rcases List.cons_lt_cons_iff.1 h with h | ⟨rfl, -⟩
  · exact le_of_lt h
  · exact le_rfl

end FileTree

/-- The files below a path are those of the node at its end. -/
theorem Disk.filesBelow_ok {disk : Disk} {dir : FilePath} {files : List (List String)}
    (h : disk.filesBelow dir = .ok files) :
    ∃ names node, disk.tree.at? names = some node ∧ files = node.files.map (·.1) := by
  unfold Disk.filesBelow Disk.node at h
  cases hresolve : disk.resolve dir with
  | error e => simp [hresolve] at h
  | ok names =>
    cases hat : disk.tree.at? names with
    | none => simp [hresolve, hat] at h
    | some node =>
      simp only [hresolve, hat, Except.ok.injEq] at h
      exact ⟨names, node, hat, h.symm⟩

/-- **The files below a directory are met in the order of their names**, compared from the first
name on. -/
theorem Disk.filesBelow_sorted {disk : Disk} {dir : FilePath} {files : List (List String)}
    (h : disk.tree.Ordered) (hfiles : disk.filesBelow dir = .ok files) :
    files.Pairwise (· < ·) := by
  obtain ⟨names, node, hat, rfl⟩ := Disk.filesBelow_ok hfiles
  exact (h.at hat).files_sorted

/-- Their first names are in order. -/
theorem Disk.filesBelow_ordered {disk : Disk} {dir : FilePath} {files : List (List String)}
    (h : disk.tree.Ordered) (hfiles : disk.filesBelow dir = .ok files) :
    files.Pairwise FileTree.NotAfter :=
  (Disk.filesBelow_sorted h hfiles).imp FileTree.notAfter_of_lt

end Runlist
