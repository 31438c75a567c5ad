import Mathlib.Data.List.Basic
import Runlist.Disk

/-!
# Canonical paths

A file has many spellings and one canonical path: the names of the directories above it, and its
own. Where no name holds a slash or is one of the names that paths give a meaning of their own, the
canonical path leads to the file again, and so it is that of no other file.

* `FileTree.Proper`: the entries of a tree have names that a path can lead to.
* `follow_names`: names from the root are followed to where they lead.
* `Disk.canonical_spelled`: **the canonical path is a spelling of itself.**
-/

namespace Runlist

namespace FileTree

/-- A name that a path can lead to. -/
structure ProperName (name : String) : Prop where
  slash : '/' ∉ name.toList
  filler : FilePath.isFiller name = false
  up : name ≠ ".."

instance (name : String) : Decidable (ProperName name) :=
  decidable_of_iff ('/' ∉ name.toList ∧ FilePath.isFiller name = false ∧ name ≠ "..")
    ⟨fun ⟨hslash, hfiller, hup⟩ => ⟨hslash, hfiller, hup⟩, fun h => ⟨h.slash, h.filler, h.up⟩⟩

mutual
/-- The entries of every directory have names that a path can lead to. -/
def Proper : FileTree → Prop
  | .file _ => True
  | .dir entries => ProperEntries entries

/-- The entries of a directory have names that a path can lead to, and so have those below. -/
def ProperEntries : List (String × FileTree) → Prop
  | [] => True
  | (name, tree) :: rest => ProperName name ∧ tree.Proper ∧ ProperEntries rest
end

theorem Proper.entries {tree : FileTree} (h : tree.Proper) : ProperEntries tree.entries := by
  cases tree with
  | file content => exact trivial
  | dir entries => exact h

theorem ProperEntries.child {entries : List (String × FileTree)} {name : String} {child : FileTree}
    (h : ProperEntries entries) (hchild : child? entries name = some child) : ProperName name ∧
    child.Proper := by
  induction entries with
  | nil => cases hchild
  | cons e rest ih =>
    obtain ⟨key, tree⟩ := e
    rw [child?] at hchild
    split at hchild
    · rename_i hkey
      cases hchild
      rw [← hkey]
      exact ⟨h.1, h.2.1⟩
    · exact ih h.2.2 hchild

/-- The names from the root to a node are such names. -/
theorem Proper.names {tree node : FileTree} {names : List String} (h : tree.Proper)
    (hat : tree.at? names = some node) : ∀ name ∈ names, ProperName name := by
  induction names generalizing tree with
  | nil => exact fun _ h => (List.not_mem_nil h).elim
  | cons name names ih =>
    rw [at?] at hat
    obtain ⟨child, hchild, hat⟩ := Option.bind_eq_some_iff.1 hat
    obtain ⟨hname, hproper⟩ := h.entries.child hchild
    exact List.forall_mem_cons.2 ⟨hname, ih hproper hat⟩

theorem Proper.at {tree node : FileTree} {names : List String} (h : tree.Proper)
    (hat : tree.at? names = some node) : node.Proper := by
  induction names generalizing tree with
  | nil => rw [at?] at hat; cases hat; exact h
  | cons name names ih =>
    rw [at?] at hat
    obtain ⟨child, hchild, hat⟩ := Option.bind_eq_some_iff.1 hat
    exact ih (h.entries.child hchild).2 hat

mutual
/-- The names from a node to a file below it are such names. -/
theorem Proper.files {tree : FileTree} (h : tree.Proper) :
    ∀ file ∈ tree.files, ∀ name ∈ file.1, ProperName name := by
  cases tree with
  | file content =>
    intro file hfile name hname
    rw [List.mem_singleton.1 hfile] at hname
    exact (List.not_mem_nil hname).elim
  | dir entries => exact ProperEntries.filesOf h

/-- The names from entries to a file below them are such names. -/
theorem ProperEntries.filesOf {entries : List (String × FileTree)} (h : ProperEntries entries) :
    ∀ file ∈ FileTree.filesOf entries, ∀ name ∈ file.1, ProperName name := by
  cases entries with
  | nil => exact fun _ hfile => (List.not_mem_nil hfile).elim
  | cons first rest =>
    obtain ⟨entry, tree⟩ := first
    obtain ⟨hentry, htree, hrest⟩ := h
    intro file hfile
    rw [FileTree.filesOf] at hfile
    rcases List.mem_append.1 hfile with hfile | hfile
    · obtain ⟨below, hbelow, rfl⟩ := List.mem_map.1 hfile
      exact List.forall_mem_cons.2 ⟨hentry, Proper.files htree below hbelow⟩
    · exact ProperEntries.filesOf hrest file hfile
end

theorem at_append {tree : FileTree} {names more : List String} :
    tree.at? (names ++ more) = (tree.at? names).bind (·.at? more) := by
  induction names generalizing tree with
  | nil => rfl
  | cons name names ih =>
    rw [List.cons_append, at?, at?, Option.bind_assoc]
    exact congrArg _ (funext fun child => ih)

/-- There is something at every name on the way. -/
theorem at_dropLast {tree node : FileTree} {names : List String} (h : tree.at? names = some node) :
    ∃ above, tree.at? names.dropLast = some above := by
  rcases List.eq_nil_or_concat names with rfl | ⟨before, last, rfl⟩
  · exact ⟨node, h⟩
  · rw [List.concat_eq_append, at_append] at h
    obtain ⟨above, habove, -⟩ := Option.bind_eq_some_iff.1 h
    rw [List.concat_eq_append, List.dropLast_concat]
    exact ⟨above, habove⟩

/-- What has something below it is a directory. -/
theorem isDir_of_at {tree node : FileTree} {name : String} {names : List String}
    (h : tree.at? (name :: names) = some node) : tree.isDir = true := by
  rw [at?] at h
  obtain ⟨child, hchild, -⟩ := Option.bind_eq_some_iff.1 h
  cases tree with
  | file content => cases hchild
  | dir entries => rfl

end FileTree

namespace Disk

variable {tree node : FileTree} {here names segments : List String}

/-- The place from which a path is followed is a directory. -/
theorem follow_isDir {segment : String} {rest : List String}
    (h : follow tree here (segment :: rest) = .ok names) :
    ∃ node, tree.at? here = some node ∧ node.isDir = true := by
  rw [follow] at h
  split at h
  · cases h
  · rename_i node hat
    refine ⟨node, hat, ?_⟩
    by_contra hfile
    rw [if_pos (by simpa using hfile)] at h
    cases h

/-- A path that can be followed leads to something. -/
theorem follow_at (h : follow tree here segments = .ok names)
    (hat : ∃ node, tree.at? here = some node) : ∃ node, tree.at? names = some node := by
  induction segments generalizing here with
  | nil => rw [follow] at h; cases h; exact hat
  | cons segment rest ih =>
    obtain ⟨node, hhere, hdir⟩ := follow_isDir h
    rw [follow, hhere] at h
    simp only [hdir, Bool.not_true, Bool.false_eq_true, if_false] at h
    split at h
    · exact ih h hat
    · split at h
      · exact ih h (FileTree.at_dropLast hhere)
      · split at h
        · cases h
        · rename_i child hchild
          refine ih h ⟨child, ?_⟩
          rw [FileTree.at_append, hhere, Option.bind_some, FileTree.at?, hchild]; rfl

/-- **Names from the root are followed to where they lead.** -/
theorem follow_names (hproper : ∀ name ∈ names, FileTree.ProperName name)
    (hat : tree.at? (here ++ names) = some node) : follow tree here names =
      .ok (here ++ names) := by
  induction names generalizing here with
  | nil => rw [follow, List.append_nil]
  | cons name names ih =>
    have hname := hproper name List.mem_cons_self
    have hrest := hat
    rw [FileTree.at_append] at hat
    obtain ⟨above, habove, hat⟩ := Option.bind_eq_some_iff.1 hat
    have hdir := FileTree.isDir_of_at hat
    rw [FileTree.at?] at hat
    obtain ⟨child, hchild, -⟩ := Option.bind_eq_some_iff.1 hat
    rw [List.append_cons] at hrest ⊢
    rw [follow, habove]
    simp only [hdir, hname.filler, hname.up, hchild, Bool.not_true, Bool.false_eq_true, if_false]
    exact ih (fun n hn => hproper n (List.mem_cons_of_mem _ hn)) hrest

end Disk

/-- An empty text between slashes is passed over. -/
theorem Disk.follow_empty {tree : FileTree} {here rest : List String} {node : FileTree}
    (hat : tree.at? here = some node) (hdir : node.isDir = true) :
    Disk.follow tree here ("" :: rest) = Disk.follow tree here rest := by
  rw [Disk.follow, hat]
  simp [hdir, FilePath.isFiller]

/-! ## Texts between slashes -/

namespace FilePath

variable {c : Char} {piece rest : List Char}

theorem splitAt_piece (h : c ∉ piece) : splitAt c piece = [piece] := by
  induction piece with
  | nil => rfl
  | cons first piece ih =>
    rw [List.mem_cons, not_or] at h
    rw [splitAt, if_neg fun heq => h.1 heq.symm, ih h.2]

theorem splitAt_append (h : c ∉ piece) :
    splitAt c (piece ++ c :: rest) = piece :: splitAt c rest := by
  induction piece with
  | nil => rw [List.nil_append, splitAt, if_pos rfl]
  | cons first piece ih =>
    rw [List.mem_cons, not_or] at h
    rw [List.cons_append, splitAt, if_neg fun heq => h.1 heq.symm, ih h.2]

/-- Names that hold no separator are found again. -/
theorem splitAt_intercalate {pieces : List (List Char)} (hne : pieces ≠ [])
    (h : ∀ piece ∈ pieces, c ∉ piece) : splitAt c ([c].intercalate pieces) = pieces := by
  induction pieces with
  | nil => exact absurd rfl hne
  | cons first pieces ih =>
    have hfirst := h first List.mem_cons_self
    cases pieces with
    | nil => rw [List.intercalate_singleton]; exact splitAt_piece hfirst
    | cons second pieces =>
      rw [List.intercalate_cons_cons, List.append_assoc, List.singleton_append,
        splitAt_append hfirst, ih (List.cons_ne_nil _ _) fun piece hpiece =>
          h piece (List.mem_cons_of_mem _ hpiece)]

/-- The path of some names from the root. -/
def ofNames (names : List String) : FilePath := ⟨"/" ++ "/".intercalate names⟩

theorem isAbsolute_ofNames (names : List String) : (ofNames names).isAbsolute = true := by
  rw [isAbsolute, ofNames, String.toList_append]; rfl

theorem segments_ofNames {names : List String} (hne : names ≠ [])
    (h : ∀ name ∈ names, '/' ∉ name.toList) : (ofNames names).segments = "" :: names := by
  have hchars :
      (ofNames names).text.toList = '/' :: ['/'].intercalate (names.map String.toList) := by
    rw [ofNames, String.toList_append, String.toList_intercalate]; rfl
  have hpieces : ∀ piece ∈ names.map String.toList, '/' ∉ piece := by
    intro piece hpiece
    obtain ⟨name, hname, rfl⟩ := List.mem_map.1 hpiece
    exact h name hname
  have hne' : names.map String.toList ≠ [] := fun hnil => hne (List.map_eq_nil_iff.1 hnil)
  have hback : names.map (String.ofList ∘ String.toList) = names := by
    refine (List.map_congr_left fun name _ => ?_).trans (List.map_id names)
    exact String.ofList_toList
  rw [segments, hchars, splitAt, if_pos rfl, splitAt_intercalate hne' hpieces, List.map_cons,
    List.map_map, hback]

theorem segments_ne_nil (p : FilePath) : p.segments ≠ [] := by
  intro hnil
  rw [segments, List.map_eq_nil_iff] at hnil
  cases hchars : p.text.toList with
  | nil => rw [hchars] at hnil; cases hnil
  | cons c cs =>
    rw [hchars, splitAt] at hnil
    split at hnil
    · cases hnil
    · split at hnil <;> cases hnil

end FilePath

/-- **The canonical path is a spelling of itself.** -/
theorem Disk.canonical_spelled {disk : Disk} (hproper : disk.tree.Proper) {p c : FilePath}
    (h : disk.canonical? p = some c) : disk.canonical? c = some c := by
  unfold Disk.canonical? at h
  cases hr : disk.resolve p with
  | error e => rw [hr] at h; cases h
  | ok names =>
    rw [hr] at h
    cases h
    suffices hself : disk.resolve (FilePath.ofNames names) = .ok names by
      show disk.canonical? (FilePath.ofNames names) = some (FilePath.ofNames names)
      rw [Disk.canonical?, hself]; rfl
    have hnonempty : (FilePath.ofNames names).text ≠ "" := by
      intro hempty
      have habsolute := FilePath.isAbsolute_ofNames names
      rw [FilePath.isAbsolute, hempty] at habsolute
      cases habsolute
    unfold Disk.resolve at hr ⊢
    rw [if_neg hnonempty, FilePath.isAbsolute_ofNames, if_pos rfl]
    split at hr
    · cases hr
    · obtain ⟨first, rest, hsegments⟩ := List.exists_cons_of_ne_nil p.segments_ne_nil
      rw [hsegments] at hr
      obtain ⟨start, hstart, hdir⟩ := Disk.follow_isDir hr
      obtain ⟨node, hnode⟩ := Disk.follow_at hr ⟨start, hstart⟩
      -- a path was followed, so that there is a directory at the root
      have hroot : disk.tree.isDir = true := by
        generalize (if p.isAbsolute = true then [] else disk.workingDirectory) = here at hstart
        cases here with
        | nil => rw [FileTree.at?] at hstart; cases hstart; exact hdir
        | cons name here => exact FileTree.isDir_of_at hstart
      have hnames := hproper.names hnode
      -- the path starts with a slash, in front of which there is an empty text
      cases hcases : names with
      | nil =>
        rw [FilePath.ofNames]
        exact (Disk.follow_empty rfl hroot).trans (Disk.follow_empty rfl hroot)
      | cons name more =>
        rw [← hcases, FilePath.segments_ofNames (by rw [hcases]; exact List.cons_ne_nil _ _)
          fun name hname => (hnames name hname).slash, Disk.follow_empty rfl hroot]
        have hfollow : Disk.follow disk.tree [] names = .ok ([] ++ names) :=
          Disk.follow_names hnames hnode
        exact hfollow

end Runlist
