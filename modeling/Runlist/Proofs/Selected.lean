import Mathlib.Data.List.Sort
import Runlist.Proofs.Extensions
import Runlist.Proofs.Files
import Runlist.Proofs.Load.Filled

/-!
# Which files of a role are selected

A folder of a role is searched with a name. The files that it selects are documents that are called
so, with either of the two extensions and below any folders, so that there are at most two of them;
all others do not matter.

The extension is cut off a name as it is cut off any path, and this goes wrong for `..yml` and
`..yaml`: two dots are left of them, as if they were called so. What is said here excludes the two
names, and `dots_mistaken` is what becomes of them.

* `RoleSelection.SelectedIn`: **a file is selected in a folder.**
* `RoleSelection.picks_iff`: selection is by components.
* `RoleSelection.Chosen`, `RoleSelection.picked_chosen`: the files that are selected in a folder, in
  their order.
* `RoleSelection.SameFiles`, `loadRoleWith_same`: files that are not selected do not matter.
* `loadRoleWith_stems`: names that differ by an extension of documents are as good as one another.
* `loadRoleWith_selected`: **a role is loaded from the files that are selected**, and from no
  others.
-/

namespace Runlist

open FilePath

/-- The files below a directory have names that a path can lead to. -/
theorem Disk.filesBelow_proper {disk : Disk} {dir : FilePath} {names : List (List String)}
    (h : disk.tree.Proper) (hnames : disk.filesBelow dir = .ok names) :
    ∀ file ∈ names, ∀ name ∈ file, FileTree.ProperName name := by
  obtain ⟨_, node, hat, rfl⟩ := Disk.filesBelow_ok hnames
  intro file hfile
  obtain ⟨entry, hentry, rfl⟩ := List.mem_map.1 hfile
  exact (h.at hat).files entry hentry

namespace RoleSelection

/-! ## Selected files -/

/-- **A file is selected in a folder of a role**: it is a document, and without its extension, its
path below the folder is what the name is without the extension of a document, component by
component. -/
def SelectedIn (folder name : String) : List String → Prop
  | [] => False
  | first :: file => first = folder ∧ (⟨"/".intercalate file⟩ : FilePath).isYaml = true ∧
      (plain ⟨"/".intercalate file⟩).components = (plain ⟨name⟩).components

instance (folder name : String) : DecidablePred (SelectedIn folder name)
  | [] => inferInstanceAs (Decidable False)
  | _ :: _ => inferInstanceAs (Decidable (_ ∧ _))

/-- A file is not called `..yml` or `..yaml`, given by its names from the directory of the role. -/
def PlainFile : List String → Prop
  | [] => True
  | _ :: file => (⟨"/".intercalate file⟩ : FilePath).isDotted = false

instance : DecidablePred PlainFile
  | [] => inferInstanceAs (Decidable True)
  | _ :: _ => inferInstanceAs (Decidable (_ = _))

/-- None of the names by which files are selected ends in `..yml` or `..yaml`. -/
structure Plain (selection : RoleSelection) : Prop where
  tasks : (⟨selection.tasksFile⟩ : FilePath).isDotted = false
  defaults : (⟨selection.defaultsFile⟩ : FilePath).isDotted = false
  vars : (⟨selection.varsFile⟩ : FilePath).isDotted = false

theorem plain_main : (⟨mainFile⟩ : FilePath).isDotted = false := by decide

section Selected

variable {folder name : String} {file : List String}

/-- **Files are selected by their components.** -/
theorem picks_iff (hname : (⟨name⟩ : FilePath).isDotted = false) (hfile : PlainFile file) :
    picks folder name file = true ↔ SelectedIn folder name file := by
  cases file with
  | nil => exact iff_of_false Bool.false_ne_true id
  | cons first file =>
    rw [picks, SelectedIn, Bool.and_eq_true, beq_iff_eq]
    refine and_congr_right fun _ => ?_
    rw [selects, Bool.and_eq_true, Bool.and_eq_true, and_assoc, stem_eq name hname,
      sameComponents, beq_iff_eq]
    have hnonempty : (⟨"/".intercalate file⟩ : FilePath).isYaml = true →
        (!file.isEmpty) = true := by
      intro hyaml
      cases file with
      | nil => revert hyaml; decide
      | cons _ _ => rfl
    constructor
    · rintro ⟨-, hyaml, hsame⟩
      exact ⟨hyaml, withoutExtension_document hyaml hfile ▸ hsame⟩
    · rintro ⟨hyaml, hsame⟩
      exact ⟨hnonempty hyaml, hyaml, (withoutExtension_document hyaml hfile).symm ▸ hsame⟩

/-- The files of a name in a folder, the one with the longer extension first. -/
def versions (folder : String) (before : List String) (stem : String) : List (List String) :=
  [folder :: (before ++ [stem ++ ".yaml"]), folder :: (before ++ [stem ++ ".yml"])]

theorem versions_sorted (folder : String) (before : List String) (stem : String) :
    (versions folder before stem).Pairwise (· < ·) := by
  have hext : stem ++ ".yaml" < stem ++ ".yml" := by
    rw [String.lt_iff_toList_lt, String.toList_append, String.toList_append]
    exact List.append_left_lt (by decide)
  refine List.pairwise_pair.2 (List.cons_lt_cons_iff.2 (.inr ⟨rfl, List.append_left_lt ?_⟩))
  exact List.cons_lt_cons_iff.2 (.inl hext)

/-- A file that is selected has the name by which it is, and an extension. -/
theorem SelectedIn.versions (h : SelectedIn folder name file)
    (hproper : ∀ part ∈ file, FileTree.ProperName part) (hfile : PlainFile file) :
    ∃ before stem, file ∈ versions folder before stem ∧
    (before ++ [stem]).map Component.ofName = (plain ⟨name⟩).components := by
  cases file with
  | nil => exact h.elim
  | cons first file =>
    obtain ⟨rfl, hyaml, hsame⟩ := h
    have hproper' := fun part hpart => hproper part (List.mem_cons_of_mem _ hpart)
    obtain ⟨before, stem, ext, rfl, hstem, hext⟩ := (isYaml_names hproper').1 hyaml
    have hsegments := segments_names hproper' (by simp)
    have hdot : stem ≠ "." := by
      rintro rfl
      have hfileStem :=
        (extension?_dotted hsegments (fun _ h => (List.not_mem_nil h).elim) hstem (hext.ne_up ".")
        hext.not_mem_dot).2
      rw [PlainFile, isDotted, hyaml, hfileStem] at hfile
      cases hfile
    refine ⟨before, stem, ?_, ?_⟩
    · rw [RoleSelection.versions, String.append_assoc]
      rcases hext with rfl | rfl
      · exact List.mem_cons_of_mem _ (List.mem_singleton_self _)
      · exact List.mem_cons_self
    · rw [← components_document hproper' hstem hdot hext, ← hsame, plain_of_yaml hyaml]

/-- The main file of a folder is one of two. -/
theorem selectedIn_main (hproper : ∀ part ∈ file, FileTree.ProperName part)
    (hfile : PlainFile file) :
    SelectedIn "meta" mainFile file ↔ file ∈ RoleSelection.versions "meta" [] mainFile := by
  constructor
  · intro h
    obtain ⟨before, stem, hmem, hsame⟩ := h.versions hproper hfile
    have hmain : (plain ⟨mainFile⟩).components = ([] ++ [mainFile]).map Component.ofName := by
      decide
    rw [hmain] at hsame
    obtain ⟨rfl, hstem⟩ :=
      List.append_inj' (List.map_injective_iff.2 Component.ofName_injective hsame) rfl
    cases hstem
    exact hmem
  · intro h
    rcases List.mem_pair.1 h with rfl | rfl <;> decide

end Selected

/-! ## All selected files -/

section Chosen

variable {folder name : String} {dir : FilePath} {names : List (List String)}

/-- **The files that a name selects in a folder**: all that are selected, and at most two, the one
with the longer extension first. -/
def Chosen (folder name : String) (dir : FilePath) (names : List (List String))
    (paths : List FilePath) : Prop :=
  ∃ files : List (List String), paths = files.map dir.below ∧
    (∀ file, file ∈ files ↔ file ∈ names ∧ SelectedIn folder name file) ∧
    ∃ before stem, files.Sublist (versions folder before stem)

theorem mem_picked (hname : (⟨name⟩ : FilePath).isDotted = false)
    (hplain : ∀ file ∈ names, PlainFile file) (file : List String) :
    file ∈ names.filter (picks folder name) ↔ file ∈ names ∧ SelectedIn folder name file := by
  rw [List.mem_filter]
  exact and_congr_right fun hmem => picks_iff hname (hplain file hmem)

/-- **The files that are picked are those that are selected**, in their order. -/
theorem picked_chosen (hname : (⟨name⟩ : FilePath).isDotted = false)
    (hsorted : names.Pairwise (· < ·))
    (hproper : ∀ file ∈ names, ∀ part ∈ file, FileTree.ProperName part)
    (hplain : ∀ file ∈ names, PlainFile file) :
    Chosen folder name dir names (picked folder name dir names) := by
  refine ⟨_, rfl, mem_picked hname hplain, ?_⟩
  have hsorted' := hsorted.filter (picks folder name)
  have hmem : ∀ file, file ∈ names.filter (picks folder name) ↔
      file ∈ names ∧ SelectedIn folder name file :=
    mem_picked hname hplain
  rcases hcases : names.filter (picks folder name) with _ | ⟨first, rest⟩
  · exact ⟨[], "", List.nil_sublist _⟩
  · obtain ⟨hfirst, hselected⟩ := (hmem first).1 (hcases ▸ List.mem_cons_self)
    obtain ⟨before, stem, -, hsame⟩ :=
      hselected.versions (hproper first hfirst) (hplain first hfirst)
    refine ⟨before, stem, hcases ▸ ?_⟩
    -- all of them have the name of the first
    have hsubset : names.filter (picks folder name) ⊆ versions folder before stem := by
      intro file hfile
      obtain ⟨hfile, hselected⟩ := (hmem file).1 hfile
      obtain ⟨before', stem', hversion, hsame'⟩ :=
        hselected.versions (hproper file hfile) (hplain file hfile)
      have hnames : before' ++ [stem'] = before ++ [stem] :=
        List.map_injective_iff.2 Component.ofName_injective (hsame'.trans hsame.symm)
      obtain ⟨rfl, hstem⟩ := List.append_inj' hnames rfl
      cases hstem
      exact hversion
    exact List.sublist_of_subperm_of_pairwise
      (List.subperm_of_subset hsorted'.nodup hsubset) hsorted'
      (versions_sorted folder before stem)

/-- The files in which a role declares something about itself are its two main files, as far as
there are such. -/
theorem picked_declared (hsorted : names.Pairwise (· < ·))
    (hproper : ∀ file ∈ names, ∀ part ∈ file, FileTree.ProperName part)
    (hplain : ∀ file ∈ names, PlainFile file) :
    picked "meta" mainFile dir names =
      ((versions "meta" [] mainFile).filter (· ∈ names)).map dir.below := by
  refine congrArg (List.map dir.below) ?_
  refine (hsorted.filter _).eq_of_mem_iff ((versions_sorted "meta" [] mainFile).filter _)
    fun file => ?_
  rw [mem_picked plain_main hplain, List.mem_filter, decide_eq_true_eq, and_comm]
  exact and_congr_left fun hmem => selectedIn_main (hproper file hmem) (hplain file hmem)

end Chosen

/-- **The files of a role are those that its selection selects.** -/
structure Chooses (selection : RoleSelection) (dir : FilePath) (names : List (List String))
    (files : RoleFiles) : Prop where
  tasks : Chosen "tasks" selection.tasksFile dir names files.tasks
  defaults : Chosen "defaults" selection.defaultsFile dir names files.defaults
  vars : Chosen "vars" selection.varsFile dir names files.vars
  declared : files.declared = ((versions "meta" [] mainFile).filter (· ∈ names)).map dir.below

/-- The file is selected for something. -/
def Selects (selection : RoleSelection) (file : List String) : Prop :=
  SelectedIn "tasks" selection.tasksFile file ∨ SelectedIn "defaults" selection.defaultsFile file ∨
    SelectedIn "vars" selection.varsFile file ∨ SelectedIn "meta" mainFile file

theorem counts_iff {selection : RoleSelection} {file : List String} (h : selection.Plain)
    (hfile : PlainFile file) : selection.counts file = true ↔ selection.Selects file := by
  rw [counts, Bool.or_eq_true, Bool.or_eq_true, Bool.or_eq_true, picks_iff h.tasks hfile,
    picks_iff h.defaults hfile, picks_iff h.vars hfile, picks_iff plain_main hfile, or_assoc,
    or_assoc, Selects]

end RoleSelection

/-- The files below a directory are those of an orderly tree, and none is called `..yml` or
`..yaml`. -/
structure Disk.Orderly (disk : Disk) (dir : FilePath) : Prop where
  ordered : disk.tree.Ordered
  proper : disk.tree.Proper
  plain : ∀ names, disk.filesBelow dir = .ok names → ∀ file ∈ names, RoleSelection.PlainFile file

theorem RoleSelection.filesOf_chosen {disk : Disk} {dir : FilePath} {selection : RoleSelection}
    {names : List (List String)} (h : disk.Orderly dir) (hplain : selection.Plain)
    (hnames : disk.filesBelow dir = .ok names) :
    selection.Chooses dir names (selection.filesOf dir names) := by
  have hsorted := Disk.filesBelow_sorted h.ordered hnames
  have hproper := Disk.filesBelow_proper h.proper hnames
  have hfiles := h.plain names hnames
  rw [RoleSelection.filesOf_eq]
  exact ⟨picked_chosen hplain.tasks hsorted hproper hfiles,
    picked_chosen hplain.defaults hsorted hproper hfiles,
    picked_chosen hplain.vars hsorted hproper hfiles, picked_declared hsorted hproper hfiles⟩

/-! ## Other files -/

section Same

variable {site site' : Site} {s : Store} {o : Option OriginId} {play : Option PlayId}
  {name : String} {dir : FilePath}
  {selection selection' : RoleSelection}

/-- **Two disks have the same selected files** below a directory, with the same texts. -/
structure RoleSelection.SameFiles (selection : RoleSelection) (disk disk' : Disk)
    (dir : FilePath) : Prop where
  walk : ∀ e, disk.filesBelow dir = .error e ↔ disk'.filesBelow dir = .error e
  names : ∀ names names', disk.filesBelow dir = .ok names → disk'.filesBelow dir = .ok names' →
    ∀ file, selection.Selects file → (file ∈ names ↔ file ∈ names')
  texts : ∀ names, disk.filesBelow dir = .ok names → ∀ file ∈ names, selection.Selects file →
    disk'.read (dir.below file) = disk.read (dir.below file)

/-- **Files that are not selected do not matter.** -/
theorem loadRoleWith_same (h : site.disk.Orderly dir) (h' : site'.disk.Orderly dir)
    (hplain : selection.Plain) (hdir : s.locate site name = .ok dir)
    (hdir' : s.locate site' name = .ok dir) (hsame : selection.SameFiles site.disk site'.disk dir) :
    (loadRoleWith site' o play name selection).run.run s =
      (loadRoleWith site o play name selection).run.run s := by
  refine loadRoleWith_others hdir hdir' ?_ fun names file hnames hmem hcounts => ?_
  · cases hnames : site.disk.filesBelow dir with
    | error e => rw [(hsame.walk e).1 hnames]
    | ok names =>
      cases hnames' : site'.disk.filesBelow dir with
      | error e =>
        rw [(hsame.walk e).2 hnames'] at hnames
        cases hnames
      | ok names' =>
        have hsorted := (Disk.filesBelow_sorted h.ordered hnames).filter selection.counts
        have hsorted' := (Disk.filesBelow_sorted h'.ordered hnames').filter selection.counts
        refine congrArg Except.ok (hsorted'.eq_of_mem_iff hsorted fun file => ?_)
        rw [List.mem_filter, List.mem_filter]
        constructor
        · rintro ⟨hmem, hcounts⟩
          have hselects :=
            (RoleSelection.counts_iff hplain (h'.plain names' hnames' file hmem)).1 hcounts
          exact ⟨(hsame.names names names' hnames hnames' file hselects).2 hmem, hcounts⟩
        · rintro ⟨hmem, hcounts⟩
          have hselects :=
            (RoleSelection.counts_iff hplain (h.plain names hnames file hmem)).1 hcounts
          exact ⟨(hsame.names names names' hnames hnames' file hselects).1 hmem, hcounts⟩
  · exact hsame.texts names hnames file hmem
      ((RoleSelection.counts_iff hplain (h.plain names hnames file hmem)).1 hcounts)

end Same

/-! ## Names with an extension -/

section Stems

variable {site : Site} {o : Option OriginId} {play : Option PlayId} {name x ext : String}
  {selection selection' : RoleSelection}

/-- What a name selects depends on what it is without the extension of a document. -/
theorem loadRoleWith_stems (hpublic : selection.isPublic = selection'.isPublic)
    (htasks : RoleSelection.stem selection.tasksFile = RoleSelection.stem selection'.tasksFile)
    (hdefaults : RoleSelection.stem selection.defaultsFile =
      RoleSelection.stem selection'.defaultsFile)
    (hvars : RoleSelection.stem selection.varsFile = RoleSelection.stem selection'.varsFile) :
    loadRoleWith site o play name selection = loadRoleWith site o play name selection' := by
  have hselects : ∀ {a b : String}, RoleSelection.stem a = RoleSelection.stem b →
      RoleSelection.selects a = RoleSelection.selects b := by
    intro a b hstem
    funext file
    rw [RoleSelection.selects, RoleSelection.selects, hstem]
  have hfile : loadRoleFile site selection = loadRoleFile site selection' := by
    funext r folder file path
    simp only [loadRoleFile, hselects htasks, hselects hdefaults, hselects hvars]
  have hfiles : loadRoleFiles site selection = loadRoleFiles site selection' := by
    funext r dir
    rw [loadRoleFiles, hfile, loadRoleFiles]
  rw [loadRoleWith, hpublic, hfiles, loadRoleWith]

/-- **A name without an extension**: it ends in a name, neither in a slash nor in a dot alone, and
it has none of the extensions of documents. -/
def RoleSelection.Bare (name : String) : Prop :=
  (⟨name⟩ : FilePath).isYaml = false ∧
    ∃ before last, (⟨name⟩ : FilePath).segments = before ++ [last] ∧ isFiller last = false

namespace RoleSelection.Bare

theorem ne_empty (h : Bare x) : x ≠ "" := by
  rintro rfl
  obtain ⟨-, before, last, hsegments, hlast⟩ := h
  have hempty : (⟨""⟩ : FilePath).segments = [] ++ [""] := by decide
  obtain ⟨-, hlast'⟩ := List.append_inj' (hempty.symm.trans hsegments) rfl
  cases hlast'
  cases hlast

theorem plain_eq (h : Bare x) (hext : YamlExtension ext) : plain ⟨x ++ "." ++ ext⟩ = plain ⟨x⟩ := by
  obtain ⟨hyaml, before, last, hsegments, hlast⟩ := h
  rw [plain_extended hsegments hlast hext, plain, hyaml]; rfl

theorem stem_eq (h : Bare x) (hext : YamlExtension ext) :
    RoleSelection.stem (x ++ "." ++ ext) = RoleSelection.stem x := by
  obtain ⟨hyaml, before, last, hsegments, hlast⟩ := h
  rw [FilePath.stem_eq _ (isDotted_extended hsegments hlast hext),
    plain_extended hsegments hlast hext, RoleSelection.stem, hyaml]
  rfl

theorem selectedIn_iff (h : Bare x) (hext : YamlExtension ext) (folder : String)
    (file : List String) : SelectedIn folder (x ++ "." ++ ext) file ↔ SelectedIn folder x file := by
  cases file with
  | nil => exact Iff.rfl
  | cons first file => rw [SelectedIn, SelectedIn, h.plain_eq hext]

end RoleSelection.Bare

end Stems

/-! ## Loading -/

section Loading

variable {site : Site} {s : Store} {name : String} {dir : FilePath} {selection : RoleSelection}

/-- **A role is loaded from the files that its selection selects**, and from no others: its tasks
are those of its files of tasks, its defaults and variables those of the files that have any, later
ones over earlier ones, and the last file that declares anything about it is what it declares. It is
an error that its directory cannot be listed, or that one of its files of tasks cannot be read, and
nothing else. A name with an extension of documents selects what it does without. -/
theorem loadRoleWith_selected (hfiles : site.disk.Orderly dir) (hplain : selection.Plain)
    (hdir : s.locate site name = .ok dir) (o : Option OriginId) (play : Option PlayId) :
    Ends (loadRoleWith site o play name selection) s
      (fun r s' => ∃ names files, site.disk.filesBelow dir = .ok names ∧
        selection.Chooses dir names files ∧
        Graph.FilledWith site s.graph s'.graph r (s'.graph.role r) files)
      (fun e _ => (∃ io, site.disk.filesBelow dir = .error io ∧ e = .walk dir io) ∨
        ∃ names file, site.disk.filesBelow dir = .ok names ∧ file ∈ names ∧
          RoleSelection.SelectedIn "tasks" selection.tasksFile file ∧
          site.readTasks (dir.below file) = .error e) ∧
    (∀ site', site'.disk.Orderly dir → s.locate site' name = .ok dir →
      selection.SameFiles site.disk site'.disk dir →
      (loadRoleWith site' o play name selection).run.run s =
        (loadRoleWith site o play name selection).run.run s) ∧
    ∀ x ext, RoleSelection.Bare x → YamlExtension ext →
      (∀ folder file, RoleSelection.SelectedIn folder (x ++ "." ++ ext) file ↔
        RoleSelection.SelectedIn folder x file) ∧
      loadRoleWith site o play name (selection.tasksFrom (some (x ++ "." ++ ext))) =
        loadRoleWith site o play name (selection.tasksFrom (some x)) ∧
      loadRoleWith site o play name (selection.defaultsFrom (some (x ++ "." ++ ext))) =
        loadRoleWith site o play name (selection.defaultsFrom (some x)) ∧
      loadRoleWith site o play name (selection.varsFrom (some (x ++ "." ++ ext))) =
        loadRoleWith site o play name (selection.varsFrom (some x)) := by
  refine ⟨(loadRoleWith_filled site o play name selection hdir).mono ?_ ?_,
    fun site' hfiles' hdir' hsame => loadRoleWith_same hfiles hfiles' hplain hdir hdir' hsame, ?_⟩
  · rintro r s' ⟨names, hnames, hfilled⟩
    exact ⟨names, _, hnames, RoleSelection.filesOf_chosen hfiles hplain hnames, hfilled⟩
  · rintro e s' (hwalk | ⟨names, path, hnames, hpath, hfail⟩)
    · exact .inl hwalk
    · obtain ⟨chosen, htasks, hchosen, -⟩ :=
        (RoleSelection.filesOf_chosen hfiles hplain hnames).tasks
      rw [htasks] at hpath
      obtain ⟨file, hfile, rfl⟩ := List.mem_map.1 hpath
      obtain ⟨hmem, hselected⟩ := (hchosen file).1 hfile
      exact .inr ⟨names, file, hnames, hmem, hselected, hfail⟩
  · intro x ext hbare hext
    have hstem := hbare.stem_eq hext
    -- a selection counts by its stem only, which the extension does not change
    have hgiven :
        ∀ otherwise, RoleSelection.stem (RoleSelection.given (some (x ++ "." ++ ext)) otherwise) =
        RoleSelection.stem (RoleSelection.given (some x) otherwise) := by
      intro otherwise
      have hlong : x ++ "." ++ ext ≠ "" := fun hempty =>
        hbare.ne_empty (String.append_eq_empty_iff.1 (String.append_eq_empty_iff.1 hempty).1).1
      rw [RoleSelection.given, if_neg hlong, RoleSelection.given, if_neg hbare.ne_empty, hstem]
    exact ⟨hbare.selectedIn_iff hext, loadRoleWith_stems rfl (hgiven _) rfl rfl,
      loadRoleWith_stems rfl rfl (hgiven _) rfl,
      loadRoleWith_stems rfl rfl rfl (hgiven _)⟩

end Loading

/-! ## Sites -/

/-- A role with several files of tasks. -/
def setupSite : Site where
  disk := ⟨.dir [("roles", .dir [("web", .dir [
    ("defaults", .dir [("main.yaml", .file (.text "port: 1\n")),
      ("main.yml", .file (.text "- port\n"))]),
    ("tasks", .dir [
      ("main.yml", .file (.text "- ping:\n")),
      ("sub", .dir [("setup.yaml", .file (.text "- name: first\n")),
        ("setup.yml", .file (.text "- name: second\n"))])])])])], []⟩
  root := ⟨"."⟩
  config := ⟨[]⟩

/-- A file of tasks that is not the main one, and the main files of the other folders. -/
def setupSelection : RoleSelection := RoleSelection.main.tasksFrom (some "sub/setup.yml")

/-- The role is loaded into an empty state. -/
def setupLoad : Except LoadError RoleId × Store :=
  (loadRoleWith setupSite none none "web" setupSelection).run.run .empty

theorem orderly_setup : setupSite.disk.Orderly ⟨"./roles/web"⟩ where
  ordered := by
    unfold setupSite
    simp only [FileTree.Ordered, FileTree.OrderedEntries]
    decide
  proper := by
    unfold setupSite
    simp only [FileTree.Proper, FileTree.ProperEntries]
    decide
  plain := by
    have hnames : (setupSite.disk.filesBelow ⟨"./roles/web"⟩).toOption =
        some [["defaults", "main.yaml"], ["defaults", "main.yml"],
        ["tasks", "main.yml"], ["tasks", "sub", "setup.yaml"], ["tasks", "sub", "setup.yml"]] := by
      decide +kernel
    intro names h
    rw [ok_of_toOption hnames] at h
    cases h
    decide

/-- Both files of that name are loaded, and the defaults of the file that has any. -/
theorem setup_selected : setupSite.disk.Orderly ⟨"./roles/web"⟩ ∧ setupSelection.Plain ∧
    Store.empty.locate setupSite "web" = .ok ⟨"./roles/web"⟩ ∧ setupLoad = (.ok ⟨0⟩, setupLoad.2) ∧
    (∃ names files, setupSite.disk.filesBelow ⟨"./roles/web"⟩ = .ok names ∧
      setupSelection.Chooses ⟨"./roles/web"⟩ names files ∧
      Graph.FilledWith setupSite Store.empty.graph setupLoad.2.graph ⟨0⟩
        (setupLoad.2.graph.role ⟨0⟩) files) ∧
    (setupLoad.2.graph.role ⟨0⟩).tasks.map (fun t => (setupLoad.2.graph.task t).name) =
      [some "first", some "second"] ∧
    RoleSelection.Bare "sub/setup" ∧ YamlExtension "yaml" := by
  have hplain : setupSelection.Plain := ⟨by decide +kernel, by decide +kernel, by decide +kernel⟩
  have hbare : RoleSelection.Bare "sub/setup" :=
    ⟨by decide +kernel, ["sub"], "setup", by decide +kernel, by decide +kernel⟩
  have hfound : (setupSite.findRole "web").toOption = some ⟨"./roles/web"⟩ := by decide +kernel
  have hunknown : Store.empty.locate setupSite "web" = setupSite.findRole "web" := rfl
  have hdir := hunknown.trans (ok_of_toOption hfound)
  obtain ⟨hloaded, htasks⟩ : setupLoad.1.toOption = some ⟨0⟩ ∧
      (setupLoad.2.graph.role ⟨0⟩).tasks.map (fun t => (setupLoad.2.graph.task t).name) =
        [some "first", some "second"] := by
    decide +kernel
  have hload := run_ok hloaded
  -- the state is left open here, since Lean would run the load to see how it ends
  have hfilled : ∀ s : Store, s.locate setupSite "web" = .ok ⟨"./roles/web"⟩ → ∀ r s',
      (loadRoleWith setupSite none none "web" setupSelection).run.run s = (.ok r, s') →
      ∃ names files,
      setupSite.disk.filesBelow ⟨"./roles/web"⟩ = .ok names ∧
      setupSelection.Chooses ⟨"./roles/web"⟩ names files ∧
      Graph.FilledWith setupSite s.graph s'.graph r (s'.graph.role r) files :=
    fun s hdir r s' hrun => (loadRoleWith_selected orderly_setup hplain hdir none none).1.of_ok hrun
  exact ⟨orderly_setup, hplain, hdir, hload, hfilled .empty hdir ⟨0⟩ setupLoad.2 hload, htasks,
    hbare, .inr rfl⟩

/-- A role with files of tasks that are called by dots. -/
def dotsSite : Site where
  disk := ⟨.dir [("roles", .dir [("web", .dir [("tasks", .dir [
    ("...yml", .file (.text "- name: right\n  debug:\n")),
    ("..yml", .file (.text "- name: wrong\n  debug:\n"))])])])], []⟩
  root := ⟨"."⟩
  config := ⟨[]⟩

/-- The file of tasks is called by two dots. -/
def dotsLoad : Except LoadError RoleId × Store :=
  (loadRoleWith dotsSite none none "web" (RoleSelection.main.tasksFrom (some ".."))).run.run .empty

/-- **Two dots are left of `..yml`.** It is loaded as if it were called so, although it is a dot
without its extension. -/
theorem dots_mistaken : dotsSite.disk.tree.Ordered ∧ dotsSite.disk.tree.Proper ∧
    (dotsSite.findRole "web").toOption = some ⟨"./roles/web"⟩ ∧ dotsLoad.1.toOption = some ⟨0⟩ ∧
    RoleSelection.SelectedIn "tasks" ".." ["tasks", "...yml"] ∧
    ¬ RoleSelection.SelectedIn "tasks" ".." ["tasks", "..yml"] ∧
    (dotsLoad.2.graph.role ⟨0⟩).tasks.map (fun t => ((dotsLoad.2.graph.task t).name,
      (dotsLoad.2.graph.origin (dotsLoad.2.graph.task t).origin).path)) =
      [(some "right", ⟨"./roles/web/tasks/...yml"⟩),
        (some "wrong", ⟨"./roles/web/tasks/..yml"⟩)] := by
  refine ⟨?_, ?_, by decide +kernel⟩
  · unfold dotsSite
    simp only [FileTree.Ordered, FileTree.OrderedEntries]
    decide
  · unfold dotsSite
    simp only [FileTree.Proper, FileTree.ProperEntries]
    decide

end Runlist
