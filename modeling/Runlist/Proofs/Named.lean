import Runlist.Proofs.Documents
import Runlist.Proofs.Files
import Runlist.Proofs.Loops

/-!
# Roles with their names

A role as it is read from its files, with what messages show of it: its name, its directory, and
where it declares the roles on which it depends.

* `NamedRole`, `Site.readNamed`: the role of a name.
* `NamedRole.references`: its references to other roles, each with its origins.
* `readBelow_cases`: what one file adds to a role. `readRoleAt_keeps`: **what every file keeps, the
  role keeps.**
* `readNamed_ok`: it is the role that `Site.readRole` gives.
* `readNamed_real`: **on which roles it depends is said by its name**, whichever files are selected.
-/

namespace Runlist

/-- What a role declares besides its tasks, and its name. -/
structure NamedHead extends RoleHead where
  name : String

/-- A role that was read: its name and directory, what its selected files declare, and the file in
which it declares its dependencies, if there is one. -/
structure NamedRole extends RoleText where
  name : String
  dir : FilePath
  declared : Option (FilePath × MetaDeclaration)

/-- A role without its tasks. -/
def NamedRole.head (r : NamedRole) : NamedHead := ⟨r.toRoleHead, r.name⟩

/-- What a role declares about itself, after one more of its files, given by its names below the
directory; a file that cannot be read counts for nothing. -/
def Site.readMetaFile (site : Site) (dir : FilePath)
    (declared : Option (FilePath × MetaDeclaration)) :
    List String → Option (FilePath × MetaDeclaration)
  | [] => declared
  | folder :: file =>
    if folder = "meta" ∧ RoleSelection.selects RoleSelection.mainFile file then
      match readDeclared site Declaration.roleMeta (dir.below (folder :: file)) with
      | .ok m => some (dir.below (folder :: file), m)
      | .error _ => declared
    else declared

/-- What the role of a directory declares about itself. -/
def Site.readMeta (site : Site) (dir : FilePath) : Option (FilePath × MetaDeclaration) :=
  match site.disk.filesBelow dir with
  | .ok files => files.foldl (site.readMetaFile dir) none
  | .error _ => none

/-- **The role of a name**, with its name and its place. -/
def Site.readNamed (site : Site) (name : String) (selection : RoleSelection) :
    Except LoadError NamedRole := do
  let dir ← site.findRole name
  let text ← site.readRoleAt selection dir
  return ⟨text, name, dir, site.readMeta dir⟩

/-- The names on which the role of a name depends. They do not depend on which files are
selected. -/
def Site.dependencyNames (site : Site) (name : String) : List String :=
  match site.findRole name with
  | .ok dir => ((site.readMeta dir).map fun m => m.2.dependencies.map (·.name)).getD []
  | .error _ => []

/-- The role depends on what the files of its name declare. -/
def NamedHead.Real (site : Site) (r : NamedHead) : Prop :=
  r.dependencies = site.dependencyNames r.name

/-- The references to other roles that a file declares, each with its origin and that of the
file. -/
def MetaDeclaration.references (m : MetaDeclaration) (path : FilePath) :
    List (String × List Origin) :=
  m.dependencies.map fun ref =>
    (ref.name, [⟨.roleDefinition, path, ref.range, some ref.name, none⟩,
      ⟨.roleMeta, path, m.range, none, none⟩])

/-- The references of a role to other roles. -/
def NamedRole.references (r : NamedRole) : List (String × List Origin) :=
  (r.declared.map fun (path, m) => m.references path).getD []

theorem NamedRole.references_names (r : NamedRole) :
    r.references.map (·.1) = (r.declared.map fun m => m.2.dependencies.map (·.name)).getD [] := by
  rw [NamedRole.references]
  cases r.declared with
  | none => rfl
  | some m =>
    simp only [Option.map_some, Option.getD_some, MetaDeclaration.references, List.map_map]
    rfl

/-! ## The files of a role -/

section Files

variable {site : Site} {selection : RoleSelection} {dir : FilePath} {text : RoleText}

/-- What one more file adds to a role. -/
theorem readBelow_cases {text' : RoleText} {names : List String}
    (h : site.readBelow selection dir text names = .ok text') : text' = text ∨
      (∃ path ds, site.readTasks path = .ok ds ∧
        text' = { text with tasks := text.tasks ++ ds.map fun d => (path, d) }) ∨
      (∃ path, text' = { text with defaults := text.defaults.assign (site.readRoleVars path) }) ∨
      (∃ path, text' = { text with vars := text.vars.assign (site.readRoleVars path) }) ∨
      ∃ path m, readDeclared site Declaration.roleMeta path = .ok m ∧
        text' = { text with dependencies := m.dependencies.map (·.name) } := by
  cases names with
  | nil => cases h; exact Or.inl rfl
  | cons folder file =>
    rw [Site.readBelow] at h
    unfold Site.readRoleFile at h
    split at h
    · split at h
      · obtain ⟨ds, hds, h⟩ := except_bind_ok.1 h
        cases h
        exact Or.inr (Or.inl ⟨_, ds, hds, rfl⟩)
      · cases h; exact Or.inl rfl
    · split at h
      · cases h; exact Or.inr (Or.inr (Or.inl ⟨_, rfl⟩))
      · cases h; exact Or.inl rfl
    · split at h
      · cases h; exact Or.inr (Or.inr (Or.inr (Or.inl ⟨_, rfl⟩)))
      · cases h; exact Or.inl rfl
    · split at h
      · split at h
        · rename_i m hm
          cases h; exact Or.inr (Or.inr (Or.inr (Or.inr ⟨_, m, hm, rfl⟩)))
        · cases h; exact Or.inl rfl
      · cases h; exact Or.inl rfl
    · cases h; exact Or.inl rfl

/-- **What every file keeps, the role keeps**; it may depend on the files that were read before. -/
theorem readRoleAt_keeps {P : List (List String) → RoleText → Prop}
    (h : site.readRoleAt selection dir = .ok text) (nil : P [] ⟨⟨[], [], []⟩, []⟩)
    (step : ∀ front names text text', P front text →
      site.readBelow selection dir text names = .ok text' →
      P (front ++ [names]) text') :
    ∃ files, site.disk.filesBelow dir = .ok files ∧ P files text := by
  unfold Site.readRoleAt at h
  cases hfiles : site.disk.filesBelow dir with
  | error e => rw [hfiles] at h; cases h
  | ok files =>
    rw [hfiles] at h
    refine ⟨files, rfl, ?_⟩
    -- from any of the files on
    have hfold : ∀ {front rest : List (List String)} {start : RoleText}, P front start →
        rest.foldlM (site.readBelow selection dir) start = .ok text → P (front ++ rest) text := by
      intro front rest start hstart hrest
      induction rest generalizing front start with
      | nil => cases hrest; rw [List.append_nil]; exact hstart
      | cons names rest ih =>
        rw [List.foldlM_cons] at hrest
        obtain ⟨next, hnext, hrest⟩ := except_bind_ok.1 hrest
        rw [List.append_cons]
        exact ih (step front names start next hstart hnext) hrest
    exact hfold nil h

/-- Every task of a role is in one of its files. -/
theorem readRoleAt_tasks (h : site.readRoleAt selection dir = .ok text) :
    ∀ task ∈ text.tasks, ∃ path ds, site.readTasks path = .ok ds ∧ task.2 ∈ ds := by
  refine (readRoleAt_keeps
    (P := fun _ text => ∀ task ∈ text.tasks, ∃ path ds, site.readTasks path = .ok ds ∧
      task.2 ∈ ds) h
    (fun _ hnil => (List.not_mem_nil hnil).elim) ?_).elim ?_
  · intro front names text text' hkept hnext
    rcases readBelow_cases hnext with rfl | ⟨path, ds, hds, rfl⟩ | ⟨path, rfl⟩ | ⟨path,
      rfl⟩ | ⟨path, m, -, rfl⟩
    · exact hkept
    · intro task htask
      rcases List.mem_append.1 htask with htask | htask
      · exact hkept task htask
      · obtain ⟨d, hd, rfl⟩ := List.mem_map.1 htask
        exact ⟨path, ds, hds, hd⟩
    · exact hkept
    · exact hkept
    · exact hkept
  · exact fun _ h => h.2

end Files

/-! ## Roles and their names -/

section Read

variable {site : Site} {name : String} {selection : RoleSelection} {r : NamedRole}

theorem dependencyNames_of_found {dir : FilePath} (h : site.findRole name = .ok dir) :
    site.dependencyNames name =
      ((site.readMeta dir).map fun m => m.2.dependencies.map (·.name)).getD [] := by
  unfold Site.dependencyNames
  simp only [h]

theorem readNamed_iff : site.readNamed name selection = .ok r ↔ r.name = name ∧
    site.findRole name = .ok r.dir ∧ site.readRoleAt selection r.dir = .ok r.toRoleText ∧
      r.declared = site.readMeta r.dir := by
  unfold Site.readNamed
  rw [except_bind_ok]
  constructor
  · rintro ⟨dir, hdir, h⟩
    obtain ⟨text, htext, h⟩ := except_bind_ok.1 h
    cases h
    exact ⟨rfl, hdir, htext, rfl⟩
  · rintro ⟨rfl, hdir, htext, hdeclared⟩
    refine ⟨r.dir, hdir, except_bind_ok.2 ⟨r.toRoleText, htext, ?_⟩⟩
    rw [← hdeclared]; rfl

/-- A role is the one that is read without its name. -/
theorem readNamed_ok (h : site.readNamed name selection = .ok r) :
    site.readRole name selection = .ok r.toRoleText := by
  obtain ⟨-, hdir, htext, -⟩ := readNamed_iff.1 h
  exact except_bind_ok.2 ⟨r.dir, hdir, htext⟩

/-- A file of another folder. -/
theorem readMetaFile_other {dir : FilePath} {declared : Option (FilePath × MetaDeclaration)}
    {folder : String} {file : List String} (h : folder ≠ "meta") :
    site.readMetaFile dir declared (folder :: file) = declared := if_neg fun h' => h h'.1

theorem readMetaFile_not_selected {dir : FilePath} {declared : Option (FilePath × MetaDeclaration)}
    {file : List String} (h : ¬ RoleSelection.selects RoleSelection.mainFile file = true) :
    site.readMetaFile dir declared ("meta" :: file) = declared := if_neg fun h' => h h'.2

/-- The main file of the folder. -/
theorem readMetaFile_meta {dir : FilePath} {declared : Option (FilePath × MetaDeclaration)}
    {file : List String} (h : RoleSelection.selects RoleSelection.mainFile file = true) :
    site.readMetaFile dir declared ("meta" :: file) =
      match readDeclared site Declaration.roleMeta (dir.below ("meta" :: file)) with
      | .ok m => some (dir.below ("meta" :: file), m)
      | .error _ => declared := if_pos ⟨rfl, h⟩

/-- What a role declares about itself, as one more file leaves it. -/
theorem readRoleFile_dependencies {dir : FilePath} {text text' : RoleText} {names : List String}
    {declared : Option (FilePath × MetaDeclaration)}
    (h : site.readBelow selection dir text names = .ok text')
    (ht : text.dependencies = (declared.map fun m => m.2.dependencies.map (·.name)).getD []) :
    text'.dependencies =
      ((site.readMetaFile dir declared names).map fun m =>
        m.2.dependencies.map (·.name)).getD [] := by
  cases names with
  | nil => cases h; exact ht
  | cons folder file =>
    rw [Site.readBelow] at h
    unfold Site.readRoleFile at h
    -- tasks, defaults and variables leave it as it is; the main file of the folder `meta` sets it
    split at h
    · rw [readMetaFile_other (by decide)]
      split at h
      · obtain ⟨ds, -, h⟩ := except_bind_ok.1 h
        cases h; exact ht
      · cases h; exact ht
    · rw [readMetaFile_other (by decide)]
      split at h <;> cases h <;> exact ht
    · rw [readMetaFile_other (by decide)]
      split at h <;> cases h <;> exact ht
    · split at h
      · rename_i hselects
        rw [readMetaFile_meta hselects]
        cases hm : readDeclared site Declaration.roleMeta (dir.below ("meta" :: file)) with
        | error e => rw [hm] at h; cases h; exact ht
        | ok m => rw [hm] at h; cases h; rfl
      · rename_i hselects
        rw [readMetaFile_not_selected hselects]
        cases h; exact ht
    · rename_i hmeta
      rw [readMetaFile_other hmeta]
      cases h; exact ht

/-- The dependencies of a role are those of the file in which it declares them. -/
theorem readRoleAt_dependencies {dir : FilePath} {text : RoleText}
    (h : site.readRoleAt selection dir = .ok text) :
    text.dependencies =
      ((site.readMeta dir).map fun m => m.2.dependencies.map (·.name)).getD [] := by
  -- the two folds over the files go side by side
  refine (readRoleAt_keeps (P := fun front text => text.dependencies =
    ((front.foldl (site.readMetaFile dir) none).map fun m => m.2.dependencies.map (·.name)).getD
      []) h rfl ?_).elim ?_
  · intro front names text text' hside hnext
    rw [List.foldl_append]
    exact readRoleFile_dependencies hnext hside
  · rintro files ⟨hfiles, hdependencies⟩
    rw [hdependencies, Site.readMeta, hfiles]

/-- What a role declares about itself is in front of its tasks. -/
theorem readMeta_front {dir : FilePath} {files front back : List (List String)}
    {names : List String} (hordered : files.Pairwise FileTree.NotAfter)
    (hsplit : files = front ++ names :: back) (htasks : names.head? = some "tasks") :
    files.foldl (site.readMetaFile dir) none = front.foldl (site.readMetaFile dir) none := by
  subst hsplit
  have hlater := (List.pairwise_cons.1 (List.pairwise_append.1 hordered).2.1).1
  have hskip : ∀ n ∈ names :: back, ∀ declared, site.readMetaFile dir declared n = declared := by
    intro n hn declared
    cases n with
    | nil => rfl
    | cons folder file =>
      have hle : "tasks" ≤ folder := by
        rcases List.mem_cons.1 hn with rfl | hn
        · exact le_of_eq (Option.some.inj htasks).symm
        · exact hlater _ hn _ htasks _ rfl
      refine readMetaFile_other ?_
      rintro rfl
      exact absurd hle (by decide)
  rw [List.foldl_append]
  generalize front.foldl (site.readMetaFile dir) none = declared
  clear hordered htasks hlater
  generalize names :: back = rest at hskip
  induction rest with
  | nil => rfl
  | cons n rest ih =>
    rw [List.foldl_cons, hskip n List.mem_cons_self]
    exact ih fun m hm => hskip m (List.mem_cons_of_mem _ hm)

/-- **On which roles a role depends** is said by its name, whichever of its files are selected. -/
theorem readNamed_real (h : site.readNamed name selection = .ok r) : r.head.Real site := by
  obtain ⟨hname, hdir, htext, -⟩ := readNamed_iff.1 h
  have hreal : r.dependencies = site.dependencyNames name :=
    (readRoleAt_dependencies htext).trans (dependencyNames_of_found hdir).symm
  rw [← hname] at hreal
  exact hreal

/-- The references of a role name the roles on which it depends. -/
theorem readNamed_references (h : site.readNamed name selection = .ok r) :
    r.references.map (·.1) = r.dependencies := by
  obtain ⟨-, -, htext, hdeclared⟩ := readNamed_iff.1 h
  rw [readRoleAt_dependencies htext, r.references_names, hdeclared]

/-- Roles that are read with their names are those that are read without. -/
theorem readRoles_of_named {names : List String} {roles : List NamedRole}
    (h : names.mapM (site.readNamed · .main) = .ok roles) :
    site.readRoles names = .ok (roles.map (·.toRoleText)) :=
  mapM_ok_map (fun _ _ _ hr => readNamed_ok hr) h

/-- Roles that are read without their names can be read with them. -/
theorem named_of_readRoles {names : List String} {texts : List RoleText}
    (h : site.readRoles names = .ok texts) :
    ∃ roles : List NamedRole, names.mapM (site.readNamed · .main) = .ok roles ∧
      texts = roles.map (·.toRoleText) := by
  rw [Site.readRoles, mapM_ok] at h
  have hthrough :
      List.Forall₂ (fun name text => ∃ role : NamedRole, site.readNamed name .main = .ok role ∧
      role.toRoleText = text) names texts := by
    refine h.imp fun name text htext => ?_
    obtain ⟨dir, hdir, htext⟩ := except_bind_ok.1 htext
    exact ⟨⟨text, name, dir, site.readMeta dir⟩, readNamed_iff.2 ⟨rfl, hdir, htext, rfl⟩, rfl⟩
  obtain ⟨roles, hroles, htexts⟩ := forall₂_through hthrough
  exact ⟨roles, mapM_ok.2 hroles, htexts⟩

end Read

end Runlist
