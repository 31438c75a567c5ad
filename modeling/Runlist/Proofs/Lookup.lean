import Runlist.Proofs.Discovery
import Runlist.Proofs.Load.Added
import Runlist.Proofs.Resolution
import Runlist.Proofs.Watch.Operation

/-!
# Where roles are found

A role is searched when its name is met for the first time. From then on it is taken from the
directory in which it was found, whatever has become of the files.

* `Site.FirstDirectory`: the first of the candidates that is a directory.
* `LoadedFrom`, `loadRoleWith_directory`: **a role is loaded from the directory that is remembered,
  or else from the first one**, and it is told that there is none exactly if there is none.
* `Part`, `Parts`, `steady_parts`: an operation, cut into parts; one of them is to load a role.
* `Parts.kept`, `Parts.entered`: a directory that is remembered stays, and it was remembered by a
  part that loads.
* `directories_remembered`: **over every history, a directory is remembered by a load that ends
  well**, and for good.
-/

namespace Runlist

open Relation (ReflTransGen)

variable {site : Site} {sites : Site → Prop} {s s' s₁ s₂ : Store} {name : String} {dir : FilePath}

/-! ## The search -/

/-- **The first of the candidates that is a directory.** -/
def Site.FirstDirectory (site : Site) (name : String) (dir : FilePath) : Prop :=
  ∃ front back, site.roleCandidates name = front ++ dir :: back ∧ site.disk.isDir dir = true ∧
    ∀ d ∈ front, site.disk.isDir d = false

/-- None of the candidates is a directory. -/
def Site.NoDirectory (site : Site) (name : String) : Prop :=
  ∀ d ∈ site.roleCandidates name, site.disk.isDir d = false

theorem findRole_ok : site.findRole name = .ok dir ↔ site.FirstDirectory name dir := by
  unfold Site.findRole Site.FirstDirectory
  simp only
  constructor
  · intro h
    split at h
    · rename_i found hfound
      cases h
      obtain ⟨hdir, front, back, hsplit, hfront⟩ := List.find?_eq_some_iff_append.1 hfound
      exact ⟨front, back, hsplit, hdir, fun d hd => by simpa using hfront d hd⟩
    · cases h
  · rintro ⟨front, back, hsplit, hdir, hfront⟩
    have hfound : (site.roleCandidates name).find? site.disk.isDir = some dir :=
      List.find?_eq_some_iff_append.2
        ⟨hdir, front, back, hsplit, fun d hd => by simpa using hfront d hd⟩
    rw [hfound]

theorem findRole_error {e : LoadError} : site.findRole name = .error e ↔
    site.NoDirectory name ∧ e = .roleNotFound name (site.roleCandidates name) := by
  unfold Site.findRole Site.NoDirectory
  simp only
  split
  · rename_i found hfound
    have hdir := List.find?_some hfound
    have hmem := List.mem_of_find?_eq_some hfound
    refine ⟨fun h => (by cases h), fun h => ?_⟩
    rw [h.1 found hmem] at hdir
    cases hdir
  · rename_i hnone
    have hall : ∀ d ∈ site.roleCandidates name, site.disk.isDir d = false :=
      fun d hd => by simpa using List.find?_eq_none.1 hnone d hd
    refine ⟨fun h => ?_, fun h => by rw [h.2]⟩
    cases h
    exact ⟨hall, rfl⟩

/-- The files of a directory that is found do not tell of a missing role. -/
theorem readRoleAt_ne_notFound {selection : RoleSelection} {n : String} {searched : List FilePath} :
    site.readRoleAt selection dir ≠ .error (.roleNotFound n searched) := by
  intro h
  unfold Site.readRoleAt at h
  split at h
  · cases h
  · obtain ⟨_, _, -, h⟩ := foldlM_error h
    obtain ⟨file, h⟩ := readBelow_error h
    unfold Site.readTasks at h
    split at h
    · cases h
    · obtain ⟨_, -, h⟩ := mapError_error.1 h
      cases h

/-! ## One load -/

/-- A state finds a name where it remembers it, and else by a search. -/
def Store.Finds (site : Site) (s : Store) (name : String) (dir : FilePath) : Prop :=
  s.roleDir? name = some dir ∨ s.roleDir? name = none ∧ site.FirstDirectory name dir

/-- **A new role was loaded from a directory**, and the directory is remembered. -/
structure LoadedFrom (site : Site) (s s' : Store) (name : String) (selection : RoleSelection)
    (r : RoleId) (dir : FilePath) : Prop where
  new : ¬ s.graph.HasRole r
  has : s'.graph.HasRole r
  named : (s'.graph.role r).name = name
  path : (s'.graph.role r).path = dir
  reads : ∃ text, site.readRoleAt selection dir = .ok text ∧
      (s'.graph.role r).head = text.toRoleHead
  remembers : ∀ other, s'.roleDir? other = if other = name then some dir else s.roleDir? other

theorem locate_finds (h : s.locate site name = .ok dir) : s.Finds site name dir := by
  unfold Store.locate at h
  split at h
  · rename_i known hknown
    cases h
    exact .inl hknown
  · rename_i hnone
    exact .inr ⟨hnone, findRole_ok.1 h⟩

/-- **A role is loaded from the directory that is remembered, or else from the first one.** What
fails is not remembered, and that there is no directory is told exactly if there is none. -/
theorem loadRoleWith_directory (site : Site) (o : Option OriginId) (play : Option PlayId)
    (name : String) (selection : RoleSelection) (s : Store) :
    Ends (loadRoleWith site o play name selection) s
      (fun r s' => ∃ dir, s.Finds site name dir ∧ LoadedFrom site s s' name selection r dir)
      fun e s' => s'.roleDirs = s.roleDirs ∧ ∀ n searched, e = .roleNotFound n searched ↔
        s.roleDir? name = none ∧ site.NoDirectory name ∧ n = name ∧
        searched = site.roleCandidates name := by
  refine ((loadRoleWith_adds site o play name selection s).and
    (loadRoleWith_discovers site o play name selection s)).mono ?_ ?_
  · rintro r _ ⟨⟨rfl, dir, s₁, hlocate, hadded, rfl⟩, -, text, hread, hnew, hhas, hname, hhead⟩
    refine ⟨dir, locate_finds hlocate, hnew, hhas, hname, ?_, ⟨text, ?_, hhead⟩, fun other => ?_⟩
    · obtain ⟨tasks, defaults, vars, declared, hrole⟩ := hadded.role
      rw [graph_addRoleDir, hrole]
    · rw [Store.readRole, hlocate] at hread
      exact hread
    · have hdirs : ∀ n, s₁.roleDir? n = s.roleDir? n := fun n => by
        rw [Store.roleDir?, Store.roleDir?, hadded.dirs]
      rw [roleDir?_addRoleDir, hdirs]
  · rintro e s' ⟨⟨-, hdirs, -⟩, -, hfail⟩
    refine ⟨hdirs, fun n searched => ⟨?_, ?_⟩⟩
    · -- no other failure is one of a role that is not found
      rintro rfl
      rcases except_bind_error.1 hfail with hlocate | ⟨dir, -, hread⟩
      · unfold Store.locate at hlocate
        split at hlocate
        · cases hlocate
        · rename_i hnone
          obtain ⟨hnowhere, he⟩ := findRole_error.1 hlocate
          cases he
          exact ⟨hnone, hnowhere, rfl, rfl⟩
      · exact absurd hread readRoleAt_ne_notFound
    · rintro ⟨hnone, hnowhere, rfl, rfl⟩
      have hlocate : s.locate site n = .error (.roleNotFound n (site.roleCandidates n)) := by
        unfold Store.locate
        rw [hnone]
        exact findRole_error.2 ⟨hnowhere, rfl⟩
      rw [Store.readRole, hlocate] at hfail
      cases hfail
      rfl

/-! ## Operations in parts -/

/-- **One part of an operation**: a file of tasks or a role is loaded, something is noted, what a
document declares becomes part of the graph, or something in the graph is filled in. -/
inductive Part (site : Site) (s : Store) : Store → Prop
  | note (n : Notice) : Part site s { s with notices := s.notices ++ [n] }
  | tasks (o : Option OriginId) (role : Option RoleId) (play : Option PlayId) (path : FilePath) :
      Part site s ((loadTasksIn site o role play path).run.run s).2
  | role (o : Option OriginId) (play : Option PlayId) (name : String) (selection : RoleSelection) :
      Part site s ((loadRoleWith site o play name selection).run.run s).2
  | stampPlay (path : FilePath) (o : Option OriginId) (d : PlayDeclaration) :
      Part site s { s with graph := (s.graph.stampPlay path o d).2 }
  | stampTasks (context : TaskContext) (o : Option OriginId) (ds : List TaskDeclaration) :
      Part site s { s with graph := (s.graph.stampTasks context o none ds).2 }
  | stampReferences (path : FilePath) (o : OriginId) (rs : List RoleReference) :
      Part site s { s with graph := (s.graph.stampReferences path o rs).2 }
  | fillPlay (p : PlayId) (f : Play → Play) : Part site s { s with graph := s.graph.modifyPlay p f }
  | direct (r : RoleId) (found : List RoleId) :
      Part site s { s with
        graph := s.graph.modifyRole r fun r => { r with directDependencies := some found } }
  | all (r : RoleId) (found : List RoleId) :
      Part site s
        { s with graph := s.graph.modifyRole r fun r => { r with allDependencies := some found } }
  | cached (x : TaskId) (vars : Variables) :
      Part site s
        { s with graph := s.graph.modifyTask x fun t => { t with cachedVars := some vars } }
  | adopt (xs : List TaskId) (x : TaskId) : Part site s { s with graph := s.graph.adopt xs x }

/-- **Parts of operations, one after the other**, each on one of the sites. -/
def Parts (sites : Site → Prop) : Store → Store → Prop :=
  ReflTransGen fun s s' => ∃ site, sites site ∧ Part site s s'

instance isPreorder_parts : IsPreorder Store (Parts sites) where
  refl _ := .refl
  trans _ _ _ h h' := h.trans h'

theorem Part.parts (h : Part site s s') (hsite : sites site) : Parts sites s s' :=
  .single ⟨site, hsite, h⟩

section Steady

variable (hsite : sites site)
include hsite

theorem along_change {α : Type} {f : Graph → α × Graph}
    (h : ∀ s : Store, Part site s { s with graph := (f s.graph).2 }) :
    Along (Parts sites) (Load.change f) := fun s => ends_change.2 ((h s).parts hsite)

theorem along_update {f : Graph → Graph}
    (h : ∀ s : Store, Part site s { s with graph := f s.graph }) :
    Along (Parts sites) (Load.update f) := fun s => ends_update.2 ((h s).parts hsite)

theorem along_loadRoleWith (o : Option OriginId) (play : Option PlayId) (name : String)
    (selection : RoleSelection) : Along (Parts sites) (loadRoleWith site o play name selection) :=
  fun _ => .of_state ((Part.role o play name selection).parts hsite)

theorem along_loadDefinitions (play : Option PlayId) (definitions : List RoleDefinition) :
    Along (Parts sites) (loadDefinitions site play definitions) := by
  unfold loadDefinitions
  refine Along.mapM (fun d => ?_) definitions
  unfold loadRole
  exact along_loadRoleWith hsite (some d.origin) play d.name .main

theorem along_loadPlay (path : FilePath) (o : Option OriginId) (d : PlayDeclaration) :
    Along (Parts sites) (loadPlay site path o d) := by
  have htasks :
      ∀ context o ds, Along (Parts sites) (Load.change fun g => g.stampTasks context o none ds) :=
    fun context o ds => along_change hsite fun _ => .stampTasks context o ds
  unfold loadPlay
  refine .bind (along_change hsite fun _ => .stampPlay path o d) fun play =>
    (htasks _ _ _).bind fun preTasks =>
    (htasks _ _ _).bind fun mainTasks => (htasks _ _ _).bind fun postTasks => ?_
  refine .bind (along_change hsite fun _ => .stampReferences path _ d.roles) fun definitions => ?_
  refine (along_loadDefinitions hsite _ definitions).bind fun roles => ?_
  exact .bind (along_update hsite fun _ => .fillPlay _ _) fun _ => .pure _

/-- **Every operation consists of parts.** -/
theorem steady_parts : Steady site (Parts sites) where
  note n _ := (Part.note n).parts hsite
  tasks o role play path _ := .of_state ((Part.tasks o role play path).parts hsite)
  role := along_loadRoleWith hsite
  playbook o path := by
    unfold loadPlaybook readFile
    refine .bind ?_ fun text => ?_
    · split
      · exact .pure _
      · exact .throw _
    · split
      · exact .bind (fun _ => (Part.note _).parts hsite) fun _ => .pure _
      · exact .bind (.mapM (along_loadPlay hsite path o) _) fun _ => .pure _
  direct r := by
    unfold directDependencies
    refine Steady.along_graph.bind fun g => ?_
    simp only
    split
    · exact .pure _
    · refine (along_loadDefinitions hsite _ _).bind fun found => ?_
      exact .bind (along_update hsite fun _ => .direct r found) fun _ => .pure _
  all r found _ := (Part.all r found).parts hsite
  cached x vars _ := (Part.cached x vars).parts hsite
  adopt xs x _ := (Part.adopt xs x).parts hsite

end Steady

/-! ## What is remembered -/

/-- A part leaves the directories alone, or it loads a role. -/
theorem Part.dirs (h : Part site s s') : s'.roleDirs = s.roleDirs ∨ ∃ o play name selection r,
    (loadRoleWith site o play name selection).run.run s = (.ok r, s') := by
  cases h with
  | tasks o role play path =>
    refine .inl ?_
    refine (loadTasksIn_adds site o role play path s).state
      (P := fun s' => s'.roleDirs = s.roleDirs)
      (fun _ _ h => h.2) fun _ _ h => ?_
    rw [h]
  | role o play name selection =>
    cases hrun : (loadRoleWith site o play name selection).run.run s with
    | mk result s' =>
      cases result with
      | ok r => exact .inr ⟨o, play, name, selection, r, hrun⟩
      | error e => exact .inl ((loadRoleWith_adds site o play name selection s).of_error hrun).2.1
  | _ => exact .inl rfl

theorem Part.kept (h : Part site s s') (hknown : s.roleDir? name = some dir) :
    s'.roleDir? name = some dir := by
  rcases h.dirs with hdirs | ⟨o, play, name', selection, r, hrun⟩
  · rw [Store.roleDir?, hdirs]
    exact hknown
  · obtain ⟨dir', hfinds, hloaded⟩ :=
      (loadRoleWith_directory site o play name' selection s).of_ok hrun
    rw [hloaded.remembers]
    split
    · rename_i hname
      subst hname
      rcases hfinds with hfound | ⟨hnone, -⟩
      · rw [← hknown, hfound]
      · rw [hknown] at hnone
        cases hnone
    · exact hknown

/-- **What is remembered stays.** -/
theorem Parts.kept (h : Parts sites s s') (hknown : s.roleDir? name = some dir) :
    s'.roleDir? name = some dir := by
  induction h with
  | refl => exact hknown
  | tail _ hpart ih =>
    obtain ⟨site, -, hpart⟩ := hpart
    exact hpart.kept ih

/-- **A name is remembered by a part that loads it.** -/
theorem Parts.entered (h : Parts sites s s') (hnone : s.roleDir? name = none)
    (hknown : s'.roleDir? name = some dir) :
    ∃ site o play selection r s₁ s₂, sites site ∧ Parts sites s s₁ ∧ s₁.roleDir? name = none ∧
      (loadRoleWith site o play name selection).run.run s₁ = (.ok r, s₂) ∧
      site.FirstDirectory name dir ∧
      LoadedFrom site s₁ s₂ name selection r dir ∧ Parts sites s₂ s' := by
  induction h with
  | refl =>
    rw [hnone] at hknown
    cases hknown
  | @tail b c hbefore hpart ih =>
    cases hb : b.roleDir? name with
    | some known =>
      -- the name was remembered before the last part, which keeps it
      obtain ⟨site, hsite, hlast⟩ := hpart
      rw [hlast.kept hb] at hknown
      obtain ⟨site', o, play, selection, r, s₁, s₂, hsite', h₁, hnone₁, hrun, hfirst,
          hloaded, h₂⟩ :=
        ih (hb.trans hknown)
      exact ⟨site', o, play, selection, r, s₁, s₂, hsite', h₁, hnone₁, hrun, hfirst, hloaded,
        h₂.trans (hlast.parts hsite)⟩
    | none =>
      obtain ⟨site, hsite, hlast⟩ := hpart
      rcases hlast.dirs with hdirs | ⟨o, play, name', selection, r, hrun⟩
      · rw [Store.roleDir?, hdirs] at hknown
        rw [Store.roleDir?, hknown] at hb
        cases hb
      · obtain ⟨dir', hfinds, hloaded⟩ :=
          (loadRoleWith_directory site o play name' selection b).of_ok hrun
        by_cases hname : name = name'
        · subst hname
          rw [hloaded.remembers, if_pos rfl] at hknown
          cases hknown
          rcases hfinds with hfound | ⟨-, hfirst⟩
          · rw [hb] at hfound
            cases hfound
          · exact ⟨site, o, play, selection, r, b, c, hsite, hbefore, hb, hrun, hfirst,
              hloaded, .refl⟩
        · rw [hloaded.remembers, if_neg hname, hb] at hknown
          cases hknown

/-! ## Histories -/

/-- Documents that are added change neither the root of a project nor its settings. -/
theorem Project.site_addDocuments (disk disk' : Disk) (p : Project) (paths : List FilePath) :
    (p.addDocuments disk paths).2.site disk' = p.site disk' := by
  induction paths generalizing p with
  | nil => rfl
  | cons path paths ih =>
    rw [Project.addDocuments]
    rcases (loadPlaybook (p.site disk) none path).run.run p.store with ⟨e | pb, s⟩
    · rfl
    · simp only
      rw [ih]
      by_cases hempty : pb.isEmpty
      · rw [if_pos hempty]
        rfl
      · rw [if_neg hempty]
        unfold Project.addPlaybook
        by_cases hmain : Project.isMain pb.path
        · rw [if_pos hmain]
          rfl
        · rw [if_neg hmain]
          rfl

/-- The site of a project that was parsed, and the state in which that ends, with whatever
result. -/
theorem Project.parse_reaches {config : ProjectConfig} {base : LoaderConfig} {t : Templater}
    {disk : Disk} {root : FilePath} {playbooks : List FilePath} {p : Project}
    (hp : p = (Project.parse config base t disk root playbooks).2) :
    (∀ disk', p.site disk' = ⟨disk', root, config.loaderConfig root base⟩) ∧
    Reachable (· = p.site disk) p.store := by
  have hdocuments :
      ∀ paths, p = ((⟨root, config, config.loaderConfig root base, none, [], Store.empty, t⟩ :
      Project).addDocuments disk paths).2 →
      (∀ disk', p.site disk' = ⟨disk', root, config.loaderConfig root base⟩) ∧
      Reachable (· = p.site disk) p.store := by
    rintro paths rfl
    refine ⟨fun disk' => site_addDocuments disk disk' _ paths, ?_⟩
    rw [site_addDocuments, addDocuments_store]
    exact @Operation.reaches _ _ (.documents paths) Graph.sound_empty trivial
  unfold Project.parse at hp
  simp only at hp
  split at hp
  · split at hp
    · subst hp
      exact ⟨fun _ => rfl, .refl⟩
    · exact hdocuments _ hp
  · exact hdocuments _ hp

/-- **Over every history, a directory is remembered by a load that ends well, and for good.**
Whatever was done to a state:

* a load of a name takes the directory that is remembered, or else the first candidate that is a
  directory; it tells that there is none exactly if there is none, with all the candidates; and if
  it fails it leaves what is remembered as it is;
* what was remembered at the start still is;
* what is remembered since then was remembered by a part of the history: a load of that name, which
  ended well and used that directory;
* the candidates of a project that was parsed are those of the given settings, and then its own
  below its root. -/
theorem directories_remembered (h : Reaches sites s s') (name : String) :
    (∀ site o play selection, Ends (loadRoleWith site o play name selection) s'
      (fun r s'' => ∃ dir, s'.Finds site name dir ∧ LoadedFrom site s' s'' name selection r dir)
      fun e s'' => s''.roleDirs = s'.roleDirs ∧ ∀ n searched, e = .roleNotFound n searched ↔
        s'.roleDir? name = none ∧ site.NoDirectory name ∧ n = name ∧
        searched = site.roleCandidates name) ∧
    (∀ dir, s.roleDir? name = some dir → s'.roleDir? name = some dir) ∧
    (∀ dir, s.roleDir? name = none → s'.roleDir? name = some dir → ∃ site o play selection r s₁ s₂,
      sites site ∧ Parts sites s s₁ ∧ s₁.roleDir? name = none ∧
      (loadRoleWith site o play name selection).run.run s₁ = (.ok r, s₂) ∧
      site.FirstDirectory name dir ∧
      LoadedFrom site s₁ s₂ name selection r dir ∧ Parts sites s₂ s') ∧
    ∀ config base t disk root playbooks p, p = (Project.parse config base t disk root playbooks).2 →
      Reachable (· = p.site disk) p.store ∧ ∀ disk', (p.site disk').roleCandidates name =
        (root.join "roles").join name ::
          (base.rolesPath ++ config.rolesPath.map fun own => root.join own.text).map
            fun dir => dir.join name := by
  have hparts : Parts sites s s' := reaches_along (fun _ hsite => steady_parts hsite) h
  refine ⟨fun site o play selection => loadRoleWith_directory site o play name selection s',
    fun dir hknown => hparts.kept hknown, fun dir hnone hknown => hparts.entered hnone hknown, ?_⟩
  intro config base t disk root playbooks p hp
  obtain ⟨hsite, hreach⟩ := Project.parse_reaches hp
  refine ⟨hreach, fun disk' => ?_⟩
  rw [hsite]
  rfl

/-- A role in a directory that the settings name. -/
def libSite : Site where
  disk := ⟨.dir [("lib", .dir [("web", .dir [])])], []⟩
  root := ⟨"."⟩
  config := ⟨[⟨"lib"⟩]⟩

/-- Another one of that name, which is there later and would be found first. -/
def laterSite : Site where
  disk := ⟨.dir [("lib", .dir [("web", .dir [])]), ("roles", .dir [("web", .dir [])])], []⟩
  root := ⟨"."⟩
  config := ⟨[⟨"lib"⟩]⟩

/-- The role is loaded into an empty state. -/
def libLoad : Except LoadError RoleId × Store := (loadRole libSite none none "web").run.run .empty

/-- It is loaded from where it was, although another one would be found first. -/
theorem lib_remembered : laterSite.FirstDirectory "web" ⟨"./roles/web"⟩ ∧ ∀ o play selection r s',
    (loadRoleWith laterSite o play "web" selection).run.run libLoad.2 = (.ok r, s') →
      LoadedFrom laterSite libLoad.2 s' "web" selection r ⟨"lib/web"⟩ := by
  have hreach : Reaches (· = libSite) .empty libLoad.2 := reachable_loadRole libSite "web"
  obtain ⟨hknown, hfirst⟩ : libLoad.2.roleDir? "web" = some ⟨"lib/web"⟩ ∧
      (laterSite.findRole "web").toOption = some ⟨"./roles/web"⟩ := by decide +kernel
  obtain ⟨hload, -⟩ := directories_remembered hreach "web"
  refine ⟨?_, fun o play selection r s' hrun => ?_⟩
  · exact findRole_ok.1 (ok_of_toOption hfirst)
  · obtain ⟨dir, hfinds, hloaded⟩ := (hload laterSite o play selection).of_ok hrun
    rcases hfinds with hfound | ⟨hnone, -⟩
    · rw [hknown] at hfound
      cases hfound
      exact hloaded
    · rw [hknown] at hnone
      cases hnone

end Runlist
