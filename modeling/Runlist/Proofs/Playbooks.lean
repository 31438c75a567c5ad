import Runlist.Project
import Runlist.Proofs.Refinement

/-!
# The playbooks of a project

A project keeps its main playbook apart from the others, and there is one place for it. So the
documents with plays are all there in their order, but of several main ones only the last.

* `Site.givesPlays`: a document gives at least one play.
* `Project.documents`: the documents that are tried for a project.
* `Project.Holds`: the playbooks of a project are those of some documents.
* `Project.Holds.addDocuments`: **one document after the other is added.**
* `Project.mem_rootDocuments`, `Project.rootDocuments_ordered`: the documents of a root, and their
  order.
* `Project.parse_playbooks`: **what the playbooks of a project are, and which documents are lost.**
-/

namespace Runlist

/-- The document at a path gives at least one play. -/
def Site.givesPlays (site : Site) (path : FilePath) : Bool :=
  match site.readPlaybook path with
  | .ok ds => !ds.isEmpty
  | .error _ => false

theorem FileTree.OrderedEntries.pairwise {entries : List (String × FileTree)}
    (h : FileTree.OrderedEntries entries) : entries.Pairwise fun e e' => e.1 < e'.1 := by
  induction entries with
  | nil => exact .nil
  | cons e rest ih =>
    obtain ⟨name, tree⟩ := e
    exact .cons h.2.1 (ih h.2.2)

theorem Disk.list_ordered {disk : Disk} {path : FilePath} {entries : List (String × FileTree)}
    (h : disk.tree.Ordered) (hlist : disk.list path = .ok entries) :
    FileTree.OrderedEntries entries := by
  unfold Disk.list Disk.node at hlist
  cases hresolve : disk.resolve path with
  | error e => simp [hresolve] at hlist
  | ok names =>
    cases hat : disk.tree.at? names with
    | none => simp [hresolve, hat] at hlist
    | some node =>
      cases node with
      | file content => simp [hresolve, hat] at hlist
      | dir children =>
        simp only [hresolve, hat, Except.ok.injEq] at hlist
        subst hlist
        exact h.at hat

theorem isEmpty_of_forall₂ {α β : Type} {R : α → β → Prop} {l : List α} {l' : List β}
    (h : List.Forall₂ R l l') : l.isEmpty = l'.isEmpty := by
  cases h <;> rfl

theorem dropLast_append_last {α : Type} (l : List α) : l.dropLast ++ l.getLast?.toList = l := by
  cases h : l.getLast? with
  | none => rw [List.getLast?_eq_none_iff.1 h]; rfl
  | some a => exact List.dropLast_append_getLast? a h

namespace Project

/-- The documents that are tried for a project: the given ones, taken from the root, or else all of
the root. -/
def documents (disk : Disk) (root : FilePath) (playbooks : List FilePath) :
    Except ProjectError (List FilePath) :=
  if playbooks.isEmpty then rootDocuments disk root
  else .ok (playbooks.map fun path => root.join path.text)

/-- The paths of the playbooks that a project has: of the main one, and of the others. -/
def paths (p : Project) : List FilePath := (p.mainPlaybook.toList ++ p.otherPlaybooks).map (·.path)

variable {disk : Disk} {p p' : Project} {given : List FilePath}

/-! ## The documents of a root -/

/-- **The documents of a root** are the regular files directly in it that are named as documents. -/
theorem mem_rootDocuments {root : FilePath} {paths : List FilePath}
    (h : rootDocuments disk root = .ok paths) (path : FilePath) : path ∈ paths ↔
    ∃ entries name content, disk.list root = .ok entries ∧
      (name, FileTree.file content) ∈ entries ∧ path = root.join name ∧ path.isYaml := by
  unfold rootDocuments at h
  split at h
  · cases h
  · rename_i entries hentries
    cases h
    rw [List.mem_filter, List.mem_map]
    constructor
    · rintro ⟨⟨⟨name, node⟩, hmem, rfl⟩, hyaml⟩
      obtain ⟨hmem, hfile⟩ := List.mem_filter.1 hmem
      cases node with
      | dir _ => cases hfile
      | file content => exact ⟨entries, name, content, hentries, hmem, rfl, hyaml⟩
    · rintro ⟨entries', name, content, hentries', hmem, rfl, hyaml⟩
      rw [hentries] at hentries'
      cases hentries'
      exact ⟨⟨_, List.mem_filter.2 ⟨hmem, rfl⟩, rfl⟩, hyaml⟩

/-- They are in the order of their names. -/
theorem rootDocuments_ordered (hordered : disk.tree.Ordered) {root : FilePath}
    {paths : List FilePath} (h : rootDocuments disk root = .ok paths) :
    ∃ names : List String, names.Pairwise (· < ·) ∧ paths = names.map root.join := by
  unfold rootDocuments at h
  split at h
  · cases h
  · rename_i entries hentries
    cases h
    have hsorted := (Disk.list_ordered hordered hentries).pairwise
    refine ⟨((entries.filter fun e => !e.2.isDir).filter fun e => (root.join e.1).isYaml).map
      (·.1), ?_, ?_⟩
    · exact List.pairwise_map.2 ((hsorted.filter _).filter _)
    · rw [List.filter_map, List.map_map]; rfl

/-! ## One document after the other -/

theorem site_addPlaybook (p : Project) (pb : Playbook) :
    (p.addPlaybook pb).site disk = p.site disk := by
  unfold addPlaybook
  split <;> rfl

theorem store_addPlaybook (p : Project) (pb : Playbook) : (p.addPlaybook pb).store = p.store := by
  unfold addPlaybook
  split <;> rfl

/-- **The playbooks of a project are those of some documents**: the last main one, and all the
others in their order, each with the plays that its document declares. -/
structure Holds (disk : Disk) (p : Project) (given : List FilePath) : Prop where
  passed : Passed (p.site disk) p.store
  main : p.mainPlaybook.map (·.path) = (given.filter isMain).getLast?
  others : p.otherPlaybooks.map (·.path) = given.filter fun path => !isMain path
  shows : ∀ pb ∈ p.mainPlaybook.toList ++ p.otherPlaybooks, ∃ ds,
    (p.site disk).readPlaybook pb.path = .ok ds ∧
      List.Forall₂ (p.store.graph.ShowsPlay ((p.site disk).readNamed · .main) pb.path) pb.plays ds

/-- More is loaded. -/
theorem Holds.later (h : p.Holds disk given) {s : Store} (hadv : Advances (p.site disk) p.store s) :
    ({ p with store := s } : Project).Holds disk given where
  passed := h.passed.advances hadv
  main := h.main
  others := h.others
  shows pb hpb := by
    obtain ⟨ds, hread, hshows⟩ := h.shows pb hpb
    exact ⟨ds, hread, hshows.imp fun _ _ hp => hp.stays h.passed.sound hadv.grows.toStays⟩

/-- One more playbook. -/
theorem Holds.addPlaybook (h : p.Holds disk given) {pb : Playbook} {ds : List PlayDeclaration}
    (hread : (p.site disk).readPlaybook pb.path = .ok ds)
    (hshows : List.Forall₂ (p.store.graph.ShowsPlay ((p.site disk).readNamed · .main) pb.path)
      pb.plays ds) :
    (p.addPlaybook pb).Holds disk (given ++ [pb.path]) := by
  refine ⟨?_, ?_, ?_, fun q hq => ?_⟩
  · rw [site_addPlaybook, store_addPlaybook]; exact h.passed
  · unfold Project.addPlaybook
    by_cases hmain : isMain pb.path
    · simp [hmain]
    · simp [hmain, h.main]
  · unfold Project.addPlaybook
    by_cases hmain : isMain pb.path
    · simp [hmain, h.others]
    · simp [hmain, h.others]
  · rw [site_addPlaybook, store_addPlaybook]
    have hmem : q = pb ∨ q ∈ p.mainPlaybook.toList ++ p.otherPlaybooks := by
      unfold Project.addPlaybook at hq
      split at hq
      · rcases List.mem_append.1 hq with hq | hq
        · exact Or.inl (List.mem_singleton.1 hq)
        · exact Or.inr (List.mem_append_right _ hq)
      · rw [← List.append_assoc] at hq
        rcases List.mem_append.1 hq with hq | hq
        · exact Or.inr hq
        · exact Or.inl (List.mem_singleton.1 hq)
    rcases hmem with rfl | hmem
    · exact ⟨ds, hread, hshows⟩
    · exact h.shows q hmem

/-- **One document after the other is added**, unless it gives no plays. -/
theorem Holds.addDocuments (h : p.Holds disk given) {paths : List FilePath}
    (hadd : p.addDocuments disk paths = (.ok (), p')) :
    p'.site disk = p.site disk ∧
    p'.Holds disk (given ++ paths.filter (p.site disk).givesPlays) := by
  induction paths generalizing p given with
  | nil =>
    cases hadd
    exact ⟨rfl, by rw [List.filter_nil, List.append_nil]; exact h⟩
  | cons path rest ih =>
    have ho : ∀ o, (none : Option OriginId) = some o → p.store.graph.HasOrigin o := by rintro _ ⟨⟩
    have hends := @loadPlaybook_ends (p.site disk) p.store h.passed.sound none ho path
    unfold Project.addDocuments at hadd
    cases hrun : (loadPlaybook (p.site disk) none path).run.run p.store with
    | mk r store =>
      rw [hrun] at hadd
      cases r with
      | error e => cases hadd
      | ok pb =>
        obtain ⟨hext, hpath, ds, hread, hloaded⟩ := hends.of_ok hrun
        have hlater := h.later hext.advances
        have hgives : (p.site disk).givesPlays path = !pb.isEmpty := by
          unfold Site.givesPlays Playbook.isEmpty
          rw [hread]
          exact congrArg (!·) (isEmpty_of_forall₂ hloaded)
        simp only at hadd
        by_cases hempty : pb.isEmpty
        · rw [if_pos hempty] at hadd
          rw [List.filter_cons_of_neg (by rw [hgives, hempty]; decide)]
          have hrest := ih hlater hadd
          exact hrest
        · rw [if_neg hempty] at hadd
          rw [List.filter_cons_of_pos (by rw [hgives]; simpa using hempty)]
          have hshows :
              List.Forall₂ (store.graph.ShowsPlay ((p.site disk).readNamed · .main) pb.path)
                pb.plays ds := by
            rw [hpath]
            refine hloaded.flip.imp fun q d hq => ?_
            rw [← funext fun name => h.passed.faithful.readNamed name .main]
            exact hq.shows
          rw [← hpath] at hread
          obtain ⟨hsite, hholds⟩ := ih (hlater.addPlaybook hread hshows) hadd
          rw [site_addPlaybook] at hsite hholds
          refine ⟨hsite, ?_⟩
          rw [hpath, List.append_assoc] at hholds
          exact hholds

/-- The paths of the playbooks, and what is missing of those of the documents. -/
theorem Holds.perm (h : p.Holds disk given) :
    ((given.filter isMain).dropLast ++ p.paths).Perm given := by
  have hpaths :
      p.paths = (given.filter isMain).getLast?.toList ++ given.filter fun path => !isMain path := by
    rw [paths, List.map_append, h.others, ← h.main]
    cases p.mainPlaybook <;> rfl
  rw [hpaths, ← List.append_assoc, dropLast_append_last]
  exact List.filter_append_perm isMain given

/-! ## Projects that were parsed -/

/-- A project that was parsed holds the playbooks of the documents that were tried and give
plays. -/
theorem parse_holds {config : ProjectConfig} {base : LoaderConfig} {t : Templater} {root : FilePath}
    {playbooks : List FilePath}
    (h : Project.parse config base t disk root playbooks = (.ok (), p)) :
    ∃ tried, documents disk root playbooks = .ok tried ∧
      p.site disk = ⟨disk, root, config.loaderConfig root base⟩ ∧
      p.Holds disk (tried.filter (p.site disk).givesPlays) := by
  have hempty : ∀ q : Project, q.store = .empty → q.mainPlaybook = none → q.otherPlaybooks = [] →
      q.Holds disk [] := by
    intro q hstore hmain hothers
    refine ⟨by rw [hstore]; exact Reachable.passed .refl, by rw [hmain]; rfl, by rw [hothers]; rfl,
      ?_⟩
    intro pb hpb
    rw [hmain, hothers] at hpb; cases hpb
  obtain ⟨tried, htried, hadd⟩ : ∃ tried, documents disk root playbooks = .ok tried ∧
      (⟨root, config, config.loaderConfig root base, none, [], Store.empty,
        t⟩ : Project).addDocuments disk tried =
        (.ok (), p) := by
    unfold Project.parse at h
    unfold documents
    simp only at h
    split at h
    · rename_i hnone
      rw [if_pos hnone]
      split at h
      · cases h
      · rename_i paths hpaths
        exact ⟨paths, hpaths, h⟩
    · rename_i hsome
      rw [if_neg hsome]
      exact ⟨_, rfl, h⟩
  obtain ⟨hsite, hholds⟩ := (hempty _ rfl rfl rfl).addDocuments hadd
  rw [List.nil_append, ← hsite] at hholds
  exact ⟨tried, htried, hsite, hholds⟩

/-- **The playbooks of a project that was parsed** are those of the documents that were tried and
give plays: the main playbook is that of the last main document, and the others are those of all
other documents in their order. So the main documents before the last are lost, and nothing else is:
unless there are several main documents, every document with plays is there as often as it was
tried. Where none are given, those that are tried are the documents directly in the root, in the
order of their names. -/
theorem parse_playbooks {config : ProjectConfig} {base : LoaderConfig} {t : Templater}
    {root : FilePath} {playbooks : List FilePath}
    (h : Project.parse config base t disk root playbooks = (.ok (), p)) :
    ∃ tried given, documents disk root playbooks = .ok tried ∧
      p.site disk = ⟨disk, root, config.loaderConfig root base⟩ ∧
      given = tried.filter (p.site disk).givesPlays ∧ p.Holds disk given ∧
      ((given.filter isMain).dropLast ++ p.paths).Perm given ∧
      ((given.filter isMain).length ≤ 1 → ∀ path, p.paths.count path = given.count path) ∧
      (playbooks = [] →
        (∀ path, path ∈ tried ↔ ∃ entries name content, disk.list root = .ok entries ∧
        (name, FileTree.file content) ∈ entries ∧ path = root.join name ∧ path.isYaml) ∧
        (disk.tree.Ordered →
          ∃ names : List String, names.Pairwise (· < ·) ∧ tried = names.map root.join)) := by
  obtain ⟨tried, htried, hsite, hholds⟩ := parse_holds h
  refine ⟨tried, _, htried, hsite, rfl, hholds, hholds.perm, fun hone path => ?_, ?_⟩
  · rw [← hholds.perm.count_eq, List.count_append]
    -- of at most one main document, none is before the last
    have hnone : (List.filter isMain (tried.filter (p.site disk).givesPlays)).dropLast = [] := by
      rw [← List.length_eq_zero_iff, List.length_dropLast]; omega
    rw [hnone, List.count_nil, Nat.zero_add]
  · rintro rfl
    exact ⟨mem_rootDocuments htried, fun hordered => rootDocuments_ordered hordered htried⟩

end Project

/-! ## One main playbook, and two of them -/

/-- A root with a main playbook, another one, and a document that is none. -/
def oneMainDisk : Disk := ⟨.dir [
  ("a.yml", .file (.text "- hosts: all\n")),
  ("notes.yml", .file (.text "port: 1\n")),
  ("site.yml", .file (.text "- hosts: all\n"))], []⟩

/-- A root with two main playbooks, which differ in their extensions. -/
def twoMainDisk : Disk := ⟨.dir [
  ("site.yaml", .file (.text "- hosts: all\n")),
  ("site.yml", .file (.text "- hosts: all\n"))], []⟩

/-- The project of all documents in a root. -/
def parsedRoot (disk : Disk) : Except ProjectError Unit × Project :=
  Project.parse .empty .empty (.ofMode false) disk ⟨"."⟩ []

/-- Every document with plays is there once. -/
theorem one_main_kept : parsedRoot oneMainDisk = (.ok (), (parsedRoot oneMainDisk).2) ∧
    (parsedRoot oneMainDisk).2.paths = [⟨"./site.yml"⟩, ⟨"./a.yml"⟩] ∧
    ∀ path, (parsedRoot oneMainDisk).2.paths.count path =
      [⟨"./a.yml"⟩, ⟨"./site.yml"⟩].count path := by
  obtain ⟨hfound, htried, hpaths⟩ : (parsedRoot oneMainDisk).1.toOption = some () ∧
      (Project.documents oneMainDisk ⟨"."⟩ []).toOption =
        some [⟨"./a.yml"⟩, ⟨"./notes.yml"⟩, ⟨"./site.yml"⟩] ∧
      (parsedRoot oneMainDisk).2.paths = [⟨"./site.yml"⟩, ⟨"./a.yml"⟩] := by decide +kernel
  have hrun := run_ok hfound
  obtain ⟨tried, given, hdocuments, hsite, rfl, -, -, hcount, -⟩ := Project.parse_playbooks hrun
  rw [hdocuments] at htried
  cases htried
  have hgiven : [⟨"./a.yml"⟩, ⟨"./notes.yml"⟩, ⟨"./site.yml"⟩].filter
      ((parsedRoot oneMainDisk).2.site oneMainDisk).givesPlays = [⟨"./a.yml"⟩, ⟨"./site.yml"⟩] := by
    rw [hsite]; decide +kernel
  rw [hgiven] at hcount
  exact ⟨hrun, hpaths, hcount (by decide +kernel)⟩

/-- **A main playbook is overwritten by the next one.** Both documents have a play, and the first of
them is lost. -/
theorem main_overwritten : parsedRoot twoMainDisk = (.ok (), (parsedRoot twoMainDisk).2) ∧
    (Project.documents twoMainDisk ⟨"."⟩ []).toOption = some [⟨"./site.yaml"⟩, ⟨"./site.yml"⟩] ∧
    ((parsedRoot twoMainDisk).2.site twoMainDisk).givesPlays ⟨"./site.yaml"⟩ ∧
    (parsedRoot twoMainDisk).2.paths.count ⟨"./site.yaml"⟩ = 0 := by
  have hfound : (parsedRoot twoMainDisk).1.toOption = some () := by decide +kernel
  exact ⟨run_ok hfound, by decide +kernel⟩

end Runlist
