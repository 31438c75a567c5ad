import Runlist.Project
import Runlist.Proofs.Canonical
import Runlist.Proofs.Descent
import Runlist.Proofs.Opened

/-!
# Cycles of includes

A cycle is reported where a target is asked for while one with the same key is open. What is open
are the targets through which the expansion has come down. So one of them is asked for again, and it
is the same target, if the keys tell targets apart: files by their canonical paths, and roles by
their names and files of tasks.

* `Target.alike_or_confused`: targets with one key are the same, or their texts coincide.
* `Reentry`: a target is asked for inside of itself.
* `cyclic_reenters`: **what is reported is a way down to a target that is open already**, or to one
  whose text is the same.
* `colon_confuses`: two roles with the same text.
-/

namespace Runlist

variable {site : Site} {t : Templater} {chain : List String}

/-! ## The same target -/

/-- **The same target**: the same file, by its canonical path, or by its spelling if the path leads
nowhere; or the same role with the same file of tasks. -/
inductive Target.Alike (disk : Disk) : Target → Target → Prop
  | file {p q c : FilePath} : disk.canonical? p = some c → disk.canonical? q = some c →
      Target.Alike disk (.file p) (.file q)
  | missing {p : FilePath} : disk.canonical? p = none → Target.Alike disk (.file p) (.file p)
  | role (name tasksFile : String) : Target.Alike disk (.role name tasksFile) (.role name tasksFile)

/-- **Different targets whose texts coincide**: roles, of which one has a colon in its name, or a
role and a path to no file that is spelled like the role. -/
inductive Target.Confused (disk : Disk) : Target → Target → Prop
  | roles {name tasksFile name' tasksFile' : String} : (name, tasksFile) ≠ (name', tasksFile') →
      name ++ ":" ++ tasksFile = name' ++ ":" ++ tasksFile' →
      Target.Confused disk (.role name tasksFile) (.role name' tasksFile')
  | role_file {name tasksFile : String} {p : FilePath} : disk.canonical? p = none →
      p.text = "role:" ++ (name ++ ":" ++ tasksFile) →
      Target.Confused disk (.role name tasksFile) (.file p)
  | file_role {name tasksFile : String} {p : FilePath} : disk.canonical? p = none →
      p.text = "role:" ++ (name ++ ":" ++ tasksFile) →
      Target.Confused disk (.file p) (.role name tasksFile)

/-- The key of a file is its canonical path, or the path as it is spelled. -/
theorem Target.file_key (disk : Disk) (p : FilePath) :
    (∃ c, disk.canonical? p = some c ∧ (Target.file p).key disk = c.text) ∨
      disk.canonical? p = none ∧ (Target.file p).key disk = p.text := by
  rw [Target.key]
  cases disk.canonical? p with
  | some c => exact Or.inl ⟨c, rfl, rfl⟩
  | none => exact Or.inr ⟨rfl, rfl⟩

/-- The key of a role starts like no path from the root. -/
theorem Target.role_key (disk : Disk) (name tasksFile : String) :
    (Target.role name tasksFile).key disk = "role:" ++ (name ++ ":" ++ tasksFile) := by
  rw [Target.key, String.append_assoc, String.append_assoc, String.append_assoc]

/-- The canonical path of a file is no key of a role. -/
theorem canonical_ne_role {disk : Disk} {p c : FilePath} (h : disk.canonical? p = some c)
    (text : String) : c.text ≠ "role:" ++ text := by
  intro heq
  unfold Disk.canonical? at h
  split at h
  · cases h
  · rename_i names _
    cases h
    have hchars := congrArg String.toList heq
    rw [String.toList_append, String.toList_append] at hchars
    have hhead := congrArg List.head? hchars
    simp at hhead

/-- A path that leads nowhere is not spelled like the canonical path of a file. -/
theorem missing_ne_canonical {disk : Disk} (hproper : disk.tree.Proper) {p q c : FilePath}
    (hp : disk.canonical? p = none) (hq : disk.canonical? q = some c) : p.text ≠ c.text := by
  intro heq
  have hself : p = c := congrArg FilePath.mk heq
  rw [hself, disk.canonical_spelled hproper hq] at hp
  cases hp

/-- Files with one key are the same. -/
theorem Target.alike_files {disk : Disk} (hproper : disk.tree.Proper) {p q : FilePath}
    (h : (Target.file p).key disk = (Target.file q).key disk) :
    (Target.file p).Alike disk (.file q) := by
  rcases Target.file_key disk p with ⟨c, hp, hkey⟩ | ⟨hp, hkey⟩
  · rcases Target.file_key disk q with ⟨c', hq, hkey'⟩ | ⟨hq, hkey'⟩
    · rw [hkey, hkey'] at h
      have hsame : c = c' := congrArg FilePath.mk h
      rw [← hsame] at hq
      exact .file hp hq
    · rw [hkey, hkey'] at h
      exact absurd h.symm (missing_ne_canonical hproper hq hp)
  · rcases Target.file_key disk q with ⟨c', hq, hkey'⟩ | ⟨hq, hkey'⟩
    · rw [hkey, hkey'] at h
      exact absurd h (missing_ne_canonical hproper hp hq)
    · rw [hkey, hkey'] at h
      have hsame : p = q := congrArg FilePath.mk h
      rw [hsame]
      exact .missing hq

/-- **Targets with one key are the same**, or their texts coincide. -/
theorem Target.alike_or_confused {disk : Disk} (hproper : disk.tree.Proper) {a b : Target}
    (h : a.key disk = b.key disk) : a.Alike disk b ∨ a.Confused disk b := by
  cases a with
  | file p =>
    cases b with
    | file q => exact Or.inl (Target.alike_files hproper h)
    | role name tasksFile =>
      rw [Target.role_key] at h
      rcases Target.file_key disk p with ⟨c, hp, hkey⟩ | ⟨hp, hkey⟩
      · exact absurd (hkey.symm.trans h) (canonical_ne_role hp _)
      · exact Or.inr (.file_role hp (hkey.symm.trans h))
  | role name tasksFile =>
    cases b with
    | file q =>
      rw [Target.role_key] at h
      rcases Target.file_key disk q with ⟨c, hq, hkey⟩ | ⟨hq, hkey⟩
      · exact absurd (hkey.symm.trans h.symm) (canonical_ne_role hq _)
      · exact Or.inr (.role_file hq (hkey.symm.trans h.symm))
    | role name' tasksFile' =>
      rw [Target.role_key, Target.role_key, String.append_right_inj] at h
      by_cases heq : (name, tasksFile) = (name', tasksFile')
      · cases heq; exact Or.inl (.role _ _)
      · exact Or.inr (.roles heq h)

/-- Of two roles whose texts coincide, one has a colon in its name. -/
theorem Target.Confused.colon {disk : Disk} {name tasksFile name' tasksFile' : String}
    (h : (Target.role name tasksFile).Confused disk (.role name' tasksFile')) :
    ':' ∈ name.toList ∨ ':' ∈ name'.toList := by
  cases h with
  | roles hne htext =>
    by_contra hnone
    rw [not_or] at hnone
    have hchars : name.toList ++ ':' :: tasksFile.toList =
        name'.toList ++ ':' :: tasksFile'.toList := by
      have h := congrArg String.toList htext
      simp only [String.toList_append, List.append_assoc] at h
      exact h
    -- both names end at the first colon
    have hsplit := congrArg (FilePath.splitAt ':') hchars
    rw [FilePath.splitAt_append hnone.1, FilePath.splitAt_append hnone.2] at hsplit
    have hname : name.toList = name'.toList := List.head_eq_of_cons_eq hsplit
    rw [hname] at hchars
    have htasks := List.tail_eq_of_cons_eq (List.append_cancel_left hchars)
    exact hne (Prod.ext (String.toList_inj.1 hname) (String.toList_inj.1 htasks))

/-! ## Reports -/

/-- The cycle that closes at the end of a list of targets. -/
theorem cycleOf_map {f : Target → String} {targets : List Target} {key : String}
    (h : key ∈ targets.map f) :
    ∃ before first between, targets = before ++ first :: between ∧ f first = key ∧
      cycleOf (targets.map f) key = (first :: between).map f ++ [key] := by
  induction targets with
  | nil => cases h
  | cons a rest ih =>
    by_cases ha : f a = key
    · refine ⟨[], a, rest, rfl, ha, ?_⟩
      rw [cycleOf, List.map_cons, List.dropWhile_cons_of_neg (by simpa using ha)]
    · rw [List.map_cons, List.mem_cons] at h
      obtain ⟨before, first, between, rfl, hfirst, hcycle⟩ :=
        ih (h.resolve_left fun heq => ha heq.symm)
      refine ⟨a :: before, first, between, rfl, hfirst, ?_⟩
      rw [cycleOf, List.map_cons, List.dropWhile_cons_of_pos (by simpa using ha)]
      exact hcycle

/-- A file that can be read has a canonical path. -/
theorem canonical_of_readTasks {path : FilePath} {ds : List TaskDeclaration}
    (h : site.readTasks path = .ok ds) : site.disk.canonical? path ≠ none := by
  intro hnone
  have hread : ∀ text, site.disk.read path ≠ .ok text := by
    intro text hok
    unfold Disk.canonical? at hnone
    unfold Disk.read Disk.node at hok
    cases hresolve : site.disk.resolve path with
    | error err => rw [hresolve] at hok; cases hok
    | ok names => rw [hresolve] at hnone; cases hnone
  unfold Site.readTasks at h
  cases htext : site.disk.read path with
  | error err => rw [htext] at h; cases h
  | ok text => exact hread text htext

/-- Tasks that are loaded are declared in their file. -/
theorem readTasks_of_load {o : Option OriginId} {role : Option RoleId} {play : Option PlayId}
    {path : FilePath} {xs : List TaskId} {e e₁ : Expansion}
    (h : (Expand.load (loadTasksIn site o role play path)).run.run e = (.ok xs, e₁)) :
    ∃ ds, site.readTasks path = .ok ds := by
  have hends :
      Ends (Expand.load (loadTasksIn site o role play path)) e
        (fun _ _ => ∃ ds, site.readTasks path = .ok ds)
      fun _ _ => True :=
    ends_load.2 ((loadTasksIn_reads site o role play path e.store).mono (fun _ _ h => h.2)
      fun _ _ _ => trivial)
  exact hends.of_ok h

/-- A path that leads nowhere is entered for a playbook only, which was loaded before. -/
theorem Stage.Leads.missing {outer inner : Stage} {e e₁ : Expansion} {path : FilePath}
    (h : outer.Leads site t e (some (.file path)) inner e₁)
    (hnone : site.disk.canonical? path = none) : ∃ n pb, outer = .playbook n pb := by
  cases h with
  | file hasks hclosed hload hturn =>
    obtain ⟨ds, hread⟩ := readTasks_of_load hload
    exact absurd hnone (canonical_of_readTasks hread)
  | play => exact ⟨_, _, rfl⟩

/-- **A target is entered again**: below a stage, through targets that are entered one inside the
other, `outer` has entered `first`, and `last` asks for `target`, while all of them are open. -/
structure Reentry (site : Site) (t : Templater) (stage : Stage) (e : Expansion)
    (chain : List String) (before : List Target) (outer : Stage) (first : Target)
    (between : List Target) (last : Stage) (target : Target) : Prop where
  down : ∃ e₁ inner e₂ e₃ e₄, Descends site t stage e before outer e₁ ∧
    outer.Leads site t e₁ (some first) inner e₂ ∧ Descends site t inner e₂ between last e₃ ∧
    last.Opens site t e₃ target e₄ ∧
    e₃.opened = (before ++ first :: between).map (Target.key site.disk)
  distinct : ((before ++ first :: between).map (Target.key site.disk)).Nodup
  chain : chain = (first :: between ++ [target]).map (Target.key site.disk)
  closes : first.key site.disk = target.key site.disk
  same : first.Alike site.disk target ∨ first.Confused site.disk target
  missing :
      ∀ path, first = .file path → site.disk.canonical? path = none → ∃ n pb, outer = .playbook n pb

/-- **A target is entered again while stages are expanded**, one after the other, in the turn of one
of them. -/
def ReentersIn (site : Site) (t : Templater) (s : Store) (stages : List Stage)
    (chain : List String) : Prop :=
  ∃ stage e, Turn site t stages ⟨s, []⟩ stage e ∧ ∃ before outer first between last target,
    Reentry site t stage e chain before outer first between last target

/-- What is open at the end of a way down is told apart, or entered again. -/
theorem Reenters.reentry (hproper : site.disk.tree.Proper) {stage : Stage} {e : Expansion}
    (hopened : e.opened = []) (h : Reenters site t stage e chain) :
    ∃ before outer first between last target,
    Reentry site t stage e chain before outer first between last target := by
  obtain ⟨targets, last, e₁, target, e₂, hdown, hopens, hopen, hchain⟩ := h
  have hall : e₁.opened = targets.map (Target.key site.disk) := by
    rw [hdown.opened, hopened, List.nil_append]
  have hnodup := hdown.nodup (by rw [hopened]; exact List.nodup_nil)
  rw [hall] at hopen hchain hnodup
  obtain ⟨before, first, between, rfl, hfirst, hcycle⟩ := cycleOf_map hopen
  obtain ⟨outer, e₃, inner, e₄, habove, hleads, hbelow⟩ := hdown.split
  refine ⟨before, outer, first, between, last, target,
    ⟨e₃, inner, e₄, e₁, e₂, habove, hleads, hbelow, hopens, hall⟩,
    hnodup, ?_, hfirst, Target.alike_or_confused hproper hfirst, ?_⟩
  · rw [hchain, hcycle, List.map_append, List.map_singleton]
  · rintro path rfl hnone
    exact hleads.missing hnone

/-- A cycle that is reported by stages, one after the other. -/
theorem stages_reenter (hproper : site.disk.tree.Proper) {s : Store} {stages : List Stage}
    {e : Expansion}
    (hfail : (concatEach (Stage.expand site t) stages).run.run ⟨s, []⟩ =
      (.error (.cyclicInclude chain), e)) :
    ReentersIn site t s stages chain := by
  have hends : Ends (concatEach (Stage.expand site t) stages) ⟨s, []⟩ (fun _ _ => True)
      fun err _ => ∀ chain, err = .cyclicInclude chain → ReentersIn site t s stages chain := by
    refine ends_turns fun stage e₁ hturn =>
      (stage.reports e₁).mono (fun _ _ h => h) fun err _ h chain herr => ?_
    exact ⟨stage, e₁, hturn, (h chain herr).reentry hproper hturn.opened⟩
  exact hends.of_error hfail chain rfl

/-- The stages that are expanded by a call, one after the other. -/
def Call.stages (n : Nat) : Call → List Stage
  | task x => [.task n x]
  | tasks xs => xs.map (.task n)
  | role r => [.role n r []]
  | play p => [.play n p]
  | playbook pb => [.playbook n pb]

/-- A call that fails fails in the turn of one of its stages. -/
theorem Call.fails_stages {call : Call} {n : Nat} {e e' : Expansion} {err : ExpandError}
    (h : (call.expand site t n).run.run e = (.error err, e')) :
    (concatEach (Stage.expand site t) (call.stages n)).run.run e = (.error err, e') := by
  have hone : ∀ stage : Stage, (stage.expand site t).run.run e = (.error err, e') →
      (concatEach (Stage.expand site t) [stage]).run.run e = (.error err, e') := by
    intro stage hstage
    rw [concatEach, run_bind, hstage]
  cases call with
  | task x => exact hone (.task n x) h
  | tasks xs =>
    rw [stages, concatEach_of_map]
    exact h
  | role r => exact hone (.role n r []) h
  | play p => exact hone (.play n p) h
  | playbook pb => exact hone (.playbook n pb) h

theorem Project.expand_error {α : Type} {step : Expand α} {p p' : Project} {err : ExpandError}
    (h : p.expand step = (.error (.expand err), p')) : ∃ e, step.run.run ⟨p.store, []⟩ =
      (.error err, e) := by
  unfold Project.expand at h
  rcases hrun : step.run.run ⟨p.store, []⟩ with ⟨err' | a, e⟩
  · rw [hrun] at h
    cases h
    exact ⟨e, rfl⟩
  · rw [hrun] at h
    cases h

/-- **A cycle is reported only where a target is entered again.** In any state, where a call or the
list of all tasks fails with a cycle, this is the keys of targets that are open one inside the
other, and of one that is asked for inside of them. It has the key of the first of them, and no
other two have the same; and it is the same target as the first, or, which is a fault of the keys,
their texts coincide. -/
theorem cyclic_reenters (chain : List String) :
    (∀ (site : Site) (t : Templater) (n : Nat) (s : Store) (call : Call) {e : Expansion},
      site.disk.tree.Proper →
      (call.expand site t n).run.run ⟨s, []⟩ = (.error (.cyclicInclude chain), e) →
      ReentersIn site t s (call.stages n) chain) ∧
    ∀ {p p' : Project} {disk : Disk}, disk.tree.Proper →
      p.listTasks disk = (.error (.expand (.cyclicInclude chain)), p') →
      ReentersIn (p.site disk) p.templater p.store
        (p.playbooks.map (.playbook (expansionBound (p.site disk) p.store))) chain := by
  refine ⟨fun site t n s call _ hproper hfail => stages_reenter hproper (Call.fails_stages hfail),
    fun hproper hfail => ?_⟩
  obtain ⟨e, hrun⟩ := Project.expand_error hfail
  refine stages_reenter (e := e) hproper ?_
  rw [concatEach_of_map]
  exact hrun

/-! ## Two cycles -/

/-- The cycle that a call reports. -/
def reported? : Except ExpandError (List TaskId) → Option (List String)
  | .error (.cyclicInclude chain) => some chain
  | _ => none

theorem of_reported {run : Except ExpandError (List TaskId) × Expansion}
    (h : reported? run.1 = some chain) : run = (.error (.cyclicInclude chain), run.2) := by
  obtain ⟨result, e⟩ := run
  unfold reported? at h
  split at h
  · rename_i heq
    cases h
    exact congrArg (·, e) heq
  · cases h

/-- The cycle that a project reports. -/
def listed? : Except ProjectError (List TaskId) → Option (List String)
  | .error (.expand (.cyclicInclude chain)) => some chain
  | _ => none

theorem of_listed {run : Except ProjectError (List TaskId) × Project}
    (h : listed? run.1 = some chain) : run = (.error (.expand (.cyclicInclude chain)), run.2) := by
  obtain ⟨result, p⟩ := run
  unfold listed? at h
  split at h
  · rename_i heq
    cases h
    exact congrArg (·, p) heq
  · cases h

/-- The file that includes itself is expanded. -/
def loopExpansion : Except ExpandError (List TaskId) × Expansion :=
  ((Call.task ⟨0⟩).expand loopSite (.ofMode false) 10).run.run ⟨loopLoad.2, []⟩

/-- A playbook that imports itself. -/
def ringDisk : Disk := ⟨.dir [("site.yml", .file (.text "- import_playbook: ./site.yml\n"))], []⟩

/-- The playbook as a project. -/
def ringProject : Project :=
  (Project.parse .empty ⟨[]⟩ (.ofMode false) ringDisk ⟨"."⟩ [⟨"site.yml"⟩]).2

/-- All tasks of it. -/
def ringTasks : Except ProjectError (List TaskId) × Project := ringProject.listTasks ringDisk

/-- A file that includes itself under another spelling is entered again, and so is a playbook that
imports itself. -/
theorem loop_reenters :
    (loopSite.disk.tree.Proper ∧ Reachable (· = loopSite) loopLoad.2 ∧
      loopExpansion = (.error (.cyclicInclude ["/loop.yml", "/loop.yml"]), loopExpansion.2) ∧
      ReentersIn loopSite (.ofMode false) loopLoad.2 [.task 10 ⟨0⟩] ["/loop.yml", "/loop.yml"]) ∧
    ringDisk.tree.Proper ∧
      ringTasks = (.error (.expand (.cyclicInclude ["/site.yml", "/site.yml"])), ringTasks.2) ∧
      ReentersIn (ringProject.site ringDisk) ringProject.templater ringProject.store
        (ringProject.playbooks.map
          (.playbook (expansionBound (ringProject.site ringDisk) ringProject.store)))
        ["/site.yml", "/site.yml"] := by
  have hloop : loopSite.disk.tree.Proper := by
    unfold loopSite
    exact ⟨⟨by decide, by decide, by decide⟩, trivial, trivial⟩
  have hring : ringDisk.tree.Proper := by
    unfold ringDisk
    exact ⟨⟨by decide, by decide, by decide⟩, trivial, trivial⟩
  have hreported : reported? loopExpansion.1 = some ["/loop.yml", "/loop.yml"] := by decide +kernel
  have hlisted : listed? ringTasks.1 = some ["/site.yml", "/site.yml"] := by decide +kernel
  have hfail :
      loopExpansion = (.error (.cyclicInclude ["/loop.yml", "/loop.yml"]), loopExpansion.2) :=
    of_reported hreported
  have htasks :
      ringTasks = (.error (.expand (.cyclicInclude ["/site.yml", "/site.yml"])), ringTasks.2) :=
    of_listed hlisted
  refine ⟨⟨hloop, reachable_loop, hfail, ?_⟩, hring, htasks, ?_⟩
  · rw [loopExpansion] at hfail
    exact (cyclic_reenters _).1 loopSite (.ofMode false) 10 loopLoad.2 (.task ⟨0⟩) hloop hfail
  · rw [ringTasks] at htasks
    exact (cyclic_reenters _).2 hring htasks

/-- A role with a colon in the name of its file of tasks, and one with a colon in its own. -/
def colonSite : Site where
  disk := ⟨.dir [
    ("roles", .dir [
      ("a", .dir [("tasks", .dir [
        ("b:c.yml", .file (.text "- include_role:\n    name: a:b\n    tasks_from: c\n"))])]),
      ("a:b", .dir [("tasks", .dir [("c.yml", .file (.text "- name: inner\n  debug:\n"))])])]),
    ("site.yml", .file (.text
      "- hosts: all\n  tasks:\n    - include_role:\n        name: a\n        tasks_from: b:c\n"))],
      []⟩
  root := ⟨"."⟩
  config := ⟨[]⟩

/-- Its playbook, loaded first. -/
def colonLoad : Except LoadError Playbook × Store :=
  (loadPlaybook colonSite none ⟨"site.yml"⟩).run.run .empty

/-- The play of the playbook is expanded. -/
def colonExpansion : Except ExpandError (List TaskId) × Expansion :=
  ((Call.play ⟨0⟩).expand colonSite (.ofMode false) 10).run.run ⟨colonLoad.2, []⟩

/-- **Two roles are taken for one another.** The first includes the second, which includes nothing,
and a cycle is reported: the two roles are in different directories, but their texts coincide. -/
theorem colon_confuses : Reachable (· = colonSite) colonLoad.2 ∧ colonLoad.2.graph.HasPlay ⟨0⟩ ∧
    colonExpansion = (.error (.cyclicInclude ["role:a:b:c", "role:a:b:c"]), colonExpansion.2) ∧
    (colonSite.findRole "a").toOption = some ⟨"./roles/a"⟩ ∧
    (colonSite.findRole "a:b").toOption = some ⟨"./roles/a:b"⟩ ∧
    (Target.role "a" "b:c").Confused colonSite.disk (.role "a:b" "c") := by
  have hreach : Reachable (· = colonSite) colonLoad.2 :=
    reachable_loadPlaybook colonSite ⟨"site.yml"⟩
  have hplay : colonLoad.2.graph.HasPlay ⟨0⟩ := by decide +kernel
  have hreport : reported? colonExpansion.1 = some ["role:a:b:c", "role:a:b:c"] := by decide +kernel
  exact ⟨hreach, hplay, of_reported hreport, by decide +kernel, by decide +kernel,
    .roles (by decide) (by decide)⟩

end Runlist
