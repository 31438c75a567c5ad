import Runlist.Proofs.Forest
import Runlist.Proofs.Loops

/-!
# The forms of playbooks

Which values are lists of well-formed plays is said here of the values themselves, and what the
declarations are that are read from them. Lines do not count for either.

* `TasksForm`, `Refers`, `PlayForm`: the forms of lists of tasks, of references to roles and of
  plays.
* `DeclaresPlay`: a play is declared as a mapping says.
* `Declaration.play_ok`, `Declaration.play_form`: a play is read exactly if it has its form, and so
  is each of its parts.
* `PlaybookText`, `Declaration.playbook_ok`, `Declaration.playbook_form`: **a text is read as a
  playbook exactly if it is a list of well-formed plays**, and what is declared then is what these
  say.
-/

namespace Runlist

/-! ## Forms -/

/-- A name is neither a list nor a mapping. -/
def NameForm : Option Json → Prop
  | some (.array _) => False
  | some (.object _) => False
  | _ => True

/-- Variables are a mapping, or missing. -/
def VarsForm : Option Json → Prop
  | none => True
  | some .null => True
  | some (.object _) => True
  | _ => False

/-- **The items of a list of tasks**: each is a mapping with a name, with variables, and with a
block of tasks again. -/
inductive TasksForm : List Json → Prop
  | nil : TasksForm []
  | cons {entries : Fields} {items rest : List Json} : NameForm (entries.get? "name") →
      VarsForm (entries.get? "vars") →
      taskMappings? (entries.get? "block") = some items → TasksForm items → TasksForm rest →
      TasksForm (.object entries :: rest)

/-- The strings of a value: several in a list, one by itself, or none. -/
def listedStrings? : Option Json → Option (List String)
  | none => some []
  | some .null => some []
  | some (.string s) => some [s]
  | some (.array items) => items.mapM Json.string?
  | some _ => none

/-- The strings of a value, between commas, unless it is missing. -/
def joinedStrings : Option Json → Option String
  | none => none
  | some .null => none
  | some value => (listedStrings? (some value)).map (",".intercalate ·)

/-- A string that may be missing. -/
def missingOrString? : Option Json → Option (Option String)
  | none => some none
  | some .null => some none
  | some (.string s) => some (some s)
  | some _ => none

/-- **A value refers to a role** by its name, or is a mapping with a name, that of the key `role`
first, and with variables. -/
inductive Refers : Json → String → Variables → Prop
  | plain {name : String} : Refers (.string name) name []
  | mapping {entries : Fields} {role name : Option String} {n : String} :
      missingOrString? (entries.get? "role") = some role →
      missingOrString? (entries.get? "name") = some name →
      role.or name = some n → VarsForm (entries.get? "vars") →
      Refers (.object entries) n (declaredVars (entries.get? "vars"))

/-- The files of variables of a play, under either of two keys. -/
def varsFilesOf (entries : Fields) : Option Json :=
  (entries.get? "vars_files").or (entries.get? "var_files")

/-- The section of a play's tasks is a list of tasks. -/
def SectionForm (entries : Fields) (key : String) : Prop :=
  ∃ items, taskMappings? (entries.get? key) = some items ∧ TasksForm items

/-- **The mapping of a play.** -/
structure PlayForm (entries : Fields) : Prop where
  name : NameForm (entries.get? "name")
  hosts : (listedStrings? (entries.get? "hosts")).isSome
  vars : VarsForm (entries.get? "vars")
  varsFiles : (listedStrings? (varsFilesOf entries)).isSome
  preTasks : SectionForm entries "pre_tasks"
  mainTasks : SectionForm entries "tasks"
  postTasks : SectionForm entries "post_tasks"
  roles : ∃ items, taskMappings? (entries.get? "roles") = some items ∧
      ∀ item ∈ items, ∃ name vars, Refers item name vars

/-- What is declared is what the section of a play says. -/
def DeclaresSection (ds : List TaskDeclaration) (entries : Fields) (key : String) : Prop :=
  ∃ items, taskMappings? (entries.get? key) = some items ∧ Declares ds items

/-- **A play is declared as a mapping says.** -/
structure DeclaresPlay (d : PlayDeclaration) (entries : Fields) : Prop where
  name : d.name = declaredName (entries.get? "name")
  hosts : d.hosts = joinedStrings (entries.get? "hosts")
  vars : d.vars = declaredVars (entries.get? "vars")
  varsFiles : listedStrings? (varsFilesOf entries) = some d.varsFiles
  raw : d.raw = entries
  preTasks : DeclaresSection d.preTasks entries "pre_tasks"
  mainTasks : DeclaresSection d.mainTasks entries "tasks"
  postTasks : DeclaresSection d.postTasks entries "post_tasks"
  roles : ∃ items, taskMappings? (entries.get? "roles") = some items ∧
    List.Forall₂ (fun (r : RoleReference) item => Refers item r.name r.vars) d.roles items

/-- **A text is a list of well-formed plays**, which are given. -/
def PlaybookText (text : String) (plays : List Fields) : Prop :=
  ∃ document, Document.read? text = some document ∧ document.value = .array (plays.map .object) ∧
    ∀ entries ∈ plays, PlayForm entries

namespace Declaration

open Yaml (Rows)

variable {rows : Rows} {location : Location} {value : Option Json}

/-! ## Parts -/

theorem readName_form : (∃ name, readName value location = .ok name) ↔ NameForm value := by
  have hfails : ∀ v, readName (some v) location = .error (.unexpected .string location v) →
      ((∃ name, readName (some v) location = .ok name) ↔ False) := by
    rintro v hread
    rw [hread]
    exact ⟨fun ⟨_, h⟩ => (by cases h), False.elim⟩
  cases value with
  | none => exact ⟨fun _ => trivial, fun _ => ⟨_, rfl⟩⟩
  | some v =>
    cases v with
    | array items => exact hfails _ rfl
    | object entries => exact hfails _ rfl
    | _ => exact ⟨fun _ => trivial, fun _ => ⟨_, rfl⟩⟩

theorem readVariables_form :
    (∃ vars, readVariables value location = .ok vars) ↔ VarsForm value := by
  cases value with
  | none => exact ⟨fun _ => trivial, fun _ => ⟨_, rfl⟩⟩
  | some v =>
    cases v with
    | null => exact ⟨fun _ => trivial, fun _ => ⟨_, rfl⟩⟩
    | object entries => exact ⟨fun _ => trivial, fun _ => ⟨_, rfl⟩⟩
    | _ => exact ⟨fun ⟨_, h⟩ => (by cases h), False.elim⟩

theorem oneOrMany_eq {v : Json} (h : v ≠ .null) : oneOrMany? v = listedStrings? (some v) := by
  cases v with
  | null => exact absurd rfl h
  | _ => rfl

theorem joinedStrings_eq {v : Json} (h : v ≠ .null) :
    joinedStrings (some v) = (listedStrings? (some v)).map (",".intercalate ·) := by
  cases v with
  | null => exact absurd rfl h
  | _ => rfl

/-- Strings are read as they are listed. -/
theorem readStrings_ok {strings : Option (List String)}
    (h : readStrings value location = .ok strings) :
    listedStrings? value = some (strings.getD []) ∧
    strings.map (",".intercalate ·) = joinedStrings value := by
  unfold readStrings at h
  split at h
  · cases h; exact ⟨rfl, rfl⟩
  · cases h; exact ⟨rfl, rfl⟩
  · rename_i v hnull
    rw [oneOrMany_eq hnull] at h
    split at h
    · rename_i items hitems
      cases h
      rw [joinedStrings_eq hnull, hitems]
      exact ⟨rfl, rfl⟩
    · cases h

theorem readStrings_form (h : (listedStrings? value).isSome) (location : Location) :
    ∃ strings, readStrings value location = .ok strings := by
  unfold readStrings
  split
  · exact ⟨_, rfl⟩
  · exact ⟨_, rfl⟩
  · rename_i v hnull
    obtain ⟨strings, hstrings⟩ := Option.isSome_iff_exists.1 h
    rw [oneOrMany_eq hnull, hstrings]
    exact ⟨_, rfl⟩

/-! ## References -/

theorem optionalString_missing : optionalString? (value.getD .null) = missingOrString? value := by
  cases value with
  | none => rfl
  | some v => cases v <;> rfl

theorem optionalVariables_ok {vars : Option Variables}
    (h : optionalVariables? (value.getD .null) = some vars) :
    VarsForm value ∧ vars.getD [] = declaredVars value := by
  cases value with
  | none => cases h; exact ⟨trivial, rfl⟩
  | some v => cases v <;> cases h <;> exact ⟨trivial, rfl⟩

theorem optionalVariables_form (h : VarsForm value) :
    ∃ vars, optionalVariables? (value.getD .null) = some vars ∧
      vars.getD [] = declaredVars value := by
  cases value with
  | none => exact ⟨none, rfl, rfl⟩
  | some v =>
    cases v with
    | null => exact ⟨none, rfl, rfl⟩
    | object entries => exact ⟨some entries, rfl, rfl⟩
    | _ => exact h.elim

theorem roleReference_ok {v : Json} {r : RoleReference}
    (h : roleReference v rows location = .ok r) : Refers v r.name r.vars := by
  unfold roleReference at h
  split at h
  · cases h; exact .plain
  · split at h
    · cases h
    · rename_i v _ _ role name vars hfields
      split at h
      · rename_i n hname
        cases h
        unfold roleFields? at hfields
        split at hfields
        · rename_i entries
          obtain ⟨role', hrole, hfields⟩ := Option.bind_eq_some_iff.1 hfields
          obtain ⟨name', hname', hfields⟩ := Option.bind_eq_some_iff.1 hfields
          obtain ⟨vars', hvars, hfields⟩ := Option.bind_eq_some_iff.1 hfields
          cases hfields
          obtain ⟨hform, hdeclared⟩ := optionalVariables_ok hvars
          rw [optionalString_missing] at hrole hname'
          simp only [hdeclared]
          exact .mapping hrole hname' hname hform
        · cases hfields
      · cases h

theorem roleReference_form {v : Json} {n : String} {vars : Variables} (h : Refers v n vars) :
    ∃ r, roleReference v rows location = .ok r := by
  cases h with
  | plain => exact ⟨_, rfl⟩
  | @mapping entries role name n hrole hname hn hform =>
    obtain ⟨vars, hvars, -⟩ := optionalVariables_form hform
    have hfields : roleFields? (.object entries) = some (role, name, vars) := by
      unfold roleFields?
      simp only [optionalString_missing, hrole, hname, hvars]
      rfl
    unfold roleReference
    simp only [hfields, hn]
    exact ⟨_, rfl⟩

/-! ## Items -/

section Items

variable {α : Type} {read : Json → Rows → Location → Decoded α} {items : List Json}

/-- Each item is read, at its own place. -/
theorem eachItem_ok {results : List α} (h : eachItem read rows location items = .ok results) :
    List.Forall₂ (fun a item => ∃ rows location, read item rows location = .ok a)
      results items := by
  unfold eachItem at h
  have hread := mapM_ok.1 h
  have hitems : items = items.zipIdx.map (·.1) := by rw [List.zipIdx_map_fst]
  rw [hitems, List.forall₂_map_right_iff]
  exact hread.flip.imp fun _ item hitem => ⟨rows.item item.2, location.item item.2, hitem⟩

theorem eachItem_form (h : ∀ item ∈ items, ∀ rows location, ∃ a, read item rows location = .ok a) :
    ∃ results, eachItem read rows location items = .ok results := by
  cases hread : eachItem read rows location items with
  | ok results => exact ⟨results, rfl⟩
  | error e =>
    unfold eachItem at hread
    obtain ⟨⟨item, i⟩, hmem, e', hfail⟩ := mapM_error.1 ⟨e, hread⟩
    obtain ⟨a, hok⟩ := h item (List.fst_mem_of_mem_zipIdx hmem) (rows.item i) (location.item i)
    simp only [hok] at hfail
    cases hfail

end Items

/-! ## Tasks -/

mutual
theorem tasks_form {rows : Rows} {location : Location} {v : Json} {ds : List TaskDeclaration}
    (h : tasks rows location v = .ok ds) : ∃ items, taskMappings? (some v) = some items ∧
    TasksForm items := by
  match v with
  | .null => exact ⟨[], rfl, .nil⟩
  | .array items => rw [tasks] at h; exact ⟨items, rfl, taskItems_form h⟩
  | .bool _ | .number _ | .string _ | .object _ => simp [tasks] at h

theorem taskItems_form {rows : Rows} {location : Location} {index : Nat} {items : List Json}
    {ds : List TaskDeclaration} (h : taskItems rows location index items = .ok ds) :
    TasksForm items := by
  match items with
  | [] => exact .nil
  | .object entries :: rest =>
    rw [taskItems] at h
    obtain ⟨first, hfirst, h⟩ := except_bind_ok.1 h
    obtain ⟨others, hothers, -⟩ := except_bind_ok.1 h
    rw [task] at hfirst
    obtain ⟨block, hblock, hfirst⟩ := except_bind_ok.1 hfirst
    obtain ⟨name, hname, hfirst⟩ := except_bind_ok.1 hfirst
    obtain ⟨vars, hvars, -⟩ := except_bind_ok.1 hfirst
    obtain ⟨items, hitems, hform⟩ := taskBlock_form hblock
    exact .cons (readName_form.1 ⟨name, hname⟩) (readVariables_form.1 ⟨vars, hvars⟩) hitems hform
      (taskItems_form hothers)
  | .null :: _ | .bool _ :: _ | .number _ :: _ | .string _ :: _ | .array _ :: _ =>
    rw [taskItems] at h
    obtain ⟨first, hfirst, -⟩ := except_bind_ok.1 h
    simp [task] at hfirst

theorem taskBlock_form {rows : Rows} {location : Location} {entries : List (String × Json)}
    {ds : List TaskDeclaration} (h : taskBlock rows location entries = .ok ds) :
    ∃ items, taskMappings? (Fields.get? entries "block") = some items ∧ TasksForm items := by
  match entries with
  | [] => exact ⟨[], rfl, .nil⟩
  | (key, value) :: rest =>
    rw [taskBlock] at h
    rw [Fields.get?]
    split at h
    · rename_i hkey
      rw [if_pos hkey]
      exact tasks_form h
    · rename_i hkey
      rw [if_neg hkey]
      exact taskBlock_form h
end

/-- The block of a task is read as a list of tasks. -/
theorem taskBlock_eq (rows : Rows) (location : Location) (entries : List (String × Json)) :
    taskBlock rows location entries =
      match Fields.get? entries "block" with
      | some v => tasks rows location v
      | none => .ok [] := by
  induction entries with
  | nil => rw [taskBlock]; rfl
  | cons entry rest ih =>
    obtain ⟨key, v⟩ := entry
    rw [taskBlock, Fields.get?]
    by_cases hkey : key = "block"
    · rw [if_pos hkey, if_pos hkey]
    · rw [if_neg hkey, if_neg hkey, ih]

/-- A list of tasks, or what stands for none, is read as its items are. -/
theorem tasks_of_items {items : List Json} (hitems : taskMappings? value = some items)
    (h : ∀ rows location index, ∃ ds, taskItems rows location index items = .ok ds) (rows : Rows)
    (location : Location) :
    ∃ ds, (match value with
      | some v => tasks rows location v
      | none => .ok []) = .ok ds := by
  cases value with
  | none => exact ⟨[], rfl⟩
  | some v =>
    cases v with
    | null => exact ⟨[], by simp only [tasks]⟩
    | array items' =>
      cases hitems
      obtain ⟨ds, hds⟩ := h rows location 0
      exact ⟨ds, by simp only [tasks, hds]⟩
    | _ => cases hitems

/-- **Items that have the form of tasks are read.** -/
theorem taskItems_of_form {items : List Json} (h : TasksForm items) (rows : Rows)
    (location : Location) (index : Nat) : ∃ ds, taskItems rows location index items = .ok ds := by
  induction h generalizing rows location index with
  | nil => exact ⟨[], by rw [taskItems]⟩
  | @cons entries items rest hname hvars hitems _ _ ihblock ihrest =>
    obtain ⟨others, hothers⟩ := ihrest rows location (index + 1)
    obtain ⟨block, hblock⟩ := tasks_of_items hitems ihblock ((rows.item index).key "block")
      ((location.item index).key "block")
    obtain ⟨name, hname⟩ := readName_form.2 hname
    obtain ⟨vars, hvars⟩ := readVariables_form.2 hvars
    refine ⟨⟨(rows.item index).range, name, vars, entries, block⟩ :: others, ?_⟩
    rw [taskItems]
    refine except_bind_ok.2 ⟨_, ?_, except_bind_ok.2 ⟨others, hothers, rfl⟩⟩
    rw [task, taskBlock_eq]
    exact except_bind_ok.2
      ⟨block, hblock, except_bind_ok.2 ⟨name, hname, except_bind_ok.2 ⟨vars, hvars, rfl⟩⟩⟩

/-! ## Plays -/

section Plays

variable {entries : Fields} {key : String}

theorem taskSection_ok {ds : List TaskDeclaration}
    (h : taskSection entries rows location key = .ok ds) :
    SectionForm entries key ∧ DeclaresSection ds entries key := by
  unfold taskSection at h
  unfold SectionForm DeclaresSection
  split at h
  · rename_i v hv
    rw [hv]
    exact ⟨tasks_form h, declares_tasks h⟩
  · rename_i hmissing
    rw [hmissing]
    cases h
    exact ⟨⟨[], rfl, .nil⟩, [], rfl, .nil⟩

theorem taskSection_form (h : SectionForm entries key) (rows : Rows) (location : Location) :
    ∃ ds, taskSection entries rows location key = .ok ds := by
  obtain ⟨items, hitems, hform⟩ := h
  exact tasks_of_items hitems (taskItems_of_form hform) (rows.key key) (location.key key)

theorem playRoles_ok {rs : List RoleReference} (h : playRoles entries rows location = .ok rs) :
    ∃ items, taskMappings? (entries.get? "roles") = some items ∧
      List.Forall₂ (fun (r : RoleReference) item => Refers item r.name r.vars) rs items := by
  unfold playRoles at h
  split at h
  · rename_i hmissing
    cases h
    exact ⟨[], by rw [hmissing]; rfl, .nil⟩
  · rename_i hnull
    cases h
    exact ⟨[], by rw [hnull]; rfl, .nil⟩
  · rename_i items hitems
    refine ⟨items, by rw [hitems]; rfl, (eachItem_ok h).imp fun r item hread => ?_⟩
    obtain ⟨rows, location, hread⟩ := hread
    exact roleReference_ok hread
  · cases h

theorem playRoles_form {items : List Json}
    (hitems : taskMappings? (entries.get? "roles") = some items)
    (h : ∀ item ∈ items, ∃ name vars, Refers item name vars) (rows : Rows) (location : Location) :
    ∃ rs, playRoles entries rows location = .ok rs := by
  unfold playRoles
  split
  · exact ⟨[], rfl⟩
  · exact ⟨[], rfl⟩
  · rename_i hlist
    rw [hlist] at hitems
    cases hitems
    refine eachItem_form fun item hitem rows location => ?_
    obtain ⟨name, vars, hrefers⟩ := h item hitem
    exact roleReference_form hrefers
  · rename_i v hnull hlist hv
    rw [hv] at hitems
    cases v with
    | null => exact (hnull rfl).elim
    | array items => exact (hlist items rfl).elim
    | _ => cases hitems

/-- **A play that is read is well-formed**, and what is declared is what its mapping says. -/
theorem play_ok {v : Json} {d : PlayDeclaration} (h : play v rows location = .ok d) :
    ∃ entries, v = .object entries ∧ PlayForm entries ∧ DeclaresPlay d entries := by
  unfold play at h
  split at h
  · rename_i entries
    obtain ⟨roles, hroles, h⟩ := except_bind_ok.1 h
    obtain ⟨varsFiles, hvarsFiles, h⟩ := except_bind_ok.1 h
    obtain ⟨name, hname, h⟩ := except_bind_ok.1 h
    obtain ⟨hosts, hhosts, h⟩ := except_bind_ok.1 h
    obtain ⟨preTasks, hpre, h⟩ := except_bind_ok.1 h
    obtain ⟨mainTasks, hmain, h⟩ := except_bind_ok.1 h
    obtain ⟨postTasks, hpost, h⟩ := except_bind_ok.1 h
    obtain ⟨vars, hvars, h⟩ := except_bind_ok.1 h
    cases h
    obtain ⟨hlisted, -⟩ := readStrings_ok hvarsFiles
    obtain ⟨hhostsListed, hjoined⟩ := readStrings_ok hhosts
    obtain ⟨hpreForm, hpreTasks⟩ := taskSection_ok hpre
    obtain ⟨hmainForm, hmainTasks⟩ := taskSection_ok hmain
    obtain ⟨hpostForm, hpostTasks⟩ := taskSection_ok hpost
    obtain ⟨items, hitems, hrefer⟩ := playRoles_ok hroles
    refine ⟨entries, rfl, ?_, ?_⟩
    · refine ⟨readName_form.1 ⟨name, hname⟩, ?_, readVariables_form.1 ⟨vars, hvars⟩, ?_, hpreForm,
        hmainForm, hpostForm,
        items, hitems, fun item hitem => ?_⟩
      · rw [hhostsListed]; rfl
      · rw [varsFilesOf, hlisted]; rfl
      · obtain ⟨r, -, href⟩ := exists_left hrefer hitem
        exact ⟨r.name, r.vars, href⟩
    · exact ⟨readName_ok hname, hjoined, readVariables_ok hvars, hlisted, rfl, hpreTasks,
        hmainTasks, hpostTasks, items,
        hitems, hrefer⟩
  · cases h

/-- **A well-formed play is read.** -/
theorem play_form (h : PlayForm entries) : ∃ d, play (.object entries) rows location = .ok d := by
  obtain ⟨items, hitems, hrefer⟩ := h.roles
  obtain ⟨roles, hroles⟩ := playRoles_form hitems hrefer rows location
  obtain ⟨varsFiles, hvarsFiles⟩ := readStrings_form h.varsFiles (location.key "vars_files")
  obtain ⟨name, hname⟩ := readName_form.2 h.name
  obtain ⟨hosts, hhosts⟩ := readStrings_form h.hosts (location.key "hosts")
  obtain ⟨preTasks, hpre⟩ := taskSection_form h.preTasks rows location
  obtain ⟨mainTasks, hmain⟩ := taskSection_form h.mainTasks rows location
  obtain ⟨postTasks, hpost⟩ := taskSection_form h.postTasks rows location
  obtain ⟨vars, hvars⟩ := readVariables_form.2 h.vars
  unfold play
  exact ⟨_, except_bind_ok.2 ⟨roles, hroles, except_bind_ok.2 ⟨varsFiles, hvarsFiles,
    except_bind_ok.2 ⟨name, hname, except_bind_ok.2 ⟨hosts, hhosts,
    except_bind_ok.2 ⟨preTasks, hpre, except_bind_ok.2 ⟨mainTasks, hmain,
    except_bind_ok.2 ⟨postTasks, hpost, except_bind_ok.2 ⟨vars, hvars, rfl⟩⟩⟩⟩⟩⟩⟩⟩⟩

end Plays

/-! ## Playbooks -/

section Playbooks

variable {text : String}

/-- **A text that is read as a playbook is a list of well-formed plays**, and what is declared is
what these say. -/
theorem playbook_ok {ds : List PlayDeclaration} (h : ofText playbook text = .ok ds) :
    ∃ plays, PlaybookText text plays ∧ List.Forall₂ DeclaresPlay ds plays := by
  unfold ofText at h
  split at h
  · rename_i document hdocument
    unfold playbook at h
    split at h
    · rename_i items hitems
      have hread : List.Forall₂
          (fun d item => ∃ entries, (PlayForm entries ∧ DeclaresPlay d entries) ∧
            .object entries = item)
          ds items := (eachItem_ok h).imp fun d item hitem => by
        obtain ⟨rows, location, hitem⟩ := hitem
        obtain ⟨entries, hobject, hform, hdeclares⟩ := play_ok hitem
        exact ⟨entries, ⟨hform, hdeclares⟩, hobject.symm⟩
      obtain ⟨plays, hplays, rfl⟩ := forall₂_through hread
      refine ⟨plays, ⟨document, hdocument, hitems, fun entries hmem => ?_⟩,
        hplays.imp fun _ _ hplay => hplay.2⟩
      obtain ⟨d, -, hform, -⟩ := exists_left hplays hmem
      exact hform
    · cases h
  · cases h

/-- **A list of well-formed plays is read as a playbook.** -/
theorem playbook_form {plays : List Fields} (h : PlaybookText text plays) :
    ∃ ds, ofText playbook text = .ok ds := by
  obtain ⟨document, hdocument, hvalue, hform⟩ := h
  unfold ofText
  rw [hdocument]
  simp only [playbook, hvalue]
  refine eachItem_form fun item hitem rows location => ?_
  obtain ⟨entries, hentries, rfl⟩ := List.mem_map.1 hitem
  exact play_form (hform entries hentries)

end Playbooks

end Declaration

end Runlist
