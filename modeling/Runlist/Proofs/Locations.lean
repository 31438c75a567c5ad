import Runlist.Proofs.Forms

/-!
# Where a document is at fault

A document that does not declare what it should is blamed at a place, which is put together on the
way down to a value. Here the way is followed from the top of the document again.

* `Json.follow`, `Document.at?`: the value at the end of a way, and at a place of a document.
* `Location.entries`, `Entries.Reads`: what the items of a list are read as.
* `Flaw`: **a value is at fault at the end of a way**, and the items in front of it, at every depth,
  are not.
* `Flawed`: a failure that is a flaw in a value. `task_flawed`, `play_flawed`: so is every failure
  of a reading.
* `unexpected_located`: **the place at which a document is blamed is that of the value that is found
  there.** Only where a list of roles is expected, it is that of the play that has the value at its
  key.
-/

namespace Runlist

open Yaml (Rows)

/-! ## Ways -/

/-- **The value at the end of a way** into another one. -/
def Json.follow : Json → List Step → Option Json
  | value, [] => some value
  | value, .key name :: steps => do
    let entries ← value.fields?
    let v ← entries.get? name
    v.follow steps
  | value, .item i :: steps => do
    let items ← value.items?
    let v ← items[i]?
    v.follow steps

/-- The rows at the end of a way. -/
def Yaml.Rows.follow : Rows → List Step → Rows
  | rows, [] => rows
  | rows, .key name :: steps => (rows.key name).follow steps
  | rows, .item i :: steps => (rows.item i).follow steps

namespace Location

/-- A place at the end of a way from another one. -/
def below (l : Location) (steps : List Step) : Location := { l with steps := l.steps ++ steps }

/-- The way from the top of a document to a place. -/
def way (l : Location) : List Step :=
  match l.root with
  | .dependencies => .key "dependencies" :: l.steps
  | _ => l.steps

end Location

/-- The value at a place of a document. -/
def Document.at? (d : Document) (l : Location) : Option Json := d.value.follow l.way

/-- The rows at a place of a document. -/
def Document.rowsAt (d : Document) (l : Location) : Rows := d.rows.follow l.way

/-- What the items of a list are read as. -/
inductive Entries where
  | tasks
  | plays
  | roles

/-- What the items of a list at a place are read as. -/
def Location.entries (l : Location) : Entries :=
  if l.steps.getLast? = some (.key "roles") then .roles
  else match l.root, l.steps with
    | .plays, [] => .plays
    | .dependencies, [] => .roles
    | _, _ => .tasks

/-- **An item is read without a fault**, at its own place. -/
def Entries.Reads : Entries → Json → Rows → Location → Prop
  | .tasks, v, rows, l => ∃ d, Declaration.task rows l v = .ok d
  | .plays, v, rows, l => ∃ d, Declaration.play v rows l = .ok d
  | .roles, v, rows, l => ∃ d, Declaration.roleReference v rows l = .ok d

variable {value v found : Json} {rows : Rows} {location l : Location} {expected : Expectation}
  {steps : List Step}
  {entries : Fields} {items : List Json} {name : String} {i : Nat} {e : DecodeError}

@[simp] theorem Json.follow_key : (Json.object entries).follow (.key name :: steps) =
    (entries.get? name).bind (·.follow steps) := rfl

@[simp] theorem Json.follow_item :
    (Json.array items).follow (.item i :: steps) = items[i]?.bind (·.follow steps) := rfl

theorem Location.below_key :
    (location.key name).below steps = location.below (.key name :: steps) := by
  simp [Location.below, Location.key]

theorem Location.below_item :
    (location.item i).below steps = location.below (.item i :: steps) := by
  simp [Location.below, Location.item]

theorem Location.entries_key (h : name ≠ "roles") : (location.key name).entries = .tasks := by
  simp [Location.entries, Location.key, h]

theorem Location.entries_roles : (location.key "roles").entries = .roles := by
  simp [Location.entries, Location.key]

/-! ## Faults -/

/-- **A value is at fault at the end of a way**: what is found stands there, or, where a list of
roles is expected, at a key of what stands there. Of every list on the way, the items in front are
read. -/
structure Flaw (value : Json) (rows : Rows) (location : Location) (expected : Expectation)
    (steps : List Step) (found : Json) : Prop where
  reaches : expected ≠ .roleList → value.follow steps = some found
  roles : expected = .roleList → value.follow (steps ++ [.key "roles"]) = some found
  before : ∀ front i back, steps = front ++ .item i :: back →
      ∃ items, value.follow front = some (.array items) ∧
        ∀ j < i, ∀ item, items[j]? = some item → (location.below front).entries.Reads item
      (rows.follow (front ++ [.item j])) (location.below (front ++ [.item j]))

namespace Flaw

theorem here (h : expected ≠ .roleList) : Flaw value rows location expected [] value where
  reaches _ := rfl
  roles hroles := absurd hroles h
  before front i back hsteps := by cases front <;> cases hsteps

/-- A flaw in the value at a key. -/
theorem key (hv : entries.get? name = some v)
    (h : Flaw v (rows.key name) (location.key name) expected steps found) :
    Flaw (.object entries) rows location expected (.key name :: steps) found where
  reaches hexpected := by simp [hv, h.reaches hexpected]
  roles hexpected := by simp [hv, h.roles hexpected]
  before front i back hsteps := by
    cases front with
    | nil => cases hsteps
    | cons step front =>
      obtain ⟨hstep, hrest⟩ := List.cons.inj hsteps
      subst hstep
      obtain ⟨items, hitems, hread⟩ := h.before front i back hrest
      refine ⟨items, by simp [hv, hitems], fun j hj item hitem => ?_⟩
      have hread := hread j hj item hitem
      rw [Location.below_key, Location.below_key] at hread
      exact hread

/-- A flaw in an item, in front of which all are read. -/
theorem item (hv : items[i]? = some v)
    (hbefore : ∀ j < i, ∀ item, items[j]? = some item →
      location.entries.Reads item (rows.item j) (location.item j))
    (h : Flaw v (rows.item i) (location.item i) expected steps found) :
    Flaw (.array items) rows location expected (.item i :: steps) found where
  reaches hexpected := by simp [hv, h.reaches hexpected]
  roles hexpected := by simp [hv, h.roles hexpected]
  before front k back hsteps := by
    cases front with
    | nil =>
      obtain ⟨hstep, -⟩ := List.cons.inj hsteps
      cases hstep
      refine ⟨items, rfl, fun j hj item hitem => ?_⟩
      have hread := hbefore j hj item hitem
      have htop : location.below [] = location := by simp [Location.below]
      rw [htop]
      exact hread
    | cons step front =>
      obtain ⟨hstep, hrest⟩ := List.cons.inj hsteps
      subst hstep
      obtain ⟨items', hitems, hread⟩ := h.before front k back hrest
      refine ⟨items', by simp [hv, hitems], fun j hj item hitem => ?_⟩
      have hread := hread j hj item hitem
      rw [Location.below_item, Location.below_item] at hread
      exact hread

end Flaw

/-- **A failure is a flaw in a value**, if it is one of shape: its place is at the end of the way to
what is found. -/
def Flawed (value : Json) (rows : Rows) (location : Location) (e : DecodeError) : Prop :=
  ∀ expected l found, e = .unexpected expected l found →
    ∃ steps, l = location.below steps ∧ Flaw value rows location expected steps found

namespace Flawed

theorem here (h : expected ≠ .roleList) :
    Flawed value rows location (.unexpected expected location value) := by
  rintro _ _ _ ⟨⟩
  exact ⟨[], by simp [Location.below], .here h⟩

theorem invalid {error : ShapeError} : Flawed value rows location (.invalid l error) := by
  rintro _ _ _ ⟨⟩

theorem key (hv : entries.get? name = some v) (h : Flawed v (rows.key name) (location.key name) e) :
    Flawed (.object entries) rows location e := by
  intro expected l found he
  obtain ⟨steps, rfl, hflaw⟩ := h expected l found he
  exact ⟨.key name :: steps, Location.below_key, hflaw.key hv⟩

theorem item (hv : items[i]? = some v)
    (hbefore : ∀ j < i, ∀ item, items[j]? = some item →
      location.entries.Reads item (rows.item j) (location.item j))
    (h : Flawed v (rows.item i) (location.item i) e) : Flawed (.array items) rows location e := by
  intro expected l found he
  obtain ⟨steps, rfl, hflaw⟩ := h expected l found he
  exact ⟨.item i :: steps, Location.below_item, hflaw.item hv hbefore⟩

end Flawed

namespace Declaration

/-! ## Parts of tasks and plays -/

theorem readVariables_flawed {given : Option Json} (h : readVariables given l = .error e) :
    Flawed value rows location e := by
  unfold readVariables at h
  split at h <;> cases h
  exact .invalid

theorem readStrings_flawed {given : Option Json} (h : readStrings given l = .error e) :
    Flawed value rows location e := by
  unfold readStrings at h
  split at h
  · cases h
  · cases h
  · split at h <;> cases h
    exact .invalid

theorem readName_flawed (h : readName (entries.get? name) (location.key name) = .error e) :
    Flawed (.object entries) rows location e := by
  unfold readName at h
  split at h <;> cases h
  rename_i other hv
  exact Flawed.key hv (.here (by decide))

theorem roleReference_flawed (h : roleReference value rows location = .error e) :
    Flawed value rows location e := by
  unfold roleReference at h
  split at h
  · cases h
  · split at h
    · cases h
      exact .invalid
    · split at h <;> cases h
      exact .here (by decide)

/-- The items of a list are read in their order, and the first one that is not is to blame. -/
theorem eachItem_flawed {α : Type} {read : Json → Rows → Location → Decoded α}
    (hread : ∀ item rows location e, read item rows location = .error e →
      Flawed item rows location e)
    (hreads : ∀ item rows l a, read item rows l = .ok a → location.entries.Reads item rows l)
    (h : eachItem read rows location items = .error e) : Flawed (.array items) rows location e := by
  obtain ⟨front, ⟨item, i⟩, back, hsplit, hfront, hfail⟩ := mapM_error_iff.1 h
  -- the position of an item is the number of those in front of it
  have hat : items.zipIdx[front.length]? = some (item, i) := by rw [hsplit]; simp
  obtain ⟨hitem, rfl⟩ : items[front.length]? = some item ∧ front.length = i := by
    simpa [List.getElem?_zipIdx] using hat
  refine Flawed.item hitem (fun j hj other hother => ?_) (hread item _ _ e hfail)
  have hmem : (other, j) ∈ front := by
    have hnth : items.zipIdx[j]? = some (other, j) := by simp [List.getElem?_zipIdx, hother]
    rw [hsplit, List.getElem?_append_left hj] at hnth
    exact List.mem_of_getElem? hnth
  obtain ⟨a, ha⟩ := hfront _ hmem
  exact hreads other _ _ a ha

/-! ## Tasks -/

mutual
theorem tasks_flawed {rows : Rows} {location : Location} {value : Json}
    (hplace : location.entries = .tasks) (h : tasks rows location value = .error e) :
    Flawed value rows location e := by
  match value with
  | .null => simp [tasks] at h
  | .array items =>
    rw [tasks] at h
    obtain ⟨i, item, hitem, hbefore, hflawed⟩ := taskItems_flawed h
    rw [Nat.zero_add] at hflawed
    refine Flawed.item hitem (fun j hj other hother => ?_) hflawed
    rw [hplace]
    have hread := hbefore j hj other hother
    rw [Nat.zero_add] at hread
    exact hread
  | .bool _ | .number _ | .string _ | .object _ =>
    simp only [tasks, Except.error.injEq] at h
    exact h ▸ .here (by decide)

theorem taskItems_flawed {rows : Rows} {location : Location} {index : Nat} {items : List Json}
    (h : taskItems rows location index items = .error e) : ∃ i item, items[i]? = some item ∧
      (∀ j < i, ∀ item, items[j]? = some item →
        ∃ d, task (rows.item (index + j)) (location.item (index + j)) item = .ok d) ∧
      Flawed item (rows.item (index + i)) (location.item (index + i)) e := by
  match items with
  | [] => simp [taskItems] at h
  | item :: rest =>
    rw [taskItems] at h
    rcases except_bind_error.1 h with hitem | ⟨first, hfirst, h⟩
    · exact ⟨0, item, rfl, fun j hj => absurd hj (Nat.not_lt_zero j), task_flawed hitem⟩
    rcases except_bind_error.1 h with hrest | ⟨_, -, h⟩
    · obtain ⟨i, other, hother, hbefore, hflawed⟩ := taskItems_flawed hrest
      have hshift : ∀ j, index + 1 + j = index + (j + 1) := fun j => by omega
      rw [hshift] at hflawed
      refine ⟨i + 1, other, hother, fun j hj next hnext => ?_, hflawed⟩
      cases j with
      | zero =>
        cases hnext
        exact ⟨first, hfirst⟩
      | succ j =>
        rw [← hshift]
        exact hbefore j (Nat.lt_of_succ_lt_succ hj) next hnext
    · cases h

theorem task_flawed {rows : Rows} {location : Location} {value : Json}
    (h : task rows location value = .error e) : Flawed value rows location e := by
  match value with
  | .object entries =>
    rw [task] at h
    rcases except_bind_error.1 h with hblock | ⟨_, -, h⟩
    · obtain ⟨v, hv, hflawed⟩ := taskBlock_flawed (Location.entries_key (by decide)) hblock
      exact hflawed.key hv
    rcases except_bind_error.1 h with hname | ⟨_, -, h⟩
    · exact readName_flawed hname
    rcases except_bind_error.1 h with hvars | ⟨_, -, h⟩
    · exact readVariables_flawed hvars
    · cases h
  | .null | .array _ | .bool _ | .number _ | .string _ =>
    simp only [task, Except.error.injEq] at h
    exact h ▸ .here (by decide)

theorem taskBlock_flawed {rows : Rows} {location : Location} {entries : List (String × Json)}
    (hplace : location.entries = .tasks) (h : taskBlock rows location entries = .error e) :
    ∃ v, Fields.get? entries "block" = some v ∧ Flawed v rows location e := by
  match entries with
  | [] => simp [taskBlock] at h
  | (key, value) :: rest =>
    rw [taskBlock] at h
    rw [Fields.get?]
    split at h
    · rename_i hkey
      rw [if_pos hkey]
      exact ⟨value, rfl, tasks_flawed hplace h⟩
    · rename_i hkey
      rw [if_neg hkey]
      exact taskBlock_flawed hplace h
end

/-! ## Plays -/

theorem taskSection_flawed (hname : name ≠ "roles")
    (h : taskSection entries rows location name = .error e) :
    Flawed (.object entries) rows location e := by
  unfold taskSection at h
  split at h
  · rename_i v hv
    exact (tasks_flawed (Location.entries_key hname) h).key hv
  · cases h

/-- The roles of a play; what is not a list of them is told of at the place of the play. -/
theorem playRoles_flawed (h : playRoles entries rows location = .error e) :
    Flawed (.object entries) rows location e := by
  unfold playRoles at h
  split at h
  · cases h
  · cases h
  · rename_i items hv
    refine (eachItem_flawed (fun _ _ _ _ => roleReference_flawed)
      (fun item rows l a ha => ?_) h).key hv
    rw [Location.entries_roles]
    exact ⟨a, ha⟩
  · rename_i other _ _ hv
    cases h
    rintro _ _ _ ⟨⟩
    -- the place is that of the play, not the one below it
    refine ⟨[], by simp [Location.below], fun hexpected => absurd rfl hexpected,
      fun _ => ?_, fun front i back hsteps => ?_⟩
    · simp [hv, Json.follow]
    · cases front <;> cases hsteps

theorem play_flawed (h : play value rows location = .error e) : Flawed value rows location e := by
  unfold play at h
  split at h
  · -- what is read of a play is read in this order, and the first failure is told of
    rcases except_bind_error.1 h with hroles | ⟨_, -, h⟩
    · exact playRoles_flawed hroles
    rcases except_bind_error.1 h with hfiles | ⟨_, -, h⟩
    · exact readStrings_flawed hfiles
    rcases except_bind_error.1 h with hname | ⟨_, -, h⟩
    · exact readName_flawed hname
    rcases except_bind_error.1 h with hhosts | ⟨_, -, h⟩
    · exact readStrings_flawed hhosts
    rcases except_bind_error.1 h with hsection | ⟨_, -, h⟩
    · exact taskSection_flawed (by decide) hsection
    rcases except_bind_error.1 h with hsection | ⟨_, -, h⟩
    · exact taskSection_flawed (by decide) hsection
    rcases except_bind_error.1 h with hsection | ⟨_, -, h⟩
    · exact taskSection_flawed (by decide) hsection
    rcases except_bind_error.1 h with hvars | ⟨_, -, h⟩
    · exact readVariables_flawed hvars
    · cases h
  · cases h
    exact .here (by decide)

end Declaration

/-! ## Documents -/

open Declaration in
/-- A failure to read a document, whichever of the four readings it is. -/
def Document.FailsWith (d : Document) (e : DecodeError) : Prop :=
  taskList d = .error e ∨ playbook d = .error e ∨ roleMeta d = .error e ∨ vars d = .error e

/-- **A place of a document is where it is at fault.** The value that is found stands there, unless
a list of roles was expected: then it stands at the key `roles` of the play that stands there. Of
every list on the way, the items in front are read without a fault. -/
structure Document.FaultyAt (d : Document) (expected : Expectation) (location : Location)
    (found : Json) : Prop where
  reaches : expected ≠ .roleList → d.at? location = some found
  roles : expected = .roleList → d.at? (location.key "roles") = some found
  before : ∀ front i back, location.steps = front ++ .item i :: back → ∃ items,
    d.at? ⟨location.root, front⟩ = some (.array items) ∧ ∀ j < i, ∀ item, items[j]? = some item →
      (⟨location.root, front⟩ : Location).entries.Reads item
        (d.rowsAt ⟨location.root, front ++ [.item j]⟩)
        ⟨location.root, front ++ [.item j]⟩

/-- What is to blame in a value at the top is at fault in the document. -/
theorem Flawed.faultyAt {d : Document} {root : LocationRoot}
    (h : Flawed value rows ⟨root, []⟩ (.unexpected expected location found))
    (hvalue : ∀ steps, d.at? ⟨root, steps⟩ = value.follow steps)
    (hrows : ∀ steps, d.rowsAt ⟨root, steps⟩ = rows.follow steps) :
    d.FaultyAt expected location found := by
  obtain ⟨steps, rfl, hflaw⟩ := h expected location found rfl
  have htop : ∀ steps, (⟨root, []⟩ : Location).below steps = ⟨root, steps⟩ := fun _ => rfl
  rw [htop]
  refine ⟨fun hexpected => ?_, fun hexpected => ?_, fun front i back hsteps => ?_⟩
  · rw [hvalue]
    exact hflaw.reaches hexpected
  · rw [Location.key, hvalue]
    exact hflaw.roles hexpected
  · obtain ⟨items, hitems, hread⟩ := hflaw.before front i back hsteps
    refine ⟨items, (hvalue front).trans hitems, fun j hj item hitem => ?_⟩
    rw [hrows]
    exact hread j hj item hitem

/-- **Failures point at the fault.** Where a document is said not to have the shape that was
expected, following the place from the top of the document leads to the value that is found there;
and every task, play or reference to a role that stands in front of it, in the same list or in one
on the way, is read without a fault. Where a list of roles was expected, the place is that of the
play, and the value is the one at its key. -/
theorem unexpected_located {d : Document} (h : d.FailsWith (.unexpected expected location found)) :
    d.FaultyAt expected location found := by
  rcases h with h | h | h | h
  · exact (Declaration.tasks_flawed rfl h).faultyAt (fun _ => rfl) fun _ => rfl
  · unfold Declaration.playbook at h
    split at h
    · rename_i items hv
      have hreads : ∀ item rows l a, Declaration.play item rows l = .ok a →
          (⟨.plays, []⟩ : Location).entries.Reads item rows l := fun _ _ _ a ha => ⟨a, ha⟩
      have hflawed := Declaration.eachItem_flawed (fun _ _ _ _ => Declaration.play_flawed) hreads h
      exact hflawed.faultyAt (fun steps => by rw [← hv]; rfl) fun _ => rfl
    · cases h
      exact (.here (by decide) : Flawed d.value d.rows _ _).faultyAt (fun _ => rfl) fun _ => rfl
  · unfold Declaration.roleMeta at h
    split at h
    · cases h
    · rename_i entries hv
      have hat : ∀ v, Fields.get? entries "dependencies" = some v →
          ∀ steps, d.at? ⟨.dependencies, steps⟩ = v.follow steps := by
        intro v hget steps
        show d.value.follow (.key "dependencies" :: steps) = v.follow steps
        rw [hv, Json.follow_key, hget]
        rfl
      simp only at h
      split at h
      · cases h
      · cases h
      · rename_i items hget
        rcases except_bind_error.1 h with h | ⟨_, -, h⟩
        · have hreads : ∀ item rows l a, Declaration.roleReference item rows l = .ok a →
              (⟨.dependencies, []⟩ : Location).entries.Reads item rows l :=
            fun _ _ _ a ha => ⟨a, ha⟩
          have hflawed :=
            Declaration.eachItem_flawed (fun _ _ _ _ => Declaration.roleReference_flawed) hreads h
          exact hflawed.faultyAt (hat _ hget) fun _ => rfl
        · cases h
      · rename_i other _ _ hget
        cases h
        exact (Flawed.here (by decide)).faultyAt (hat _ hget) fun _ => rfl
    · cases h
      exact (.here (by decide) : Flawed d.value d.rows _ _).faultyAt (fun _ => rfl) fun _ => rfl
  · exact (Declaration.readVariables_flawed h : Flawed d.value d.rows ⟨.vars, []⟩ _).faultyAt
      (fun _ => rfl) fun _ => rfl

/-! ## Two playbooks -/

/-- What is expected, where, and what kind of value is found instead. -/
def unexpected? {α : Type} : Declaration.Decoded α → Option (Expectation × Location × String)
  | .error (.unexpected expected location found) => some (expected, location, found.kindText)
  | _ => none

theorem of_unexpected {α : Type} {result : Declaration.Decoded α} {kind : String}
    (h : unexpected? result = some (expected, location, kind)) :
    ∃ found, result = .error (.unexpected expected location found) ∧ found.kindText = kind := by
  unfold unexpected? at h
  split at h
  · cases h
    exact ⟨_, rfl, rfl⟩
  · cases h

/-- A number among the tasks of a block. -/
def blockDocument : Document :=
  (Document.read? "- hosts: all\n  tasks:\n    - block:\n        - ping:\n        - 5\n").getD .null

/-- The place of the number. -/
def blockPlace : Location := ⟨.plays, [.item 0, .key "tasks", .item 0, .key "block", .item 1]⟩

/-- The number is found where it stands, and the task in front of it is read. -/
theorem block_located : ∃ found, blockDocument.FailsWith (.unexpected .task blockPlace found) ∧
    found.kindText = "a number" ∧ blockDocument.FaultyAt .task blockPlace found := by
  have hfails : unexpected? (Declaration.playbook blockDocument) =
      some (.task, blockPlace, "a number") := by
    decide +kernel
  obtain ⟨found, hfails, hkind⟩ := of_unexpected hfails
  exact ⟨found, .inr (.inl hfails), hkind, unexpected_located (.inr (.inl hfails))⟩

/-- A name where a list of roles should be. -/
def rolesDocument : Document := (Document.read? "- hosts: all\n  roles: web\n").getD .null

/-- **The place of the play is told of**, which is a mapping, although a string is found: it stands
at the key of the roles. -/
theorem roles_misplaced :
    ∃ location found, rolesDocument.FailsWith (.unexpected .roleList location found) ∧
    location.text = "plays[0]" ∧ found.kindText = "a string" ∧
    (rolesDocument.at? location).map Json.kindText = some "a mapping" ∧
    (rolesDocument.at? (location.key "roles")).map Json.kindText = some "a string" := by
  obtain ⟨hfails, htext, hplay, hroles⟩ :
      unexpected? (Declaration.playbook rolesDocument) =
        some (.roleList, ⟨.plays, [.item 0]⟩, "a string") ∧
      (⟨.plays, [.item 0]⟩ : Location).text = "plays[0]" ∧
      (rolesDocument.at? ⟨.plays, [.item 0]⟩).map Json.kindText = some "a mapping" ∧
      (rolesDocument.at? ⟨.plays, [.item 0, .key "roles"]⟩).map Json.kindText =
        some "a string" := by
    decide +kernel
  obtain ⟨found, hfails, hkind⟩ := of_unexpected hfails
  exact ⟨_, found, .inr (.inl hfails), htext, hkind, hplay, hroles⟩

end Runlist
