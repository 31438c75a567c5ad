import Runlist.Proofs.Fields
import Runlist.Proofs.Step

/-!
# Documents are read in the order of keys

* `Json.Ordered`: every mapping in a value is sorted.
* `ordered_read`: the value of a document is ordered.
* `ordered_taskList`, `ordered_playbook`, `sorted_vars`: so are the variables and the mappings that
  it declares.
-/

namespace Runlist

/-! ## Values -/

mutual
/-- Every mapping in the value is sorted. -/
def Json.Ordered : Json → Prop
  | .array items => Json.OrderedItems items
  | .object entries => Fields.Sorted entries ∧ Json.OrderedEntries entries
  | _ => True

/-- Every mapping in the items is sorted. -/
def Json.OrderedItems : List Json → Prop
  | [] => True
  | item :: items => item.Ordered ∧ Json.OrderedItems items

/-- Every mapping in the values of the entries is sorted. -/
def Json.OrderedEntries : List (String × Json) → Prop
  | [] => True
  | (_, value) :: entries => value.Ordered ∧ Json.OrderedEntries entries
end

theorem orderedItems_iff {items : List Json} :
    Json.OrderedItems items ↔ ∀ item ∈ items, item.Ordered := by
  induction items with
  | nil => simp [Json.OrderedItems]
  | cons item items ih => simp [Json.OrderedItems, ih]

theorem orderedEntries_iff {entries : List (String × Json)} :
    Json.OrderedEntries entries ↔ ∀ e ∈ entries, e.2.Ordered := by
  induction entries with
  | nil => simp [Json.OrderedEntries]
  | cons e entries ih => simp [Json.OrderedEntries, ih]

theorem orderedEntries_ofList {entries : List (String × Json)} (h : Json.OrderedEntries entries) :
    Json.OrderedEntries (Fields.ofList entries) := by
  rw [orderedEntries_iff] at h
  unfold Fields.ofList
  suffices key : ∀ fields : Fields, Json.OrderedEntries fields →
      Json.OrderedEntries (entries.foldl (fun fields e => Fields.insert fields e.1 e.2) fields) from
    key [] trivial
  induction entries with
  | nil => exact fun _ h => h
  | cons e rest ih =>
    intro fields hf
    refine ih (fun e he => h e (List.mem_cons_of_mem _ he)) _ ?_
    rw [orderedEntries_iff] at hf ⊢
    intro e' he'
    rcases Fields.mem_insert he' with he' | he'
    · rw [he']; exact h e List.mem_cons_self
    · exact hf e' he'

mutual
theorem ordered_toJson (value : Yaml.Value) : value.toJson.Ordered := by
  match value with
  | .null | .bool _ | .int _ | .notANumber | .string _ => simp [Yaml.Value.toJson, Json.Ordered]
  | .float x =>
    unfold Yaml.Value.toJson
    split <;> simp [Json.Ordered]
  | .sequence items =>
    rw [Yaml.Value.toJson, Json.Ordered]; exact ordered_itemsToJson items
  | .mapping entries =>
    rw [Yaml.Value.toJson, Json.Ordered]
    exact ⟨Fields.sorted_ofList _, orderedEntries_ofList (ordered_entriesToJson entries)⟩
  | .tagged _ value => rw [Yaml.Value.toJson]; exact ordered_toJson value

theorem ordered_itemsToJson (items : List Yaml.Value) :
    Json.OrderedItems (Yaml.Value.itemsToJson items) := by
  match items with
  | [] => simp [Yaml.Value.itemsToJson, Json.OrderedItems]
  | x :: xs =>
    rw [Yaml.Value.itemsToJson, Json.OrderedItems]
    exact ⟨ordered_toJson x, ordered_itemsToJson xs⟩

theorem ordered_entriesToJson (entries : List (Yaml.Value × Yaml.Value)) :
    Json.OrderedEntries (Yaml.Value.entriesToJson entries) := by
  match entries with
  | [] => simp [Yaml.Value.entriesToJson, Json.OrderedEntries]
  | (k, x) :: rest =>
    rw [Yaml.Value.entriesToJson, Json.OrderedEntries]
    exact ⟨ordered_toJson x, ordered_entriesToJson rest⟩
end

/-- **The value of a document is ordered.** -/
theorem ordered_read {text : String} {d : Document} (h : Document.read? text = some d) :
    d.value.Ordered := by
  unfold Document.read? at h
  simp only [Option.bind_eq_bind] at h
  split at h
  · cases h; exact trivial
  · obtain ⟨lexemes, -, h⟩ := Option.bind_eq_some_iff.1 h
    obtain ⟨root, -, h⟩ := Option.bind_eq_some_iff.1 h
    cases root with
    | none => cases h; exact trivial
    | some root =>
      obtain ⟨value, -, h⟩ := Option.bind_eq_some_iff.1 h
      have := ordered_toJson value
      split at h <;> cases h <;> assumption

/-- The values of ordered entries are ordered. -/
theorem ordered_get? {entries : Fields} (h : Json.OrderedEntries entries) {k : String} {v : Json}
    (hv : Fields.get? entries k = some v) : v.Ordered := by
  induction entries with
  | nil => cases hv
  | cons e rest ih =>
    obtain ⟨key, value⟩ := e
    obtain ⟨hvalue, hrest⟩ := h
    rw [Fields.get?] at hv
    split at hv
    · cases hv; exact hvalue
    · exact ih hrest hv

/-! ## Declarations -/

mutual
/-- The variables and the mapping of a declared task are ordered, and so are those of the tasks of
its block. -/
def TaskDeclaration.Ordered : TaskDeclaration → Prop
  | ⟨_, _, vars, raw, block⟩ =>
    Fields.Sorted vars ∧ Json.Ordered (.object raw) ∧ TaskDeclaration.OrderedAll block

/-- The variables and mappings of declared tasks are ordered. -/
def TaskDeclaration.OrderedAll : List TaskDeclaration → Prop
  | [] => True
  | d :: ds => d.Ordered ∧ TaskDeclaration.OrderedAll ds
end

/-- The variables of a declared play are sorted, and its tasks are ordered. -/
structure PlayDeclaration.Ordered (d : PlayDeclaration) : Prop where
  vars : Fields.Sorted d.vars
  preTasks : TaskDeclaration.OrderedAll d.preTasks
  mainTasks : TaskDeclaration.OrderedAll d.mainTasks
  postTasks : TaskDeclaration.OrderedAll d.postTasks

namespace Declaration

open Yaml (Rows)

variable {rows : Rows} {location : Location}

theorem sorted_readVariables {value : Option Json} {vars : Variables}
    (hv : ∀ v, value = some v → v.Ordered) (h : readVariables value location = .ok vars) :
    Fields.Sorted vars := by
  unfold readVariables at h
  split at h
  · cases h; exact Fields.sorted_nil
  · cases h; exact Fields.sorted_nil
  · cases h; exact (hv _ rfl).1
  · cases h

/-- The variables at a key of a sorted mapping are sorted. -/
theorem sorted_readVariables_get? {entries : Fields} {key : String} {vars : Variables}
    (ho : Json.OrderedEntries entries)
    (h : readVariables (Fields.get? entries key) location = .ok vars) : Fields.Sorted vars :=
  sorted_readVariables (fun _ hv => ordered_get? ho hv) h

mutual
theorem ordered_tasks {rows : Rows} {location : Location} {value : Json} {ds : List TaskDeclaration}
    (ho : value.Ordered) (h : tasks rows location value = .ok ds) :
    TaskDeclaration.OrderedAll ds := by
  match value with
  | .null => rw [tasks] at h; cases h; exact trivial
  | .array items => rw [tasks] at h; exact ordered_taskItems ho h
  | .bool _ | .number _ | .string _ | .object _ => simp [tasks] at h

theorem ordered_taskItems {rows : Rows} {location : Location} {index : Nat} {items : List Json}
    {ds : List TaskDeclaration} (ho : Json.OrderedItems items)
    (h : taskItems rows location index items = .ok ds) : TaskDeclaration.OrderedAll ds := by
  match items with
  | [] => rw [taskItems] at h; cases h; exact trivial
  | item :: items =>
    rw [taskItems] at h
    obtain ⟨first, hfirst, h⟩ := except_bind_ok.1 h
    obtain ⟨rest, hrest, h⟩ := except_bind_ok.1 h
    cases h
    exact ⟨ordered_task ho.1 hfirst, ordered_taskItems ho.2 hrest⟩

theorem ordered_task {rows : Rows} {location : Location} {value : Json} {d : TaskDeclaration}
    (ho : value.Ordered) (h : task rows location value = .ok d) : d.Ordered := by
  match value with
  | .object entries =>
    rw [task] at h
    obtain ⟨block, hblock, h⟩ := except_bind_ok.1 h
    obtain ⟨name, -, h⟩ := except_bind_ok.1 h
    obtain ⟨vars, hvars, h⟩ := except_bind_ok.1 h
    cases h
    exact ⟨sorted_readVariables_get? ho.2 hvars, ho, ordered_taskBlock ho.2 hblock⟩
  | .null | .array _ | .bool _ | .number _ | .string _ => simp [task] at h

theorem ordered_taskBlock {rows : Rows} {location : Location} {entries : List (String × Json)}
    {ds : List TaskDeclaration} (ho : Json.OrderedEntries entries)
    (h : taskBlock rows location entries = .ok ds) : TaskDeclaration.OrderedAll ds := by
  match entries with
  | [] => rw [taskBlock] at h; cases h; exact trivial
  | (key, value) :: rest =>
    rw [taskBlock] at h
    split at h
    · exact ordered_tasks ho.1 h
    · exact ordered_taskBlock ho.2 h
end

theorem ordered_taskSection {entries : Fields} {name : String} {ds : List TaskDeclaration}
    (ho : Json.OrderedEntries entries) (h : taskSection entries rows location name = .ok ds) :
    TaskDeclaration.OrderedAll ds := by
  unfold taskSection at h
  split at h
  · rename_i hv; exact ordered_tasks (ordered_get? ho hv) h
  · cases h; exact trivial

theorem ordered_play {value : Json} {d : PlayDeclaration} (ho : value.Ordered)
    (h : play value rows location = .ok d) : d.Ordered := by
  unfold play at h
  split at h
  · obtain ⟨roles, -, h⟩ := except_bind_ok.1 h
    obtain ⟨varsFiles, -, h⟩ := except_bind_ok.1 h
    obtain ⟨name, -, h⟩ := except_bind_ok.1 h
    obtain ⟨hosts, -, h⟩ := except_bind_ok.1 h
    obtain ⟨preTasks, hpre, h⟩ := except_bind_ok.1 h
    obtain ⟨mainTasks, hmain, h⟩ := except_bind_ok.1 h
    obtain ⟨postTasks, hpost, h⟩ := except_bind_ok.1 h
    obtain ⟨vars, hvars, h⟩ := except_bind_ok.1 h
    cases h
    exact ⟨sorted_readVariables_get? ho.2 hvars, ordered_taskSection ho.2 hpre,
      ordered_taskSection ho.2 hmain, ordered_taskSection ho.2 hpost⟩
  · cases h

variable {text : String}

/-- A reading of a text is a reading of its document. -/
theorem ofText_ok {α : Type} {read : Document → Decoded α} {a : α} (h : ofText read text = .ok a) :
    ∃ d : Document, d.value.Ordered ∧ read d = .ok a := by
  unfold ofText at h
  split at h
  · rename_i d hd; exact ⟨d, ordered_read hd, h⟩
  · cases h

/-- **The variables and mappings of the tasks of a text are ordered.** -/
theorem ordered_taskList {ds : List TaskDeclaration} (h : ofText taskList text = .ok ds) :
    TaskDeclaration.OrderedAll ds := by
  obtain ⟨d, ho, h⟩ := ofText_ok h
  exact ordered_tasks ho h

/-- **The variables of the plays of a text are sorted.** -/
theorem ordered_playbook {ds : List PlayDeclaration} (h : ofText playbook text = .ok ds) :
    ∀ d ∈ ds, d.Ordered := by
  obtain ⟨d, ho, h⟩ := ofText_ok h
  unfold playbook at h
  split at h
  · rename_i items hitems
    rw [hitems] at ho
    intro d hd
    obtain ⟨⟨item, i⟩, hmem, hitem⟩ := exists_left (mapM_ok.1 h) hd
    exact ordered_play (orderedItems_iff.1 ho item (List.fst_mem_of_mem_zipIdx hmem)) hitem
  · cases h

/-- **The variables of a text are sorted.** -/
theorem sorted_vars {vs : Variables} (h : ofText vars text = .ok vs) : Fields.Sorted vs := by
  obtain ⟨d, ho, h⟩ := ofText_ok h
  refine sorted_readVariables (fun v hv => ?_) h
  cases hv
  exact ho

end Declaration

end Runlist
