import Mathlib.Data.List.Find
import Mathlib.Data.List.Forall2
import Runlist.Proofs.Fields
import Runlist.Proofs.Spelling.Twin
import Runlist.Load.Playbook

/-!
# Spellings of a directive

A directive has four keys, and behind its key stands a text, or a mapping with that text as its only
parameter. Two documents are alike if they declare the same but for the spelling of directives; what
stands below one of them may then be on other lines.

* `Inclusion`: what a directive includes, with its keys and its parameter.
* `Respelled`: **two mappings that are equal but for the spelling of one directive.**
  `Fields.Alike`: the directive counts in both of them or in neither.
* `Fields.Alike.spellings`: which directive counts, in both.
* `TaskDeclaration.Alike`, `PlayDeclaration.Alike`, `TextAlike`: tasks, plays and documents that are
  alike.
-/

namespace Runlist

/-- What a directive includes. -/
inductive Inclusion where
  | tasks
  | role
deriving DecidableEq, Repr

/-- The keys of the directive. -/
def Inclusion.keys : Inclusion → List String
  | tasks => Action.taskIncludes
  | role => Action.roleIncludes

/-- The parameter for which a text by itself stands. -/
def Inclusion.parameter : Inclusion → String
  | tasks => "file"
  | role => "name"

/-- **A way to write what is included**: the text by itself, or a mapping with one parameter. -/
inductive WritesText (parameter text : String) : Json → Prop
  | free : WritesText parameter text (.string text)
  | mapping : WritesText parameter text (.object [(parameter, .string text)])

/-! ## Mappings -/

/-- **Two mappings that are equal but for the spelling of one directive**, which has one key here
and another one, or the same, there. -/
structure Respelled (inclusion : Inclusion) (key key' : String) (raw raw' : Fields) : Prop where
  mem : key ∈ inclusion.keys
  mem' : key' ∈ inclusion.keys
  text : ∃ text value value', raw.get? key = some value ∧ raw'.get? key' = some value' ∧
    WritesText inclusion.parameter text value ∧ WritesText inclusion.parameter text value'
  rest : raw.erase key = raw'.erase key'

/-- The keys at which a play has tasks. -/
def playSections : List String := ["pre_tasks", "tasks", "post_tasks"]

/-- Two mappings of plays that are equal but for the tasks in them. A file of tasks may hold such
mappings too: what they declare is read as a task. -/
structure Fields.SamePlay (raw raw' : Fields) : Prop where
  tasks : ∃ key ∈ playSections, raw.has key
  rest : ∀ key, key ∉ playSections → raw'.get? key = raw.get? key

/-- The first of some keys that a mapping has. -/
def Fields.first? (raw : Fields) (keys : List String) : Option String :=
  keys.find? fun key => raw.has key

/-- **Two mappings that are alike**: equal, or equal but for the spelling of one directive, which
counts in both of them or in neither; or they are those of plays. -/
inductive Fields.Alike : Fields → Fields → Prop
  | same (raw : Fields) : Fields.Alike raw raw
  | respelled {inclusion : Inclusion} {key key' : String} {raw raw' : Fields} :
      Respelled inclusion key key' raw raw' →
      (raw.first? inclusion.keys = some key ↔ raw'.first? inclusion.keys = some key') →
      Fields.Alike raw raw'
  | play {raw raw' : Fields} : raw.SamePlay raw' → Fields.Alike raw raw'

/-- **The directive that counts**, in two mappings: none, the same one, or one in two spellings. -/
inductive Spellings (inclusion : Inclusion) (raw raw' : Fields) :
    Option String → Option String → Prop
  | none : Spellings inclusion raw raw' none none
  | same {key : String} : key ∈ inclusion.keys → raw'.get? key = raw.get? key →
      Spellings inclusion raw raw' (some key) (some key)
  | respelled {key key' text : String} {value value' : Json} : key ∈ inclusion.keys →
      key' ∈ inclusion.keys →
      raw.get? key = some value → raw'.get? key' = some value' →
      WritesText inclusion.parameter text value →
      WritesText inclusion.parameter text value' →
      Spellings inclusion raw raw' (some key) (some key')

namespace Fields

variable {raw raw' : Fields} {key k : String} {keys : List String}

theorem get?_erase (h : k ≠ key) : (raw.erase key).get? k = raw.get? k := by
  induction raw with
  | nil => rfl
  | cons entry rest ih =>
    obtain ⟨name, value⟩ := entry
    unfold erase at ih ⊢
    by_cases hname : name = key
    · have hk : name ≠ k := fun hk => h (hk.symm.trans hname)
      rw [List.filter_cons_of_neg (by simpa using hname), ih, get?, if_neg hk]
    · rw [List.filter_cons_of_pos (by simpa using hname), get?, get?, ih]

theorem has_erase (h : k ≠ key) :
    (raw.erase key).has k = raw.has k := by rw [has, has, get?_erase h]

theorem first?_some (h : raw.first? keys = some key) : key ∈ keys ∧ raw.has key :=
  ⟨List.mem_of_find?_eq_some h, List.find?_some h⟩

/-- A key that does not come first might as well be missing. -/
theorem first?_erase (h : raw.first? keys ≠ some key) :
    (raw.erase key).first? keys = raw.first? keys := by
  unfold first? at h ⊢
  induction keys with
  | nil => rfl
  | cons k rest ih =>
    by_cases hk : k = key
    · subst hk
      have herased : (raw.erase k).has k = false := by
        unfold has erase
        rw [get?_eq_none fun e he => by simpa using (List.mem_filter.1 he).2]
        rfl
      by_cases hhas : raw.has k
      · exact absurd (List.find?_cons_of_pos hhas) h
      · rw [List.find?_cons_of_neg (by rw [herased]; decide), List.find?_cons_of_neg hhas]
        rw [List.find?_cons_of_neg hhas] at h
        exact ih h
    · by_cases hhas : raw.has k
      · rw [List.find?_cons_of_pos hhas, List.find?_cons_of_pos (by rw [has_erase hk]; exact hhas)]
      · rw [List.find?_cons_of_neg hhas] at h ⊢
        rw [List.find?_cons_of_neg (by rw [has_erase hk]; exact hhas)]
        exact ih h

end Fields

namespace Fields.Alike

variable {raw raw' : Fields}

/-- Directives are told apart by their keys. -/
theorem inclusion_unique {i j : Inclusion} {key : String} (h : key ∈ i.keys)
    (h' : key ∈ j.keys) : i = j := by
  have hapart : ∀ k ∈ Inclusion.tasks.keys, k ∉ Inclusion.role.keys := by decide
  cases i <;> cases j
  · rfl
  · exact absurd h' (hapart key h)
  · exact absurd h (hapart key h')
  · rfl

/-- **Which directive counts**, in mappings that are alike. -/
theorem spellings (h : raw.Alike raw') (i : Inclusion) :
    Spellings i raw raw' (raw.first? i.keys) (raw'.first? i.keys) := by
  -- a key that is not respelled has the same value in both
  have hother : ∀ {key key' k : String}, raw.erase key = raw'.erase key' → k ≠ key → k ≠ key' →
      raw'.get? k = raw.get? k := by
    intro key key' k hrest hk hk'
    rw [← Fields.get?_erase hk', ← hrest, Fields.get?_erase hk]
  cases h with
  | same =>
    cases hfirst : raw.first? i.keys with
    | none => exact .none
    | some key => exact .same (Fields.first?_some hfirst).1 rfl
  | @respelled j key key' _ _ hspell hcounts =>
    obtain ⟨hkey, hkey', ⟨text, value, value', hvalue, hvalue', hwrites, hwrites'⟩, hrest⟩ := hspell
    by_cases hfirst : raw.first? i.keys = some key
    · obtain rfl := inclusion_unique (Fields.first?_some hfirst).1 hkey
      rw [hfirst, hcounts.1 hfirst]
      exact .respelled hkey hkey' hvalue hvalue' hwrites hwrites'
    · have hfirst' : raw'.first? i.keys ≠ some key' := by
        intro h
        obtain rfl := inclusion_unique (Fields.first?_some h).1 hkey'
        exact hfirst (hcounts.2 h)
      have heq : raw'.first? i.keys = raw.first? i.keys := by
        rw [← Fields.first?_erase hfirst, ← Fields.first?_erase hfirst', hrest]
      rw [heq]
      cases hk : raw.first? i.keys with
      | none => exact .none
      | some k =>
        rw [hk] at hfirst
        rw [heq, hk] at hfirst'
        exact .same (Fields.first?_some hk).1
          (hother hrest (fun h => hfirst (congrArg some h)) fun h => hfirst' (congrArg some h))
  | play hplay =>
    -- no key of a directive is one at which a play has tasks
    have hkeys : ∀ key ∈ i.keys, key ∉ playSections := by cases i <;> decide
    have hfirst : raw'.first? i.keys = raw.first? i.keys := by
      unfold Fields.first?
      refine List.find?_congr fun key hkey => ?_
      rw [Fields.has, Fields.has, hplay.rest key (hkeys key hkey)]
    rw [hfirst]
    cases hk : raw.first? i.keys with
    | none => exact .none
    | some key =>
      have hkey := (Fields.first?_some hk).1
      exact .same hkey (hplay.rest key (hkeys key hkey))

/-- **Without a directive there is nothing to spell**, except in the tasks of a play. -/
theorem of_leaf (h : raw.Alike raw') (hleaf : ∀ i : Inclusion, raw.first? i.keys = none) :
    raw' = raw ∨ raw.SamePlay raw' := by
  cases h with
  | same => exact .inl rfl
  | play hplay => exact .inr hplay
  | @respelled j key _ _ _ hspell _ =>
    obtain ⟨_, _, _, hvalue, -⟩ := hspell.text
    have hnone := List.find?_eq_none.1 (hleaf j) key hspell.mem
    rw [Fields.has, hvalue] at hnone
    exact absurd rfl hnone

end Fields.Alike

/-! ## Declarations -/

variable {lines : LineRange → LineRange → Prop}

mutual
/-- **Two tasks that are alike**: each directive in them may be spelled in its own way. What is at
the keys of a block, besides its tasks, does not count. The second one may be on other lines, as far
as `lines` allows it. -/
inductive TaskDeclaration.Alike (lines : LineRange → LineRange → Prop) :
    TaskDeclaration → TaskDeclaration → Prop
  | single {range range' : LineRange} {name : Option String} {vars : Variables}
      {raw raw' : Fields} :
      lines range range' → raw.Alike raw' →
      TaskDeclaration.Alike lines ⟨range, name, vars, raw, []⟩ ⟨range', name, vars, raw', []⟩
  | block {range range' : LineRange} {name : Option String} {vars : Variables} {raw raw' : Fields}
      {d d' : TaskDeclaration} {ds ds' : List TaskDeclaration} : lines range range' →
      TaskDeclaration.AllAlike lines (d :: ds) (d' :: ds') →
      TaskDeclaration.Alike lines ⟨range, name, vars, raw, d :: ds⟩
        ⟨range', name, vars, raw', d' :: ds'⟩

/-- Two lists of tasks that are alike. -/
inductive TaskDeclaration.AllAlike (lines : LineRange → LineRange → Prop) :
    List TaskDeclaration → List TaskDeclaration → Prop
  | nil : TaskDeclaration.AllAlike lines [] []
  | cons {d d' : TaskDeclaration} {ds ds' : List TaskDeclaration} : d.Alike lines d' →
      TaskDeclaration.AllAlike lines ds ds' → TaskDeclaration.AllAlike lines (d :: ds) (d' :: ds')
end

mutual
theorem TaskDeclaration.Alike.refl (hlines : ∀ l, lines l l) :
    ∀ d : TaskDeclaration, d.Alike lines d
  | ⟨range, _, _, raw, []⟩ => .single (hlines range) (.same raw)
  | ⟨range, _, _, _, d :: ds⟩ =>
    .block (hlines range) (TaskDeclaration.AllAlike.refl hlines (d :: ds))

theorem TaskDeclaration.AllAlike.refl (hlines : ∀ l, lines l l) :
    ∀ ds : List TaskDeclaration, TaskDeclaration.AllAlike lines ds ds
  | [] => .nil
  | d :: ds => .cons (TaskDeclaration.Alike.refl hlines d) (TaskDeclaration.AllAlike.refl hlines ds)
end

/-- Two references to a role that are alike. -/
structure RoleReference.Alike (lines : LineRange → LineRange → Prop)
    (r r' : RoleReference) : Prop where
  line : lines r.range r'.range
  name : r'.name = r.name
  vars : r'.vars = r.vars

/-- **Two plays that are alike**: their tasks are, and they import the same playbook, if any. -/
structure PlayDeclaration.Alike (lines : LineRange → LineRange → Prop)
    (d d' : PlayDeclaration) : Prop where
  line : lines d.range d'.range
  name : d'.name = d.name
  hosts : d'.hosts = d.hosts
  roles : List.Forall₂ (RoleReference.Alike lines) d.roles d'.roles
  preTasks : TaskDeclaration.AllAlike lines d.preTasks d'.preTasks
  mainTasks : TaskDeclaration.AllAlike lines d.mainTasks d'.mainTasks
  postTasks : TaskDeclaration.AllAlike lines d.postTasks d'.postTasks
  vars : d'.vars = d.vars
  varsFiles : d'.varsFiles = d.varsFiles
  imports : ∀ action ∈ Action.playbookImports, d'.raw.get? action = d.raw.get? action

theorem PlayDeclaration.Alike.refl (hlines : ∀ l, lines l l) (d : PlayDeclaration) :
    d.Alike lines d where
  line := hlines _
  name := rfl
  hosts := rfl
  roles := List.forall₂_same.2 fun _ _ => ⟨hlines _, rfl, rfl⟩
  preTasks := .refl hlines _
  mainTasks := .refl hlines _
  postTasks := .refl hlines _
  vars := rfl
  varsFiles := rfl
  imports _ _ := rfl

/-! ## Documents -/

/-- **Two documents that are alike**: read as tasks or as plays, they declare such as are alike, and
otherwise the same. Where one of them cannot be read, neither can the other. -/
structure TextAlike (lines : LineRange → LineRange → Prop) (text text' : String) : Prop where
  tasks :
      Both (fun _ _ => True) (TaskDeclaration.AllAlike lines)
        (Declaration.ofText Declaration.taskList text)
        (Declaration.ofText Declaration.taskList text')
  plays : Both (fun _ _ => True) (List.Forall₂ (PlayDeclaration.Alike lines))
    (Declaration.ofText Declaration.playbook text) (Declaration.ofText Declaration.playbook text')
  declared : Both (fun _ _ => True) Eq (Declaration.ofText Declaration.roleMeta text)
    (Declaration.ofText Declaration.roleMeta text')
  vars : Both (fun _ _ => True) Eq (Declaration.ofText Declaration.vars text)
    (Declaration.ofText Declaration.vars text')

theorem TextAlike.refl (hlines : ∀ l, lines l l) (text : String) : TextAlike lines text text where
  tasks := .refl (fun _ => trivial) (.refl hlines) _
  plays := .refl (fun _ => trivial) (fun _ => List.forall₂_same.2 fun _ _ => .refl hlines _) _
  declared := .refl (fun _ => trivial) (fun _ => rfl) _
  vars := .refl (fun _ => trivial) (fun _ => rfl) _

end Runlist
