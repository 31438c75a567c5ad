import Runlist.Proofs.Forms
import Runlist.Proofs.Outcome.Supply
import Runlist.Proofs.Rows

/-!
# The lines of what is declared

What is declared keeps the lines on which it stands. Nothing more is asked of the rows of a document
than that they have the shape of its value and do not decrease. They are found by the positions and
keys of the value, and these say nothing of the order of the keys in the document; but a part of a
mapping stands in the mapping wherever its key does.

* `TaskDeclaration.Nested`, `PlayDeclaration.Nested`: how the ranges of what is declared stand in
  one another, at every depth.
* `Inherited`: a property of rows and values that each part has with the whole, and what it says of
  the ranges of the parts.
* `Inherited.tasks`, `Inherited.playbook`, `Inherited.roleMeta`: **so stands all that is declared.**
* `Yaml.Rows.itemRanges`, `ranges_tasks`, `ranges_playbook`: what stands in a list has the range of
  its item.
* `mirrored_inherited`, `unknown_inherited`: the two cases, rows of the shape of the value, and none
  at all.
* `ranges_nest`: **what is declared nests as the document does**, and no range is known when there
  are no rows.
-/

namespace Runlist

open Yaml (Rows)

/-- The ranges of the first items, as many as are asked for. -/
def Yaml.Rows.itemRanges (rows : Rows) (n : Nat) : List LineRange :=
  (List.range n).map fun i => (rows.item i).range

/-- **How tasks stand in a range**, and those of each block in that of the task. -/
inductive TaskDeclaration.Nested (N : LineRange → List LineRange → Prop) :
    LineRange → List TaskDeclaration → Prop
  | mk {outer : LineRange} {ds : List TaskDeclaration} : N outer (ds.map (·.range)) →
      (∀ d ∈ ds, Nested N d.range d.block) → Nested N outer ds

/-- **How the roles and the tasks of a play stand in it.** -/
structure PlayDeclaration.Nested (N : LineRange → List LineRange → Prop)
    (d : PlayDeclaration) : Prop where
  roles : N d.range (d.roles.map (·.range))
  preTasks : TaskDeclaration.Nested N d.range d.preTasks
  mainTasks : TaskDeclaration.Nested N d.range d.mainTasks
  postTasks : TaskDeclaration.Nested N d.range d.postTasks

/-- **A property of rows and values that parts inherit**: the items of a list stand in it as is
said, and what stands so in a part of a mapping stands so in the mapping. -/
structure Inherited (P : Rows → Json → Prop) (N : LineRange → List LineRange → Prop) : Prop where
  none : ∀ outer, N outer []
  item : ∀ {rows items i v}, P rows (.array items) → items[i]? = some v → P (rows.item i) v
  key : ∀ {rows fields name v}, P rows (.object fields) → Fields.get? fields name = some v →
      P (rows.key name) v
  items : ∀ {rows items}, P rows (.array items) → N rows.range (rows.itemRanges items.length)
  widen : ∀ {rows fields name v rs}, P rows (.object fields) → Fields.get? fields name = some v →
    N (rows.key name).range rs → N rows.range rs

variable {P : Rows → Json → Prop} {N : LineRange → List LineRange → Prop}
  {Q : LineRange → LineRange → Prop} {rows : Rows} {location : Location} {v : Json}
  {entries : Fields} {items : List Json} {ds : List TaskDeclaration}
  {outer inner : LineRange} {name : String}

namespace TaskDeclaration

theorem Nested.none (h : N outer []) : TaskDeclaration.Nested N outer [] :=
  ⟨h, fun _ hd => (List.not_mem_nil hd).elim⟩

theorem Nested.widen (h : TaskDeclaration.Nested N inner ds)
    (hwiden : ∀ rs, N inner rs → N outer rs) : TaskDeclaration.Nested N outer ds := by
  obtain ⟨hds, hblocks⟩ := h
  exact ⟨hwiden _ hds, hblocks⟩

/-- A task by itself, or one in its block. -/
theorem mem_all {d t : TaskDeclaration} : t ∈ d.all ↔ t = d ∨ t ∈ allOf d.block := by
  cases d
  rw [all, List.mem_cons]

/-- **What each range says of those in it, it says of those at every depth.** -/
theorem Nested.all (hN : ∀ outer rs, N outer rs → ∀ r ∈ rs, Q outer r)
    (htrans : ∀ a b c, Q a b → Q b c → Q a c) (h : TaskDeclaration.Nested N outer ds) :
    ∀ t ∈ allOf ds, Q outer t.range := by
  induction h with
  | mk hds _ ih =>
    intro t ht
    rw [allOf_eq] at ht
    obtain ⟨d, hd, ht⟩ := List.mem_flatMap.1 ht
    have hfirst := hN _ _ hds d.range (List.mem_map_of_mem hd)
    rcases mem_all.1 ht with rfl | ht
    · exact hfirst
    · exact htrans _ _ _ hfirst (ih d hd t ht)

end TaskDeclaration

/-- What is so of the ranges in a play is so at every depth. -/
theorem PlayDeclaration.Nested.all (hN : ∀ outer rs, N outer rs → ∀ r ∈ rs, Q outer r)
    (htrans : ∀ a b c, Q a b → Q b c → Q a c) {d : PlayDeclaration} (h : d.Nested N) :
    ∀ t ∈ TaskDeclaration.allOf d.tasks, Q d.range t.range := by
  intro t ht
  rw [TaskDeclaration.allOf_eq, PlayDeclaration.tasks, List.flatMap_append,
    List.flatMap_append] at ht
  simp only [← TaskDeclaration.allOf_eq, List.mem_append] at ht
  rcases ht with (ht | ht) | ht
  · exact h.preTasks.all hN htrans t ht
  · exact h.mainTasks.all hN htrans t ht
  · exact h.postTasks.all hN htrans t ht

namespace Declaration

theorem range_roleReference {r : RoleReference} (h : roleReference v rows location = .ok r) :
    r.range = rows.range := by
  unfold roleReference at h
  split at h
  · cases h; rfl
  · split at h
    · cases h
    · split at h
      · cases h; rfl
      · cases h

/-- What is read of the items of a list has the ranges of its items, if it has that of its item by
itself. -/
theorem ranges_eachItem {α : Type} {range : α → LineRange}
    {read : Json → Rows → Location → Decoded α} {results : List α}
    (hread : ∀ v rows location a, read v rows location = .ok a → range a = rows.range)
    (h : eachItem read rows location items = .ok results) :
    results.map range = rows.itemRanges results.length := by
  have hlength : items.zipIdx.map (·.2) = List.range results.length := by
    rw [(mapM_ok.1 h).length_eq.symm, List.length_zipIdx, List.zipIdx_map_snd, List.range_eq_range']
  have hranges : results.map range = items.zipIdx.map fun item => (rows.item item.2).range :=
    forall₂_map_eq ((mapM_ok.1 h).flip.imp fun a item hitem => hread _ _ _ a hitem)
  rw [hranges, Yaml.Rows.itemRanges, ← hlength, List.map_map]
  rfl

/-- What a role declares about itself keeps the lines of the document, unless this is null; the
roles on which it depends are the items at their key, if there are any. -/
theorem roleMeta_ok {d : Document} {m : MetaDeclaration} (h : roleMeta d = .ok m) :
    (m.range = d.rows.range ∨ d.value = .null ∧ m.range = .unknown) ∧ (m.dependencies = [] ∨
      ∃ entries items location, d.value = .object entries ∧ m.range = d.rows.range ∧
        Fields.get? entries "dependencies" = some (.array items) ∧
        eachItem roleReference (d.rows.key "dependencies") location items =
          .ok m.dependencies) := by
  unfold roleMeta at h
  split at h
  · rename_i hvalue
    cases h
    exact ⟨Or.inr ⟨hvalue, rfl⟩, Or.inl rfl⟩
  · rename_i entries hvalue
    simp only at h
    split at h
    · cases h; exact ⟨Or.inl rfl, Or.inl rfl⟩
    · cases h; exact ⟨Or.inl rfl, Or.inl rfl⟩
    · rename_i items hitems
      obtain ⟨dependencies, hdependencies, h⟩ := except_bind_ok.1 h
      cases h
      exact ⟨Or.inl rfl, Or.inr ⟨entries, items, _, hvalue, rfl, hitems, hdependencies⟩⟩
    · cases h
  · cases h

end Declaration

/-- What is asked of nothing is inherited. -/
theorem trivial_inherited : Inherited (fun _ _ => True) fun _ _ => True :=
  ⟨fun _ => trivial, fun _ _ => trivial, fun _ _ => trivial, fun _ => trivial, fun _ _ _ => trivial⟩

namespace Inherited

open Declaration

/-! ## Lists -/

/-- What is read of the items of a list stands in its range. -/
theorem eachItem (h : Inherited P N) {α : Type} {range : α → LineRange} {R : α → Prop}
    {read : Json → Rows → Location → Decoded α} {results : List α}
    (hrange : ∀ v rows location a, read v rows location = .ok a → range a = rows.range)
    (hread : ∀ v rows location a, P rows v → read v rows location = .ok a → R a)
    (hP : P rows (.array items))
    (hresults : Declaration.eachItem read rows location items = .ok results) :
    N rows.range (results.map range) ∧ ∀ a ∈ results, R a := by
  refine ⟨?_, fun a ha => ?_⟩
  · have hlength := (mapM_ok.1 hresults).length_eq
    rw [List.length_zipIdx] at hlength
    rw [ranges_eachItem hrange hresults, ← hlength]
    exact h.items hP
  · obtain ⟨⟨item, i⟩, hmem, hitem⟩ := exists_left (mapM_ok.1 hresults) ha
    exact hread _ _ _ a (h.item hP (List.mk_mem_zipIdx_iff_getElem?.1 hmem)) hitem

/-! ## Tasks -/

-- as the four readings call one another, so do the proofs; each keeps to the rows of its own value
mutual
/-- **Tasks stand in the range of their list.** -/
theorem tasks (h : Inherited P N) {rows : Rows} {location : Location} {value : Json}
    {ds : List TaskDeclaration} (hP : P rows value)
    (hds : Declaration.tasks rows location value = .ok ds) :
    TaskDeclaration.Nested N rows.range ds := by
  match value with
  | .null =>
    rw [Declaration.tasks] at hds
    cases hds
    exact .none (h.none _)
  | .array items =>
    rw [Declaration.tasks] at hds
    obtain ⟨hranges, hblocks⟩ :=
      h.taskItems (fun i v hv => by rw [Nat.zero_add]; exact h.item hP hv) hds
    refine ⟨?_, hblocks⟩
    rw [hranges, ← List.range_eq_range']
    exact h.items hP
  | .bool _ | .number _ | .string _ | .object _ => simp [Declaration.tasks] at hds

/-- From a position on, each task keeps the lines of its item. -/
theorem taskItems (h : Inherited P N) {rows : Rows} {location : Location} {index : Nat}
    {items : List Json} {ds : List TaskDeclaration}
    (hP : ∀ i v, items[i]? = some v → P (rows.item (index + i)) v)
    (hds : Declaration.taskItems rows location index items = .ok ds) :
    ds.map (·.range) = (List.range' index items.length).map (fun i => (rows.item i).range) ∧
      ∀ d ∈ ds, TaskDeclaration.Nested N d.range d.block := by
  match items with
  | [] =>
    rw [Declaration.taskItems] at hds
    cases hds
    exact ⟨rfl, fun _ hd => (List.not_mem_nil hd).elim⟩
  | item :: items =>
    rw [Declaration.taskItems] at hds
    obtain ⟨first, hfirst, hds⟩ := except_bind_ok.1 hds
    obtain ⟨rest, hrest, hds⟩ := except_bind_ok.1 hds
    cases hds
    obtain ⟨hrange, hblock⟩ := h.task (hP 0 item rfl) hfirst
    rw [Nat.add_zero] at hrange hblock
    obtain ⟨hranges, hblocks⟩ := h.taskItems (fun i v hv => by
      rw [show index + 1 + i = index + (i + 1) by omega]
      exact hP (i + 1) v hv) hrest
    refine ⟨?_, List.forall_mem_cons.2 ⟨hrange ▸ hblock, hblocks⟩⟩
    rw [List.map_cons, hrange, hranges, List.length_cons, List.range'_succ, List.map_cons]

/-- A task keeps the lines of its mapping, and those of its block stand in it. -/
theorem task (h : Inherited P N) {rows : Rows} {location : Location} {value : Json}
    {d : TaskDeclaration} (hP : P rows value) (hd : Declaration.task rows location value = .ok d) :
    d.range = rows.range ∧ TaskDeclaration.Nested N rows.range d.block := by
  match value with
  | .object entries =>
    rw [Declaration.task] at hd
    obtain ⟨block, hblock, hd⟩ := except_bind_ok.1 hd
    obtain ⟨name, -, hd⟩ := except_bind_ok.1 hd
    obtain ⟨vars, -, hd⟩ := except_bind_ok.1 hd
    cases hd
    refine ⟨rfl, ?_⟩
    -- the block may stand at any place of the mapping
    rcases h.taskBlock (fun v hv => h.key hP hv) hblock with rfl | ⟨v, hv, hnested⟩
    · exact .none (h.none _)
    · exact hnested.widen fun rs => h.widen hP hv
  | .null | .array _ | .bool _ | .number _ | .string _ => simp [Declaration.task] at hd

/-- The tasks of a block stand in the range of the value at its key, wherever this is. -/
theorem taskBlock (h : Inherited P N) {rows : Rows} {location : Location}
    {entries : List (String × Json)} {ds : List TaskDeclaration}
    (hP : ∀ v, Fields.get? entries "block" = some v → P rows v)
    (hds : Declaration.taskBlock rows location entries = .ok ds) :
    ds = [] ∨ ∃ v, Fields.get? entries "block" = some v ∧
    TaskDeclaration.Nested N rows.range ds := by
  match entries with
  | [] =>
    rw [Declaration.taskBlock] at hds
    cases hds
    exact Or.inl rfl
  | (key, value) :: rest =>
    rw [Declaration.taskBlock] at hds
    rw [Fields.get?] at hP ⊢
    split at hds
    · rename_i hkey
      rw [if_pos hkey] at hP ⊢
      exact Or.inr ⟨value, rfl, h.tasks (hP value rfl) hds⟩
    · rename_i hkey
      rw [if_neg hkey] at hP ⊢
      exact h.taskBlock hP hds
end

/-! ## Plays and roles -/

theorem taskSection (h : Inherited P N) (hP : P rows (.object entries))
    (hds : Declaration.taskSection entries rows location name = .ok ds) :
    TaskDeclaration.Nested N rows.range ds := by
  unfold Declaration.taskSection at hds
  split at hds
  · rename_i v hv
    exact (h.tasks (h.key hP hv) hds).widen fun rs => h.widen hP hv
  · cases hds
    exact .none (h.none _)

/-- References to roles at a key stand in the mapping. -/
theorem references (h : Inherited P N) (hP : P rows (.object entries))
    (hv : Fields.get? entries name = some (.array items)) {rs : List RoleReference}
    (hrs : Declaration.eachItem roleReference (rows.key name) location items = .ok rs) :
    N rows.range (rs.map (·.range)) := by
  have hitems := h.eachItem (R := fun _ => True) (fun _ _ _ _ => range_roleReference)
    (fun _ _ _ _ _ _ => trivial) (h.key hP hv) hrs
  exact h.widen hP hv hitems.1

theorem playRoles (h : Inherited P N) (hP : P rows (.object entries)) {rs : List RoleReference}
    (hrs : Declaration.playRoles entries rows location = .ok rs) :
    N rows.range (rs.map (·.range)) := by
  unfold Declaration.playRoles at hrs
  split at hrs
  · cases hrs; exact h.none _
  · cases hrs; exact h.none _
  · exact h.references hP ‹_› hrs
  · cases hrs

/-- **What a play declares stands in it.** -/
theorem play (h : Inherited P N) {d : PlayDeclaration} (hP : P rows v)
    (hd : Declaration.play v rows location = .ok d) : d.range = rows.range ∧ d.Nested N := by
  unfold Declaration.play at hd
  split at hd
  · rename_i entries
    obtain ⟨roles, hroles, hd⟩ := except_bind_ok.1 hd
    obtain ⟨varsFiles, -, hd⟩ := except_bind_ok.1 hd
    obtain ⟨name, -, hd⟩ := except_bind_ok.1 hd
    obtain ⟨hosts, -, hd⟩ := except_bind_ok.1 hd
    obtain ⟨preTasks, hpre, hd⟩ := except_bind_ok.1 hd
    obtain ⟨mainTasks, hmain, hd⟩ := except_bind_ok.1 hd
    obtain ⟨postTasks, hpost, hd⟩ := except_bind_ok.1 hd
    obtain ⟨vars, -, hd⟩ := except_bind_ok.1 hd
    cases hd
    exact ⟨rfl, h.playRoles hP hroles, h.taskSection hP hpre, h.taskSection hP hmain,
      h.taskSection hP hpost⟩
  · cases hd

end Inherited

namespace Declaration

theorem range_play {d : PlayDeclaration} (h : play v rows location = .ok d) :
    d.range = rows.range :=
  (trivial_inherited.play trivial h).1

/-! ## The items of documents -/

theorem ranges_tasks (h : tasks rows location v = .ok ds) :
    ds.map (·.range) = rows.itemRanges ds.length := by
  cases v with
  | null =>
    rw [tasks] at h
    cases h
    rfl
  | array items =>
    rw [tasks] at h
    obtain ⟨hranges, -⟩ := trivial_inherited.taskItems (fun _ _ _ => trivial) h
    have hlength := congrArg List.length hranges
    rw [List.length_map, List.length_map, List.length_range'] at hlength
    rw [hranges, Yaml.Rows.itemRanges, hlength, List.range_eq_range']
  | _ => simp [tasks] at h

theorem ranges_playbook {d : Document} {ps : List PlayDeclaration} (h : playbook d = .ok ps) :
    ps.map (·.range) = d.rows.itemRanges ps.length := by
  unfold playbook at h
  split at h
  · exact ranges_eachItem (fun _ _ _ _ => range_play) h
  · cases h

theorem ranges_roleMeta {d : Document} {m : MetaDeclaration} (h : roleMeta d = .ok m) :
    m.dependencies.map (·.range) =
      (d.rows.key "dependencies").itemRanges m.dependencies.length := by
  rcases (roleMeta_ok h).2 with hnone | ⟨_, _, _, -, -, -, hdependencies⟩
  · rw [hnone]; rfl
  · exact ranges_eachItem (fun _ _ _ _ => range_roleReference) hdependencies

end Declaration

namespace Inherited

open Declaration

/-- **Plays stand in the range of their list**, and what each declares in its own. -/
theorem playbook (h : Inherited P N) {d : Document} (hP : P d.rows d.value)
    {ps : List PlayDeclaration} (hps : Declaration.playbook d = .ok ps) :
    N d.rows.range (ps.map (·.range)) ∧ ∀ p ∈ ps, p.Nested N := by
  unfold Declaration.playbook at hps
  split at hps
  · rename_i items hvalue
    rw [hvalue] at hP
    exact h.eachItem (fun _ _ _ _ => range_play) (fun _ _ _ _ hP hp => (h.play hP hp).2) hP hps
  · cases hps

/-- **The roles that a role depends on stand in what it declares about itself.** -/
theorem roleMeta (h : Inherited P N) {d : Document} (hP : P d.rows d.value) {m : MetaDeclaration}
    (hm : Declaration.roleMeta d = .ok m) : N m.range (m.dependencies.map (·.range)) := by
  rcases (roleMeta_ok hm).2 with hnone | ⟨entries, items, location, hvalue, hrange, hitems,
    hdependencies⟩
  · rw [hnone]
    exact h.none _
  · rw [hrange]
    exact h.references (hvalue ▸ hP) hitems hdependencies

end Inherited

/-! ## Rows of the shape of the value, and none -/

/-- **Rows of the shape of the value nest as it does.** -/
theorem mirrored_inherited : Inherited Rows.Mirrored LineRange.Nests where
  none := LineRange.nests_nil
  item h hv := (h.item hv).2
  key h hv := (h.key hv).2
  items h := h.nests
  widen h hv hrs := hrs.widen fun _ => h.within (h.key hv).1 (h.key hv).2

/-- Where no rows are known, those of no part are. -/
theorem unknown_inherited :
    Inherited (fun rows _ => rows = .unknown) fun _ rs => ∀ r ∈ rs, r = .unknown where
  none _ _ hr := (List.not_mem_nil hr).elim
  item h _ := by rw [h]; rfl
  key h _ := by rw [h]; rfl
  items h r hr := by
    obtain ⟨i, -, rfl⟩ := List.mem_map.1 hr
    rw [h]; rfl
  widen _ _ hrs := hrs

/-- **What is declared nests as the document does.** What stands in a list has the range of its
item. Of rows that have the shape of the value and do not decrease, nothing is declared to end
before it starts, and what is declared in something stands in it, one after the other. Where there
are no rows, no range is known. -/
theorem ranges_nest (d : Document) :
    ((∀ ts, Declaration.taskList d = .ok ts → ts.map (·.range) = d.rows.itemRanges ts.length) ∧
      (∀ ps, Declaration.playbook d = .ok ps → ps.map (·.range) = d.rows.itemRanges ps.length) ∧
      (∀ m, Declaration.roleMeta d = .ok m →
        (m.range = d.rows.range ∨ d.value = .null ∧ m.range = .unknown) ∧
        m.dependencies.map (·.range) =
          (d.rows.key "dependencies").itemRanges m.dependencies.length)) ∧
    (d.rows.Mirrored d.value →
      (∀ ts, Declaration.taskList d = .ok ts →
        TaskDeclaration.Nested LineRange.Nests d.rows.range ts) ∧
      (∀ ps, Declaration.playbook d = .ok ps → d.rows.range.Nests (ps.map (·.range)) ∧
        ∀ p ∈ ps, p.Nested LineRange.Nests ∧
          ∀ t ∈ TaskDeclaration.allOf p.tasks, t.range.Proper ∧ t.range.Within p.range) ∧
      (∀ m, Declaration.roleMeta d = .ok m →
        m.range.Proper ∧ m.range.Nests (m.dependencies.map (·.range)))) ∧
    (d.rows = .unknown →
      (∀ ts, Declaration.taskList d = .ok ts → ∀ t ∈ TaskDeclaration.allOf ts, t.range = .unknown) ∧
      (∀ ps, Declaration.playbook d = .ok ps → ∀ p ∈ ps, p.range = .unknown ∧
        (∀ r ∈ p.roles, r.range = .unknown) ∧
        ∀ t ∈ TaskDeclaration.allOf p.tasks, t.range = .unknown) ∧
      (∀ m, Declaration.roleMeta d = .ok m →
        m.range = .unknown ∧ ∀ r ∈ m.dependencies, r.range = .unknown)) := by
  refine ⟨⟨fun ts => Declaration.ranges_tasks, fun ps => Declaration.ranges_playbook,
    fun m hm => ⟨(Declaration.roleMeta_ok hm).1, Declaration.ranges_roleMeta hm⟩⟩, fun hrows => ?_,
    fun hrows => ?_⟩
  · refine ⟨fun ts hts => mirrored_inherited.tasks hrows hts, fun ps hps => ?_, fun m hm => ?_⟩
    · obtain ⟨hplays, hnested⟩ := mirrored_inherited.playbook hrows hps
      exact ⟨hplays, fun p hp =>
        ⟨hnested p hp, (hnested p hp).all LineRange.Nests.inside LineRange.inside_trans⟩⟩
    · refine ⟨?_, mirrored_inherited.roleMeta hrows hm⟩
      rcases (Declaration.roleMeta_ok hm).1 with hrange | ⟨-, hrange⟩
      · exact hrange ▸ hrows.spans.proper hrows.sorted
      · exact hrange ▸ Nat.le_refl 0
  · have hall : ∀ (_ : LineRange) (rs : List LineRange), (∀ r ∈ rs, r = .unknown) →
        ∀ r ∈ rs, r = .unknown :=
      fun _ _ h => h
    refine ⟨fun ts hts => ?_, fun ps hps => ?_, fun m hm => ?_⟩
    · exact (unknown_inherited.tasks hrows hts).all hall (fun _ _ _ _ h => h)
    · obtain ⟨hplays, hnested⟩ := unknown_inherited.playbook hrows hps
      refine fun p hp =>
        ⟨hplays _ (List.mem_map_of_mem hp),
          fun r hr => ?_, (hnested p hp).all hall fun _ _ _ _ h => h⟩
      exact (hnested p hp).roles _ (List.mem_map_of_mem hr)
    · refine ⟨?_, fun r hr => unknown_inherited.roleMeta hrows hm _ (List.mem_map_of_mem hr)⟩
      rcases (Declaration.roleMeta_ok hm).1 with hrange | ⟨-, hrange⟩
      · rw [hrange, hrows]; rfl
      · exact hrange

/-! ## A play with a block -/

/-- A task with another one in its block, which is not its last key, and a role behind it. -/
def rangesDocument : Document :=
  (Document.read?
    "- tasks:\n  - block:\n    - x:\n        y: z\n    name: a\n  roles:\n  - web\n").getD .null

instance (rows : Rows) : Decidable rows.Sorted := inferInstanceAs (Decidable (List.Pairwise _ _))

/-- The ranges of a play, and those of its roles and tasks. -/
def PlayDeclaration.ranges (d : PlayDeclaration) : LineRange × List LineRange × List LineRange :=
  (d.range, d.roles.map (·.range), (TaskDeclaration.allOf d.tasks).map (·.range))

/-- The block of a task ends in front of the task, and the task in front of the play. -/
theorem block_nests : ∃ p, Declaration.playbook rangesDocument = .ok [p] ∧
    p.ranges = (⟨1, 7⟩, [⟨7, 7⟩], [⟨2, 5⟩, ⟨3, 4⟩]) ∧ p.Nested LineRange.Nests := by
  obtain ⟨hshape, hsorted, hplaybook⟩ :
      rangesDocument.rows.mirrors rangesDocument.value = true ∧ rangesDocument.rows.Sorted ∧
      (Declaration.playbook rangesDocument).toOption.map (·.map (·.ranges)) =
        some [(⟨1, 7⟩, [⟨7, 7⟩], [⟨2, 5⟩, ⟨3, 4⟩])] := by
    decide +kernel
  obtain ⟨ps, hps, hranges⟩ := Option.map_eq_some_iff.1 hplaybook
  obtain ⟨p, rfl, hp⟩ := List.map_eq_singleton_iff.1 hranges
  have hps := ok_of_toOption hps
  have hnests := (ranges_nest rangesDocument).2.1 ⟨hshape, hsorted⟩
  exact ⟨p, hps, hp, ((hnests.2.1 _ hps).2 p List.mem_cons_self).1⟩

end Runlist
