import Mathlib.Data.List.Forall2
import Mathlib.Order.Nat
import Runlist.Document

/-!
# The lines of a document

A tree of rows has the shape of a value, and says on which line each part of it starts. Nothing says
where a part ends: its last line is the one on which the last of its parts starts.

* `LineRange.Nests`: **ranges lie inside another one, one after the other.**
* `Rows.lines`: the lines of a tree in the order of the document. `Rows.mirrors`: a tree has the
  shape of a value.
* `Rows.Spans`: a range goes from the first of these lines to the last one. `spans_of_mirrors`: so
  it does, at every depth.
* `Rows.Mirrored`: a tree of the shape of a value whose lines do not decrease. `Mirrored.item`,
  `Mirrored.key`: so are its parts.
* `Rows.Mirrored.nests`: **the ranges of the parts nest in that of the whole.**
-/

namespace Runlist

/-! ## Ranges -/

namespace LineRange

/-- A range does not end before it starts. -/
def Proper (r : LineRange) : Prop := r.first ≤ r.last

/-- A range lies inside another one. -/
def Within (inner outer : LineRange) : Prop := outer.first ≤ inner.first ∧ inner.last ≤ outer.last

/-- **Ranges nest in another one**: they lie inside it, and none starts before one in front of it
has ended. -/
structure Nests (outer : LineRange) (inner : List LineRange) : Prop where
  proper : ∀ r ∈ inner, r.Proper
  within : ∀ r ∈ inner, r.Within outer
  apart : inner.Pairwise fun r r' => r.last ≤ r'.first

variable {inner middle outer : LineRange} {rs : List LineRange}

theorem Within.trans (h : inner.Within middle) (h' : middle.Within outer) : inner.Within outer :=
  ⟨h'.1.trans h.1, h.2.trans h'.2⟩

/-- A range that does not end before it starts stays one inside of others. -/
theorem inside_trans (outer middle inner : LineRange) (_ : middle.Proper ∧ middle.Within outer)
    (h : inner.Proper ∧ inner.Within middle) : inner.Proper ∧ inner.Within outer :=
  ⟨h.1, h.2.trans ‹middle.Proper ∧ _›.2⟩

theorem Nests.inside (outer : LineRange) (rs : List LineRange) (h : outer.Nests rs) :
    ∀ r ∈ rs, r.Proper ∧ r.Within outer := fun r hr => ⟨h.proper r hr, h.within r hr⟩

theorem nests_nil (outer : LineRange) : outer.Nests [] := ⟨by simp, by simp, .nil⟩

theorem Nests.widen (h : middle.Nests rs) (hmiddle : rs ≠ [] → middle.Within outer) :
    outer.Nests rs where
  proper := h.proper
  within r hr := (h.within r hr).trans (hmiddle (List.ne_nil_of_mem hr))
  apart := h.apart

end LineRange

namespace Yaml.Rows

/-! ## Lines in the order of the document -/

mutual
/-- **The lines on which a node and its parts start**, in the order of the document. -/
def lines : Rows → List Nat
  | .unknown => []
  | .scalar row => [row]
  | .sequence row items => row :: linesOf items
  | .mapping row entries => row :: linesOfEntries entries

/-- The lines of items. -/
def linesOf : List Rows → List Nat
  | [] => []
  | item :: items => item.lines ++ linesOf items

/-- The lines of the values of entries. -/
def linesOfEntries : List (String × Rows) → List Nat
  | [] => []
  | (_, value) :: entries => value.lines ++ linesOfEntries entries
end

mutual
/-- **A tree has the shape of a value**: the same lists, and the same keys in the mappings. -/
def mirrors : Rows → Json → Bool
  | .scalar _, v => v.items?.isNone && v.fields?.isNone
  | .sequence _ items, .array values => mirrorsItems items values
  | .mapping _ entries, .object fields =>
    mirrorsEntries entries fields && fields.all fun (key, _) =>
      entries.any fun entry => entry.1 == key
  | _, _ => false

/-- Items have the shapes of values. -/
def mirrorsItems : List Rows → List Json → Bool
  | [], [] => true
  | item :: items, value :: values => item.mirrors value && mirrorsItems items values
  | _, _ => false

/-- Entries have the shapes of the values at their keys. -/
def mirrorsEntries : List (String × Rows) → Fields → Bool
  | [], _ => true
  | (key, rows) :: entries, fields =>
    (match fields.get? key with
      | some value => rows.mirrors value
      | none => false) && mirrorsEntries entries fields
end

/-- The trees of the parts. -/
def children : Rows → List Rows
  | .sequence _ items => items
  | .mapping _ entries => entries.map (·.2)
  | _ => []

variable {rows r : Rows} {items : List Rows} {entries : List (String × Rows)} {v : Json}
  {values : List Json}
  {fields : Fields} {name : String} {i : Nat}

theorem linesOf_eq (items : List Rows) : linesOf items = items.flatMap lines := by
  induction items with
  | nil => rfl
  | cons item items ih => rw [linesOf, List.flatMap_cons, ih]

theorem linesOfEntries_eq (entries : List (String × Rows)) :
    linesOfEntries entries = (entries.map (·.2)).flatMap lines := by
  induction entries with
  | nil => rfl
  | cons entry entries ih => rw [linesOfEntries, List.map_cons, List.flatMap_cons, ih]

theorem lastOfEntries_eq (row : Nat) (entries : List (String × Rows)) :
    lastOfEntries row entries = lastOf row (entries.map (·.2)) := by
  induction entries generalizing row with
  | nil => rfl
  | cons entry entries ih => rw [lastOfEntries, List.map_cons, lastOf, ih]

/-- The first line of a tree is its own, and then come those of its parts. -/
theorem lines_eq (h : rows ≠ .unknown) :
    rows.lines = rows.first :: rows.children.flatMap lines := by
  cases rows with
  | unknown => exact absurd rfl h
  | scalar row => rfl
  | sequence row items => rw [lines, linesOf_eq]; rfl
  | mapping row entries => rw [lines, linesOfEntries_eq]; rfl

theorem last_eq (rows : Rows) : rows.last = lastOf rows.first rows.children := by
  cases rows with
  | mapping row entries => exact lastOfEntries_eq row entries
  | _ => rfl

/-! ## Ranges and lines -/

/-- **A range goes from the first line of a tree to the last one.** -/
structure Spans (rows : Rows) : Prop where
  head : rows.lines.head? = some rows.first
  last : rows.lines.getLast? = some rows.last

/-- The last line of some parts is that of the last one. -/
theorem getLast_lines (h : ∀ r ∈ items, r.Spans) (row : Nat) :
    (row :: items.flatMap lines).getLast? = some (lastOf row items) := by
  induction items generalizing row with
  | nil => rfl
  | cons item items ih =>
    have hitem := (h item List.mem_cons_self).last
    obtain ⟨front, hfront⟩ := List.getLast?_eq_some_iff.1 hitem
    -- the lines of the others come behind the last one of this item, as if it was the row in front
    -- of them
    have hrest := ih (fun r hr => h r (List.mem_cons_of_mem _ hr)) item.last
    rw [List.flatMap_cons, hfront, lastOf, ← hrest, List.append_assoc, List.singleton_append,
      ← List.cons_append, List.getLast?_append_cons]

theorem Spans.of_children (hrows : rows ≠ .unknown)
    (h : ∀ r ∈ rows.children, r.Spans) : rows.Spans where
  head := by rw [lines_eq hrows]; rfl
  last := by rw [lines_eq hrows, getLast_lines h, last_eq]

mutual
/-- **A tree of the shape of a value spans its lines.** -/
theorem spans_of_mirrors {rows : Rows} {v : Json} (h : rows.mirrors v = true) : rows.Spans := by
  match rows, v with
  | .scalar _, _ => exact ⟨rfl, rfl⟩
  | .sequence _ items, .array values =>
    rw [mirrors] at h
    exact .of_children (by simp) (spans_of_items h)
  | .mapping _ entries, .object fields =>
    rw [mirrors, Bool.and_eq_true] at h
    exact .of_children (by simp) (spans_of_entries h.1)
  | .unknown, _ => simp [mirrors] at h
  | .sequence _ _, .null | .sequence _ _, .bool _ | .sequence _ _, .number _ | .sequence
      _ _, .string _
  | .sequence _ _, .object _ => simp [mirrors] at h
  | .mapping _ _, .null | .mapping _ _, .bool _ | .mapping _ _, .number _ | .mapping _ _, .string _
  | .mapping _ _, .array _ => simp [mirrors] at h

theorem spans_of_items {items : List Rows} {values : List Json}
    (h : mirrorsItems items values = true) : ∀ r ∈ items, r.Spans := by
  match items, values with
  | [], _ => exact fun _ hr => (List.not_mem_nil hr).elim
  | item :: items, value :: values =>
    rw [mirrorsItems, Bool.and_eq_true] at h
    exact List.forall_mem_cons.2 ⟨spans_of_mirrors h.1, spans_of_items h.2⟩
  | _ :: _, [] => simp [mirrorsItems] at h

theorem spans_of_entries {entries : List (String × Rows)} {fields : Fields}
    (h : mirrorsEntries entries fields = true) : ∀ r ∈ entries.map (·.2), r.Spans := by
  match entries with
  | [] => exact fun _ hr => (List.not_mem_nil hr).elim
  | (key, rows) :: entries =>
    rw [mirrorsEntries, Bool.and_eq_true] at h
    obtain ⟨hvalue, hentries⟩ := h
    refine List.forall_mem_cons.2 ⟨?_, spans_of_entries hentries⟩
    split at hvalue
    · exact spans_of_mirrors hvalue
    · cases hvalue
end

/-- The items of a tree of the shape of a list are those of the list, one by one. -/
theorem mirrors_items (h : mirrorsItems items values = true) :
    List.Forall₂ (fun r v => r.mirrors v = true) items values := by
  induction items generalizing values with
  | nil =>
    cases values with
    | nil => exact .nil
    | cons value values => cases h
  | cons item items ih =>
    cases values with
    | nil => cases h
    | cons value values =>
      rw [mirrorsItems, Bool.and_eq_true] at h
      exact .cons h.1 (ih h.2)

/-- The entries of a tree of the shape of a mapping are those of the mapping. -/
theorem mirrors_entry (h : mirrorsEntries entries fields = true) (hr : (name, r) ∈ entries) :
    ∃ v, fields.get? name = some v ∧ r.mirrors v = true := by
  induction entries with
  | nil => cases hr
  | cons entry entries ih =>
    rw [mirrorsEntries, Bool.and_eq_true] at h
    rcases List.mem_cons.1 hr with rfl | hr
    · obtain ⟨hvalue, -⟩ := h
      split at hvalue
      · exact ⟨_, ‹_›, hvalue⟩
      · cases hvalue
    · exact ih h.2 hr

theorem mem_of_get? (h : fields.get? name = some v) : (name, v) ∈ fields := by
  induction fields with
  | nil => cases h
  | cons field fields ih =>
    rw [Fields.get?] at h
    split at h
    · subst_vars
      exact Option.some.inj h ▸ List.mem_cons_self
    · exact List.mem_cons_of_mem _ (ih h)

/-- A tree of the shape of a mapping has a part at each of its keys. -/
theorem mirrors_key (h : mirrorsEntries entries fields = true)
    (hkeys : (fields.all fun (key, _) => entries.any fun entry => entry.1 == key) = true)
    (hv : fields.get? name = some v) :
    ∃ r, entries.reverse.lookup name = some r ∧ r ∈ entries.map (·.2) ∧ r.mirrors v = true := by
  have hkey := List.all_eq_true.1 hkeys _ (mem_of_get? hv)
  obtain ⟨entry, hentry, heq⟩ := List.any_eq_true.1 hkey
  -- of several parts at the key the last one counts, and it is one of them
  cases hlookup : entries.reverse.lookup name with
  | none =>
    have hne := List.lookup_eq_none_iff.1 hlookup entry (List.mem_reverse.2 hentry)
    exact absurd (eq_of_beq heq).symm (bne_iff_ne.1 hne)
  | some r =>
    obtain ⟨front, back, hsplit, -⟩ := List.lookup_eq_some_iff.1 hlookup
    have hmem : (name, r) ∈ entries := by
      rw [← List.mem_reverse, hsplit]
      simp
    obtain ⟨v', hv', hmirrors⟩ := mirrors_entry h hmem
    cases hv.symm.trans hv'
    exact ⟨r, rfl, List.mem_map.2 ⟨_, hmem, rfl⟩, hmirrors⟩

/-! ## Trees with lines in order -/

/-- The lines of a tree do not decrease. -/
def Sorted (rows : Rows) : Prop := rows.lines.Pairwise (· ≤ ·)

theorem Spans.first_le (h : rows.Spans) (hs : rows.Sorted) {n : Nat} (hn : n ∈ rows.lines) :
    rows.first ≤ n := by
  obtain ⟨rest, hrest⟩ := List.head?_eq_some_iff.1 h.head
  rw [Sorted, hrest, List.pairwise_cons] at hs
  rw [hrest] at hn
  rcases List.mem_cons.1 hn with rfl | hn
  · exact le_rfl
  · exact hs.1 n hn

theorem Spans.le_last (h : rows.Spans) (hs : rows.Sorted) {n : Nat} (hn : n ∈ rows.lines) :
    n ≤ rows.last := by
  obtain ⟨front, hfront⟩ := List.getLast?_eq_some_iff.1 h.last
  rw [Sorted, hfront, List.pairwise_append] at hs
  rw [hfront] at hn
  rcases List.mem_append.1 hn with hn | hn
  · exact hs.2.2 n hn _ List.mem_cons_self
  · exact le_of_eq (List.mem_singleton.1 hn)

theorem Spans.first_mem (h : rows.Spans) : rows.first ∈ rows.lines := List.mem_of_head? h.head

theorem Spans.last_mem (h : rows.Spans) : rows.last ∈ rows.lines := List.mem_of_getLast? h.last

theorem Spans.proper (h : rows.Spans) (hs : rows.Sorted) : rows.range.Proper :=
  h.first_le hs h.last_mem

theorem ne_unknown_of_child (h : r ∈ rows.children) : rows ≠ .unknown := by
  rintro rfl
  exact List.not_mem_nil h

/-- The lines of a part are lines of the whole. -/
theorem mem_lines_of_child (h : r ∈ rows.children) {n : Nat} (hn : n ∈ r.lines) :
    n ∈ rows.lines := by
  rw [lines_eq (ne_unknown_of_child h)]
  exact List.mem_cons_of_mem _ (List.mem_flatMap.2 ⟨r, h, hn⟩)

theorem Sorted.child (hs : rows.Sorted) (h : r ∈ rows.children) : r.Sorted := by
  rw [Sorted, lines_eq (ne_unknown_of_child h), List.pairwise_cons, List.pairwise_flatMap] at hs
  exact hs.2.1 r h

theorem Spans.within (h : rows.Spans) (hs : rows.Sorted) (hr : r ∈ rows.children)
    (hspans : r.Spans) : r.range.Within rows.range :=
  ⟨h.first_le hs (mem_lines_of_child hr hspans.first_mem),
    h.le_last hs (mem_lines_of_child hr hspans.last_mem)⟩

/-- **The ranges of the parts nest in that of the whole.** -/
theorem Spans.nests (h : rows.Spans) (hs : rows.Sorted) (hchildren : ∀ r ∈ rows.children, r.Spans) :
    rows.range.Nests (rows.children.map range) where
  proper range hrange := by
    obtain ⟨r, hr, rfl⟩ := List.mem_map.1 hrange
    exact (hchildren r hr).proper (hs.child hr)
  within range hrange := by
    obtain ⟨r, hr, rfl⟩ := List.mem_map.1 hrange
    exact h.within hs hr (hchildren r hr)
  apart := by
    -- the last line of a part is one of its own, and so is the first one of the next part
    rw [List.pairwise_map]
    rcases eq_or_ne rows .unknown with rfl | hknown
    · exact .nil
    · rw [Sorted, lines_eq hknown, List.pairwise_cons, List.pairwise_flatMap] at hs
      exact hs.2.2.imp_of_mem fun hr hr' hle =>
        hle _ (hchildren _ hr).last_mem _ (hchildren _ hr').first_mem

/-- **A tree of the shape of a value, with lines that do not decrease.** -/
structure Mirrored (rows : Rows) (v : Json) : Prop where
  shape : rows.mirrors v = true
  sorted : rows.Sorted

namespace Mirrored

theorem spans (h : rows.Mirrored v) : rows.Spans := spans_of_mirrors h.shape

theorem child (h : rows.Mirrored v) (hr : r ∈ rows.children) {v' : Json}
    (hshape : r.mirrors v' = true) : r.Mirrored v' :=
  ⟨hshape, h.sorted.child hr⟩

/-- An item of a tree is that of a list. -/
theorem item (h : rows.Mirrored (.array values)) (hv : values[i]? = some v) :
    rows.item i ∈ rows.children ∧ (rows.item i).Mirrored v := by
  cases rows with
  | sequence row items =>
    have hshape := h.shape
    rw [mirrors] at hshape
    have hitems := mirrors_items hshape
    obtain ⟨hi, rfl⟩ := List.getElem?_eq_some_iff.1 hv
    have hi' : i < items.length := hitems.length_eq ▸ hi
    have hitem : (Rows.sequence row items).item i = items[i] := by
      rw [Rows.item, List.getElem?_eq_getElem hi']
      rfl
    have hmem : items[i] ∈ items := List.getElem_mem hi'
    exact hitem ▸ ⟨hmem, h.child hmem (hitems.get hi' hi)⟩
  | _ => exact absurd h.shape (by simp [mirrors, Json.items?])

/-- A part of a tree at a key is that of a mapping. -/
theorem key (h : rows.Mirrored (.object fields)) (hv : fields.get? name = some v) :
    rows.key name ∈ rows.children ∧ (rows.key name).Mirrored v := by
  cases rows with
  | mapping row entries =>
    have hshape := h.shape
    rw [mirrors, Bool.and_eq_true] at hshape
    obtain ⟨r, hr, hmem, hmirrors⟩ := mirrors_key hshape.1 hshape.2 hv
    have hkey : (Rows.mapping row entries).key name = r := by rw [Rows.key, hr]; rfl
    exact hkey ▸ ⟨hmem, h.child hmem hmirrors⟩
  | _ => exact absurd h.shape (by simp [mirrors, Json.fields?])

theorem within (h : rows.Mirrored v) (hr : r ∈ rows.children) {v' : Json} (h' : r.Mirrored v') :
    r.range.Within rows.range :=
  h.spans.within h.sorted hr h'.spans

theorem children_eq (h : rows.Mirrored (.array values)) :
    (List.range values.length).map rows.item = rows.children := by
  cases rows with
  | sequence row items =>
    have hshape := h.shape
    rw [mirrors] at hshape
    rw [← (mirrors_items hshape).length_eq]
    refine List.ext_getElem (by simp [children]) fun i hi hi' => ?_
    have hitem : items[i]? = some ((Rows.sequence row items).children[i]) :=
      List.getElem?_eq_getElem hi'
    rw [List.getElem_map, List.getElem_range, Rows.item, hitem]
    rfl
  | _ => exact absurd h.shape (by simp [mirrors, Json.items?])

/-- **The items of a list nest in it.** -/
theorem nests (h : rows.Mirrored (.array values)) :
    rows.range.Nests ((List.range values.length).map fun i => (rows.item i).range) := by
  have hchildren : ∀ r ∈ rows.children, r.Spans := fun r hr => by
    rw [← h.children_eq] at hr
    obtain ⟨i, hi, rfl⟩ := List.mem_map.1 hr
    exact (h.item (List.getElem?_eq_getElem (List.mem_range.1 hi))).2.spans
  have hranges := congrArg (List.map range) h.children_eq
  rw [List.map_map] at hranges
  exact hranges ▸ h.spans.nests h.sorted hchildren

end Mirrored

end Yaml.Rows

end Runlist
