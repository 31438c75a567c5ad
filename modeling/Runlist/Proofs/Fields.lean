import Mathlib.Data.String.Basic
import Runlist.Variables

/-!
# Entries in the order of their keys

* `Fields.Sorted`: the keys strictly increase, so that no key occurs twice.
* `get?_assign`: of variables laid over others, the ones on top count.
* `Fields.ext_get?`: sorted entries are determined by their look-ups.
* `Variables.ofSources`, `get?_ofSources`: of several sources, **the last one that has a name
  counts**.
-/

namespace Runlist

namespace Fields

/-- The keys strictly increase. -/
def Sorted (fields : Fields) : Prop := fields.Pairwise fun a b => a.1 < b.1

variable {fields : Fields} {key k : String} {value v : Json}

theorem sorted_nil : Sorted [] := List.Pairwise.nil

theorem sorted_cons : Sorted ((key, value) :: fields) ↔ (∀ e ∈ fields, key < e.1) ∧ fields.Sorted :=
  List.pairwise_cons

theorem get?_eq_none (h : ∀ e ∈ fields, e.1 ≠ k) : fields.get? k = none := by
  induction fields with
  | nil => rfl
  | cons e rest ih =>
    rw [get?, if_neg (h e List.mem_cons_self)]
    exact ih fun e he => h e (List.mem_cons_of_mem _ he)

theorem mem_insert {e : String × Json} (h : e ∈ fields.insert key value) :
    e = (key, value) ∨ e ∈ fields := by
  induction fields with
  | nil => simp only [insert, List.mem_singleton] at h; exact Or.inl h
  | cons e₀ rest ih =>
    unfold insert at h
    split at h
    · rcases List.mem_cons.1 h with h | h
      · exact Or.inl h
      · exact Or.inr (List.mem_cons_of_mem _ h)
    · split at h
      · rcases List.mem_cons.1 h with h | h
        · exact Or.inl h
        · exact Or.inr h
      · rcases List.mem_cons.1 h with h | h
        · exact Or.inr (h ▸ List.mem_cons_self)
        · exact (ih h).imp_right (List.mem_cons_of_mem _)

theorem Sorted.insert (h : fields.Sorted) : (fields.insert key value).Sorted := by
  induction fields with
  | nil => exact List.pairwise_singleton _ _
  | cons e rest ih =>
    obtain ⟨k, v⟩ := e
    obtain ⟨hlt, hrest⟩ := sorted_cons.1 h
    unfold Fields.insert
    split
    · rename_i hk; subst hk; exact sorted_cons.2 ⟨hlt, hrest⟩
    · split
      · rename_i hk
        refine sorted_cons.2 ⟨fun e he => ?_, h⟩
        rcases List.mem_cons.1 he with he | he
        · rw [he]; exact hk
        · exact lt_trans hk (hlt e he)
      · rename_i hne hk
        refine sorted_cons.2 ⟨fun e he => ?_, ih hrest⟩
        rcases mem_insert he with he | he
        · rw [he]; exact lt_of_le_of_ne (not_lt.1 hk) (Ne.symm hne)
        · exact hlt e he

theorem sorted_ofList (entries : List (String × Json)) : (ofList entries).Sorted := by
  unfold ofList
  suffices h : ∀ fields : Fields, fields.Sorted →
      (entries.foldl (fun fields e => fields.insert e.1 e.2) fields).Sorted from h [] sorted_nil
  induction entries with
  | nil => exact fun _ h => h
  | cons e rest ih => exact fun fields h => ih _ h.insert

/-- The first entry of sorted entries is the one at the smallest key. -/
theorem head_le {a : String × Json} {as bs : Fields}
    (h : Fields.get? bs a.1 = Fields.get? (a :: as) a.1) {b : String × Json} {rest : Fields}
    (hb : bs = b :: rest) (hs : Sorted bs) : b.1 ≤ a.1 := by
  by_contra hlt
  have hnone : Fields.get? bs a.1 = none := by
    apply get?_eq_none
    intro e he heq
    rw [hb] at he hs
    rcases List.mem_cons.1 he with he | he
    · rw [he] at heq; exact hlt (le_of_eq heq)
    · have := (List.pairwise_cons.1 hs).1 e he
      rw [heq] at this; exact hlt (le_of_lt this)
  rw [hnone, get?, if_pos rfl] at h
  cases h

/-- **Sorted entries are determined by their look-ups.** -/
theorem ext_get? {a b : Fields} (ha : a.Sorted) (hb : b.Sorted) (h : ∀ k, a.get? k = b.get? k) :
    a = b := by
  induction a generalizing b with
  | nil =>
    cases b with
    | nil => rfl
    | cons e rest =>
      have := h e.1
      rw [get?, get?, if_pos rfl] at this; cases this
  | cons e as ih =>
    cases b with
    | nil =>
      have := h e.1
      rw [get?, get?, if_pos rfl] at this; cases this
    | cons e' bs =>
      -- the first key of each is found in the other, where no key is smaller than the first
      have hk : e.1 = e'.1 := le_antisymm (head_le (h e'.1) rfl ha) (head_le (h e.1).symm rfl hb)
      obtain ⟨k, v⟩ := e
      obtain ⟨k', v'⟩ := e'
      simp only at hk
      subst hk
      have hv := h k
      simp only [get?, if_true, Option.some.injEq] at hv
      subst hv
      obtain ⟨hla, hsa⟩ := sorted_cons.1 ha
      obtain ⟨hlb, hsb⟩ := sorted_cons.1 hb
      congr 1
      refine ih hsa hsb fun k' => ?_
      by_cases hkk : k = k'
      · subst hkk
        rw [get?_eq_none fun e he => (ne_of_lt (hla e he)).symm,
          get?_eq_none fun e he => (ne_of_lt (hlb e he)).symm]
      · have := h k'
        simpa only [get?, if_neg hkk] using this

end Fields

namespace Variables

variable {target source : Variables} {sources : List Variables} {k : String}

theorem sorted_assign (h : Fields.Sorted target) : Fields.Sorted (assign target source) := by
  unfold assign
  induction source generalizing target with
  | nil => exact h
  | cons e rest ih => exact ih h.insert

/-- **Of variables laid over others, the ones on top count.** -/
theorem get?_assign (h : Fields.Sorted source) :
    Fields.get? (assign target source) k = (Fields.get? source k).or (Fields.get? target k) := by
  unfold assign
  induction source generalizing target with
  | nil => rfl
  | cons e rest ih =>
    obtain ⟨key, value⟩ := e
    obtain ⟨hlt, hrest⟩ := Fields.sorted_cons.1 h
    rw [List.foldl_cons, ih hrest, Fields.get?_insert, Fields.get?]
    by_cases hk : key = k
    · subst hk
      rw [Fields.get?_eq_none fun e he => (ne_of_lt (hlt e he)).symm, if_pos rfl, if_pos rfl]; rfl
    · rw [if_neg hk, if_neg hk]

/-- The variables of several sources, each laid over those before it. -/
def ofSources (sources : List Variables) : Variables := sources.foldl assign []

/-- What the last of several sources that has a name gives it. -/
def lastOf (sources : List Variables) (k : String) : Option Json :=
  (sources.filterMap fun source => Fields.get? source k).getLast?

theorem get?_foldl_assign (h : ∀ source ∈ sources, Fields.Sorted source) :
    Fields.get? (sources.foldl assign target) k = (lastOf sources k).or (Fields.get? target k) := by
  unfold lastOf
  induction sources generalizing target with
  | nil => rfl
  | cons source rest ih =>
    rw [List.foldl_cons, ih fun s hs => h s (List.mem_cons_of_mem _ hs),
      get?_assign (h source List.mem_cons_self)]
    cases hg : Fields.get? source k with
    | none => simp only [List.filterMap_cons, hg, Option.none_or]
    | some v =>
      simp only [List.filterMap_cons, hg, List.getLast?_cons, Option.some_or]
      cases (rest.filterMap fun source => Fields.get? source k).getLast? <;> rfl

/-- **Of several sources, the last one that has a name counts.** -/
theorem get?_ofSources (h : ∀ source ∈ sources, Fields.Sorted source) :
    Fields.get? (ofSources sources) k = lastOf sources k := by
  rw [ofSources, get?_foldl_assign h]
  cases lastOf sources k <;> rfl

theorem sorted_foldl_assign (h : Fields.Sorted target) :
    Fields.Sorted (sources.foldl assign target) := by
  induction sources generalizing target with
  | nil => exact h
  | cons source rest ih => exact ih (sorted_assign h)

theorem sorted_ofSources (sources : List Variables) : Fields.Sorted (ofSources sources) :=
  sorted_foldl_assign Fields.sorted_nil

/-- Laying the variables of several sources over others at once is laying them over one by one. -/
theorem assign_ofSources (ht : Fields.Sorted target)
    (h : ∀ source ∈ sources, Fields.Sorted source) :
    assign target (ofSources sources) = sources.foldl assign target := by
  refine Fields.ext_get? (sorted_assign ht) (sorted_foldl_assign ht) fun k => ?_
  rw [get?_assign (sorted_ofSources _), get?_ofSources h, get?_foldl_assign h]

end Variables

end Runlist
