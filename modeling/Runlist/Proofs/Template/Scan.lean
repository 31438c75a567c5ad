import Mathlib.Data.List.TakeWhile
import Runlist.Template.Rule

/-!
# Rules along a text

A rule is tried at each character from left to right, and so is a search. What they do to a text is
known part by part: they pass over characters at which they find nothing, and over what they find
they go on behind it.

* `Text.afterPrefix?_eq_some`, `Text.occursIn_eq_true`: a text stands at the start of another, or
  inside it.
* `replaceAll_pass`, `replaceAll_take`, `findAll_pass`, `findAll_take`: **one step of a rule and of
  a search.**
* `Opens`, `Braced`: rules that take something only where two braces stand, or a brace and a percent
  sign.
-/

namespace Runlist

namespace Text

variable {w s rest : List Char}

/-- A condition on the characters of a text is decided along the text, not along all the characters
there are. -/
instance (priority := 2000) decidableForallMem {p : Char → Prop} [DecidablePred p] (u : List Char) :
    Decidable (∀ c ∈ u, p c) :=
  List.decidableBAll p u

theorem afterPrefix?_append (w s : List Char) : afterPrefix? w (w ++ s) = some s := by
  induction w with
  | nil => rfl
  | cons c w ih => rw [List.cons_append, afterPrefix?, if_pos rfl, ih]

/-- **What stands behind a text at the start of another.** -/
theorem afterPrefix?_eq_some : afterPrefix? w s = some rest ↔ s = w ++ rest := by
  constructor
  · intro h
    induction w generalizing s with
    | nil => rw [afterPrefix?] at h; exact Option.some.inj h
    | cons c w ih =>
      cases s with
      | nil => cases h
      | cons d s =>
        rw [afterPrefix?] at h
        split at h
        · rename_i hcd
          rw [hcd, ih h, List.cons_append]
        · cases h
  · rintro rfl
    exact afterPrefix?_append w rest

theorem isSome_afterPrefix? : (afterPrefix? w s).isSome ↔ w <+: s := by
  rw [Option.isSome_iff_exists]
  exact exists_congr fun rest => afterPrefix?_eq_some.trans eq_comm

/-- **A text occurs in another** when it is a part of it. -/
theorem occursIn_eq_true : occursIn w s = true ↔ w <:+: s := by
  induction s with
  | nil => rw [occursIn, List.isEmpty_iff, List.infix_nil]
  | cons c s ih => rw [occursIn, Bool.or_eq_true, isSome_afterPrefix?, ih, List.infix_cons_iff]

/-- A text without a character at which the set ends is trimmed up to the next such character. -/
theorem dropWhile_append_cons {p : Char → Bool} {u : List Char} (hu : ∀ c ∈ u, p c) {c : Char}
    (hc : p c = false) (s : List Char) : (u ++ c :: s).dropWhile p = c :: s := by
  rw [List.dropWhile_append_of_pos hu,
    List.dropWhile_cons_of_neg (by rw [hc]; exact Bool.false_ne_true)]

theorem takeWhile_append_cons {p : Char → Bool} {u : List Char} (hu : ∀ c ∈ u, p c) {c : Char}
    (hc : p c = false) (s : List Char) : (u ++ c :: s).takeWhile p = u := by
  rw [List.takeWhile_append_of_pos hu,
    List.takeWhile_cons_of_neg (by rw [hc]; exact Bool.false_ne_true), List.append_nil]

/-- What is read as long as characters are of one kind is read up to a character of another kind. -/
theorem takeWhile_append_stop {p : Char → Bool} {c : Char} (hc : p c = false) (s t : List Char) :
    (s ++ c :: t).takeWhile p = s.takeWhile p := by
  induction s with
  | nil => rw [List.nil_append, List.takeWhile_cons, hc]; rfl
  | cons d s ih => rw [List.cons_append, List.takeWhile_cons, List.takeWhile_cons, ih]

theorem dropWhile_append_stop {p : Char → Bool} {c : Char} (hc : p c = false) (s t : List Char) :
    (s ++ c :: t).dropWhile p = s.dropWhile p ++ c :: t := by
  induction s with
  | nil => rw [List.nil_append, List.dropWhile_cons, hc]; rfl
  | cons d s ih =>
    rw [List.cons_append, List.dropWhile_cons, List.dropWhile_cons, ih]
    split <;> rfl

/-- **A part of characters of one kind ends in one way** before a character of another kind. -/
theorem append_cons_inj {p : Char → Bool} {u v t : List Char} (hu : ∀ c ∈ u, p c)
    (hv : ∀ c ∈ v, p c) {c d : Char} (hc : p c = false) (hd : p d = false)
    (h : u ++ c :: s = v ++ d :: t) : u = v ∧ c = d ∧ s = t := by
  have htake := congrArg (List.takeWhile p) h
  rw [takeWhile_append_cons hu hc, takeWhile_append_cons hv hd] at htake
  subst htake
  obtain ⟨hcd, hst⟩ := List.cons.inj (List.append_cancel_left h)
  exact ⟨rfl, hcd, hst⟩

theorem dropWhile_head {p : Char → Bool} {c : Char}
    (h : s.dropWhile p = c :: rest) : p c = false := by
  induction s with
  | nil => cases h
  | cons d s ih =>
    rw [List.dropWhile_cons] at h
    split at h
    · exact ih h
    · rename_i hd
      cases h
      exact Bool.eq_false_iff.2 hd

/-- What ends a part of characters of one kind is of another kind. -/
theorem dropWhile_stops (p : Char → Bool) (s : List Char) :
    s.dropWhile p = [] ∨ ∃ c rest, s.dropWhile p = c :: rest ∧ p c = false := by
  cases h : s.dropWhile p with
  | nil => exact .inl rfl
  | cons c rest => exact .inr ⟨c, rest, rfl, dropWhile_head h⟩

/-- **A part stands at the start of a text, or not**, before a character that is not part of it. -/
theorem isPrefixOf_append_cons {w u : List Char} {c : Char} (hc : c ∉ w) (s : List Char) :
    w.isPrefixOf (u ++ c :: s) = w.isPrefixOf u := by
  induction w generalizing u with
  | nil => rfl
  | cons d w ih =>
    cases u with
    | nil =>
      have hdc : (d == c) = false := beq_eq_false_iff_ne.2 fun h => hc (h ▸ List.mem_cons_self)
      rw [List.nil_append, List.isPrefixOf_cons_cons, hdc, Bool.false_and]
      rfl
    | cons e u =>
      rw [List.cons_append, List.isPrefixOf_cons_cons, List.isPrefixOf_cons_cons,
        ih (List.not_mem_of_not_mem_cons hc)]

/-- A text that a character ends which is not part of it. -/
theorem infix_append_cons {w u v : List Char} {c : Char} (hc : c ∉ w) :
    w <:+: u ++ c :: v ↔ w <:+: u ∨ w <:+: v := by
  constructor
  · rintro ⟨x, y, h⟩
    rw [List.append_assoc] at h
    rcases List.append_eq_append_iff.1 h with ⟨z, hu, hz⟩ | ⟨z, hx, hz⟩
    · rcases List.append_eq_append_iff.1 hz with ⟨z', hz', hcv⟩ | ⟨z', hw, hcv⟩
      · exact .inl ⟨x, z', by rw [hu, hz', List.append_assoc]⟩
      · cases z' with
        | nil => exact .inl ⟨x, [], by rw [hu, hw, List.append_nil, List.append_nil]⟩
        | cons d z' => cases hcv; exact absurd (hw ▸ List.mem_append_right _ List.mem_cons_self) hc
    · cases z with
      | nil =>
        rw [List.nil_append] at hz
        cases w with
        | nil => exact .inl List.nil_infix
        | cons d w => cases hz; exact absurd List.mem_cons_self hc
      | cons d z => cases hz; exact .inr ⟨z, y, List.append_assoc ..⟩
  · rintro (⟨x, y, rfl⟩ | ⟨x, y, rfl⟩)
    · exact ⟨x, y ++ c :: v, by simp only [List.append_assoc]⟩
    · exact ⟨u ++ c :: x, y, by simp only [List.append_assoc, List.cons_append]⟩

end Text

namespace Template

variable {α : Type}

/-! ## One step -/

theorem replaceAll_go_skip (rule : Rule) (u s : List Char) :
    replaceAll.go rule u.length (u ++ s) = replaceAll rule s := by
  induction u with
  | nil => rfl
  | cons c u ih => exact ih

theorem replaceAll_pass {rule : Rule} {c : Char} {s : List Char} (h : rule (c :: s) = none) :
    replaceAll rule (c :: s) = c :: replaceAll rule s := by
  rw [replaceAll, replaceAll.go, h]
  rfl

/-- **What a rule takes is replaced**, and the rule goes on behind it. -/
theorem replaceAll_take {rule : Rule} {c : Char} {u text rest : List Char}
    (h : rule (c :: (u ++ rest)) = some (text, rest)) :
    replaceAll rule (c :: (u ++ rest)) = text ++ replaceAll rule rest := by
  have hlength : (u ++ rest).length - rest.length = u.length := by
    rw [List.length_append, Nat.add_sub_cancel]
  rw [replaceAll, replaceAll.go, h]
  dsimp only
  rw [hlength, replaceAll_go_skip]

theorem findAll_go_skip (find? : List Char → Option (α × List Char)) (u s : List Char) :
    findAll.go find? u.length (u ++ s) = findAll find? s := by
  induction u with
  | nil => rfl
  | cons c u ih => exact ih

theorem findAll_pass {find? : List Char → Option (α × List Char)} {c : Char} {s : List Char}
    (h : find? (c :: s) = none) : findAll find? (c :: s) = findAll find? s := by
  rw [findAll, findAll.go, h]
  rfl

/-- **What a search finds is noted**, and the search goes on behind it. -/
theorem findAll_take {find? : List Char → Option (α × List Char)} {c : Char} {u rest : List Char}
    {a : α} (h : find? (c :: (u ++ rest)) = some (a, rest)) : findAll find? (c :: (u ++ rest)) =
      a :: findAll find? rest := by
  have hlength : (u ++ rest).length - rest.length = u.length := by
    rw [List.length_append, Nat.add_sub_cancel]
  rw [findAll, findAll.go, h]
  dsimp only
  rw [hlength, findAll_go_skip]

/-! ## Rules that need a brace -/

/-- Two braces stand at the start of a text, or a brace and a percent sign. -/
def Opens (s : List Char) : Prop := openBraces <+: s ∨ opening <+: s

/-- The rule takes something only where two braces stand, or a brace and a percent sign. -/
def Braced (find? : List Char → Option α) : Prop := ∀ s, (find? s).isSome → Opens s

theorem Braced.eq_none {find? : List Char → Option α} (h : Braced find?) {s : List Char}
    (hs : ¬ Opens s) : find? s = none :=
  Option.not_isSome_iff_eq_none.1 fun hsome => hs (h s hsome)

theorem Opens.head {c : Char} {s : List Char} (h : Opens (c :: s)) : c = '\x7b' := by
  rcases h with h | h <;> exact ((List.cons_prefix_cons.1 h).1).symm

/-- A rule passes over a part without braces. -/
theorem replaceAll_append {rule : Rule} (h : Braced rule) {u : List Char} (hu : '\x7b' ∉ u)
    (s : List Char) : replaceAll rule (u ++ s) = u ++ replaceAll rule s := by
  induction u with
  | nil => rfl
  | cons c u ih =>
    have hnone : rule (c :: (u ++ s)) = none :=
      h.eq_none fun hopens => hu (hopens.head ▸ List.mem_cons_self)
    rw [List.cons_append, replaceAll_pass hnone, ih (List.not_mem_of_not_mem_cons hu),
      List.cons_append]

theorem findAll_append {find? : List Char → Option (α × List Char)} (h : Braced find?)
    {u : List Char} (hu : '\x7b' ∉ u) (s : List Char) : findAll find? (u ++ s) =
      findAll find? s := by
  induction u with
  | nil => rfl
  | cons c u ih =>
    have hnone : find? (c :: (u ++ s)) = none :=
      h.eq_none fun hopens => hu (hopens.head ▸ List.mem_cons_self)
    rw [List.cons_append, findAll_pass hnone, ih (List.not_mem_of_not_mem_cons hu)]

end Template

end Runlist
