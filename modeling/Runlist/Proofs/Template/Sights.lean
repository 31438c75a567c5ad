import Runlist.Proofs.Template.Clauses

/-!
# What is seen in the parts of a text

What is seen at a place is told by the text up to the next brace, so a text is gone through part by
part.

* `Plain`: neither a brace nor a percent sign stands in a text.
* `sights_append`, `sights_statement`, `sights_braces`: **what is seen in a text without braces, in
  a statement, and where a reference starts.**
* `eq_of_statementOf?`: a statement that is a clause has its end behind a text without braces.
-/

namespace Runlist.Template

open Text (isBlank)

/-! ## Plain parts -/

/-- Neither a brace nor a percent sign stands in a text. -/
def Plain (u : List Char) : Prop := ∀ c ∈ u, isInside c

instance (u : List Char) : Decidable (Plain u) := inferInstanceAs (Decidable (∀ c ∈ u, isInside c))

theorem plain_append {u v : List Char} : Plain (u ++ v) ↔ Plain u ∧ Plain v :=
  List.forall_mem_append

theorem plain_cons {c : Char} {u : List Char} : Plain (c :: u) ↔ isInside c ∧ Plain u :=
  List.forall_mem_cons

theorem isInside_iff {c : Char} : isInside c ↔ c ≠ '\x7b' ∧ c ≠ '\x7d' ∧ c ≠ '%' := by
  rw [isInside, Bool.and_eq_true, Bool.and_eq_true, bne_iff_ne, bne_iff_ne, bne_iff_ne, and_assoc]

theorem plain_of {p : Char → Bool} (hp : p '\x7b' = false ∧ p '\x7d' = false ∧ p '%' = false)
    {u : List Char} (hu : ∀ c ∈ u, p c) : Plain u := by
  intro c hc
  have hpc := hu c hc
  refine isInside_iff.2 ⟨?_, ?_, ?_⟩
  · rintro rfl; rw [hp.1] at hpc; cases hpc
  · rintro rfl; rw [hp.2.1] at hpc; cases hpc
  · rintro rfl; rw [hp.2.2] at hpc; cases hpc

theorem plain_blanks {b : List Char} (hb : ∀ c ∈ b, isBlank c) : Plain b := plain_of (by decide) hb

theorem plain_path {path : List Char} (hp : ∀ c ∈ path, isPathChar c) : Plain path :=
  plain_of (by decide) hp

theorem Plain.no_brace {u : List Char} (h : Plain u) : '\x7b' ∉ u :=
  fun hmem => (isInside_iff.1 (h _ hmem)).1 rfl

/-! ## Tags -/

/-- No tag of a block holds a brace that opens, or a quote. -/
def endsTag (c : Char) : Bool := c == '\x7b' || c == '\'' || c == '"'

theorem tagSight?_append_cons {c : Char} (hc : endsTag c) (u s : List Char) :
    tagSight? (u ++ c :: s) = tagSight? u := by
  have hclause : ∀ clause : Clause, ∀ d ∈ clause.tagStart, endsTag d = false := by
    intro clause; cases clause <;> decide
  have hstart : ∀ start ∈ blockStarts, ∀ d ∈ start, endsTag d = false := by decide
  have hfind : (fun clause : Clause => clause.tagStart.isPrefixOf (u ++ c :: s)) =
      fun clause => clause.tagStart.isPrefixOf u :=
    funext fun clause => Text.isPrefixOf_append_cons
      (fun hmem => Bool.false_ne_true ((hclause clause c hmem).symm.trans hc)) s
  have hany : blockStarts.any (fun start => start.isPrefixOf (u ++ c :: s)) =
      blockStarts.any fun start => start.isPrefixOf u := by
    rw [Bool.eq_iff_iff, List.any_eq_true, List.any_eq_true]
    refine exists_congr fun start => and_congr_right fun hmem => ?_
    rw [Text.isPrefixOf_append_cons fun hmem' =>
      Bool.false_ne_true ((hstart start hmem c hmem').symm.trans hc)]
  rw [tagSight?, hfind, hany]
  rfl

/-- A text behind braces belongs to no block when it does not start like a tag of one. -/
theorem tagSight?_eq_none {s : List Char} :
    tagSight? s = none ↔ ∀ start ∈ blockStarts, ¬ start <+: s := by
  have hstart : ∀ clause : Clause, ∃ start ∈ blockStarts, start <+: clause.tagStart := by
    intro clause; cases clause <;> decide
  rw [tagSight?]
  cases hfind : Clause.all.find? fun clause => clause.tagStart.isPrefixOf s with
  | some clause =>
    obtain ⟨start, hmem, hstart⟩ := hstart clause
    have htag : clause.tagStart <+: s := List.isPrefixOf_iff_prefix.1 (List.find?_some hfind :)
    exact ⟨nofun, fun h => absurd (hstart.trans htag) (h start hmem)⟩
  | none =>
    have hany : (∀ start ∈ blockStarts, ¬ start <+: s) ↔
        ¬ blockStarts.any (fun start => start.isPrefixOf s) := by
      simp only [List.any_eq_true, not_exists, not_and, List.isPrefixOf_iff_prefix]
    dsimp only
    rw [hany]
    split <;> simp_all

/-- A tag is no statement. -/
theorem tagSight?_ne_statement (s : List Char) (clause : Option Clause) :
    tagSight? s ≠ some (.statement clause) := by
  rw [tagSight?]
  split
  · nofun
  · split <;> nofun

/-! ## Statements -/

/-- A statement that ends behind a plain text is told by this text. -/
theorem statementOf?_closing {inside : List Char} (hinside : Plain inside) (rest : List Char) :
    statementOf? (inside ++ (closing ++ rest)) = clauseOf? inside := by
  rw [statementOf?, show closing ++ rest = '%' :: '\x7d' :: rest from rfl,
    Text.dropWhile_append_cons hinside rfl, Text.takeWhile_append_cons hinside rfl,
    if_pos ⟨rest, rfl⟩]

/-- **A statement that is a clause** has its end behind a plain text. -/
theorem eq_of_statementOf? {s : List Char} {clause : Clause} (h : statementOf? s = some clause) :
    ∃ inside rest, Plain inside ∧ s = inside ++ (closing ++ rest) ∧
      clauseOf? inside = some clause := by
  rw [statementOf?] at h
  split at h
  · rename_i hclosing
    obtain ⟨rest, hrest⟩ := hclosing
    exact ⟨s.takeWhile isInside, rest, fun c hc => List.mem_takeWhile_imp hc,
      by rw [hrest, List.takeWhile_append_dropWhile], h⟩
  · cases h

theorem statementOf?_append {u : List Char} {clause : Clause} (h : statementOf? u = some clause)
    (s : List Char) : statementOf? (u ++ s) = some clause := by
  obtain ⟨inside, rest, hinside, rfl, hclause⟩ := eq_of_statementOf? h
  rw [List.append_assoc, List.append_assoc, statementOf?_closing hinside, hclause]

/-- **A brace ends what a statement is told by**, unless it is the one that closes the statement. -/
theorem statementOf?_append_stop {p : List Char} (hp : Plain p) {c : Char}
    (hc : c = '\x7b' ∨ c = '\x7d' ∧ p ≠ []) (u s : List Char) : statementOf? (u ++ (p ++ c :: s)) =
      statementOf? u := by
  have hinside : isInside c = false := by rcases hc with rfl | ⟨rfl, -⟩ <;> rfl
  rw [statementOf?, statementOf?]
  cases hdrop : u.dropWhile isInside with
  | nil =>
    have hopen : (u ++ (p ++ c :: s)).dropWhile isInside = c :: s := by
      rw [List.dropWhile_append, hdrop, List.isEmpty_nil, if_pos rfl,
        Text.dropWhile_append_cons hp hinside]
    have hnot : ¬ closing <+: c :: s := by
      intro h
      have hpercent : '%' = c := (List.cons_prefix_cons.1 h).1
      rcases hc with rfl | ⟨rfl, -⟩ <;> cases hpercent
    rw [hopen, if_neg hnot, if_neg (by decide)]
  | cons d r =>
    have hopen : (u ++ (p ++ c :: s)).dropWhile isInside = d :: (r ++ (p ++ c :: s)) := by
      rw [List.dropWhile_append, hdrop]
      rfl
    have htake : (u ++ (p ++ c :: s)).takeWhile isInside = u.takeWhile isInside := by
      rw [← List.takeWhile_append_dropWhile (p := isInside) (l := u), hdrop, List.append_assoc,
        List.cons_append, Text.takeWhile_append_cons (fun _ h => List.mem_takeWhile_imp h)
          (Text.dropWhile_head hdrop),
        Text.takeWhile_append_cons (fun _ h => List.mem_takeWhile_imp h)
          (Text.dropWhile_head hdrop)]
    -- when nothing stands behind the percent sign, what follows is no brace that closes
    have hclosing : closing <+: d :: (r ++ (p ++ c :: s)) ↔ closing <+: d :: r := by
      refine List.cons_prefix_cons.trans (Iff.trans ?_ List.cons_prefix_cons.symm)
      refine and_congr_right fun _ => ?_
      cases r with
      | cons e r => exact List.cons_prefix_cons.trans (List.cons_prefix_cons.trans (by simp)).symm
      | nil =>
        refine iff_of_false (fun h => ?_) (by decide)
        cases p with
        | nil =>
          have hbrace : '\x7d' = c := (List.cons_prefix_cons.1 h).1
          rcases hc with rfl | ⟨-, hne⟩
          · cases hbrace
          · exact hne rfl
        | cons e p =>
          have hbrace : '\x7d' = e := (List.cons_prefix_cons.1 h).1
          exact (isInside_iff.1 (hp e List.mem_cons_self)).2.1 hbrace.symm
    rw [hopen, htake, if_congr hclosing rfl rfl]

/-! ## Parts -/

theorem sights_cons (c : Char) (s : List Char) :
    sights (c :: s) = (sight? (c :: s)).toList ++ sights s := rfl

theorem sight?_of_ne {c : Char} (hc : c ≠ '\x7b') (s : List Char) : sight? (c :: s) = none := by
  unfold sight?
  split <;> simp_all

theorem sight?_brace {c : Char} (hc : c ≠ '\x7b' ∧ c ≠ '%') (s : List Char) :
    sight? ('\x7b' :: c :: s) = none := by
  unfold sight?
  split <;> simp_all

/-- Nothing is seen in a text without braces. -/
theorem sights_append {u : List Char} (hu : '\x7b' ∉ u) (s : List Char) :
    sights (u ++ s) = sights s := by
  induction u with
  | nil => rfl
  | cons c u ih =>
    rw [List.cons_append, sights_cons, sight?_of_ne fun hc => hu (hc ▸ List.mem_cons_self),
      ih (List.not_mem_of_not_mem_cons hu)]
    rfl

/-- **A statement is seen once**, as what it is told by. -/
theorem sights_statement {inside : List Char} (hinside : Plain inside) (rest : List Char) :
    sights (opening ++ (inside ++ (closing ++ rest))) =
      .statement (clauseOf? inside) :: sights rest := by
  have hno : '\x7b' ∉ '%' :: (inside ++ closing) := by
    simpa [closing] using hinside.no_brace
  have hsplit : '%' :: (inside ++ (closing ++ rest)) = ('%' :: (inside ++ closing)) ++ rest := by
    rw [List.cons_append, List.append_assoc]
  calc sights (opening ++ (inside ++ (closing ++ rest)))
      = .statement (statementOf? (inside ++ (closing ++ rest))) ::
        sights ('%' :: (inside ++ (closing ++ rest))) := rfl
    _ = .statement (clauseOf? inside) :: sights rest := by
      rw [statementOf?_closing hinside, hsplit, sights_append hno]

/-- **Where a reference starts** the tag is seen, and nothing in what is plain behind the braces. -/
theorem sights_braces {u : List Char} (hu : Plain u) (hne : u ≠ []) (s : List Char) :
    sights (openBraces ++ (u ++ s)) = (tagSight? (u ++ s)).toList ++ sights s := by
  have hsecond : sight? ('\x7b' :: (u ++ s)) = none := by
    cases u with
    | nil => exact absurd rfl hne
    | cons c u =>
      have hc := isInside_iff.1 (hu c List.mem_cons_self)
      exact sight?_brace ⟨hc.1, hc.2.2⟩ (u ++ s)
  calc sights (openBraces ++ (u ++ s))
      = (tagSight? (u ++ s)).toList ++ ((sight? ('\x7b' :: (u ++ s))).toList ++ sights (u ++ s)) :=
        rfl
    _ = (tagSight? (u ++ s)).toList ++ sights s := by
      rw [hsecond, sights_append hu.no_brace]
      rfl

/-- In a reference nothing is seen but its tag. -/
theorem sights_reference {body : List Char} (hbody : Plain body) (hne : body ≠ []) (s : List Char) :
    sights (openBraces ++ (body ++ (closeBraces ++ s))) =
      (tagSight? (body ++ (closeBraces ++ s))).toList ++ sights s := by
  rw [sights_braces hbody hne, sights_append (u := closeBraces) (by decide)]

/-- What is seen at a place is a statement, or a tag behind two braces. -/
theorem sight?_eq_some {s : List Char} {x : Sight} (h : sight? s = some x) :
    (∃ w, s = opening ++ w ∧ x = .statement (statementOf? w)) ∨ ∃ w, s = openBraces ++ w ∧
    tagSight? w = some x := by
  unfold sight? at h
  split at h
  · rename_i w
    exact .inl ⟨w, rfl, (Option.some.inj h).symm⟩
  · rename_i w
    exact .inr ⟨w, rfl, h⟩
  · cases h

/-- What is seen in a later part of a text is seen in the text. -/
theorem sights_suffix {s t : List Char} (h : s <:+ t) : sights s ⊆ sights t := by
  obtain ⟨u, rfl⟩ := h
  induction u with
  | nil => exact List.Subset.refl _
  | cons c u ih => exact List.subset_append_of_subset_right _ ih

/-- A text in which no statement is seen holds no start of one. -/
theorem opening_not_within {s : List Char} (h : ∀ clause, .statement clause ∉ sights s) :
    ¬ opening <:+: s := by
  rintro ⟨u, rest, rfl⟩
  have hsuffix : opening ++ rest <:+ u ++ opening ++ rest := ⟨u, (List.append_assoc ..).symm⟩
  exact h _ (sights_suffix hsuffix List.mem_cons_self)

end Runlist.Template
