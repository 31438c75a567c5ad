import Runlist.Proofs.Template.Kept

/-!
# Statements become tags

A statement of a clause is a whole: its keyword is read, what stands behind it, and its end. The
rule for a clause takes just the statements of this clause, from their start to their end, and
writes a tag of the clause.

* `afterKeyword?_statement`: **what stands behind the keyword of a statement**, up to its end.
* `Turns`, `Complete`: a rule takes nothing but statements of a clause, and it takes all of them.
* `Turns.becomes`, `Turns.none_left`: what is seen in a text afterwards.
-/

namespace Runlist.Template

open Text (isBlank)

variable {s t text rest : List Char} {clause c : Clause}

/-! ## Up to the end of a statement

A percent sign is none of the characters that are read over, so that a part is read in front of the
end of a statement as it is read by itself. -/

theorem trimLeft_closing (s rest : List Char) :
    Text.trimLeft (s ++ (closing ++ rest)) = Text.trimLeft s ++ (closing ++ rest) :=
  Text.dropWhile_append_stop rfl s ('\x7d' :: rest)

theorem skipDash_cons {c : Char} (hc : c ≠ '-') (s : List Char) : skipDash (c :: s) = c :: s := by
  unfold skipDash
  split <;> simp_all

theorem skipDash_closing (s rest : List Char) :
    skipDash (s ++ (closing ++ rest)) = skipDash s ++ (closing ++ rest) := by
  match s with
  | [] => rfl
  | c :: s =>
    by_cases hc : c = '-'
    · subst hc; rfl
    · rw [List.cons_append, skipDash_cons hc, skipDash_cons hc, List.cons_append]

theorem afterClosing?_closing (s rest : List Char) :
    afterClosing? (s ++ (closing ++ rest)) =
      Text.afterPrefix? closing (skipDash (Text.trimLeft s) ++ (closing ++ rest)) := by
  rw [afterClosing?, trimLeft_closing, skipDash_closing]

theorem afterClosing?_of_isEnd (h : isEnd s) (rest : List Char) :
    afterClosing? (s ++ (closing ++ rest)) = some rest := by
  rw [afterClosing?_closing, List.isEmpty_iff.1 h, List.nil_append, Text.afterPrefix?_append]

theorem afterBlank?_closing (s rest : List Char) :
    afterBlank? (s ++ (closing ++ rest)) = (afterBlank? s).map (· ++ (closing ++ rest)) := by
  cases s with
  | nil => rfl
  | cons c s =>
    have hhead (x : List Char) :
        afterBlank? (c :: x) = if isBlank c then some (Text.trimLeft (c :: x)) else none := rfl
    rw [List.cons_append, hhead, hhead, ← List.cons_append, trimLeft_closing]
    split <;> rfl

theorem word?_closing (s rest : List Char) :
    word? (s ++ (closing ++ rest)) = (word? s).map fun (word, r) =>
      (word, r ++ (closing ++ rest)) := by
  rw [word?, word?, show closing ++ rest = '%' :: '\x7d' :: rest from rfl,
    Text.takeWhile_append_stop rfl, Text.dropWhile_append_stop rfl]
  split <;> rfl

theorem path?_closing (s rest : List Char) :
    path? (s ++ (closing ++ rest)) = (path? s).map fun (path, r) =>
      (path, r ++ (closing ++ rest)) := by
  rw [path?, path?, show closing ++ rest = '%' :: '\x7d' :: rest from rfl,
    Text.takeWhile_append_stop rfl, Text.dropWhile_append_stop rfl]
  split <;> rfl

/-- A text that is read in front of more is read by itself. -/
theorem afterPrefix?_closing {w r : List Char} (h : Text.afterPrefix? w s = some r)
    (rest : List Char) :
    Text.afterPrefix? w (s ++ (closing ++ rest)) = some (r ++ (closing ++ rest)) := by
  rw [Text.afterPrefix?_eq_some.1 h, List.append_assoc, Text.afterPrefix?_append]

/-- The end of a statement is found where it stands. -/
theorem eq_of_afterClosing? (hs : Plain s) {r : List Char}
    (h : afterClosing? (s ++ (closing ++ rest)) = some r) : r = rest := by
  rw [afterClosing?_closing] at h
  have hskip : Plain (skipDash (Text.trimLeft s)) := by
    have htrim : Plain (Text.trimLeft s) := fun c hc => hs c ((List.dropWhile_suffix _).subset hc)
    unfold skipDash
    split
    · exact fun c hc => htrim c (by rw [‹Text.trimLeft s = _›]; exact List.mem_cons_of_mem _ hc)
    · exact htrim
  have heq := Text.afterPrefix?_eq_some.1 h
  have hnil : Plain [] := fun _ hmem => absurd hmem List.not_mem_nil
  exact (List.tail_eq_of_cons_eq
    (Text.append_cons_inj (t := '\x7d' :: r) hskip hnil rfl rfl heq).2.2).symm

/-! ## What stands behind a keyword -/

/-- The keyword of a statement, and what stands behind it. -/
theorem clauseOf?_eq_some {inside : List Char} (h : clauseOf? inside = some clause) :
    unframed inside = clause.keyword.toList ++ (unframed inside).dropWhile Text.isWord ∧
      clause.continues ((unframed inside).dropWhile Text.isWord) := by
  have hfound := List.find?_some h
  rw [Bool.and_eq_true, beq_iff_eq] at hfound
  refine ⟨?_, hfound.2⟩
  rw [hfound.1, String.toList_ofList, List.takeWhile_append_dropWhile]

/-- No keyword of a clause starts the text that starts with another. -/
theorem afterPrefix?_keyword (clause : Clause) {c : Clause} (hc : clause ≠ c) (s : List Char) :
    Text.afterPrefix? clause.keyword.toList (c.keyword.toList ++ s) = none := by
  cases clause <;> cases c <;> first | exact absurd rfl hc | rfl

theorem unframed_suffix (inside : List Char) : unframed inside <:+ inside := by
  have hskip : skipDash inside <:+ inside := by
    unfold skipDash
    split
    · exact List.suffix_cons ..
    · exact List.suffix_refl _
  exact (List.dropWhile_suffix _).trans hskip

/-- **A keyword is read in the statements of its clause**, and in those of no other. -/
theorem afterKeyword?_statement {inside : List Char} (h : clauseOf? inside = some c)
    (clause : Clause) (rest : List Char) :
    afterKeyword? clause.keyword (opening ++ (inside ++ (closing ++ rest))) =
      if clause = c then some ((unframed inside).dropWhile Text.isWord ++ (closing ++ rest))
        else none := by
  have hopening : afterOpening? (opening ++ (inside ++ (closing ++ rest))) =
      some (unframed inside ++ (closing ++ rest)) := by
    rw [afterOpening?, Text.afterPrefix?_append, Option.map_some, skipDash_closing,
      trimLeft_closing]
    rfl
  rw [afterKeyword?, hopening, Option.bind_eq_bind, Option.bind_some, (clauseOf?_eq_some h).1,
    List.append_assoc]
  split
  · rename_i hc
    rw [hc, Text.afterPrefix?_append, ← (clauseOf?_eq_some h).1]
  · rename_i hc
    exact afterPrefix?_keyword clause hc _

/-! ## Rules for clauses -/

/-- The rule takes the statements of a clause as a whole, and no other statement. -/
structure Turns (rule : Rule) (clause : Clause) : Prop where
  rewrites : Rewrites rule
  opens : ∀ {s text rest}, rule s = some (text, rest) → opening <+: s
  takes : ∀ {inside rest text r c}, Plain inside → clauseOf? inside = some c →
    rule (opening ++ (inside ++ (closing ++ rest))) = some (text, r) → c = clause ∧ r = rest ∧
      ∃ body, Plain body ∧ body ≠ [] ∧ text = openBraces ++ (body ++ closeBraces) ∧
        ∀ x, tagSight? (body ++ (closeBraces ++ x)) = some (.tag clause)

/-- The rule takes every statement of a clause. -/
def Complete (rule : Rule) (clause : Clause) : Prop :=
  ∀ {inside} rest, Plain inside → clauseOf? inside = some clause →
  (rule (opening ++ (inside ++ (closing ++ rest)))).isSome

theorem sight?_eq_statement {o : Option Clause} (h : sight? s = some (.statement o)) :
    ∃ w, s = opening ++ w ∧ statementOf? w = o := by
  rcases sight?_eq_some h with ⟨w, hs, hw⟩ | ⟨w, -, hw⟩
  · exact ⟨w, hs, (Sight.statement.inj hw).symm⟩
  · exact absurd hw (tagSight?_ne_statement _ _)

/-- A statement that is seen is one of a clause, where only such statements are seen. -/
theorem eq_statement (hs : Sight.statement none ∉ sights s) (hopen : opening <+: s) :
    ∃ inside rest c, Plain inside ∧ s = opening ++ (inside ++ (closing ++ rest)) ∧
      clauseOf? inside = some c := by
  obtain ⟨w, rfl⟩ := hopen
  cases hw : statementOf? w with
  | none => exact absurd (List.mem_append_left _ (Option.mem_toList.2 (by rw [← hw]; rfl))) hs
  | some c =>
    obtain ⟨inside, rest, hinside, rfl, hclause⟩ := eq_of_statementOf? hw
    exact ⟨inside, rest, c, hinside, rfl, hclause⟩

section Turns

variable {rule : Rule} (h : Turns rule clause)

include h

/-- **The statements that a rule takes become tags of their clause**, and the rest is seen as
before. -/
theorem Turns.becomes (hs : Sight.statement none ∉ sights s) :
    List.Forall₂ Sight.Becomes (sights s) (sights (replaceAll rule s)) := by
  refine sights_replaceAll h.rewrites (fun _ => .inl rfl) (fun s => Sight.statement none ∉ sights s)
    (fun u s hgood hmem => hgood (sights_suffix (List.suffix_append u s) hmem)) ?_ hs
  intro s text r hgood hrule
  obtain ⟨inside, rest, c, hinside, rfl, hclause⟩ := eq_statement hgood (h.opens hrule)
  obtain ⟨rfl, rfl, body, hbody, hne, rfl, htag⟩ := h.takes hinside hclause hrule
  refine ⟨[.statement (some c)], [.tag c], .cons (.inr ⟨c, rfl, rfl⟩) .nil, ?_, fun x => ?_⟩
  · rw [sights_statement hinside, hclause]
    rfl
  · rw [List.append_assoc, List.append_assoc, sights_reference hbody hne, htag]
    rfl

/-- **No statement of the clause is left** by a rule that takes all of them. -/
theorem Turns.none_left (hcomplete : Complete rule clause) (hs : Sight.statement none ∉ sights s) :
    Sight.statement (some clause) ∉ sights (replaceAll rule s) := by
  refine replaceAll_induction h.rewrites
    (motive := fun s s' => Sight.statement none ∉ sights s →
      Sight.statement (some clause) ∉ sights s') ?nil ?pass ?take
    s hs
  case nil => exact fun _ => List.not_mem_nil
  case pass =>
    intro c s hrule ih hgood hmem
    rw [sights_cons, sight?_replaceAll h.rewrites] at hmem
    rcases List.mem_append.1 hmem with hmem | hmem
    · obtain ⟨w, hw, hstatement⟩ := sight?_eq_statement (Option.mem_toList.1 hmem)
      obtain ⟨inside, rest, hinside, rfl, hclause⟩ := eq_of_statementOf? hstatement
      have htaken := hcomplete rest hinside hclause
      rw [← hw, hrule] at htaken
      cases htaken
    · exact ih (fun hnone => hgood (List.mem_append_right _ hnone)) hmem
  case take =>
    intro s text r hrule ih hgood hmem
    obtain ⟨inside, rest, c, hinside, rfl, hclause⟩ := eq_statement hgood (h.opens hrule)
    obtain ⟨rfl, rfl, body, hbody, hne, rfl, htag⟩ := h.takes hinside hclause hrule
    rw [List.append_assoc, List.append_assoc, sights_reference hbody hne, htag] at hmem
    rw [sights_statement hinside] at hgood
    rcases List.mem_cons.1 hmem with heq | hmem
    · cases heq
    · exact ih (fun hnone => hgood (List.mem_cons_of_mem _ hnone)) hmem

end Turns

/-! ## Where rules for clauses start and end -/

theorem afterKeyword?_eq_some {keyword : String} (h : afterKeyword? keyword s = some rest) :
    ∃ u, s = opening ++ (u ++ rest) := by
  rw [afterKeyword?, Option.bind_eq_bind, Option.bind_eq_some_iff] at h
  obtain ⟨s₁, h₁, h₂⟩ := h
  rw [afterOpening?, Option.map_eq_some_iff] at h₁
  obtain ⟨s₀, h₀, rfl⟩ := h₁
  obtain ⟨b, -, hb⟩ := trimLeft_split (skipDash s₀)
  have hskip : ∃ d, s₀ = d ++ skipDash s₀ := by
    unfold skipDash
    split
    · exact ⟨['-'], rfl⟩
    · exact ⟨[], rfl⟩
  obtain ⟨d, hd⟩ := hskip
  refine ⟨d ++ (b ++ keyword.toList), ?_⟩
  rw [Text.afterPrefix?_eq_some.1 h₀, List.append_assoc, List.append_assoc,
    ← Text.afterPrefix?_eq_some.1 h₂, ← hb, ← hd]

theorem afterBlank?_eq_some (h : afterBlank? s = some rest) : ∃ b, s = b ++ rest := by
  rw [afterBlank?] at h
  split at h
  · obtain ⟨b, -, hb⟩ := trimLeft_split s
    exact ⟨b, by rw [← Option.some.inj h, ← hb]⟩
  · cases h

theorem afterClosing?_suffix (h : afterClosing? s = some rest) : rest <:+ s := by
  rw [afterClosing?] at h
  have hskip : skipDash (Text.trimLeft s) <:+ Text.trimLeft s := by
    unfold skipDash
    split
    · exact ‹Text.trimLeft s = _› ▸ List.suffix_cons ..
    · exact List.suffix_refl _
  have hclosing : rest <:+ skipDash (Text.trimLeft s) :=
    ⟨closing, (Text.afterPrefix?_eq_some.1 h).symm⟩
  exact (hclosing.trans hskip).trans (List.dropWhile_suffix _)

/-- A rule that takes statements. -/
theorem rewrites_of_opening {rule : Rule} (h : ∀ {s text rest}, rule s = some (text, rest) →
    ∃ u body, s = opening ++ (u ++ rest) ∧ text = openBraces ++ (body ++ closeBraces)) :
      Rewrites rule where
  braced := by
    intro s hsome
    obtain ⟨⟨text, rest⟩, hrule⟩ := Option.isSome_iff_exists.1 hsome
    obtain ⟨u, -, hs, -⟩ := h hrule
    exact .inr ⟨u ++ rest, hs.symm⟩
  writes := by
    intro s text rest hrule
    obtain ⟨u, body, hs, htext⟩ := h hrule
    exact ⟨'%' :: u, body, hs, htext⟩

theorem tagSight?_clause {clause : Clause} {u : List Char} (h : ∃ v, u = clause.tagStart ++ v) :
    tagSight? u = some (.tag clause) := by
  obtain ⟨v, rfl⟩ := h
  cases clause <;> rfl

/-! ## Statements that are only a keyword -/

theorem bare_eq_some {keyword tag : String} (h : bare keyword tag s = some (text, rest)) :
    ∃ u, s = opening ++ (u ++ rest) ∧ text = openBraces ++ (tag.toList ++ closeBraces) := by
  simp only [bare, Option.bind_eq_bind, Option.bind_eq_some_iff] at h
  obtain ⟨s₁, h₁, r, h₂, h₃⟩ := h
  obtain ⟨rfl, rfl⟩ := Prod.mk.inj (Option.some.inj h₃)
  obtain ⟨u, rfl⟩ := afterKeyword?_eq_some h₁
  obtain ⟨v, rfl⟩ := afterClosing?_suffix h₂
  exact ⟨u ++ v, by rw [List.append_assoc], List.append_assoc ..⟩

theorem bare_statement {inside : List Char} (h : clauseOf? inside = some c) (tag : String)
    (clause : Clause) (hend : ∀ r, c.continues r → clause = c → isEnd r) (rest : List Char) :
    bare clause.keyword tag (opening ++ (inside ++ (closing ++ rest))) =
      if clause = c then some (reference tag.toList, rest) else none := by
  rw [bare, afterKeyword?_statement h]
  split
  · rename_i hc
    rw [Option.bind_eq_bind, Option.bind_some,
      afterClosing?_of_isEnd (hend _ (clauseOf?_eq_some h).2 hc)]
    rfl
  · rfl

theorem turns_bare (clause : Clause) (tag : String) (hend : ∀ r, clause.continues r → isEnd r)
    (htag : clause.tagStart = tag.toList ++ closeBraces) (hplain : Plain tag.toList)
    (hne : tag.toList ≠ []) :
    Turns (bare clause.keyword tag) clause ∧ Complete (bare clause.keyword tag) clause := by
  refine ⟨⟨rewrites_of_opening fun h => ?_, fun h => ?_, ?_⟩, ?_⟩
  · obtain ⟨u, hs, htext⟩ := bare_eq_some h
    exact ⟨u, _, hs, htext⟩
  · obtain ⟨u, hs, -⟩ := bare_eq_some h
    exact ⟨_, hs.symm⟩
  · intro inside rest text r c _ hclause hrule
    rw [bare_statement hclause tag clause fun r hr hc => hend r (hc ▸ hr)] at hrule
    split at hrule
    · rename_i hc
      obtain ⟨rfl, rfl⟩ := Prod.mk.inj (Option.some.inj hrule)
      exact ⟨hc.symm, rfl, tag.toList, hplain, hne, List.append_assoc .., fun x =>
        tagSight?_clause ⟨x, by rw [htag, List.append_assoc]⟩⟩
    · cases hrule
  · intro inside rest _ hclause
    rw [bare_statement hclause tag clause fun r hr _ => hend r hr, if_pos rfl]
    rfl

/-! ## Statements with a condition -/

theorem isEnd_split (h : isEnd s) :
    ∃ b d, s = b ++ d ∧ (∀ c ∈ b, isBlank c) ∧ (d = [] ∨ d = ['-']) := by
  obtain ⟨b, hb, hs⟩ := trimLeft_split s
  refine ⟨b, Text.trimLeft s, hs, hb, ?_⟩
  rw [isEnd, List.isEmpty_iff] at h
  unfold skipDash at h
  split at h
  · rename_i hdash
    exact .inr (by rw [hdash, h])
  · exact .inl h

theorem isEnd_append {b d : List Char} (hb : ∀ c ∈ b, isBlank c) (hd : d = [] ∨ d = ['-']) :
    isEnd (b ++ d) := by
  have htrim : Text.trimLeft (b ++ d) = d := by
    rcases hd with rfl | rfl
    · rw [List.append_nil]
      exact List.dropWhile_eq_nil_iff.2 hb
    · exact Text.dropWhile_append_cons hb rfl []
  rw [isEnd, htrim]
  rcases hd with rfl | rfl <;> rfl

theorem withoutEnd_split (s : List Char) : ∃ tail, s = withoutEnd s ++ tail ∧ isEnd tail := by
  obtain ⟨b, hb, hsplit⟩ := trimRight_split (skipDash s.reverse).reverse
  have hdash : ∃ d, s = (skipDash s.reverse).reverse ++ d ∧ (d = [] ∨ d = ['-']) := by
    unfold skipDash
    split
    · rename_i x hx
      exact ⟨['-'], by rw [← List.reverse_cons, ← hx, List.reverse_reverse], .inr rfl⟩
    · exact ⟨[], by rw [List.reverse_reverse, List.append_nil], .inl rfl⟩
  obtain ⟨d, hs, hd⟩ := hdash
  refine ⟨b ++ d, ?_, isEnd_append hb hd⟩
  rw [withoutEnd, ← List.append_assoc, ← hsplit, ← hs]

/-- A condition behind blanks, and the end of the statement behind it. -/
structure ConditionAt (s cond tail : List Char) : Prop where
  afterBlank : afterBlank? s = some (cond ++ tail)
  afterBlanks : ∃ n, (∀ x, ((s ++ (closing ++ x)).takeWhile isBlank).length = n + 1) ∧
    ∀ x, (s ++ (closing ++ x)).drop (n + 1) = cond ++ (tail ++ (closing ++ x))
  isCondition : isCondition cond
  isEnd : isEnd tail
  suffix : cond ++ tail <:+ s

theorem exists_condition (h : (afterBlank? (withoutEnd s)).any isCondition) :
    ∃ cond tail, ConditionAt s cond tail := by
  obtain ⟨tail, hs, htail⟩ := withoutEnd_split s
  rw [Option.any_eq_true] at h
  obtain ⟨cond, hcond, hiscond⟩ := h
  rw [afterBlank?] at hcond
  split at hcond
  · rename_i hhead
    obtain ⟨b, hb, hsplit⟩ := trimLeft_split (withoutEnd s)
    rw [Option.some.inj hcond] at hsplit
    have hfirst : ∀ {d cond'}, cond = d :: cond' → isBlank d = false := by
      rintro d cond' rfl
      exact Text.dropWhile_head (Option.some.inj hcond)
    cases cond with
    | nil => cases hiscond
    | cons d cond =>
      have hd : isBlank d = false := hfirst rfl
      cases b with
      | nil =>
        rw [hsplit, List.nil_append, List.head?_cons, Option.any_some, hd] at hhead
        cases hhead
      | cons a b =>
        have happend (x : List Char) : s ++ x = (a :: b) ++ d :: (cond ++ (tail ++ x)) := by
          conv => lhs; rw [hs, hsplit]
          simp only [List.append_assoc, List.cons_append]
        have hself : s = (a :: b) ++ d :: (cond ++ tail) := by
          have := happend []
          rwa [List.append_nil, List.append_nil] at this
        refine ⟨d :: cond, tail, ?_, ⟨b.length, fun x => ?_, fun x => ?_⟩, hiscond, htail,
          ⟨a :: b, hself.symm⟩⟩
        · have ha : s.head?.any isBlank = true := by
            rw [hself]
            exact hb a List.mem_cons_self
          rw [afterBlank?, if_pos ha, hself, Text.trimLeft, Text.dropWhile_append_cons hb hd]
          rfl
        · rw [happend, Text.takeWhile_append_cons hb hd]
          rfl
        · rw [happend]
          exact List.drop_left
  · cases hcond

/-- The condition that is read is part of the one that stands there, and the end that is found is
the one of the statement. -/
theorem condition?_statement {cond tail : List Char} (hne : cond ≠ [])
    (hline : ∀ c ∈ cond, c ≠ '\n') (hplain : Plain (cond ++ tail)) (hend : isEnd tail)
    (rest : List Char) :
    ∃ u, condition? (cond ++ (tail ++ (closing ++ rest))) = some (u, rest) ∧
      u <+: cond ∧ u ≠ [] := by
  induction cond with
  | nil => exact absurd rfl hne
  | cons c cond ih =>
    have hc : (c == '\n') = false := beq_eq_false_iff_ne.2 (hline c List.mem_cons_self)
    have hplain' : Plain (cond ++ tail) := fun d hd => hplain d (List.mem_cons_of_mem _ hd)
    rw [List.cons_append, condition?, hc]
    -- the shortest condition is taken, which ends where the end of a statement can be read
    cases hclosing : afterClosing? (cond ++ (tail ++ (closing ++ rest))) with
    | some r =>
      rw [← List.append_assoc] at hclosing
      rw [eq_of_afterClosing? hplain' hclosing]
      exact ⟨[c], rfl, ⟨cond, rfl⟩, List.cons_ne_nil _ _⟩
    | none =>
      have hne' : cond ≠ [] := by
        rintro rfl
        rw [List.nil_append, afterClosing?_of_isEnd hend] at hclosing
        cases hclosing
      obtain ⟨u, hu, hprefix, -⟩ :=
        ih hne' (fun d hd => hline d (List.mem_cons_of_mem _ hd)) hplain'
      refine ⟨c :: u, ?_, List.cons_prefix_cons.2 ⟨rfl, hprefix⟩, List.cons_ne_nil _ _⟩
      simp only [hu, Option.map_some]
      rfl

theorem condition?_eq_some {u : List Char} (h : condition? s = some (u, rest)) :
    ∃ v, s = u ++ (v ++ rest) := by
  induction s generalizing u with
  | nil => cases h
  | cons c s ih =>
    rw [condition?] at h
    split at h
    · cases h
    · split at h
      · rename_i hclosing
        obtain ⟨rfl, rfl⟩ := Prod.mk.inj (Option.some.inj h)
        obtain ⟨v, rfl⟩ := afterClosing?_suffix hclosing
        exact ⟨v, rfl⟩
      · obtain ⟨⟨u', r⟩, hu, h⟩ := Option.map_eq_some_iff.1 h
        obtain ⟨rfl, rfl⟩ := Prod.mk.inj h
        obtain ⟨v, rfl⟩ := ih hu
        exact ⟨v, rfl⟩

theorem blanksThenCondition?_eq_some {u : List Char} {n : Nat}
    (h : blanksThenCondition? s n = some (u, rest)) : ∃ b v, s = b ++ (u ++ (v ++ rest)) := by
  induction n with
  | zero => cases h
  | succ n ih =>
    rw [blanksThenCondition?, Option.or_eq_some_iff] at h
    rcases h with h | ⟨-, h⟩
    · obtain ⟨v, hv⟩ := condition?_eq_some h
      exact ⟨s.take (n + 1), v, by rw [← hv, List.take_append_drop]⟩
    · exact ih h

theorem conditional_eq_some {keyword tag : String}
    (h : conditional keyword tag s = some (text, rest)) :
    ∃ b u v, s = opening ++ (b ++ (u ++ (v ++ rest))) ∧
      text = openBraces ++ ((tag.toList ++ u) ++ closeBraces) := by
  simp only [conditional, Option.bind_eq_bind, Option.bind_eq_some_iff] at h
  obtain ⟨s₁, h₁, ⟨u, r⟩, h₂, h₃⟩ := h
  obtain ⟨rfl, rfl⟩ := Prod.mk.inj (Option.some.inj h₃)
  obtain ⟨b, rfl⟩ := afterKeyword?_eq_some h₁
  obtain ⟨b', v, rfl⟩ := blanksThenCondition?_eq_some h₂
  exact ⟨b ++ b', u, v, by rw [List.append_assoc], List.append_assoc ..⟩

theorem Plain.of_suffix {u v : List Char} (h : Plain v) (huv : u <:+ v) : Plain u :=
  fun c hc => h c (huv.subset hc)

/-- What stands behind the keyword in a plain text is plain. -/
theorem plain_continuation {inside : List Char} (h : Plain inside) :
    Plain ((unframed inside).dropWhile Text.isWord) :=
  h.of_suffix ((List.dropWhile_suffix _).trans (unframed_suffix inside))

/-- **The rule for a condition** at a statement of its clause. -/
theorem conditional_statement {inside : List Char} (hinside : Plain inside)
    (h : clauseOf? inside = some clause)
    (hcondition : ∀ r, clause.continues r → (afterBlank? (withoutEnd r)).any isCondition)
    (tag : String) (rest : List Char) :
    ∃ u, conditional clause.keyword tag (opening ++ (inside ++ (closing ++ rest))) =
      some (reference (tag.toList ++ u), rest) ∧
      Plain u ∧ u ≠ [] := by
  obtain ⟨cond, tail, hcond⟩ := exists_condition (hcondition _ (clauseOf?_eq_some h).2)
  obtain ⟨n, hlength, hdrop⟩ := hcond.afterBlanks
  have hplain : Plain (cond ++ tail) := (plain_continuation hinside).of_suffix hcond.suffix
  have hiscond := hcond.isCondition
  rw [isCondition, Bool.and_eq_true, Bool.and_eq_true, List.all_eq_true] at hiscond
  obtain ⟨⟨hne, hline⟩, -⟩ := hiscond
  obtain ⟨u, hu, hstart, hu'⟩ :=
    condition?_statement (by rintro rfl; cases hne) (fun c hc => bne_iff_ne.1 (hline c hc))
    hplain hcond.isEnd rest
  refine ⟨u, ?_, fun c hc => hplain c (List.mem_append_left _ (hstart.subset hc)), hu'⟩
  rw [conditional, afterKeyword?_statement h, if_pos rfl, Option.bind_eq_bind,
    Option.bind_some, hlength, blanksThenCondition?, hdrop, hu]
  rfl

theorem turns_conditional (clause : Clause) (tag : String)
    (hcondition : ∀ r, clause.continues r → (afterBlank? (withoutEnd r)).any isCondition)
    (htag : clause.tagStart = tag.toList) (hplain : Plain tag.toList) :
    Turns (conditional clause.keyword tag) clause ∧
    Complete (conditional clause.keyword tag) clause := by
  refine ⟨⟨rewrites_of_opening fun h => ?_, fun h => ?_, ?_⟩, ?_⟩
  · obtain ⟨b, u, v, rfl, htext⟩ := conditional_eq_some h
    exact ⟨b ++ (u ++ v), _, by simp only [List.append_assoc], htext⟩
  · obtain ⟨b, u, v, hs, -⟩ := conditional_eq_some h
    exact ⟨_, hs.symm⟩
  · intro inside rest text r c hinside hclause hrule
    by_cases hc : clause = c
    · subst hc
      obtain ⟨u, hu, hplain', hne⟩ := conditional_statement hinside hclause hcondition tag rest
      rw [hu] at hrule
      obtain ⟨rfl, rfl⟩ := Prod.mk.inj (Option.some.inj hrule)
      exact ⟨rfl, rfl, tag.toList ++ u, plain_append.2 ⟨hplain, hplain'⟩, by simp [hne],
        List.append_assoc .., fun x =>
        tagSight?_clause ⟨u ++ (closeBraces ++ x), by rw [htag, List.append_assoc]⟩⟩
    · rw [conditional, afterKeyword?_statement hclause, if_neg hc] at hrule
      cases hrule
  · intro inside rest hinside hclause
    obtain ⟨u, hu, -⟩ := conditional_statement hinside hclause hcondition tag rest
    rw [hu]
    rfl

/-! ## Conditions that compare -/

theorem comparedIf_eq_some (h : comparedIf s = some (text, rest)) :
    ∃ b call s₁ s₂ u, comparison? s₁ = some (call, s₂) ∧ s = opening ++ (b ++ s₁) ∧ s₂ = u ++ rest ∧
      text = openBraces ++ (("#if (".toList ++ (call ++ [')'])) ++ closeBraces) := by
  simp only [comparedIf, Option.bind_eq_bind, Option.bind_eq_some_iff] at h
  obtain ⟨s₀, h₀, s₁, h₁, ⟨call, s₂⟩, h₂, r, h₃, h₄⟩ := h
  obtain ⟨rfl, rfl⟩ := Prod.mk.inj (Option.some.inj h₄)
  obtain ⟨b, rfl⟩ := afterKeyword?_eq_some h₀
  obtain ⟨b', rfl⟩ := afterBlank?_eq_some h₁
  obtain ⟨u, rfl⟩ := afterClosing?_suffix h₃
  refine ⟨b ++ b', call, s₁, u ++ r, u, h₂, by rw [List.append_assoc], rfl, ?_⟩
  rw [reference]
  simp only [List.append_assoc]

theorem quotesClose_unquoted {u : List Char} (hu : ∀ c ∈ u, isUnquoted c) (s : List Char) :
    quotesClose none (u ++ s) = quotesClose none s := by
  induction u with
  | nil => rfl
  | cons c u ih =>
    have hc := hu c List.mem_cons_self
    rw [isUnquoted, Bool.and_eq_true, Bool.and_eq_true, bne_iff_ne, bne_iff_ne] at hc
    rw [List.cons_append, quotesClose, if_neg (not_or.2 hc.1)]
    exact ih fun d hd => hu d (List.mem_cons_of_mem _ hd)

/-- A quoted text that is open ends where its quote stands again. -/
theorem exists_quote {quote : Char} (h : quotesClose (some quote) s) :
    ∃ between after, s = between ++ quote :: after ∧ quote ∉ between := by
  induction s with
  | nil => cases h
  | cons c s ih =>
    by_cases hc : c = quote
    · exact ⟨[], s, by rw [hc]; rfl, List.not_mem_nil⟩
    · rw [quotesClose, if_neg hc] at h
      obtain ⟨between, after, rfl, hno⟩ := ih h
      exact ⟨c :: between, after, rfl, by simp [Ne.symm hc, hno]⟩

/-- Where a quoted text starts in front of the end of a statement, it starts in the condition. -/
theorem quote_in_condition {cond tail before x y : List Char} (hend : isEnd tail)
    (hbefore : ∀ c ∈ before, isUnquoted c) {quote : Char} (hquote : quote = '\'' ∨ quote = '"')
    (h : cond ++ (tail ++ (closing ++ x)) = before ++ quote :: y) :
    ∃ cond', cond = before ++ quote :: cond' ∧ y = cond' ++ (tail ++ (closing ++ x)) := by
  have hunquote : isUnquoted quote = false := by rcases hquote with rfl | rfl <;> rfl
  have htake : ∀ c ∈ cond.takeWhile isUnquoted, isUnquoted c :=
    fun c hc => List.mem_takeWhile_imp hc
  cases hdrop : cond.dropWhile isUnquoted with
  | nil =>
    obtain ⟨b, d, rfl, hb, hd⟩ := isEnd_split hend
    have htail : ∀ c ∈ cond ++ (b ++ d), isUnquoted c := by
      rw [List.forall_mem_append, List.forall_mem_append]
      exact ⟨List.dropWhile_eq_nil_iff.1 hdrop,
        unquoted_of (by decide) hb, by rcases hd with rfl | rfl <;> decide⟩
    rw [← List.append_assoc] at h
    obtain ⟨-, rfl, -⟩ := Text.append_cons_inj (s := '\x7d' :: x) htail hbefore rfl hunquote h
    rcases hquote with hquote | hquote <;> cases hquote
  | cons d cond' =>
    have hcond : cond = cond.takeWhile isUnquoted ++ d :: cond' := by
      rw [← hdrop, List.takeWhile_append_dropWhile]
    rw [hcond, List.append_assoc, List.cons_append] at h
    obtain ⟨hu, rfl, rfl⟩ :=
      Text.append_cons_inj htake hbefore (Text.dropWhile_head hdrop) hunquote h
    exact ⟨cond', by rw [← hu, ← hcond], rfl⟩

/-- **A comparison that starts in a condition ends in it**, when every quoted text of the condition
ends. -/
theorem comparison?_statement {cond tail call s₂ : List Char} (hcond : quotesClose none cond)
    (hplain : Plain cond) (hend : isEnd tail)
    (h : comparison? (cond ++ (tail ++ (closing ++ rest))) = some (call, s₂)) :
    Plain call ∧ ∃ after, after <:+ cond ∧ s₂ = after ++ (tail ++ (closing ++ rest)) := by
  obtain ⟨before, between, quote, name, path, hs, -, hbefore, hunquoted, hquote, hbetween, hpath,
      hname, rfl⟩ :=
    comparison?_eq_some h
  obtain ⟨cond', rfl, hrest⟩ := quote_in_condition hend hunquoted hquote hs
  have hopen : quotesClose none (quote :: cond') = quotesClose (some quote) cond' := by
    rw [quotesClose, if_pos hquote]
  rw [quotesClose_unquoted hunquoted, hopen] at hcond
  obtain ⟨between', after, rfl, hbetween'⟩ := exists_quote hcond
  have hne {u : List Char} (hu : quote ∉ u) : ∀ c ∈ u, (c != quote) = true := fun c hc =>
    bne_iff_ne.2 fun h => hu (h ▸ hc)
  rw [List.append_assoc, List.cons_append] at hrest
  obtain ⟨rfl, -, rfl⟩ :=
    Text.append_cons_inj (hne hbetween) (hne hbetween') (bne_self_eq_false _)
      (bne_self_eq_false _) hrest
  refine ⟨?_, after, ⟨before ++ quote :: (between ++ [quote]), ?_⟩, rfl⟩
  · have hplain' : Plain between := fun c hc =>
      hplain c (List.mem_append_right _ (List.mem_cons_of_mem _ (List.mem_append_left _ hc)))
    have hname' : Plain name.toList := by rcases hname with rfl | rfl <;> decide
    exact plain_append.2
      ⟨hname', plain_cons.2 ⟨rfl, plain_append.2 ⟨fun c hc => hbefore c (hpath.subset hc),
      plain_cons.2 ⟨rfl, plain_append.2 ⟨plain_cons.2 ⟨rfl, hplain'⟩, by decide⟩⟩⟩⟩⟩
  · simp only [List.append_assoc, List.cons_append, List.nil_append]

theorem turns_comparedIf : Turns comparedIf .branch where
  rewrites := rewrites_of_opening fun h => by
    obtain ⟨b, call, s₁, s₂, u, hcomparison, rfl, rfl, htext⟩ := comparedIf_eq_some h
    obtain ⟨before, between, quote, name, path, rfl, -⟩ := comparison?_eq_some hcomparison
    exact ⟨b ++ (before ++ quote :: (between ++ quote :: u)),
      _, by simp only [List.append_assoc, List.cons_append], htext⟩
  opens h := by
    obtain ⟨b, call, s₁, s₂, u, -, rfl, -⟩ := comparedIf_eq_some h
    exact List.prefix_append ..
  takes := by
    intro inside rest text r c hinside hclause hrule
    have hkeyword := afterKeyword?_statement hclause .branch rest
    rw [Clause.keyword] at hkeyword
    rw [comparedIf, hkeyword] at hrule
    split at hrule
    · rename_i hc
      subst hc
      obtain ⟨cond, tail, hcond⟩ := exists_condition (clauseOf?_eq_some hclause).2
      have hplain : Plain (cond ++ tail) := (plain_continuation hinside).of_suffix hcond.suffix
      have hiscond := hcond.isCondition
      rw [isCondition, Bool.and_eq_true] at hiscond
      simp only [Option.bind_eq_bind, Option.bind_some, afterBlank?_closing, hcond.afterBlank,
        Option.map_some, Option.bind_eq_some_iff] at hrule
      obtain ⟨⟨call, s₂⟩, hcomparison, r', hr', hrule⟩ := hrule
      obtain ⟨rfl, rfl⟩ := Prod.mk.inj (Option.some.inj hrule)
      rw [List.append_assoc] at hcomparison
      obtain ⟨hcall, after, hafter, rfl⟩ :=
        comparison?_statement hiscond.2 (plain_append.1 hplain).1 hcond.isEnd hcomparison
      dsimp only at hr'
      rw [← List.append_assoc] at hr'
      have hplain' : Plain (after ++ tail) :=
        plain_append.2 ⟨(plain_append.1 hplain).1.of_suffix hafter, (plain_append.1 hplain).2⟩
      refine ⟨rfl, eq_of_afterClosing? hplain' hr', "#if (".toList ++ (call ++ [')']),
        plain_append.2 ⟨by decide, plain_append.2 ⟨hcall, by decide⟩⟩, by
      simp, ?_, fun x => tagSight?_clause ⟨_, rfl⟩⟩
      rw [reference]
      simp only [List.append_assoc]
    · cases hrule

/-! ## Loops -/

theorem loop?_eq_some {item path : List Char} (h : loop? s = some ((item, path), rest)) :
    ∃ u v, s = opening ++ (u ++ (path ++ (v ++ rest))) := by
  simp only [loop?, Option.bind_eq_bind, Option.bind_eq_some_iff] at h
  obtain ⟨s₀, h₀, s₁, h₁, ⟨item', s₂⟩, h₂, s₃, h₃, s₄, h₄, s₅, h₅, ⟨path', s₆⟩, h₆, r, h₇, h₈⟩ := h
  obtain ⟨hpair, rfl⟩ := Prod.mk.inj (Option.some.inj h₈)
  obtain ⟨rfl, rfl⟩ := Prod.mk.inj hpair
  obtain ⟨u₀, rfl⟩ := afterKeyword?_eq_some h₀
  obtain ⟨u₁, rfl⟩ := afterBlank?_eq_some h₁
  obtain ⟨rfl, -⟩ := word?_eq_some h₂
  obtain ⟨u₂, rfl⟩ := afterBlank?_eq_some h₃
  obtain rfl := Text.afterPrefix?_eq_some.1 h₄
  obtain ⟨u₃, rfl⟩ := afterBlank?_eq_some h₅
  obtain ⟨rfl, -⟩ := path?_eq_some h₆
  obtain ⟨v, rfl⟩ := afterClosing?_suffix h₇
  exact ⟨u₀ ++ (u₁ ++ (item' ++ (u₂ ++ ("in".toList ++ u₃)))), v, by simp only [List.append_assoc]⟩

/-- **What is read of a loop** at a statement: its variable and its list, when it is a loop. -/
theorem loop?_statement {inside : List Char} (h : clauseOf? inside = some c) (rest : List Char) :
    (c ≠ .loop → loop? (opening ++ (inside ++ (closing ++ rest))) = none) ∧
      (c = .loop → ∃ item path, loop? (opening ++ (inside ++ (closing ++ rest))) =
        some ((item, path), rest) ∧
        IsVariable item ∧ Plain path ∧ path ≠ []) := by
  have hkeyword := afterKeyword?_statement h .loop rest
  rw [Clause.keyword] at hkeyword
  refine ⟨fun hc => ?_, fun hc => ?_⟩
  · rw [loop?, hkeyword, if_neg (Ne.symm hc)]
    rfl
  · subst hc
    have hcontinues := (clauseOf?_eq_some h).2
    rw [Clause.continues, Option.any_eq_true] at hcontinues
    obtain ⟨⟨item, path⟩, hhead, helse⟩ := hcontinues
    rw [Option.bind_eq_some_iff] at hhead
    obtain ⟨s₁, h₁, hhead⟩ := hhead
    simp only [loopHead?, Option.bind_eq_bind, Option.bind_eq_some_iff] at hhead
    obtain ⟨⟨item', s₂⟩, h₂, s₃, h₃, s₄, h₄, s₅, h₅, ⟨path', s₆⟩, h₆, h₇⟩ := hhead
    split at h₇
    · rename_i hend
      obtain ⟨rfl, rfl⟩ := Prod.mk.inj (Option.some.inj h₇)
      obtain ⟨-, hne, hword⟩ := word?_eq_some h₂
      obtain ⟨-, hne', hpath⟩ := path?_eq_some h₆
      refine ⟨item', path', ?_, ⟨hword, hne, bne_iff_ne.1 helse⟩, plain_path hpath, hne'⟩
      simp only [loop?, hkeyword, if_true, Option.bind_eq_bind, Option.bind_some,
        afterBlank?_closing, h₁, Option.map_some, word?_closing, h₂, h₃, afterPrefix?_closing h₄,
        h₅, path?_closing, h₆, afterClosing?_of_isEnd hend, Option.pure_def]
    · cases h₇

theorem turns_loopStart : Turns loopStart .loop ∧ Complete loopStart .loop := by
  refine ⟨⟨rewrites_of_opening fun h => ?_, fun h => ?_, ?_⟩, ?_⟩
  · obtain ⟨⟨⟨item, path⟩, r⟩, hloop, hwritten⟩ := Option.map_eq_some_iff.1 h
    obtain ⟨rfl, rfl⟩ := Prod.mk.inj hwritten
    obtain ⟨u, v, rfl⟩ := loop?_eq_some hloop
    exact ⟨u ++ (path ++ v), _, by simp only [List.append_assoc], List.append_assoc ..⟩
  · obtain ⟨⟨⟨item, path⟩, r⟩, hloop, -⟩ := Option.map_eq_some_iff.1 h
    obtain ⟨u, v, rfl⟩ := loop?_eq_some hloop
    exact List.prefix_append ..
  · intro inside rest text r c hinside hclause hrule
    obtain ⟨hother, hloop⟩ := loop?_statement hclause rest
    by_cases hc : c = .loop
    · obtain ⟨item, path, hitem, -, hpath, hne⟩ := hloop hc
      rw [loopStart, hitem] at hrule
      obtain ⟨rfl, rfl⟩ := Prod.mk.inj (Option.some.inj hrule)
      exact ⟨hc, rfl, "#each ".toList ++ path, plain_append.2 ⟨by decide, hpath⟩, by simp,
        List.append_assoc .., fun x =>
        tagSight?_clause ⟨path ++ (closeBraces ++ x), List.append_assoc ..⟩⟩
    · rw [loopStart, hother hc] at hrule
      cases hrule
  · intro inside rest hinside hclause
    obtain ⟨item, path, hitem, -⟩ := (loop?_statement hclause rest).2 rfl
    rw [loopStart, hitem]
    rfl

theorem mem_findAll {α : Type} {find? : List Char → Option (α × List Char)} {a : α}
    (h : a ∈ findAll find? s) : ∃ u rest, u <:+ s ∧ find? u = some (a, rest) := by
  have hgo : ∀ skip s, a ∈ findAll.go find? skip s →
      ∃ u rest, u <:+ s ∧ find? u = some (a, rest) := by
    intro skip s
    induction s generalizing skip with
    | nil => intro h; cases skip <;> cases h
    | cons c s ih =>
      intro h
      have hlater : ∀ skip, a ∈ findAll.go find? skip s →
          ∃ u rest, u <:+ c :: s ∧ find? u = some (a, rest) := fun skip h =>
        let ⟨u, rest, hu, hfind⟩ := ih skip h
        ⟨u, rest, hu.trans (List.suffix_cons c s), hfind⟩
      cases skip with
      | succ skip => exact hlater skip h
      | zero =>
        rw [findAll.go] at h
        split at h
        · rename_i found rest hfind
          rcases List.mem_cons.1 h with rfl | h
          · exact ⟨c :: s, rest, List.suffix_refl _, hfind⟩
          · exact hlater _ h
        · exact hlater _ h
  exact hgo 0 s h

/-- **The variables of loops** have names of variables. -/
theorem isVariable_of_loop (hs : Sight.statement none ∉ sights s) {item path : List Char}
    (h : (item, path) ∈ findAll loop? s) : IsVariable item := by
  obtain ⟨u, r, hu, hfind⟩ := mem_findAll h
  obtain ⟨v, w, rfl⟩ := loop?_eq_some hfind
  obtain ⟨inside, rest, c, hinside, heq, hclause⟩ :=
    eq_statement (fun hnone => hs (sights_suffix hu hnone)) (List.prefix_append opening _)
  rw [heq] at hfind
  obtain ⟨hother, hloop⟩ := loop?_statement hclause rest
  by_cases hc : c = .loop
  · obtain ⟨item', path', hitem, hvariable, -⟩ := hloop hc
    rw [hfind] at hitem
    obtain ⟨hpair, -⟩ := Prod.mk.inj (Option.some.inj hitem)
    obtain ⟨rfl, -⟩ := Prod.mk.inj hpair
    exact hvariable
  · rw [hother hc] at hfind
    cases hfind

/-! ## Members named like alternatives -/

theorem elseMember_bare {keyword : String} (tag : String) (htag : ¬ elseMember <:+: tag.toList)
    (h : elseMember <:+: replaceAll (bare keyword tag) s) : elseMember <:+: s := by
  have hrewrites : Rewrites (bare keyword tag) := rewrites_of_opening fun h => by
    obtain ⟨u, hs, htext⟩ := bare_eq_some h
    exact ⟨u, _, hs, htext⟩
  refine infix_replaceAll hrewrites (by decide) (by decide) ?_ h
  intro s text rest hrule hmember
  obtain ⟨u, rfl, rfl⟩ := bare_eq_some hrule
  exact absurd (elseMember_closeBraces (elseMember_openBraces hmember)) htag

/-- A word in front of a text and a space. -/
theorem elseMember_word_append {word u : List Char} (hword : ¬ elseMember <:+: word)
    (h : elseMember <:+: word ++ ' ' :: u) : elseMember <:+: u :=
  ((Text.infix_append_cons (by decide)).1 h).resolve_left hword

theorem elseMember_conditional {keyword : String} (tag : String) (word : List Char)
    (htag : tag.toList = word ++ [' ']) (hword : ¬ elseMember <:+: word)
    (h : elseMember <:+: replaceAll (conditional keyword tag) s) : elseMember <:+: s := by
  have hrewrites : Rewrites (conditional keyword tag) := rewrites_of_opening fun h => by
    obtain ⟨b, u, v, rfl, htext⟩ := conditional_eq_some h
    exact ⟨b ++ (u ++ v), _, by simp only [List.append_assoc], htext⟩
  refine infix_replaceAll hrewrites (by decide) (by decide) ?_ h
  intro s text rest hrule hmember
  obtain ⟨b, u, v, rfl, rfl⟩ := conditional_eq_some hrule
  have htext : tag.toList ++ u = word ++ ' ' :: u := by
    rw [htag, List.append_assoc, List.cons_append, List.nil_append]
  rw [htext] at hmember
  refine (elseMember_word_append hword
    (elseMember_closeBraces (elseMember_openBraces hmember))).trans
    ⟨opening ++ b, v ++ rest, ?_⟩
  simp only [List.append_assoc]

theorem elseMember_comparedIf (h : elseMember <:+: replaceAll comparedIf s) :
    elseMember <:+: s := by
  refine infix_replaceAll turns_comparedIf.rewrites (by decide) (by decide) ?_ h
  intro s text rest hrule hmember
  obtain ⟨b, call, s₁, s₂, u, hcomparison, rfl, rfl, rfl⟩ := comparedIf_eq_some hrule
  obtain ⟨before, between, quote, name, path, rfl, -, -, -, -, -, hpath, hname, rfl⟩ :=
    comparison?_eq_some hcomparison
  have hcall :
      "#if (".toList ++ (name.toList ++ ' ' :: (path ++ ' ' :: singleQuoted between) ++ [')']) =
      "#if ".toList ++ '(' :: (callStart name path ++ '\'' :: (between ++ '\'' :: [')'])) := by
    simp only [callStart, singleQuoted, List.append_assoc, List.cons_append, List.nil_append]
    rfl
  have hfirst := elseMember_closeBraces (elseMember_openBraces hmember)
  rw [hcall] at hfirst
  have hshort {u : List Char} (h : u.length < 5) : ¬ elseMember <:+: u :=
    fun hu => absurd hu.length_le (Nat.not_le.2 h)
  rcases (Text.infix_append_cons (by decide)).1 hfirst with h | h
  · exact absurd h (hshort (by decide))
  rcases elseMember_callStart_append (.inr hname) h with h | h
  · exact (h.trans hpath).trans
      ⟨opening ++ b, quote :: (between ++ quote :: (u ++ rest)), by simp only [List.append_assoc]⟩
  rcases (Text.infix_append_cons (u := []) (by decide)).1 h with h | h
  · exact absurd h (hshort (by decide))
  rcases (Text.infix_append_cons (by decide)).1 h with h | h
  · refine h.trans ⟨opening ++ (b ++ (before ++ [quote])), quote :: (u ++ rest), ?_⟩
    simp only [List.append_assoc, List.cons_append, List.nil_append]
  · exact absurd h (hshort (by decide))

theorem elseMember_loopStart (h : elseMember <:+: replaceAll loopStart s) : elseMember <:+: s := by
  refine infix_replaceAll turns_loopStart.1.rewrites (by decide) (by decide) ?_ h
  intro s text rest hrule hmember
  obtain ⟨⟨⟨item, path⟩, r⟩, hloop, hwritten⟩ := Option.map_eq_some_iff.1 hrule
  obtain ⟨rfl, rfl⟩ := Prod.mk.inj hwritten
  obtain ⟨u, v, rfl⟩ := loop?_eq_some hloop
  rw [reference, List.append_assoc] at hmember
  have hword : ¬ elseMember <:+: "#each".toList :=
    fun h => absurd (Text.occursIn_eq_true.2 h) (by decide)
  have hpath : elseMember <:+: path :=
    elseMember_word_append hword (elseMember_closeBraces (elseMember_openBraces hmember))
  exact hpath.trans ⟨opening ++ u, v ++ r, by simp only [List.append_assoc]⟩

end Runlist.Template
