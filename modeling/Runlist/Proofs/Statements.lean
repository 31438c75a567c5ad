import Mathlib.Data.List.Infix
import Runlist.Proofs.Template.Referenced
import Runlist.Proofs.Template.Turning

/-!
# Every statement becomes a tag of a block

A text is converted by rules that are applied one after the other. While they are applied the
clauses of the text are seen in it in their order, some still as statements and some as tags
already; each rule for a clause leaves no statement of this clause, and the rules for references
leave all of them alone. In the end only tags are seen.

* `Underway`: what is seen in a text while it is converted.
* `convert_clauses`: **the tags of the converted text are the clauses of the text**, and no
  statement is left.
* `statement_survives`: a statement of no clause is left in the text.
-/

namespace Runlist.Template

variable {clauses left : List Clause} {s t : List Char}

/-- The clauses of a text are seen in it, those of `left` as statements or as tags and the others as
tags. -/
structure Underway (clauses left : List Clause) (s : List Char) : Prop where
  seen : List.Forall₂ Sight.Becomes (clauses.map fun clause => .statement (some clause)) (sights s)
  left : ∀ clause, Sight.statement (some clause) ∈ sights s → clause ∈ left
  member : ¬ elseMember <:+: s

theorem Sight.Becomes.trans {x y z : Sight} (hxy : x.Becomes y)
    (hyz : y.Becomes z) : x.Becomes z := by
  rcases hyz with rfl | ⟨clause, rfl, rfl⟩
  · exact hxy
  · rcases hxy with rfl | ⟨clause', rfl, hy⟩
    · exact .inr ⟨clause, rfl, rfl⟩
    · cases hy

theorem becomes_trans {xs ys zs : List Sight} (h : List.Forall₂ Sight.Becomes xs ys)
    (h' : List.Forall₂ Sight.Becomes ys zs) : List.Forall₂ Sight.Becomes xs zs := by
  induction h generalizing zs with
  | nil => exact h'
  | cons hxy _ ih =>
    cases h' with
    | cons hyz h' => exact .cons (hxy.trans hyz) (ih h')

theorem mem_of_becomes {xs ys : List Sight} (h : List.Forall₂ Sight.Becomes xs ys)
    {clause : Option Clause} (hmem : Sight.statement clause ∈ ys) :
    Sight.statement clause ∈ xs := by
  induction h with
  | nil => cases hmem
  | cons hxy _ ih =>
    rcases List.mem_cons.1 hmem with rfl | hmem
    · rcases hxy with h | ⟨clause', -, h⟩
      · rw [h]
        exact List.mem_cons_self
      · cases h
    · exact List.mem_cons_of_mem _ (ih hmem)

namespace Underway

/-- Nothing is seen but statements and tags of clauses. -/
theorem mem (h : Underway clauses left s) {x : Sight} (hx : x ∈ sights s) :
    ∃ clause, x = .statement (some clause) ∨ x = .tag clause := by
  obtain ⟨seen, -, -⟩ := h
  generalize sights s = ys at seen hx
  induction clauses generalizing ys with
  | nil => cases seen; cases hx
  | cons clause clauses ih =>
    cases seen with
    | cons hxy seen =>
      rcases List.mem_cons.1 hx with rfl | hx
      · rcases hxy with rfl | ⟨clause', hstatement, rfl⟩
        · exact ⟨clause, .inl rfl⟩
        · exact ⟨clause', .inr rfl⟩
      · exact ih _ seen hx

theorem regular (h : Underway clauses left s) : Sight.statement none ∉ sights s := by
  intro hmem
  obtain ⟨clause, h | h⟩ := h.mem hmem <;> cases h

theorem no_block (h : Underway clauses left s) : Sight.block ∉ sights s := by
  intro hmem
  obtain ⟨clause, h | h⟩ := h.mem hmem <;> cases h

/-- A text in which the same is seen. -/
theorem same (h : Underway clauses left s) (hs : sights t = sights s)
    (hmember : elseMember <:+: t → elseMember <:+: s) : Underway clauses left t :=
  ⟨hs ▸ h.seen, hs ▸ h.left, fun hoccurs => h.member (hmember hoccurs)⟩

/-- A rule turns some statements of a clause. -/
theorem turn {rule : Rule} {clause : Clause} (h : Underway clauses left s)
    (hrule : Turns rule clause) (hmember : elseMember <:+: replaceAll rule s → elseMember <:+: s) :
    Underway clauses left (replaceAll rule s) :=
  have hbecomes := hrule.becomes h.regular
  ⟨becomes_trans h.seen hbecomes, fun c hc => h.left c (mem_of_becomes hbecomes hc), fun hoccurs =>
    h.member (hmember hoccurs)⟩

/-- **A rule turns all statements of a clause.** -/
theorem turnAll {rule : Rule} {clause : Clause} (h : Underway clauses (clause :: left) s)
    (hrule : Turns rule clause ∧ Complete rule clause)
    (hmember : elseMember <:+: replaceAll rule s → elseMember <:+: s) :
    Underway clauses left (replaceAll rule s) := by
  have hturn := h.turn hrule.1 hmember
  refine ⟨hturn.seen, fun c hc => ?_, hturn.member⟩
  rcases List.mem_cons.1 (hturn.left c hc) with rfl | hleft
  · exact absurd hc (hrule.1.none_left hrule.2 h.regular)
  · exact hleft

/-- When no statement is left, the tags of the clauses are what is seen. -/
theorem done (h : Underway clauses [] s) : sights s = clauses.map .tag := by
  obtain ⟨seen, hleft, -⟩ := h
  generalize sights s = ys at seen hleft
  induction clauses generalizing ys with
  | nil => cases seen; rfl
  | cons clause clauses ih =>
    cases seen with
    | cons hxy seen =>
      rcases hxy with rfl | ⟨clause', hstatement, rfl⟩
      · cases hleft clause List.mem_cons_self
      · cases hstatement
        rw [ih _ seen fun c hc => hleft c (List.mem_cons_of_mem _ hc)]
        rfl

end Underway

/-! ## All rules -/

/-- The rules for conditions turn all statements of branches. -/
theorem underway_conditions (hs : sights s = clauses.map fun clause => .statement (some clause))
    (hmember : ¬ elseMember <:+: s) :
    Underway clauses [.loop, .endLoop] (applyRules conditionRules s) := by
  have hblock {u : List Char} (hu : sights u = sights s) : Sight.block ∉ sights u := by
    rw [hu, hs]
    intro hmem
    obtain ⟨clause, -, h⟩ := List.mem_map.1 hmem
    cases h
  -- the rules for fallbacks come first and keep what is seen, so the rules for statements start
  -- with all of them
  have h₁ : sights (replaceAll quotedFallback s) = sights s := sights_quotedFallback (hblock rfl)
  have hmember₁ {u : List Char} (h : elseMember <:+: replaceAll quotedFallback u) :
      elseMember <:+: u :=
    infix_replaceAll rewrites_quotedFallback (by decide) (by decide)
      (fun h => (quotedFallback_requoted h).elseMember_of_text) h
  have h₂ : sights (replaceAll plainFallback (replaceAll quotedFallback s)) = sights s := by
    rw [sights_plainFallback, h₁]
    intro x hx
    rw [h₁, hs] at hx
    obtain ⟨clause, -, rfl⟩ := List.mem_map.1 hx
    exact ⟨clause, rfl⟩
  have start :
      Underway clauses Clause.all (replaceAll plainFallback (replaceAll quotedFallback s)) := by
    refine ⟨?_, fun clause _ => by cases clause <;> decide,
      fun hoccurs => hmember (hmember₁ (elseMember_plainFallback hoccurs))⟩
    rw [h₂, hs]
    exact List.forall₂_same.2 fun _ _ => .inl rfl
  have compared := start.turn turns_comparedIf elseMember_comparedIf
  have branches :=
    compared.turnAll (turns_conditional .branch "#if " (fun _ h => h) rfl (by decide))
    (elseMember_conditional "#if " "#if".toList rfl fun h =>
      absurd (Text.occursIn_eq_true.2 h) (by decide))
  have elifs := branches.turnAll (turns_conditional .elif "else if " (fun _ h => h) rfl (by decide))
    (elseMember_conditional "else if " "else if".toList rfl fun h =>
      absurd (Text.occursIn_eq_true.2 h) (by decide))
  have others :=
    elifs.turnAll (turns_bare .otherwise "else" (fun _ h => h) rfl (by decide) (by decide))
    (elseMember_bare "else" fun h => absurd (Text.occursIn_eq_true.2 h) (by decide))
  exact others.turnAll (turns_bare .endBranch "/if" (fun _ h => h) rfl (by decide) (by decide))
    (elseMember_bare "/if" fun h => absurd (Text.occursIn_eq_true.2 h) (by decide))

/-- The rules for the variables of loops leave what is seen. -/
theorem underway_items {items : List (List Char)} (hitems : ∀ name ∈ items, IsVariable name)
    (h : Underway clauses left s) :
    Underway clauses left
      (applyRules (items.flatMap fun name => [loopProperty name, loopItem name]) s) := by
  induction items generalizing s with
  | nil => exact h
  | cons name items ih =>
    have hname := hitems name List.mem_cons_self
    have hproperty := h.same (sights_loopProperty hname h.no_block h.member) elseMember_loopProperty
    exact ih (fun item hitem => hitems item (List.mem_cons_of_mem _ hitem))
      (hproperty.same (sights_loopItem hname hproperty.no_block) elseMember_loopItem)

/-- The rules for loops turn what is left. -/
theorem underway_loops {items : List (List Char)} (hitems : ∀ name ∈ items, IsVariable name)
    (h : Underway clauses [.loop, .endLoop] s) :
    Underway clauses [] (applyRules (loopRules items) s) := by
  have loops := h.turnAll turns_loopStart elseMember_loopStart
  have ends :=
    loops.turnAll (turns_bare .endLoop "/each" (fun _ h => h) rfl (by decide) (by decide))
    (elseMember_bare "/each" fun h => absurd (Text.occursIn_eq_true.2 h) (by decide))
  rw [loopRules, applyRules, List.foldl_append]
  exact underway_items hitems ends

/-- A text in which no reference starts like a tag of a block, and every statement is one of a
clause. -/
theorem sights_eq_statements (hblocks : ∀ start ∈ blockStarts, ¬ openBraces ++ start <:+: s)
    (hclauses : none ∉ statements s) :
    sights s = (statements s).reduceOption.map fun clause => .statement (some clause) := by
  induction s with
  | nil => rfl
  | cons c s ih =>
    have hrest :=
      ih (fun start hstart h => hblocks start hstart (h.trans (List.suffix_cons c s).isInfix))
    have hstatements : statements (c :: s) = (sight? (c :: s)).toList.filterMap _ ++ statements s :=
      List.filterMap_append
    rw [hstatements, List.mem_append, not_or] at hclauses
    rw [sights_cons, hstatements, hrest hclauses.2]
    cases hsight : sight? (c :: s) with
    | none => rfl
    | some x =>
      rcases sight?_eq_some hsight with ⟨w, -, rfl⟩ | ⟨w, hw, htag⟩
      · cases hclause : statementOf? w with
        | none =>
          rw [hsight, hclause] at hclauses
          exact absurd List.mem_cons_self hclauses.1
        | some clause => rfl
      · -- a tag would start like one of a block
        have hnone : tagSight? w = none := tagSight?_eq_none.2 fun start hstart hprefix =>
          hblocks start hstart (hw ▸ (List.prefix_append_right_inj openBraces |>.2 hprefix).isInfix)
        rw [hnone] at htag
        cases htag

theorem blockTags_eq (hs : sights s = clauses.map .tag) : blockTags s = clauses := by
  rw [blockTags, hs, List.filterMap_map]
  exact List.filterMap_some

/-- **The tags of the converted text are the clauses of the text**, each in its place, when every
statement is one of a clause: no statement is left, and the tags nest as the statements do. -/
theorem convert_clauses {text converted : String}
    (hblocks : ∀ start ∈ blockStarts, Text.occursIn (openBraces ++ start) text.toList = false)
    (hclauses : none ∉ statements text.toList)
    (hmember : Text.occursIn elseMember text.toList = false) (h : convert text = .ok converted) :
    Text.occursIn opening converted.toList = false ∧
      sights converted.toList = (statements text.toList).reduceOption.map .tag ∧
      (Nested (statements text.toList).reduceOption → Nested (blockTags converted.toList)) := by
  have hnot {w s : List Char} : Text.occursIn w s = false ↔ ¬ w <:+: s := by
    rw [← Text.occursIn_eq_true, Bool.not_eq_true]
  have hstart := sights_eq_statements (fun start hstart => hnot.1 (hblocks start hstart)) hclauses
  have hconditions := underway_conditions hstart (hnot.1 hmember)
  rw [convert] at h
  cases hvalid : validate text.toList with
  | error e => rw [hvalid] at h; cases h
  | ok _ =>
  rw [hvalid] at h
  obtain rfl := Except.ok.inj h
  have hitems :
      ∀ name ∈ (findAll loop? (applyRules conditionRules text.toList)).map (·.1),
        IsVariable name := by
    intro name hname
    obtain ⟨⟨item, path⟩, hfound, rfl⟩ := List.mem_map.1 hname
    exact isVariable_of_loop hconditions.regular hfound
  have hloops := underway_loops hitems hconditions
  rw [String.toList_ofList]
  have hdone : sights _ = _ := (sights_comparedOutput hloops.no_block).trans hloops.done
  refine ⟨hnot.2 (opening_not_within fun clause hmem => ?_), hdone, fun hnested => ?_⟩
  · rw [hdone] at hmem
    obtain ⟨clause', -, h⟩ := List.mem_map.1 hmem
    cases h
  · rw [blockTags_eq hdone]
    exact hnested

/-- The statements of a loop. -/
theorem convert_clauses_loop :
    convert "\x7b% for x in y %\x7d\x7b\x7b x \x7d\x7d\x7b% endfor %\x7d" =
        .ok "\x7b\x7b#each y\x7d\x7d\x7b\x7bthis\x7d\x7d\x7b\x7b/each\x7d\x7d" ∧
      Nested
        (blockTags "\x7b\x7b#each y\x7d\x7d\x7b\x7bthis\x7d\x7d\x7b\x7b/each\x7d\x7d".toList) := by
  have h : convert "\x7b% for x in y %\x7d\x7b\x7b x \x7d\x7d\x7b% endfor %\x7d" =
      .ok "\x7b\x7b#each y\x7d\x7d\x7b\x7bthis\x7d\x7d\x7b\x7b/each\x7d\x7d" := by
    decide +kernel
  exact ⟨h, (convert_clauses (by decide +kernel) (by decide +kernel) (by decide +kernel) h).2.2
    (by decide +kernel)⟩

/-- **A statement survives** whose keyword is of no clause and not among those that are refused. -/
theorem statement_survives : ¬ ∀ text converted : String,
    (∀ start ∈ blockStarts, Text.occursIn (openBraces ++ start) text.toList = false) →
    convert text = .ok converted →
      Text.occursIn opening converted.toList = false ∧ Nested (blockTags converted.toList) := by
  intro h
  have hstays : convert "\x7b% do x %\x7d" = .ok "\x7b% do x %\x7d" := by decide +kernel
  exact absurd (h _ _ (by decide +kernel) hstays).1 (by decide +kernel)

end Runlist.Template
