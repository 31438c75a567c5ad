import Runlist.Proofs.Template.Kept

/-!
# References are rewritten and nothing else is seen to change

Fallbacks, comparisons and the variables of loops are rewritten inside references. What stands
between quotes stays as it is, and a tag of a block is never taken for a reference.

* `sights_quotedFallback`, `sights_plainFallback`, `sights_comparedOutput`, `sights_loopProperty`,
  `sights_loopItem`: **the same is seen in a text afterwards.**
* `elseMember_quotedFallback` and so on: no member of a mapping gets the name of an alternative.
-/

namespace Runlist.Template

open Text (isBlank)

variable {rule : Rule} {s text rest : List Char}

/-! ## What is taken -/

/-- The rule takes no tag of a clause. -/
def Spares (rule : Rule) : Prop :=
  ∀ (clause : Clause) y, rule (openBraces ++ (clause.tagStart ++ y)) = none

/-- Where a rule takes something that spares the tags of clauses, no tag is seen. -/
theorem Spares.tagSight?_eq_none (h : Spares rule) {v : List Char}
    (hblock : Sight.block ∉ sights (openBraces ++ v)) (hrule : (rule (openBraces ++ v)).isSome) :
    tagSight? v = none := by
  have hsight : tagSight? v ≠ some .block := fun hv =>
    hblock (List.mem_append_left _ (Option.mem_toList.2 hv))
  rw [tagSight?] at hsight ⊢
  cases hfind : Clause.all.find? fun clause => clause.tagStart.isPrefixOf v with
  | some clause =>
    obtain ⟨y, rfl⟩ : clause.tagStart <+: v :=
      List.isPrefixOf_iff_prefix.1 (List.find?_some hfind :)
    rw [h clause y] at hrule
    cases hrule
  | none =>
    rw [hfind] at hsight
    dsimp only at hsight ⊢
    split
    · rename_i hany
      exact absurd (if_pos hany) hsight
    · rfl

/-- **The text between the quotes is seen as before**, whatever stands behind it. -/
theorem sights_between {quote : Char} (hquote : quote = '\'' ∨ quote = '"') {after : List Char}
    (hafter : Plain after) (rest between : List Char) :
    ∃ seen, sights (between ++ quote :: (after ++ (closeBraces ++ rest))) = seen ++ sights rest ∧
      ∀ x, sights (between ++ '\'' :: (closeBraces ++ x)) = seen ++ sights x := by
  have hplain : Plain (quote :: after) :=
    plain_cons.2 ⟨by rcases hquote with rfl | rfl <;> rfl, hafter⟩
  have hbrace : quote ≠ '\x7b' ∧ quote ≠ '%' := by rcases hquote with rfl | rfl <;> decide
  induction between with
  | nil =>
    refine ⟨[], ?_, fun x => sights_append (u := '\'' :: closeBraces) (by decide) x⟩
    have hno : '\x7b' ∉ quote :: (after ++ closeBraces) := by
      rw [← List.cons_append, List.mem_append, not_or]
      exact ⟨hplain.no_brace, by decide⟩
    rw [List.nil_append, ← List.append_assoc, ← List.cons_append, sights_append hno]
    rfl
  | cons c between ih =>
    obtain ⟨seen, hbefore, hafter'⟩ := ih
    have hsight (x : List Char) :
        sight? (c :: (between ++ quote :: (after ++ (closeBraces ++ rest)))) =
        sight? (c :: (between ++ '\'' :: (closeBraces ++ x))) := by
      by_cases hc : c = '\x7b'
      · subst hc
        match between with
        | [] => exact (sight?_brace hbrace _).trans (sight?_brace (by decide) _).symm
        | d :: between =>
          by_cases hd : d = '\x7b' ∨ d = '%'
          · rcases hd with rfl | rfl
            · have hends : endsTag quote := by rcases hquote with rfl | rfl <;> rfl
              exact (tagSight?_append_cons hends _ _).trans (tagSight?_append_cons rfl _ _).symm
            · have hstop :=
                statementOf?_append_stop hplain (.inr ⟨rfl, List.cons_ne_nil _ _⟩) between
              have hstop' :=
                statementOf?_append_stop (p := ['\'']) (by decide)
                  (.inr ⟨rfl, List.cons_ne_nil _ _⟩) between
              exact congrArg (fun clause => some (Sight.statement clause))
                ((hstop ('\x7d' :: rest)).trans (hstop' ('\x7d' :: x)).symm)
          · rw [not_or] at hd
            exact (sight?_brace hd _).trans (sight?_brace hd _).symm
      · exact (sight?_of_ne hc _).trans (sight?_of_ne hc _).symm
    refine ⟨(sight? (c :: (between ++ quote :: (after ++ (closeBraces ++ rest))))).toList ++ seen,
      ?_, fun x => ?_⟩
    · rw [List.cons_append, sights_cons, hbefore, List.append_assoc]
    · rw [List.cons_append, sights_cons, hafter', ← hsight x, List.append_assoc]

/-- Where a reference with a quoted text is written anew, the same is seen. -/
theorem Requoted.sights_eq (h : Requoted s text rest)
    (htag : ∀ v, s = openBraces ++ v → tagSight? v = none) :
    ∃ seen, sights s = seen ++ sights rest ∧ ∀ x, sights (text ++ x) = seen ++ sights x := by
  obtain @⟨before, between, after, before', quote, rest, hquote, hne, hbefore, hafter, hbefore',
      hne', hhelper, -⟩ := h
  obtain ⟨seen, hseen, hseen'⟩ := sights_between hquote hafter rest between
  have hquoted (c : Char) (hc : c ≠ '\x7b') (y : List Char) : sights (c :: y) = sights y := by
    rw [sights_cons, sight?_of_ne hc]
    rfl
  refine ⟨seen, ?_, fun x => ?_⟩
  · rw [sights_braces hbefore hne, htag _ rfl, Option.toList_none, List.nil_append, ← hseen]
    exact hquoted quote (by rcases hquote with rfl | rfl <;> decide) _
  · have hsplit : openBraces ++ (before' ++ '\'' :: (between ++ '\'' :: closeBraces)) ++ x =
        openBraces ++ (before' ++ '\'' :: (between ++ '\'' :: (closeBraces ++ x))) := by
      simp only [List.append_assoc, List.cons_append]
    rw [hsplit, sights_braces hbefore' hne', hhelper, Option.toList_none,
      List.nil_append, ← hseen' x]
    exact hquoted '\'' (by decide) _

/-- A rule that requotes references and spares the tags of clauses. -/
theorem sights_of_requoted (h : Rewrites rule) (hspare : Spares rule)
    (hrequoted : ∀ {s text rest}, rule s = some (text, rest) → Requoted s text rest)
    (hs : Sight.block ∉ sights s) : sights (replaceAll rule s) = sights s := by
  refine (List.forall₂_eq_eq_eq ▸ sights_replaceAll h (r := Eq) (fun _ => rfl)
    (fun s => Sight.block ∉ sights s)
    (fun u s hgood hmem => hgood (sights_suffix (List.suffix_append u s) hmem)) ?_ hs).symm
  intro s text rest hgood hrule
  obtain ⟨seen, hseen, hseen'⟩ := (hrequoted hrule).sights_eq fun v hv =>
    hspare.tagSight?_eq_none (hv ▸ hgood) (by rw [← hv, hrule]; rfl)
  exact ⟨seen, seen, List.forall₂_same.2 fun _ _ => rfl, hseen, hseen'⟩

/-- A rule that takes references. -/
theorem rewrites_of_braces (h : ∀ {s text rest}, rule s = some (text, rest) →
    ∃ u body, s = openBraces ++ (u ++ rest) ∧ text = openBraces ++ (body ++ closeBraces)) :
      Rewrites rule where
  braced := by
    intro s hsome
    obtain ⟨⟨text, rest⟩, hrule⟩ := Option.isSome_iff_exists.1 hsome
    obtain ⟨u, -, hs, -⟩ := h hrule
    exact .inl ⟨u ++ rest, hs.symm⟩
  writes := by
    intro s text rest hrule
    obtain ⟨u, body, hs, htext⟩ := h hrule
    exact ⟨'\x7b' :: u, body, hs, htext⟩

theorem rewrites_of_requoted
    (h : ∀ {s text rest}, rule s = some (text, rest) → Requoted s text rest) : Rewrites rule :=
  rewrites_of_braces fun hrule => by
    obtain @⟨before, between, after, before', quote, rest, -, -, -, -, -, -, -, -⟩ := h hrule
    refine ⟨before ++ quote :: (between ++ quote :: (after ++ closeBraces)),
      before' ++ '\'' :: (between ++ ['\'']), ?_, ?_⟩
    · simp only [List.append_assoc, List.cons_append]
    · simp only [List.append_assoc, List.cons_append, List.nil_append]

/-- No member of a mapping gets the name of an alternative in a reference with a quoted text. -/
theorem Requoted.elseMember_of_text (h : Requoted s text rest) (hmember : elseMember <:+: text) :
    elseMember <:+: s := by
  obtain @⟨before, between, after, before', quote, rest, hquote, -, -, -, -, -, -, hbefore'⟩ := h
  rcases (Text.infix_append_cons (by decide)).1 (elseMember_openBraces hmember) with h | h
  · exact (hbefore' h).trans ⟨openBraces, _, List.append_assoc ..⟩
  · rcases (Text.infix_append_cons (by decide)).1 h with h | h
    · refine h.trans
        ⟨openBraces ++ (before ++ [quote]), quote :: (after ++ (closeBraces ++ rest)), ?_⟩
      simp only [List.append_assoc, List.cons_append, List.nil_append]
    · exact absurd h.length_le (by decide)

/-! ## Fallbacks and comparisons -/

theorem spares_quotedFallback : Spares quotedFallback := by
  intro clause y; cases clause <;> rfl

theorem spares_plainFallback : Spares plainFallback := by
  intro clause y; cases clause <;> rfl

theorem spares_comparedOutput : Spares comparedOutput := by
  intro clause y; cases clause <;> rfl

theorem rewrites_quotedFallback : Rewrites quotedFallback :=
  rewrites_of_requoted quotedFallback_requoted

theorem rewrites_comparedOutput : Rewrites comparedOutput :=
  rewrites_of_requoted comparedOutput_requoted

theorem sights_quotedFallback (hs : Sight.block ∉ sights s) :
    sights (replaceAll quotedFallback s) = sights s :=
  sights_of_requoted rewrites_quotedFallback spares_quotedFallback quotedFallback_requoted hs

theorem sights_comparedOutput (hs : Sight.block ∉ sights s) :
    sights (replaceAll comparedOutput s) = sights s :=
  sights_of_requoted rewrites_comparedOutput spares_comparedOutput comparedOutput_requoted hs

theorem rewrites_plainFallback : Rewrites plainFallback :=
  rewrites_of_braces fun hrule => by
    obtain ⟨before, value, b, after, path, rfl, rfl, -⟩ := plainFallback_taken hrule
    refine ⟨before ++ (value ++ (b ++ ')' :: (after ++ closeBraces))),
      callStart "default" path ++ value, ?_, ?_⟩
    · simp only [List.append_assoc, List.cons_append]
    · simp only [List.append_assoc]

/-- **A fallback is seen as before** when only statements of clauses are seen in it. -/
theorem sights_value {tail : List Char} (htail : Plain tail) (hne : tail ≠ [])
    (rest value : List Char)
    (hgood : ∀ x ∈ sights (value ++ (tail ++ (closeBraces ++ rest))), ∃ clause, x =
      .statement (some clause)) :
    ∃ seen, sights (value ++ (tail ++ (closeBraces ++ rest))) = seen ++ sights rest ∧
      ∀ x, sights (value ++ (closeBraces ++ x)) = seen ++ sights x := by
  induction value with
  | nil =>
    refine ⟨[], ?_, fun x => sights_append (u := closeBraces) (by decide) x⟩
    rw [List.nil_append, sights_append htail.no_brace]
    exact sights_append (u := closeBraces) (by decide) rest
  | cons c value ih =>
    rw [List.cons_append, sights_cons] at hgood
    obtain ⟨seen, hbefore, hafter⟩ := ih fun x hx => hgood x (List.mem_append_right _ hx)
    have hfirst := fun x hx => hgood x (List.mem_append_left _ hx)
    clear hgood ih
    have hsight (x : List Char) : sight? (c :: (value ++ (tail ++ (closeBraces ++ rest)))) =
        sight? (c :: (value ++ (closeBraces ++ x))) := by
      by_cases hc : c = '\x7b'
      · subst hc
        match value with
        | [] =>
          cases tail with
          | nil => exact absurd rfl hne
          | cons d tail =>
            have hd := isInside_iff.1 (htail d List.mem_cons_self)
            exact (sight?_brace ⟨hd.1, hd.2.2⟩ _).trans (sight?_brace (by decide) _).symm
        | d :: value =>
          by_cases hd : d = '\x7b' ∨ d = '%'
          · rcases hd with rfl | rfl
            · -- a tag there would be seen before
              have hnone : tagSight? (value ++ (tail ++ (closeBraces ++ rest))) = none := by
                cases htag : tagSight? (value ++ (tail ++ (closeBraces ++ rest))) with
                | none => rfl
                | some sight =>
                  obtain ⟨clause, rfl⟩ := hfirst sight (Option.mem_toList.2 htag)
                  exact absurd htag (tagSight?_ne_statement _ _)
              refine Eq.trans (b := none) hnone (Eq.symm ?_)
              refine tagSight?_eq_none.2 fun start hstart hprefix =>
                tagSight?_eq_none.1 hnone start hstart ?_
              have hno : '\x7d' ∉ start :=
                (by decide : ∀ start ∈ blockStarts, '\x7d' ∉ start) start hstart
              have hvalue : start.isPrefixOf value :=
                (Text.isPrefixOf_append_cons hno ('\x7d' :: x)).symm.trans
                  (List.isPrefixOf_iff_prefix.2 hprefix)
              exact (List.isPrefixOf_iff_prefix.1 hvalue).trans (List.prefix_append ..)
            · have hstop := statementOf?_append_stop htail (.inr ⟨rfl, hne⟩) value ('\x7d' :: rest)
              obtain ⟨clause, hclause⟩ := hfirst _ (Option.mem_toList.2 rfl)
              have hbefore' : statementOf? (value ++ (tail ++ (closeBraces ++ rest))) =
                  some clause :=
                Sight.statement.inj hclause
              have hafter' := statementOf?_append (hstop.symm.trans hbefore') (closeBraces ++ x)
              exact congrArg (fun clause => some (Sight.statement clause))
                (hbefore'.trans hafter'.symm)
          · rw [not_or] at hd
            exact (sight?_brace hd _).trans (sight?_brace hd _).symm
      · exact (sight?_of_ne hc _).trans (sight?_of_ne hc _).symm
    refine ⟨(sight? (c :: (value ++ (tail ++ (closeBraces ++ rest))))).toList ++ seen,
      ?_, fun x => ?_⟩
    · rw [List.cons_append, sights_cons, hbefore, List.append_assoc]
    · rw [List.cons_append, sights_cons, hafter, ← hsight x, List.append_assoc]

theorem sights_plainFallback (hs : ∀ x ∈ sights s, ∃ clause, x = Sight.statement (some clause)) :
    sights (replaceAll plainFallback s) = sights s := by
  refine (List.forall₂_eq_eq_eq ▸ sights_replaceAll rewrites_plainFallback (r := Eq) (fun _ => rfl)
    (fun s => ∀ x ∈ sights s, ∃ clause, x = Sight.statement (some clause))
    (fun u s hgood x hx => hgood x (sights_suffix (List.suffix_append u s) hx)) ?_ hs).symm
  intro s text rest hgood hrule
  have htag : ∀ v, s = openBraces ++ v → tagSight? v = none := fun v hv =>
    spares_plainFallback.tagSight?_eq_none
      (fun hmem => by obtain ⟨clause, h⟩ := hgood _ (hv ▸ hmem); cases h)
      (by rw [← hv, hrule]; rfl)
  obtain ⟨before, value, b, after, path, rfl, rfl, hne, hbefore, hb, hafter, hpath⟩ :=
    plainFallback_taken hrule
  have htail : Plain (b ++ ')' :: after) :=
    plain_append.2 ⟨plain_blanks hb, plain_cons.2 ⟨rfl, hafter⟩⟩
  have hname : "default" = "default" ∨ "default" = "eq" ∨ "default" = "ne" := .inl rfl
  have hsplit : b ++ ')' :: (after ++ (closeBraces ++ rest)) =
      (b ++ ')' :: after) ++ (closeBraces ++ rest) := by
    rw [List.append_assoc, List.cons_append]
  rw [hsplit] at hgood ⊢
  have hseen := sights_braces hbefore hne (value ++ ((b ++ ')' :: after) ++ (closeBraces ++ rest)))
  rw [htag _ (by rw [hsplit]), Option.toList_none, List.nil_append] at hseen
  rw [hseen] at hgood ⊢
  obtain ⟨seen, hbefore', hafter'⟩ := sights_value htail (by simp) rest value hgood
  refine ⟨seen, seen, List.forall₂_same.2 fun _ _ => rfl, hbefore', fun x => ?_⟩
  have hcall := sights_braces (plain_callStart hname fun c hc => hbefore c (hpath.subset hc))
    (callStart_ne_nil path) (value ++ (closeBraces ++ x))
  rw [tagSight?_callStart hname, Option.toList_none, List.nil_append] at hcall
  rw [← hafter' x, ← hcall]
  simp only [List.append_assoc]

theorem elseMember_plainFallback (h : elseMember <:+: replaceAll plainFallback s) :
    elseMember <:+: s := by
  refine infix_replaceAll rewrites_plainFallback (by decide) (by decide) ?_ h
  intro s text rest hrule hmember
  obtain ⟨before, value, b, after, path, rfl, rfl, -, -, -, -, hpath⟩ := plainFallback_taken hrule
  rcases elseMember_callStart_append (.inl rfl) (elseMember_openBraces hmember) with h | h
  · exact (h.trans hpath).trans ⟨openBraces, _, List.append_assoc ..⟩
  · refine (elseMember_closeBraces h).trans
      ⟨openBraces ++ before, b ++ ')' :: (after ++ (closeBraces ++ rest)), ?_⟩
    simp only [List.append_assoc]

/-! ## Variables of loops -/

/-- A word that starts like an alternative and is not its name is followed by a letter. -/
theorem IsVariable.letter_of_else {name r y : List Char} (hname : IsVariable name) {c : Char}
    (hc : Text.isWord c = false) (h : "else".toList ++ c :: y = name ++ r) : ∃ d r', r = d :: r' ∧
    (d = 'l' ∨ d = 's' ∨ d = 'e') := by
  obtain ⟨hword, hne, helse⟩ := hname
  have hcons : 'e' :: 'l' :: 's' :: 'e' :: c :: y = name ++ r := h
  match name with
  | [] => exact absurd rfl hne
  | [_] => exact ⟨'l', _, (List.cons.inj hcons).2.symm, .inl rfl⟩
  | [_, _] => exact ⟨'s', _, (List.cons.inj (List.cons.inj hcons).2).2.symm, .inr (.inl rfl)⟩
  | [_, _, _] =>
    exact ⟨'e', _, (List.cons.inj (List.cons.inj (List.cons.inj hcons).2).2).2.symm,
      .inr (.inr rfl)⟩
  | [_, _, _, _] =>
    simp only [List.cons_append, List.cons.injEq] at hcons
    obtain ⟨rfl, rfl, rfl, rfl, -⟩ := hcons
    exact absurd rfl helse
  | _ :: _ :: _ :: _ :: e :: _ =>
    have he : e = c := by simp_all
    have hword' := hword e (by simp)
    rw [he, hc] at hword'
    cases hword'

/-- **A tag of a clause holds no variable**, neither by itself nor with a property. -/
theorem IsVariable.not_in_tag {name r : List Char} (hname : IsVariable name) {clause : Clause}
    {y : List Char} (h : afterVariable? name (openBraces ++ (clause.tagStart ++ y)) = some r) :
    Text.afterPrefix? ['.'] r = none ∧ afterBlanks? closeBraces r = none := by
  have hstart : clause.tagStart ++ y = name ++ r := by
    have htrim : Text.trimLeft (clause.tagStart ++ y) = clause.tagStart ++ y := by
      cases clause <;> rfl
    rw [afterVariable?, Text.afterPrefix?_append, Option.bind_eq_bind, Option.bind_some,
      afterBlanks?, htrim] at h
    exact Text.afterPrefix?_eq_some.1 h
  have hletter : ∀ {d r'}, r = d :: r' → (d = 'l' ∨ d = 's' ∨ d = 'e') →
      Text.afterPrefix? ['.'] r = none ∧ afterBlanks? closeBraces r = none := by
    rintro d r' rfl (rfl | rfl | rfl) <;> exact ⟨rfl, rfl⟩
  have hsign {c : Char} {z : List Char} (hc : Text.isWord c = false)
      (heq : c :: z = name ++ r) : False := by
    cases name with
    | nil => exact hname.ne_nil rfl
    | cons d name =>
      have hword := hname.word d List.mem_cons_self
      rw [← (List.cons.inj heq).1, hc] at hword
      cases hword
  cases clause with
  | branch => exact (hsign (c := '#') rfl hstart).elim
  | elif =>
    obtain ⟨d, r', hr, hd⟩ := hname.letter_of_else (c := ' ') rfl hstart
    exact hletter hr hd
  | otherwise =>
    obtain ⟨d, r', hr, hd⟩ := hname.letter_of_else (c := '\x7d') rfl hstart
    exact hletter hr hd
  | endBranch => exact (hsign (c := '/') rfl hstart).elim
  | loop => exact (hsign (c := '#') rfl hstart).elim
  | endLoop => exact (hsign (c := '/') rfl hstart).elim

theorem spares_loopProperty {name : List Char} (hname : IsVariable name) :
    Spares (loopProperty name) := by
  intro clause y
  cases h : afterVariable? name (openBraces ++ (clause.tagStart ++ y)) with
  | none => rw [loopProperty, h]; rfl
  | some r =>
    rw [loopProperty, h, Option.bind_eq_bind, Option.bind_some, (hname.not_in_tag h).1]
    rfl

theorem spares_loopItem {name : List Char} (hname : IsVariable name) : Spares (loopItem name) := by
  intro clause y
  cases h : afterVariable? name (openBraces ++ (clause.tagStart ++ y)) with
  | none => rw [loopItem, h]; rfl
  | some r =>
    rw [loopItem, h, Option.bind_eq_bind, Option.bind_some, (hname.not_in_tag h).2]
    rfl

theorem rewrites_loopProperty (name : List Char) : Rewrites (loopProperty name) :=
  rewrites_of_braces fun hrule => by
    obtain ⟨b, path, b', rfl, rfl, -⟩ := loopProperty_taken hrule
    exact ⟨b ++ (name ++ '.' :: (path ++ (b' ++ closeBraces))),
      path, by simp only [List.append_assoc, List.cons_append],
      rfl⟩

theorem rewrites_loopItem (name : List Char) : Rewrites (loopItem name) :=
  rewrites_of_braces fun hrule => by
    obtain ⟨b, b', rfl, rfl, -⟩ := loopItem_taken hrule
    exact ⟨b ++ (name ++ (b' ++ closeBraces)), "this".toList, by simp only [List.append_assoc],
      List.append_assoc ..⟩

theorem plain_word {name : List Char} (h : ∀ c ∈ name, Text.isWord c) : Plain name :=
  plain_of (by decide) h

theorem sights_loopProperty {name : List Char} (hname : IsVariable name)
    (hblock : Sight.block ∉ sights s) (hmember : ¬ elseMember <:+: s) :
    sights (replaceAll (loopProperty name) s) = sights s := by
  refine (List.forall₂_eq_eq_eq ▸ sights_replaceAll (rewrites_loopProperty name) (r := Eq)
    (fun _ => rfl)
    (fun s => Sight.block ∉ sights s ∧ ¬ elseMember <:+: s)
    (fun u s hgood => ⟨fun hmem => hgood.1 (sights_suffix (List.suffix_append u s) hmem),
      fun hmem => hgood.2 (hmem.trans (List.suffix_append u s).isInfix)⟩) ?_ ⟨hblock, hmember⟩).symm
  intro s text rest hgood hrule
  have htag : ∀ v, s = openBraces ++ v → tagSight? v = none := fun v hv =>
    (spares_loopProperty hname).tagSight?_eq_none (hv ▸ hgood.1) (by rw [← hv, hrule]; rfl)
  obtain ⟨b, path, b', rfl, rfl, hb, hne, hpath, hb'⟩ := loopProperty_taken hrule
  refine ⟨[], [], .nil, ?_, fun x => ?_⟩
  · have hsplit : b ++ (name ++ '.' :: (path ++ (b' ++ (closeBraces ++ rest)))) =
        (b ++ (name ++ '.' :: (path ++ b'))) ++ (closeBraces ++ rest) := by
      simp only [List.append_assoc, List.cons_append]
    have hplain : Plain (b ++ (name ++ '.' :: (path ++ b'))) :=
      plain_append.2 ⟨plain_blanks hb, plain_append.2 ⟨plain_word hname.word, plain_cons.2 ⟨rfl,
        plain_append.2 ⟨plain_path hpath, plain_blanks hb'⟩⟩⟩⟩
    rw [hsplit] at htag ⊢
    rw [sights_reference hplain (by simp), htag _ rfl]
    rfl
  · -- a path that starts like an alternative would stand behind the dot
    have hnone : tagSight? (path ++ (closeBraces ++ x)) = none := by
      refine tagSight?_eq_none.2 fun start hstart hprefix => ?_
      have hno : '\x7d' ∉ start := (by decide : ∀ start ∈ blockStarts, '\x7d' ∉ start) start hstart
      have hstart' : start <+: path := List.isPrefixOf_iff_prefix.1
        ((Text.isPrefixOf_append_cons hno ('\x7d' :: x)).symm.trans
          (List.isPrefixOf_iff_prefix.2 hprefix))
      rcases List.mem_cons.1 hstart with rfl | hstart
      · exact absurd (hpath '#' (hstart'.subset (by decide))) (by decide)
      rcases List.mem_cons.1 hstart with rfl | hstart
      · exact absurd (hpath '/' (hstart'.subset (by decide))) (by decide)
      obtain rfl := List.mem_singleton.1 hstart
      obtain ⟨z, rfl⟩ := hstart'
      refine hgood.2 ⟨openBraces ++ (b ++ name), z ++ (b' ++ (closeBraces ++ rest)), ?_⟩
      simp only [elseMember, List.append_assoc]
      rfl
    rw [List.append_assoc, List.append_assoc, sights_reference (plain_path hpath) hne, hnone]
    rfl

theorem sights_loopItem {name : List Char} (hname : IsVariable name)
    (hblock : Sight.block ∉ sights s) : sights (replaceAll (loopItem name) s) = sights s := by
  refine (List.forall₂_eq_eq_eq ▸ sights_replaceAll (rewrites_loopItem name) (r := Eq)
    (fun _ => rfl)
    (fun s => Sight.block ∉ sights s)
    (fun u s hgood hmem => hgood (sights_suffix (List.suffix_append u s) hmem)) ?_ hblock).symm
  intro s text rest hgood hrule
  have htag : ∀ v, s = openBraces ++ v → tagSight? v = none := fun v hv =>
    (spares_loopItem hname).tagSight?_eq_none (hv ▸ hgood) (by rw [← hv, hrule]; rfl)
  obtain ⟨b, b', rfl, rfl, hb, hb'⟩ := loopItem_taken hrule
  refine ⟨[], [], .nil, ?_, fun x => ?_⟩
  · have hsplit : b ++ (name ++ (b' ++ (closeBraces ++ rest))) =
        (b ++ (name ++ b')) ++ (closeBraces ++ rest) := by
      simp only [List.append_assoc]
    have hplain : Plain (b ++ (name ++ b')) :=
      plain_append.2 ⟨plain_blanks hb, plain_append.2 ⟨plain_word hname.word, plain_blanks hb'⟩⟩
    rw [hsplit] at htag ⊢
    rw [sights_reference hplain (by simp [hname.ne_nil]), htag _ rfl]
    rfl
  · have hthis : Plain "this".toList := by decide
    exact sights_reference hthis (by decide) x

theorem elseMember_loopProperty {name : List Char}
    (h : elseMember <:+: replaceAll (loopProperty name) s) : elseMember <:+: s := by
  refine infix_replaceAll (rewrites_loopProperty name) (by decide) (by decide) ?_ h
  intro s text rest hrule hmember
  obtain ⟨b, path, b', rfl, rfl, -⟩ := loopProperty_taken hrule
  refine (elseMember_closeBraces (elseMember_openBraces hmember)).trans
    ⟨openBraces ++ (b ++ (name ++ ['.'])), b' ++ (closeBraces ++ rest), ?_⟩
  simp only [List.append_assoc, List.cons_append, List.nil_append]

theorem elseMember_loopItem {name : List Char} (h : elseMember <:+: replaceAll (loopItem name) s) :
    elseMember <:+: s := by
  refine infix_replaceAll (rewrites_loopItem name) (by decide) (by decide) ?_ h
  intro s text rest hrule hmember
  obtain ⟨b, b', rfl, rfl, -⟩ := loopItem_taken hrule
  refine absurd hmember ?_
  rw [← Text.occursIn_eq_true]
  decide

end Runlist.Template
