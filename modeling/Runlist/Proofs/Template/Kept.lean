import Mathlib.Data.List.Forall2
import Runlist.Proofs.Template.Taken

/-!
# What rules keep

A rule goes through a text and writes references in the place of what it takes. Up to the next brace
the text behind a place stays the same, so what is seen at a place that is passed over stays the
same.

* `Rewrites`: a rule takes something that starts with a brace, and writes a reference.
* `replaceAll_induction`: **what holds of every step of a rule holds of the whole.**
* `sight?_replaceAll`: what is seen at a place that is passed over.
* `Sight.Becomes`: a statement may become the tag of its clause.
* `sights_replaceAll`: **what is seen in a text changes as it changes in the parts that the rule
  takes.**
-/

namespace Runlist.Template

variable {rule : Rule} {s t : List Char}

/-! ## Rules that write references -/

/-- The rule takes something where a reference or a statement starts, and writes a reference. -/
structure Rewrites (rule : Rule) : Prop where
  braced : Braced rule
  writes : ∀ {s text rest}, rule s = some (text, rest) →
    ∃ u body, s = '\x7b' :: (u ++ rest) ∧ text = openBraces ++ (body ++ closeBraces)

/-- **What holds of every step of a rule holds of the whole.** -/
theorem replaceAll_induction (h : Rewrites rule) {motive : List Char → List Char → Prop}
    (nil : motive [] [])
    (pass : ∀ c s, rule (c :: s) = none → motive s (replaceAll rule s) →
      motive (c :: s) (c :: replaceAll rule s))
    (take : ∀ s text rest, rule s = some (text, rest) → motive rest (replaceAll rule rest) →
      motive s (text ++ replaceAll rule rest))
    (s : List Char) : motive s (replaceAll rule s) := by
  match s with
  | [] => exact nil
  | c :: s =>
    match hrule : rule (c :: s) with
    | none =>
      rw [replaceAll_pass hrule]
      exact pass c s hrule (replaceAll_induction h nil pass take s)
    | some (text, rest) =>
      obtain ⟨u, body, hs, -⟩ := h.writes hrule
      have hlength : rest.length < (c :: s).length := by
        rw [hs, List.length_cons, List.length_append]
        omega
      have htaken : replaceAll rule (c :: s) = text ++ replaceAll rule rest := by
        rw [hs] at hrule ⊢
        exact replaceAll_take hrule
      rw [htaken]
      exact take (c :: s) text rest hrule (replaceAll_induction h nil pass take rest)
termination_by s.length
decreasing_by
  · exact Nat.lt_succ_self _
  · exact hlength

/-- **Up to the first brace a text stays the same**, and there is a brace afterwards where there was
one. -/
theorem replaceAll_split (h : Rewrites rule) (s : List Char) :
    ('\x7b' ∉ s ∧ replaceAll rule s = s) ∨
      ∃ u x y, '\x7b' ∉ u ∧ s = u ++ '\x7b' :: x ∧ replaceAll rule s = u ++ '\x7b' :: y := by
  induction s with
  | nil => exact .inl ⟨List.not_mem_nil, rfl⟩
  | cons c s ih =>
    by_cases hc : c = '\x7b'
    · subst hc
      refine .inr ⟨[], s, ?_⟩
      cases hrule : rule ('\x7b' :: s) with
      | none => exact ⟨_, List.not_mem_nil, rfl, replaceAll_pass hrule⟩
      | some taken =>
        obtain ⟨text, rest⟩ := taken
        obtain ⟨u, body, hs, rfl⟩ := h.writes hrule
        rw [hs] at hrule ⊢
        exact ⟨_, List.not_mem_nil, rfl, replaceAll_take hrule⟩
    · have hpass := replaceAll_pass (h.braced.eq_none fun hopens : Opens (c :: s) => hc hopens.head)
      rw [hpass]
      rcases ih with ⟨hno, hs⟩ | ⟨u, x, y, hno, hs, hy⟩
      · exact .inl ⟨by simp [Ne.symm hc, hno], by rw [hs]⟩
      · exact .inr ⟨c :: u, x, y, by simp [Ne.symm hc, hno], by rw [hs]; rfl, by rw [hy]; rfl⟩

theorem tagSight?_replaceAll (h : Rewrites rule) (s : List Char) :
    tagSight? (replaceAll rule s) = tagSight? s := by
  rcases replaceAll_split h s with ⟨-, hs⟩ | ⟨u, x, y, -, hs, hy⟩
  · rw [hs]
  · rw [hy, hs, tagSight?_append_cons rfl, tagSight?_append_cons rfl]

theorem statementOf?_replaceAll (h : Rewrites rule) (s : List Char) :
    statementOf? (replaceAll rule s) = statementOf? s := by
  rcases replaceAll_split h s with ⟨-, hs⟩ | ⟨u, x, y, -, hs, hy⟩
  · rw [hs]
  · have hstop (z : List Char) : statementOf? (u ++ '\x7b' :: z) = statementOf? u :=
      statementOf?_append_stop (fun _ hmem => absurd hmem List.not_mem_nil) (.inl rfl) u z
    rw [hy, hs, hstop, hstop]

/-- A brace, or a percent sign, behind two braces is no tag. -/
theorem tagSight?_of_opens (h : Opens ('\x7b' :: s)) : tagSight? s = none := by
  rcases h with h | h <;> obtain ⟨rest, rfl⟩ := (List.cons_prefix_cons.1 h).2 <;> rfl

/-- **What is seen at a place that a rule passes over** stays the same. -/
theorem sight?_replaceAll (h : Rewrites rule) (c : Char) (s : List Char) :
    sight? (c :: replaceAll rule s) = sight? (c :: s) := by
  by_cases hc : c = '\x7b'
  · subst hc
    rcases replaceAll_split h s with ⟨-, hs⟩ | ⟨u, x, y, hno, hs, hy⟩
    · rw [hs]
    · cases u with
      | nil =>
        rw [List.nil_append] at hs hy
        subst hs
        cases hrule : rule ('\x7b' :: x) with
        | none =>
          rw [replaceAll_pass hrule]
          exact tagSight?_replaceAll h x
        | some taken =>
          -- a reference is written where one starts, or a statement
          obtain ⟨text, rest⟩ := taken
          have hopens : Opens ('\x7b' :: x) := h.braced _ (by rw [hrule]; rfl)
          obtain ⟨u, body, hx, rfl⟩ := h.writes hrule
          rw [hx] at hrule hopens ⊢
          rw [replaceAll_take hrule]
          exact (tagSight?_of_opens hopens).symm
      | cons d u =>
        have hd : d ≠ '\x7b' := fun hd => hno (hd ▸ List.mem_cons_self)
        have hpass : replaceAll rule s = d :: replaceAll rule (u ++ '\x7b' :: x) := by
          rw [hs, List.cons_append]
          exact replaceAll_pass (h.braced.eq_none fun hopens => hd hopens.head)
        rw [hpass, hs, List.cons_append]
        by_cases hpercent : d = '%'
        · subst hpercent
          exact congrArg (fun clause => some (Sight.statement clause)) (statementOf?_replaceAll h _)
        · rw [sight?_brace ⟨hd, hpercent⟩, sight?_brace ⟨hd, hpercent⟩]
  · rw [sight?_of_ne hc, sight?_of_ne hc]

/-! ## What is seen afterwards -/

/-- A statement may become the tag of its clause. -/
def Sight.Becomes (x y : Sight) : Prop :=
  y = x ∨ ∃ clause, x = .statement (some clause) ∧ y = .tag clause

/-- **What is seen in a text changes as it changes in the parts that the rule takes.** -/
theorem sights_replaceAll (h : Rewrites rule) {r : Sight → Sight → Prop} (hrefl : ∀ x, r x x)
    (good : List Char → Prop) (hsuffix : ∀ u s, good (u ++ s) → good s)
    (htake : ∀ {s text rest}, good s → rule s = some (text, rest) →
      ∃ seen seen', List.Forall₂ r seen seen' ∧
      sights s = seen ++ sights rest ∧ ∀ x, sights (text ++ x) = seen' ++ sights x)
    (hs : good s) : List.Forall₂ r (sights s) (sights (replaceAll rule s)) := by
  refine replaceAll_induction h (motive := fun s s' => good s →
    List.Forall₂ r (sights s) (sights s')) ?nil ?pass ?take
    s hs
  case nil => exact fun _ => .nil
  case pass =>
    intro c s _ ih hgood
    rw [sights_cons, sights_cons, sight?_replaceAll h]
    exact List.rel_append (List.forall₂_same.2 fun x _ => hrefl x) (ih (hsuffix [c] s hgood))
  case take =>
    intro s text rest hrule ih hgood
    obtain ⟨u, body, hs, -⟩ := h.writes hrule
    obtain ⟨seen, seen', hseen, hbefore, hafter⟩ := htake hgood hrule
    rw [hbefore, hafter]
    exact List.rel_append hseen (ih (hsuffix ('\x7b' :: u) rest (by rwa [List.cons_append, ← hs])))

/-- A text that comes in no part that the rule writes, unless it came in what is taken, comes in no
text anew. -/
theorem infix_replaceAll (h : Rewrites rule) {w : List Char} (hopen : '\x7b' ∉ w)
    (hclose : '\x7d' ∉ w)
    (htake : ∀ {s text rest}, rule s = some (text, rest) → w <:+: text → w <:+: s) :
    w <:+: replaceAll rule s → w <:+: s := by
  refine replaceAll_induction h (motive := fun s s' => w <:+: s' → w <:+: s) ?nil ?pass ?take s
  case nil => exact id
  case pass =>
    intro c s _ ih hoccurs
    rcases List.infix_cons_iff.1 hoccurs with hstart | hoccurs
    · refine List.infix_cons_iff.2 (.inl ?_)
      rcases replaceAll_split h s with ⟨-, hs⟩ | ⟨u, x, y, -, hs, hy⟩
      · rwa [hs] at hstart
      · rw [hy, ← List.cons_append, ← List.isPrefixOf_iff_prefix,
          Text.isPrefixOf_append_cons hopen] at hstart
        rw [hs, ← List.cons_append, ← List.isPrefixOf_iff_prefix, Text.isPrefixOf_append_cons hopen]
        exact hstart
    · exact (ih hoccurs).trans (List.suffix_cons c s).isInfix
  case take =>
    intro s text rest hrule ih hoccurs
    obtain ⟨u, body, hs, htext⟩ := h.writes hrule
    have hsplit : text ++ replaceAll rule rest =
        (openBraces ++ (body ++ ['\x7d'])) ++ '\x7d' :: replaceAll rule rest := by
      rw [htext]
      simp only [closeBraces, List.append_assoc]
      rfl
    rw [hsplit] at hoccurs
    rcases (Text.infix_append_cons hclose).1 hoccurs with hoccurs | hoccurs
    · refine htake hrule (hoccurs.trans ⟨[], ['\x7d'], ?_⟩)
      rw [htext]
      simp only [closeBraces, List.append_assoc]
      rfl
    · exact (ih hoccurs).trans ⟨'\x7b' :: u, [], by rw [hs, List.append_nil, List.cons_append]⟩

theorem elseMember_openBraces {x : List Char} (h : elseMember <:+: openBraces ++ x) :
    elseMember <:+: x :=
  ((Text.infix_append_cons (u := ['\x7b']) (c := '\x7b') (by decide)).1 h).resolve_left
    fun h => absurd h.length_le (by decide)

theorem elseMember_closeBraces {x : List Char} (h : elseMember <:+: x ++ closeBraces) :
    elseMember <:+: x :=
  ((Text.infix_append_cons (v := ['\x7d']) (c := '\x7d') (by decide)).1 h).resolve_right
    fun h => absurd h.length_le (by decide)

end Runlist.Template
