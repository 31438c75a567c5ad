import Runlist.Proofs.Block.Rendered
import Runlist.Proofs.Template.Checked

/-!
# Parameters are evaluated to what they mean

A parameter is converted mark by mark, the template is read as a tree of the parameter's form, and
the tree is rendered to the parameter's text. What is asked of the parameter for this is put
together here, and shown for text of one kind.

* `Phrase.Faithful`: what a parameter and its data have to be like.
* `evaluate_phrase`: **a parameter is evaluated to its text over the data.**
* `undisturbed_words`, `undisturbed_output`: text of words disturbs no tag, and a tag that puts
  something out is only disturbed by a backslash.
-/

namespace Runlist.Template

open Block (Undisturbed startsWithMark)

variable {symbols : List Symbol} {phrase : Phrase}

/-! ## Evaluation -/

/-- **What a parameter and its data have to be like**: the text holds no braces, the marks are
converted to what they mean and are read as that, no tag is hidden or alone on a line, and the data
has what is asked for. -/
structure Phrase.Faithful (strict : Bool) (vars : Variables) (phrase : Phrase) : Prop where
  text : ∀ c, .char c ∈ phrase.symbols → c ≠ '\x7b' ∧ c ≠ '\x7d'
  clean : ∀ m, .mark m ∈ phrase.symbols → m.isClean ((loopNames phrase.symbols).map Ident.text)
  read : ∀ m, .mark m ∈ phrase.symbols → m.isRead
  undisturbed : Undisturbed true phrase.symbols
  fits : phrase.fits strict (.object vars)

theorem write_chars (spell : Mark → List Char) (text : List Char) :
    write spell (chars text) = text := by
  induction text with
  | nil => rfl
  | cons c text ih => exact congrArg (c :: ·) ih

theorem write_append (spell : Mark → List Char) (σ τ : List Symbol) :
    write spell (σ ++ τ) = write spell σ ++ write spell τ := by
  induction σ with
  | nil => rfl
  | cons symbol σ ih =>
    cases symbol with
    | char c => exact congrArg (c :: ·) ih
    | mark m => exact (congrArg (spell m ++ ·) ih).trans (List.append_assoc ..).symm

/-- A text with a mark in it is a template. -/
theorem isTemplate_of_mark {m : Mark} (hm : .mark m ∈ symbols) :
    isTemplate (String.ofList (write Mark.source symbols)) := by
  have hinfix : m.source <:+: write Mark.source symbols := by
    obtain ⟨σ, τ, rfl⟩ := List.append_of_mem hm
    rw [write_append]
    exact ⟨write Mark.source σ, write Mark.source τ, List.append_assoc ..⟩
  have hstart : openBraces <+: m.source ∨ opening <+: m.source := by
    cases m with
    | output out => exact .inl ⟨' ' :: out.text ++ ' ' :: closeBraces, rfl⟩
    | item name fields =>
      exact .inl ⟨' ' :: (Dotted.mk name fields).text ++ ' ' :: closeBraces, rfl⟩
    | _ => exact .inr ⟨_, (List.append_assoc ..).symm⟩
  rw [isTemplate, String.toList_ofList, Bool.or_eq_true, Text.occursIn_eq_true,
    Text.occursIn_eq_true]
  exact hstart.imp (fun h => h.isInfix.trans hinfix) fun h => h.isInfix.trans hinfix

/-- **A parameter is evaluated to its text over the data.** -/
theorem evaluate_phrase {strict : Bool} {vars : Variables} (h : phrase.Faithful strict vars) :
    evaluate strict phrase.source vars = .ok (phrase.meaning (.object vars)) := by
  rw [evaluate]
  cases htemplate : isTemplate phrase.source with
  | true =>
    have hconvert : convert phrase.source = _ := convert_phrase ⟨h.text, h.clean⟩
    obtain ⟨template, hread, hbuild⟩ := Block.ofText?_phrase (fun c hc => (h.text c hc).1)
      (fun m hm => isReadable_of_isRead (h.clean m hm) (h.read m hm)) h.undisturbed
    have hrender : template.render ⟨.object vars, strict⟩ = .ok (phrase.meaning (.object vars)) :=
      renderAll_phrase (Block.LooksAt.data ⟨.object vars, strict⟩) phrase h.read h.fits hbuild
    rw [if_pos rfl, hconvert, ok_bind, Block.render, String.toList_ofList, hread]
    dsimp only
    rw [hrender]
    rfl
  | false =>
    -- a parameter that is no template has no marks, so it is a text
    rw [if_neg Bool.false_ne_true]
    have hnone (m : Mark) : .mark m ∉ phrase.symbols := fun hm => by
      rw [Phrase.source, isTemplate_of_mark hm] at htemplate
      cases htemplate
    cases phrase with
    | done text =>
      rw [Phrase.source, Phrase.symbols, write_chars]
      rfl
    | _ => exact absurd (List.mem_append_right _ List.mem_cons_self) (hnone _)

/-! ## Undisturbed tags -/

/-- Behind a tag, text of words disturbs nothing. -/
theorem undisturbed_false (htext : ∀ c, .char c ∈ symbols → Text.isWord c) :
    Undisturbed false symbols := by
  induction symbols with
  | nil => trivial
  | cons symbol symbols ih =>
    have hrest := ih fun c hc => htext c (List.mem_cons_of_mem _ hc)
    cases symbol with
    | mark m => exact ⟨fun _ => Bool.and_false _, hrest⟩
    | char c =>
      have hword := htext c List.mem_cons_self
      have hne {d : Char} (hd : Text.isWord d = false) : c ≠ d := by
        rintro rfl
        rw [hword] at hd
        cases hd
      have hline : (c == '\n' || c == '\r' || (Text.isIndent c && false)) = false := by
        rw [Bool.and_false, Bool.or_false, Bool.or_eq_false_iff, beq_eq_false_iff_ne,
          beq_eq_false_iff_ne]
        exact ⟨hne (by decide), hne (by decide)⟩
      refine ⟨fun heq => absurd heq (hne (by decide)), ?_⟩
      rw [hline]
      exact hrest

/-- A line with something on it is not blank. -/
theorem blankAfter_write {symbol : Symbol} (hsymbol : ∀ c, symbol = .char c → Text.isWord c)
    (symbols : List Symbol) :
    Block.Piece.blankAfter (write Mark.target (symbol :: symbols)) = false := by
  have hcons {c : Char} (hc : Text.isIndent c = false ∧ c ≠ '\n' ∧ c ≠ '\r') (s : List Char) :
      Block.Piece.blankAfter (c :: s) = false := by
    rw [Block.Piece.blankAfter, List.dropWhile_cons, hc.1]
    simp only [List.isEmpty_cons, Bool.false_eq_true, if_false, List.head?_cons, Option.any_some,
      Bool.false_or, Bool.or_eq_false_iff, beq_eq_false_iff_ne]
    exact hc.2
  cases symbol with
  | mark m => exact hcons (c := '\x7b') ⟨rfl, by decide, by decide⟩ _
  | char c =>
    have hword := hsymbol c rfl
    have hne {d : Char} (hd : Text.isWord d = false) : c ≠ d := by
      rintro rfl
      rw [hword] at hd
      cases hd
    refine hcons ⟨?_, hne (by decide), hne (by decide)⟩ _
    rw [Text.isIndent, Bool.or_eq_false_iff, beq_eq_false_iff_ne, beq_eq_false_iff_ne]
    exact ⟨hne (by decide), hne (by decide)⟩

/-- At the start of a line the first mark has something behind it, unless it puts something out. -/
theorem undisturbed_true (htext : ∀ c, .char c ∈ symbols → Text.isWord c)
    (hfirst : ∀ m others, symbols = .mark m :: others → Block.Trim.mayStandAlone m.tag →
      others ≠ []) :
    Undisturbed true symbols := by
  cases symbols with
  | nil => trivial
  | cons symbol symbols =>
    have htext' : ∀ c, .char c ∈ symbols → Text.isWord c :=
      fun c hc => htext c (List.mem_cons_of_mem _ hc)
    have hrest := undisturbed_false htext'
    cases symbol with
    | mark m =>
      refine ⟨fun halone => ?_, hrest⟩
      cases symbols with
      | nil => exact absurd rfl (hfirst m [] rfl halone)
      | cons next others =>
        rw [blankAfter_write fun c hc => htext' c (hc ▸ List.mem_cons_self)]
        rfl
    | char c =>
      obtain ⟨hslash, hline⟩ : Undisturbed false (.char c :: symbols) := undisturbed_false htext
      have hindent : Text.isIndent c = false := by
        have hword := htext c List.mem_cons_self
        cases h : Text.isIndent c with
        | false => rfl
        | true =>
          rw [Text.isIndent, Bool.or_eq_true, beq_iff_eq, beq_iff_eq] at h
          rcases h with rfl | rfl <;> exact absurd hword (by decide)
      rw [hindent] at hline
      refine ⟨hslash, ?_⟩
      rw [hindent]
      exact hline

/-- **Text of words disturbs no tag**, since a block's start has its end behind it. -/
theorem undisturbed_words (htext : ∀ c, .char c ∈ phrase.symbols → Text.isWord c) :
    Undisturbed true phrase.symbols := by
  refine undisturbed_true htext fun m others heq halone => ?_
  cases phrase with
  | done text =>
    have hmem : Symbol.mark m ∈ chars text := by
      have heq : chars text = .mark m :: others := heq
      rw [heq]
      exact List.mem_cons_self
    obtain ⟨c, -, hc⟩ := List.mem_map.1 hmem
    cases hc
  | output text out rest =>
    cases text with
    | cons c text => cases heq
    | nil =>
      obtain ⟨hmark, -⟩ := List.cons.inj heq
      obtain rfl := Symbol.mark.inj hmark
      cases halone
  | branch text condition body alternatives rest =>
    cases text with
    | cons c text => cases heq
    | nil =>
      obtain ⟨-, rfl⟩ := List.cons.inj heq
      simp
  | loop text item list round rest =>
    cases text with
    | cons c text => cases heq
    | nil =>
      obtain ⟨-, rfl⟩ := List.cons.inj heq
      simp

/-- Behind the last tag a text disturbs nothing. -/
theorem undisturbed_chars (text : List Char) (blank : Bool) : Undisturbed blank (chars text) := by
  induction text generalizing blank with
  | nil => trivial
  | cons c text ih =>
    refine ⟨fun _ => ?_, ih _⟩
    cases text <;> rfl

/-- **A tag that puts something out is only disturbed by a backslash in front of it.** -/
theorem undisturbed_output {text : List Char} (hslash : text.getLast? ≠ some '\\') (out : Output)
    (hrest : Undisturbed false symbols) (blank : Bool) :
    Undisturbed blank (chars text ++ .mark (.output out) :: symbols) := by
  induction text generalizing blank with
  | nil => exact ⟨fun halone => absurd halone Bool.false_ne_true, hrest⟩
  | cons c text ih =>
    cases text with
    | nil =>
      refine ⟨?_, ih (by simp) _⟩
      rintro rfl
      exact absurd rfl hslash
    | cons d text => exact ⟨fun _ => rfl, ih hslash _⟩

end Runlist.Template
