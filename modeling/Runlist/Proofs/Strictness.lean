import Mathlib.Data.List.Infix
import Runlist.Template.Templater

/-!
# Strict rendering

In strict mode a missing value is an error. Nothing else changes: a part of a template that gives a
result in strict mode gives the same result without it. This is proved along the tree of a template,
for terms, helpers, blocks and elements in turn, and conversion does not know of modes at all.

* `Persists`: the result of one run is the result of another.
* `answer_persists`, `argument_persists`, `plan_persists`: what a helper answers, what a term is,
  and what a block does.
* `renderAll_persists`: **the text of elements in strict mode is their text without it.**
* `strict_only_fails`: **strict mode only turns results into errors**, and keeps the errors of
  conversion.
-/

namespace Runlist

variable {α β ε ε' : Type}

/-! ## Results that stay -/

/-- **A result of the first run is the result of the second**; the first one may fail instead. -/
def Persists (r r' : Except ε α) : Prop := ∀ a, r = .ok a → r' = .ok a

namespace Persists

variable {r r' : Except ε α}

theorem refl (r : Except ε α) : Persists r r := fun _ h => h

theorem of_error (e : ε) (r : Except ε α) : Persists (.error e) r := fun _ h => nomatch h

/-- Runs one after the other. -/
theorem bind {f f' : α → Except ε β} (h : Persists r r') (hf : ∀ a, Persists (f a) (f' a)) :
    Persists (r >>= f) (r' >>= f') := by
  intro b hb
  cases hr : r with
  | error e =>
    rw [hr] at hb
    cases hb
  | ok a =>
    rw [hr] at hb
    rw [h a hr]
    exact hf a b hb

/-- The wording of a failure does not matter. -/
theorem mapError (h : Persists r r') (f f' : ε → ε') :
    Persists (r.mapError f) (r'.mapError f') := by
  intro a ha
  cases hr : r with
  | error e =>
    rw [hr] at ha
    cases ha
  | ok b =>
    rw [hr] at ha
    cases ha
    rw [h a hr]
    rfl

/-- A failure that only the strict run knows. -/
theorem guarded {e : ε} (c : Bool) :
    Persists (if c && true then .error e else r) (if c && false then .error e else r) := by
  cases c with
  | true => exact of_error e r
  | false => exact refl r

end Persists

namespace Block

open Persists (refl of_error)

variable {data : Json} {scopes : List Scope}

/-- The setting of a mode. -/
abbrev strictly (data : Json) : Setting := ⟨data, true⟩

/-- The setting without strict mode. -/
abbrev leniently (data : Json) : Setting := ⟨data, false⟩

/-! ## Helpers and terms -/

theorem needNamed_persists (helper name : String) (argument : Option Argument) :
    Persists (Helper.needNamed true helper name argument)
      (Helper.needNamed false helper name argument) := by
  cases argument with
  | none => exact refl _
  | some a =>
    rw [Helper.needNamed, Helper.needNamed, Bool.true_and, Bool.false_and]
    cases a.value with
    | some value => exact refl _
    | none => exact of_error _ _

/-- **What a helper answers.** Only look-ups, comparisons and scopes ask for the mode. -/
theorem answer_persists (helper : Helper) (arguments : List Argument)
    (options : List (String × Argument)) :
    Persists (helper.answer true arguments options) (helper.answer false arguments options) := by
  have hnamed (name wanted : String) (i : Nat) := needNamed_persists name wanted arguments[i]?
  match helper with
  | .scoped => exact (refl _).bind fun a => Persists.guarded _
  | .lookup =>
    refine (refl _).bind fun collection => (refl _).bind fun index => ?_
    cases Helper.member? collection.get index.get with
    | some value => exact refl _
    | none => exact of_error _ _
  | .equal positive => exact (hnamed _ _ 0).bind fun _ => (hnamed _ _ 1).bind fun _ => refl _
  | .compare comparison => exact (hnamed _ _ 0).bind fun _ => (hnamed _ _ 1).bind fun _ => refl _
  | .not => exact (hnamed _ _ 0).bind fun _ => refl _
  | .length => exact (hnamed _ _ 0).bind fun _ => refl _
  | .condition _ | .each | .verbatim | .log | .all | .any | .fallback => exact refl _

theorem called_persists (name : String) (arguments : List Argument)
    (options : List (String × Argument)) :
    Persists (Helper.called true name arguments options)
      (Helper.called false name arguments options) := by
  rw [Helper.called, Helper.called]
  cases Helper.ofName? name with
  | none => exact refl _
  | some helper => exact (answer_persists helper arguments options).bind fun _ => refl _

namespace Term

-- terms hold lists of terms, so that each reading of one is a lemma of the same recursion
mutual
/-- **The value of a term.** -/
theorem argument_persists (data : Json) (scopes : List Scope) : ∀ term : Term,
    Persists (term.argument (strictly data) scopes) (term.argument (leniently data) scopes)
  | .word name => by
    rw [argument, argument]
    exact refl _
  | .path p => by
    rw [argument, argument]
    exact refl _
  | .literal value => by
    rw [argument, argument]
    exact refl _
  | .call head terms options => by
    rw [argument, argument]
    exact (headName_persists data scopes head).bind fun name =>
      (arguments_persists data scopes terms).bind fun arguments =>
      (namedArguments_persists data scopes options).bind fun options =>
        called_persists name arguments options

theorem headName_persists (data : Json) (scopes : List Scope) : ∀ term : Term,
    Persists (term.headName (strictly data) scopes) (term.headName (leniently data) scopes)
  | .word name => by
    rw [headName, headName]
    exact refl _
  | .path p => by
    rw [headName, headName]
    exact refl _
  | .literal value => by
    rw [headName, headName]
    exact refl _
  | .call head terms options => by
    rw [headName, headName]
    exact (headName_persists data scopes head).bind fun name =>
      (arguments_persists data scopes terms).bind fun arguments =>
      (namedArguments_persists data scopes options).bind fun options =>
        (called_persists name arguments options).bind fun _ => refl _

theorem arguments_persists (data : Json) (scopes : List Scope) : ∀ terms : List Term,
    Persists (arguments (strictly data) scopes terms) (arguments (leniently data) scopes terms)
  | [] => by
    rw [arguments, arguments]
    exact refl _
  | term :: terms => by
    rw [arguments, arguments]
    exact (argument_persists data scopes term).bind fun _ =>
      (arguments_persists data scopes terms).bind fun _ => refl _

theorem namedArguments_persists (data : Json) (scopes : List Scope) :
    ∀ options : List (String × Term),
    Persists (namedArguments (strictly data) scopes options)
      (namedArguments (leniently data) scopes options)
  | [] => by
    rw [namedArguments, namedArguments]
    exact refl _
  | (name, term) :: options => by
    rw [namedArguments, namedArguments]
    exact (argument_persists data scopes term).bind fun _ =>
      (namedArguments_persists data scopes options).bind fun _ => refl _
end

end Term

/-! ## Output and blocks -/

/-- A value that is put out. -/
theorem outputValue_persists (data : Json) (a : Argument) :
    Persists (outputValue (strictly data) a) (outputValue (leniently data) a) := by
  rw [outputValue, outputValue]
  cases a.value with
  | some value => exact refl _
  | none => exact of_error _ _

theorem outputAnswer_persists (answer : Helper.Answer) :
    Persists (outputAnswer (strictly data) answer) (outputAnswer (leniently data) answer) := by
  cases answer with
  | text s => exact refl _
  | value v => exact outputValue_persists data _

/-- **What a tag puts out.** A name alone may be a helper without arguments, or a value. -/
theorem outputNamed_persists (name : String) (term : Term) :
    Persists (outputNamed (strictly data) scopes name term)
      (outputNamed (leniently data) scopes name term) := by
  unfold outputNamed
  cases Helper.ofName? name with
  | some helper => exact (answer_persists helper [] []).bind outputAnswer_persists
  | none => exact (Term.argument_persists data scopes term).bind (outputValue_persists data)

theorem outputCall_persists (head : Term) (terms : List Term) (options : List (String × Term)) :
    Persists (outputCall (strictly data) scopes head terms options)
      (outputCall (leniently data) scopes head terms options) := by
  unfold outputCall
  refine (Term.headName_persists data scopes head).bind fun name =>
    (Term.arguments_persists data scopes terms).bind
    fun arguments => (Term.namedArguments_persists data scopes options).bind fun options => ?_
  cases Helper.ofName? name with
  | none => exact refl _
  | some helper => exact (answer_persists helper arguments options).bind outputAnswer_persists

theorem output_persists (term : Term) :
    Persists (output (strictly data) scopes term) (output (leniently data) scopes term) := by
  unfold output
  split
  · exact outputNamed_persists _ _
  · exact (Term.headName_persists data scopes _).bind fun name => outputNamed_persists name _
  · exact outputCall_persists _ _ _
  · exact (Term.argument_persists data scopes _).bind (outputValue_persists data)

/-- The helper of a block and its arguments. -/
theorem blockCall_persists (call : Term) :
    Persists (blockCall (strictly data) scopes call) (blockCall (leniently data) scopes call) := by
  match call with
  | .call head terms options =>
    refine (Term.headName_persists data scopes head).bind fun name =>
      (Term.arguments_persists data scopes terms).bind
      fun arguments => (Term.namedArguments_persists data scopes options).bind fun options => ?_
    cases Helper.ofName? name with
    | none => exact refl _
    | some helper => exact refl _
  | .word _ | .path _ | .literal _ => exact refl _

/-- **What a block does.** In strict mode a loop or a scope over nothing fails, where it has no
alternative. -/
theorem plan_persists (call : Term) (names : List String) (hasOtherwise : Bool) :
    Persists (plan (strictly data) scopes call names hasOtherwise)
      (plan (leniently data) scopes call names hasOtherwise) := by
  refine (blockCall_persists call).bind fun (helper, arguments, options) => ?_
  match helper with
  | .condition positive => exact refl _
  | .each =>
    refine (refl _).bind fun a => ?_
    dsimp only
    split
    · exact refl _
    · exact Persists.guarded _
  | .scoped =>
    refine (refl _).bind fun a => ?_
    dsimp only
    split
    · exact refl _
    · exact Persists.guarded _
  | .verbatim => exact refl _
  | .lookup | .log | .equal _ | .compare _ | .all | .any | .not | .length | .fallback =>
    exact (answer_persists _ arguments options).bind fun answer =>
      (outputAnswer_persists answer).bind fun _ => refl _

theorem fragmentName_persists (name : Term) :
    Persists (fragmentName (strictly data) scopes name)
      (fragmentName (leniently data) scopes name) := by
  have hcall (head : Term) (terms : List Term) (options : List (String × Term)) : Persists
      (do
        let name ← Term.headName (strictly data) scopes head
        let _ ← Term.arguments (strictly data) scopes terms
        let _ ← Term.namedArguments (strictly data) scopes options
        return name)
      (do
        let name ← Term.headName (leniently data) scopes head
        let _ ← Term.arguments (leniently data) scopes terms
        let _ ← Term.namedArguments (leniently data) scopes options
        return name) :=
    (Term.headName_persists data scopes head).bind fun _ =>
      (Term.arguments_persists data scopes terms).bind fun _ =>
      (Term.namedArguments_persists data scopes options).bind fun _ => refl _
  match name with
  | .call head terms options =>
    unfold fragmentName
    dsimp only
    split <;> exact hcall _ terms options
  | .word _ | .path _ | .literal _ => exact refl _

/-! ## Elements -/

/-- The rounds of a loop. -/
theorem concatAll_persists {part part' : List Scope → Except RenderError String}
    (h : ∀ scopes, Persists (part scopes) (part' scopes)) (rounds : List (List Scope)) :
    Persists (concatAll part rounds) (concatAll part' rounds) := by
  induction rounds with
  | nil => exact refl _
  | cons scopes rounds ih => exact (h scopes).bind fun _ => ih.bind fun _ => refl _

-- an element holds lists of elements: the recursion is the one of rendering
mutual
/-- The text of an element. -/
theorem render_persists (data : Json) : ∀ (element : Element) (scopes : List Scope),
    Persists (element.render (strictly data) scopes) (element.render (leniently data) scopes)
  | .text s, scopes => by
    rw [Element.render, Element.render]
    exact refl _
  | .output position term, scopes => by
    rw [Element.render, Element.render]
    exact (output_persists term).mapError _ _
  | .block position call names body none, scopes => by
    rw [Element.render, Element.render]
    refine ((plan_persists call names _).mapError _ _).bind fun plan => ?_
    cases plan with
    | text s => exact refl _
    | body rounds =>
      exact (concatAll_persists (fun scopes => renderAll_persists data body scopes) rounds).mapError
        _ _
    | otherwise => exact refl _
  | .block position call names body (some elements), scopes => by
    rw [Element.render, Element.render]
    refine ((plan_persists call names _).mapError _ _).bind fun plan => ?_
    cases plan with
    | text s => exact refl _
    | body rounds =>
      exact (concatAll_persists (fun scopes => renderAll_persists data body scopes) rounds).mapError
        _ _
    | otherwise => exact (renderAll_persists data elements scopes).mapError _ _
  | .fragment position name none, scopes => by
    rw [Element.render, Element.render]
    exact ((fragmentName_persists name).mapError _ _).bind fun _ => refl _
  | .fragment position name (some elements), scopes => by
    rw [Element.render, Element.render]
    exact ((fragmentName_persists name).mapError _ _).bind fun _ =>
      (renderAll_persists data elements scopes).mapError _ _
  | .decorator position name, scopes => by
    rw [Element.render, Element.render]
    exact refl _

/-- **The text of elements.** -/
theorem renderAll_persists (data : Json) : ∀ (elements : List Element) (scopes : List Scope),
    Persists (renderAll (strictly data) scopes elements)
      (renderAll (leniently data) scopes elements)
  | [], scopes => by
    rw [renderAll, renderAll]
    exact refl _
  | element :: elements, scopes => by
    rw [renderAll, renderAll]
    exact (render_persists data element scopes).bind fun _ =>
      (renderAll_persists data elements scopes).bind fun _ => refl _
end

theorem blockRender_persists (text : String) (data : Json) :
    Persists (render true text data) (render false text data) := by
  rw [render, render]
  cases Template.ofText? text.toList with
  | none => exact refl _
  | some template => exact (renderAll_persists data template _).mapError _ _

end Block

namespace Template

/-- **Strict mode only turns results into errors.** What is rendered in strict mode is rendered to
the same text without it, and an error that is not one of rendering is the same in both. -/
theorem strict_only_fails (text : String) (vars : Variables) :
    (∀ s, evaluate true text vars = .ok s → evaluate false text vars = .ok s) ∧
      ∀ e, evaluate false text vars = .error e → (∀ b, e ≠ .rendering b) →
        evaluate true text vars = .error e := by
  rw [evaluate, evaluate]
  split
  · cases convert text with
    | error e => exact ⟨fun s h => (nomatch h), fun e h _ => h⟩
    | ok converted =>
      refine ⟨(Block.blockRender_persists converted (.object vars)).mapError _ _,
        fun e h hnot => ?_⟩
      -- once a text is converted only rendering can fail
      cases hrender : Block.render false converted (.object vars) with
      | ok s =>
        have hok : (Except.ok s : Except TemplateError String) = .error e := by
          rw [← h]
          exact (congrArg (Except.mapError TemplateError.rendering) hrender).symm
        cases hok
      | error b =>
        have herror : (Except.error (.rendering b) : Except TemplateError String) = .error e := by
          rw [← h]
          exact (congrArg (Except.mapError TemplateError.rendering) hrender).symm
        exact absurd (Except.error.inj herror).symm (hnot b)
  · exact ⟨fun s h => h, fun e h _ => nomatch h⟩

/-- A name that is put out in both modes, and a statement that is closed before it is opened. -/
theorem name_in_both_modes :
    evaluate true "Hi \x7b\x7b who \x7d\x7d" [("who", .string "Ada")] = .ok "Hi Ada" ∧
    evaluate false "Hi \x7b\x7b who \x7d\x7d" [("who", .string "Ada")] = .ok "Hi Ada" ∧
    evaluate false "\x7b% endif %\x7d" [] = .error (.unbalanced .unmatchedEndif) ∧
    evaluate true "\x7b% endif %\x7d" [] = .error (.unbalanced .unmatchedEndif) := by
  have hstrict : evaluate true "Hi \x7b\x7b who \x7d\x7d" [("who", .string "Ada")] =
      .ok "Hi Ada" := by decide +kernel
  have hclosed : evaluate false "\x7b% endif %\x7d" [] = .error (.unbalanced .unmatchedEndif) := by
    decide +kernel
  exact ⟨hstrict, (strict_only_fails _ _).1 _ hstrict, hclosed,
    (strict_only_fails _ _).2 _ hclosed fun b h => nomatch h⟩

/-- A name that is missing is an error in strict mode only. -/
example : (evaluate true "Hi \x7b\x7b who \x7d\x7d" []).toOption = none ∧
    evaluate false "Hi \x7b\x7b who \x7d\x7d" [] = .ok "Hi " := by decide +kernel

end Template

end Runlist
