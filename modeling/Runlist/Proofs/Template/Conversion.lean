import Runlist.Proofs.Template.Turned
import Runlist.Proofs.Template.Turning

/-!
# Parameters are converted

The rules take the marks of a parameter in turn. Each rule is known to take the marks of its turn
and to pass over all others, whether they are still written as in the parameter or already as tags,
so that together they write every mark as a tag.

* `InTurn`: what a rule takes, and what it passes over.
* `Writable`: text without braces, and marks that are converted to what they mean.
* `applyRules_conditions`, `Writable.loops`, `Writable.comparisons`: **each mark is written as a
  tag, and the text between the marks stays.**
* `Writable.items`: the variables that are found are those of the parameter's loops.
-/

namespace Runlist.Template

open Text (isBlank)

variable {rule : Rule} {symbols : List Symbol} {names : List (List Char)} {s : List Char}

/-! ## References -/

/-- What is put out, with one blank at either end. -/
theorem output_source (out : Output) (s : List Char) :
    Mark.source (.output out) ++ s =
      openBraces ++ ' ' :: (out.text ++ ' ' :: (closeBraces ++ s)) := by
  simp only [Mark.source, List.append_assoc, List.cons_append]

theorem item_source (name : Ident) (fields : List Ident) (s : List Char) :
    Mark.source (.item name fields) ++ s =
      openBraces ++ ' ' :: ((Dotted.mk name fields).text ++ ' ' :: (closeBraces ++ s)) := by
  simp only [Mark.source, List.append_assoc, List.cons_append]

theorem target_append (m : Mark) (s : List Char) :
    m.target ++ s = openBraces ++ (m.tagText ++ (closeBraces ++ s)) := by
  rw [Mark.target, reference, List.append_assoc, List.append_assoc]

/-- A value that is put out stays as it is written. -/
theorem value_target (path : Dotted) :
    Mark.target (.output (.value path)) = Mark.source (.output (.value path)) :=
  (braces_source path.text).symm

/-- What is put out starts with its path, and a blank stands behind it. -/
theorem exists_after_path (out : Output) (s : List Char) :
    ∃ t, out.text ++ ' ' :: s = out.path.text ++ ' ' :: t := by
  cases out with
  | value path => exact ⟨s, rfl⟩
  | fallback path double literal =>
    refine ⟨"| default(".toList ++ quoted double literal ++ [')'] ++ ' ' :: s, ?_⟩
    have hword : " | default(".toList = ' ' :: "| default(".toList := rfl
    simp only [Output.text, Output.path, hword, List.append_assoc, List.cons_append,
      List.nil_append]
  | compares path equal double literal =>
    refine ⟨(if equal then "== " else "!= ").toList ++ quoted double literal ++ ' ' :: s, ?_⟩
    have hop : (if equal then " == " else " != ").toList =
        ' ' :: (if equal then "== " else "!= ").toList := by
      cases equal <;> rfl
    simp only [Output.text, Output.path, comparison, hop, List.append_assoc, List.cons_append]

/-! ## Fallbacks -/

/-- A path is read behind double braces, and a blank behind it. -/
theorem fallbackStart?_dotted (path : Dotted) {u t : List Char}
    (hu : Text.trimLeft u = path.text ++ ' ' :: t) :
    fallbackStart? (openBraces ++ u) =
      ((afterBlanks? ['|'] (' ' :: t)).bind (afterBlanks? "default(".toList)).map fun s =>
        (path.text, Text.trimLeft s) := by
  rw [fallbackStart?, Text.afterPrefix?_append, Option.bind_eq_bind, Option.bind_some, hu,
    path?_dotted path rfl, Option.bind_eq_bind, Option.bind_some]
  dsimp only
  cases afterBlanks? ['|'] (' ' :: t) with
  | none => rfl
  | some v =>
    simp only [Option.bind_some]
    cases afterBlanks? "default(".toList v <;> rfl

theorem trimLeft_blank_dotted (path : Dotted) (t : List Char) :
    Text.trimLeft (' ' :: (path.text ++ t)) = path.text ++ t :=
  trimLeft_dotted path t

/-- **No fallback is read** in a mark that has none. -/
theorem fallbackStart?_source {m : Mark} (hm : 1 < m.turn) (s : List Char) :
    fallbackStart? (m.source ++ s) = none := by
  cases m with
  | output out =>
    rw [output_source]
    cases out with
    | value path =>
      rw [Output.text, fallbackStart?_dotted path (trimLeft_blank_dotted path _)]
      rfl
    | fallback path double literal => exact absurd hm (Nat.lt_irrefl 1)
    | compares path equal double literal =>
      have hop : (if equal then " == " else " != ").toList =
          ' ' :: (if equal then "== " else "!= ").toList := by
        cases equal <;> rfl
      simp only [Output.text, comparison, hop, List.append_assoc, List.cons_append]
      rw [fallbackStart?_dotted path (trimLeft_blank_dotted path _)]
      cases equal <;> rfl
  | item name fields =>
    rw [item_source, fallbackStart?_dotted _ (trimLeft_blank_dotted _ _)]
    rfl
  | _ => rfl

theorem quotedFallback_pass {m : Mark} (hm : 1 < m.turn) (s : List Char) :
    quotedFallback (m.source ++ s) = none := by
  rw [quotedFallback, fallbackStart?_source hm]
  rfl

theorem plainFallback_pass {m : Mark} (hm : 2 < m.turn) (s : List Char) :
    plainFallback (m.source ++ s) = none := by
  rw [plainFallback, fallbackStart?_source (Nat.lt_of_succ_lt hm)]
  rfl

/-- **A fallback between quotes is written as a call** of the helper for fallbacks. -/
theorem quotedFallback_source (path : Dotted) {double : Bool} {literal : List Char}
    (hliteral : isLiteral double literal) (s : List Char) :
    quotedFallback ((Mark.output (.fallback path double literal)).source ++ s) =
    some ((Mark.output (.fallback path double literal)).target, s) := by
  have hsource : (Mark.output (.fallback path double literal)).source ++ s =
      openBraces ++ ' ' :: (path.text ++ ' ' :: ('|' :: ' ' :: ("default(".toList ++
        quote double :: (literal ++ quote double :: (')' :: ' ' :: (closeBraces ++ s)))))) := by
    have hword : " | default(".toList = ' ' :: '|' :: ' ' :: "default(".toList := rfl
    rw [output_source]
    simp only [Output.text, quoted, hword, List.append_assoc, List.cons_append, List.nil_append]
  have hquote (x : List Char) : Text.trimLeft (quote double :: x) = quote double :: x := by
    cases double <;> rfl
  have hstart (x : List Char) :
      (afterBlanks? ['|'] (' ' :: '|' :: ' ' :: ("default(".toList ++ x))).bind
      (afterBlanks? "default(".toList) = some x := rfl
  have hend : fallbackEnd? (')' :: ' ' :: (closeBraces ++ s)) = some s := rfl
  have htarget : fallbackCall path.text (singleQuoted literal) =
      (Mark.output (.fallback path double literal)).target := by
    rw [fallbackCall_eq, Mark.target, reference, ← List.append_assoc (callStart _ _)]
    rfl
  rw [hsource, quotedFallback, fallbackStart?_dotted path (trimLeft_blank_dotted path _), hstart,
    Option.map_some, Option.bind_eq_bind, Option.bind_some]
  dsimp only
  rw [hquote, quotedText?_append (quote_cases double) (quote_not_mem hliteral), Option.bind_eq_bind,
    Option.bind_some]
  dsimp only
  rw [hend, ← htarget]
  rfl

/-- **The call of a helper is no fallback.** -/
theorem plainFallback_call (name : Ident) (t : List Char) (ht : ∃ c u, t = c :: u ∧ isNameChar c) :
    plainFallback (openBraces ++ (name.text ++ ' ' :: t)) = none := by
  obtain ⟨c, u, rfl, hc⟩ := ht
  have hbar : '|' ≠ c := by rintro rfl; exact absurd hc (by decide)
  have hblank (x : List Char) : afterBlanks? ['|'] (' ' :: c :: x) = none := by
    have htrim : Text.trimLeft (' ' :: c :: x) = Text.trimLeft (c :: x) := rfl
    rw [afterBlanks?, htrim, trimLeft_nameChar hc]
    exact if_neg hbar
  have hname : Text.trimLeft (name.text ++ ' ' :: c :: u) =
      (Dotted.mk name []).text ++ ' ' :: c :: u := by
    have htext : (Dotted.mk name []).text = name.text := List.append_nil _
    rw [trimLeft_ident, htext]
  rw [plainFallback, fallbackStart?_dotted ⟨name, []⟩ hname, hblank]
  rfl

/-! ## Variables -/

/-- **A path that starts with another name holds no variable.** -/
theorem no_variable {name : Ident} (path : Dotted) (hne : path.first.text ≠ name.text) {c : Char}
    (hc : isNameChar c = false) (s : List Char) :
    (Text.afterPrefix? name.text (path.text ++ c :: s)).bind (Text.afterPrefix? ['.']) = none ∧
      (Text.afterPrefix? name.text (path.text ++ c :: s)).bind (afterBlanks? closeBraces) =
        none := by
  cases h : Text.afterPrefix? name.text (path.text ++ c :: s) with
  | none => exact ⟨rfl, rfl⟩
  | some r =>
    obtain ⟨e, r', rfl, he⟩ := Dotted.longer name.isNameChar hne hc h
    have hdot : '.' ≠ e := by rintro rfl; exact absurd he (by decide)
    have hbrace : '\x7d' ≠ e := by rintro rfl; exact absurd he (by decide)
    refine ⟨if_neg hdot, ?_⟩
    rw [Option.bind_some, afterBlanks?, trimLeft_nameChar he]
    exact if_neg hbrace

theorem loopProperty_eq (name s : List Char) : loopProperty name s =
    ((afterVariable? name s).bind (Text.afterPrefix? ['.'])).bind fun s =>
      (path? s).bind fun (path, s) =>
      (afterBlanks? closeBraces s).bind fun rest => some (reference path, rest) := by
  rw [loopProperty]
  cases afterVariable? name s <;> rfl

theorem loopItem_eq (name s : List Char) : loopItem name s =
    ((afterVariable? name s).bind (afterBlanks? closeBraces)).bind fun rest =>
      some (reference "this".toList, rest) := by
  rw [loopItem]
  cases afterVariable? name s <;> rfl

theorem afterVariable?_blank (name : List Char) (s : List Char) :
    afterVariable? name (openBraces ++ ' ' :: s) = Text.afterPrefix? name (Text.trimLeft s) := rfl

/-- Behind another path, and a blank, the rules for a variable take nothing. -/
theorem loop_rules_pass {name : Ident} {path : Dotted} (hne : path.first.text ≠ name.text)
    (t : List Char) :
    loopProperty name.text (openBraces ++ ' ' :: (path.text ++ ' ' :: t)) = none ∧
      loopItem name.text (openBraces ++ ' ' :: (path.text ++ ' ' :: t)) = none := by
  obtain ⟨hproperty, hitem⟩ := no_variable path hne (c := ' ') rfl t
  rw [loopProperty_eq, loopItem_eq, afterVariable?_blank, trimLeft_dotted, hproperty, hitem]
  exact ⟨rfl, rfl⟩

/-- **The rule for properties** of a variable takes what stands behind a dot. -/
theorem loopProperty_source (name field : Ident) (fields : List Ident) (s : List Char) :
    loopProperty name.text (Mark.source (.item name (field :: fields)) ++ s) =
      some (Mark.target (.item name (field :: fields)), s) := by
  have htext :
      (Dotted.mk name (field :: fields)).text = name.text ++ '.' :: (Dotted.mk field fields).text :=
    rfl
  rw [item_source, loopProperty_eq, afterVariable?_blank, trimLeft_dotted, htext, List.append_assoc,
    Text.afterPrefix?_append, Option.bind_some, List.cons_append]
  have hdot (x : List Char) : Text.afterPrefix? ['.'] ('.' :: x) = some x := rfl
  rw [hdot, Option.bind_some, path?_dotted (Dotted.mk field fields) rfl]
  rfl

theorem loopProperty_alone (name : Ident) (s : List Char) :
    loopProperty name.text (Mark.source (.item name []) ++ s) = none := by
  have htext : (Dotted.mk name []).text = name.text := List.append_nil _
  rw [item_source, loopProperty_eq, afterVariable?_blank, trimLeft_dotted, htext,
    Text.afterPrefix?_append]
  rfl

/-- **The rule for items** takes a variable by itself. -/
theorem loopItem_source (name : Ident) (s : List Char) :
    loopItem name.text (Mark.source (.item name []) ++ s) =
      some (Mark.target (.item name []), s) := by
  have htext : (Dotted.mk name []).text = name.text := List.append_nil _
  rw [item_source, loopItem_eq, afterVariable?_blank, trimLeft_dotted, htext,
    Text.afterPrefix?_append]
  rfl

/-! ## Tags that stand already -/

/-- The mark is written between double braces. -/
def Mark.isReference : Mark → Bool
  | .output _ => true
  | .item .. => true
  | _ => false

/-- A statement has become a tag of its clause. -/
theorem exists_tagStart {m : Mark} (hm : m.isReference = false) (s : List Char) :
    ∃ (clause : Clause) (y : List Char), m.target ++ s = openBraces ++ (clause.tagStart ++ y) := by
  rw [target_append]
  cases m with
  | branch condition =>
    cases condition with
    | holds path => exact ⟨.branch, path.text ++ (closeBraces ++ s), rfl⟩
    | compares path equal double literal => exact ⟨.branch, '(' :: _, rfl⟩
  | elif condition => exact ⟨.elif, condition.text ++ (closeBraces ++ s), rfl⟩
  | otherwise => exact ⟨.otherwise, s, rfl⟩
  | endBranch => exact ⟨.endBranch, s, rfl⟩
  | loop name list => exact ⟨.loop, list.text ++ (closeBraces ++ s), rfl⟩
  | endLoop => exact ⟨.endLoop, s, rfl⟩
  | item name fields => cases hm
  | output out => cases hm

/-- A rule for references passes over what statements have become. -/
theorem Spares.target (hspares : Spares rule) {m : Mark} (hm : m.isReference = false)
    (s : List Char) :
    rule (m.target ++ s) = none := by
  obtain ⟨clause, y, hy⟩ := exists_tagStart hm s
  rw [hy]
  exact hspares clause y

/-- The call of a helper, as a tag. -/
theorem call_target (name : String) (path : Dotted) (literal s : List Char) :
    reference (callStart name path.text ++ singleQuoted literal) ++ s =
      openBraces ++ (name.toList ++
        ' ' :: (path.text ++ ' ' :: (singleQuoted literal ++ (closeBraces ++ s)))) := by
  simp only [reference, callStart, List.append_assoc, List.cons_append, List.nil_append]

/-- The word that calls the helper for fallbacks. -/
def fallbackWord : Ident := ⟨"default".toList, by decide⟩

/-- **The call of the helper for fallbacks holds no variable**, even of the helper's name. -/
theorem loop_rules_fallback (name : Ident) (path : Dotted) (double : Bool) (literal s : List Char) :
    loopProperty name.text ((Mark.output (.fallback path double literal)).target ++ s) = none ∧
      loopItem name.text ((Mark.output (.fallback path double literal)).target ++ s) = none := by
  have htarget : (Mark.output (.fallback path double literal)).target ++ s =
      openBraces ++ (fallbackWord.text ++
      ' ' :: (path.text ++ ' ' :: (singleQuoted literal ++ (closeBraces ++ s)))) :=
    call_target "default" path literal s
  have hword : (Dotted.mk fallbackWord []).text = fallbackWord.text := List.append_nil _
  have hvariable (x : List Char) :
      afterVariable? name.text (openBraces ++ (fallbackWord.text ++ x)) =
      Text.afterPrefix? name.text (fallbackWord.text ++ x) := by
    rw [afterVariable?, Text.afterPrefix?_append, Option.bind_eq_bind, Option.bind_some,
      afterBlanks?, trimLeft_ident]
  rw [htarget, loopProperty_eq, loopItem_eq, hvariable]
  -- a variable may have the name of the helper; behind that name stands neither a dot nor the end
  -- of the tag
  by_cases hname : name.text = fallbackWord.text
  · obtain ⟨c, u, htext, hc, -⟩ := path.exists_cons
    have hbrace : '\x7d' ≠ c := by rintro rfl; exact absurd hc (by decide)
    have hblank (x : List Char) : afterBlanks? closeBraces (' ' :: (path.text ++ x)) = none := by
      rw [afterBlanks?, trimLeft_blank_dotted, htext]
      exact if_neg hbrace
    have hdot (x : List Char) : Text.afterPrefix? ['.'] (' ' :: x) = none := rfl
    rw [hname, Text.afterPrefix?_append, Option.bind_some, Option.bind_some, hblank, hdot]
    exact ⟨rfl, rfl⟩
  · obtain ⟨hproperty, hitem⟩ := no_variable ⟨fallbackWord, []⟩ (Ne.symm hname) (c := ' ') rfl
      (path.text ++ ' ' :: (singleQuoted literal ++ (closeBraces ++ s)))
    rw [hword] at hproperty hitem
    rw [hproperty, hitem]
    exact ⟨rfl, rfl⟩

/-- A rule for statements passes over every tag. -/
theorem afterKeyword?_target (keyword : String) (m : Mark) (s : List Char) :
    afterKeyword? keyword (m.target ++ s) = none := rfl

theorem afterVariable?_tag (name : List Char) (path : Dotted) (s : List Char) :
    afterVariable? name (reference path.text ++ s) =
      Text.afterPrefix? name (path.text ++ (closeBraces ++ s)) := by
  have hbraces : reference path.text ++ s = openBraces ++ (path.text ++ (closeBraces ++ s)) := by
    rw [reference, List.append_assoc, List.append_assoc]
  rw [hbraces, afterVariable?, Text.afterPrefix?_append, Option.bind_eq_bind,
    Option.bind_some, afterBlanks?, trimLeft_dotted]

/-- The rules for a variable pass over a tag of another path. -/
theorem loop_rules_pass_tag {name : Ident} {path : Dotted} (hne : path.first.text ≠ name.text)
    (s : List Char) :
    loopProperty name.text (reference path.text ++ s) = none ∧
    loopItem name.text (reference path.text ++ s) = none := by
  obtain ⟨hproperty, hitem⟩ := no_variable path hne (c := '\x7d') rfl ('\x7d' :: s)
  have hclose : '\x7d' :: '\x7d' :: s = closeBraces ++ s := rfl
  rw [hclose] at hproperty hitem
  rw [loopProperty_eq, loopItem_eq, afterVariable?_tag, hproperty, hitem]
  exact ⟨rfl, rfl⟩

/-- **A tag that a variable has become** is passed over, or it stays the same. -/
theorem loop_rules_item {name v : Ident} {fields : List Ident}
    (hfields : ¬ (fields.head?.any fun field => field.text == name.text)) (s : List Char) :
    loopProperty name.text (Mark.target (.item v fields) ++ s) = none ∧
      (loopItem name.text (Mark.target (.item v fields) ++ s) = none ∨
        loopItem name.text (Mark.target (.item v fields) ++ s) =
          some (Mark.target (.item v fields), s)) := by
  cases fields with
  | nil =>
    have htarget : Mark.target (.item v []) = reference (Dotted.mk itself []).text := rfl
    by_cases hname : itself.text = name.text
    · have hthis : (Dotted.mk itself []).text = name.text := hname
      rw [loopProperty_eq, loopItem_eq, htarget, afterVariable?_tag, hthis,
        Text.afterPrefix?_append, ← hname]
      exact ⟨rfl, .inr rfl⟩
    · obtain ⟨hproperty, hitem⟩ :=
        loop_rules_pass_tag (show (Dotted.mk itself []).first.text ≠ name.text from hname) s
      exact ⟨hproperty, .inl hitem⟩
  | cons field fields =>
    have hne : field.text ≠ name.text :=
      fun h => hfields (by rw [List.head?_cons, Option.any_some, h, beq_self_eq_true])
    obtain ⟨hproperty, hitem⟩ :=
      loop_rules_pass_tag (show (Dotted.mk field fields).first.text ≠ name.text from hne) s
    exact ⟨hproperty, .inl hitem⟩

/-- No comparison is read where neither operator stands behind the path. -/
theorem comparedOutput_pass (path : Dotted) {u t : List Char} {c : Char}
    (hu : Text.trimLeft u = path.text ++ c :: t) (hc : isPathChar c = false)
    (hequal : Text.afterPrefix? "==".toList (Text.trimLeft (c :: t)) = none)
    (hnot : Text.afterPrefix? "!=".toList (Text.trimLeft (c :: t)) = none) :
    comparedOutput (openBraces ++ u) = none := by
  have hnone : comparison? (path.text ++ c :: t) = none := by
    rw [comparison?, path?_dotted path hc]
    simp only [Option.bind_eq_bind, Option.bind_some, hequal, hnot]
    rfl
  rw [comparedOutput, Text.afterPrefix?_append, Option.bind_eq_bind, Option.bind_some, hu, hnone]
  rfl

/-- **A comparison that is put out is written as a call** of the helper of its operator. -/
theorem comparedOutput_source (path : Dotted) (equal : Bool) {double : Bool} {literal : List Char}
    (hliteral : isLiteral double literal) (s : List Char) :
    comparedOutput ((Mark.output (.compares path equal double literal)).source ++ s) =
      some ((Mark.output (.compares path equal double literal)).target, s) := by
  have htrim :
      Text.trimLeft (' ' :: (comparison path equal double literal ++ ' ' :: (closeBraces ++ s))) =
      comparison path equal double literal ++ ' ' :: (closeBraces ++ s) := by
    simp only [comparison, List.append_assoc]
    exact trimLeft_blank_dotted path _
  have hclose : afterBlanks? closeBraces (' ' :: (closeBraces ++ s)) = some s := rfl
  rw [output_source, Output.text, comparedOutput, Text.afterPrefix?_append, Option.bind_eq_bind,
    Option.bind_some, htrim, comparison?_comparison path equal hliteral, Option.bind_eq_bind,
    Option.bind_some]
  dsimp only
  rw [hclose]
  rfl

/-! ## The rules, one after the other -/

/-- Text without braces, and marks that are converted to what they mean. -/
structure Writable (names : List Ident) (symbols : List Symbol) : Prop where
  text : ∀ c, .char c ∈ symbols → c ≠ '\x7b' ∧ c ≠ '\x7d'
  marks : ∀ m, .mark m ∈ symbols → m.isClean (names.map Ident.text)

/-- The marks that the first rules have taken. -/
def Mark.before (turn : Nat) (mark : Mark) : Bool := decide (mark.turn < turn)

theorem Mark.one_le_turn (m : Mark) : 1 ≤ m.turn := by
  cases m with
  | branch condition => cases condition <;> exact Nat.le_add_left 1 _
  | output out => cases out <;> exact Nat.le_add_left 1 _
  | _ => exact Nat.le_add_left 1 _

/-- A mark is a statement, an item or something that is put out. -/
theorem mark_cases (m : Mark) :
    m.isReference = false ∨ (∃ v fields, m = .item v fields) ∨ ∃ out, m = .output out := by
  cases m with
  | item v fields => exact .inr (.inl ⟨v, fields, rfl⟩)
  | output out => exact .inr (.inr ⟨out, rfl⟩)
  | _ => exact .inl rfl

/-- **A rule in its turn** takes the marks of its turn, and no others. -/
structure InTurn (turn : Nat) (rule : Rule) : Prop where
  braced : Braced rule
  take : ∀ {names : List (List Char)} {m : Mark}, m.isClean names → m.turn = turn →
    ∀ s, rule (m.source ++ s) = some (m.target, s)
  pass : ∀ {m : Mark}, turn < m.turn → ∀ s, rule (m.source ++ s) = none
  done : ∀ {m : Mark}, m.turn < turn → ∀ s, rule (m.target ++ s) = none

/-- A rule for statements of a keyword takes nothing else. -/
def Awaits (keyword : String) (rule : Rule) : Prop :=
  ∀ s, afterKeyword? keyword s = none → rule s = none

theorem Awaits.braced {keyword : String} (h : Awaits keyword rule) : Braced rule := by
  intro s hsome
  cases hkeyword : afterKeyword? keyword s with
  | none => rw [h s hkeyword] at hsome; cases hsome
  | some rest =>
    obtain ⟨u, rfl⟩ := afterKeyword?_eq_some hkeyword
    exact .inr (List.prefix_append opening _)

theorem awaits_bare (keyword tag : String) : Awaits keyword (bare keyword tag) := fun s h => by
  rw [bare, h]
  rfl

theorem awaits_conditional (keyword tag : String) :
    Awaits keyword (conditional keyword tag) := fun s h => by
  rw [conditional, h]
  rfl

theorem awaits_comparedIf : Awaits "if" comparedIf := fun s h => by
  rw [comparedIf, h]
  rfl

theorem awaits_loopStart : Awaits "for" loopStart := fun s h => by
  rw [loopStart, loop?, h]
  rfl

/-- A rule for statements passes over all tags. -/
theorem Awaits.inTurn {keyword : String} (h : Awaits keyword rule) {turn : Nat}
    (take : ∀ {names : List (List Char)} {m : Mark}, m.isClean names → m.turn = turn →
      ∀ s, rule (m.source ++ s) = some (m.target, s))
    (pass : ∀ {m : Mark}, turn < m.turn → ∀ s, rule (m.source ++ s) = none) : InTurn turn rule where
  braced := h.braced
  take := take
  pass := pass
  done {m} _ s := h _ (afterKeyword?_target keyword m s)

theorem inTurn_quotedFallback : InTurn 1 quotedFallback where
  braced := rewrites_quotedFallback.braced
  take {_ m} hm hturn s := by
    cases m with
    | output out =>
      cases out with
      | fallback path double literal => exact quotedFallback_source path (isLiteral_of_isClean hm) s
      | _ => cases hturn
    | branch condition => cases condition <;> cases hturn
    | _ => cases hturn
  pass := quotedFallback_pass
  done {m} hm _ := absurd m.one_le_turn (Nat.not_le.2 hm)

theorem inTurn_plainFallback : InTurn 2 plainFallback where
  braced := rewrites_plainFallback.braced
  take {_ m} _ hturn _ := by
    cases m with
    | output out => cases out <;> cases hturn
    | branch condition => cases condition <;> cases hturn
    | _ => cases hturn
  pass := plainFallback_pass
  done {m} hm s := by
    have hturn : m.turn = 1 := Nat.le_antisymm (Nat.le_of_lt_succ hm) m.one_le_turn
    cases m with
    | output out =>
      cases out with
      | fallback path double literal =>
        have htarget : (Mark.output (.fallback path double literal)).target ++ s =
            openBraces ++ (fallbackWord.text ++
            ' ' :: (path.text ++ ' ' :: (singleQuoted literal ++ (closeBraces ++ s)))) :=
          call_target "default" path literal s
        obtain ⟨c, u, htext, hc, -⟩ := path.exists_cons
        rw [htarget, htext]
        exact plainFallback_call fallbackWord _ ⟨c, _, rfl, hc⟩
      | _ => cases hturn
    | branch condition => cases condition <;> cases hturn
    | _ => cases hturn

theorem inTurn_comparedIf : InTurn 3 comparedIf := by
  refine awaits_comparedIf.inTurn (fun {_ m} hm hturn s => ?_) comparedIf_pass
  cases m with
  | branch condition =>
    cases condition with
    | compares path equal double literal => exact comparedIf_source path equal hm s
    | holds path => cases hturn
  | output out => cases out <;> cases hturn
  | _ => cases hturn

theorem inTurn_if : InTurn 4 (conditional "if" "#if ") := by
  refine (awaits_conditional "if" "#if ").inTurn (fun {_ m} _ hturn s => ?_) conditional_if_pass
  cases m with
  | branch condition =>
    cases condition with
    | holds path => exact conditional_if_source path s
    | compares path equal double literal => cases hturn
  | output out => cases out <;> cases hturn
  | _ => cases hturn

theorem inTurn_elif : InTurn 5 (conditional "elif" "else if ") := by
  refine (awaits_conditional "elif" "else if ").inTurn (fun {_ m} hm hturn s => ?_)
    conditional_elif_pass
  cases m with
  | elif condition =>
    cases condition with
    | holds path => exact conditional_elif_source path s
    | compares path equal double literal => cases hm
  | output out => cases out <;> cases hturn
  | branch condition => cases condition <;> cases hturn
  | _ => cases hturn

theorem inTurn_else : InTurn 6 (bare "else" "else") := by
  refine (awaits_bare "else" "else").inTurn (fun {_ m} _ hturn s => ?_) bare_else_pass
  cases m with
  | otherwise => rfl
  | output out => cases out <;> cases hturn
  | branch condition => cases condition <;> cases hturn
  | _ => cases hturn

theorem inTurn_endif : InTurn 7 (bare "endif" "/if") := by
  refine (awaits_bare "endif" "/if").inTurn (fun {_ m} _ hturn s => ?_) bare_endif_pass
  cases m with
  | endBranch => rfl
  | output out => cases out <;> cases hturn
  | branch condition => cases condition <;> cases hturn
  | _ => cases hturn

theorem inTurn_for : InTurn 8 loopStart := by
  refine awaits_loopStart.inTurn (fun {_ m} _ hturn s => ?_) fun hm s => ?_
  · cases m with
    | loop name list =>
      rw [loopStart, loop?_source]
      rfl
    | output out => cases out <;> cases hturn
    | branch condition => cases condition <;> cases hturn
    | _ => cases hturn
  · rw [loopStart, loop?_pass hm]
    rfl

theorem inTurn_endfor : InTurn 9 (bare "endfor" "/each") := by
  refine (awaits_bare "endfor" "/each").inTurn (fun {_ m} _ hturn s => ?_) bare_endfor_pass
  cases m with
  | endLoop => rfl
  | output out => cases out <;> cases hturn
  | branch condition => cases condition <;> cases hturn
  | _ => cases hturn

theorem inTurn_comparedOutput : InTurn 11 comparedOutput where
  braced := rewrites_comparedOutput.braced
  take {_ m} hm hturn s := by
    cases m with
    | output out =>
      cases out with
      | compares path equal double literal =>
        exact comparedOutput_source path equal (isLiteral_of_isClean hm) s
      | _ => cases hturn
    | branch condition => cases condition <;> cases hturn
    | _ => cases hturn
  pass {m} hm s := by
    cases m with
    | output out =>
      cases out with
      | value path =>
        rw [output_source]
        exact comparedOutput_pass path (trimLeft_blank_dotted path _) rfl rfl rfl
      | _ => simp [Mark.turn] at hm
    | branch condition => cases condition <;> simp [Mark.turn] at hm
    | _ => simp [Mark.turn] at hm
  done {m} hm s := by
    -- no operator stands behind the first word of a tag that is no block's
    have hitem (path : Dotted) : comparedOutput (reference path.text ++ s) = none := by
      have hbraces : reference path.text ++ s =
          openBraces ++ (path.text ++ '\x7d' :: '\x7d' :: s) := by
        rw [reference, List.append_assoc, List.append_assoc]
        rfl
      rw [hbraces]
      exact comparedOutput_pass path (trimLeft_dotted path _) rfl rfl rfl
    rcases mark_cases m with hstatement | ⟨v, fields, rfl⟩ | ⟨out, rfl⟩
    · exact spares_comparedOutput.target hstatement s
    · cases fields with
      | nil => exact hitem ⟨itself, []⟩
      | cons field fields => exact hitem ⟨field, fields⟩
    · cases out with
      | value path => simp [Mark.turn] at hm
      | fallback path double literal =>
        have htarget : (Mark.output (.fallback path double literal)).target ++ s =
            openBraces ++ ("default".toList ++
            ' ' :: (path.text ++ ' ' :: (singleQuoted literal ++ (closeBraces ++ s)))) :=
          call_target "default" path literal s
        obtain ⟨c, u, htext, hc, -⟩ := path.exists_cons
        have hequal : '=' ≠ c := by rintro rfl; exact absurd hc (by decide)
        have hnot : '!' ≠ c := by rintro rfl; exact absurd hc (by decide)
        rw [htarget]
        refine comparedOutput_pass ⟨fallbackWord, []⟩ (c := ' ') rfl rfl ?_ ?_
        · rw [trimLeft_blank_dotted, htext]
          exact if_neg hequal
        · rw [trimLeft_blank_dotted, htext]
          exact if_neg hnot
      | compares path equal double literal => simp [Mark.turn] at hm

namespace Writable

variable {names : List Ident}

theorem starts (h : Writable names symbols) {m : Mark} (hm : .mark m ∈ symbols) :
    StartsMark m.source ∧ StartsMark m.target :=
  startsMark (h.marks m hm)

/-- **A rule in its turn**, along a whole parameter. -/
theorem turned (h : Writable names symbols) {turn : Nat} (hrule : InTurn turn rule) :
    replaceAll rule (write (Mark.spelled (Mark.before turn)) symbols) =
      write (Mark.spelled (Mark.before (turn + 1))) symbols := by
  have hnext : Mark.before (turn + 1) = fun m => Mark.before turn m || m.turn == turn := by
    funext m
    rw [Bool.eq_iff_iff, Bool.or_eq_true, Mark.before, Mark.before, decide_eq_true_iff,
      decide_eq_true_iff, beq_iff_eq, Nat.lt_succ_iff_lt_or_eq]
  rw [hnext]
  refine replaceAll_spelled hrule.braced (fun c hc => (h.text c hc).1)
    (fun m hm => h.starts hm) ?_ ?_ ?_
  · intro m hm _ hhit s
    exact hrule.take (h.marks m hm) (beq_iff_eq.1 hhit) s
  · intro m _ hdone hhit s
    rw [Mark.before, decide_eq_false_iff_not] at hdone
    rw [beq_eq_false_iff_ne] at hhit
    exact hrule.pass (by omega) s
  · intro m _ hdone s
    exact .inl (hrule.done (of_decide_eq_true hdone) s)

end Writable

/-- **The rules for fallbacks and conditions take their marks**, and pass over loops and
references. -/
theorem applyRules_conditions {names : List Ident} (h : Writable names symbols) :
    applyRules conditionRules (write Mark.source symbols) =
      write (Mark.spelled (Mark.before 8)) symbols := by
  have hstart : Mark.source = Mark.spelled (Mark.before 1) := by
    funext m
    rw [Mark.spelled, Mark.before, decide_eq_false (Nat.not_lt.2 m.one_le_turn)]
    rfl
  rw [conditionRules, applyRules]
  simp only [List.foldl_cons, List.foldl_nil]
  rw [hstart, h.turned inTurn_quotedFallback, h.turned inTurn_plainFallback,
    h.turned inTurn_comparedIf, h.turned inTurn_if, h.turned inTurn_elif, h.turned inTurn_else,
    h.turned inTurn_endif]

/-! ## Searches -/

/-- The marks between the characters. -/
def marksOf (symbols : List Symbol) : List Mark := symbols.filterMap fun
  | .mark m => some m
  | .char _ => none

theorem findAll_pass_mark {α : Type} {find? : List Char → Option (α × List Char)}
    (hbraced : Braced find?) {text : List Char} (hstarts : StartsMark text)
    (hpass : find? (text ++ s) = none) : findAll find? (text ++ s) = findAll find? s := by
  obtain ⟨c, u, rfl, hu, hc⟩ := hstarts
  have hsecond : find? (c :: (u ++ s)) = none := hbraced.eq_none (not_opens_second hc)
  rw [List.cons_append] at hpass ⊢
  rw [findAll_pass hpass, List.cons_append, findAll_pass hsecond, findAll_append hbraced hu]

theorem findAll_take_mark {α : Type} {find? : List Char → Option (α × List Char)} {text : List Char}
    {a : α} (hstarts : StartsMark text) (htake : find? (text ++ s) = some (a, s)) :
    findAll find? (text ++ s) = a :: findAll find? s := by
  obtain ⟨c, u, rfl, -⟩ := hstarts
  rw [List.cons_append] at htake ⊢
  exact findAll_take htake

/-- **A search goes through marks.** -/
theorem findAll_write {α : Type} (found : Mark → Option α)
    {find? : List Char → Option (α × List Char)} (hbraced : Braced find?) {spell : Mark → List Char}
    (htext : ∀ c, .char c ∈ symbols → c ≠ '\x7b')
    (hstarts : ∀ m, .mark m ∈ symbols → StartsMark (spell m))
    (hfind : ∀ m, .mark m ∈ symbols → ∀ s, find? (spell m ++ s) = (found m).map fun a => (a, s)) :
    findAll find? (write spell symbols) = (marksOf symbols).filterMap found := by
  induction symbols with
  | nil => rfl
  | cons symbol symbols ih =>
    have hrest :=
      ih (fun c hc => htext c (List.mem_cons_of_mem _ hc))
        (fun m hm => hstarts m (List.mem_cons_of_mem _ hm))
      fun m hm => hfind m (List.mem_cons_of_mem _ hm)
    cases symbol with
    | char c =>
      have hc := htext c List.mem_cons_self
      rw [write, findAll_pass (hbraced.eq_none fun hopens => hc hopens.head), hrest]
      rfl
    | mark m =>
      have hm := hfind m List.mem_cons_self (write spell symbols)
      have hmarks : marksOf (.mark m :: symbols) = m :: marksOf symbols := rfl
      rw [write, hmarks, List.filterMap_cons]
      cases hfound : found m with
      | none =>
        rw [hfound] at hm
        rw [findAll_pass_mark hbraced (hstarts m List.mem_cons_self) hm, hrest]
      | some a =>
        rw [hfound] at hm
        rw [findAll_take_mark (hstarts m List.mem_cons_self) hm, hrest]

/-- The variables and lists of loops. -/
def Mark.loop? : Mark → Option (Ident × Dotted)
  | .loop name list => some (name, list)
  | _ => none

/-- **The variables of a parameter's loops.** -/
def loopNames (symbols : List Symbol) : List Ident :=
  (marksOf symbols).filterMap fun m => m.loop?.map (·.1)

theorem loop?_target (m : Mark) (s : List Char) : loop? (m.target ++ s) = none := by
  rw [Template.loop?, afterKeyword?_target]
  rfl

/-- **The variables that are found** are those of the parameter's loops. -/
theorem Writable.items {names : List Ident} (h : Writable names symbols) :
    (findAll Template.loop? (write (Mark.spelled (Mark.before 8)) symbols)).map (·.1) =
      (loopNames symbols).map Ident.text := by
  have hbraced : Braced Template.loop? := by
    intro s hsome
    refine awaits_loopStart.braced s ?_
    rw [loopStart, Option.isSome_map]
    exact hsome
  rw [findAll_write (fun m => m.loop?.map fun found => (found.1.text, found.2.text)) hbraced
    (fun c hc => (h.text c hc).1)]
  · rw [loopNames, List.map_filterMap, List.map_filterMap]
    congr 1
    funext m
    rw [Option.map_map, Option.map_map]
    rfl
  · intro m hm
    rw [Mark.spelled]
    split
    · exact (h.starts hm).2
    · exact (h.starts hm).1
  · intro m hm s
    have hnone (hloop : ∀ name list, m ≠ .loop name list) : m.loop? = none := by
      cases m with
      | loop name list => exact absurd rfl (hloop name list)
      | _ => rfl
    -- before the eighth turn marks are tags, which are no loops; loops and all later marks are as
    -- they were written
    rw [Mark.spelled]
    cases hturn : Mark.before 8 m with
    | true =>
      have hearly := of_decide_eq_true hturn
      rw [if_pos rfl, loop?_target,
        hnone fun name list heq => by rw [heq] at hearly; exact absurd hearly (Nat.lt_irrefl 8)]
      rfl
    | false =>
      rw [Mark.before, decide_eq_false_iff_not] at hturn
      rw [if_neg Bool.false_ne_true]
      by_cases hloop : ∃ name list, m = .loop name list
      · obtain ⟨name, list, rfl⟩ := hloop
        exact loop?_source name list s
      · have hlate : 8 < m.turn := by
          refine Nat.lt_of_le_of_ne (Nat.le_of_not_lt hturn) fun heq => hloop ?_
          cases m with
          | loop name list => exact ⟨name, list, rfl⟩
          | branch condition => cases condition <;> cases heq
          | output out => cases out <;> cases heq
          | _ => cases heq
        rw [hnone fun name list heq => hloop ⟨name, list, heq⟩]
        exact loop?_pass hlate s

/-! ## Loops and their variables -/

theorem isVariable_of_clean {names : List (List Char)} {name : Ident} {list : Dotted}
    (h : (Mark.loop name list).isClean names) : IsVariable name.text := by
  rw [Mark.isClean, Bool.and_eq_true, bne_iff_ne] at h
  exact ⟨fun c hc => isWord_of_isNameChar (name.isNameChar c hc), name.ne_nil, h.2⟩

theorem mem_loopNames {name : Ident} (h : name ∈ loopNames symbols) :
    ∃ list, .mark (.loop name list) ∈ symbols := by
  rw [loopNames, marksOf, List.filterMap_filterMap, List.mem_filterMap] at h
  obtain ⟨symbol, hsymbol, hname⟩ := h
  cases symbol with
  | char c => cases hname
  | mark m =>
    cases m with
    | loop v list =>
      obtain rfl : v = name := Option.some.inj hname
      exact ⟨list, hsymbol⟩
    | _ => cases hname

/-- The marks that are taken by the time that the rules for some variables have gone through. -/
def Mark.after (names : List Ident) : Mark → Bool
  | .item name _ => names.any fun n => name.text == n.text
  | m => Mark.before 10 m

theorem Writable.first_ne {names : List Ident} (h : Writable names symbols) {name : Ident}
    (hname : name ∈ names) {out : Output} (hm : .mark (.output out) ∈ symbols) :
    out.path.first.text ≠ name.text := by
  have hclean := (Bool.and_eq_true_iff.1 (h.marks _ hm)).1
  intro heq
  rw [List.contains_iff_mem.2 (heq ▸ List.mem_map_of_mem hname)] at hclean
  cases hclean

theorem Writable.fields_ne {names : List Ident} (h : Writable names symbols) {name : Ident}
    (hname : name ∈ names) {v : Ident} {fields : List Ident}
    (hm : .mark (.item v fields) ∈ symbols) :
    ¬ (fields.head?.any fun field => field.text == name.text) := by
  obtain ⟨-, hclean⟩ := Bool.and_eq_true_iff.1 (h.marks _ hm)
  rw [Option.any_eq_true]
  rintro ⟨field, hfield, heq⟩
  rw [hfield, Option.any_some,
    List.contains_iff_mem.2 (beq_iff_eq.1 heq ▸ List.mem_map_of_mem hname)] at hclean
  cases hclean

/-- A property of a loop's variable. -/
def Mark.isPropertyOf (name : Ident) : Mark → Bool
  | .item v (_ :: _) => v.text == name.text
  | _ => false

/-- A loop's variable by itself. -/
def Mark.isItemOf (name : Ident) : Mark → Bool
  | .item v [] => v.text == name.text
  | _ => false

theorem after_append (done : List Ident) (name : Ident) :
    Mark.after (done ++ [name]) = fun m =>
      Mark.after done m || m.isPropertyOf name || m.isItemOf name := by
  funext m
  cases m with
  | item v fields =>
    cases fields <;> simp only [Mark.after, Mark.isPropertyOf, Mark.isItemOf, List.any_append,
      List.any_cons, List.any_nil,
      Bool.or_false]
  | _ => simp only [Mark.after, Mark.isPropertyOf, Mark.isItemOf, Bool.or_false]

/-- Statements are taken before the variables of loops. -/
theorem after_of_statement {m : Mark} (hm : m.isReference = false) (done : List Ident) :
    Mark.after done m := by
  cases m with
  | item v fields => cases hm
  | output out => cases hm
  | branch condition => cases condition <;> rfl
  | _ => rfl

/-- Of what is put out only a fallback is taken before the variables of loops. -/
theorem exists_fallback {out : Output} {done : List Ident} (h : Mark.after done (.output out)) :
    ∃ path double literal, out = .fallback path double literal := by
  cases out with
  | fallback path double literal => exact ⟨path, double, literal, rfl⟩
  | _ => cases h

section

variable {names done : List Ident} {name : Ident}

/-- What is put out under another name is passed over, as it is written and as a call. -/
theorem Writable.output_pass (h : Writable names symbols) (hname : name ∈ names) {out : Output}
    (hm : .mark (.output out) ∈ symbols)
    (s : List Char) : loopProperty name.text ((Mark.output out).source ++ s) = none ∧
      loopItem name.text ((Mark.output out).source ++ s) = none := by
  obtain ⟨t, ht⟩ := exists_after_path out (closeBraces ++ s)
  rw [output_source, ht]
  exact loop_rules_pass (h.first_ne hname hm) t

/-- The rule for properties of a variable. -/
theorem Writable.properties (h : Writable names symbols) (hname : name ∈ names)
    (hvariable : IsVariable name.text) :
    replaceAll (loopProperty name.text) (write (Mark.spelled (Mark.after done)) symbols) =
      write (Mark.spelled fun m => Mark.after done m || m.isPropertyOf name) symbols := by
  refine replaceAll_spelled (rewrites_loopProperty name.text).braced (fun c hc => (h.text c hc).1)
    (fun m hm => h.starts hm)
    ?_ ?_ ?_
  · intro m _ _ hhit s
    cases m with
    | item v fields =>
      cases fields with
      | nil => cases hhit
      | cons field fields =>
        obtain rfl := Ident.ext (beq_iff_eq.1 hhit)
        exact loopProperty_source v field fields s
    | _ => cases hhit
  · intro m hm hdone hhit s
    rcases mark_cases m with hstatement | ⟨v, fields, rfl⟩ | ⟨out, rfl⟩
    · rw [after_of_statement hstatement] at hdone
      cases hdone
    · by_cases hv : v.text = name.text
      · obtain rfl := Ident.ext hv
        cases fields with
        | nil => exact loopProperty_alone v s
        | cons field fields => exact absurd (beq_self_eq_true v.text) (Bool.eq_false_iff.1 hhit)
      · rw [item_source]
        exact (loop_rules_pass (show (Dotted.mk v fields).first.text ≠ name.text from hv) _).1
    · exact (h.output_pass hname hm s).1
  · intro m hm hdone s
    rcases mark_cases m with hstatement | ⟨v, fields, rfl⟩ | ⟨out, rfl⟩
    · exact .inl ((spares_loopProperty hvariable).target hstatement s)
    · exact .inl (loop_rules_item (h.fields_ne hname hm) s).1
    · obtain ⟨path, double, literal, rfl⟩ := exists_fallback hdone
      exact .inl (loop_rules_fallback name path double literal s).1

/-- The rule for a variable by itself. -/
theorem Writable.alone (h : Writable names symbols) (hname : name ∈ names)
    (hvariable : IsVariable name.text) :
    replaceAll (loopItem name.text)
      (write (Mark.spelled fun m => Mark.after done m || m.isPropertyOf name) symbols) =
      write (Mark.spelled (Mark.after (done ++ [name]))) symbols := by
  rw [after_append]
  refine replaceAll_spelled (rewrites_loopItem name.text).braced (fun c hc => (h.text c hc).1)
    (fun m hm => h.starts hm)
    ?_ ?_ ?_
  · intro m _ _ hhit s
    cases m with
    | item v fields =>
      cases fields with
      | nil =>
        obtain rfl := Ident.ext (beq_iff_eq.1 hhit)
        exact loopItem_source v s
      | cons field fields => cases hhit
    | _ => cases hhit
  · intro m hm hdone hhit s
    obtain ⟨hdone, hproperty⟩ := Bool.or_eq_false_iff.1 hdone
    rcases mark_cases m with hstatement | ⟨v, fields, rfl⟩ | ⟨out, rfl⟩
    · rw [after_of_statement hstatement] at hdone
      cases hdone
    · have hv : v.text ≠ name.text := by
        intro hv
        cases fields with
        | nil => exact absurd (beq_iff_eq.2 hv) (Bool.eq_false_iff.1 hhit)
        | cons field fields => exact absurd (beq_iff_eq.2 hv) (Bool.eq_false_iff.1 hproperty)
      rw [item_source]
      exact (loop_rules_pass (show (Dotted.mk v fields).first.text ≠ name.text from hv) _).2
    · exact (h.output_pass hname hm s).2
  · intro m hm hdone s
    rcases mark_cases m with hstatement | ⟨v, fields, rfl⟩ | ⟨out, rfl⟩
    · exact .inl ((spares_loopItem hvariable).target hstatement s)
    · exact (loop_rules_item (h.fields_ne hname hm) s).2
    · obtain ⟨path, double, literal, rfl⟩ := exists_fallback ((Bool.or_false _).symm.trans hdone)
      exact .inl (loop_rules_fallback name path double literal s).2

/-- **The rules for variables** take all items of theirs. -/
theorem Writable.variables (h : Writable names symbols) {todo : List Ident}
    (htodo : ∀ name ∈ todo, name ∈ names ∧ IsVariable name.text) :
    applyRules ((todo.map Ident.text).flatMap fun name => [loopProperty name, loopItem name])
      (write (Mark.spelled (Mark.after done)) symbols) =
        write (Mark.spelled (Mark.after (done ++ todo))) symbols := by
  induction todo generalizing done with
  | nil => rw [List.append_nil]; rfl
  | cons name todo ih =>
    obtain ⟨hname, hvariable⟩ := htodo name List.mem_cons_self
    have hnext :
        applyRules ((todo.map Ident.text).flatMap fun name => [loopProperty name, loopItem name])
        (write (Mark.spelled (Mark.after (done ++ [name]))) symbols) = _ :=
      ih fun n hn => htodo n (List.mem_cons_of_mem _ hn)
    rw [List.append_assoc, List.singleton_append] at hnext
    rw [← hnext, ← h.alone hname hvariable, ← h.properties hname hvariable]
    rfl

end

theorem write_congr {spell spell' : Mark → List Char}
    (h : ∀ m, .mark m ∈ symbols → spell m = spell' m) :
    write spell symbols = write spell' symbols := by
  induction symbols with
  | nil => rfl
  | cons symbol symbols ih =>
    have hrest := ih fun m hm => h m (List.mem_cons_of_mem _ hm)
    cases symbol with
    | char c => rw [write, write, hrest]
    | mark m => rw [write, write, hrest, h m List.mem_cons_self]

/-- After the rules for all variables only comparisons that are put out are left. -/
theorem Writable.after_names {names : List Ident} (h : Writable names symbols) {m : Mark}
    (hm : .mark m ∈ symbols) : Mark.after names m = Mark.before 11 m := by
  cases m with
  | item v fields =>
    obtain ⟨hname, -⟩ := Bool.and_eq_true_iff.1 (h.marks _ hm)
    obtain ⟨name, hmem, heq⟩ := List.mem_map.1 (List.contains_iff_mem.1 hname)
    exact List.any_eq_true.2 ⟨name, hmem, beq_iff_eq.2 heq.symm⟩
  | output out => cases out <;> rfl
  | branch condition => cases condition <;> rfl
  | _ => rfl

/-- **The rules for loops and their variables** take what is left, but for comparisons that are put
out. -/
theorem Writable.loops {names : List Ident} (h : Writable names symbols)
    (hnames : loopNames symbols = names) :
    applyRules (loopRules (names.map Ident.text)) (write (Mark.spelled (Mark.before 8)) symbols) =
      write (Mark.spelled (Mark.before 11)) symbols := by
  have hstart : Mark.before 10 = Mark.after [] := by
    funext m
    cases m <;> rfl
  have hall : ∀ name ∈ names, name ∈ names ∧ IsVariable name.text := by
    intro name hname
    rw [← hnames] at hname
    obtain ⟨list, hmark⟩ := mem_loopNames hname
    exact ⟨hnames ▸ hname, isVariable_of_clean (h.marks _ hmark)⟩
  rw [loopRules, applyRules, List.foldl_append]
  simp only [List.foldl_cons, List.foldl_nil]
  rw [h.turned inTurn_for, h.turned inTurn_endfor, hstart]
  refine (h.variables hall).trans (write_congr fun m hm => ?_)
  rw [List.nil_append, Mark.spelled, Mark.spelled, h.after_names hm]

/-- **The last rule** takes the comparisons that are put out; values stay as they are. -/
theorem Writable.comparisons {names : List Ident} (h : Writable names symbols) :
    replaceAll comparedOutput (write (Mark.spelled (Mark.before 11)) symbols) =
      write Mark.target symbols := by
  refine (h.turned inTurn_comparedOutput).trans (write_congr fun m _ => ?_)
  rw [Mark.spelled]
  cases m with
  | output out =>
    cases out with
    | value path => exact (value_target path).symm
    | _ => rfl
  | branch condition => cases condition <;> rfl
  | _ => rfl

end Runlist.Template
