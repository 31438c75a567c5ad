import Runlist.Proofs.Template.Spelled

/-!
# The rules for the marks of a parameter

Each rule takes the marks of one kind as they are written in a parameter, writes them as they are
written in a block template, and takes nothing else.
-/

namespace Runlist.Template

open Text (isBlank)

variable {s : List Char}

/-! ## Marks that can be converted -/

/-- The character stands for itself between quotes: it is neither a quote nor a backslash, and no
control character. -/
def isLiteralChar (double : Bool) (c : Char) : Bool :=
  isInside c && c != '\'' && c != '\\' && decide (32 ≤ c.toNat) && !(double && c == '"')

/-- The text stands for itself between quotes. -/
def isLiteral (double : Bool) (literal : List Char) : Bool := literal.all (isLiteralChar double)

/-- The literal that something put out is given stands for itself. -/
def Output.isLiteral : Output → Bool
  | .value _ => true
  | .fallback _ double literal => Template.isLiteral double literal
  | .compares _ _ double literal => Template.isLiteral double literal

/-- The literal of a condition stands for itself. -/
def Condition.isLiteral : Condition → Bool
  | .holds _ => true
  | .compares _ _ double literal => Template.isLiteral double literal

/-- The condition only asks whether a path holds. -/
def Condition.isPlain : Condition → Bool
  | .holds _ => true
  | .compares .. => false

/-- **A mark is converted to what it means**, where the loops' variables have the given names. A
comparison stands in front of the first branch only, and what a loop's variable hides or leaves
behind is not itself such a variable. -/
def Mark.isClean (names : List (List Char)) : Mark → Bool
  | .output out => !names.contains out.path.first.text && out.isLiteral
  | .item name fields =>
    names.contains name.text && !(fields.head?.any fun field => names.contains field.text)
  | .branch condition => condition.isLiteral
  | .elif condition => condition.isPlain
  | .loop name _ => names.contains name.text && name.text != "else".toList
  | _ => true

section

variable {double : Bool} {literal : List Char}

theorem isLiteral_char (h : isLiteral double literal) {c : Char} (hc : c ∈ literal) :
    isInside c ∧ c ≠ '\'' ∧ c ≠ '\\' ∧ 32 ≤ c.toNat ∧ c ≠ quote double := by
  have hchar := List.all_eq_true.1 h c hc
  simp only [isLiteralChar, Bool.and_eq_true, bne_iff_ne, decide_eq_true_eq] at hchar
  obtain ⟨⟨⟨⟨hinside, hsingle⟩, hslash⟩, hcontrol⟩, hdouble⟩ := hchar
  refine ⟨hinside, hsingle, hslash, hcontrol, ?_⟩
  cases double with
  | false => exact hsingle
  | true =>
    rintro rfl
    cases hdouble

theorem plain_literal (h : isLiteral double literal) : Plain literal :=
  fun _ hc => (isLiteral_char h hc).1

theorem quote_cases (double : Bool) : quote double = '\'' ∨ quote double = '"' := by
  cases double
  · exact .inl rfl
  · exact .inr rfl

/-- A literal does not hold its quote. -/
theorem quote_not_mem (h : isLiteral double literal) : quote double ∉ literal :=
  fun hmem => (isLiteral_char h hmem).2.2.2.2 rfl

theorem plain_quoted (h : isLiteral double literal) : Plain (quoted double literal) := by
  have hquote : isInside (quote double) := by cases double <;> rfl
  exact plain_cons.2
    ⟨hquote, plain_append.2 ⟨plain_literal h, plain_cons.2 ⟨hquote, fun _ hmem => nomatch hmem⟩⟩⟩

theorem plain_singleQuoted (h : isLiteral double literal) : Plain (singleQuoted literal) :=
  plain_append.2 ⟨plain_cons.2 ⟨rfl, plain_literal h⟩, by decide⟩

theorem plain_comparison (path : Dotted) (equal : Bool) (h : isLiteral double literal) :
    Plain (comparison path equal double literal) := by
  have hop : Plain (if equal then " == " else " != ").toList := by cases equal <;> decide
  exact plain_append.2 ⟨plain_append.2 ⟨plain_dotted path, hop⟩, plain_quoted h⟩

end

theorem startsMark_statement {u : List Char} (hu : Plain u) :
    StartsMark (opening ++ u ++ closing) :=
  ⟨'%', u ++ closing,
    rfl, by rw [List.mem_append, not_or]; exact ⟨hu.no_brace, by decide⟩, .inl rfl⟩

theorem startsMark_reference {u : List Char} (hu : Plain u) (hne : u ≠ []) :
    StartsMark (reference u) := by
  cases u with
  | nil => exact absurd rfl hne
  | cons c u =>
    refine ⟨'\x7b', c :: u ++ closeBraces, rfl, ?_, .inr ⟨rfl, hu c List.mem_cons_self⟩⟩
    rw [List.mem_append, not_or]
    exact ⟨hu.no_brace, by decide⟩

theorem plain_condition {condition : Condition} (h : condition.isLiteral) :
    Plain condition.text := by
  cases condition with
  | holds path => exact plain_dotted path
  | compares path equal double literal => exact plain_comparison path equal h

theorem plain_output {out : Output} (h : out.isLiteral) : Plain out.text := by
  cases out with
  | value path => exact plain_dotted path
  | fallback path double literal =>
    exact plain_append.2
      ⟨plain_append.2 ⟨plain_append.2 ⟨plain_dotted path, by decide⟩, plain_quoted h⟩, by decide⟩
  | compares path equal double literal => exact plain_comparison path equal h

theorem isLiteral_of_isPlain {condition : Condition} (h : condition.isPlain) :
    condition.isLiteral := by
  cases condition with
  | holds path => rfl
  | compares path equal double literal => cases h

theorem isLiteral_of_isClean {names : List (List Char)} {out : Output}
    (h : (Mark.output out).isClean names) : out.isLiteral :=
  (Bool.and_eq_true_iff.1 h).2

theorem plain_call {name : String} (hname : name = "default" ∨ name = "eq" ∨ name = "ne")
    (path : Dotted) {double : Bool} {literal : List Char} (h : isLiteral double literal) :
    Plain (callStart name path.text ++ singleQuoted literal) :=
  plain_append.2 ⟨plain_callStart hname (plain_dotted path), plain_singleQuoted h⟩

/-- The helper of a comparison. -/
theorem operator_cases (equal : Bool) :
    (if equal then "eq" else "ne") = "default" ∨ (if equal then "eq" else "ne") = "eq" ∨
    (if equal then "eq" else "ne") = "ne" := by
  cases equal
  · exact .inr (.inr rfl)
  · exact .inr (.inl rfl)

theorem plain_outputTag {out : Output} (h : out.isLiteral) :
    Plain out.tagText ∧ out.tagText ≠ [] := by
  cases out with
  | value path =>
    exact ⟨plain_append.2 ⟨plain_cons.2 ⟨rfl, plain_dotted path⟩, by decide⟩, List.cons_ne_nil _ _⟩
  | fallback path double literal =>
    exact ⟨plain_call (.inl rfl) path h, List.append_ne_nil_of_left_ne_nil (callStart_ne_nil _) _⟩
  | compares path equal double literal =>
    exact ⟨plain_call (operator_cases equal) path h,
      List.append_ne_nil_of_left_ne_nil (callStart_ne_nil _) _⟩

theorem plain_inside {names : List (List Char)} {m : Mark} (hm : m.isClean names) :
    Plain m.inside := by
  have hnil : Plain [] := fun _ hmem => absurd hmem List.not_mem_nil
  have hwrap {keyword u : List Char} (hkeyword : Plain keyword) (hu : Plain u) :
      Plain (' ' :: keyword ++ ' ' :: u ++ [' ']) :=
    plain_append.2
      ⟨plain_append.2 ⟨plain_cons.2 ⟨rfl, hkeyword⟩, plain_cons.2 ⟨rfl, hu⟩⟩, by decide⟩
  cases m with
  | output out => exact hnil
  | item name fields => exact hnil
  | branch condition => exact hwrap (by decide) (plain_condition hm)
  | elif condition => exact hwrap (by decide) (plain_condition (isLiteral_of_isPlain hm))
  | otherwise => decide
  | endBranch => decide
  | loop name list =>
    have hname : Plain name.text :=
      plain_word fun c hc => isWord_of_isNameChar (name.isNameChar c hc)
    have hin : Plain (' ' :: "in".toList) := by decide
    exact plain_append.2
      ⟨plain_append.2 ⟨plain_append.2 ⟨plain_append.2 ⟨by decide, plain_cons.2 ⟨rfl, hname⟩⟩, hin⟩,
      plain_cons.2 ⟨rfl, plain_dotted list⟩⟩, by decide⟩
  | endLoop => decide

theorem plain_tagText {names : List (List Char)} {m : Mark} (hm : m.isClean names) :
    Plain m.tagText ∧ m.tagText ≠ [] := by
  cases m with
  | output out => exact plain_outputTag (isLiteral_of_isClean hm)
  | item name fields =>
    cases fields with
    | nil => exact (⟨by decide, by decide⟩ : Plain "this".toList ∧ "this".toList ≠ [])
    | cons field fields => exact ⟨plain_dotted _, Dotted.ne_nil _⟩
  | branch condition =>
    cases condition with
    | holds path => exact ⟨plain_append.2 ⟨by decide, plain_dotted path⟩, List.cons_ne_nil _ _⟩
    | compares path equal double literal =>
      have hcall := plain_call (operator_cases equal) path (show isLiteral double literal from hm)
      have hparenthesis : Plain [')'] := by decide
      refine ⟨plain_append.2 ⟨by decide, ?_⟩, List.cons_ne_nil _ _⟩
      rw [← List.append_assoc]
      exact plain_append.2 ⟨hcall, hparenthesis⟩
  | elif condition =>
    exact ⟨plain_append.2 ⟨by decide, plain_condition (isLiteral_of_isPlain hm)⟩,
      List.cons_ne_nil _ _⟩
  | otherwise => exact ⟨by decide, by decide⟩
  | endBranch => exact ⟨by decide, by decide⟩
  | loop name list => exact ⟨plain_append.2 ⟨by decide, plain_dotted list⟩, List.cons_ne_nil _ _⟩
  | endLoop => exact ⟨by decide, by decide⟩

/-- What stands between double braces and blanks. -/
theorem braces_source (u : List Char) :
    openBraces ++ ' ' :: u ++ ' ' :: closeBraces = reference (' ' :: u ++ [' ']) := by
  simp only [reference, List.append_assoc, List.cons_append, List.nil_append]

theorem startsMark {names : List (List Char)} {m : Mark} (hm : m.isClean names) :
    StartsMark m.source ∧ StartsMark m.target := by
  have hbraces {u : List Char} (hu : Plain u) :
      StartsMark (openBraces ++ ' ' :: u ++ ' ' :: closeBraces) := by
    rw [braces_source]
    exact startsMark_reference (plain_append.2 ⟨plain_cons.2 ⟨rfl, hu⟩, by decide⟩)
      (List.cons_ne_nil _ _)
  refine ⟨?_, startsMark_reference (plain_tagText hm).1 (plain_tagText hm).2⟩
  cases m with
  | output out => exact hbraces (plain_output (isLiteral_of_isClean hm))
  | item name fields => exact hbraces (plain_dotted _)
  | _ => exact startsMark_statement (plain_inside hm)

/-! ## Rules for statements -/

/-- A comparison is read as a call of the helper of its operator. -/
theorem comparison?_operator (path : Dotted) (equal : Bool) {quote : Char}
    (hquote : quote = '\'' ∨ quote = '"') {literal : List Char} (hno : quote ∉ literal)
    (s : List Char) :
    comparison? (path.text ++
      ' ' :: ((if equal then "==" else "!=").toList ++ ' ' :: quote :: (literal ++ quote :: s))) =
      some (callStart (if equal then "eq" else "ne") path.text ++ singleQuoted literal, s) := by
  have hread := quotedText?_append hquote hno s
  have htrim (x : List Char) : Text.trimLeft (' ' :: quote :: x) = quote :: x := by
    rcases hquote with rfl | rfl <;> rfl
  have hcall (name : String) : (name ++ " ").toList ++ path.text ++ [' '] ++ singleQuoted literal =
      callStart name path.text ++ singleQuoted literal := by
    simp only [callStart, String.toList_append, List.append_assoc, List.cons_append,
      List.nil_append]
    rfl
  rw [comparison?, path?_dotted path rfl, Option.bind_eq_bind, Option.bind_some]
  cases equal with
  | true =>
    have hstart : Text.trimLeft (' ' :: ("==".toList ++ ' ' :: quote :: (literal ++ quote :: s))) =
      "==".toList ++ ' ' :: quote :: (literal ++ quote :: s) := rfl
    simp only [if_true, hstart, Text.afterPrefix?_append, Option.bind_eq_bind,
      Option.bind_some, htrim, hread]
    exact congrArg (fun call => some (call, s)) (hcall "eq")
  | false =>
    have hstart : Text.trimLeft (' ' :: ("!=".toList ++ ' ' :: quote :: (literal ++ quote :: s))) =
      "!=".toList ++ ' ' :: quote :: (literal ++ quote :: s) := rfl
    have hother (x : List Char) : Text.afterPrefix? "==".toList ("!=".toList ++ x) = none := rfl
    simp only [Bool.false_eq_true, if_false, hstart, hother, Text.afterPrefix?_append,
      Option.bind_eq_bind, Option.bind_some, htrim, hread]
    exact congrArg (fun call => some (call, s)) (hcall "ne")

/-- A comparison is read whole. -/
theorem comparison?_comparison (path : Dotted) (equal : Bool) {double : Bool} {literal : List Char}
    (hliteral : isLiteral double literal) (s : List Char) :
    comparison? (comparison path equal double literal ++ s) =
    some (callStart (if equal then "eq" else "ne") path.text ++ singleQuoted literal, s) := by
  rw [← comparison?_operator path equal (quote_cases double) (quote_not_mem hliteral) s]
  have hop : (if equal then " == " else " != ").toList =
      ' ' :: ((if equal then "==" else "!=").toList ++ [' ']) := by
    cases equal <;> rfl
  simp only [comparison, quoted, hop, List.append_assoc, List.cons_append, List.nil_append]

/-- A condition that is a path is no comparison. -/
theorem comparison?_dotted (path : Dotted) (s : List Char) :
    comparison? (path.text ++ ' ' :: (closing ++ s)) = none := by
  rw [comparison?, path?_dotted path rfl]
  rfl

theorem trimLeft_condition (condition : Condition) (s : List Char) :
    Text.trimLeft (condition.text ++ s) = condition.text ++ s := by
  cases condition with
  | holds path => exact trimLeft_dotted path s
  | compares path equal double literal =>
    simp only [Condition.text, comparison, List.append_assoc]
    exact trimLeft_dotted path _

theorem branch_source (condition : Condition) (s : List Char) :
    afterKeyword? "if" ((Mark.branch condition).source ++ s) =
      some (' ' :: (condition.text ++ ' ' :: (closing ++ s))) ∧
      afterBlank? (' ' :: (condition.text ++ ' ' :: (closing ++ s))) =
        some (condition.text ++ ' ' :: (closing ++ s)) := by
  refine ⟨?_, congrArg some (trimLeft_condition condition _)⟩
  have hsource : (Mark.branch condition).source ++ s =
      opening ++ ' ' :: ("if".toList ++ ' ' :: (condition.text ++ ' ' :: (closing ++ s))) := by
    simp only [Mark.source, Mark.inside, List.append_assoc, List.cons_append, List.nil_append]
  rw [hsource]
  rfl

theorem comparedIf_source (path : Dotted) (equal : Bool) {double : Bool} {literal : List Char}
    (hliteral : isLiteral double literal) (s : List Char) :
    comparedIf ((Mark.branch (.compares path equal double literal)).source ++ s) =
      some ((Mark.branch (.compares path equal double literal)).target, s) := by
  obtain ⟨hkeyword, hblank⟩ := branch_source (.compares path equal double literal) s
  have hclosing : afterClosing? (' ' :: (closing ++ s)) = some s := rfl
  have htarget : (Mark.branch (.compares path equal double literal)).target =
      reference ("#if (".toList ++
        (callStart (if equal then "eq" else "ne") path.text ++ singleQuoted literal) ++ [')']) := by
    have htag : (Mark.branch (.compares path equal double literal)).tagText =
        "#if (".toList ++
          (callStart (if equal then "eq" else "ne") path.text ++ (singleQuoted literal ++ [')'])) :=
        rfl
    rw [Mark.target, htag, List.append_assoc, List.append_assoc]
  rw [comparedIf, hkeyword, Option.bind_eq_bind, Option.bind_some, hblank, Option.bind_eq_bind,
    Option.bind_some, Condition.text, comparison?_comparison path equal hliteral,
    Option.bind_some, htarget]
  dsimp only
  rw [hclosing]
  rfl

/-- **What the rule for comparisons passes over.** -/
theorem comparedIf_pass {m : Mark} (hm : 3 < m.turn) (s : List Char) :
    comparedIf (m.source ++ s) = none := by
  cases m with
  | branch condition =>
    cases condition with
    | holds path =>
      obtain ⟨hkeyword, hblank⟩ := branch_source (.holds path) s
      rw [comparedIf, hkeyword, Option.bind_eq_bind, Option.bind_some, hblank, Option.bind_eq_bind,
        Option.bind_some, Condition.text, comparison?_dotted]
      rfl
    | compares path equal double literal => exact absurd hm (Nat.lt_irrefl 3)
  | _ => rfl

/-- A keyword, one blank and a path are read as a condition. -/
theorem conditional_of_keyword {keyword tag : String} {t : List Char} (path : Dotted)
    (hkeyword : afterKeyword? keyword t = some (' ' :: (path.text ++ ' ' :: (closing ++ s)))) :
    conditional keyword tag t = some (reference (tag.toList ++ path.text), s) := by
  have hlength : ((' ' :: (path.text ++ ' ' :: (closing ++ s))).takeWhile isBlank).length = 1 := by
    obtain ⟨c, u, htext, hc, -⟩ := path.exists_cons
    have hblank : isBlank ' ' = true := rfl
    rw [htext, List.takeWhile_cons, hblank, if_pos rfl, List.cons_append, List.takeWhile_cons,
      isBlank_of_isNameChar hc]
    rfl
  rw [conditional, hkeyword, Option.bind_eq_bind, Option.bind_some, hlength, blanksThenCondition?,
    List.drop_one, List.tail_cons, condition?_dotted path.isDottedChar path.ne_nil]
  rfl

theorem conditional_if_source (path : Dotted) (s : List Char) :
    conditional "if" "#if " ((Mark.branch (.holds path)).source ++ s) =
      some ((Mark.branch (.holds path)).target, s) :=
  conditional_of_keyword path (branch_source (.holds path) s).1

theorem conditional_if_pass {m : Mark} (hm : 4 < m.turn) (s : List Char) :
    conditional "if" "#if " (m.source ++ s) = none := by
  cases m with
  | branch condition => cases condition <;> simp [Mark.turn] at hm
  | _ => rfl

theorem conditional_elif_source (path : Dotted) (s : List Char) :
    conditional "elif" "else if " ((Mark.elif (.holds path)).source ++ s) =
      some ((Mark.elif (.holds path)).target, s) := by
  refine conditional_of_keyword path ?_
  have hsource : (Mark.elif (.holds path)).source ++ s =
      opening ++ ' ' :: ("elif".toList ++ ' ' :: (path.text ++ ' ' :: (closing ++ s))) := by
    simp only [Mark.source, Mark.inside, Condition.text, List.append_assoc, List.cons_append,
      List.nil_append]
  rw [hsource]
  rfl

theorem conditional_elif_pass {m : Mark} (hm : 5 < m.turn) (s : List Char) :
    conditional "elif" "else if " (m.source ++ s) = none := by
  cases m with
  | branch condition => cases condition <;> simp [Mark.turn] at hm
  | elif condition => exact absurd hm (Nat.lt_irrefl 5)
  | _ => rfl

theorem bare_else_pass {m : Mark} (hm : 6 < m.turn) (s : List Char) :
    bare "else" "else" (m.source ++ s) = none := by
  cases m with
  | branch condition => cases condition <;> simp [Mark.turn] at hm
  | elif condition => simp [Mark.turn] at hm
  | otherwise => exact absurd hm (Nat.lt_irrefl 6)
  | _ => rfl

theorem bare_endif_pass {m : Mark} (hm : 7 < m.turn) (s : List Char) :
    bare "endif" "/if" (m.source ++ s) = none := by
  cases m with
  | branch condition => cases condition <;> simp [Mark.turn] at hm
  | elif condition => simp [Mark.turn] at hm
  | otherwise => simp [Mark.turn] at hm
  | endBranch => exact absurd hm (Nat.lt_irrefl 7)
  | _ => rfl

/-- **What is read of a loop's start**: its variable and its list. -/
theorem loop?_source (name : Ident) (list : Dotted) (s : List Char) :
    loop? ((Mark.loop name list).source ++ s) = some ((name.text, list.text), s) := by
  have hsource : (Mark.loop name list).source ++ s = opening ++ ' ' :: ("for".toList ++
      ' ' :: (name.text ++
        ' ' :: ("in".toList ++ ' ' :: (list.text ++ ' ' :: (closing ++ s))))) := by
    simp only [Mark.source, Mark.inside, List.append_assoc, List.cons_append, List.nil_append]
  have hkeyword (x : List Char) :
      afterKeyword? "for" (opening ++ ' ' :: ("for".toList ++ x)) = some x := rfl
  have hblank (x : List Char) : afterBlank? (' ' :: x) = some (Text.trimLeft x) := rfl
  have hin (x : List Char) : Text.trimLeft ("in".toList ++ x) = "in".toList ++ x := rfl
  have hclosing : afterClosing? (' ' :: (closing ++ s)) = some s := rfl
  rw [hsource, loop?, hkeyword]
  simp only [Option.bind_eq_bind, Option.bind_some, hblank, trimLeft_ident,
    word?_ident name (c := ' ') rfl, hin, Text.afterPrefix?_append, trimLeft_dotted,
    path?_dotted list (c := ' ') rfl, hclosing, Option.pure_def]

theorem loop?_pass {m : Mark} (hm : 8 < m.turn) (s : List Char) : loop? (m.source ++ s) = none := by
  cases m with
  | branch condition => cases condition <;> simp [Mark.turn] at hm
  | elif condition => simp [Mark.turn] at hm
  | otherwise => simp [Mark.turn] at hm
  | endBranch => simp [Mark.turn] at hm
  | loop name list => exact absurd hm (Nat.lt_irrefl 8)
  | _ => rfl

theorem bare_endfor_pass {m : Mark} (hm : 9 < m.turn) (s : List Char) :
    bare "endfor" "/each" (m.source ++ s) = none := by
  cases m with
  | branch condition => cases condition <;> simp [Mark.turn] at hm
  | elif condition => simp [Mark.turn] at hm
  | otherwise => simp [Mark.turn] at hm
  | endBranch => simp [Mark.turn] at hm
  | loop name list => simp [Mark.turn] at hm
  | endLoop => exact absurd hm (Nat.lt_irrefl 9)
  | _ => rfl

end Runlist.Template
