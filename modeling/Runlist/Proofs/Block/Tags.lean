import Runlist.Block.Tag
import Runlist.Proofs.Block.Terms
import Runlist.Proofs.Template.Turned

/-!
# Tags of converted parameters

Each mark of a parameter has become a tag, and this is the tag that is read.

* `Output.term`, `Condition.call`, `Mark.tag`: the tag of a mark.
* `Mark.IsReadable`: the names in it are not read as something else.
* `TagText.read?_mark`: **the tag of a mark is read whole.**
-/

namespace Runlist

namespace Template

open Block (Term Tag)

/-- The helper of a comparison. -/
def operator (equal : Bool) : String := if equal then "eq" else "ne"

/-- What puts something out. -/
def Output.term : Output → Term
  | .value path => .path (.ofDotted path)
  | .fallback path _ literal => .call (.word "default") (Block.pathAndText path literal) []
  | .compares path equal _ literal =>
    .call (.word (operator equal)) (Block.pathAndText path literal) []

/-- What a block asks for. -/
def Condition.call : Condition → Term
  | .holds path => .call (.word "if") [.path (.ofDotted path)] []
  | .compares path equal _ literal =>
    .call (.word "if") [.call (.word (operator equal)) (Block.pathAndText path literal) []] []

/-- **The tag of a mark.** -/
def Mark.tag : Mark → Tag
  | .output out => .output out.term
  | .item _ [] => .output (.path (.ofDotted ⟨itself, []⟩))
  | .item _ (field :: fields) => .output (.path (.ofDotted ⟨field, fields⟩))
  | .branch condition => .openBlock condition.call []
  | .elif condition => .otherwiseBlock condition.call []
  | .otherwise => .otherwise
  | .endBranch => .closeBlock "if"
  | .loop _ list => .openBlock (.call (.word "each") [.path (.ofDotted list)] []) []
  | .endLoop => .closeBlock "each"

/-- A path can be read as what is put out: it does not go down from the current value, and it is no
alternative. -/
structure IsOutput (p : Dotted) : Prop where
  not_this : p.first.text ≠ "this".toList ∨ p.rest = []
  not_else : p.rest ≠ [] ∨ ¬ "else".toList <+: p.first.text

/-- What is put out is not read as something else. -/
def Output.IsReadable : Output → Prop
  | .value path => IsOutput path
  | .fallback path double literal => Block.IsArgument path ∧ Template.isLiteral double literal
  | .compares path _ double literal => Block.IsArgument path ∧ Template.isLiteral double literal

/-- **The names in a mark are not read as something else.** -/
def Mark.IsReadable : Mark → Prop
  | .output out => out.IsReadable
  | .item _ [] => True
  | .item _ (field :: fields) => IsOutput ⟨field, fields⟩
  | .branch condition => Block.IsArgument condition.path ∧ condition.isLiteral
  | .elif condition => Block.IsArgument condition.path ∧ condition.isPlain
  | .loop _ list => Block.IsArgument list
  | _ => True

end Template

namespace Block

open Runlist.Template
  (Mark Output Condition IsOutput closeBraces callStart singleQuoted operator isLiteral)

variable {c : Char} {s x : List Char}

namespace TagText

theorem finish?_braces (trimBefore : Bool) (tag : Tag) (x : List Char) :
    finish? trimBefore tag (closeBraces ++ x) = some (⟨tag, trimBefore, false⟩, x) := rfl

theorem finish?_blank (trimBefore : Bool) (tag : Tag) (x : List Char) :
    finish? trimBefore tag (' ' :: (closeBraces ++ x)) = some (⟨tag, trimBefore, false⟩, x) := rfl

/-- A tag does not end where a name or a dot stands. -/
theorem finish?_eq_none (trimBefore : Bool) (tag : Tag) (hc : isNameChar c ∨ c = '.')
    (s : List Char) : finish? trimBefore tag (c :: s) = none := by
  have hgap : skipGap (c :: s) = c :: s := by
    rcases hc with hc | rfl
    · exact skipGap_nameChar hc s
    · rfl
  have htilde : c ≠ '~' := by rintro rfl; exact absurd hc (by decide)
  have hbrace : '\x7d' ≠ c := by rintro rfl; exact absurd hc (by decide)
  have hsame : tilde (c :: s) = (false, c :: s) := by
    rw [tilde, hgap]
    split
    · rename_i heq
      exact absurd (List.cons.inj heq).1 htilde
    · rfl
  have hclose : Text.afterPrefix? "\x7d\x7d".toList (c :: s) = none := if_neg hbrace
  rw [finish?, closed?, hsame]
  dsimp only
  rw [hclose]
  rfl

/-- An alternative does not go on with a dot. -/
theorem otherwise?_word {w : List Char} (hw : ∀ c ∈ w, isNameChar c) (name : Ident)
    (s : List Char) : otherwise? false (w ++ '.' :: (name.text ++ s)) = none := by
  have hends : EndsArguments (skipGap ('.' :: (name.text ++ s))) := .inr (.inr ⟨name, s, rfl⟩)
  have hnames : Term.blockNames? (skipGap ('.' :: (name.text ++ s))) = none := rfl
  cases w with
  | nil =>
    have hblock : Term.block? (skipGap ('.' :: (name.text ++ s))) = none := rfl
    rw [otherwise?, List.nil_append, finish?_eq_none _ _ (.inr rfl), hblock]
    rfl
  | cons d w =>
    have hd := hw d List.mem_cons_self
    have hread : identifier? (d :: w ++ '.' :: (name.text ++ s)) =
        some (String.ofList (d :: w), '.' :: (name.text ++ s)) :=
      identifier?_append (fun c hc => isSymbol_of_isNameChar (hw c hc)) (List.cons_ne_nil _ _) rfl _
    have hblock : Term.block? (skipGap (d :: w ++ '.' :: (name.text ++ s))) =
        some (.call (.word (String.ofList (d :: w))) [] [], [], '.' :: (name.text ++ s)) := by
      rw [List.cons_append, skipGap_nameChar hd, ← List.cons_append, Term.block?, hread]
      dsimp only
      rw [hends.arguments]
      dsimp only
      rw [hnames]
    have hfinish (tag : Tag) : finish? false tag (d :: w ++ '.' :: (name.text ++ s)) = none :=
      finish?_eq_none _ _ (.inl hd) _
    rw [otherwise?, hfinish, hblock]
    exact finish?_eq_none _ _ (.inr rfl) _

/-- **A path is no alternative.** -/
theorem otherwise?_dotted {p : Dotted} (hp : p.rest ≠ [] ∨ ¬ "else".toList <+: p.first.text)
    (hc : c ∉ "else".toList) (s : List Char) :
    (Text.afterPrefix? "else".toList (p.text ++ c :: s)).bind (otherwise? false) = none := by
  cases h : Text.afterPrefix? "else".toList (p.text ++ c :: s) with
  | none => rfl
  | some r =>
    rw [Text.afterPrefix?_eq_some, Dotted.text] at h
    cases hrest : p.rest with
    | nil =>
      rw [hrest, List.flatMap_nil, List.append_nil] at h
      have hprefix : "else".toList.isPrefixOf (p.first.text ++ c :: s) := by
        rw [List.isPrefixOf_iff_prefix, h]
        exact List.prefix_append ..
      rw [Text.isPrefixOf_append_cons hc, List.isPrefixOf_iff_prefix] at hprefix
      exact absurd hprefix (hp.resolve_left (not_not_intro hrest))
    | cons field fields =>
      have hdots : p.first.text ++
          '.' :: (field.text ++ ((fields.flatMap fun name => '.' :: name.text) ++ c :: s)) =
          "else".toList ++ r := by
        rw [← h, hrest]
        simp only [List.flatMap_cons, List.append_assoc, List.cons_append]
      have hprefix : "else".toList.isPrefixOf
          (p.first.text ++
            '.' :: (field.text ++ ((fields.flatMap fun name => '.' :: name.text) ++ c :: s))) := by
        rw [List.isPrefixOf_iff_prefix, hdots]
        exact List.prefix_append ..
      rw [Text.isPrefixOf_append_cons (by decide), List.isPrefixOf_iff_prefix] at hprefix
      obtain ⟨w, hw⟩ := hprefix
      have hwchars : ∀ d ∈ w, isNameChar d :=
        fun d hd => p.first.isNameChar d (hw ▸ List.mem_append_right _ hd)
      rw [← hw, List.append_assoc] at hdots
      obtain rfl := List.append_cancel_left hdots
      exact otherwise?_word hwchars field _

/-! ## The tags of marks -/

theorem read?_nameChar (hc : isNameChar c) (s : List Char) :
    read? (c :: s) = plain? false (c :: s) ∧ read? (' ' :: c :: s) = plain? false (c :: s) := by
  have hne {d : Char} (hd : isNameChar d = false) : c ≠ d := by
    rintro rfl
    rw [hc] at hd
    cases hd
  have htilde {t : List Char} (ht : skipGap t = c :: s) : tilde t = (false, c :: s) := by
    rw [tilde, ht]
    split
    · rename_i heq
      exact absurd (List.cons.inj heq).1 (hne rfl)
    · rfl
  have hblank : skipGap (' ' :: c :: s) = c :: s := skipGap_nameChar hc s
  constructor
  · rw [read?]
    · rw [htilde (skipGap_nameChar hc s)]
    all_goals
      intro t heq
      exact hne rfl (List.cons.inj heq).1
  · rw [read?]
    · rw [htilde hblank]
    all_goals
      intro t heq
      exact absurd (List.cons.inj heq).1 (by decide)

theorem plain?_nameChar (hc : isNameChar c) (s : List Char) : plain? false (c :: s) =
    ((Text.afterPrefix? "else".toList (c :: s)).bind (otherwise? false)).or
      (output? false (c :: s)) := by
  have hne {d : Char} (hd : isNameChar d = false) : c ≠ d := by
    rintro rfl
    rw [hc] at hd
    cases hd
  rw [plain?]
  · cases (Text.afterPrefix? "else".toList (c :: s)).bind (otherwise? false) <;> rfl
  all_goals
    intro t heq
    exact absurd (List.cons.inj heq).1 (hne rfl)

/-- **A path that is put out**, with or without blanks around it. -/
theorem read?_dotted {p : Dotted} (hp : IsOutput p) (x : List Char) :
    read? (' ' :: (p.text ++ ' ' :: (closeBraces ++ x))) =
      some (⟨.output (.path (.ofDotted p)), false, false⟩, x) ∧
      read? (p.text ++ (closeBraces ++ x)) =
        some (⟨.output (.path (.ofDotted p)), false, false⟩, x) := by
  have hother {c : Char} (hc : c ∉ "else".toList) (s : List Char) :=
    otherwise?_dotted hp.not_else hc s
  have hhead {c : Char} (hc : isSymbol c = false ∧ Path.isSeparator c = false) {s : List Char}
      (hs : ∃ t, skipGap (c :: s) = '\x7d' :: t) := Term.head?_dotted hp.not_this hc hs
  have hblank := hother (c := ' ') (by decide) (closeBraces ++ x)
  have hblank' := hhead (c := ' ') ⟨rfl, rfl⟩ (s := closeBraces ++ x) ⟨_, rfl⟩
  have hbrace := hother (c := '\x7d') (by decide) ('\x7d' :: x)
  have hbrace' := hhead (c := '\x7d') ⟨rfl, rfl⟩ (s := '\x7d' :: x) ⟨_, rfl⟩
  have hclose : '\x7d' :: '\x7d' :: x = closeBraces ++ x := rfl
  rw [hclose] at hbrace hbrace'
  obtain ⟨d, t, htext, hd, -⟩ := p.exists_cons
  rw [htext, List.cons_append] at hblank hblank' hbrace hbrace' ⊢
  rw [(read?_nameChar hd _).2, plain?_nameChar hd, hblank, Option.none_or, output?, hblank',
    List.cons_append, (read?_nameChar hd _).1, plain?_nameChar hd, hbrace, Option.none_or,
    output?, hbrace']
  exact ⟨finish?_blank .., finish?_braces ..⟩

/-- A literal can be quoted. -/
theorem isQuotable_of_isLiteral {double : Bool} {literal : List Char}
    (h : isLiteral double literal) : IsQuotable literal := by
  intro c hc
  obtain ⟨-, hsingle, hslash, hcontrol, -⟩ := Template.isLiteral_char h hc
  exact ⟨hslash, hsingle, hcontrol⟩

/-- A call that is put out is read up to its end. -/
theorem read?_call (helper : Ident)
    (hhelper : helper.text = "default".toList ∨ helper.text = "eq".toList ∨
    helper.text = "ne".toList) {p : Dotted} (hp : IsArgument p) {literal : List Char}
      (hliteral : IsQuotable literal)
    (x : List Char) :
    read? (callStart (String.ofList helper.text) p.text ++ singleQuoted literal ++
      (closeBraces ++ x)) =
    some (⟨.output (.call (.word (String.ofList helper.text)) (pathAndText p literal) []), false,
      false⟩, x) := by
  have hsplit :
      callStart (String.ofList helper.text) p.text ++ singleQuoted literal ++ (closeBraces ++ x) =
      helper.text ++ ' ' :: (p.text ++ ' ' :: (singleQuoted literal ++ '\x7d' :: '\x7d' :: x)) := by
    have hclose : closeBraces = ['\x7d', '\x7d'] := rfl
    rw [callStart, String.toList_ofList, hclose]
    simp only [List.append_assoc, List.cons_append, List.nil_append]
  have helse (u : List Char) :
      Text.afterPrefix? "else".toList (helper.text ++ ' ' :: u) = none := by
    rcases hhelper with h | h | h <;> rw [h] <;> rfl
  have hhead := Term.head?_pathAndText helper hp hliteral ('\x7d' :: x)
  obtain ⟨d, t, htext, hd, -⟩ := helper.exists_cons
  rw [hsplit]
  generalize p.text ++ ' ' :: (singleQuoted literal ++ '\x7d' :: '\x7d' :: x) = u at hhead ⊢
  have hother := helse u
  rw [htext, List.cons_append] at hother hhead ⊢
  rw [(read?_nameChar hd _).1, plain?_nameChar hd, hother, Option.bind_none, Option.none_or,
    output?, hhead]
  exact finish?_braces ..

/-- **What is put out is read** up to the end of its tag. -/
theorem read?_output {out : Output} (h : out.IsReadable) (x : List Char) :
    read? (out.tagText ++ (closeBraces ++ x)) = some (⟨.output out.term, false, false⟩, x) := by
  cases out with
  | value path =>
    have htag : (Output.value path).tagText = ' ' :: path.text ++ [' '] := rfl
    rw [htag, List.append_assoc, List.cons_append]
    exact (read?_dotted h x).1
  | fallback path double literal =>
    exact read?_call ⟨"default".toList, by decide⟩ (.inl rfl) h.1 (isQuotable_of_isLiteral h.2) x
  | compares path equal double literal =>
    cases equal with
    | true =>
      exact read?_call ⟨"eq".toList, by decide⟩ (.inr (.inl rfl)) h.1
        (isQuotable_of_isLiteral h.2) x
    | false =>
      exact read?_call ⟨"ne".toList, by decide⟩ (.inr (.inr rfl)) h.1
        (isQuotable_of_isLiteral h.2) x

/-- The start of a block is read up to its end. -/
theorem read?_opened {u : List Char} {call : Term} (helper : List Char)
    (hhelper : helper = "if".toList ∨ helper = "each".toList)
    (h : Term.block? (helper ++ ' ' :: u) = some (call, [], closeBraces ++ x)) :
    read? ('#' :: (helper ++ ' ' :: u)) = some (⟨.openBlock call [], false, false⟩, x) := by
  have hplain : read? ('#' :: (helper ++ ' ' :: u)) =
      (Term.block? (helper ++ ' ' :: u)).bind fun found =>
        finish? false (.openBlock found.1 found.2.1) found.2.2 := by
    rcases hhelper with rfl | rfl <;> rfl
  rw [hplain, h]
  exact finish?_braces ..

theorem read?_branch {condition : Condition} (hp : IsArgument condition.path)
    (hliteral : condition.isLiteral) (x : List Char) :
    read? ((Mark.branch condition).tagText ++ (closeBraces ++ x)) =
      some (⟨(Mark.branch condition).tag, false, false⟩, x) := by
  cases condition with
  | holds path =>
    exact read?_opened (u := path.text ++ (closeBraces ++ x)) "if".toList (.inl rfl)
      (Term.block?_dotted ⟨"if".toList, by decide⟩ hp ('\x7d' :: x))
  | compares path equal double literal =>
    have htag : (Mark.branch (.compares path equal double literal)).tagText =
        "#if (".toList ++
          (callStart (if equal then "eq" else "ne") path.text ++ (singleQuoted literal ++ [')'])) :=
        rfl
    have hstart :
        (Mark.branch (.compares path equal double literal)).tagText ++ (closeBraces ++ x) =
        '#' :: ("if".toList ++ ' ' :: '(' :: ((if equal then "eq" else "ne").toList ++ ' ' ::
          (path.text ++ ' ' :: (singleQuoted literal ++ ')' :: '\x7d' :: '\x7d' :: x)))) := by
      have hif : "#if (".toList = '#' :: ("if".toList ++ [' ', '(']) := rfl
      have hclose : closeBraces = ['\x7d', '\x7d'] := rfl
      rw [htag, callStart, hif, hclose]
      simp only [List.append_assoc, List.cons_append, List.nil_append]
    have hquotable : IsQuotable literal := isQuotable_of_isLiteral hliteral
    rw [hstart]
    refine read?_opened "if".toList (.inl rfl) ?_
    cases equal with
    | true =>
      exact Term.block?_pathAndText ⟨"if".toList, by decide⟩ ⟨"eq".toList, by decide⟩ hp
        hquotable ('\x7d' :: x)
    | false =>
      exact Term.block?_pathAndText ⟨"if".toList, by decide⟩ ⟨"ne".toList, by decide⟩ hp
        hquotable ('\x7d' :: x)

/-- An alternative that is a block of its own is read up to its end. -/
theorem read?_elif {path : Dotted} (hp : IsArgument path) (x : List Char) :
    read? ("else if ".toList ++ (path.text ++ (closeBraces ++ x))) =
      some (⟨(Mark.elif (.holds path)).tag, false, false⟩, x) := by
  have hblock : Term.block? ("if".toList ++ ' ' :: (path.text ++ (closeBraces ++ x))) =
      some ((Condition.holds path).call, [], closeBraces ++ x) :=
    Term.block?_dotted ⟨"if".toList, by decide⟩ hp ('\x7d' :: x)
  generalize path.text ++ (closeBraces ++ x) = u at hblock ⊢
  have hread : read? ("else if ".toList ++ u) = plain? false ("else if ".toList ++ u) :=
    (read?_nameChar (c := 'e') rfl ("lse if ".toList ++ u)).1
  have hplain : plain? false ("else if ".toList ++ u) =
      ((Text.afterPrefix? "else".toList ("else if ".toList ++ u)).bind
      (otherwise? false)).or (output? false ("else if ".toList ++ u)) :=
    plain?_nameChar (c := 'e') rfl ("lse if ".toList ++ u)
  have hafter : Text.afterPrefix? "else".toList ("else if ".toList ++ u) =
      some (' ' :: ("if".toList ++ ' ' :: u)) := rfl
  have hgap : skipGap (' ' :: ("if".toList ++ ' ' :: u)) = "if".toList ++ ' ' :: u := rfl
  have hfinish (tag : Tag) : finish? false tag (' ' :: ("if".toList ++ ' ' :: u)) = none := rfl
  rw [hread, hplain, hafter, Option.bind_some, otherwise?, hfinish, hgap, hblock]
  dsimp only
  rw [Option.bind_some, finish?_braces, Option.some_or]
  rfl

/-- **The tag of a mark is read whole.** -/
theorem read?_mark {m : Mark} (hm : m.IsReadable) (x : List Char) :
    read? (m.tagText ++ (closeBraces ++ x)) = some (⟨m.tag, false, false⟩, x) := by
  cases m with
  | output out => exact read?_output hm x
  | item name fields =>
    cases fields with
    | nil => exact (read?_dotted (p := ⟨itself, []⟩) ⟨.inr rfl, .inr (by decide)⟩ x).2
    | cons field fields => exact (read?_dotted hm x).2
  | branch condition => exact read?_branch hm.1 hm.2 x
  | elif condition =>
    cases condition with
    | holds path =>
      have htag : (Mark.elif (.holds path)).tagText = "else if ".toList ++ path.text := rfl
      rw [htag, List.append_assoc]
      exact read?_elif hm.1 x
    | compares path equal double literal => cases hm.2
  | otherwise => rfl
  | endBranch => rfl
  | loop name list =>
    exact read?_opened (u := list.text ++ (closeBraces ++ x)) "each".toList (.inr rfl)
      (Term.block?_dotted ⟨"each".toList, by decide⟩ hm ('\x7d' :: x))
  | endLoop => rfl

end TagText

end Block

end Runlist
