import Runlist.Proofs.Template.Phrase
import Runlist.Proofs.Template.Referenced

/-!
# Parameters are converted mark by mark

While a parameter is converted each of its marks is written in one of two ways, as in the parameter
or as in the block template, and the text between the marks stays. A rule takes the marks of one
kind and passes over all others.

* `Mark.target`: how a mark is written in a block template.
* `replaceAll_write`: **a rule that rewrites marks rewrites a text mark by mark.**
-/

namespace Runlist

open Text (isBlank)

/-! ## Characters of names -/

theorem isNameChar_bounds {c : Char} (h : isNameChar c) :
    48 ≤ c.toNat ∧ c.toNat ≤ 57 ∨ 65 ≤ c.toNat ∧ c.toNat ≤ 90 ∨ 97 ≤ c.toNat ∧ c.toNat ≤ 122 ∨
    c.toNat = 95 := by
  delta isNameChar Char.isAlphanum Char.isAlpha Char.isUpper Char.isLower Char.isDigit at h
  simp only [Bool.or_eq_true, Bool.and_eq_true, decide_eq_true_eq, beq_iff_eq,
    UInt32.le_iff_toNat_le] at h
  rcases h with ((h | h) | h) | rfl
  · exact .inr (.inl h)
  · exact .inr (.inr (.inl h))
  · exact .inl h
  · exact .inr (.inr (.inr rfl))

theorem isBlank_of_isNameChar {c : Char} (h : isNameChar c) : isBlank c = false := by
  have := isNameChar_bounds h
  simp only [isBlank, Bool.or_eq_false_iff, Bool.and_eq_false_iff, decide_eq_false_iff_not,
    beq_eq_false_iff_ne]
  omega

theorem isWord_of_isNameChar {c : Char} (h : isNameChar c) : Text.isWord c := by
  have := isNameChar_bounds h
  rw [Text.isWord, if_pos (by omega)]
  exact h

namespace Ident

variable (name : Ident)

theorem isNameChar : ∀ c ∈ name.text, isNameChar c := by
  have hvalid := name.valid
  intro c hc
  match htext : name.text with
  | [] => rw [htext] at hc; cases hc
  | d :: s =>
    rw [htext, isIdent, Bool.and_eq_true, List.all_eq_true] at hvalid
    rw [htext] at hc
    exact hvalid.2 c hc

theorem exists_cons : ∃ c s, name.text = c :: s ∧ Runlist.isNameChar c ∧ c.isDigit = false := by
  have hvalid := name.valid
  match htext : name.text with
  | [] => rw [htext] at hvalid; cases hvalid
  | c :: s =>
    refine ⟨c, s, rfl, name.isNameChar c (htext ▸ List.mem_cons_self), ?_⟩
    rw [htext, isIdent, Bool.and_eq_true, Bool.not_eq_true'] at hvalid
    exact hvalid.1

theorem ne_nil : name.text ≠ [] := by
  obtain ⟨c, s, htext, -⟩ := name.exists_cons
  rw [htext]
  exact List.cons_ne_nil _ _

end Ident

/-- The characters of dotted paths. -/
def isDottedChar (c : Char) : Bool := isNameChar c || c == '.'

namespace Dotted

variable (p : Dotted)

theorem isDottedChar : ∀ c ∈ p.text, isDottedChar c := by
  intro c hc
  rw [Runlist.isDottedChar, Bool.or_eq_true, beq_iff_eq]
  rcases List.mem_append.1 hc with hc | hc
  · exact .inl (p.first.isNameChar c hc)
  · obtain ⟨name, -, hc⟩ := List.mem_flatMap.1 hc
    rcases List.mem_cons.1 hc with rfl | hc
    · exact .inr rfl
    · exact .inl (name.isNameChar c hc)

theorem exists_cons : ∃ c s, p.text = c :: s ∧ isNameChar c ∧ c.isDigit = false := by
  obtain ⟨c, s, htext, hc⟩ := p.first.exists_cons
  exact ⟨c, s ++ p.rest.flatMap fun name => '.' :: name.text, by rw [text, htext]; rfl, hc⟩

theorem ne_nil : p.text ≠ [] := by
  obtain ⟨c, s, htext, -⟩ := p.exists_cons
  rw [htext]
  exact List.cons_ne_nil _ _

end Dotted

/-- A name that starts like another goes on with a character of names. -/
theorem ident_longer {s word : List Char} (hword : ∀ c ∈ word, isNameChar c) {other : Ident}
    (hne : other.text ≠ word) {c : Char} (hc : isNameChar c = false) {r : List Char}
    (h : other.text ++ c :: s = word ++ r) : ∃ d r', r = d :: r' ∧ isNameChar d := by
  have htake := congrArg (List.takeWhile isNameChar) h
  rw [Text.takeWhile_append_cons other.isNameChar hc, List.takeWhile_append_of_pos hword] at htake
  cases r with
  | nil => exact absurd (htake.trans (List.append_nil _)) hne
  | cons d r =>
    cases hd : isNameChar d with
    | true => exact ⟨d, r, rfl, hd⟩
    | false =>
      rw [List.takeWhile_cons, hd] at htake
      exact absurd (htake.trans (List.append_nil _)) hne

/-- What follows the first name of a path in a text: a dot or what follows the path. -/
theorem Dotted.exists_after_first (path : Dotted) {c : Char} (hc : isNameChar c = false)
    (s : List Char) :
    ∃ d t, path.text ++ c :: s = path.first.text ++ d :: t ∧ isNameChar d = false := by
  rw [Dotted.text]
  cases path.rest with
  | nil => exact ⟨c, s, by rw [List.flatMap_nil, List.append_nil], hc⟩
  | cons field fields =>
    refine ⟨'.', field.text ++ (fields.flatMap fun name => '.' :: name.text) ++ c :: s, ?_, rfl⟩
    simp only [List.flatMap_cons, List.append_assoc, List.cons_append]

/-- A path that does not start with a word, and yet with its characters, goes on with a character of
names. -/
theorem Dotted.longer {s word : List Char} (hword : ∀ c ∈ word, isNameChar c) {path : Dotted}
    (hne : path.first.text ≠ word) {c : Char} (hc : isNameChar c = false) {r : List Char}
    (h : Text.afterPrefix? word (path.text ++ c :: s) = some r) :
    ∃ d r', r = d :: r' ∧ isNameChar d := by
  obtain ⟨d, t, hd, hd'⟩ := path.exists_after_first hc s
  rw [Text.afterPrefix?_eq_some, hd] at h
  exact ident_longer hword hne hd' h

namespace Template

variable {rule : Rule} {symbols : List Symbol} {s : List Char}

theorem isPathChar_of_isDottedChar {c : Char} (h : isDottedChar c) : isPathChar c := by
  rw [isDottedChar, Bool.or_eq_true] at h
  rw [isPathChar, Bool.or_eq_true]
  exact h.imp_left isWord_of_isNameChar

theorem isBlank_of_isDottedChar {c : Char} (h : isDottedChar c) : isBlank c = false := by
  rw [isDottedChar, Bool.or_eq_true, beq_iff_eq] at h
  rcases h with h | rfl
  · exact isBlank_of_isNameChar h
  · rfl

theorem plain_dotted (p : Dotted) : Plain p.text :=
  plain_path fun c hc => isPathChar_of_isDottedChar (p.isDottedChar c hc)

/-- A name, or a path, is not trimmed. -/
theorem trimLeft_nameChar {c : Char} (hc : isNameChar c) (s : List Char) :
    Text.trimLeft (c :: s) = c :: s := by
  rw [Text.trimLeft, List.dropWhile_cons, isBlank_of_isNameChar hc]
  rfl

theorem trimLeft_ident (name : Ident) (s : List Char) :
    Text.trimLeft (name.text ++ s) = name.text ++ s := by
  obtain ⟨c, t, htext, hc, -⟩ := name.exists_cons
  rw [htext]
  exact trimLeft_nameChar hc (t ++ s)

theorem trimLeft_dotted (p : Dotted) (s : List Char) :
    Text.trimLeft (p.text ++ s) = p.text ++ s := by
  obtain ⟨c, t, htext, hc, -⟩ := p.exists_cons
  rw [htext]
  exact trimLeft_nameChar hc (t ++ s)

/-- **A path is read up to the first character that is none of a path.** -/
theorem path?_dotted (p : Dotted) {c : Char} (hc : isPathChar c = false) (s : List Char) :
    path? (p.text ++ c :: s) = some (p.text, c :: s) := by
  have hchars : ∀ d ∈ p.text, isPathChar d :=
    fun d hd => isPathChar_of_isDottedChar (p.isDottedChar d hd)
  rw [path?, Text.takeWhile_append_cons hchars hc, Text.dropWhile_append_cons hchars hc]
  split
  · exact absurd ‹p.text = []› p.ne_nil
  · rfl

theorem word?_ident (name : Ident) {c : Char} (hc : Text.isWord c = false) (s : List Char) :
    word? (name.text ++ c :: s) = some (name.text, c :: s) := by
  have hchars : ∀ d ∈ name.text, Text.isWord d :=
    fun d hd => isWord_of_isNameChar (name.isNameChar d hd)
  rw [word?, Text.takeWhile_append_cons hchars hc, Text.dropWhile_append_cons hchars hc]
  split
  · exact absurd ‹name.text = []› name.ne_nil
  · rfl

/-- A quoted text is read up to its quote. -/
theorem quotedText?_append {quote : Char} (hquote : quote = '\'' ∨ quote = '"') {text : List Char}
    (htext : quote ∉ text) (s : List Char) : quotedText? (quote :: (text ++ quote :: s)) =
      some (text, s) := by
  have hne : ∀ c ∈ text, (c != quote) = true := fun c hc => bne_iff_ne.2 fun h => htext (h ▸ hc)
  have hisquote : (quote == '\'' || quote == '"') = true := by rcases hquote with rfl | rfl <;> rfl
  rw [quotedText?, if_pos hisquote, Text.dropWhile_append_cons hne (bne_self_eq_false _),
    Text.takeWhile_append_cons hne
    (bne_self_eq_false _)]

/-- A condition that is a path is read up to the end of its statement. -/
theorem condition?_dotted {u : List Char} (hu : ∀ c ∈ u, isDottedChar c) (hne : u ≠ [])
    (s : List Char) : condition? (u ++ ' ' :: (closing ++ s)) = some (u, s) := by
  induction u with
  | nil => exact absurd rfl hne
  | cons c u ih =>
    have hc : (c == '\n') = false :=
      beq_eq_false_iff_ne.2 (by rintro rfl; exact absurd (hu _ List.mem_cons_self) (by decide))
    rw [List.cons_append, condition?, hc]
    cases u with
    | nil => rfl
    | cons d u =>
      have hd := hu d (List.mem_cons_of_mem _ List.mem_cons_self)
      have hdash : skipDash (d :: (u ++ ' ' :: (closing ++ s))) =
          d :: (u ++ ' ' :: (closing ++ s)) := by
        have hne : d ≠ '-' := by rintro rfl; exact absurd hd (by decide)
        unfold skipDash
        split <;> simp_all
      have hclosing : afterClosing? (d :: u ++ ' ' :: (closing ++ s)) = none := by
        have hpercent : '%' ≠ d := by rintro rfl; exact absurd hd (by decide)
        rw [List.cons_append, afterClosing?, Text.trimLeft, List.dropWhile_cons,
          isBlank_of_isDottedChar hd]
        simp only [Bool.false_eq_true, if_false, hdash]
        exact if_neg hpercent
      rw [hclosing, ih (fun c hc => hu c (List.mem_cons_of_mem _ hc)) (List.cons_ne_nil _ _)]
      rfl

/-! ## How marks are written in block templates -/

/-- What stands between the braces of the tag that puts something out. -/
def Output.tagText : Output → List Char
  | value path => ' ' :: path.text ++ [' ']
  | fallback path _ literal => callStart "default" path.text ++ singleQuoted literal
  | compares path equal _ literal =>
    callStart (if equal then "eq" else "ne") path.text ++ singleQuoted literal

/-- What stands between the braces of the tag that a mark becomes. -/
def Mark.tagText : Mark → List Char
  | .output out => out.tagText
  | .item _ [] => "this".toList
  | .item _ (field :: fields) => (Dotted.mk field fields).text
  | .branch (.holds path) => "#if ".toList ++ path.text
  | .branch (.compares path equal _ literal) =>
    "#if (".toList ++
      (callStart (if equal then "eq" else "ne") path.text ++ (singleQuoted literal ++ [')']))
  | .elif condition => "else if ".toList ++ condition.text
  | .otherwise => "else".toList
  | .endBranch => "/if".toList
  | .loop _ list => "#each ".toList ++ list.text
  | .endLoop => "/each".toList

/-- **A mark as it is written in a block template.** -/
def Mark.target (mark : Mark) : List Char := Template.reference mark.tagText

/-- **The rule that takes a mark**, in the order of the rules. The rules for variables share a
number, and no rule takes a value that is put out, which stays as it is. -/
def Mark.turn : Mark → Nat
  | .output (.fallback ..) => 1
  | .branch (.compares ..) => 3
  | .branch (.holds _) => 4
  | .elif _ => 5
  | .otherwise => 6
  | .endBranch => 7
  | .loop .. => 8
  | .endLoop => 9
  | .item .. => 10
  | .output (.compares ..) => 11
  | .output (.value _) => 12

/-- A mark written in one of two ways. -/
def Mark.spelled (done : Mark → Bool) (mark : Mark) : List Char :=
  if done mark then mark.target else mark.source

/-! ## Rules along symbols -/

/-- How a mark starts: with two braces and something plain, or with a brace and a percent sign. -/
def StartsMark (text : List Char) : Prop :=
  ∃ c u, text = '\x7b' :: c :: u ∧ '\x7b' ∉ u ∧ (c = '%' ∨ c = '\x7b' ∧ u.head?.any isInside)

/-- No other mark starts at the second character of one. -/
theorem not_opens_second {c : Char} {u : List Char}
    (hc : c = '%' ∨ c = '\x7b' ∧ u.head?.any isInside) : ¬ Opens (c :: (u ++ s)) := by
  intro hopens
  rcases hc with rfl | ⟨rfl, hhead⟩
  · exact absurd hopens.head (by decide)
  · match u, hhead with
    | d :: u, hhead =>
      have hd := isInside_iff.1 hhead
      rcases hopens with h | h
      · exact hd.1 (List.cons_prefix_cons.1 (List.cons_prefix_cons.1 h).2).1.symm
      · exact hd.2.2 (List.cons_prefix_cons.1 (List.cons_prefix_cons.1 h).2).1.symm

theorem replaceAll_pass_mark (hbraced : Braced rule) {text : List Char} (hstarts : StartsMark text)
    (hpass : rule (text ++ s) = none) : replaceAll rule (text ++ s) =
      text ++ replaceAll rule s := by
  obtain ⟨c, u, rfl, hu, hc⟩ := hstarts
  have hsecond : rule (c :: (u ++ s)) = none := hbraced.eq_none (not_opens_second hc)
  rw [List.cons_append] at hpass ⊢
  rw [replaceAll_pass hpass, List.cons_append, replaceAll_pass hsecond,
    replaceAll_append hbraced hu]
  rfl

theorem replaceAll_take_mark {text text' : List Char} (hstarts : StartsMark text)
    (htake : rule (text ++ s) = some (text', s)) : replaceAll rule (text ++ s) =
      text' ++ replaceAll rule s := by
  obtain ⟨c, u, rfl, -⟩ := hstarts
  rw [List.cons_append] at htake ⊢
  exact replaceAll_take htake

/-- A rule goes through symbols: it rewrites each mark and leaves what stands between them. -/
theorem replaceAll_write (hbraced : Braced rule) {spell spell' : Mark → List Char}
    (htext : ∀ c, .char c ∈ symbols → c ≠ '\x7b')
    (hmark : ∀ m, .mark m ∈ symbols →
      ∀ s, replaceAll rule (spell m ++ s) = spell' m ++ replaceAll rule s) :
    replaceAll rule (write spell symbols) = write spell' symbols := by
  induction symbols with
  | nil => rfl
  | cons symbol symbols ih =>
    have hrest :=
      ih (fun c hc => htext c (List.mem_cons_of_mem _ hc)) fun m hm =>
        hmark m (List.mem_cons_of_mem _ hm)
    cases symbol with
    | char c =>
      have hc := htext c List.mem_cons_self
      rw [write, write, replaceAll_pass (hbraced.eq_none fun hopens => hc hopens.head), hrest]
    | mark m => rw [write, write, hmark m List.mem_cons_self, hrest]

/-- **A rule takes the marks of one kind** and passes over the others, whether they are still
written as in a parameter or already as in a block template. -/
theorem replaceAll_spelled (hbraced : Braced rule) {done hit : Mark → Bool}
    (htext : ∀ c, .char c ∈ symbols → c ≠ '\x7b')
    (hstarts : ∀ m, .mark m ∈ symbols → StartsMark m.source ∧ StartsMark m.target)
    (hhit : ∀ m, .mark m ∈ symbols → done m = false → hit m →
      ∀ s, rule (m.source ++ s) = some (m.target, s))
    (hsource : ∀ m, .mark m ∈ symbols → done m = false → hit m = false →
      ∀ s, rule (m.source ++ s) = none)
    (htarget : ∀ m, .mark m ∈ symbols → done m → ∀ s,
      rule (m.target ++ s) = none ∨ rule (m.target ++ s) = some (m.target, s)) :
    replaceAll rule (write (Mark.spelled done) symbols) =
      write (Mark.spelled fun m => done m || hit m) symbols := by
  refine replaceAll_write hbraced htext fun m hm s => ?_
  cases hdone : done m with
  | true =>
    rw [Mark.spelled, Mark.spelled, hdone, Bool.true_or, if_pos rfl]
    rcases htarget m hm hdone s with hpass | htake
    · exact replaceAll_pass_mark hbraced (hstarts m hm).2 hpass
    · exact replaceAll_take_mark (hstarts m hm).2 htake
  | false =>
    rw [Mark.spelled, Mark.spelled, hdone, Bool.false_or, if_neg Bool.false_ne_true]
    cases hit' : hit m with
    | true =>
      rw [if_pos rfl]
      exact replaceAll_take_mark (hstarts m hm).1 (hhit m hm hdone hit' s)
    | false =>
      rw [if_neg Bool.false_ne_true]
      exact replaceAll_pass_mark hbraced (hstarts m hm).1 (hsource m hm hdone hit' s)

end Template

end Runlist
