import Runlist.Block.Term
import Runlist.Proofs.Template.Spelled

/-!
# Terms of converted parameters

What a converted parameter holds between braces is a path, or a call of a helper with a path and a
quoted text.

* `Path.ofDotted`: the path that a dotted path is read as.
* `Path.read?_dotted`, `argument?_dotted`, `argument?_word`: paths and quoted texts are read whole.
* `EndsArguments.argument?`: nothing is read at the end of a tag.
* `arguments_pathAndText`: **the arguments of a call.**
* `Term.head?_dotted`, `Term.head?_pathAndText`, `Term.block?_dotted`, `Term.block?_pathAndText`:
  what output and blocks hold.
-/

open Runlist.Template (singleQuoted)

namespace Runlist.Block

variable {c : Char} {n : Nat} {s : List Char}

/-! ## Names -/

theorem isSymbol_of_isNameChar (h : isNameChar c) : isSymbol c := by
  rw [isNameChar, Bool.or_eq_true] at h
  simp only [isSymbol, Bool.or_eq_true]
  rcases h with h | h
  · exact .inl (.inl (.inl (.inl (.inl h))))
  · exact .inl (.inl (.inl (.inl (.inr h))))

theorem isSeparator_of_isNameChar (h : isNameChar c) : Path.isSeparator c = false := by
  have := isNameChar_bounds h
  rw [Path.isSeparator, Bool.or_eq_false_iff, beq_eq_false_iff_ne, beq_eq_false_iff_ne]
  constructor <;> rintro rfl <;> exact absurd h (by decide)

theorem isGap_of_isNameChar (h : isNameChar c) : isGap c = false := by
  simp only [isGap, Bool.or_eq_false_iff, beq_eq_false_iff_ne]
  refine ⟨⟨⟨?_, ?_⟩, ?_⟩, ?_⟩ <;> rintro rfl <;> exact absurd h (by decide)

theorem skipGap_nameChar (h : isNameChar c) (s : List Char) : skipGap (c :: s) = c :: s := by
  rw [skipGap, List.dropWhile_cons, isGap_of_isNameChar h]
  rfl

theorem skipGap_dotted (p : Dotted) (s : List Char) : skipGap (p.text ++ s) = p.text ++ s := by
  obtain ⟨d, t, htext, hd, -⟩ := p.exists_cons
  rw [htext]
  exact skipGap_nameChar hd (t ++ s)

theorem before_append (u s : List Char) : before (u ++ s) s = u := by
  rw [before, List.length_append, Nat.add_sub_cancel]
  exact List.take_left

/-- **A name is read whole.** -/
theorem identifier?_append {word : List Char} (hword : ∀ d ∈ word, isSymbol d) (hne : word ≠ [])
    (hc : isSymbol c = false) (s : List Char) : identifier? (word ++ c :: s) =
      some (String.ofList word, c :: s) := by
  rw [identifier?, Text.takeWhile_append_cons hword hc, Text.dropWhile_append_cons hword hc]
  split
  · exact absurd rfl hne
  · rfl

theorem identifier?_ident (name : Ident) (hc : isSymbol c = false) (s : List Char) :
    identifier? (name.text ++ c :: s) = some (String.ofList name.text, c :: s) :=
  identifier?_append (fun d hd => isSymbol_of_isNameChar (name.isNameChar d hd)) name.ne_nil hc s

theorem identifier?_eq_none (hc : isSymbol c = false) (s : List Char) :
    identifier? (c :: s) = none := by
  rw [identifier?, List.takeWhile_cons, hc]
  rfl

/-! ## Paths -/

namespace Path

/-- The path that a dotted path is read as; the word for the current value is none of its names. -/
def ofDotted (p : Dotted) : Path :=
  ⟨String.ofList p.text, false, false, 0, p.keys.filter (· != "this")⟩

theorem item?_ident (name : Ident) (hc : isSymbol c = false) (s : List Char) :
    item? (name.text ++ c :: s) = some (String.ofList name.text, c :: s) := by
  have hread := identifier?_ident name hc s
  obtain ⟨d, t, htext, hd, -⟩ := name.exists_cons
  rw [htext] at hread ⊢
  rw [List.cons_append] at hread ⊢
  rw [item?]
  · exact hread
  · intro rest heq
    obtain ⟨rfl, -⟩ := List.cons.inj heq
    exact absurd hd (by decide)

/-- The names after the first are read up to the end of the path. -/
theorem items_fields (fields : List Ident) (hc : isSymbol c = false ∧ isSeparator c = false)
    (s : List Char) (h : fields.length ≤ n) :
    items n ((fields.flatMap fun name => '.' :: name.text) ++ c :: s) =
    (fields.map fun name => String.ofList name.text, c :: s) := by
  induction fields generalizing n with
  | nil =>
    rw [List.flatMap_nil, List.nil_append, List.map_nil]
    cases n with
    | zero => rfl
    | succ n =>
      simp only [items, hc.2]
      rfl
  | cons field fields ih =>
    cases n with
    | zero => exact absurd h (Nat.not_succ_le_zero _)
    | succ n =>
      have hnext : ∃ d t, (fields.flatMap fun name => '.' :: name.text) ++ c :: s = d :: t ∧
          isSymbol d = false := by
        cases fields with
        | nil => exact ⟨c, s, rfl, hc.1⟩
        | cons next fields => exact ⟨'.', _, rfl, rfl⟩
      obtain ⟨d, t, hd, hsymbol⟩ := hnext
      have hrest := ih (Nat.le_of_succ_le_succ h)
      have hdot : isSeparator '.' = true := rfl
      rw [hd] at hrest
      rw [List.flatMap_cons, List.append_assoc, List.cons_append, hd, items]
      simp only [hdot, if_true, item?_ident field hsymbol, hrest, List.map_cons]

/-- No word with a separator behind it is passed over, unless the path starts with it. -/
theorem afterWord?_dotted {word : String} (hword : ∀ c ∈ word.toList, isNameChar c) {p : Dotted}
    (hp : p.first.text ≠ word.toList ∨ p.rest = [])
    (hc : isNameChar c = false ∧ isSeparator c = false) (s : List Char) :
    afterWord? word.toList (p.text ++ c :: s) = none := by
  rw [afterWord?]
  by_cases hne : p.first.text = word.toList
  · have htext : p.text = word.toList := by
      rw [Dotted.text, hp.resolve_left (not_not_intro hne), hne]
      exact List.append_nil _
    rw [htext, Text.afterPrefix?_append]
    exact if_neg (Bool.eq_false_iff.1 hc.2)
  · cases h : Text.afterPrefix? word.toList (p.text ++ c :: s) with
    | none => rfl
    | some r =>
      obtain ⟨d, r', rfl, hd⟩ := Dotted.longer hword hne hc.1 h
      exact if_neg (Bool.eq_false_iff.1 (isSeparator_of_isNameChar hd))

theorem climb_of_ne {d : Char} (hd : d ≠ '.') (n : Nat) (s : List Char) :
    climb n (d :: s) = (0, d :: s) := by
  cases n with
  | zero => rfl
  | succ n =>
    rw [climb]
    exact fun _ _ heq => hd (List.cons.inj heq).1

theorem length_fields (fields : List Ident) :
    fields.length ≤ (fields.flatMap fun name => '.' :: name.text).length := by
  induction fields with
  | nil => exact Nat.le_refl _
  | cons field fields ih =>
    rw [List.flatMap_cons, List.length_append, List.length_cons, List.length_cons]
    omega

/-- **A path is read whole.** -/
theorem read?_dotted {p : Dotted} (hp : p.first.text ≠ "this".toList ∨ p.rest = [])
    (hc : isSymbol c = false ∧ isSeparator c = false) (s : List Char) :
    read? (p.text ++ c :: s) = some (ofDotted p, c :: s) := by
  have hname : isNameChar c = false := by
    cases h : isNameChar c with
    | false => rfl
    | true => exact absurd (isSymbol_of_isNameChar h) (Bool.eq_false_iff.1 hc.1)
  have hthis : afterWord? "this".toList (p.text ++ c :: s) = none :=
    afterWord?_dotted (by decide) hp ⟨hname, hc.2⟩ s
  have hfields :=
    items_fields p.rest hc s
      (n := ((p.rest.flatMap fun name => '.' :: name.text) ++ c :: s).length) (by
    rw [List.length_append]
    exact (length_fields p.rest).trans (Nat.le_add_right _ _))
  have hfirst : item? (p.text ++ c :: s) =
      some (String.ofList p.first.text,
        (p.rest.flatMap fun name => '.' :: name.text) ++ c :: s) := by
    rw [Dotted.text, List.append_assoc]
    cases p.rest with
    | nil => exact item?_ident p.first hc.1 s
    | cons field fields => exact item?_ident p.first rfl _
  have hbefore : before (p.text ++ c :: s) (c :: s) = p.text := before_append p.text (c :: s)
  obtain ⟨d, t, htext, hd, -⟩ := p.exists_cons
  have hdot : d ≠ '.' := by rintro rfl; exact absurd hd (by decide)
  have hat : d ≠ '@' := by rintro rfl; exact absurd hd (by decide)
  have hcurrent : Text.afterPrefix? "./".toList (p.text ++ c :: s) = none := by
    rw [htext]
    exact if_neg (Ne.symm hdot)
  have hroot : afterWord? "@root".toList (p.text ++ c :: s) = none := by
    have hprefix : Text.afterPrefix? "@root".toList (p.text ++ c :: s) = none := by
      rw [htext]
      exact if_neg (Ne.symm hat)
    rw [afterWord?, hprefix]
  have hlocal : ((p.text ++ c :: s).head? == some '@') = false := by
    rw [htext, List.cons_append, List.head?_cons, beq_eq_false_iff_ne]
    exact fun h => hat (Option.some.inj h)
  have hclimb : climb (p.text ++ c :: s).length (p.text ++ c :: s) = (0, p.text ++ c :: s) := by
    rw [htext]
    exact climb_of_ne hdot _ _
  simp only [read?, hthis, hcurrent, hroot, Option.or_none, Option.getD_none, hlocal,
    Bool.false_eq_true, if_false, hclimb, hfirst, Option.bind_eq_bind, Option.bind_some, hfields,
    Option.isSome_none, Option.pure_def, hbefore]
  rfl

end Path

/-! ## Arguments -/

/-- The words that are read as something else when an argument starts with them. -/
def reservedWords : List String := ["as", "else", "true", "false", "null"]

theorem isNameChar_of_reserved {word : String} (h : word ∈ reservedWords) :
    ∀ c ∈ word.toList, isNameChar c := by
  rw [← List.all_eq_true]
  have hall : ∀ word ∈ reservedWords, word.toList.all isNameChar := by decide
  exact hall word h

/-- What follows a word that a path starts with is a character of names. -/
theorem startsSymbol_longer {word : String} (hword : word ∈ reservedWords) {p : Dotted}
    (hp : p.first.text ≠ word.toList) (hc : isNameChar c = false) {r : List Char}
    (h : Text.afterPrefix? word.toList (p.text ++ c :: s) = some r) :
    startsSymbol r ∧ skipGap r = r := by
  obtain ⟨d, r', rfl, hd⟩ := Dotted.longer (isNameChar_of_reserved hword) hp hc h
  exact ⟨isSymbol_of_isNameChar hd, skipGap_nameChar hd r'⟩

theorem startsKeyword_dotted {p : Dotted} (hp : ∀ word ∈ reservedWords, p.first.text ≠ word.toList)
    (hc : isNameChar c = false) (s : List Char) : startsKeyword (p.text ++ c :: s) = false := by
  have hapart {word : String} (hword : word ∈ reservedWords) :
      ((Text.afterPrefix? word.toList (p.text ++ c :: s)).any fun rest =>
        !startsSymbol (skipGap rest)) = false := by
    cases h : Text.afterPrefix? word.toList (p.text ++ c :: s) with
    | none => rfl
    | some r =>
      obtain ⟨hsymbol, hgap⟩ := startsSymbol_longer hword (hp word hword) hc h
      rw [Option.any_some, hgap, hsymbol]
      rfl
  exact Bool.or_eq_false_iff.2 ⟨hapart (by decide), hapart (by decide)⟩

theorem afterKeyword?_dotted {word : String} (hword : word ∈ reservedWords) {p : Dotted}
    (hp : p.first.text ≠ word.toList) (hc : isNameChar c = false) (s : List Char) :
    afterKeyword? word (p.text ++ c :: s) = none := by
  rw [afterKeyword?]
  cases h : Text.afterPrefix? word.toList (p.text ++ c :: s) with
  | none => rfl
  | some r => exact if_pos (startsSymbol_longer hword hp hc h).1

/-- A path is no literal. -/
theorem afterLiteral?_dotted {p : Dotted} (hp : ∀ word ∈ reservedWords, p.first.text ≠ word.toList)
    (hc : isNameChar c = false) (n : Nat) (s : List Char) :
    afterLiteral? (n + 1) (p.text ++ c :: s) = none := by
  have hkeyword (word : String) (hword : word ∈ reservedWords) :=
    afterKeyword?_dotted hword (hp word hword) hc s
  have hnull := hkeyword "null" (by decide)
  have htrue := hkeyword "true" (by decide)
  have hfalse := hkeyword "false" (by decide)
  obtain ⟨d, t, htext, hd, hdigit⟩ := p.exists_cons
  have hne {e : Char} (he : isNameChar e = false) : d ≠ e := by
    rintro rfl
    rw [hd] at he
    cases he
  have hnumber : afterNumber? (d :: t ++ c :: s) = none := by
    have hminus : ((d :: t ++ c :: s).head? == some '-') = false := by
      rw [List.cons_append, List.head?_cons, beq_eq_false_iff_ne]
      exact fun h => hne rfl (Option.some.inj h)
    have hnodigit : (d :: t ++ c :: s).head?.any Char.isDigit = false := hdigit
    rw [afterNumber?]
    simp only [hminus, Bool.false_eq_true, if_false, hnodigit, Bool.not_false, if_true]
  rw [htext] at hnull htrue hfalse ⊢
  rw [List.cons_append] at hnull htrue hfalse hnumber ⊢
  rw [afterLiteral?, hnumber, hnull, htrue, hfalse]
  · rfl
  all_goals
    intro rest heq
    exact hne (by decide) (List.cons.inj heq).1

/-- **A path is read as an argument** when it does not start with a word that means something
else. -/
theorem argument?_dotted {p : Dotted} (hp : p.first.text ≠ "this".toList ∨ p.rest = [])
    (hfirst : ∀ word ∈ reservedWords, p.first.text ≠ word.toList)
    (hc : isSymbol c = false ∧ Path.isSeparator c = false) (hn : n ≠ 0) (s : List Char) :
    argument? n (p.text ++ c :: s) = some (.path (Path.ofDotted p), c :: s) := by
  have hname : isNameChar c = false := by
    cases h : isNameChar c with
    | false => rfl
    | true => exact absurd (isSymbol_of_isNameChar h) (Bool.eq_false_iff.1 hc.1)
  obtain ⟨n, rfl⟩ := Nat.exists_eq_succ_of_ne_zero hn
  rw [argument?, startsKeyword_dotted hfirst hname, afterLiteral?_dotted hfirst hname,
    Path.read?_dotted hp hc]
  rfl

/-- The text stands for itself between single quotes: neither such a quote nor a backslash is in it,
and no control character. -/
def IsQuotable (word : List Char) : Prop := ∀ c ∈ word, c ≠ '\\' ∧ c ≠ '\'' ∧ 32 ≤ c.toNat

/-- A text between quotes ends at its quote. -/
theorem afterQuoted?_word {word : List Char} (hword : IsQuotable word) (s : List Char) :
    afterQuoted? '\'' (word ++ '\'' :: s) = some s := by
  induction word with
  | nil => rfl
  | cons c word ih =>
    obtain ⟨hslash, hquote, -⟩ := hword c List.mem_cons_self
    rw [List.cons_append, afterQuoted?, if_neg (by rw [beq_iff_eq]; exact hquote),
      ih fun d hd => hword d (List.mem_cons_of_mem _ hd)]
    exact fun _ _ heq => absurd heq hslash

theorem stringBody?_word {word : List Char} (hword : IsQuotable word) (acc s : List Char)
    (h : word.length < n) :
    Json.stringBody? '\'' n acc (word ++ '\'' :: s) = some (acc.reverse ++ word, s) := by
  induction word generalizing n acc with
  | nil =>
    cases n with
    | zero => exact absurd h (Nat.not_lt_zero _)
    | succ n =>
      unfold Json.stringBody?
      rw [List.nil_append, List.append_nil]
      exact if_pos rfl
  | cons c word ih =>
    cases n with
    | zero => exact absurd h (Nat.not_lt_zero _)
    | succ n =>
      obtain ⟨hslash, hquote, hcontrol⟩ := hword c List.mem_cons_self
      have hrest :=
        ih (fun d hd => hword d (List.mem_cons_of_mem _ hd)) (c :: acc) (Nat.lt_of_succ_lt_succ h)
      rw [List.reverse_cons, List.append_assoc] at hrest
      unfold Json.stringBody?
      rw [List.cons_append]
      dsimp only
      rw [if_neg hquote, if_neg hslash, if_neg (Nat.not_lt.2 hcontrol)]
      exact hrest

/-- **A text between single quotes is a literal.** -/
theorem argument?_word {word : List Char} (hword : IsQuotable word) (hn : n ≠ 0) (s : List Char) :
    argument? n (singleQuoted word ++ s) = some (.literal (.string (String.ofList word)), s) := by
  obtain ⟨n, rfl⟩ := Nat.exists_eq_succ_of_ne_zero hn
  have hquoted : singleQuoted word ++ s = '\'' :: (word ++ '\'' :: s) := by
    rw [singleQuoted, List.append_assoc]
    rfl
  have hrest (k : Nat) : afterLiteral? (k + 1) ('\'' :: (word ++ '\'' :: s)) = some s :=
    afterQuoted?_word hword s
  have hkeyword : startsKeyword ('\'' :: (word ++ '\'' :: s)) = false := rfl
  have hvalue : literalValue? (singleQuoted word) = some (.string (String.ofList word)) := by
    have hread : Json.readString? '\'' (word ++ ['\'']) = some (String.ofList word, []) := by
      have hfuel : word.length < (word ++ ['\'']).length + 1 := by
        rw [List.length_append]
        exact Nat.lt_succ_of_lt (Nat.lt_succ_self _)
      rw [Json.readString?, stringBody?_word hword [] [] hfuel]
      rfl
    rw [singleQuoted, List.cons_append, literalValue?, hread]
  rw [argument?, hquoted, hkeyword, hrest, ← hquoted]
  dsimp only
  rw [before_append, hvalue]
  rfl

/-- Nothing is read as an argument where a tag ends, or where a path goes on. -/
def EndsArguments (s : List Char) : Prop :=
  (∃ t, s = '\x7d' :: t) ∨ (∃ t, s = ')' :: t) ∨
    ∃ (name : Ident) (t : List Char), s = '.' :: (name.text ++ t)

theorem EndsArguments.exists_cons (hs : EndsArguments s) :
    ∃ c t, s = c :: t ∧ isSymbol c = false := by
  rcases hs with ⟨t, rfl⟩ | ⟨t, rfl⟩ | ⟨name, t, rfl⟩
  · exact ⟨_, t, rfl, rfl⟩
  · exact ⟨_, t, rfl, rfl⟩
  · exact ⟨_, _, rfl, rfl⟩

/-- No path starts with a dot before a name. -/
theorem Path.read?_dot (name : Ident) (t : List Char) :
    Path.read? ('.' :: (name.text ++ t)) = none := by
  obtain ⟨d, u, htext, hd, -⟩ := name.exists_cons
  have hslash : '/' ≠ d := by rintro rfl; exact absurd hd (by decide)
  have hdot : '.' ≠ d := by rintro rfl; exact absurd hd (by decide)
  have hcurrent (x : List Char) : Text.afterPrefix? "./".toList ('.' :: d :: x) = none :=
    if_neg hslash
  have hthis (x : List Char) : afterWord? "this".toList ('.' :: x) = none := rfl
  have hroot (x : List Char) : afterWord? "@root".toList ('.' :: x) = none := rfl
  have hlocal (x : List Char) : (('.' :: x).head? == some '@') = false := rfl
  have hclimb (n : Nat) (x : List Char) : climb n ('.' :: d :: x) = (0, '.' :: d :: x) := by
    cases n with
    | zero => rfl
    | succ n =>
      rw [climb]
      exact fun _ _ heq => hdot (List.cons.inj (List.cons.inj heq).2).1.symm
  have hitem (x : List Char) : item? ('.' :: x) = none := rfl
  rw [htext, List.cons_append]
  simp only [read?, hthis, hcurrent, hroot, Option.or_none, Option.getD_none, hlocal,
    Bool.false_eq_true, if_false, hclimb, hitem, Option.bind_eq_bind, Option.bind_none]

/-- **No argument stands where a tag ends**, or where a path goes on. -/
theorem EndsArguments.argument? (hs : EndsArguments s) (n : Nat) : argument? n s = none := by
  cases n with
  | zero => rfl
  | succ n =>
    rcases hs with ⟨t, rfl⟩ | ⟨t, rfl⟩ | ⟨name, t, rfl⟩
    · cases n <;> rfl
    · cases n <;> rfl
    · have hkeyword : startsKeyword ('.' :: (name.text ++ t)) = false := rfl
      have hliteral (k : Nat) : afterLiteral? (k + 1) ('.' :: (name.text ++ t)) = none := rfl
      have hgroup : group? n ('.' :: (name.text ++ t)) = none := by cases n <;> rfl
      rw [Block.argument?, hkeyword, hliteral, Path.read?_dot, hgroup]
      rfl

theorem EndsArguments.arguments (hs : EndsArguments (skipGap s)) (n : Nat) :
    arguments n s = ([], [], s) := by
  cases n with
  | zero => rfl
  | succ n =>
    have hoption : option? n (skipGap s) = none := by
      obtain ⟨c, t, hcons, hc⟩ := hs.exists_cons
      cases n with
      | zero => rfl
      | succ n => rw [option?, hcons, identifier?_eq_none hc]
    rw [Block.arguments, hoption, hs.argument?]

/-- An argument that is no option is read in front of the others. -/
theorem arguments_cons {t : List Char} {term : Term} (hoption : option? n (skipGap s) = none)
    (hargument : argument? n (skipGap s) = some (term, t)) :
    arguments (n + 1) s =
      (term :: (arguments n t).1, (arguments n t).2.1, (arguments n t).2.2) := by
  rw [arguments, hoption, hargument]

/-- A name without an equals sign behind it starts no option. -/
theorem option?_eq_none
    (h : ∀ name rest, identifier? s = some (name, rest) →
      (skipGap rest).head? ≠ some '=') (n : Nat) :
    option? n s = none := by
  cases n with
  | zero => rfl
  | succ n =>
    rw [option?]
    cases hname : identifier? s with
    | none => rfl
    | some found =>
      obtain ⟨name, rest⟩ := found
      have hhead := h name rest hname
      dsimp only
      split
      · rename_i heq
        rw [heq] at hhead
        exact absurd rfl hhead
      · rfl

/-! ## Calls -/

theorem exists_after_name {p : Dotted} (hc : isSymbol c = false) (s : List Char) :
    ∃ r, identifier? (p.text ++ c :: s) = some (String.ofList p.first.text, r) ∧
      (r = c :: s ∧ p.rest = [] ∨
        ∃ (name : Ident) (t : List Char), r = '.' :: (name.text ++ t)) := by
  rw [Dotted.text, List.append_assoc]
  cases p.rest with
  | nil => exact ⟨c :: s, identifier?_ident p.first hc s, .inl ⟨rfl, rfl⟩⟩
  | cons field fields =>
    refine ⟨_, identifier?_ident p.first rfl _,
      .inr ⟨field, (fields.flatMap fun name => '.' :: name.text) ++ c :: s, ?_⟩⟩
    exact congrArg ('.' :: ·) (List.append_assoc ..)

/-- A path is no option. -/
theorem option?_dotted {p : Dotted} (hc : isSymbol c = false)
    (hs : (skipGap (c :: s)).head? ≠ some '=') (n : Nat) : option? n (p.text ++ c :: s) = none := by
  obtain ⟨r, hr, hnext⟩ := exists_after_name (p := p) hc s
  refine option?_eq_none (fun name rest h => ?_) n
  rw [hr] at h
  obtain ⟨-, rfl⟩ := Prod.mk.inj (Option.some.inj h)
  rcases hnext with ⟨rfl, -⟩ | ⟨field, t, rfl⟩
  · exact hs
  · exact fun heq => absurd (Option.some.inj heq) (by decide)

/-- A path can be read as an argument. -/
structure IsArgument (p : Dotted) : Prop where
  not_this : p.first.text ≠ "this".toList ∨ p.rest = []
  not_reserved : ∀ word ∈ reservedWords, p.first.text ≠ word.toList

/-- **The arguments of a block that asks for a path.** -/
theorem arguments_dotted {p : Dotted} (hp : IsArgument p) (s : List Char) :
    arguments (n + 2) (' ' :: (p.text ++ '\x7d' :: s)) =
      ([.path (Path.ofDotted p)], [], '\x7d' :: s) := by
  have hgap : skipGap (' ' :: (p.text ++ '\x7d' :: s)) = p.text ++ '\x7d' :: s := skipGap_dotted p _
  have hbrace : skipGap ('\x7d' :: s) = '\x7d' :: s := rfl
  have hnext : (skipGap ('\x7d' :: s)).head? ≠ some '=' := by
    rw [hbrace, List.head?_cons]
    decide
  have hoption : option? (n + 1) (skipGap (' ' :: (p.text ++ '\x7d' :: s))) = none := by
    rw [hgap]
    exact option?_dotted rfl hnext _
  have hargument : argument? (n + 1) (skipGap (' ' :: (p.text ++ '\x7d' :: s))) =
      some (.path (Path.ofDotted p), '\x7d' :: s) := by
    rw [hgap]
    exact argument?_dotted hp.not_this hp.not_reserved ⟨rfl, rfl⟩ (Nat.succ_ne_zero _) s
  rw [arguments_cons hoption hargument, EndsArguments.arguments (hbrace ▸ .inl ⟨s, rfl⟩)]

/-- A path and a text, as the arguments of a helper. -/
def pathAndText (p : Dotted) (word : List Char) : List Term :=
  [.path (Path.ofDotted p), .literal (.string (String.ofList word))]

/-- **The arguments of a call** with a path and a text, up to its end. -/
theorem arguments_pathAndText {p : Dotted} (hp : IsArgument p) {word : List Char}
    (hword : IsQuotable word) (hc : c = ')' ∨ c = '\x7d') (s : List Char) :
    arguments (n + 3) (' ' :: (p.text ++ ' ' :: (singleQuoted word ++ c :: s))) =
      (pathAndText p word, [], c :: s) := by
  have hgap : skipGap (' ' :: (p.text ++ ' ' :: (singleQuoted word ++ c :: s))) =
      p.text ++ ' ' :: (singleQuoted word ++ c :: s) := skipGap_dotted p _
  have hquote : skipGap (' ' :: (singleQuoted word ++ c :: s)) = singleQuoted word ++ c :: s := rfl
  have hends : EndsArguments (skipGap (c :: s)) := by
    rcases hc with rfl | rfl
    · exact .inr (.inl ⟨s, rfl⟩)
    · exact .inl ⟨s, rfl⟩
  have hnext : (skipGap (' ' :: (singleQuoted word ++ c :: s))).head? ≠ some '=' := by
    rw [hquote, singleQuoted, List.cons_append, List.cons_append, List.head?_cons]
    decide
  have hoption :
      option? (n + 2) (skipGap (' ' :: (p.text ++ ' ' :: (singleQuoted word ++ c :: s)))) =
        none := by
    rw [hgap]
    exact option?_dotted rfl hnext _
  have hargument :
      argument? (n + 2) (skipGap (' ' :: (p.text ++ ' ' :: (singleQuoted word ++ c :: s)))) =
      some (.path (Path.ofDotted p), ' ' :: (singleQuoted word ++ c :: s)) := by
    rw [hgap]
    exact argument?_dotted hp.not_this hp.not_reserved ⟨rfl, rfl⟩ (Nat.succ_ne_zero _) _
  have hoption' : option? (n + 1) (skipGap (' ' :: (singleQuoted word ++ c :: s))) = none := rfl
  have hargument' : argument? (n + 1) (skipGap (' ' :: (singleQuoted word ++ c :: s))) =
      some (.literal (.string (String.ofList word)), c :: s) := by
    rw [hquote]
    exact argument?_word hword (Nat.succ_ne_zero _) _
  rw [arguments_cons hoption hargument, arguments_cons hoption' hargument', hends.arguments]
  rfl

/-- **A call with a path and a text.** -/
theorem call?_pathAndText (helper : Ident) {p : Dotted} (hp : IsArgument p) {word : List Char}
    (hword : IsQuotable word) (hc : c = ')' ∨ c = '\x7d') (s : List Char) :
    call? (n + 4) (helper.text ++ ' ' :: (p.text ++ ' ' :: (singleQuoted word ++ c :: s))) =
      some (.call (.word (String.ofList helper.text)) (pathAndText p word) [], c :: s) := by
  rw [call?, identifier?_ident helper rfl]
  dsimp only
  rw [arguments_pathAndText hp hword hc]
  rfl

/-- Such a call between parentheses. -/
theorem group?_pathAndText (helper : Ident) {p : Dotted} (hp : IsArgument p) {word : List Char}
    (hword : IsQuotable word) (s : List Char) :
    group? (n + 5)
      ('(' :: (helper.text ++ ' ' :: (p.text ++ ' ' :: (singleQuoted word ++ ')' :: s)))) =
    some (.call (.word (String.ofList helper.text)) (pathAndText p word) [], s) := by
  have hgap (x : List Char) : skipGap (helper.text ++ x) = helper.text ++ x := by
    obtain ⟨d, t, htext, hd, -⟩ := helper.exists_cons
    rw [htext]
    exact skipGap_nameChar hd (t ++ x)
  have hclose : skipGap (')' :: s) = ')' :: s := rfl
  rw [group?, hgap]
  dsimp only
  rw [call?_pathAndText helper hp hword (.inl rfl)]
  dsimp only
  rw [hclose]
  rfl

namespace Term

theorem exists_bound (s : List Char) : ∃ n, bound s = n + 8 := ⟨4 * s.length, rfl⟩

/-- **A block that asks for a path.** -/
theorem block?_dotted (helper : Ident) {p : Dotted} (hp : IsArgument p) (s : List Char) :
    block? (helper.text ++ ' ' :: (p.text ++ '\x7d' :: s)) =
      some (.call (.word (String.ofList helper.text)) [.path (Path.ofDotted p)] [], [],
        '\x7d' :: s) := by
  obtain ⟨n, hn⟩ := exists_bound (' ' :: (p.text ++ '\x7d' :: s))
  rw [block?, identifier?_ident helper rfl]
  dsimp only
  rw [hn, arguments_dotted hp]
  rfl

/-- **A block that asks for a comparison.** -/
theorem block?_pathAndText (helper operator : Ident) {p : Dotted} (hp : IsArgument p)
    {word : List Char} (hword : IsQuotable word) (s : List Char) :
    block? (helper.text ++ ' ' :: '(' ::
        (operator.text ++ ' ' :: (p.text ++ ' ' :: (singleQuoted word ++ ')' :: '\x7d' :: s)))) =
      some (.call (.word (String.ofList helper.text))
        [.call (.word (String.ofList operator.text)) (pathAndText p word) []] [], [],
        '\x7d' :: s) := by
  have hargument (n : Nat) (x : List Char) : argument? (n + 1) ('(' :: x) =
      group? n ('(' :: x) := by
    have hkeyword : startsKeyword ('(' :: x) = false := rfl
    have hliteral (k : Nat) : afterLiteral? (k + 1) ('(' :: x) = none := rfl
    have hpath : Path.read? ('(' :: x) = none := rfl
    rw [argument?, hkeyword, hliteral, hpath]
    rfl
  have hgap (x : List Char) : skipGap (' ' :: '(' :: x) = '(' :: x := rfl
  have hoption (n : Nat) (x : List Char) : option? (n + 1) ('(' :: x) = none := rfl
  have hbrace : skipGap ('\x7d' :: s) = '\x7d' :: s := rfl
  obtain ⟨n, hn⟩ := exists_bound (' ' :: '(' ::
    (operator.text ++ ' ' :: (p.text ++ ' ' :: (singleQuoted word ++ ')' :: '\x7d' :: s))))
  have hcall :=
    (hargument (n + 6) _).trans (group?_pathAndText (n := n + 1) operator hp hword ('\x7d' :: s))
  rw [← hgap] at hcall
  rw [block?, identifier?_ident helper rfl]
  dsimp only
  rw [hn, arguments_cons (by rw [hgap]; exact hoption _ _) hcall,
    EndsArguments.arguments (hbrace ▸ .inl ⟨s, rfl⟩)]
  rfl

/-- **A call that is put out.** -/
theorem head?_pathAndText (helper : Ident) {p : Dotted} (hp : IsArgument p) {word : List Char}
    (hword : IsQuotable word) (s : List Char) :
    head? (helper.text ++ ' ' :: (p.text ++ ' ' :: (singleQuoted word ++ '\x7d' :: s))) =
    some (.call (.word (String.ofList helper.text)) (pathAndText p word) [], '\x7d' :: s) := by
  obtain ⟨n, hn⟩ :=
    exists_bound (helper.text ++ ' ' :: (p.text ++ ' ' :: (singleQuoted word ++ '\x7d' :: s)))
  have hcall := call?_pathAndText (n := n + 4) helper hp hword (.inr rfl) s
  rw [head?, hn, hcall, Option.some_or]

/-- **A path that is put out.** -/
theorem head?_dotted {p : Dotted} (hp : p.first.text ≠ "this".toList ∨ p.rest = [])
    (hc : isSymbol c = false ∧ Path.isSeparator c = false)
    (hs : ∃ t, skipGap (c :: s) = '\x7d' :: t) :
    head? (p.text ++ c :: s) = some (.path (Path.ofDotted p), c :: s) := by
  obtain ⟨r, hr, hnext⟩ := exists_after_name (p := p) hc.1 s
  have hends : EndsArguments (skipGap r) := by
    rcases hnext with ⟨rfl, -⟩ | ⟨field, t, rfl⟩
    · exact .inl hs
    · exact .inr (.inr ⟨field, t, rfl⟩)
  have hcall (n : Nat) : call? n (p.text ++ c :: s) = none := by
    cases n with
    | zero => rfl
    | succ n =>
      rw [call?, hr]
      dsimp only
      rw [hends.arguments]
  have hgroup (n : Nat) : group? n (p.text ++ c :: s) = none := by
    obtain ⟨d, t, htext, hd, -⟩ := p.exists_cons
    have hparenthesis : d ≠ '(' := by rintro rfl; exact absurd hd (by decide)
    cases n with
    | zero => rfl
    | succ n =>
      rw [htext, List.cons_append, group?]
      exact fun _ heq => hparenthesis (List.cons.inj heq).1
  rw [head?, hcall, Option.none_or, name?, hgroup, Path.read?_dotted hp hc]
  rfl

end Term

end Runlist.Block
