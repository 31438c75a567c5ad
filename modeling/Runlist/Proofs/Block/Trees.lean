import Runlist.Block.Template
import Runlist.Proofs.Block.Pieces

/-!
# The trees of converted parameters

The texts and tags of a converted parameter nest as the parameter does: a branching is a block whose
further branches are its alternative, and a loop is a block.

* `Parses`, `ParsesBlock`: items are read as elements, with enough steps for their number.
* `Phrase.Builds`: a template has the form of a parameter.
* `ofText?_phrase`: **the template of a converted parameter has its form.**
-/

namespace Runlist

namespace Template

open Block (Element Term)

/-! ## The form of a template -/

/-- A text as an element, none when it is empty. -/
def textElements (text : List Char) : List Element :=
  if text.isEmpty then [] else [.text (String.ofList text)]

/-- What an item of a loop puts out. -/
def itemTerm : List Ident → Term
  | [] => .path (.ofDotted ⟨itself, []⟩)
  | field :: fields => .path (.ofDotted ⟨field, fields⟩)

/-- The elements have the form of a loop's round. -/
def PartsBuild (last : List Char) : List (List Char × List Ident) → List Element → Prop
  | [], elements => elements = textElements last
  | (text, fields) :: parts, elements => ∃ position others,
    elements = textElements text ++ .output position (itemTerm fields) :: others ∧
    PartsBuild last parts others

mutual
/-- **The elements have the form of a parameter.** -/
def Phrase.Builds : Phrase → List Element → Prop
  | .done text, elements => elements = textElements text
  | .output text out rest, elements => ∃ position others,
    elements = textElements text ++ .output position out.term :: others ∧ rest.Builds others
  | .branch text condition body alternatives rest, elements => ∃ position inner otherwise others,
    elements = textElements text ++ .block position condition.call [] inner otherwise :: others ∧
      body.Builds inner ∧ alternatives.Builds otherwise ∧ rest.Builds others
  | .loop text _ list round rest, elements => ∃ position inner others,
    elements = textElements text ++
        .block position (.call (.word "each") [.path (.ofDotted list)] []) [] inner none :: others ∧
      PartsBuild round.last round.parts inner ∧ rest.Builds others

/-- The alternative of a block has the form of further branches. -/
def Branches.Builds : Branches → Option (List Element) → Prop
  | .stop, otherwise => otherwise = none
  | .otherwise body, otherwise => ∃ inner, otherwise = some inner ∧ body.Builds inner
  | .also condition body alternatives, otherwise => ∃ inner next,
    otherwise = some [.block none condition.call [] inner next] ∧ body.Builds inner ∧
    alternatives.Builds next
end

end Template

namespace Block

open Runlist.Template
  (Mark Symbol Phrase Branches Round chars write textElements itemTerm PartsBuild)

variable {items items' rest : List Item} {elements body : Template} {element : Element}
  {position : Option Position}
  {pos close : Position} {call : Term} {names : List String} {symbols : List Symbol} {w : List Char}

/-! ## Reading elements -/

/-- **Items are read as elements** up to the rest, two steps being enough for each item. -/
structure Parses (items : List Item) (elements : Template) (rest : List Item) : Prop where
  length : rest.length ≤ items.length
  read : ∀ n, 2 * items.length + 1 ≤ n → Template.elements? n items = some (elements, rest)

/-- Items are read as the inside of a block up to its end. -/
structure ParsesBlock (position : Option Position) (call : Term) (names : List String)
    (items : List Item) (element : Element) (rest : List Item) : Prop where
  length : rest.length ≤ items.length
  read : ∀ n, 2 * items.length + 2 ≤ n →
      Template.block? n position call names items = some (element, rest)

theorem Parses.nil : Parses [] [] [] where
  length := Nat.le_refl _
  read n hn := by
    obtain ⟨k, rfl⟩ : ∃ k, n = k + 1 := ⟨n - 1, by omega⟩
    rfl

/-- A tag that ends elements. -/
def Tag.IsEnd (tag : Tag) : Prop :=
  tag = .otherwise ∨ (∃ call names, tag = .otherwiseBlock call names) ∨
    ∃ name, tag = .closeBlock name

theorem Parses.stop {tag : Tag} (htag : tag.IsEnd) :
    Parses (.tag tag pos :: rest) [] (.tag tag pos :: rest) where
  length := Nat.le_refl _
  read n hn := by
    obtain ⟨k, rfl⟩ : ∃ k, n = k + 1 := ⟨n - 1, by omega⟩
    rcases htag with rfl | ⟨call, names, rfl⟩ | ⟨name, rfl⟩ <;> rfl

theorem Parses.text (h : Parses items elements rest) (text : List Char) :
    Parses (textItems text ++ items) (textElements text ++ elements) rest := by
  rw [textItems, textElements]
  split
  · exact h
  · refine ⟨h.length.trans (Nat.le_succ _), fun n hn => ?_⟩
    have hlength : ([.text (String.ofList text)] ++ items : List Item).length = items.length + 1 :=
      rfl
    obtain ⟨k, rfl⟩ : ∃ k, n = k + 2 := ⟨n - 2, by omega⟩
    have hrest := h.read k (by omega)
    have hstep : Template.elements? (k + 2) ([.text (String.ofList text)] ++ items) =
        (Template.elements? k items).map fun found =>
          (.text (String.ofList text) :: found.1, found.2) := rfl
    rw [hstep, hrest]
    rfl

theorem Parses.output (h : Parses items elements rest) (term : Term) :
    Parses (.tag (.output term) pos :: items) (.output (some pos) term :: elements) rest where
  length := h.length.trans (Nat.le_succ _)
  read n hn := by
    rw [List.length_cons] at hn
    obtain ⟨k, rfl⟩ : ∃ k, n = k + 2 := ⟨n - 2, by omega⟩
    have hrest := h.read k (by omega)
    have hstep : Template.elements? (k + 2) (.tag (.output term) pos :: items) =
        (Template.elements? k items).map fun found =>
          (.output (some pos) term :: found.1, found.2) := rfl
    rw [hstep, hrest]
    rfl

/-- **A block** is read up to its end, and then what follows. -/
theorem Parses.block (hblock : ParsesBlock (some pos) call names items element
    (.tag (.closeBlock (TagText.blockName call)) close :: items'))
      (h : Parses items' elements rest) :
    Parses (.tag (.openBlock call names) pos :: items) (element :: elements) rest where
  length := by
    have hclose := hblock.length
    have hrest := h.length
    rw [List.length_cons] at hclose ⊢
    omega
  read n hn := by
    have hclose := hblock.length
    rw [List.length_cons] at hclose hn
    obtain ⟨k, rfl⟩ : ∃ k, n = k + 2 := ⟨n - 2, by omega⟩
    have hinside := hblock.read (k + 1) (by omega)
    have hrest := h.read k (by omega)
    rw [Template.elements?, hinside]
    dsimp only
    rw [if_pos (beq_self_eq_true _), Template.more?, hrest]
    rfl

/-- A block without an alternative. -/
theorem ParsesBlock.stop {name : String}
    (h : Parses items body (.tag (.closeBlock name) pos :: rest)) :
    ParsesBlock position call names items (.block position call names body none)
      (.tag (.closeBlock name) pos :: rest) where
  length := h.length
  read n hn := by
    obtain ⟨k, rfl⟩ : ∃ k, n = k + 1 := ⟨n - 1, by omega⟩
    rw [Template.block?, h.read k (by omega)]

/-- A block with an alternative. -/
theorem ParsesBlock.otherwise (h : Parses items body (.tag .otherwise pos :: items'))
    (h' : Parses items' elements rest) :
    ParsesBlock position call names items
      (.block position call names body (some elements)) rest where
  length := by
    have hbody := h.length
    have hother := h'.length
    rw [List.length_cons] at hbody
    omega
  read n hn := by
    have hbody := h.length
    rw [List.length_cons] at hbody
    obtain ⟨k, rfl⟩ : ∃ k, n = k + 1 := ⟨n - 1, by omega⟩
    rw [Template.block?, h.read k (by omega)]
    dsimp only
    rw [h'.read k (by omega)]

/-- A block with an alternative that is a block of its own. -/
theorem ParsesBlock.also {next : Term} {nextNames : List String}
    (h : Parses items body (.tag (.otherwiseBlock next nextNames) pos :: items'))
    (h' : ParsesBlock none next nextNames items' element rest) :
    ParsesBlock position call names items
      (.block position call names body (some [element])) rest where
  length := by
    have hbody := h.length
    have hother := h'.length
    rw [List.length_cons] at hbody
    omega
  read n hn := by
    have hbody := h.length
    rw [List.length_cons] at hbody
    obtain ⟨k, rfl⟩ : ∃ k, n = k + 1 := ⟨n - 1, by omega⟩
    rw [Template.block?, h.read k (by omega)]
    dsimp only
    rw [h'.read k (by omega)]

/-! ## Reading parameters -/

theorem follows_chars {text : List Char} :
    Follows w (chars text ++ symbols) items ↔ Follows (w ++ text) symbols items := by
  induction text generalizing w with
  | nil => rw [List.append_nil]; rfl
  | cons c text ih =>
    have hstep : Follows w (chars (c :: text) ++ symbols) items ↔
        Follows (w ++ [c]) (chars text ++ symbols) items := Iff.rfl
    rw [hstep, ih, List.append_assoc]
    rfl

/-- Text and a mark. -/
theorem follows_text {text : List Char} {m : Mark}
    (h : Follows [] (chars text ++ .mark m :: symbols) items) :
    ∃ pos items', items = textItems text ++ .tag m.tag pos :: items' ∧
      Follows [] symbols items' := by
  rw [follows_chars] at h
  exact h

theorem follows_mark {m : Mark} (h : Follows [] (.mark m :: symbols) items) :
    ∃ pos items', items = .tag m.tag pos :: items' ∧ Follows [] symbols items' := h

/-- Nothing follows, or a mark that ends a part of a block. -/
def Stops : List Symbol → Prop
  | [] => True
  | .mark m :: _ => m.tag.IsEnd
  | .char _ :: _ => False

/-- Text at the end of a part. -/
theorem parses_text {text : List Char} (hstops : Stops symbols)
    (h : Follows [] (chars text ++ symbols) items) :
    ∃ rest, Parses items (textElements text) rest ∧ Follows [] symbols rest := by
  rw [follows_chars, List.nil_append] at h
  match symbols, hstops with
  | [], _ =>
    have hitems : items = textItems text ++ [] := h.trans (List.append_nil _).symm
    have hparses := Parses.nil.text text
    rw [List.append_nil (textElements text)] at hparses
    exact ⟨[], hitems ▸ hparses, rfl⟩
  | .mark m :: symbols, hend =>
    obtain ⟨pos, items', rfl, hrest⟩ := h
    have hstop : Parses (.tag m.tag pos :: items') [] (.tag m.tag pos :: items') := Parses.stop hend
    have hparses := hstop.text text
    rw [List.append_nil] at hparses
    exact ⟨_, hparses, pos, items', rfl, hrest⟩

theorem tag_item (name : Ident) (fields : List Ident) :
    (Mark.item name fields).tag = .output (itemTerm fields) := by
  cases fields <;> rfl

/-- **A round of a loop** is read as its text and items. -/
theorem parses_round (item : Ident) (round : Round) (hstops : Stops symbols)
    (h : Follows [] (round.symbols item ++ symbols) items) :
    ∃ elements rest, Parses items elements rest ∧ PartsBuild round.last round.parts elements ∧
      Follows [] symbols rest := by
  rw [Round.symbols] at h
  generalize round.parts = parts at h ⊢
  induction parts generalizing items with
  | nil =>
    obtain ⟨rest, hparses, hrest⟩ := parses_text hstops h
    exact ⟨_, rest, hparses, rfl, hrest⟩
  | cons part parts ih =>
    rw [List.foldr_cons, List.append_assoc, List.cons_append] at h
    obtain ⟨pos, items', rfl, hitems⟩ := follows_text h
    obtain ⟨elements, rest, hparses, hbuild, hrest⟩ := ih hitems
    rw [tag_item]
    exact ⟨_, rest, (hparses.output _).text _, ⟨some pos, elements, rfl, hbuild⟩, hrest⟩

theorem stops_branches (others : Branches) (symbols : List Symbol) :
    Stops (others.symbols ++ .mark .endBranch :: symbols) := by
  cases others with
  | stop => exact .inr (.inr ⟨_, rfl⟩)
  | otherwise body => exact .inl rfl
  | also condition body others => exact .inr (.inl ⟨_, _, rfl⟩)

mutual
/-- **A parameter is read as elements of its form.** -/
theorem parses_phrase {symbols : List Symbol} (hstops : Stops symbols) :
    ∀ (phrase : Phrase) {items : List Item},
    Follows [] (phrase.symbols ++ symbols) items →
      ∃ elements rest, Parses items elements rest ∧ phrase.Builds elements ∧ Follows [] symbols rest
  | .done text, _, h => by
    obtain ⟨rest, hparses, hrest⟩ := parses_text hstops h
    exact ⟨_, rest, hparses, rfl, hrest⟩
  | .output text out others, _, h => by
    rw [Phrase.symbols, List.append_assoc, List.cons_append] at h
    obtain ⟨pos, items', rfl, hitems⟩ := follows_text h
    obtain ⟨elements, rest, hparses, hbuild, hrest⟩ := parses_phrase hstops others hitems
    exact ⟨_, rest, (hparses.output _).text _, ⟨some pos, elements, rfl, hbuild⟩, hrest⟩
  | .branch text condition body alternatives others, _, h => by
    rw [Phrase.symbols, List.append_assoc, List.cons_append, List.append_assoc, List.append_assoc,
      List.cons_append] at h
    obtain ⟨pos, items', rfl, hitems⟩ := follows_text h
    obtain ⟨inner, rest₁, hinner, hbuild, hrest₁⟩ :=
      parses_phrase (stops_branches alternatives _) body hitems
    obtain ⟨otherwise, close, rest₂, hblock, halternatives, hrest₂⟩ :=
      parses_branches alternatives (some pos) condition.call hinner hrest₁
    obtain ⟨elements, rest, hparses, hothers, hrest⟩ := parses_phrase hstops others hrest₂
    have hname : "if" = TagText.blockName condition.call := by cases condition <;> rfl
    rw [hname] at hblock
    exact ⟨_, rest, (Parses.block hblock hparses).text _,
      ⟨some pos, inner, otherwise, elements, rfl, hbuild, halternatives,
      hothers⟩, hrest⟩
  | .loop text item list round others, _, h => by
    rw [Phrase.symbols, List.append_assoc, List.cons_append, List.append_assoc,
      List.cons_append] at h
    obtain ⟨pos, items', rfl, hitems⟩ := follows_text h
    have hend : Stops (.mark .endLoop :: (others.symbols ++ symbols)) := .inr (.inr ⟨_, rfl⟩)
    obtain ⟨inner, rest₁, hinner, hbuild, hrest₁⟩ := parses_round item round hend hitems
    obtain ⟨close, rest₂, rfl, hrest₂⟩ := follows_mark hrest₁
    obtain ⟨elements, rest, hparses, hothers, hrest⟩ := parses_phrase hstops others hrest₂
    have hblock :
        ParsesBlock (some pos) (.call (.word "each") [.path (.ofDotted list)] []) [] _ _ _ :=
      ParsesBlock.stop hinner
    exact ⟨_, rest, (Parses.block hblock hparses).text _,
      ⟨some pos, inner, elements, rfl, hbuild, hothers⟩, hrest⟩

/-- **Further branches are read as the alternative of a block.** -/
theorem parses_branches {symbols : List Symbol} :
    ∀ (others : Branches) (position : Option Position) (call : Term)
    {items rest : List Item} {body : Template}, Parses items body rest →
      Follows [] (others.symbols ++ .mark .endBranch :: symbols) rest → ∃ otherwise close rest',
        ParsesBlock position call [] items (.block position call [] body otherwise)
          (.tag (.closeBlock "if") close :: rest') ∧
          others.Builds otherwise ∧ Follows [] symbols rest'
  | .stop, position, call, _, _, _, hbody, h => by
    obtain ⟨close, rest', rfl, hrest⟩ := follows_mark h
    exact ⟨none, close, rest', ParsesBlock.stop hbody, rfl, hrest⟩
  | .otherwise body, position, call, _, _, _, hbody, h => by
    rw [Branches.symbols, List.cons_append] at h
    obtain ⟨pos, items', rfl, hitems⟩ := follows_mark h
    have hend : Stops (.mark .endBranch :: symbols) := .inr (.inr ⟨_, rfl⟩)
    obtain ⟨inner, rest₁, hinner, hbuild, hrest₁⟩ := parses_phrase hend body hitems
    obtain ⟨close, rest', rfl, hrest⟩ := follows_mark hrest₁
    exact ⟨some inner, close, rest', ParsesBlock.otherwise hbody hinner,
      ⟨inner, rfl, hbuild⟩, hrest⟩
  | .also condition body others, position, call, _, _, _, hbody, h => by
    rw [Branches.symbols, List.cons_append, List.append_assoc] at h
    obtain ⟨pos, items', rfl, hitems⟩ := follows_mark h
    obtain ⟨inner, rest₁, hinner, hbuild, hrest₁⟩ :=
      parses_phrase (stops_branches others _) body hitems
    -- the further branch is a block of its own, which ends with the tag that ends the first one
    obtain ⟨otherwise, close, rest', hblock, hothers, hrest⟩ :=
      parses_branches others none condition.call hinner hrest₁
    exact ⟨_, close, rest', ParsesBlock.also hbody hblock,
      ⟨inner, otherwise, rfl, hbuild, hothers⟩, hrest⟩
end

/-- **The template of a converted parameter has its form.** -/
theorem ofText?_phrase {phrase : Phrase} (htext : ∀ c, .char c ∈ phrase.symbols → c ≠ '\x7b')
    (hmarks : ∀ m, .mark m ∈ phrase.symbols → m.IsReadable)
    (hundisturbed : Undisturbed true phrase.symbols) :
    ∃ template, Template.ofText? (write Mark.target phrase.symbols) = some template ∧
      phrase.Builds template := by
  obtain ⟨pieces, hpieces, hfollows⟩ := ofText?_symbols htext hmarks hundisturbed
  rw [← List.append_nil phrase.symbols] at hfollows
  have hstops : Stops [] := trivial
  obtain ⟨template, rest, hparses, hbuild, hrest⟩ := parses_phrase hstops phrase hfollows
  obtain rfl : rest = [] := hrest
  refine ⟨template, ?_, hbuild⟩
  rw [Template.ofText?, hpieces, Option.bind_some]
  dsimp only
  rw [hparses.read _ (by omega)]

end Block

end Runlist
