import Runlist.Block.Piece
import Runlist.Proofs.Block.Tags

/-!
# The pieces of a converted parameter

A converted parameter is text with tags in it. Its pieces are these tags and the text between them,
as long as no backslash stands in front of a tag and no tag of a block has a line for itself.

* `Follows`: the texts and tags that symbols become.
* `Undisturbed`: no backslash hides a tag, and no line is taken away.
* `ofText?_symbols`: **a converted parameter is read symbol by symbol.**
-/

namespace Runlist

namespace Block

open Runlist.Template (Mark Symbol write closeBraces openBraces)

variable {n : Nat} {p : Place} {w rest : List Char} {symbols : List Symbol} {m : Mark}

/-! ## What is read -/

/-- A text as an item, none when it is empty. -/
def textItems (text : List Char) : List Item :=
  if text.isEmpty then [] else [.text (String.ofList text)]

/-- **The texts and tags that symbols become**, with the characters in front of them. -/
def Follows (text : List Char) : List Symbol → List Item → Prop
  | [], items => items = textItems text
  | .char c :: symbols, items => Follows (text ++ [c]) symbols items
  | .mark m :: symbols, items =>
    ∃ position rest, items = textItems text ++ .tag m.tag position :: rest ∧ Follows [] symbols rest

/-- A mark stands first. -/
def startsWithMark : List Symbol → Bool
  | .mark _ :: _ => true
  | _ => false

/-- **No backslash stands in front of a mark, and no block's tag stands alone on its line**; at the
start there may be only blanks on the line. -/
def Undisturbed (blank : Bool) : List Symbol → Prop
  | [] => True
  | .char c :: symbols => (c = '\\' → startsWithMark symbols = false) ∧
      Undisturbed (c == '\n' || c == '\r' || (Text.isIndent c && blank)) symbols
  | .mark m :: symbols =>
    (Trim.mayStandAlone m.tag → (Piece.blankAfter (write Mark.target symbols) && blank) = false) ∧
      Undisturbed false symbols

/-! ## Text between tags -/

/-- Two braces stand first, or nothing. -/
def AtTag (s : List Char) : Prop := s = [] ∨ ∃ t, s = openBraces ++ t

/-- No run of backslashes leads up to a tag. -/
theorem no_run (hw : '\x7b' ∉ w) (hlast : w.getLast? = some '\\' → rest = []) (hne : w ≠ []) :
    Piece.backslashesBeforeTag (w ++ rest) = false := by
  have hnone :
      (Text.afterPrefix? Piece.braces ((w ++ rest).dropWhile (· == '\\'))).isSome = false := by
    induction w with
    | nil => exact absurd rfl hne
    | cons c w ih =>
      rw [List.cons_append, List.dropWhile_cons]
      split
      · rename_i hc
        cases w with
        | nil =>
          rw [hlast (by rw [List.getLast?_singleton, beq_iff_eq.1 hc])]
          rfl
        | cons d w =>
          exact ih (List.not_mem_of_not_mem_cons hw) (by rwa [List.getLast?_cons_cons] at hlast)
            (List.cons_ne_nil _ _)
      · have hc : '\x7b' ≠ c := fun h => hw (h ▸ List.mem_cons_self)
        rw [Piece.braces]
        exact congrArg Option.isSome (if_neg hc)
  rw [Piece.backslashesBeforeTag, hnone, Bool.and_false]

/-- **Text is read up to a tag.** -/
theorem takeText_append (hw : '\x7b' ∉ w) (hlast : w.getLast? = some '\\' → rest = [])
    (hrest : AtTag rest) : Piece.takeText false false (w ++ rest) = (w, rest) := by
  induction w with
  | nil =>
    rcases hrest with rfl | ⟨t, rfl⟩
    · rfl
    · rfl
  | cons c w ih =>
    have hc : c ≠ '\x7b' := fun h => hw (h ▸ List.mem_cons_self)
    have hw' := List.not_mem_of_not_mem_cons hw
    have hlast' : w.getLast? = some '\\' → rest = [] := by
      intro h
      cases w with
      | nil => cases h
      | cons d w => exact hlast (by rw [List.getLast?_cons_cons, h])
    have htail := ih hw' hlast'
    by_cases hslash : c = '\\'
    · subst hslash
      cases w with
      | nil =>
        rw [hlast (List.getLast?_singleton)]
        rfl
      | cons d w =>
        have hd : d ≠ '\x7b' := fun h => hw' (h ▸ List.mem_cons_self)
        have hrun : Piece.backslashesBeforeTag (d :: (w ++ rest)) = false :=
          no_run hw' hlast' (List.cons_ne_nil _ _)
        rw [List.cons_append] at htail
        rw [List.cons_append, List.cons_append, Piece.takeText, if_neg Bool.false_ne_true]
        · rw [if_neg (Bool.eq_false_iff.1 hrun), htail]
        · exact fun _ heq => hd (List.cons.inj heq).1
        · exact fun _ heq => hd (List.cons.inj heq).1
    · rw [List.cons_append, Piece.takeText, htail]
      · exact fun h => hslash h
      · exact fun _ h => absurd h hc

/-! ## One piece -/

theorem pastAll_append (p : Place) (u v : List Char) :
    (p.pastAll u).pastAll v = p.pastAll (u ++ v) :=
  (List.foldl_append ..).symm

/-- A gap ends at a tag. -/
theorem gap_braces (hgap : ∀ c ∈ w, isGap c) (s : List Char) :
    (w ++ openBraces ++ s).takeWhile isGap = w ∧
    skipGap (w ++ openBraces ++ s) = openBraces ++ s := by
  rw [List.append_assoc]
  exact ⟨Text.takeWhile_append_cons hgap rfl _, Text.dropWhile_append_cons hgap rfl _⟩

/-- **A gap and a tag are read as one piece.** -/
theorem read?_tag (hm : m.IsReadable) (hgap : ∀ c ∈ w, isGap c) (rest : List Char) :
    Piece.read? (n + 1) p (w ++ (m.target ++ rest)) =
      (Piece.read? n (p.pastAll (w ++ m.target)) rest).map fun pieces =>
        Piece.ofTag w (p.pastAll w) ⟨m.tag, false, false⟩ rest :: pieces := by
  have htarget : w ++ (m.target ++ rest) =
      w ++ openBraces ++ (m.tagText ++ (closeBraces ++ rest)) := by
    rw [Mark.target, Template.reference]
    simp only [List.append_assoc]
  obtain ⟨htake, hskip⟩ := gap_braces hgap (m.tagText ++ (closeBraces ++ rest))
  have hinside : openBraces ++ (m.tagText ++ (closeBraces ++ rest)) = m.target ++ rest := by
    rw [Mark.target, Template.reference]
    simp only [List.append_assoc]
  have hbraces :
      Text.afterPrefix? Piece.braces (openBraces ++ (m.tagText ++ (closeBraces ++ rest))) =
      some (m.tagText ++ (closeBraces ++ rest)) := Text.afterPrefix?_append ..
  have hbefore : before (openBraces ++ (m.tagText ++ (closeBraces ++ rest))) rest = m.target := by
    rw [hinside, before_append]
  rw [htarget, Piece.read?, htake, hskip]
  dsimp only
  split
  · rename_i heq
    cases heq
  · rw [hbraces]
    dsimp only
    rw [TagText.read?_mark hm]
    dsimp only
    rw [hbefore, pastAll_append]

/-- **Text is read as one piece.** -/
theorem read?_text (hw : '\x7b' ∉ w) (hlast : w.getLast? = some '\\' → rest = [])
    (hrest : AtTag rest) (hgap : ¬ ∀ c ∈ w, isGap c) : Piece.read? (n + 1) p (w ++ rest) =
      (Piece.read? n (p.pastAll w) rest).map fun pieces => ⟨w.takeWhile isGap, .text (skipGap w),
        (p.pastAll (w.takeWhile isGap)).position, (p.pastAll (w.takeWhile isGap)).lineIsBlank,
        false⟩ :: pieces := by
  obtain ⟨c, u, hskip, hc⟩ : ∃ c u, skipGap w = c :: u ∧ isGap c = false := by
    rcases Text.dropWhile_stops isGap w with hnil | ⟨c, u, hcons, hc⟩
    · exact absurd (List.dropWhile_eq_nil_iff.1 hnil) hgap
    · exact ⟨c, u, hcons, hc⟩
  have hsplit : w = w.takeWhile isGap ++ c :: u := by
    rw [← hskip]
    exact List.takeWhile_append_dropWhile.symm
  have htext : '\x7b' ∉ c :: u := fun hmem => hw (hsplit ▸ List.mem_append_right _ hmem)
  have hlast' : (c :: u).getLast? = some '\\' → rest = [] :=
    fun h => hlast (by rw [hsplit, List.getLast?_append, h]; rfl)
  have hgaps : ∀ d ∈ w.takeWhile isGap, isGap d := fun d hd => List.mem_takeWhile_imp hd
  have happend : w ++ rest = w.takeWhile isGap ++ c :: (u ++ rest) := by
    conv => lhs; rw [hsplit]
    rw [List.append_assoc, List.cons_append]
  have htake : (w ++ rest).takeWhile isGap = w.takeWhile isGap := by
    rw [happend]
    exact Text.takeWhile_append_cons hgaps hc _
  have hdrop : skipGap (w ++ rest) = c :: (u ++ rest) := by
    rw [happend]
    exact Text.dropWhile_append_cons hgaps hc _
  have hbraces : Text.afterPrefix? Piece.braces (c :: (u ++ rest)) = none :=
    if_neg fun h : '\x7b' = c => htext (h ▸ List.mem_cons_self)
  have htaken : Piece.takeText false false (c :: (u ++ rest)) = (c :: u, rest) :=
    takeText_append htext hlast' hrest
  have hbefore : before (c :: (u ++ rest)) rest = c :: u := before_append (c :: u) rest
  rw [Piece.read?, htake, hdrop]
  dsimp only
  rw [hbraces]
  dsimp only
  rw [htaken, hbefore, pastAll_append, ← hsplit, hskip]

/-- **A gap at the end.** -/
theorem read?_end (hgap : ∀ c ∈ w, isGap c) :
    Piece.read? (n + 1) p w =
      some [⟨w, .finish, (p.pastAll w).position, (p.pastAll w).lineIsBlank, true⟩] := by
  have htake : w.takeWhile isGap = w := List.takeWhile_eq_self_iff.2 hgap
  have hskip : skipGap w = [] := List.dropWhile_eq_nil_iff.2 hgap
  rw [Piece.read?, htake, hskip]

/-! ## Items -/

namespace Trim

/-- Nothing is to be taken away from what follows. -/
def clean (items : List Item) : Trim := ⟨false, false, items⟩

theorem reverse_textItems (text : List Char) : (textItems text).reverse = textItems text := by
  rw [textItems]
  split <;> rfl

/-- A gap in front of a tag, or at the end, is text. -/
theorem gap_clean (w : List Char) (items : List Item) :
    (if w.isEmpty || (clean items).afterTilde then clean items else (clean items).addText false w) =
      clean (textItems w ++ items) := by
  cases w with
  | nil => rfl
  | cons c w => rfl

theorem add_text (gap text : List Char) (position : Position) (startsLine endsLine : Bool)
    (items : List Item) :
    (clean items).add ⟨gap, .text text, position, startsLine, endsLine⟩ =
      clean (.text (String.ofList (gap ++ text)) :: items) := rfl

theorem add_end (w : List Char) (position : Position) (startsLine endsLine : Bool)
    (items : List Item) :
    (clean items).add ⟨w, .finish, position, startsLine, endsLine⟩ = clean (textItems w ++ items) :=
  gap_clean w items

theorem add_ofTag (tag : Tag) (items : List Item) :
    (clean items).add (Piece.ofTag w p ⟨tag, false, false⟩ rest) =
      (fun s : Trim => { s with items := .tag tag p.position :: s.items })
        (if mayStandAlone tag then
          (clean (textItems w ++ items)).standAlone (Piece.ofTag w p ⟨tag, false, false⟩ rest)
        else clean (textItems w ++ items)) := by
  have hgap := gap_clean w items
  rw [add, Piece.ofTag]
  dsimp only
  rw [hgap]
  cases tag <;> rfl

/-- **A tag that does not stand alone** takes nothing away. -/
theorem add_tag {tag : Tag}
    (halone : mayStandAlone tag → (Piece.blankAfter rest && p.lineIsBlank) = false)
    (items : List Item) :
    (clean items).add (Piece.ofTag w p ⟨tag, false, false⟩ rest) =
      clean (.tag tag p.position :: (textItems w ++ items)) := by
  rw [add_ofTag]
  split
  · have hnot : ((Piece.ofTag w p ⟨tag, false, false⟩ rest).endsLine &&
        (Piece.ofTag w p ⟨tag, false, false⟩ rest).startsLine) = false := halone ‹_›
    rw [standAlone, hnot]
    rfl
  · rfl

end Trim

/-! ## All pieces -/

/-- From a place on, a text gives the texts and tags that symbols become. -/
def Reads (p : Place) (s w : List Char) (symbols : List Symbol) : Prop :=
  ∀ n : Nat, s.length < n → ∀ items, ∃ pieces found, Piece.read? n p s = some pieces ∧
    pieces.foldl Trim.add (Trim.clean items) = Trim.clean (found.reverse ++ items) ∧
    Follows w symbols found

theorem textItems_of_not_gap (hgap : ¬ ∀ c ∈ w, isGap c) :
    textItems w = [.text (String.ofList w)] := by
  cases w with
  | nil => exact absurd (fun c hc => absurd hc List.not_mem_nil) hgap
  | cons c w => rfl

/-- Text in front of a tag, or at the end, is one item. -/
theorem Reads.text (hw : '\x7b' ∉ w) (hlast : w.getLast? = some '\\' → rest = [])
    (hrest : AtTag rest) (hgap : ¬ ∀ c ∈ w, isGap c)
    (hfollows : ∀ {found}, Follows [] symbols found → Follows w symbols (textItems w ++ found))
    (h : Reads (p.pastAll w) rest [] symbols) : Reads p (w ++ rest) w symbols := by
  intro n hn items
  have hne : w.length ≠ 0 := by
    rintro hzero
    rw [List.length_eq_zero_iff.1 hzero] at hgap
    exact hgap fun c hc => absurd hc List.not_mem_nil
  rw [List.length_append] at hn
  obtain ⟨n, rfl⟩ : ∃ k, n = k + 1 := ⟨n - 1, by omega⟩
  obtain ⟨pieces, found, hread, hadd, hfound⟩ := h n (by omega) (.text (String.ofList w) :: items)
  have htext := read?_text (n := n) (p := p) hw hlast hrest hgap
  rw [hread] at htext
  refine ⟨_, textItems w ++ found, htext, ?_, hfollows hfound⟩
  rw [List.foldl_cons, Trim.add_text, skipGap, List.takeWhile_append_dropWhile, hadd,
    textItems_of_not_gap hgap, List.reverse_append, List.append_assoc]
  rfl

theorem Reads.done (hw : '\x7b' ∉ w) : Reads p w w [] := by
  have hend {p : Place} {gap : List Char} (hgap : ∀ c ∈ gap, isGap c) : Reads p gap gap [] := by
    intro n hn items
    obtain ⟨n, rfl⟩ : ∃ k, n = k + 1 := ⟨n - 1, by omega⟩
    refine ⟨_, textItems gap, read?_end hgap, ?_, rfl⟩
    rw [Trim.reverse_textItems]
    exact Trim.add_end ..
  by_cases hgap : ∀ c ∈ w, isGap c
  · exact hend hgap
  · have hfollows {found} (hfound : Follows [] [] found) : Follows w [] (textItems w ++ found) := by
      have hnone : found = [] := hfound
      rw [hnone, List.append_nil]
      rfl
    have htext : Reads p (w ++ []) w [] := Reads.text hw (fun _ => rfl) (.inl rfl) hgap hfollows
      (hend fun c hc => absurd hc List.not_mem_nil)
    rwa [List.append_nil] at htext

/-- **A gap and a tag** are followed by what the rest gives. -/
theorem Reads.gap (hm : m.IsReadable) (hgap : ∀ c ∈ w, isGap c)
    (halone : Trim.mayStandAlone m.tag →
      (Piece.blankAfter rest && (p.pastAll w).lineIsBlank) = false)
    (h : Reads (p.pastAll (w ++ m.target)) rest [] symbols) :
    Reads p (w ++ (m.target ++ rest)) w (.mark m :: symbols) := by
  intro n hn items
  rw [List.length_append, List.length_append] at hn
  have hlong : 4 ≤ m.target.length := by
    rw [Mark.target, Template.reference, List.length_append, List.length_append]
    exact Nat.add_le_add_right (Nat.le_add_right 2 _) 2
  obtain ⟨n, rfl⟩ : ∃ k, n = k + 1 := ⟨n - 1, by omega⟩
  obtain ⟨pieces, found, hread, hadd, hfound⟩ := h n (by omega)
    (.tag m.tag (p.pastAll w).position :: (textItems w ++ items))
  have htag := read?_tag (n := n) (p := p) hm hgap rest
  rw [hread] at htag
  refine ⟨_, textItems w ++ .tag m.tag (p.pastAll w).position :: found, htag, ?_, _,
    found, rfl, hfound⟩
  rw [List.foldl_cons, Trim.add_tag halone, hadd]
  simp only [List.reverse_append, List.reverse_cons, Trim.reverse_textItems, List.append_assoc,
    List.cons_append, List.nil_append]

/-- Text and a tag are followed by what the rest gives. -/
theorem Reads.mark (hm : m.IsReadable) (hw : '\x7b' ∉ w) (hlast : w.getLast? ≠ some '\\')
    (halone : Trim.mayStandAlone m.tag →
      (Piece.blankAfter rest && (p.pastAll w).lineIsBlank) = false)
    (h : Reads (p.pastAll (w ++ m.target)) rest [] symbols) :
    Reads p (w ++ (m.target ++ rest)) w (.mark m :: symbols) := by
  by_cases hgap : ∀ c ∈ w, isGap c
  · exact Reads.gap hm hgap halone h
  · have htarget : AtTag (m.target ++ rest) := by
      refine .inr ⟨m.tagText ++ closeBraces ++ rest, ?_⟩
      rw [Mark.target, Template.reference]
      simp only [List.append_assoc]
    refine Reads.text hw (fun hslash => absurd hslash hlast) htarget hgap ?_
      (Reads.gap (w := []) hm (fun c hc => absurd hc List.not_mem_nil) halone ?_)
    · rintro _ ⟨position, rest, rfl, hrest⟩
      exact ⟨position, rest, rfl, hrest⟩
    · have hplace : ((p.pastAll w).pastAll ([] ++ m.target)) = p.pastAll (w ++ m.target) :=
        pastAll_append p w m.target
      rw [hplace]
      exact h

/-- A line that a tag stands on is not blank. -/
theorem lineIsBlank_target (p : Place) (w : List Char) (m : Mark) :
    (p.pastAll (w ++ m.target)).lineIsBlank = false := by
  have hsplit : w ++ m.target = (w ++ (openBraces ++ (m.tagText ++ ['\x7d']))) ++ ['\x7d'] := by
    rw [Mark.target, Template.reference]
    simp only [List.append_assoc]
    rfl
  rw [hsplit, ← pastAll_append]
  rfl

/-- **A converted parameter is read symbol by symbol.** -/
theorem reads_symbols (htext : ∀ c, .char c ∈ symbols → c ≠ '\x7b')
    (hmarks : ∀ m, .mark m ∈ symbols → m.IsReadable) (hw : '\x7b' ∉ w)
    (hlast : w.getLast? = some '\\' → startsWithMark symbols = false)
    (hundisturbed : Undisturbed (p.pastAll w).lineIsBlank symbols) :
    Reads p (w ++ write Mark.target symbols) w symbols := by
  -- `w` is what has been gathered since the last tag, so it grows with each character and is empty
  -- behind a mark
  induction symbols generalizing w p with
  | nil =>
    have hwrite : w ++ write Mark.target [] = w := List.append_nil w
    rw [hwrite]
    exact Reads.done hw
  | cons symbol symbols ih =>
    have htext' : ∀ c, .char c ∈ symbols → c ≠ '\x7b' :=
      fun c hc => htext c (List.mem_cons_of_mem _ hc)
    have hmarks' : ∀ m, .mark m ∈ symbols → m.IsReadable :=
      fun m hm => hmarks m (List.mem_cons_of_mem _ hm)
    cases symbol with
    | char c =>
      have happend : w ++ write Mark.target (.char c :: symbols) =
          (w ++ [c]) ++ write Mark.target symbols := by
        rw [List.append_assoc]
        rfl
      have hw' : '\x7b' ∉ w ++ [c] := by
        rw [List.mem_append, List.mem_singleton, not_or]
        exact ⟨hw, fun h => htext c List.mem_cons_self h.symm⟩
      have hpast : (p.pastAll (w ++ [c])).lineIsBlank =
          (c == '\n' || c == '\r' || (Text.isIndent c && (p.pastAll w).lineIsBlank)) := by
        rw [← pastAll_append]
        rfl
      rw [happend]
      exact ih htext' hmarks' hw'
        (fun h => hundisturbed.1 (Option.some.inj (List.getLast?_concat.symm.trans h)))
        (hpast ▸ hundisturbed.2)
    | mark m =>
      refine Reads.mark (hmarks m List.mem_cons_self) hw (fun h => nomatch hlast h)
        hundisturbed.1 ?_
      refine ih (w := []) htext' hmarks' List.not_mem_nil (fun h => nomatch h) ?_
      have hblank : ((p.pastAll (w ++ m.target)).pastAll []).lineIsBlank = false :=
        lineIsBlank_target p w m
      rw [hblank]
      exact hundisturbed.2

/-- **The items of a converted parameter** follow its symbols. -/
theorem ofText?_symbols (htext : ∀ c, .char c ∈ symbols → c ≠ '\x7b')
    (hmarks : ∀ m, .mark m ∈ symbols → m.IsReadable) (hundisturbed : Undisturbed true symbols) :
    ∃ pieces, Piece.ofText? (write Mark.target symbols) = some pieces ∧
      Follows [] symbols (Item.ofPieces pieces) := by
  obtain ⟨pieces, found, hread, hadd, hfollows⟩ :=
    reads_symbols (p := Place.start) (w := []) htext hmarks List.not_mem_nil
    (fun h => nomatch h) hundisturbed _ (Nat.lt_succ_self _) []
  refine ⟨pieces, hread, ?_⟩
  have hitems : Item.ofPieces pieces = found := by
    rw [Item.ofPieces]
    have hclean : (⟨false, false, []⟩ : Trim) = Trim.clean [] := rfl
    rw [hclean, hadd, Trim.clean, List.append_nil, List.reverse_reverse]
  rw [hitems]
  exact hfollows

end Block

end Runlist
