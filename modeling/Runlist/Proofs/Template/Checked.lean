import Runlist.Proofs.Template.Conversion

/-!
# Parameters pass the check

Before a parameter is converted its delimiters are counted and its statements are followed. A
parameter that is written from a tree has as many ends as starts, and after it as much is open as
before.

* `countOccurrences_write`: what is counted of a parameter.
* `Phrase.after_statements`: **what is open stays the same over a whole parameter.**
* `convert_phrase`: a parameter is converted mark by mark.
-/

namespace Runlist

namespace Text

variable {a : Char} {w s : List Char}

/-- More steps than characters make no difference. -/
theorem countOccurrences_go {n : Nat} (h : s.length ≤ n) :
    countOccurrences.go (a :: w) n s = countOccurrences (a :: w) s := by
  have hgo : ∀ (n m : Nat) (s : List Char), s.length ≤ n → s.length ≤ m →
      countOccurrences.go (a :: w) n s = countOccurrences.go (a :: w) m s := by
    intro n
    induction n with
    | zero =>
      intro m s hn hm
      obtain rfl := List.length_eq_zero_iff.1 (Nat.le_zero.1 hn)
      cases m <;> rfl
    | succ n ih =>
      intro m s hn hm
      cases s with
      | nil => cases m <;> rfl
      | cons c s =>
        cases m with
        | zero => exact absurd hm (Nat.not_succ_le_zero _)
        | succ m =>
          have hn' : s.length ≤ n := Nat.le_of_succ_le_succ hn
          have hm' : s.length ≤ m := Nat.le_of_succ_le_succ hm
          rw [countOccurrences.go, countOccurrences.go]
          cases hrest : afterPrefix? (a :: w) (c :: s) with
          | none => exact ih m s hn' hm'
          | some rest =>
            have hlength : rest.length ≤ s.length := by
              have := congrArg List.length (afterPrefix?_eq_some.1 hrest)
              rw [List.length_cons, List.length_append, List.length_cons] at this
              omega
            exact congrArg (· + 1) (ih m rest (hlength.trans hn') (hlength.trans hm'))
  exact hgo n s.length s h (Nat.le_refl _)

theorem countOccurrences_pass {c : Char} (h : afterPrefix? (a :: w) (c :: s) = none) :
    countOccurrences (a :: w) (c :: s) = countOccurrences (a :: w) s := by
  rw [countOccurrences, List.length_cons, countOccurrences.go, h]
  exact countOccurrences_go (Nat.le_refl _)

theorem countOccurrences_take (s : List Char) :
    countOccurrences (a :: w) (a :: w ++ s) = countOccurrences (a :: w) s + 1 := by
  have hprefix : afterPrefix? (a :: w) (a :: (w ++ s)) = some s := afterPrefix?_append (a :: w) s
  rw [countOccurrences, List.cons_append, List.length_cons, countOccurrences.go, hprefix]
  dsimp only
  rw [countOccurrences_go (by rw [List.length_append]; omega)]

/-- Nothing is counted where the first character is missing. -/
theorem countOccurrences_append {u : List Char} (hu : a ∉ u) (s : List Char) :
    countOccurrences (a :: w) (u ++ s) = countOccurrences (a :: w) s := by
  induction u with
  | nil => rfl
  | cons c u ih =>
    have hne : a ≠ c := fun h => hu (h ▸ List.mem_cons_self)
    rw [List.cons_append, countOccurrences_pass (if_neg hne), ih (List.not_mem_of_not_mem_cons hu)]

end Text

namespace Template

variable {symbols : List Symbol} {names : List Ident} {s : List Char}

/-! ## Delimiters -/

/-- **How a mark is written**: between double braces or between percent signs. -/
theorem source_shape {m : Mark} (hm : m.isClean (names.map Ident.text)) :
    ∃ c u, isInside c ∧ Plain u ∧
    m.source = if m.isReference then openBraces ++ (c :: u ++ closeBraces)
      else opening ++ (c :: u ++ closing) := by
  have hbraces {u : List Char} (hu : Plain u) : ∃ c v, isInside c ∧ Plain v ∧
      openBraces ++ ' ' :: u ++ ' ' :: closeBraces = openBraces ++ (c :: v ++ closeBraces) := by
    refine ⟨' ', u ++ [' '], rfl, plain_append.2 ⟨hu, by decide⟩, ?_⟩
    simp only [List.append_assoc, List.cons_append, List.nil_append]
  cases m with
  | output out => exact hbraces (plain_output (isLiteral_of_isClean hm))
  | item name fields => exact hbraces (plain_dotted _)
  | branch condition =>
    exact ⟨' ', _, rfl, (plain_cons.1 (plain_inside hm)).2, List.append_assoc ..⟩
  | elif condition => exact ⟨' ', _, rfl, (plain_cons.1 (plain_inside hm)).2, List.append_assoc ..⟩
  | otherwise => exact ⟨' ', _, rfl, (plain_cons.1 (plain_inside hm)).2, List.append_assoc ..⟩
  | endBranch => exact ⟨' ', _, rfl, (plain_cons.1 (plain_inside hm)).2, List.append_assoc ..⟩
  | loop name list => exact ⟨' ', _, rfl, (plain_cons.1 (plain_inside hm)).2, List.append_assoc ..⟩
  | endLoop => exact ⟨' ', _, rfl, (plain_cons.1 (plain_inside hm)).2, List.append_assoc ..⟩

theorem head?_write (h : Writable names symbols) :
    (write Mark.source symbols).head? ≠ some '\x7d' := by
  cases symbols with
  | nil => exact fun hc => nomatch hc
  | cons symbol symbols =>
    cases symbol with
    | char c => exact fun hc => (h.text c List.mem_cons_self).2 (Option.some.inj hc)
    | mark m =>
      obtain ⟨c, u, hsource, -⟩ := (h.starts List.mem_cons_self).1
      rw [write, hsource, List.cons_append, List.head?_cons]
      decide

theorem Writable.tail {symbol : Symbol} (h : Writable names (symbol :: symbols)) :
    Writable names symbols :=
  ⟨fun c hc => h.text c (List.mem_cons_of_mem _ hc), fun m hm =>
    h.marks m (List.mem_cons_of_mem _ hm)⟩

/-- **What is counted of a parameter**: the marks that have the delimiter. -/
theorem countOccurrences_write (h : Writable names symbols) {a b : Char} {hit : Mark → Bool}
    (hchar : ∀ {c s}, c ≠ '\x7b' → c ≠ '\x7d' → s.head? ≠ some '\x7d' →
      Text.afterPrefix? [a, b] (c :: s) = none)
    (hmark : ∀ {m : Mark}, m.isClean (names.map Ident.text) →
      ∀ {s : List Char}, s.head? ≠ some '\x7d' →
      Text.countOccurrences [a, b] (m.source ++ s) =
        Text.countOccurrences [a, b] s + (if hit m then 1 else 0)) :
    Text.countOccurrences [a, b] (write Mark.source symbols) = (marksOf symbols).countP hit := by
  induction symbols with
  | nil => rfl
  | cons symbol symbols ih =>
    have hhead := head?_write h.tail
    cases symbol with
    | char c =>
      obtain ⟨hopen, hclose⟩ := h.text c List.mem_cons_self
      rw [write, Text.countOccurrences_pass (hchar hopen hclose hhead), ih h.tail]
      rfl
    | mark m =>
      have hmarks : marksOf (.mark m :: symbols) = m :: marksOf symbols := rfl
      rw [write, hmark (h.marks m List.mem_cons_self) hhead, ih h.tail, hmarks, List.countP_cons]

theorem afterPrefix?_pair {a b c : Char} (h : a = c → s.head? ≠ some b) :
    Text.afterPrefix? [a, b] (c :: s) = none := by
  rw [Text.afterPrefix?]
  split
  · rename_i hac
    cases s with
    | nil => rfl
    | cons d s =>
      rw [Text.afterPrefix?, if_neg]
      rintro rfl
      exact h hac rfl
  · rfl

theorem Plain.not_mem {u : List Char} (h : Plain u) : '\x7b' ∉ u ∧ '\x7d' ∉ u ∧ '%' ∉ u :=
  ⟨fun hmem => (isInside_iff.1 (h _ hmem)).1 rfl, fun hmem => (isInside_iff.1 (h _ hmem)).2.1 rfl,
    fun hmem => (isInside_iff.1 (h _ hmem)).2.2 rfl⟩

section

variable {m : Mark}

/-- Opening braces are those of references. -/
theorem count_openBraces (hm : m.isClean (names.map Ident.text)) :
    Text.countOccurrences openBraces (m.source ++ s) =
    Text.countOccurrences openBraces s + (if m.isReference then 1 else 0) := by
  obtain ⟨c, u, hc, hu, hsource⟩ := source_shape hm
  have hinside := (plain_cons.2 ⟨hc, hu⟩).not_mem.1
  rw [hsource]
  split
  · have hno : '\x7b' ∉ c :: u ++ closeBraces := by
      rw [List.mem_append, not_or]
      exact ⟨hinside, by decide⟩
    rw [List.append_assoc, openBraces]
    exact (Text.countOccurrences_take _).trans
      (congrArg (· + 1) (Text.countOccurrences_append hno s))
  · have hno : '\x7b' ∉ '%' :: (c :: u ++ closing) := by
      rw [List.mem_cons, List.mem_append, not_or, not_or]
      exact ⟨by decide, hinside, by decide⟩
    have hpercent : ('%' :: (c :: u ++ closing) ++ s).head? ≠ some '\x7b' :=
      fun h => absurd (Option.some.inj h) (by decide)
    exact (Text.countOccurrences_pass (afterPrefix?_pair fun _ => hpercent)).trans
      (Text.countOccurrences_append hno s)

/-- Closing braces are those of references, unless a brace follows a statement. -/
theorem count_closeBraces (hm : m.isClean (names.map Ident.text)) (hs : s.head? ≠ some '\x7d') :
    Text.countOccurrences closeBraces (m.source ++ s) =
      Text.countOccurrences closeBraces s + (if m.isReference then 1 else 0) := by
  obtain ⟨c, u, hc, hu, hsource⟩ := source_shape hm
  have hinside := (plain_cons.2 ⟨hc, hu⟩).not_mem.2.1
  rw [hsource]
  split
  · have hno : '\x7d' ∉ openBraces ++ (c :: u) := by
      rw [List.mem_append, not_or]
      exact ⟨by decide, hinside⟩
    rw [← List.append_assoc, List.append_assoc]
    exact (Text.countOccurrences_append hno _).trans (Text.countOccurrences_take s)
  · have hno : '\x7d' ∉ opening ++ (c :: u ++ ['%']) := by
      rw [List.mem_append, List.mem_append, not_or, not_or]
      exact ⟨by decide, hinside, by decide⟩
    have hsplit : opening ++ (c :: u ++ closing) ++ s =
        opening ++ (c :: u ++ ['%']) ++ '\x7d' :: s := by
      have hclosing : closing = ['%'] ++ ['\x7d'] := rfl
      rw [hclosing]
      simp only [List.append_assoc, List.cons_append, List.nil_append]
    rw [hsplit]
    exact (Text.countOccurrences_append hno _).trans
      (Text.countOccurrences_pass (afterPrefix?_pair fun _ => hs))

/-- Starts of statements are those of statements. -/
theorem count_opening (hm : m.isClean (names.map Ident.text)) :
    Text.countOccurrences opening (m.source ++ s) =
    Text.countOccurrences opening s + (if !m.isReference then 1 else 0) := by
  obtain ⟨c, u, hc, hu, hsource⟩ := source_shape hm
  have hinside := (plain_cons.2 ⟨hc, hu⟩).not_mem.1
  rw [hsource]
  cases m.isReference with
  | true =>
    have hno : '\x7b' ∉ c :: u ++ closeBraces := by
      rw [List.mem_append, not_or]
      exact ⟨hinside, by decide⟩
    have hpercent : ((c :: u ++ closeBraces) ++ s).head? ≠ some '%' := fun h =>
      (isInside_iff.1 hc).2.2 (Option.some.inj h)
    have hbrace : ('\x7b' :: (c :: u ++ closeBraces) ++ s).head? ≠ some '%' :=
      fun h => absurd (Option.some.inj h) (by decide)
    exact (Text.countOccurrences_pass (afterPrefix?_pair fun _ => hbrace)).trans
      ((Text.countOccurrences_pass (afterPrefix?_pair fun _ => hpercent)).trans
        (Text.countOccurrences_append hno s))
  | false =>
    have hno : '\x7b' ∉ c :: u ++ closing := by
      rw [List.mem_append, not_or]
      exact ⟨hinside, by decide⟩
    exact (Text.countOccurrences_take _).trans
      (congrArg (· + 1) (Text.countOccurrences_append hno s))

/-- Ends of statements are those of statements. -/
theorem count_closing (hm : m.isClean (names.map Ident.text)) :
    Text.countOccurrences closing (m.source ++ s) =
    Text.countOccurrences closing s + (if !m.isReference then 1 else 0) := by
  obtain ⟨c, u, hc, hu, hsource⟩ := source_shape hm
  have hinside := (plain_cons.2 ⟨hc, hu⟩).not_mem.2.2
  rw [hsource]
  cases m.isReference with
  | true =>
    have hno : '%' ∉ openBraces ++ (c :: u ++ closeBraces) := by
      rw [List.mem_append, List.mem_append, not_or, not_or]
      exact ⟨by decide, hinside, by decide⟩
    exact Text.countOccurrences_append hno s
  | false =>
    have hbrace : ((c :: u ++ closing) ++ s).head? ≠ some '\x7d' :=
      fun h => (isInside_iff.1 hc).2.1 (Option.some.inj h)
    have hfirst : '%' ∉ ['\x7b'] := by decide
    have hsplit : (c :: u ++ closing) ++ s = (c :: u) ++ (closing ++ s) := List.append_assoc ..
    refine (Text.countOccurrences_append hfirst _).trans
      ((Text.countOccurrences_pass (afterPrefix?_pair fun _ => hbrace)).trans ?_)
    rw [hsplit]
    exact (Text.countOccurrences_append hinside _).trans (Text.countOccurrences_take s)

end

/-- **Every delimiter that opens is closed.** -/
theorem Writable.delimiters (h : Writable names symbols) :
    Text.countOccurrences openBraces (write Mark.source symbols) =
        Text.countOccurrences closeBraces (write Mark.source symbols) ∧
      Text.countOccurrences opening (write Mark.source symbols) =
        Text.countOccurrences closing (write Mark.source symbols) := by
  have hopenBraces := countOccurrences_write h (a := '\x7b') (b := '\x7b')
    (fun hc _ _ => afterPrefix?_pair fun heq => absurd heq.symm hc)
    fun hm _ _ => count_openBraces hm
  have hcloseBraces := countOccurrences_write h (a := '\x7d') (b := '\x7d')
    (fun _ hc _ => afterPrefix?_pair fun heq => absurd heq.symm hc) fun hm _ hs =>
    count_closeBraces hm hs
  have hopening := countOccurrences_write h (a := '\x7b') (b := '%')
    (fun hc _ _ => afterPrefix?_pair fun heq => absurd heq.symm hc) fun hm _ _ => count_opening hm
  have hclosing := countOccurrences_write h (a := '%') (b := '\x7d')
    (fun _ _ hs => afterPrefix?_pair fun _ => hs) fun hm _ _ => count_closing hm
  exact ⟨hopenBraces.trans hcloseBraces.symm, hopening.trans hclosing.symm⟩

/-! ## Statements -/

/-- The keyword of a statement. -/
def Mark.keyword : Mark → Option String
  | .branch _ => some "if"
  | .elif _ => some "elif"
  | .otherwise => some "else"
  | .endBranch => some "endif"
  | .loop .. => some "for"
  | .endLoop => some "endfor"
  | _ => none

/-- The keyword of a statement is read. -/
theorem statement?_keyword (name : Ident) {u : List Char} (hu : Plain u) (s : List Char) :
    statement? (opening ++ (' ' :: name.text ++ ' ' :: u ++ closing) ++ s) =
      some (name.text, s) := by
  have hsplit : opening ++ (' ' :: name.text ++ ' ' :: u ++ closing) ++ s =
      opening ++ ' ' :: (name.text ++ ' ' :: (u ++ (closing ++ s))) := by
    simp only [List.append_assoc, List.cons_append]
  have hopening : afterOpening? (opening ++ ' ' :: (name.text ++ ' ' :: (u ++ (closing ++ s)))) =
      some (Text.trimLeft (name.text ++ ' ' :: (u ++ (closing ++ s)))) := rfl
  have hpercent : ∀ c ∈ ' ' :: u, (c != '%') = true := fun c hc => by
    rcases List.mem_cons.1 hc with rfl | hc
    · rfl
    · exact bne_iff_ne.2 (isInside_iff.1 (hu c hc)).2.2
  have hend : (' ' :: (u ++ (closing ++ s))).dropWhile (· != '%') = closing ++ s :=
    Text.dropWhile_append_cons (u := ' ' :: u) hpercent rfl ('\x7d' :: s)
  rw [hsplit, statement?, hopening, trimLeft_ident]
  simp only [Option.bind_eq_bind, Option.bind_some, word?_ident name (c := ' ') rfl, hend,
    Text.afterPrefix?_append, Option.pure_def]

theorem statement?_source {m : Mark} (hm : m.isClean (names.map Ident.text)) (s : List Char) :
    statement? (m.source ++ s) = m.keyword.map fun keyword => (keyword.toList, s) := by
  cases m with
  | output out => rfl
  | item name fields => rfl
  | branch condition =>
    exact statement?_keyword ⟨"if".toList, by decide⟩ (u := condition.text ++ [' '])
      (plain_append.2 ⟨plain_condition hm, by decide⟩) s
  | elif condition =>
    exact statement?_keyword ⟨"elif".toList, by decide⟩ (u := condition.text ++ [' '])
      (plain_append.2 ⟨plain_condition (isLiteral_of_isPlain hm), by decide⟩) s
  | otherwise => exact statement?_keyword ⟨"else".toList, by decide⟩ (u := []) (by decide) s
  | endBranch => exact statement?_keyword ⟨"endif".toList, by decide⟩ (u := []) (by decide) s
  | loop name list =>
    have hin : Plain (' ' :: "in".toList) := by decide
    have hhead : Plain (name.text ++ ' ' :: "in".toList) :=
      plain_append.2 ⟨plain_word fun c hc => isWord_of_isNameChar (name.isNameChar c hc), hin⟩
    have hplain : Plain (name.text ++ ' ' :: "in".toList ++ ' ' :: list.text ++ [' ']) :=
      plain_append.2 ⟨plain_append.2 ⟨hhead, plain_cons.2 ⟨rfl, plain_dotted list⟩⟩, by decide⟩
    have hsource : (Mark.loop name list).source = opening ++
        (' ' :: "for".toList ++
          ' ' :: (name.text ++ ' ' :: "in".toList ++ ' ' :: list.text ++ [' ']) ++ closing) := by
      simp only [Mark.source, Mark.inside, List.append_assoc, List.cons_append]
    rw [hsource]
    exact statement?_keyword ⟨"for".toList, by decide⟩ hplain s
  | endLoop => exact statement?_keyword ⟨"endfor".toList, by decide⟩ (u := []) (by decide) s

/-- The keywords of the statements of a parameter. -/
def keywordsOf (symbols : List Symbol) : List String := (marksOf symbols).filterMap Mark.keyword

theorem braced_statement? : Braced statement? := by
  intro s hsome
  obtain ⟨⟨keyword, rest⟩, h⟩ := Option.isSome_iff_exists.1 hsome
  simp only [statement?, afterOpening?, Option.bind_eq_bind, Option.bind_eq_some_iff,
    Option.map_eq_some_iff] at h
  obtain ⟨_, ⟨u, hu, -⟩, -⟩ := h
  exact .inr ⟨u, (Text.afterPrefix?_eq_some.1 hu).symm⟩

theorem Writable.keywords (h : Writable names symbols) :
    keywords (write Mark.source symbols) = keywordsOf symbols := by
  rw [Template.keywords, findAll_write (fun m => m.keyword.map String.toList) braced_statement?
    (fun c hc => (h.text c hc).1) (fun m hm => (h.starts hm).1), List.map_filterMap, keywordsOf]
  · congr 1
    funext m
    cases m.keyword with
    | none => rfl
    | some keyword => exact congrArg some (String.ofList_toList)
  · intro m hm s
    rw [statement?_source (h.marks m hm), Option.map_map]
    rfl

theorem keywordsOf_append (σ τ : List Symbol) :
    keywordsOf (σ ++ τ) = keywordsOf σ ++ keywordsOf τ := by
  rw [keywordsOf, marksOf, List.filterMap_append, List.filterMap_append]
  rfl

theorem keywordsOf_chars (text : List Char) (symbols : List Symbol) :
    keywordsOf (chars text ++ symbols) = keywordsOf symbols := by
  induction text with
  | nil => rfl
  | cons c text ih => exact ih

/-- The items of a round are no statements. -/
theorem keywordsOf_round (item : Ident) (round : Round) (symbols : List Symbol) :
    keywordsOf (round.symbols item ++ symbols) = keywordsOf symbols := by
  rw [Round.symbols]
  induction round.parts with
  | nil => exact keywordsOf_chars round.last symbols
  | cons part parts ih =>
    rw [List.foldr_cons, List.append_assoc, keywordsOf_chars]
    exact ih

/-- What is open after the statements of some symbols. -/
def Depth.over (d : Depth) (symbols : List Symbol) : Except TemplateError Depth :=
  (keywordsOf symbols).foldlM Depth.after d

theorem Depth.over_chars (d : Depth) (text : List Char) (symbols : List Symbol) :
    d.over (chars text ++ symbols) = d.over symbols := by
  rw [Depth.over, keywordsOf_chars, Depth.over]

theorem Depth.over_append {d e : Depth} {σ : List Symbol} (h : d.over σ = .ok e) (τ : List Symbol) :
    d.over (σ ++ τ) = e.over τ := by
  rw [Depth.over, keywordsOf_append, List.foldlM_append]
  rw [Depth.over] at h
  rw [h]
  rfl

theorem Depth.over_mark {m : Mark} {keyword : String} (hm : m.keyword = some keyword) {d e : Depth}
    (h : d.after keyword = .ok e) (symbols : List Symbol) : d.over (.mark m :: symbols) =
      e.over symbols := by
  have hkeywords : keywordsOf (.mark m :: symbols) = keyword :: keywordsOf symbols := by
    rw [keywordsOf, keywordsOf, ← List.filterMap_cons_some hm]
    rfl
  rw [Depth.over, hkeywords, List.foldlM_cons, h]
  rfl

mutual
/-- **What is open stays the same over a whole parameter.** -/
theorem Phrase.over_symbols (d : Depth) : ∀ phrase : Phrase, d.over phrase.symbols = .ok d
  | .done text => by
    rw [Phrase.symbols, ← List.append_nil (chars text), Depth.over_chars]
    rfl
  | .output text out rest => by
    rw [Phrase.symbols, Depth.over_chars]
    exact rest.over_symbols d
  | .branch text condition body others rest => by
    have hend : Depth.after ⟨d.ifs + 1, d.fors⟩ "endif" = .ok d := rfl
    rw [Phrase.symbols, Depth.over_chars,
      Depth.over_mark (m := .branch condition) rfl (e := ⟨d.ifs + 1, d.fors⟩) rfl,
      Depth.over_append (body.over_symbols _),
      Depth.over_append (others.over_symbols _ (Nat.succ_ne_zero _)),
      Depth.over_mark (m := .endBranch) rfl hend]
    exact rest.over_symbols d
  | .loop text item list round rest => by
    have hround (e : Depth) (symbols : List Symbol) : e.over (round.symbols item ++ symbols) =
        e.over symbols := by
      rw [Depth.over, keywordsOf_round, Depth.over]
    have hend : Depth.after ⟨d.ifs, d.fors + 1⟩ "endfor" = .ok d := rfl
    rw [Phrase.symbols, Depth.over_chars,
      Depth.over_mark (m := .loop item list) rfl (e := ⟨d.ifs, d.fors + 1⟩) rfl, hround,
      Depth.over_mark (m := .endLoop) rfl hend]
    exact rest.over_symbols d

/-- Further branches stand in a branching, and leave open what is open. -/
theorem Branches.over_symbols (d : Depth) (h : d.ifs ≠ 0) :
    ∀ others : Branches, d.over others.symbols = .ok d
  | .stop => rfl
  | .otherwise body => by
    rw [Branches.symbols, Depth.over_mark (m := .otherwise) rfl (e := d) rfl]
    exact body.over_symbols d
  | .also condition body others => by
    have helif : d.after "elif" = .ok d := if_neg h
    rw [Branches.symbols, Depth.over_mark (m := .elif condition) rfl helif,
      Depth.over_append (body.over_symbols d)]
    exact others.over_symbols d h
end

/-- **A parameter that is written from a tree passes the check.** -/
theorem validate_phrase {phrase : Phrase} (h : Writable names phrase.symbols) :
    validate (write Mark.source phrase.symbols) = .ok () := by
  have hdepth : (keywords (write Mark.source phrase.symbols)).foldlM Depth.after ⟨0, 0⟩ =
      .ok ⟨0, 0⟩ := by
    rw [h.keywords]
    exact phrase.over_symbols ⟨0, 0⟩
  have hreference :
      checkDelimiters .reference openBraces closeBraces (write Mark.source phrase.symbols) =
        .ok () :=
    if_pos h.delimiters.1
  have hstatement :
      checkDelimiters .statement opening closing (write Mark.source phrase.symbols) = .ok () :=
    if_pos h.delimiters.2
  rw [validate, hreference, hstatement, hdepth]
  rfl

/-- **A parameter is converted mark by mark.** -/
theorem convert_phrase {phrase : Phrase} (h : Writable (loopNames phrase.symbols) phrase.symbols) :
    convert phrase.source = .ok (String.ofList (write Mark.target phrase.symbols)) := by
  rw [convert, Phrase.source, String.toList_ofList, validate_phrase h]
  simp only [applyRules_conditions h, h.items]
  rw [h.loops rfl, h.comparisons]
  rfl

end Template

end Runlist
