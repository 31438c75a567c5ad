import Runlist.Proofs.Template.Evaluated

/-!
# What parameters are evaluated to

Parameters of four kinds are evaluated to what they mean, and for each kind there is a parameter
beyond it that is not.

* `loop_iterates`: **a loop between two parameters gives a round for each item of its list**; a
  fallback for the item is beyond it.
* `references_replaced`: **references are replaced by the text of their values**, in strict mode and
  without it; a backslash in front of a reference hides it.
* `first_branch_taken`: **of the branches of a condition the first one is taken that holds**; a
  comparison in a further branch is not read.
* `literals_kept`: **quoted texts keep their value**, as fallbacks and in comparisons; an apostrophe
  does not.
-/

namespace Runlist

namespace Template

/-! ## Loops -/

/-- A character of a word, or a mark that is converted to what it means and read as that. -/
def Symbol.isSound (names : List (List Char)) : Symbol → Bool
  | .char c => Text.isWord c
  | .mark m => m.isClean names && m.isRead

/-- **The symbols are words, and marks that mean what they say**: the names of loops' variables
stand in their loops only, and what is put out or asked for is not named like a helper or another
word of templates. -/
def Sound (symbols : List Symbol) : Prop :=
  ∀ symbol ∈ symbols, symbol.isSound ((loopNames symbols).map Ident.text)

instance (symbols : List Symbol) : Decidable (Sound symbols) := List.decidableBAll _ symbols

theorem Sound.faithful {phrase : Phrase} {strict : Bool} {vars : Variables}
    (h : Sound phrase.symbols) (hfits : phrase.fits strict (.object vars)) :
    phrase.Faithful strict vars where
  text c hc := by
    have hword : Text.isWord c := h _ hc
    constructor <;> rintro rfl <;> exact absurd hword (by decide)
  clean m hm := (Bool.and_eq_true_iff.1 (h _ hm)).1
  read m hm := (Bool.and_eq_true_iff.1 (h _ hm)).2
  undisturbed := undisturbed_words fun _ hc => h _ hc
  fits := hfits

/-- Without loops there are no loops' variables. -/
theorem loopNames_eq_nil {symbols : List Symbol} (h : ∀ m, .mark m ∈ symbols → m.loop? = none) :
    loopNames symbols = [] := by
  rw [loopNames, marksOf, List.filterMap_filterMap, List.filterMap_eq_nil_iff]
  intro symbol hsymbol
  cases symbol with
  | char c => rfl
  | mark m =>
    have hnone := h m hsymbol
    simp only [Option.bind_some, hnone, Option.map_none]

/-- A parameter that goes on where another one ends: its text goes on with the last text of the
other. -/
def Phrase.andThen (next : List Char → Phrase) : Phrase → Phrase
  | .done text => next text
  | .output text out rest => .output text out (rest.andThen next)
  | .branch text condition body others rest =>
    .branch text condition body others (rest.andThen next)
  | .loop text item list round rest => .loop text item list round (rest.andThen next)

/-- What holds of a last text, and in front of whatever it holds of, holds of every parameter. -/
theorem Phrase.along {motive : Phrase → Prop} (done : ∀ text, motive (.done text))
    (output : ∀ text out rest, motive rest → motive (.output text out rest))
    (branch : ∀ text condition body others rest, motive rest →
      motive (.branch text condition body others rest))
    (loop : ∀ text item list round rest, motive rest → motive (.loop text item list round rest))
    (phrase : Phrase) : motive phrase :=
  @Phrase.rec motive (fun _ => True) done output
    (fun text condition body others rest _ _ => branch text condition body others rest) loop trivial
    (fun _ _ => trivial)
    (fun _ _ _ _ _ => trivial) phrase

section

variable {next : List Char → Phrase}

theorem Phrase.symbols_andThen {tail : List Symbol}
    (h : ∀ text, (next text).symbols = chars text ++ tail) (phrase : Phrase) :
    (phrase.andThen next).symbols = phrase.symbols ++ tail := by
  induction phrase using Phrase.along with
  | done text => exact h text
  | output text out rest ih =>
    rw [andThen, symbols, ih, symbols, List.append_assoc, List.cons_append]
  | branch text condition body others rest ih =>
    rw [andThen, symbols, ih, symbols]
    simp only [List.append_assoc, List.cons_append]
  | loop text item list round rest ih =>
    rw [andThen, symbols, ih, symbols]
    simp only [List.append_assoc, List.cons_append]

theorem Phrase.meaning_andThen {data : Json} {tail : String}
    (h : ∀ text, (next text).meaning data = String.ofList text ++ tail) (phrase : Phrase) :
    (phrase.andThen next).meaning data = phrase.meaning data ++ tail := by
  induction phrase using Phrase.along with
  | done text => exact h text
  | output text out rest ih =>
    rw [andThen, meaning, ih, meaning]
    simp only [String.append_assoc]
  | branch text condition body others rest ih =>
    rw [andThen, meaning, ih, meaning]
    simp only [String.append_assoc]
  | loop text item list round rest ih =>
    rw [andThen, meaning, ih, meaning]
    simp only [String.append_assoc]

theorem Phrase.fits_andThen {strict : Bool} {data : Json} (h : ∀ text, (next text).fits strict data)
    (phrase : Phrase) (hfits : phrase.fits strict data) :
    (phrase.andThen next).fits strict data := by
  induction phrase using Phrase.along with
  | done text => exact h text
  | output text out rest ih =>
    obtain ⟨hout, hrest⟩ := Bool.and_eq_true_iff.1 hfits
    exact Bool.and_eq_true_iff.2 ⟨hout, ih hrest⟩
  | branch text condition body others rest ih =>
    simp only [fits, Bool.and_eq_true] at hfits
    obtain ⟨hcondition, hbody, hothers, hrest⟩ := hfits
    simp only [andThen, fits, Bool.and_eq_true]
    exact ⟨hcondition, hbody, hothers, ih hrest⟩
  | loop text item list round rest ih =>
    simp only [fits, Bool.and_eq_true] at hfits
    obtain ⟨hout, hround, hrest⟩ := hfits
    simp only [andThen, fits, Bool.and_eq_true]
    exact ⟨hout, hround, ih hrest⟩

end

/-- The keys of a value that is there ask no list. -/
theorem keepsOut_of_at {value : Json} {keys : List String} (h : (value.at? keys).isSome) :
    value.keepsOut keys := by
  induction keys generalizing value with
  | nil => rfl
  | cons key keys ih =>
    cases value with
    | object entries =>
      rw [Json.at?] at h
      rw [Json.keepsOut]
      cases hget : Fields.get? entries key with
      | none => rfl
      | some item =>
        rw [hget] at h
        exact ih h
    | array items => cases h
    | _ => rfl

/-- The symbols of a loop between two parameters. -/
def loopSymbols (pre : Phrase) (item : Ident) (list : Dotted) (round : Round)
    (post : Phrase) : List Symbol :=
  pre.symbols ++ .mark (.loop item list) :: (round.symbols item ++ .mark .endLoop :: post.symbols)

/-- **A loop between two parameters gives a round for each item of its list**, in order, after what
stands in front of it and before what stands behind it. In a round the variable stands for the item;
around the loop no name is the variable's. -/
theorem loop_iterates (pre post : Phrase) (item : Ident) (list : Dotted) (round : Round)
    (vars : Variables) (items : List Json) (hsound : Sound (loopSymbols pre item list round post))
    (hpre : pre.fits false (.object vars)) (hpost : post.fits false (.object vars))
    (hlist : (Json.object vars).at? list.keys = some (.array items))
    (hitems : ∀ item ∈ items, round.fits false item) :
    evaluate false (String.ofList (write Mark.source (loopSymbols pre item list round post))) vars =
      .ok (pre.meaning (.object vars) ++ (items.map round.meaning).foldr (· ++ ·) "" ++
        post.meaning (.object vars)) := by
  -- the loop goes on where `pre` ends, so that the whole is one parameter
  have hsymbols : (pre.andThen fun text => .loop text item list round post).symbols =
      loopSymbols pre item list round post :=
    Phrase.symbols_andThen (fun _ => rfl) pre
  have hloop (text : List Char) :
      (Phrase.loop text item list round post).fits false (.object vars) := by
    have hthere : ((Json.object vars).at? list.keys).isSome := by rw [hlist]; rfl
    have hround : round.fitsAll false ((Json.object vars).at? list.keys) := by
      rw [hlist]
      exact List.all_eq_true.2 hitems
    exact Bool.and_eq_true_iff.2 ⟨keepsOut_of_at hthere, Bool.and_eq_true_iff.2 ⟨hround, hpost⟩⟩
  have hfaithful : (pre.andThen fun text => .loop text item list round post).Faithful false vars :=
    Sound.faithful (hsymbols ▸ hsound) (Phrase.fits_andThen hloop pre hpre)
  have htail (text : List Char) : (Phrase.loop text item list round post).meaning (.object vars) =
      String.ofList text ++
        ((items.map round.meaning).foldr (· ++ ·) "" ++ post.meaning (.object vars)) := by
    rw [Phrase.meaning, hlist, Json.loopItems, String.append_assoc]
  have hmeaning := Phrase.meaning_andThen htail pre
  rw [← hsymbols, String.append_assoc, ← hmeaning]
  exact evaluate_phrase hfaithful

/-- A loop between a reference and a word, over two mappings. -/
theorem loop_over_mappings :
    evaluate false (String.ofList (write Mark.source (loopSymbols
      (.output "hi".toList (.value ⟨⟨['a'], by decide⟩, []⟩) (.done [])) ⟨['v'], by decide⟩
      ⟨⟨['x', 's'], by decide⟩, []⟩
      ⟨[(['0'], [⟨['f'], by decide⟩])], []⟩ (.done "end".toList))))
      [("a", .string "1"),
        ("xs", .array [.object [("f", .string "p")], .object [("f", .bool true)]])] =
          .ok "hi10p0trueend" :=
  (loop_iterates (.output "hi".toList (.value ⟨⟨['a'], by decide⟩, []⟩) (.done []))
    (.done "end".toList) ⟨['v'], by decide⟩
    ⟨⟨['x', 's'], by decide⟩, []⟩ ⟨[(['0'], [⟨['f'], by decide⟩])], []⟩
    [("a", .string "1"), ("xs", .array [.object [("f", .string "p")], .object [("f", .bool true)]])]
    [.object [("f", .string "p")], .object [("f", .bool true)]] (by decide) (by decide)
      (by decide) rfl (by decide)).trans
    (congrArg Except.ok (by decide))

/-- A fallback for the item is looked for in the item, and taken. -/
theorem item_fallback_taken :
    evaluate false "\x7b% for v in xs %\x7d\x7b\x7b v | default('d') \x7d\x7d\x7b% endfor %\x7d"
      [("xs", .array [.string "a"])] ≠ .ok "a" := by
  decide +kernel

/-! ## References -/

end Template

/-- The text of a string, an integer or a boolean. -/
def Json.scalarText? : Json → Option String
  | .string s => some s
  | .number (.int i) => some (toString i)
  | .bool b => some (if b then "true" else "false")
  | _ => none

namespace Template

theorem outputText_eq {value : Option Json} (h : (value.bind Json.scalarText?).isSome) :
    Json.outputText value = (value.bind Json.scalarText?).getD "" := by
  cases value with
  | none => rfl
  | some value =>
    cases value with
    | number n =>
      cases n with
      | int i => rfl
      | float x => cases h
    | null => rfl
    | array items => cases h
    | object entries => cases h
    | _ => rfl

/-- Texts with references between them. -/
def references (parts : List (List Char × Dotted)) (last : List Char) : Phrase :=
  parts.foldr (fun part rest => .output part.1 (.value part.2) rest) (.done last)

section

variable {parts : List (List Char × Dotted)} {last : List Char}

theorem references_source : (references parts last).source =
    String.ofList (parts.foldr
      (fun part rest => part.1 ++ (reference (' ' :: part.2.text ++ [' ']) ++ rest)) last) := by
  refine congrArg String.ofList ?_
  induction parts with
  | nil => exact write_chars Mark.source last
  | cons part parts ih =>
    have hwrite : write Mark.source (references (part :: parts) last).symbols =
        part.1 ++ ((Mark.output (.value part.2)).source ++ write Mark.source
          (references parts last).symbols) :=
      (write_append ..).trans (congrArg (· ++ _) (write_chars Mark.source part.1))
    rw [hwrite, ih, List.foldr_cons, ← braces_source]
    rfl

theorem references_meaning {data : Json}
    (hvalues : ∀ part ∈ parts, ((data.at? part.2.keys).bind Json.scalarText?).isSome) :
    (references parts last).meaning data = parts.foldr (fun part rest =>
      String.ofList part.1 ++ (((data.at? part.2.keys).bind Json.scalarText?).getD "" ++ rest))
        (String.ofList last) := by
  induction parts with
  | nil => rfl
  | cons part parts ih =>
    have hmeaning : (references (part :: parts) last).meaning data =
        String.ofList part.1 ++ Json.outputText (data.at? part.2.keys) ++
          (references parts last).meaning data := rfl
    rw [hmeaning, ih fun other hother => hvalues other (List.mem_cons_of_mem _ hother),
      outputText_eq (hvalues part List.mem_cons_self), String.append_assoc, List.foldr_cons]

theorem references_symbols : (references parts last).symbols =
    (parts.flatMap fun part => chars part.1 ++ [.mark (.output (.value part.2))]) ++
      chars last := by
  induction parts with
  | nil => rfl
  | cons part parts ih =>
    rw [List.flatMap_cons, List.append_assoc, ← ih, List.append_assoc]
    rfl

theorem references_undisturbed (hslash : ∀ part ∈ parts, part.1.getLast? ≠ some '\\')
    (blank : Bool) : Block.Undisturbed blank (references parts last).symbols := by
  induction parts generalizing blank with
  | nil => exact undisturbed_chars last blank
  | cons part parts ih =>
    have hrest := ih (fun other hother => hslash other (List.mem_cons_of_mem _ hother)) false
    exact undisturbed_output (hslash part List.mem_cons_self) (.value part.2) hrest blank

theorem mem_references_char {c : Char} (h : .char c ∈ (references parts last).symbols) :
    ∃ text ∈ last :: parts.map (·.1), c ∈ text := by
  rw [references_symbols] at h
  simp only [chars, List.mem_append, List.mem_flatMap, List.mem_map, List.mem_singleton,
    Symbol.char.injEq, reduceCtorEq, or_false, exists_eq_right] at h
  obtain ⟨part, hpart, hc⟩ | hc := h
  · exact ⟨part.1, List.mem_cons_of_mem _ (List.mem_map_of_mem hpart), hc⟩
  · exact ⟨last, List.mem_cons_self, hc⟩

theorem mem_references_mark {m : Mark} (h : .mark m ∈ (references parts last).symbols) :
    ∃ part ∈ parts, m = .output (.value part.2) := by
  rw [references_symbols] at h
  simpa [chars] using h

theorem references_fits {strict : Bool} {data : Json}
    (hvalues : ∀ part ∈ parts, ((data.at? part.2.keys).bind Json.scalarText?).isSome) :
    (references parts last).fits strict data := by
  induction parts with
  | nil => rfl
  | cons part parts ih =>
    have hthere : (data.at? part.2.keys).isSome :=
      Option.isSome_of_isSome_bind (hvalues part List.mem_cons_self)
    have hvalue : (Output.value part.2).fits strict data := by
      rw [Output.fits, hthere, Bool.or_true, Bool.and_true]
      exact keepsOut_of_at hthere
    exact Bool.and_eq_true_iff.2 ⟨hvalue, ih fun other hother =>
      hvalues other (List.mem_cons_of_mem _ hother)⟩

end

/-- **References are replaced by the text of their values**, in strict mode and without it, where no
backslash stands in front of a reference and no reference is named like a helper or another word of
templates. -/
theorem references_replaced (strict : Bool) (parts : List (List Char × Dotted)) (last : List Char)
    (vars : Variables) (htext : ∀ text ∈ last :: parts.map (·.1), '\x7b' ∉ text ∧ '\x7d' ∉ text)
    (hslash : ∀ part ∈ parts, part.1.getLast? ≠ some '\\')
    (hnames : ∀ part ∈ parts, part.2.isPutOut)
    (hvalues : ∀ part ∈ parts, (((Json.object vars).at? part.2.keys).bind
      Json.scalarText?).isSome) :
    evaluate strict (String.ofList (parts.foldr (fun part rest =>
        part.1 ++ (reference (' ' :: part.2.text ++ [' ']) ++ rest)) last)) vars =
      .ok (parts.foldr (fun part rest =>
        String.ofList part.1 ++
          ((((Json.object vars).at? part.2.keys).bind Json.scalarText?).getD "" ++ rest))
        (String.ofList last)) := by
  have hloops : loopNames (references parts last).symbols = [] := loopNames_eq_nil fun m hm => by
    obtain ⟨part, -, rfl⟩ := mem_references_mark hm
    rfl
  have hfaithful : (references parts last).Faithful strict vars :=
    { text := fun c hc => by
        obtain ⟨text, hmem, hc⟩ := mem_references_char hc
        exact ⟨fun heq => (htext text hmem).1 (heq ▸ hc), fun heq => (htext text hmem).2 (heq ▸ hc)⟩
      clean := fun m hm => by
        obtain ⟨part, -, rfl⟩ := mem_references_mark hm
        rw [hloops]
        rfl
      read := fun m hm => by
        obtain ⟨part, hpart, rfl⟩ := mem_references_mark hm
        exact hnames part hpart
      undisturbed := references_undisturbed hslash true
      fits := references_fits hvalues }
  rw [← references_source, ← references_meaning hvalues]
  exact evaluate_phrase hfaithful

/-- Two references in a text with a backslash, a percent sign and a quote in it, in strict mode. -/
theorem path_of_two_names :
    evaluate true (String.ofList
      ("C:\\a%".toList ++ (reference (' ' :: (Dotted.mk ⟨['p'], by decide⟩ []).text ++ [' ']) ++
      ("'.".toList ++
        (reference (' ' :: (Dotted.mk ⟨['i'], by decide⟩ [⟨['f'], by decide⟩]).text ++ [' ']) ++
          [])))))
      [("p", .string "\x7b\x7b q \x7d\x7d"), ("i", .object [("f", .bool true)])] =
        .ok "C:\\a%\x7b\x7b q \x7d\x7d'.true" :=
  (references_replaced true
    [("C:\\a%".toList, ⟨⟨['p'], by decide⟩, []⟩),
      ("'.".toList, ⟨⟨['i'], by decide⟩, [⟨['f'], by decide⟩]⟩)]
    [] [("p", .string "\x7b\x7b q \x7d\x7d"), ("i", .object [("f", .bool true)])]
    (by decide) (by decide) (by decide) (by decide)).trans
    (congrArg Except.ok (by decide))

/-- A backslash in front of a reference hides it, and is gone. -/
theorem backslash_hides_reference :
    evaluate false "C:\\\x7b\x7b p \x7d\x7d" [("p", .string "x")] ≠ .ok "C:\\x" := by
  decide +kernel

/-! ## Branches -/

/-- **A tag of a branching that is read as what it says**, over the data: a comparison stands in
front of the first branch only, and a path asks no list for a key and leads to no number that is
nearly zero. -/
def Mark.isChoice (data : Json) : Mark → Bool
  | .branch condition => condition.isLiteral && condition.path.isAsked && condition.fits false data
  | .elif condition => condition.isPlain && condition.path.isAsked && condition.fits false data
  | .otherwise => true
  | .endBranch => true
  | _ => false

/-- A character of a word, or a tag of a branching that is read as what it says. -/
def Symbol.isChoice (data : Json) : Symbol → Bool
  | .char c => Text.isWord c
  | .mark m => m.isChoice data

section

variable {data : Json}

theorem Mark.isClean_of_isChoice {m : Mark} (h : m.isChoice data) (names : List (List Char)) :
    m.isClean names ∧ m.isRead := by
  cases m with
  | branch condition =>
    obtain ⟨hcondition, -⟩ := Bool.and_eq_true_iff.1 h
    exact Bool.and_eq_true_iff.1 hcondition
  | elif condition =>
    obtain ⟨hcondition, -⟩ := Bool.and_eq_true_iff.1 h
    exact Bool.and_eq_true_iff.1 hcondition
  | otherwise => exact ⟨rfl, rfl⟩
  | endBranch => exact ⟨rfl, rfl⟩
  | _ => cases h

mutual
/-- Data that each condition can be asked for fits a parameter of branches. -/
theorem Phrase.fits_of_isChoice : ∀ phrase : Phrase,
    (∀ m, .mark m ∈ phrase.symbols → m.isChoice data) → phrase.fits false data
  | .done _, _ => rfl
  | .output text out rest, h => by
    rw [Phrase.symbols] at h
    cases h (.output out) (List.mem_append_right _ List.mem_cons_self)
  | .branch text condition body others rest, h => by
    rw [Phrase.symbols] at h
    have hcondition :=
      (Bool.and_eq_true_iff.1
        (h (.branch condition) (List.mem_append_right _ List.mem_cons_self))).2
    have hinside {m : Mark}
        (hm : .mark m ∈ body.symbols ++ (others.symbols ++ .mark .endBranch :: rest.symbols)) :
        m.isChoice data :=
      h m (List.mem_append_right _ (List.mem_cons_of_mem _ hm))
    have hbody := body.fits_of_isChoice fun m hm => hinside (List.mem_append_left _ hm)
    have hothers :=
      others.fits_of_isChoice fun m hm =>
        hinside (List.mem_append_right _ (List.mem_append_left _ hm))
    have hrest := rest.fits_of_isChoice fun m hm =>
      hinside (List.mem_append_right _ (List.mem_append_right _ (List.mem_cons_of_mem _ hm)))
    rw [Phrase.fits, hcondition, hbody, hothers, hrest]
    rfl
  | .loop text item list round rest, h => by
    rw [Phrase.symbols] at h
    cases h (.loop item list) (List.mem_append_right _ List.mem_cons_self)

theorem Branches.fits_of_isChoice : ∀ others : Branches,
    (∀ m, .mark m ∈ others.symbols → m.isChoice data) → others.fits false data
  | .stop, _ => rfl
  | .otherwise body, h => body.fits_of_isChoice fun m hm => h m (List.mem_cons_of_mem _ hm)
  | .also condition body others, h => by
    rw [Branches.symbols] at h
    have hcondition := (Bool.and_eq_true_iff.1 (h (.elif condition) List.mem_cons_self)).2
    have hbody :=
      body.fits_of_isChoice fun m hm => h m (List.mem_cons_of_mem _ (List.mem_append_left _ hm))
    have hothers :=
      others.fits_of_isChoice fun m hm => h m (List.mem_cons_of_mem _ (List.mem_append_right _ hm))
    rw [Branches.fits, hcondition, hbody, hothers]
    rfl
end

end

/-- **Of the branches of a condition the first one is taken that holds**, at every depth, where the
text is of words and comparisons stand in front of first branches only. -/
theorem first_branch_taken (phrase : Phrase) (vars : Variables)
    (hsymbols : ∀ symbol ∈ phrase.symbols, symbol.isChoice (.object vars)) :
    evaluate false phrase.source vars = .ok (phrase.meaning (.object vars)) := by
  have hsound : Sound phrase.symbols := fun symbol hsymbol => by
    have hchoice := hsymbols symbol hsymbol
    cases symbol with
    | char c => exact hchoice
    | mark m => exact Bool.and_eq_true_iff.2 (Mark.isClean_of_isChoice hchoice _)
  exact evaluate_phrase
    (hsound.faithful (phrase.fits_of_isChoice fun m hm => hsymbols (.mark m) hm))

/-- The second branch, with a branching in it. -/
theorem second_of_three_branches :
    evaluate false
      (Phrase.branch [] (.compares ⟨⟨['a'], by decide⟩, []⟩ true false ['x']) (.done ['1'])
      (.also (.holds ⟨⟨['b'], by decide⟩, []⟩)
        (.branch ['2'] (.holds ⟨⟨['c'], by decide⟩, []⟩) (.done ['3']) .stop (.done ['4']))
        (.otherwise (.done ['5'])))
      (.done [])).source [("a", .null), ("b", .array [.null])] = .ok "24" :=
  (first_branch_taken
    (.branch [] (.compares ⟨⟨['a'], by decide⟩, []⟩ true false ['x']) (.done ['1'])
      (.also (.holds ⟨⟨['b'], by decide⟩, []⟩)
        (.branch ['2'] (.holds ⟨⟨['c'], by decide⟩, []⟩) (.done ['3']) .stop (.done ['4']))
        (.otherwise (.done ['5'])))
      (.done [])) [("a", .null), ("b", .array [.null])] (by decide)).trans
    (congrArg Except.ok (by decide))

/-- A comparison in a further branch is not read. -/
theorem further_comparison_unread :
    evaluate false "\x7b% if a == 'x' %\x7d1\x7b% elif b == 'y' %\x7d2\x7b% endif %\x7d"
      [("a", .string "x")] ≠ .ok "1" := by
  decide +kernel

/-! ## Quoted texts -/

/-- What is put out, as a parameter. -/
def Output.phrase (out : Output) : Phrase := .output [] out (.done [])

/-- A comparison with a text that puts out one of two letters, as a parameter. -/
def choiceOf (path : Dotted) (equal double : Bool) (literal : List Char) : Phrase :=
  .branch [] (.compares path equal double literal) (.done ['A'])
    (.otherwise (.done ['B'])) (.done [])

section

variable {vars : Variables}

theorem evaluate_output {out : Output} (hliteral : out.isLiteral) (hread : out.isRead)
    (hfits : out.fits false (.object vars)) :
    evaluate false out.phrase.source vars = .ok (out.meaning (.object vars)) := by
  have hsound : Sound out.phrase.symbols := fun symbol hsymbol => by
    obtain rfl := List.mem_singleton.1 hsymbol
    exact Bool.and_eq_true_iff.2 ⟨hliteral, hread⟩
  have hmeaning : out.phrase.meaning (.object vars) = out.meaning (.object vars) := by
    have hnothing : out.phrase.meaning (.object vars) = "" ++ out.meaning (.object vars) ++ "" :=
      rfl
    rw [hnothing, String.empty_append, String.append_empty]
  rw [← hmeaning]
  exact evaluate_phrase (hsound.faithful (Bool.and_eq_true_iff.2 ⟨hfits, rfl⟩))

theorem evaluate_choice {path : Dotted} (equal : Bool) {double : Bool} {literal : List Char}
    (hpath : path.isAsked) (hliteral : isLiteral double literal)
    (hout : (Json.object vars).keepsOut path.keys) :
    evaluate false (choiceOf path equal double literal).source vars =
      .ok (if agrees (.object vars) path equal literal then "A" else "B") := by
  have hsound : Sound (choiceOf path equal double literal).symbols := by
    have hsymbols : (choiceOf path equal double literal).symbols =
        [.mark (.branch (.compares path equal double literal)), .char 'A', .mark .otherwise,
          .char 'B', .mark .endBranch] := rfl
    intro symbol hsymbol
    rw [hsymbols] at hsymbol
    simp only [List.mem_cons, List.not_mem_nil, or_false] at hsymbol
    rcases hsymbol with rfl | rfl | rfl | rfl | rfl
    · exact Bool.and_eq_true_iff.2 ⟨hliteral, hpath⟩
    all_goals rfl
  have hfits : (choiceOf path equal double literal).fits false (.object vars) := by
    rw [choiceOf, Phrase.fits, Condition.fits, hout]
    rfl
  have hmeaning : (choiceOf path equal double literal).meaning (.object vars) =
      if agrees (.object vars) path equal literal then "A" else "B" := by
    have hnothing : (choiceOf path equal double literal).meaning (.object vars) =
        "" ++ (if agrees (.object vars) path equal literal then "A" else "B") ++ "" := rfl
    rw [hnothing, String.empty_append, String.append_empty]
  rw [← hmeaning]
  exact evaluate_phrase (hsound.faithful hfits)

end

/-- **Quoted texts keep their value**, between quotes of both kinds: in the place of what is absent,
and compared in a condition or in what is put out. They hold no apostrophe, and the path is no word
of templates. -/
theorem literals_kept (path : Dotted) (double : Bool) (literal : List Char) (vars : Variables)
    (hpath : path.isAsked) (hliteral : isLiteral double literal)
    (hout : (Json.object vars).keepsOut path.keys) :
    evaluate false (Output.fallback path double literal).phrase.source vars =
        .ok (if Json.isAbsent ((Json.object vars).at? path.keys) then String.ofList literal
          else Json.comparedText ((Json.object vars).at? path.keys)) ∧
      (∀ equal, evaluate false (choiceOf path equal double literal).source vars =
        .ok (if agrees (.object vars) path equal literal then "A" else "B")) ∧
      ∀ equal, evaluate false (Output.compares path equal double literal).phrase.source vars =
        .ok (if agrees (.object vars) path equal literal then "true" else "false") := by
  have hcompared (equal : Bool) :
      (Output.compares path equal double literal).fits false (.object vars) := by
    rw [Output.fits, hout]
    rfl
  exact ⟨evaluate_output hliteral hpath hout, fun equal =>
    evaluate_choice equal hpath hliteral hout,
    fun equal => evaluate_output hliteral hpath (hcompared equal)⟩

/-- A text between double quotes with a colon, as a fallback and compared: with a path that leads
nowhere, and with one to another text and to the same text. -/
theorem colon_kept :
    (evaluate false (Output.fallback ⟨⟨['p'], by decide⟩, []⟩ true "a: b".toList).phrase.source
      [] = .ok "a: b" ∧
      (∀ equal, evaluate false
        (choiceOf ⟨⟨['p'], by decide⟩, []⟩ equal true "a: b".toList).source [] =
        .ok (if agrees (.object []) ⟨⟨['p'], by decide⟩, []⟩ equal "a: b".toList
          then "A" else "B")) ∧
      ∀ equal, evaluate false
        (Output.compares ⟨⟨['p'], by decide⟩, []⟩ equal true "a: b".toList).phrase.source [] =
        .ok (if agrees (.object []) ⟨⟨['p'], by decide⟩, []⟩ equal "a: b".toList then "true"
          else "false")) ∧
    (evaluate false (Output.fallback ⟨⟨['p'], by decide⟩, []⟩ true "a: b".toList).phrase.source
        [("p", .string "c")] = .ok "c" ∧
      (∀ equal, evaluate false (choiceOf ⟨⟨['p'], by decide⟩, []⟩ equal true "a: b".toList).source
        [("p", .string "c")] = .ok (if equal then "B" else "A")) ∧
      ∀ equal, evaluate false
        (Output.compares ⟨⟨['p'], by decide⟩, []⟩ equal true "a: b".toList).phrase.source
        [("p", .string "c")] = .ok (if equal then "false" else "true")) ∧
    (∀ equal, evaluate false (choiceOf ⟨⟨['p'], by decide⟩, []⟩ equal true "a: b".toList).source
        [("p", .string "a: b")] = .ok (if equal then "A" else "B")) := by
  have hkept :=
    fun vars => literals_kept ⟨⟨['p'], by decide⟩, []⟩ true "a: b".toList vars
      (by decide) (by decide)
  obtain ⟨hother, hchosen, hcompared⟩ := hkept [("p", .string "c")] (by decide)
  obtain ⟨-, hsame, -⟩ := hkept [("p", .string "a: b")] (by decide)
  have hdiffers :
      ∀ equal, agrees (.object [("p", .string "c")]) ⟨⟨['p'], by decide⟩, []⟩ equal "a: b".toList =
        !equal := by
    decide
  have hagrees :
      ∀ equal, agrees (.object [("p", .string "a: b")]) ⟨⟨['p'], by decide⟩, []⟩ equal
        "a: b".toList = equal := by
    decide
  refine ⟨hkept [] (by decide), ⟨hother, fun equal => ?_, fun equal => ?_⟩, fun equal => ?_⟩
  · rw [hchosen, hdiffers]
    cases equal <;> rfl
  · rw [hcompared, hdiffers]
    cases equal <;> rfl
  · rw [hsame, hagrees]

/-- A fallback that holds an apostrophe is not read. -/
theorem apostrophe_unread :
    evaluate false "\x7b\x7b p | default(\"it's\") \x7d\x7d" [] ≠ .ok "it's" := by
  decide +kernel

end Template

end Runlist
