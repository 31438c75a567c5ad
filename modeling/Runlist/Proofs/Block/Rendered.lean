import Runlist.Block.Render
import Runlist.Proofs.Block.Trees
import Runlist.Proofs.Block.Values

/-!
# What converted parameters are rendered to

A template that has the form of a parameter is rendered to what the parameter means, in each
branching the branch that is taken and in each loop a round for every item.

* `Dotted.isPutOut`, `Dotted.isAsked`: paths that are read as what they are.
* `Phrase.fits`: the data has what a parameter puts out and asks for.
* `renderAll_phrase`: **a template that has the form of a parameter is rendered to its text.**
-/

namespace Runlist

/-- A result is handed on. -/
theorem ok_bind {ε α β : Type} (a : α) (f : α → Except ε β) : (Except.ok a >>= f) = f a := rfl

/-! ## Paths that are read as what they are -/

namespace Dotted

/-- No name of the path is the word for the current value. -/
def isNamed (p : Dotted) : Bool := p.names.all fun name => name.text != itself.text

/-- **The path can be put out**: a name alone is the one of no helper, and does not start like an
alternative. -/
def isPutOut (p : Dotted) : Bool :=
  p.isNamed && (!p.rest.isEmpty ||
    !"else".toList.isPrefixOf p.first.text &&
    (Block.Helper.ofName? (String.ofList p.first.text)).isNone)

/-- **The path can be asked for**: it does not start with a literal, or a word that opens another
part of a tag. -/
def isAsked (p : Dotted) : Bool :=
  p.isNamed && Block.reservedWords.all fun word => p.first.text != word.toList

variable {p : Dotted}

theorem isNamed_of_isPutOut (h : p.isPutOut) : p.isNamed := (Bool.and_eq_true_iff.1 h).1

theorem isNamed_of_isAsked (h : p.isAsked) : p.isNamed := (Bool.and_eq_true_iff.1 h).1

theorem first_ne_itself (h : p.isNamed) : p.first.text ≠ "this".toList :=
  bne_iff_ne.1 (List.all_eq_true.1 h p.first List.mem_cons_self)

theorem isOutput_of_isPutOut (h : p.isPutOut) : Template.IsOutput p where
  not_this := .inl (first_ne_itself (isNamed_of_isPutOut h))
  not_else := by
    have halone := (Bool.and_eq_true_iff.1 h).2
    rw [Bool.or_eq_true, Bool.and_eq_true, Bool.not_eq_true', Bool.not_eq_true'] at halone
    refine halone.imp (fun hrest hnil => ?_) fun hother hprefix => ?_
    · rw [hnil] at hrest
      cases hrest
    · rw [List.isPrefixOf_iff_prefix.2 hprefix] at hother
      cases hother.1

theorem isArgument_of_isAsked (h : p.isAsked) : Block.IsArgument p where
  not_this := .inl (first_ne_itself (isNamed_of_isAsked h))
  not_reserved word hword :=
    bne_iff_ne.1 (List.all_eq_true.1 (Bool.and_eq_true_iff.1 h).2 word hword)

/-- No name of a path is taken away when it is read. -/
theorem names_ofDotted (h : p.isNamed) : (Block.Path.ofDotted p).names = p.keys := by
  have hall : ∀ key ∈ p.keys, (key != "this") = true := by
    intro key hkey
    obtain ⟨name, hname, rfl⟩ := List.mem_map.1 hkey
    have hne : name.text ≠ "this".toList := bne_iff_ne.1 (List.all_eq_true.1 h name hname)
    rw [bne_iff_ne]
    intro heq
    exact hne (by rw [← heq, String.toList_ofList])
  exact List.filter_eq_self.2 hall

end Dotted

namespace Block

open Runlist.Template
  (textElements itemTerm Phrase Branches Round Output Condition Mark Symbol PartsBuild operator)

variable {setting : Setting} {scopes : List Scope} {value : Json} {p : Dotted}

/-! ## Looking up -/

/-- The innermost scope is the one of a value, and no value has a name. -/
structure LooksAt (setting : Setting) (scopes : List Scope) (value : Json) : Prop where
  base : base setting scopes 0 = value
  unnamed : ∀ name, named? scopes name = none

theorem LooksAt.data (setting : Setting) :
    LooksAt setting [Scope.ofValue setting.data] setting.data := ⟨rfl, fun _ => rfl⟩

theorem LooksAt.item (h : LooksAt setting scopes value) (item : Json) (locals : Fields) :
    LooksAt setting (⟨item, locals, []⟩ :: scopes) item := ⟨rfl, h.unnamed⟩

/-- **A path leads to the value that the keys lead to.** -/
theorem LooksAt.lookUp (h : LooksAt setting scopes value) (hp : p.isNamed)
    (hout : value.keepsOut p.keys) :
    lookUp setting scopes (Path.ofDotted p) = .ok (value.at? p.keys) := by
  have hnamed : (Path.ofDotted p).names.head?.bind (named? scopes) = none := by
    cases (Path.ofDotted p).names with
    | nil => rfl
    | cons name names => exact h.unnamed name
  have hroot : (Path.ofDotted p).fromRoot = false := rfl
  have hlocal : (Path.ofDotted p).isLocal = false := rfl
  have hups : (Path.ofDotted p).ups = 0 := rfl
  rw [Block.lookUp, hroot, hlocal, hnamed, hups, h.base, Dotted.names_ofDotted hp,
    Json.follow_at hout]
  rfl

/-- The current value itself. -/
theorem LooksAt.lookUp_itself (h : LooksAt setting scopes value) :
    Block.lookUp setting scopes (Path.ofDotted ⟨itself, []⟩) = .ok (some value) := by
  have hnames : (Path.ofDotted ⟨itself, []⟩).names = [] := by decide
  have hroot : (Path.ofDotted ⟨itself, []⟩).fromRoot = false := rfl
  have hlocal : (Path.ofDotted ⟨itself, []⟩).isLocal = false := rfl
  have hups : (Path.ofDotted ⟨itself, []⟩).ups = 0 := rfl
  rw [Block.lookUp, hroot, hlocal, hnames, hups, h.base]
  rfl

/-! ## Output -/

/-- No helper has a dot in its name. -/
theorem ofName?_dot {name : String} (h : '.' ∈ name.toList) : Helper.ofName? name = none := by
  unfold Helper.ofName?
  split <;> first | rfl | exact absurd h (by decide)

theorem ofName?_isPutOut (hp : p.isPutOut) : Helper.ofName? (String.ofList p.text) = none := by
  have halone := (Bool.and_eq_true_iff.1 hp).2
  cases hrest : p.rest with
  | nil =>
    rw [hrest, List.isEmpty_nil, Bool.not_true, Bool.false_or, Bool.and_eq_true,
      Option.isNone_iff_eq_none] at halone
    rw [Dotted.text, hrest, List.flatMap_nil, List.append_nil]
    exact halone.2
  | cons field fields =>
    apply ofName?_dot
    rw [String.toList_ofList, Dotted.text, hrest, List.flatMap_cons]
    exact List.mem_append_right _ List.mem_cons_self

/-- A value that may be put out: in strict mode it has to be there. -/
theorem outputValue_eq {value : Option Json} (hvalue : setting.strict → value.isSome)
    (path : Option String) : outputValue setting ⟨value, path⟩ = .ok (Json.outputText value) := by
  cases value with
  | some value => rfl
  | none =>
    have hstrict : setting.strict = false := Bool.eq_false_iff.2 fun h => nomatch hvalue h
    rw [outputValue, hstrict]
    rfl

/-- A path that no helper is named like puts out what it leads to. -/
theorem output_path {path : Path} (hname : Helper.ofName? path.raw = none) {value : Option Json}
    (hlook : lookUp setting scopes path = .ok value) (hvalue : setting.strict → value.isSome) :
    output setting scopes (.path path) = .ok (Json.outputText value) := by
  rw [output, outputNamed, hname]
  dsimp only
  rw [Term.argument, hlook]
  exact outputValue_eq hvalue _

/-- **A reference puts out the value that it leads to.** -/
theorem LooksAt.output_value (h : LooksAt setting scopes value) (hp : p.isPutOut)
    (hout : value.keepsOut p.keys) (hvalue : setting.strict → (value.at? p.keys).isSome) :
    output setting scopes (.path (.ofDotted p)) = .ok (Json.outputText (value.at? p.keys)) :=
  output_path (ofName?_isPutOut hp) (h.lookUp (Dotted.isNamed_of_isPutOut hp) hout) hvalue

/-- **An item puts out its own value**, or the one under its fields. -/
theorem LooksAt.output_item (h : LooksAt setting scopes value) {fields : List Ident}
    (hfields : ∀ field others, fields = field :: others → (Dotted.mk field others).isPutOut)
    (hout : value.keepsOut (fields.map fun name => String.ofList name.text))
    (hvalue : setting.strict →
      (value.at? (fields.map fun name => String.ofList name.text)).isSome) :
    Block.output setting scopes (itemTerm fields) =
      .ok (Json.outputText (value.at? (fields.map fun name => String.ofList name.text))) := by
  cases fields with
  | nil => exact output_path (by decide) h.lookUp_itself fun _ => rfl
  | cons field fields => exact h.output_value (hfields field fields rfl) hout hvalue

/-- The arguments of a call with a path and a text. -/
theorem LooksAt.arguments_pathAndText (h : LooksAt setting scopes value) (hp : p.isNamed)
    (hout : value.keepsOut p.keys) (literal : List Char) :
    Term.arguments setting scopes (pathAndText p literal) =
    .ok [⟨value.at? p.keys, some (Path.ofDotted p).raw⟩,
      ⟨some (.string (String.ofList literal)), none⟩] := by
  rw [pathAndText, Term.arguments, Term.argument, h.lookUp hp hout, Term.arguments, Term.argument,
    Term.arguments]
  rfl

/-- **What a comparison answers.** In strict mode the value has to be there. -/
theorem answer_equal {strict : Bool} {value : Option Json} (hvalue : strict → value.isSome)
    (equal : Bool) (path : Option String) (literal : String) (options : List (String × Argument)) :
    (Helper.equal equal).answer strict [⟨value, path⟩, ⟨some (.string literal), none⟩] options =
      .ok (.value (some (.bool ((Json.comparedText value == literal) == equal)))) := by
  have hleft (name : String) : Helper.needNamed strict name "left" (some ⟨value, path⟩) =
      .ok (value.getD .null) := by
    have hthere : (strict && value.isNone) = false := by
      cases value with
      | none =>
        have hstrict : strict = false := Bool.eq_false_iff.2 fun hs => nomatch hvalue hs
        rw [hstrict, Bool.false_and]
      | some v => exact Bool.and_false _
    rw [Helper.needNamed]
    dsimp only
    rw [hthere]
    rfl
  have hright (name : String) :
      Helper.needNamed strict name "right" (some ⟨some (.string literal), none⟩) =
      .ok (.string literal) := by
    rw [Helper.needNamed]
    dsimp only
    rw [Option.isNone_some, Bool.and_false]
    rfl
  have hanswer :
      (Helper.equal equal).answer strict [⟨value, path⟩, ⟨some (.string literal), none⟩] options =
        do
      let left ← Helper.needNamed strict (if equal then "loose_eq" else "loose_ne") "left"
        (some ⟨value, path⟩)
      let right ← Helper.needNamed strict (if equal then "loose_eq" else "loose_ne") "right"
        (some ⟨some (.string literal), none⟩)
      return .value (some (.bool (Helper.looselyEqual left right == equal))) := rfl
  rw [hanswer, hleft, ok_bind, hright, ok_bind, Json.looselyEqual_missing]
  rfl

/-- **What a call puts out**: what its helper answers. -/
theorem output_call {name : String} {helper : Helper} (hname : Helper.ofName? name = some helper)
    {terms : List Term} {arguments : List Argument}
    (hterms : Term.arguments setting scopes terms = .ok arguments) {answer : Helper.Answer}
    (hanswer : helper.answer setting.strict arguments [] = .ok answer) :
    output setting scopes (.call (.word name) terms []) = outputAnswer setting answer := by
  have hcall : output setting scopes (.call (.word name) terms []) =
      outputCall setting scopes (.word name) terms [] := rfl
  rw [hcall, outputCall, Term.headName, hterms, Term.namedArguments]
  simp only [ok_bind, hname, hanswer]

theorem ofName?_operator (equal : Bool) :
    Helper.ofName? (operator equal) = some (.equal equal) := by cases equal <;> rfl

end Block

namespace Template

open Block (LooksAt Setting Scope)

variable {setting : Setting} {scopes : List Scope} {value : Json}

/-! ## What the data has to have -/

/-- The names in what is put out are read as what they are. -/
def Output.isRead : Output → Bool
  | .value path => path.isPutOut
  | .fallback path _ _ => path.isAsked
  | .compares path _ _ _ => path.isAsked

/-- **The names in a mark are read as what they are.** -/
def Mark.isRead : Mark → Bool
  | .output out => out.isRead
  | .item _ [] => true
  | .item _ (field :: fields) => (Dotted.mk field fields).isPutOut
  | .branch condition => condition.path.isAsked
  | .elif condition => condition.path.isAsked
  | .loop _ list => list.isAsked
  | _ => true

theorem isReadable_of_isRead {names : List (List Char)} {m : Mark} (hclean : m.isClean names)
    (hread : m.isRead) : m.IsReadable := by
  cases m with
  | output out =>
    have hliteral := isLiteral_of_isClean hclean
    cases out with
    | value path => exact Dotted.isOutput_of_isPutOut hread
    | fallback path double literal => exact ⟨Dotted.isArgument_of_isAsked hread, hliteral⟩
    | compares path equal double literal => exact ⟨Dotted.isArgument_of_isAsked hread, hliteral⟩
  | item name fields =>
    cases fields with
    | nil => trivial
    | cons field fields => exact Dotted.isOutput_of_isPutOut hread
  | branch condition => exact ⟨Dotted.isArgument_of_isAsked hread, hclean⟩
  | elif condition => exact ⟨Dotted.isArgument_of_isAsked hread, hclean⟩
  | loop name list => exact Dotted.isArgument_of_isAsked hread
  | _ => trivial

/-- The data has what is put out: no list is asked for a key, and in strict mode nothing is missing
but what has a fallback. -/
def Output.fits (strict : Bool) (data : Json) : Output → Bool
  | .value path => data.keepsOut path.keys && (!strict || (data.at? path.keys).isSome)
  | .fallback path _ _ => data.keepsOut path.keys
  | .compares path _ _ _ => data.keepsOut path.keys && (!strict || (data.at? path.keys).isSome)

/-- The data has what a condition asks for. -/
def Condition.fits (strict : Bool) (data : Json) : Condition → Bool
  | .holds path => data.keepsOut path.keys && (data.at? path.keys).all Json.isOrdinary
  | .compares path _ _ _ => data.keepsOut path.keys && (!strict || (data.at? path.keys).isSome)

/-- An item has what a round of a loop puts out. -/
def Round.fits (strict : Bool) (item : Json) (round : Round) : Bool :=
  round.parts.all fun part => item.keepsOut (part.2.map fun name => String.ofList name.text) &&
    (!strict || (item.at? (part.2.map fun name => String.ofList name.text)).isSome)

/-- Each item of a list has what a round puts out. There is no loop over a mapping, and in strict
mode only over lists. -/
def Round.fitsAll (strict : Bool) (round : Round) : Option Json → Bool
  | some (.array items) => items.all fun item => round.fits strict item
  | some (.object _) => false
  | _ => !strict

mutual
/-- **The data has what a parameter puts out and asks for.** -/
def Phrase.fits (strict : Bool) (data : Json) : Phrase → Bool
  | .done _ => true
  | .output _ out rest => out.fits strict data && rest.fits strict data
  | .branch _ condition body others rest =>
    condition.fits strict data &&
      (body.fits strict data && (others.fits strict data && rest.fits strict data))
  | .loop _ _ list round rest =>
    data.keepsOut list.keys && (round.fitsAll strict (data.at? list.keys) && rest.fits strict data)

/-- The data has what further branches put out and ask for. -/
def Branches.fits (strict : Bool) (data : Json) : Branches → Bool
  | .stop => true
  | .otherwise body => body.fits strict data
  | .also condition body others =>
    condition.fits strict data && (body.fits strict data && others.fits strict data)
end

/-- What has to be there in strict mode is there. -/
theorem isSome_of_strict {strict there : Bool} (h : !strict || there) (hs : strict) : there := by
  rw [hs] at h
  exact h

/-! ## Rendering -/

/-- **What is put out is its text.** -/
theorem Output.render {out : Output} (h : LooksAt setting scopes value) (hread : out.isRead)
    (hfits : out.fits setting.strict value) : Block.output setting scopes out.term =
      .ok (out.meaning value) := by
  cases out with
  | value path =>
    obtain ⟨hout, hvalue⟩ := Bool.and_eq_true_iff.1 hfits
    exact h.output_value hread hout (isSome_of_strict hvalue)
  | fallback path double literal =>
    have harguments := h.arguments_pathAndText (Dotted.isNamed_of_isAsked hread) hfits literal
    rw [Output.term, Block.output_call rfl harguments rfl]
    exact congrArg Except.ok (Json.fallbackText_eq _ _)
  | compares path equal double literal =>
    obtain ⟨hout, hvalue⟩ := Bool.and_eq_true_iff.1 hfits
    have harguments := h.arguments_pathAndText (Dotted.isNamed_of_isAsked hread) hout literal
    rw [Output.term,
      Block.output_call (Block.ofName?_operator equal) harguments
        (Block.answer_equal (isSome_of_strict hvalue) ..)]
    rfl

/-- **A block does its part** when its condition holds, and its alternative when it does not. -/
theorem Condition.plan {condition : Condition} (h : LooksAt setting scopes value)
    (hread : condition.path.isAsked) (hfits : condition.fits setting.strict value)
    (hasOtherwise : Bool) :
    Block.plan setting scopes condition.call [] hasOtherwise =
      .ok (if condition.isTrue value then .body [scopes] else .otherwise) := by
  have hplan (term : Block.Term) {argument : Block.Argument} (hterm : term.argument setting scopes =
      .ok argument) :
      Block.plan setting scopes (.call (.word "if") [term] []) [] hasOtherwise =
        .ok (if argument.get.holds false then .body [scopes] else .otherwise) := by
    have hname : Block.Helper.ofName? "if" = some (.condition true) := rfl
    have hcall : Block.blockCall setting scopes (.call (.word "if") [term] []) =
        .ok (.condition true, [argument], []) := by
      rw [Block.blockCall, Block.Term.headName, Block.Term.arguments, hterm, Block.Term.arguments,
        Block.Term.namedArguments]
      simp only [ok_bind, hname]
      rfl
    rw [Block.plan, hcall]
    simp only [ok_bind, Block.Helper.need, beq_true]
    rfl
  cases condition with
  | holds path =>
    have hnamed : path.isNamed := Dotted.isNamed_of_isAsked hread
    obtain ⟨hout, hordinary⟩ := Bool.and_eq_true_iff.1 hfits
    have hterm : Block.Term.argument setting scopes (.path (.ofDotted path)) =
        .ok ⟨value.at? path.keys, some (Block.Path.ofDotted path).raw⟩ := by
      rw [Block.Term.argument, h.lookUp hnamed hout]
      rfl
    have hholds := Json.holds_missing (value.at? path.keys) fun v hv => by
      rw [hv] at hordinary
      exact hordinary
    rw [Condition.call, hplan _ hterm]
    exact congrArg
      (fun b : Bool => Except.ok (if b then Block.Plan.body [scopes] else .otherwise)) hholds
  | compares path equal double literal =>
    have hnamed : path.isNamed := Dotted.isNamed_of_isAsked hread
    obtain ⟨hout, hvalue⟩ := Bool.and_eq_true_iff.1 hfits
    have hterm : Block.Term.argument setting scopes
        (.call (.word (operator equal)) (Block.pathAndText path literal) []) =
        .ok ⟨some (.bool (agrees value path equal literal)), none⟩ := by
      rw [Block.Term.argument, Block.Term.headName, h.arguments_pathAndText hnamed hout,
        Block.Term.namedArguments]
      simp only [ok_bind, Block.Helper.called, Block.ofName?_operator,
        Block.answer_equal (isSome_of_strict hvalue)]
      rfl
    rw [Condition.call, hplan _ hterm]
    rfl

/-- Text in front of other elements. -/
theorem renderAll_text (text : List Char) (elements : List Block.Element) :
    Block.renderAll setting scopes (textElements text ++ elements) =
      (Block.renderAll setting scopes elements).map (String.ofList text ++ ·) := by
  rw [textElements]
  cases text with
  | nil =>
    have hnil : String.ofList [] = "" := rfl
    rw [List.isEmpty_nil, if_pos rfl, List.nil_append, hnil]
    cases Block.renderAll setting scopes elements with
    | error e => rfl
    | ok s => exact congrArg Except.ok String.empty_append.symm
  | cons c text =>
    rw [List.isEmpty_cons, if_neg Bool.false_ne_true, List.singleton_append, Block.renderAll,
      Block.Element.render, ok_bind]
    cases Block.renderAll setting scopes elements <;> rfl

theorem renderAll_textElements (text : List Char) :
    Block.renderAll setting scopes (textElements text) = .ok (String.ofList text) := by
  rw [← List.append_nil (textElements text), renderAll_text, Block.renderAll]
  exact congrArg Except.ok String.append_empty

/-- Text, an element and what follows. -/
theorem renderAll_step {text : List Char} {element : Block.Element} {elements : List Block.Element}
    {s t : String} (helement : element.render setting scopes = .ok s)
    (helements : Block.renderAll setting scopes elements = .ok t) :
    Block.renderAll setting scopes (textElements text ++ element :: elements) =
      .ok (String.ofList text ++ s ++ t) := by
  rw [renderAll_text, Block.renderAll, helement, ok_bind, helements, ok_bind, String.append_assoc]
  rfl

theorem render_output {position : Option Block.Position} {term : Block.Term} {s : String}
    (h : Block.output setting scopes term = .ok s) :
    (Block.Element.output position term).render setting scopes = .ok s := by
  rw [Block.Element.render, h]
  rfl

/-- **A round of a loop is rendered to its text.** -/
theorem renderAll_round {round : Round} (h : LooksAt setting scopes value)
    (hread : ∀ field fields, ∀ part ∈ round.parts, part.2 = field :: fields →
      (Dotted.mk field fields).isPutOut)
    (hfits : round.fits setting.strict value) {elements : List Block.Element}
    (hbuild : PartsBuild round.last round.parts elements) :
    Block.renderAll setting scopes elements = .ok (round.meaning value) := by
  rw [Round.meaning]
  rw [Round.fits, List.all_eq_true] at hfits
  generalize round.parts = parts at hread hfits hbuild ⊢
  induction parts generalizing elements with
  | nil =>
    obtain rfl : elements = textElements round.last := hbuild
    exact renderAll_textElements round.last
  | cons part parts ih =>
    obtain ⟨position, others, rfl, hothers⟩ := hbuild
    obtain ⟨hout, hvalue⟩ := Bool.and_eq_true_iff.1 (hfits part List.mem_cons_self)
    have hitem := h.output_item
      (fun field fields hpart => hread field fields part List.mem_cons_self hpart) hout
      (isSome_of_strict hvalue)
    exact renderAll_step (render_output hitem)
      (ih (fun field fields p hp => hread field fields p (List.mem_cons_of_mem _ hp))
      (fun p hp => hfits p (List.mem_cons_of_mem _ hp)) hothers)

/-- The rounds of a loop are rendered one after the other. -/
theorem concatAll_rounds {part : List Scope → Except Block.RenderError String}
    (text : Json → String) (items : List (Json × Nat)) (locals : Json × Nat → Fields)
    (h : ∀ item ∈ items, part (⟨item.1, locals item, []⟩ :: scopes) = .ok (text item.1)) :
    Block.concatAll part
      ((items.map fun item => (⟨item.1, locals item, []⟩ : Scope)).map fun scope =>
        scope :: scopes) =
      .ok (((items.map Prod.fst).map text).foldr (· ++ ·) "") := by
  induction items with
  | nil => rfl
  | cons item items ih =>
    have hrest := ih fun i hi => h i (List.mem_cons_of_mem _ hi)
    rw [List.map_cons, List.map_cons, Block.concatAll, h item List.mem_cons_self, ok_bind,
      hrest, ok_bind]
    rfl

/-- **What a loop does**: a round for every item of a list, and nothing for anything else. -/
theorem plan_each (h : LooksAt setting scopes value) {list : Dotted} (hread : list.isAsked)
    (hout : value.keepsOut list.keys) {round : Round}
    (hfits : round.fitsAll setting.strict (value.at? list.keys)) :
    Block.plan setting scopes (.call (.word "each") [.path (.ofDotted list)] []) [] false =
      .ok (match value.at? list.keys with
        | some (.array items) =>
          .body ((Block.rounds [] (.array items)).map fun scope => scope :: scopes)
        | _ => .otherwise) := by
  have hname : Block.Helper.ofName? "each" = some .each := rfl
  have hcall : Block.blockCall setting scopes (.call (.word "each") [.path (.ofDotted list)] []) =
      .ok (.each, [⟨value.at? list.keys, some (Block.Path.ofDotted list).raw⟩], []) := by
    rw [Block.blockCall, Block.Term.headName, Block.Term.arguments, Block.Term.argument,
      h.lookUp (Dotted.isNamed_of_isAsked hread) hout, Block.Term.arguments,
      Block.Term.namedArguments]
    simp only [Except.map, ok_bind, hname]
    rfl
  rw [Block.plan, hcall]
  simp only [ok_bind, Block.Helper.need]
  generalize value.at? list.keys = found at hfits ⊢
  have hlenient (hfits : !setting.strict) : setting.strict = false := Bool.not_eq_true' _ ▸ hfits
  cases found with
  | none =>
    rw [hlenient hfits]
    rfl
  | some v =>
    cases v with
    | array items =>
      have hruns : Block.runsOver (.array items) false = true := Bool.or_true _
      simp only [List.getElem?_cons_zero, ok_bind, Block.Argument.get, Option.getD_some,
        hruns, if_true]
      rfl
    | object entries => cases hfits
    | _ =>
      rw [hlenient hfits]
      rfl

/-- **A loop is rendered** round by round. -/
theorem render_loop (h : LooksAt setting scopes value) {list : Dotted} (hread : list.isAsked)
    (hout : value.keepsOut list.keys) {round : Round}
    (hround : ∀ field fields, ∀ part ∈ round.parts, part.2 = field :: fields →
      (Dotted.mk field fields).isPutOut)
    (hfits : round.fitsAll setting.strict (value.at? list.keys)) {elements : List Block.Element}
    (hbuild : PartsBuild round.last round.parts elements) (position : Option Block.Position) :
    (Block.Element.block position (.call (.word "each") [.path (.ofDotted list)] [])
      [] elements none).render setting scopes =
      .ok (((Json.loopItems (value.at? list.keys)).map round.meaning).foldr (· ++ ·) "") := by
  rw [Block.Element.render, Option.isSome_none, plan_each h hread hout hfits]
  cases hfound : value.at? list.keys with
  | none => rfl
  | some v =>
    rw [hfound] at hfits
    cases v with
    | array items =>
      have hitems := List.all_eq_true.1 hfits
      have hall : Block.concatAll (fun scopes => Block.renderAll setting scopes elements)
          ((Block.rounds [] (.array items)).map fun scope => scope :: scopes) = _ :=
        concatAll_rounds round.meaning items.zipIdx _ fun item hitem => by
          have hmem : item.1 ∈ items := List.fst_mem_of_mem_zipIdx hitem
          exact renderAll_round (h.item item.1 _) hround (hitems item.1 hmem) hbuild
      rw [List.zipIdx_map_fst] at hall
      simp only [Block.failAt, Except.mapError, ok_bind, hall]
      rfl
    | _ => rfl

/-- What stands in a round of a loop stands in it as an item. -/
theorem mem_round {item : Ident} {round : Round} {part : List Char × List Ident}
    (hpart : part ∈ round.parts) : Symbol.mark (.item item part.2) ∈ round.symbols item := by
  rw [Round.symbols]
  generalize round.parts = parts at hpart ⊢
  induction parts with
  | nil => cases hpart
  | cons first parts ih =>
    rw [List.foldr_cons]
    refine List.mem_append_right _ ?_
    rcases List.mem_cons.1 hpart with rfl | hpart
    · exact List.mem_cons_self
    · exact List.mem_cons_of_mem _ (ih hpart)

/-- The text of a block's alternative, none when it has none. -/
def renderAlternative (setting : Setting) (scopes : List Scope) (position : Option Block.Position) :
    Option (List Block.Element) → Except Block.RenderError String
  | some elements => Block.placeAt position (Block.renderAll setting scopes elements)
  | none => .ok ""

/-- **A branching is rendered** to its body, or to what its alternative is. -/
theorem render_branch {condition : Condition} (h : LooksAt setting scopes value)
    (hread : condition.path.isAsked) (hfits : condition.fits setting.strict value)
    {inner : List Block.Element} {otherwise : Option (List Block.Element)} {s t : String}
    (hinner : Block.renderAll setting scopes inner = .ok s) {position : Option Block.Position}
    (hotherwise : renderAlternative setting scopes position otherwise = .ok t) :
    (Block.Element.block position condition.call [] inner otherwise).render setting scopes =
      .ok (if condition.isTrue value then s else t) := by
  have hplan := condition.plan h hread hfits otherwise.isSome
  -- the body is rendered as the only round of a block, the alternative by itself
  cases hcondition : condition.isTrue value with
  | true =>
    have hall :
        Block.concatAll (fun scopes => Block.renderAll setting scopes inner) [scopes] = .ok s := by
      rw [Block.concatAll, hinner, ok_bind, Block.concatAll, ok_bind]
      exact congrArg Except.ok String.append_empty
    rw [hcondition] at hplan
    rw [Block.Element.render.eq_def]
    dsimp only
    rw [hplan]
    simp only [Block.failAt, Except.mapError, ok_bind, if_true, hall]
    rfl
  | false =>
    rw [hcondition] at hplan
    rw [Block.Element.render.eq_def]
    dsimp only
    rw [hplan, if_neg Bool.false_ne_true, if_neg Bool.false_ne_true]
    cases otherwise <;> exact hotherwise

mutual
/-- **A template that has the form of a parameter is rendered to its text.** -/
theorem renderAll_phrase (h : LooksAt setting scopes value) :
    ∀ (phrase : Phrase) {elements : List Block.Element},
    (∀ m, .mark m ∈ phrase.symbols → m.isRead) → phrase.fits setting.strict value →
    phrase.Builds elements →
      Block.renderAll setting scopes elements = .ok (phrase.meaning value)
  | .done text, _, _, _, hbuild => by
    obtain rfl := hbuild
    exact renderAll_textElements text
  | .output text out rest, _, hread, hfits, hbuild => by
    obtain ⟨position, others, rfl, hothers⟩ := hbuild
    obtain ⟨hout, hrest⟩ := Bool.and_eq_true_iff.1 hfits
    rw [Phrase.symbols] at hread
    have hout := Output.render h (hread _ (List.mem_append_right _ List.mem_cons_self)) hout
    exact renderAll_step (render_output hout) (renderAll_phrase h rest
      (fun m hm => hread m (List.mem_append_right _ (List.mem_cons_of_mem _ hm))) hrest hothers)
  | .branch text condition body others rest, _, hread, hfits, hbuild => by
    obtain ⟨position, inner, otherwise, elements, rfl, hinner, hotherwise, helements⟩ := hbuild
    obtain ⟨hcondition, hfits⟩ := Bool.and_eq_true_iff.1 hfits
    obtain ⟨hbody, hfits⟩ := Bool.and_eq_true_iff.1 hfits
    obtain ⟨hbranches, hrest⟩ := Bool.and_eq_true_iff.1 hfits
    rw [Phrase.symbols] at hread
    have hinside {m : Mark}
        (hm : .mark m ∈ body.symbols ++
          (others.symbols ++ .mark .endBranch :: rest.symbols)) : m.isRead :=
      hread m (List.mem_append_right _ (List.mem_cons_of_mem _ hm))
    have hblock := render_branch h (hread _ (List.mem_append_right _ List.mem_cons_self)) hcondition
      (renderAll_phrase h body (fun m hm => hinside (List.mem_append_left _ hm)) hbody hinner)
      (render_branches h others
        (fun m hm => hinside (List.mem_append_right _ (List.mem_append_left _ hm)))
        hbranches hotherwise
        position)
    exact renderAll_step hblock (renderAll_phrase h rest
      (fun m hm =>
        hinside (List.mem_append_right _ (List.mem_append_right _ (List.mem_cons_of_mem _ hm))))
          hrest helements)
  | .loop text item list round rest, _, hread, hfits, hbuild => by
    obtain ⟨position, inner, elements, rfl, hinner, helements⟩ := hbuild
    obtain ⟨hout, hfits⟩ := Bool.and_eq_true_iff.1 hfits
    obtain ⟨hall, hrest⟩ := Bool.and_eq_true_iff.1 hfits
    rw [Phrase.symbols] at hread
    have hround : ∀ field fields, ∀ part ∈ round.parts, part.2 = field :: fields →
        (Dotted.mk field fields).isPutOut := by
      intro field fields part hpart heq
      have hmark :=
        hread _ (List.mem_append_right _
          (List.mem_cons_of_mem _ (List.mem_append_left _ (mem_round hpart))))
      rwa [heq] at hmark
    have hloop :=
      render_loop h (hread _ (List.mem_append_right _ List.mem_cons_self)) hout hround hall
        hinner position
    exact renderAll_step hloop (renderAll_phrase h rest
      (fun m hm => hread m (List.mem_append_right _ (List.mem_cons_of_mem _
        (List.mem_append_right _ (List.mem_cons_of_mem _ hm)))))
      hrest helements)

/-- The alternative of a branching is rendered to the first further branch whose condition holds. -/
theorem render_branches (h : LooksAt setting scopes value) :
    ∀ (others : Branches) {otherwise : Option (List Block.Element)},
    (∀ m, .mark m ∈ others.symbols → m.isRead) → others.fits setting.strict value →
    others.Builds otherwise →
      ∀ position, renderAlternative setting scopes position otherwise = .ok (others.meaning value)
  | .stop, _, _, _, hbuild, _ => by
    obtain rfl := hbuild
    rfl
  | .otherwise body, _, hread, hfits, hbuild, _ => by
    obtain ⟨inner, rfl, hinner⟩ := hbuild
    rw [Branches.symbols] at hread
    rw [renderAlternative,
      renderAll_phrase h body (fun m hm => hread m (List.mem_cons_of_mem _ hm)) hfits hinner]
    rfl
  | .also condition body others, _, hread, hfits, hbuild, _ => by
    obtain ⟨inner, next, rfl, hinner, hnext⟩ := hbuild
    obtain ⟨hcondition, hfits⟩ := Bool.and_eq_true_iff.1 hfits
    obtain ⟨hbody, hothers⟩ := Bool.and_eq_true_iff.1 hfits
    rw [Branches.symbols] at hread
    have hblock := render_branch h (hread _ List.mem_cons_self) hcondition
      (renderAll_phrase h body
        (fun m hm => hread m (List.mem_cons_of_mem _ (List.mem_append_left _ hm))) hbody hinner)
      (render_branches h others
        (fun m hm => hread m (List.mem_cons_of_mem _ (List.mem_append_right _ hm)))
        hothers hnext none)
    rw [renderAlternative, Block.renderAll, hblock, ok_bind, Block.renderAll, ok_bind]
    exact congrArg Except.ok String.append_empty
end

end Template

end Runlist
