import Runlist.Block.Helper
import Runlist.Block.Template

/-!
# Rendering templates

* `Template.render`: the text of a template over data.
* `render`: the same for the template that a text denotes.
-/

namespace Runlist.Block

/-- The reason why a part gives nothing, at its place. -/
def failAt {α : Type} (position : Option Position) (r : Except Reason α) : Except RenderError α :=
  r.mapError fun reason => ⟨position, reason⟩

/-- An error of a part inside, at the place around it unless it has one. -/
def placeAt {α : Type} (position : Option Position) (r : Except RenderError α) :
    Except RenderError α :=
  r.mapError fun e => e.at' position

/-- The text of a value that is put out; a missing one is an error in strict mode. -/
def outputValue (setting : Setting) (a : Argument) : Except Reason String :=
  match a.value with
  | some value => .ok value.printed
  | none => if setting.strict then .error (.missingVariable a.path) else .ok ""

/-- The text of what a helper answers. -/
def outputAnswer (setting : Setting) (answer : Helper.Answer) : Except Reason String :=
  match answer with
  | .text s => .ok s
  | .value v => outputValue setting ⟨v, none⟩

/-- What a name alone puts out: what the helper of that name answers, if there is one, or else its
value. -/
def outputNamed (setting : Setting) (scopes : List Scope) (name : String) (term : Term) :
    Except Reason String :=
  match Helper.ofName? name with
  | some helper => do outputAnswer setting (← helper.answer setting.strict [] [])
  | none => do outputValue setting (← term.argument setting scopes)

/-- What a call puts out: what its helper answers. -/
def outputCall (setting : Setting) (scopes : List Scope) (head : Term) (terms : List Term)
    (options : List (String × Term)) : Except Reason String := do
  let name ← Term.headName setting scopes head
  let arguments ← Term.arguments setting scopes terms
  let options ← Term.namedArguments setting scopes options
  match Helper.ofName? name with
  | none => throw (.unknownHelper name)
  | some helper => outputAnswer setting (← helper.answer setting.strict arguments options)

/-- **The text that a tag puts out.** -/
def output (setting : Setting) (scopes : List Scope) (term : Term) : Except Reason String :=
  match term with
  | .path p => outputNamed setting scopes p.raw (.path p)
  | .call (.call head terms options) [] [] => do
    let name ← Term.headName setting scopes (.call head terms options)
    outputNamed setting scopes name (.call head terms options)
  | .call head terms options => outputCall setting scopes head terms options
  | term => do outputValue setting (← term.argument setting scopes)

/-- The call of a block: its helper, its arguments and its options. -/
def blockCall (setting : Setting) (scopes : List Scope) (call : Term) :
    Except Reason (Helper × List Argument × List (String × Argument)) :=
  match call with
  | .call head terms options => do
    let name ← Term.headName setting scopes head
    let arguments ← Term.arguments setting scopes terms
    let options ← Term.namedArguments setting scopes options
    match Helper.ofName? name with
    | none => throw (.unknownHelper name)
    | some helper => return (helper, arguments, options)
  | _ => throw (.unknownHelper "")

/-- The names that a block gives to a value and its key. -/
def bindNames (names : List String) (value key : Json) : Fields :=
  match names with
  | [] => []
  | [first] => [(first, value)]
  | first :: second :: _ => [(second, key), (first, value)]

/-- The scopes of a loop's rounds: one for each item of a list or entry of a mapping. -/
def rounds (names : List String) (value : Json) : List Scope :=
  let first (i : Nat) : String × Json := ("first", .bool (i == 0))
  let last (i n : Nat) : String × Json := ("last", .bool (i + 1 == n))
  match value with
  | .array items =>
    items.zipIdx.map fun (item, i) =>
      let index : Json := .number (.int i)
      ⟨item, [first i, last i items.length, ("index", index)], bindNames names item index⟩
  | .object entries =>
    entries.zipIdx.map fun ((key, item), i) =>
      ⟨item, [first i, last i entries.length, ("key", .string key)],
        bindNames names item (.string key)⟩
  | _ => []

/-- A loop runs over the value. Without an alternative it also runs over empty ones. -/
def runsOver (value : Json) (hasOtherwise : Bool) : Bool :=
  match value with
  | .array items => !items.isEmpty || !hasOtherwise
  | .object entries => !entries.isEmpty || !hasOtherwise
  | _ => false

/-- What a block does: one of its parts in some scopes, one after the other, or text. -/
inductive Plan where
  | body (scopes : List (List Scope))
  | otherwise
  | text (s : String)

/-- **What a block does.** -/
def plan (setting : Setting) (scopes : List Scope) (call : Term) (names : List String)
    (hasOtherwise : Bool) : Except Reason Plan := do
  let (helper, arguments, options) ← blockCall setting scopes call
  match helper with
  | .condition positive =>
    let a ← Helper.need "if" arguments 0
    let zeroHolds := ((options.lookup "includeZero").bind fun o => o.get.bool?).getD false
    return if a.get.holds zeroHolds == positive then .body [scopes] else .otherwise
  | .each =>
    let a ← Helper.need "each" arguments 0
    if runsOver a.get hasOtherwise then
      return .body ((rounds names a.get).map fun scope => scope :: scopes)
    else if !hasOtherwise && setting.strict then throw (.missingVariable a.path)
    else return .otherwise
  | .scoped =>
    let a ← Helper.need "with" arguments 0
    if a.get.holds false then
      let named := if names.length = 1 then bindNames names a.get .null else []
      return .body [⟨a.get, [], named⟩ :: scopes]
    else if !hasOtherwise && setting.strict then throw (.missingVariable a.path)
    else return .otherwise
  | .verbatim => return .body [scopes]
  | helper =>
    return .text (← outputAnswer setting (← helper.answer setting.strict arguments options))

/-- The name of another template, its arguments evaluated. -/
def fragmentName (setting : Setting) (scopes : List Scope) (name : Term) : Except Reason String :=
  match name with
  | .call head terms options => do
    let name ← match head with
      | .call inner [] [] => Term.headName setting scopes inner
      | head => Term.headName setting scopes head
    let _ ← Term.arguments setting scopes terms
    let _ ← Term.namedArguments setting scopes options
    return name
  | _ => .ok ""

/-- The texts of a part in several lists of scopes, one after the other. -/
def concatAll (part : List Scope → Except RenderError String) :
    List (List Scope) → Except RenderError String
  | [] => .ok ""
  | scopes :: rest => do
    let first ← part scopes
    let others ← concatAll part rest
    return first ++ others

mutual
/-- The text of an element. -/
def Element.render (setting : Setting) (scopes : List Scope) : Element → Except RenderError String
  | .text s => .ok s
  | .output position term => failAt position (output setting scopes term)
  | .block position call names body otherwise => do
    match ← failAt position (plan setting scopes call names otherwise.isSome) with
    | .text s => return s
    | .body rounds =>
      placeAt position (concatAll (fun scopes => renderAll setting scopes body) rounds)
    | .otherwise =>
      match otherwise with
      | some elements => placeAt position (renderAll setting scopes elements)
      | none => return ""
  | .fragment position name fallback => do
    let name ← failAt position (fragmentName setting scopes name)
    match fallback with
    | some elements => placeAt position (renderAll setting scopes elements)
    | none => failAt position (.error (.unknownFragment name))
  | .decorator position name => failAt position (.error (.unknownDecorator name))

/-- The text of elements, one after the other. -/
def renderAll (setting : Setting) (scopes : List Scope) :
    List Element → Except RenderError String
  | [] => .ok ""
  | element :: rest => do
    let first ← element.render setting scopes
    let others ← renderAll setting scopes rest
    return first ++ others
end

/-- **The text of a template** over data. -/
def Template.render (template : Template) (setting : Setting) : Except RenderError String :=
  renderAll setting [Scope.ofValue setting.data] template

/-- **The text of the template that a text denotes.** -/
def render (strict : Bool) (text : String) (data : Json) : Except BlockError String :=
  match Template.ofText? text.toList with
  | none => .error .malformed
  | some template => (template.render ⟨data, strict⟩).mapError .failed

end Runlist.Block
