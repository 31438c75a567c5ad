import Runlist.Block.Error
import Runlist.Json.Printer

/-!
# Scopes and values

A path is looked up in the value of the innermost scope, in the one that it climbs to, in the
values that a block has named, or in the data of the whole template.

* `Scope`: the value that a block looks at, and what it provides.
* `lookUp`: the value of a path.
* `Json.printed`, `Json.holds`: the text of a value in a template, and whether it counts as true.
-/

namespace Runlist

namespace Json

mutual
/-- The text of a value in a template: nothing for null, and one word for every mapping. -/
def printed : Json → String
  | .null => ""
  | .bool b => if b then "true" else "false"
  | .number n => n.text
  | .string s => s
  | .array items => "[" ++ ", ".intercalate (printedItems items) ++ "]"
  | .object _ => "[object]"

/-- The texts of items. -/
def printedItems : List Json → List String
  | [] => []
  | x :: xs => printed x :: printedItems xs
end

/-- The value counts as true in a condition. Of numbers this holds for those with a full
significand, so not for zero, or with `zeroHolds` for all. -/
def holds (zeroHolds : Bool) : Json → Bool
  | .null => false
  | .bool b => b
  | .number n => zeroHolds || n.toBinary64.isNormal
  | .string s => s != ""
  | .array items => !items.isEmpty
  | .object entries => !entries.isEmpty

end Json

namespace Block

/-- What a block looks at, and what it provides to the paths inside. -/
structure Scope where
  value : Json
  /-- What a loop provides under names of its own. -/
  locals : Fields
  /-- The names that the block gives to its values. -/
  names : Fields
deriving Inhabited

/-- The scope of a value. -/
def Scope.ofValue (value : Json) : Scope := ⟨value, [], []⟩

/-- The data of a template, and whether missing values are errors. -/
structure Setting where
  data : Json
  strict : Bool

/-- The position in a list that a text denotes. -/
def index? (s : String) : Option Nat :=
  let digits := match s.toList with
    | '+' :: rest => rest
    | all => all
  if digits.isEmpty || !digits.all Char.isDigit then none
  else
    let n := Json.digitsValue digits
    if n < Nat.pow 2 64 then some n else none

/-- The value at the end of a list of names; nothing when one of them is missing. -/
def follow : Json → List String → Except Reason (Option Json)
  | value, [] => .ok (some value)
  | value, name :: rest =>
    match value with
    | .array items =>
      match index? name with
      | none => .error (.notAnIndex name)
      | some i =>
        match items[i]? with
        | some item => follow item rest
        | none => .ok none
    | .object entries =>
      match Fields.get? entries name with
      | some item => follow item rest
      | none => .ok none
    | _ => .ok none

/-- The value of the innermost scope that gives a name to it. -/
def named? (scopes : List Scope) (name : String) : Option Json :=
  scopes.findSome? fun scope => scope.names.get? name

/-- The value of the scope that a path climbs to, or of the innermost one when there are fewer. -/
def base (setting : Setting) (scopes : List Scope) (ups : Nat) : Json :=
  match scopes[ups]?.or scopes.head? with
  | some scope => scope.value
  | none => setting.data

/-- **The value of a path**; nothing when it is missing. -/
def lookUp (setting : Setting) (scopes : List Scope) (p : Path) : Except Reason (Option Json) :=
  if p.fromRoot then follow setting.data p.names
  else if p.isLocal then
    match p.names with
    | name :: _ => .ok (scopes[p.ups]?.bind fun scope => scope.locals.get? name)
    | [] => .ok (some (base setting scopes 0))
  else match p.names.head?.bind (named? scopes) with
    | some value => follow value (if p.ups = 0 then p.names.tail else p.names)
    | none => follow (base setting scopes p.ups) p.names

end Block

end Runlist
