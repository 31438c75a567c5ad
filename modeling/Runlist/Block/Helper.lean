import Runlist.Block.Scope
import Runlist.Decimal.Reader

/-!
# Helpers

* `Argument`: the value of an argument, if it has one, and the path that names it.
* `Helper`: the helpers that templates can call.
* `Helper.answer`: what a helper answers that has no body.
* `Term.argument`: the value of a term.
-/

namespace Runlist.Block

/-- The value of an argument, and the path by which messages name it. -/
structure Argument where
  value : Option Json
  path : Option String
deriving Inhabited

/-- The value of an argument, null when it is missing. -/
def Argument.get (a : Argument) : Json := a.value.getD .null

/-- How two values are compared. -/
inductive Comparison where
  | less
  | lessOrEqual
  | greater
  | greaterOrEqual
deriving DecidableEq, Repr

/-- The comparison holds for an order of two values. -/
def Comparison.holds : Comparison → Ordering → Bool
  | .less, o => o == .lt
  | .lessOrEqual, o => o != .gt
  | .greater, o => o == .gt
  | .greaterOrEqual, o => o != .lt

/-- The name of a comparison. -/
def Comparison.name : Comparison → String
  | .less => "lt"
  | .lessOrEqual => "lte"
  | .greater => "gt"
  | .greaterOrEqual => "gte"

/-- The helpers that templates can call. -/
inductive Helper where
  /-- The body when a value counts as true, or when it does not. -/
  | condition (positive : Bool)
  | each
  | scoped
  | lookup
  | verbatim
  | log
  | equal (positive : Bool)
  | compare (comparison : Comparison)
  | all
  | any
  | not
  | length
  | fallback
deriving DecidableEq, Repr

namespace Helper

/-- The helper of a name. -/
def ofName? (name : String) : Option Helper :=
  match name with
  | "if" => some (.condition true)
  | "unless" => some (.condition false)
  | "each" => some .each
  | "with" => some .scoped
  | "lookup" => some .lookup
  | "raw" => some .verbatim
  | "log" => some .log
  | "eq" => some (.equal true)
  | "ne" => some (.equal false)
  | "gt" => some (.compare .greater)
  | "gte" => some (.compare .greaterOrEqual)
  | "lt" => some (.compare .less)
  | "lte" => some (.compare .lessOrEqual)
  | "and" => some .all
  | "or" => some .any
  | "not" => some .not
  | "len" => some .length
  | "default" => some .fallback
  | _ => none

/-- What a helper answers: a value, which may be missing, or text. -/
inductive Answer where
  | value (v : Option Json)
  | text (s : String)

/-- The text of a value that is compared or replaces another. -/
def asText : Json → String
  | .string s => s
  | .null => ""
  | other => other.text

/-- **Loose equality**: two strings, numbers or booleans are compared as such, everything else by
its text. -/
def looselyEqual : Json → Json → Bool
  | .string s, .string t => s == t
  | .number m, .number n => m.same n
  | .bool a, .bool b => a == b
  | x, y => asText x == asText y

/-- The fallback takes the place of a missing value, of null and of the empty string. -/
def fallbackText (value : Option Json) (fallback : String) : String :=
  match value with
  | none | some .null => fallback
  | some (.string s) => if s == "" then fallback else s
  | some other => asText other

/-- The order of two fractions, by value. -/
def compareFractions (x y : Binary64) : Ordering :=
  if x.less y then .lt else if y.less x then .gt else .eq

/-- The value of a number as a quotient. -/
def quotient : Number → Int × Nat
  | .int i => (i, 1)
  | .float x => (if x.negative then -(x.ratio.1 : Int) else x.ratio.1, x.ratio.2)

/-- The order of two numbers, by value and without rounding. -/
def compareNumbers (m n : Number) : Ordering :=
  Ord.compare ((quotient m).1 * (quotient n).2) ((quotient n).1 * (quotient m).2)

/-- The number that a text denotes for comparison, infinities included. -/
def textNumber? (s : String) : Option Binary64 :=
  let (sign, rest) := Decimal.splitSign s.toList
  let word := (String.ofList rest).toLower
  if word == "inf" || word == "infinity" then some (Binary64.infinity (sign == some '-'))
  else Binary64.read? s.toList

/-- The order of two values, where they have one. -/
def compareValues? : Json → Json → Option Ordering
  | .number m, .number n => some (compareNumbers m n)
  | .string s, .string t => some (Ord.compare s t)
  | .bool a, .bool b => some (Ord.compare a b)
  | .number m, .string t => (textNumber? t).map (compareFractions m.toBinary64)
  | .string s, .number n => (textNumber? s).map fun x => compareFractions x n.toBinary64
  | _, _ => none

/-- The number of items, entries or bytes of a value. -/
def lengthOf : Json → Nat
  | .array items => items.length
  | .object entries => entries.length
  | .string s => s.utf8ByteSize
  | _ => 0

/-- The item of a list at a number, or the value of a mapping at a string. -/
def member? (collection index : Json) : Option Json :=
  match collection, index with
  | .array items, .number (.int i) => if 0 ≤ i then items[i.toNat]? else none
  | .object entries, .string key => Fields.get? entries key
  | _, _ => none

/-- An argument that a helper needs, by its name; in strict mode it needs a value too. -/
def needNamed (strict : Bool) (helper name : String) (argument : Option Argument) :
    Except Reason Json :=
  match argument with
  | none => .error (.missingNamedArgument helper name)
  | some a =>
    if strict && a.value.isNone then .error (.missingNamedArgument helper name) else .ok a.get

/-- An argument that a helper needs, by its position. -/
def need (helper : String) (arguments : List Argument) (index : Nat) : Except Reason Argument :=
  match arguments[index]? with
  | some a => .ok a
  | none => .error (.missingArgument helper index)

/-- The levels of messages. -/
def isLevel (name : String) : Bool :=
  ["off", "error", "warn", "info", "debug", "trace"].contains name.toLower

/-- **What a helper answers that has no body.** -/
def answer (helper : Helper) (strict : Bool) (arguments : List Argument)
    (options : List (String × Argument)) : Except Reason Answer :=
  match helper with
  | .condition _ => (need "if" arguments 0).map fun _ => .text ""
  | .each => (need "each" arguments 0).map fun _ => .text ""
  | .scoped => do
    let a ← need "with" arguments 0
    if !a.get.holds false && strict then throw (.missingVariable a.path) else return .text ""
  | .lookup => do
    let collection ← need "lookup" arguments 0
    let index ← need "lookup" arguments 1
    match member? collection.get index.get with
    | some value => return .value (some value)
    | none => if strict then throw (.missingVariable none) else return .value none
  | .verbatim => .ok (.text "")
  | .log =>
    match (options.lookup "level").bind fun a => a.get.string? with
    | some level => if isLevel level then .ok (.text "") else .error (.unknownLevel level)
    | none => .ok (.text "")
  | .equal positive => do
    let name := if positive then "loose_eq" else "loose_ne"
    let left ← needNamed strict name "left" arguments[0]?
    let right ← needNamed strict name "right" arguments[1]?
    return .value (some (.bool (looselyEqual left right == positive)))
  | .compare comparison => do
    let x ← needNamed strict comparison.name "x" arguments[0]?
    let y ← needNamed strict comparison.name "y" arguments[1]?
    return .value (some (.bool ((compareValues? x y).any comparison.holds)))
  | .all => .ok (.value (some (.bool (arguments.all fun a => a.get.holds false))))
  | .any => .ok (.value (some (.bool (arguments.any fun a => a.get.holds false))))
  | .not => do
    let x ← needNamed strict "not" "x" arguments[0]?
    return .value (some (.bool (!x.holds false)))
  | .length => do
    let x ← needNamed strict "len" "x" arguments[0]?
    return .value (some (.number (.int (lengthOf x))))
  | .fallback =>
    let fallback := match arguments[1]? with
      | some a => asText a.get
      | none => ""
    .ok (.text (fallbackText (arguments[0]?.bind (·.value)) fallback))

/-- The value that a helper gives when it is called by its name. -/
def called (strict : Bool) (name : String) (arguments : List Argument)
    (options : List (String × Argument)) : Except Reason Argument :=
  match ofName? name with
  | none => throw (.unknownHelper name)
  | some helper => do
    match ← helper.answer strict arguments options with
    | .value value => return ⟨value, none⟩
    | .text s => return ⟨some (.string s), none⟩

end Helper

namespace Term

mutual
/-- **The value of a term.** -/
def argument (setting : Setting) (scopes : List Scope) : Term → Except Reason Argument
  | .word name => .ok ⟨none, some name⟩
  | .path p => (lookUp setting scopes p).map fun value => ⟨value, some p.raw⟩
  | .literal value => .ok ⟨some value, none⟩
  | .call head terms options => do
    let name ← headName setting scopes head
    let arguments ← arguments setting scopes terms
    let options ← namedArguments setting scopes options
    Helper.called setting.strict name arguments options

/-- The name of the helper that the head of a call means. -/
def headName (setting : Setting) (scopes : List Scope) : Term → Except Reason String
  | .word name => .ok name
  | .path p => .ok p.raw
  | .literal _ => .ok ""
  | .call head terms options => do
    let name ← headName setting scopes head
    let arguments ← arguments setting scopes terms
    let options ← namedArguments setting scopes options
    let a ← Helper.called setting.strict name arguments options
    return a.get.printed

/-- The values of terms. -/
def arguments (setting : Setting) (scopes : List Scope) : List Term → Except Reason (List Argument)
  | [] => .ok []
  | term :: terms => do
    let first ← argument setting scopes term
    let rest ← arguments setting scopes terms
    return first :: rest

/-- The values of options. -/
def namedArguments (setting : Setting) (scopes : List Scope) :
    List (String × Term) → Except Reason (List (String × Argument))
  | [] => .ok []
  | (name, term) :: options => do
    let first ← argument setting scopes term
    let rest ← namedArguments setting scopes options
    return (name, first) :: rest
end

end Term

end Runlist.Block
