import Runlist.Yaml.Node
import Runlist.Json.Printer
import Runlist.Decimal.Reader

/-!
# Values of documents

A plain scalar denotes null, a boolean, a number or its own text, by the way it is written; a tag
can ask for one of these kinds. Two equal keys in one mapping are refused.

* `Value`: what a node denotes.
* `Value.ofPlain?`: what a plain scalar denotes.
* `Node.value?`: what a node denotes, aliases followed.
* `Value.toJson`: the data value, tags dropped and keys made strings.
-/

namespace Runlist.Yaml

/-- What a node denotes. -/
inductive Value where
  | null
  | bool (b : Bool)
  | int (i : Int)
  | float (x : Binary64)
  | notANumber
  | string (s : String)
  | sequence (items : List Value)
  | mapping (entries : List (Value × Value))
  | tagged (tag : String) (value : Value)
deriving Inhabited, Repr

namespace Value

mutual
/-- Equality by value; the order of a mapping's entries does not count. -/
def same : Value → Value → Bool
  | .null, .null => true
  | .bool a, .bool b => a == b
  | .int i, .int j => i == j
  | .float x, .float y => x.same y
  | .notANumber, .notANumber => true
  | .string s, .string t => s == t
  | .sequence xs, .sequence ys => sameItems xs ys
  | .mapping xs, .mapping ys => xs.length == ys.length && allIn xs ys
  | .tagged s x, .tagged t y => s == t && same x y
  | _, _ => false

/-- Equality of sequences, item by item. -/
def sameItems : List Value → List Value → Bool
  | [], [] => true
  | x :: xs, y :: ys => same x y && sameItems xs ys
  | _, _ => false

/-- Every entry is among those of the second list. -/
def allIn : List (Value × Value) → List (Value × Value) → Bool
  | [], _ => true
  | (k, x) :: xs, ys => ys.any (fun (l, y) => same k l && same x y) && allIn xs ys
end

/-- The entries hold two equal keys. -/
def hasDuplicate : List (Value × Value) → Bool
  | [] => false
  | (k, _) :: rest => rest.any (fun (l, _) => k.same l) || hasDuplicate rest

mutual
/-- The data value: tags are dropped, and keys become strings. -/
def toJson : Value → Json
  | .null => .null
  | .bool b => .bool b
  | .int i => .number (.int i)
  | .float x => if x.isFinite then .number (.float x) else .null
  | .notANumber => .null
  | .string s => .string s
  | .sequence items => .array (itemsToJson items)
  | .mapping entries => .object (Fields.ofList (entriesToJson entries))
  | .tagged _ value => value.toJson

/-- The data values of items. -/
def itemsToJson : List Value → List Json
  | [] => []
  | x :: xs => x.toJson :: itemsToJson xs

/-- The entries with data values; a key that is no string is replaced by its text. -/
def entriesToJson : List (Value × Value) → List (String × Json)
  | [] => []
  | (k, x) :: rest =>
    let key := match k.toJson with
      | .string s => s
      | other => other.text
    (key, x.toJson) :: entriesToJson rest
end

/-- The value of a digit in a base up to sixteen. -/
def digit? (base : Nat) (c : Char) : Option Nat :=
  (Json.hexValue? c).filter (· < base)

/-- The number that a run of digits denotes, one at least. -/
def natural? (base : Nat) (s : List Char) : Option Nat :=
  if s.isEmpty then none else s.foldlM (fun n c => (digit? base c).map (n * base + ·)) 0

/-- Digits that start with a zero are text, the lone zero apart. -/
def isZeroLed (s : List Char) : Bool :=
  match (Decimal.splitSign s).2 with
  | '0' :: d :: rest => (d :: rest).all Char.isDigit
  | _ => false

/-- The base and the digits of the text of a natural number. -/
def splitBase : List Char → Nat × List Char
  | '0' :: 'x' :: s => (16, s)
  | '0' :: 'o' :: s => (8, s)
  | '0' :: 'b' :: s => (2, s)
  | s => (10, s)

/-- The integer that a text denotes, of any size: an optional sign, an optional base mark and
digits. -/
def integer? (s : List Char) : Option Int :=
  if isZeroLed s then none
  else
    let (sign, rest) := Decimal.splitSign s
    let (base, digits) := splitBase rest
    (natural? base digits).map fun n => if sign == some '-' then -(n : Int) else n

/-- The fraction, infinity or missing number that a text denotes. -/
def float? (text : String) : Option Value :=
  let bare := if text.startsWith "+" then (text.drop 1).toString else text
  if text.startsWith "+" && (bare.startsWith "+" || bare.startsWith "-") then none
  else if bare == ".inf" || bare == ".Inf" || bare == ".INF" then
    some (.float (Binary64.infinity false))
  else if text == "-.inf" || text == "-.Inf" || text == "-.INF" then
    some (.float (Binary64.infinity true))
  else if text == ".nan" || text == ".NaN" || text == ".NAN" then some .notANumber
  else (Binary64.read? text.toList).bind fun x => if x.isFinite then some (.float x) else none

/-- The words for null. -/
def isNullWord (s : String) : Bool := s == "~" || s == "null" || s == "Null" || s == "NULL"

/-- The boolean that a word denotes. -/
def boolWord? (s : String) : Option Bool :=
  if s == "true" || s == "True" || s == "TRUE" then some true
  else if s == "false" || s == "False" || s == "FALSE" then some false
  else none

/-- An integer as a value. One that needs more than 64 bits is refused while it fits 128, and is
no integer beyond. -/
def sized (i : Int) : Option (Option Value) :=
  if -Int.pow 2 63 ≤ i && i < Int.pow 2 64 then some (some (.int i))
  else if -Int.pow 2 127 ≤ i && i < Int.pow 2 128 then some none
  else none

/-- **What a plain scalar denotes**: nothing when it is an integer of a refused size. -/
def ofPlain? (text : String) : Option Value :=
  if text == "" || isNullWord text then some .null
  else match boolWord? text with
    | some b => some (.bool b)
    | none =>
      match (integer? text.toList).bind sized with
      | some value => value
      | none =>
        if isZeroLed text.toList then some (.string text)
        else some ((float? text).getD (.string text))

/-- A tag that starts with an exclamation mark. -/
def isLocalTag (tag : String) : Bool := tag.startsWith "!"

/-- **What a scalar denotes** under its tag. -/
def ofScalar? (tag : Option String) (plain : Bool) (text : String) : Option Value :=
  let untagged := if plain then ofPlain? text else some (.string text)
  match tag with
  | none => untagged
  | some tag =>
    if tag == "tag:yaml.org,2002:bool" then (boolWord? text).map .bool
    else if tag == "tag:yaml.org,2002:int" then ((integer? text.toList).bind sized).bind id
    else if tag == "tag:yaml.org,2002:float" then float? text
    else if tag == "tag:yaml.org,2002:null" then if isNullWord text then some .null else none
    else if isLocalTag tag then
      if tag == "!" then none else untagged.map (.tagged tag)
    else some (.string text)

/-- A collection under its tag; a tag that is only an exclamation mark is refused. -/
def ofCollection? (tag : Option String) (value : Value) : Option Value :=
  match tag with
  | some tag =>
    if tag == "!" then none
    else if isLocalTag tag then some (.tagged tag value)
    else some value
  | none => some value

end Value

namespace Node

/-- The nodes that aliases stand for, and how many aliases may be followed. -/
structure Anchors where
  targets : List (Nat × Node)
  limit : Nat

/-- The anchors of a document; the last node with a number counts. -/
def anchors (root : Node) : Anchors := ⟨root.targets.reverse, 100 * root.weight⟩

/-- The node that an alias stands for, the followed aliases counted. -/
def follow (anchors : Anchors) (node : Node) : StateT Nat Option Node := do
  match node with
  | .alias number =>
    let count := (← get) + 1
    set count
    if anchors.limit < count then failure
    else match anchors.targets.lookup number with
      | some target => return target
      | none => failure
  | node => return node

/-- What a node denotes, with the number of collections that may be nested in one another. -/
def contents (anchors : Anchors) : Nat → Node → StateT Nat Option Value
  | _, .alias _ => failure
  | _, .scalar p _ plain text => StateT.lift (Value.ofScalar? p.tag plain text)
  | _, .absent p _ => StateT.lift (Value.ofScalar? p.tag true "")
  | 0, _ => failure
  | depth + 1, .sequence p _ items => do
    let values ← items.mapM fun item => do contents anchors depth (← follow anchors item)
    StateT.lift (Value.ofCollection? p.tag (.sequence values))
  | depth + 1, .mapping p _ entries => do
    let values ← entries.mapM fun (key, value) => do
      let key ← contents anchors depth (← follow anchors key)
      let value ← contents anchors depth (← follow anchors value)
      return (key, value)
    if Value.hasDuplicate values then failure
    StateT.lift (Value.ofCollection? p.tag (.mapping values))

/-- **What a document denotes.** Collections are nested at most 128 deep, and aliases are followed
at most a hundred times as often as the document has marks. -/
def value? (root : Node) : Option Value :=
  ((contents root.anchors 128 root).run 0).map (·.1)

end Node

end Runlist.Yaml
