import Runlist.Yaml.Node
import Runlist.LineRange

/-!
# Where the parts of a document stand

Rows are kept in a tree of the document's shape. They are known only when every key is a scalar
and neither anchors nor aliases nor tags occur.

* `Rows.ofNode?`: the rows of a node.
* `Rows.item`, `Rows.key`: the rows of a part.
* `Rows.range`: the lines of a part, up to the start of its deepest last part.
-/

namespace Runlist.Yaml

/-- The rows of a node and of its parts. -/
inductive Rows where
  | unknown
  | scalar (row : Nat)
  | sequence (row : Nat) (items : List Rows)
  | mapping (row : Nat) (entries : List (String × Rows))
deriving Inhabited, Repr

namespace Rows

/-- The text of a key; a key that is left out reads as a tilde. -/
def keyText? : Node → Option String
  | .scalar ⟨none, none⟩ _ _ text => some text
  | .absent ⟨none, none⟩ _ => some "~"
  | _ => none

mutual
/-- The rows of a node, unless something in it hides them. -/
def ofNode? : Node → Option Rows
  | .scalar ⟨none, none⟩ row _ _ => some (.scalar row)
  | .absent ⟨none, none⟩ row => some (.scalar row)
  | .sequence ⟨none, none⟩ row items => (ofItems? items).map (.sequence row)
  | .mapping ⟨none, none⟩ row entries => (ofEntries? entries).map (.mapping row)
  | _ => none

/-- The rows of items. -/
def ofItems? : List Node → Option (List Rows)
  | [] => some []
  | item :: items => do
    let first ← ofNode? item
    let rest ← ofItems? items
    return first :: rest

/-- The rows of entries. -/
def ofEntries? : List (Node × Node) → Option (List (String × Rows))
  | [] => some []
  | (key, value) :: entries => do
    let text ← keyText? key
    let first ← ofNode? value
    let rest ← ofEntries? entries
    return (text, first) :: rest
end

/-- The rows of an item by its position. -/
def item (rows : Rows) (index : Nat) : Rows :=
  match rows with
  | .sequence _ items => items[index]?.getD .unknown
  | _ => .unknown

/-- The rows of the value at a key, of the last one when there are several. -/
def key (rows : Rows) (key : String) : Rows :=
  match rows with
  | .mapping _ entries => (entries.reverse.lookup key).getD .unknown
  | _ => .unknown

/-- The row on which a node starts, zero when it is not known. -/
def first : Rows → Nat
  | .unknown => 0
  | .scalar row => row
  | .sequence row _ => row
  | .mapping row _ => row

mutual
/-- The row on which the deepest last part starts. -/
def last : Rows → Nat
  | .unknown => 0
  | .scalar row => row
  | .sequence row items => lastOf row items
  | .mapping row entries => lastOfEntries row entries

/-- The last row of the last item, or the given row when there are none. -/
def lastOf (row : Nat) : List Rows → Nat
  | [] => row
  | item :: items => lastOf item.last items

/-- The last row of the last value, or the given row when there are none. -/
def lastOfEntries (row : Nat) : List (String × Rows) → Nat
  | [] => row
  | (_, value) :: entries => lastOfEntries value.last entries
end

/-- The lines of a node. -/
def range (rows : Rows) : LineRange := ⟨rows.first, rows.last⟩

/-- The rows of a document's root. Only lists and mappings have rows; a byte-order mark in front
belongs to the first key, and hides the rows of everything else. -/
def ofRoot (text : List Char) (root : Node) : Rows :=
  let rows := (ofNode? root).getD .unknown
  let mark := Char.ofNat 0xFEFF
  if text.head? == some mark then
    match rows, text.tail.head? with
    | .mapping row ((key, value) :: entries), some c =>
      if c == '\x7b' then .unknown
      else .mapping row ((String.ofList (mark :: key.toList), value) :: entries)
    | _, _ => .unknown
  else match rows with
    | .scalar _ => .unknown
    | rows => rows

end Rows

end Runlist.Yaml
