import Runlist.Block.Piece

/-!
# Templates as trees

* `Element`: a text, or a tag with what it encloses, and the place of the tag.
* `Template.ofText?`: the tree of a template; nothing when its tags are not well formed or not
  properly nested.
-/

namespace Runlist.Block

/-- A part of a template. Blocks that an `else` opens have no place of their own. -/
inductive Element where
  | text (s : String)
  | output (position : Option Position) (term : Term)
  /-- A block: its call, the names of its values, its body and its alternative. -/
  | block (position : Option Position) (call : Term) (names : List String)
      (body : List Element) (otherwise : Option (List Element))
  /-- A reference to another template, with an optional text to use in its place. -/
  | fragment (position : Option Position) (name : Term) (fallback : Option (List Element))
  | decorator (position : Option Position) (name : String)
deriving Inhabited

/-- A template. -/
abbrev Template := List Element

namespace Template

mutual
/-- Reads elements up to a tag that ends them, with a bound on their number. -/
def elements? : Nat → List Item → Option (Template × List Item)
  | 0, _ => none
  | n + 1, items =>
    match items with
    | [] => some ([], [])
    | .text s :: rest => more? n (.text s) rest
    | .tag t position :: rest =>
      match t with
      | .comment => elements? n rest
      | .output term => more? n (.output (some position) term) rest
      | .openBlock call names =>
        match block? n (some position) call names rest with
        | some (block, .tag (.closeBlock name) _ :: rest) =>
          if name == TagText.blockName call then more? n block rest else none
        | _ => none
      | .fragment name => more? n (.fragment (some position) name none) rest
      | .openFragment name =>
        match elements? n rest with
        | some (body, .tag (.closeBlock closing) _ :: rest) =>
          if closing == TagText.blockName name then
            more? n (.fragment (some position) name (some body)) rest
          else none
        | _ => none
      | .decorator name => more? n (.decorator (some position) name) rest
      | .openDecorator name =>
        match elements? n rest with
        | some (_, .tag (.closeBlock closing) _ :: rest) =>
          if closing == name then more? n (.decorator (some position) name) rest else none
        | _ => none
      | _ => some ([], items)

/-- An element in front of those that follow. -/
def more? : Nat → Element → List Item → Option (Template × List Item)
  | 0, _, _ => none
  | n + 1, element, items =>
    (elements? n items).map fun (elements, rest) => (element :: elements, rest)

/-- Reads the body of a block and its alternatives, up to its end. -/
def block? : Nat → Option Position → Term → List String → List Item →
    Option (Element × List Item)
  | 0, _, _, _, _ => none
  | n + 1, position, call, names, items =>
    match elements? n items with
    | none => none
    | some (body, rest) =>
      match rest with
      | .tag .otherwise _ :: rest =>
        match elements? n rest with
        | some (otherwise, rest) => some (.block position call names body (some otherwise), rest)
        | none => none
      | .tag (.otherwiseBlock next names') _ :: rest =>
        match block? n none next names' rest with
        | some (otherwise, rest) => some (.block position call names body (some [otherwise]), rest)
        | none => none
      | rest => some (.block position call names body none, rest)
end

/-- **The tree of a template.** -/
def ofText? (s : List Char) : Option Template :=
  (Piece.ofText? s).bind fun pieces =>
    let items := Item.ofPieces pieces
    match elements? (3 * items.length + 3) items with
    | some (template, []) => some template
    | _ => none

end Template

end Runlist.Block
