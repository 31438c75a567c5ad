import Runlist.Yaml.Lexer

/-!
# Nodes of a document

A node is a scalar, a sequence, a mapping, an alias, or nothing where a value is left out. Every
node knows the row on which it starts.

* `Node`: the tree that a document's tokens describe.
* `Node.ofLexemes?`: the tree of a list of tokens that hold one document.
* `Node.targets`: the nodes with an anchor, in the order of the text.

Names of anchors are replaced by numbers: each new anchor takes the number of different names
that were met before it, so that an anchor that takes a name again also takes over the number
that the next new name will have.
-/

namespace Runlist.Yaml

/-- What may stand in front of a node's content. -/
structure Properties where
  anchor : Option Nat
  tag : Option String
deriving DecidableEq, Inhabited, Repr

/-- A node of a document. -/
inductive Node where
  /-- Another place of the node with an anchor. -/
  | alias (anchor : Nat)
  /-- Text, plain or in quotes or in a block. -/
  | scalar (properties : Properties) (row : Nat) (plain : Bool) (text : String)
  /-- A value that is left out. -/
  | absent (properties : Properties) (row : Nat)
  | sequence (properties : Properties) (row : Nat) (items : List Node)
  | mapping (properties : Properties) (row : Nat) (entries : List (Node × Node))
deriving Inhabited, Repr

namespace Node

/-- What stands in front of a node's content. -/
def properties : Node → Properties
  | .alias _ => ⟨none, none⟩
  | .scalar p _ _ _ => p
  | .absent p _ => p
  | .sequence p _ _ => p
  | .mapping p _ _ => p

mutual
/-- The nodes with an anchor and their numbers, in the order of the text. -/
def targets : Node → List (Nat × Node)
  | .sequence p row items =>
    (p.anchor.map fun n => (n, .sequence p row items)).toList ++ targetsOf items
  | .mapping p row entries =>
    (p.anchor.map fun n => (n, .mapping p row entries)).toList ++ targetsOfEntries entries
  | node => (node.properties.anchor.map fun n => (n, node)).toList

/-- The nodes with an anchor among items. -/
def targetsOf : List Node → List (Nat × Node)
  | [] => []
  | item :: items => item.targets ++ targetsOf items

/-- The nodes with an anchor among entries. -/
def targetsOfEntries : List (Node × Node) → List (Nat × Node)
  | [] => []
  | (key, value) :: entries => key.targets ++ value.targets ++ targetsOfEntries entries
end

mutual
/-- The number of marks that a reader meets: one for a scalar or an alias, and two around the
contents of a collection. -/
def weight : Node → Nat
  | .sequence _ _ items => 2 + weightOf items
  | .mapping _ _ entries => 2 + weightOfEntries entries
  | _ => 1

/-- The weight of items. -/
def weightOf : List Node → Nat
  | [] => 0
  | item :: items => item.weight + weightOf items

/-- The weight of entries. -/
def weightOfEntries : List (Node × Node) → Nat
  | [] => 0
  | (key, value) :: entries => key.weight + value.weight + weightOfEntries entries
end

end Node

/-- The state of reading nodes: the tokens that are left, the prefixes of tag handles, and the
numbers of anchor names, each list with the latest entry first. -/
structure NodeReader where
  lexemes : List Lexeme
  handles : List (String × String)
  anchors : List (String × Nat)

/-- A step of reading nodes. -/
abbrev ReadNode := StateT NodeReader Option

namespace ReadNode

/-- The handles that need no directive. -/
def standardHandles : List (String × String) :=
  [("!", "!"), ("!!", "tag:yaml.org,2002:")]

/-- The next token. -/
def peek : ReadNode (Option Token) := do return (← get).lexemes.head?.map (·.token)

/-- The row of the next token. -/
def row : ReadNode Nat := do return ((← get).lexemes.head?.map (·.row)).getD 0

/-- Past the next token. -/
def skip : ReadNode Unit := modify fun s => { s with lexemes := s.lexemes.drop 1 }

/-- The next token is one of these; past the end of the text it is none. -/
def nextIn (tokens : List Token) : ReadNode Bool := do
  return (← peek).any tokens.contains

/-- A value that is left out before the next token. -/
def absent : ReadNode Node := do return .absent ⟨none, none⟩ (← row)

/-- The tag that a handle and a suffix stand for. -/
def resolveTag (handle suffix : String) : ReadNode String := do
  if handle == "" then return suffix
  else match (← get).handles.lookup handle with
    | some start => return start ++ suffix
    | none => failure

/-- Reads an anchor if there is one, and gives it its number. -/
def anchor : ReadNode (Option Nat) := do
  match ← peek with
  | some (.anchor name) =>
    skip
    let s ← get
    let number := s.anchors.length
    set { s with anchors := (name, number) :: s.anchors.filter fun (known, _) => known != name }
    return some number
  | _ => return none

/-- Reads a tag if there is one. -/
def tag : ReadNode (Option String) := do
  match ← peek with
  | some (.tag handle suffix) =>
    skip
    return some (← resolveTag handle suffix)
  | _ => return none

/-- Reads what stands in front of a node's content, an anchor and a tag in any order. -/
def properties : ReadNode Properties := do
  match ← anchor with
  | some number => return ⟨some number, ← tag⟩
  | none =>
    let tag ← tag
    return ⟨← anchor, tag⟩

/-- The tag of a scalar that is written out; a lone exclamation mark says nothing about it. -/
def scalarTag (tag : Option String) : Option String := if tag == some "!" then none else tag

mutual
/-- Reads a node. In a block, block collections may start here; after a key, a sequence may stand
on the key's own column. -/
def node (block indentless : Bool) : Nat → ReadNode Node
  | 0 => failure
  | n + 1 => do
    let row ← row
    match ← peek with
    | some (.alias name) =>
      match (← get).anchors.lookup name with
      | some number =>
        skip
        return .alias number
      | none => failure
    | _ =>
      let p ← properties
      match ← peek with
      | some (.scalar plain text) =>
        skip
        return .scalar { p with tag := scalarTag p.tag } row plain text
      | some .flowSequenceStart =>
        skip
        return .sequence p row (← flowItems n true)
      | some .flowMappingStart =>
        skip
        return .mapping p row (← flowEntries n true)
      | some .blockEntry =>
        if indentless then return .sequence p row (← indentlessItems n) else leftOut p row
      | some .blockSequenceStart =>
        if block then
          skip
          return .sequence p row (← blockItems n)
        else leftOut p row
      | some .blockMappingStart =>
        if block then
          skip
          return .mapping p row (← blockEntries n)
        else leftOut p row
      | _ => leftOut p row

/-- A node without content; something must stand in front. -/
def leftOut (p : Properties) (row : Nat) : ReadNode Node :=
  if p.anchor.isNone && p.tag.isNone then failure else return .absent p row

/-- Reads the items of a block sequence. -/
def blockItems : Nat → ReadNode (List Node)
  | 0 => failure
  | n + 1 => do
    match ← peek with
    | some .blockEntry =>
      skip
      let item ← if ← nextIn [.blockEntry, .blockEnd] then absent else node true false n
      return item :: (← blockItems n)
    | some .blockEnd =>
      skip
      return []
    | _ => failure

/-- Reads the items of a sequence on the column of its key. -/
def indentlessItems : Nat → ReadNode (List Node)
  | 0 => failure
  | n + 1 => do
    match ← peek with
    | some .blockEntry =>
      skip
      let item ←
        if ← nextIn [.blockEntry, .key, .value, .blockEnd] then absent else node true false n
      return item :: (← indentlessItems n)
    | _ => return []

/-- Reads the entries of a block mapping. -/
def blockEntries : Nat → ReadNode (List (Node × Node))
  | 0 => failure
  | n + 1 => do
    match ← peek with
    | some .key =>
      skip
      let key ← blockPart n
      let value ← if ← nextIn [.value] then do skip; blockPart n else absent
      return (key, value) :: (← blockEntries n)
    | some .blockEnd =>
      skip
      return []
    | _ => failure

/-- Reads a key or a value of a block mapping after its indicator. -/
def blockPart : Nat → ReadNode Node
  | 0 => failure
  | n + 1 => do if ← nextIn [.key, .value, .blockEnd] then absent else node true true n

/-- Reads the items of a flow sequence; after the first, a comma precedes each. An item with a
colon is a mapping of one entry. -/
def flowItems : Nat → Bool → ReadNode (List Node)
  | 0, _ => failure
  | n + 1, first => do
    match ← peek with
    | some .flowSequenceEnd =>
      skip
      return []
    | next =>
      if !first then
        if next == some .flowEntry then skip else failure
      let row ← row
      match ← peek with
      | some .flowSequenceEnd =>
        skip
        return []
      | some .key =>
        skip
        let entry ← flowPair n
        return .mapping ⟨none, none⟩ row [entry] :: (← flowItems n false)
      | _ =>
        let item ← node false false n
        return item :: (← flowItems n false)

/-- Reads the entry of a mapping that is an item of a flow sequence. Where the key is left out, one
token is passed over. -/
def flowPair : Nat → ReadNode (Node × Node)
  | 0 => failure
  | n + 1 => do
    let key ←
      if ← nextIn [.value, .flowEntry, .flowSequenceEnd] then do
        let key ← absent
        skip
        pure key
      else node false false n
    let value ←
      if ← nextIn [.value] then do
        skip
        if ← nextIn [.flowEntry, .flowSequenceEnd] then absent else node false false n
      else absent
    return (key, value)

/-- Reads the entries of a flow mapping; after the first, a comma precedes each. -/
def flowEntries : Nat → Bool → ReadNode (List (Node × Node))
  | 0, _ => failure
  | n + 1, first => do
    match ← peek with
    | some .flowMappingEnd =>
      skip
      return []
    | next =>
      if !first then
        if next == some .flowEntry then skip else failure
      match ← peek with
      | some .flowMappingEnd =>
        skip
        return []
      | some .key =>
        skip
        let key ←
          if ← nextIn [.value, .flowEntry, .flowMappingEnd] then absent else node false false n
        let value ←
          if ← nextIn [.value] then do
            skip
            if ← nextIn [.flowEntry, .flowMappingEnd] then absent else node false false n
          else absent
        return (key, value) :: (← flowEntries n false)
      | _ =>
        let key ← node false false n
        let value ← absent
        return (key, value) :: (← flowEntries n false)
end

/-- Reads the directives in front of a document; each may be given once. -/
def directives : Nat → Bool → ReadNode Bool
  | 0, _ => failure
  | n + 1, version => do
    match ← peek with
    | some .versionDirective =>
      if version then failure
      skip
      let _ ← directives n true
      return true
    | some (.tagDirective handle start) =>
      if (← get).handles.any fun (known, _) => known == handle then failure
      skip
      modify fun s => { s with handles := (handle, start) :: s.handles }
      let _ ← directives n version
      return true
    | _ => return false

/-- Reads the one document of a text; nothing when the text holds only blanks and comments. -/
def document (bound : Nat) : ReadNode (Option Node) := do
  if (← peek).isNone then return none
  let explicit ← directives bound false
  let marked ← nextIn [.documentStart]
  if explicit && !marked then failure
  modify fun s => { s with handles := s.handles ++ standardHandles }
  if marked then skip
  let next ← peek
  let root ←
    if marked && (next.isNone || next == some .documentStart || next == some .documentEnd)
      then absent
    else node true false bound
  modify fun s => { s with lexemes := s.lexemes.dropWhile fun l => l.token == .documentEnd }
  if (← peek).isNone then return some root else failure

end ReadNode

/-- **The tree of a document's tokens.** -/
def Node.ofLexemes? (lexemes : List Lexeme) : Option (Option Node) :=
  ((ReadNode.document (4 * lexemes.length + 8)).run ⟨lexemes, [], []⟩).map (·.1)

end Runlist.Yaml
