import Runlist.Json.Reader
import Runlist.Text.Blank

/-!
# Terms inside tags

A tag holds a path, a literal or a call of a helper with arguments and options.

* `Path`: a reference to a value, with the text by which messages name it.
* `Term`: what a tag can hold.
* `Term.head?`, `Term.block?`: reading terms. Blanks and line ends may stand between the
  parts of a term but not inside a path.
-/

namespace Runlist.Block

/-- A reference to a value. -/
structure Path where
  /-- The path as written. -/
  raw : String
  /-- It starts at the data of the whole template. -/
  fromRoot : Bool
  /-- It names something that a loop provides. -/
  isLocal : Bool
  /-- The number of scopes that it leaves. -/
  ups : Nat
  /-- The names and positions to follow; `this` is none. -/
  names : List String
deriving DecidableEq, Inhabited, Repr

/-- What a tag can hold. -/
inductive Term where
  /-- The name of a helper. -/
  | word (name : String)
  | path (path : Path)
  | literal (value : Json)
  /-- A call: what names the helper, its arguments and its options. -/
  | call (head : Term) (arguments : List Term) (options : List (String × Term))
deriving Inhabited, Repr

/-- Blanks and line ends between the parts of a tag. -/
def isGap (c : Char) : Bool := c == ' ' || c == '\t' || c == '\n' || c == '\r'

/-- The text without the gap at its start. -/
def skipGap (s : List Char) : List Char := s.dropWhile isGap

/-- A character of names. -/
def isSymbol (c : Char) : Bool :=
  c.isAlphanum || c == '_' || c == '-' || c == '$' || c == ':' || 0x80 ≤ c.toNat

/-- The text starts with a character of names. -/
def startsSymbol (s : List Char) : Bool := s.head?.any isSymbol

/-- The name at the start of a text, and the rest. -/
def identifier? (s : List Char) : Option (String × List Char) :=
  match s.takeWhile isSymbol with
  | [] => none
  | name => some (String.ofList name, s.dropWhile isSymbol)

/-- The part of a text before a later part of it. -/
def before (s rest : List Char) : List Char := s.take (s.length - rest.length)

namespace Path

/-- A separator of a path's parts. -/
def isSeparator (c : Char) : Bool := c == '.' || c == '/'

/-- One name of a path; between square brackets it is any text. -/
def item? : List Char → Option (String × List Char)
  | '[' :: s =>
    match s.dropWhile (· != ']') with
    | _ :: rest => some (String.ofList (s.takeWhile (· != ']')), rest)
    | [] => none
  | s => identifier? s

/-- The names after the first, each behind a separator. -/
def items : Nat → List Char → List String × List Char
  | 0, s => ([], s)
  | n + 1, s =>
    match s with
    | c :: rest =>
      if isSeparator c then
        match item? rest with
        | some (name, rest) =>
          let (names, rest) := items n rest
          (name :: names, rest)
        | none => ([], s)
      else ([], s)
    | [] => ([], s)

/-- Past two dots and a separator, as often as they stand there. -/
def climb : Nat → List Char → Nat × List Char
  | 0, s => (0, s)
  | n + 1, '.' :: '.' :: c :: rest =>
    if isSeparator c then
      let (count, rest) := climb n rest
      (count + 1, rest)
    else (0, '.' :: '.' :: c :: rest)
  | _ + 1, s => (0, s)

/-- Past a word and a separator. -/
def afterWord? (word s : List Char) : Option (List Char) :=
  match Text.afterPrefix? word s with
  | some (c :: rest) => if isSeparator c then some rest else none
  | _ => none

/-- **Reads a path.** -/
def read? (s : List Char) : Option (Path × List Char) := do
  let rest := ((afterWord? "this".toList s).or (Text.afterPrefix? "./".toList s)).getD s
  let root := afterWord? "@root".toList rest
  let rest := root.getD rest
  let isLocal := rest.head? == some '@'
  let rest := if isLocal then rest.drop 1 else rest
  let (ups, rest) := climb rest.length rest
  let (first, rest) ← item? rest
  let (others, rest) := items rest.length rest
  let names := (first :: others).filter (· != "this")
  return (⟨String.ofList (before s rest), root.isSome, isLocal, ups, names⟩, rest)

end Path

/-- The rest after a number: digits with an optional sign, point and exponent, the latter behind a
capital letter. -/
def afterNumber? (s : List Char) : Option (List Char) :=
  let s := if s.head? == some '-' then s.drop 1 else s
  if !s.head?.any Char.isDigit then none
  else
    let s := s.dropWhile Char.isDigit
    let s := if s.head? == some '.' then s.drop 1 else s
    let s := s.dropWhile Char.isDigit
    let exponent := if s.head? == some 'E' then s.drop 1 else []
    let exponent := if exponent.head? == some '-' then exponent.drop 1 else exponent
    let s := if exponent.head?.any Char.isDigit then exponent.dropWhile Char.isDigit else s
    if startsSymbol s then none else some s

/-- The rest after a quoted text; a backslash takes the next character with it. -/
def afterQuoted? (quote : Char) : List Char → Option (List Char)
  | [] => none
  | '\\' :: _ :: s => afterQuoted? quote s
  | c :: s => if c == quote then some s else afterQuoted? quote s

/-- The rest after a word that no name continues. -/
def afterKeyword? (word : String) (s : List Char) : Option (List Char) :=
  match Text.afterPrefix? word.toList s with
  | some rest => if startsSymbol rest then none else some rest
  | none => none

mutual
/-- The rest after a literal: quoted text, a list, a mapping, a number, null or a boolean. -/
def afterLiteral? : Nat → List Char → Option (List Char)
  | 0, _ => none
  | n + 1, s =>
    match s with
    | '"' :: rest => afterQuoted? '"' rest
    | '\'' :: rest => afterQuoted? '\'' rest
    | '[' :: rest =>
      let rest := skipGap rest
      afterItems? n ((afterLiteral? n rest).getD rest)
    | '\x7b' :: rest =>
      let rest := skipGap rest
      afterPairs? n ((afterPair? n rest).getD rest)
    | _ =>
      (afterNumber? s).or ((afterKeyword? "null" s).or
        ((afterKeyword? "true" s).or (afterKeyword? "false" s)))

/-- The rest after the further items of a list and its bracket. -/
def afterItems? : Nat → List Char → Option (List Char)
  | 0, _ => none
  | n + 1, s =>
    match skipGap s with
    | ',' :: rest => (afterLiteral? n (skipGap rest)).bind (afterItems? n)
    | ']' :: rest => some rest
    | _ => none

/-- The rest after the entry of a mapping. -/
def afterPair? : Nat → List Char → Option (List Char)
  | 0, _ => none
  | n + 1, s =>
    let key? : Option (List Char) := match s with
      | '"' :: rest => afterQuoted? '"' rest
      | '\'' :: rest => afterQuoted? '\'' rest
      | _ => none
    match key?.map skipGap with
    | some (':' :: rest) => afterLiteral? n (skipGap rest)
    | _ => none

/-- The rest after the further entries of a mapping and its brace. -/
def afterPairs? : Nat → List Char → Option (List Char)
  | 0, _ => none
  | n + 1, s =>
    match skipGap s with
    | ',' :: rest => (afterPair? n (skipGap rest)).bind (afterPairs? n)
    | '\x7d' :: rest => some rest
    | _ => none
end

/-- The value of a literal. A text between single quotes may stand only by itself. -/
def literalValue? : List Char → Option Json
  | '\'' :: s =>
    match Json.readString? '\'' s with
    | some (text, []) => some (.string text)
    | _ => none
  | s => Json.read? s

/-- The text starts with one of the words that open another part of the tag, and no name
follows. -/
def startsKeyword (s : List Char) : Bool :=
  let apart : Option (List Char) → Bool :=
    fun rest => rest.any fun rest => !startsSymbol (skipGap rest)
  apart (Text.afterPrefix? "as".toList s) || apart (Text.afterPrefix? "else".toList s)

mutual
/-- Reads an argument. -/
def argument? : Nat → List Char → Option (Term × List Char)
  | 0, _ => none
  | n + 1, s =>
    if startsKeyword s then none
    else match afterLiteral? (s.length + 1) s with
      | some rest => (literalValue? (before s rest)).map fun value => (.literal value, rest)
      | none =>
        match Path.read? s with
        | some (path, rest) => some (.path path, rest)
        | none => group? n s

/-- Reads a call or a path in parentheses. -/
def group? : Nat → List Char → Option (Term × List Char)
  | 0, _ => none
  | n + 1, s =>
    match s with
    | '(' :: s =>
      let s := skipGap s
      let inner? : Option (Term × List Char) :=
        match call? n s with
        | some found => some found
        | none => (Path.read? s).map fun (path, rest) => (.call (.path path) [] [], rest)
      match inner? with
      | some (term, rest) =>
        match skipGap rest with
        | ')' :: rest => some (term, rest)
        | _ => none
      | none => none
    | _ => none

/-- Reads the name of a helper with at least one argument or option. -/
def call? : Nat → List Char → Option (Term × List Char)
  | 0, _ => none
  | n + 1, s =>
    match identifier? s with
    | none => none
    | some (name, rest) =>
      match arguments n rest with
      | ([], [], _) => none
      | (arguments, options, rest) => some (.call (.word name) arguments options, rest)

/-- Reads arguments and options as long as there are any. -/
def arguments : Nat → List Char → List Term × List (String × Term) × List Char
  | 0, s => ([], [], s)
  | n + 1, s =>
    match option? n (skipGap s) with
    | some (entry, rest) =>
      let (terms, options, rest) := arguments n rest
      (terms, entry :: options, rest)
    | none =>
      match argument? n (skipGap s) with
      | some (term, rest) =>
        let (terms, options, rest) := arguments n rest
        (term :: terms, options, rest)
      | none => ([], [], s)

/-- Reads an option: a name, an equals sign and an argument. -/
def option? : Nat → List Char → Option ((String × Term) × List Char)
  | 0, _ => none
  | n + 1, s =>
    match identifier? s with
    | none => none
    | some (name, rest) =>
      match skipGap rest with
      | '=' :: rest => (argument? n (skipGap rest)).map fun (term, rest) => ((name, term), rest)
      | _ => none
end

namespace Term

/-- A bound on the steps that reading a term from a text takes. -/
def bound (s : List Char) : Nat := 4 * s.length + 8

/-- Reads a path or a call in parentheses, whose value then is the name of what is meant. -/
def name? (s : List Char) : Option (Term × List Char) :=
  match group? (bound s) s with
  | some (term, rest) => some (.call term [] [], rest)
  | none => (Path.read? s).map fun (p, rest) => (.path p, rest)

/-- **Reads what a tag for output holds**: a call, a path, or a call in parentheses. -/
def head? (s : List Char) : Option (Term × List Char) := (call? (bound s) s).or (name? s)

/-- The names between bars that a block gives to its values, two at most. -/
def blockNames? (s : List Char) : Option (List String × List Char) :=
  match Text.afterPrefix? "as".toList s with
  | none => none
  | some rest =>
    match skipGap rest with
    | '|' :: rest =>
      match identifier? (skipGap rest) with
      | none => none
      | some (first, rest) =>
        let (names, rest) := match identifier? (skipGap rest) with
          | some (second, rest) => ([first, second], rest)
          | none => ([first], rest)
        match skipGap rest with
        | '|' :: rest => some (names, rest)
        | _ => none
    | _ => none

/-- **Reads what a tag for a block holds**: a helper's name with arguments and options, and names
for the values of the block. -/
def block? (s : List Char) : Option (Term × List String × List Char) :=
  match identifier? s with
  | none => none
  | some (name, rest) =>
    let (terms, options, rest) := arguments (bound rest) rest
    match blockNames? (skipGap rest) with
    | some (names, rest) => some (.call (.word name) terms options, names, rest)
    | none => some (.call (.word name) terms options, [], rest)

end Term

end Runlist.Block
