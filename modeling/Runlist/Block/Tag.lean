import Runlist.Block.Term

/-!
# Tags

A tag stands between double braces: output of a term, the start of a block, its alternatives and
its end, a comment, or a reference to another template. A tilde at either end takes the blanks
on that side away.

* `Tag`: the kinds of tags.
* `TagText.read?`: reads a tag after its opening braces.
-/

namespace Runlist.Block

/-- What stands between double braces. -/
inductive Tag where
  | output (term : Term)
  /-- The start of a block, with the names of its values. -/
  | openBlock (call : Term) (names : List String)
  | otherwise
  /-- An alternative that is a block of its own. -/
  | otherwiseBlock (call : Term) (names : List String)
  | closeBlock (name : String)
  | comment
  /-- A reference to another template. -/
  | fragment (name : Term)
  /-- A reference to another template with a text to use in its place. -/
  | openFragment (name : Term)
  | decorator (name : String)
  | openDecorator (name : String)
deriving Inhabited, Repr

/-- A tag and the sides on which it takes blanks away. -/
structure TagText where
  tag : Tag
  trimBefore : Bool
  trimAfter : Bool
deriving Inhabited, Repr

namespace TagText

/-- Past an optional tilde and the gaps around it. -/
def tilde (s : List Char) : Bool × List Char :=
  match skipGap s with
  | '~' :: s => (true, skipGap s)
  | s => (false, s)

/-- Past the end of a tag: an optional tilde and the closing braces. -/
def closed? (s : List Char) : Option (Bool × List Char) :=
  let (trim, s) := tilde s
  (Text.afterPrefix? "\x7d\x7d".toList s).map fun rest => (trim, rest)

/-- The text after the first occurrence of another. -/
def afterFirst? (needle : List Char) : List Char → Option (List Char)
  | [] => none
  | c :: s =>
    match Text.afterPrefix? needle (c :: s) with
    | some rest => some rest
    | none => afterFirst? needle s

/-- The text after a comment, which starts after its exclamation mark. With two dashes it lasts
up to the next two dashes before closing braces. -/
def afterComment? (s : List Char) : Option (List Char) :=
  let long? := (Text.afterPrefix? "--".toList (skipGap s)).bind (afterFirst? "--\x7d\x7d".toList)
  long?.or (afterFirst? "\x7d\x7d".toList s)

/-- The name of another template: names, dots and slashes, or text in brackets or quotes. -/
def fragmentName? (s : List Char) : Option (Term × List Char) :=
  let word := s.takeWhile fun c => isSymbol c || Path.isSeparator c
  if !word.isEmpty then some (.word (String.ofList word), s.drop word.length)
  else
    let enclosed? (close : Char) : Option (Term × List Char) :=
      match (s.drop 1).dropWhile (· != close) with
      | _ :: rest => some (.word (String.ofList (before s rest)), rest)
      | [] => none
    if s.head? == some '[' then enclosed? ']'
    else if s.head? == some '\'' then enclosed? '\''
    else Term.name? s

/-- Reads a reference to another template. -/
def fragment? (s : List Char) : Option (Term × List Char) :=
  (fragmentName? s).map fun (name, rest) =>
    let (terms, options, rest) := arguments (Term.bound rest) rest
    (.call name terms options, rest)

/-- The name of the helper that a block calls. -/
def blockName : Term → String
  | .call (.word name) _ _ => name
  | .call (.path p) _ _ => p.raw
  | _ => ""

/-- Reads the end of a tag and puts the tag together. -/
def finish? (trimBefore : Bool) (tag : Tag) (s : List Char) : Option (TagText × List Char) :=
  (closed? s).map fun (trimAfter, rest) => (⟨tag, trimBefore, trimAfter⟩, rest)

/-- Reads an alternative of a block after the word or sign that starts it. -/
def otherwise? (trimBefore : Bool) (s : List Char) : Option (TagText × List Char) :=
  match finish? trimBefore .otherwise s with
  | some found => some found
  | none =>
    (Term.block? (skipGap s)).bind fun (call, names, rest) =>
      finish? trimBefore (.otherwiseBlock call names) rest

/-- Reads output of a term. -/
def output? (trimBefore : Bool) (s : List Char) : Option (TagText × List Char) :=
  (Term.head? s).bind fun (term, rest) => finish? trimBefore (.output term) rest

/-- Reads output between triple braces, after the third one. -/
def triple? (s : List Char) : Option (TagText × List Char) :=
  let (trimBefore, s) := tilde s
  (Term.head? s).bind fun (term, rest) =>
    let (trimAfter, rest) := tilde rest
    (Text.afterPrefix? "\x7d\x7d\x7d".toList rest).map fun rest =>
      (⟨.output term, trimBefore, trimAfter⟩, rest)

/-- Reads output between a brace inside the tag and its partner, after the first one. -/
def braced? (trimBefore : Bool) (s : List Char) : Option (TagText × List Char) :=
  (Term.head? (skipGap s)).bind fun (term, rest) =>
    match skipGap rest with
    | '\x7d' :: rest => finish? trimBefore (.output term) rest
    | _ => none

/-- Reads a tag that is neither a comment nor opened by triple braces, after an optional tilde. -/
def plain? (trimBefore : Bool) (s : List Char) : Option (TagText × List Char) :=
  match s with
  | '#' :: s =>
    match skipGap s with
    | '*' :: s =>
      (Term.block? (skipGap s)).bind fun (call, _, rest) =>
        finish? trimBefore (.openDecorator (blockName call)) rest
    | '>' :: s =>
      (fragment? (skipGap s)).bind fun (name, rest) =>
        finish? trimBefore (.openFragment name) rest
    | s =>
      (Term.block? s).bind fun (call, names, rest) =>
        finish? trimBefore (.openBlock call names) rest
  | '/' :: s =>
    (fragmentName? (skipGap s)).bind fun (name, rest) =>
      match name with
      | .word name => finish? trimBefore (.closeBlock name) rest
      | _ => none
  | '&' :: s =>
    (Term.name? (skipGap s)).bind fun (term, rest) => finish? trimBefore (.output term) rest
  | '>' :: s =>
    (fragment? (skipGap s)).bind fun (name, rest) => finish? trimBefore (.fragment name) rest
  | '*' :: s =>
    (Term.block? (skipGap s)).bind fun (call, _, rest) =>
      finish? trimBefore (.decorator (blockName call)) rest
  | '^' :: s => otherwise? trimBefore s
  | '\x7b' :: s => braced? trimBefore s
  | s =>
    match (Text.afterPrefix? "else".toList s).bind (otherwise? trimBefore) with
    | some found => some found
    | none => output? trimBefore s

/-- **Reads a tag** after its opening braces. -/
def read? (s : List Char) : Option (TagText × List Char) :=
  match s with
  | '!' :: s => (afterComment? s).map fun rest => (⟨.comment, false, false⟩, rest)
  | s =>
    let triple : Option (TagText × List Char) := match s with
      | '\x7b' :: s => triple? s
      | _ => none
    match triple with
    | some found => some found
    | none =>
      let (trimBefore, s) := tilde s
      plain? trimBefore s

/-- Reads the start of a raw block after its four braces. -/
def openRaw? (s : List Char) : Option (TagText × List Char) :=
  let (trimBefore, s) := tilde s
  (Term.block? s).bind fun (call, names, rest) =>
    let (trimAfter, rest) := tilde rest
    (Text.afterPrefix? "\x7d\x7d\x7d\x7d".toList rest).map fun rest =>
      (⟨.openBlock call names, trimBefore, trimAfter⟩, rest)

/-- Reads the end of a raw block after its four braces. -/
def closeRaw? (s : List Char) : Option (TagText × List Char) :=
  let (trimBefore, s) := tilde s
  match s with
  | '/' :: s =>
    (identifier? (skipGap s)).bind fun (name, rest) =>
      let (trimAfter, rest) := tilde rest
      (Text.afterPrefix? "\x7d\x7d\x7d\x7d".toList rest).map fun rest =>
        (⟨.closeBlock name, trimBefore, trimAfter⟩, rest)
  | _ => none

end TagText

end Runlist.Block
