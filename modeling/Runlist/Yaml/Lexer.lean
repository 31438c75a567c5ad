import Runlist.Yaml.Token
import Runlist.Yaml.Scalar

/-!
# The tokens of a text

A block collection is opened where a column grows and closed where it shrinks. A key that is
written without `?` is known as one only when its colon has been met; its token is then put in
front of those that were read since.

* `Lexer`: the state of reading.
* `Lexer.step?`: reads one token.
* `Lexemes.ofText?`: the tokens of a whole text, and whether rows can be told from them.
-/

namespace Runlist.Yaml

/-- A place where a key may have started. -/
structure KeyPlace where
  /-- There can be nothing but a key. -/
  required : Bool
  /-- Tokens before it. -/
  number : Nat
  place : Cursor

/-- The state of reading tokens. -/
structure Lexer where
  cursor : Cursor
  /-- The tokens so far, last first. -/
  lexemes : List Lexeme
  /-- The number of tokens so far. -/
  count : Nat
  /-- The column of the innermost block collection, `-1` outside. -/
  indent : Int
  /-- The columns of the collections around it. -/
  outerIndents : List Int
  /-- The place of a possible key. -/
  key : Option KeyPlace
  /-- The places around the open flow collections, innermost first. -/
  outerKeys : List (Option KeyPlace)
  /-- A key may start here. -/
  keyAllowed : Bool
  /-- The last indicator makes what follows belong one column further right. -/
  shifted : Bool
  /-- The end of the last token after which a comment needs a blank. -/
  joint : Option Nat
  /-- Nothing was met so far that hides the rows of nodes. -/
  rowsKnown : Bool

namespace Lexer

/-- The state before a text. -/
def ofText (text : List Char) : Lexer where
  cursor := Cursor.ofText text
  lexemes := []
  count := 0
  indent := -1
  outerIndents := []
  key := none
  outerKeys := []
  keyAllowed := true
  shifted := false
  joint := none
  rowsKnown := true

/-- Inside a flow collection. -/
def inFlow (s : Lexer) : Bool := !s.outerKeys.isEmpty

/-- The row of the next character, counted from one. -/
def row (s : Lexer) : Nat := s.cursor.row + 1

/-- Adds a token that stands on a row. -/
def emitAt (s : Lexer) (token : Token) (row : Nat) : Lexer :=
  { s with lexemes := ⟨token, row⟩ :: s.lexemes, count := s.count + 1 }

/-- Adds a token at the cursor. -/
def emit (s : Lexer) (token : Token) : Lexer := s.emitAt token s.row

/-- Adds a token behind the first `number` tokens. -/
def emitBehind (s : Lexer) (number : Nat) (token : Token) (row : Nat) : Lexer :=
  let later := s.count - number
  { s with
    lexemes := s.lexemes.take later ++ ⟨token, row⟩ :: s.lexemes.drop later
    count := s.count + 1 }

/-- Moves the cursor. -/
def at' (s : Lexer) (cursor : Cursor) : Lexer := { s with cursor }

/-- Past `n` characters. -/
def advance (s : Lexer) (n : Nat) : Lexer := s.at' (s.cursor.advance n)

/-- Gives up the possible key; a required one cannot be given up. -/
def dropKey? (s : Lexer) : Option Lexer :=
  if s.key.any (·.required) then none else some { s with key := none }

/-- Marks the cursor as the place of a possible key. -/
def markKey? (s : Lexer) : Option Lexer :=
  if s.keyAllowed then
    s.dropKey?.map fun s =>
      let required := !s.inFlow && s.indent == (s.cursor.column : Int)
      { s with key := some ⟨required, s.count, s.cursor⟩ }
  else some s

/-- A key stands on one line and is at most 1024 characters long. -/
def KeyPlace.isStale (k : KeyPlace) (c : Cursor) : Bool :=
  k.place.line < c.line || k.place.index + 1024 < c.index

/-- Gives up the keys whose colon can no longer come. -/
def dropStale? (s : Lexer) : Option Lexer :=
  let stale : Option KeyPlace → Bool := fun k => k.any (KeyPlace.isStale · s.cursor)
  let fresh : Option KeyPlace → Option KeyPlace := fun k => if stale k then none else k
  if (s.key :: s.outerKeys).any fun k => stale k && k.any (·.required) then none
  else some { s with key := fresh s.key, outerKeys := s.outerKeys.map fresh }

/-- Closes the block collections that stand right of a column. -/
def closeBlocks (s : Lexer) (column : Int) : Lexer :=
  if s.inFlow then s else go s s.outerIndents
where
  /-- Closes them one by one; the list holds the columns further out. -/
  go (s : Lexer) : List Int → Lexer
    | [] => s
    | outer :: rest =>
      if column < s.indent then
        go { s.emit .blockEnd with indent := outer, outerIndents := rest } rest
      else s

/-- Opens a block collection when the column is right of the innermost one. Its token goes
behind the first `number` tokens. -/
def openBlock (s : Lexer) (column : Nat) (number : Nat) (token : Token) (row : Nat) : Lexer :=
  if !s.inFlow && s.indent < (column : Int) then
    { s.emitBehind number token row with
      indent := (column : Int), outerIndents := s.indent :: s.outerIndents }
  else s

/-- Skips blanks, comments and line ends between tokens. -/
def skipBlanks : Nat → Lexer → Lexer
  | 0, s => s
  | n + 1, s =>
    match s.cursor.rest with
    | [] => s
    | c :: _ =>
      if c == ' ' || (c == '\t' && (s.inFlow || !s.keyAllowed)) then
        skipBlanks n (s.at' s.cursor.next)
      else if c == '#' then
        let known := s.rowsKnown && s.joint != some s.cursor.index
        skipBlanks n { s with cursor := s.cursor.skipLineRest, rowsKnown := known }
      else if isBreak c then
        skipBlanks n { s with cursor := s.cursor.nextLine, keyAllowed := s.keyAllowed || !s.inFlow }
      else if c.toNat == 0xFEFF && s.cursor.index == 0 then
        skipBlanks n (s.at' s.cursor.next)
      else s

/-- A character of a directive's name, an anchor or a tag's handle. -/
def isNameChar (c : Char) : Bool := c.isAlphanum || c == '_' || c == '-'

/-- The name at the start of a text, and what follows it. -/
def takeName (s : List Char) : String × List Char :=
  (String.ofList (s.takeWhile isNameChar), s.dropWhile isNameChar)

/-- Characters of a tag, besides those of names. -/
def isTagMark (c : Char) : Bool := ";/?:@&=+$.!~*'()".toList.contains c

/-- The bytes that percent escapes at the start of a text denote, at most `count`. -/
def escapedBytes? : Nat → List Char → Option (List Nat × List Char)
  | 0, s => some ([], s)
  | n + 1, '%' :: a :: b :: s => do
    let byte := (← Json.hexValue? a) * 16 + (← Json.hexValue? b)
    let (bytes, s) ← escapedBytes? n s
    return (byte :: bytes, s)
  | _ + 1, _ => none

/-- The number of bytes of a character, told from the first one. -/
def byteCount? (byte : Nat) : Option Nat :=
  if byte < 0x80 then some 1
  else if byte / 32 == 6 then some 2
  else if byte / 16 == 14 then some 3
  else if byte / 8 == 30 then some 4
  else none

/-- The character that percent escapes at the start of a text denote. -/
def escapedChar? (s : List Char) : Option (Char × List Char) := do
  let (first, _) ← escapedBytes? 1 s
  let lead := first.headD 0
  let width ← byteCount? lead
  let (bytes, s) ← escapedBytes? width s
  if bytes.tail.all fun b => b / 64 == 2 then
    let start := if width == 1 then lead else lead % Nat.pow 2 (7 - width)
    some (Char.ofNat (bytes.tail.foldl (fun n b => n * 64 + b % 64) start), s)
  else none

/-- Reads the characters of a tag, with a bound on their number. In a verbatim tag commas and
square brackets belong to it. -/
def tagText? (verbatim : Bool) : Nat → List Char → Option (List Char × List Char)
  | 0, s => some ([], s)
  | _ + 1, [] => some ([], [])
  | n + 1, c :: s =>
    if c == '%' then do
      let (x, s) ← escapedChar? (c :: s)
      let (text, s) ← tagText? verbatim n s
      return (x :: text, s)
    else if isNameChar c || isTagMark c || (verbatim && (c == ',' || c == '[' || c == ']')) then do
      let (text, s) ← tagText? verbatim n s
      return (c :: text, s)
    else some ([], c :: s)

/-- The text of a tag that is not empty. -/
def someTagText? (verbatim : Bool) (s : List Char) : Option (String × List Char) := do
  let (text, rest) ← tagText? verbatim s.length s
  if text.isEmpty then none else some (String.ofList text, rest)

/-- Reads a tag after its first `!`: handle and suffix, and what follows. -/
def tagParts? (s : List Char) : Option (String × String × List Char) :=
  match s with
  | '<' :: s => do
    let (uri, s) ← someTagText? true s
    match s with
    | '>' :: s => some ("", uri, s)
    | _ => none
  | _ =>
    let (name, after) := takeName s
    match after with
    | '!' :: s => do
      let (suffix, s) ← someTagText? false s
      return ("!" ++ name ++ "!", suffix, s)
    | _ => do
      let (text, s) ← tagText? false s.length s
      if text.isEmpty then return ("", "!", s) else return ("!", String.ofList text, s)

/-- Reads a directive after its `%`: a token, and what follows on its line. -/
def directive? (s : List Char) : Option (Token × List Char) :=
  let (name, s) := takeName s
  let blanks : List Char → List Char := fun s => s.dropWhile isGap
  if !atSeparator s then none
  else if name == "YAML" then
    let number? : List Char → Option (Nat × List Char) := fun s =>
      let digits := s.takeWhile Char.isDigit
      if digits.isEmpty || 9 < digits.length then none
      else some (Json.digitsValue digits, s.dropWhile Char.isDigit)
    do
      let (major, s) ← number? (blanks s)
      match s with
      | '.' :: s => do
        let (minor, s) ← number? s
        if major == 1 && (minor == 1 || minor == 2) then some (.versionDirective, s) else none
      | _ => none
  else if name == "TAG" then
    match blanks s with
    | '!' :: s =>
      let (name, after) := takeName s
      let handle? : Option (String × List Char) := match after with
        | '!' :: s => some ("!" ++ name ++ "!", s)
        | s => if name == "" then some ("!", s) else none
      do
        let (handle, s) ← handle?
        if !s.head?.any isGap then none
        else
          let (uri, s) ← someTagText? true (blanks s)
          if atSeparator s then some (.tagDirective handle uri, s) else none
    | _ => none
  else none

/-- The cursor with the rest of its line replaced by a later part of it. -/
def skipTo (s : Lexer) (rest : List Char) : Lexer :=
  s.advance (s.cursor.rest.length - rest.length)

/-- Reads a directive. -/
def readDirective? (s : Lexer) : Option Lexer := do
  let s ← (s.closeBlocks (-1)).dropKey?
  let (token, rest) ← directive? (s.cursor.rest.drop 1)
  let rest := rest.dropWhile isGap
  if rest.head? == some '#' || atLineEnd rest then
    return { (s.emit token).skipTo rest with keyAllowed := false }
  else none

/-- Reads a document marker. -/
def readMarker? (s : Lexer) (token : Token) : Option Lexer := do
  let s ← (s.closeBlocks (-1)).dropKey?
  return { (s.emit token).advance 3 with keyAllowed := false, joint := none }

/-- Reads the start of a flow collection. -/
def openFlow? (s : Lexer) (token : Token) : Option Lexer := do
  let s ← s.markKey?
  let s := (s.emit token).advance 1
  return { s with
    key := none, outerKeys := s.key :: s.outerKeys, keyAllowed := true,
    joint := some s.cursor.index }

/-- Reads the end of a flow collection. -/
def closeFlow? (s : Lexer) (token : Token) : Option Lexer := do
  let s ← s.dropKey?
  let s := (s.emit token).advance 1
  let joint := some s.cursor.index
  match s.outerKeys with
  | [] => return { s with keyAllowed := false, joint }
  | key :: outer => return { s with key, outerKeys := outer, keyAllowed := false, joint }

/-- Reads a comma. -/
def readFlowEntry? (s : Lexer) : Option Lexer := do
  let s ← s.dropKey?
  let s := (s.emit .flowEntry).advance 1
  return { s with keyAllowed := true, joint := some s.cursor.index }

/-- Reads a dash. -/
def readBlockEntry? (s : Lexer) : Option Lexer :=
  if !s.inFlow && !s.keyAllowed then none
  else do
    let s := s.openBlock s.cursor.column s.count .blockSequenceStart s.row
    let s ← s.dropKey?
    return { (s.emit .blockEntry).advance 1 with
      keyAllowed := true, shifted := !s.inFlow || s.shifted }

/-- Reads a question mark. -/
def readKey? (s : Lexer) : Option Lexer :=
  if !s.inFlow && !s.keyAllowed then none
  else do
    let s := s.openBlock s.cursor.column s.count .blockMappingStart s.row
    let s ← s.dropKey?
    return { (s.emit .key).advance 1 with
      keyAllowed := !s.inFlow, shifted := s.inFlow && s.shifted }

/-- What follows a colon hides the rows: tabs alone, and then a letter, a digit or a dash. -/
def hidesRows (after : List Char) : Bool :=
  let gaps := after.takeWhile isGap
  after.head? == some '\t' && !gaps.contains ' ' &&
    (after.dropWhile isGap).head?.any fun c => isNameChar c

/-- Reads a colon. -/
def readValue? (s : Lexer) : Option Lexer :=
  let known := s.rowsKnown && !hidesRows (s.cursor.rest.drop 1)
  let shifted := !s.inFlow || s.shifted
  match s.key with
  | some k =>
    let row := k.place.row + 1
    let t :=
      (s.emitBehind k.number .key row).openBlock k.place.column k.number .blockMappingStart row
    some { (t.emit .value).advance 1 with
      key := none, keyAllowed := false, shifted, rowsKnown := known }
  | none =>
    if !s.inFlow && !s.keyAllowed then none
    else
      let t := s.openBlock s.cursor.column s.count .blockMappingStart s.row
      some { (t.emit .value).advance 1 with
        keyAllowed := !s.inFlow, shifted, rowsKnown := known }

/-- Reads the name of an anchor or alias. -/
def readName? (s : Lexer) (token : String → Token) : Option Lexer := do
  let s ← s.markKey?
  let (name, rest) := takeName (s.cursor.rest.drop 1)
  let ended := atSeparator rest ||
    rest.head?.any fun c => "?:,]\x7d%@".toList.contains c || c.toNat == 0x60
  if name == "" || !ended then none
  else return { (s.emit (token name)).skipTo rest with keyAllowed := false }

/-- Reads a tag. -/
def readTag? (s : Lexer) : Option Lexer := do
  let s ← s.markKey?
  let (handle, suffix, rest) ← tagParts? (s.cursor.rest.drop 1)
  if atSeparator rest || (s.inFlow && rest.head? == some ',') then
    return { (s.emit (.tag handle suffix)).skipTo rest with keyAllowed := false }
  else none

/-- Reads a block scalar. -/
def readBlockScalar? (s : Lexer) (bound : Nat) (literal : Bool) : Option Lexer := do
  let s ← s.dropKey?
  let header := (s.cursor.rest.drop 1).dropWhile fun c => c == '+' || c == '-' || c.isDigit
  let known := s.rowsKnown && header.head? != some '#'
  let (cursor, text, row) ← s.cursor.next.block? bound literal s.indent
  let s := s.emitAt (.scalar false text) ((row.getD s.cursor.row) + 1)
  return { s with cursor, keyAllowed := true, rowsKnown := known }

/-- Reads a quoted scalar. -/
def readQuoted? (s : Lexer) (bound : Nat) (single : Bool) : Option Lexer := do
  let s ← s.markKey?
  let indent := if s.shifted then s.indent + 1 else s.indent
  let (cursor, text, outdented) ← s.cursor.next.quoted? bound single indent
  return { s.emit (.scalar false text) with
    cursor, keyAllowed := false, joint := some cursor.index,
    rowsKnown := s.rowsKnown && !outdented }

/-- Reads a plain scalar. -/
def readPlain? (s : Lexer) (bound : Nat) : Option Lexer := do
  let s ← s.markKey?
  let (cursor, text, broken) ← s.cursor.plain? bound s.inFlow (s.indent + 1)
  return { s.emit (.scalar true text) with cursor, keyAllowed := broken }

/-- A plain scalar can start with this character, followed by the rest. -/
def startsPlain (flow : Bool) (c : Char) (rest : List Char) : Bool :=
  if isSeparator c then false
  else if c == '-' then !atSeparator rest
  else if c == '?' || c == ':' then !flow && !atSeparator rest
  else !("-?:,[]\x7b\x7d#&*!|>'\"%@".toList.contains c || c.toNat == 0x60)

/-- **Reads one token** at a cursor that stands on its first character. The bound is at least the
number of characters that are left. -/
def step? (s : Lexer) (bound : Nat) : Option Lexer :=
  match s.cursor.rest with
  | [] => some s
  | c :: rest =>
    let s := { s with
      rowsKnown := s.rowsKnown &&
        !(s.inFlow && 0 ≤ s.indent && (s.cursor.column : Int) ≤ s.indent) }
    if s.cursor.column == 0 && c == '%' then s.readDirective?
    else if s.cursor.atMarker then
      s.readMarker? (if c == '-' then .documentStart else .documentEnd)
    else if c == '[' then s.openFlow? .flowSequenceStart
    else if c == '\x7b' then s.openFlow? .flowMappingStart
    else if c == ']' then s.closeFlow? .flowSequenceEnd
    else if c == '\x7d' then s.closeFlow? .flowMappingEnd
    else if c == ',' then s.readFlowEntry?
    else if c == '-' && atSeparator rest then s.readBlockEntry?
    else if c == '?' && (s.inFlow || atSeparator rest) then s.readKey?
    else if c == ':' && (s.inFlow || atSeparator rest) then s.readValue?
    else if c == '*' then s.readName? .alias
    else if c == '&' then s.readName? .anchor
    else if c == '!' then s.readTag?
    else if (c == '|' || c == '>') && !s.inFlow then s.readBlockScalar? bound (c == '|')
    else if c == '\'' || c == '"' then s.readQuoted? bound (c == '\'')
    else if startsPlain s.inFlow c rest then s.readPlain? bound
    else none

/-- Closes what is open at the end of the text, which is on a line of its own. -/
def finish? (s : Lexer) : Option Lexer :=
  let c := s.cursor
  let s := if c.column == 0 then s
    else s.at' { c with column := 0, line := c.line + 1, row := c.row + 1 }
  (s.closeBlocks (-1)).dropKey?

/-- Reads tokens up to the end of the text, with a bound on their number. -/
def loop? : Nat → Lexer → Option Lexer
  | 0, _ => none
  | n + 1, s => do
    let s ← (skipBlanks n s).dropStale?
    let s := s.closeBlocks s.cursor.column
    if s.cursor.rest.isEmpty then s.finish? else loop? n (← s.step? n)

end Lexer

/-- The tokens of a document's text, and what is known of its rows. -/
structure Lexemes where
  list : List Lexeme
  /-- The row of the end of the text. -/
  endRow : Nat
  /-- The rows of the tokens are the rows of the nodes. -/
  rowsKnown : Bool

/-- **The tokens of a text.** -/
def Lexemes.ofText? (text : List Char) : Option Lexemes :=
  if text.all isAllowed then
    (Lexer.loop? (text.length + 1) (Lexer.ofText text)).map fun s =>
      ⟨s.lexemes.reverse, s.row, s.rowsKnown⟩
  else none

end Runlist.Yaml
