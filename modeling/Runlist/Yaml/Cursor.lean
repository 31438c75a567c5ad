/-!
# Positions in a document

A cursor is the rest of a document's text with the place where it starts. Five characters end
a line for the grammar; rows count only the two ends of line that editors know, so that a row is
what a reader calls a line number.

* `Cursor.next`, `Cursor.nextLine`: past one character, past one end of line.
* `Cursor.skipWhile`: past a run of characters inside a line.
-/

namespace Runlist.Yaml

/-- A place in a document: the rest of its text, and how far it is from the start. -/
structure Cursor where
  rest : List Char
  index : Nat
  line : Nat
  column : Nat
  /-- Line feeds, carriage returns and pairs of both before the place. -/
  row : Nat
deriving Inhabited

/-- The start of a text. -/
def Cursor.ofText (text : List Char) : Cursor := ⟨text, 0, 0, 0, 0⟩

/-- An end of line. -/
def isBreak (c : Char) : Bool :=
  c == '\n' || c == '\r' || c.toNat == 0x85 || c.toNat == 0x2028 || c.toNat == 0x2029

/-- A blank inside a line. -/
def isGap (c : Char) : Bool := c == ' ' || c == '\t'

/-- A blank or an end of line. -/
def isSeparator (c : Char) : Bool := isGap c || isBreak c

/-- The text starts with a separator or is at its end. -/
def atSeparator : List Char → Bool
  | [] => true
  | c :: _ => isSeparator c

/-- The text starts with an end of line or is at its end. -/
def atLineEnd : List Char → Bool
  | [] => true
  | c :: _ => isBreak c

/-- The characters that a document may hold. -/
def isAllowed (c : Char) : Bool :=
  let n := c.toNat
  n == 9 || n == 10 || n == 13 || (0x20 ≤ n && n ≤ 0x7E) || n == 0x85 ||
    (0xA0 ≤ n && n ≤ 0xD7FF) || (0xE000 ≤ n && n ≤ 0xFFFD) || 0x10000 ≤ n

namespace Cursor

/-- Past one character that ends no line. -/
def next (c : Cursor) : Cursor :=
  { c with rest := c.rest.drop 1, index := c.index + 1, column := c.column + 1 }

/-- Past `n` characters that end no line. -/
def advance (c : Cursor) (n : Nat) : Cursor :=
  { c with rest := c.rest.drop n, index := c.index + n, column := c.column + n }

/-- Past one end of line; a carriage return and a line feed count as one. -/
def nextLine (c : Cursor) : Cursor :=
  match c.rest with
  | '\r' :: '\n' :: rest => ⟨rest, c.index + 2, c.line + 1, 0, c.row + 1⟩
  | '\r' :: rest => ⟨rest, c.index + 1, c.line + 1, 0, c.row + 1⟩
  | '\n' :: rest => ⟨rest, c.index + 1, c.line + 1, 0, c.row + 1⟩
  | _ :: rest => ⟨rest, c.index + 1, c.line + 1, 0, c.row⟩
  | [] => c

/-- The text that an end of line leaves in a scalar. -/
def lineBreak (c : Cursor) : List Char :=
  match c.rest with
  | [] => []
  | b :: _ => if b.toNat == 0x2028 || b.toNat == 0x2029 then [b] else ['\n']

/-- Past the characters of a set that ends no line. -/
def skipWhile (p : Char → Bool) (c : Cursor) : Cursor := c.advance (c.rest.takeWhile p).length

/-- Past the rest of a line. -/
def skipLineRest (c : Cursor) : Cursor := c.skipWhile fun x => !isBreak x

/-- The next character. -/
def head? (c : Cursor) : Option Char := c.rest.head?

/-- At the start of a line that is a document marker. -/
def atMarker (c : Cursor) : Bool :=
  c.column == 0 &&
    match c.rest with
    | '-' :: '-' :: '-' :: rest => atSeparator rest
    | '.' :: '.' :: '.' :: rest => atSeparator rest
    | _ => false

end Cursor

end Runlist.Yaml
