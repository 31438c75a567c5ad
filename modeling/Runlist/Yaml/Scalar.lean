import Runlist.Yaml.Cursor
import Runlist.Json.Reader

/-!
# Scalars in the text of a document

Plain, quoted and block scalars. Line ends inside a scalar are folded: a single one becomes a
blank, further ones stay. Every function takes a bound on its steps; the number of characters
that are left is always enough.

* `Cursor.plain?`: a plain scalar.
* `Cursor.quoted?`: a quoted scalar, after its opening quote.
* `Cursor.block?`: a block scalar, after its indicator.
-/

namespace Runlist.Yaml

/-- Blanks and line ends between the words of a scalar. -/
structure Fold where
  /-- Blanks before the first line end, last first. -/
  blanks : List Char
  /-- A line end has been met. -/
  broken : Bool
  /-- What the first line end leaves. -/
  first : List Char
  /-- What further line ends leave. -/
  more : List Char

/-- Nothing between two words. -/
def Fold.empty : Fold := ⟨[], false, [], []⟩

/-- The text that stands for the blanks and line ends. -/
def Fold.text (f : Fold) : List Char :=
  if f.broken then
    if f.first.head? == some '\n' then (if f.more.isEmpty then [' '] else f.more)
    else f.first ++ f.more
  else f.blanks.reverse

namespace Cursor

/-- Reads blanks and line ends. With a limit, a tab that stands left of it at the start of a line
is refused. -/
def fold? (limit : Option Int) : Nat → Cursor → Fold → Option (Cursor × Fold)
  | 0, c, f => some (c, f)
  | n + 1, c, f =>
    match c.rest with
    | [] => some (c, f)
    | x :: _ =>
      if isGap x then
        if f.broken then
          if x == '\t' && limit.any (fun limit => (c.column : Int) < limit) then none
          else fold? limit n c.next f
        else fold? limit n c.next { f with blanks := x :: f.blanks }
      else if isBreak x then
        if f.broken then fold? limit n c.nextLine { f with more := f.more ++ c.lineBreak }
        else fold? limit n c.nextLine { f with broken := true, blanks := [], first := c.lineBreak }
      else some (c, f)

/-- Characters that separate the parts of a flow collection. -/
def isFlowIndicator (c : Char) : Bool :=
  c == ',' || c == '[' || c == ']' || c == '\x7b' || c == '\x7d'

/-- Reads the next word of a plain scalar, last character first. In a flow collection a colon
before an indicator is refused. -/
def plainWord? (flow : Bool) : Nat → Cursor → List Char → Option (Cursor × List Char)
  | 0, c, acc => some (c, acc)
  | n + 1, c, acc =>
    match c.rest with
    | [] => some (c, acc)
    | x :: rest =>
      if isSeparator x then some (c, acc)
      else if flow && x == ':' &&
          rest.head?.any (fun y => y != ' ' && (y == '?' || isFlowIndicator y)) then none
      else if (x == ':' && atSeparator rest) || (flow && isFlowIndicator x) then some (c, acc)
      else plainWord? flow n c.next (x :: acc)

/-- Reads the words of a plain scalar. Answers the place after the last word and its blanks, the
text, last character first, and whether a line end came after the last word. -/
def plainLoop? (flow : Bool) (indent : Int) :
    Nat → Cursor → List Char → Fold → Option (Cursor × List Char × Bool)
  | 0, c, acc, f => some (c, acc, f.broken)
  | n + 1, c, acc, f =>
    if c.atMarker || c.head? == some '#' then some (c, acc, f.broken)
    else
      match plainWord? flow n c [] with
      | none => none
      | some (_, []) => some (c, acc, f.broken)
      | some (after, word) =>
        let acc := word ++ f.text.reverse ++ acc
        match fold? (some indent) n after Fold.empty with
        | none => none
        | some (next, f) =>
          if next.index == after.index then some (next, acc, false)
          else if !flow && (next.column : Int) < indent then some (next, acc, f.broken)
          else plainLoop? flow indent n next acc f

/-- **Reads a plain scalar.** In a block it ends with the first line that is indented less than
`indent`. -/
def plain? (c : Cursor) (bound : Nat) (flow : Bool) (indent : Int) :
    Option (Cursor × String × Bool) :=
  (plainLoop? flow indent (bound + 1) c [] Fold.empty).map fun (c, acc, broken) =>
    (c, String.ofList acc.reverse, broken)

/-- The character that a letter after a backslash stands for. -/
def simpleEscape? (c : Char) : Option Char :=
  match c with
  | '0' => some (Char.ofNat 0)
  | 'a' => some (Char.ofNat 7)
  | 'b' => some (Char.ofNat 8)
  | 't' => some '\t'
  | '\t' => some '\t'
  | 'n' => some '\n'
  | 'v' => some (Char.ofNat 11)
  | 'f' => some (Char.ofNat 12)
  | 'r' => some '\r'
  | 'e' => some (Char.ofNat 27)
  | ' ' => some ' '
  | '"' => some '"'
  | '/' => some '/'
  | '\\' => some '\\'
  | 'N' => some (Char.ofNat 0x85)
  | '_' => some (Char.ofNat 0xA0)
  | 'L' => some (Char.ofNat 0x2028)
  | 'P' => some (Char.ofNat 0x2029)
  | _ => none

/-- The number of hexadecimal digits after an escape letter. -/
def hexLength? (c : Char) : Option Nat :=
  match c with
  | 'x' => some 2
  | 'u' => some 4
  | 'U' => some 8
  | _ => none

/-- The number that hexadecimal digits denote. -/
def hexNumber? (digits : List Char) : Option Nat :=
  digits.foldlM (fun n c => (Json.hexValue? c).map fun d => n * 16 + d) 0

/-- Reads the next word of a quoted scalar, last character first. The last answer tells that the
word ended with an escaped line end. -/
def quotedWord? (single : Bool) : Nat → Cursor → List Char → Option (Cursor × List Char × Bool)
  | 0, c, acc => some (c, acc, false)
  | n + 1, c, acc =>
    match c.rest with
    | [] => some (c, acc, false)
    | x :: rest =>
      if isSeparator x then some (c, acc, false)
      else if single then
        if x == '\'' then
          if rest.head? == some '\'' then quotedWord? single n (c.advance 2) ('\'' :: acc)
          else some (c, acc, false)
        else quotedWord? single n c.next (x :: acc)
      else if x == '"' then some (c, acc, false)
      else if x == '\\' then
        match rest with
        | [] => none
        | e :: digits =>
          if isBreak e then some (c.next.nextLine, acc, true)
          else match simpleEscape? e with
            | some y => quotedWord? single n (c.advance 2) (y :: acc)
            | none =>
              match hexLength? e with
              | none => none
              | some k =>
                if digits.length < k then none
                else match hexNumber? (digits.take k) with
                  | none => none
                  | some v =>
                    if (0xD800 ≤ v && v ≤ 0xDFFF) || 0x10FFFF < v then none
                    else quotedWord? single n (c.advance (2 + k)) (Char.ofNat v :: acc)
      else quotedWord? single n c.next (x :: acc)

/-- Reads a quoted scalar up to its closing quote. Answers the place after it, the text, last
character first, and whether a line of it starts left of `indent`. -/
def quotedLoop? (single : Bool) (indent : Int) :
    Nat → Cursor → List Char → Bool → Option (Cursor × List Char × Bool)
  | 0, _, _, _ => none
  | n + 1, c, acc, outdented =>
    if c.atMarker || c.rest.isEmpty then none
    else
      let outdented := outdented || (c.column : Int) < indent
      match quotedWord? single n c [] with
      | none => none
      | some (c, word, escaped) =>
        let acc := word ++ acc
        if !escaped && c.head? == some (if single then '\'' else '"') then
          some (c.next, acc, outdented)
        else
          match fold? none n c { Fold.empty with broken := escaped } with
          | none => none
          | some (c, f) => quotedLoop? single indent n c (f.text.reverse ++ acc) outdented

/-- **Reads a quoted scalar** after its opening quote. -/
def quoted? (c : Cursor) (bound : Nat) (single : Bool) (indent : Int) :
    Option (Cursor × String × Bool) :=
  (quotedLoop? single indent (bound + 1) c [] false).map fun (c, acc, outdented) =>
    (c, String.ofList acc.reverse, outdented)

/-- What to do with the line ends after a block scalar's last line. -/
inductive Chomping where
  | clip
  | strip
  | keep
deriving DecidableEq

/-- The chomping and indentation indicators after `|` or `>`; an indentation of zero is
refused. -/
def blockHeader? (c : Cursor) : Option (Cursor × Chomping × Nat) :=
  let sign : Char → Option Chomping := fun x =>
    if x == '+' then some .keep else if x == '-' then some .strip else none
  let digit : Char → Option Nat := fun x => if x.isDigit then some (Json.digitValue x) else none
  match c.rest with
  | [] => some (c, .clip, 0)
  | x :: rest =>
    match sign x, digit x with
    | some chomping, _ =>
      match rest.head?.bind digit with
      | some 0 => none
      | some k => some (c.advance 2, chomping, k)
      | none => some (c.next, chomping, 0)
    | none, some 0 => none
    | none, some k =>
      match rest.head?.bind sign with
      | some chomping => some (c.advance 2, chomping, k)
      | none => some (c.next, .clip, k)
    | none, none => some (c, .clip, 0)

/-- Skips indentation and empty lines. An indentation of zero is not known yet: then the widest
one met is answered too. A tab in the place of indentation is refused. -/
def blockBreaks? (indent : Nat) : Nat → Cursor → Nat → List Char → Option (Cursor × Nat × List Char)
  | 0, c, widest, acc => some (c, widest, acc)
  | n + 1, c, widest, acc =>
    let spaces := (c.rest.takeWhile (· == ' ')).length
    let c := c.advance (if indent = 0 then spaces else min spaces (indent - c.column))
    let widest := max widest c.column
    match c.rest with
    | [] => some (c, widest, acc)
    | x :: _ =>
      if (indent = 0 || c.column < indent) && x == '\t' then none
      else if isBreak x then blockBreaks? indent n c.nextLine widest (acc ++ c.lineBreak)
      else some (c, widest, acc)

/-- Reads the lines of a block scalar. `pending` is the last line end, `breaks` are the ones after
it, and `indented` tells that the last line starts with a blank. -/
def blockLines? (literal : Bool) (indent : Nat) :
    Nat → Cursor → List Char → List Char → List Char → Bool →
      Option (Cursor × List Char × List Char × List Char)
  | 0, c, acc, pending, breaks, _ => some (c, acc, pending, breaks)
  | n + 1, c, acc, pending, breaks, indented =>
    if c.column == indent && !c.rest.isEmpty then
      let blank := c.rest.head?.any isGap
      let joint :=
        if !literal && pending.head? == some '\n' && !indented && !blank then
          if breaks.isEmpty then [' '] else []
        else pending
      let line := c.rest.takeWhile fun x => !isBreak x
      let acc := line.reverse ++ (joint ++ breaks).reverse ++ acc
      let c := c.advance line.length
      let pending := c.lineBreak
      let c := c.nextLine
      match blockBreaks? indent n c 0 [] with
      | none => none
      | some (c, _, breaks) => blockLines? literal indent n c acc pending breaks blank
    else some (c, acc, pending, breaks)

/-- **Reads a block scalar** after its indicator. Answers the place after it, the text, and the
row of its first line, if it has one. -/
def block? (c : Cursor) (bound : Nat) (literal : Bool) (parent : Int) :
    Option (Cursor × String × Option Nat) := do
  let (c, chomping, increment) ← blockHeader? c
  let c := c.skipWhile isGap
  let c := if c.head? == some '#' then c.skipLineRest else c
  if !atLineEnd c.rest then none
  else
    let c := if c.rest.isEmpty then c else c.nextLine
    let known : Nat :=
      if increment = 0 then 0
      else if 0 ≤ parent then parent.toNat + increment else increment
    let (c, widest, breaks) ← blockBreaks? known (bound + 1) c 0 []
    let indent := if known = 0 then max (max widest (parent + 1).toNat) 1 else known
    let row := if c.rest.isEmpty then none else some c.row
    let (c, acc, pending, breaks) ←
      blockLines? literal indent (bound + 1) c [] [] breaks false
    let tail := match chomping with
      | .strip => []
      | .clip => pending
      | .keep => pending ++ breaks
    return (c, String.ofList (acc.reverse ++ tail), row)

end Cursor

end Runlist.Yaml
