import Runlist.Block.Tag

/-!
# The pieces of a template

A template is text with tags in it. A backslash in front of two braces makes them text; of
several backslashes in front of a tag one is dropped.

* `Piece.ofText?`: the pieces of a template.
* `Item.ofPieces`: texts and tags, the blanks taken away that belong to tags: those on the side
  of a tilde, and the line of a tag that stands on it alone.
-/

namespace Runlist.Block

/-- A line and a column, counted from one. -/
structure Position where
  line : Nat
  column : Nat
deriving DecidableEq, Inhabited, Repr

/-- A place in a text, and whether only blanks stand before it on its line. -/
structure Place where
  position : Position
  lineIsBlank : Bool

namespace Place

/-- The start of a text. -/
def start : Place := ⟨⟨1, 1⟩, true⟩

/-- The place after one more character. -/
def past (p : Place) (c : Char) : Place where
  position :=
    if c == '\n' then ⟨p.position.line + 1, 1⟩ else ⟨p.position.line, p.position.column + 1⟩
  lineIsBlank := c == '\n' || c == '\r' || (Text.isIndent c && p.lineIsBlank)

/-- The place after a text. -/
def pastAll (p : Place) (s : List Char) : Place := s.foldl past p

end Place

/-- What a piece of a template is. -/
inductive PieceBody where
  | text (s : List Char)
  | tag (t : TagText)
  | finish

/-- A piece of a template. -/
structure Piece where
  /-- The gap before it. -/
  gap : List Char
  body : PieceBody
  position : Position
  /-- Only blanks stand before it on its line. -/
  startsLine : Bool
  /-- Only blanks stand after it on its line. -/
  endsLine : Bool

namespace Piece

/-- Two opening braces. -/
def braces : List Char := "\x7b\x7b".toList

/-- A run of backslashes, the first of which is already taken, stands before a tag. -/
def backslashesBeforeTag (s : List Char) : Bool :=
  s.head? == some '\\' && (Text.afterPrefix? braces (s.dropWhile (· == '\\'))).isSome

/-- Reads text up to the next tag, which in a raw block has four braces. `inRun` tells that a
backslash of the run before has been dropped. -/
def takeText (raw : Bool) : Bool → List Char → List Char × List Char
  | _, [] => ([], [])
  | inRun, '\\' :: s =>
    if inRun then
      let (text, rest) := takeText raw true s
      ('\\' :: text, rest)
    else match s with
      | '\x7b' :: '\x7b' :: '\x7b' :: '\x7b' :: s =>
        let (text, rest) := takeText raw false s
        ("\x7b\x7b\x7b\x7b".toList ++ text, rest)
      | '\x7b' :: '\x7b' :: s =>
        let (text, rest) := takeText raw false s
        (braces ++ text, rest)
      | s =>
        if backslashesBeforeTag s then takeText raw true s
        else
          let (text, rest) := takeText raw false s
          ('\\' :: text, rest)
  | _, '\x7b' :: '\x7b' :: s =>
    let stops := if raw then (Text.afterPrefix? braces s).isSome else true
    if stops then ([], '\x7b' :: '\x7b' :: s)
    else
      let (text, rest) := takeText raw false ('\x7b' :: s)
      ('\x7b' :: text, rest)
  | _, c :: s =>
    let (text, rest) := takeText raw false s
    (c :: text, rest)

/-- What follows on the line is blank, or there is nothing more. -/
def blankAfter (rest : List Char) : Bool :=
  rest.isEmpty || (rest.dropWhile Text.isIndent).head?.any fun c => c == '\n' || c == '\r'

/-- A tag at a place, up to the rest of the text. -/
def ofTag (gap : List Char) (p : Place) (t : TagText) (rest : List Char) : Piece :=
  ⟨gap, .tag t, p.position, p.lineIsBlank, blankAfter rest⟩

/-- Reads the pieces of a text, with a bound on their number; a raw block gives three at once. -/
def read? : Nat → Place → List Char → Option (List Piece)
  | 0, _, _ => none
  | n + 1, p, s =>
    let gap := s.takeWhile isGap
    let p := p.pastAll gap
    let s := skipGap s
    match s with
    | [] => some [⟨gap, .finish, p.position, p.lineIsBlank, true⟩]
    | _ =>
      match Text.afterPrefix? braces s with
      | none =>
        let (text, rest) := takeText false false s
        (read? n (p.pastAll (before s rest)) rest).map fun pieces =>
          ⟨gap, .text text, p.position, p.lineIsBlank, false⟩ :: pieces
      | some inside =>
        match TagText.read? inside with
        | some (t, rest) =>
          (read? n (p.pastAll (before s rest)) rest).map fun pieces => ofTag gap p t rest :: pieces
        | none => do
          let opened ← Text.afterPrefix? braces inside
          let (first, rest) ← TagText.openRaw? opened
          let start := ofTag gap p first rest
          let p := p.pastAll (before s rest)
          let body := skipGap rest
          let p := p.pastAll (before rest body)
          let (text, rest) := takeText true false body
          let middle : Piece := ⟨[], .text text, p.position, p.lineIsBlank, false⟩
          let p := p.pastAll (before body rest)
          let closing ← Text.afterPrefix? (braces ++ braces) rest
          let (last, after) ← TagText.closeRaw? closing
          let pieces ← read? n (p.pastAll (before rest after)) after
          return start :: middle :: ofTag [] p last after :: pieces

/-- **The pieces of a template.** -/
def ofText? (s : List Char) : Option (List Piece) := read? (s.length + 1) Place.start s

end Piece

/-- A text or a tag of a template, blanks already taken away. -/
inductive Item where
  | text (s : String)
  | tag (t : Tag) (position : Position)
deriving Inhabited, Repr

/-- The state of taking blanks away. -/
structure Trim where
  /-- The last tag had a tilde at its end. -/
  afterTilde : Bool
  /-- The last tag stood on a line of its own. -/
  afterLine : Bool
  /-- Texts and tags so far, last first. -/
  items : List Item

namespace Trim

/-- A text without the end of the line on which it starts, when only blanks stand before it. -/
def dropLine (s : List Char) : List Char :=
  match s.dropWhile Text.isIndent with
  | '\r' :: '\n' :: rest => rest
  | '\n' :: rest => rest
  | rest => rest

/-- Adds a text. -/
def addText (s : Trim) (tilde : Bool) (text : List Char) : Trim :=
  let text := if tilde then Text.trimLeft text else if s.afterLine then dropLine text else text
  { s with afterLine := false, items := .text (String.ofList text) :: s.items }

/-- Takes characters away from the end of the last item, when it is a text. -/
def trimLast (s : Trim) (p : Char → Bool) : Trim :=
  match s.items with
  | .text text :: items =>
    { s with items := .text (String.ofList (Text.dropRightWhile p text.toList)) :: items }
  | _ => s

/-- Takes the blanks of a line away that a tag has for itself. -/
def standAlone (s : Trim) (piece : Piece) : Trim :=
  let s := if piece.endsLine && piece.startsLine then s.trimLast Text.isIndent else s
  { s with afterLine := piece.endsLine && piece.startsLine }

/-- A tag that takes its line away when nothing else stands on it. -/
def mayStandAlone : Tag → Bool
  | .output _ => false
  | _ => true

/-- Adds one piece. -/
def add (s : Trim) (piece : Piece) : Trim :=
  match piece.body with
  | .text text => s.addText s.afterTilde (piece.gap ++ text)
  | .finish => if piece.gap.isEmpty || s.afterTilde then s else s.addText false piece.gap
  | .tag t =>
    let s := if piece.gap.isEmpty || s.afterTilde then s else s.addText false piece.gap
    let s := if t.trimBefore then s.trimLast Text.isBlank else s
    let s := match t.tag with
      | .comment => s
      | _ => { s with afterTilde := t.trimAfter }
    let s := if mayStandAlone t.tag then s.standAlone piece else s
    { s with items := .tag t.tag piece.position :: s.items }

end Trim

/-- **Texts and tags of a template**, blanks taken away. -/
def Item.ofPieces (pieces : List Piece) : List Item :=
  (pieces.foldl Trim.add ⟨false, false, []⟩).items.reverse

end Runlist.Block
