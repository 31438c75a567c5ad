import Runlist.Block.Helper
import Runlist.Template.Templater

/-!
# The language of parameters

A parameter is text with references, branches and loops in it, and it has a meaning that does not
speak of blocks.

* `Ident`, `Dotted`: identifiers and dotted paths.
* `Json.at?`, `Json.isTrue`: the value that a path leads to, and whether it counts as true.
* `Output`, `Condition`, `Phrase`: what is put out, conditions, and parameters as trees.
* `Phrase.meaning`: **the text of a parameter over data.**
* `Mark`, `Symbol`, `Phrase.symbols`: a parameter as a sequence of characters and marks.
* `Mark.source`, `Phrase.source`: how a parameter is written.
-/

namespace Runlist

/-! ## Names and values -/

/-- ASCII letters, digits and the underscore. -/
def isNameChar (c : Char) : Bool := c.isAlphanum || c == '_'

/-- The text is an identifier: it does not start with a digit. -/
def isIdent : List Char → Bool
  | [] => false
  | c :: s => !c.isDigit && (c :: s).all isNameChar

/-- An identifier. -/
@[ext]
structure Ident where
  text : List Char
  valid : isIdent text
deriving DecidableEq

/-- A dotted path. -/
structure Dotted where
  first : Ident
  rest : List Ident
deriving DecidableEq

/-- The word for the current value. -/
def itself : Ident := ⟨"this".toList, by decide⟩

namespace Dotted

/-- A path as it is written. -/
def text (p : Dotted) : List Char := p.first.text ++ p.rest.flatMap fun name => '.' :: name.text

/-- The names of a path. -/
def names (p : Dotted) : List Ident := p.first :: p.rest

/-- The keys that a path follows. -/
def keys (p : Dotted) : List String := p.names.map fun name => String.ofList name.text

end Dotted

namespace Json

/-- The value at the end of a list of keys, through mappings. -/
def at? : Json → List String → Option Json
  | value, [] => some value
  | .object entries, key :: keys => (Fields.get? entries key).bind fun value => value.at? keys
  | _, _ :: _ => none

/-- The list of keys asks no list for a key. -/
def keepsOut : Json → List String → Bool
  | _, [] => true
  | .object entries, key :: keys =>
    ((Fields.get? entries key).map fun value => value.keepsOut keys).getD true
  | .array _, _ :: _ => false
  | _, _ :: _ => true

end Json

/-- The number is zero. -/
def Number.isZero : Number → Bool
  | .int i => i == 0
  | .float x => x.isZero

namespace Json

/-- What counts as true: true itself, numbers other than zero, and what is not empty. -/
def isTrue : Json → Bool
  | .null => false
  | .bool b => b
  | .number n => !n.isZero
  | .string s => s != ""
  | .array items => !items.isEmpty
  | .object entries => !entries.isEmpty

/-- The items of a list, none of anything else. -/
def loopItems : Option Json → List Json
  | some (.array items) => items
  | _ => []

/-- The value is missing, null or the empty string. -/
def isAbsent : Option Json → Bool
  | none => true
  | some .null => true
  | some (.string s) => s == ""
  | some _ => false

/-- The text of a value that is put out, empty when it is missing. -/
def outputText (value : Option Json) : String := (value.map printed).getD ""

/-- The text of a value that is compared, empty when it is missing. -/
def comparedText (value : Option Json) : String := (value.map Block.Helper.asText).getD ""

end Json

namespace Template

/-! ## Parameters -/

/-- The quote of a text: a double one or a single one. -/
def quote (double : Bool) : Char := if double then '"' else '\''

/-- A text between quotes. -/
def quoted (double : Bool) (literal : List Char) : List Char :=
  quote double :: (literal ++ [quote double])

/-- A path compared with a text. -/
def comparison (path : Dotted) (equal double : Bool) (literal : List Char) : List Char :=
  path.text ++ (if equal then " == " else " != ").toList ++ quoted double literal

/-- The value of a path equals a text, or it does not. -/
def agrees (data : Json) (path : Dotted) (equal : Bool) (literal : List Char) : Bool :=
  (Json.comparedText (data.at? path.keys) == String.ofList literal) == equal

/-- What is put out: a value, with a text in its place where it is absent, or how it compares with a
text. -/
inductive Output where
  | value (path : Dotted)
  | fallback (path : Dotted) (double : Bool) (literal : List Char)
  | compares (path : Dotted) (equal double : Bool) (literal : List Char)
deriving DecidableEq

namespace Output

/-- **The text of what is put out**, over data. -/
def meaning (data : Json) : Output → String
  | value path => Json.outputText (data.at? path.keys)
  | fallback path _ literal =>
    if Json.isAbsent (data.at? path.keys) then String.ofList literal
      else Json.comparedText (data.at? path.keys)
  | compares path equal _ literal => if agrees data path equal literal then "true" else "false"

/-- The path of what is put out. -/
def path : Output → Dotted
  | value path => path
  | fallback path _ _ => path
  | compares path _ _ _ => path

/-- What is put out, as it is written. -/
def text : Output → List Char
  | value path => path.text
  | fallback path double literal =>
    path.text ++ " | default(".toList ++ quoted double literal ++ [')']
  | compares path equal double literal => comparison path equal double literal

end Output

/-- Whether a path holds, or how it compares with a text. -/
inductive Condition where
  | holds (path : Dotted)
  | compares (path : Dotted) (equal double : Bool) (literal : List Char)
deriving DecidableEq

namespace Condition

/-- **The condition holds over data.** -/
def isTrue (data : Json) : Condition → Bool
  | holds path => (data.at? path.keys).any Json.isTrue
  | compares path equal _ literal => agrees data path equal literal

/-- The path of a condition. -/
def path : Condition → Dotted
  | holds path => path
  | compares path _ _ _ => path

/-- A condition as it is written; a text has double quotes or single ones. -/
def text : Condition → List Char
  | holds path => path.text
  | compares path equal double literal => comparison path equal double literal

end Condition

/-- What a loop repeats: text, and between it the item or what stands in it under a path. -/
structure Round where
  parts : List (List Char × List Ident)
  last : List Char
deriving DecidableEq

/-- **The text of one round of a loop.** -/
def Round.meaning (round : Round) (item : Json) : String :=
  round.parts.foldr (fun (text, fields) others =>
    String.ofList text ++
      Json.outputText (item.at? (fields.map fun name => String.ofList name.text)) ++ others)
    (String.ofList round.last)

mutual
/-- A parameter: text in front of what is put out, of a branching or a loop, and what follows. -/
inductive Phrase where
  | done (text : List Char)
  | output (text : List Char) (out : Output) (rest : Phrase)
  | branch (text : List Char) (condition : Condition) (body : Phrase) (others : Branches)
      (rest : Phrase)
  | loop (text : List Char) (item : Ident) (list : Dotted) (round : Round) (rest : Phrase)

/-- The further branches of a branching. -/
inductive Branches where
  | stop
  | otherwise (body : Phrase)
  | also (condition : Condition) (body : Phrase) (others : Branches)
end

mutual
/-- **The text of a parameter over data**: in each branching the first branch whose condition holds,
in each loop a round for every item. -/
def Phrase.meaning (data : Json) : Phrase → String
  | .done text => String.ofList text
  | .output text out rest => String.ofList text ++ out.meaning data ++ rest.meaning data
  | .branch text condition body others rest =>
    String.ofList text ++
      (if condition.isTrue data then body.meaning data else others.meaning data) ++
        rest.meaning data
  | .loop text _ list round rest =>
    String.ofList text ++ ((Json.loopItems (data.at? list.keys)).map round.meaning).foldr
      (· ++ ·) "" ++ rest.meaning data

/-- The text of the first branch whose condition holds. -/
def Branches.meaning (data : Json) : Branches → String
  | .stop => ""
  | .otherwise body => body.meaning data
  | .also condition body others =>
    if condition.isTrue data then body.meaning data else others.meaning data
end

/-! ## How parameters are written -/

/-- What stands between the text of a parameter. -/
inductive Mark where
  | output (out : Output)
  /-- A loop's variable, with the path behind it. -/
  | item (name : Ident) (fields : List Ident)
  | branch (condition : Condition)
  | elif (condition : Condition)
  | otherwise
  | endBranch
  | loop (name : Ident) (list : Dotted)
  | endLoop
deriving DecidableEq

/-- A character or a mark. -/
inductive Symbol where
  | char (c : Char)
  | mark (m : Mark)
deriving DecidableEq

/-- A text as symbols. -/
def chars (text : List Char) : List Symbol := text.map .char

/-- The symbols of a round of a loop. -/
def Round.symbols (item : Ident) (round : Round) : List Symbol :=
  round.parts.foldr (fun (text, fields) others => chars text ++ .mark (.item item fields) :: others)
    (chars round.last)

mutual
/-- **The symbols of a parameter.** -/
def Phrase.symbols : Phrase → List Symbol
  | .done text => chars text
  | .output text out rest => chars text ++ .mark (.output out) :: rest.symbols
  | .branch text condition body others rest =>
    chars text ++ .mark (.branch condition) ::
      (body.symbols ++ (others.symbols ++ .mark .endBranch :: rest.symbols))
  | .loop text item list round rest =>
    chars text ++ .mark (.loop item list) :: (round.symbols item ++ .mark .endLoop :: rest.symbols)

/-- The symbols of further branches. -/
def Branches.symbols : Branches → List Symbol
  | .stop => []
  | .otherwise body => .mark .otherwise :: body.symbols
  | .also condition body others => .mark (.elif condition) :: (body.symbols ++ others.symbols)
end

/-- What stands between the percent signs of a statement. -/
def Mark.inside : Mark → List Char
  | .branch condition => ' ' :: "if".toList ++ ' ' :: condition.text ++ [' ']
  | .elif condition => ' ' :: "elif".toList ++ ' ' :: condition.text ++ [' ']
  | .otherwise => ' ' :: "else".toList ++ [' ']
  | .endBranch => ' ' :: "endif".toList ++ [' ']
  | .loop name list =>
    ' ' :: "for".toList ++ ' ' :: name.text ++ ' ' :: "in".toList ++ ' ' :: list.text ++ [' ']
  | .endLoop => ' ' :: "endfor".toList ++ [' ']
  | _ => []

/-- **A mark as it is written in a parameter.** -/
def Mark.source : Mark → List Char
  | .output out => openBraces ++ ' ' :: out.text ++ ' ' :: closeBraces
  | .item name fields => openBraces ++ ' ' :: (Dotted.mk name fields).text ++ ' ' :: closeBraces
  | mark => opening ++ mark.inside ++ closing

/-- Symbols written one after the other, by a way to write marks. -/
def write (spell : Mark → List Char) : List Symbol → List Char
  | [] => []
  | .char c :: symbols => c :: write spell symbols
  | .mark m :: symbols => spell m ++ write spell symbols

/-- **A parameter as it is written.** -/
def Phrase.source (phrase : Phrase) : String := String.ofList (write Mark.source phrase.symbols)

end Template

end Runlist
