import Runlist.Template.Error
import Runlist.Text.Blank
import Runlist.Text.Word

/-!
# Statements in parameters

A parameter can hold statements between `{%` and `%}`, each starting with a keyword. They are
checked before anything is replaced.

* `Template.keywords`: the keywords of the statements of a text.
* `Template.validate`: delimiters and statements are balanced, and every statement is supported.
-/

namespace Runlist.Template

/-- The start of a statement. -/
def opening : List Char := "\x7b%".toList

/-- The end of a statement. -/
def closing : List Char := "%\x7d".toList

/-- The start of a reference. -/
def openBraces : List Char := "\x7b\x7b".toList

/-- The end of a reference. -/
def closeBraces : List Char := "\x7d\x7d".toList

/-- Past one dash, if there is one. -/
def skipDash : List Char → List Char
  | '-' :: s => s
  | s => s

/-- Past the start of a statement, a dash and blanks. -/
def afterOpening? (s : List Char) : Option (List Char) :=
  (Text.afterPrefix? opening s).map fun rest => Text.trimLeft (skipDash rest)

/-- Past blanks, a dash and the end of a statement. -/
def afterClosing? (s : List Char) : Option (List Char) :=
  Text.afterPrefix? closing (skipDash (Text.trimLeft s))

/-- The word at the start of a text, and the rest. -/
def word? (s : List Char) : Option (List Char × List Char) :=
  match s.takeWhile Text.isWord with
  | [] => none
  | word => some (word, s.dropWhile Text.isWord)

/-- The statement at the start of a text: its keyword, and the text after its end. No percent
sign stands inside. -/
def statement? (s : List Char) : Option (List Char × List Char) := do
  let inside ← afterOpening? s
  let (keyword, rest) ← word? inside
  let rest ← Text.afterPrefix? closing (rest.dropWhile (· != '%'))
  return (keyword, rest)

/-- What is found at each place of a text from left to right, each find passing over what it
takes. -/
def findAll {α : Type} (find? : List Char → Option (α × List Char)) (s : List Char) : List α :=
  go 0 s
where
  /-- Passes over the characters that the last find has taken. -/
  go : Nat → List Char → List α
    | _, [] => []
    | skip + 1, _ :: s => go skip s
    | 0, c :: s =>
      match find? (c :: s) with
      | some (found, rest) => found :: go (s.length - rest.length) s
      | none => go 0 s

/-- The keywords of the statements of a text. -/
def keywords (s : List Char) : List String :=
  (findAll statement? s).map String.ofList

/-- The statements that blocks cannot express. -/
def unsupported? (keyword : String) : Option UnsupportedStatement :=
  match keyword with
  | "set" => some .assignment
  | "include" => some .inclusion
  | "import" => some .importing
  | "extends" => some .inheritance
  | "block" => some .block
  | "macro" => some .definition
  | "raw" => some .verbatim
  | "filter" => some .filter
  | _ => none

/-- The numbers of open conditions and loops. -/
structure Depth where
  ifs : Nat
  fors : Nat
deriving DecidableEq, Repr

/-- The depth after one more statement. -/
def Depth.after (d : Depth) (keyword : String) : Except TemplateError Depth :=
  match unsupported? keyword with
  | some statement => .error (.unsupported statement)
  | none =>
    match keyword with
    | "if" => .ok { d with ifs := d.ifs + 1 }
    | "elif" => if d.ifs = 0 then .error (.unbalanced .elifWithoutIf) else .ok d
    | "endif" =>
      if d.ifs = 0 then .error (.unbalanced .unmatchedEndif) else .ok { d with ifs := d.ifs - 1 }
    | "for" => .ok { d with fors := d.fors + 1 }
    | "endfor" =>
      if d.fors = 0 then .error (.unbalanced .unmatchedEndfor)
      else .ok { d with fors := d.fors - 1 }
    | _ => .ok d

/-- Opening and closing delimiters are equally many. -/
def checkDelimiters (delimiter : Delimiter) (opening closing s : List Char) :
    Except TemplateError Unit :=
  let opened := Text.countOccurrences opening s
  let closed := Text.countOccurrences closing s
  if opened = closed then .ok () else .error (.unclosed delimiter opened closed)

/-- **Delimiters and statements are balanced**, and every statement is supported. -/
def validate (s : List Char) : Except TemplateError Unit := do
  checkDelimiters .reference openBraces closeBraces s
  checkDelimiters .statement opening closing s
  let depth ← (keywords s).foldlM Depth.after ⟨0, 0⟩
  if depth.ifs ≠ 0 then throw (.unbalanced (.openIf depth.ifs))
  if depth.fors ≠ 0 then throw (.unbalanced (.openFor depth.fors))

end Runlist.Template
