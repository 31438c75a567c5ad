import Runlist.Template.Statement

/-!
# Statements and filters as blocks

Each rule replaces one form wherever it stands, and the rules are applied one after the other:
fallbacks, conditions, loops, comparisons. Inside a loop the item is the current value, so the
loop's variable is taken away from the references.

* `Template.replaceAll`: a rule applied from left to right.
* `Template.convert`: all rules, after the check.
-/

namespace Runlist.Template

/-- A rule: what replaces the start of a text, and the rest. -/
abbrev Rule := List Char → Option (List Char × List Char)

/-- **A rule applied from left to right**; what it has written is not looked at again. -/
def replaceAll (rule : Rule) (s : List Char) : List Char := go 0 s
where
  /-- Passes over the characters that the rule has taken. -/
  go : Nat → List Char → List Char
    | _, [] => []
    | skip + 1, _ :: s => go skip s
    | 0, c :: s =>
      match rule (c :: s) with
      | some (text, rest) => text ++ go (s.length - rest.length) s
      | none => c :: go 0 s

/-- A character of a dotted path. -/
def isPathChar (c : Char) : Bool := Text.isWord c || c == '.'

/-- The dotted path at the start of a text, and the rest. -/
def path? (s : List Char) : Option (List Char × List Char) :=
  match s.takeWhile isPathChar with
  | [] => none
  | path => some (path, s.dropWhile isPathChar)

/-- The text between two equal quotes, and the rest. -/
def quotedText? (s : List Char) : Option (List Char × List Char) :=
  match s with
  | [] => none
  | quote :: s =>
    if quote == '\'' || quote == '"' then
      match s.dropWhile (· != quote) with
      | _ :: rest => some (s.takeWhile (· != quote), rest)
      | [] => none
    else none

/-- Past a text after blanks. -/
def afterBlanks? (word s : List Char) : Option (List Char) :=
  Text.afterPrefix? word (Text.trimLeft s)

/-- Past at least one blank. -/
def afterBlank? (s : List Char) : Option (List Char) :=
  if s.head?.any Text.isBlank then some (Text.trimLeft s) else none

/-- A reference: what stands between double braces and blanks. -/
def reference (inside : List Char) : List Char := openBraces ++ inside ++ closeBraces

/-- A text between single quotes. -/
def singleQuoted (s : List Char) : List Char := '\'' :: s ++ ['\'']

/-- The path and the rest after the parenthesis of a fallback. -/
def fallbackStart? (s : List Char) : Option (List Char × List Char) := do
  let s ← Text.afterPrefix? openBraces s
  let (path, s) ← path? (Text.trimLeft s)
  let s ← afterBlanks? ['|'] s
  let s ← afterBlanks? "default(".toList s
  return (path, Text.trimLeft s)

/-- The rest after the parenthesis and the braces that end a fallback. -/
def fallbackEnd? (s : List Char) : Option (List Char) := do
  afterBlanks? closeBraces (← afterBlanks? [')'] s)

/-- A call of the helper for fallbacks. -/
def fallbackCall (path value : List Char) : List Char :=
  reference ("default ".toList ++ path ++ [' '] ++ value)

/-- A fallback that is a quoted text. -/
def quotedFallback : Rule := fun s => do
  let (path, s) ← fallbackStart? s
  let (text, s) ← quotedText? s
  let rest ← fallbackEnd? s
  return (fallbackCall path (singleQuoted text), rest)

/-- A fallback without quotes. -/
def plainFallback : Rule := fun s => do
  let (path, s) ← fallbackStart? s
  let value := s.takeWhile fun c => c != ')' && c != '\'' && c != '"'
  let rest ← fallbackEnd? (s.drop value.length)
  return (fallbackCall path (Text.trimRight value), rest)

/-- A path compared with a quoted text: the helper's call, and the rest. -/
def comparison? (s : List Char) : Option (List Char × List Char) := do
  let (path, s) ← path? s
  let s := Text.trimLeft s
  let (helper, s) ← match Text.afterPrefix? "==".toList s, Text.afterPrefix? "!=".toList s with
    | some s, _ => some ("eq ", s)
    | none, some s => some ("ne ", s)
    | none, none => none
  let (text, s) ← quotedText? (Text.trimLeft s)
  return (helper.toList ++ path ++ [' '] ++ singleQuoted text, s)

/-- Past a keyword at the start of a statement. -/
def afterKeyword? (keyword : String) (s : List Char) : Option (List Char) := do
  Text.afterPrefix? keyword.toList (← afterOpening? s)

/-- A condition that compares. -/
def comparedIf : Rule := fun s => do
  let s ← afterBlank? (← afterKeyword? "if" s)
  let (call, s) ← comparison? s
  let rest ← afterClosing? s
  return (reference ("#if (".toList ++ call ++ [')']), rest)

/-- The shortest text on one line before the end of the statement, and the rest. -/
def condition? : List Char → Option (List Char × List Char)
  | [] => none
  | c :: s =>
    if c == '\n' then none
    else match afterClosing? s with
      | some rest => some ([c], rest)
      | none => (condition? s).map fun (text, rest) => (c :: text, rest)

/-- The condition after a number of blanks, the largest number that leaves one. -/
def blanksThenCondition? (s : List Char) : Nat → Option (List Char × List Char)
  | 0 => none
  | n + 1 => (condition? (s.drop (n + 1))).or (blanksThenCondition? s n)

/-- A statement with a condition. -/
def conditional (keyword : String) (tag : String) : Rule := fun s => do
  let s ← afterKeyword? keyword s
  let (condition, rest) ← blanksThenCondition? s (s.takeWhile Text.isBlank).length
  return (reference (tag.toList ++ condition), rest)

/-- A statement that is only a keyword. -/
def bare (keyword : String) (tag : String) : Rule := fun s => do
  let rest ← afterClosing? (← afterKeyword? keyword s)
  return (reference tag.toList, rest)

/-- The start of a loop: its variable, its list, and the rest. -/
def loop? (s : List Char) : Option ((List Char × List Char) × List Char) := do
  let s ← afterBlank? (← afterKeyword? "for" s)
  let (item, s) ← word? s
  let s ← Text.afterPrefix? "in".toList (← afterBlank? s)
  let (path, s) ← path? (← afterBlank? s)
  let rest ← afterClosing? s
  return ((item, path), rest)

/-- The start of a loop. -/
def loopStart : Rule := fun s =>
  (loop? s).map fun ((_, path), rest) => (reference ("#each ".toList ++ path), rest)

/-- Past double braces, blanks and a variable's name. -/
def afterVariable? (name s : List Char) : Option (List Char) := do
  afterBlanks? name (← Text.afterPrefix? openBraces s)

/-- A property of a loop's variable. -/
def loopProperty (name : List Char) : Rule := fun s => do
  let s ← Text.afterPrefix? ['.'] (← afterVariable? name s)
  let (path, s) ← path? s
  let rest ← afterBlanks? closeBraces s
  return (reference path, rest)

/-- A loop's variable by itself. -/
def loopItem (name : List Char) : Rule := fun s => do
  let rest ← afterBlanks? closeBraces (← afterVariable? name s)
  return (reference "this".toList, rest)

/-- A comparison that is put out. -/
def comparedOutput : Rule := fun s => do
  let s ← Text.afterPrefix? openBraces s
  let (call, s) ← comparison? (Text.trimLeft s)
  let rest ← afterBlanks? closeBraces s
  return (reference call, rest)

/-- The rules for fallbacks and conditions, in order. -/
def conditionRules : List Rule :=
  [quotedFallback, plainFallback, comparedIf, conditional "if" "#if ",
    conditional "elif" "else if ",
    bare "else" "else", bare "endif" "/if"]

/-- The rules for loops over the given variables, in order. -/
def loopRules (items : List (List Char)) : List Rule :=
  [loopStart, bare "endfor" "/each"] ++
    items.flatMap fun name => [loopProperty name, loopItem name]

/-- Rules applied one after the other. -/
def applyRules (rules : List Rule) (s : List Char) : List Char :=
  rules.foldl (fun s rule => replaceAll rule s) s

/-- **The block template of a parameter**, after the check. -/
def convert (text : String) : Except TemplateError String := do
  validate text.toList
  let s := applyRules conditionRules text.toList
  let items := (findAll loop? s).map (·.1)
  let s := applyRules (loopRules items) s
  return String.ofList (replaceAll comparedOutput s)

end Runlist.Template
