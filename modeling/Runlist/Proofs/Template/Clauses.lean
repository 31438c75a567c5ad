import Runlist.Proofs.Template.Scan

/-!
# Clauses of parameters and of block templates

Branches and loops are made of clauses. In a parameter a clause is a statement, in a block template
it is a tag. What stands in a text is seen by going through it place by place.

* `Clause`: the parts of branches and loops.
* `clauseOf?`: the clause that a statement is, by what stands between its percent signs.
* `Sight`, `sights`: what is seen at the places of a text: statements, tags of clauses and other
  block tags.
* `statements`, `blockTags`: the clauses of a text, as statements and as tags.
* `Nested`: clauses are properly nested.
-/

namespace Runlist.Template

/-- A part of a branching or of a loop. -/
inductive Clause where
  | branch
  | elif
  | otherwise
  | endBranch
  | loop
  | endLoop
deriving DecidableEq, Repr

namespace Clause

/-- All clauses. -/
def all : List Clause := [branch, elif, otherwise, endBranch, loop, endLoop]

/-- How the tag of a clause starts behind its braces. A clause with a condition or a list has a
blank there, any other one has the closing braces. -/
def tagStart : Clause → List Char
  | branch => "#if ".toList
  | elif => "else if ".toList
  | otherwise => "else\x7d\x7d".toList
  | endBranch => "/if\x7d\x7d".toList
  | loop => "#each ".toList
  | endLoop => "/each\x7d\x7d".toList

end Clause

/-! ## Statements -/

/-- A character that may stand inside a statement: neither a brace nor a percent sign. -/
def isInside (c : Char) : Bool := c != '\x7b' && c != '\x7d' && c != '%'

/-- What stands inside a statement, behind a dash and blanks. -/
def unframed (inside : List Char) : List Char := Text.trimLeft (skipDash inside)

/-- Nothing stands in a text but blanks and a dash behind them. -/
def isEnd (s : List Char) : Bool := (skipDash (Text.trimLeft s)).isEmpty

/-- A text without a dash at its end and the blanks before it. -/
def withoutEnd (s : List Char) : List Char := Text.trimRight (skipDash s.reverse).reverse

/-- Every quoted text ends; `quote` is the one that is open. -/
def quotesClose : Option Char → List Char → Bool
  | quote, [] => quote.isNone
  | some quote, c :: s => quotesClose (if c = quote then none else some quote) s
  | none, c :: s => quotesClose (if c = '\'' ∨ c = '"' then some c else none) s

/-- A condition: something on one line, in which every quoted text ends. -/
def isCondition (s : List Char) : Bool := !s.isEmpty && s.all (· != '\n') && quotesClose none s

/-- The variable and the list of a loop, with nothing behind them. -/
def loopHead? (s : List Char) : Option (List Char × List Char) := do
  let (item, s) ← word? s
  let s ← Text.afterPrefix? "in".toList (← afterBlank? s)
  let (path, s) ← path? (← afterBlank? s)
  if isEnd s then some (item, path) else none

/-- The keyword of a clause. -/
def Clause.keyword : Clause → String
  | branch => "if"
  | elif => "elif"
  | otherwise => "else"
  | endBranch => "endif"
  | loop => "for"
  | endLoop => "endfor"

/-- What may stand behind the keyword of a clause. A loop's variable is not called `else`. -/
def Clause.continues (s : List Char) : Clause → Bool
  | branch | elif => (afterBlank? (withoutEnd s)).any isCondition
  | otherwise | endBranch | endLoop => isEnd s
  | loop => ((afterBlank? s).bind loopHead?).any fun (item, _) => item != "else".toList

/-- **The clause that a statement is**, by what stands inside it. -/
def clauseOf? (inside : List Char) : Option Clause :=
  let keyword := String.ofList ((unframed inside).takeWhile Text.isWord)
  Clause.all.find? fun clause =>
    clause.keyword == keyword && clause.continues ((unframed inside).dropWhile Text.isWord)

/-- The clause of the statement that is open at the start of a text, nothing when it is none or has
no end. -/
def statementOf? (s : List Char) : Option Clause :=
  if closing <+: s.dropWhile isInside then clauseOf? (s.takeWhile isInside) else none

/-! ## Sights -/

/-- What is seen at a place of a text. -/
inductive Sight where
  /-- The start of a statement, with the clause that it is. -/
  | statement (clause : Option Clause)
  /-- The tag of a clause. -/
  | tag (clause : Clause)
  /-- Another tag that belongs to a block. -/
  | block
deriving DecidableEq, Repr

/-- How the tags start that belong to blocks, behind their braces. -/
def blockStarts : List (List Char) := ["#".toList, "/".toList, "else".toList]

/-- What a tag belongs to, by its text behind the braces. -/
def tagSight? (s : List Char) : Option Sight :=
  match Clause.all.find? fun clause => clause.tagStart.isPrefixOf s with
  | some clause => some (.tag clause)
  | none => if blockStarts.any fun start => start.isPrefixOf s then some .block else none

/-- What is seen at the start of a text; it starts with a brace. -/
def sight? : List Char → Option Sight
  | '\x7b' :: '%' :: s => some (.statement (statementOf? s))
  | '\x7b' :: '\x7b' :: s => tagSight? s
  | _ => none

/-- **What is seen at the places of a text**, from left to right. -/
def sights : List Char → List Sight
  | [] => []
  | c :: s => (sight? (c :: s)).toList ++ sights s

/-- **The statements of a text**, each with the clause that it is. -/
def statements (s : List Char) : List (Option Clause) :=
  (sights s).filterMap fun | .statement clause => some clause | _ => none

/-- **The tags of clauses** in a text. -/
def blockTags (s : List Char) : List Clause :=
  (sights s).filterMap fun | .tag clause => some clause | _ => none

/-- A member of a mapping that is named like an alternative: a dot and the word. -/
def elseMember : List Char := ".else".toList

/-! ## Nesting -/

/-- A part that is open. -/
inductive Open where
  | branch
  | loop
deriving DecidableEq, Repr

/-- The parts that are open after one more clause; nothing when the clause does not fit. -/
def Clause.after? : Clause → List Open → Option (List Open)
  | .branch, opened => some (.branch :: opened)
  | .loop, opened => some (.loop :: opened)
  | .elif, .branch :: opened => some (.branch :: opened)
  | .otherwise, .branch :: opened => some (.branch :: opened)
  | .endBranch, .branch :: opened => some opened
  | .endLoop, .loop :: opened => some opened
  | _, _ => none

/-- **Clauses are properly nested**: each end closes what was opened last, every alternative stands
inside a branch, and nothing stays open. -/
def Nested (clauses : List Clause) : Prop :=
  clauses.foldlM (fun opened clause => clause.after? opened) [] = some []

instance (clauses : List Clause) : Decidable (Nested clauses) := inferInstanceAs (Decidable (_ = _))

end Runlist.Template
