import Runlist.Block.Error

/-!
# Why a parameter cannot be rendered

* `TemplateError`: the causes.
* `TemplateError.message`: the wording.
-/

namespace Runlist

/-- Statements that blocks cannot express. -/
inductive UnsupportedStatement where
  | assignment
  | inclusion
  | importing
  | inheritance
  | block
  | definition
  | verbatim
  | filter
deriving DecidableEq, Inhabited, Repr

/-- What a statement is called in messages. -/
def UnsupportedStatement.message : UnsupportedStatement → String
  | .assignment => "variable assignment"
  | .inclusion => "template inclusion"
  | .importing => "template import"
  | .inheritance => "template inheritance"
  | .block => "template blocks"
  | .definition => "macros"
  | .verbatim => "raw blocks"
  | .filter => "filter blocks"

/-- The two pairs of delimiters. -/
inductive Delimiter where
  | reference
  | statement
deriving DecidableEq, Inhabited, Repr

/-- What a pair of delimiters encloses. -/
def Delimiter.message : Delimiter → String
  | .reference => "variable reference"
  | .statement => "control block"

/-- How statements fail to be balanced. -/
inductive Imbalance where
  | elifWithoutIf
  | unmatchedEndif
  | unmatchedEndfor
  /-- Conditions that are not closed. -/
  | openIf (count : Nat)
  /-- Loops that are not closed. -/
  | openFor (count : Nat)
deriving DecidableEq, Inhabited, Repr

/-- The wording of an imbalance. -/
def Imbalance.message : Imbalance → String
  | .elifWithoutIf => "elif without if"
  | .unmatchedEndif => "unmatched endif"
  | .unmatchedEndfor => "unmatched endfor"
  | .openIf count => "if (missing " ++ toString count ++ " endif)"
  | .openFor count => "for (missing " ++ toString count ++ " endfor)"

/-- Why a parameter cannot be rendered. -/
inductive TemplateError where
  /-- Opening and closing delimiters of one kind are not equally many. -/
  | unclosed (delimiter : Delimiter) (opened closed : Nat)
  | unsupported (statement : UnsupportedStatement)
  | unbalanced (imbalance : Imbalance)
  | rendering (error : Block.BlockError)
deriving DecidableEq, Inhabited, Repr

/-- The wording of an error. -/
def TemplateError.message : TemplateError → String
  | .unclosed delimiter opened closed =>
    "Template validation failed: Unclosed " ++ delimiter.message ++ " (" ++ toString opened ++
      " opened, " ++ toString closed ++ " closed)"
  | .unsupported statement => "Unsupported Jinja2 feature: " ++ statement.message
  | .unbalanced imbalance => "Unbalanced template blocks: " ++ imbalance.message
  | .rendering error => "Template rendering failed: " ++ error.message

end Runlist
