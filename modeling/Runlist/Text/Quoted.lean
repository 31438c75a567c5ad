import Runlist.Text.Unprintable
import Runlist.Text.Extending
import Runlist.Text.Blank

/-!
# Quoted text in messages

Messages show paths, names and templates between double quotes, with everything that could not
be told apart on screen written as an escape.

* `quoted`: the quoted form of a text.
* `quotedList`: the form of a list of texts, in square brackets.
-/

namespace Runlist.Text

/-- The written form of one character inside quotes. -/
def escapeChar (c : Char) : String :=
  if c == '\x00' then "\\0"
  else if c == '\t' then "\\t"
  else if c == '\r' then "\\r"
  else if c == '\n' then "\\n"
  else if c == '"' then "\\\""
  else if c == '\\' then "\\\\"
  else if isExtending c || isUnprintable c then "\\u\x7b" ++ hex c.toNat ++ "\x7d"
  else c.toString

/-- A text between double quotes, with quotes, backslashes, and characters that have no
printed form of their own escaped. -/
def quoted (s : String) : String :=
  "\"" ++ String.join (s.toList.map escapeChar) ++ "\""

/-- The quoted texts of a list, in square brackets. -/
def quotedList (items : List String) : String :=
  "[" ++ ", ".intercalate (items.map quoted) ++ "]"

end Runlist.Text
