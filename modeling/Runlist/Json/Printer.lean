import Runlist.Json.Basic
import Runlist.Decimal.Shortest
import Runlist.Text.Blank

/-!
# The text of data values

* `Number.text`: integers in decimal; fractions with the fewest digits that read back, plain
  from `10 ^ -5` to below `10 ^ 16` and with an exponent outside.
* `Json.text`: the compact text of a value, entries in the order of their keys.
-/

namespace Runlist

namespace Binary64

/-- Digits with the point after the first, none when there is one digit. -/
def pointAfterFirst (digits : Nat) : String :=
  match (toString digits).toList with
  | [] => ""
  | [d] => String.ofList [d]
  | d :: rest => String.ofList (d :: '.' :: rest)

/-- **The text of a fraction**: the shortest digits, with a point and at least one digit after
it from `10 ^ -5` to below `10 ^ 16`, and as `d.ddde+N` or `d.ddde-N` outside. -/
def text (x : Binary64) : String :=
  let (d, e) := x.shortest
  let top := (digitCount d : Int) + e
  let sign := if x.negative then "-" else ""
  if d = 0 || (-5 < top && top ≤ 16) then sign ++ placePoint d e
  else
    let power := top - 1
    sign ++ pointAfterFirst d ++ (if power < 0 then "e-" else "e+") ++ toString power.natAbs

end Binary64

/-- The text of a number. -/
def Number.text : Number → String
  | .int i => toString i
  | .float x => x.text

namespace Json

/-- Four hexadecimal digits. -/
def hex4 (n : Nat) : String :=
  let h := Text.hex n
  String.ofList (List.replicate (4 - h.length) '0') ++ h

/-- One character of a string's text. -/
def escapeChar (c : Char) : String :=
  if c == '"' then "\\\""
  else if c == '\\' then "\\\\"
  else if c == '\n' then "\\n"
  else if c == '\r' then "\\r"
  else if c == '\t' then "\\t"
  else if c.toNat == 8 then "\\b"
  else if c.toNat == 12 then "\\f"
  else if c.toNat < 32 then "\\u" ++ hex4 c.toNat
  else c.toString

/-- A string between double quotes. -/
def stringText (s : String) : String := "\"" ++ String.join (s.toList.map escapeChar) ++ "\""

mutual
/-- The compact text of a value. -/
def text : Json → String
  | .null => "null"
  | .bool b => if b then "true" else "false"
  | .number n => n.text
  | .string s => stringText s
  | .array items => "[" ++ ",".intercalate (itemTexts items) ++ "]"
  | .object entries => "\x7b" ++ ",".intercalate (entryTexts entries) ++ "\x7d"

/-- The texts of items. -/
def itemTexts : List Json → List String
  | [] => []
  | x :: xs => text x :: itemTexts xs

/-- The texts of entries. -/
def entryTexts : List (String × Json) → List String
  | [] => []
  | (k, x) :: xs => (stringText k ++ ":" ++ text x) :: entryTexts xs
end

end Json

end Runlist
