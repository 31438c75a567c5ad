/-!
# Blank characters and trimming

Blank characters are those of the Unicode property for white space; the narrower set of
spaces and tabs is what stands before a statement on its own line.

* `isBlank`: white space, line ends included.
* `isIndent`: a space or a tab.
* `trim`, `trimLeft`, `trimRight`: text without the blanks at its ends.
-/

namespace Runlist.Text

/-- White space in the sense of Unicode. -/
def isBlank (c : Char) : Bool :=
  let n := c.toNat
  (9 ≤ n && n ≤ 13) || n == 0x20 || n == 0x85 || n == 0xA0 || n == 0x1680 ||
    (0x2000 ≤ n && n ≤ 0x200A) || n == 0x2028 || n == 0x2029 || n == 0x202F || n == 0x205F ||
    n == 0x3000

/-- A space or a tab: what may stand before a tag that has a line of its own. -/
def isIndent (c : Char) : Bool := c == ' ' || c == '\t'

/-- Text without the characters of the set at its end. -/
def dropRightWhile (p : Char → Bool) (s : List Char) : List Char :=
  (s.reverse.dropWhile p).reverse

/-- Text without the blanks at its start. -/
def trimLeft (s : List Char) : List Char := s.dropWhile isBlank

/-- Text without the blanks at its end. -/
def trimRight (s : List Char) : List Char := dropRightWhile isBlank s

/-- Text without the blanks at both ends. -/
def trim (s : List Char) : List Char := trimRight (trimLeft s)

/-- The part of a list after a given beginning, when it has this beginning. -/
def afterPrefix? : List Char → List Char → Option (List Char)
  | [], s => some s
  | _ :: _, [] => none
  | p :: ps, c :: s => if p = c then afterPrefix? ps s else none

/-- Non-overlapping occurrences of a text, counted from the left. -/
def countOccurrences (needle : List Char) (s : List Char) : Nat :=
  go s.length s
where
  /-- Counts with at most as many steps as the text has characters. -/
  go : Nat → List Char → Nat
    | 0, _ => 0
    | _ + 1, [] => 0
    | n + 1, c :: s =>
      match afterPrefix? needle (c :: s) with
      | some rest => go n rest + 1
      | none => go n s

/-- The text occurs somewhere. -/
def occursIn (needle : List Char) : List Char → Bool
  | [] => needle.isEmpty
  | c :: s => (afterPrefix? needle (c :: s)).isSome || occursIn needle s

/-- A natural number in lower-case hexadecimal. -/
def hex (n : Nat) : String := String.ofList (Nat.toDigits 16 n)

end Runlist.Text
