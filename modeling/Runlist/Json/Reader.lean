import Runlist.Json.Basic

/-!
# Reading the text of data values

* `Json.read?`: the value that a text denotes, nothing when the text is not well formed.

A number without point and exponent is an integer while it fits 64 bits. Every other number is
read as a significand of at most 64 bits, further digits dropped, times a power of ten.
-/

namespace Runlist.Json

/-- The white space that may stand between the parts of a value. -/
def isGap (c : Char) : Bool := c == ' ' || c == '\n' || c == '\t' || c == '\r'

/-- The text without leading gaps. -/
def skipGaps (s : List Char) : List Char := s.dropWhile isGap

/-- The value of a decimal digit. -/
def digitValue (c : Char) : Nat := c.toNat - '0'.toNat

/-- The value of a hexadecimal digit. -/
def hexValue? (c : Char) : Option Nat :=
  if c.isDigit then some (digitValue c)
  else if 'a' ≤ c && c ≤ 'f' then some (c.toNat - 'a'.toNat + 10)
  else if 'A' ≤ c && c ≤ 'F' then some (c.toNat - 'A'.toNat + 10)
  else none

/-- The number that a run of decimal digits denotes. -/
def digitsValue (digits : List Char) : Nat :=
  digits.foldl (fun n c => n * 10 + digitValue c) 0

/-- Four hexadecimal digits and the rest. -/
def hex4? : List Char → Option (Nat × List Char)
  | a :: b :: c :: d :: rest => do
    let a ← hexValue? a
    let b ← hexValue? b
    let c ← hexValue? c
    let d ← hexValue? d
    return (((a * 16 + b) * 16 + c) * 16 + d, rest)
  | _ => none

/-- The character of an escape after `\u`: one unit, or a high and a low surrogate. -/
def unicodeEscape? (s : List Char) : Option (Char × List Char) := do
  let (n, rest) ← hex4? s
  if 0xD800 ≤ n && n < 0xDC00 then
    match rest with
    | '\\' :: 'u' :: rest =>
      let (m, rest) ← hex4? rest
      if 0xDC00 ≤ m && m < 0xE000 then
        return (Char.ofNat (0x10000 + (n - 0xD800) * 0x400 + (m - 0xDC00)), rest)
      else none
    | _ => none
  else if 0xDC00 ≤ n && n < 0xE000 then none
  else return (Char.ofNat n, rest)

/-- The character that a letter after a backslash stands for. -/
def simpleEscape? (c : Char) : Option Char :=
  match c with
  | '"' => some '"'
  | '\\' => some '\\'
  | '/' => some '/'
  | 'b' => some (Char.ofNat 8)
  | 'f' => some (Char.ofNat 12)
  | 'n' => some '\n'
  | 'r' => some '\r'
  | 't' => some '\t'
  | _ => none

/-- The characters of a string up to its closing quote, which is `close`, and the rest. The
closing quote may be escaped. Every step takes at least one character. -/
def stringBody? (close : Char) : Nat → List Char → List Char → Option (List Char × List Char)
  | 0, _, _ => none
  | _ + 1, _, [] => none
  | n + 1, acc, c :: rest =>
    if c = close then some (acc.reverse, rest)
    else if c = '\\' then
      match rest with
      | [] => none
      | 'u' :: rest =>
        match unicodeEscape? rest with
        | some (c, rest) => stringBody? close n (c :: acc) rest
        | none => none
      | e :: rest =>
        if e = close then stringBody? close n (e :: acc) rest
        else if e = '"' then none
        else match simpleEscape? e with
          | some c => stringBody? close n (c :: acc) rest
          | none => none
    else if c.toNat < 32 then none
    else stringBody? close n (c :: acc) rest

/-- A quoted string without its opening quote. -/
def readString? (close : Char) (s : List Char) : Option (String × List Char) :=
  (stringBody? close (s.length + 1) [] s).map fun (cs, rest) => (String.ofList cs, rest)

/-- The largest significand. -/
def significandLimit : Nat := Nat.pow 2 64 - 1

/-- Integer digits are added to the significand while it fits; each further one counts for the
exponent. -/
def integerDigits : List Char → Nat → Nat → Nat × Nat
  | [], significand, dropped => (significand, dropped)
  | c :: cs, significand, dropped =>
    let next := significand * 10 + digitValue c
    if dropped = 0 && next ≤ significandLimit then integerDigits cs next 0
    else integerDigits cs significand (dropped + 1)

/-- Digits after the point are added to the significand until the first that does not fit. -/
def fractionDigits : List Char → Nat → Nat → Nat × Nat
  | [], significand, places => (significand, places)
  | c :: cs, significand, places =>
    let next := significand * 10 + digitValue c
    if next ≤ significandLimit then fractionDigits cs next (places + 1) else (significand, places)

/-- The exponent after `e`, when one is written: sign and digits. -/
def exponentPart? : List Char → Option (Int × List Char)
  | '+' :: rest => digits false rest
  | '-' :: rest => digits true rest
  | rest => digits false rest
where
  /-- At least one digit. -/
  digits (negative : Bool) (s : List Char) : Option (Int × List Char) :=
    let ds := s.takeWhile Char.isDigit
    if ds.isEmpty then none
    else
      let n : Int := digitsValue ds
      some (if negative then -n else n, s.dropWhile Char.isDigit)

/-- The number at the start of a text, its sign already read. -/
def readMagnitude? (negative : Bool) (s : List Char) : Option (Number × List Char) := do
  let whole := s.takeWhile Char.isDigit
  let rest := s.dropWhile Char.isDigit
  if whole.isEmpty then none
  else if 1 < whole.length && whole.head? == some '0' then none
  else
    let (significand, dropped) := integerDigits whole 0 0
    let (significand, exponent, rest, decimal) ← match rest with
      | '.' :: rest =>
        let places := rest.takeWhile Char.isDigit
        if places.isEmpty then none
        else
          let (significand, count) := fractionDigits places significand 0
          some (significand, (dropped : Int) - count, rest.dropWhile Char.isDigit, true)
      | rest => some (significand, (dropped : Int), rest, decide (0 < dropped))
    let (exponent, rest, decimal) ← match rest with
      | e :: rest =>
        if e == 'e' || e == 'E' then
          (exponentPart? rest).map fun (n, rest) => (exponent + n, rest, true)
        else some (exponent, e :: rest, decimal)
      | [] => some (exponent, [], decimal)
    if decimal then
      let x ← Binary64.scaled negative significand exponent
      return (.float x, rest)
    else if negative then
      if significand = 0 || Nat.pow 2 63 < significand then
        return (.float (Binary64.ofRatio true significand 1), rest)
      else return (.int (-(significand : Int)), rest)
    else return (.int significand, rest)

/-- The number at the start of a text. -/
def readNumber? : List Char → Option (Number × List Char)
  | '-' :: rest => readMagnitude? true rest
  | rest => readMagnitude? false rest

/-- The rest of a text after a word. -/
def afterWord? : List Char → List Char → Option (List Char)
  | [], s => some s
  | _ :: _, [] => none
  | w :: ws, c :: s => if w = c then afterWord? ws s else none

mutual
/-- The value at the start of a text and the rest. Every step takes at least one character, so
the length of the text is enough for the first argument. -/
def readValue? : Nat → List Char → Option (Json × List Char)
  | 0, _ => none
  | n + 1, s =>
    match skipGaps s with
    | '"' :: rest => (readString? '"' rest).map fun (t, rest) => (.string t, rest)
    | '[' :: rest =>
      match skipGaps rest with
      | ']' :: rest => some (.array [], rest)
      | rest => (readItems? n [] rest).map fun (items, rest) => (.array items, rest)
    | '\x7b' :: rest =>
      match skipGaps rest with
      | '\x7d' :: rest => some (.object [], rest)
      | rest => (readEntries? n [] rest).map fun (entries, rest) => (.object entries, rest)
    | 't' :: rest => (afterWord? ['r', 'u', 'e'] rest).map fun rest => (.bool true, rest)
    | 'f' :: rest => (afterWord? ['a', 'l', 's', 'e'] rest).map fun rest => (.bool false, rest)
    | 'n' :: rest => (afterWord? ['u', 'l', 'l'] rest).map fun rest => (.null, rest)
    | rest => (readNumber? rest).map fun (x, rest) => (.number x, rest)

/-- The items of a list, at least one, and the rest after its end. -/
def readItems? : Nat → List Json → List Char → Option (List Json × List Char)
  | 0, _, _ => none
  | n + 1, acc, s =>
    match readValue? n s with
    | none => none
    | some (item, rest) =>
      match skipGaps rest with
      | ',' :: rest => readItems? n (item :: acc) rest
      | ']' :: rest => some ((item :: acc).reverse, rest)
      | _ => none

/-- The entries of a mapping, at least one, and the rest after its end. -/
def readEntries? : Nat → Fields → List Char → Option (Fields × List Char)
  | 0, _, _ => none
  | n + 1, acc, s =>
    match skipGaps s with
    | '"' :: rest =>
      match readString? '"' rest with
      | none => none
      | some (key, rest) =>
        match skipGaps rest with
        | ':' :: rest =>
          match readValue? n rest with
          | none => none
          | some (value, rest) =>
            match skipGaps rest with
            | ',' :: rest => readEntries? n (acc.insert key value) rest
            | '\x7d' :: rest => some (acc.insert key value, rest)
            | _ => none
        | _ => none
    | _ => none
end

/-- **The value that a text denotes**, gaps around it allowed. -/
def read? (s : List Char) : Option Json :=
  match readValue? (2 * s.length + 2) s with
  | some (value, rest) => if (skipGaps rest).isEmpty then some value else none
  | none => none

end Runlist.Json
