import Runlist.Json.Reader

/-!
# Reading decimal fractions

* `Decimal.splitSign`: a sign and what follows it.
* `Binary64.read?`: the number nearest to a written fraction.
-/

namespace Runlist

/-- A sign and the text after it; without a sign the whole text. -/
def Decimal.splitSign : List Char → Option Char × List Char
  | '+' :: s => (some '+', s)
  | '-' :: s => (some '-', s)
  | s => (none, s)

/-- The fraction that a text denotes: digits with an optional point and an optional exponent. -/
def Binary64.read? (s : List Char) : Option Binary64 :=
  let (sign, s) := Decimal.splitSign s
  let whole := s.takeWhile Char.isDigit
  let s := s.dropWhile Char.isDigit
  let (part, s) := match s with
    | '.' :: s => (s.takeWhile Char.isDigit, s.dropWhile Char.isDigit)
    | s => ([], s)
  if whole.isEmpty && part.isEmpty then none
  else
    let power? : Option Int := match s with
      | [] => some 0
      | e :: s =>
        if e == 'e' || e == 'E' then
          let (sign, digits) := Decimal.splitSign s
          if digits.isEmpty || !digits.all Char.isDigit then none
          else
            let n : Int := Json.digitsValue digits
            some (if sign == some '-' then -n else n)
        else none
    power?.map fun power =>
      Binary64.ofDecimal (sign == some '-') (Json.digitsValue (whole ++ part)) (power - part.length)

end Runlist
