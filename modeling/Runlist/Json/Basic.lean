import Runlist.Decimal.Binary64

/-!
# Data values

Documents, variables and parameters are values of one kind: null, booleans, numbers, strings,
lists and mappings with string keys. A mapping is a list of entries in the order of its keys.

* `Fields.get?`, `Fields.insert`, `Fields.erase`: entries by key.
* `Fields.get?_insert`: what an insertion does to a look-up.
* `Number.same`, `Json.same`: equality by value.
-/

namespace Runlist

/-- A number: an integer, or a binary fraction. -/
inductive Number where
  | int (i : Int)
  | float (x : Binary64)
deriving DecidableEq, Inhabited, Repr

/-- A data value. The entries of a mapping are in the order of their keys. -/
inductive Json where
  | null
  | bool (b : Bool)
  | number (n : Number)
  | string (s : String)
  | array (items : List Json)
  | object (entries : List (String × Json))
deriving Inhabited, Repr

/-- Entries of a mapping, in the order of their keys. -/
abbrev Fields := List (String × Json)

namespace Fields

/-- The value at a key. -/
def get? : Fields → String → Option Json
  | [], _ => none
  | (k, v) :: rest, key => if k = key then some v else get? rest key

/-- The entries with one added or replaced, in the place where its key belongs. -/
def insert : Fields → String → Json → Fields
  | [], key, value => [(key, value)]
  | (k, v) :: rest, key, value =>
    if key = k then (key, value) :: rest
    else if key < k then (key, value) :: (k, v) :: rest
    else (k, v) :: insert rest key value

/-- The entries without the one at a key. -/
def erase (fields : Fields) (key : String) : Fields := fields.filter fun (k, _) => k != key

/-- The key is present. -/
def has (fields : Fields) (key : String) : Bool := (fields.get? key).isSome

/-- Entries in the order of their keys, the last of several with one key kept. -/
def ofList (entries : List (String × Json)) : Fields :=
  entries.foldl (fun fields (k, v) => fields.insert k v) []

/-- An insertion changes the value at its key and at no other. -/
theorem get?_insert (fields : Fields) (key key' : String) (value : Json) :
    (fields.insert key value).get? key' = if key = key' then some value else fields.get? key' := by
  induction fields with
  | nil => simp [insert, get?]
  | cons entry rest ih =>
    obtain ⟨k, v⟩ := entry
    unfold insert
    split
    · rename_i h; subst h
      simp only [get?]
      split <;> rfl
    · split
      · simp [get?]
      · rename_i h _
        simp only [get?, ih]
        by_cases hk : k = key'
        · subst hk; simp [h]
        · simp [hk]

end Fields

namespace Json

/-- The string that a value is. -/
def string? : Json → Option String
  | .string s => some s
  | _ => none

/-- The entries of a mapping. -/
def fields? : Json → Option Fields
  | .object entries => some entries
  | _ => none

/-- The items of a list. -/
def items? : Json → Option (List Json)
  | .array items => some items
  | _ => none

/-- The boolean that a value is. -/
def bool? : Json → Option Bool
  | .bool b => some b
  | _ => none

/-- The value is null. -/
def isNull : Json → Bool
  | .null => true
  | _ => false

end Json

/-- Numbers are equal when both are integers or both are fractions, of equal value. -/
def Number.same : Number → Number → Bool
  | .int i, .int j => i == j
  | .float x, .float y => x.same y
  | _, _ => false

/-- The nearest binary fraction. -/
def Number.toBinary64 : Number → Binary64
  | .int i => Binary64.ofInt i
  | .float x => x

namespace Json

mutual
/-- Equality by value: as that of the data, save that zeros of both signs are equal. -/
def same : Json → Json → Bool
  | .null, .null => true
  | .bool a, .bool b => a == b
  | .number m, .number n => m.same n
  | .string s, .string t => s == t
  | .array xs, .array ys => sameItems xs ys
  | .object xs, .object ys => sameEntries xs ys
  | _, _ => false

/-- Equality of lists, item by item. -/
def sameItems : List Json → List Json → Bool
  | [], [] => true
  | x :: xs, y :: ys => same x y && sameItems xs ys
  | _, _ => false

/-- Equality of mappings, entry by entry. -/
def sameEntries : List (String × Json) → List (String × Json) → Bool
  | [], [] => true
  | (k, x) :: xs, (l, y) :: ys => k == l && same x y && sameEntries xs ys
  | _, _ => false
end

end Json

end Runlist
