import Runlist.Proofs.Template.Phrase

/-!
# Values in templates

What a template looks up, compares and asks for is what a parameter means by it.

* `follow_at`: **keys lead to the same value**, as long as no list is asked for a key.
* `isNormal_ofInt`: integers other than zero have a full significand.
* `holds_eq_isTrue`, `looselyEqual_string`, `fallbackText_eq`: conditions, comparisons and
  fallbacks.
-/

namespace Runlist

/-! ## Integers -/

namespace Binary64

/-- A rounded quotient lies where the quotient does. -/
theorem roundDiv_bounds {num den a b : Nat} (hden : 0 < den) (ha : a * den ≤ num)
    (hb : num < b * den) : a ≤ roundDiv num den ∧ roundDiv num den ≤ b := by
  have hlower : a ≤ num / den := (Nat.le_div_iff_mul_le hden).2 ha
  have hupper : num / den < b := (Nat.div_lt_iff_lt_mul hden).2 hb
  simp only [roundDiv]
  split
  · omega
  · split
    · omega
    · split <;> omega

theorem floorLog2_one {n : Nat} (hn : n ≠ 0) : floorLog2 n 1 = Nat.log2 n := by
  have hlog : Nat.log2 1 = 0 := rfl
  have hguess : ((Nat.log2 n : Int) - (Nat.log2 1 : Int)) = Nat.log2 n := by rw [hlog]; omega
  have hpow : 1 * Nat.pow 2 (Nat.log2 n) ≤ n := by
    rw [Nat.one_mul]
    exact Nat.log2_self_le hn
  simp only [floorLog2, hguess, Int.natCast_nonneg, if_true, Int.toNat_natCast, hpow]

/-- What is put together from bits is read from them. -/
theorem magnitude_ofMagnitude (negative : Bool) {m : Nat} (hm : m < Nat.pow 2 63) :
    (ofMagnitude negative m).magnitude = m := by
  have hbits : (UInt64.ofNat (m + if negative then Nat.pow 2 63 else 0)).toNat =
      m + if negative then Nat.pow 2 63 else 0 := by
    rw [UInt64.toNat_ofNat']
    have hpow : Nat.pow 2 63 = 9223372036854775808 := rfl
    refine Nat.mod_eq_of_lt ?_
    rw [hpow] at hm ⊢
    split <;> omega
  rw [magnitude, ofMagnitude, hbits]
  split
  · rw [Nat.add_mod_right]
    exact Nat.mod_eq_of_lt hm
  · exact Nat.mod_eq_of_lt hm

/-- The significand of an integer is full. -/
theorem significand_bounds {n l : Nat} (hlow : Nat.pow 2 l ≤ n) (hhigh : n < Nat.pow 2 (l + 1))
    (q : Int) (hq : q = (l : Int) - 52) :
    Nat.pow 2 52 ≤
      (if 0 ≤ q then roundDiv n (1 * Nat.pow 2 q.toNat)
        else roundDiv (n * Nat.pow 2 (-q).toNat) 1) ∧
      (if 0 ≤ q then roundDiv n (1 * Nat.pow 2 q.toNat)
        else roundDiv (n * Nat.pow 2 (-q).toNat) 1) ≤ Nat.pow 2 53 := by
  have hlow : 2 ^ l ≤ n := hlow
  have hhigh : n < 2 ^ (l + 1) := hhigh
  have hdown : Nat.pow 2 52 = 2 ^ 52 := rfl
  have hup : Nat.pow 2 53 = 2 ^ 53 := rfl
  rw [hdown, hup]
  split
  · have hsplit : l = 52 + q.toNat := by omega
    have hone : 1 * Nat.pow 2 q.toNat = 2 ^ q.toNat := Nat.one_mul _
    rw [hsplit] at hlow hhigh
    rw [hone]
    refine roundDiv_bounds (Nat.two_pow_pos _) ?_ ?_
    · rwa [← Nat.pow_add]
    · have hnext : 53 + q.toNat = 52 + q.toNat + 1 := by omega
      rwa [← Nat.pow_add, hnext]
  · have hsplit : l + (-q).toNat = 52 := by omega
    have hscale : 0 < 2 ^ (-q).toNat := Nat.two_pow_pos _
    have hlow' := Nat.mul_le_mul_right (2 ^ (-q).toNat) hlow
    have hhigh' := Nat.mul_lt_mul_of_pos_right hhigh hscale
    rw [← Nat.pow_add, hsplit] at hlow'
    rw [← Nat.pow_add, Nat.add_right_comm, hsplit] at hhigh'
    refine roundDiv_bounds Nat.one_pos ?_ ?_
    · rwa [Nat.mul_one]
    · rwa [Nat.mul_one]

/-- **Integers of 64 bits other than zero have a full significand.** -/
theorem isNormal_ofInt {i : Int} (hi : i ≠ 0) (hsmall : i.natAbs < Nat.pow 2 64) :
    (ofInt i).isNormal := by
  have hn : i.natAbs ≠ 0 := Int.natAbs_ne_zero.2 hi
  rw [ofInt]
  generalize (decide (i < 0)) = negative
  generalize i.natAbs = n at hn hsmall
  have hlog : Nat.log2 n < 64 := (Nat.log2_lt hn).2 hsmall
  have hfloor := floorLog2_one hn
  obtain ⟨hlow, hhigh⟩ :=
    significand_bounds (Nat.log2_self_le hn) Nat.lt_log2_self (max (floorLog2 n 1 - 52) (-1074))
    (by rw [hfloor]; omega)
  have hq : max (floorLog2 n 1 - 52) (-1074) = (Nat.log2 n : Int) - 52 := by rw [hfloor]; omega
  rw [ofRatio, if_neg hn]
  dsimp only
  generalize (if 0 ≤ max (floorLog2 n 1 - 52) (-1074) then _ else _ : Nat) = m at hlow hhigh ⊢
  rw [hq]
  have hpow : Nat.pow 2 52 = 4503599627370496 := rfl
  have hup : Nat.pow 2 53 = 9007199254740992 := rfl
  have hsign : Nat.pow 2 63 = 9223372036854775808 := rfl
  rw [hpow] at hlow
  rw [hup] at hhigh
  have hexponent : ((Nat.log2 n : Int) - 52 + 1075).toNat = Nat.log2 n + 1023 := by omega
  have hfull : ¬ m < 4503599627370496 := by omega
  rw [hexponent, hpow, if_neg hfull, if_neg (by omega), isNormal, exponentField,
    magnitude_ofMagnitude _ (by omega), hpow, Bool.and_eq_true, decide_eq_true_eq,
    decide_eq_true_eq]
  omega

end Binary64

/-- An integer of 64 bits, or a fraction that is zero or has a full significand. -/
def Number.isOrdinary : Number → Bool
  | .int i => decide (i.natAbs < Nat.pow 2 64)
  | .float x => x.isZero || x.isNormal

namespace Json

variable {value : Json}

/-- A value that is a number is an ordinary one. -/
def isOrdinary : Json → Bool
  | .number n => n.isOrdinary
  | _ => true

/-! ## Conditions -/

/-- **A value counts as true in a template as it does in a parameter.** -/
theorem holds_eq_isTrue (h : value.isOrdinary) : value.holds false = value.isTrue := by
  cases value with
  | number n =>
    cases n with
    | int i =>
      have hsmall : i.natAbs < Nat.pow 2 64 := of_decide_eq_true h
      by_cases hi : i = 0
      · subst hi
        decide
      · have hzero : (i == 0) = false := beq_eq_false_iff_ne.2 hi
        rw [holds, isTrue, Number.isZero, Bool.false_or, Number.toBinary64,
          Binary64.isNormal_ofInt hi hsmall, hzero]
        rfl
    | float x =>
      have hordinary : (x.isZero || x.isNormal) = true := h
      rw [holds, isTrue, Number.isZero, Bool.false_or, Number.toBinary64]
      cases hzero : x.isZero with
      | true =>
        have hexponent : x.exponentField = 0 := by
          rw [Binary64.exponentField, beq_iff_eq.1 hzero]
        rw [Binary64.isNormal, hexponent]
        rfl
      | false =>
        rw [hzero, Bool.false_or] at hordinary
        exact hordinary
  | _ => rfl

theorem holds_missing (value : Option Json) (h : ∀ v, value = some v → v.isOrdinary) :
    (value.getD .null).holds false = value.any isTrue := by
  cases value with
  | none => rfl
  | some v => exact holds_eq_isTrue (h v rfl)

theorem looselyEqual_string (value : Json) (s : String) :
    Block.Helper.looselyEqual value (.string s) = (Block.Helper.asText value == s) := by
  cases value <;> rfl

/-- **A value is compared with a text by its own text.** -/
theorem looselyEqual_missing (value : Option Json) (s : String) :
    Block.Helper.looselyEqual (value.getD .null) (.string s) = (comparedText value == s) := by
  rw [looselyEqual_string]
  cases value <;> rfl

/-- **A text takes the place of an absent value**, and of no other. -/
theorem fallbackText_eq (value : Option Json) (s : String) :
    Block.Helper.fallbackText value s = if isAbsent value then s else comparedText value := by
  cases value with
  | none => rfl
  | some v => cases v <;> rfl

/-! ## Look-ups -/

/-- **Keys lead to the same value in a template**, as long as no list is asked for a key. -/
theorem follow_at {keys : List String} (h : value.keepsOut keys) :
    Block.follow value keys = .ok (value.at? keys) := by
  induction keys generalizing value with
  | nil => rfl
  | cons key keys ih =>
    cases value with
    | array items => cases h
    | object entries =>
      rw [keepsOut] at h
      rw [Block.follow, at?]
      cases hget : Fields.get? entries key with
      | none => rfl
      | some item =>
        rw [hget] at h
        exact ih h
    | _ => rfl

end Json

end Runlist
