import Mathlib.Data.Rat.Floor
import Mathlib.Tactic.Linarith
import StoryMachine.Machine.Arithmetic

/-!
# Division rounds down

A quotient or remainder of two words is that of division toward zero, put right where
this differs from rounding down.  The quotient is put right when the signs of the
operands differ, and the remainder when its own sign differs from that of the divisor.
The two tests agree, since a remainder that is not zero has the sign of the dividend.

All of this happens in signed words.  Only the quotient of the least word by minus one
does not fit (`DivisionFits`), so in every other case the words are the numbers that
division gives (`division_rounds_down`).
-/

namespace StoryMachine

/-! ## Division of numbers -/

/-- A quotient and a remainder of division that rounds down. -/
structure RoundedDown (x y quotient remainder : Int) : Prop where
  split : y * quotient + remainder = x
  within : 0 ≤ remainder ∧ remainder < y ∨ y < remainder ∧ remainder ≤ 0

namespace RoundedDown

variable {x y quotient remainder : Int}

/-- The quotient is the exact one, rounded down. -/
theorem floor (rounded : RoundedDown x y quotient remainder) : ⌊(x : ℚ) / y⌋ = quotient := by
  have split : (y : ℚ) * quotient + remainder = x := mod_cast rounded.split
  rw [Int.floor_eq_iff]
  rcases rounded.within with ⟨least, less⟩ | ⟨less, most⟩
  · have least : (0 : ℚ) ≤ remainder := mod_cast least
    have less : (remainder : ℚ) < y := mod_cast less
    have positive : (0 : ℚ) < y := least.trans_lt less
    rw [le_div_iff₀ positive, div_lt_iff₀ positive]
    constructor <;> linarith
  · have less : (y : ℚ) < remainder := mod_cast less
    have most : (remainder : ℚ) ≤ 0 := mod_cast most
    have negative : (y : ℚ) < 0 := less.trans_le most
    rw [le_div_iff_of_neg negative, div_lt_iff_of_neg negative]
    constructor <;> linarith

theorem sign (rounded : RoundedDown x y quotient remainder) :
    remainder = 0 ∨ remainder.sign = y.sign := by
  rcases rounded.within with ⟨least, less⟩ | ⟨less, most⟩
  · rcases Int.lt_or_eq_of_le least with positive | zero
    · exact .inr (by rw [Int.sign_eq_one_of_pos positive, Int.sign_eq_one_of_pos (by omega)])
    · exact .inl zero.symm
  · rcases Int.lt_or_eq_of_le most with negative | zero
    · exact .inr (by rw [Int.sign_eq_neg_one_of_neg negative,
        Int.sign_eq_neg_one_of_neg (by omega)])
    · exact .inl zero

theorem natAbs_lt (rounded : RoundedDown x y quotient remainder) :
    remainder.natAbs < y.natAbs := by
  have := rounded.within
  omega

/-- What division toward zero gives, put right by the two tests, is division that
rounds down. -/
theorem of_tdiv (nonzero : y ≠ 0) :
    RoundedDown x y
      (if x.tmod y ≠ 0 ∧ decide (x < 0) ≠ decide (y < 0) then x.tdiv y - 1 else x.tdiv y)
      (if x.tmod y ≠ 0 ∧ decide (x.tmod y < 0) ≠ decide (y < 0) then x.tmod y + y
        else x.tmod y) := by
  have split := Int.mul_tdiv_add_tmod x y
  have small : (x.tmod y).natAbs < y.natAbs := by
    rw [Int.natAbs_tmod]
    exact Nat.mod_lt _ (Int.natAbs_pos.2 nonzero)
  -- The remainder has the sign of the dividend, so the tests agree unless it is zero.
  have sign : 0 ≤ x ∧ 0 ≤ x.tmod y ∨ x < 0 ∧ x.tmod y ≤ 0 := by
    rcases Int.lt_or_le x 0 with negative | least
    · have mirrored := Int.tmod_nonneg y (show 0 ≤ -x by omega)
      rw [Int.neg_tmod] at mirrored
      exact .inr ⟨negative, by omega⟩
    · exact .inl ⟨least, Int.tmod_nonneg y least⟩
  generalize x.tdiv y = quotient at split ⊢
  generalize x.tmod y = remainder at split small sign ⊢
  have less : y * (quotient - 1) = y * quotient - y := mul_sub_one y quotient
  simp only [ne_eq, decide_eq_decide]
  refine ⟨?_, ?_⟩
  · split <;> split <;> omega
  · split <;> omega

end RoundedDown

/-! ## Division of words -/

/-- Each step of a division of signed words gives the number that it stands for, but for
the quotient of the least word by minus one. -/
structure DivisionFits (a b : Int16) : Prop where
  quotient : (a / b).toInt = a.toInt.tdiv b.toInt ↔ ¬(a.toInt = -32768 ∧ b.toInt = -1)
  remainder : (a % b).toInt = a.toInt.tmod b.toInt
  decrement : a % b ≠ 0 → decide (a < 0) ≠ decide (b < 0) →
    (a / b - 1).toInt = (a / b).toInt - 1
  increment : a % b ≠ 0 → decide (a % b < 0) ≠ decide (b < 0) →
    (a % b + b).toInt = (a % b).toInt + b.toInt

theorem divisionFits {a b : Int16} (nonzero : b ≠ 0) : DivisionFits a b := by
  have least := a.le_toInt
  have most := a.toInt_lt
  have least' := b.le_toInt
  have most' := b.toInt_lt
  have nonzero' : b.toInt ≠ 0 := fun zero => nonzero (Int16.toInt_inj.1 zero)
  have small : (a.toInt.tmod b.toInt).natAbs < b.toInt.natAbs := by
    rw [Int.natAbs_tmod]
    exact Nat.mod_lt _ (Int.natAbs_pos.2 nonzero')
  have remainder : (a % b).toInt = a.toInt.tmod b.toInt := Int16.toInt_mod a b
  have inexact : a % b ≠ 0 → (a % b).toInt ≠ 0 := fun other zero => other (Int16.toInt_inj.1 zero)
  refine ⟨?_, remainder, ?_, ?_⟩
  · constructor
    · rintro same ⟨isLeast, minusOne⟩
      rw [Int16.toInt_div, isLeast, minusOne] at same
      cases same
    · intro fits
      by_cases isLeast : a = Int16.minValue
      · refine Int16.toInt_div_of_ne_right a b fun minusOne => fits ⟨?_, ?_⟩
        · rw [isLeast]
          rfl
        · rw [minusOne]
          rfl
      · exact Int16.toInt_div_of_ne_left a b isLeast
  · intro other signs
    -- A divisor that leaves a remainder is at least two, so the quotient is small.
    have wide : 2 ≤ b.toInt.natAbs := by
      have := inexact other
      omega
    have half : (a.toInt.tdiv b.toInt).natAbs ≤ 16384 := by
      rw [Int.natAbs_tdiv]
      exact Nat.div_le_of_le_mul (by omega)
    have quotient : (a / b).toInt = a.toInt.tdiv b.toInt := by
      refine Int16.toInt_div_of_ne_right a b ?_
      rintro rfl
      exact absurd wide (by decide)
    rw [Int16.toInt_sub, quotient]
    exact Int.bmod_eq_of_le (by simp; omega) (by simp; omega)
  · intro other signs
    have := inexact other
    simp only [ne_eq, decide_eq_decide, Int16.lt_iff_toInt_lt, Int16.toInt_zero] at signs
    rw [Int16.toInt_add]
    exact Int.bmod_eq_of_le (by simp; omega) (by simp; omega)

theorem signedOfWord_inj {a b : UInt16} : signedOfWord a = signedOfWord b ↔ a = b := by
  constructor
  · intro same
    rw [← UInt16.toUInt16_toInt16 a, ← UInt16.toUInt16_toInt16 b, Int16.toInt_inj.1 same]
  · rintro rfl
    rfl

/-- A word is the residue of the number that it stands for. -/
theorem toNat_of_signedOfWord {word : UInt16} {x : Int}
    (stands : signedOfWord word = x.bmod (2 ^ 16)) : (word.toNat : Int) = x % 2 ^ 16 := by
  have signed : signedOfWord word = (word.toNat : Int).bmod (2 ^ 16) :=
    BitVec.toInt_eq_toNat_bmod word.toBitVec
  have residues : (word.toNat : Int) % (2 ^ 16 : Nat) = x % (2 ^ 16 : Nat) := by
    rw [← Int.bmod_emod, ← signed, stands, Int.bmod_emod]
  have less := word.toNat_lt
  omega

/-- Both tests are those of the numbers, the one of the quotient with the dividend for
`tested` and the one of the remainder with the remainder. -/
theorem DivisionFits.corrects_iff {a b : Int16} (fits : DivisionFits a b) (tested : Int16) :
    a % b ≠ 0 ∧ decide (tested < 0) ≠ decide (b < 0) ↔
      a.toInt.tmod b.toInt ≠ 0 ∧ decide (tested.toInt < 0) ≠ decide (b.toInt < 0) := by
  have sign (c : Int16) : decide (c < 0) = decide (c.toInt < 0) := by
    rw [decide_eq_decide, Int16.lt_iff_toInt_lt, Int16.toInt_zero]
  rw [sign, sign, ne_eq, ← Int16.toInt_inj, fits.remainder, Int16.toInt_zero]

/-- The quotient is computed as for numbers, unless it is the one that does not fit. -/
theorem exists_floorDiv {a b : UInt16} (nonzero : signedOfWord b ≠ 0)
    (fitting : ¬(signedOfWord a = -32768 ∧ signedOfWord b = -1)) :
    ∃ q, floorDiv a b = .ok q ∧ signedOfWord q =
      if (signedOfWord a).tmod (signedOfWord b) ≠ 0 ∧
          decide (signedOfWord a < 0) ≠ decide (signedOfWord b < 0)
        then (signedOfWord a).tdiv (signedOfWord b) - 1
        else (signedOfWord a).tdiv (signedOfWord b) := by
  have nonzero : b.toInt16 ≠ 0 := fun zero => nonzero (congrArg Int16.toInt zero)
  have fits : DivisionFits a.toInt16 b.toInt16 := divisionFits nonzero
  have quotient := fits.quotient.2 fitting
  have test := fits.corrects_iff a.toInt16
  simp only [floorDiv, if_neg nonzero]
  split
  next corrected =>
    refine ⟨_, rfl, (fits.decrement corrected.1 corrected.2).trans ?_⟩
    rw [quotient]
    exact (if_pos (test.1 corrected)).symm
  next uncorrected => exact ⟨_, rfl, quotient.trans (if_neg (mt test.2 uncorrected)).symm⟩

/-- The remainder is computed as for numbers. -/
theorem exists_floorMod {a b : UInt16} (nonzero : signedOfWord b ≠ 0) :
    ∃ r, floorMod a b = .ok r ∧ signedOfWord r =
      if (signedOfWord a).tmod (signedOfWord b) ≠ 0 ∧
          decide ((signedOfWord a).tmod (signedOfWord b) < 0) ≠ decide (signedOfWord b < 0)
        then (signedOfWord a).tmod (signedOfWord b) + signedOfWord b
        else (signedOfWord a).tmod (signedOfWord b) := by
  have nonzero : b.toInt16 ≠ 0 := fun zero => nonzero (congrArg Int16.toInt zero)
  have fits : DivisionFits a.toInt16 b.toInt16 := divisionFits nonzero
  have test := fits.corrects_iff (a.toInt16 % b.toInt16)
  rw [fits.remainder] at test
  simp only [floorMod, if_neg nonzero]
  split
  next corrected =>
    refine ⟨_, rfl, (fits.increment corrected.1 corrected.2).trans ?_⟩
    rw [fits.remainder]
    exact (if_pos (test.1 corrected)).symm
  next uncorrected =>
    exact ⟨_, rfl, fits.remainder.trans (if_neg (mt test.2 uncorrected)).symm⟩

/-- The words of a division are the numbers of one that rounds down, reduced to sixteen
bits.  They are these numbers themselves unless the least word is divided by minus one. -/
theorem exists_floorDiv_floorMod {a b : UInt16} (nonzero : signedOfWord b ≠ 0) :
    ∃ q r quotient, floorDiv a b = .ok q ∧ floorMod a b = .ok r ∧
      RoundedDown (signedOfWord a) (signedOfWord b) quotient (signedOfWord r) ∧
      signedOfWord q = quotient.bmod (2 ^ 16) ∧
      (¬(signedOfWord a = -32768 ∧ signedOfWord b = -1) → signedOfWord q = quotient) := by
  by_cases wraps : signedOfWord a = -32768 ∧ signedOfWord b = -1
  · obtain rfl : a = 0x8000 := signedOfWord_inj.1 wraps.1
    obtain rfl : b = 0xffff := signedOfWord_inj.1 wraps.2
    exact ⟨0x8000, 0, 32768, rfl, rfl, ⟨by decide, by decide⟩, by decide, absurd wraps⟩
  · obtain ⟨q, divided, quotient⟩ := exists_floorDiv nonzero wraps
    obtain ⟨r, left, remainder⟩ := exists_floorMod (a := a) nonzero
    have rounded := RoundedDown.of_tdiv (x := signedOfWord a) nonzero
    rw [← quotient, ← remainder] at rounded
    have fits : (signedOfWord q).bmod (2 ^ 16) = signedOfWord q :=
      Int16.toInt_bmod_size q.toInt16
    exact ⟨q, r, _, divided, left, rounded, fits.symm, fun _ => rfl⟩

/-- Division and remainder of words, read as signed numbers.  Both fail exactly when the
divisor is zero.  Otherwise the quotient is the exact one rounded down, reduced to
sixteen bits, and only that of the least word by minus one is altered by this.  The
remainder is the number that this quotient leaves.  It is zero or has the sign of the
divisor, and is the smaller of the two.  Quotient and remainder make up the dividend
again, and no step on the way but that one quotient leaves the range of words. -/
theorem division_rounds_down (a b : UInt16) :
    (floorDiv a b = .error .divisionByZero ↔ b = 0) ∧
      (floorMod a b = .error .divisionByZero ↔ b = 0) ∧
      (b ≠ 0 → ∃ q r, floorDiv a b = .ok q ∧ floorMod a b = .ok r ∧
        (q.toNat : Int) = ⌊(signedOfWord a : ℚ) / signedOfWord b⌋ % 2 ^ 16 ∧
        (signedOfWord q = ⌊(signedOfWord a : ℚ) / signedOfWord b⌋ ↔
          ¬(signedOfWord a = -32768 ∧ signedOfWord b = -1)) ∧
        signedOfWord r =
          signedOfWord a - signedOfWord b * ⌊(signedOfWord a : ℚ) / signedOfWord b⌋ ∧
        (signedOfWord r = 0 ∨ (signedOfWord r).sign = (signedOfWord b).sign) ∧
        |signedOfWord r| < |signedOfWord b| ∧
        q * b + r = a ∧
        DivisionFits a.toInt16 b.toInt16) := by
  have zero : floorDiv a 0 = .error .divisionByZero ∧ floorMod a 0 = .error .divisionByZero :=
    ⟨rfl, rfl⟩
  by_cases isZero : b = 0
  · subst isZero
    exact ⟨iff_of_true zero.1 rfl, iff_of_true zero.2 rfl, absurd rfl⟩
  · have nonzero : signedOfWord b ≠ 0 := fun zero => isZero (signedOfWord_inj.1 zero)
    obtain ⟨q, r, quotient, divided, left, rounded, reduced, fits⟩ :=
      exists_floorDiv_floorMod (a := a) nonzero
    have split := rounded.split
    rw [divided, left, rounded.floor]
    refine ⟨iff_of_false nofun isZero, iff_of_false nofun isZero, fun _ =>
      ⟨q, r, rfl, rfl, ?_, ⟨?_, fits⟩, by omega, rounded.sign, ?_, ?_,
        divisionFits fun zero => nonzero (congrArg Int16.toInt zero)⟩⟩
    · exact toNat_of_signedOfWord reduced
    · rintro same ⟨least, minusOne⟩
      have within := rounded.within
      rw [least, minusOne] at split
      rw [minusOne] at within
      obtain rfl : quotient = 32768 := by omega
      rw [same] at reduced
      cases reduced
    · have := rounded.natAbs_lt
      rw [Int.abs_eq_natAbs, Int.abs_eq_natAbs]
      exact mod_cast this
    · -- Modulo the number of words the reduced quotient is as good as the quotient.
      have product : signedOfWord (q * b + r) =
          (signedOfWord b * quotient + signedOfWord r).bmod (2 ^ 16) := by
        simp only [signedOfWord, UInt16.toInt16_add, UInt16.toInt16_mul, Int16.toInt_add,
          Int16.toInt_mul] at reduced ⊢
        rw [reduced, Int.bmod_mul_bmod, Int.bmod_add_bmod, Int.mul_comm]
      rw [← signedOfWord_inj, product, split]
      exact Int16.toInt_bmod_size a.toInt16

end StoryMachine
