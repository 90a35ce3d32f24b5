import Mathlib.Algebra.Group.Int.Defs
import Mathlib.Algebra.Group.Nat.Defs

/-!
# SigV4.Proofs.Word

Arithmetic on words of 64 bits from which nothing is lost.

* `checkedMul`, `checkedAdd`, `checkedShift` — product, sum and shift, if they fit into a word.
* `checkedNarrow`, `checkedShortMul` — a word as one of 32 bits, and the product of two of these.
* `checkedSigned` — a number as a word with a sign.
* `checkedJoin`  — two words laid over each other, if they share no bit.
* `highHalf`, `lowHalf` — the halves of a word, which `join_halves` puts next to each other.
-/

namespace SigV4

/-- The product, if it fits into a word. -/
def checkedMul (a b : UInt64) : Option UInt64 :=
  if a.toNat * b.toNat < 2 ^ 64 then some (a * b) else none

/-- The sum, if it fits into a word. -/
def checkedAdd (a b : UInt64) : Option UInt64 :=
  if a.toNat + b.toNat < 2 ^ 64 then some (a + b) else none

/-- The shifted word, if no bit is shifted out of it. -/
def checkedShift (a n : UInt64) : Option UInt64 :=
  if a.toNat * 2 ^ n.toNat < 2 ^ 64 then some (a <<< n) else none

/-- Both words in one, if they share no bit. -/
def checkedJoin (a b : UInt64) : Option UInt64 :=
  if a &&& b = 0 then some (a ||| b) else none

/-- One factor is given as a number, so that a constant is not in the way of arithmetic. -/
theorem checkedMul_of_lt {a b : UInt64} {n : Nat} (hb : b.toNat = n) (h : a.toNat * n < 2 ^ 64) :
    checkedMul a b = some (a * b) ∧ (a * b).toNat = a.toNat * n := by
  subst hb
  refine ⟨if_pos h, ?_⟩
  rw [UInt64.toNat_mul, Nat.mod_eq_of_lt h]

theorem checkedAdd_of_lt {a b : UInt64} {n : Nat} (hb : b.toNat = n) (h : a.toNat + n < 2 ^ 64) :
    checkedAdd a b = some (a + b) ∧ (a + b).toNat = a.toNat + n := by
  subst hb
  refine ⟨if_pos h, ?_⟩
  rw [UInt64.toNat_add, Nat.mod_eq_of_lt h]

/-! ## Other words -/

/-- The word as one of 32 bits, if it fits. -/
def checkedNarrow (w : UInt64) : Option UInt32 :=
  if w.toNat < 2 ^ 32 then some w.toUInt32 else none

/-- The product of words of 32 bits, if it fits into one. -/
def checkedShortMul (a b : UInt32) : Option UInt32 :=
  if a.toNat * b.toNat < 2 ^ 32 then some (a * b) else none

/-- The number as a word with a sign, if it fits. -/
def checkedSigned (n : Int) : Option Int64 :=
  if -2 ^ 63 ≤ n ∧ n < 2 ^ 63 then some (.ofInt n) else none

theorem checkedNarrow_of_lt {w : UInt64} (h : w.toNat < 2 ^ 32) :
    checkedNarrow w = some w.toUInt32 ∧ w.toUInt32.toNat = w.toNat := by
  refine ⟨if_pos h, ?_⟩
  rw [UInt64.toNat_toUInt32, Nat.mod_eq_of_lt h]

theorem checkedShortMul_of_lt {a b : UInt32} {n : Nat} (hb : b.toNat = n)
    (h : a.toNat * n < 2 ^ 32) :
    checkedShortMul a b = some (a * b) ∧ (a * b).toNat = a.toNat * n := by
  subst hb
  refine ⟨if_pos h, ?_⟩
  rw [UInt32.toNat_mul, Nat.mod_eq_of_lt h]

theorem checkedSigned_of_lt {n : Int} (h : -2 ^ 63 ≤ n) (h' : n < 2 ^ 63) :
    checkedSigned n = some (.ofInt n) ∧ (Int64.ofInt n).toInt = n :=
  ⟨if_pos ⟨h, h'⟩, Int64.toInt_ofInt_of_le h h'⟩

theorem checkedSigned_of_le {n : Int} (h : 2 ^ 63 ≤ n) : checkedSigned n = none :=
  if_neg fun hin => Int.not_lt.2 h hin.2

/-! ## Halves -/

def highHalf (w : UInt64) : UInt64 := w >>> 32

def lowHalf (w : UInt64) : UInt64 := w &&& 0xFFFFFFFF

theorem toNat_highHalf (w : UInt64) : (highHalf w).toNat = w.toNat / 2 ^ 32 := by
  have hshift : (32 : UInt64).toNat % 64 = 32 := rfl
  rw [highHalf, UInt64.toNat_shiftRight, hshift, Nat.shiftRight_eq_div_pow]

theorem toNat_lowHalf (w : UInt64) : (lowHalf w).toNat = w.toNat % 2 ^ 32 := by
  have hmask : (0xFFFFFFFF : UInt64).toNat = 2 ^ 32 - 1 := rfl
  rw [lowHalf, UInt64.toNat_and, hmask, Nat.and_two_pow_sub_one_eq_mod]

section Join

variable {high low : UInt64}

theorem toNat_shift_half (h : high.toNat < 2 ^ 32) :
    (high <<< 32).toNat = high.toNat * 2 ^ 32 := by
  have hshift : (32 : UInt64).toNat % 64 = 32 := rfl
  rw [UInt64.toNat_shiftLeft, hshift, Nat.shiftLeft_eq, Nat.mod_eq_of_lt (by omega)]

theorem checkedShift_half (h : high.toNat < 2 ^ 32) :
    checkedShift high 32 = some (high <<< 32) := by
  have hshift : (32 : UInt64).toNat = 32 := rfl
  rw [checkedShift, hshift, if_pos (by omega)]

/-- Two halves next to each other. -/
theorem join_halves (h : high.toNat < 2 ^ 32) (hlow : low.toNat < 2 ^ 32) :
    checkedJoin (high <<< 32) low = some (high <<< 32 ||| low) ∧
      (high <<< 32 ||| low).toNat = high.toNat * 2 ^ 32 + low.toNat := by
  constructor
  · refine if_pos (UInt64.toNat_inj.1 ?_)
    rw [UInt64.toNat_and, toNat_shift_half h, ← Nat.shiftLeft_eq]
    apply Nat.eq_of_testBit_eq
    intro i
    rw [Nat.testBit_and, Nat.testBit_shiftLeft]
    by_cases hi : 32 ≤ i
    · have hbound : low.toNat < 2 ^ i :=
        Nat.lt_of_lt_of_le hlow (Nat.pow_le_pow_right (by decide) hi)
      rw [Nat.testBit_lt_two_pow hbound, Bool.and_false]
      exact (Nat.zero_testBit i).symm
    · rw [decide_eq_false hi, Bool.false_and, Bool.false_and]
      exact (Nat.zero_testBit i).symm
  · rw [UInt64.toNat_or, toNat_shift_half h, ← Nat.shiftLeft_eq,
      ← Nat.shiftLeft_add_eq_or_of_lt hlow]

end Join

end SigV4
