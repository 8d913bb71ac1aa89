import SchlagOS.Foundation.Outcome
import Mathlib.Data.Nat.Log
import Mathlib.Tactic.Ring

/-!
# Division of 64-bit numbers

`do_div64` divides with the 64-by-32-bit instruction of the processor.  A
divisor of more than 32 bits is cut to its 32 leading bits, the quotient is
estimated with the next larger divisor, and what is missing is added by a loop.
-/

namespace SchlagOS.Div64

open Foundation

/-- The exception of the instruction `div`. -/
inductive Trap where
  | divideError
  deriving DecidableEq, Repr

/-- The instruction `bsr`, of a number that is not 0. -/
def hardBsr (n : Nat) : Nat := Nat.log2 n

/-- The low word of a number that is shifted to the right.  The shift instructions take the
count modulo 32, and the count 32 is looked for by itself. -/
def rshift64_32 (x1 x0 n : Nat) : Nat :=
  let x0 := ((x1 * 2 ^ 32 + x0) >>> (n % 32)) % 2 ^ 32
  if n.testBit 5 then x1 else x0

def rshift64 (x1 x0 n : Nat) : Nat × Nat :=
  let x0 := ((x1 * 2 ^ 32 + x0) >>> (n % 32)) % 2 ^ 32
  let x1 := x1 >>> (n % 32)
  if n.testBit 5 then (0, x1) else (x1, x0)

/-- The instruction `divl`: the remainder and the quotient, which must fit a word. -/
def div64_32 (x1 x0 y : Nat) : Except Trap (Nat × Nat) := do
  require (x1 < y) .divideError
  return ((x1 * 2 ^ 32 + x0) % y, (x1 * 2 ^ 32 + x0) / y)

/-- The loop that corrects the quotient; it is only run with a divisor above 0. -/
def correct (y x0 r : Nat) : Nat × Nat :=
  if 0 < y ∧ y ≤ r then correct y ((x0 + 1) % 2 ^ 32) (r - y) else (x0, r)
termination_by r

/-- The quotient and the remainder of two 64-bit numbers. -/
def doDiv64 (x y : Nat) : Except Trap (Nat × Nat) :=
  let y1 := y / 2 ^ 32
  let y0 := y % 2 ^ 32
  let x1 := x / 2 ^ 32
  let x0 := x % 2 ^ 32
  if y1 ≠ 0 then do
    let l := hardBsr y1 + 1
    let y0 := rshift64_32 y1 y0 l
    let shifted := rshift64 x1 x0 l
    let estimate ← div64_32 shifted.1 shifted.2 ((y0 + 1) % 2 ^ 32)
    return correct y estimate.2 ((x + 2 ^ 64 - y * estimate.2 % 2 ^ 64) % 2 ^ 64)
  else if x1 < y0 then do
    let result ← div64_32 x1 x0 y0
    return (result.2, result.1)
  else if y0 ≠ 0 then do
    let high ← div64_32 0 x1 y0
    let low ← div64_32 high.1 x0 y0
    return (high.2 * 2 ^ 32 + low.2, low.1)
  else return (0, x)

/-! ## The estimate -/

variable {x y t l q r n : Nat}

/-- The dividend cut down, by the divisor cut down and increased, is not more than the quotient. -/
theorem estimate_le (hy : 0 < y) (ht : 0 < t) : x / t / (y / t + 1) ≤ x / y := by
  have hdivisor : y ≤ t * (y / t + 1) := Nat.le_of_lt (Nat.lt_mul_div_succ y ht)
  rw [Nat.le_div_iff_mul_le hy]
  calc x / t / (y / t + 1) * y
      ≤ x / t / (y / t + 1) * (t * (y / t + 1)) := Nat.mul_le_mul_left _ hdivisor
    _ = x / t / (y / t + 1) * (y / t + 1) * t := by ring
    _ ≤ x / t * t := Nat.mul_le_mul_right _ (Nat.div_mul_le_self _ _)
    _ ≤ x := Nat.div_mul_le_self x t

/-- The loop divides. -/
theorem correct_eq (hy : 0 < y) (hfits : q + r / y < 2 ^ 32) :
    correct y q r = (q + r / y, r % y) := by
  induction r using Nat.strong_induction_on generalizing q with
  | _ r ih =>
      rw [correct]
      by_cases hle : y ≤ r
      · have hdiv : r / y = (r - y) / y + 1 := Nat.div_eq_sub_div hy hle
        have hturn : 1 ≤ r / y := (Nat.one_le_div_iff hy).mpr hle
        have hnext : (q + 1) % 2 ^ 32 = q + 1 := Nat.mod_eq_of_lt (by omega)
        have hrest := ih (r - y) (by omega) (q := q + 1) (by omega)
        rw [if_pos ⟨hy, hle⟩, hnext, hrest, Nat.mod_eq_sub_mod hle, hdiv]
        congr 1
        omega
      · rw [if_neg fun h => hle h.2, Nat.div_eq_of_lt (by omega), Nat.mod_eq_of_lt (by omega)]
        rfl

/-! ## The shifts -/

theorem words_eq (x : Nat) : x / 2 ^ 32 * 2 ^ 32 + x % 2 ^ 32 = x := Nat.div_add_mod' x (2 ^ 32)

/-- A shift by the number of the bits in the high word. -/
theorem rshift64_32_eq (hl : l ≤ 32) (hy : y < 2 ^ (32 + l)) :
    rshift64_32 (y / 2 ^ 32) (y % 2 ^ 32) l = y / 2 ^ l := by
  unfold rshift64_32
  dsimp only
  rw [words_eq, Nat.shiftRight_eq_div_pow]
  rcases Nat.lt_or_ge l 32 with hlt | hge
  · have hbit : l.testBit 5 = false := Nat.testBit_lt_two_pow (by omega)
    have hword : y / 2 ^ l < 2 ^ 32 := by
      rw [Nat.div_lt_iff_lt_mul (Nat.two_pow_pos l), ← pow_add]
      exact hy
    rw [hbit, if_neg Bool.false_ne_true, Nat.mod_eq_of_lt hlt, Nat.mod_eq_of_lt hword]
  · have hl32 : l = 32 := by omega
    rw [hl32]
    rfl

theorem rshift64_eq (hl : l ≤ 32) (x : Nat) :
    (rshift64 (x / 2 ^ 32) (x % 2 ^ 32) l).1 * 2 ^ 32 +
      (rshift64 (x / 2 ^ 32) (x % 2 ^ 32) l).2 = x / 2 ^ l := by
  unfold rshift64
  dsimp only
  rw [words_eq, Nat.shiftRight_eq_div_pow, Nat.shiftRight_eq_div_pow]
  rcases Nat.lt_or_ge l 32 with hlt | hge
  · have hbit : l.testBit 5 = false := Nat.testBit_lt_two_pow (by omega)
    rw [hbit, if_neg Bool.false_ne_true, Nat.mod_eq_of_lt hlt, Nat.div_div_eq_div_mul,
      Nat.mul_comm (2 ^ 32), ← Nat.div_div_eq_div_mul]
    exact words_eq (x / 2 ^ l)
  · have hl32 : l = 32 := by omega
    have hbit : Nat.testBit 32 5 = true := by decide
    rw [hl32]
    simp [hbit]

/-- At least one bit of the high word goes. -/
theorem rshift64_high (hpos : 0 < l) (hl : l ≤ 32) (hx : x < 2 ^ 64) :
    (rshift64 (x / 2 ^ 32) (x % 2 ^ 32) l).1 < 2 ^ 31 := by
  have hhigh : x / 2 ^ 32 < 2 ^ 32 := by omega
  unfold rshift64
  dsimp only
  rcases Nat.lt_or_ge l 32 with hlt | hge
  · have hbit : l.testBit 5 = false := Nat.testBit_lt_two_pow (by omega)
    have htwo : 2 ^ 1 ≤ 2 ^ l := Nat.pow_le_pow_right (by omega) hpos
    rw [hbit, if_neg Bool.false_ne_true, Nat.mod_eq_of_lt hlt, Nat.shiftRight_eq_div_pow]
    calc x / 2 ^ 32 / 2 ^ l ≤ x / 2 ^ 32 / 2 ^ 1 := Nat.div_le_div_left htwo (by decide)
      _ < 2 ^ 31 := by omega
  · have hl32 : l = 32 := by omega
    have hbit : Nat.testBit 32 5 = true := by decide
    rw [hl32, hbit]
    exact Nat.two_pow_pos 31

/-! ## The quotient -/

theorem words_split (high low w y : Nat) :
    high * w + low = high % y * w + low + y * (high / y * w) := by
  calc high * w + low = (high / y * y + high % y) * w + low := by rw [Nat.div_add_mod']
    _ = high % y * w + low + y * (high / y * w) := by ring

/-- Two words divided one after the other. -/
theorem div_words (hy : 0 < y) (high low w : Nat) :
    (high * w + low) / y = high / y * w + (high % y * w + low) / y := by
  rw [words_split high low w y, Nat.add_mul_div_left _ _ hy, Nat.add_comm]

theorem mod_words (high low w : Nat) :
    (high * w + low) % y = (high % y * w + low) % y := by
  rw [words_split high low w y, Nat.add_mul_mod_self_left]

/-- A divisor whose 32 leading bits are all set. -/
def LeadingOnes (y : Nat) : Prop :=
  2 ^ 32 ≤ y ∧ y / 2 ^ (hardBsr (y / 2 ^ 32) + 1) = 2 ^ 32 - 1

instance (y : Nat) : Decidable (LeadingOnes y) := by
  unfold LeadingOnes
  infer_instance

/-- The leading bits of a divisor of more than 32 bits. -/
theorem leading_bounds (hy : 2 ^ 32 ≤ y) (hy64 : y < 2 ^ 64) :
    0 < hardBsr (y / 2 ^ 32) + 1 ∧ hardBsr (y / 2 ^ 32) + 1 ≤ 32 ∧
      y < 2 ^ (32 + (hardBsr (y / 2 ^ 32) + 1)) ∧
        2 ^ 31 ≤ y / 2 ^ (hardBsr (y / 2 ^ 32) + 1) := by
  have hne : y / 2 ^ 32 ≠ 0 := by
    have hpos := Nat.div_pos hy (Nat.two_pow_pos 32)
    omega
  have hhigh : y / 2 ^ 32 < 2 ^ 32 := by
    rw [Nat.div_lt_iff_lt_mul (Nat.two_pow_pos 32), ← pow_add]
    exact hy64
  have hlog : Nat.log2 (y / 2 ^ 32) < 32 := (Nat.log2_lt hne).mpr hhigh
  have hbelow : 2 ^ Nat.log2 (y / 2 ^ 32) ≤ y / 2 ^ 32 := Nat.log2_self_le hne
  have habove : y / 2 ^ 32 < 2 ^ (Nat.log2 (y / 2 ^ 32) + 1) := Nat.lt_log2_self
  unfold hardBsr
  refine ⟨Nat.succ_pos _, hlog, ?_, ?_⟩
  · rwa [Nat.div_lt_iff_lt_mul (Nat.two_pow_pos 32), ← pow_add, Nat.add_comm] at habove
  · rw [Nat.le_div_iff_mul_le (Nat.two_pow_pos _), ← pow_add]
    rw [Nat.le_div_iff_mul_le (Nat.two_pow_pos 32), ← pow_add] at hbelow
    convert hbelow using 2
    omega

/-- A divisor of more than 32 bits. -/
theorem doDiv64_large (hx : x < 2 ^ 64) (hy : 2 ^ 32 ≤ y) (hy64 : y < 2 ^ 64) :
    doDiv64 x y = if LeadingOnes y then .error .divideError else .ok (x / y, x % y) := by
  obtain ⟨hpos, hl, hbits, hleading⟩ := leading_bounds hy hy64
  have hy1 : y / 2 ^ 32 ≠ 0 := by omega
  have hshift := rshift64_32_eq hl hbits
  have hword : y / 2 ^ (hardBsr (y / 2 ^ 32) + 1) < 2 ^ 32 := by
    rwa [Nat.div_lt_iff_lt_mul (Nat.two_pow_pos _), ← pow_add]
  have hdividend := rshift64_eq hl x
  have hhigh := rshift64_high hpos hl hx
  unfold doDiv64
  dsimp only
  rw [if_pos hy1, hshift]
  by_cases hones : LeadingOnes y
  · -- The divisor wraps around to 0.
    rw [if_pos hones, hones.2]
    rfl
  · rw [if_neg hones]
    have hneg : y / 2 ^ (hardBsr (y / 2 ^ 32) + 1) ≠ 2 ^ 32 - 1 := fun h => hones ⟨hy, h⟩
    generalize hardBsr (y / 2 ^ 32) + 1 = l at *
    have hnext : (y / 2 ^ l + 1) % 2 ^ 32 = y / 2 ^ l + 1 := Nat.mod_eq_of_lt (by omega)
    have hfits : (rshift64 (x / 2 ^ 32) (x % 2 ^ 32) l).1 < y / 2 ^ l + 1 := by omega
    have hypos : 0 < y := by omega
    have hestimate : x / 2 ^ l / (y / 2 ^ l + 1) ≤ x / y := estimate_le hypos (Nat.two_pow_pos l)
    have hproduct : y * (x / 2 ^ l / (y / 2 ^ l + 1)) ≤ x := by
      rw [Nat.mul_comm]
      exact (Nat.le_div_iff_mul_le hypos).mp hestimate
    have hquotient : x / y < 2 ^ 32 := by
      rw [Nat.div_lt_iff_lt_mul hypos]
      omega
    rw [hnext, div64_32, require_pos hfits, ok_bind, pure_eq_ok,
      ok_bind, hdividend]
    dsimp only
    generalize x / 2 ^ l / (y / 2 ^ l + 1) = q at *
    have hrest : (x + 2 ^ 64 - y * q % 2 ^ 64) % 2 ^ 64 = x - y * q := by
      rw [Nat.mod_eq_of_lt (Nat.lt_of_le_of_lt hproduct hx)]
      omega
    have hturns : (x - y * q) / y = x / y - q := Nat.sub_mul_div x y q
    have hremainder : (x - y * q) % y = x % y := Nat.sub_mul_mod hproduct
    rw [hrest, correct_eq hypos (by omega), hturns, hremainder, Nat.add_sub_cancel' hestimate]
    rfl

/-- A divisor of one word that is greater than the high word of the dividend, or not. -/
theorem doDiv64_small (hy : y < 2 ^ 32) :
    doDiv64 x y = .ok (x / y, x % y) := by
  have hy1 : y / 2 ^ 32 = 0 := Nat.div_eq_of_lt hy
  have hy0 : y % 2 ^ 32 = y := Nat.mod_eq_of_lt hy
  unfold doDiv64
  dsimp only
  rw [hy1, hy0, if_neg (by decide)]
  by_cases hone : x / 2 ^ 32 < y
  · rw [if_pos hone, div64_32, require_pos hone, ok_bind, pure_eq_ok, ok_bind, words_eq]
    rfl
  · rw [if_neg hone]
    rcases Nat.eq_zero_or_pos y with rfl | hpos
    · rw [if_neg fun h => h rfl, Nat.div_zero, Nat.mod_zero]
      rfl
    · have hhigh : x / 2 ^ 32 % y < y := Nat.mod_lt _ hpos
      rw [if_pos (by omega), div64_32, require_pos hpos, ok_bind, pure_eq_ok, ok_bind, Nat.zero_mul,
        Nat.zero_add, div64_32, require_pos hhigh, ok_bind, pure_eq_ok, ok_bind]
      dsimp only
      rw [← div_words hpos, ← mod_words, words_eq]
      rfl

/-- `do_div64` divides, and a division by 0 leaves the dividend; it traps where the next larger
divisor of one word is none, that is, where the 32 leading bits of the divisor are all set. -/
theorem doDiv64_divides (hx : x < 2 ^ 64) (hy : y < 2 ^ 64) :
    doDiv64 x y = if LeadingOnes y then .error .divideError else .ok (x / y, x % y) := by
  rcases Nat.lt_or_ge y (2 ^ 32) with hsmall | hlarge
  · rw [if_neg fun h => absurd h.1 (not_le.mpr hsmall)]
    exact doDiv64_small hsmall
  · exact doDiv64_large hx hlarge hy

/-- An hour in nanoseconds: divided by twelve seconds, by more than itself, and by a divisor whose
leading bits are set. -/
theorem doDiv64_divides_hour : doDiv64 3600000000000 12000000000 = .ok (300, 0) ∧
    doDiv64 3600000000000 4294967295000000000 = .ok (0, 3600000000000) ∧
      doDiv64 3600000000000 0xffffffff00000000 = .error .divideError := by
  have hdivide := @doDiv64_divides 3600000000000
  refine ⟨?_, ?_, ?_⟩
  · rw [hdivide (by decide) (by decide), if_neg (by decide)]
  · rw [hdivide (by decide) (by decide), if_neg (by decide)]
  · rw [hdivide (by decide) (by decide), if_pos (by decide)]

end SchlagOS.Div64
