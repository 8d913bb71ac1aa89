import SchlagOS.Foundation.Paging

/-!
# Tables in memory

Words that are put together from bit fields, and loops that fill a table with
them entry by entry.
-/

namespace SchlagOS.Foundation

variable {mem : Bytes} {u v q p x i j k n : Nat}

/-! ## Bit fields -/

theorem and_by_digit (hu : u < 2 ^ i) (hv : v < 2 ^ i) :
    2 ^ i * q + u &&& 2 ^ i * p + v = 2 ^ i * (q &&& p) + (u &&& v) := by
  have huv : u &&& v < 2 ^ i := Nat.and_lt_two_pow u hv
  apply Nat.eq_of_testBit_eq
  intro j
  rw [Nat.testBit_and, Nat.testBit_two_pow_mul_add _ hu, Nat.testBit_two_pow_mul_add _ hv,
    Nat.testBit_two_pow_mul_add _ huv]
  split <;> simp

/-- The field of `n` bits from bit `i` on, left where it is. -/
theorem and_field (x i n : Nat) : x &&& 2 ^ i * (2 ^ n - 1) = 2 ^ i * (x / 2 ^ i % 2 ^ n) := by
  have hsplit := and_by_digit (q := x / 2 ^ i) (p := 2 ^ n - 1)
    (Nat.mod_lt x (Nat.two_pow_pos i)) (Nat.two_pow_pos i)
  rwa [Nat.div_add_mod, Nat.add_zero, Nat.and_zero, Nat.add_zero,
    Nat.and_two_pow_sub_one_eq_mod] at hsplit

/-- A field behind the bits that are already there. -/
theorem or_field (hu : u < 2 ^ i) : u ||| 2 ^ i * q = u + 2 ^ i * q := by
  rw [Nat.or_comm, ← Nat.two_pow_add_eq_or_of_lt hu, Nat.add_comm]

/-! ## Filling -/

def memset (mem : Bytes) (a n : Nat) : Bytes := fun x => if a ≤ x ∧ x < a + n then 0 else mem x

theorem memset_outside {a : Nat} (hx : x < a ∨ a + n ≤ x) : memset mem a n x = mem x :=
  if_neg (by omega)

theorem getLong_memset {a : Nat} (hlow : a ≤ x) (hhigh : x + 4 ≤ a + n) :
    getLong (memset mem a n) x = 0 := by
  have hcell : ∀ b < 4, memset mem a n (x + b) = 0 := fun b hb => if_pos (by omega)
  have hfirst := hcell 0 (by decide)
  rw [Nat.add_zero] at hfirst
  unfold getLong
  rw [hfirst, hcell 1 (by decide), hcell 2 (by decide), hcell 3 (by decide)]
  rfl

/-- `n` turns of a loop whose counter starts at `i`. -/
def forLoop (body : Nat → Bytes → Bytes) : Nat → Nat → Bytes → Bytes
  | 0, _, mem => mem
  | n + 1, i, mem => forLoop body n (i + 1) (body i mem)

variable {body : Nat → Bytes → Bytes} {P : Bytes → Prop}

theorem forLoop_keeps (h : P mem)
    (hkeeps : ∀ k mem, i ≤ k → k < i + n → P mem → P (body k mem)) :
    P (forLoop body n i mem) := by
  induction n generalizing i mem with
  | zero => exact h
  | succ n ih =>
      refine ih (hkeeps i mem (Nat.le_refl i) (by omega) h) ?_
      exact fun k mem hlow hhigh => hkeeps k mem (by omega) (by omega)

/-- What one turn does and the others keep. -/
theorem forLoop_sets (hlow : i ≤ j) (hhigh : j < i + n) (hsets : ∀ mem, P (body j mem))
    (hkeeps : ∀ k mem, k < i + n → k ≠ j → P mem → P (body k mem)) :
    P (forLoop body n i mem) := by
  induction n generalizing i mem with
  | zero => omega
  | succ n ih =>
      rw [forLoop]
      by_cases hfirst : j = i
      · subst hfirst
        refine forLoop_keeps (hsets mem) fun k mem hk hk' => ?_
        exact hkeeps k mem (by omega) (by omega)
      · refine ih (by omega) (by omega) ?_
        exact fun k mem hk => hkeeps k mem (by omega)

end SchlagOS.Foundation
