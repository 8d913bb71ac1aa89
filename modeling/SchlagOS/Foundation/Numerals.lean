import Mathlib.Data.Nat.Digits.Lemmas

/-!
# Numerals

Numbers as they are written: the most significant digit first, and 0 with one
digit.  A numeral is read by Horner's rule.
-/

namespace SchlagOS.Foundation

variable {b u v : Nat} {digits : List Nat}

/-- The digits of `u`, the most significant one first. -/
def numeral (b u : Nat) : List Nat := if u = 0 then [0] else (Nat.digits b u).reverse

/-- Horner's rule behind the digits that gave `v`. -/
def horner (b v : Nat) (digits : List Nat) : Nat := digits.foldl (fun v d => v * b + d) v

@[simp] theorem horner_nil (b v : Nat) : horner b v [] = v := rfl

@[simp] theorem horner_cons (b v d : Nat) (digits : List Nat) :
    horner b v (d :: digits) = horner b (v * b + d) digits := rfl

theorem horner_zeros (b n : Nat) (digits : List Nat) :
    horner b 0 (List.replicate n 0 ++ digits) = horner b 0 digits := by
  induction n with
  | zero => rfl
  | succ n ih => rw [List.replicate_succ, List.cons_append, horner_cons, Nat.zero_mul, ih]

theorem horner_numeral (b u : Nat) : horner b 0 (numeral b u) = u := by
  unfold numeral
  split_ifs with hzero
  · rw [hzero, horner_cons, horner_nil, Nat.zero_mul]
  · rw [horner, List.foldl_reverse]
    calc (Nat.digits b u).foldr (fun d v => v * b + d) 0
        = Nat.ofDigits b (Nat.digits b u) := by
          rw [Nat.ofDigits_eq_foldr]
          simp only [Nat.cast_id, Nat.add_comm, Nat.mul_comm]
      _ = u := Nat.ofDigits_digits b u

/-- The digits read so far never give more than all of them. -/
theorem le_horner (hb : 0 < b) : v ≤ horner b v digits := by
  induction digits generalizing v with
  | nil => exact Nat.le_refl v
  | cons d digits ih =>
      calc v ≤ v * b + d := Nat.le_add_right_of_le (Nat.le_mul_of_pos_right v hb)
        _ ≤ horner b v (d :: digits) := ih

theorem numeral_ne_nil (b u : Nat) : numeral b u ≠ [] := by
  unfold numeral
  split_ifs with hu
  · simp
  · rw [ne_eq, List.reverse_eq_nil_iff]
    exact Nat.digits_ne_nil_iff_ne_zero.mpr hu

theorem numeral_lt (hb : 1 < b) {d : Nat} (hd : d ∈ numeral b u) : d < b := by
  unfold numeral at hd
  split at hd
  · rw [List.mem_singleton.mp hd]
    exact Nat.zero_lt_of_lt hb
  · exact Nat.digits_lt_base hb (List.mem_reverse.mp hd)

theorem numeral_length {k : Nat} (hb : 1 < b) (hk : 0 < k) (hu : u < b ^ k) :
    (numeral b u).length ≤ k := by
  unfold numeral
  split
  · exact hk
  · rw [List.length_reverse]
    exact (Nat.digits_length_le_iff hb u).mpr hu

theorem numeral_of_lt (hu : u < b) : numeral b u = [u] := by
  unfold numeral
  split_ifs with hzero
  · rw [hzero]
  · rw [Nat.digits_of_lt b u hzero hu]
    rfl

theorem numeral_of_le (hb : 1 < b) (hu : b ≤ u) :
    numeral b u = numeral b (u / b) ++ [u % b] := by
  have hpos : 0 < u := Nat.lt_of_lt_of_le (Nat.zero_lt_of_lt hb) hu
  have hdiv : u / b ≠ 0 := (Nat.div_pos hu (Nat.zero_lt_of_lt hb)).ne'
  rw [numeral, numeral, if_neg hpos.ne', if_neg hdiv, Nat.digits_def' hb hpos, List.reverse_cons]

/-- Only 0 starts with a 0. -/
theorem numeral_head (b : Nat) (hu : u ≠ 0) : (numeral b u).head? ≠ some 0 := by
  rw [numeral, if_neg hu, List.head?_reverse, List.getLast?_eq_some_getLast
    (Nat.digits_ne_nil_iff_ne_zero.mpr hu), ne_eq, Option.some_inj]
  exact Nat.getLast_digit_ne_zero b hu

end SchlagOS.Foundation
