import SchlagOS.Keyboard.Driver
import Mathlib.Algebra.GroupWithZero.Nat

/-!
# The modifiers

For each modifier the driver counts the keys that hold it, in `k_down`, and
keeps in `shift_state` which of the counters are not 0.  `do_shift` adjusts the
two for one key; `compute_shiftstate` takes them anew from the bitmap of the
keys that are down.
-/

namespace SchlagOS.Keyboard

open Foundation

variable {k k' : Driver} {keys : List Nat} {v value : Nat} {up : Bool}

/-- The modifier that a plain symbol stands for. -/
def shiftVal (sym : Nat) : Option Nat :=
  let sym := sym ^^^ 0xf000
  if ktyp sym = ktShift ∨ ktyp sym = ktSlock then
    some (if kval sym = kgCapsshift then kgShift else kval sym)
  else none

/-- The modifier of a key. -/
def shiftOf (keycode : Nat) : Option Nat := plainMap[keycode]?.bind shiftVal

/-- How many of the keys are down and hold the modifier. -/
def heldCount (down : Nat → Bool) (keys : List Nat) (v : Nat) : Nat :=
  keys.countP fun i => down i && decide (shiftOf i = some v)

theorem plainMap_length : plainMap.length = nrKeys := by decide +kernel

theorem plain_shiftVal : ∀ sym ∈ plainMap, ∀ v, shiftVal sym = some v → v < 4 := by
  have h : (plainMap.all fun sym => (shiftVal sym).all (· < 4)) = true := by decide +kernel
  intro sym hsym v hv
  have hall := List.all_eq_true.mp h sym hsym
  rw [hv] at hall
  simpa using hall

theorem shiftOf_lt {i : Nat} (h : shiftOf i = some v) : v < 4 := by
  obtain ⟨sym, hsym, hv⟩ := Option.bind_eq_some_iff.mp h
  exact plain_shiftVal sym (List.mem_of_getElem? hsym) v hv

/-- No modifier is on more than two keys. -/
theorem shiftOf_keys : ∀ v < 4,
    ((List.range nrKeys).countP fun i => decide (shiftOf i = some v)) ≤ 2 := by
  decide +kernel

theorem heldCount_high (down : Nat → Bool) (keys : List Nat) (hv : 4 ≤ v) :
    heldCount down keys v = 0 := by
  refine List.countP_eq_zero.mpr fun i _ hi => ?_
  rw [Bool.and_eq_true, decide_eq_true_eq] at hi
  have hlt := shiftOf_lt hi.2
  omega

theorem heldCount_le (down : Nat → Bool) (v : Nat) :
    heldCount down (List.range nrKeys) v ≤ 2 := by
  by_cases hv : v < 4
  · refine Nat.le_trans (List.countP_mono_left fun i _ hi => ?_) (shiftOf_keys v hv)
    rw [Bool.and_eq_true] at hi
    exact hi.2
  · rw [heldCount_high down _ (by omega)]
    omega

/-! ## The counters and their bits -/

/-- `shift_state` says which of the counters are not 0. -/
def Bits (k : Driver) : Prop := ∀ v, k.shiftState.testBit v = decide (k.kDown v ≠ 0)

theorem Bits.lt (h : Bits k) (hhigh : ∀ v, 4 ≤ v → k.kDown v = 0) : k.shiftState < 16 := by
  refine Nat.lt_pow_two_of_testBit (n := 4) k.shiftState fun i hi => ?_
  rw [h i, hhigh i hi]
  rfl

theorem bits_set (h : Bits k) {n : Nat} (hn : n ≠ 0) :
    Bits { k with
      kDown := Function.update k.kDown value n
      shiftState := k.shiftState ||| 1 <<< value } := by
  intro v
  dsimp only
  rw [Nat.testBit_or, h v, Nat.one_shiftLeft, Nat.testBit_two_pow]
  by_cases hv : v = value
  · subst hv
    simp [hn]
  · simp [hv, Ne.symm hv]

theorem testBit_clearBit (n flag i : Nat) :
    (clearBit n flag).testBit i = (n.testBit i && (decide (i < 32) ^^ decide (flag = i))) := by
  have hones : 0xffffffff = 2 ^ 32 - 1 := rfl
  rw [clearBit, hones, Nat.testBit_and, Nat.testBit_xor, Nat.testBit_two_pow_sub_one,
    Nat.one_shiftLeft, Nat.testBit_two_pow]

theorem bits_clear (h : Bits k) (hhigh : ∀ v, 4 ≤ v → k.kDown v = 0) (hvalue : value < 32) :
    Bits { k with
      kDown := Function.update k.kDown value 0
      shiftState := clearBit k.shiftState value } := by
  intro v
  dsimp only
  rw [testBit_clearBit, h v]
  by_cases hv : v = value
  · subst hv
    simp [hvalue]
  · by_cases hlt : v < 32
    · simp [hv, Ne.symm hv, hlt]
    · simp [hv, hhigh v (by omega)]

/-! ## compute_shiftstate -/

theorem countShift_eq (sym : Nat) (k : Driver) : countShift sym k =
    match shiftVal sym with
    | some val => do
        require (val < nrShift) .kDown
        return { k with
          kDown := Function.update k.kDown val ((k.kDown val + 1) % 256)
          shiftState := k.shiftState ||| 1 <<< val }
    | none => .ok k := by
  unfold countShift shiftVal
  dsimp only
  split <;> rfl

/-- What a recount of `keys` leaves. -/
structure Recounted (keys : List Nat) (k k' : Driver) : Prop where
  frame : k' = { k with
    kDown := fun v => k.kDown v + heldCount k.keyDown keys v, shiftState := k'.shiftState }
  bits : Bits k'

theorem recount (hkeys : ∀ i ∈ keys, i < nrKeys) (hbits : Bits k)
    (hroom : ∀ v, k.kDown v + heldCount k.keyDown keys v < 256) :
    Meets (keys.foldlM countKey k) (Recounted keys k) fun _ => False := by
  induction keys generalizing k with
  | nil => exact ⟨rfl, hbits⟩
  | cons i keys ih =>
      have hrest : ∀ j ∈ keys, j < nrKeys := fun j hj => hkeys j (List.mem_cons_of_mem _ hj)
      have hi : i < plainMap.length := by
        rw [plainMap_length]
        exact hkeys i List.mem_cons_self
      have hcount : ∀ v, heldCount k.keyDown (i :: keys) v =
          heldCount k.keyDown keys v +
            if k.keyDown i = true ∧ shiftOf i = some v then 1 else 0 := by
        intro v
        simp [heldCount, List.countP_cons]
      rw [List.foldlM_cons, countKey]
      by_cases hdown : k.keyDown i = true
      · rw [if_pos hdown, List.getElem?_eq_getElem hi, demand_some, ok_bind, countShift_eq]
        have hshift : shiftOf i = shiftVal plainMap[i] := by
          rw [shiftOf, List.getElem?_eq_getElem hi]
          rfl
        cases hval : shiftVal plainMap[i] with
        | none =>
            have hsame : ∀ v, heldCount k.keyDown (i :: keys) v = heldCount k.keyDown keys v := by
              intro v
              rw [hcount, hshift, hval]
              simp
            refine (ih hrest hbits fun v => ?_).mono (fun k' h => ⟨?_, h.bits⟩) fun _ he => he
            · rw [← hsame]
              exact hroom v
            · simpa only [hsame] using h.frame
        | some val =>
            have hlt : val < 4 := plain_shiftVal _ (List.getElem_mem hi) val hval
            have hstep : ∀ v, heldCount k.keyDown (i :: keys) v =
                heldCount k.keyDown keys v + if v = val then 1 else 0 := by
              intro v
              rw [hcount, hshift, hval]
              simp [hdown, eq_comm]
            have hval256 := hroom val
            rw [hstep, if_pos rfl] at hval256
            have hmod : (k.kDown val + 1) % 256 = k.kDown val + 1 := by omega
            dsimp only
            rw [require_pos (show val < nrShift by unfold nrShift; omega), ok_bind, hmod]
            have hadd : ∀ v, Function.update k.kDown val (k.kDown val + 1) v +
                heldCount k.keyDown keys v = k.kDown v + heldCount k.keyDown (i :: keys) v := by
              intro v
              rw [hstep]
              by_cases hv : v = val
              · subst hv
                simp
                omega
              · simp [hv]
            refine (ih hrest (bits_set hbits (Nat.succ_ne_zero _)) fun v => ?_).mono
              (fun k' h => ⟨?_, h.bits⟩) fun _ he => he
            · dsimp only
              rw [hadd]
              exact hroom v
            · simpa only [hadd] using h.frame
      · rw [if_neg hdown]
        have hsame : ∀ v, heldCount k.keyDown (i :: keys) v = heldCount k.keyDown keys v := by
          intro v
          rw [hcount]
          simp [hdown]
        refine (ih hrest hbits fun v => ?_).mono (fun k' h => ⟨?_, h.bits⟩) fun _ he => he
        · rw [← hsame]
          exact hroom v
        · simpa only [hsame] using h.frame

/-- The counters agree with the keys that are down. -/
def Exact (k : Driver) : Prop := k.kDown = heldCount k.keyDown (List.range nrKeys)

/-- Two states that differ in the counters and their bits only. -/
def Reshift (k k' : Driver) : Prop :=
  k' = { k with kDown := k'.kDown, shiftState := k'.shiftState }

/-- Whatever the counters were, they are right afterwards. -/
theorem computeShiftstate_meets (k : Driver) :
    Meets (computeShiftstate k) (fun k' => Reshift k k' ∧ Bits k' ∧ Exact k') fun _ => False := by
  have hbits : Bits { k with shiftState := 0, kDown := fun _ => 0 } := by
    intro v
    simp
  have hrange : ∀ i ∈ List.range nrKeys, i < nrKeys := fun i hi => List.mem_range.mp hi
  refine (recount hrange hbits fun v => ?_).mono (fun k' h => ?_) fun _ he => he
  · have hle := heldCount_le k.keyDown v
    dsimp only
    omega
  · have hframe := h.frame
    have hdown : k'.kDown = heldCount k.keyDown (List.range nrKeys) := by
      rw [hframe]
      funext v
      exact Nat.zero_add _
    have hkeys : k'.keyDown = k.keyDown := by rw [hframe]
    refine ⟨?_, h.bits, ?_⟩
    · rw [Reshift, hdown]
      rw [hframe]
      congr 1
      funext v
      exact Nat.zero_add _
    · rw [Exact, hdown, hkeys]

/-! ## do_shift -/

/-- The counter of a modifier behind one of its keys. -/
def shiftDown (up : Bool) (n : Nat) : Nat := if up then n - 1 else (n + 1) % 256

/-- `do_shift` for one of the four modifiers of the layout. -/
theorem doShift_meets (hbits : Bits k) (hhigh : ∀ v, 4 ≤ v → k.kDown v = 0) (hvalue : value < 4)
    (hrep : k.rep = false) :
    Meets (doShift value up k) (fun k' => Bits k' ∧
      k'.kDown = Function.update k.kDown value (shiftDown up (k.kDown value)) ∧
      k'.keyDown = k.keyDown ∧
      { k' with kDown := k.kDown, shiftState := k.shiftState, npadch := k.npadch,
                sent := k.sent } = k) fun _ => False := by
  have hcaps : value ≠ kgCapsshift := by
    unfold kgCapsshift
    omega
  unfold doShift
  rw [if_neg (by simp [hrep])]
  simp only [hcaps, false_and, if_false]
  rw [require_pos (show value < nrShift by unfold nrShift; omega), ok_bind]
  have hdown : (if up = true then k.kDown value - 1 else (k.kDown value + 1) % 256) =
      shiftDown up (k.kDown value) := rfl
  rw [hdown]
  have hshifted : Bits { k with
      kDown := Function.update k.kDown value (shiftDown up (k.kDown value))
      shiftState := if shiftDown up (k.kDown value) ≠ 0 then k.shiftState ||| 1 <<< value
        else clearBit k.shiftState value } := by
    by_cases hzero : shiftDown up (k.kDown value) = 0
    · rw [if_neg (not_not.mpr hzero), hzero]
      exact bits_clear hbits hhigh (by omega)
    · rw [if_pos hzero]
      exact bits_set hbits hzero
  refine meets_ite.mpr ⟨fun _ => ?_, fun _ => ⟨hshifted, rfl, rfl, rfl⟩⟩
  split
  · unfold toUtf8
    split
    · exact ⟨hshifted, rfl, rfl, rfl⟩
    · split <;> exact ⟨hshifted, rfl, rfl, rfl⟩
  · exact ⟨hshifted, rfl, rfl, rfl⟩

end SchlagOS.Keyboard
