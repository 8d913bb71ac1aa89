import SchlagOS.Foundation.Tables
import Mathlib.Tactic.IntervalCases

/-!
# The page tables

The directory in the image of the kernel, and the tables that `setup_pgtab` and
`setup_rodata` fill in before paging is switched on, with the read-only pages
protected from the kernel as well.
-/

namespace SchlagOS.Boot

open Foundation

variable {mem : Bytes} {a i j n x index eax edi : Nat}

def pgdir : Nat := 0x101000

def pgtab : Nat := 0x102000

/-- The entries of the directory that are not 0. -/
def directoryEntries : List Nat :=
  [0x102003, 0x103003, 0x104003, 0x105003, 0x106007, 0x107007, 0x108007, 0x109007, 0x10a007,
    0x10b007, 0x10c007, 0x10d007]

/-- The loop over the entries behind the first one; `edx` is the counter. -/
def pgtabLoop : Nat → Nat → Nat → Bytes → Bytes
  | 0, _, _, mem => mem
  | edx + 1, eax, edi, mem => pgtabLoop edx (eax + 4) (edi + 0x1000) (setLong mem eax edi)

/-- The loop of `setup_rodata`. -/
def rodataLoop : Nat → Nat → Bytes → Bytes
  | 0, _, mem => mem
  | turns + 1, index, mem =>
      rodataLoop turns (index + 1) (setLong mem (pgtab + 4 * index)
        ((getLong mem (pgtab + 4 * index) &&& 0xFFFFFFFFD) % 2 ^ 32))

def setupRodata (rodataStart rodataEnd : Nat) (mem : Bytes) : Bytes :=
  rodataLoop (rodataEnd / 2 ^ 12 - rodataStart / 2 ^ 12) (rodataStart / 2 ^ 12) mem

/-- `setup_pgtab` up to the instructions that switch paging on. -/
def setupPgtab (rodataStart rodataEnd : Nat) (mem : Bytes) : Bytes :=
  setupRodata rodataStart rodataEnd
    (pgtabLoop (12 * 1024 - 1) (pgtab + 4) 0x1007 (setLong mem pgtab 0))

/-- The image of the kernel in memory: the directory, and the section `.rodata` between the
start of the kernel and the user area. -/
structure Image where
  memory : Bytes
  rodataStart : Nat
  rodataEnd : Nat
  directory : ∀ k < 1024, getLong memory (pgdir + 4 * k) = directoryEntries.getD k 0
  kernel : 0x100000 ≤ rodataStart ∧ rodataEnd ≤ 0x1000000

/-- The memory when paging is switched on. -/
def Image.paged (image : Image) : Bytes :=
  setupPgtab image.rodataStart image.rodataEnd image.memory

/-! ## The loops -/

theorem pgtabLoop_outside (hx : x < eax ∨ eax + 4 * n ≤ x) :
    pgtabLoop n eax edi mem x = mem x := by
  induction n generalizing eax edi mem with
  | zero => rfl
  | succ n ih =>
      rw [pgtabLoop, ih (by omega)]
      exact setLong_of_outside (by omega)

theorem pgtabLoop_entry (hj : j < n) (hfits : edi + 0x1000 * n ≤ 2 ^ 32) :
    getLong (pgtabLoop n eax edi mem) (eax + 4 * j) = edi + 0x1000 * j := by
  induction n generalizing eax edi mem j with
  | zero => exact absurd hj (Nat.not_lt_zero j)
  | succ n ih =>
      rw [pgtabLoop]
      cases j with
      | zero =>
          rw [getLong_congr fun i hi => pgtabLoop_outside (by omega)]
          exact getLong_setLong mem eax (by omega)
      | succ j =>
          have haddress : eax + 4 * (j + 1) = eax + 4 + 4 * j := by omega
          rw [haddress, ih (Nat.lt_of_succ_lt_succ hj) (by omega)]
          omega

theorem rodataLoop_outside (hx : x < pgtab + 4 * index ∨ pgtab + 4 * (index + n) ≤ x) :
    rodataLoop n index mem x = mem x := by
  induction n generalizing index mem with
  | zero => rfl
  | succ n ih =>
      rw [rodataLoop, ih (by omega)]
      exact setLong_of_outside (by omega)

/-- The word that is written back with its bit 1 cleared. -/
theorem rodataLoop_entry (k : Nat) :
    getLong (rodataLoop n index mem) (pgtab + 4 * k) =
      if index ≤ k ∧ k < index + n then
        (getLong mem (pgtab + 4 * k) &&& 0xFFFFFFFFD) % 2 ^ 32
      else getLong mem (pgtab + 4 * k) := by
  induction n generalizing index mem with
  | zero => rw [if_neg (by omega), rodataLoop]
  | succ n ih =>
      rw [rodataLoop, ih]
      by_cases hk : k = index
      · rw [if_neg (by omega), if_pos (by omega), hk]
        exact getLong_setLong mem _ (Nat.mod_lt _ (by decide))
      · rw [getLong_setLong_of_disjoint (by omega)]
        by_cases hin : index + 1 ≤ k ∧ k < index + 1 + n
        · rw [if_pos hin, if_pos (by omega)]
        · rw [if_neg hin, if_neg (by omega)]

/-- An entry of the tables without its right to be written. -/
theorem clear_writable (hi : i < 2 ^ 20) :
    (2 ^ 12 * i + 7 &&& 0xFFFFFFFFD) % 2 ^ 32 = 2 ^ 12 * i + 5 := by
  have hword : 2 ^ 12 * i + 7 = 2 ^ 3 * (2 ^ 9 * i) + 7 := by omega
  have hmask : 0xFFFFFFFFD = 2 ^ 3 * (2 ^ 33 - 1) + 5 := rfl
  have hbits : 7 &&& 5 = 5 := rfl
  rw [hword, hmask, and_by_digit (by decide) (by decide), Nat.and_two_pow_sub_one_eq_mod, hbits]
  omega

/-! ## The tables -/

namespace Image

variable (image : Image)

/-- The pages that `setup_rodata` protects. -/
def ReadOnly (page : Nat) : Prop :=
  image.rodataStart / 2 ^ 12 ≤ page ∧ page < image.rodataEnd / 2 ^ 12

instance (page : Nat) : Decidable (image.ReadOnly page) := by
  unfold ReadOnly
  infer_instance

theorem paged_directory (hk : i < 1024) :
    getLong image.paged (pgdir + 4 * i) = directoryEntries.getD i 0 := by
  have hin := image.kernel
  rw [← image.directory i hk]
  apply getLong_congr
  intro b hb
  unfold paged setupPgtab setupRodata pgdir
  rw [rodataLoop_outside (by unfold pgtab; omega), pgtabLoop_outside (by unfold pgtab; omega)]
  exact setLong_of_outside (by unfold pgtab; omega)

theorem paged_table (hk : i < 12 * 1024) :
    getLong image.paged (pgtab + 4 * i) =
      if i = 0 then 0 else 2 ^ 12 * i + if image.ReadOnly i then 5 else 7 := by
  have hin := image.kernel
  have hentry : getLong (pgtabLoop (12 * 1024 - 1) (pgtab + 4) 0x1007
      (setLong image.memory pgtab 0)) (pgtab + 4 * i) = if i = 0 then 0 else 2 ^ 12 * i + 7 := by
    cases i with
    | zero =>
        rw [getLong_congr fun b hb => pgtabLoop_outside (by omega)]
        exact getLong_setLong _ _ (by decide)
    | succ j =>
        have haddress : pgtab + 4 * (j + 1) = pgtab + 4 + 4 * j := by omega
        rw [haddress, pgtabLoop_entry (by omega) (by omega), if_neg (Nat.succ_ne_zero j)]
        omega
  unfold paged setupPgtab setupRodata
  rw [rodataLoop_entry, hentry]
  by_cases hprotected : image.ReadOnly i
  · have hpositive : i ≠ 0 := by
      unfold ReadOnly at hprotected
      omega
    rw [if_pos (by unfold ReadOnly at hprotected; omega), if_neg hpositive, if_neg hpositive,
      if_pos hprotected]
    exact clear_writable (by omega)
  · rw [if_neg (by unfold ReadOnly at hprotected; omega), if_neg hprotected]

/-- The entries of the directory lead to twelve tables in a row. -/
private theorem directoryEntries_eq (hk : i < 12) :
    directoryEntries.getD i 0 = 2 ^ 12 * (0x102 + i) + if i < 4 then 3 else 7 := by
  revert i
  decide

private theorem upper_bits (c : Prop) [Decidable c] :
    (if c then 3 else 7).testBit 0 = true ∧ (if c then 3 else 7).testBit 1 = true ∧
      (if c then 3 else 7).testBit 2 = !decide c := by
  by_cases hc : c
  · simp only [hc]
    decide
  · simp only [hc]
    decide

private theorem lower_bits (c : Prop) [Decidable c] :
    (if c then 5 else 7).testBit 0 = true ∧ (if c then 5 else 7).testBit 1 = !decide c ∧
      (if c then 5 else 7).testBit 2 = true := by
  by_cases hc : c
  · simp only [hc]
    decide
  · simp only [hc]
    decide

/-- Every page below the end of the user area is mapped to itself, except for the first. -/
theorem walk_paged (ha : a < 2 ^ 32) :
    walk image.paged pgdir a =
      if 0x1000 ≤ a ∧ a < 0x3000000 then
        some ⟨a, decide (0x1000000 ≤ a), !decide (image.ReadOnly (a / 2 ^ 12))⟩
      else none := by
  by_cases hin : a < 0x3000000
  · have hrights : (if a / 2 ^ 22 < 4 then 3 else 7) < 2 ^ 12 := by split <;> omega
    have hupper : getLong image.paged (pgdir + 4 * (a / 2 ^ 22)) =
        2 ^ 12 * (0x102 + a / 2 ^ 22) + if a / 2 ^ 22 < 4 then 3 else 7 := by
      rw [image.paged_directory (by omega), directoryEntries_eq (by omega)]
    have haddress : 2 ^ 12 * (0x102 + a / 2 ^ 22) + 4 * (a / 2 ^ 12 % 2 ^ 10) =
        pgtab + 4 * (a / 2 ^ 12) := by
      unfold pgtab
      omega
    have hlower := image.paged_table (i := a / 2 ^ 12) (by omega)
    rw [← haddress] at hlower
    by_cases hfirst : a < 0x1000
    · rw [if_pos (by omega)] at hlower
      have habsent : getLong image.paged (2 ^ 12 * (0x102 + a / 2 ^ 22) +
          4 * (a / 2 ^ 12 % 2 ^ 10)) = 2 ^ 12 * 0 + 0 := hlower
      rw [walk_of_entries hupper habsent hrights (by decide), if_neg (by simp),
        if_neg (by omega)]
    · rw [if_neg (by omega)] at hlower
      obtain ⟨hupper0, hupper1, hupper2⟩ := upper_bits (a / 2 ^ 22 < 4)
      obtain ⟨hlower0, hlower1, hlower2⟩ := lower_bits (image.ReadOnly (a / 2 ^ 12))
      have hphysical : 2 ^ 12 * (a / 2 ^ 12) + a % 2 ^ 12 = a := Nat.div_add_mod a (2 ^ 12)
      have huser : (!decide (a / 2 ^ 22 < 4)) = decide (0x1000000 ≤ a) := by
        rw [← decide_not]
        exact decide_eq_decide.mpr (by omega)
      have hrange : 0x1000 ≤ a ∧ a < 0x3000000 := by omega
      rw [walk_of_entries hupper hlower hrights (by split <;> omega), if_pos ⟨hupper0, hlower0⟩,
        if_pos hrange, hphysical, hupper1, hlower1, hupper2, hlower2, huser, Bool.and_true,
        Bool.true_and]
  · have hentry := image.paged_directory (i := a / 2 ^ 22) (by omega)
    have hend : directoryEntries.length ≤ a / 2 ^ 22 := by
      have hlength : directoryEntries.length = 12 := rfl
      omega
    rw [List.getD_eq_default _ _ hend] at hentry
    rw [if_neg (by omega)]
    exact walk_of_absent (by rw [hentry]; rfl)

/-- The user area has no read-only page. -/
theorem writable_of_user {a : Nat} (ha : 0x1000000 ≤ a) : ¬image.ReadOnly (a / 2 ^ 12) := by
  have hin := image.kernel
  unfold ReadOnly
  omega

/-- The page of the directory and those of the twelve tables. -/
def InTables (p : Nat) : Prop := pgdir ≤ p ∧ p < pgtab + 12 * 0x1000

theorem paged_tables {a : Nat} (ha : a < 2 ^ 32) : TablesIn image.paged pgdir InTables a where
  upper i hi := by
    unfold InTables pgdir pgtab
    omega
  lower := by
    rw [image.paged_directory (by omega)]
    by_cases hin : a / 2 ^ 22 < 12
    · intro _ i hi
      rw [directoryEntries_eq hin]
      unfold InTables pgdir pgtab
      split <;> omega
    · have hend : directoryEntries.length ≤ a / 2 ^ 22 := Nat.le_of_not_lt hin
      rw [List.getD_eq_default _ _ hend]
      exact fun habsent => absurd habsent (by decide)

/-- The tables in memory are those of the image, whatever is around them. -/
def Maps (mem : Bytes) : Prop := ∀ p, InTables p → mem p = image.paged p

variable {image}

theorem Maps.translate_eq (h : image.Maps mem) (access : Access) (ha : a < 2 ^ 32) :
    translate mem pgdir access a = translate image.paged pgdir access a :=
  translate_congr (image.paged_tables ha) h access

end Image

/-- What an access does once paging is on: each page below the end of the user area is mapped to
itself, the first one apart; the user may only go to the user area, and nobody may write to
the section `.rodata`. -/
theorem paging_exact (image : Image) (access : Access) {p : Nat} (ha : a < 2 ^ 32) :
    translate image.paged pgdir access a = some p ↔
      p = a ∧ 0x1000 ≤ a ∧ a < 0x3000000 ∧ (access.user = true → 0x1000000 ≤ a) ∧
        (access.write = true → ¬image.ReadOnly (a / 2 ^ 12)) := by
  rw [translate_eq_some, image.walk_paged ha]
  constructor
  · rintro ⟨mapping, hwalk, ⟨huser, hwrite⟩, rfl⟩
    split_ifs at hwalk with hrange
    obtain rfl := Option.some.inj hwalk
    refine ⟨rfl, hrange.1, hrange.2, fun hu => ?_, fun hw => ?_⟩
    · exact of_decide_eq_true (huser hu)
    · simpa using hwrite hw
  · rintro ⟨rfl, hlow, hhigh, huser, hwrite⟩
    rw [if_pos ⟨hlow, hhigh⟩]
    refine ⟨_, rfl, ⟨fun hu => ?_, fun hw => ?_⟩, rfl⟩
    · exact decide_eq_true (huser hu)
    · simpa using hwrite hw

theorem directoryEntries_lt (k : Nat) : directoryEntries.getD k 0 < 2 ^ 32 := by
  have hall : ∀ e ∈ directoryEntries, e < 2 ^ 32 := by decide
  rw [List.getD_eq_getElem?_getD]
  cases hentry : directoryEntries[k]? with
  | none => decide
  | some e => exact hall e (List.mem_of_getElem? hentry)

/-- An image with its read-only section behind the tables. -/
def smallImage : Image where
  memory x :=
    if pgdir ≤ x then directoryEntries.getD ((x - pgdir) / 4) 0 / 2 ^ (8 * ((x - pgdir) % 4))
    else 0
  rodataStart := 0x10e000
  rodataEnd := 0x110000
  directory k _ := by
    have hcell : ∀ b < 4, (if pgdir ≤ pgdir + 4 * k + b then
        directoryEntries.getD ((pgdir + 4 * k + b - pgdir) / 4) 0 /
          2 ^ (8 * ((pgdir + 4 * k + b - pgdir) % 4)) else 0) =
        directoryEntries.getD k 0 / 2 ^ (8 * b) := by
      intro b hb
      have hword : (pgdir + 4 * k + b - pgdir) / 4 = k := by omega
      have hbyte : (pgdir + 4 * k + b - pgdir) % 4 = b := by omega
      rw [if_pos (by omega), hword, hbyte]
    have hsmall := directoryEntries_lt k
    have hfirst := hcell 0 (by decide)
    rw [Nat.add_zero] at hfirst
    unfold getLong
    dsimp only
    rw [hfirst, hcell 1 (by decide), hcell 2 (by decide), hcell 3 (by decide)]
    omega
  kernel := by decide

/-- A page of `.rodata` may be read by the kernel only, and not be written. -/
theorem paging_exact_rodata :
    translate smallImage.paged pgdir ⟨false, false⟩ 0x10f123 = some 0x10f123 ∧
      translate smallImage.paged pgdir ⟨false, true⟩ 0x10f123 ≠ some 0x10f123 := by
  refine ⟨(paging_exact smallImage _ (by decide)).mpr ?_, fun hwritten => ?_⟩
  · decide
  · have hexact := (paging_exact smallImage _ (by decide)).mp hwritten
    exact absurd hexact (by decide)

end SchlagOS.Boot
