import Mathlib.Data.Nat.Bitwise
import Mathlib.Logic.Function.Basic

/-!
# Memory behind page tables

Two levels of page tables of a 32-bit processor: how an address is translated,
which accesses are permitted, and when a program that may only store through
its tables cannot change them.
-/

namespace SchlagOS.Foundation

/-- The bytes of the physical memory. -/
abbrev Bytes := Nat → Nat

variable {mem mem' : Bytes} {a b v n directory : Nat}

/-! ## Words -/

/-- A word of four bytes, the lowest first. -/
def getLong (mem : Bytes) (a : Nat) : Nat :=
  mem a % 2 ^ 8 + 2 ^ 8 * (mem (a + 1) % 2 ^ 8) + 2 ^ 16 * (mem (a + 2) % 2 ^ 8) +
    2 ^ 24 * (mem (a + 3) % 2 ^ 8)

def setLong (mem : Bytes) (a v : Nat) : Bytes := fun x =>
  if a ≤ x ∧ x < a + 4 then v / 2 ^ (8 * (x - a)) % 2 ^ 8 else mem x

theorem getLong_lt (mem : Bytes) (a : Nat) : getLong mem a < 2 ^ 32 := by
  unfold getLong
  omega

theorem getLong_setLong (mem : Bytes) (a : Nat) (hv : v < 2 ^ 32) :
    getLong (setLong mem a v) a = v := by
  have hcell : ∀ i < 4, setLong mem a v (a + i) = v / 2 ^ (8 * i) % 2 ^ 8 := by
    intro i hi
    unfold setLong
    rw [if_pos ⟨Nat.le_add_right a i, by omega⟩, Nat.add_sub_cancel_left]
  have h0 := hcell 0 (by decide)
  rw [Nat.add_zero] at h0
  unfold getLong
  rw [h0, hcell 1 (by decide), hcell 2 (by decide), hcell 3 (by decide)]
  omega

/-- A store outside a range. -/
theorem setLong_of_outside {x : Nat} (hx : x < a ∨ a + 4 ≤ x) : setLong mem a v x = mem x :=
  if_neg (by omega)

theorem getLong_congr (h : ∀ i < 4, mem' (a + i) = mem (a + i)) :
    getLong mem' a = getLong mem a := by
  have h0 := h 0 (by decide)
  rw [Nat.add_zero] at h0
  unfold getLong
  rw [h0, h 1 (by decide), h 2 (by decide), h 3 (by decide)]

theorem getLong_setLong_of_disjoint (h : b + 4 ≤ a ∨ a + 4 ≤ b) :
    getLong (setLong mem a v) b = getLong mem b :=
  getLong_congr fun i hi => setLong_of_outside (by omega)

/-! ## The translation -/

/-- Where an address leads, whether the user may go there, and whether it may be written. -/
structure Mapping where
  physical : Nat
  user : Bool
  writable : Bool
  deriving DecidableEq, Repr

/-- An entry of the directory, then one of a table; both must be present, and both must
give a right. -/
def walk (mem : Bytes) (directory a : Nat) : Option Mapping :=
  let pde := getLong mem (directory + 4 * (a / 2 ^ 22))
  let pte := getLong mem (pde / 2 ^ 12 * 2 ^ 12 + 4 * (a / 2 ^ 12 % 2 ^ 10))
  if pde.testBit 0 ∧ pte.testBit 0 then
    some
      { physical := pte / 2 ^ 12 * 2 ^ 12 + a % 2 ^ 12
        user := pde.testBit 2 && pte.testBit 2
        writable := pde.testBit 1 && pte.testBit 1 }
  else none

theorem walk_of_absent (h : (getLong mem (directory + 4 * (a / 2 ^ 22))).testBit 0 = false) :
    walk mem directory a = none := by
  unfold walk
  dsimp only
  rw [h, if_neg (by simp)]

private theorem page_of_entry {page rights : Nat} (hrights : rights < 2 ^ 12) :
    (2 ^ 12 * page + rights) / 2 ^ 12 * 2 ^ 12 = 2 ^ 12 * page := by
  omega

private theorem testBit_entry (page : Nat) {rights : Nat} (hrights : rights < 2 ^ 12) {j : Nat}
    (hj : j < 12) : (2 ^ 12 * page + rights).testBit j = rights.testBit j := by
  rw [Nat.testBit_two_pow_mul_add _ hrights, if_pos hj]

/-- The translation from the pages and the rights in the two entries. -/
theorem walk_of_entries {table page upper lower : Nat}
    (hpde : getLong mem (directory + 4 * (a / 2 ^ 22)) = 2 ^ 12 * table + upper)
    (hpte : getLong mem (2 ^ 12 * table + 4 * (a / 2 ^ 12 % 2 ^ 10)) = 2 ^ 12 * page + lower)
    (hupper : upper < 2 ^ 12) (hlower : lower < 2 ^ 12) :
    walk mem directory a =
      if upper.testBit 0 ∧ lower.testBit 0 then
        some
          { physical := 2 ^ 12 * page + a % 2 ^ 12
            user := upper.testBit 2 && lower.testBit 2
            writable := upper.testBit 1 && lower.testBit 1 }
      else none := by
  unfold walk
  dsimp only
  rw [hpde, page_of_entry hupper, hpte, page_of_entry hlower]
  simp only [testBit_entry table hupper, testBit_entry page hlower, Nat.reduceLT]

structure Access where
  user : Bool
  write : Bool
  deriving DecidableEq, Repr

/-- The rule for a processor that write-protects pages from the supervisor too. -/
def Mapping.Permits (mapping : Mapping) (access : Access) : Prop :=
  (access.user = true → mapping.user = true) ∧ (access.write = true → mapping.writable = true)

instance (mapping : Mapping) (access : Access) : Decidable (mapping.Permits access) := by
  unfold Mapping.Permits
  infer_instance

/-- The physical address of an access; none is a page fault. -/
def translate (mem : Bytes) (directory : Nat) (access : Access) (a : Nat) : Option Nat :=
  match walk mem directory a with
  | some mapping => if mapping.Permits access then some mapping.physical else none
  | none => none

theorem translate_eq_some {access : Access} {p : Nat} :
    translate mem directory access a = some p ↔ ∃ mapping, walk mem directory a = some mapping ∧
      mapping.Permits access ∧ mapping.physical = p := by
  unfold translate
  cases walk mem directory a with
  | none => simp
  | some mapping => simp

/-! ## Tables out of reach -/

/-- The words that the translation of `a` needs lie among the bytes that satisfy `kept`. -/
structure TablesIn (mem : Bytes) (directory : Nat) (kept : Nat → Prop) (a : Nat) : Prop where
  upper : ∀ i < 4, kept (directory + 4 * (a / 2 ^ 22) + i)
  lower : (getLong mem (directory + 4 * (a / 2 ^ 22))).testBit 0 →
    ∀ i < 4, kept (getLong mem (directory + 4 * (a / 2 ^ 22)) / 2 ^ 12 * 2 ^ 12 +
      4 * (a / 2 ^ 12 % 2 ^ 10) + i)

/-- A translation only depends on the bytes of the tables. -/
theorem walk_congr {kept : Nat → Prop} (htables : TablesIn mem directory kept a)
    (h : ∀ x, kept x → mem' x = mem x) : walk mem' directory a = walk mem directory a := by
  have hpde := getLong_congr fun i hi => h _ (htables.upper i hi)
  by_cases hpresent : (getLong mem (directory + 4 * (a / 2 ^ 22))).testBit 0 = true
  · have hpte := getLong_congr fun i hi => h _ (htables.lower hpresent i hi)
    unfold walk
    dsimp only
    rw [hpde, hpte]
  · rw [Bool.not_eq_true] at hpresent
    rw [walk_of_absent hpresent, walk_of_absent (by rw [hpde, hpresent])]

theorem translate_congr {kept : Nat → Prop} (htables : TablesIn mem directory kept a)
    (h : ∀ x, kept x → mem' x = mem x) (access : Access) :
    translate mem' directory access a = translate mem directory access a := by
  unfold translate
  rw [walk_congr htables h]

theorem TablesIn.congr {kept : Nat → Prop} (htables : TablesIn mem directory kept a)
    (h : ∀ x, kept x → mem' x = mem x) : TablesIn mem' directory kept a where
  upper := htables.upper
  lower := by
    rw [getLong_congr fun i hi => h _ (htables.upper i hi)]
    exact htables.lower

theorem TablesIn.mono {kept kept' : Nat → Prop} (htables : TablesIn mem directory kept a)
    (h : ∀ x, kept x → kept' x) : TablesIn mem directory kept' a where
  upper i hi := h _ (htables.upper i hi)
  lower hpresent i hi := h _ (htables.lower hpresent i hi)

/-- At the addresses of `reach`, an access never leads to the bytes that satisfy `kept`, among
which the tables are. -/
structure Confined (mem : Bytes) (directory : Nat) (access : Access) (reach kept : Nat → Prop) :
    Prop where
  tables : ∀ a, reach a → TablesIn mem directory kept a
  apart : ∀ a, reach a → ∀ p, translate mem directory access a = some p → ¬kept p

theorem Confined.translate_eq {access access' : Access} {reach kept : Nat → Prop}
    (h : Confined mem directory access reach kept) (hkept : ∀ x, kept x → mem' x = mem x)
    (ha : reach a) : translate mem' directory access' a = translate mem directory access' a :=
  translate_congr (h.tables a ha) hkept access'

/-- A store of some bytes.  All of them are translated before the first one is written. -/
def store (directory : Nat) (access : Access) : Nat → List Nat → Bytes → Option Bytes
  | _, [], mem => some mem
  | a, v :: bytes, mem =>
      (translate mem directory access a).bind fun p =>
        (store directory access ((a + 1) % 2 ^ 32) bytes mem).map fun mem =>
          Function.update mem p (v % 2 ^ 8)

/-- A program keeps its hands off what it cannot reach, however often it stores. -/
theorem Confined.store {access : Access} {reach kept : Nat → Prop} {bytes : List Nat}
    (h : Confined mem directory access reach kept) (hkept : ∀ x, kept x → mem' x = mem x)
    (ha : ∀ i < bytes.length, reach ((a + i) % 2 ^ 32)) {after : Bytes} (ha32 : a < 2 ^ 32)
    (hstore : store directory access a bytes mem' = some after) :
    ∀ x, kept x → after x = mem x := by
  induction bytes generalizing a after with
  | nil =>
      cases hstore
      exact hkept
  | cons v bytes ih =>
      rw [Foundation.store, Option.bind_eq_some_iff] at hstore
      obtain ⟨p, hp, hrest⟩ := hstore
      rw [Option.map_eq_some_iff] at hrest
      obtain ⟨between, hbetween, rfl⟩ := hrest
      have hfirst : reach a := by
        have hreach := ha 0 (Nat.succ_pos _)
        rwa [Nat.add_zero, Nat.mod_eq_of_lt ha32] at hreach
      have hnext : ∀ i < bytes.length, reach (((a + 1) % 2 ^ 32 + i) % 2 ^ 32) := by
        intro i hi
        have hreach := ha (i + 1) (Nat.succ_lt_succ hi)
        rwa [Nat.mod_add_mod, Nat.add_right_comm, Nat.add_assoc]
      rw [h.translate_eq hkept hfirst] at hp
      have hapart := h.apart a hfirst p hp
      intro x hx
      have hne : x ≠ p := fun heq => hapart (heq ▸ hx)
      rw [Function.update_of_ne hne]
      exact ih hnext (Nat.mod_lt _ (by decide)) hbetween x hx

/-- Stores of a program, one after the other; the first page fault is the end of it. -/
def storeAll (directory : Nat) (access : Access) : List (Nat × List Nat) → Bytes → Option Bytes
  | [], mem => some mem
  | (a, bytes) :: writes, mem =>
      (store directory access a bytes mem).bind (storeAll directory access writes)

section StoreAll

variable {access : Access} {reach kept : Nat → Prop} {writes : List (Nat × List Nat)}

/-- The addresses of all bytes that are stored. -/
def Reaches (reach : Nat → Prop) (writes : List (Nat × List Nat)) : Prop :=
  ∀ write ∈ writes, write.1 < 2 ^ 32 ∧ ∀ i < write.2.length, reach ((write.1 + i) % 2 ^ 32)

theorem Confined.storeAll (h : Confined mem directory access reach kept)
    (hkept : ∀ x, kept x → mem' x = mem x) (hreach : Reaches reach writes) {after : Bytes}
    (hstores : storeAll directory access writes mem' = some after) :
    ∀ x, kept x → after x = mem x := by
  induction writes generalizing mem' with
  | nil =>
      cases hstores
      exact hkept
  | cons write writes ih =>
      obtain ⟨⟨ha32, ha⟩, hreach⟩ := List.forall_mem_cons.mp hreach
      obtain ⟨between, hfirst, hrest⟩ := Option.bind_eq_some_iff.mp hstores
      exact ih (h.store hkept ha ha32 hfirst) hreach hrest

end StoreAll

/-! ## Up to the first fault -/

section Guarded

variable {α : Type*} {stops good : α → Prop} {l m : List α} {x : α}

/-- Accesses in a row are good up to the first one that stops the program. -/
def Guarded (stops good : α → Prop) : List α → Prop
  | [] => True
  | x :: l => stops x ∨ good x ∧ Guarded stops good l

theorem Guarded.append (hl : Guarded stops good l)
    (hm : (∃ x ∈ l, stops x) ∨ Guarded stops good m) : Guarded stops good (l ++ m) := by
  induction l with
  | nil => exact hm.resolve_left (by simp)
  | cons x l ih =>
      rcases hl with hstops | ⟨hgood, hl⟩
      · exact .inl hstops
      · by_cases hstops : stops x
        · exact .inl hstops
        · refine .inr ⟨hgood, ih hl (hm.imp_left ?_)⟩
          rintro ⟨y, hy, hy'⟩
          rcases List.mem_cons.mp hy with rfl | hy
          · exact absurd hy' hstops
          · exact ⟨y, hy, hy'⟩

theorem Guarded.of_append (h : Guarded stops good (l ++ m)) (hl : ∀ y ∈ l, ¬stops y) :
    Guarded stops good m := by
  induction l with
  | nil => exact h
  | cons y l ih =>
      have hy := h.resolve_left (hl y List.mem_cons_self)
      exact ih hy.2 fun z hz => hl z (List.mem_cons_of_mem y hz)

theorem Guarded.good_or_stops (h : Guarded stops good (l ++ x :: m)) (hl : ∀ y ∈ l, ¬stops y) :
    good x ∨ stops x :=
  (h.of_append hl).symm.imp_left And.left

theorem Guarded.of_forall (h : ∀ x ∈ l, stops x ∨ good x) : Guarded stops good l := by
  induction l with
  | nil => trivial
  | cons x l ih =>
      rcases h x List.mem_cons_self with hstops | hgood
      · exact .inl hstops
      · exact .inr ⟨hgood, ih fun y hy => h y (List.mem_cons_of_mem x hy)⟩

end Guarded

end SchlagOS.Foundation
