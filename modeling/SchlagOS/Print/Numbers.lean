import SchlagOS.Print.Formats
import Mathlib.Data.Int.ModEq

/-!
# Numbers in text

`strtol` and `strtoul`, and what they make of the numbers that `_doprnt` puts
out.  A string is the list of its bytes in front of the terminating 0, and what
is left of it stands for `*out_p`.
-/

namespace SchlagOS.Print

open Foundation

/-! ## strtol and strtoul -/

def isspace (c : Nat) : Bool :=
  decide (c = 32 ∨ c = 12 ∨ c = 10 ∨ c = 13 ∨ c = 9 ∨ c = 11)

/-- The digit `c` in a base. -/
def digitValue (base : Int) (c : Nat) : Option Nat :=
  if 48 ≤ c ∧ c ≤ 57 ∧ ((c - 48 : Nat) : Int) < base then some (c - 48)
  else if 97 ≤ c ∧ c ≤ 122 ∧ ((c - 97 + 10 : Nat) : Int) < base then some (c - 97 + 10)
  else if 65 ≤ c ∧ c ≤ 90 ∧ ((c - 65 + 10 : Nat) : Int) < base then some (c - 65 + 10)
  else none

/-- The loop over the digits; `wrap` is the arithmetic of the result's type. -/
def readDigits (wrap : Int → Int) (base : Int) : Int → List Nat → Int × List Nat
  | v, [] => (v, [])
  | v, c :: p =>
      match digitValue base c with
      | some x => readDigits wrap base (wrap (v * base + x)) p
      | none => (v, c :: p)

def hexPrefix (p : List Nat) : Bool :=
  decide (p.head? = some 48 ∧ (p.tail.head? = some 120 ∨ p.tail.head? = some 88))

/-- What `strtol` and `strtoul` have in common: the base and the digits. -/
def strtox (wrap : Int → Int) (p : List Nat) (base : Int) : Int × List Nat :=
  if (base = 16 ∨ base = 0) ∧ hexPrefix p = true then readDigits wrap 16 0 (p.drop 2)
  else if base = 0 then readDigits wrap (if p.head? = some 48 then 8 else 10) 0 p
  else readDigits wrap base 0 p

def wrapLong (v : Int) : Int := v.bmod 0x100000000

def wrapUnsigned (v : Int) : Int := v % 0x100000000

def strtol (p : List Nat) (base : Int) : Int × List Nat :=
  let p := p.dropWhile isspace
  -- A `+` is looked for, but it is not skipped.
  if p.head? = some 45 then
    let number := strtox wrapLong p.tail base
    (wrapLong (-number.1), number.2)
  else strtox wrapLong p base

def strtoul (p : List Nat) (base : Int) : Int × List Nat :=
  strtox wrapUnsigned (p.dropWhile isspace) base

/-! ## Digits -/

variable {b u v : Nat} {d : Directive} {behind : List Nat} {wrap : Int → Int}

def digitChar (x : Nat) : Nat := if x < 10 then 48 + x else 87 + x

theorem digitChars_get {x : Nat} (hx : x < 16) : digitChars[x]? = some (digitChar x) := by
  revert x
  decide

theorem digitValue_char {x : Nat} (hb : b ≤ 16) (hx : x < b) :
    digitValue b (digitChar x) = some x := by
  unfold digitValue digitChar
  split
  · have hvalue : 48 + x - 48 = x := by omega
    rw [hvalue, if_pos ⟨by omega, by omega, by omega⟩]
  · have hvalue : 87 + x - 97 + 10 = x := by omega
    rw [if_neg (by omega), hvalue, if_pos ⟨by omega, by omega, by omega⟩]

theorem buildDigits_eq (hb : 1 < b) (hb16 : b ≤ 16) {cells : Nat} (hcells : 0 < cells)
    (hu : u < b ^ cells) :
    buildDigits b cells u = .ok ((numeral b u).map digitChar) := by
  induction cells generalizing u with
  | zero => exact absurd hcells (Nat.lt_irrefl 0)
  | succ cells ih =>
      have hmod : u % b < 16 := Nat.lt_of_lt_of_le (Nat.mod_lt u (by omega)) hb16
      have hchar : demand digitChars[u % b]? Fault.digits = .ok (digitChar (u % b)) := by
        rw [digitChars_get hmod, demand_some]
      rw [buildDigits, require_pos (by omega), ok_bind, hchar, ok_bind]
      by_cases hlast : u / b = 0
      · have hsmall : u < b := (Nat.div_eq_zero_iff_lt (by omega)).mp hlast
        rw [if_pos hlast, numeral_of_lt hsmall, Nat.mod_eq_of_lt hsmall]
        rfl
      · have hlarge : b ≤ u := not_lt.mp fun h => hlast (Nat.div_eq_of_lt h)
        have hdiv : u / b < b ^ cells := by
          rw [Nat.div_lt_iff_lt_mul (by omega)]
          rwa [pow_succ] at hu
        have hcells : 0 < cells := by
          rcases Nat.eq_zero_or_pos cells with rfl | hpos
          · exact absurd (Nat.lt_one_iff.mp hdiv) hlast
          · exact hpos
        rw [if_neg hlast, ih hcells hdiv, ok_bind, numeral_of_le hb hlarge, List.map_append]
        rfl

/-- Arithmetic that wraps around may do so after each digit or once at the end. -/
def Wraps (wrap : Int → Int) : Prop :=
  wrap 0 = 0 ∧ ∀ v b x : Int, wrap (wrap v * b + x) = wrap (v * b + x)

theorem wrapLong_wraps : Wraps wrapLong := by
  refine ⟨by decide, fun v b x => ?_⟩
  unfold wrapLong
  rw [← Int.bmod_add_bmod, Int.bmod_mul_bmod, Int.bmod_add_bmod]

theorem wrapUnsigned_wraps : Wraps wrapUnsigned := by
  refine ⟨by decide, fun v b x => ?_⟩
  exact ((Int.mod_modEq v 0x100000000).mul_right b).add_right x

theorem readDigits_horner (hwrap : Wraps wrap) (hb : b ≤ 16) {digits : List Nat}
    (hdigits : ∀ x ∈ digits, x < b)
    (hbehind : Opens behind fun c => digitValue b c = none) :
    readDigits wrap b (wrap v) (digits.map digitChar ++ behind) =
      (wrap (horner b v digits : Nat), behind) := by
  induction digits generalizing v with
  | nil =>
      cases behind with
      | nil => rfl
      | cons c behind =>
          rw [List.map_nil, List.nil_append, readDigits, hbehind c rfl]
          rfl
  | cons x digits ih =>
      have hx := digitValue_char hb (hdigits x List.mem_cons_self)
      have ih := ih (v := v * b + x) fun y hy => hdigits y (List.mem_cons_of_mem x hy)
      rw [List.map_cons, List.cons_append, readDigits, hx, horner_cons, ← ih, Nat.cast_add,
        Nat.cast_mul, ← hwrap.2]

/-! ## Numbers as they are printed -/

def signText (signChar : Nat) : List Nat := if signChar ≠ 0 then [signChar] else []

theorem signText_zero : signText 0 = [] := rfl

theorem signText_blank : signText 32 = [32] := rfl

theorem signText_minus : signText 45 = [45] := rfl

def prefixText (altfmt : Bool) (b u : Nat) : List Nat :=
  if u ≠ 0 ∧ altfmt = true then if b = 8 then [48] else if b = 16 then [48, 120] else [] else []

def zerosDigits (zeros b u : Nat) : List Nat := List.replicate zeros 0 ++ numeral b u

/-- A printed number without its blanks and its sign. -/
def body (altfmt : Bool) (zeros b u : Nat) (behind : List Nat) : List Nat :=
  prefixText altfmt b u ++ ((zerosDigits zeros b u).map digitChar ++ behind)

/-- What the counters of a conversion are, so that none overflows. -/
structure Moderate (d : Directive) : Prop where
  length : 0 ≤ d.length
  prec : -0x7fffff00 ≤ d.prec ∧ d.prec ≤ 0x7fffff00

theorem printNum_ok (hb : 1 < b) (hb16 : b ≤ 16) (hu : u < 0x100000000) (hd : Moderate d)
    (signChar : Nat) : ∃ blanks zeros trailing out, printNum d b signChar u = .ok out ∧
      ∀ behind, out ++ behind = List.replicate blanks 32 ++ (signText signChar ++
        body d.altfmt zeros b u (List.replicate trailing 32 ++ behind)) := by
  have hpow : u < b ^ 32 := Nat.lt_of_lt_of_le hu (Nat.pow_le_pow_left hb 32)
  have hdigits := buildDigits_eq hb hb16 (by decide : 0 < maxbuf) hpow
  have hlength : ((numeral b u).map digitChar).length ≤ 32 := by
    rw [List.length_map]
    exact numeral_length hb (by decide) hpow
  have hsign : (signText signChar).length ≤ 1 := by
    unfold signText
    split <;> simp
  have hpre : (prefixText d.altfmt b u).length ≤ 2 := by
    unfold prefixText
    split_ifs <;> simp
  obtain ⟨hnonneg, hlow, hhigh⟩ := hd
  rw [printNum, hdigits, ok_bind]
  dsimp only
  rw [require_pos, ok_bind]
  · refine ⟨?_, (d.prec - ((numeral b u).map digitChar).length).toNat + ?_, ?_, _, rfl,
      fun behind => ?_⟩
    rotate_left 3
    · rw [body, zerosDigits, List.map_append, List.map_replicate,
        ← List.replicate_append_replicate]
      simp only [List.append_assoc]
      rfl
  · change -0x80000000 < d.prec - _ ∧ -0x80000000 ≤ d.length - _ -
      ((signText signChar).length : Int) - ((prefixText d.altfmt b u).length : Int) - _ - _
    constructor
    · omega
    · split <;> omega

/-! ## Reading a printed number -/

/-- `c` is neither a digit nor a letter. -/
def Stops (c : Nat) : Prop := digitValue 36 c = none

instance (c : Nat) : Decidable (Stops c) := inferInstanceAs (Decidable (digitValue 36 c = none))

theorem stops_iff (c : Nat) :
    Stops c ↔ ¬(48 ≤ c ∧ c ≤ 57) ∧ ¬(97 ≤ c ∧ c ≤ 122) ∧ ¬(65 ≤ c ∧ c ≤ 90) := by
  unfold Stops digitValue
  constructor
  · intro h
    split_ifs at h with h1 h2 h3
    omega
  · rintro ⟨h1, h2, h3⟩
    rw [if_neg (by omega), if_neg (by omega), if_neg (by omega)]

theorem Stops.digitValue {c : Nat} (h : Stops c) (b : Int) : digitValue b c = none := by
  obtain ⟨h1, h2, h3⟩ := (stops_iff c).mp h
  rw [Print.digitValue, if_neg (by omega), if_neg (by omega), if_neg (by omega)]

theorem digitChar_range {x : Nat} (hx : x < 16) :
    48 ≤ digitChar x ∧ digitChar x ≤ 57 ∨ 97 ≤ digitChar x ∧ digitChar x ≤ 102 := by
  unfold digitChar
  split <;> omega

theorem digitChar_not_space {x : Nat} (hx : x < 16) : isspace (digitChar x) = false := by
  have h := digitChar_range hx
  unfold isspace
  exact decide_eq_false (by omega)

theorem hexPrefix_digits {digits : List Nat} (hdigits : ∀ x ∈ digits, x < 16)
    (hne : digits ≠ []) (hbehind : Opens behind Stops) :
    hexPrefix (digits.map digitChar ++ behind) = false := by
  refine decide_eq_false fun h => ?_
  obtain ⟨-, hx⟩ := h
  cases digits with
  | nil => exact hne rfl
  | cons x digits =>
      rw [List.map_cons, List.cons_append, List.tail_cons] at hx
      cases digits with
      | nil =>
          rcases hx with hx | hx <;> exact absurd (hbehind _ hx) (by decide)
      | cons y digits =>
          have hy := digitChar_range (hdigits y (by simp))
          simp only [List.map_cons, List.cons_append, List.head?_cons, Option.some_inj] at hx
          omega

theorem strtox_digits (hwrap : Wraps wrap) (hb : 1 < b) (hb16 : b ≤ 16) {digits : List Nat}
    (hdigits : ∀ x ∈ digits, x < b) (hne : digits ≠ []) (hbehind : Opens behind Stops) :
    strtox wrap (digits.map digitChar ++ behind) b =
      (wrap (horner b 0 digits : Nat), behind) := by
  have hread := readDigits_horner (v := 0) hwrap hb16 hdigits
    fun c hc => (hbehind c hc).digitValue b
  have hhex := hexPrefix_digits (fun x hx => Nat.lt_of_lt_of_le (hdigits x hx) hb16) hne hbehind
  rw [Nat.cast_zero, hwrap.1] at hread
  rw [strtox, hhex, if_neg (fun h => Bool.false_ne_true h.2), if_neg (by omega), hread]

theorem strtox_hex (hwrap : Wraps wrap) {digits : List Nat} (hdigits : ∀ x ∈ digits, x < 16)
    (hbehind : Opens behind Stops) :
    strtox wrap (48 :: 120 :: (digits.map digitChar ++ behind)) 16 =
      (wrap (horner 16 0 digits : Nat), behind) := by
  have hread := readDigits_horner (b := 16) (v := 0) hwrap (Nat.le_refl 16) hdigits
    fun c hc => (hbehind c hc).digitValue 16
  rw [Nat.cast_zero, hwrap.1] at hread
  rw [strtox, if_pos ⟨Or.inl rfl, decide_eq_true ⟨rfl, Or.inl rfl⟩⟩]
  exact hread

theorem zerosDigits_lt (hb : 1 < b) (zeros u : Nat) : ∀ x ∈ zerosDigits zeros b u, x < b := by
  intro x hx
  rcases List.mem_append.mp hx with hx | hx
  · rw [List.eq_of_mem_replicate hx]
    omega
  · exact numeral_lt hb hx

theorem zerosDigits_ne_nil (zeros b u : Nat) : zerosDigits zeros b u ≠ [] :=
  fun h => numeral_ne_nil b u (List.append_eq_nil_iff.mp h).2

theorem horner_zerosDigits (zeros b u : Nat) : horner b 0 (zerosDigits zeros b u) = u := by
  rw [zerosDigits, horner_zeros, horner_numeral]

/-- The digits are read behind their prefix, in whatever base they have been printed. -/
theorem strtox_printed (hwrap : Wraps wrap) (hb : 1 < b) (hb16 : b ≤ 16) (altfmt : Bool)
    (zeros u : Nat) (hbehind : Opens behind Stops) :
    strtox wrap (prefixText altfmt b u ++ ((zerosDigits zeros b u).map digitChar ++ behind)) b =
      (wrap u, behind) := by
  have hlt := zerosDigits_lt hb zeros u
  have hplain := strtox_digits hwrap hb hb16 hlt (zerosDigits_ne_nil zeros b u) hbehind
  rw [horner_zerosDigits] at hplain
  unfold prefixText
  split_ifs with halt h8 h16
  · -- One more digit 0.
    have hall : ∀ x ∈ 0 :: zerosDigits zeros b u, x < b :=
      List.forall_mem_cons.mpr ⟨by omega, hlt⟩
    have hzero := strtox_digits hwrap hb hb16 hall (List.cons_ne_nil _ _) hbehind
    rw [horner_cons, Nat.zero_mul, horner_zerosDigits] at hzero
    exact hzero
  · subst h16
    have hhex := strtox_hex hwrap hlt hbehind
    rw [horner_zerosDigits] at hhex
    exact hhex
  · exact hplain
  · exact hplain

theorem dropWhile_blanks (n : Nat) (p : List Nat) :
    (List.replicate n 32 ++ p).dropWhile isspace = p.dropWhile isspace := by
  induction n with
  | zero => rfl
  | succ n ih => exact ih

theorem dropWhile_opens {p : List Nat} (hp : Opens p fun c => isspace c = false) :
    p.dropWhile isspace = p := by
  cases p with
  | nil => rfl
  | cons c p => rw [List.dropWhile_cons, hp c rfl, if_neg Bool.false_ne_true]

theorem body_opens (hb : 1 < b) (hb16 : b ≤ 16) (altfmt : Bool) (zeros u : Nat)
    (behind : List Nat) :
    Opens (body altfmt zeros b u behind) fun c => isspace c = false ∧ c ≠ 45 := by
  have hdigits : Opens ((zerosDigits zeros b u).map digitChar ++ behind)
      fun c => isspace c = false ∧ c ≠ 45 := by
    have hlt := zerosDigits_lt hb zeros u
    cases hcases : zerosDigits zeros b u with
    | nil => exact absurd hcases (zerosDigits_ne_nil zeros b u)
    | cons x digits =>
        have hx : x < 16 := Nat.lt_of_lt_of_le (hlt x (hcases ▸ List.mem_cons_self)) hb16
        have hrange := digitChar_range hx
        exact opens_cons ⟨digitChar_not_space hx, by omega⟩
  unfold body prefixText
  split_ifs
  · exact opens_cons (by decide)
  · exact opens_cons (by decide)
  · exact hdigits
  · exact hdigits

theorem strtoul_printed (hb : 1 < b) (hb16 : b ≤ 16) (blanks : Nat) (altfmt : Bool)
    (zeros u : Nat) (hbehind : Opens behind Stops) :
    strtoul (List.replicate blanks 32 ++ body altfmt zeros b u behind) b =
      (wrapUnsigned u, behind) := by
  have hopens := body_opens hb hb16 altfmt zeros u behind
  rw [strtoul, dropWhile_blanks, dropWhile_opens fun c hc => (hopens c hc).1]
  exact strtox_printed wrapUnsigned_wraps hb hb16 altfmt zeros u hbehind

theorem strtol_printed (hb : 1 < b) (hb16 : b ≤ 16) (blanks : Nat) (altfmt : Bool)
    (zeros u : Nat) (hbehind : Opens behind Stops) :
    strtol (List.replicate blanks 32 ++ body altfmt zeros b u behind) b =
      (wrapLong u, behind) := by
  have hopens := body_opens hb hb16 altfmt zeros u behind
  have hminus : (body altfmt zeros b u behind).head? ≠ some 45 :=
    fun h => (hopens 45 h).2 rfl
  rw [strtol, dropWhile_blanks, dropWhile_opens fun c hc => (hopens c hc).1, if_neg hminus]
  exact strtox_printed wrapLong_wraps hb hb16 altfmt zeros u hbehind

theorem strtol_printed_minus (hb : 1 < b) (hb16 : b ≤ 16) (blanks : Nat) (altfmt : Bool)
    (zeros u : Nat) (hbehind : Opens behind Stops) :
    strtol (List.replicate blanks 32 ++ 45 :: body altfmt zeros b u behind) b =
      (wrapLong (-wrapLong u), behind) := by
  have hminus : isspace 45 = false := by decide
  rw [strtol, dropWhile_blanks, dropWhile_opens (opens_cons hminus), if_pos List.head?_cons, List.tail_cons,
    body, strtox_printed wrapLong_wraps hb hb16 altfmt zeros u hbehind]

/-! ## Numbers behind each other -/

/-- The letters of a number: whether it has a sign, and its base. -/
def numeric (letter : Nat) : Option (Bool × Nat) :=
  if letter = 111 ∨ letter = 79 then some (false, 8)
  else if letter = 100 ∨ letter = 105 ∨ letter = 68 then some (true, 10)
  else if letter = 117 ∨ letter = 85 then some (false, 10)
  else if letter = 120 ∨ letter = 88 then some (false, 16)
  else if letter = 122 ∨ letter = 90 then some (true, 16)
  else none

/-- The number that a word stands for. -/
def numberOf (kind : Bool × Nat) (u : Nat) : Int := if kind.1 then signed u else u

def readNext (kind : Bool × Nat) (p : List Nat) : Int × List Nat :=
  if kind.1 then strtol p kind.2 else strtoul p kind.2

/-- Read one number behind the other. -/
def readAll : List (Bool × Nat) → List Nat → List Int
  | [], _ => []
  | kind :: kinds, p => (readNext kind p).1 :: readAll kinds (readNext kind p).2

/-- A number in a format, and the white space behind it. -/
structure NumberField where
  spec : Spec
  word : Nat
  blanks : List Nat
  deriving DecidableEq, Repr

namespace NumberField

def pieces (field : NumberField) : List Piece :=
  .conversion field.spec [.word field.word] :: field.blanks.map Piece.text

def kind (field : NumberField) : Bool × Nat := (numeric field.spec.letter).getD (true, 10)

def number (field : NumberField) : Int := numberOf field.kind field.word

/-- A number that is printed without a `+`, with a precision that no counter overflows at. -/
structure Valid (field : NumberField) : Prop where
  spec : field.spec.Valid
  letter : numeric field.spec.letter ≠ none
  plus : Flag.plus ∉ field.spec.flags
  prec : ∀ count ∈ field.spec.prec, -0x7fffff00 ≤ count.value ∧ count.value ≤ 0x7fffff00
  word : field.word < 0x100000000
  blanks : field.blanks ≠ [] ∧ ∀ c ∈ field.blanks, isspace c = true

end NumberField

theorem convert_numeric {letter : Nat} {kind : Bool × Nat} (h : numeric letter = some kind)
    (d : Directive) (radix : Nat) (args : List Arg) : convert letter d radix args =
      if kind.1 then printSigned d kind.2 args else printUnsigned d kind.2 args := by
  unfold numeric at h
  split_ifs at h with h8 h10 hu hx hz
  · rw [← Option.some_inj.mp h]
    rcases h8 with rfl | rfl <;> simp [convert]
  · rw [← Option.some_inj.mp h]
    rcases h10 with rfl | rfl | rfl <;> simp [convert]
  · rw [← Option.some_inj.mp h]
    rcases hu with rfl | rfl <;> simp [convert]
  · rw [← Option.some_inj.mp h]
    rcases hx with rfl | rfl <;> simp [convert]
  · rw [← Option.some_inj.mp h]
    rcases hz with rfl | rfl <;> simp [convert]

theorem numeric_base {letter : Nat} {kind : Bool × Nat} (h : numeric letter = some kind) :
    1 < kind.2 ∧ kind.2 ≤ 16 := by
  unfold numeric at h
  split_ifs at h <;> rw [← Option.some_inj.mp h] <;> decide

theorem flags_plusSign {flags : List Flag} (hplus : Flag.plus ∉ flags)
    (hd : d.plusSign = 0 ∨ d.plusSign = 32) :
    (flags.foldl Flag.set d).plusSign = 0 ∨ (flags.foldl Flag.set d).plusSign = 32 := by
  induction flags generalizing d with
  | nil => exact hd
  | cons flag flags ih =>
      have hrest : Flag.plus ∉ flags := fun h => hplus (List.mem_cons_of_mem flag h)
      cases flag with
      | alternate => exact ih hrest hd
      | left => exact ih hrest hd
      | plus => exact absurd List.mem_cons_self hplus
      | blank =>
          refine ih hrest ?_
          rcases hd with hd | hd <;> simp [Flag.set, hd]

theorem setWidth_plusSign (d : Directive) (width : Option Count) :
    (setWidth d width).plusSign = d.plusSign := by
  cases width with
  | none => rfl
  | some count =>
      unfold setWidth
      dsimp only
      split <;> rfl

theorem setPrec_plusSign (d : Directive) (prec : Option Count) :
    (setPrec d prec).plusSign = d.plusSign := by
  cases prec <;> rfl

theorem setZero_plusSign (zero : Bool) (d : Directive) :
    (setZero zero d).plusSign = d.plusSign := by
  cases zero <;> rfl

theorem directive_plusSign {spec : Spec} (hplus : Flag.plus ∉ spec.flags) :
    spec.directive.plusSign = 0 ∨ spec.directive.plusSign = 32 := by
  rw [Spec.directive, setPrec_plusSign, setWidth_plusSign, setZero_plusSign]
  exact flags_plusSign hplus (Or.inl rfl)

theorem flags_counts (flags : List Flag) (d : Directive) :
    (flags.foldl Flag.set d).length = d.length ∧ (flags.foldl Flag.set d).prec = d.prec := by
  induction flags generalizing d with
  | nil => exact ⟨rfl, rfl⟩
  | cons flag flags ih =>
      rw [List.foldl_cons, (ih (flag.set d)).1, (ih (flag.set d)).2]
      cases flag <;> exact ⟨rfl, rfl⟩

theorem setZero_counts (zero : Bool) (d : Directive) :
    (setZero zero d).length = d.length ∧ (setZero zero d).prec = d.prec := by
  cases zero <;> exact ⟨rfl, rfl⟩

theorem setWidth_moderate (hd : Moderate d) (width : Option Count) :
    Moderate (setWidth d width) := by
  cases width with
  | none => exact hd
  | some count =>
      unfold setWidth
      dsimp only
      split
      · exact ⟨by dsimp only; omega, hd.prec⟩
      · exact ⟨by dsimp only; omega, hd.prec⟩

theorem directive_moderate {spec : Spec}
    (hprec : ∀ count ∈ spec.prec, -0x7fffff00 ≤ count.value ∧ count.value ≤ 0x7fffff00) :
    Moderate spec.directive := by
  have hflags := flags_counts spec.flags .plain
  have hzero := setZero_counts spec.zero (spec.flags.foldl Flag.set .plain)
  have hplain : Moderate (setZero spec.zero (spec.flags.foldl Flag.set .plain)) := by
    constructor
    · rw [hzero.1, hflags.1]
      decide
    · rw [hzero.2, hflags.2]
      decide
  have hwidth := setWidth_moderate hplain spec.width
  unfold Spec.directive
  cases hcases : spec.prec with
  | none => exact hwidth
  | some count => exact ⟨hwidth.length, hprec count hcases⟩

theorem isspace_stops {c : Nat} (h : isspace c = true) : Stops c := by
  rw [stops_iff]
  have h := of_decide_eq_true h
  omega

/-- White space in front of a number does not count. -/
theorem readNext_blanks (kind : Bool × Nat) {p : List Nat} (hp : ∀ c ∈ p, isspace c = true)
    (rest : List Nat) : readNext kind (p ++ rest) = readNext kind rest := by
  rw [readNext, readNext, strtol, strtoul, strtol, strtoul, List.dropWhile_append_of_pos hp]

theorem opens_blanks (n : Nat) (hbehind : Opens behind Stops) :
    Opens (List.replicate n 32 ++ behind) Stops := by
  cases n with
  | zero => exact hbehind
  | succ n => exact opens_cons (by decide)

theorem signed_range (u : Nat) : -0x80000000 ≤ signed u ∧ signed u < 0x80000000 := by
  unfold signed
  rw [Int.bmod_def]
  split <;> omega

theorem wrapLong_natAbs {n : Int} (h : -0x80000000 ≤ n ∧ n < 0x80000000) :
    (0 ≤ n → wrapLong n.natAbs = n) ∧ (n < 0 → wrapLong (-wrapLong n.natAbs) = n) := by
  unfold wrapLong
  constructor
  · intro hn
    rw [Int.bmod_def]
    split <;> omega
  · intro hn
    rw [← Int.neg_one_mul, Int.mul_comm, Int.bmod_mul_bmod, Int.bmod_def]
    split <;> omega

theorem signed_reads (hb : 1 < b) (hb16 : b ≤ 16) (hd : Moderate d)
    (hplus : d.plusSign = 0 ∨ d.plusSign = 32) (hu : u < 0x100000000) :
    ∃ out, (∀ args, printSigned d b (.word u :: args) = .ok (out, args)) ∧
      ∀ behind, Opens behind Stops → ∃ blanks,
        strtol (out ++ behind) b = (signed u, List.replicate blanks 32 ++ behind) := by
  have hrange := signed_range u
  have habs : (signed u).natAbs < 0x100000000 := by omega
  obtain ⟨blanks, zeros, trailing, out, hprint, hout⟩ := printNum_ok hb hb16 habs hd
    (if 0 ≤ signed u then d.plusSign else 45)
  refine ⟨out, fun args => ?_, fun behind hbehind => ⟨trailing, ?_⟩⟩
  · rw [printSigned, wordArg_word hu, ok_bind]
    dsimp only
    rw [hprint, ok_bind, pure_eq_ok]
  have hstops := opens_blanks trailing hbehind
  have hnumber := wrapLong_natAbs hrange
  rw [hout]
  by_cases hn : 0 ≤ signed u
  · rw [if_pos hn]
    rcases hplus with hplus | hplus
    · have hread := strtol_printed hb hb16 blanks d.altfmt zeros (signed u).natAbs hstops
      rw [hnumber.1 hn] at hread
      rwa [hplus, signText_zero, List.nil_append]
    · -- The blank in place of a sign is one more blank in front.
      have hread := strtol_printed hb hb16 (blanks + 1) d.altfmt zeros (signed u).natAbs hstops
      rw [hnumber.1 hn, List.replicate_succ', List.append_assoc] at hread
      rwa [hplus, signText_blank]
  · have hread := strtol_printed_minus hb hb16 blanks d.altfmt zeros (signed u).natAbs hstops
    rw [hnumber.2 (not_le.mp hn)] at hread
    rwa [if_neg hn, signText_minus, List.singleton_append]

theorem unsigned_reads (hb : 1 < b) (hb16 : b ≤ 16) (hd : Moderate d)
    (hu : u < 0x100000000) :
    ∃ out, (∀ args, printUnsigned d b (.word u :: args) = .ok (out, args)) ∧
      ∀ behind, Opens behind Stops → ∃ blanks,
        strtoul (out ++ behind) b = ((u : Int), List.replicate blanks 32 ++ behind) := by
  obtain ⟨blanks, zeros, trailing, out, hprint, hout⟩ := printNum_ok hb hb16 hu hd 0
  refine ⟨out, fun args => ?_, fun behind hbehind => ⟨trailing, ?_⟩⟩
  · rw [printUnsigned, wordArg_word hu, ok_bind]
    dsimp only
    rw [hprint, ok_bind, pure_eq_ok]
  have hword : wrapUnsigned u = u := by
    unfold wrapUnsigned
    omega
  have hread := strtoul_printed hb hb16 blanks d.altfmt zeros u (opens_blanks trailing hbehind)
  rw [hword] at hread
  rw [hout]
  exact hread

theorem NumberField.Valid.numeric_eq {field : NumberField} (h : field.Valid) :
    numeric field.spec.letter = some field.kind := by
  cases hcases : numeric field.spec.letter with
  | none => exact absurd hcases h.letter
  | some kind => rw [NumberField.kind, hcases, Option.getD_some]

/-- What one field puts out, and what reading it leaves. -/
theorem NumberField.Valid.reads {field : NumberField} (h : field.Valid) (radix : Nat) :
    ∃ out, Piece.Prints radix (.conversion field.spec [.word field.word]) out ∧
      ∀ behind, Opens behind Stops → ∃ blanks, readNext field.kind (out ++ behind) =
        (field.number, List.replicate blanks 32 ++ behind) := by
  have hnumeric := h.numeric_eq
  obtain ⟨hb, hb16⟩ := numeric_base hnumeric
  have hd := directive_moderate h.prec
  have hconvert := convert_numeric hnumeric field.spec.directive radix [.word field.word]
  cases hsign : field.kind.1 with
  | true =>
      obtain ⟨out, hprint, hread⟩ :=
        signed_reads hb hb16 hd (directive_plusSign h.plus) h.word
      rw [hsign, if_pos rfl, hprint] at hconvert
      refine ⟨out, .conversion h.spec hconvert, fun behind hbehind => ?_⟩
      rw [readNext, NumberField.number, numberOf, hsign, if_pos rfl, if_pos rfl]
      exact hread behind hbehind
  | false =>
      obtain ⟨out, hprint, hread⟩ := unsigned_reads hb hb16 hd h.word
      rw [hsign, if_neg Bool.false_ne_true, hprint] at hconvert
      refine ⟨out, .conversion h.spec hconvert, fun behind hbehind => ?_⟩
      rw [readNext, NumberField.number, numberOf, hsign, if_neg Bool.false_ne_true,
        if_neg Bool.false_ne_true]
      exact hread behind hbehind

theorem fields_read (radix : Nat) {fields : List NumberField} (h : ∀ field ∈ fields, field.Valid) :
    ∃ outs, List.Forall₂ (Piece.Prints radix) (fields.flatMap NumberField.pieces) outs ∧
      ∀ p : List Nat, (∀ c ∈ p, isspace c = true) →
        readAll (fields.map NumberField.kind) (p ++ outs.flatten) =
          fields.map NumberField.number := by
  induction fields with
  | nil => exact ⟨[], .nil, fun p _ => rfl⟩
  | cons field fields ih =>
      have hfield := h field List.mem_cons_self
      obtain ⟨outs, hprints, hreads⟩ := ih fun x hx => h x (List.mem_cons_of_mem field hx)
      obtain ⟨out, hprint, hread⟩ := hfield.reads radix
      have hpercent : 37 ∉ field.blanks := fun h37 =>
        absurd (hfield.blanks.2 37 h37) (by decide)
      have hblanks := texts_print radix hpercent
      refine ⟨out :: ((field.blanks.map fun c => [c]) ++ outs), ?_, fun p hp => ?_⟩
      · exact .cons hprint (List.rel_append hblanks hprints)
      have hstops : Opens (field.blanks ++ outs.flatten) Stops := by
        cases hcases : field.blanks with
        | nil => exact absurd hcases hfield.blanks.1
        | cons c blanks =>
            have hc := hfield.blanks.2 c (hcases ▸ List.mem_cons_self)
            exact opens_cons (isspace_stops hc)
      obtain ⟨n, hread⟩ := hread _ hstops
      have hleft : ∀ c ∈ List.replicate n 32 ++ field.blanks, isspace c = true := by
        intro c hc
        rcases List.mem_append.mp hc with hc | hc
        · rw [List.eq_of_mem_replicate hc]
          decide
        · exact hfield.blanks.2 c hc
      rw [List.flatten_cons, List.flatten_append, flatten_singletons, List.map_cons, readAll,
        readNext_blanks _ hp, hread, ← List.append_assoc (List.replicate n 32), hreads _ hleft,
        List.map_cons]

/-- A line of numbers is read back: whatever flags, widths and precisions the numbers are printed
with, in whatever bases, `strtol` and `strtoul` find each of them where the one before it ends. -/
theorem numbers_read_back {fields : List NumberField} (h : ∀ field ∈ fields, field.Valid)
    (radix : Nat) (more : List Arg) : ∃ text,
      doprnt ((fields.flatMap NumberField.pieces).flatMap Piece.format)
        ((fields.flatMap NumberField.pieces).flatMap Piece.operands ++ more) radix = .ok text ∧
      readAll (fields.map NumberField.kind) text = fields.map NumberField.number := by
  obtain ⟨outs, hprints, hreads⟩ := fields_read radix h
  exact ⟨outs.flatten, doprntLoop_pieces hprints more (Nat.le_refl _), hreads [] (by simp)⟩

/-- `"%-6d\n"` and `"%#x "`, with -42 and 255. -/
theorem numbers_read_back_pair : ∃ text,
    doprnt [37, 45, 54, 100, 10, 37, 35, 120, 32] [.word 0xffffffd6, .word 255] 0 = .ok text ∧
      readAll [(true, 10), (false, 16)] text = [-42, 255] := by
  have hsigned : NumberField.Valid ⟨⟨[.left], false, some (.number 6), none, false, 100⟩,
      0xffffffd6, [10]⟩ := by
    refine ⟨⟨?_, by rintro count ⟨⟩, by decide⟩, by decide, by decide, by rintro count ⟨⟩,
      by decide, by decide⟩
    rintro count ⟨⟩
    exact ⟨by decide, by decide⟩
  have hhex : NumberField.Valid ⟨⟨[.alternate], false, none, none, false, 120⟩, 255, [32]⟩ :=
    ⟨⟨by rintro count ⟨⟩, by rintro count ⟨⟩, by decide⟩, by decide, by decide,
      by rintro count ⟨⟩, by decide, by decide⟩
  have hfields := List.forall_mem_cons.mpr ⟨hsigned, List.forall_mem_singleton.mpr hhex⟩
  obtain ⟨text, hprint, hread⟩ := numbers_read_back hfields 0 []
  have hwidth : decimal 6 = [54] := by decide
  have hformat : List.flatMap Piece.format (List.flatMap NumberField.pieces
      [⟨⟨[.left], false, some (.number 6), none, false, 100⟩, 0xffffffd6, [10]⟩,
        ⟨⟨[.alternate], false, none, none, false, 120⟩, 255, [32]⟩]) =
      [37, 45, 54, 100, 10, 37, 35, 120, 32] := by
    simp [NumberField.pieces, Piece.format, Spec.fmt, Flag.char, Count.fmt, precFmt, hwidth]
  rw [hformat] at hprint
  exact ⟨text, hprint, hread⟩

end SchlagOS.Print
