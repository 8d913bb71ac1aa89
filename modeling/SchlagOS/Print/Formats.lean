import SchlagOS.Foundation.Numerals
import SchlagOS.Print.Doprnt

/-!
# Formats

A format as pieces: characters that are put out as they are, and conversions
with their flags, width and precision.  `_doprnt` reads the bytes of a format
back into its pieces, and each piece uses up its own arguments.
-/

namespace SchlagOS.Print

open Foundation

inductive Flag where
  | alternate
  | left
  | plus
  | blank
  deriving DecidableEq, Repr

def Flag.char : Flag → Nat
  | .alternate => 35
  | .left => 45
  | .plus => 43
  | .blank => 32

def Flag.set (d : Directive) : Flag → Directive
  | .alternate => { d with altfmt := true }
  | .left => { d with ladjust := true }
  | .plus => { d with plusSign := 43 }
  | .blank => { d with plusSign := if d.plusSign = 0 then 32 else d.plusSign }

/-- A width or a precision: written in the format, or a `*` and its argument. -/
inductive Count where
  | number (n : Nat)
  | star (u : Nat)
  deriving DecidableEq, Repr

/-- A number in decimal. -/
def decimal (n : Nat) : List Nat := (numeral 10 n).map (48 + ·)

def Count.fmt : Count → List Nat
  | .number n => decimal n
  | .star _ => [42]

def Count.args : Count → List Arg
  | .number _ => []
  | .star u => [.word u]

def Count.value : Count → Int
  | .number n => n
  | .star u => signed u

/-- A count that fits an `int`, with its sign changed too. -/
def Count.Fits : Count → Prop
  | .number n => n < 0x80000000
  | .star u => u < 0x100000000 ∧ u ≠ 0x80000000

instance : (count : Count) → Decidable count.Fits
  | .number n => inferInstanceAs (Decidable (n < 0x80000000))
  | .star u => inferInstanceAs (Decidable (u < 0x100000000 ∧ u ≠ 0x80000000))

/-- A conversion as it is written behind its `%`. -/
structure Spec where
  flags : List Flag
  zero : Bool
  width : Option Count
  prec : Option Count
  long : Bool
  letter : Nat
  deriving DecidableEq, Repr

def precFmt : Option Count → List Nat
  | none => []
  | some count => 46 :: count.fmt

def Spec.fmt (spec : Spec) : List Nat :=
  spec.flags.map Flag.char ++ ((if spec.zero then [48] else []) ++
    (((spec.width.map Count.fmt).getD []) ++ (precFmt spec.prec ++
      ((if spec.long then [108] else []) ++ [spec.letter]))))

def Spec.args (spec : Spec) : List Arg :=
  (spec.width.map Count.args).getD [] ++ (spec.prec.map Count.args).getD []

def setZero (zero : Bool) (d : Directive) : Directive := if zero then { d with padc := 48 } else d

/-- A negative width turns the adjustment around. -/
def setWidth (d : Directive) : Option Count → Directive
  | none => d
  | some count =>
      if count.value < 0 then { d with ladjust := !d.ladjust, length := -count.value }
      else { d with length := count.value }

def setPrec (d : Directive) : Option Count → Directive
  | none => d
  | some count => { d with prec := count.value }

/-- What the conversion asks for. -/
def Spec.directive (spec : Spec) : Directive :=
  setPrec (setWidth (setZero spec.zero (spec.flags.foldl Flag.set .plain)) spec.width) spec.prec

/-- A character that means nothing in front of the letter. -/
def letterChar (c : Nat) : Bool :=
  !isdigit c && !decide (c = 32 ∨ c = 35 ∨ c = 42 ∨ c = 43 ∨ c = 45 ∨ c = 46 ∨ c = 108)

structure Spec.Valid (spec : Spec) : Prop where
  width : ∀ count ∈ spec.width, count.Fits ∧ count ≠ .number 0
  prec : ∀ count ∈ spec.prec, count.Fits
  letter : letterChar spec.letter = true

/-! ## Reading the parts of a conversion -/

variable {fmt behind : List Nat} {args more : List Arg} {d : Directive} {n u radix : Nat}

theorem readFlags_map (flags : List Flag) (d : Directive)
    (hbehind : ∀ c ∈ behind.head?, c ≠ 35 ∧ c ≠ 45 ∧ c ≠ 43 ∧ c ≠ 32) :
    readFlags (flags.map Flag.char ++ behind) d = (flags.foldl Flag.set d, behind) := by
  induction flags generalizing d with
  | nil =>
      cases behind with
      | nil => rfl
      | cons c behind =>
          obtain ⟨h35, h45, h43, h32⟩ := hbehind c rfl
          simp [readFlags, h35, h45, h43, h32]
  | cons flag flags ih =>
      cases flag with
      | alternate => exact ih _
      | left => exact ih _
      | plus => exact ih _
      | blank => exact ih _

/-- Reading a numeral is Horner's rule. -/
theorem readNumber_horner {digits : List Nat} (hdigits : ∀ x ∈ digits, x < 10)
    (hbehind : ∀ c ∈ behind.head?, isdigit c = false)
    (hfits : horner 10 n digits < 0x80000000) :
    readNumber (digits.map (48 + ·) ++ behind) n = .ok (horner 10 n digits, behind) := by
  induction digits generalizing n with
  | nil =>
      cases behind with
      | nil => rfl
      | cons c behind => simp [readNumber, hbehind c rfl]
  | cons x digits ih =>
      have hx : x < 10 := hdigits x List.mem_cons_self
      have hdigit : isdigit (48 + x) = true := decide_eq_true ⟨by omega, by omega⟩
      have hvalue : 10 * n + (48 + x - 48) = n * 10 + x := by omega
      have hstep : n * 10 + x < 0x80000000 :=
        Nat.lt_of_le_of_lt (le_horner (by decide)) hfits
      rw [List.map_cons, List.cons_append, readNumber, if_pos hdigit]
      dsimp only
      rw [hvalue, require_pos hstep, ok_bind]
      exact ih (fun y hy => hdigits y (List.mem_cons_of_mem x hy)) hfits

theorem readNumber_decimal (hn : n < 0x80000000)
    (hbehind : ∀ c ∈ behind.head?, isdigit c = false) :
    readNumber (decimal n ++ behind) 0 = .ok (n, behind) := by
  have h := @readNumber_horner behind 0 (numeral 10 n) (fun x hx => numeral_lt (by decide) hx)
    hbehind (by rwa [horner_numeral])
  rwa [horner_numeral] at h

theorem decimal_cons (n : Nat) : ∃ c rest, decimal n = c :: rest ∧ isdigit c = true ∧
    (n ≠ 0 → c ≠ 48) := by
  unfold decimal
  cases hdigits : numeral 10 n with
  | nil => exact absurd hdigits (numeral_ne_nil 10 n)
  | cons x digits =>
      have hx : x < 10 := numeral_lt (b := 10) (by decide) (hdigits ▸ List.mem_cons_self)
      refine ⟨48 + x, digits.map (48 + ·), rfl, decide_eq_true ⟨by omega, by omega⟩, ?_⟩
      intro hn hc
      have hhead := numeral_head 10 hn
      rw [hdigits, List.head?_cons] at hhead
      exact hhead (congrArg some (by omega))

/-- The character behind a part of a conversion. -/
def Opens (fmt : List Nat) (P : Nat → Prop) : Prop := ∀ c ∈ fmt.head?, P c

theorem letterChar_ne {c : Nat} (h : letterChar c = true) : isdigit c = false ∧ c ≠ 32 ∧
    c ≠ 35 ∧ c ≠ 42 ∧ c ≠ 43 ∧ c ≠ 45 ∧ c ≠ 46 ∧ c ≠ 108 := by
  simpa [letterChar] using h

theorem readZero_set (zero : Bool) (hbehind : Opens behind (· ≠ 48)) :
    readZero ((if zero then [48] else []) ++ behind) d = (setZero zero d, behind) := by
  cases zero with
  | true => rfl
  | false =>
      cases behind with
      | nil => rfl
      | cons c behind =>
          have hc : c ≠ 48 := hbehind c rfl
          simp [readZero, setZero, hc]

theorem readLength_number (hn : n < 0x80000000)
    (hbehind : Opens behind fun c => isdigit c = false) :
    readLength (decimal n ++ behind) d args = .ok ({ d with length := n }, behind, args) := by
  obtain ⟨c, rest, hdecimal, hdigit, -⟩ := decimal_cons n
  have hread := readNumber_decimal hn hbehind
  rw [hdecimal, List.cons_append] at hread ⊢
  simp only [readLength, hdigit, if_true, hread, ok_bind, pure_eq_ok]

theorem signed_ne (hu : u < 0x100000000) (hne : u ≠ 0x80000000) : signed u ≠ -0x80000000 := by
  unfold signed
  rw [Int.bmod_def]
  split <;> omega

theorem setWidth_star (d : Directive) (u : Nat) : setWidth d (some (.star u)) =
    if signed u < 0 then { d with ladjust := !d.ladjust, length := -signed u }
    else { d with length := signed u } := rfl

theorem wordArg_word (hu : u < 0x100000000) : wordArg (.word u :: more) = .ok (u, more) := by
  rw [wordArg, Nat.mod_eq_of_lt hu]

theorem readLength_star (hu : (Count.star u).Fits) :
    readLength (42 :: behind) d (.word u :: more) =
      .ok (setWidth d (some (.star u)), behind, more) := by
  have hdigit : isdigit 42 = false := by decide
  have hleast : signed u ≠ -0x80000000 := signed_ne hu.1 hu.2
  rw [readLength, hdigit, if_neg Bool.false_ne_true, if_pos rfl, wordArg_word hu.1, ok_bind,
    setWidth_star]
  by_cases hneg : signed u < 0
  · rw [if_pos hneg, if_pos hneg, require_pos hleast, ok_bind, pure_eq_ok]
  · rw [if_neg hneg, if_neg hneg, pure_eq_ok]

theorem readLength_set {width : Option Count} (hwidth : ∀ count ∈ width, count.Fits)
    (hbehind : Opens behind fun c => isdigit c = false ∧ c ≠ 42) :
    readLength ((width.map Count.fmt).getD [] ++ behind) d
        ((width.map Count.args).getD [] ++ more) = .ok (setWidth d width, behind, more) := by
  cases width with
  | none =>
      cases behind with
      | nil => rfl
      | cons c behind =>
          obtain ⟨hdigit, hstar⟩ := hbehind c rfl
          simp [readLength, setWidth, hdigit, hstar]
  | some count =>
      cases count with
      | number n =>
          have hnonneg : ¬(Count.number n).value < 0 := not_lt.mpr (Int.natCast_nonneg n)
          rw [setWidth, if_neg hnonneg]
          exact readLength_number (hwidth _ rfl) fun c hc => (hbehind c hc).1
      | star u => exact readLength_star (hwidth _ rfl)

theorem readPrec_set {prec : Option Count} (hprec : ∀ count ∈ prec, count.Fits)
    (hbehind : Opens behind fun c => isdigit c = false ∧ c ≠ 46) :
    readPrec (precFmt prec ++ behind) d ((prec.map Count.args).getD [] ++ more) =
      .ok (setPrec d prec, behind, more) := by
  cases prec with
  | none =>
      cases behind with
      | nil => rfl
      | cons c behind =>
          have hc : c ≠ 46 := (hbehind c rfl).2
          simp [readPrec, precFmt, setPrec, hc]
  | some count =>
      cases count with
      | number n =>
          obtain ⟨c, rest, hdecimal, hdigit, -⟩ := decimal_cons n
          have hdigits : Opens behind fun c => isdigit c = false := fun c hc => (hbehind c hc).1
          have hread := readNumber_decimal (hprec _ rfl) hdigits
          rw [hdecimal, List.cons_append] at hread
          simp only [precFmt, Count.fmt, hdecimal, List.cons_append, readPrec, hdigit, if_true,
            hread, ok_bind, pure_eq_ok]
          rfl
      | star u =>
          have hdigit : isdigit 42 = false := by decide
          change readPrec (46 :: 42 :: behind) d (.word u :: more) = _
          rw [readPrec, hdigit, if_neg Bool.false_ne_true, if_pos rfl,
            wordArg_word (hprec _ rfl).1, ok_bind]
          rfl

theorem skipL_set (long : Bool) (hbehind : Opens behind (· ≠ 108)) :
    skipL ((if long then [108] else []) ++ behind) = behind := by
  cases long with
  | true => rfl
  | false =>
      cases behind with
      | nil => rfl
      | cons c behind =>
          have hc : c ≠ 108 := hbehind c rfl
          simp [skipL, hc]

/-! ## What stands behind each part -/

theorem opens_cons {P : Nat → Prop} {c : Nat} (hc : P c) : Opens (c :: behind) P := by
  intro x hx
  rwa [← Option.mem_some.mp hx]

theorem opens_long {P : Nat → Prop} (long : Bool) (hl : P 108) (hbehind : Opens behind P) :
    Opens ((if long then [108] else []) ++ behind) P := by
  cases long with
  | true => exact opens_cons hl
  | false => exact hbehind

theorem opens_prec {P : Nat → Prop} (prec : Option Count) (hpoint : P 46)
    (hbehind : Opens behind P) : Opens (precFmt prec ++ behind) P := by
  cases prec with
  | none => exact hbehind
  | some count => exact opens_cons hpoint

theorem opens_width {P : Nat → Prop} {width : Option Count}
    (hwidth : ∀ count ∈ width, count ≠ .number 0) (hstar : P 42)
    (hdigits : ∀ c, isdigit c = true → c ≠ 48 → P c) (hbehind : Opens behind P) :
    Opens ((width.map Count.fmt).getD [] ++ behind) P := by
  cases width with
  | none => exact hbehind
  | some count =>
      cases count with
      | star u => exact opens_cons hstar
      | number n =>
          obtain ⟨c, rest, hdecimal, hdigit, hzero⟩ := decimal_cons n
          have hn : n ≠ 0 := fun h => hwidth _ rfl (congrArg Count.number h)
          simp only [Option.map_some, Option.getD_some, Count.fmt, hdecimal, List.cons_append]
          exact opens_cons (hdigits c hdigit (hzero hn))

theorem opens_zero {P : Nat → Prop} (zero : Bool) (hzero : P 48) (hbehind : Opens behind P) :
    Opens ((if zero then [48] else []) ++ behind) P := by
  cases zero with
  | true => exact opens_cons hzero
  | false => exact hbehind

/-- Behind its `%`, a conversion is read as it is written. -/
theorem directive_fmt {spec : Spec} (h : spec.Valid) (behind : List Nat) (args : List Arg)
    (radix : Nat) :
    directive (spec.fmt ++ behind) (spec.args ++ args) radix = (do
      let out ← convert spec.letter spec.directive radix args
      return (out.1, behind, out.2)) := by
  obtain ⟨hdigit, h32, h35, h42, h43, h45, h46, h108⟩ := letterChar_ne h.letter
  have hletter : Opens (spec.letter :: behind) (· ≠ 108) := opens_cons h108
  have hprec : Opens ((if spec.long then [108] else []) ++ spec.letter :: behind)
      fun c => isdigit c = false ∧ c ≠ 46 :=
    opens_long spec.long (by decide) (opens_cons ⟨hdigit, h46⟩)
  have hwidth : Opens (precFmt spec.prec ++
      ((if spec.long then [108] else []) ++ spec.letter :: behind))
      fun c => isdigit c = false ∧ c ≠ 42 :=
    opens_prec spec.prec (by decide) (opens_long spec.long (by decide) (opens_cons ⟨hdigit, h42⟩))
  have hzero : Opens ((spec.width.map Count.fmt).getD [] ++ (precFmt spec.prec ++
      ((if spec.long then [108] else []) ++ spec.letter :: behind))) (· ≠ 48) := by
    refine opens_width (fun count hcount => (h.width count hcount).2) (by decide)
      (fun c _ hc => hc) (opens_prec spec.prec (by decide)
        (opens_long spec.long (by decide) (opens_cons ?_)))
    intro h48
    rw [h48] at hdigit
    exact absurd hdigit (by decide)
  have hflags : Opens ((if spec.zero then [48] else []) ++
      ((spec.width.map Count.fmt).getD [] ++ (precFmt spec.prec ++
        ((if spec.long then [108] else []) ++ spec.letter :: behind))))
      fun c => c ≠ 35 ∧ c ≠ 45 ∧ c ≠ 43 ∧ c ≠ 32 := by
    refine opens_zero spec.zero (by decide) (opens_width
      (fun count hcount => (h.width count hcount).2) (by decide) ?_ (opens_prec spec.prec
        (by decide) (opens_long spec.long (by decide) (opens_cons ⟨h35, h45, h43, h32⟩))))
    intro c hc _
    obtain ⟨hlow, hhigh⟩ := of_decide_eq_true hc
    omega
  simp only [directive, Spec.fmt, Spec.args, List.append_assoc, List.singleton_append]
  rw [readFlags_map _ _ hflags, readZero_set _ hzero,
    readLength_set (fun count hcount => (h.width count hcount).1) hwidth, ok_bind,
    readPrec_set h.prec hprec, ok_bind, skipL_set _ hletter]
  rfl

/-! ## Arguments behind those of a conversion -/

/-- `y` does with more arguments what `x` does, and leaves them. -/
def Feeds {α : Type} (more : List Arg) (x y : Except Fault (α × List Arg)) : Prop :=
  ∀ r, x = .ok r → y = .ok (r.1, r.2 ++ more)

theorem Feeds.bind {α β : Type} {x y : Except Fault (α × List Arg)}
    {f : α × List Arg → Except Fault (β × List Arg)} {g : α × List Arg → Except Fault (β × List Arg)}
    (h : Feeds more x y) (hf : ∀ r, Feeds more (f r) (g (r.1, r.2 ++ more))) :
    Feeds more (x >>= f) (y >>= g) := by
  intro r hr
  obtain ⟨a, ha, hr⟩ := bind_eq_ok.mp hr
  rw [h a ha, ok_bind]
  exact hf a r hr

theorem Feeds.sequence {α β : Type} {x : Except Fault α} {f g : α → Except Fault (β × List Arg)}
    (hf : ∀ a, Feeds more (f a) (g a)) : Feeds more (x >>= f) (x >>= g) := by
  intro r hr
  obtain ⟨a, ha, hr⟩ := bind_eq_ok.mp hr
  rw [ha, ok_bind]
  exact hf a r hr

theorem Feeds.pure {α : Type} (a : α) (args more : List Arg) :
    Feeds more (pure (a, args)) (pure (a, args ++ more)) := by
  intro r hr
  rw [← Except.ok.inj hr]
  rfl

theorem Feeds.ite {α : Type} {c : Prop} [Decidable c] {x y x' y' : Except Fault (α × List Arg)}
    (h : Feeds more x y) (h' : Feeds more x' y') :
    Feeds more (if c then x else x') (if c then y else y') := by
  split
  · exact h
  · exact h'

theorem wordArg_feeds (args more : List Arg) : Feeds more (wordArg args) (wordArg (args ++ more)) := by
  intro r hr
  cases args with
  | nil => cases hr
  | cons arg args =>
      cases arg with
      | word u =>
          rw [← Except.ok.inj hr]
          rfl
      | string bytes => cases hr

theorem stringArg_feeds (args more : List Arg) :
    Feeds more (stringArg args) (stringArg (args ++ more)) := by
  intro r hr
  cases args with
  | nil => cases hr
  | cons arg args =>
      cases arg with
      | string bytes =>
          rw [← Except.ok.inj hr]
          rfl
      | word u =>
          rw [stringArg] at hr
          split_ifs at hr with hzero
          rw [← Except.ok.inj hr, List.cons_append, stringArg, if_pos hzero]

theorem printSigned_feeds (d : Directive) (base : Nat) (args more : List Arg) :
    Feeds more (printSigned d base args) (printSigned d base (args ++ more)) :=
  (wordArg_feeds args more).bind fun _ => Feeds.sequence fun _ => Feeds.pure _ _ _

theorem printUnsigned_feeds (d : Directive) (base : Nat) (args more : List Arg) :
    Feeds more (printUnsigned d base args) (printUnsigned d base (args ++ more)) :=
  (wordArg_feeds args more).bind fun _ => Feeds.sequence fun _ => Feeds.pure _ _ _

theorem printBits_feeds (d : Directive) (radix : Nat) (args more : List Arg) : Feeds more
    (convert 98 d radix args) (convert 98 d radix (args ++ more)) :=
  (wordArg_feeds args more).bind fun value => (stringArg_feeds value.2 more).bind fun _ =>
    Feeds.sequence fun _ => Feeds.sequence fun _ =>
      (Feeds.pure _ _ _).ite (Feeds.sequence fun _ => Feeds.pure _ _ _)

theorem convert_feeds (letter : Nat) (d : Directive) (radix : Nat) (args more : List Arg) :
    Feeds more (convert letter d radix args) (convert letter d radix (args ++ more)) := by
  unfold convert
  refine (printBits_feeds d radix args more).ite (.ite ?_ (.ite ?_ ?_))
  · exact (wordArg_feeds args more).bind fun _ => Feeds.pure _ _ _
  · exact (stringArg_feeds args more).bind fun _ => Feeds.pure _ _ _
  refine (printUnsigned_feeds d 8 args more).ite ((printSigned_feeds d 10 args more).ite
    ((printUnsigned_feeds d 10 args more).ite (.ite ?_ ?_)))
  · exact (printUnsigned_feeds _ 16 args more).bind fun _ => Feeds.pure _ _ _
  refine (printUnsigned_feeds d 16 args more).ite ((printSigned_feeds d 16 args more).ite ?_)
  exact (printSigned_feeds d radix args more).ite
    ((printUnsigned_feeds d radix args more).ite (Feeds.pure _ _ _))

/-! ## Pieces -/

inductive Piece where
  | text (c : Nat)
  | conversion (spec : Spec) (args : List Arg)
  deriving DecidableEq, Repr

def Piece.format : Piece → List Nat
  | .text c => [c]
  | .conversion spec _ => 37 :: spec.fmt

def Piece.operands : Piece → List Arg
  | .text _ => []
  | .conversion spec args => spec.args ++ args

/-- What a piece puts out by itself. -/
inductive Piece.Prints (radix : Nat) : Piece → List Nat → Prop where
  | text {c : Nat} (h : c ≠ 37) : Prints radix (.text c) [c]
  | conversion {spec : Spec} {args : List Arg} {out : List Nat} (h : spec.Valid)
      (hout : convert spec.letter spec.directive radix args = .ok (out, [])) :
      Prints radix (.conversion spec args) out

theorem doprntLoop_pieces {pieces : List Piece} {outs : List (List Nat)} {fuel : Nat}
    (h : List.Forall₂ (Piece.Prints radix) pieces outs) (more : List Arg)
    (hfuel : (pieces.flatMap Piece.format).length ≤ fuel) :
    doprntLoop radix fuel (pieces.flatMap Piece.format) (pieces.flatMap Piece.operands ++ more) =
      .ok outs.flatten := by
  induction h generalizing fuel with
  | nil =>
      cases fuel with
      | zero => rfl
      | succ fuel => rfl
  | @cons piece out pieces outs hpiece _ ih =>
      cases hpiece with
      | @text c hc =>
          cases fuel with
          | zero => exact absurd hfuel (by simp [Piece.format])
          | succ fuel =>
              have hrest : (pieces.flatMap Piece.format).length ≤ fuel := by
                simpa [Piece.format] using hfuel
              have ih := ih hrest
              change doprntLoop radix (fuel + 1) (c :: pieces.flatMap Piece.format)
                (pieces.flatMap Piece.operands ++ more) = .ok (c :: outs.flatten)
              rw [doprntLoop, if_neg hc, ih, ok_bind, pure_eq_ok]
      | @conversion spec args out hvalid hout =>
          cases fuel with
          | zero => exact absurd hfuel (by simp [Piece.format])
          | succ fuel =>
              have hrest : (pieces.flatMap Piece.format).length ≤ fuel := by
                simp only [List.flatMap_cons, Piece.format, List.cons_append, List.length_cons,
                  List.length_append] at hfuel
                omega
              have hconvert := convert_feeds spec.letter spec.directive radix args
                (pieces.flatMap Piece.operands ++ more) _ hout
              have ih := ih hrest
              simp only [List.flatMap_cons, Piece.format, Piece.operands, List.cons_append,
                List.append_assoc, List.flatten_cons]
              rw [doprntLoop, if_pos rfl, directive_fmt hvalid, hconvert, ok_bind, pure_eq_ok,
                ok_bind, List.nil_append, ih, ok_bind, pure_eq_ok]

/-- A format is read piece by piece: each conversion is understood as it is written, takes its own
arguments and puts out what it puts out by itself. -/
theorem doprnt_pieces {pieces : List Piece} {outs : List (List Nat)}
    (h : List.Forall₂ (Piece.Prints radix) pieces outs) (more : List Arg) :
    doprnt (pieces.flatMap Piece.format) (pieces.flatMap Piece.operands ++ more) radix =
      .ok outs.flatten :=
  doprntLoop_pieces h more (Nat.le_refl _)

/-- `"%-*ld|%.2s"`, with 5, 42 and `"abc"`. -/
theorem doprnt_pieces_row :
    doprnt [37, 45, 42, 108, 100, 124, 37, 46, 50, 115] [.word 5, .word 42, .string [97, 98, 99]] 0 =
      .ok [52, 50, 32, 32, 32, 124, 97, 98] := by
  have hnumber : Piece.Prints 0 (.conversion ⟨[.left], false, some (.star 5), none, true, 100⟩
      [.word 42]) [52, 50, 32, 32, 32] := by
    refine .conversion ⟨?_, by rintro count ⟨⟩, by decide⟩ (by decide +kernel)
    rintro count ⟨⟩
    exact ⟨by decide, by decide⟩
  have hstring : Piece.Prints 0 (.conversion ⟨[], false, none, some (.number 2), false, 115⟩
      [.string [97, 98, 99]]) [97, 98] := by
    refine .conversion ⟨by rintro count ⟨⟩, ?_, by decide⟩ (by decide +kernel)
    rintro count ⟨⟩
    decide
  have hprec : decimal 2 = [50] := by decide
  have hprint := doprnt_pieces (.cons hnumber (.cons (.text (c := 124) (by decide))
    (.cons hstring .nil))) []
  simpa [Piece.format, Piece.operands, Spec.fmt, Spec.args, Flag.char, Count.fmt, Count.args,
    precFmt, hprec] using hprint

/-! ## Plain text -/

theorem texts_print (radix : Nat) {chars : List Nat} (h : 37 ∉ chars) :
    List.Forall₂ (Piece.Prints radix) (chars.map Piece.text) (chars.map fun c => [c]) := by
  induction chars with
  | nil => exact .nil
  | cons c chars ih =>
      rw [List.mem_cons, not_or] at h
      exact .cons (.text fun hc => h.1 hc.symm) (ih h.2)

theorem flatten_singletons (chars : List Nat) : (chars.map fun c => [c]).flatten = chars := by
  induction chars with
  | nil => rfl
  | cons c chars ih => rw [List.map_cons, List.flatten_cons, ih, List.singleton_append]

theorem texts_format (chars : List Nat) :
    (chars.map Piece.text).flatMap Piece.format = chars := by
  induction chars with
  | nil => rfl
  | cons c chars ih => rw [List.map_cons, List.flatMap_cons, ih, Piece.format, List.singleton_append]

theorem texts_operands (chars : List Nat) :
    (chars.map Piece.text).flatMap Piece.operands = [] := by
  induction chars with
  | nil => rfl
  | cons c chars ih => rw [List.map_cons, List.flatMap_cons, ih, Piece.operands, List.append_nil]

/-- A format without conversions is put out as it is. -/
theorem doprnt_text {chars : List Nat} (h : 37 ∉ chars) (radix : Nat) :
    doprnt chars [] radix = .ok chars := by
  have hprint := doprntLoop_pieces (texts_print radix h) [] (Nat.le_refl _)
  rwa [texts_format, texts_operands, flatten_singletons] at hprint

end SchlagOS.Print
