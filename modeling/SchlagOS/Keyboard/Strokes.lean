import SchlagOS.Keyboard.Held

/-!
# Strokes and their scancodes

A stroke presses or releases a key.  Its scancode is one byte, or two with the
escape 0xe0 in front, and the driver reads from the bytes of a stroke the key
that they were made for.
-/

namespace SchlagOS.Keyboard

open Foundation

variable {k k' : Driver} {key keycode : Nat} {up : Bool}

structure Stroke where
  key : Nat
  up : Bool
  deriving DecidableEq, Repr

/-- Whether the code of a key is escaped, and the code. -/
def scancodeOf (key : Nat) : Option (Bool × Nat) :=
  if key = 0 then none
  else if key < scLim then some (false, key)
  else if key ∈ defaultE0Keys then some (true, defaultE0Keys.idxOf key)
  else if key ∈ defaultHighKeys then some (false, scLim + defaultHighKeys.idxOf key)
  else none

/-- What the keyboard sends for a stroke. -/
def Stroke.bytes (stroke : Stroke) : List UInt8 :=
  match scancodeOf stroke.key with
  | some (escaped, code) =>
      (if escaped then [0xe0] else []) ++
        [UInt8.ofNat (if stroke.up then code + 128 else code)]
  | none => []

/-- The interrupts of some bytes. -/
def feed (codes : List UInt8) (k : Driver) : Except Table Driver :=
  codes.foldlM (fun k code => doScancode code k) k

theorem feed_cons (code : UInt8) (codes : List UInt8) (k : Driver) :
    feed (code :: codes) k = doScancode code k >>= feed codes := rfl

theorem feed_singleton (code : UInt8) (k : Driver) : feed [code] k = doScancode code k := by
  rw [feed_cons]
  cases doScancode code k <;> rfl

/-- A key that has been translated, up to the end of its interrupt. -/
def deliver (stroke : Stroke) (k : Driver) : Except Table Driver :=
  (handleKeycode stroke.key stroke.up false k).map kbdBh

/-- What the tables say of the code of a key. -/
def codeOk (key : Nat) (escaped : Bool) (code : Nat) : Bool :=
  decide (0 < code ∧ code < 0x7f ∧ code ≠ 0x60 ∧ code ≠ 0x61) &&
    if escaped then decide (code ≠ 0x2a ∧ code ≠ 0x36 ∧ defaultE0Keys[code]? = some key)
    else if code < scLim then decide (key = code)
    else decide (defaultHighKeys[code - scLim]? = some key)

theorem scancodeOf_lt {p : Bool × Nat} (h : scancodeOf key = some p) : 0 < key ∧ key < 128 := by
  unfold scancodeOf at h
  split_ifs at h with hzero hlim hescaped hhigh
  · refine ⟨Nat.pos_of_ne_zero hzero, ?_⟩
    unfold scLim at hlim
    omega
  · exact ⟨Nat.pos_of_ne_zero hzero, defaultKeys_lt.2 key hescaped⟩
  · exact ⟨Nat.pos_of_ne_zero hzero, defaultKeys_lt.1 key hhigh⟩

theorem scancodeOf_ok {escaped : Bool} {code : Nat} (h : scancodeOf key = some (escaped, code)) :
    codeOk key escaped code = true := by
  have hall : ((List.range 128).all fun key =>
      (scancodeOf key).all fun p => codeOk key p.1 p.2) = true := by decide +kernel
  have hkey := List.all_eq_true.mp hall key (List.mem_range.mpr (scancodeOf_lt h).2)
  rw [h] at hkey
  exact hkey

/-! ## Reading a stroke -/

/-- Between two strokes: no byte is pending, and the lights are up to date. -/
structure Ready (k : Driver) : Prop where
  wf : k.Wf
  init : k.init = true
  prev : k.prevScancode = 0
  lit : k.kbd.ledflagstate = k.ledstate

theorem Ready.ready (h : Ready k) : k.ready = k := by
  unfold Driver.ready
  rw [if_pos h.init]

theorem kbdBh_lit (h : k.kbd.ledflagstate = k.ledstate) : kbdBh k = k := by
  unfold kbdBh
  rw [if_neg (not_not.mpr h)]

theorem doScancode_escape (h : Ready k) :
    doScancode 0xe0 k = .ok { k with prevScancode := 0xe0 } := by
  have hmode : decide (k.kbd.kbdmode = .raw) = false := by
    rw [h.wf.kbdmode]
    rfl
  have htranslate : kbdTranslate 0xe0 k = .ok ({ k with prevScancode := 0xe0 }, none) := by
    unfold kbdTranslate
    rw [if_pos (.inl rfl)]
  have hscancode : handleScancode 0xe0 false k = .ok { k with prevScancode := 0xe0 } := by
    unfold handleScancode
    simp only [hmode, Bool.false_eq_true, if_false]
    rw [htranslate]
    rfl
  unfold doScancode
  rw [h.ready]
  change (if (0xe0 : Nat) ≠ 0 ∧ (0xe0 : Nat) ≠ 0xff then _ else _) = _
  rw [if_pos (by decide)]
  change (handleScancode 0xe0 false k >>= _) = _
  rw [hscancode, ok_bind, pure_eq_ok, kbdBh_lit (by exact h.lit)]

/-- A byte that completes a key. -/
theorem doScancode_completes {code : UInt8} (hwf : k.Wf) (hinit : k.init = true)
    (hcode : code.toNat ≠ 0 ∧ code.toNat ≠ 0xff) (hup : decide (code.toNat < 128) = !up)
    (htranslate : kbdTranslate code.toNat k = .ok (k', some key)) :
    doScancode code k = deliver ⟨key, up⟩ k' := by
  have hmode : decide (k.kbd.kbdmode = .raw) = false := by
    rw [hwf.kbdmode]
    rfl
  have hready : k.ready = k := by
    unfold Driver.ready
    rw [if_pos hinit]
  have hscancode : handleScancode code.toNat (!up) k = handleKeycode key up false k' := by
    unfold handleScancode
    simp only [hmode, Bool.false_eq_true, if_false]
    rw [htranslate, ok_bind, Bool.not_not]
  unfold doScancode deliver
  rw [hready]
  dsimp only
  rw [if_pos hcode, hup, hscancode]
  cases handleKeycode key up false k' with
  | error e => rfl
  | ok k'' => rfl

theorem strokeCode {code : Nat} (hcode : code < 0x7f) (up : Bool) :
    (UInt8.ofNat (if up then code + 128 else code)).toNat = if up then code + 128 else code := by
  rw [UInt8.toNat_ofNat']
  split <;> omega

/-- The driver reads the key that the bytes of a stroke were made for. -/
theorem feed_stroke (h : Ready k) {stroke : Stroke} (hsome : (scancodeOf stroke.key).isSome) :
    feed stroke.bytes k = deliver stroke k := by
  obtain ⟨⟨escaped, code⟩, hcode⟩ := Option.isSome_iff_exists.mp hsome
  have hok := scancodeOf_ok hcode
  have hkey := scancodeOf_lt hcode
  unfold codeOk at hok
  rw [Bool.and_eq_true, decide_eq_true_eq] at hok
  obtain ⟨hbounds, hok⟩ := hok
  have hnat := strokeCode (show code < 0x7f by omega) stroke.up
  have hlow : (if stroke.up then code + 128 else code) % 128 = code := by
    split <;> omega
  have hup : decide ((if stroke.up then code + 128 else code) < 128) = !stroke.up := by
    cases stroke.up with
    | false => exact decide_eq_true (by simp; omega)
    | true => exact decide_eq_false (by simp)
  have hends : ∀ n, n = (if stroke.up then code + 128 else code) →
      ¬(n = 0xe0 ∨ n = 0xe1) ∧ ¬(n = 0 ∨ n = 0xff) := by
    rintro n rfl
    split <;> omega
  have hneither := hends _ rfl
  have hcomplete : ∀ k₁ : Driver, k₁.Wf → k₁.init = true →
      kbdTranslate (if stroke.up then code + 128 else code) k₁ = .ok (k, some stroke.key) →
      doScancode (UInt8.ofNat (if stroke.up then code + 128 else code)) k₁ = deliver stroke k := by
    intro k₁ hwf hinit htranslate
    refine doScancode_completes hwf hinit ?_ ?_ ?_
    · rw [hnat]
      exact not_or.mp hneither.2
    · rw [hnat]
      exact hup
    · rw [hnat]
      exact htranslate
  unfold Stroke.bytes
  rw [hcode]
  dsimp only
  cases escaped with
  | true =>
      simp only [if_true, decide_eq_true_eq] at hok
      obtain ⟨h2a, h36, hentry⟩ := hok
      rw [if_pos rfl, List.singleton_append, feed_cons, doScancode_escape h, ok_bind,
        feed_singleton]
      refine hcomplete { k with prevScancode := 0xe0 } (h.wf.prev 0xe0) h.init ?_
      unfold kbdTranslate
      rw [if_neg hneither.1, if_neg hneither.2]
      dsimp only
      rw [hlow, if_pos (by decide), if_neg (by decide), if_neg (by omega), h.wf.e0Keys, hentry,
        demand_some, ok_bind, if_pos (by omega), pure_eq_ok, ← h.prev, ← h.wf.e0Keys]
  | false =>
      rw [if_neg (by decide), List.nil_append, feed_singleton]
      refine hcomplete k h.wf h.init ?_
      unfold kbdTranslate
      rw [if_neg hneither.1, if_neg hneither.2]
      dsimp only
      rw [hlow, if_neg (not_not.mpr h.prev)]
      simp only [Bool.false_eq_true, if_false] at hok
      split_ifs with hlim
      · rw [if_neg (Nat.not_lt.mpr hlim), decide_eq_true_eq] at hok
        rw [h.wf.highKeys, hok, demand_some, ok_bind, if_pos (by omega), pure_eq_ok]
      · rw [if_pos (Nat.lt_of_not_le hlim), decide_eq_true_eq] at hok
        rw [hok]

end SchlagOS.Keyboard
