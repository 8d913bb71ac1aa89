import SchlagOS.Keyboard.Strokes

/-!
# What is typed is what is sent

A typist presses and releases the keys of characters and modifiers in any
order, several at a time, and lets keys repeat.  The driver sends one character
for every press, the one that the layout has for the key under the modifiers
held at that moment, and nothing else.
-/

namespace SchlagOS.Keyboard

open Foundation

variable {k k' : Driver} {t t' : Typist} {stroke : Stroke} {key keycode v : Nat} {up : Bool}

/-! ## The typist -/

structure Typist where
  held : Nat → Bool
  typed : List Nat

def Typist.rested : Typist := ⟨fun _ => false, []⟩

/-- Whether a key is held that stands for the modifier. -/
def holds (held : Nat → Bool) (v : Nat) : Bool :=
  (List.range nrKeys).any fun key => held key && decide (shiftOf key = some v)

/-- The modifiers that are held, as the index of a map. -/
def mods (held : Nat → Bool) : Nat :=
  (List.range 4).foldl (fun n v => if holds held v then n ||| 1 <<< v else n) 0

def symChar (sym : Nat) : Option Nat :=
  if ktyp sym = 0xf0 ∨ ktyp sym = 0xfb then some (kval sym)
  else if sym = 0xf201 then some 13
  else none

/-- The character of a key, if the layout has one there. -/
def charAt (shift key : Nat) : Option Nat :=
  keyMaps[shift]?.join.bind fun map => map[key]?.bind symChar

/-- A stroke of a key with a scancode: a key with a character or a modifier is pressed, or a key
that is held is released. -/
def Typist.play (t : Typist) (stroke : Stroke) : Option Typist :=
  if (scancodeOf stroke.key).isNone then none
  else if stroke.up then
    if t.held stroke.key then some { t with held := Function.update t.held stroke.key false }
    else none
  else if (shiftOf stroke.key).isSome then
    some { t with held := Function.update t.held stroke.key true }
  else
    (charAt (mods t.held) stroke.key).map fun c =>
      ⟨Function.update t.held stroke.key true, t.typed ++ [c]⟩

/-! ## The modifiers of the two -/

theorem testBit_foldl (held : Nat → Bool) (keys : List Nat) (n v : Nat) :
    (keys.foldl (fun n v => if holds held v then n ||| 1 <<< v else n) n).testBit v =
      (n.testBit v || decide (v ∈ keys) && holds held v) := by
  induction keys generalizing n with
  | nil => simp
  | cons w keys ih =>
      rw [List.foldl_cons, ih]
      by_cases hw : holds held w = true
      · rw [if_pos hw, Nat.testBit_or, Nat.one_shiftLeft, Nat.testBit_two_pow]
        by_cases heq : v = w
        · subst heq
          simp [hw]
        · simp [heq, Ne.symm heq]
      · rw [if_neg hw]
        by_cases heq : v = w
        · subst heq
          simp [hw]
        · simp [heq]

theorem shiftState_mods (h : k.Wf) (hexact : Exact k) : k.shiftState = mods k.keyDown := by
  refine Nat.eq_of_testBit_eq fun v => ?_
  rw [mods, testBit_foldl, Nat.zero_testBit, Bool.false_or, h.bits v, congrFun hexact v]
  have hiff : decide (heldCount k.keyDown (List.range nrKeys) v ≠ 0) = holds k.keyDown v := by
    rw [Bool.eq_iff_iff, decide_eq_true_eq, heldCount_pos_iff]
    simp [holds]
  rw [hiff]
  by_cases hv : v < 4
  · simp [hv]
  · have hnone : holds k.keyDown v = false := by
      rw [← hiff, heldCount_high _ _ (by omega)]
      rfl
    simp [hnone]

/-! ## Keys that send nothing -/

/-- What a stroke may add to. -/
def Driver.io (k : Driver) : List (List Int) × Int × Nat := (k.sent, k.npadch, k.kbd.ledflagstate)

/-- Nothing is sent, and no number is typed. -/
structure Silent (k : Driver) (x : Except Table Driver) : Prop where
  yields : Yields x fun k' => k'.io = k.io

theorem Silent.ok (h : k'.io = k.io) : Silent k (.ok k') := ⟨h⟩

theorem doShift_silent {value : Nat} (hpad : k.npadch = -1) (hvalue : value < 4) :
    Silent k (doShift value up k) := by
  have hcaps : value ≠ kgCapsshift := by
    unfold kgCapsshift
    omega
  unfold doShift
  refine ⟨Yields.ite (fun _ => rfl) fun _ => ?_⟩
  simp only [hcaps, false_and, if_false]
  refine Yields.skip _ fun _ => ?_
  rw [if_neg (by simp [hpad])]
  rfl

/-- A release that is not the one of a modifier does nothing. -/
theorem keyHandler_up {type value : Nat} (h4 : type ≠ 4) (h7 : type ≠ 7) (h12 : type ≠ 12) :
    keyHandler type value true k = .ok k := by
  unfold keyHandler
  split <;> first | rfl | contradiction

theorem computeShiftstate_silent (k : Driver) : Silent k (computeShiftstate k) := by
  refine ⟨(computeShiftstate_meets k).mono (fun k' hk' => ?_) fun _ _ => trivial⟩
  rw [hk'.1]
  rfl

theorem handleSym_silent {map : List Nat} {sym : Nat} (hmap : some map ∈ keyMaps)
    (hsym : map[keycode]? = some sym) (hok : symOk sym = true) (hpad : k.npadch = -1)
    (hsilent : up = true ∨ shiftOf keycode ≠ none) (shiftFinal : Nat) :
    Silent k (handleSym keycode sym shiftFinal up false k) := by
  have hfinish : ∀ (type : Nat) (x : Except Table Driver), Silent k x →
      Silent k (x >>= fun k => pure
        (if type ≠ ktSlock then { k with kbd := { k.kbd with slockstate := 0 } } else k)) := by
    intro type x hx
    refine ⟨hx.yields.bind fun k' hk' => ?_⟩
    change Driver.io _ = _
    split
    · exact hk'
    · exact hk'
  have hkey := map_shift hmap hsym
  unfold symOk at hok
  rw [Bool.and_eq_true] at hok
  have htypes := hok.2
  unfold handleSym
  simp only [Bool.false_eq_true, false_and, if_false]
  generalize htype : ktyp sym - 0xf0 = type at htypes ⊢
  by_cases h7 : type = 7
  · subst h7
    have hvalue : kval sym < 4 := by simpa using htypes
    rw [if_neg (by decide), if_neg (by decide), ok_bind]
    exact hfinish 7 _ (doShift_silent hpad hvalue)
  · have hup : up = true := by
      refine hsilent.resolve_right (not_not.mpr ?_)
      rw [hkey, if_neg]
      intro hf7
      rw [hf7] at htype
      exact h7 htype.symm
    subst hup
    by_cases hletter : type = ktLetter
    · rw [if_pos hletter, if_pos hletter]
      refine ⟨Yields.skip _ fun letter => (hfinish 0 _ ?_).yields⟩
      rw [keyHandler_up (by decide) (by decide) (by decide)]
      exact .ok rfl
    · rw [if_neg hletter, if_neg hletter, ok_bind]
      refine hfinish type _ ?_
      rw [keyHandler_up (fun h4 => by rw [h4] at htypes; cases htypes) h7
        fun h12 => by rw [h12] at htypes; cases htypes]
      exact .ok rfl

theorem handleKey_silent (hkeycode : keycode < nrKeys) (hpad : k.npadch = -1)
    (hsilent : up = true ∨ shiftOf keycode ≠ none) :
    Silent k (handleKey keycode up false k) := by
  unfold handleKey
  dsimp only
  cases hget : keyMaps[(k.shiftState ||| k.kbd.slockstate) ^^^ k.kbd.lockstate]? with
  | none => exact ⟨trivial⟩
  | some map =>
      rw [demand_some, ok_bind]
      cases map with
      | none => exact ⟨(computeShiftstate_silent k).yields.bind fun _ hk' => hk'⟩
      | some map =>
          have hmem := List.mem_of_getElem? hget
          obtain ⟨sym, hsym, hok⟩ := map_get hmem hkeycode
          dsimp only
          rw [hsym, demand_some, ok_bind]
          rw [if_pos (symOk_typ hok)]
          exact handleSym_silent hmem hsym hok hpad hsilent _

/-! ## Keys that send a character -/

theorem symChar_cases {sym c : Nat} (h : symChar sym = some c) :
    (ktyp sym = 0xf0 ∧ kval sym = c) ∨ (ktyp sym = 0xfb ∧ kval sym = c) ∨
      (sym = 0xf201 ∧ c = 13) := by
  unfold symChar at h
  split_ifs at h with htype henter
  · rw [Option.some.injEq] at h
    rcases htype with htype | htype
    · exact .inl ⟨htype, h⟩
    · exact .inr (.inl ⟨htype, h⟩)
  · exact .inr (.inr ⟨henter, (Option.some.inj h).symm⟩)

theorem doSelf_press (h : k.Wf) (value : Nat) : doSelf value false k = .ok (putQueue k value) := by
  unfold doSelf
  simp [h.diacr, h.deadKeyNext]

theorem doSpec_enter (h : k.Wf) (hcrlf : vcKbdMode k.kbd vcCrlf = false) :
    doSpec 1 false k = .ok (putQueue k 13) := by
  have hraw : ¬((k.kbd.kbdmode = .raw ∨ k.kbd.kbdmode = .mediumraw) ∧ (1 : Nat) ≠ 15) := by
    simp [h.kbdmode]
  have henter : enter k = putQueue k 13 := by
    unfold enter
    rw [if_neg (not_not.mpr h.diacr)]
    change (if vcKbdMode k.kbd vcCrlf = true then _ else _) = _
    rw [hcrlf]
    rfl
  unfold doSpec
  rw [if_neg (by decide), if_neg (by decide), if_neg hraw, ← henter]
  rfl

theorem handleSym_char {sym c : Nat} (h : k.Wf) (hchar : symChar sym = some c)
    (hcaps : vcKbdLed k.kbd vcCapslock = false) (hcrlf : vcKbdMode k.kbd vcCrlf = false)
    (shiftFinal : Nat) :
    handleSym keycode sym shiftFinal false false k = .ok (putQueue k c) := by
  have hself : ∀ type : Nat, (keyHandler 0 c false k >>= fun k => pure
      (if type ≠ ktSlock then { k with kbd := { k.kbd with slockstate := 0 } } else k)) =
      .ok (putQueue k c) := by
    intro type
    change (doSelf c false k >>= _) = _
    rw [doSelf_press h, ok_bind]
    split
    · rw [pure_eq_ok, ← h.slockstate]
      rfl
    · rfl
  unfold handleSym
  simp only [Bool.false_eq_true, false_and, if_false]
  rcases symChar_cases hchar with ⟨htype, rfl⟩ | ⟨htype, rfl⟩ | ⟨rfl, rfl⟩
  · rw [htype, if_neg (by decide), if_neg (by decide), ok_bind]
    exact hself 0
  · have hletter : letterSym keycode sym shiftFinal k = .ok sym := by
      unfold letterSym
      rw [hcaps]
      rfl
    rw [htype, if_pos (by decide), if_pos (by decide), hletter, ok_bind]
    exact hself 0
  · have hktyp : ktyp 0xf201 - 0xf0 = 2 := by decide
    rw [hktyp, if_neg (by decide), if_neg (by decide), ok_bind]
    change (doSpec 1 false k >>= _) = _
    rw [doSpec_enter h hcrlf, ok_bind, if_pos (by decide), pure_eq_ok, ← h.slockstate]
    rfl

theorem charAt_sym {shift c : Nat} (h : charAt shift key = some c) :
    ∃ map sym, keyMaps[shift]? = some (some map) ∧ map[key]? = some sym ∧
      symChar sym = some c := by
  obtain ⟨map, hmap, hsym⟩ := Option.bind_eq_some_iff.mp h
  obtain ⟨sym, hget, hchar⟩ := Option.bind_eq_some_iff.mp hsym
  exact ⟨map, sym, Option.join_eq_some_iff.mp hmap, hget, hchar⟩

theorem symChar_typ {sym c : Nat} (h : symChar sym = some c) :
    0xf0 ≤ ktyp sym ∧ ktyp sym ≠ 0xf7 := by
  rcases symChar_cases h with ⟨htype, -⟩ | ⟨htype, -⟩ | ⟨rfl, -⟩
  · omega
  · omega
  · decide

theorem handleKey_char {c : Nat} (h : k.Wf) (hchar : charAt k.shiftState keycode = some c)
    (hcaps : vcKbdLed k.kbd vcCapslock = false) (hcrlf : vcKbdMode k.kbd vcCrlf = false) :
    handleKey keycode false false k = .ok (putQueue k c) := by
  obtain ⟨map, sym, hmap, hsym, hsymChar⟩ := charAt_sym hchar
  unfold handleKey
  dsimp only
  rw [h.slockstate, h.lockstate, Nat.or_zero, Nat.xor_zero, hmap, demand_some, ok_bind]
  dsimp only
  rw [hsym, demand_some, ok_bind]
  rw [if_pos (symChar_typ hsymChar).1]
  exact handleSym_char h hsymChar hcaps hcrlf _

/-! ## The driver follows the typist -/

structure Follows (t : Typist) (k : Driver) : Prop where
  ready : Ready k
  exact : Exact k
  codes : ∀ key, t.held key = true → (scancodeOf key).isSome = true
  held : k.keyDown = t.held
  sent : k.sent = t.typed.map fun c => cString [c]
  npadch : k.npadch = -1
  dark : k.kbd.ledflagstate = 0
  modeflags : k.kbd.modeflags = 20

/-- The driver behind a key that may send something. -/
theorem Follows.after (h : Follows t k) (key : Nat) (up : Bool) {k₁ : Driver} (hwf : k₁.Wf)
    (hstill : k₁.still = (trackKey key up k).1.still) (hexact : Exact k₁)
    (hheld : t'.held = (trackKey key up k).1.keyDown)
    (hcodes : ∀ key, t'.held key = true → (scancodeOf key).isSome = true)
    (hsent : k₁.sent = t'.typed.map fun c => cString [c])
    (hpad : k₁.npadch = -1) (hdark : k₁.kbd.ledflagstate = 0) : Follows t' (kbdBh k₁) := by
  have hledstate : k.ledstate = 0 := h.ready.lit.symm.trans h.dark
  have hframe : (trackKey key up k).1.init = k.init ∧
      (trackKey key up k).1.prevScancode = k.prevScancode ∧
      (trackKey key up k).1.kbd.modeflags = k.kbd.modeflags := by
    unfold trackKey
    split <;> exact ⟨rfl, rfl, rfl⟩
  have hcore := core_kbdBh k₁
  have hbh : (kbdBh k₁).sent = k₁.sent ∧ (kbdBh k₁).npadch = k₁.npadch ∧
      (kbdBh k₁).kbd = k₁.kbd ∧ (kbdBh k₁).kbd.ledflagstate = (kbdBh k₁).ledstate := by
    unfold kbdBh
    split_ifs with hlit
    · exact ⟨rfl, rfl, rfl, rfl⟩
    · exact ⟨rfl, rfl, rfl, not_not.mp hlit⟩
  obtain ⟨hbhsent, hbhpad, hbhkbd, hbhlit⟩ := hbh
  have hinit : k₁.init = true :=
    (congrArg Driver.init hstill :).trans (hframe.1.trans h.ready.init)
  have hprev : k₁.prevScancode = 0 :=
    (congrArg Driver.prevScancode hstill :).trans (hframe.2.1.trans h.ready.prev)
  have hmode : k₁.kbd.modeflags = 20 :=
    (congrArg (fun k => k.kbd.modeflags) hstill :).trans (hframe.2.2.trans h.modeflags)
  have hkeys : k₁.keyDown = (trackKey key up k).1.keyDown := (congrArg Driver.keyDown hstill :)
  refine ⟨⟨hwf.of_core hcore, ?_, ?_, hbhlit⟩, hexact.of_core hcore, hcodes, ?_, ?_, ?_, ?_, ?_⟩
  · exact (congrArg Driver.init hcore :).trans hinit
  · exact (congrArg Driver.prevScancode hcore :).trans hprev
  · have hsame : (kbdBh k₁).keyDown = k₁.keyDown := (congrArg Driver.keyDown hcore :)
    rw [hsame, hkeys, hheld]
  · rw [hbhsent, hsent]
  · rw [hbhpad, hpad]
  · rw [hbhkbd, hdark]
  · rw [hbhkbd, hmode]

theorem Follows.handleKeycode (h : Follows t k) (key : Nat) (up : Bool) :
    handleKeycode key up false k =
      handleKey key (trackKey key up k).2 false (trackKey key up k).1 := by
  have hkbd : (trackKey key up k).1.kbd = k.kbd := by
    unfold trackKey
    split <;> rfl
  have hmode : decide ((trackKey key up k).1.kbd.kbdmode = .mediumraw) = false := by
    rw [hkbd, h.ready.wf.kbdmode]
    rfl
  have hrepeat : vcKbdMode (trackKey key up k).1.kbd vcRepeat = true := by
    rw [hkbd, vcKbdMode, h.modeflags]
    rfl
  unfold Keyboard.handleKeycode
  simp only [hmode, Bool.false_eq_true, if_false, Bool.or_false]
  rw [if_pos (.inr hrepeat)]

/-- A stroke that sends nothing. -/
theorem Follows.silent (h : Follows t k) (hsome : (scancodeOf stroke.key).isSome = true)
    (hheld : t'.held = (trackKey stroke.key stroke.up k).1.keyDown)
    (hcodes : ∀ key, t'.held key = true → (scancodeOf key).isSome = true)
    (htyped : t'.typed = t.typed) (hdown : stroke.up = true → k.keyDown stroke.key = true)
    (hsilent : stroke.up = true ∨ shiftOf stroke.key ≠ none) :
    ∃ k', feed stroke.bytes k = .ok k' ∧ Follows t' k' := by
  obtain ⟨p, hp⟩ := Option.isSome_iff_exists.mp hsome
  have hlt : stroke.key < nrKeys := by
    have h128 := (scancodeOf_lt hp).2
    unfold nrKeys
    omega
  have hio : (trackKey stroke.key stroke.up k).1.io = k.io := by
    unfold trackKey
    split <;> rfl
  have hup : (trackKey stroke.key stroke.up k).2 = true ∨ shiftOf stroke.key ≠ none := by
    refine hsilent.imp_left fun hup => ?_
    unfold trackKey
    rw [if_pos hup, if_pos (hdown hup)]
  have hpad : (trackKey stroke.key stroke.up k).1.npadch = -1 :=
    (congrArg (fun io => io.2.1) hio :).trans h.npadch
  have hhandles : Handles stroke.key (trackKey stroke.key stroke.up k).2
      (trackKey stroke.key stroke.up k).1 (Keyboard.handleKeycode stroke.key stroke.up false k) :=
    handleKeycode_handles h.ready.wf hlt
  obtain ⟨k₁, hrun, hwf, hstill, heffect⟩ := hhandles.meets.exists_ok
  have hsame : k₁.io = k.io := by
    rw [h.handleKeycode] at hrun
    exact ((handleKey_silent hlt hpad hup).yields.of_ok hrun).trans hio
  have hexact : Exact k₁ :=
    exact_key h.exact hlt (fun hup => .inl (hdown hup)) (congrArg Driver.keyDown hstill :) heffect
  refine ⟨kbdBh k₁, ?_, h.after _ _ hwf hstill hexact hheld hcodes ?_ ?_ ?_⟩
  · rw [feed_stroke h.ready hsome, deliver, hrun]
    rfl
  · have hsent : k₁.sent = k.sent := (congrArg (fun io => io.1) hsame :)
    rw [hsent, h.sent, htyped]
  · exact (congrArg (fun io => io.2.1) hsame :).trans h.npadch
  · exact (congrArg (fun io => io.2.2) hsame :).trans h.dark

/-- A press that sends a character. -/
theorem Follows.char (h : Follows t k) {c : Nat} (hsome : (scancodeOf key).isSome = true)
    (hshift : shiftOf key = none) (hchar : charAt (mods t.held) key = some c) :
    ∃ k', feed (Stroke.mk key false).bytes k = .ok k' ∧
      Follows ⟨Function.update t.held key true, t.typed ++ [c]⟩ k' := by
  obtain ⟨p, hp⟩ := Option.isSome_iff_exists.mp hsome
  have hlt : key < nrKeys := by
    have h128 := (scancodeOf_lt hp).2
    unfold nrKeys
    omega
  have hwf := h.ready.wf.trackKey key false
  have hstate : (trackKey key false k).1.shiftState = mods t.held := by
    rw [← h.held]
    exact shiftState_mods h.ready.wf h.exact
  have hkey : handleKey key false false (trackKey key false k).1 =
      .ok (putQueue (trackKey key false k).1 c) := by
    refine handleKey_char hwf (by rw [hstate, hchar]) ?_ ?_
    · change vcKbdLed k.kbd vcCapslock = false
      rw [vcKbdLed, h.dark]
      rfl
    · change vcKbdMode k.kbd vcCrlf = false
      rw [vcKbdMode, h.modeflags]
      rfl
  refine ⟨kbdBh (putQueue (trackKey key false k).1 c), ?_, ?_⟩
  · have hrun := h.handleKeycode key false
    rw [feed_stroke h.ready hsome, deliver]
    change (Keyboard.handleKeycode key false false k).map kbdBh = _
    rw [hrun]
    change (handleKey key false false (trackKey key false k).1).map kbdBh = _
    rw [hkey]
    rfl
  · have hexact : Exact (putQueue (trackKey key false k).1 c) := by
      funext v
      change k.kDown v = heldCount (Function.update k.keyDown key true) _ v
      rw [heldCount_other _ _ hlt (by simp [hshift]), h.exact]
    refine h.after key false (hwf.of_core (core_putQueue _ c))
      (still_of_core (core_putQueue _ c)) hexact ?_ ?_ ?_ h.npadch h.dark
    · change _ = Function.update k.keyDown key true
      rw [h.held]
    · intro other hother
      by_cases heq : other = key
      · rw [heq]
        exact hsome
      · exact h.codes other (by simpa [Function.update_of_ne heq] using hother)
    · change k.sent ++ [cString [c]] = _
      rw [h.sent, List.map_append]
      rfl

theorem Follows.play (h : Follows t k) (hplay : t.play stroke = some t') :
    ∃ k', feed stroke.bytes k = .ok k' ∧ Follows t' k' := by
  obtain ⟨key, up⟩ := stroke
  unfold Typist.play at hplay
  dsimp only at hplay
  by_cases hcode : (scancodeOf key).isNone = true
  · rw [if_pos hcode] at hplay
    cases hplay
  · rw [if_neg hcode] at hplay
    have hsome : (scancodeOf key).isSome = true := by
      rw [Option.isSome_iff_ne_none]
      exact fun hnone => hcode (by rw [hnone]; rfl)
    have hcodes : ∀ b other, Function.update t.held key b other = true →
        (scancodeOf other).isSome = true := by
      intro b other hother
      by_cases heq : other = key
      · rw [heq]
        exact hsome
      · exact h.codes other (by simpa [Function.update_of_ne heq] using hother)
    cases up with
    | true =>
        rw [if_pos rfl] at hplay
        split_ifs at hplay with hheld
        cases hplay
        refine h.silent hsome ?_ (hcodes false) rfl (fun _ => ?_) (.inl rfl)
        · change _ = Function.update k.keyDown key false
          rw [h.held]
        · change k.keyDown key = true
          rw [h.held]
          exact hheld
    | false =>
        rw [if_neg (by decide)] at hplay
        split_ifs at hplay with hshift
        · cases hplay
          refine h.silent hsome ?_ (hcodes true) rfl (fun hup => by cases hup)
            (.inr (Option.isSome_iff_ne_none.mp hshift))
          change _ = Function.update k.keyDown key true
          rw [h.held]
        · obtain ⟨c, hchar, ht'⟩ := Option.map_eq_some_iff.mp hplay
          rw [← ht']
          exact h.char hsome (by simpa using hshift) hchar

/-! ## Runs -/

theorem feed_append (codes later : List UInt8) (k : Driver) :
    feed (codes ++ later) k = feed codes k >>= feed later := by
  unfold feed
  rw [List.foldlM_append]

theorem feed_path {codes : List UInt8} (h : feed codes k = .ok k') :
    Path machine k codes k' := by
  induction codes generalizing k with
  | nil =>
      cases h
      exact .nil _
  | cons code codes ih =>
      obtain ⟨k₁, hrun, hrest⟩ := bind_eq_ok.mp h
      exact .cons trivial hrun (ih hrest)

theorem unused_follows : Follows .rested unused.ready where
  ready := ⟨unused_wf.ready, rfl, rfl, rfl⟩
  exact := by
    funext v
    exact (List.countP_eq_zero.mpr fun i _ => by simp [unused.eq_1, Driver.ready,
      keyboardInit, kbdBh]).symm
  codes := fun _ h => by cases h
  held := rfl
  sent := rfl
  npadch := rfl
  dark := rfl
  modeflags := rfl

theorem follows_strokes (strokes : List Stroke) {t t' : Typist} {k : Driver} (h : Follows t k)
    (hplay : accept Typist.play t strokes = some t') :
    ∃ k', feed (strokes.flatMap Stroke.bytes) k = .ok k' ∧ Follows t' k' := by
  induction strokes generalizing t k with
  | nil =>
      cases hplay
      exact ⟨k, rfl, h⟩
  | cons stroke strokes ih =>
      rw [accept_cons] at hplay
      obtain ⟨t₁, hfirst, hrest⟩ := Option.bind_eq_some_iff.mp hplay
      obtain ⟨k₁, hfeed, h₁⟩ := h.play hfirst
      obtain ⟨k', hfeed', h'⟩ := ih h₁ hrest
      refine ⟨k', ?_, h'⟩
      rw [List.flatMap_cons, feed_append, hfeed, ok_bind, hfeed']

theorem doScancode_ready (code : UInt8) : doScancode code unused = doScancode code unused.ready :=
  rfl

theorem feed_ready {codes : List UInt8} (hne : codes ≠ []) :
    feed codes unused = feed codes unused.ready := by
  cases codes with
  | nil => exact absurd rfl hne
  | cons code codes => rw [feed_cons, feed_cons, doScancode_ready]

/-- Whatever a typist does, the driver sends the characters typed, in the order of the presses. -/
theorem typed_is_sent {strokes : List Stroke}
    (h : accept Typist.play .rested strokes = some t) :
    ∃ k, Path machine unused (strokes.flatMap Stroke.bytes) k ∧
      k.sent = t.typed.map (fun c => cString [c]) ∧ k.keyDown = t.held := by
  obtain ⟨k, hfeed, hk⟩ := follows_strokes strokes unused_follows h
  by_cases hne : strokes.flatMap Stroke.bytes = []
  · rw [hne] at hfeed ⊢
    cases hfeed
    exact ⟨unused, .nil unused, hk.sent, hk.held⟩
  · rw [← feed_ready hne] at hfeed
    exact ⟨k, feed_path hfeed, hk.sent, hk.held⟩

/-- Shift and two letters that overlap: `Zs`, with a repeated `s`. -/
theorem typed_is_sent_overlap : ∃ k, Path machine unused
      [0x2a, 0x11, 0xaa, 0x1f, 0x91, 0x1f, 0x9f] k ∧ k.sent = [[90], [115], [115]] := by
  have hplay : ((accept Typist.play .rested
      [⟨42, false⟩, ⟨17, false⟩, ⟨42, true⟩, ⟨31, false⟩, ⟨17, true⟩, ⟨31, false⟩, ⟨31, true⟩]).any
        fun t => decide (t.typed = [90, 115, 115])) = true := by decide +kernel
  obtain ⟨t, ht, htyped⟩ := (Option.any_eq_true _ _).mp hplay
  obtain ⟨k, hpath, hsent, -⟩ := typed_is_sent ht
  refine ⟨k, ?_, ?_⟩
  · simpa [Stroke.bytes, scancodeOf, scLim] using hpath
  · rw [hsent, of_decide_eq_true htyped]
    decide

/-! ## Every text can be typed -/

/-- The key that is held for a map. -/
def modifierKey (shift : Nat) : Option Nat :=
  if shift = 1 then some 42 else if shift = 2 then some 100 else if shift = 4 then some 29 else none

/-- A map and a key for a character. -/
def chordOf (c : Nat) : Option (Nat × Nat) :=
  ([0, 1, 2, 4].flatMap fun shift => (List.range 64).map fun key => (shift, key)).find?
    fun chord => decide (charAt chord.1 chord.2 = some c)

def chordStrokes (chord : Nat × Nat) : List Stroke :=
  let held := (modifierKey chord.1).toList
  (held ++ [chord.2]).map (fun key => ⟨key, false⟩) ++
    (chord.2 :: held).map fun key => ⟨key, true⟩

def strokesOf (c : Nat) : List Stroke := (chordOf c).toList.flatMap chordStrokes

/-- A chord whose strokes a rested typist can play. -/
def chordOk (c : Nat) (chord : Nat × Nat) : Bool :=
  decide (charAt chord.1 chord.2 = some c ∧ shiftOf chord.2 = none) &&
    (scancodeOf chord.2).isSome &&
    match modifierKey chord.1 with
    | some m =>
        decide (m ≠ chord.2 ∧ mods (Function.update (fun _ => false) m true) = chord.1) &&
          ((shiftOf m).isSome && (scancodeOf m).isSome)
    | none => decide (mods (fun _ => false) = chord.1)

theorem chords_ok : ((List.range 127).all fun i =>
    (chordOf (i + 1)).any (chordOk (i + 1))) = true := by
  decide +kernel

theorem code_not_none (hsome : (scancodeOf key).isSome = true) :
    ¬(scancodeOf key).isNone = true := by
  simpa [Option.isSome_iff_ne_none] using hsome

theorem play_modifier (hsome : (scancodeOf key).isSome = true)
    (hshift : (shiftOf key).isSome = true) :
    t.play ⟨key, false⟩ = some { t with held := Function.update t.held key true } := by
  unfold Typist.play
  dsimp only
  rw [if_neg (code_not_none hsome), if_neg Bool.false_ne_true, if_pos hshift]

theorem play_char {c : Nat} (hsome : (scancodeOf key).isSome = true) (hshift : shiftOf key = none)
    (hchar : charAt (mods t.held) key = some c) :
    t.play ⟨key, false⟩ = some ⟨Function.update t.held key true, t.typed ++ [c]⟩ := by
  unfold Typist.play
  dsimp only
  rw [if_neg (code_not_none hsome), if_neg Bool.false_ne_true, if_neg (by simp [hshift]), hchar]
  rfl

theorem play_release (hsome : (scancodeOf key).isSome = true) (hheld : t.held key = true) :
    t.play ⟨key, true⟩ = some { t with held := Function.update t.held key false } := by
  unfold Typist.play
  dsimp only
  rw [if_neg (code_not_none hsome), if_pos rfl, if_pos hheld]

theorem update_twice (held : Nat → Bool) (h : held key = false) :
    Function.update (Function.update held key true) key false = held := by
  rw [Function.update_idem, ← h, Function.update_eq_self]

/-- A rested typist types one character and rests again. -/
theorem play_chord {c : Nat} {chord : Nat × Nat} (hok : chordOk c chord = true)
    (typed : List Nat) :
    accept Typist.play ⟨fun _ => false, typed⟩ (chordStrokes chord) =
      some ⟨fun _ => false, typed ++ [c]⟩ := by
  unfold chordOk at hok
  rw [Bool.and_eq_true, Bool.and_eq_true, decide_eq_true_eq] at hok
  obtain ⟨⟨⟨hchar, hshift⟩, hsome⟩, hmodifier⟩ := hok
  unfold chordStrokes
  cases hm : modifierKey chord.1 with
  | none =>
      rw [hm] at hmodifier
      have hmods := of_decide_eq_true hmodifier
      change accept Typist.play _ [⟨chord.2, false⟩, ⟨chord.2, true⟩] = _
      rw [accept_cons, play_char hsome hshift (by rw [hmods, hchar]), Option.bind_some,
        accept_cons, play_release hsome (Function.update_self _ _ _), Option.bind_some,
        accept_nil]
      dsimp only
      rw [update_twice _ rfl]
  | some m =>
      rw [hm] at hmodifier
      dsimp only at hmodifier
      rw [Bool.and_eq_true, Bool.and_eq_true, decide_eq_true_eq] at hmodifier
      obtain ⟨⟨hne, hmods⟩, hmshift, hmsome⟩ := hmodifier
      have hfree : Function.update (fun _ => false) m true chord.2 = false :=
        Function.update_of_ne hne.symm _ _
      change accept Typist.play _
        [⟨m, false⟩, ⟨chord.2, false⟩, ⟨chord.2, true⟩, ⟨m, true⟩] = _
      rw [accept_cons, play_modifier hmsome hmshift, Option.bind_some, accept_cons,
        play_char hsome hshift (by rw [hmods, hchar]), Option.bind_some, accept_cons,
        play_release hsome (Function.update_self _ _ _), Option.bind_some]
      dsimp only
      rw [update_twice _ hfree, accept_cons,
        play_release hmsome (by simp), Option.bind_some, accept_nil]
      dsimp only
      rw [update_twice _ rfl]

theorem play_strokesOf {c : Nat} (hc : 0 < c ∧ c < 128) (typed : List Nat) :
    accept Typist.play ⟨fun _ => false, typed⟩ (strokesOf c) =
      some ⟨fun _ => false, typed ++ [c]⟩ := by
  have hall := List.all_eq_true.mp chords_ok (c - 1) (List.mem_range.mpr (by omega))
  rw [Nat.sub_add_cancel hc.1] at hall
  obtain ⟨chord, hchord, hok⟩ := (Option.any_eq_true _ _).mp hall
  unfold strokesOf
  rw [hchord, Option.toList_some, List.flatMap_singleton]
  exact play_chord hok typed

theorem play_text (text typed : List Nat) (htext : ∀ c ∈ text, 0 < c ∧ c < 128) :
    accept Typist.play ⟨fun _ => false, typed⟩ (text.flatMap strokesOf) =
      some ⟨fun _ => false, typed ++ text⟩ := by
  induction text generalizing typed with
  | nil => simp
  | cons c text ih =>
      have hrest := ih (typed ++ [c]) fun d hd => htext d (List.mem_cons_of_mem _ hd)
      rw [List.flatMap_cons, accept_append, play_strokesOf (htext c List.mem_cons_self),
        Option.bind_some, hrest, List.append_assoc, List.singleton_append]

/-- Every text of 7-bit characters other than 0 can be typed: its strokes make the driver send
exactly its characters, and leave no key down. -/
theorem every_text_typed (text : List Nat) (htext : ∀ c ∈ text, 0 < c ∧ c < 128) :
    ∃ k, Path machine unused ((text.flatMap strokesOf).flatMap Stroke.bytes) k ∧
      k.sent = text.map (fun c : Nat => [(c : Int)]) ∧ k.keyDown = fun _ => false := by
  obtain ⟨k, hpath, hsent, hheld⟩ := typed_is_sent (play_text text [] htext)
  refine ⟨k, hpath, ?_, hheld⟩
  rw [hsent, List.nil_append]
  refine List.map_congr_left fun c hc => ?_
  have hsmall : c % 256 = c := Nat.mod_eq_of_lt (by have := (htext c hc).2; omega)
  have hne : c ≠ 0 := Nat.ne_of_gt (htext c hc).1
  simp [cString, signedChar, hsmall, hne, (htext c hc).2]

/-- The text `~Ab` and a carriage return. -/
theorem every_text_typed_line : ∃ k, Path machine unused
      (([126, 65, 98, 13].flatMap strokesOf).flatMap Stroke.bytes) k ∧
      k.sent = [[126], [65], [98], [13]] ∧ k.keyDown = fun _ => false :=
  every_text_typed [126, 65, 98, 13] (by decide)

end SchlagOS.Keyboard
