import SchlagOS.Keyboard.Modifiers
import Mathlib.Data.List.Induction
import Mathlib.Tactic.IntervalCases

/-!
# No access outside the tables

Whatever bytes the keyboard sends, the driver never reads or writes outside a
table.  The handlers other than the one of the modifier keys leave the core of
the state alone, and the modifiers stay among the four that the default layout
has.
-/

namespace SchlagOS.Keyboard

open Foundation

variable {k k' : Driver} {map : List Nat} {value keycode : Nat} {up : Bool}

/-! ## What the layout contains -/

/-- A symbol that a handler can take without leaving its tables, and that neither locks a
modifier nor begins a composed character. -/
def symOk (sym : Nat) : Bool :=
  decide (0xf0 ≤ ktyp sym) &&
    match ktyp sym - 0xf0 with
    | 2 => kval sym ≠ 14
    | 3 => kval sym < padChars.length
    | 6 => kval sym < curChars.length
    | 7 => kval sym < 4
    | 4 => false
    | 10 => false
    | 12 => false
    | 13 => false
    | _ => true

theorem symOk_typ {sym : Nat} (h : symOk sym = true) : 0xf0 ≤ ktyp sym := by
  unfold symOk at h
  rw [Bool.and_eq_true, decide_eq_true_eq] at h
  exact h.1

theorem keyMaps_length : keyMaps.length = 256 := by decide +kernel

theorem funcTable_length : funcTable.length = 256 := by decide +kernel

theorem maps_ok : (keyMaps.all fun map =>
    map.all fun map => decide (map.length = nrKeys) && map.all symOk) = true := by
  decide +kernel

theorem map_ok (hmap : some map ∈ keyMaps) :
    map.length = nrKeys ∧ ∀ sym ∈ map, symOk sym = true := by
  have h := List.all_eq_true.mp maps_ok _ hmap
  simpa using h

theorem map_get (hmap : some map ∈ keyMaps) (hkeycode : keycode < nrKeys) :
    ∃ sym, map[keycode]? = some sym ∧ symOk sym = true := by
  obtain ⟨hlength, hsyms⟩ := map_ok hmap
  have hlt : keycode < map.length := by omega
  exact ⟨map[keycode], List.getElem?_eq_getElem hlt, hsyms _ (List.getElem_mem hlt)⟩

theorem keyMaps_get {i : Nat} (hi : i < 256) :
    ∃ map, keyMaps[i]? = some map ∧ map ∈ keyMaps := by
  have hlt : i < keyMaps.length := by
    rw [keyMaps_length]
    exact hi
  exact ⟨keyMaps[i], List.getElem?_eq_getElem hlt, List.getElem_mem hlt⟩

/-! ## The core of the state -/

/-- The state without the lights, the pad number and the output. -/
def Driver.core (k : Driver) : Driver :=
  { k with
    npadch := 0, ledstate := 0, stopped := false, leds := [], sent := []
    kbd := { k.kbd with ledflagstate := 0 } }

/-- No table is left, and only lights, pad number and output may change. -/
def Quiet (k : Driver) (x : Except Table Driver) : Prop :=
  Meets x (fun k' => k'.core = k.core) fun _ => False

@[simp] theorem core_putQueue (k : Driver) (ch : Nat) : (putQueue k ch).core = k.core := rfl

@[simp] theorem core_putsQueue (k : Driver) (cp : List Nat) : (putsQueue k cp).core = k.core := rfl

@[simp] theorem core_applkey (k : Driver) (key : Nat) (mode : Bool) :
    (applkey k key mode).core = k.core := rfl

@[simp] theorem core_toUtf8 (k : Driver) (c : Nat) : (toUtf8 k c).core = k.core := by
  unfold toUtf8
  split
  · rfl
  · split <;> rfl

@[simp] theorem core_kbdBh (k : Driver) : (kbdBh k).core = k.core := by
  unfold kbdBh
  split <;> rfl

theorem Quiet.ok (h : k'.core = k.core) : Quiet k (.ok k') := h

theorem quiet_doFn (hvalue : value < 256) : Quiet k (doFn value up k) := by
  unfold doFn
  split
  · exact .ok rfl
  · have hlt : value < funcTable.length := by
      rw [funcTable_length]
      exact hvalue
    rw [List.getElem?_eq_getElem hlt, demand_some, ok_bind]
    split <;> exact .ok rfl

theorem quiet_doCur (hvalue : value < curChars.length) : Quiet k (doCur value up k) := by
  unfold doCur
  split
  · exact .ok rfl
  · rw [List.getElem?_eq_getElem hvalue, demand_some, ok_bind]
    exact .ok rfl

theorem quiet_padNumber (hvalue : value < padChars.length) : Quiet k (padNumber value k) := by
  unfold padNumber
  rw [List.getElem?_eq_getElem hvalue, demand_some, ok_bind]
  refine .ok ?_
  split <;> rfl

theorem quiet_padCursor {x : Except Table Driver} (h : padCursor value k = some x) :
    Quiet k x := by
  unfold padCursor at h
  split at h
  all_goals cases h
  all_goals first
    | exact quiet_doFn (by decide)
    | exact quiet_doCur (by decide)
    | exact .ok rfl

theorem quiet_doPad (hvalue : value < padChars.length) : Quiet k (doPad value up k) := by
  have happMap : value < appMap.length := hvalue
  unfold doPad
  split
  · exact .ok rfl
  · split
    · rw [List.getElem?_eq_getElem happMap, demand_some, ok_bind]
      exact .ok rfl
    · split
      · exact quiet_padNumber hvalue
      · cases h : padCursor value k with
        | none => exact quiet_padNumber hvalue
        | some x => exact quiet_padCursor h

theorem quiet_doMeta : Quiet k (doMeta value up k) := by
  unfold doMeta
  split
  · exact .ok rfl
  · split <;> exact .ok rfl

theorem quiet_doAscii : Quiet k (doAscii value up k) := by
  unfold doAscii
  split
  · exact .ok rfl
  · dsimp only
    split <;> exact .ok rfl

theorem quiet_doSelf (hdiacr : k.diacr = 0) (hdead : k.deadKeyNext = false) :
    Quiet k (doSelf value up k) := by
  unfold doSelf
  split
  · exact .ok rfl
  · rw [if_neg (not_not.mpr hdiacr)]
    dsimp only
    rw [if_neg (by simp [hdead])]
    exact .ok rfl

theorem core_enter (hdiacr : k.diacr = 0) : (enter k).core = k.core := by
  unfold enter
  rw [if_neg (not_not.mpr hdiacr)]
  dsimp only
  split <;> rfl

@[simp] theorem core_capsToggle (k : Driver) : (capsToggle k).core = k.core := by
  unfold capsToggle
  split <;> rfl

@[simp] theorem core_capsOn (k : Driver) : (capsOn k).core = k.core := by
  unfold capsOn
  split <;> rfl

@[simp] theorem core_hold (k : Driver) : (hold k).core = k.core := by
  unfold hold
  split <;> rfl

@[simp] theorem core_bareNum (k : Driver) : (bareNum k).core = k.core := by
  unfold bareNum
  split <;> rfl

@[simp] theorem core_num (k : Driver) : (num k).core = k.core := by
  unfold num
  split
  · rfl
  · exact core_bareNum k

/-- A special function that the layout uses recounts the modifiers, or is quiet. -/
theorem specFn_quiet (hvalue : value < specFnTable.length) (hcompose : value ≠ 14) :
    ∃ f, specFnTable[value]? = some f ∧ (f = doNull ∨ ∀ k, k.diacr = 0 → Quiet k (f k)) := by
  change value < 20 at hvalue
  interval_cases value
  all_goals first
    | exact absurd rfl hcompose
    | exact ⟨_, rfl, .inl rfl⟩
    | exact ⟨_, rfl, .inr fun k h => .ok (core_enter h)⟩
    | exact ⟨_, rfl, .inr fun k _ => .ok rfl⟩
    | exact ⟨_, rfl, .inr fun k _ => .ok (core_capsToggle k)⟩
    | exact ⟨_, rfl, .inr fun k _ => .ok (core_capsOn k)⟩
    | exact ⟨_, rfl, .inr fun k _ => .ok (core_hold k)⟩
    | exact ⟨_, rfl, .inr fun k _ => .ok (core_num k)⟩
    | exact ⟨_, rfl, .inr fun k _ => .ok (core_bareNum k)⟩

/-! ## The invariant -/

/-- What holds whatever bytes have arrived. -/
structure Driver.Wf (k : Driver) : Prop where
  highKeys : k.highKeys = defaultHighKeys
  e0Keys : k.e0Keys = defaultE0Keys
  lockstate : k.kbd.lockstate = 0
  slockstate : k.kbd.slockstate = 0
  kbdmode : k.kbd.kbdmode = .xlate
  diacr : k.diacr = 0
  deadKeyNext : k.deadKeyNext = false
  bits : Bits k
  high : ∀ v, 4 ≤ v → k.kDown v = 0

/-- The state without what the handlers change. -/
def Driver.still (k : Driver) : Driver := { k.core with kDown := fun _ => 0, shiftState := 0 }

theorem still_of_core (hcore : k'.core = k.core) : k'.still = k.still := by
  unfold Driver.still
  rw [hcore]

theorem Driver.Wf.of_still (h : k.Wf) (hstill : k'.still = k.still) (hbits : Bits k')
    (hhigh : ∀ v, 4 ≤ v → k'.kDown v = 0) : k'.Wf where
  highKeys := (congrArg Driver.highKeys hstill).trans h.highKeys
  e0Keys := (congrArg Driver.e0Keys hstill).trans h.e0Keys
  lockstate := (congrArg (fun k => k.kbd.lockstate) hstill).trans h.lockstate
  slockstate := (congrArg (fun k => k.kbd.slockstate) hstill).trans h.slockstate
  kbdmode := (congrArg (fun k => k.kbd.kbdmode) hstill).trans h.kbdmode
  diacr := (congrArg Driver.diacr hstill).trans h.diacr
  deadKeyNext := (congrArg Driver.deadKeyNext hstill).trans h.deadKeyNext
  bits := hbits
  high := hhigh

theorem Driver.Wf.of_core (h : k.Wf) (hcore : k'.core = k.core) : k'.Wf := by
  have hdown : k'.kDown = k.kDown := (congrArg Driver.kDown hcore :)
  have hshift : k'.shiftState = k.shiftState := (congrArg Driver.shiftState hcore :)
  refine h.of_still (still_of_core hcore) (fun v => ?_) ?_
  · rw [hdown, hshift]
    exact h.bits v
  · rw [hdown]
    exact h.high

theorem Exact.high (h : Exact k) : ∀ v, 4 ≤ v → k.kDown v = 0 := by
  intro v hv
  rw [h]
  exact heldCount_high _ _ hv

/-! ## One key -/

/-- What the handler of a key does to the counters of the modifiers. -/
inductive KeyEffect (keycode : Nat) (up : Bool) (k k' : Driver) : Prop
  | quiet (hkey : shiftOf keycode = none ∨ k.rep = true) (hdown : k'.kDown = k.kDown)
  | shift (v : Nat) (hkey : shiftOf keycode = some v) (hrep : k.rep = false)
      (hdown : k'.kDown = Function.update k.kDown v (shiftDown up (k.kDown v)))
  | recount (hexact : Exact k')

/-- A key is handled without leaving a table. -/
structure Handles (keycode : Nat) (up : Bool) (k : Driver) (x : Except Table Driver) : Prop where
  meets : Meets x (fun k' => k'.Wf ∧ k'.still = k.still ∧ KeyEffect keycode up k k') fun _ => False

theorem Quiet.handles {x : Except Table Driver} (hx : Quiet k x) (h : k.Wf)
    (hkey : shiftOf keycode = none ∨ k.rep = true) : Handles keycode up k x :=
  ⟨hx.mono (fun _ hcore => ⟨h.of_core hcore, still_of_core hcore,
    .quiet hkey (congrArg Driver.kDown hcore :)⟩) fun _ he => he⟩

theorem computeShiftstate_handles (h : k.Wf) : Handles keycode up k (computeShiftstate k) := by
  refine ⟨(computeShiftstate_meets k).mono (fun k' hk' => ?_) fun _ he => he⟩
  obtain ⟨hframe, hbits, hexact⟩ := hk'
  have hstill : k'.still = k.still := by rw [hframe]; rfl
  exact ⟨h.of_still hstill hbits hexact.high, hstill, .recount hexact⟩

theorem doSpec_handles (h : k.Wf) (hvalue : value ≠ 14) (hkey : shiftOf keycode = none) :
    Handles keycode up k (doSpec value up k) := by
  have hquiet : Quiet k (.ok k) := .ok rfl
  have hraw : ¬((k.kbd.kbdmode = .raw ∨ k.kbd.kbdmode = .mediumraw) ∧ value ≠ 15) := by
    simp [h.kbdmode]
  unfold doSpec
  rw [if_neg hraw]
  split_ifs with hup hlarge
  · exact hquiet.handles h (.inl hkey)
  · exact hquiet.handles h (.inl hkey)
  · obtain ⟨f, hf, hspec⟩ := specFn_quiet (Nat.lt_of_not_le hlarge) hvalue
    rw [hf, demand_some, ok_bind]
    rcases hspec with rfl | hquiet
    · exact computeShiftstate_handles h
    · exact (hquiet k h.diacr).handles h (.inl hkey)

theorem doShift_handles (h : k.Wf) (hvalue : value < 4) (hkey : shiftOf keycode = some value) :
    Handles keycode up k (doShift value up k) := by
  cases hrep : k.rep with
  | true =>
      unfold doShift
      rw [if_pos hrep]
      exact (Quiet.ok rfl).handles h (.inr hrep)
  | false =>
      refine ⟨(doShift_meets h.bits h.high hvalue hrep).mono (fun k' hk' => ?_) fun _ he => he⟩
      obtain ⟨hbits, hdown, -, hframe⟩ := hk'
      have hstill : k'.still = k.still := (congrArg Driver.still hframe :)
      refine ⟨h.of_still hstill hbits fun v hv => ?_, hstill, .shift value hkey hrep hdown⟩
      rw [hdown, Function.update_of_ne (by omega)]
      exact h.high v hv

/-- The symbols of modifiers stand at the same keys in all maps. -/
theorem maps_shift : (keyMaps.all fun map => map.all fun map =>
    decide (plainMap.map shiftVal =
      map.map fun sym => if ktyp sym = 0xf7 then some (kval sym) else none)) = true := by
  decide +kernel

theorem map_shift {sym : Nat} (hmap : some map ∈ keyMaps) (hsym : map[keycode]? = some sym) :
    shiftOf keycode = if ktyp sym = 0xf7 then some (kval sym) else none := by
  have h := List.all_eq_true.mp maps_shift _ hmap
  have heq := congrArg (fun l => l[keycode]?) (of_decide_eq_true h)
  simp only [List.getElem?_map, hsym, Option.map_some] at heq
  unfold shiftOf
  cases hplain : plainMap[keycode]? with
  | none => simp [hplain] at heq
  | some plain => simpa [hplain] using heq

theorem keyHandler_handles {sym type : Nat} (h : k.Wf) (hok : symOk sym = true)
    (htype : type = if ktyp sym - 0xf0 = ktLetter then 0 else ktyp sym - 0xf0)
    (hkey : shiftOf keycode = if ktyp sym = 0xf7 then some (kval sym) else none)
    (hvalue : type ≠ 0 → value = kval sym) (hlt : value < 256) :
    Handles keycode up k (keyHandler type value up k) := by
  obtain ⟨hle, hok⟩ := Bool.and_eq_true_iff.mp hok
  have hle := of_decide_eq_true hle
  have hnone : type ≠ 7 → shiftOf keycode = none := by
    intro hne
    rw [hkey, if_neg]
    intro h7
    simp [h7, ktLetter] at htype
    exact hne htype
  have hsame : type ≠ 0 → ktyp sym - 0xf0 = type := by
    intro hne
    rw [htype] at hne ⊢
    split_ifs at hne with hletter
    · exact absurd rfl hne
    · rw [if_neg hletter]
  unfold keyHandler
  split
  all_goals try rw [hsame (by decide)] at hok
  · exact (quiet_doSelf h.diacr h.deadKeyNext).handles h (.inl (hnone (by decide)))
  · exact (quiet_doFn hlt).handles h (.inl (hnone (by decide)))
  · rw [hvalue (by decide)]
    exact doSpec_handles h (by simpa using hok) (hnone (by decide))
  · rw [hvalue (by decide)]
    exact (quiet_doPad (by simpa using hok)).handles h (.inl (hnone (by decide)))
  · cases hok
  · rw [hvalue (by decide)]
    exact (quiet_doCur (by simpa using hok)).handles h (.inl (hnone (by decide)))
  · have h7 := hsame (by decide)
    rw [hvalue (by decide)]
    refine doShift_handles h (by simpa using hok) ?_
    rw [hkey, if_pos (by omega)]
  · exact quiet_doMeta.handles h (.inl (hnone (by decide)))
  · exact quiet_doAscii.handles h (.inl (hnone (by decide)))
  · cases hok
  · cases hok
  · cases hok
  · exact (Quiet.ok rfl).handles h (.inl (hnone (by assumption)))

theorem letterSym_meets (h : k.Wf) (hkeycode : keycode < nrKeys) (keysym : Nat) :
    Meets (letterSym keycode keysym k.shiftState k) (fun _ => True) fun _ => False := by
  unfold letterSym
  split
  · have hshift := h.bits.lt h.high
    have hlt : k.shiftState ^^^ 1 <<< kgShift < 256 := by
      have hxor : k.shiftState ^^^ 1 < 2 ^ 4 := Nat.xor_lt_two_pow hshift (by decide)
      exact Nat.lt_trans hxor (by decide)
    obtain ⟨map, hget, hmem⟩ := keyMaps_get hlt
    rw [hget, demand_some, ok_bind]
    cases map with
    | none => trivial
    | some map =>
        obtain ⟨sym, hsym, -⟩ := map_get hmem hkeycode
        dsimp only
        rw [hsym]
        trivial
  · trivial

/-- Nothing is locked, so there is nothing to unlock. -/
theorem Driver.Wf.unlocked (h : k.Wf) :
    { k with kbd := { k.kbd with slockstate := 0 } } = k := by
  rw [← h.slockstate]

theorem handleSym_handles {sym : Nat} (h : k.Wf) (hkeycode : keycode < nrKeys)
    (hmap : some map ∈ keyMaps) (hsym : map[keycode]? = some sym) (hok : symOk sym = true) :
    Handles keycode up k (handleSym keycode sym k.shiftState up false k) := by
  have hkey := map_shift hmap hsym
  have hfinish : ∀ (type : Nat) (x : Except Table Driver), Handles keycode up k x →
      Handles keycode up k (x >>= fun k => pure
        (if type ≠ ktSlock then { k with kbd := { k.kbd with slockstate := 0 } } else k)) := by
    intro type x hx
    refine ⟨meets_bind.mpr (hx.meets.mono (fun k' hk' => ?_) fun _ he => he)⟩
    split
    · rw [hk'.1.unlocked]
      exact hk'
    · exact hk'
  unfold handleSym
  simp only [Bool.false_eq_true, false_and, if_false]
  generalize htype : ktyp sym - 0xf0 = type
  by_cases hletter : type = ktLetter
  · rw [if_pos hletter, if_pos hletter]
    refine ⟨meets_bind.mpr ((letterSym_meets h hkeycode sym).mono (fun letter _ => ?_)
      fun _ he => he)⟩
    have hself : Handles keycode up k (keyHandler 0 (kval letter) up k) :=
      keyHandler_handles h hok (by rw [htype, if_pos hletter]) hkey
        (fun hne => absurd rfl hne) (Nat.mod_lt _ (by decide))
    exact (hfinish 0 _ hself).meets
  · rw [if_neg hletter, if_neg hletter, ok_bind]
    exact hfinish _ _ (keyHandler_handles h hok (by rw [htype, if_neg hletter]) hkey
      (fun _ => rfl) (Nat.mod_lt _ (by decide)))

theorem handleKey_handles (h : k.Wf) (hkeycode : keycode < nrKeys) :
    Handles keycode up k (handleKey keycode up false k) := by
  have hshift := h.bits.lt h.high
  unfold handleKey
  dsimp only
  rw [h.slockstate, h.lockstate, Nat.or_zero, Nat.xor_zero]
  obtain ⟨map, hget, hmem⟩ := keyMaps_get (show k.shiftState < 256 by omega)
  rw [hget, demand_some, ok_bind]
  cases map with
  | none =>
      have hrecount : Handles keycode up k (computeShiftstate k) := computeShiftstate_handles h
      refine ⟨meets_bind.mpr (hrecount.meets.mono (fun k' hk' => ?_) fun _ he => he)⟩
      rw [meets_pure, hk'.1.unlocked]
      exact hk'
  | some map =>
      obtain ⟨sym, hsym, hok⟩ := map_get hmem hkeycode
      dsimp only
      rw [hsym, demand_some, ok_bind]
      rw [if_pos (symOk_typ hok)]
      exact handleSym_handles h hkeycode hmem hsym hok

/-! ## One scancode -/

theorem Driver.Wf.trackKey (h : k.Wf) (keycode : Nat) (up : Bool) :
    (trackKey keycode up k).1.Wf := by
  unfold Keyboard.trackKey
  split
  · exact ⟨h.highKeys, h.e0Keys, h.lockstate, h.slockstate, h.kbdmode, h.diacr, h.deadKeyNext,
      h.bits, h.high⟩
  · exact ⟨h.highKeys, h.e0Keys, h.lockstate, h.slockstate, h.kbdmode, h.diacr, h.deadKeyNext,
      h.bits, h.high⟩

theorem handleKeycode_handles (h : k.Wf) (hkeycode : keycode < nrKeys) :
    Handles keycode (trackKey keycode up k).2 (trackKey keycode up k).1
      (handleKeycode keycode up false k) := by
  have htracked := h.trackKey keycode up
  have hmode : decide ((trackKey keycode up k).1.kbd.kbdmode = .mediumraw) = false := by
    rw [htracked.kbdmode]
    rfl
  unfold handleKeycode
  simp only [hmode, Bool.false_eq_true, if_false, Bool.or_false]
  split_ifs with hrepeat
  · exact handleKey_handles htracked hkeycode
  · rw [not_or, Bool.not_eq_false] at hrepeat
    exact (Quiet.ok rfl).handles htracked (.inr hrepeat.1)

theorem defaultKeys_lt : (∀ keycode ∈ defaultHighKeys, keycode < 128) ∧
    ∀ keycode ∈ defaultE0Keys, keycode < 128 := by
  decide +kernel

/-- What the translation of a scancode can do. -/
structure Translates (k : Driver) (r : Driver × Option Nat) : Prop where
  driver : ∃ prev, r.1 = { k with prevScancode := prev }
  keycode : ∀ keycode, r.2 = some keycode → keycode < 128

theorem translates_none (k : Driver) (prev : Nat) :
    Translates k ({ k with prevScancode := prev }, none) :=
  ⟨⟨prev, rfl⟩, fun _ h => by cases h⟩

theorem translates_entry {keys : List Nat} (hkeys : ∀ keycode ∈ keys, keycode < 128) {i : Nat}
    (hi : i < keys.length) (k : Driver) (prev : Nat) (table : Table) :
    Meets (demand keys[i]? table >>= fun keycode => pure
        ({ k with prevScancode := prev }, if keycode ≠ 0 then some keycode else none))
      (Translates k) fun _ => False := by
  rw [List.getElem?_eq_getElem hi, demand_some, ok_bind, meets_pure]
  refine ⟨⟨prev, rfl⟩, fun keycode h => ?_⟩
  dsimp only at h
  split at h
  · cases h
    exact hkeys _ (List.getElem_mem hi)
  · cases h

theorem kbdTranslate_meets (h : k.Wf) (scancode : Nat) :
    Meets (kbdTranslate scancode k) (Translates k) fun _ => False := by
  have hlow : scancode % 128 < 128 := Nat.mod_lt _ (by decide)
  unfold kbdTranslate
  dsimp only
  refine meets_ite.mpr ⟨fun _ => translates_none k _, fun _ => ?_⟩
  refine meets_ite.mpr ⟨fun _ => translates_none k _, fun _ => ?_⟩
  refine meets_ite.mpr ⟨fun _ => meets_ite.mpr ⟨fun _ => ?_, fun _ => ?_⟩, fun _ => ?_⟩
  · refine meets_ite.mpr ⟨fun _ => translates_none k _, fun _ => ?_⟩
    refine meets_ite.mpr ⟨fun _ => ?_, fun _ => translates_none k _⟩
    exact ⟨⟨0, rfl⟩, fun keycode h => by cases h; decide⟩
  · refine meets_ite.mpr ⟨fun _ => translates_none k _, fun _ => ?_⟩
    refine translates_entry ?_ ?_ k 0 _
    · rw [h.e0Keys]
      exact defaultKeys_lt.2
    · rw [h.e0Keys]
      exact hlow
  · refine meets_ite.mpr ⟨fun hlim => ?_, fun _ => ?_⟩
    · refine translates_entry ?_ ?_ k k.prevScancode _
      · rw [h.highKeys]
        exact defaultKeys_lt.1
      · rw [h.highKeys]
        change scancode % 128 - scLim < 39
        unfold scLim at hlim ⊢
        omega
    · exact ⟨⟨k.prevScancode, rfl⟩, fun keycode h => by cases h; exact hlow⟩

theorem Driver.Wf.prev (h : k.Wf) (prev : Nat) : { k with prevScancode := prev }.Wf :=
  ⟨h.highKeys, h.e0Keys, h.lockstate, h.slockstate, h.kbdmode, h.diacr, h.deadKeyNext, h.bits,
    h.high⟩

theorem Driver.Wf.ready (h : k.Wf) : k.ready.Wf := by
  unfold Driver.ready
  split
  · exact h
  · refine Driver.Wf.of_core ?_ (core_kbdBh _)
    exact ⟨h.highKeys, h.e0Keys, rfl, rfl, rfl, h.diacr, h.deadKeyNext, h.bits, h.high⟩

theorem handleScancode_meets (h : k.Wf) (scancode : Nat) (down : Bool) :
    Meets (handleScancode scancode down k) Driver.Wf fun _ => False := by
  have hmode : decide (k.kbd.kbdmode = .raw) = false := by
    rw [h.kbdmode]
    rfl
  unfold handleScancode
  simp only [hmode, Bool.false_eq_true, if_false]
  refine meets_bind.mpr ((kbdTranslate_meets h scancode).mono (fun r hr => ?_) fun _ he => he)
  obtain ⟨prev, hdriver⟩ := hr.driver
  rw [hdriver]
  cases hkeycode : r.2 with
  | none => exact h.prev prev
  | some keycode =>
      have hlt := hr.keycode keycode hkeycode
      exact (handleKeycode_handles (h.prev prev) (by unfold nrKeys; omega)).meets.mono
        (fun _ hk' => hk'.1) fun _ he => he

theorem doScancode_meets (h : k.Wf) (code : UInt8) :
    Meets (doScancode code k) Driver.Wf fun _ => False := by
  unfold doScancode
  dsimp only
  split
  · refine meets_bind.mpr ((handleScancode_meets h.ready _ _).mono (fun k' hk' => ?_)
      fun _ he => he)
    exact hk'.of_core (core_kbdBh k')
  · exact h.ready

theorem unused_wf : unused.Wf where
  highKeys := rfl
  e0Keys := rfl
  lockstate := rfl
  slockstate := rfl
  kbdmode := rfl
  diacr := rfl
  deadKeyNext := rfl
  bits := fun v => Nat.zero_testBit v
  high := fun _ _ => rfl

/-- Every byte of every sequence is handled without leaving a table; nothing is ever locked or
waiting to be composed, and `shift_state` is the set of the modifiers with a counter. -/
theorem scancodes_in_tables (codes : List UInt8) :
    ∃ k, Path machine unused codes k ∧ k.shiftState < 16 ∧
      (∀ v, k.shiftState.testBit v = decide (k.kDown v ≠ 0)) ∧
      k.kbd.lockstate = 0 ∧ k.kbd.slockstate = 0 ∧ k.diacr = 0 ∧ k.deadKeyNext = false := by
  have hrun : ∃ k, Path machine unused codes k ∧ k.Wf := by
    induction codes using List.reverseRecOn with
    | nil => exact ⟨unused, .nil unused, unused_wf⟩
    | append_singleton codes code ih =>
        obtain ⟨k, hpath, hk⟩ := ih
        obtain ⟨k', hrun, hk'⟩ := (doScancode_meets hk code).exists_ok
        exact ⟨k', hpath.snoc trivial hrun, hk'⟩
  obtain ⟨k, hpath, hk⟩ := hrun
  exact ⟨k, hpath, hk.bits.lt hk.high, hk.bits, hk.lockstate, hk.slockstate, hk.diacr,
    hk.deadKeyNext⟩

end SchlagOS.Keyboard
