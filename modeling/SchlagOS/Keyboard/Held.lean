import SchlagOS.Keyboard.Bounds

/-!
# The modifiers are the keys that are held

As long as no modifier key is released that was not down, the counter of each
modifier is the number of its keys that are down, so that `shift_state` is the
set of the modifiers that are held.
-/

namespace SchlagOS.Keyboard

open Foundation

variable {k k' : Driver} {keycode v : Nat} {up : Bool} {code : UInt8}

/-- Two counts that can differ at one element only. -/
theorem countP_agree {α : Type*} {l : List α} {p p' : α → Bool} {c : α} (hnodup : l.Nodup)
    (hc : c ∈ l) (hagree : ∀ i, i ≠ c → p i = p' i) :
    l.countP p' + (p c).toNat = l.countP p + (p' c).toNat := by
  induction l with
  | nil => cases hc
  | cons a l ih =>
      obtain ⟨ha, hnodup⟩ := List.nodup_cons.mp hnodup
      rw [List.countP_cons, List.countP_cons]
      by_cases heq : a = c
      · subst heq
        have hsame : l.countP p' = l.countP p :=
          List.countP_congr fun i hi => by rw [hagree i fun h => ha (h ▸ hi)]
        rw [hsame]
        cases p a <;> cases p' a <;> simp
      · have hmem : c ∈ l := (List.mem_cons.mp hc).resolve_left (Ne.symm heq)
        have hrest := ih hnodup hmem
        rw [hagree a heq]
        omega

theorem heldCount_update (down : Nat → Bool) (b : Bool) (hkeycode : keycode < nrKeys) (v : Nat) :
    heldCount (Function.update down keycode b) (List.range nrKeys) v +
        (down keycode && decide (shiftOf keycode = some v)).toNat =
      heldCount down (List.range nrKeys) v + (b && decide (shiftOf keycode = some v)).toNat := by
  have hagree : ∀ i, i ≠ keycode → (down i && decide (shiftOf i = some v)) =
      (Function.update down keycode b i && decide (shiftOf i = some v)) := by
    intro i hi
    rw [Function.update_of_ne hi]
  simpa [heldCount] using countP_agree List.nodup_range (List.mem_range.mpr hkeycode) hagree

theorem heldCount_other (down : Nat → Bool) (b : Bool) (hkeycode : keycode < nrKeys)
    (hv : shiftOf keycode ≠ some v) :
    heldCount (Function.update down keycode b) (List.range nrKeys) v =
      heldCount down (List.range nrKeys) v := by
  simpa [hv] using heldCount_update down b hkeycode v

theorem heldCount_pos_iff (down : Nat → Bool) (v : Nat) :
    heldCount down (List.range nrKeys) v ≠ 0 ↔
      ∃ keycode < nrKeys, down keycode = true ∧ shiftOf keycode = some v := by
  rw [← Nat.pos_iff_ne_zero, heldCount, List.countP_pos_iff]
  simp

/-! ## One key -/

/-- The counters behind a key, when a modifier key that is released was down. -/
theorem exact_key (hexact : Exact k) (hkeycode : keycode < nrKeys)
    (hmatched : up = true → k.keyDown keycode = true ∨ shiftOf keycode = none)
    (hkeys : k'.keyDown = (trackKey keycode up k).1.keyDown)
    (heffect : KeyEffect keycode (trackKey keycode up k).2 (trackKey keycode up k).1 k') :
    Exact k' := by
  have hle := heldCount_le k.keyDown
  cases heffect with
  | recount hexact => exact hexact
  | quiet hkey hdown =>
      rw [Exact, hkeys, hdown]
      funext v
      cases up with
      | false =>
          change k.kDown v = heldCount (Function.update k.keyDown keycode true) _ v
          rcases hkey with hnone | hrep
          · rw [heldCount_other _ _ hkeycode (by simp [hnone]), hexact]
          · have hheld : Function.update k.keyDown keycode true = k.keyDown := by
              rw [← show k.keyDown keycode = true from hrep, Function.update_eq_self]
            rw [hheld, hexact]
      | true =>
          change k.kDown v = heldCount (Function.update k.keyDown keycode false) _ v
          rcases hkey with hnone | hrep
          · rw [heldCount_other _ _ hkeycode (by simp [hnone]), hexact]
          · cases hrep
  | shift w hkey hrep hdown =>
      rw [Exact, hkeys, hdown]
      funext v
      by_cases hv : v = w
      · subst hv
        rw [Function.update_self]
        cases up with
        | false =>
            change shiftDown false (k.kDown v) =
              heldCount (Function.update k.keyDown keycode true) _ v
            have hfree : k.keyDown keycode = false := hrep
            have hcount := heldCount_update k.keyDown true hkeycode v
            have htwo := hle v
            rw [hexact]
            simp only [hfree, hkey, decide_true, Bool.false_and, Bool.true_and, Bool.toNat_false,
              Bool.toNat_true] at hcount
            simp only [shiftDown, Bool.false_eq_true, if_false]
            omega
        | true =>
            have hheld : k.keyDown keycode = true :=
              (hmatched rfl).resolve_right (by simp [hkey])
            have hup : (trackKey keycode true k).2 = true := by simp [trackKey, hheld]
            rw [hup]
            change shiftDown true (k.kDown v) =
              heldCount (Function.update k.keyDown keycode false) _ v
            have hcount := heldCount_update k.keyDown false hkeycode v
            rw [hexact]
            simp only [hheld, hkey, decide_true, Bool.false_and, Bool.true_and, Bool.toNat_false,
              Bool.toNat_true] at hcount
            simp only [shiftDown, if_true]
            omega
      · rw [Function.update_of_ne hv]
        have hother : shiftOf keycode ≠ some v := by
          rw [hkey]
          exact fun h => hv (Option.some.inj h).symm
        cases up with
        | false =>
            change k.kDown v = heldCount (Function.update k.keyDown keycode true) _ v
            rw [heldCount_other _ _ hkeycode hother, hexact]
        | true =>
            change k.kDown v = heldCount (Function.update k.keyDown keycode false) _ v
            rw [heldCount_other _ _ hkeycode hother, hexact]

/-! ## Runs -/

/-- The key that a byte completes, and whether it is released. -/
def Driver.completes (k : Driver) (code : UInt8) : Option (Nat × Bool) :=
  if code.toNat = 0 ∨ code.toNat = 0xff then none
  else
    match kbdTranslate code.toNat k.ready with
    | .ok r => r.2.map fun keycode => (keycode, !decide (code.toNat < 128))
    | .error _ => none

/-- A modifier key is released only when it is down. -/
def Matched (k : Driver) (code : UInt8) : Prop :=
  ∀ key ∈ k.completes code, key.2 = true → k.keyDown key.1 = true ∨ shiftOf key.1 = none

instance (k : Driver) (code : UInt8) : Decidable (Matched k code) :=
  inferInstanceAs (Decidable (∀ key ∈ k.completes code, _))

theorem Exact.of_core (h : Exact k) (hcore : k'.core = k.core) : Exact k' := by
  have hdown : k'.kDown = k.kDown := (congrArg Driver.kDown hcore :)
  have hkeys : k'.keyDown = k.keyDown := (congrArg Driver.keyDown hcore :)
  rw [Exact, hdown, hkeys]
  exact h

theorem Driver.ready_kDown (k : Driver) : k.ready.kDown = k.kDown := by
  unfold Driver.ready
  split
  · rfl
  · exact (congrArg Driver.kDown (core_kbdBh _) :)

theorem Driver.ready_keyDown (k : Driver) : k.ready.keyDown = k.keyDown := by
  unfold Driver.ready
  split
  · rfl
  · exact (congrArg Driver.keyDown (core_kbdBh _) :)

theorem handleScancode_exact (h : k.Wf) (hexact : Exact k) {scancode : Nat} {down : Bool}
    (hmatched : ∀ r, kbdTranslate scancode k = .ok r → ∀ keycode, r.2 = some keycode →
      down = false → k.keyDown keycode = true ∨ shiftOf keycode = none) :
    Yields (handleScancode scancode down k) Exact := by
  have hmode : decide (k.kbd.kbdmode = .raw) = false := by
    rw [h.kbdmode]
    rfl
  unfold handleScancode
  simp only [hmode, Bool.false_eq_true, if_false]
  cases hr : kbdTranslate scancode k with
  | error e => trivial
  | ok r =>
      have htranslates := (kbdTranslate_meets h scancode).of_ok hr
      obtain ⟨prev, hdriver⟩ := htranslates.driver
      rw [ok_bind, hdriver]
      have hprev : Exact { k with prevScancode := prev } := hexact
      cases hkeycode : r.2 with
      | some keycode =>
          have hlt : keycode < nrKeys := by
            have h128 := htranslates.keycode keycode hkeycode
            unfold nrKeys
            omega
          refine (handleKeycode_handles (h.prev prev) hlt).meets.mono (fun k' hk' => ?_)
            fun _ _ => trivial
          refine exact_key hprev hlt (fun hup => ?_) (congrArg Driver.keyDown hk'.2.1 :) hk'.2.2
          exact hmatched r hr keycode hkeycode (by simpa using hup)
      | none => exact hprev

theorem doScancode_exact (h : k.Wf) (hexact : Exact k) (hmatched : Matched k code) :
    Yields (doScancode code k) Exact := by
  have hready : Exact k.ready := by
    rw [Exact, Driver.ready_kDown, Driver.ready_keyDown]
    exact hexact
  unfold doScancode
  dsimp only
  split_ifs with hcode
  · refine (handleScancode_exact h.ready hready ?_).bind fun k' hk' => hk'.of_core (core_kbdBh k')
    intro r hr keycode hkeycode hup
    rw [Driver.ready_keyDown]
    have hnot : ¬(code.toNat = 0 ∨ code.toNat = 0xff) := by tauto
    refine hmatched (keycode, true) ?_ rfl
    unfold Driver.completes
    rw [if_neg hnot, hr]
    simp [hkeycode, hup]
  · exact hready

/-- Every counter is the number of the keys that hold its modifier, and `shift_state` is the set
of the modifiers that are held, as long as no modifier key is released that was not down. -/
theorem shift_state_held (h : Reach machine unused Matched k) (v : Nat) :
    k.kDown v = heldCount k.keyDown (List.range nrKeys) v ∧
      (k.shiftState.testBit v = true ↔
        ∃ keycode < nrKeys, k.keyDown keycode = true ∧ shiftOf keycode = some v) := by
  have hinv : k.Wf ∧ Exact k := by
    refine h.invariant (I := fun k => k.Wf ∧ Exact k) ⟨unused_wf, ?_⟩ ?_
    · funext v
      exact (List.countP_eq_zero.mpr fun i _ => by simp [unused]).symm
    · intro k code k' _ hk _ hmatched hrun
      exact ⟨(doScancode_meets hk.1 code).of_ok hrun,
        (doScancode_exact hk.1 hk.2 hmatched).of_ok hrun⟩
  refine ⟨congrFun hinv.2 v, ?_⟩
  rw [← heldCount_pos_iff, ← congrFun hinv.2 v, hinv.1.bits v, decide_eq_true_eq]

/-- Both shift keys are pressed, one of them is released, and an unknown key comes and goes. -/
theorem shift_state_held_run : ∃ k, Reach machine unused Matched k ∧ k.kDown 0 = 1 ∧
    k.shiftState = 1 ∧ k.kDown 0 = heldCount k.keyDown (List.range nrKeys) 0 := by
  have hcheck : checkRun machine Matched (fun k => decide (k.kDown 0 = 1 ∧ k.shiftState = 1))
      unused [0x2a, 0x36, 0x7f, 0xaa] = true := by decide +kernel
  obtain ⟨k, hreach, htest⟩ := Reach.of_checkRun .start hcheck
  obtain ⟨hdown, hshift⟩ := of_decide_eq_true htest
  exact ⟨k, hreach, hdown, hshift, (shift_state_held hreach 0).1⟩

end SchlagOS.Keyboard
