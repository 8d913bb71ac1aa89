import SchlagOS.System.Machine
import SchlagOS.Invariant.Boot
import SchlagOS.Screen.Layout

/-!
# The output of the system

In every run of the system the time of day is the number of the clock
interrupts, and whatever the kernel writes to the screen, of itself, of the
keys and of the processes, trips no assertion of the console and overruns no
buffer: only the kernel itself can fail.
-/

namespace SchlagOS

open Foundation

variable {k : Console} {sys : System} {chars : List Nat} {c ticks : Nat}

/-! ## Printing -/

theorem print_eq {format : List Nat} {args : List Print.Arg}
    (hchars : Print.doprnt format args 0 = .ok chars) (k : Console) :
    print format args k = (consolePutbytes chars k).mapError .console := by
  obtain ⟨state, hbuffered, hempty, hcalls⟩ := Print.printf_eq hchars
  rw [print, hcalls, mapError_ok, ok_bind, hbuffered.putChunks hempty]

theorem putbytes_valid (h : k.Valid) (chars : List Nat) :
    Meets ((consolePutbytes chars k).mapError SystemPanic.console) Console.Valid
      fun _ => False := by
  rw [meets_mapError]
  exact consolePutbytes_valid h chars

/-- `%c` -/
def charSpec : Print.Spec where
  flags := []
  zero := false
  width := none
  prec := none
  long := false
  letter := 99

theorem charSpec_valid : charSpec.Valid where
  width := by
    rintro count ⟨⟩
  prec := by
    rintro count ⟨⟩
  letter := by decide

theorem charSpec_prints (hc : c < 256) :
    Print.Piece.Prints 0 (.conversion charSpec [.word c]) [c] := by
  refine .conversion charSpec_valid ?_
  have hword : Print.wordArg [.word c] = .ok (c, []) := Print.wordArg_word (by omega)
  simp [Print.convert, charSpec, hword, Nat.mod_eq_of_lt hc]

/-- The characters of an echo. -/
def echoText (c : Nat) : List Nat :=
  if c = 13 then [10] else if c = 9 ∨ 32 ≤ c ∧ c ≤ 127 then [c]
  else if c < 32 then [94, 64 + c] else []

theorem echo_eq (hc : c < 256) (k : Console) :
    echo c k = (consolePutbytes (echoText c) k).mapError .console := by
  have hconversion := charSpec_prints hc
  unfold echo echoText
  split_ifs with hreturn hshown hcontrol
  · exact print_eq (Print.doprnt_text (by decide) 0) k
  · exact print_eq (Print.doprntLoop_pieces (.cons hconversion .nil) [] (Nat.le_refl _)) k
  · have hletter := charSpec_prints (c := 64 + c) (by omega)
    exact print_eq (Print.doprntLoop_pieces (.cons (.text (by decide)) (.cons hletter .nil)) []
      (Nat.le_refl _)) k
  · rfl

/-- `cons_read` only echoes 7-bit characters. -/
theorem echoed_lt {s : Kernel} (h : echoed s = some c) : c < 256 := by
  unfold echoed at h
  split at h
  · dsimp only at h
    split_ifs at h with hsmall
    rw [← Option.some_inj.mp h]
    omega
  · split_ifs at h with hnext
    rw [← Option.some_inj.mp h]
    decide
  · cases h

theorem display_valid (h : sys.console.Valid) (htime : sys.time.Wf) (event : Event) (s : Kernel)
    (text : List Nat) : Meets (display sys event s text) Console.Valid fun _ => False := by
  unfold display
  rw [meets_ite]
  refine ⟨fun _ => ?_, fun _ => ?_⟩
  · rw [htime.text_eq, mapError_ok, ok_bind, meets_mapError]
    exact printTopRight_valid h htime.clockText
  split
  · exact meets_ite.mpr ⟨fun _ => putbytes_valid h text, fun _ => h⟩
  · cases hechoed : echoed sys.kernel with
    | none => exact h
    | some c =>
        refine meets_ite.mpr ⟨fun _ => ?_, fun _ => h⟩
        rw [echo_eq (echoed_lt hechoed)]
        exact putbytes_valid h _
  · exact h

/-! ## Runs -/

/-- An observer that counts the clock interrupts. -/
def countInterrupts (l : SystemStep) (_ _ : System) (ticks : Nat) : Nat :=
  if l.step.event = .tick then ticks + 1 else ticks

def anyStep (_ : System) (_ : SystemStep) : Prop := True

/-- `sys` is reached from the start with so many clock interrupts. -/
def Operating (sys : System) (ticks : Nat) : Prop :=
  ∃ screen start, systemStart screen = .ok start ∧
    Reach (systemMachine.observing countInterrupts) (start, 0) (fun x => anyStep x.1)
      (sys, ticks)

/-- What holds of the system all along. -/
structure Sound (sys : System) (ticks : Nat) : Prop where
  kernel : Running (fun _ _ => True) sys.kernel
  wf : sys.time.Wf
  time : sys.time.hundredths = ticks % 8640000
  console : sys.console.Valid

theorem bannerText_plain : ∀ c ∈ bannerText, IsText c ∧ c ≠ 37 := by decide +kernel

theorem banner_laid (hnot : k.commandInfo.commandRequested = false) :
    ∃ k', consolePutbytes banner k = .ok k' ∧
      Laid k' (expand 0 bannerText) k.cursorInfo.last := by
  have htext : ∀ c ∈ bannerText, IsText c := fun c hc => (bannerText_plain c hc).1
  have hshown : Meets (consolePutbytes banner k)
      (fun k' => Laid k' (expand 0 bannerText) k.cursorInfo.last) fun _ => False := by
    rw [banner, consolePutbytes, meets_bind]
    refine (formFeed_laid hnot).mono (fun k₁ h₁ => ?_) fun e he => he
    have hput := h₁.putbytes htext
    rwa [List.nil_append, List.length_nil] at hput
  exact hshown.exists_ok

theorem systemStart_ok (screen : Nat → Nat → Cell) : ∃ console,
    systemStart screen = .ok ⟨booted, .midnight, console, fun _ => false⟩ ∧
      Laid console (expand 0 bannerText) ⟨.white, .black, false⟩ := by
  have hbanner : 37 ∉ banner := by
    rw [banner, List.mem_cons, not_or]
    exact ⟨by decide, fun hmem => (bannerText_plain 37 hmem).2 rfl⟩
  obtain ⟨console, hconsole, hlaid⟩ := banner_laid (k := initialConsole screen) rfl
  refine ⟨console, ?_, hlaid⟩
  rw [systemStart, print_eq (Print.doprnt_text hbanner 0), hconsole, kernelStart_eq]
  rfl

theorem systemExec_ok {l : SystemStep} {sys sys' : System} (h : systemExec l sys = .ok sys') :
    exec l.step sys.kernel = .ok sys'.kernel ∧
      display sys l.step.event sys'.kernel l.text = .ok sys'.console ∧
      sys'.time = if l.step.event = .tick then sys.time.tick else sys.time := by
  obtain ⟨kernel, hkernel, h⟩ := bind_eq_ok.mp h
  obtain ⟨console, hconsole, h⟩ := bind_eq_ok.mp h
  rw [← Except.ok.inj h]
  exact ⟨mapError_eq_ok.mp hkernel, hconsole, rfl⟩

theorem observing_run {l : SystemStep} {sys sys' : System} {ticks : Nat}
    (h : systemExec l sys = .ok sys') :
    (systemMachine.observing countInterrupts).step l (sys, ticks) =
      .ok (sys', countInterrupts l sys sys' ticks) := by
  change (systemExec l sys).map _ = _
  rw [h]
  rfl

theorem Sound.step {l : SystemStep} {sys sys' : System} {ticks : Nat} (h : Sound sys ticks)
    (henabled : l.enabled sys) (hrun : systemExec l sys = .ok sys') :
    Sound sys' (countInterrupts l sys sys' ticks) := by
  obtain ⟨hkernel, hconsole, htime⟩ := systemExec_ok hrun
  have hvalid := (display_valid h.console h.wf l.step.event sys'.kernel l.text).of_ok hconsole
  obtain ⟨start, hstart, hreach⟩ := h.kernel
  have hkernel : Running (fun _ _ => True) sys'.kernel :=
    ⟨start, hstart, hreach.step henabled.1 trivial hkernel⟩
  unfold countInterrupts
  by_cases htick : l.step.event = .tick
  · obtain ⟨hwf, hhundredths⟩ := h.wf.tick
    rw [if_pos htick] at htime ⊢
    refine ⟨hkernel, htime ▸ hwf, ?_, hvalid⟩
    rw [htime, hhundredths, h.time, Nat.mod_add_mod]
  · rw [if_neg htick] at htime ⊢
    exact ⟨hkernel, htime ▸ h.wf, htime ▸ h.time, hvalid⟩

theorem Operating.sound {ticks : Nat} (h : Operating sys ticks) : Sound sys ticks := by
  obtain ⟨screen, start, hstart, hreach⟩ := h
  obtain ⟨console, hok, hlaid⟩ := systemStart_ok screen
  obtain rfl := Except.ok.inj (hok.symm.trans hstart)
  have hfirst : Sound ⟨booted, .midnight, console, fun _ => false⟩ 0 :=
    ⟨⟨booted, kernelStart_eq, .start⟩, TimeOfDay.midnight_wf, TimeOfDay.midnight_hundredths,
      hlaid.valid⟩
  refine (Reach.observed (I := Sound) hreach hfirst ?_).2
  intro sys l sys' ticks _ hsound henabled _ hrun
  exact hsound.step henabled hrun

theorem Operating.fails_iff {ticks : Nat} {l : SystemStep} (h : Operating sys ticks)
    (e : SystemPanic) : systemExec l sys = .error e ↔
      ∃ p, e = .kernel p ∧ exec l.step sys.kernel = .error p := by
  have hsound := h.sound
  rw [systemExec]
  cases hrun : exec l.step sys.kernel with
  | error p =>
      constructor
      · intro herror
        exact ⟨p, (Except.error.inj herror).symm, rfl⟩
      · rintro ⟨p', rfl, hp⟩
        rw [← Except.error.inj hp]
        rfl
  | ok s =>
      obtain ⟨console, hconsole, -⟩ :=
        (display_valid hsound.console hsound.wf l.step.event s l.text).exists_ok
      rw [mapError_ok, ok_bind, hconsole]
      constructor
      · intro herror
        cases herror
      · rintro ⟨p, -, hp⟩
        cases hp

/-- In every run of the system, the time of day is the number of the clock interrupts, and a step
fails where its step of the kernel does, and nowhere else: no output trips an assertion of the
console, breaks a format or overruns the buffer of the clock. -/
theorem output_safe {ticks : Nat} (h : Operating sys ticks) :
    sys.time.hundredths = ticks % 8640000 ∧ Running (fun _ _ => True) sys.kernel ∧
      ∀ l e, systemExec l sys = .error e ↔ ∃ p, e = .kernel p ∧ exec l.step sys.kernel = .error p :=
  ⟨h.sound.time, h.sound.kernel, fun _ e => h.fails_iff e⟩

/-- The first clock interrupt, in `init`. -/
theorem operating_tick : ∃ sys, Operating sys 1 ∧ sys.kernel = ticPit booted ∧
    sys.console.commandInfo.commandRequested = false := by
  obtain ⟨console, hstart, hlaid⟩ := systemStart_ok fun _ _ => ⟨space, ⟨.white, .black, false⟩⟩
  have henabled : SystemStep.enabled ⟨booted, .midnight, console, fun _ => false⟩
      ⟨⟨.available, .tick⟩, []⟩ := ⟨rfl, fun _ _ hcall => by cases hcall⟩
  cases hrun : systemExec ⟨⟨.available, .tick⟩, []⟩
      ⟨booted, .midnight, console, fun _ => false⟩ with
  | error e => cases hrun
  | ok sys =>
      obtain ⟨hkernel, hdisplay, -⟩ := systemExec_ok hrun
      refine ⟨sys, ⟨_, _, hstart, Reach.start.step henabled trivial ?_⟩, ?_, ?_⟩
      · exact observing_run hrun
      · exact (Except.ok.inj hkernel).symm
      · rw [← Except.ok.inj hdisplay]
        exact hlaid.idle

theorem output_safe_tick : ∃ sys, Operating sys 1 ∧ sys.time.hundredths = 1 ∧
    Running (fun _ _ => True) sys.kernel := by
  obtain ⟨sys, hsys, -⟩ := operating_tick
  have hsafe := output_safe hsys
  exact ⟨sys, hsys, hsafe.1, hsafe.2.1⟩

end SchlagOS
