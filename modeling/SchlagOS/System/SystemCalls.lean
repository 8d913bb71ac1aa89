import SchlagOS.Foundation.Cpu
import SchlagOS.Boot.Descriptors
import SchlagOS.Kernel.Machine

/-!
# System calls

The two sides of a system call: the functions of the user library that put the
arguments into registers and raise interrupt 49, and its handler that passes
them to `syscall_handler` on the stack of the kernel.  The library and the
kernel were written apart, with a macro for each number of arguments and a
case for each code; here they are run one after the other.
-/

namespace SchlagOS

open Foundation Boot

/-! ## The library -/

inductive SyscallFunction where
  | consWrite
  | consEcho
  | consRead
  | start
  | kill
  | exit
  | chprio
  | getpid
  | getprio
  | waitpid
  | waitClock
  | currentClock
  | clockSettings
  | pcount
  | pcreate
  | pdelete
  | preceive
  | preset
  | psend
  deriving DecidableEq, Repr

namespace SyscallFunction

def code : SyscallFunction → Nat
  | consWrite => 0
  | consEcho => 1
  | consRead => 2
  | start => 3
  | kill => 4
  | exit => 5
  | chprio => 6
  | getpid => 7
  | getprio => 8
  | waitpid => 9
  | waitClock => 10
  | currentClock => 11
  | clockSettings => 12
  | pcount => 13
  | pcreate => 14
  | pdelete => 15
  | preceive => 16
  | preset => 17
  | psend => 18

/-- The number in the name of the macro. -/
def arity : SyscallFunction → Nat
  | consWrite => 2
  | consEcho => 1
  | consRead => 2
  | start => 5
  | kill => 1
  | exit => 1
  | chprio => 2
  | getpid => 0
  | getprio => 1
  | waitpid => 2
  | waitClock => 1
  | currentClock => 0
  | clockSettings => 2
  | pcount => 2
  | pcreate => 1
  | pdelete => 1
  | preceive => 2
  | preset => 1
  | psend => 2

end SyscallFunction

/-- The macros up to `int $CODE_SYSCALL`. -/
def syscallEntry (code : Nat) : Nat → List Instruction
  | 0 => [.movl code .eax]
  | 1 => [.movl code .eax, .pushl .ebx, .loadl 8 .ebx]
  | 2 => [.movl code .eax, .pushl .ebx, .loadl 8 .ebx, .loadl 12 .ecx]
  | 3 => [.movl code .eax, .pushl .ebx, .loadl 8 .ebx, .loadl 12 .ecx, .loadl 16 .edx]
  | 4 => [.movl code .eax, .pushl .ebx, .loadl 8 .ebx, .loadl 12 .ecx, .loadl 16 .edx,
      .pushl .esi, .loadl 24 .esi]
  | _ => [.movl code .eax, .pushl .ebx, .loadl 8 .ebx, .loadl 12 .ecx, .loadl 16 .edx,
      .pushl .esi, .loadl 24 .esi, .pushl .edi, .loadl 32 .edi]

/-- What they pop behind it, in front of `ret`. -/
def syscallSaved : Nat → List Register
  | 0 => []
  | 1 => [.ebx]
  | 2 => [.ebx]
  | 3 => [.ebx]
  | 4 => [.esi, .ebx]
  | _ => [.edi, .esi, .ebx]

/-! ## Into the kernel and back -/

/-- The stack of level 0 is that of the task state. -/
def onKernelStack (c : Cpu) : Cpu :=
  (c.set .esp (getLong c.memory (tss + 4))).set .ss (getLong c.memory (tss + 8))

def clearInterruptFlag (flags : Nat) : Nat := if flags.testBit 9 then flags - 2 ^ 9 else flags

/-- What an interrupt from privilege level 3 pushes, the last word on top. -/
def interruptFrame (next : Nat) (c : Cpu) : List Nat :=
  [c.reg .ss, c.reg .esp, c.reg .eflags, c.reg .cs, next]

/-- An interrupt that a program at privilege level 3 raises; an interrupt gate masks the
interrupts. -/
def interruptFromUser (gate : Gate) (next : Nat) (c : Cpu) : Cpu :=
  ((((onKernelStack c).pushAll (interruptFrame next c)).set .cs gate.selector).set .eip
    gate.offset).set .eflags (clearInterruptFlag (c.reg .eflags))

/-- `iret` to a program at privilege level 3. -/
def iretToUser (c : Cpu) : Cpu :=
  let word := fun i => getLong c.memory ((c.reg .esp + 4 * i) % 2 ^ 32)
  ((((c.set .eip (word 0)).set .cs (word 1)).set .eflags (word 2)).set .esp (word 3)).set .ss
    (word 4)

/-- `handler_IT_49` in front of the call of `syscall_handler`. -/
def handlerIT49Entry : List Instruction :=
  [Register.edi, .esi, .edx, .ecx, .ebx, .eax].map .pushl ++
    (.movw 0x18 :: [Register.ds, .es, .fs, .gs].map .movSegment)

/-- `handler_IT_49` behind the call, up to `iret`. -/
def handlerIT49Exit : List Instruction :=
  .addEsp 4 :: [Register.ebx, .ecx, .edx, .esi, .edi].map .popl ++
    (.pushl .eax :: .movw 0x4b :: [Register.ds, .es, .fs, .gs].map .movSegment) ++ [.popl .eax]

namespace SyscallFunction

/-- From the first instruction of a function of the library to the call of `syscall_handler`;
`next` is the address behind the instruction `int`. -/
def enterKernel (f : SyscallFunction) (next : Nat) (c : Cpu) : Cpu :=
  let c := c.execute (syscallEntry f.code f.arity)
  (interruptFromUser (gateAt c.memory (idt + 8 * 49)) next c).execute handlerIT49Entry

/-- From the return of `syscall_handler` to the instruction behind `int`. -/
def leaveKernel (c : Cpu) : Cpu := iretToUser (c.execute handlerIT49Exit)

/-- The rest of a function of the library. -/
def resume (f : SyscallFunction) (c : Cpu) : Cpu :=
  (c.execute ((syscallSaved f.arity).map .popl)).pop .eip

end SyscallFunction

/-! ## syscall_handler -/

/-- A word as a signed number. -/
def toInt32 (w : Nat) : Int := if w < 2 ^ 31 then w else w - 2 ^ 32

/-- A call, and for `start` the argument that the new process gets. -/
structure Request where
  call : Call
  startArg : Option Nat
  deriving DecidableEq, Repr

/-- The `switch` of `syscall_handler`; other codes end in an assertion.  The length of a name is
that of the string at its address. -/
def dispatch (nameLength : Nat → Nat) (callCode arg1 arg2 arg3 arg4 arg5 : Nat) : Option Request :=
  match callCode with
  | 0 => some ⟨.consWrite arg1 (toInt32 arg2), none⟩
  | 1 => some ⟨.consEcho (toInt32 arg1 ≠ 0), none⟩
  | 2 => some ⟨.consRead arg1 arg2, none⟩
  | 3 => some ⟨.start arg1 arg2 (toInt32 arg3) ⟨arg4, nameLength arg4⟩, some arg5⟩
  | 4 => some ⟨.kill (toInt32 arg1), none⟩
  | 5 => some ⟨.exit (toInt32 arg1), none⟩
  | 6 => some ⟨.chprio (toInt32 arg1) (toInt32 arg2), none⟩
  | 7 => some ⟨.getpid, none⟩
  | 8 => some ⟨.getprio (toInt32 arg1), none⟩
  | 9 => some ⟨.waitpid (toInt32 arg1) arg2, none⟩
  | 10 => some ⟨.waitClock arg1, none⟩
  | 11 => some ⟨.currentClock, none⟩
  | 12 => some ⟨.clockSettings arg1 arg2, none⟩
  | 13 => some ⟨.pcount (toInt32 arg1) arg2, none⟩
  | 14 => some ⟨.pcreate (toInt32 arg1), none⟩
  | 15 => some ⟨.pdelete (toInt32 arg1), none⟩
  | 16 => some ⟨.preceive (toInt32 arg1) arg2, none⟩
  | 17 => some ⟨.preset (toInt32 arg1), none⟩
  | 18 => some ⟨.psend (toInt32 arg1) (toInt32 arg2), none⟩
  | _ => none

/-- What a function asks for, from the words of its arguments. -/
def SyscallFunction.request (nameLength : Nat → Nat) (arg : Nat → Nat) : SyscallFunction → Request
  | consWrite => ⟨.consWrite (arg 0) (toInt32 (arg 1)), none⟩
  | consEcho => ⟨.consEcho (toInt32 (arg 0) ≠ 0), none⟩
  | consRead => ⟨.consRead (arg 0) (arg 1), none⟩
  | start => ⟨.start (arg 0) (arg 1) (toInt32 (arg 2)) ⟨arg 3, nameLength (arg 3)⟩, some (arg 4)⟩
  | kill => ⟨.kill (toInt32 (arg 0)), none⟩
  | exit => ⟨.exit (toInt32 (arg 0)), none⟩
  | chprio => ⟨.chprio (toInt32 (arg 0)) (toInt32 (arg 1)), none⟩
  | getpid => ⟨.getpid, none⟩
  | getprio => ⟨.getprio (toInt32 (arg 0)), none⟩
  | waitpid => ⟨.waitpid (toInt32 (arg 0)) (arg 1), none⟩
  | waitClock => ⟨.waitClock (arg 0), none⟩
  | currentClock => ⟨.currentClock, none⟩
  | clockSettings => ⟨.clockSettings (arg 0) (arg 1), none⟩
  | pcount => ⟨.pcount (toInt32 (arg 0)) (arg 1), none⟩
  | pcreate => ⟨.pcreate (toInt32 (arg 0)), none⟩
  | pdelete => ⟨.pdelete (toInt32 (arg 0)), none⟩
  | preceive => ⟨.preceive (toInt32 (arg 0)) (arg 1), none⟩
  | preset => ⟨.preset (toInt32 (arg 0)), none⟩
  | psend => ⟨.psend (toInt32 (arg 0)) (toInt32 (arg 1)), none⟩

def argRegisters : List Register := [.ebx, .ecx, .edx, .esi, .edi]

variable {c c' k k' : Cpu} {n code : Nat} {saved : List Register} {r : Register}

/-- A function of the library that was entered in `c` has `n` arguments in their registers, and
has saved some of those on the stack. -/
structure Entering (n : Nat) (saved : List Register) (code : Nat) (c c' : Cpu) : Prop where
  eax : c'.reg .eax = code
  args : ∀ i r, i < n → argRegisters[i]? = some r →
    c'.reg r = getLong c.memory (c.reg .esp + 4 + 4 * i)
  esp : c'.reg .esp = c.reg .esp - 4 * saved.length
  cells : ∀ i r, saved[i]? = some r → getLong c'.memory (c'.reg .esp + 4 * i) = c.reg r
  kept : ∀ r, r ∉ .eax :: .esp :: argRegisters.take n → c'.reg r = c.reg r
  outside : ∀ x, x < c'.reg .esp ∨ c.reg .esp ≤ x → c'.memory x = c.memory x

theorem argRegisters_ne : ∀ r ∈ argRegisters, r ≠ .eax ∧ r ≠ .esp := by decide

namespace Entering

theorem movl (code : Nat) (c : Cpu) : Entering 0 [] code c (c.run (.movl code .eax)) where
  eax := by simp [Cpu.run]
  args i r hi := absurd hi (Nat.not_lt_zero i)
  esp := by simp [Cpu.run]
  cells i r hi := by simp at hi
  kept r hr := by
    simp only [List.mem_cons, not_or] at hr
    simp [Cpu.run, hr.1]
  outside x _ := rfl

theorem pushl (h : Entering n saved code c c') (hr : r ∉ .eax :: .esp :: argRegisters.take n)
    (hword : c.reg r < 2 ^ 32) (hlow : 4 * saved.length + 4 ≤ c.reg .esp)
    (hhigh : c.reg .esp < 2 ^ 32) : Entering n (r :: saved) code c (c'.run (.pushl r)) := by
  have hesp := h.esp
  have hvalue : c'.reg r = c.reg r := h.kept r hr
  have hreg := Cpu.push_reg (c := c') (by omega) (by omega) (c'.reg r)
  have hmemory := Cpu.push_memory (c := c') (by omega) (by omega) (c'.reg r)
  have htop : (c'.run (.pushl r)).reg .esp = c'.reg .esp - 4 := (hreg .esp).trans (if_pos rfl)
  have hothers : ∀ q, q ≠ .esp → (c'.run (.pushl r)).reg q = c'.reg q :=
    fun q hq => (hreg q).trans (if_neg hq)
  refine ⟨(hothers .eax (by decide)).trans h.eax, fun i q hi hq => ?_, ?_, fun i q hi => ?_,
    fun q hq => ?_, fun x hx => ?_⟩
  · have hne := (argRegisters_ne q (List.mem_of_getElem? hq)).2
    exact (hothers q hne).trans (h.args i q hi hq)
  · rw [htop, List.length_cons]
    omega
  · rw [htop]
    change getLong (c'.push (c'.reg r)).memory _ = _
    rw [hmemory]
    cases i with
    | zero =>
        obtain rfl := Option.some.inj hi
        rw [Nat.mul_zero, Nat.add_zero, hvalue]
        exact getLong_setLong _ _ hword
    | succ i =>
        have hcell := h.cells i q hi
        have haddress : c'.reg .esp - 4 + 4 * (i + 1) = c'.reg .esp + 4 * i := by omega
        rw [haddress, getLong_setLong_of_disjoint (by omega)]
        exact hcell
  · have hne : q ≠ .esp := by
      simp only [List.mem_cons, not_or] at hq
      exact hq.2.1
    exact (hothers q hne).trans (h.kept q hq)
  · rw [htop] at hx
    refine Eq.trans ?_ (h.outside x (by omega))
    change (c'.push (c'.reg r)).memory x = c'.memory x
    rw [hmemory]
    exact setLong_of_outside (by omega)

theorem loadl (h : Entering n saved code c c') (hr : argRegisters[n]? = some r)
    (hlow : 4 * saved.length ≤ c.reg .esp) (hhigh : c.reg .esp + 8 + 4 * n ≤ 2 ^ 32) :
    Entering (n + 1) saved code c (c'.run (.loadl (4 * (saved.length + 1 + n)) r)) := by
  have hesp := h.esp
  have hne := argRegisters_ne r (List.mem_of_getElem? hr)
  have hlength : n < argRegisters.length := (List.getElem?_eq_some_iff.mp hr).1
  have haddress : (c'.reg .esp + 4 * (saved.length + 1 + n)) % 2 ^ 32 =
      c.reg .esp + 4 + 4 * n := by omega
  have hvalue : (c'.run (.loadl (4 * (saved.length + 1 + n)) r)).reg r =
      getLong c.memory (c.reg .esp + 4 + 4 * n) := by
    rw [Cpu.run, Cpu.set_reg, if_pos rfl, haddress]
    exact getLong_congr fun b hb => h.outside _ (by omega)
  have hothers : ∀ q, q ≠ r → (c'.run (.loadl (4 * (saved.length + 1 + n)) r)).reg q =
      c'.reg q := fun q hq => (Cpu.set_reg c' r q _).trans (if_neg hq)
  have htop := hothers .esp hne.2.symm
  refine ⟨(hothers .eax hne.1.symm).trans h.eax, fun i q hi hq => ?_, htop.trans hesp,
    fun i q hi => ?_, fun q hq => ?_, fun x hx => h.outside x (by rwa [htop] at hx)⟩
  · by_cases hlast : i = n
    · subst hlast
      rw [hr, Option.some.injEq] at hq
      subst hq
      exact hvalue
    · have hdistinct : q ≠ r := by
        rintro rfl
        exact hlast ((List.getElem?_inj hlength (by decide)).mp (hr.trans hq.symm)).symm
      exact (hothers q hdistinct).trans (h.args i q (by omega) hq)
  · rw [htop]
    exact h.cells i q hi
  · rw [List.take_add_one, hr] at hq
    simp only [Option.toList_some, List.mem_cons, List.mem_append, List.not_mem_nil, or_false,
      not_or] at hq
    refine (hothers q hq.2.2.2).trans (h.kept q ?_)
    simp only [List.mem_cons, not_or]
    exact ⟨hq.1, hq.2.1, hq.2.2.1⟩

end Entering

/-- Each macro goes on where the one for an argument less ends. -/
theorem syscallEntry_entering (hn : n ≤ 5) (hword : ∀ r, c.reg r < 2 ^ 32)
    (hlow : 12 ≤ c.reg .esp) (hhigh : c.reg .esp + 24 ≤ 2 ^ 32) :
    Entering n (syscallSaved n) code c (c.execute (syscallEntry code n)) := by
  have h0 := Entering.movl code c
  have h1 := (h0.pushl (r := .ebx) (by decide) (hword _) (by simp; omega) (hword _)).loadl
    (r := .ebx) rfl (by simp; omega) (by omega)
  have h2 := h1.loadl (r := .ecx) rfl (by simp; omega) (by omega)
  have h3 := h2.loadl (r := .edx) rfl (by simp; omega) (by omega)
  have h4 := (h3.pushl (r := .esi) (by decide) (hword _) (by simp; omega) (hword _)).loadl
    (r := .esi) rfl (by simp; omega) (by omega)
  have h5 := (h4.pushl (r := .edi) (by decide) (hword _) (by simp; omega) (hword _)).loadl
    (r := .edi) rfl (by simp; omega) (by omega)
  interval_cases n
  · exact h0
  · exact h1
  · exact h2
  · exact h3
  · exact h4
  · exact h5

/-! ## The handler -/

variable {gate : Gate} {next esp0 value : Nat}

theorem onKernelStack_esp (c : Cpu) : (onKernelStack c).reg .esp = getLong c.memory (tss + 4) := by
  simp [onKernelStack]

theorem onKernelStack_of_ne {r : Register} (hesp : r ≠ .esp) (hss : r ≠ .ss) (c : Cpu) :
    (onKernelStack c).reg r = c.reg r := by
  simp [onKernelStack, hesp, hss]

theorem interruptFrame_pushed (hesp0 : getLong c.memory (tss + 4) = esp0) (hlow : 20 ≤ esp0)
    (hword : ∀ r, c.reg r < 2 ^ 32) (hnext : next < 2 ^ 32) :
    Cpu.Pushed (onKernelStack c) (interruptFrame next c)
      ((onKernelStack c).pushAll (interruptFrame next c)) := by
  have hlength : (interruptFrame next c).length = 5 := rfl
  have hsmall := getLong_lt c.memory (tss + 4)
  have hesp := onKernelStack_esp c
  refine Cpu.pushAll_pushed (by omega) (by omega) ?_
  intro w hw
  simp only [interruptFrame, List.mem_cons, List.not_mem_nil, or_false] at hw
  rcases hw with rfl | rfl | rfl | rfl | rfl
  · exact hword .ss
  · exact hword .esp
  · exact hword .eflags
  · exact hword .cs
  · exact hnext

theorem interruptFromUser_reg {r : Register} (hr : r ∉ [Register.cs, .eip, .eflags]) :
    (interruptFromUser gate next c).reg r =
      ((onKernelStack c).pushAll (interruptFrame next c)).reg r := by
  simp only [List.mem_cons, List.not_mem_nil, or_false, not_or] at hr
  simp [interruptFromUser, hr.1, hr.2.1, hr.2.2]

theorem interruptFromUser_memory (gate : Gate) (next : Nat) (c : Cpu) :
    (interruptFromUser gate next c).memory =
      ((onKernelStack c).pushAll (interruptFrame next c)).memory := by
  rw [interruptFromUser, Cpu.set_memory, Cpu.set_memory, Cpu.set_memory]

/-- The state in which the handler of an interrupt starts. -/
structure Interrupted (esp0 next : Nat) (c k : Cpu) : Prop where
  esp : k.reg .esp = esp0 - 20
  kept : ∀ r, r ∉ [Register.esp, .ss, .cs, .eip, .eflags] → k.reg r = c.reg r
  frame : ∀ i w, [next, c.reg .cs, c.reg .eflags, c.reg .esp, c.reg .ss][i]? = some w →
    getLong k.memory (esp0 - 20 + 4 * i) = w
  outside : ∀ x, x < esp0 - 20 ∨ esp0 ≤ x → k.memory x = c.memory x

theorem interruptFromUser_interrupted (gate : Gate) (hesp0 : getLong c.memory (tss + 4) = esp0)
    (hlow : 20 ≤ esp0) (hword : ∀ r, c.reg r < 2 ^ 32) (hnext : next < 2 ^ 32) :
    Interrupted esp0 next c (interruptFromUser gate next c) := by
  have hpushed := interruptFrame_pushed hesp0 hlow hword hnext
  have hlength : (interruptFrame next c).length = 5 := rfl
  have hkernel : (onKernelStack c).reg .esp = esp0 := (onKernelStack_esp c).trans hesp0
  refine ⟨?_, fun r hr => ?_, fun i w hi => ?_, fun x hx => ?_⟩
  · rw [interruptFromUser_reg (by decide), hpushed.esp, hkernel, hlength]
  · simp only [List.mem_cons, List.not_mem_nil, or_false, not_or] at hr
    obtain ⟨hesp, hss, hcs, heip, heflags⟩ := hr
    rw [interruptFromUser_reg (by simp [hcs, heip, heflags]), hpushed.others r hesp]
    exact onKernelStack_of_ne hesp hss c
  · have hcell := hpushed.top (by omega) i w hi
    rw [hpushed.esp, hkernel, hlength] at hcell
    rw [interruptFromUser_memory]
    exact hcell
  · rw [interruptFromUser_memory, hpushed.outside x (by omega), onKernelStack, Cpu.set_memory,
      Cpu.set_memory]

theorem execute_segments {v : Nat} (hv : v < 2 ^ 16) (c : Cpu) :
    (∀ r ∈ [Register.ds, .es, .fs, .gs],
      (c.execute (.movw v :: [Register.ds, .es, .fs, .gs].map .movSegment)).reg r = v) ∧
      (∀ r, r ∉ [Register.eax, .ds, .es, .fs, .gs] →
        (c.execute (.movw v :: [Register.ds, .es, .fs, .gs].map .movSegment)).reg r = c.reg r) ∧
        (c.execute (.movw v :: [Register.ds, .es, .fs, .gs].map .movSegment)).memory = c.memory := by
  have hlow : (c.reg .eax / 2 ^ 16 * 2 ^ 16 + v) % 2 ^ 16 = v := by omega
  refine ⟨fun r hr => ?_, fun r hr => ?_, rfl⟩
  · simp only [List.mem_cons, List.not_mem_nil, or_false] at hr
    rcases hr with rfl | rfl | rfl | rfl <;> simpa [Cpu.run] using hlow
  · simp only [List.mem_cons, List.not_mem_nil, or_false, not_or] at hr
    simp [Cpu.run, hr.1, hr.2.1, hr.2.2.1, hr.2.2.2.1, hr.2.2.2.2]

/-- The stack of the kernel when `syscall_handler` is called: its arguments, and behind them what
`iret` needs. -/
structure Trapped (esp0 next : Nat) (c c' : Cpu) : Prop where
  esp : c'.reg .esp = esp0 - 44
  ebp : c'.reg .ebp = c.reg .ebp
  words : ∀ i r, [Register.eax, .ebx, .ecx, .edx, .esi, .edi][i]? = some r →
    getLong c'.memory (esp0 - 44 + 4 * i) = c.reg r
  frame : ∀ i w, [next, c.reg .cs, c.reg .eflags, c.reg .esp, c.reg .ss][i]? = some w →
    getLong c'.memory (esp0 - 20 + 4 * i) = w
  outside : ∀ x, x < esp0 - 44 ∨ esp0 ≤ x → c'.memory x = c.memory x

theorem handlerIT49Entry_trapped (h : Interrupted esp0 next c k) (hlow : 44 ≤ esp0)
    (hhigh : esp0 < 2 ^ 32) (hword : ∀ r, c.reg r < 2 ^ 32) :
    Trapped esp0 next c (k.execute handlerIT49Entry) := by
  have hreg : ∀ r ∈ [Register.edi, .esi, .edx, .ecx, .ebx, .eax], k.reg r = c.reg r := by
    intro r hr
    refine h.kept r ?_
    revert r
    decide
  have hesp := h.esp
  have hcount : ([Register.edi, .esi, .edx, .ecx, .ebx, .eax].map k.reg).length = 6 := rfl
  have hpushed : Cpu.Pushed k ([Register.edi, .esi, .edx, .ecx, .ebx, .eax].map k.reg)
      (k.pushAll ([Register.edi, .esi, .edx, .ecx, .ebx, .eax].map k.reg)) := by
    refine Cpu.pushAll_pushed (by omega) (by omega) fun w hw => ?_
    obtain ⟨r, hr, rfl⟩ := List.mem_map.mp hw
    rw [hreg r hr]
    exact hword r
  obtain ⟨-, hkept, hsame⟩ := execute_segments (v := 0x18) (by decide)
    (k.pushAll ([Register.edi, .esi, .edx, .ecx, .ebx, .eax].map k.reg))
  rw [handlerIT49Entry, Cpu.execute_append, Cpu.execute_pushl (by decide)]
  have htop := (hkept .esp (by decide)).trans hpushed.esp
  have hebp := (hkept .ebp (by decide)).trans (hpushed.others .ebp (by decide))
  rw [hesp, hcount] at htop
  refine ⟨htop, hebp.trans (h.kept .ebp (by decide)), fun i r hi => ?_, fun i w hi => ?_,
    fun x hx => ?_⟩
  · have hmem : ∀ r ∈ [Register.eax, .ebx, .ecx, .edx, .esi, .edi],
        r ∈ [Register.edi, .esi, .edx, .ecx, .ebx, .eax] := by decide
    have hvalue : ([Register.edi, .esi, .edx, .ecx, .ebx, .eax].map k.reg).reverse[i]? =
        some (k.reg r) := by
      rw [← List.map_reverse, List.getElem?_map]
      exact congrArg (Option.map k.reg) hi
    have hcell := hpushed.top (by omega) i (k.reg r) hvalue
    rw [hpushed.esp, hesp, hcount] at hcell
    rw [hsame]
    exact hcell.trans (hreg r (hmem r (List.mem_of_getElem? hi)))
  · rw [hsame, ← h.frame i w hi]
    exact getLong_congr fun b hb => hpushed.outside _ (.inr (by omega))
  · rw [hsame, hpushed.outside x (by omega)]
    exact h.outside x (by omega)

/-- The return value is saved around the moves through `%ax`. -/
theorem execute_userSegments (hlow : 4 ≤ k.reg .esp) (hhigh : k.reg .esp < 2 ^ 32)
    (heax : k.reg .eax < 2 ^ 32) (hk : k' = k.execute (.pushl .eax :: .movw 0x4b ::
      [Register.ds, .es, .fs, .gs].map .movSegment ++ [.popl .eax])) :
    (∀ r ∈ [Register.ds, .es, .fs, .gs], k'.reg r = 0x4b) ∧
      (∀ r ∉ [Register.ds, .es, .fs, .gs], k'.reg r = k.reg r) ∧
        ∀ x, x < k.reg .esp - 4 ∨ k.reg .esp ≤ x → k'.memory x = k.memory x := by
  have hreg := Cpu.push_reg hlow hhigh (k.reg .eax)
  have hmemory := Cpu.push_memory hlow hhigh (k.reg .eax)
  obtain ⟨hsegments, hkept, hsame⟩ := execute_segments (v := 0x4b) (by decide)
    (k.push (k.reg .eax))
  rw [Cpu.execute_append, Cpu.execute_cons, Cpu.execute_nil, Cpu.run, Cpu.execute_cons,
    Cpu.run] at hk
  generalize (k.push (k.reg .eax)).execute
    (.movw 0x4b :: [Register.ds, .es, .fs, .gs].map .movSegment) = s at hk hsegments hkept hsame
  generalize k.push (k.reg .eax) = p at hreg hmemory hkept hsame
  have hesp : s.reg .esp = k.reg .esp - 4 := by rw [hkept .esp (by decide), hreg, if_pos rfl]
  subst hk
  refine ⟨fun r hr => ?_, fun r hr => ?_, fun x hx => ?_⟩
  · have hne : ∀ r ∈ [Register.ds, .es, .fs, .gs], r ≠ .eax ∧ r ≠ .esp := by decide
    rw [Cpu.pop_reg, if_neg (hne r hr).1, if_neg (hne r hr).2]
    exact hsegments r hr
  · rw [Cpu.pop_reg]
    split_ifs with heq htop
    · rw [hsame, hesp, hmemory, heq]
      exact getLong_setLong _ _ heax
    · rw [hesp, htop]
      omega
    · rw [hkept r (by simp_all), hreg, if_neg htop]
  · rw [Cpu.pop_memory, hsame, hmemory]
    exact setLong_of_outside (by omega)

/-- `syscall_handler` has returned: what lies above its return address is as it was, and so are
the registers that a function saves. -/
structure HandlerReturned (esp0 value : Nat) (k k' : Cpu) : Prop where
  small : value < 2 ^ 32
  eax : k'.reg .eax = value
  esp : k'.reg .esp = k.reg .esp
  ebp : k'.reg .ebp = k.reg .ebp
  stack : ∀ x, k.reg .esp ≤ x → x < esp0 → k'.memory x = k.memory x

/-- The handler puts the arguments back into their registers. -/
theorem execute_arguments (h : Trapped esp0 next c k) (hserved : HandlerReturned esp0 value k k')
    (hlow : 44 ≤ esp0) (hhigh : esp0 < 2 ^ 32) :
    ∃ p, p = k'.execute (.addEsp 4 :: argRegisters.map .popl) ∧ p.reg .esp = esp0 - 20 ∧
      (∀ r ∈ argRegisters, p.reg r = c.reg r) ∧
        (∀ r, r ≠ .esp → r ∉ argRegisters → p.reg r = k'.reg r) ∧ p.memory = k'.memory := by
  have hesp : k'.reg .esp = esp0 - 44 := hserved.esp.trans h.esp
  have htop : (k'.run (.addEsp 4)).reg .esp = esp0 - 40 := by
    rw [Cpu.run, Cpu.set_reg, if_pos rfl, hesp]
    omega
  have hothers : ∀ r, r ≠ .esp → (k'.run (.addEsp 4)).reg r = k'.reg r := by
    intro r hr
    rw [Cpu.run, Cpu.set_reg, if_neg hr]
  have hmemory : (k'.run (.addEsp 4)).memory = k'.memory := by rw [Cpu.run, Cpu.set_memory]
  rw [Cpu.execute_cons, Cpu.execute_popl]
  generalize k'.run (.addEsp 4) = q at htop hothers hmemory
  have hlength : argRegisters.length = 5 := rfl
  have hpopped : Cpu.Popped q argRegisters (q.popAll argRegisters) :=
    Cpu.popAll_popped (by decide) (by decide) (by omega)
  refine ⟨_, rfl, ?_, fun r hr => ?_, fun r hr hnot => ?_, hpopped.memory.trans hmemory⟩
  · rw [hpopped.esp, htop, hlength]
    omega
  · obtain ⟨i, hi⟩ := List.mem_iff_getElem?.mp hr
    have hbound : i < 5 := (List.getElem?_eq_some_iff.mp hi).1
    have hargument : [Register.eax, .ebx, .ecx, .edx, .esi, .edi][i + 1]? = some r := hi
    have haddress : esp0 - 40 + 4 * i = esp0 - 44 + 4 * (i + 1) := by omega
    rw [hpopped.cells i r hi, htop, hmemory, haddress, ← h.words (i + 1) r hargument]
    exact getLong_congr fun b hb => hserved.stack _ (by rw [h.esp]; omega) (by omega)
  · exact (hpopped.others r hr hnot).trans (hothers r hr)

theorem iretToUser_reg (c : Cpu) (r : Register) : (iretToUser c).reg r =
    if r = .ss then getLong c.memory ((c.reg .esp + 4 * 4) % 2 ^ 32)
    else if r = .esp then getLong c.memory ((c.reg .esp + 4 * 3) % 2 ^ 32)
    else if r = .eflags then getLong c.memory ((c.reg .esp + 4 * 2) % 2 ^ 32)
    else if r = .cs then getLong c.memory ((c.reg .esp + 4 * 1) % 2 ^ 32)
    else if r = .eip then getLong c.memory ((c.reg .esp + 4 * 0) % 2 ^ 32)
    else c.reg r := by
  rw [iretToUser, Cpu.set_reg, Cpu.set_reg, Cpu.set_reg, Cpu.set_reg, Cpu.set_reg]

theorem iretToUser_memory (c : Cpu) : (iretToUser c).memory = c.memory := by
  rw [iretToUser, Cpu.set_memory, Cpu.set_memory, Cpu.set_memory, Cpu.set_memory, Cpu.set_memory]

/-- The program that raised the interrupt in `c` goes on in `u`. -/
structure BackFrom (esp0 next value : Nat) (c k' u : Cpu) : Prop where
  eax : u.reg .eax = value
  eip : u.reg .eip = next
  restored : ∀ r, r ∈ argRegisters ++ [.ebp, .cs, .eflags, .esp, .ss] → u.reg r = c.reg r
  segments : ∀ r ∈ [Register.ds, .es, .fs, .gs], u.reg r = userDs
  outside : ∀ x, x < esp0 - 24 ∨ esp0 ≤ x → u.memory x = k'.memory x

theorem leaveKernel_back (h : Trapped esp0 next c k) (hserved : HandlerReturned esp0 value k k')
    (hlow : 44 ≤ esp0) (hhigh : esp0 < 2 ^ 32) :
    BackFrom esp0 next value c k' (SyscallFunction.leaveKernel k') := by
  obtain ⟨p, hp, hesp, harguments, hothers, hmemory⟩ := execute_arguments h hserved hlow hhigh
  have heax : p.reg .eax = value := (hothers .eax (by decide) (by decide)).trans hserved.eax
  obtain ⟨q, hq⟩ : ∃ q, q = p.execute (.pushl .eax :: .movw 0x4b ::
    [Register.ds, .es, .fs, .gs].map .movSegment ++ [.popl .eax]) := ⟨_, rfl⟩
  obtain ⟨hsegments, hkept, houtside⟩ :=
    execute_userSegments (by omega) (by omega) (heax ▸ hserved.small) hq
  have hleave : SyscallFunction.leaveKernel k' = iretToUser q := by
    rw [SyscallFunction.leaveKernel, handlerIT49Exit, List.append_assoc, Cpu.execute_append, hq, hp]
    rfl
  have htop : q.reg .esp = esp0 - 20 := (hkept .esp (by decide)).trans hesp
  have hcell : ∀ i w, [next, c.reg .cs, c.reg .eflags, c.reg .esp, c.reg .ss][i]? = some w →
      getLong q.memory ((q.reg .esp + 4 * i) % 2 ^ 32) = w := by
    intro i w hi
    have hbound : i < 5 := (List.getElem?_eq_some_iff.mp hi).1
    have haddress : (q.reg .esp + 4 * i) % 2 ^ 32 = esp0 - 20 + 4 * i := by omega
    rw [haddress, ← h.frame i w hi]
    refine getLong_congr fun b hb => ?_
    rw [houtside _ (.inr (by omega)), hmemory]
    exact hserved.stack _ (by rw [h.esp]; omega) (by omega)
  rw [hleave]
  refine ⟨?_, ?_, fun r hr => ?_, fun r hr => ?_, fun x hx => ?_⟩
  · rw [iretToUser_reg]
    exact (hkept .eax (by decide)).trans heax
  · rw [iretToUser_reg]
    exact hcell 0 next rfl
  · rw [iretToUser_reg]
    rcases List.mem_append.mp hr with hr | hr
    · have hne : ∀ r ∈ argRegisters, r ∉ [Register.ss, .esp, .eflags, .cs, .eip] ∧
          r ∉ [Register.ds, .es, .fs, .gs] := by decide
      obtain ⟨hne, hsegment⟩ := hne r hr
      simp only [List.mem_cons, List.not_mem_nil, or_false, not_or] at hne
      rw [if_neg hne.1, if_neg hne.2.1, if_neg hne.2.2.1, if_neg hne.2.2.2.1, if_neg hne.2.2.2.2,
        hkept r hsegment, harguments r hr]
    · simp only [List.mem_cons, List.not_mem_nil, or_false] at hr
      rcases hr with rfl | rfl | rfl | rfl | rfl
      · have hebp := hothers .ebp (by decide) (by decide)
        exact (hkept .ebp (by decide)).trans (hebp.trans (hserved.ebp.trans h.ebp))
      · exact hcell 1 _ rfl
      · exact hcell 2 _ rfl
      · exact hcell 3 _ rfl
      · exact hcell 4 _ rfl
  · have hne : ∀ r ∈ [Register.ds, .es, .fs, .gs],
        r ∉ [Register.ss, .esp, .eflags, .cs, .eip] := by decide
    have hne := hne r hr
    simp only [List.mem_cons, List.not_mem_nil, or_false, not_or] at hne
    rw [iretToUser_reg, if_neg hne.1, if_neg hne.2.1, if_neg hne.2.2.1, if_neg hne.2.2.2.1,
      if_neg hne.2.2.2.2]
    exact hsegments r hr
  · rw [iretToUser_memory, houtside x (by omega), hmemory]

theorem Entering.word (h : Entering n saved code c c') (hcode : code < 2 ^ 32)
    (hword : ∀ r, c.reg r < 2 ^ 32) (r : Register) : c'.reg r < 2 ^ 32 := by
  by_cases hr : r ∈ .eax :: .esp :: argRegisters.take n
  · simp only [List.mem_cons] at hr
    rcases hr with rfl | rfl | hr
    · exact h.eax ▸ hcode
    · rw [h.esp]
      have hesp := hword .esp
      omega
    · obtain ⟨i, hi⟩ := List.mem_iff_getElem?.mp hr
      have hlength : i < (argRegisters.take n).length := (List.getElem?_eq_some_iff.mp hi).1
      rw [List.length_take] at hlength
      rw [List.getElem?_take_of_lt (by omega)] at hi
      rw [h.args i r (by omega) hi]
      exact getLong_lt _ _
  · rw [h.kept r hr]
    exact hword r

theorem syscallSaved_length (n : Nat) : (syscallSaved n).length ≤ 3 := by
  unfold syscallSaved
  split <;> decide

theorem syscallSaved_nodup (n : Nat) : (syscallSaved n).Nodup := by
  unfold syscallSaved
  split <;> decide

theorem syscallSaved_subset (n : Nat) : ∀ r ∈ syscallSaved n, r ∈ [Register.ebx, .esi, .edi] := by
  unfold syscallSaved
  split <;> decide

/-- What a function of the library must not change is saved, or not used. -/
theorem saved_or_unused (hn : n ≤ 5) : ∀ r ∈ [Register.ebx, .esi, .edi],
    r ∈ syscallSaved n ∨ r ∉ .eax :: .esp :: argRegisters.take n := by
  interval_cases n <;> decide

section Resume

variable {f : SyscallFunction} {u : Cpu}

theorem resume_popped (h : Entering f.arity (syscallSaved f.arity) f.code c c')
    (hesp : u.reg .esp = c'.reg .esp) (hlow : 12 ≤ c.reg .esp) (hhigh : c.reg .esp + 24 ≤ 2 ^ 32) :
    ∃ p, f.resume u = p.pop .eip ∧ Cpu.Popped u (syscallSaved f.arity) p ∧
      p.reg .esp = c.reg .esp := by
  have hcount := syscallSaved_length f.arity
  have htop := h.esp
  have hfree : Register.esp ∉ syscallSaved f.arity := fun hmem =>
    absurd (syscallSaved_subset _ _ hmem) (by decide)
  have hpopped : Cpu.Popped u (syscallSaved f.arity) (u.popAll (syscallSaved f.arity)) :=
    Cpu.popAll_popped hfree (syscallSaved_nodup _) (by omega)
  refine ⟨_, ?_, hpopped, ?_⟩
  · rw [SyscallFunction.resume, Cpu.execute_popl]
  · rw [hpopped.esp, hesp, htop]
    omega

/-- The function of the library returns to its caller. -/
structure ReturnsTo (value : Nat) (c u : Cpu) : Prop where
  eax : u.reg .eax = value
  eip : u.reg .eip = getLong c.memory (c.reg .esp)
  esp : u.reg .esp = c.reg .esp + 4
  kept : ∀ r ∈ [Register.ebx, .esi, .edi, .ebp, .eflags, .cs, .ss], u.reg r = c.reg r
  segments : ∀ r ∈ [Register.ds, .es, .fs, .gs], u.reg r = userDs

theorem resume_returns (h : Entering f.arity (syscallSaved f.arity) f.code c c')
    (hn : f.arity ≤ 5) (hback : BackFrom esp0 next value c' k' u)
    (hlow : 12 ≤ c.reg .esp) (hhigh : c.reg .esp + 24 ≤ 2 ^ 32)
    (hstack : ∀ x, c'.reg .esp ≤ x → x < c.reg .esp + 4 → u.memory x = c'.memory x) :
    ReturnsTo value c (f.resume u) := by
  have hcount := syscallSaved_length f.arity
  have htop := h.esp
  have hesp : u.reg .esp = c'.reg .esp := hback.restored .esp (by decide)
  obtain ⟨p, hresume, hpopped, hbottom⟩ := resume_popped (u := u) h hesp hlow hhigh
  rw [hresume]
  have hunsaved : ∀ r, r ∉ syscallSaved f.arity → r ≠ .esp → r ≠ .eip →
      (p.pop .eip).reg r = u.reg r := by
    intro r hr hne heip
    rw [Cpu.pop_reg, if_neg heip, if_neg hne]
    exact hpopped.others r hne hr
  have hfree : ∀ r, r ∉ [Register.ebx, .esi, .edi, .esp, .eip] → (p.pop .eip).reg r = u.reg r := by
    intro r hr
    simp only [List.mem_cons, List.not_mem_nil, or_false, not_or] at hr
    refine hunsaved r (fun hmem => ?_) hr.2.2.2.1 hr.2.2.2.2
    have hsaved := syscallSaved_subset _ r hmem
    simp [hr.1, hr.2.1, hr.2.2.1] at hsaved
  have hsaved : ∀ r ∈ [Register.ebx, .esi, .edi], (p.pop .eip).reg r = c.reg r := by
    intro r hr
    have hne : ∀ r ∈ [Register.ebx, .esi, .edi], r ≠ .eip ∧ r ≠ .esp ∧ r ∈ argRegisters := by
      decide
    obtain ⟨heip, hne, hargument⟩ := hne r hr
    by_cases hmem : r ∈ syscallSaved f.arity
    · obtain ⟨i, hi⟩ := List.mem_iff_getElem?.mp hmem
      have hbound := (List.getElem?_eq_some_iff.mp hi).1
      rw [Cpu.pop_reg, if_neg heip, if_neg hne, hpopped.cells i r hi, hesp, ← h.cells i r hi]
      exact getLong_congr fun b hb => hstack _ (by omega) (by omega)
    · rw [hunsaved r hmem hne heip, hback.restored r (List.mem_append_left _ hargument)]
      exact h.kept r ((saved_or_unused hn r hr).resolve_left hmem)
  have hrest : ∀ r ∈ [Register.ebp, .eflags, .cs, .ss], (p.pop .eip).reg r = c.reg r := by
    intro r hr
    have hmem : ∀ r ∈ [Register.ebp, .eflags, .cs, .ss],
        r ∉ [Register.ebx, .esi, .edi, .esp, .eip] ∧
          r ∈ argRegisters ++ [.ebp, .cs, .eflags, .esp, .ss] ∧
            r ∉ .eax :: .esp :: argRegisters := by decide
    obtain ⟨hlisted, hrestored, hunused⟩ := hmem r hr
    rw [hfree r hlisted, hback.restored r hrestored]
    refine h.kept r fun hused => hunused ?_
    simp only [List.mem_cons] at hused ⊢
    exact hused.imp_right (Or.imp_right List.mem_of_mem_take)
  refine ⟨?_, ?_, ?_, fun r hr => ?_, fun r hr => ?_⟩
  · exact (hfree .eax (by decide)).trans hback.eax
  · rw [Cpu.pop_reg, if_pos rfl, hbottom, hpopped.memory]
    refine getLong_congr fun b hb => ?_
    rw [hstack _ (by omega) (by omega)]
    exact h.outside _ (.inr (by omega))
  · rw [Cpu.pop_reg, if_neg (by decide), if_pos rfl, hbottom]
    omega
  · have hsplit : r ∈ [Register.ebx, .esi, .edi] ++ [.ebp, .eflags, .cs, .ss] := hr
    exact (List.mem_append.mp hsplit).elim (hsaved r) (hrest r)
  · have hmem : ∀ r ∈ [Register.ds, .es, .fs, .gs], r ∉ [Register.ebx, .esi, .edi, .esp, .eip] := by
      decide
    rw [hfree r (hmem r hr)]
    exact hback.segments r hr

end Resume

theorem SyscallFunction.bounds (f : SyscallFunction) : f.arity ≤ 5 ∧ f.code < 2 ^ 32 := by
  cases f <;> decide

/-- The words that `syscall_handler` takes as its arguments. -/
theorem dispatch_words (f : SyscallFunction) (nameLength arg word : Nat → Nat)
    (hcode : word 0 = f.code) (hargs : ∀ i, i < f.arity → word (i + 1) = arg i) :
    dispatch nameLength (word 0) (word 1) (word 2) (word 3) (word 4) (word 5) =
      some (f.request nameLength arg) := by
  rw [hcode]
  cases f with
  | getpid => rfl
  | currentClock => rfl
  | consEcho | kill | exit | getprio | waitClock | pcreate | pdelete | preset =>
      rw [hargs 0 (by decide)]
      rfl
  | consWrite | consRead | chprio | waitpid | clockSettings | pcount | preceive | psend =>
      rw [hargs 0 (by decide), hargs 1 (by decide)]
      rfl
  | start =>
      rw [hargs 0 (by decide), hargs 1 (by decide), hargs 2 (by decide), hargs 3 (by decide),
        hargs 4 (by decide)]
      rfl

/-- A call of a function of the library is that call of the kernel, and returns what
`syscall_handler` returns, with everything else as the caller of the function may expect. -/
theorem library_calls (f : SyscallFunction) (nameLength : Nat → Nat)
    (hword : ∀ r, c.reg r < 2 ^ 32) (hnext : next < 2 ^ 32)
    (hesp0 : getLong c.memory (tss + 4) = esp0) (hkernel : 44 ≤ esp0 ∧ esp0 ≤ 0x1000000)
    (huser : 0x100000c ≤ c.reg .esp ∧ c.reg .esp + 24 ≤ 2 ^ 32)
    (hk : f.enterKernel next c = k) :
    (dispatch nameLength (getLong k.memory (k.reg .esp)) (getLong k.memory (k.reg .esp + 4))
        (getLong k.memory (k.reg .esp + 8)) (getLong k.memory (k.reg .esp + 12))
        (getLong k.memory (k.reg .esp + 16)) (getLong k.memory (k.reg .esp + 20)) =
      some (f.request nameLength fun i => getLong c.memory (c.reg .esp + 4 + 4 * i))) ∧
      ∀ k' value, HandlerReturned esp0 value k k' →
        (∀ x, c.reg .esp - 12 ≤ x → x < c.reg .esp + 4 → k'.memory x = k.memory x) →
          ReturnsTo value c (f.resume (SyscallFunction.leaveKernel k')) := by
  obtain ⟨harity, hcode⟩ := f.bounds
  have henter : Entering f.arity (syscallSaved f.arity) f.code c
      (c.execute (syscallEntry f.code f.arity)) :=
    syscallEntry_entering harity hword (by omega) huser.2
  have hcount := syscallSaved_length f.arity
  have htop := henter.esp
  have hword' := henter.word hcode hword
  have hesp0' : getLong (c.execute (syscallEntry f.code f.arity)).memory (tss + 4) = esp0 := by
    rw [← hesp0]
    refine getLong_congr fun b hb => henter.outside _ (.inl ?_)
    unfold tss
    omega
  have htrapped : Trapped esp0 next (c.execute (syscallEntry f.code f.arity)) k :=
    hk ▸ handlerIT49Entry_trapped
      (interruptFromUser_interrupted _ hesp0' (by omega) hword' hnext) hkernel.1 (by omega) hword'
  generalize c.execute (syscallEntry f.code f.arity) = c' at henter htop hword' htrapped
  constructor
  · refine dispatch_words f nameLength _ (fun i => getLong k.memory (k.reg .esp + 4 * i))
      ?_ fun i hi => ?_
    · have heax := htrapped.words 0 .eax rfl
      rw [htrapped.esp]
      exact heax.trans henter.eax
    · have hlength : i < argRegisters.length := by
        change i < 5
        omega
      have hr : argRegisters[i]? = some argRegisters[i] := List.getElem?_eq_getElem hlength
      have hcell := htrapped.words (i + 1) argRegisters[i] hr
      rw [← htrapped.esp] at hcell
      exact hcell.trans (henter.args i _ hi hr)
  · intro k' value hserved hstack
    have hback := leaveKernel_back htrapped hserved hkernel.1 (by omega)
    refine resume_returns henter harity hback (by omega) huser.2 fun x hlow hhigh => ?_
    rw [hback.outside x (.inr (by omega)), hstack x (by omega) hhigh]
    exact htrapped.outside x (.inr (by omega))

/-- A program that has called `start` for the function at 0x1001000, with 4096 bytes of stack, the
priority 128, the name at 0x1002000 and the argument 7. -/
def smallCpu : Cpu where
  reg := fun r => if r = .esp then 0x1000100 else 0
  memory := setLong (setLong (setLong (setLong (setLong (setLong (fun _ => 0) (tss + 4) 0x9000)
    0x1000104 0x1001000) 0x1000108 4096) 0x100010c 128) 0x1000110 0x1002000) 0x1000114 7

theorem library_calls_start : ∃ k, SyscallFunction.start.enterKernel 0x1000020 smallCpu = k ∧
    dispatch (fun _ => 3) (getLong k.memory (k.reg .esp)) (getLong k.memory (k.reg .esp + 4))
        (getLong k.memory (k.reg .esp + 8)) (getLong k.memory (k.reg .esp + 12))
        (getLong k.memory (k.reg .esp + 16)) (getLong k.memory (k.reg .esp + 20)) =
      some ⟨.start 0x1001000 4096 128 ⟨0x1002000, 3⟩, some 7⟩ ∧
      ReturnsTo 3 smallCpu
        (SyscallFunction.start.resume (SyscallFunction.leaveKernel (k.set .eax 3))) := by
  have hword : ∀ r, smallCpu.reg r < 2 ^ 32 := by
    intro r
    cases r <;> decide
  have hnext : 0x1000020 < 2 ^ 32 := by decide
  have hesp0 : getLong smallCpu.memory (tss + 4) = 0x9000 := by decide +kernel
  have hargs : SyscallFunction.start.request (fun _ => 3) (fun i =>
      getLong smallCpu.memory (smallCpu.reg .esp + 4 + 4 * i)) =
        ⟨.start 0x1001000 4096 128 ⟨0x1002000, 3⟩, some 7⟩ := by decide +kernel
  obtain ⟨hcall, hreturns⟩ := library_calls .start (fun _ => 3) hword hnext hesp0 (by decide)
    (by decide) rfl
  refine ⟨_, rfl, hcall.trans (congrArg some hargs), ?_⟩
  refine hreturns _ 3 ⟨by decide, ?_, ?_, ?_, fun x _ _ => ?_⟩ fun x _ _ => ?_
  · rw [Cpu.set_reg, if_pos rfl]
  · rw [Cpu.set_reg, if_neg (by decide)]
  · rw [Cpu.set_reg, if_neg (by decide)]
  · rw [Cpu.set_memory]
  · rw [Cpu.set_memory]

end SchlagOS
