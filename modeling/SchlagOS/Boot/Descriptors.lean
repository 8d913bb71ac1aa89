import SchlagOS.Boot.Paging

/-!
# The descriptor tables

The segments and the interrupt gates that `cpu_init` and `handlers_init` set
up, written bit field by bit field, and read as the processor reads them.
-/

namespace SchlagOS.Boot

open Foundation

def idt : Nat := 0x1000

def gdt : Nat := 0x10000

def tss : Nat := 0x20000

def baseTss : Nat := 0x08

def kernelCs : Nat := 0x10

def kernelDs : Nat := 0x18

def userCs : Nat := 0x43

def userDs : Nat := 0x4b

def trapTssBase : Nat := 0x50

def handlerEntries : Nat := 32

/-- Where the linker puts what the tables refer to. -/
structure Symbols where
  firstStack : Nat
  trapTss : Nat
  trapStack : Nat
  exceptionHandlerTasks : Nat → Nat
  handlerIT32 : Nat
  handlerIT33 : Nat
  handlerIT49 : Nat
  trapTss_kernel : 0x100000 ≤ trapTss ∧ trapTss + 104 * 32 ≤ 0x1000000
  trapStack_kernel : trapStack + 16384 ≤ 0x1000000
  tasks_word : ∀ i < 32, exceptionHandlerTasks i < 2 ^ 32
  handlers_word : handlerIT32 < 2 ^ 32 ∧ handlerIT33 < 2 ^ 32 ∧ handlerIT49 < 2 ^ 32

/-! ## Entries -/

/-- The two words of an entry, the lower one first. -/
def setEntry (mem : Bytes) (entry p0 p1 : Nat) : Bytes :=
  setLong (setLong mem entry p0) (entry + 4) p1

def fillDescriptor (mem : Bytes) (entry base limit access sizebits : Nat) : Bytes :=
  let coarse := decide (0xfffff < limit)
  let limit := if coarse then limit >>> 12 else limit
  let sizebits := if coarse then sizebits ||| 0x8 else sizebits
  let p0 := (limit &&& 0xffff) + (base &&& 0xffff) <<< 16
  let p1 := base >>> 16 &&& 0xff
  let p1 := p1 ||| ((access ||| 0x80) &&& 0xff) <<< 8
  let p1 := p1 ||| (limit &&& 0xf0000)
  let p1 := p1 ||| (sizebits &&& 0xf) <<< 20
  let p1 := p1 ||| (base &&& 0xff000000)
  setEntry mem entry p0 p1

def fillGate (mem : Bytes) (entry offset selector access wordCount : Nat) : Bytes :=
  let p0 := offset &&& 0xffff
  let p0 := p0 ||| selector <<< 16
  let p1 := wordCount &&& 0xf
  let p1 := p1 ||| (access ||| 0x80) <<< 8
  let p1 := p1 ||| (offset &&& 0xffff0000)
  setEntry mem entry p0 p1

/-! ## cpu_init -/

def setupGdt (sym : Symbols) (mem : Bytes) : Bytes :=
  let mem := memset mem gdt (8 * 8192)
  let mem := fillDescriptor mem (gdt + 8 * (baseTss / 8)) tss (104 - 1) (0x00 ||| 0x09 ||| 0x80) 0
  let mem := fillDescriptor mem (gdt + 8 * (kernelCs / 8)) 0 0xffffffff (0x00 ||| 0x1a) 0x4
  let mem := fillDescriptor mem (gdt + 8 * (kernelDs / 8)) 0 0xffffffff (0x00 ||| 0x12) 0x4
  let mem := fillDescriptor mem (gdt + 8 * (userCs / 8)) 0 0xffffffff (0x60 ||| 0x1a) 0x4
  let mem := fillDescriptor mem (gdt + 8 * (userDs / 8)) 0 0xffffffff (0x60 ||| 0x12) 0x4
  forLoop (fun i mem => fillDescriptor mem (gdt + 8 * (i + trapTssBase / 8))
    (sym.trapTss + 104 * i) (104 - 1) (0x00 ||| 0x09 ||| 0x80) 0) handlerEntries 0 mem

/-- A field of 16 bits. -/
def setShort (mem : Bytes) (a v : Nat) : Bytes := fun x =>
  if a ≤ x ∧ x < a + 2 then v / 2 ^ (8 * (x - a)) % 2 ^ 8 else mem x

/-- The task state of the handler of an exception; `ts` is its address. -/
def fillTrapTss (sym : Symbols) (i : Nat) (mem : Bytes) : Bytes :=
  let ts := sym.trapTss + 104 * i
  let mem := setLong mem (ts + 8) kernelDs
  let mem := setLong mem (ts + 4) (sym.trapStack + 16384)
  let mem := setLong mem (ts + 80) kernelDs
  let mem := setLong mem (ts + 56) (getLong mem (ts + 4))
  let mem := setShort mem (ts + 102) 104
  let mem := setLong mem (ts + 76) kernelCs
  let mem := setLong mem (ts + 32) (sym.exceptionHandlerTasks i)
  let mem := setLong mem (ts + 84) kernelDs
  let mem := setLong mem (ts + 72) kernelDs
  let mem := setLong mem (ts + 88) 0
  let mem := setLong mem (ts + 92) 0
  let mem := setLong mem (ts + 36) 2
  let mem := setShort mem (ts + 100) 0
  setLong mem (ts + 28) pgdir

def setupIdt (sym : Symbols) (mem : Bytes) : Bytes :=
  forLoop (fun i mem =>
    fillGate (fillTrapTss sym i mem) (idt + 8 * i) 0 (trapTssBase + 8 * i)
      (0x05 + if i = 3 then 0x60 else 0) 0) handlerEntries 0 (memset mem idt (8 * 256))

def setupTss (sym : Symbols) (mem : Bytes) : Bytes :=
  let mem := memset mem tss 104
  let mem := setLong mem (tss + 8) kernelDs
  let mem := setLong mem (tss + 4) (sym.firstStack + 16384)
  let mem := setShort mem (tss + 102) 104
  setLong mem (tss + 28) pgdir

/-! ## handlers_init -/

def handlerInit (mem : Bytes) (n handler options : Nat) : Bytes :=
  let base := 0x1000 + 4 * (2 * n)
  let mem := setLong mem base (kernelCs <<< 16 ||| (handler &&& 0x0000FFFF))
  setLong mem (base + 4) (handler &&& 0xFFFF0000 ||| (options &&& 0x0000FFFF))

def itVectorPValid : Nat := 1 <<< 15

def itVectorDplUsermode : Nat := 3 <<< 13

def itVectorTypeInterrupt : Nat := 14 <<< 8

def handlersInit (sym : Symbols) (mem : Bytes) : Bytes :=
  let mem := handlerInit mem 32 sym.handlerIT32 (itVectorPValid ||| itVectorTypeInterrupt)
  let mem := handlerInit mem 33 sym.handlerIT33 (itVectorPValid ||| itVectorTypeInterrupt)
  handlerInit mem 49 sym.handlerIT49
    (itVectorPValid ||| itVectorDplUsermode ||| itVectorTypeInterrupt)

/-- The tables when the kernel runs. -/
def descriptorTables (sym : Symbols) (mem : Bytes) : Bytes :=
  handlersInit sym (setupTss sym (setupIdt sym (setupGdt sym mem)))

/-! ## What the processor reads -/

structure Descriptor where
  base : Nat
  limit : Nat
  access : Nat
  size : Nat
  deriving DecidableEq, Repr

def descriptorAt (mem : Bytes) (entry : Nat) : Descriptor :=
  let p0 := getLong mem entry
  let p1 := getLong mem (entry + 4)
  { base := p0 / 2 ^ 16 + 2 ^ 16 * (p1 % 2 ^ 8) + 2 ^ 24 * (p1 / 2 ^ 24)
    limit := p0 % 2 ^ 16 + 2 ^ 16 * (p1 / 2 ^ 16 % 2 ^ 4)
    access := p1 / 2 ^ 8 % 2 ^ 8
    size := p1 / 2 ^ 20 % 2 ^ 4 }

namespace Descriptor

def present (d : Descriptor) : Bool := d.access.testBit 7

def dpl (d : Descriptor) : Nat := d.access / 2 ^ 5 % 2 ^ 2

/-- The offset of the last byte; a coarse limit counts pages. -/
def last (d : Descriptor) : Nat :=
  if d.size.testBit 3 then 2 ^ 12 * d.limit + (2 ^ 12 - 1) else d.limit

end Descriptor

structure Gate where
  offset : Nat
  selector : Nat
  access : Nat
  deriving DecidableEq, Repr

def gateAt (mem : Bytes) (entry : Nat) : Gate :=
  let p0 := getLong mem entry
  let p1 := getLong mem (entry + 4)
  { offset := p0 % 2 ^ 16 + 2 ^ 16 * (p1 / 2 ^ 16)
    selector := p0 / 2 ^ 16
    access := p1 / 2 ^ 8 % 2 ^ 8 }

namespace Gate

def present (g : Gate) : Bool := g.access.testBit 7

def dpl (g : Gate) : Nat := g.access / 2 ^ 5 % 2 ^ 2

/-- A program at privilege level 3 may raise the interrupt by an instruction. -/
def FromUser (g : Gate) : Prop := g.present = true ∧ 3 ≤ g.dpl

instance (g : Gate) : Decidable g.FromUser := by
  unfold FromUser
  infer_instance

end Gate

/-! ## Entries read back -/

variable {mem : Bytes} {entry base limit access sizebits offset selector x : Nat}

theorem getLong_setEntry (mem : Bytes) (entry : Nat) {p0 p1 : Nat} (h0 : p0 < 2 ^ 32) (h1 : p1 < 2 ^ 32) :
    getLong (setEntry mem entry p0 p1) entry = p0 ∧
      getLong (setEntry mem entry p0 p1) (entry + 4) = p1 := by
  unfold setEntry
  rw [getLong_setLong_of_disjoint (by omega), getLong_setLong mem entry h0,
    getLong_setLong _ (entry + 4) h1]
  exact ⟨rfl, rfl⟩

theorem setEntry_outside {p0 p1 : Nat} (hx : x < entry ∨ entry + 8 ≤ x) :
    setEntry mem entry p0 p1 x = mem x := by
  unfold setEntry
  rw [setLong_of_outside (by omega), setLong_of_outside (by omega)]

private theorem mask_low (x n : Nat) : x &&& 2 ^ n - 1 = x % 2 ^ n :=
  Nat.and_two_pow_sub_one_eq_mod x n

/-- The fields of the upper word of a descriptor, side by side. -/
private theorem descriptor_upper (hbase : base < 2 ^ 32) :
    (base >>> 16 &&& 0xff) ||| ((access ||| 0x80) &&& 0xff) <<< 8 ||| (limit &&& 0xf0000) |||
        (sizebits &&& 0xf) <<< 20 ||| (base &&& 0xff000000) =
      base / 2 ^ 16 % 2 ^ 8 + 2 ^ 8 * ((access ||| 0x80) % 2 ^ 8) +
        2 ^ 16 * (limit / 2 ^ 16 % 2 ^ 4) + 2 ^ 20 * (sizebits % 2 ^ 4) +
          2 ^ 24 * (base / 2 ^ 24) := by
  have hlow : base >>> 16 &&& 0xff = base / 2 ^ 16 % 2 ^ 8 := by
    rw [Nat.shiftRight_eq_div_pow]
    exact mask_low _ 8
  have haccess : ((access ||| 0x80) &&& 0xff) <<< 8 = 2 ^ 8 * ((access ||| 0x80) % 2 ^ 8) := by
    rw [Nat.shiftLeft_eq, Nat.mul_comm]
    exact congrArg _ (mask_low _ 8)
  have hlimit : limit &&& 0xf0000 = 2 ^ 16 * (limit / 2 ^ 16 % 2 ^ 4) := and_field limit 16 4
  have hsize : (sizebits &&& 0xf) <<< 20 = 2 ^ 20 * (sizebits % 2 ^ 4) := by
    rw [Nat.shiftLeft_eq, Nat.mul_comm]
    exact congrArg _ (mask_low _ 4)
  have hhigh : base &&& 0xff000000 = 2 ^ 24 * (base / 2 ^ 24) := by
    have hfield := and_field base 24 8
    rwa [Nat.mod_eq_of_lt (by omega)] at hfield
  rw [hlow, haccess, hlimit, hsize, hhigh, or_field (i := 8) (by omega),
    or_field (i := 16) (by omega), or_field (i := 20) (by omega), or_field (i := 24) (by omega)]

/-- The fields of such a word. -/
private theorem upper_fields {b a l s h : Nat} (hb : b < 2 ^ 8) (ha : a < 2 ^ 8) (hl : l < 2 ^ 4)
    (hs : s < 2 ^ 4) :
    let w := b + 2 ^ 8 * a + 2 ^ 16 * l + 2 ^ 20 * s + 2 ^ 24 * h
    w % 2 ^ 8 = b ∧ w / 2 ^ 8 % 2 ^ 8 = a ∧ w / 2 ^ 16 % 2 ^ 4 = l ∧ w / 2 ^ 20 % 2 ^ 4 = s ∧
      w / 2 ^ 24 = h := by
  dsimp only
  refine ⟨?_, ?_, ?_, ?_, ?_⟩
  · omega
  · omega
  · omega
  · omega
  · omega

/-- What `fill_descriptor` has written. -/
theorem descriptorAt_fillDescriptor (mem : Bytes) (entry access sizebits : Nat) (hbase : base < 2 ^ 32) (hlimit : limit < 2 ^ 32) :
    descriptorAt (fillDescriptor mem entry base limit access sizebits) entry =
      { base := base
        limit := if 0xfffff < limit then limit / 2 ^ 12 else limit
        access := (access ||| 0x80) % 2 ^ 8
        size := (if 0xfffff < limit then sizebits ||| 0x8 else sizebits) % 2 ^ 4 } := by
  have hlower : ∀ limit, (limit &&& 0xffff) + (base &&& 0xffff) <<< 16 =
      limit % 2 ^ 16 + 2 ^ 16 * (base % 2 ^ 16) := by
    intro limit
    rw [Nat.shiftLeft_eq, Nat.mul_comm]
    exact congrArg₂ (· + 2 ^ 16 * ·) (mask_low limit 16) (mask_low base 16)
  have hread : ∀ limit sizebits, limit < 2 ^ 20 →
      descriptorAt (setEntry mem entry ((limit &&& 0xffff) + (base &&& 0xffff) <<< 16)
        ((base >>> 16 &&& 0xff) ||| ((access ||| 0x80) &&& 0xff) <<< 8 ||| (limit &&& 0xf0000) |||
          (sizebits &&& 0xf) <<< 20 ||| (base &&& 0xff000000))) entry =
        ⟨base, limit, (access ||| 0x80) % 2 ^ 8, sizebits % 2 ^ 4⟩ := by
    intro limit sizebits hsmall
    rw [hlower, descriptor_upper hbase]
    have hlow : limit % 2 ^ 16 + 2 ^ 16 * (base % 2 ^ 16) < 2 ^ 32 := by omega
    have hhigh : base / 2 ^ 16 % 2 ^ 8 + 2 ^ 8 * ((access ||| 0x80) % 2 ^ 8) +
        2 ^ 16 * (limit / 2 ^ 16 % 2 ^ 4) + 2 ^ 20 * (sizebits % 2 ^ 4) +
          2 ^ 24 * (base / 2 ^ 24) < 2 ^ 32 := by omega
    obtain ⟨h0, h1⟩ := getLong_setEntry mem entry hlow hhigh
    obtain ⟨hb, ha, hl, hs, hh⟩ := upper_fields (b := base / 2 ^ 16 % 2 ^ 8)
      (a := (access ||| 0x80) % 2 ^ 8) (l := limit / 2 ^ 16 % 2 ^ 4) (s := sizebits % 2 ^ 4)
      (h := base / 2 ^ 24) (Nat.mod_lt _ (by decide)) (Nat.mod_lt _ (by decide))
      (Nat.mod_lt _ (by decide)) (Nat.mod_lt _ (by decide))
    unfold descriptorAt
    dsimp only
    rw [h0, h1, hb, ha, hl, hs, hh, Descriptor.mk.injEq]
    exact ⟨by omega, by omega, rfl, rfl⟩
  unfold fillDescriptor
  by_cases hcoarse : 0xfffff < limit
  · simp only [hcoarse, decide_true, if_true]
    rw [hread (limit >>> 12) _ (by rw [Nat.shiftRight_eq_div_pow]; omega),
      Nat.shiftRight_eq_div_pow]
  · simp only [hcoarse, decide_false, if_false]
    exact hread limit sizebits (by omega)

theorem access_lt {access : Nat} (haccess : access < 2 ^ 8) : access ||| 0x80 < 2 ^ 8 :=
  Nat.or_lt_two_pow haccess (by decide)

/-- What `fill_gate` has written. -/
theorem gateAt_fillGate {wordCount : Nat} (hoffset : offset < 2 ^ 32)
    (hselector : selector < 2 ^ 16) (haccess : access < 2 ^ 8) :
    gateAt (fillGate mem entry offset selector access wordCount) entry =
      ⟨offset, selector, access ||| 0x80⟩ := by
  have hpresent := access_lt haccess
  have hlower : (offset &&& 0xffff) ||| selector <<< 16 =
      offset % 2 ^ 16 + 2 ^ 16 * selector := by
    have hmask : offset &&& 0xffff = offset % 2 ^ 16 := mask_low offset 16
    rw [hmask, Nat.shiftLeft_eq, Nat.mul_comm, or_field (i := 16) (by omega)]
  have hupper : (wordCount &&& 0xf) ||| (access ||| 0x80) <<< 8 ||| (offset &&& 0xffff0000) =
      wordCount % 2 ^ 4 + 2 ^ 8 * (access ||| 0x80) + 2 ^ 16 * (offset / 2 ^ 16) := by
    have hcount : wordCount &&& 0xf = wordCount % 2 ^ 4 := mask_low wordCount 4
    have hfield := and_field offset 16 16
    rw [Nat.mod_eq_of_lt (by omega)] at hfield
    have hhigh : offset &&& 0xffff0000 = 2 ^ 16 * (offset / 2 ^ 16) := hfield
    rw [hcount, hhigh, Nat.shiftLeft_eq, Nat.mul_comm _ (2 ^ 8), or_field (i := 8) (by omega),
      or_field (i := 16) (by omega)]
  have hlow : offset % 2 ^ 16 + 2 ^ 16 * selector < 2 ^ 32 := by omega
  have hhigh : wordCount % 2 ^ 4 + 2 ^ 8 * (access ||| 0x80) + 2 ^ 16 * (offset / 2 ^ 16) <
      2 ^ 32 := by omega
  obtain ⟨h0, h1⟩ := getLong_setEntry mem entry hlow hhigh
  unfold fillGate gateAt
  dsimp only
  rw [hlower, hupper, h0, h1, Gate.mk.injEq]
  exact ⟨by omega, by omega, by omega⟩

/-- What `handler_init` has written, in the same format. -/
theorem gateAt_handlerInit {n handler options : Nat} (hhandler : handler < 2 ^ 32) :
    gateAt (handlerInit mem n handler options) (idt + 8 * n) =
      ⟨handler, kernelCs, options / 2 ^ 8 % 2 ^ 8⟩ := by
  have hlower : kernelCs <<< 16 ||| (handler &&& 0x0000FFFF) =
      handler % 2 ^ 16 + 2 ^ 16 * kernelCs := by
    have hmask : handler &&& 0x0000FFFF = handler % 2 ^ 16 := mask_low handler 16
    rw [hmask, Nat.or_comm, Nat.shiftLeft_eq, Nat.mul_comm, or_field (i := 16) (by omega)]
  have hupper : (handler &&& 0xFFFF0000) ||| (options &&& 0x0000FFFF) =
      options % 2 ^ 16 + 2 ^ 16 * (handler / 2 ^ 16) := by
    have hmask : options &&& 0x0000FFFF = options % 2 ^ 16 := mask_low options 16
    have hfield := and_field handler 16 16
    rw [Nat.mod_eq_of_lt (by omega)] at hfield
    have hhigh : handler &&& 0xFFFF0000 = 2 ^ 16 * (handler / 2 ^ 16) := hfield
    rw [hmask, hhigh, Nat.or_comm, or_field (i := 16) (by omega)]
  have hentry : 0x1000 + 4 * (2 * n) = idt + 8 * n := by
    unfold idt
    omega
  have hcode : kernelCs = 0x10 := rfl
  have hlow : handler % 2 ^ 16 + 2 ^ 16 * kernelCs < 2 ^ 32 := by omega
  have hhigh : options % 2 ^ 16 + 2 ^ 16 * (handler / 2 ^ 16) < 2 ^ 32 := by omega
  obtain ⟨h0, h1⟩ := getLong_setEntry mem (idt + 8 * n) hlow hhigh
  unfold setEntry at h0 h1
  unfold handlerInit gateAt
  dsimp only
  rw [hlower, hupper, hentry, h0, h1, Gate.mk.injEq]
  exact ⟨by omega, by omega, by omega⟩

/-! ## What is written where -/

variable {sym : Symbols} {a i n : Nat} {mem' : Bytes}

theorem gateAt_congr (h : ∀ x, entry ≤ x → x < entry + 8 → mem' x = mem x) :
    gateAt mem' entry = gateAt mem entry := by
  unfold gateAt
  rw [getLong_congr fun b hb => h (entry + b) (by omega) (by omega),
    getLong_congr fun b hb => h (entry + 4 + b) (by omega) (by omega)]

theorem descriptorAt_congr (h : ∀ x, entry ≤ x → x < entry + 8 → mem' x = mem x) :
    descriptorAt mem' entry = descriptorAt mem entry := by
  unfold descriptorAt
  rw [getLong_congr fun b hb => h (entry + b) (by omega) (by omega),
    getLong_congr fun b hb => h (entry + 4 + b) (by omega) (by omega)]

theorem setShort_outside {v : Nat} (hx : x < a ∨ a + 2 ≤ x) : setShort mem a v x = mem x :=
  if_neg (by omega)

theorem fillTrapTss_outside
    (hx : x < sym.trapTss + 104 * i ∨ sym.trapTss + 104 * i + 104 ≤ x) :
    fillTrapTss sym i mem x = mem x := by
  unfold fillTrapTss
  rw [setLong_of_outside (by omega), setShort_outside (by omega), setLong_of_outside (by omega),
    setLong_of_outside (by omega), setLong_of_outside (by omega), setLong_of_outside (by omega),
    setLong_of_outside (by omega), setLong_of_outside (by omega), setLong_of_outside (by omega),
    setShort_outside (by omega), setLong_of_outside (by omega), setLong_of_outside (by omega),
    setLong_of_outside (by omega), setLong_of_outside (by omega)]

theorem handlerInit_outside {handler options : Nat} (hx : x < idt + 8 * n ∨ idt + 8 * n + 8 ≤ x) :
    handlerInit mem n handler options x = mem x := by
  unfold idt at hx
  unfold handlerInit
  rw [setLong_of_outside (by omega), setLong_of_outside (by omega)]

theorem setupTss_outside (hx : x < tss ∨ tss + 104 ≤ x) : setupTss sym mem x = mem x := by
  unfold setupTss
  rw [setLong_of_outside (by omega), setShort_outside (by omega), setLong_of_outside (by omega),
    setLong_of_outside (by omega), memset_outside hx]

/-! ## The gates -/

theorem setupIdt_outside
    (hidt : x < idt ∨ idt + 8 * 256 ≤ x)
    (htasks : x < sym.trapTss ∨ sym.trapTss + 104 * 32 ≤ x) : setupIdt sym mem x = mem x := by
  unfold setupIdt
  refine forLoop_keeps (P := fun mem' => mem' x = mem x) (memset_outside hidt)
    fun k mem' _ hk hmem' => ?_
  have hturn : k < 32 := by simpa [handlerEntries] using hk
  have htable := sym.trapTss_kernel
  rw [fillGate, setEntry_outside (by omega), fillTrapTss_outside (by omega), hmem']

/-- The access byte of the gate of an exception. -/
def taskAccess (n : Nat) : Nat := 0x05 + if n = 3 then 0x60 else 0

theorem gateAt_setupIdt (hn : n < 256) :
    gateAt (setupIdt sym mem) (idt + 8 * n) =
      if n < 32 then ⟨0, trapTssBase + 8 * n, taskAccess n ||| 0x80⟩ else ⟨0, 0, 0⟩ := by
  have htable := sym.trapTss_kernel
  have hkeeps : ∀ k (mem' : Bytes), k < 32 → k ≠ n →
      gateAt (fillGate (fillTrapTss sym k mem') (idt + 8 * k) 0 (trapTssBase + 8 * k)
        (0x05 + if k = 3 then 0x60 else 0) 0) (idt + 8 * n) = gateAt mem' (idt + 8 * n) := by
    intro k mem' hk hne
    refine gateAt_congr fun x hlow hhigh => ?_
    unfold idt at hlow hhigh
    rw [fillGate, setEntry_outside (by unfold idt; omega), fillTrapTss_outside (by omega)]
  have hturns : ∀ k, k < 0 + handlerEntries → k < 32 := fun k hk => by
    simpa [handlerEntries] using hk
  unfold setupIdt
  split_ifs with hsmall
  · refine forLoop_sets (P := fun mem' => gateAt mem' (idt + 8 * n) = _) (Nat.zero_le n)
      (by simpa [handlerEntries] using hsmall) (fun mem' => ?_) fun k mem' hk hne hmem' => ?_
    · refine gateAt_fillGate (by decide) ?_ ?_
      · unfold trapTssBase
        omega
      · split <;> decide
    · exact (hkeeps k mem' (hturns k hk) hne).trans hmem'
  · refine forLoop_keeps (P := fun mem' => gateAt mem' (idt + 8 * n) = _) ?_
      fun k mem' _ hk hmem' => ?_
    · unfold gateAt
      rw [getLong_memset (by omega) (by omega), getLong_memset (by omega) (by omega)]
      rfl
    · have hk32 := hturns k hk
      exact (hkeeps k mem' hk32 (by omega)).trans hmem'

theorem gateAt_handlerInit_ne {k handler options : Nat} (hne : n ≠ k) :
    gateAt (handlerInit mem k handler options) (idt + 8 * n) = gateAt mem (idt + 8 * n) :=
  gateAt_congr fun x _ _ => handlerInit_outside (by omega)

theorem gateAt_setupTss (hn : n < 256) :
    gateAt (setupTss sym mem) (idt + 8 * n) = gateAt mem (idt + 8 * n) := by
  refine gateAt_congr fun x _ hhigh => setupTss_outside (.inl ?_)
  unfold idt at hhigh
  unfold tss
  omega

/-- The gates when the kernel runs. -/
def idtEntry (sym : Symbols) (n : Nat) : Gate :=
  if n < 32 then ⟨0, trapTssBase + 8 * n, taskAccess n ||| 0x80⟩
  else if n = 32 then ⟨sym.handlerIT32, kernelCs, 0x8e⟩
  else if n = 33 then ⟨sym.handlerIT33, kernelCs, 0x8e⟩
  else if n = 49 then ⟨sym.handlerIT49, kernelCs, 0xee⟩
  else ⟨0, 0, 0⟩

theorem gateAt_descriptorTables (hn : n < 256) :
    gateAt (descriptorTables sym mem) (idt + 8 * n) = idtEntry sym n := by
  have hwords := sym.handlers_word
  unfold descriptorTables handlersInit
  by_cases h49 : n = 49
  · subst h49
    exact gateAt_handlerInit hwords.2.2
  rw [gateAt_handlerInit_ne h49]
  by_cases h33 : n = 33
  · subst h33
    exact gateAt_handlerInit hwords.2.1
  rw [gateAt_handlerInit_ne h33]
  by_cases h32 : n = 32
  · subst h32
    exact gateAt_handlerInit hwords.1
  rw [gateAt_handlerInit_ne h32, gateAt_setupTss hn, gateAt_setupIdt hn]
  unfold idtEntry
  rw [if_neg h32, if_neg h33, if_neg h49]

theorem idtEntry_fromUser (sym : Symbols) (n : Nat) :
    (idtEntry sym n).FromUser ↔ n = 3 ∨ n = 49 := by
  unfold idtEntry
  split_ifs with hsmall h32 h33 h49
  · by_cases h3 : n = 3
    · subst h3
      exact iff_of_true (by decide) (.inl rfl)
    · refine iff_of_false ?_ (by omega)
      have haccess : taskAccess n = 0x05 := by
        unfold taskAccess
        rw [if_neg h3]
      rw [haccess]
      change ¬(Nat.testBit (0x05 ||| 0x80) 7 = true ∧ 3 ≤ (0x05 ||| 0x80) / 2 ^ 5 % 2 ^ 2)
      decide
  · refine iff_of_false ?_ (by omega)
    change ¬(Nat.testBit 0x8e 7 = true ∧ 3 ≤ 0x8e / 2 ^ 5 % 2 ^ 2)
    decide
  · refine iff_of_false ?_ (by omega)
    change ¬(Nat.testBit 0x8e 7 = true ∧ 3 ≤ 0x8e / 2 ^ 5 % 2 ^ 2)
    decide
  · refine iff_of_true ?_ (.inr h49)
    change Nat.testBit 0xee 7 = true ∧ 3 ≤ 0xee / 2 ^ 5 % 2 ^ 2
    decide
  · refine iff_of_false (by decide) ?_
    rintro (rfl | rfl)
    · omega
    · exact h49 rfl

/-! ## The segments -/

theorem descriptorAt_fillDescriptor_ne {i j : Nat} (hne : i ≠ j) :
    descriptorAt (fillDescriptor mem (gdt + 8 * j) base limit access sizebits) (gdt + 8 * i) =
      descriptorAt mem (gdt + 8 * i) :=
  descriptorAt_congr fun x _ _ => setEntry_outside (by omega)

/-- The segments when the kernel runs. -/
def gdtEntry (sym : Symbols) (i : Nat) : Descriptor :=
  if 10 ≤ i ∧ i < 42 then ⟨sym.trapTss + 104 * (i - 10), 103, 0x89, 0⟩
  else if i = 1 then ⟨tss, 103, 0x89, 0⟩
  else if i = 2 then ⟨0, 0xfffff, 0x9a, 0xc⟩
  else if i = 3 then ⟨0, 0xfffff, 0x92, 0xc⟩
  else if i = 8 then ⟨0, 0xfffff, 0xfa, 0xc⟩
  else if i = 9 then ⟨0, 0xfffff, 0xf2, 0xc⟩
  else ⟨0, 0, 0, 0⟩

/-- The segments in front of the loop of `setup_gdt`. -/
private theorem descriptorAt_segments (hi : i < 8192) :
    descriptorAt (fillDescriptor (fillDescriptor (fillDescriptor (fillDescriptor
      (fillDescriptor (memset mem gdt (8 * 8192)) (gdt + 8 * (baseTss / 8)) tss (104 - 1)
        (0x00 ||| 0x09 ||| 0x80) 0) (gdt + 8 * (kernelCs / 8)) 0 0xffffffff (0x00 ||| 0x1a) 0x4)
      (gdt + 8 * (kernelDs / 8)) 0 0xffffffff (0x00 ||| 0x12) 0x4) (gdt + 8 * (userCs / 8)) 0
      0xffffffff (0x60 ||| 0x1a) 0x4) (gdt + 8 * (userDs / 8)) 0 0xffffffff (0x60 ||| 0x12) 0x4)
        (gdt + 8 * i) =
      if i = 1 then ⟨tss, 103, 0x89, 0⟩
      else if i = 2 then ⟨0, 0xfffff, 0x9a, 0xc⟩
      else if i = 3 then ⟨0, 0xfffff, 0x92, 0xc⟩
      else if i = 8 then ⟨0, 0xfffff, 0xfa, 0xc⟩
      else if i = 9 then ⟨0, 0xfffff, 0xf2, 0xc⟩
      else ⟨0, 0, 0, 0⟩ := by
  by_cases h9 : i = userDs / 8
  · subst h9
    exact descriptorAt_fillDescriptor _ _ _ _ (by decide) (by decide)
  rw [descriptorAt_fillDescriptor_ne h9]
  by_cases h8 : i = userCs / 8
  · subst h8
    exact descriptorAt_fillDescriptor _ _ _ _ (by decide) (by decide)
  rw [descriptorAt_fillDescriptor_ne h8]
  by_cases h3 : i = kernelDs / 8
  · subst h3
    exact descriptorAt_fillDescriptor _ _ _ _ (by decide) (by decide)
  rw [descriptorAt_fillDescriptor_ne h3]
  by_cases h2 : i = kernelCs / 8
  · subst h2
    exact descriptorAt_fillDescriptor _ _ _ _ (by decide) (by decide)
  rw [descriptorAt_fillDescriptor_ne h2]
  by_cases h1 : i = baseTss / 8
  · subst h1
    exact descriptorAt_fillDescriptor _ _ _ _ (by decide) (by decide)
  rw [descriptorAt_fillDescriptor_ne h1, if_neg (c := i = 1) h1, if_neg (c := i = 2) h2,
    if_neg (c := i = 3) h3, if_neg (c := i = 8) h8, if_neg (c := i = 9) h9]
  unfold descriptorAt
  rw [getLong_memset (by omega) (by omega), getLong_memset (by omega) (by omega)]
  rfl

theorem descriptorAt_setupGdt (mem : Bytes) (hi : i < 8192) :
    descriptorAt (setupGdt sym mem) (gdt + 8 * i) = gdtEntry sym i := by
  have htable := sym.trapTss_kernel
  have hturns : ∀ k, k < 0 + handlerEntries → k < 32 := fun k hk => by
    simpa [handlerEntries] using hk
  have hbase : trapTssBase / 8 = 10 := rfl
  unfold setupGdt gdtEntry
  by_cases htask : 10 ≤ i ∧ i < 42
  · rw [if_pos htask]
    refine forLoop_sets (P := fun mem' => descriptorAt mem' (gdt + 8 * i) = _) (j := i - 10)
      (Nat.zero_le _) (by rw [handlerEntries]; omega) (fun mem' => ?_)
      fun k mem' _ hne hmem' => ?_
    · have hindex : i - 10 + trapTssBase / 8 = i := by omega
      rw [hindex, descriptorAt_fillDescriptor _ _ _ _ (by omega) (by decide)]
      rfl
    · exact (descriptorAt_fillDescriptor_ne (by omega)).trans hmem'
  · rw [if_neg htask]
    refine forLoop_keeps (P := fun mem' => descriptorAt mem' (gdt + 8 * i) = _) ?_
      fun k mem' _ hk hmem' => ?_
    · exact descriptorAt_segments hi
    · have hk32 := hturns k hk
      exact (descriptorAt_fillDescriptor_ne (by omega)).trans hmem'

theorem handlersInit_outside (hx : x < idt ∨ idt + 8 * 256 ≤ x) :
    handlersInit sym mem x = mem x := by
  have hentry : ∀ n < 256, x < idt + 8 * n ∨ idt + 8 * n + 8 ≤ x := fun n hn => by omega
  unfold handlersInit
  rw [handlerInit_outside (hentry 49 (by decide)), handlerInit_outside (hentry 33 (by decide)),
    handlerInit_outside (hentry 32 (by decide))]

theorem descriptorAt_descriptorTables (hi : i < 8192) :
    descriptorAt (descriptorTables sym mem) (gdt + 8 * i) = gdtEntry sym i := by
  have htable := sym.trapTss_kernel
  rw [← descriptorAt_setupGdt mem hi]
  refine descriptorAt_congr fun x hlow hhigh => ?_
  unfold gdt at hlow hhigh
  unfold descriptorTables
  rw [handlersInit_outside (by unfold idt; omega), setupTss_outside (by unfold tss; omega),
    setupIdt_outside (by unfold idt; omega) (by omega)]

/-! ## The tasks of the exceptions -/

/-- The task state from which the handler of exception `n` starts. -/
structure TrapTask (sym : Symbols) (mem : Bytes) (n : Nat) : Prop where
  eip : getLong mem (sym.trapTss + 104 * n + 32) = sym.exceptionHandlerTasks n
  cs : getLong mem (sym.trapTss + 104 * n + 76) = kernelCs
  ss : getLong mem (sym.trapTss + 104 * n + 80) = kernelDs
  ds : getLong mem (sym.trapTss + 104 * n + 84) = kernelDs
  es : getLong mem (sym.trapTss + 104 * n + 72) = kernelDs
  eflags : getLong mem (sym.trapTss + 104 * n + 36) = 2
  esp : getLong mem (sym.trapTss + 104 * n + 56) = sym.trapStack + 16384
  cr3 : getLong mem (sym.trapTss + 104 * n + 28) = pgdir

theorem TrapTask.congr (h : TrapTask sym mem n) (hmem : ∀ x, sym.trapTss + 104 * n ≤ x →
    x < sym.trapTss + 104 * n + 104 → mem' x = mem x) : TrapTask sym mem' n where
  eip := (getLong_congr fun b hb => hmem _ (by omega) (by omega)).trans h.eip
  cs := (getLong_congr fun b hb => hmem _ (by omega) (by omega)).trans h.cs
  ss := (getLong_congr fun b hb => hmem _ (by omega) (by omega)).trans h.ss
  ds := (getLong_congr fun b hb => hmem _ (by omega) (by omega)).trans h.ds
  es := (getLong_congr fun b hb => hmem _ (by omega) (by omega)).trans h.es
  eflags := (getLong_congr fun b hb => hmem _ (by omega) (by omega)).trans h.eflags
  esp := (getLong_congr fun b hb => hmem _ (by omega) (by omega)).trans h.esp
  cr3 := (getLong_congr fun b hb => hmem _ (by omega) (by omega)).trans h.cr3

theorem getLong_setShort_of_disjoint {v : Nat} (h : x + 4 ≤ a ∨ a + 2 ≤ x) :
    getLong (setShort mem a v) x = getLong mem x :=
  getLong_congr fun b hb => setShort_outside (by omega)

theorem fillTrapTss_task (hn : n < 32) (mem : Bytes) : TrapTask sym (fillTrapTss sym n mem) n := by
  have htask := sym.tasks_word n hn
  have hstack := sym.trapStack_kernel
  have hkernelCs : kernelCs < 2 ^ 32 := by decide
  have hkernelDs : kernelDs < 2 ^ 32 := by decide
  unfold fillTrapTss
  constructor
  · simp (disch := omega) only [getLong_setLong_of_disjoint, getLong_setShort_of_disjoint]
    exact getLong_setLong _ _ htask
  · simp (disch := omega) only [getLong_setLong_of_disjoint, getLong_setShort_of_disjoint]
    exact getLong_setLong _ _ hkernelCs
  · simp (disch := omega) only [getLong_setLong_of_disjoint, getLong_setShort_of_disjoint]
    exact getLong_setLong _ _ hkernelDs
  · simp (disch := omega) only [getLong_setLong_of_disjoint, getLong_setShort_of_disjoint]
    exact getLong_setLong _ _ hkernelDs
  · simp (disch := omega) only [getLong_setLong_of_disjoint, getLong_setShort_of_disjoint]
    exact getLong_setLong _ _ hkernelDs
  · simp (disch := omega) only [getLong_setLong_of_disjoint, getLong_setShort_of_disjoint]
    exact getLong_setLong _ _ (by decide)
  · simp (disch := omega) only [getLong_setLong_of_disjoint, getLong_setShort_of_disjoint]
    rw [getLong_setLong _ _ (getLong_lt _ _)]
    exact getLong_setLong _ _ (by omega)
  · exact getLong_setLong _ _ (by decide)

theorem setupIdt_task (mem : Bytes) (hn : n < 32) : TrapTask sym (setupIdt sym mem) n := by
  have htable := sym.trapTss_kernel
  unfold setupIdt
  refine forLoop_sets (P := fun mem' => TrapTask sym mem' n) (Nat.zero_le n)
    (by simpa [handlerEntries] using hn) (fun mem' => ?_) fun k mem' hk hne hmem' => ?_
  · refine (fillTrapTss_task hn mem').congr fun x hlow _ => setEntry_outside ?_
    unfold idt
    omega
  · have hk32 : k < 32 := by simpa [handlerEntries] using hk
    refine hmem'.congr fun x hlow hhigh => ?_
    rw [fillGate, setEntry_outside (by unfold idt; omega), fillTrapTss_outside (by omega)]

theorem descriptorTables_task (hn : n < 32) : TrapTask sym (descriptorTables sym mem) n := by
  have htable := sym.trapTss_kernel
  refine (setupIdt_task (setupGdt sym mem) hn).congr fun x hlow _ => ?_
  unfold descriptorTables
  rw [handlersInit_outside (by unfold idt; omega), setupTss_outside (by unfold tss; omega)]

/-! ## The tables as a whole -/

/-- Bases and limits survive the format, up to the end of the page of a coarse limit, and the
segment is present whatever its access byte says. -/
theorem descriptor_reads_back (mem : Bytes) (entry base limit access sizebits : Nat)
    (hbase : base < 2 ^ 32) (hlimit : limit < 2 ^ 32) (hsize : sizebits < 8) :
    ∃ d, descriptorAt (fillDescriptor mem entry base limit access sizebits) entry = d ∧
      d.base = base ∧ d.last = (if limit < 2 ^ 20 then limit else limit / 2 ^ 12 * 2 ^ 12 + 4095) ∧
        limit ≤ d.last ∧ d.present = true ∧ d.dpl = access / 2 ^ 5 % 2 ^ 2 ∧
          d.size % 8 = sizebits := by
  have hread := descriptorAt_fillDescriptor mem entry access sizebits hbase hlimit
  have hpresent : ((access ||| 0x80) % 2 ^ 8).testBit 7 = true := by
    have hbit : Nat.testBit 0x80 7 = true := by decide
    rw [Nat.testBit_mod_two_pow, Nat.testBit_or, hbit, Bool.or_true]
    rfl
  have hdpl : (access ||| 0x80) % 2 ^ 8 / 2 ^ 5 % 2 ^ 2 = access / 2 ^ 5 % 2 ^ 2 := by
    have hrights : (access ||| 0x80) / 2 ^ 5 = access / 2 ^ 5 ||| 0x80 / 2 ^ 5 :=
      Nat.or_div_two_pow
    have hmod : (access / 2 ^ 5 ||| 2 ^ 2) % 2 ^ 2 = access / 2 ^ 5 % 2 ^ 2 ||| 2 ^ 2 % 2 ^ 2 :=
      Nat.or_mod_two_pow
    rw [Nat.mod_self, Nat.or_zero] at hmod
    have hpart : (access ||| 0x80) % 2 ^ 8 / 2 ^ 5 % 2 ^ 2 = (access ||| 0x80) / 2 ^ 5 % 2 ^ 2 := by
      omega
    rw [hpart, hrights]
    exact hmod
  have hfine : ∀ s < 8, (s % 2 ^ 4).testBit 3 = false ∧ s % 2 ^ 4 % 8 = s := by decide
  have hcoarse : ∀ s < 8, ((s ||| 0x8) % 2 ^ 4).testBit 3 = true ∧ (s ||| 0x8) % 2 ^ 4 % 8 = s := by
    decide
  refine ⟨_, hread, rfl, ?_⟩
  unfold Descriptor.last
  by_cases hlarge : 0xfffff < limit
  · simp only [hlarge, if_true, (hcoarse sizebits hsize).1]
    rw [if_neg (c := limit < 2 ^ 20) (by omega)]
    exact ⟨by omega, by omega, hpresent, hdpl, (hcoarse sizebits hsize).2⟩
  · simp only [hlarge, if_false, (hfine sizebits hsize).1]
    rw [if_pos (c := limit < 2 ^ 20) (by omega)]
    exact ⟨rfl, Nat.le_refl limit, hpresent, hdpl, (hfine sizebits hsize).2⟩

theorem descriptor_reads_back_stack : ∃ d,
    descriptorAt (fillDescriptor (fun _ => 0) gdt 0x101234 0x12345678 0x92 0x4) gdt = d ∧
      d.base = 0x101234 ∧ d.last = 0x12345fff := by
  obtain ⟨d, hread, hbase, hlast, -⟩ := descriptor_reads_back (fun _ => 0) gdt 0x101234
    0x12345678 0x92 0x4 (by decide) (by decide) (by decide)
  exact ⟨d, hread, hbase, hlast⟩

theorem gdtEntry_user (sym : Symbols) (i : Nat) :
    ((gdtEntry sym i).present = true ∧ (gdtEntry sym i).dpl = 3) ↔
      i = userCs / 8 ∨ i = userDs / 8 := by
  have hindices : userCs / 8 = 8 ∧ userDs / 8 = 9 := by decide
  rw [hindices.1, hindices.2]
  unfold gdtEntry
  split_ifs with htask h1 h2 h3 h8 h9
  · refine iff_of_false ?_ (by omega)
    change ¬(Nat.testBit 0x89 7 = true ∧ 0x89 / 2 ^ 5 % 2 ^ 2 = 3)
    decide
  · exact iff_of_false (by decide) (by omega)
  · exact iff_of_false (by decide) (by omega)
  · exact iff_of_false (by decide) (by omega)
  · exact iff_of_true (by decide) (.inl h8)
  · exact iff_of_true (by decide) (.inr h9)
  · exact iff_of_false (by decide) (by omega)

/-- What a program at privilege level 3 gets at: of the interrupts it may raise 3 and 49, of the
segments it may load its own two; 49 leads to its handler in the segment of the kernel, as does
every present gate that is not one of an exception, and that segment spans all addresses. -/
theorem user_entries (sym : Symbols) (mem : Bytes) :
    (∀ n < 256, (gateAt (descriptorTables sym mem) (idt + 8 * n)).FromUser ↔ n = 3 ∨ n = 49) ∧
      (∀ i < 8192, ((descriptorAt (descriptorTables sym mem) (gdt + 8 * i)).present = true ∧
        (descriptorAt (descriptorTables sym mem) (gdt + 8 * i)).dpl = 3) ↔
          i = userCs / 8 ∨ i = userDs / 8) ∧
        (gateAt (descriptorTables sym mem) (idt + 8 * 49)).offset = sym.handlerIT49 ∧
          (∀ n < 256, 32 ≤ n → (gateAt (descriptorTables sym mem) (idt + 8 * n)).present = true →
            (gateAt (descriptorTables sym mem) (idt + 8 * n)).selector = kernelCs) ∧
            descriptorAt (descriptorTables sym mem) (gdt + 8 * (kernelCs / 8)) =
              ⟨0, 0xfffff, 0x9a, 0xc⟩ := by
  refine ⟨fun n hn => ?_, fun i hi => ?_, ?_, fun n hn hlarge hpresent => ?_, ?_⟩
  · rw [gateAt_descriptorTables hn]
    exact idtEntry_fromUser sym n
  · rw [descriptorAt_descriptorTables hi]
    exact gdtEntry_user sym i
  · rw [gateAt_descriptorTables (by decide)]
    rfl
  · rw [gateAt_descriptorTables hn] at hpresent ⊢
    unfold idtEntry at hpresent ⊢
    split_ifs at hpresent ⊢ with hsmall h32 h33 h49
    · omega
    · rfl
    · rfl
    · rfl
    · cases hpresent
  · rw [descriptorAt_descriptorTables (by decide)]
    rfl

/-- Every exception switches, through its own gate and its own task segment, to its own handler
in the kernel, with the page tables of the kernel. -/
theorem exceptions_lead_to_tasks (sym : Symbols) (mem : Bytes) (hn : n < 32) :
    ∃ gate task, gateAt (descriptorTables sym mem) (idt + 8 * n) = gate ∧
      descriptorAt (descriptorTables sym mem) (gdt + 8 * (gate.selector / 8)) = task ∧
        gate.present = true ∧ gate.access % 2 ^ 5 = 0x05 ∧ task.present = true ∧
          task.access % 2 ^ 5 = 0x09 ∧ task.dpl = 0 ∧ task.last + 1 = 104 ∧
            task.base = sym.trapTss + 104 * n ∧ TrapTask sym (descriptorTables sym mem) n := by
  have hgate : idtEntry sym n = ⟨0, trapTssBase + 8 * n, taskAccess n ||| 0x80⟩ := if_pos hn
  have hindex : (trapTssBase + 8 * n) / 8 = n + 10 := by
    unfold trapTssBase
    omega
  have htask : gdtEntry sym (n + 10) = ⟨sym.trapTss + 104 * n, 103, 0x89, 0⟩ := by
    unfold gdtEntry
    rw [if_pos (by omega), Nat.add_sub_cancel]
  have haccess : ∀ n < 32, (taskAccess n ||| 0x80).testBit 7 = true ∧
      (taskAccess n ||| 0x80) % 2 ^ 5 = 0x05 := by decide
  refine ⟨idtEntry sym n, gdtEntry sym (n + 10), gateAt_descriptorTables (by omega), ?_, ?_, ?_,
    ?_⟩
  · rw [hgate]
    dsimp only
    rw [hindex]
    exact descriptorAt_descriptorTables (by omega)
  · rw [hgate]
    exact (haccess n hn).1
  · rw [hgate]
    exact (haccess n hn).2
  · rw [htask]
    have hpresent : Nat.testBit 0x89 7 = true := by decide
    exact ⟨hpresent, by simp, by simp [Descriptor.dpl], by simp [Descriptor.last], rfl,
      descriptorTables_task hn⟩

def smallSymbols : Symbols where
  firstStack := 0x200000
  trapTss := 0x300000
  trapStack := 0x400000
  exceptionHandlerTasks i := 0x100100 + 16 * i
  handlerIT32 := 0x100020
  handlerIT33 := 0x100040
  handlerIT49 := 0x100060
  trapTss_kernel := by decide
  trapStack_kernel := by decide
  tasks_word i hi := by omega
  handlers_word := by decide

/-- The page fault. -/
theorem exceptions_lead_to_tasks_page_fault :
    ∃ task, descriptorAt (descriptorTables smallSymbols fun _ => 0) (gdt + 8 * 24) = task ∧
      getLong (descriptorTables smallSymbols fun _ => 0) (task.base + 32) = 0x1001e0 := by
  obtain ⟨gate, task, hgate, htask, -, -, -, -, -, -, hbase, hstate⟩ :=
    exceptions_lead_to_tasks smallSymbols (fun _ => 0) (n := 14) (by decide)
  rw [gateAt_descriptorTables (by decide)] at hgate
  subst hgate
  refine ⟨task, htask, ?_⟩
  rw [hbase]
  exact hstate.eip

end SchlagOS.Boot
