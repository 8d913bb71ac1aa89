import SchlagOS.Foundation.Paging

/-!
# A processor with a stack

The registers of a 32-bit processor, and the instructions that move words
between them and a stack that grows downwards.  Runs of pushes and of pops are
described by what they leave in each register and each cell.
-/

namespace SchlagOS.Foundation

inductive Register where
  | eax
  | ebx
  | ecx
  | edx
  | esi
  | edi
  | ebp
  | esp
  | eip
  | eflags
  | cs
  | ss
  | ds
  | es
  | fs
  | gs
  deriving DecidableEq, Repr

structure Cpu where
  reg : Register → Nat
  memory : Bytes

inductive Instruction where
  | movl (value : Nat) (r : Register)
  | movw (value : Nat)
  | movSegment (r : Register)
  | loadl (offset : Nat) (r : Register)
  | pushl (r : Register)
  | popl (r : Register)
  | addEsp (value : Nat)
  deriving DecidableEq, Repr

namespace Cpu

variable {c c' : Cpu} {r r' : Register} {v x : Nat}

def set (c : Cpu) (r : Register) (v : Nat) : Cpu :=
  { c with reg := Function.update c.reg r v }

@[simp] theorem set_reg (c : Cpu) (r r' : Register) (v : Nat) :
    (c.set r v).reg r' = if r' = r then v else c.reg r' := Function.update_apply c.reg r v r'

@[simp] theorem set_memory (c : Cpu) (r : Register) (v : Nat) :
    (c.set r v).memory = c.memory := rfl

def push (c : Cpu) (v : Nat) : Cpu :=
  let esp := (c.reg .esp + (2 ^ 32 - 4)) % 2 ^ 32
  { c.set .esp esp with memory := setLong c.memory esp v }

def pop (c : Cpu) (r : Register) : Cpu :=
  (c.set .esp ((c.reg .esp + 4) % 2 ^ 32)).set r (getLong c.memory (c.reg .esp))

/-- `movw` and the moves to the segment registers go through `%ax`. -/
def run (c : Cpu) : Instruction → Cpu
  | .movl value r => c.set r value
  | .movw value => c.set .eax (c.reg .eax / 2 ^ 16 * 2 ^ 16 + value)
  | .movSegment r => c.set r (c.reg .eax % 2 ^ 16)
  | .loadl offset r => c.set r (getLong c.memory ((c.reg .esp + offset) % 2 ^ 32))
  | .pushl r => c.push (c.reg r)
  | .popl r => c.pop r
  | .addEsp value => c.set .esp ((c.reg .esp + value) % 2 ^ 32)

def execute (c : Cpu) (code : List Instruction) : Cpu := code.foldl run c

@[simp] theorem execute_nil (c : Cpu) : c.execute [] = c := rfl

@[simp] theorem execute_cons (c : Cpu) (i : Instruction) (code : List Instruction) :
    c.execute (i :: code) = (c.run i).execute code := rfl

theorem execute_append (c : Cpu) (code code' : List Instruction) :
    c.execute (code ++ code') = (c.execute code).execute code' := List.foldl_append

/-! ## Pushing -/

theorem push_reg (hlow : 4 ≤ c.reg .esp) (hword : c.reg .esp < 2 ^ 32) (v : Nat) (r : Register) :
    (c.push v).reg r = if r = .esp then c.reg .esp - 4 else c.reg r := by
  have hesp : (c.reg .esp + (2 ^ 32 - 4)) % 2 ^ 32 = c.reg .esp - 4 := by omega
  unfold push
  rw [hesp]
  exact set_reg c .esp r (c.reg .esp - 4)

theorem push_memory (hlow : 4 ≤ c.reg .esp) (hword : c.reg .esp < 2 ^ 32) (v : Nat) :
    (c.push v).memory = setLong c.memory (c.reg .esp - 4) v := by
  have hesp : (c.reg .esp + (2 ^ 32 - 4)) % 2 ^ 32 = c.reg .esp - 4 := by omega
  unfold push
  rw [hesp]

def pushAll (c : Cpu) (vs : List Nat) : Cpu := vs.foldl push c

/-- The words lie below the old top of the stack, the first one on top of the others. -/
structure Pushed (c : Cpu) (vs : List Nat) (c' : Cpu) : Prop where
  esp : c'.reg .esp = c.reg .esp - 4 * vs.length
  others : ∀ r, r ≠ .esp → c'.reg r = c.reg r
  cells : ∀ i v, vs[i]? = some v → getLong c'.memory (c.reg .esp - 4 * (i + 1)) = v
  outside : ∀ x, x < c.reg .esp - 4 * vs.length ∨ c.reg .esp ≤ x → c'.memory x = c.memory x

theorem pushAll_pushed {vs : List Nat} (hlow : 4 * vs.length ≤ c.reg .esp)
    (hword : c.reg .esp < 2 ^ 32) (hvs : ∀ v ∈ vs, v < 2 ^ 32) : Pushed c vs (c.pushAll vs) := by
  induction vs generalizing c with
  | nil => exact ⟨by simp [pushAll], fun _ _ => rfl, by simp, fun _ _ => rfl⟩
  | cons v vs ih =>
      rw [List.length_cons] at hlow
      have hreg := push_reg (c := c) (by omega) hword v
      have hmemory := push_memory (c := c) (by omega) hword v
      have hesp : (c.push v).reg .esp = c.reg .esp - 4 := by rw [hreg, if_pos rfl]
      have hrest := ih (c := c.push v) (by omega) (by omega)
        fun w hw => hvs w (List.mem_cons_of_mem v hw)
      refine ⟨?_, fun r hr => ?_, fun i w hi => ?_, fun x hx => ?_⟩
      · rw [pushAll, List.foldl_cons]
        have hrestEsp := hrest.esp
        rw [hesp] at hrestEsp
        rw [List.length_cons]
        exact hrestEsp.trans (by omega)
      · exact (hrest.others r hr).trans ((hreg r).trans (if_neg hr))
      · cases i with
        | zero =>
            have houtside : getLong ((c.push v).pushAll vs).memory (c.reg .esp - 4) =
                getLong (c.push v).memory (c.reg .esp - 4) :=
              getLong_congr fun b hb => hrest.outside _ (by omega)
            obtain rfl := Option.some.inj hi
            refine houtside.trans ?_
            rw [hmemory]
            exact getLong_setLong _ _ (hvs v List.mem_cons_self)
        | succ i =>
            have hcell := hrest.cells i w hi
            rw [hesp] at hcell
            have haddress : c.reg .esp - 4 * (i + 1 + 1) = c.reg .esp - 4 - 4 * (i + 1) := by omega
            rw [haddress]
            exact hcell
      · rw [List.length_cons] at hx
        refine (hrest.outside x (by omega)).trans ?_
        rw [hmemory]
        exact setLong_of_outside (by omega)

/-- The words from the new top of the stack on. -/
theorem Pushed.top {vs : List Nat} (h : Pushed c vs c') (hlow : 4 * vs.length ≤ c.reg .esp)
    (i v : Nat) (hi : vs.reverse[i]? = some v) : getLong c'.memory (c'.reg .esp + 4 * i) = v := by
  have hlength : i < vs.length := by
    have hbound := (List.getElem?_eq_some_iff.mp hi).1
    rwa [List.length_reverse] at hbound
  rw [List.getElem?_reverse hlength] at hi
  have hcell := h.cells _ v hi
  have haddress : c'.reg .esp + 4 * i = c.reg .esp - 4 * (vs.length - 1 - i + 1) := by
    rw [h.esp]
    omega
  rw [haddress]
  exact hcell

theorem push_reg_of_ne (c : Cpu) (v : Nat) {r : Register} (hr : r ≠ .esp) :
    (c.push v).reg r = c.reg r := Function.update_of_ne hr _ _

theorem execute_pushl {rs : List Register} (hesp : Register.esp ∉ rs) (c : Cpu) :
    c.execute (rs.map .pushl) = c.pushAll (rs.map c.reg) := by
  induction rs generalizing c with
  | nil => rfl
  | cons r rs ih =>
      have hsame : rs.map (c.push (c.reg r)).reg = rs.map c.reg :=
        List.map_congr_left fun r' hr' =>
          push_reg_of_ne c _ fun heq => hesp (List.mem_cons_of_mem r (heq ▸ hr'))
      rw [List.map_cons, execute_cons]
      refine (ih (fun hmem => hesp (List.mem_cons_of_mem r hmem)) (c.push (c.reg r))).trans ?_
      rw [hsame]
      rfl

/-! ## Popping -/

theorem pop_reg (c : Cpu) (r q : Register) : (c.pop r).reg q =
    if q = r then getLong c.memory (c.reg .esp)
    else if q = .esp then (c.reg .esp + 4) % 2 ^ 32 else c.reg q := by
  rw [pop, set_reg, set_reg]

theorem pop_memory (c : Cpu) (r : Register) : (c.pop r).memory = c.memory := by
  rw [pop, set_memory, set_memory]

def popAll (c : Cpu) (rs : List Register) : Cpu := rs.foldl pop c

theorem execute_popl (rs : List Register) (c : Cpu) : c.execute (rs.map .popl) = c.popAll rs :=
  List.foldl_map

/-- The registers are filled from the top of the stack on. -/
structure Popped (c : Cpu) (rs : List Register) (c' : Cpu) : Prop where
  esp : c'.reg .esp = c.reg .esp + 4 * rs.length
  others : ∀ r, r ≠ .esp → r ∉ rs → c'.reg r = c.reg r
  cells : ∀ i r, rs[i]? = some r → c'.reg r = getLong c.memory (c.reg .esp + 4 * i)
  memory : c'.memory = c.memory

theorem popAll_popped {rs : List Register} (hesp : Register.esp ∉ rs) (hnodup : rs.Nodup)
    (hfits : c.reg .esp + 4 * rs.length < 2 ^ 32) : Popped c rs (c.popAll rs) := by
  induction rs generalizing c with
  | nil => exact ⟨rfl, fun _ _ _ => rfl, by simp, rfl⟩
  | cons r rs ih =>
      rw [List.length_cons] at hfits
      obtain ⟨hr, hnodup⟩ := List.nodup_cons.mp hnodup
      have hne : Register.esp ≠ r := fun heq => hesp (heq ▸ List.mem_cons_self)
      have htop : (c.pop r).reg .esp = c.reg .esp + 4 := by
        rw [pop_reg, if_neg hne, if_pos rfl]
        omega
      have hvalue : (c.pop r).reg r = getLong c.memory (c.reg .esp) := by
        rw [pop_reg, if_pos rfl]
      have hrest := ih (c := c.pop r) (fun hmem => hesp (List.mem_cons_of_mem r hmem)) hnodup
        (by omega)
      refine ⟨?_, fun q hq hmem => ?_, fun i q hi => ?_, hrest.memory⟩
      · rw [List.length_cons]
        refine hrest.esp.trans ?_
        rw [htop]
        omega
      · rw [List.mem_cons, not_or] at hmem
        refine (hrest.others q hq hmem.2).trans ?_
        rw [pop_reg, if_neg hmem.1, if_neg hq]
      · cases i with
        | zero =>
            obtain rfl := Option.some.inj hi
            exact (hrest.others r hne.symm hr).trans hvalue
        | succ i =>
            have hcell := hrest.cells i q hi
            have haddress : c.reg .esp + 4 * (i + 1) = c.reg .esp + 4 + 4 * i := by omega
            rw [haddress, ← htop]
            exact hcell

end Cpu

end SchlagOS.Foundation
