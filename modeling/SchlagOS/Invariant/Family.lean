import SchlagOS.Kernel.Process
import SchlagOS.Invariant.Ready

/-!
# Fathers and children

A process other than 1 is a child of 1 or stands in the list of its father, and
the lists of the processes other than 1 hold only their own children.  Nothing
is said about the list of process 1, into which `zombify` and `destroy` enter
other pids than those they adopt.
-/

namespace SchlagOS

open Foundation

structure Family (state : Int → ProcessState) (father : Int → Int)
    (childs : Int → List Int) : Prop where
  father_mem : ∀ p, state p ≠ .unset → p ≠ 1 →
    father p = 1 ∨ (state (father p) ≠ .unset ∧ p ∈ childs (father p))
  child : ∀ o c, o ≠ 1 → c ∈ childs o → state c ≠ .unset ∧ father c = o ∧ c ≠ 1
  nodup : ∀ o, o ≠ 1 → (childs o).Nodup
  proper : ∀ p, state p ≠ .unset → father p ≠ p
  root : father 1 = processNotFoundCode

namespace Family

variable {state state' : Int → ProcessState} {father : Int → Int}
  {childs childs' : Int → List Int} {o p c : Int}

theorem congr (h : Family state father childs)
    (hstate : ∀ p, state' p = .unset ↔ state p = .unset) :
    Family state' father childs where
  father_mem p hp hone := by
    rw [Ne, hstate] at hp
    rw [Ne, hstate]
    exact h.father_mem p hp hone
  child o c ho hc := by
    rw [Ne, hstate]
    exact h.child o c ho hc
  nodup := h.nodup
  proper p hp := h.proper p fun heq => hp ((hstate p).mpr heq)
  root := h.root

theorem move (h : Family state father childs) {b : ProcessState} (hp : state p ≠ .unset)
    (hb : b ≠ .unset) : Family (Function.update state p b) father childs :=
  h.congr (update_eq_iff hp hb)

theorem childs_unset (h : Family state father childs) (hp : state p = .unset)
    (hone : p ≠ 1) : childs p = [] := by
  rw [List.eq_nil_iff_forall_not_mem]
  intro c hc
  obtain ⟨hused, hfather, hc1⟩ := h.child p c hone hc
  rcases h.father_mem c hused hc1 with h1 | h2
  · exact hone (hfather.symm.trans h1)
  · exact h2.1 (hfather.symm ▸ hp)

/-- The rule of `start`. -/
theorem start (h : Family state father childs) {b : ProcessState} (hp : state p = .unset)
    (hone : p ≠ 1) (hb : b ≠ .unset) (ho : state o ≠ .unset) :
    Family (Function.update state p b) (Function.update father p o)
      (Function.update (Function.update childs p []) o (p :: childs o)) := by
  have hop : o ≠ p := fun heq => ho (heq ▸ hp)
  have hne : ∀ x, state x ≠ .unset → x ≠ p := fun x hx heq => hx (heq ▸ hp)
  have hlist : ∀ x, x ≠ o → Function.update (Function.update childs p []) o
      (p :: childs o) x = childs x := by
    intro x hx
    rw [Function.update_of_ne hx]
    by_cases hxp : x = p
    · rw [hxp, Function.update_self, h.childs_unset hp hone]
    · rw [Function.update_of_ne hxp]
  constructor
  · intro x hx hx1
    by_cases hxp : x = p
    · subst hxp
      right
      simp [ho, hop]
    · rw [Function.update_of_ne hxp] at hx ⊢
      rcases h.father_mem x hx hx1 with h1 | ⟨hused, hmem⟩
      · exact .inl h1
      · right
        rw [Function.update_of_ne (hne _ hused)]
        refine ⟨hused, ?_⟩
        by_cases hxo : father x = o
        · rw [hxo, Function.update_self]
          rw [hxo] at hmem
          exact List.mem_cons_of_mem _ hmem
        · rwa [hlist _ hxo]
  · intro x c hx hc
    have hold : c ∈ childs x → Function.update state p b c ≠ .unset ∧
        Function.update father p o c = x ∧ c ≠ 1 := by
      intro hc
      obtain ⟨hused, hfather, hc1⟩ := h.child x c hx hc
      rw [Function.update_of_ne (hne c hused), Function.update_of_ne (hne c hused)]
      exact ⟨hused, hfather, hc1⟩
    by_cases hxo : x = o
    · subst hxo
      rw [Function.update_self, List.mem_cons] at hc
      rcases hc with rfl | hc
      · simp [hb, hone]
      · exact hold hc
    · rw [hlist x hxo] at hc
      exact hold hc
  · intro x hx
    by_cases hxo : x = o
    · subst hxo
      rw [Function.update_self, List.nodup_cons]
      refine ⟨fun hmem => ?_, h.nodup x hx⟩
      exact (h.child x p hx hmem).1 hp
    · rw [hlist x hxo]
      exact h.nodup x hx
  · intro x hx
    by_cases hxp : x = p
    · rw [hxp, Function.update_self]
      exact hop
    · rw [Function.update_of_ne hxp] at hx ⊢
      exact h.proper x hx
  · rw [Function.update_of_ne (Ne.symm hone)]
    exact h.root

/-- The father field of a slot that is not in use does not matter. -/
theorem orphan (h : Family state father childs) (hp : state p = .unset) (hone : p ≠ 1)
    (o : Int) :
    Family state (Function.update father p o) childs := by
  have hne : ∀ x, state x ≠ .unset → x ≠ p := fun x hx heq => hx (heq ▸ hp)
  constructor
  · intro x hx hx1
    rw [Function.update_of_ne (hne x hx)]
    exact h.father_mem x hx hx1
  · intro x c hx hc
    obtain ⟨hused, hfather, hc1⟩ := h.child x c hx hc
    rw [Function.update_of_ne (hne c hused)]
    exact ⟨hused, hfather, hc1⟩
  · exact h.nodup
  · intro x hx
    rw [Function.update_of_ne (hne x hx)]
    exact h.proper x hx
  · rw [Function.update_of_ne (Ne.symm hone)]
    exact h.root

/-- The rule for a child that goes over to process 1. -/
theorem adopt (h : Family state father childs) (ho : o ≠ 1) (hc : c ∈ childs o)
    (hchilds : ∀ x, x ≠ 1 → x ≠ o → childs' x = childs x)
    (herase : childs' o = (childs o).erase c) :
    Family state (Function.update father c 1) childs' := by
  have hfather := (h.child o c ho hc).2.1
  have hkeep : ∀ x y, x ≠ 1 → y ≠ c → y ∈ childs x → y ∈ childs' x := by
    intro x y hx hy hmem
    by_cases hxo : x = o
    · subst hxo
      rw [herase]
      exact (List.mem_erase_of_ne hy).mpr hmem
    · rwa [hchilds x hx hxo]
  have hback : ∀ x y, x ≠ 1 → y ∈ childs' x → y ∈ childs x ∧ y ≠ c := by
    intro x y hx hmem
    by_cases hxo : x = o
    · subst hxo
      rw [herase, (h.nodup x hx).mem_erase_iff] at hmem
      exact ⟨hmem.2, hmem.1⟩
    · rw [hchilds x hx hxo] at hmem
      refine ⟨hmem, ?_⟩
      rintro rfl
      exact hxo ((h.child x y hx hmem).2.1.symm.trans hfather)
  constructor
  · intro x hx hx1
    by_cases hxc : x = c
    · left
      rw [hxc, Function.update_self]
    · rw [Function.update_of_ne hxc]
      rcases h.father_mem x hx hx1 with h1 | ⟨hused, hmem⟩
      · exact .inl h1
      · by_cases hone : father x = 1
        · exact .inl hone
        · exact .inr ⟨hused, hkeep _ _ hone hxc hmem⟩
  · intro x y hx hy
    obtain ⟨hmem, hne⟩ := hback x y hx hy
    rw [Function.update_of_ne hne]
    exact h.child x y hx hmem
  · intro x hx
    by_cases hxo : x = o
    · subst hxo
      rw [herase]
      exact (h.nodup x hx).erase c
    · rw [hchilds x hx hxo]
      exact h.nodup x hx
  · intro x hx
    by_cases hxc : x = c
    · rw [hxc, Function.update_self]
      exact Ne.symm (h.child o c ho hc).2.2
    · rw [Function.update_of_ne hxc]
      exact h.proper x hx
  · rw [Function.update_of_ne (Ne.symm (h.child o c ho hc).2.2)]
    exact h.root

/-- The rule of `destroy` on a process without children. -/
theorem reset (h : Family state father childs) (hused : state p ≠ .unset) (hone : p ≠ 1)
    (hnil : childs p = []) {value : Int}
    (hchilds : ∀ x, x ≠ 1 → x ≠ father p → childs' x = childs x)
    (herase : childs' (father p) = (childs (father p)).erase p) :
    Family (Function.update state p .unset) (Function.update father p value)
      childs' := by
  have hkeep : ∀ x y, x ≠ 1 → y ≠ p → y ∈ childs x → y ∈ childs' x := by
    intro x y hx hy hmem
    by_cases hxo : x = father p
    · rw [hxo, herase]
      rw [hxo] at hmem
      exact (List.mem_erase_of_ne hy).mpr hmem
    · rwa [hchilds x hx hxo]
  have hback : ∀ x y, x ≠ 1 → y ∈ childs' x → y ∈ childs x ∧ y ≠ p := by
    intro x y hx hmem
    by_cases hxo : x = father p
    · rw [hxo] at hx
      rw [hxo, herase, (h.nodup _ hx).mem_erase_iff] at hmem
      exact ⟨hxo ▸ hmem.2, hmem.1⟩
    · rw [hchilds x hx hxo] at hmem
      refine ⟨hmem, ?_⟩
      rintro rfl
      exact hxo (h.child x y hx hmem).2.1.symm
  constructor
  · intro x hx hx1
    by_cases hxp : x = p
    · rw [hxp] at hx
      simp at hx
    · rw [Function.update_of_ne hxp] at hx ⊢
      rcases h.father_mem x hx hx1 with h1 | ⟨hfather, hmem⟩
      · exact .inl h1
      · by_cases hf1 : father x = 1
        · exact .inl hf1
        · have hne : father x ≠ p := by
            intro heq
            rw [heq, hnil] at hmem
            simp at hmem
          rw [Function.update_of_ne hne]
          exact .inr ⟨hfather, hkeep _ _ hf1 hxp hmem⟩
  · intro x y hx hy
    obtain ⟨hmem, hne⟩ := hback x y hx hy
    rw [Function.update_of_ne hne, Function.update_of_ne hne]
    exact h.child x y hx hmem
  · intro x hx
    by_cases hxo : x = father p
    · rw [hxo] at hx ⊢
      rw [herase]
      exact (h.nodup _ hx).erase p
    · rw [hchilds x hx hxo]
      exact h.nodup x hx
  · intro x hx
    have hxp : x ≠ p := by
      rintro rfl
      simp at hx
    rw [Function.update_of_ne hxp] at hx ⊢
    exact h.proper x hx
  · rw [Function.update_of_ne (Ne.symm hone)]
    exact h.root

end Family

/-! ## Dead fathers -/

/-- The children that a dead process other than `except` still has are dead and
sealed. -/
def DeadClosed (childs : Int → List Int) (dead isSealed : Int → Bool)
    (except : Int → Prop) : Prop :=
  ∀ o c, o ≠ 1 → ¬except o → dead o = true → c ∈ childs o →
    dead c = true ∧ isSealed c = true

namespace DeadClosed

variable {state : Int → ProcessState} {father : Int → Int} {childs childs' : Int → List Int}
  {dead isSealed : Int → Bool} {except : Int → Prop} {o p c : Int}

theorem bury (h : DeadClosed childs dead isSealed fun _ => False) (p : Int) :
    DeadClosed childs (Function.update dead p true) isSealed fun x => x = p := by
  intro x c hx hxp hdead hc
  rw [Function.update_of_ne hxp] at hdead
  have hclosed := h x c hx (fun hfalse => hfalse) hdead hc
  refine ⟨?_, hclosed.2⟩
  by_cases hcp : c = p
  · rw [hcp, Function.update_self]
  · rw [Function.update_of_ne hcp]
    exact hclosed.1

theorem close (h : DeadClosed childs dead isSealed except) (c : Int) :
    DeadClosed childs dead (Function.update isSealed c true) except := by
  intro x y hx hex hdead hy
  have hclosed := h x y hx hex hdead hy
  refine ⟨hclosed.1, ?_⟩
  by_cases hyc : y = c
  · rw [hyc, Function.update_self]
  · rw [Function.update_of_ne hyc]
    exact hclosed.2

theorem adopt (h : DeadClosed childs dead isSealed except)
    (hchilds : ∀ x, x ≠ 1 → x ≠ o → childs' x = childs x)
    (herase : childs' o = (childs o).erase c) :
    DeadClosed childs' dead isSealed except := by
  intro x y hx hex hdead hy
  by_cases hxo : x = o
  · subst hxo
    rw [herase] at hy
    exact h x y hx hex hdead (List.mem_of_mem_erase hy)
  · rw [hchilds x hx hxo] at hy
    exact h x y hx hex hdead hy

theorem all (h : DeadClosed childs dead isSealed fun x => x = p)
    (hp : p ≠ 1 → ∀ c ∈ childs p, dead c = true ∧ isSealed c = true) :
    DeadClosed childs dead isSealed fun _ => False := by
  intro x c hx _ hdead hc
  by_cases hxp : x = p
  · subst hxp
    exact hp hx c hc
  · exact h x c hx hxp hdead hc

theorem reset (h : DeadClosed childs dead isSealed except)
    (hfamily : Family state father childs)
    (hchilds : ∀ x, x ≠ 1 → x ≠ father p → childs' x = childs x)
    (herase : childs' (father p) = (childs (father p)).erase p) :
    DeadClosed childs' (Function.update dead p false) (Function.update isSealed p false)
      except := by
  intro x c hx hex hdead hc
  have hxp : x ≠ p := by
    rintro rfl
    simp at hdead
  have hcx : c ∈ childs x ∧ c ≠ p := by
    by_cases hxf : x = father p
    · rw [hxf, herase, (hfamily.nodup _ (hxf ▸ hx)).mem_erase_iff] at hc
      exact ⟨hxf ▸ hc.2, hc.1⟩
    · rw [hchilds x hx hxf] at hc
      refine ⟨hc, ?_⟩
      rintro rfl
      exact hxf (hfamily.child x c hx hc).2.1.symm
  rw [Function.update_of_ne hxp] at hdead
  rw [Function.update_of_ne hcx.2, Function.update_of_ne hcx.2]
  exact h x c hx hex hdead hcx.1

/-- A new process, which has no children, enters the list of a living father. -/
theorem start (h : DeadClosed childs dead isSealed except) (hp : dead p = false)
    (ho : dead o = false) (c : Int) :
    DeadClosed (Function.update (Function.update childs p []) o (c :: childs o))
      (Function.update dead p false) isSealed except := by
  rw [← hp, Function.update_eq_self]
  intro x y hx hex hdead hy
  have hxo : x ≠ o := by
    rintro rfl
    rw [ho] at hdead
    exact absurd hdead (by decide)
  have hxp : x ≠ p := by
    rintro rfl
    rw [hp] at hdead
    exact absurd hdead (by decide)
  rw [Function.update_of_ne hxo, Function.update_of_ne hxp] at hy
  exact h x y hx hex hdead hy

end DeadClosed

end SchlagOS
