import SchlagOS.Invariant.Faults

/-!
# Memory protection

An access that the page tables do not permit is the end of the program that
makes it.  So the kernel, which goes through the pointers that user programs
pass, stays in the user area, and a user program by itself changes nothing else:
neither the kernel's memory nor the tables that keep it there.
-/

namespace SchlagOS

open Foundation Boot

variable {image : Image} {ok : Kernel → Step → Prop} {s : Kernel} {mem : Bytes}
  {access : UserAccess} {writes : List (Nat × List Nat)}

/-! ## The pointers along a run -/

theorem booted_guarding (image : Image) : Guarding image [] booted where
  control f hf := by simp [booted, powerOn] at hf
  context p f hf := by
    by_cases hp : p = 1
    · rw [hp] at hf
      rw [List.mem_singleton.mp hf]
      trivial
    · have hdata : booted.data p = noProcess := Function.update_of_ne hp _ _
      rw [hdata] at hf
      simp [noProcess] at hf
  waiting fid := by
    by_cases hfid : fid = 0
    · rw [hfid]
      exact NodeList.Every.empty
    · have hqueue : booted.queues fid = emptyMessageQueue := Function.update_of_ne hfid _ _
      rw [hqueue]
      exact NodeList.Every.empty
  accesses := trivial
  grown := List.nil_prefix

theorem Running.guarding (h : Running ok s) (image : Image) : Guarding image [] s := by
  obtain ⟨start, hboot, hreach⟩ := h
  rw [kernelStart_eq, Except.ok.injEq] at hboot
  subst hboot
  exact hreach.meets (booted_guarding image) fun s step hs _ _ => exec_guarding hs step

/-- The kernel may read and write the whole user area. -/
theorem translate_userArea {a : Int} (ha : InUserArea a) (write : Bool) :
    translate image.paged pgdir ⟨false, write⟩ (a % 2 ^ 32).toNat = some (a % 2 ^ 32).toNat := by
  unfold InUserArea at ha
  have hlow : 0x1000000 ≤ (a % 2 ^ 32).toNat := by omega
  rw [translate_eq_some, image.walk_paged (by omega), if_pos (by omega)]
  refine ⟨_, rfl, ⟨fun huser => absurd huser (by simp), fun _ => ?_⟩, rfl⟩
  simpa using image.writable_of_user hlow

theorem not_faults_of_inUserArea (h : access.inUserArea) : ¬access.Faults image.paged := by
  rintro ⟨i, hi, hnone⟩
  have hin : InUserArea (access.address + i) := by
    cases access with
    | readByte address =>
        obtain rfl : i = 0 := Nat.lt_one_iff.mp hi
        rwa [Int.natCast_zero, Int.add_zero]
    | writeByte address value =>
        obtain rfl : i = 0 := Nat.lt_one_iff.mp hi
        rwa [Int.natCast_zero, Int.add_zero]
    | writeWord address value => exact h i hi
  rw [translate_userArea hin] at hnone
  cases hnone

/-- The pointers that `check_arg` lets through are NULL or begin in the user area or at its
end, and are gone through upwards: up to the first page fault all accesses are in the user
area, and the first one outside faults. -/
theorem pointers_guarded (image : Image) (h : Running ok s) {before later : List UserAccess}
    (hsplit : s.userAccesses = before ++ access :: later)
    (hbefore : ∀ earlier ∈ before, ¬earlier.Faults image.paged) :
    access.inUserArea ↔ ¬access.Faults image.paged := by
  have hguarded := (h.guarding image).accesses
  rw [hsplit] at hguarded
  exact ⟨not_faults_of_inUserArea, (hguarded.good_or_stops hbefore).resolve_right⟩

/-- The end of a name behind the end of the user area. -/
theorem pointers_guarded_name : ∃ s, Running (fun _ _ => True) s ∧
    s.userAccesses = [.readByte 0x2FFFFFF, .readByte 0x3000000] ∧
      (UserAccess.readByte 0x3000000).Faults smallImage.paged := by
  have hrun : ∃ s, Running (fun _ _ => True) s ∧
      decide (s.userAccesses = [.readByte 0x2FFFFFF, .readByte 0x3000000]) = true :=
    Running.computed ([Event.init 4096 128,
      .call (.start 0x1000000 4096 90 ⟨0x2FFFFFF, 1⟩)].map Event.step) [] (by decide +kernel)
  obtain ⟨s, hrun, htest⟩ := hrun
  have haccesses := of_decide_eq_true htest
  refine ⟨s, hrun, haccesses, ?_⟩
  have hsplit : s.userAccesses = [.readByte 0x2FFFFFF] ++ .readByte 0x3000000 :: [] := haccesses
  have hiff := pointers_guarded smallImage hrun hsplit ?_
  · have hout : ¬(UserAccess.readByte 0x3000000).inUserArea := by decide
    rw [hiff, not_not] at hout
    exact hout
  · intro earlier hearlier
    rw [List.mem_singleton.mp hearlier]
    exact not_faults_of_inUserArea (by decide)

/-! ## What user programs store -/

end SchlagOS
