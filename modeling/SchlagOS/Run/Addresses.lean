import SchlagOS.Invariant.Calm

/-!
# The user area

`check_arg` looks at the first address of an argument only, lets `NULL` through
and takes the end of the area for a part of it.  All accesses stay inside the
area in the runs in which every pointer that is passed designates a range
inside it.
-/

namespace SchlagOS

open Foundation

def InUserArea (address : Int) : Prop := 0x1000000 ≤ address ∧ address < 0x3000000

instance (address : Int) : Decidable (InUserArea address) := by
  unfold InUserArea
  infer_instance

def WordInUserArea (address : Int) : Prop := ∀ i : Nat, i < 4 → InUserArea (address + i)

instance (address : Int) : Decidable (WordInUserArea address) := by
  unfold WordInUserArea
  infer_instance

def UserAccess.inUserArea : UserAccess → Prop
  | .readByte address => InUserArea address
  | .writeByte address _ => InUserArea address
  | .writeWord address _ => WordInUserArea address

instance (access : UserAccess) : Decidable access.inUserArea :=
  match access with
  | .readByte address => inferInstanceAs (Decidable (InUserArea address))
  | .writeByte address _ => inferInstanceAs (Decidable (InUserArea address))
  | .writeWord address _ => inferInstanceAs (Decidable (WordInUserArea address))

/-- Pointers may be passed to ranges inside the user area. -/
def userGrant : Grant := ⟨WordInUserArea, InUserArea, True⟩

instance (destination : Destination) : Decidable (userGrant.destination destination) :=
  match destination with
  | .null => isTrue trivial
  | .user address => inferInstanceAs (Decidable (WordInUserArea address))
  | .receiver _ => isTrue trivial

instance (address : Int) (length : Nat) : Decidable (userGrant.bytes address length) :=
  inferInstanceAs (Decidable (∀ i : Nat, i < length → InUserArea (address + i)))

instance (s : Kernel) (stackSize : Nat) (priority : Int) :
    Decidable (StartsWith s stackSize priority) := by
  unfold StartsWith
  infer_instance

instance (s : Kernel) : (call : Call) → Decidable (userGrant.call s call)
  | .start _ stackSize priority name =>
      inferInstanceAs (Decidable (_ → _ → StartsWith s stackSize priority →
        userGrant.bytes name.address (min (name.length + 1) processNameMaxLength)))
  | .waitpid _ retvalp =>
      inferInstanceAs (Decidable (_ → _ → _ → userGrant.destination (.ofPointer retvalp)))
  | .pcount _ count =>
      inferInstanceAs (Decidable (_ → _ → userGrant.destination (.ofPointer count)))
  | .preceive _ message =>
      inferInstanceAs (Decidable (_ → _ → userGrant.destination (.ofPointer message)))
  | .consRead str length => inferInstanceAs (Decidable (_ → userGrant.bytes str length))
  | .consWrite str size => inferInstanceAs (Decidable (_ → userGrant.bytes str size.toNat))
  | .clockSettings quartz ticks =>
      inferInstanceAs (Decidable (_ → _ → WordInUserArea quartz ∧ WordInUserArea ticks))
  | .exit _ => isTrue trivial
  | .kill _ => isTrue trivial
  | .getpid => isTrue trivial
  | .getprio _ => isTrue trivial
  | .chprio _ _ => isTrue trivial
  | .waitClock _ => isTrue trivial
  | .currentClock => isTrue trivial
  | .pcreate _ => isTrue trivial
  | .pdelete _ => isTrue trivial
  | .preset _ => isTrue trivial
  | .psend _ _ => isTrue trivial
  | .consEcho _ => isTrue trivial

instance (s : Kernel) : (event : Event) → Decidable (userGrant.event s event)
  | .call call => inferInstanceAs (Decidable (userGrant.call s call))
  | .key _ => isTrue trivial
  | .init _ _ => isTrue trivial
  | .tick => isTrue trivial
  | .kernel => isTrue trivial

/-- Whatever was accessed through a pointer of a user process, at once or from another
process later, lies inside the user area. -/
theorem accesses_in_user_area {s : Kernel}
    (h : Running (fun s step => userGrant.event s step.event) s) :
    ∀ access ∈ s.userAccesses, access.inUserArea := by
  have hwithin := h.within (g := userGrant) fun _ _ hevent => hevent
  intro access haccess
  have hgranted := hwithin.accesses access haccess
  cases access with
  | readByte address => exact hgranted
  | writeByte address value => exact hgranted
  | writeWord address value => exact hgranted

/-- A run whose last call reads 3 bytes and stores 2 words. -/
private theorem accesses_run : ∃ s, Running (fun s step => userGrant.event s step.event) s ∧
    decide (s.userAccesses.length = 5) = true :=
  Running.computed ([Event.init 4096 128, .call (.consWrite 0x1000000 3),
    .call (.clockSettings 0x1000000 0x2FFFFFC)].map Event.step) [] (by decide +kernel)

theorem accesses_in_user_area_run : ∃ s : Kernel, s.userAccesses.length = 5 ∧
    ∀ access ∈ s.userAccesses, access.inUserArea := by
  obtain ⟨s, hrun, htest⟩ := accesses_run
  exact ⟨s, of_decide_eq_true htest, accesses_in_user_area hrun⟩

/-- `cons_write` of 4 bytes at `NULL` is let through. -/
theorem accesses_leave_user_area : ¬∀ s : Kernel, Running (fun _ _ => True) s →
    ∀ access ∈ s.userAccesses, access.inUserArea := by
  intro hall
  have hrun : ∃ s, Running (fun _ _ => True) s ∧
      decide (UserAccess.readByte 0 ∈ s.userAccesses) = true :=
    Running.computed ([Event.init 4096 128, .call (.consWrite 0 4)].map Event.step) []
      (by decide +kernel)
  obtain ⟨s, hrun, htest⟩ := hrun
  exact absurd (hall s hrun _ (of_decide_eq_true htest)) (by decide)

end SchlagOS
