import Mathlib.Data.List.Basic

/-!
# Ledgers of identifiers

Some events hand an identifier out and some give one back.  The balance says
that the identifiers handed out, followed by the free ones, are the initial ones
followed by those given back, so that they are handed out in the order in which
they became free.
-/

namespace SchlagOS.Foundation

structure Ledger (ε ι : Type*) where
  allocated : ε → Option ι
  released : ε → Option ι

namespace Ledger

variable {ε ι : Type*} {L : Ledger ε ι} {free free' free'' : List ι} {events events' : List ε}

def Balanced (L : Ledger ε ι) (free : List ι) (events : List ε) (free' : List ι) : Prop :=
  free ++ events.filterMap L.released = events.filterMap L.allocated ++ free'

theorem Balanced.append (h : L.Balanced free events free')
    (h' : L.Balanced free' events' free'') : L.Balanced free (events ++ events') free'' := by
  unfold Balanced at h h' ⊢
  rw [List.filterMap_append, List.filterMap_append, ← List.append_assoc, h, List.append_assoc,
    h', ← List.append_assoc]

/-- The events of one step; what is handed out was free before. -/
structure Turnover (L : Ledger ε ι) (free : List ι) (events : List ε) (free' : List ι) :
    Prop where
  balanced : L.Balanced free events free'
  fresh : ∀ x ∈ events.filterMap L.allocated, x ∈ free

theorem Turnover.quiet (hallocated : ∀ e ∈ events, L.allocated e = none)
    (hreleased : ∀ e ∈ events, L.released e = none) : L.Turnover free events free := by
  have hnone : events.filterMap L.allocated = [] := List.filterMap_eq_nil_iff.mpr hallocated
  have hnone' : events.filterMap L.released = [] := List.filterMap_eq_nil_iff.mpr hreleased
  constructor
  · simp [Balanced, hnone, hnone']
  · simp [hnone]

end Ledger

end SchlagOS.Foundation
