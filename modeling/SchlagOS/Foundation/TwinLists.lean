import SchlagOS.Foundation.NodeList

/-!
# Two lists with the same contents

Two heap-allocated lists that hold the same contents at addresses of their own.
An operation that looks at contents only does the same to both.
-/

namespace SchlagOS.Foundation.NodeList

variable {α : Type*} {q q' : NodeList α}

/-- A content and its addresses in the two lists. -/
abbrev Twin (α : Type*) := (Nat × Nat) × α

def Twin.left (z : Twin α) : Nat × α := (z.1.1, z.2)

def Twin.right (z : Twin α) : Nat × α := (z.1.2, z.2)

structure Twins (q q' : NodeList α) (zs : List (Twin α)) : Prop where
  left : q.HoldsAt (zs.map Twin.left)
  right : q'.HoldsAt (zs.map Twin.right)

namespace Twins

variable {zs before after : List (Twin α)} {z : Twin α} {xs : List α}

theorem of_holds (h : q.Holds xs) (h' : q'.Holds xs) :
    ∃ zs, Twins q q' zs ∧ zs.map Prod.snd = xs := by
  obtain ⟨ps, hps, rfl⟩ := h
  obtain ⟨ps', hps', hsame⟩ := h'
  have hzip : ∀ (ps ps' : List (Nat × α)), ps'.map Prod.snd = ps.map Prod.snd →
      ∃ zs : List (Twin α), zs.map Twin.left = ps ∧ zs.map Twin.right = ps' := by
    intro ps
    induction ps with
    | nil =>
        intro ps' hsame
        exact ⟨[], rfl, (List.map_eq_nil_iff.mp hsame).symm⟩
    | cons p ps ih =>
        intro ps' hsame
        obtain ⟨p', rest, rfl, hp, hrest⟩ := List.map_eq_cons_iff.mp hsame
        obtain ⟨zs, hleft, hright⟩ := ih rest hrest
        refine ⟨((p.1, p'.1), p.2) :: zs, ?_, ?_⟩
        · rw [List.map_cons, hleft]
          rfl
        · rw [List.map_cons, hright, ← hp]
          rfl
  obtain ⟨zs, rfl, rfl⟩ := hzip ps ps' hsame
  refine ⟨zs, ⟨hps, hps'⟩, ?_⟩
  rw [List.map_map]
  rfl

theorem holds (h : Twins q q' zs) :
    q.Holds (zs.map Prod.snd) ∧ q'.Holds (zs.map Prod.snd) := by
  refine ⟨⟨_, h.left, ?_⟩, _, h.right, ?_⟩
  · rw [List.map_map]
    rfl
  · rw [List.map_map]
    rfl

theorem split (h : Twins q q' (before ++ z :: after)) :
    q.HoldsAt (before.map Twin.left ++ z.left :: after.map Twin.left) ∧
      q'.HoldsAt (before.map Twin.right ++ z.right :: after.map Twin.right) := by
  have hleft := h.left
  have hright := h.right
  rw [List.map_append, List.map_cons] at hleft hright
  exact ⟨hleft, hright⟩

theorem removeFirstWith {found : α → Bool} (h : Twins q q' (before ++ z :: after))
    (hbefore : ∀ y ∈ before, found y.2 = false) (hz : found z.2 = true) :
    ∃ r r', q.removeFirstWith found = some (z.2, r) ∧
      q'.removeFirstWith found = some (z.2, r') ∧ Twins r r' (before ++ after) ∧
      (r.freshAddress, r'.freshAddress) = z.1 := by
  have hfree : ∀ f : Twin α → Nat × α, (∀ y, (f y).2 = y.2) →
      ∀ p ∈ before.map f, found p.2 = false := by
    intro f hf p hp
    obtain ⟨y, hy, rfl⟩ := List.mem_map.mp hp
    rw [hf]
    exact hbefore y hy
  obtain ⟨r, hr, hholds, haddress⟩ := h.split.1.removeFirstWith
    (hfree Twin.left fun _ => rfl) hz
  obtain ⟨r', hr', hholds', haddress'⟩ := h.split.2.removeFirstWith
    (hfree Twin.right fun _ => rfl) hz
  refine ⟨r, r', hr, hr', ⟨?_, ?_⟩, ?_⟩
  · rwa [List.map_append]
  · rwa [List.map_append]
  · rw [haddress, haddress']
    rfl

/-- Where the same content goes in both lists. -/
theorem addBehind (h : Twins q q' zs) (stop : α → Bool) (content : α) :
    Twins (q.addBehind stop content) (q'.addBehind stop content)
      (zs.rdropWhile (fun z => !stop z.2) ++
        ((q.freshAddress, q'.freshAddress), content) ::
          zs.rtakeWhile fun z => !stop z.2) := by
  have hdrop : ∀ f : Twin α → Nat × α, (∀ y, (f y).2 = y.2) →
      (zs.map f).rdropWhile (fun p => !stop p.2) =
        (zs.rdropWhile fun z => !stop z.2).map f := by
    intro f hf
    simp [List.rdropWhile, ← List.map_reverse, List.dropWhile_map, Function.comp_def, hf]
  have htake : ∀ f : Twin α → Nat × α, (∀ y, (f y).2 = y.2) →
      (zs.map f).rtakeWhile (fun p => !stop p.2) =
        (zs.rtakeWhile fun z => !stop z.2).map f := by
    intro f hf
    simp [List.rtakeWhile, ← List.map_reverse, List.takeWhile_map, Function.comp_def, hf]
  have hleft := h.left.addBehind stop content
  have hright := h.right.addBehind stop content
  rw [hdrop _ fun _ => rfl, htake _ fun _ => rfl] at hleft hright
  constructor
  · rw [List.map_append, List.map_cons]
    exact hleft
  · rw [List.map_append, List.map_cons]
    exact hright

end Twins

end SchlagOS.Foundation.NodeList
