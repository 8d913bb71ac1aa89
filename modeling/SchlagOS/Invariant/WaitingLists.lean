import SchlagOS.Kernel.WaitingLists
import SchlagOS.Invariant.Ready

/-!
# What the notifications do to the waiting lists

`message_queues_notify_processus_killed` drops the entry of a pid from every
waiting list and `message_queues_notify_priority_changed` moves it, although
the second one does so while it walks along the list.
-/

namespace SchlagOS

open Foundation

def isOf (pid : Int) (content : ProcessNodeContent) : Bool := decide (content.pid = pid)

/-- Whether an entry stays in front of a new one of this priority. -/
def stands (priority : Int) (other : ProcessNodeContent) : Bool :=
  decide (priority < other.priority)

/-- The list in which the entry of a process has moved to a new priority. -/
def reprioritised (pid priority : Int) (xs : List ProcessNodeContent) :
    List ProcessNodeContent :=
  match xs.find? (isOf pid) with
  | some content =>
      NodeList.place (stands priority) { content with priority := priority }
        (xs.eraseP (isOf pid))
  | none => xs

/-! ## One list -/

theorem removeWithPid_holds {list : NodeList ProcessNodeContent}
    {xs : List ProcessNodeContent} (h : list.Holds xs) (pid : Int) :
    (∃ content list', processQueueRemoveFirstWithPid list pid = some (content, list') ∧
      xs.find? (isOf pid) = some content ∧ list'.Holds (xs.eraseP (isOf pid))) ∨
    (processQueueRemoveFirstWithPid list pid = none ∧ xs.find? (isOf pid) = none) := by
  cases hfind : xs.find? (isOf pid) with
  | some content =>
      obtain ⟨list', hremove, hlist'⟩ := h.removeFirstWith hfind
      exact .inl ⟨content, list', hremove, rfl, hlist'⟩
  | none =>
      refine .inr ⟨h.removeFirstWith_eq_none fun x hx => ?_, rfl⟩
      exact eq_false_of_ne_true (List.find?_eq_none.mp hfind x hx)

theorem reprioritised_none {pid : Int} (n : Int) {xs : List ProcessNodeContent}
    (h : ∀ x ∈ xs, isOf pid x = false) : reprioritised pid n xs = xs := by
  have hnone : xs.find? (isOf pid) = none := by
    rw [List.find?_eq_none]
    intro x hx
    simp [h x hx]
  rw [reprioritised, hnone]

theorem reprioritised_split {pid : Int} (n : Int) {before after : List ProcessNodeContent}
    {x : ProcessNodeContent} (hbefore : ∀ y ∈ before, isOf pid y = false)
    (hx : isOf pid x = true) :
    reprioritised pid n (before ++ x :: after) =
      NodeList.place (stands n) { x with priority := n } (before ++ after) := by
  have hnone : before.find? (isOf pid) = none := by
    rw [List.find?_eq_none]
    intro y hy
    simp [hbefore y hy]
  have hfind : (before ++ x :: after).find? (isOf pid) = some x := by
    rw [List.find?_append, hnone, List.find?_cons_of_pos hx]
    rfl
  have herase : (before ++ x :: after).eraseP (isOf pid) = before ++ after := by
    rw [List.eraseP_append_right _ (List.find?_eq_none.mp hnone),
      List.eraseP_cons_of_pos hx]
  rw [reprioritised, hfind]
  dsimp only
  rw [herase]

/-- Behind the last entry of the process the walk changes nothing. -/
private theorem changePriorityFrom_behind (mem : Memory) (pid newPriority : Int)
    {list : NodeList ProcessNodeContent} {before after : List (Nat × ProcessNodeContent)}
    (h : list.HoldsAt (before ++ after)) (hafter : ∀ r ∈ after, isOf pid r.2 = false)
    (fuel : Nat) :
    changePriorityFrom mem pid newPriority fuel (NodeList.firstRef after) list =
      .ok list := by
  induction after generalizing before fuel with
  | nil => cases fuel <;> rfl
  | cons p after ih =>
      cases fuel with
      | zero => rfl
      | succ fuel =>
          have hcontent := h.contents p (by simp)
          have hnext := h.around.2
          have hp := hafter p (by simp)
          have happend : before ++ p :: after = before ++ [p] ++ after := by simp
          rw [happend] at h
          have hrest := ih h (fun r hr => hafter r (List.mem_cons_of_mem _ hr)) fuel
          unfold isOf at hp
          rw [NodeList.firstRef_cons, changePriorityFrom, hcontent]
          simp only [Option.any_some, hp, Bool.false_eq_true, if_false, ok_bind, hnext]
          exact hrest

/-- The walk from `rest` on: the entry of the process is met at most once, and
its node comes back at the address that `tmp` holds. -/
private theorem changePriorityFrom_meets {mem : Memory}
    {pid newPriority : Int} {list : NodeList ProcessNodeContent}
    {before rest : List (Nat × ProcessNodeContent)} (h : list.HoldsAt (before ++ rest))
    (hbefore : ∀ r ∈ before, isOf pid r.2 = false)
    (hnodup : ((before ++ rest).map fun r => r.2.pid).Nodup) {fuel : Nat}
    (hfuel : rest.length < fuel) :
    Meets (changePriorityFrom mem pid newPriority fuel (NodeList.firstRef rest) list)
      (fun list' =>
        list'.Holds (reprioritised pid newPriority ((before ++ rest).map Prod.snd)) ∧
          ((∃ r ∈ rest, isOf pid r.2 = true) → mem.processNode = true))
      (fun e => e = .processNode ∧ mem.processNode = false) := by
  induction rest generalizing before fuel with
  | nil =>
      have hnone : reprioritised pid newPriority ((before ++ []).map Prod.snd) =
          (before ++ []).map Prod.snd := by
        apply reprioritised_none
        intro x hx
        rw [List.append_nil, List.mem_map] at hx
        obtain ⟨r, hr, rfl⟩ := hx
        exact hbefore r hr
      have hunchanged : list.Holds
          (reprioritised pid newPriority ((before ++ []).map Prod.snd)) := by
        rw [hnone]
        exact ⟨_, h, rfl⟩
      cases fuel with
      | zero => exact ⟨hunchanged, by simp⟩
      | succ fuel => exact ⟨hunchanged, by simp⟩
  | cons p rest ih =>
      cases fuel with
      | zero => simp at hfuel
      | succ fuel =>
          rw [List.length_cons] at hfuel
          have hcontent := h.contents p (by simp)
          have hnext := h.around.2
          rw [NodeList.firstRef_cons, changePriorityFrom, hcontent, Option.any_some]
          by_cases hp : isOf pid p.2 = true
          · obtain ⟨removed, hremove, hremoved, haddress⟩ := h.removeFirstWith hbefore hp
            have hadd := hremoved.addBehind (stands newPriority)
              { p.2 with priority := newPriority }
            have hadd' : (removed.addBehind (stands newPriority)
                { p.2 with priority := newPriority }).HoldsAt
                ((before ++ rest).rdropWhile (fun r => !stands newPriority r.2) ++
                  [(removed.freshAddress, { p.2 with priority := newPriority })] ++
                  (before ++ rest).rtakeWhile fun r => !stands newPriority r.2) := by
              simpa using hadd
            have hwalk := changePriorityFrom_behind mem pid newPriority hadd' ?_ fuel
            · have hnext' := hadd.around.2
              have hremove' : processQueueRemoveFirstWithPid list pid =
                  some (p.2, removed) := hremove
              have hp' := hp
              have hbefore' : ∀ y ∈ before.map Prod.snd, isOf pid y = false := by
                intro y hy
                obtain ⟨r, hr, rfl⟩ := List.mem_map.mp hy
                exact hbefore r hr
              rw [haddress] at hnext'
              unfold isOf at hp
              rw [if_pos hp, hremove']
              unfold processQueueAddOnPriority
              rw [meets_bind, meets_bind, meets_require]
              refine ⟨fun hmem => ?_, fun hmem => ⟨rfl, by simpa using hmem⟩⟩
              rw [meets_pure]
              change Meets (changePriorityFrom mem pid newPriority fuel
                ((removed.addBehind (stands newPriority)
                  { p.2 with priority := newPriority }).next (some p.1))
                (removed.addBehind (stands newPriority)
                  { p.2 with priority := newPriority })) _ _
              rw [hnext', hwalk, meets_ok, List.map_append, List.map_cons,
                reprioritised_split newPriority hbefore' hp', ← List.map_append,
                ← NodeList.map_snd_place _ removed.freshAddress]
              exact ⟨⟨_, hadd, rfl⟩, fun _ => hmem⟩
            · intro r hr
              have hmem' : r ∈ before ++ rest := (List.rtakeWhile_suffix _ _).subset hr
              have hne : r.2.pid ≠ p.2.pid := by
                intro heq
                have hperm : ((before ++ p :: rest).map fun r => r.2.pid).Perm
                    (p.2.pid :: (before ++ rest).map fun r => r.2.pid) :=
                  List.perm_middle.map _
                have hnot := (List.nodup_cons.mp (hperm.nodup_iff.mp hnodup)).1
                exact hnot (heq ▸ List.mem_map_of_mem hmem')
              unfold isOf at hp ⊢
              simp only [decide_eq_true_eq] at hp
              simpa [hp] using hne
          · have hp' : isOf pid p.2 = false := by simpa using hp
            have happend : before ++ p :: rest = before ++ [p] ++ rest := by simp
            rw [happend] at h hnodup ⊢
            have hfuel' : rest.length < fuel := by omega
            have hrest := ih h (fun r hr => by
              rcases List.mem_append.mp hr with hr | hr
              · exact hbefore r hr
              · rw [List.mem_singleton.mp hr]
                exact hp') hnodup hfuel'
            unfold isOf at hp'
            simp only [hp', Bool.false_eq_true, if_false, ok_bind, hnext]
            refine hrest.mono (fun list' hlist' => ⟨hlist'.1, ?_⟩) fun e he => he
            rintro ⟨r, hr, hrp⟩
            rcases List.mem_cons.mp hr with rfl | hr
            · exact absurd hrp hp
            · exact hlist'.2 ⟨r, hr, hrp⟩

theorem changePriority_meets {mem : Memory} {pid newPriority : Int}
    {list : NodeList ProcessNodeContent} {xs : List ProcessNodeContent}
    (h : list.Holds xs) (hnodup : (xs.map ProcessNodeContent.pid).Nodup) {fuel : Nat}
    (hfuel : xs.length < fuel) :
    Meets (changePriorityFrom mem pid newPriority fuel list.first list)
      (fun list' => list'.Holds (reprioritised pid newPriority xs) ∧
        ((∃ x ∈ xs, isOf pid x = true) → mem.processNode = true))
      (fun e => e = .processNode ∧ mem.processNode = false) := by
  obtain ⟨ps, hps, rfl⟩ := h
  rw [hps.first_eq]
  have hps' : list.HoldsAt ([] ++ ps) := hps
  rw [List.map_map] at hnodup
  refine (changePriorityFrom_meets hps' (by simp) hnodup (by simpa using hfuel)).mono
    (fun list' hlist' => ⟨hlist'.1, ?_⟩) fun e he => he
  rintro ⟨x, hx, hxp⟩
  obtain ⟨r, hr, rfl⟩ := List.mem_map.mp hx
  exact hlist'.2 ⟨r, hr, hxp⟩

/-! ## All lists -/

/-- What a visit of the queues leaves: the lists of those with a size change as
`visit` changes them, and nothing else does. -/
def Visited (n : Nat) (result : Int → NodeList ProcessNodeContent → Prop)
    (queues queues' : Int → MessageQueue) : Prop :=
  ∀ fid : Int, ∃ list, queues' fid = { queues fid with lockedProcesses := list } ∧
    if 0 ≤ fid ∧ fid < n ∧ 0 < (queues fid).size then result fid list
    else list = (queues fid).lockedProcesses

theorem visitQueues_meets
    {visit : NodeList ProcessNodeContent → Except Panic (NodeList ProcessNodeContent)}
    {queues : Int → MessageQueue} {bad : Panic → Prop} {n : Nat}
    (result : Int → NodeList ProcessNodeContent → Prop)
    (hvisit : ∀ fid, 0 < (queues fid).size →
      Meets (visit (queues fid).lockedProcesses) (result fid) bad) :
    Meets (visitQueues visit n queues) (Visited n result queues) bad := by
  induction n with
  | zero =>
      rw [visitQueues, meets_ok]
      intro fid
      refine ⟨_, rfl, ?_⟩
      rw [if_neg]
      omega
  | succ n ih =>
      rw [visitQueues, meets_bind]
      refine ih.mono (fun queues' hqueues' => ?_) fun e he => he
      have hn : queues' n = queues n := by
        obtain ⟨list, heq, hlist⟩ := hqueues' n
        rw [if_neg (by omega)] at hlist
        rw [heq, hlist]
      dsimp only
      rw [hn, meets_ite]
      refine ⟨fun hsize => ?_, fun hsize => ?_⟩
      · rw [meets_bind]
        refine (hvisit n hsize).mono (fun list hlist => ?_) fun e he => he
        rw [meets_pure]
        intro fid
        by_cases hfid : fid = n
        · subst hfid
          rw [Function.update_self]
          refine ⟨list, rfl, ?_⟩
          rw [if_pos ⟨by omega, by omega, hsize⟩]
          exact hlist
        · rw [Function.update_of_ne hfid]
          obtain ⟨list, heq, hcase⟩ := hqueues' fid
          refine ⟨list, heq, ?_⟩
          have hiff : (0 ≤ fid ∧ fid < (n + 1 : Nat) ∧ 0 < (queues fid).size) ↔
              (0 ≤ fid ∧ fid < n ∧ 0 < (queues fid).size) := by omega
          simp only [hiff]
          exact hcase
      · rw [meets_pure]
        intro fid
        obtain ⟨list, heq, hcase⟩ := hqueues' fid
        refine ⟨list, heq, ?_⟩
        have hiff : (0 ≤ fid ∧ fid < (n + 1 : Nat) ∧ 0 < (queues fid).size) ↔
            (0 ≤ fid ∧ fid < n ∧ 0 < (queues fid).size) := by
          by_cases hfid : fid = n
          · rw [hfid]
            omega
          · omega
        simp only [hiff]
        exact hcase

end SchlagOS
