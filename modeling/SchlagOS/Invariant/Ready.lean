import SchlagOS.Kernel.Process
import Mathlib.Data.List.Nodup
import Mathlib.Data.List.Perm.Subperm

/-!
# The ready queue

The processes linked in `process_queue` are those in state WAITING, sorted by
their priorities.  Each rule is about one way in which the kernel moves a
process between states, and says that the link assertions hold on the way.
-/

namespace SchlagOS

open Foundation

/-! ## Pids -/

def IsPid (p : Int) : Prop := 0 < p ∧ p ≤ processTableMaxSize

instance (p : Int) : Decidable (IsPid p) := by
  unfold IsPid
  infer_instance

private def pidsUpTo (n : Nat) : List Int := (List.range n).map fun i : Nat => (i : Int) + 1

private theorem mem_pidsUpTo {n : Nat} {p : Int} (hpos : 0 < p) (hle : p ≤ n) :
    p ∈ pidsUpTo n := by
  have hlt : (p - 1).toNat < n := by omega
  have hpred : ((p - 1).toNat : Int) + 1 = p := by omega
  exact List.mem_map.mpr ⟨_, List.mem_range.mpr hlt, hpred⟩

theorem length_le_of_isPid {xs : List Int} (hnodup : xs.Nodup) (h : ∀ p ∈ xs, IsPid p) :
    xs.length ≤ processTableMaxSize := by
  have hsub : xs.Subperm (pidsUpTo processTableMaxSize) :=
    List.subperm_of_subset hnodup fun p hp => mem_pidsUpTo (h p hp).1 (h p hp).2
  have hlength := hsub.length_le
  simpa [pidsUpTo] using hlength

theorem length_lt_of_isPid {xs : List Int} (hnodup : xs.Nodup) (h : ∀ p ∈ xs, IsPid p)
    {p : Int} (hp : IsPid p) (hnot : p ∉ xs) : xs.length < processTableMaxSize := by
  have hlength := length_le_of_isPid (hnodup.cons hnot) (by simpa using ⟨hp, h⟩)
  rw [List.length_cons] at hlength
  omega

/-! ## Fields of an updated table -/

variable {β : Type*}

theorem field_update (field : Process → β) (data : Int → Process) (q : Int)
    (process : Process) :
    (fun p => field (Function.update data q process p)) =
      Function.update (fun p => field (data p)) q (field process) := by
  funext p
  by_cases hp : p = q
  · subst hp
    simp
  · simp [hp]

/-- Writing a value other than `b` over one other than `b` changes nothing about
which entries are `b`. -/
theorem update_eq_iff {f : Int → β} {p : Int} {a b : β} (hp : f p ≠ b) (ha : a ≠ b)
    (x : Int) : Function.update f p a x = b ↔ f x = b := by
  by_cases hx : x = p
  · subst hx
    simp [hp, ha]
  · simp [hx]

/-! ## The queue -/

structure ReadyQueue (state : Int → ProcessState) (priority : Int → Int)
    (queue : LinkQueue Int) : Prop where
  holds : queue.Holds (queue.toList (processTableMaxSize + 1))
  mem_iff : ∀ p, p ∈ queue.toList (processTableMaxSize + 1) ↔ state p = .waiting
  sorted : (queue.toList (processTableMaxSize + 1)).Pairwise
    fun a b => priority a ≤ priority b
  isPid : ∀ p, state p = .waiting → IsPid p

namespace ReadyQueue

variable {state : Int → ProcessState} {priority : Int → Int} {queue : LinkQueue Int}
  {p : Int} {b : ProcessState}

theorem length_lt (h : ReadyQueue state priority queue) :
    (queue.toList (processTableMaxSize + 1)).length < processTableMaxSize + 1 := by
  have hle := length_le_of_isPid h.holds.nodup fun p hp => h.isPid p ((h.mem_iff p).mp hp)
  omega

/-- The rule for every change of the queue: what it holds afterwards. -/
theorem of_holds {xs : List Int} (hholds : queue.Holds xs)
    (hmem : ∀ p, p ∈ xs ↔ state p = .waiting)
    (hsorted : xs.Pairwise fun a b => priority a ≤ priority b)
    (hpid : ∀ p, state p = .waiting → IsPid p) : ReadyQueue state priority queue := by
  have hlength := length_le_of_isPid hholds.nodup fun p hp => hpid p ((hmem p).mp hp)
  have hlist : queue.toList (processTableMaxSize + 1) = xs :=
    hholds.toList_eq (by omega)
  constructor
  · rwa [hlist]
  · rwa [hlist]
  · rwa [hlist]
  · exact hpid

theorem congr {state' : Int → ProcessState} (h : ReadyQueue state priority queue)
    (hstate : ∀ p, state' p = .waiting ↔ state p = .waiting) :
    ReadyQueue state' priority queue where
  holds := h.holds
  mem_iff p := by rw [h.mem_iff, hstate]
  sorted := h.sorted
  isPid p hp := h.isPid p ((hstate p).mp hp)

theorem move (h : ReadyQueue state priority queue) (hp : state p ≠ .waiting)
    (hb : b ≠ .waiting) : ReadyQueue (Function.update state p b) priority queue :=
  h.congr (update_eq_iff hp hb)

theorem reprioritise (h : ReadyQueue state priority queue) (hp : state p ≠ .waiting)
    (n : Int) : ReadyQueue state (Function.update priority p n) queue where
  holds := h.holds
  mem_iff := h.mem_iff
  sorted := by
    refine h.sorted.imp_of_mem fun {a c} ha hc hac => ?_
    have hap : a ≠ p := fun heq => hp (by rw [← heq, ← h.mem_iff]; exact ha)
    have hcp : c ≠ p := fun heq => hp (by rw [← heq, ← h.mem_iff]; exact hc)
    simpa [hap, hcp] using hac
  isPid := h.isPid

theorem add (h : ReadyQueue state priority queue) (hp : state p ≠ .waiting)
    (hpid : IsPid p) :
    ∃ queue', queue.add (fun i => decide (priority i < priority p))
        (processTableMaxSize + 1) p = some queue' ∧
      ReadyQueue (Function.update state p .waiting) priority queue' := by
  have hnot : p ∉ queue.toList (processTableMaxSize + 1) := by rwa [h.mem_iff]
  obtain ⟨queue', hadd, hholds⟩ := h.holds.add hnot h.length_lt
    fun i => decide (priority i < priority p)
  refine ⟨queue', hadd, of_holds hholds ?_ (LinkQueue.sorted_place h.sorted) ?_⟩
  · intro x
    rw [LinkQueue.mem_place, h.mem_iff]
    by_cases hx : x = p
    · simp [hx]
    · simp [hx]
  · intro x hx
    by_cases hxp : x = p
    · rwa [hxp]
    · rw [Function.update_of_ne hxp] at hx
      exact h.isPid x hx

theorem del (h : ReadyQueue state priority queue) (hp : state p = .waiting)
    (hb : b ≠ .waiting) :
    ∃ queue', queue.del p = some queue' ∧
      ReadyQueue (Function.update state p b) priority queue' := by
  have hmem : p ∈ queue.toList (processTableMaxSize + 1) := (h.mem_iff p).mpr hp
  obtain ⟨queue', hdel, hholds⟩ := h.holds.del hmem
  refine ⟨queue', hdel, of_holds hholds ?_ (h.sorted.sublist List.erase_sublist) ?_⟩
  · intro x
    rw [h.holds.nodup.mem_erase_iff, h.mem_iff]
    by_cases hx : x = p
    · simp [hx, hb]
    · simp [hx]
  · intro x hx
    by_cases hxp : x = p
    · exact h.isPid x (hxp ▸ hp)
    · rw [Function.update_of_ne hxp] at hx
      exact h.isPid x hx

theorem del_eq_none (h : ReadyQueue state priority queue) (hp : state p ≠ .waiting) :
    queue.del p = none := by
  apply h.holds.del_eq_none
  rwa [h.mem_iff]

/-- Deleting and adding under another priority. -/
theorem requeue (h : ReadyQueue state priority queue) (hp : state p = .waiting) (n : Int) :
    ∃ queue₁ queue₂, queue.del p = some queue₁ ∧
      queue₁.add (fun i => decide (Function.update priority p n i < n))
        (processTableMaxSize + 1) p = some queue₂ ∧
      ReadyQueue state (Function.update priority p n) queue₂ := by
  obtain ⟨queue₁, hdel, h₁⟩ := h.del hp (b := .unset) (by decide)
  have hout : Function.update state p ProcessState.unset p ≠ .waiting := by simp
  obtain ⟨queue₂, hadd, h₂⟩ := (h₁.reprioritise hout n).add hout (h.isPid p hp)
  refine ⟨queue₁, queue₂, hdel, by simpa using hadd, h₂.congr fun x => ?_⟩
  by_cases hx : x = p
  · simp [hx, hp]
  · simp [hx]

theorem clear (h : ReadyQueue state priority queue) (hp : state p ≠ .waiting) :
    queue.clear p = queue := by
  apply h.holds.clear
  rwa [h.mem_iff]

theorem top_eq_none (h : ReadyQueue state priority queue) :
    queue.top = none ↔ ∀ p, state p ≠ .waiting := by
  rw [h.holds.top_eq, List.getLast?_eq_none_iff, List.eq_nil_iff_forall_not_mem]
  simp only [h.mem_iff, ne_eq]

/-- The process at the top is waiting and no waiting one has a higher priority. -/
theorem of_top (h : ReadyQueue state priority queue) (htop : queue.top = some p) :
    state p = .waiting ∧ ∀ x, state x = .waiting → priority x ≤ priority p := by
  rw [h.holds.top_eq, List.getLast?_eq_some_iff] at htop
  obtain ⟨front, hfront⟩ := htop
  have hsorted := h.sorted
  constructor
  · rw [← h.mem_iff, hfront]
    simp
  · intro x hx
    rw [← h.mem_iff] at hx
    rw [hfront] at hx hsorted
    rcases List.mem_append.mp hx with hx | hx
    · exact (List.pairwise_append.mp hsorted).2.2 x hx p (by simp)
    · simp_all

theorem out_eq_top (h : ReadyQueue state priority queue) : queue.out.1 = queue.top := by
  rw [h.holds.out_eq.1, h.holds.top_eq]

theorem out (h : ReadyQueue state priority queue) (htop : queue.top = some p)
    (hb : b ≠ .waiting) : ReadyQueue (Function.update state p b) priority queue.out.2 := by
  have hnodup := h.holds.nodup
  have hholds := h.holds.out_eq.2
  rw [h.holds.top_eq, List.getLast?_eq_some_iff] at htop
  obtain ⟨front, hfront⟩ := htop
  refine of_holds hholds ?_ (h.sorted.sublist (List.dropLast_sublist _)) ?_
  · intro x
    have hx := h.mem_iff x
    rw [hfront] at hx hnodup ⊢
    rw [List.dropLast_concat]
    by_cases hxp : x = p
    · subst hxp
      have hnot : x ∉ front := fun hmem =>
        (List.nodup_append.mp hnodup).2.2 x hmem x (by simp) rfl
      simp [hnot, hb]
    · simpa [hxp] using hx
  · intro x hx
    by_cases hxp : x = p
    · rw [hxp] at hx
      simp [hb] at hx
    · rw [Function.update_of_ne hxp] at hx
      exact h.isPid x hx

end ReadyQueue

/-! ## The macros on the kernel's queue -/

theorem queueAdd_eq {s : Kernel} {p : Int} {f : Process → Process}
    (h : ReadyQueue (fun p => (s.data p).state) (fun p => (s.data p).priority)
      s.processQueue)
    (hp : (s.data p).state ≠ .waiting) (hpid : IsPid p)
    (hf : ∀ process, (f process).priority = process.priority) :
    ∃ queue', queueAdd (s.update p f) p =
        .ok { s.update p f with processQueue := queue' } ∧
      ReadyQueue (Function.update (fun p => (s.data p).state) p .waiting)
        (fun p => (s.data p).priority) queue' := by
  obtain ⟨queue', hadd, hready⟩ := h.add hp hpid
  refine ⟨queue', ?_, hready⟩
  have hpriority : (fun i => ((s.update p f).data i).priority) =
      fun i => (s.data i).priority := by
    unfold Kernel.update
    rw [field_update Process.priority, hf, Function.update_eq_self]
  have hbelow : (fun i => decide
      (((s.update p f).data i).priority < ((s.update p f).data p).priority)) =
      fun i => decide ((s.data i).priority < (s.data p).priority) := by
    funext i
    rw [congrFun hpriority i, congrFun hpriority p]
  rw [queueAdd, hbelow]
  simp [Kernel.update, hadd]

end SchlagOS
