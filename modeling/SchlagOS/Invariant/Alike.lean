import SchlagOS.Foundation.TwinLists
import SchlagOS.Invariant.Queues

/-!
# Kernels that differ in the insides of their queues

Two live queues are alike when they hold the same messages and the same waiting
processes, wherever in the ring and in the arena these stand.  No primitive and
no turn of `schedule` can tell two kernels apart whose queues are alike.
-/

namespace SchlagOS

open Foundation

variable {s t : Kernel} {queue queue' : MessageQueue} {p : Int} {mem : Memory}

structure AlikeQueue (queue queue' : MessageQueue) : Prop where
  allocated : queue'.allocated = queue.allocated
  size : queue'.size = queue.size
  messages : queue'.messages = queue.messages
  waiters : queue'.waiters = queue.waiters
  live : queue.allocated = true → Live queue ∧ Live queue'
  idle : queue.allocated = false → Idle queue ∧ queue' = queue

namespace AlikeQueue

theorem refl (h : queue.allocated = true → Live queue)
    (hidle : queue.allocated = false → Idle queue) : AlikeQueue queue queue where
  allocated := rfl
  size := rfl
  messages := rfl
  waiters := rfl
  live hallocated := ⟨h hallocated, h hallocated⟩
  idle hallocated := ⟨hidle hallocated, rfl⟩

theorem nbMessages (h : AlikeQueue queue queue') : queue'.nbMessages = queue.nbMessages := by
  rw [← length_messages, h.messages, length_messages]

theorem list_size (h : AlikeQueue queue queue') (hallocated : queue.allocated = true) :
    queue'.lockedProcesses.size = queue.lockedProcesses.size := by
  obtain ⟨hlive, hlive'⟩ := h.live hallocated
  rw [hlive'.list.size_eq, h.waiters, ← hlive.list.size_eq]

/-- The waiting lists change in the same way. -/
theorem withList (h : AlikeQueue queue queue') (hallocated : queue.allocated = true)
    {list list' : NodeList ProcessNodeContent} {xs : List ProcessNodeContent}
    (hlist : list.Holds xs) (hlist' : list'.Holds xs)
    (hlevel : xs ≠ [] → queue.nbMessages = 0 ∨ queue.nbMessages = queue.size) :
    AlikeQueue { queue with lockedProcesses := list }
      { queue' with lockedProcesses := list' } := by
  obtain ⟨hlive, hlive'⟩ := h.live hallocated
  have hwith := hlive.withList hlist hlevel
  have hwith' := hlive'.withList hlist' (by rwa [h.nbMessages, h.size])
  constructor
  · exact h.allocated
  · exact h.size
  · exact h.messages
  · rw [hwith.2, hwith'.2]
  · exact fun _ => ⟨hwith.1, hwith'.1⟩
  · intro hfalse
    rw [hallocated] at hfalse
    cases hfalse

end AlikeQueue

/-- Two tables of queues, and the ring of the fids that neither of them uses. -/
structure AlikeTable (fids : LockedRing Int) (nbQueues : Nat)
    (queues queues' : Int → MessageQueue) : Prop where
  alike : ∀ fid, AlikeQueue (queues fid) (queues' fid)
  pool : Pool nbQueue fids nbQueues (freeFid queues)

/-- The kernels are equal but for queues that are alike. -/
def Alike (s t : Kernel) : Prop :=
  ∃ queues, t = { s with queues := queues } ∧
    AlikeTable s.fids s.nbQueues s.queues queues

theorem Alike.getpid (h : Alike s t) : t.getpid = s.getpid := by
  obtain ⟨queues, rfl, -⟩ := h
  rfl

theorem Alike.update (h : Alike s t) (p : Int) (f : Process → Process) :
    Alike (s.update p f) (t.update p f) := by
  obtain ⟨queues, rfl, hqueues⟩ := h
  exact ⟨queues, rfl, hqueues⟩

theorem Alike.record (h : Alike s t) (event : HistoryEvent) :
    Alike (s.record event) (t.record event) := by
  obtain ⟨queues, rfl, hqueues⟩ := h
  exact ⟨queues, rfl, hqueues⟩

theorem Alike.ret (h : Alike s t) (value : Int) : Alike (s.ret value) (t.ret value) := by
  obtain ⟨queues, rfl, hqueues⟩ := h
  exact ⟨queues, rfl, hqueues⟩

theorem Alike.callSchedule (h : Alike s t) (frames : List Frame) :
    Alike (s.callSchedule frames) (t.callSchedule frames) := by
  obtain ⟨queues, rfl, hqueues⟩ := h
  exact ⟨queues, rfl, hqueues⟩

theorem Alike.store (h : Alike s t) (destination : Destination) (value : Int) :
    Alike (s.store destination value) (t.store destination value) := by
  obtain ⟨queues, rfl, hqueues⟩ := h
  cases destination with
  | null => exact ⟨queues, rfl, hqueues⟩
  | user address => exact ⟨queues, rfl, hqueues⟩
  | receiver pid => exact ⟨queues, rfl, hqueues⟩

theorem Alike.setRelease (h : Alike s t) (i : Int) (flag : Bool) :
    Alike { s with resetReleases := Function.update s.resetReleases i flag }
      { t with resetReleases := Function.update t.resetReleases i flag } := by
  obtain ⟨queues, rfl, hqueues⟩ := h
  exact ⟨queues, rfl, hqueues⟩

theorem update_alike {queues queues' : Int → MessageQueue}
    (h : ∀ fid, AlikeQueue (queues fid) (queues' fid)) (fid : Int)
    (hqueue : AlikeQueue queue queue') (fid' : Int) :
    AlikeQueue (Function.update queues fid queue fid')
      (Function.update queues' fid queue' fid') := by
  by_cases hfid : fid' = fid
  · rw [hfid, Function.update_self, Function.update_self]
    exact hqueue
  · rw [Function.update_of_ne hfid, Function.update_of_ne hfid]
    exact h fid'

theorem Alike.setQueue (h : Alike s t) (fid : Int) (hqueue : AlikeQueue queue queue')
    (hallocated : queue.allocated = (s.queues fid).allocated) :
    Alike (setQueue s fid queue) (setQueue t fid queue') := by
  obtain ⟨queues, rfl, hqueues⟩ := h
  refine ⟨Function.update queues fid queue', rfl, update_alike hqueues.alike fid hqueue, ?_⟩
  refine hqueues.pool.congr fun fid' => ?_
  unfold SchlagOS.setQueue freeFid
  dsimp only
  by_cases hfid : fid' = fid
  · rw [hfid, Function.update_self, hallocated]
  · rw [Function.update_of_ne hfid]

/-! ## The ready queue and the tables -/

theorem queueAdd_alike (h : Alike s t) (p : Int) :
    Coupled Alike (queueAdd s p) (queueAdd t p) := by
  obtain ⟨queues, rfl, hqueues⟩ := h
  exact .front _ fun processQueue => ⟨queues, rfl, hqueues⟩

theorem queueDel_alike (h : Alike s t) (p : Int) :
    Coupled Alike (queueDel s p) (queueDel t p) := by
  obtain ⟨queues, rfl, hqueues⟩ := h
  exact .front _ fun processQueue => ⟨queues, rfl, hqueues⟩

theorem processTableUnregister_alike (h : Alike s t) (p : Int) :
    Coupled Alike (processTableUnregister s p) (processTableUnregister t p) := by
  obtain ⟨queues, rfl, hqueues⟩ := h
  exact .front _ fun pids => ⟨queues, rfl, hqueues⟩

theorem processChildListAddHead_alike (h : Alike s t) (owner p : Int) :
    Coupled Alike (processChildListAddHead mem s owner p)
      (processChildListAddHead mem t owner p) :=
  .front _ fun _ => h.update owner _

theorem userStackFree_alike (h : Alike s t) (stack : Option Nat) (size : Nat) :
    Coupled Alike (userStackFree s stack size) (userStackFree t stack size) := by
  obtain ⟨queues, rfl, hqueues⟩ := h
  exact .ite (fun _ => ⟨queues, rfl, hqueues⟩) fun _ =>
    .front _ fun address => .front _ fun userBlocks => ⟨queues, rfl, hqueues⟩

theorem kernelStackFree_alike (h : Alike s t) (stack : Option Nat) :
    Coupled Alike (kernelStackFree s stack) (kernelStackFree t stack) := by
  obtain ⟨queues, rfl, hqueues⟩ := h
  exact .front _ fun address => .front _ fun kernelBlocks => ⟨queues, rfl, hqueues⟩

theorem deallocate_alike (h : Alike s t) (p : Int) :
    Coupled Alike (deallocate s p) (deallocate t p) := by
  obtain ⟨queues, rfl, hqueues⟩ := h
  have hsame : Alike s { s with queues := queues } := ⟨queues, rfl, hqueues⟩
  have hend : ∀ a b stack, Alike a b → Coupled Alike
      (kernelStackFree a stack >>= fun s => (pure (s.update p fun p =>
        { p with kernelStack := none, deallocated := true }) : Except Panic Kernel))
      (kernelStackFree b stack >>= fun s => pure (s.update p fun p =>
        { p with kernelStack := none, deallocated := true })) := fun a b stack hab =>
    (kernelStackFree_alike hab stack).bind fun a b hab => hab.update p _
  unfold deallocate
  refine .front _ fun _ => ?_
  dsimp only
  refine .ite (fun _ => ?_) fun _ => hend _ _ _ hsame
  refine (userStackFree_alike hsame _ _).bind fun a b hab => ?_
  exact hend _ _ _ (hab.update p _)

/-! ## The waiting lists -/

private theorem visitQueues_alike
    {visit : NodeList ProcessNodeContent → Except Panic (NodeList ProcessNodeContent)}
    {queues queues' : Int → MessageQueue}
    (h : ∀ fid, AlikeQueue (queues fid) (queues' fid))
    (hvisit : ∀ fid, (queues fid).allocated = true →
      Coupled (fun list list' => AlikeQueue { queues fid with lockedProcesses := list }
          { queues' fid with lockedProcesses := list' })
        (visit (queues fid).lockedProcesses) (visit (queues' fid).lockedProcesses)) (n : Nat) :
    Coupled (fun a b => ∀ fid : Int, AlikeQueue (a fid) (b fid) ∧
        (a fid).allocated = (queues fid).allocated ∧
        (n ≤ fid → a fid = queues fid ∧ b fid = queues' fid))
      (visitQueues visit n queues) (visitQueues visit n queues') := by
  induction n with
  | zero => exact fun fid => ⟨h fid, rfl, fun _ => ⟨rfl, rfl⟩⟩
  | succ n ih =>
      unfold visitQueues
      refine ih.bind fun a b hab => ?_
      obtain ⟨halike, hallocated, hsame⟩ := hab n
      obtain ⟨ha, hb⟩ := hsame (by omega)
      dsimp only
      refine .branch (by rw [halike.size]) (fun hsize => ?_) fun _ fid =>
        ⟨(hab fid).1, (hab fid).2.1, fun hle => (hab fid).2.2 (by omega)⟩
      have hlive : (queues n).allocated = true := by
        cases hfalse : (queues n).allocated with
        | true => rfl
        | false =>
            have hzero := ((h n).idle hfalse).1.size
            rw [ha] at hsize
            omega
      rw [ha, hb]
      refine (hvisit n hlive).bind fun list list' hlists fid => ?_
      refine ⟨update_alike (fun fid => (hab fid).1) n hlists fid, ?_⟩
      by_cases hfid : fid = n
      · rw [hfid, Function.update_self, Function.update_self]
        refine ⟨rfl, fun hle => ?_⟩
        omega
      · rw [Function.update_of_ne hfid, Function.update_of_ne hfid]
        exact ⟨(hab fid).2.1, fun hle => (hab fid).2.2 (by omega)⟩

/-- A visit that does the same to queues that are alike. -/
theorem visited_alike
    {visit : NodeList ProcessNodeContent → Except Panic (NodeList ProcessNodeContent)}
    (h : Alike s t)
    (hvisit : ∀ list list' zs, list.Twins list' zs →
      Coupled (fun a b => ∃ zs', a.Twins b zs' ∧ zs'.length ≤ zs.length)
        (visit list) (visit list')) :
    Coupled Alike
      (visitQueues visit nbQueue s.queues >>= fun queues =>
        (pure { s with queues := queues } : Except Panic Kernel))
      (visitQueues visit nbQueue t.queues >>= fun queues => pure { t with queues := queues }) := by
  obtain ⟨queues, rfl, hqueues⟩ := h
  refine (visitQueues_alike hqueues.alike (fun fid hallocated => ?_) nbQueue).bind
    fun a b hab => ⟨b, rfl, fun fid => (hab fid).1, hqueues.pool.congr fun fid => ?_⟩
  · have hqueue := hqueues.alike fid
    obtain ⟨hlive, hlive'⟩ := hqueue.live hallocated
    have hlist' := hlive'.list
    rw [hqueue.waiters] at hlist'
    obtain ⟨zs, htwins, hzs⟩ := NodeList.Twins.of_holds hlive.list hlist'
    refine (hvisit _ _ zs htwins).mono ?_
    rintro list list' ⟨zs', htwins', hlength⟩
    obtain ⟨hleft, hright⟩ := htwins'.holds
    refine hqueue.withList hallocated hleft hright fun hne => hlive.level fun hnil => ?_
    rw [hnil, List.map_eq_nil_iff] at hzs
    rw [hzs, List.length_nil, Nat.le_zero, List.length_eq_zero_iff] at hlength
    rw [hlength] at hne
    exact hne rfl
  · unfold freeFid
    rw [(hab fid).2.1]

/-- Taking an entry out of two lists with the same contents. -/
theorem removeWithPid_twins {list list' : NodeList ProcessNodeContent}
    {zs : List (NodeList.Twin ProcessNodeContent)} (h : list.Twins list' zs) (p : Int) :
    (processQueueRemoveFirstWithPid list p = none ∧
        processQueueRemoveFirstWithPid list' p = none ∧ ∀ z ∈ zs, isOf p z.2 = false) ∨
      ∃ before z after r r', zs = before ++ z :: after ∧
        processQueueRemoveFirstWithPid list p = some (z.2, r) ∧
        processQueueRemoveFirstWithPid list' p = some (z.2, r') ∧
        r.Twins r' (before ++ after) ∧ (r.freshAddress, r'.freshAddress) = z.1 := by
  cases hfind : zs.find? (fun z => isOf p z.2) with
  | none =>
      have hnone : ∀ z ∈ zs, isOf p z.2 = false := fun z hz =>
        eq_false_of_ne_true (List.find?_eq_none.mp hfind z hz)
      refine .inl ⟨h.left.removeFirstWith_eq_none ?_, h.right.removeFirstWith_eq_none ?_, hnone⟩
      · intro r hr
        obtain ⟨z, hz, rfl⟩ := List.mem_map.mp hr
        exact hnone z hz
      · intro r hr
        obtain ⟨z, hz, rfl⟩ := List.mem_map.mp hr
        exact hnone z hz
  | some z =>
      obtain ⟨hz, before, after, rfl, hbefore⟩ := List.find?_eq_some_iff_append.mp hfind
      have hother : ∀ y ∈ before, isOf p y.2 = false := fun y hy => by simpa using hbefore y hy
      obtain ⟨r, r', hremove, hremove', htwins, haddress⟩ := h.removeFirstWith hother hz
      exact .inr ⟨before, z, after, r, r', rfl, hremove, hremove', htwins, haddress⟩

theorem notifyKilled_alike (h : Alike s t) (p : Int) :
    Coupled Alike (messageQueuesNotifyProcessusKilled s p)
      (messageQueuesNotifyProcessusKilled t p) := by
  unfold messageQueuesNotifyProcessusKilled
  refine visited_alike h fun list list' zs htwins => ?_
  rcases removeWithPid_twins htwins p with ⟨hnone, hnone', -⟩ |
    ⟨before, z, after, r, r', rfl, hremove, hremove', htwins', -⟩
  · rw [hnone, hnone']
    exact ⟨zs, htwins, le_rfl⟩
  · rw [hremove, hremove']
    exact ⟨before ++ after, htwins', by simp⟩

/-! ## process.c -/

theorem requestZombify_alike (h : Alike s t) (p : Int) :
    Coupled Alike (requestZombify s p) (requestZombify t p) := by
  obtain ⟨queues, rfl, hqueues⟩ := h
  unfold requestZombify
  refine .front _ fun process => .front _ fun _ => .front _ fun pidsToZombify => ?_
  have hsame : Alike { s with pidsToZombify := pidsToZombify }
      { s with pidsToZombify := pidsToZombify, queues := queues } := ⟨queues, rfl, hqueues⟩
  have hend : ∀ a b, Alike a b → Coupled Alike
      (messageQueuesNotifyProcessusKilled a p >>= fun s =>
        (pure (s.update p fun p => { p with state := .zombie }) : Except Panic Kernel))
      (messageQueuesNotifyProcessusKilled b p >>= fun s =>
        pure (s.update p fun p => { p with state := .zombie })) := fun a b hab =>
    (notifyKilled_alike hab p).bind fun a b hab => hab.update p _
  dsimp only
  exact .ite (fun _ => (queueDel_alike hsame p).bind hend) fun _ => hend _ _ hsame

theorem requestDestroy_alike (h : Alike s t) (p : Int) :
    Coupled Alike (requestDestroy s p) (requestDestroy t p) := by
  obtain ⟨queues, rfl, hqueues⟩ := h
  unfold requestDestroy
  refine .front _ fun process => .front _ fun _ => ?_
  dsimp only
  refine .front _ fun pidsToDestroy => ?_
  set s₁ := { s.update p fun p => { p with sealed := true } with
    pidsToDestroy := pidsToDestroy } with hs₁
  have hsame : Alike s₁ { s₁ with queues := queues } := ⟨queues, rfl, hqueues⟩
  have hend : ∀ a b, Alike a b → Coupled Alike (messageQueuesNotifyProcessusKilled a p)
      (messageQueuesNotifyProcessusKilled b p) := fun a b hab => notifyKilled_alike hab p
  exact .ite (fun _ => .ite (fun _ => (queueDel_alike hsame p).bind hend)
    fun _ => hend _ _ hsame) fun _ => hsame

theorem zombifyChildren_alike (h : Alike s t) (p : Int) (children : List Int) :
    Coupled Alike (zombifyChildren mem p children s) (zombifyChildren mem p children t) := by
  induction children generalizing s t with
  | nil => exact h
  | cons c rest ih =>
      obtain ⟨queues, rfl, hqueues⟩ := h
      have hsame : Alike s { s with queues := queues } := ⟨queues, rfl, hqueues⟩
      unfold zombifyChildren
      refine .front _ fun child => ?_
      dsimp only
      refine .ite (fun _ => (requestDestroy_alike hsame _).bind fun a b hab => ih hab)
        fun _ => ?_
      refine (processChildListAddHead_alike ?_ 1 freedPid).bind fun a b hab => ih hab
      exact (hsame.update p _).update c _

theorem wakeFather_alike (h : Alike s t) (p father : Int) :
    Coupled Alike (wakeFather s p father) (wakeFather t p father) := by
  obtain ⟨queues, rfl, hqueues⟩ := h
  have hsame : Alike s { s with queues := queues } := ⟨queues, rfl, hqueues⟩
  exact .ite (fun _ => queueAdd_alike (hsame.update father _) father) fun _ => hsame

theorem zombify_alike (h : Alike s t) (p : Int) :
    Coupled Alike (zombify mem s p) (zombify mem t p) := by
  obtain ⟨queues, rfl, hqueues⟩ := h
  have hsame : Alike s { s with queues := queues } := ⟨queues, rfl, hqueues⟩
  unfold zombify
  refine .front _ fun _ => .front _ fun process => .front _ fun _ => ?_
  dsimp only
  refine .front _ fun _ => ?_
  refine (deallocate_alike hsame p).bind fun a b hab => ?_
  refine (zombifyChildren_alike hab p _).bind fun a b hab => ?_
  refine (wakeFather_alike hab p _).bind fun a b hab => ?_
  obtain ⟨queues', rfl, hqueues'⟩ := hab
  have hsame' : Alike a { a with queues := queues' } := ⟨queues', rfl, hqueues'⟩
  exact .ite (fun _ => (requestDestroy_alike hsame' p).bind fun a b hab => hab.record _)
    fun _ => hsame'.record _

theorem destroyChildren_alike (h : Alike s t) (p : Int) (children : List Int) :
    Coupled Alike (destroyChildren mem p children s) (destroyChildren mem p children t) := by
  induction children generalizing s t with
  | nil => exact h
  | cons c rest ih =>
      obtain ⟨queues, rfl, hqueues⟩ := h
      have hsame : Alike s { s with queues := queues } := ⟨queues, rfl, hqueues⟩
      have hsame₁ := hsame.update p fun p => { p with childsPids := rest }
      unfold destroyChildren
      dsimp only
      refine .front _ fun child => ?_
      refine .ite (fun _ => (requestDestroy_alike hsame₁ _).bind fun a b hab => ih hab)
        fun _ => ?_
      exact (processChildListAddHead_alike (hsame₁.update c _) 1 p).bind fun a b hab => ih hab

theorem destroy_alike (h : Alike s t) (p : Int) :
    Coupled Alike (destroy mem s p) (destroy mem t p) := by
  obtain ⟨queues, rfl, hqueues⟩ := h
  have hsame : Alike s { s with queues := queues } := ⟨queues, rfl, hqueues⟩
  have hend : ∀ a b, Alike a b → Alike
      ({ a.update p fun _ => noProcess with
        processQueue := (a.update p fun _ => noProcess).processQueue.clear p }.record
          (.destroyed p))
      ({ b.update p fun _ => noProcess with
        processQueue := (b.update p fun _ => noProcess).processQueue.clear p }.record
          (.destroyed p)) := by
    rintro a b ⟨queues, rfl, hqueues⟩
    exact ⟨queues, rfl, hqueues⟩
  unfold destroy
  refine .front _ fun _ => .front _ fun process => .front _ fun _ => .front _ fun _ => ?_
  dsimp only
  refine (destroyChildren_alike (hsame.update process.fatherPid _) p _).bind fun a b hab => ?_
  refine (processTableUnregister_alike hab p).bind fun a b hab => ?_
  obtain ⟨queues', rfl, hqueues'⟩ := hab
  have hsame' : Alike a { a with queues := queues' } := ⟨queues', rfl, hqueues'⟩
  refine .ite (fun _ => (deallocate_alike hsame' p).bind fun a b hab => hend a b hab)
    fun _ => .front _ fun _ => hend _ _ hsame'

theorem processSwitch_alike (h : Alike s t) (old new : Int) :
    Coupled Alike (processSwitch s old new) (processSwitch t old new) := by
  obtain ⟨queues, rfl, hqueues⟩ := h
  have hswitch : ∀ a b, Alike a b → Alike (contextSwitch a old new) (contextSwitch b old new) := by
    rintro a b ⟨queues, rfl, hqueues⟩
    exact ⟨queues, rfl, hqueues⟩
  unfold processSwitch
  dsimp only
  set s₁ := { s.update new fun p => { p with state := .running } with
    runningProcess := some new } with hs₁
  have hsame : Alike s₁ { s₁ with queues := queues } := ⟨queues, rfl, hqueues⟩
  refine .ite (fun _ => ?_) fun _ => hswitch _ _ hsame
  exact (queueAdd_alike (hsame.update old _) old).bind fun a b hab => hswitch a b hab

theorem scheduleDecide_alike (h : Alike s t) :
    Coupled Alike (scheduleDecide s) (scheduleDecide t) := by
  obtain ⟨queues, rfl, hqueues⟩ := h
  have hsame : Alike s { s with queues := queues } := ⟨queues, rfl, hqueues⟩
  have hfirst : ∀ (a b : Kernel) (first : Int), Alike a b → Alike
      (contextSwitch { a.update first fun p => { p with state := .running } with
        runningProcess := some first } first first)
      (contextSwitch { b.update first fun p => { p with state := .running } with
        runningProcess := some first } first first) := by
    rintro a b first ⟨queues, rfl, hqueues⟩
    exact ⟨queues, rfl, hqueues⟩
  have hout : Alike (queueOut s).2 (queueOut { s with queues := queues }).2 :=
    ⟨queues, rfl, hqueues⟩
  have htop : queueTop { s with queues := queues } = queueTop s := rfl
  unfold scheduleDecide
  dsimp only
  rw [htop]
  cases hrunning : s.runningProcess with
  | none =>
      rw [hrunning] at hout
      exact .front _ fun first => hfirst _ _ first hout
  | some old =>
      rw [hrunning] at hsame hout
      dsimp only
      generalize (if (s.data old).pid ≠ 1 ∧ processTableMaxSize ≤ s.currentSize then some 1
        else queueTop s) = candidate
      cases candidate with
      | none => exact hsame
      | some candidate =>
          exact .ite (fun _ => hsame) fun _ =>
            .front _ fun new => processSwitch_alike hout old new

theorem scheduleStep_alike (h : Alike s t) (phase : SchedulePhase) (rest : List Frame) :
    Coupled Alike (scheduleStep mem s phase rest) (scheduleStep mem t phase rest) := by
  obtain ⟨queues, rfl, hqueues⟩ := h
  have hsame : Alike s { s with queues := queues } := ⟨queues, rfl, hqueues⟩
  cases phase with
  | zombify =>
      have hpid : runningPid { s with queues := queues } = runningPid s := rfl
      unfold scheduleStep
      dsimp only
      rw [hpid]
      cases takePending s.pidsToZombify (runningPid s) with
      | none => exact ⟨queues, rfl, hqueues⟩
      | some taken =>
          refine (zombify_alike ?_ taken.1).bind fun a b hab => hab.callSchedule []
          exact ⟨queues, rfl, hqueues⟩
  | destroy =>
      have hpid : runningPid { s with queues := queues } = runningPid s := rfl
      unfold scheduleStep
      dsimp only
      rw [hpid]
      cases takePending s.pidsToDestroy (runningPid s) with
      | none => exact ⟨queues, rfl, hqueues⟩
      | some taken =>
          refine destroy_alike ?_ taken.1
          exact ⟨queues, rfl, hqueues⟩
  | decide => exact scheduleDecide_alike ⟨queues, rfl, hqueues⟩

/-! ## Waking and blocking -/

theorem awake_alike (h : Alike s t) (p : Int) :
    Coupled (fun a b => b.1 = a.1 ∧ Alike a.2 b.2 ∧ a.2.queues = s.queues) (awake s p)
      (awake t p) := by
  obtain ⟨queues, rfl, hqueues⟩ := h
  unfold awake
  refine .front _ fun _ => ?_
  dsimp only
  set s₁ := (s.record (.awoken p (s.data p).state)).update p
    fun p => { p with state := .waiting } with hs₁
  have hadd : Coupled (fun a b => Alike a b ∧ a.queues = s.queues) (queueAdd s₁ p)
      (queueAdd { s₁ with queues := queues } p) :=
    .front _ fun processQueue => ⟨⟨queues, rfl, hqueues⟩, rfl⟩
  refine hadd.bind fun a b hab => ?_
  obtain ⟨⟨queues', rfl, hqueues'⟩, hsame⟩ := hab
  exact ⟨rfl, ⟨queues', rfl, hqueues'⟩, hsame⟩

theorem blockByMessage_alike (h : Alike s t) (p : Int) :
    Coupled Alike (blockByMessage s p) (blockByMessage t p) := by
  obtain ⟨queues, rfl, hqueues⟩ := h
  have hsame : Alike s { s with queues := queues } := ⟨queues, rfl, hqueues⟩
  unfold blockByMessage
  refine .front _ fun _ => ?_
  dsimp only
  exact .ite (fun _ => queueDel_alike (hsame.update p _) p) fun _ => hsame.update p _

theorem messageResume_alike (h : Alike s t) (p : Int) :
    Alike (messageResume s p) (messageResume t p) := by
  obtain ⟨queues, rfl, hqueues⟩ := h
  unfold messageResume
  dsimp only
  split
  · exact ⟨queues, rfl, hqueues⟩
  · exact ⟨queues, rfl, hqueues⟩

/-! ## The primitives of process.c -/

theorem processTableRegister_alike (h : Alike s t) :
    Coupled (fun a b => b.1 = a.1 ∧ Alike a.2 b.2) (processTableRegister s)
      (processTableRegister t) := by
  obtain ⟨queues, rfl, hqueues⟩ := h
  exact .front _ fun taken => ⟨rfl, queues, rfl, hqueues⟩

theorem startReady_alike (h : Alike s t) (father pid priority : Int) :
    Coupled Alike (start.startReady s father pid priority)
      (start.startReady t father pid priority) := by
  unfold start.startReady
  refine (queueAdd_alike (h.update pid _) pid).bind fun a b hab => ?_
  obtain ⟨queues, rfl, hqueues⟩ := hab
  exact .ite (fun _ => ⟨queues, rfl, hqueues⟩) fun _ => ⟨queues, rfl, hqueues⟩

theorem startStacks_alike (h : Alike s t) (father pid priority : Int) (stackSize : Nat) :
    Coupled Alike (start.startStacks mem s father pid priority stackSize)
      (start.startStacks mem t father pid priority stackSize) := by
  obtain ⟨queues, rfl, hqueues⟩ := h
  have hsame : Alike s { s with queues := queues } := ⟨queues, rfl, hqueues⟩
  unfold start.startStacks
  refine .ite (fun _ => ?_) fun _ => ?_
  · dsimp only
    refine (processTableUnregister_alike (hsame.update pid _) pid).bind fun a b hab => ?_
    exact (hab.record _).ret _
  · dsimp only
    set kernel := s.kernelBlocks.allocate kernelStackSize with hkernel
    have hkernel' : Alike
        ({ s with kernelBlocks := kernel.2 }.update pid
          fun p => { p with kernelStack := some kernel.1 })
        ({ s with queues := queues, kernelBlocks := kernel.2 }.update pid
          fun p => { p with kernelStack := some kernel.1 }) := ⟨queues, rfl, hqueues⟩
    refine .ite (fun _ => .front _ fun _ => .ite (fun _ => ?_) fun _ => ?_)
      fun _ => .front _ fun _ => startReady_alike (hkernel'.update pid _) father pid priority
    · refine (processTableUnregister_alike ((hkernel'.update pid _).update pid _) pid).bind
        fun a b hab => ?_
      refine (kernelStackFree_alike hab _).bind fun a b hab => (hab.record _).ret _
    · refine .front _ fun _ => ?_
      refine (processChildListAddHead_alike ?_ father pid).bind
        fun a b hab => startReady_alike hab father pid priority
      exact ⟨queues, rfl, hqueues⟩

theorem start_alike (h : Alike s t) (stackSize : Nat) (priority : Int)
    (name : Option UserString) :
    Coupled Alike (start mem s stackSize priority name)
      (start mem t stackSize priority name) := by
  obtain ⟨queues, rfl, hqueues⟩ := h
  have hsame : Alike s { s with queues := queues } := ⟨queues, rfl, hqueues⟩
  unfold start
  refine .ite (fun _ => hsame.ret _) fun _ => ?_
  refine (processTableRegister_alike hsame).bind ?_
  rintro ⟨pid, a⟩ ⟨pid', b⟩ ⟨hpid, queues, rfl, hqueues⟩
  obtain rfl : pid' = pid := hpid
  refine .front _ fun _ => startStacks_alike ?_ _ _ _ _
  cases name with
  | none => exact ⟨queues, rfl, hqueues⟩
  | some name => exact ⟨queues, rfl, hqueues⟩

theorem exit_alike (h : Alike s t) (retval : Int) :
    Coupled Alike (exit s retval) (exit t retval) := by
  unfold exit
  rw [h.getpid]
  refine (requestZombify_alike (h.update _ _) _).bind fun a b hab => ?_
  exact (hab.record _).callSchedule _

theorem kill_alike (h : Alike s t) (p : Int) : Coupled Alike (kill s p) (kill t p) := by
  obtain ⟨queues, rfl, hqueues⟩ := h
  have hsame : Alike s { s with queues := queues } := ⟨queues, rfl, hqueues⟩
  have hend : ∀ a b, Alike a b → Coupled Alike
      (requestZombify (a.update p fun p => { p with returnCode := 0 }) p >>= fun s =>
        (pure ((s.record (.terminated p 0)).callSchedule [.ret 0]) : Except Panic Kernel))
      (requestZombify (b.update p fun p => { p with returnCode := 0 }) p >>= fun s =>
        pure ((s.record (.terminated p 0)).callSchedule [.ret 0])) := fun a b hab =>
    (requestZombify_alike (hab.update p _) p).bind fun a b hab => (hab.record _).callSchedule _
  unfold kill
  refine .ite (fun _ => hsame.ret _) fun _ => .front _ fun process => ?_
  refine .ite (fun _ => hsame.ret _) fun _ => ?_
  refine .ite (fun _ => .front _ fun _ => ?_) fun _ => hend _ _ hsame
  exact hend _ _ ⟨queues, rfl, hqueues⟩

theorem scanChildren_alike (h : Alike s t) (children : List Int) (nbChilds : Nat) :
    scanChildren t children nbChilds = scanChildren s children nbChilds := by
  obtain ⟨queues, rfl, -⟩ := h
  induction children generalizing nbChilds with
  | nil => rfl
  | cons c rest ih =>
      unfold scanChildren
      simp only [ih]
      rfl

theorem waitpidReap_alike (h : Alike s t) (request child : Int) (retvalp : Destination) :
    Coupled Alike (waitpidReap s request child retvalp)
      (waitpidReap t request child retvalp) := by
  obtain ⟨queues, rfl, hqueues⟩ := h
  have hsame : Alike s { s with queues := queues } := ⟨queues, rfl, hqueues⟩
  unfold waitpidReap
  dsimp only
  refine (requestDestroy_alike (hsame.store retvalp _) child).bind fun a b hab => ?_
  exact (hab.record _).ret _

theorem waitpid_alike (h : Alike s t) (p : Int) (retvalp : Destination) :
    Coupled Alike (waitpid s p retvalp) (waitpid t p retvalp) := by
  have hscan := scanChildren_alike h
  obtain ⟨queues, rfl, hqueues⟩ := h
  have hsame : Alike s { s with queues := queues } := ⟨queues, rfl, hqueues⟩
  unfold waitpid
  refine .ite (fun _ => ?_) fun _ => .ite (fun _ => (hsame.record _).ret _)
    fun _ => .front _ fun process => ?_
  · rw [hscan]
    refine .front _ fun scanned => ?_
    obtain ⟨zombie, nbChilds⟩ := scanned
    cases zombie with
    | some child => exact waitpidReap_alike hsame _ _ _
    | none =>
        refine .ite (fun _ => ?_) fun _ => (hsame.record _).ret _
        exact ((hsame.update _ _).record _).callSchedule _
  · refine .ite (fun _ => (hsame.record _).ret _) fun _ =>
      .ite (fun _ => waitpidReap_alike hsame _ _ _) fun _ => ?_
    exact ((hsame.update _ _).record _).callSchedule _

theorem waitpidAnyResume_alike (h : Alike s t) (request : Int) (retvalp : Destination) :
    Coupled Alike (waitpidAnyResume s request retvalp)
      (waitpidAnyResume t request retvalp) := by
  obtain ⟨queues, rfl, hqueues⟩ := h
  refine .front _ fun process => .front _ fun _ => waitpidReap_alike ?_ _ _ _
  exact ⟨queues, rfl, hqueues⟩

theorem waitClock_alike (h : Alike s t) (clock : Nat) :
    Coupled Alike (waitClock s clock) (waitClock t clock) := by
  obtain ⟨queues, rfl, hqueues⟩ := h
  refine .ite (fun _ => .front _ fun pidsWaiting => ?_) fun _ => ⟨queues, rfl, hqueues⟩
  exact ⟨queues, rfl, hqueues⟩

theorem clockTickFrom_alike (h : Alike s t) (fuel i : Nat) (awaken : Bool) :
    Coupled (fun a b => b.1 = a.1 ∧ Alike a.2 b.2) (clockTickFrom fuel i awaken s)
      (clockTickFrom fuel i awaken t) := by
  induction fuel generalizing s t i awaken with
  | zero => exact ⟨rfl, h⟩
  | succ fuel ih =>
      obtain ⟨queues, rfl, hqueues⟩ := h
      have hsame : Alike s { s with queues := queues } := ⟨queues, rfl, hqueues⟩
      unfold clockTickFrom
      refine .ite (fun _ => .front _ fun process => ?_) fun _ => ⟨rfl, hsame⟩
      refine .ite (fun _ => ?_) fun _ => ih hsame _ _
      refine (queueAdd_alike ?_ _).bind fun a b hab => ih hab _ _
      exact ⟨queues, rfl, hqueues⟩

theorem clockTick_alike (h : Alike s t) : Coupled Alike (clockTick s) (clockTick t) := by
  have hwaiting : t.pidsWaiting = s.pidsWaiting := by
    obtain ⟨queues, rfl, -⟩ := h
    rfl
  unfold clockTick
  rw [hwaiting]
  refine (clockTickFrom_alike h _ _ _).bind ?_
  rintro ⟨awaken, a⟩ ⟨awaken', b⟩ ⟨hawaken, hab⟩
  obtain rfl : awaken' = awaken := hawaken
  exact .ite (fun _ => hab.callSchedule _) fun _ => hab

/-- The walk goes over both lists in the same way. -/
private theorem changePriorityFrom_twins {list list' : NodeList ProcessNodeContent}
    {before rest : List (NodeList.Twin ProcessNodeContent)} (p n : Int) (fuel : Nat)
    (h : list.Twins list' (before ++ rest)) :
    Coupled (fun a b => ∃ zs, a.Twins b zs ∧ zs.length ≤ (before ++ rest).length)
      (changePriorityFrom mem p n fuel
        (NodeList.firstRef (rest.map NodeList.Twin.left)) list)
      (changePriorityFrom mem p n fuel
        (NodeList.firstRef (rest.map NodeList.Twin.right)) list') := by
  induction fuel generalizing list list' before rest with
  | zero => exact ⟨_, h, le_rfl⟩
  | succ fuel ih =>
      cases rest with
      | nil => exact ⟨_, h, le_rfl⟩
      | cons z rest =>
          have hcontent : list.content? z.1.1 = some z.2 :=
            h.split.1.contents z.left (by simp)
          have hcontent' : list'.content? z.1.2 = some z.2 :=
            h.split.2.contents z.right (by simp)
          have hgo : ∀ (q q' : NodeList ProcessNodeContent)
              (zs : List (NodeList.Twin ProcessNodeContent)), q.Twins q' zs →
              zs.length ≤ (before ++ z :: rest).length → (∃ y ∈ zs, y.1 = z.1) →
              Coupled (fun a b => ∃ zs, a.Twins b zs ∧ zs.length ≤ (before ++ z :: rest).length)
                (changePriorityFrom mem p n fuel (q.next (some z.1.1)) q)
                (changePriorityFrom mem p n fuel (q'.next (some z.1.2)) q') := by
            intro q q' zs hq hlength hmem
            obtain ⟨y, hy, hyz⟩ := hmem
            obtain ⟨front, back, rfl⟩ := List.append_of_mem hy
            have hnext : q.next (some y.1.1) = _ := hq.split.1.around.2
            have hnext' : q'.next (some y.1.2) = _ := hq.split.2.around.2
            rw [← hyz, hnext, hnext']
            have happend : front ++ y :: back = front ++ [y] ++ back := by simp
            rw [happend] at hq hlength
            refine (ih hq).mono ?_
            rintro a b ⟨zs', htwins, hle⟩
            exact ⟨zs', htwins, hle.trans hlength⟩
          have hfirst : NodeList.firstRef ((z :: rest).map NodeList.Twin.left) =
            some z.1.1 := rfl
          have hfirst' : NodeList.firstRef ((z :: rest).map NodeList.Twin.right) =
            some z.1.2 := rfl
          rw [hfirst, hfirst']
          unfold changePriorityFrom
          rw [hcontent, hcontent', Option.any_some]
          refine .ite (fun hp => ?_) fun _ => hgo _ _ _ h le_rfl ⟨z, by simp, rfl⟩
          rcases removeWithPid_twins h p with ⟨-, -, hnone⟩ |
            ⟨front, y, back, r, r', hsplit, hremove, hremove', htwins, haddress⟩
          · have hfalse := hnone z (by simp)
            unfold isOf at hfalse
            rw [hfalse] at hp
            cases hp
          · rw [hremove, hremove']
            have hlength := congrArg List.length hsplit
            have hz : z ∈ front ++ y :: back := by
              rw [← hsplit]
              simp
            have hadd := htwins.addBehind (stands n) { y.2 with priority := n }
            have hcut : (front ++ back).rdropWhile (fun z => !stands n z.2) ++
              (front ++ back).rtakeWhile (fun z => !stands n z.2) = front ++ back :=
                List.rdropWhile_append_rtakeWhile
            rw [haddress] at hadd
            have hplace : Coupled
                (fun a b => a = r.addBehind (stands n) { y.2 with priority := n } ∧
                  b = r'.addBehind (stands n) { y.2 with priority := n })
                (processQueueAddOnPriority mem r { y.2 with priority := n })
                (processQueueAddOnPriority mem r' { y.2 with priority := n }) :=
              .front _ fun _ => ⟨rfl, rfl⟩
            refine hplace.bind ?_
            rintro _ _ ⟨rfl, rfl⟩
            refine hgo _ _ _ hadd ?_ ?_
            · rw [hlength, List.length_append, List.length_cons, ← Nat.add_assoc,
                ← List.length_append, hcut, List.length_append, List.length_append,
                List.length_cons]
              exact le_rfl
            · rw [List.mem_append, List.mem_cons, or_left_comm, ← List.mem_append,
                ← hcut, List.mem_append] at hz
              rcases hz with rfl | hz | hz
              · exact ⟨_, List.mem_append_right _ List.mem_cons_self, rfl⟩
              · exact ⟨z, List.mem_append_left _ hz, rfl⟩
              · exact ⟨z, List.mem_append_right _ (List.mem_cons_of_mem _ hz), rfl⟩

theorem notifyPriorityChanged_alike (h : Alike s t) (p n : Int) :
    Coupled Alike (messageQueuesNotifyPriorityChanged mem s p n)
      (messageQueuesNotifyPriorityChanged mem t p n) := by
  unfold messageQueuesNotifyPriorityChanged
  refine visited_alike h fun list list' zs htwins => ?_
  have hsize : list'.size = list.size := by
    rw [htwins.left.size, htwins.right.size, List.length_map, List.length_map]
  rw [hsize, htwins.left.first_eq, htwins.right.first_eq]
  have hnil : list.Twins list' ([] ++ zs) := htwins
  exact changePriorityFrom_twins p n _ hnil

/-- The end of `chprio`. -/
private def chprioReturn (p newprio oldprio : Int) (s : Kernel) : Except Panic Kernel :=
  if s.running.priority < newprio then return s.callSchedule [.ret oldprio]
  else if s.getpid = p then do
    let next ← demand (queueTop s) .nullDereference
    if newprio < (s.data next).priority then return s.callSchedule [.ret oldprio]
    else return s.ret oldprio
  else return s.ret oldprio

private theorem chprioReturn_alike (h : Alike s t) (p newprio oldprio : Int) :
    Coupled Alike (chprioReturn p newprio oldprio s) (chprioReturn p newprio oldprio t) := by
  obtain ⟨queues, rfl, hqueues⟩ := h
  have hsame : Alike s { s with queues := queues } := ⟨queues, rfl, hqueues⟩
  refine .ite (fun _ => hsame.callSchedule _) fun _ => .ite (fun _ => .front _ fun next => ?_)
    fun _ => hsame.ret _
  exact .ite (fun _ => hsame.callSchedule _) fun _ => hsame.ret _

theorem chprio_alike (h : Alike s t) (p newprio : Int) :
    Coupled Alike (chprio mem s p newprio) (chprio mem t p newprio) := by
  obtain ⟨queues, rfl, hqueues⟩ := h
  have hsame : Alike s { s with queues := queues } := ⟨queues, rfl, hqueues⟩
  have hend : ∀ (a b : Kernel) (process : Process), Alike a b → Coupled Alike
      (if a.getpid ≠ p ∧ process.state.isBlocked = false then
        queueDel a p >>= fun s => queueAdd s p >>= chprioReturn p newprio process.priority
        else chprioReturn p newprio process.priority a)
      (if b.getpid ≠ p ∧ process.state.isBlocked = false then
        queueDel b p >>= fun s => queueAdd s p >>= chprioReturn p newprio process.priority
        else chprioReturn p newprio process.priority b) := by
    intro a b process hab
    rw [hab.getpid]
    refine .ite (fun _ => ?_) fun _ => chprioReturn_alike hab p newprio _
    refine (queueDel_alike hab p).bind fun a b hab => ?_
    exact (queueAdd_alike hab p).bind fun a b hab => chprioReturn_alike hab p newprio _
  unfold chprio
  refine .ite (fun _ => hsame.ret _) fun _ => .ite (fun _ => hsame.ret _) fun _ => ?_
  refine .front _ fun process => .ite (fun _ => hsame.ret _) fun _ => ?_
  dsimp only
  refine .ite (fun _ => ?_) fun _ => hend _ _ process (hsame.update p _)
  exact (notifyPriorityChanged_alike (hsame.update p _) p newprio).bind
    fun a b hab => hend a b process hab

end SchlagOS
