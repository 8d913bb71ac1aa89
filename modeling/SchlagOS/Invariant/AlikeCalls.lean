import SchlagOS.Invariant.Alike
import SchlagOS.Kernel.Machine

/-!
# The message calls on queues that are alike

The message queue primitives, the console's calls and with them every step of
the machine do the same on two kernels whose queues are alike.
-/

namespace SchlagOS

open Foundation

variable {s t : Kernel} {queue queue' : MessageQueue} {mem : Memory}

/-! ## message_queue.c -/

theorem AlikeQueue.of_live (hlive : Live queue) (hlive' : Live queue')
    (hallocated : queue.allocated = true) (hallocated' : queue'.allocated = true)
    (hsize : queue'.size = queue.size) (hmessages : queue'.messages = queue.messages)
    (hwaiters : queue'.waiters = queue.waiters) : AlikeQueue queue queue' where
  allocated := hallocated'.trans hallocated.symm
  size := hsize
  messages := hmessages
  waiters := hwaiters
  live _ := ⟨hlive, hlive'⟩
  idle hfalse := by
    rw [hallocated] at hfalse
    cases hfalse

/-- A live queue with neither messages nor waiting processes. -/
structure Fresh (size : Nat) (queue : MessageQueue) : Prop where
  live : Live queue
  allocated : queue.allocated = true
  size_eq : queue.size = size
  messages : queue.messages = []
  waiters : queue.waiters = []

theorem Fresh.alike {size : Nat} (h : Fresh size queue) (h' : Fresh size queue') :
    AlikeQueue queue queue' :=
  .of_live h.live h'.live h.allocated h'.allocated (h'.size_eq.trans h.size_eq.symm)
    (h'.messages.trans h.messages.symm) (h'.waiters.trans h.waiters.symm)

theorem Alike.isLive (h : Alike s t) (fid : Int) : isLive t fid = isLive s fid := by
  obtain ⟨queues, rfl, hqueues⟩ := h
  unfold SchlagOS.isLive
  simp only [(hqueues.alike fid).allocated]

theorem allocated_of_isLive {fid : Int} (h : ¬isLive s fid = false) :
    (s.queues fid).allocated = true := by
  unfold isLive at h
  simp only [decide_eq_false_iff_not, not_not] at h
  exact h.2.2

theorem AlikeQueue.pcountValue (h : AlikeQueue queue queue')
    (hallocated : queue.allocated = true) : pcountValue queue' = pcountValue queue := by
  unfold SchlagOS.pcountValue
  rw [h.nbMessages, h.list_size hallocated]

theorem pcount_alike (h : Alike s t) (fid : Int) (count : Destination) :
    Alike (pcount s fid count) (pcount t fid count) := by
  unfold pcount
  rw [h.isLive fid]
  by_cases hlive : isLive s fid = false
  · rw [if_pos hlive, if_pos hlive]
    exact h.ret _
  · rw [if_neg hlive, if_neg hlive]
    have hallocated := allocated_of_isLive hlive
    obtain ⟨queues, rfl, hqueues⟩ := h
    have hsame : Alike s { s with queues := queues } := ⟨queues, rfl, hqueues⟩
    dsimp only
    rw [(hqueues.alike fid).pcountValue hallocated]
    exact (hsame.store count _).ret 0

/-- Waking the first process of a list. -/
private theorem awakeBehind_alike {a b : Kernel} (h : Alike a b) (p : Int) :
    Coupled Alike
      (awake a p >>= fun result =>
        if result.1 then (pure (result.2.callSchedule [.ret 0]) : Except Panic Kernel)
        else pure (result.2.ret 0))
      (awake b p >>= fun result =>
        if result.1 then (pure (result.2.callSchedule [.ret 0]) : Except Panic Kernel)
        else pure (result.2.ret 0)) := by
  refine (awake_alike h p).bind ?_
  rintro ⟨higher, a⟩ ⟨higher', b⟩ ⟨hhigher, hab, -⟩
  obtain rfl : higher' = higher := hhigher
  exact .ite (fun _ => hab.callSchedule _) fun _ => hab.ret _

private theorem blockBehind_alike {a b : Kernel} (h : Alike a b) (p : Int)
    (event : HistoryEvent) (frame : Frame) :
    Coupled Alike
      (blockByMessage a p >>= fun s =>
        (pure ((s.record event).callSchedule [frame]) : Except Panic Kernel))
      (blockByMessage b p >>= fun s => pure ((s.record event).callSchedule [frame])) :=
  (blockByMessage_alike h p).bind fun _ _ hab => (hab.record event).callSchedule _

private theorem addOnPriority_coupled {list list' : NodeList ProcessNodeContent}
    {xs : List ProcessNodeContent} (h : list.Holds xs) (h' : list'.Holds xs)
    (content : ProcessNodeContent) :
    Coupled (fun a b => a.Holds (NodeList.place (stands content.priority) content xs) ∧
        b.Holds (NodeList.place (stands content.priority) content xs))
      (processQueueAddOnPriority mem list content)
      (processQueueAddOnPriority mem list' content) :=
  .front _ fun _ => ⟨h.addBehind _ content, h'.addBehind _ content⟩

theorem psend_alike (h : Alike s t) (fid message : Int) :
    Coupled Alike (psend mem s fid message) (psend mem t fid message) := by
  unfold psend
  refine .branch (by rw [h.isLive]) (fun _ => h.ret _) fun hlive => ?_
  have hallocated := allocated_of_isLive hlive
  rw [h.getpid]
  obtain ⟨queues, rfl, hqueues⟩ := h
  have hsame : Alike s { s with queues := queues } := ⟨queues, rfl, hqueues⟩
  have hqueue := hqueues.alike fid
  obtain ⟨hlive, hlive'⟩ := hqueue.live hallocated
  have hallocated' := hqueue.allocated.trans hallocated
  have hnb := hqueue.nbMessages
  have hsize := hqueue.list_size hallocated
  have hlist' := hlive'.list
  rw [hqueue.waiters] at hlist'
  dsimp only
  refine .branch (by rw [hnb, hsize]) (fun hwaits => ?_) fun hnot =>
    .branch (by rw [hnb, hqueue.size]) (fun hfull => ?_) fun hspace => ?_
  · cases hwaiters : (s.queues fid).waiters with
    | nil => exact absurd hwaiters (hlive.waiters_pos.mp hwaits.2)
    | cons node rest =>
        obtain ⟨list, hremove, hlist⟩ := hlive.removeFirst hwaiters
        obtain ⟨list', hremove', hlist'⟩ := hlive'.removeFirst (hqueue.waiters.trans hwaiters)
        rw [hremove, hremove', ok_bind, ok_bind]
        have hset := hsame.setQueue fid (hqueue.withList hallocated hlist hlist'
          fun _ => .inl hwaits.1) rfl
        exact awakeBehind_alike ((hset.store _ _).record _) _
  · refine .front _ fun priority => ?_
    refine (addOnPriority_coupled hlive.list hlist' _).bind fun list list' hlists => ?_
    have hset := hsame.setQueue fid (hqueue.withList hallocated hlists.1 hlists.2
      fun _ => .inr hfull) rfl
    exact blockBehind_alike hset _ _ _
  · have hnil : (s.queues fid).waiters = [] := by
      by_contra hne
      rcases hlive.level hne with hlevel | hlevel
      · exact hnot ⟨hlevel, hlive.waiters_pos.mpr hne⟩
      · exact hspace hlevel
    have hle := hlive.nbMessages_le
    obtain ⟨queue₁, hregister, hlive₁, hmessages₁, -, hwaiters₁, hsize₁, hallocated₁⟩ :=
      hlive.register (by omega) hnil message
    obtain ⟨queue₂, hregister', hlive₂, hmessages₂, -, hwaiters₂, hsize₂, hallocated₂⟩ :=
      hlive'.register (by rw [hnb, hqueue.size]; omega) (hqueue.waiters.trans hnil) message
    rw [hregister, hregister', ok_bind, ok_bind]
    refine ((hsame.setQueue fid (.of_live hlive₁ hlive₂ ?_ ?_ ?_ ?_ ?_) hallocated₁).record _).ret _
    · exact hallocated₁.trans hallocated
    · exact hallocated₂.trans hallocated'
    · rw [hsize₁, hsize₂, hqueue.size]
    · rw [hmessages₁, hmessages₂, hqueue.messages]
    · rw [hwaiters₁, hwaiters₂]

theorem preceive_alike (h : Alike s t) (fid : Int) (destination : Destination) :
    Coupled Alike (preceive mem s fid destination) (preceive mem t fid destination) := by
  unfold preceive
  refine .branch (by rw [h.isLive]) (fun _ => h.ret _) fun hlive => ?_
  have hallocated := allocated_of_isLive hlive
  rw [h.getpid]
  obtain ⟨queues, rfl, hqueues⟩ := h
  have hsame : Alike s { s with queues := queues } := ⟨queues, rfl, hqueues⟩
  have hqueue := hqueues.alike fid
  obtain ⟨hlive, hlive'⟩ := hqueue.live hallocated
  have hallocated' := hqueue.allocated.trans hallocated
  have hnb := hqueue.nbMessages
  have hsize := hqueue.list_size hallocated
  have hlist' := hlive'.list
  rw [hqueue.waiters] at hlist'
  dsimp only
  refine .branch (by rw [hnb, hsize, hqueue.size]) (fun hwaits => ?_) fun hnot =>
    .branch (by rw [hnb]) (fun hempty => ?_) fun hsome => ?_
  · cases hwaiters : (s.queues fid).waiters with
    | nil => exact absurd hwaiters (hlive.waiters_pos.mp hwaits.2)
    | cons node rest =>
        obtain ⟨message, messages, queue₁, list, queue₂, hunregister, hremove, hregister, hlive₂,
          hmessages, hmessages₂, hwaiters₂, -, hallocated₂, hsize₂⟩ := hlive.swap hwaits.1 hwaiters
        obtain ⟨message', messages', queue₁', list', queue₂', hunregister', hremove', hregister',
          hlive₂', hmessages', hmessages₂', hwaiters₂', -, hallocated₂', hsize₂'⟩ :=
          hlive'.swap (by rw [hnb, hqueue.size, hwaits.1]) (hqueue.waiters.trans hwaiters)
        rw [hqueue.messages, hmessages, List.cons.injEq] at hmessages'
        obtain ⟨rfl, rfl⟩ := hmessages'
        simp only [hunregister, hunregister', hremove, hremove', hregister, hregister', ok_bind]
        have hset := hsame.setQueue fid (.of_live hlive₂ hlive₂' (hallocated₂.trans hallocated)
          (hallocated₂'.trans hallocated') (by rw [hsize₂, hsize₂', hqueue.size])
          (by rw [hmessages₂, hmessages₂']) (by rw [hwaiters₂, hwaiters₂'])) hallocated₂
        exact awakeBehind_alike (((hset.record _).record _).store _ _) _
  · refine .front _ fun priority => ?_
    refine (addOnPriority_coupled hlive.list hlist' _).bind fun list list' hlists => ?_
    have hset := hsame.setQueue fid (hqueue.withList hallocated hlists.1 hlists.2
      fun _ => .inl hempty) rfl
    exact blockBehind_alike hset _ _ _
  · have hnil : (s.queues fid).waiters = [] := by
      by_contra hne
      rcases hlive.level hne with hlevel | hlevel
      · exact hsome hlevel
      · exact hnot ⟨hlevel, hlive.waiters_pos.mpr hne⟩
    obtain ⟨message, queue₁, hunregister, hlive₁, hmessages, -, hwaiters₁, hsize₁,
      hallocated₁⟩ := hlive.unregister hsome hnil
    obtain ⟨message', queue₂, hunregister', hlive₂, hmessages', -, hwaiters₂, hsize₂,
      hallocated₂⟩ := hlive'.unregister (by rwa [hnb]) (hqueue.waiters.trans hnil)
    rw [hqueue.messages, hmessages, List.cons.injEq] at hmessages'
    obtain ⟨rfl, hmessages'⟩ := hmessages'
    rw [hunregister, hunregister', ok_bind, ok_bind]
    have hset := hsame.setQueue fid (.of_live hlive₁ hlive₂ (hallocated₁.trans hallocated)
      (hallocated₂.trans hallocated') (by rw [hsize₁, hsize₂, hqueue.size]) hmessages'.symm
      (by rw [hwaiters₁, hwaiters₂])) hallocated₁
    exact ((hset.record _).store _ _).ret _

theorem releaseAll_alike {nodes : List ProcessNodeContent} {fid : Int} (h : Alike s t)
    (hallocated : (s.queues fid).allocated = true) (hnodes : (s.queues fid).waiters = nodes)
    (needSchedule : Bool) :
    Coupled (fun a b => b.1 = a.1 ∧ Alike a.2 b.2 ∧ (a.2.queues fid).allocated = true ∧
        (a.2.queues fid).size = (s.queues fid).size ∧ (a.2.queues fid).waiters = [])
      (releaseAll fid nodes.length needSchedule s)
      (releaseAll fid nodes.length needSchedule t) := by
  induction nodes generalizing s t needSchedule with
  | nil => exact ⟨rfl, h, hallocated, rfl, hnodes⟩
  | cons node rest ih =>
      obtain ⟨queues, rfl, hqueues⟩ := h
      have hsame : Alike s { s with queues := queues } := ⟨queues, rfl, hqueues⟩
      have hqueue := hqueues.alike fid
      obtain ⟨hlive, hlive'⟩ := hqueue.live hallocated
      have hsize := hqueue.list_size hallocated
      obtain ⟨list, hremove, hlist⟩ := hlive.removeFirst hnodes
      obtain ⟨list', hremove', hlist'⟩ := hlive'.removeFirst (hqueue.waiters.trans hnodes)
      unfold releaseAll
      refine .branch (by rw [hsize]) (fun _ => ?_) fun hzero => ?_
      · dsimp only
        rw [hremove, hremove', ok_bind, ok_bind]
        have hset := hsame.setQueue fid (hqueue.withList hallocated hlist hlist' fun _ =>
          hlive.level (by simp [hnodes])) rfl
        refine (awake_alike (hset.store node.destination (-1)) node.pid).bind ?_
        rintro ⟨higher, a⟩ ⟨higher', b⟩ ⟨hhigher, hab, hkeep⟩
        obtain rfl : higher' = higher := hhigher
        have hkept : a.queues fid = { s.queues fid with lockedProcesses := list } := by
          dsimp only at hkeep
          rw [hkeep]
          cases node.destination <;> exact Function.update_self _ _ _
        have hsize' : (a.queues fid).size = (s.queues fid).size := by rw [hkept]
        rw [← hsize']
        refine ih (hab.setRelease _ true) ?_ ?_ _
        · dsimp only
          rw [hkept]
          exact hallocated
        · dsimp only
          rw [hkept]
          exact hlist.toList_eq
      · exact absurd (hlive.waiters_pos.mpr (by simp [hnodes])) hzero

theorem messageQueueReset_alike (h : Alike s t) (fid : Int) :
    Coupled (fun a b => b.1 = a.1 ∧ b.2.1 = a.2.1 ∧ Alike a.2.2 b.2.2 ∧
        (a.1 < 0 ∧ isLive s fid = false ∨
          (0 ≤ fid ∧ fid < nbQueue) ∧ Fresh (s.queues fid).size (a.2.2.queues fid)))
      (messageQueueReset s fid) (messageQueueReset t fid) := by
  unfold messageQueueReset
  refine .branch (by rw [h.isLive])
    (fun hdead => ⟨rfl, rfl, h, .inl ⟨Int.negSucc_lt_zero 0, hdead⟩⟩) fun hlive => ?_
  have hallocated := allocated_of_isLive hlive
  have hrange : 0 ≤ fid ∧ fid < nbQueue := by
    unfold isLive at hlive
    simp only [decide_eq_false_iff_not, not_not] at hlive
    exact ⟨hlive.1, hlive.2.1⟩
  have hqueue : AlikeQueue (s.queues fid) (t.queues fid) := by
    obtain ⟨queues, rfl, hqueues⟩ := h
    exact hqueues.alike fid
  have hlength : (s.queues fid).lockedProcesses.size = (s.queues fid).waiters.length :=
    (hqueue.live hallocated).1.list.size_eq
  rw [hqueue.list_size hallocated, hlength]
  refine (releaseAll_alike h hallocated rfl false).bind ?_
  rintro ⟨needSchedule, a⟩ ⟨needSchedule', b⟩
    ⟨hneed, ⟨queues, rfl, hqueues⟩, halive, hsize, hnil⟩
  obtain rfl : needSchedule' = needSchedule := hneed
  have hsame : Alike a { a with queues := queues } := ⟨queues, rfl, hqueues⟩
  have hqueue' := hqueues.alike fid
  obtain ⟨hleft, hright⟩ := hqueue'.live halive
  dsimp only at halive hsize hnil ⊢
  have hcoupled : Coupled (fun queue queue' => AlikeQueue queue queue' ∧
      Fresh (s.queues fid).size queue) (dropMessages (a.queues fid).nbMessages (a.queues fid))
      (dropMessages (queues fid).nbMessages (queues fid)) := by
    refine Coupled.of_meets (dropMessages_meets hleft hnil)
      (dropMessages_meets hright (hqueue'.waiters.trans hnil)) ?_ (fun _ _ h => h.elim)
      (fun _ _ _ h => h) fun _ _ h => h.elim
    rintro queue queue' ⟨hlive₁, hmessages₁, hwaiters₁, hsize₁, hallocated₁⟩
      ⟨hlive₂, hmessages₂, hwaiters₂, hsize₂, hallocated₂⟩
    refine ⟨.of_live hlive₁ hlive₂ (hallocated₁.trans halive)
      (hallocated₂.trans (hqueue'.allocated.trans halive)) ?_ ?_ ?_,
      ⟨hlive₁, hallocated₁.trans halive, hsize₁.trans hsize, hmessages₁, hwaiters₁⟩⟩
    · rw [hsize₁, hsize₂, hqueue'.size]
    · rw [hmessages₁, hmessages₂]
    · rw [hwaiters₁, hwaiters₂]
  refine hcoupled.bind fun queue queue' hab => ⟨rfl, rfl, ?_, .inr ⟨hrange, ?_⟩⟩
  · exact (hsame.setQueue fid hab.1 (hab.2.allocated.trans halive.symm)).record _
  · have hupdated : Fresh (s.queues fid).size (Function.update a.queues fid queue fid) := by
      rw [Function.update_self]
      exact hab.2
    exact hupdated

theorem preset_alike (h : Alike s t) (fid : Int) :
    Coupled (fun a b => Alike a b ∧
        (isLive s fid = true → Fresh (s.queues fid).size (a.queues fid)))
      (preset s fid) (preset t fid) := by
  unfold preset
  refine (messageQueueReset_alike h fid).bind ?_
  rintro ⟨result, need, a⟩ ⟨result', need', b⟩ ⟨hresult, hneed, hab, hfresh⟩
  obtain rfl : result' = result := hresult
  obtain rfl : need' = need := hneed
  have hlive : isLive s fid = true → Fresh (s.queues fid).size (a.queues fid) := by
    intro hlive
    rcases hfresh with ⟨-, hdead⟩ | ⟨-, hfresh⟩
    · rw [hlive] at hdead
      cases hdead
    · exact hfresh
  exact .ite (fun _ => ⟨hab.callSchedule _, hlive⟩) fun _ => ⟨hab.ret _, hlive⟩

/-- A queue that is deleted, and its fid. -/
private theorem deleteQueue_alike (h : Alike s t) {fid : Int}
    (hrange : 0 ≤ fid ∧ fid < nbQueue) (hallocated : (s.queues fid).allocated = true) :
    Coupled Alike (messageQueueTableUnregister (setQueue s fid emptyMessageQueue) fid)
      (messageQueueTableUnregister (setQueue t fid emptyMessageQueue) fid) := by
  obtain ⟨queues, rfl, hqueues⟩ := h
  obtain ⟨fids, hpush, -, hpool⟩ := hqueues.pool.pushFid hrange hallocated
  unfold messageQueueTableUnregister setQueue
  dsimp only
  rw [hpush, demand_some, ok_bind, ok_bind]
  have hempty : AlikeQueue emptyMessageQueue emptyMessageQueue :=
    .refl (fun hfalse => by cases hfalse) fun _ => idle_emptyMessageQueue
  exact ⟨_, rfl, update_alike hqueues.alike fid hempty, hpool⟩

theorem pdelete_alike (h : Alike s t) (fid : Int) :
    Coupled Alike (pdelete s fid) (pdelete t fid) := by
  unfold pdelete
  refine (messageQueueReset_alike h fid).bind ?_
  rintro ⟨result, need, a⟩ ⟨result', need', b⟩ ⟨hresult, hneed, hab, hlive⟩
  obtain rfl : result' = result := hresult
  obtain rfl : need' = need := hneed
  refine .ite (fun _ => hab.ret _) fun hresult => ?_
  obtain ⟨hrange, hfresh⟩ := hlive.resolve_left fun hdead => hresult hdead.1
  refine (deleteQueue_alike hab hrange hfresh.allocated).bind fun a b hab => ?_
  exact .ite (fun _ => (hab.record _).callSchedule _) fun _ => (hab.record _).ret _

theorem pcreate_alike (h : Alike s t) (count : Int) :
    Coupled (fun a b => Alike a b ∧ (0 ≤ a.eax → Fresh count.toNat (a.queues a.eax)))
      (pcreate mem s count) (pcreate mem t count) := by
  obtain ⟨queues, rfl, hqueues⟩ := h
  have hsame : Alike s { s with queues := queues } := ⟨queues, rfl, hqueues⟩
  have hminus : ∀ a : Kernel, 0 ≤ (a.ret (-1)).eax →
      Fresh count.toNat ((a.ret (-1)).queues (a.ret (-1)).eax) := fun a hle =>
    absurd hle (Int.not_le.mpr (Int.negSucc_lt_zero 0))
  unfold pcreate
  refine .ite (fun _ => ⟨hsame.ret _, hminus _⟩) fun hrange => ?_
  obtain ⟨fid, fids, hpop, hfree, -, hpool, hpool'⟩ := hqueues.pool.popFid (by omega)
  obtain ⟨hidle, hslot⟩ := (hqueues.alike fid).idle hfree.2
  set s₁ := { s with fids := fids, nbQueues := s.nbQueues + 1 } with hs₁
  have hregister : messageQueueTableRegister s = .ok (fid, s₁) := by
    unfold messageQueueTableRegister
    rw [hpop]
    rfl
  have hregister' : messageQueueTableRegister { s with queues := queues } =
      .ok (fid, { s₁ with queues := queues }) := by
    unfold messageQueueTableRegister
    dsimp only
    rw [hpop]
    rfl
  rw [hregister, hregister', ok_bind, ok_bind]
  dsimp only
  have hslot₁ : s₁.queues fid = s.queues fid := rfl
  rw [hslot, hslot₁]
  refine .ite (fun _ => ?_) fun _ => .front _ fun _ => ?_
  · have hself : { s.queues fid with allocated := false } = s.queues fid := by
      rw [← hfree.2]
    obtain ⟨fids', hpush, -, hpool₂⟩ := hpool.push (fun hand => hand.2 rfl) (by omega)
    have hkept : setQueue s₁ fid (s.queues fid) = s₁ := by
      unfold setQueue
      rw [← hslot₁, Function.update_eq_self]
    have hkept' : setQueue { s₁ with queues := queues } fid (s.queues fid) =
        { s₁ with queues := queues } := by
      unfold setQueue
      rw [← hslot, Function.update_eq_self]
    rw [hself, hkept, hkept']
    unfold messageQueueTableUnregister
    dsimp only
    rw [hs₁, hpush, demand_some, ok_bind, ok_bind]
    refine ⟨⟨queues, rfl, hqueues.alike, hpool₂.congr fun x => ?_⟩, hminus _⟩
    by_cases hx : x = fid
    · rw [hx]
      exact iff_of_true hfree (.inr rfl)
    · exact ⟨fun hfree => .inl ⟨hfree, hx⟩, fun hor => (hor.resolve_right hx).1⟩
  · have hlive := Live.created hidle count.toNat (by omega) fun _ => 0
    set queue : MessageQueue := { s.queues fid with
      allocated := true
      ring := { (s.queues fid).ring with buffer := fun _ => 0 }
      size := count.toNat
      lockedProcesses := .empty } with hqueue
    have hmessages : queue.messages = [] := by
      rw [← List.length_eq_zero_iff, length_messages]
      exact hidle.nbMessages
    have hfresh : Fresh count.toNat queue :=
      ⟨hlive, rfl, rfl, hmessages, NodeList.empty_holds.toList_eq⟩
    refine ⟨⟨_, rfl, update_alike hqueues.alike fid (hfresh.alike hfresh), hpool' _ rfl⟩,
      fun _ => ?_⟩
    have hupdated : Fresh count.toNat (Function.update s.queues fid queue fid) := by
      rw [Function.update_self]
      exact hfresh
    exact hupdated

/-! ## kbd.c, console.c and timer.c -/

theorem Alike.push (h : Alike s t) (frames : List Frame) :
    Alike { s with control := frames ++ s.control } { t with control := frames ++ t.control } := by
  obtain ⟨queues, rfl, hqueues⟩ := h
  exact ⟨queues, rfl, hqueues⟩

theorem keyboardData_alike (h : Alike s t) (str : List Int) :
    Coupled Alike (keyboardData mem s str) (keyboardData mem t str) := by
  cases str with
  | nil => exact h
  | cons c rest =>
      have hlive := h.isLive s.stdinFid
      have hpush := h.push [.keyboardSent rest]
      obtain ⟨queues, rfl, hqueues⟩ := h
      have hsame : Alike s { s with queues := queues } := ⟨queues, rfl, hqueues⟩
      unfold keyboardData
      dsimp only
      rw [hlive]
      by_cases halive : isLive s s.stdinFid = true
      · have hnot : ¬isLive s s.stdinFid = false := by simp [halive]
        have hallocated := allocated_of_isLive hnot
        refine .front _ fun _ => .branch (by rw [(hqueues.alike s.stdinFid).pcountValue hallocated])
          (fun _ => hsame) fun _ => psend_alike hpush _ c
      · unfold require
        rw [if_neg halive]
        exact .error _

theorem consReceived_alike (h : Alike s t) (str : Int) (length index : Nat) :
    Coupled Alike (consReceived s str length index) (consReceived t str length index) := by
  obtain ⟨queues, rfl, hqueues⟩ := h
  have hsame : Alike s { s with queues := queues } := ⟨queues, rfl, hqueues⟩
  refine .front _ fun _ => .ite (fun _ => hsame.ret _) fun _ => .ite (fun _ => hsame.push [_])
    fun _ => .ite (fun _ => ?_) fun _ => hsame.push [_]
  exact ⟨queues, rfl, hqueues⟩

theorem consReadNext_alike (h : Alike s t) (str : Int) (length index : Nat) :
    Coupled Alike (consReadNext mem s str length index) (consReadNext mem t str length index) := by
  have hpush := h.push [.consReceived str length index]
  obtain ⟨queues, rfl, hqueues⟩ := h
  refine .ite (fun _ => preceive_alike hpush _ _) fun _ => ?_
  exact ⟨queues, rfl, hqueues⟩

/-! ## The machine -/

theorem syscallHandler_alike (h : Alike s t) (call : Call) :
    Coupled Alike (syscallHandler mem s call) (syscallHandler mem t call) := by
  cases call with
  | start program stackSize priority name =>
      exact .ite (fun _ => h.ret _) fun _ => start_alike h stackSize priority _
  | exit retval => exact exit_alike h retval
  | kill pid => exact kill_alike h pid
  | waitpid pid retvalp => exact .ite (fun _ => h.ret _) fun _ => waitpid_alike h pid _
  | getpid =>
      unfold syscallHandler
      rw [h.getpid]
      exact h.ret _
  | getprio pid =>
      obtain ⟨queues, rfl, hqueues⟩ := h
      exact .bind (.refl (S := Eq) (fun _ => rfl) (getprio s pid))
        fun a b hab => ⟨queues, by rw [hab]; rfl, hqueues⟩
  | chprio pid newprio => exact chprio_alike h pid newprio
  | waitClock clock => exact waitClock_alike h clock
  | currentClock =>
      obtain ⟨queues, rfl, hqueues⟩ := h
      exact ⟨queues, rfl, hqueues⟩
  | pcount fid count => exact .ite (fun _ => h.ret _) fun _ => pcount_alike h fid _
  | pcreate count => exact (pcreate_alike h count).mono fun _ _ hab => hab.1
  | pdelete fid => exact pdelete_alike h fid
  | preceive fid message => exact .ite (fun _ => h.ret _) fun _ => preceive_alike h fid _
  | preset fid => exact (preset_alike h fid).mono fun _ _ hab => hab.1
  | psend fid message => exact psend_alike h fid message
  | consRead str length =>
      refine .ite (fun _ => h.ret _) fun _ => .front _ fun _ => h.push [.consRead str length 0]
  | consEcho on =>
      obtain ⟨queues, rfl, hqueues⟩ := h
      exact ⟨queues, rfl, hqueues⟩
  | consWrite str size =>
      refine .ite (fun _ => h.ret _) fun _ => ?_
      obtain ⟨queues, rfl, hqueues⟩ := h
      exact ⟨queues, rfl, hqueues⟩
  | clockSettings quartz ticks =>
      exact .ite (fun _ => h.ret _) fun _ => ((h.store _ _).store _ _).ret 0

theorem kernelStep_alike (h : Alike s t) :
    Coupled Alike (kernelStep mem s) (kernelStep mem t) := by
  obtain ⟨queues, rfl, hqueues⟩ := h
  have hsame : Alike s { s with queues := queues } := ⟨queues, rfl, hqueues⟩
  unfold kernelStep
  dsimp only
  cases hcontrol : s.control with
  | nil => 
    rw [hcontrol] at hsame
    exact hsame
  | cons frame rest =>
      have hrest : Alike { s with control := rest }
        { s with control := rest, queues := queues } := ⟨queues, rfl, hqueues⟩
      cases frame with
      | schedule phase => 
        rw [hcontrol] at hsame
        exact scheduleStep_alike hsame phase rest
      | startReturn pid => exact hrest.ret _
      | exitLoop => 
        rw [hcontrol] at hsame
        exact hsame
      | ret value => exact hrest.ret _
      | waitpidAny pid retvalp => exact waitpidAnyResume_alike hrest pid retvalp
      | waitpidOne pid retvalp => exact waitpidReap_alike hrest pid pid retvalp
      | psendResume pid => exact messageResume_alike hrest pid
      | preceiveResume pid => exact messageResume_alike hrest pid
      | clockTick => exact clockTick_alike hrest
      | keyboardData str => exact keyboardData_alike hrest str
      | keyboardSent str => exact .front _ fun _ => hrest.push [.keyboardData str]
      | consRead str length index => exact consReadNext_alike hrest str length index
      | consReceived str length index => exact consReceived_alike hrest str length index

theorem exec_alike (h : Alike s t) (step : Step) :
    Coupled Alike (exec step s) (exec step t) := by
  obtain ⟨mem, event⟩ := step
  cases event with
  | init stackSize priority => exact start_alike h stackSize priority none
  | call call => exact syscallHandler_alike h call
  | tick =>
      obtain ⟨queues, rfl, hqueues⟩ := h
      change Alike (ticPit s) (ticPit { s with queues := queues })
      unfold ticPit
      dsimp only
      split
      · exact ⟨queues, rfl, hqueues⟩
      · exact ⟨queues, rfl, hqueues⟩
  | key str => exact h.push [.keyboardData str]
  | kernel => exact kernelStep_alike h

end SchlagOS
