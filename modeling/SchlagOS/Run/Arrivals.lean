import SchlagOS.Invariant.Calm
import SchlagOS.Invariant.Kin

/-!
# The order of the waiters

An observer notes in which order the processes blocked on each message queue.
Among waiters of the same priority the waiting list holds them the other way
round, so `psend` and `preceive` release the one first that came last.
-/

namespace SchlagOS

open Foundation

variable {ok : Kernel → Step → Prop} {s s' : Kernel} {step : Step} {r r' p q fid : Int}
  {v v' : View} {log log' : Log} {xs ys : List ProcessNodeContent}
  {order : Int → List Int}

/-! ## What a step does to a waiting list -/

/-- A waiting list loses entries, gets a new one or has one of them moved. -/
inductive Requeued (step : Step) (r : Int) (xs : List ProcessNodeContent) :
    List ProcessNodeContent → Prop
  | shrinks {ys : List ProcessNodeContent} (hsub : ys.Sublist xs) : Requeued step r xs ys
  | arrives {node : ProcessNodeContent} {priority : Int} {ys : List ProcessNodeContent}
      (hplace : ys = NodeList.place (stands priority) node xs)
      (hpriority : node.priority = priority) (hpid : node.pid = r)
      (hnew : r ∉ xs.map ProcessNodeContent.pid) : Requeued step r xs ys
  | moves {p priority : Int} (hevent : step.event = .call (.chprio p priority)) :
      Requeued step r xs (reprioritised p priority xs)

private theorem requeued_rearranged {change : List ProcessNodeContent → List ProcessNodeContent}
    {queues queues' : Int → MessageQueue} (h : Rearranged change queues queues')
    (hchange : ∀ xs, Requeued step r xs (change xs)) (fid : Int) :
    Requeued step r (queues fid).waiters (queues' fid).waiters := by
  rw [h.waiters_eq fid]
  exact hchange _

private theorem requeued_update {queues : Int → MessageQueue} {fid : Int} {queue : MessageQueue}
    (h : Requeued step r (queues fid).waiters queue.waiters) (fid' : Int) :
    Requeued step r (queues fid').waiters (Function.update queues fid queue fid').waiters := by
  by_cases hfid : fid' = fid
  · rw [hfid, Function.update_self]
    exact h
  · rw [Function.update_of_ne hfid]
    exact .shrinks (List.Sublist.refl _)

private theorem requeued_nil {ys : List ProcessNodeContent} (h : ys = []) :
    Requeued step r xs ys := by
  rw [h]
  exact .shrinks (List.nil_sublist xs)

private theorem requeued_tail {node : ProcessNodeContent} (h : xs = node :: ys) :
    Requeued step r xs ys := by
  rw [h]
  exact .shrinks (List.sublist_cons_self node ys)

theorem Effect.requeued (heffect : Effect step r v log v' log')
    (hblocked : ∀ fid, ∀ node ∈ (v.queues fid).waiters, v.state node.pid = .blockedByMessage)
    (fid : Int) : Requeued step r (v.queues fid).waiters (v'.queues fid).waiters := by
  have hnew : ∀ fid, v.state r = .running →
      r ∉ (v.queues fid).waiters.map ProcessNodeContent.pid := by
    intro fid hrunning hmem
    obtain ⟨node, hnode, rfl⟩ := List.mem_map.mp hmem
    rw [hblocked fid node hnode] at hrunning
    cases hrunning
  cases heffect
  case exit hone hqueues hframes =>
    exact requeued_rearranged hqueues (fun _ => .shrinks List.eraseP_sublist) fid
  case kill hevent hused halive hqueues hframes =>
    exact requeued_rearranged hqueues (fun _ => .shrinks List.eraseP_sublist) fid
  case reprioritise hevent hqueues hframes =>
    rcases hqueues with rfl | hqueues
    · exact .shrinks (List.Sublist.refl _)
    · exact requeued_rearranged hqueues (fun _ => .moves hevent) fid
  case create hfree horder hallocated hwaiters hmessages hframes =>
    exact requeued_update (requeued_nil hwaiters) fid
  case reset hlive hevent hpids hstate hreleases hwaiters hmessages hframes =>
    exact requeued_update (requeued_nil hwaiters) fid
  case buffer hsame hnil hnil' hmessages hframes => exact requeued_update (requeued_nil hnil') fid
  case take hsame hnil hnil' hmessages hframes => exact requeued_update (requeued_nil hnil') fid
  case hand hsame hwaiters hempty hempty' hframes =>
    exact requeued_update (requeued_tail hwaiters) fid
  case swap hsame hwaiters hold hnew hframes => exact requeued_update (requeued_tail hwaiters) fid
  case blockSend hsame hstate hwaiters hfull hmessages =>
    refine requeued_update ?_ fid
    exact .arrives hwaiters rfl rfl (hnew _ hstate)
  case blockReceive hsame hstate hwaiters hempty hempty' =>
    refine requeued_update ?_ fid
    exact .arrives hwaiters rfl rfl (hnew _ hstate)
  all_goals exact .shrinks (List.Sublist.refl _)

theorem Turn.requeued (hturn : Turn r s s') (fid : Int) :
    Requeued step r (s.view.queues fid).waiters (s'.view.queues fid).waiters := by
  have hqueues : s'.view.queues = s.view.queues := by
    cases hturn with
    | pass _ hview _ => rw [hview]
    | resume _ _ _ _ hview _ _ => rw [hview]
    | zombify p stack _ _ _ _ hzombified _ => rw [hzombified.view]
    | destroy p _ hdestroyed _ => rw [hdestroyed.view]
    | switch p state processQueue _ hp hp' hr hother hview _ => rw [hview]
  rw [hqueues]
  exact .shrinks (List.Sublist.refl _)

theorem Moved.requeued (hmoved : Moved step s s' r r') (hcore : Core s.view r fun _ => False)
    (fid : Int) : Requeued step r (s.waiters fid) (s'.waiters fid) := by
  rcases hmoved.change with ⟨-, -, heffect⟩ | hturn
  · exact heffect.requeued (fun _ node hnode => hcore.locked.listed.blocked_of_mem hnode) fid
  · exact hturn.requeued fid

/-! ## The observer -/

/-- The processes that wait on a queue, the one to release first first. -/
def waitingPids (s : Kernel) (fid : Int) : List Int :=
  (s.waiters fid).map ProcessNodeContent.pid

/-- Whether the step is a call of `chprio` for the process. -/
def Event.changesPriority (p : Int) : Event → Bool
  | .call (.chprio pid _) => decide (pid = p)
  | _ => false

/-- The note about one queue behind a step of the process `this`: those that go on waiting
with their priority unchanged, and `this` if it has blocked. -/
def noteArrival (event : Event) (this : Int) (before after order : List Int) : List Int :=
  let stay := order.filter fun p => decide (p ∈ after) && !event.changesPriority p
  if this ∈ after ∧ this ∉ before then stay ++ [this] else stay

/-- The waiters of each queue whose priority was not changed since they blocked, the one
that blocked first first. -/
def arrivals (step : Step) (s s' : Kernel) (order : Int → List Int) (fid : Int) : List Int :=
  noteArrival step.event s.getpid (waitingPids s fid) (waitingPids s' fid) (order fid)

/-- `s` is reached by steps that satisfy `ok`, and `order` was noted on the way. -/
def Arrived (ok : Kernel → Step → Prop) (s : Kernel) (order : Int → List Int) : Prop :=
  ∃ booted, kernelStart = .ok booted ∧
    Reach (machine.observing arrivals) (booted, fun _ => []) (fun x => ok x.1) (s, order)

/-- `psend` or `preceive` has released `q` from the queue. -/
def Releases (s s' : Kernel) (fid q : Int) : Prop :=
  ∃ events, s'.history = s.history ++ events ∧ ∃ message,
    .handed s.getpid q fid message ∈ events ∨ .taken s.getpid q fid message ∈ events

/-- The waiters noted in front of `q` have another priority. -/
def InTurn (s : Kernel) (order : List Int) (q : Int) : Prop :=
  ∀ p, [p, q].Sublist order → (s.data p).priority ≠ (s.data q).priority

/-- The other waiters noted have another priority. -/
def Unrivalled (s : Kernel) (order : List Int) (q : Int) : Prop :=
  ∀ p ∈ order, p ≠ q → (s.data p).priority ≠ (s.data q).priority

/-! ## The notes of any run -/

section Notes

variable {event : Event} {before after notes : List Int}

private theorem mem_stay :
    p ∈ notes.filter (fun p => decide (p ∈ after) && !event.changesPriority p) ↔
      p ∈ notes ∧ p ∈ after ∧ event.changesPriority p = false := by
  simp

theorem mem_noteArrival (h : p ∈ noteArrival event q before after notes) : p ∈ after := by
  unfold noteArrival at h
  dsimp only at h
  split_ifs at h with hq
  · rcases List.mem_append.mp h with hp | hp
    · exact (mem_stay.mp hp).2.1
    · rw [List.mem_singleton.mp hp]
      exact hq.1
  · exact (mem_stay.mp h).2.1

theorem nodup_noteArrival (h : notes.Nodup) (hnotes : ∀ p ∈ notes, p ∈ before) :
    (noteArrival event q before after notes).Nodup := by
  unfold noteArrival
  dsimp only
  split_ifs with hq
  · rw [List.nodup_append]
    refine ⟨h.filter _, List.nodup_singleton q, ?_⟩
    rintro p hp x hx rfl
    rw [List.mem_singleton] at hx
    subst hx
    exact hq.2 (hnotes p (List.mem_of_mem_filter hp))
  · exact h.filter _

end Notes

theorem Arrived.tracked (h : Arrived ok s order) : Running ok s ∧
    ∀ fid, (order fid).Nodup ∧ ∀ p ∈ order fid, p ∈ waitingPids s fid := by
  obtain ⟨start, hboot, hreach⟩ := h
  obtain ⟨hreach', htracked⟩ := hreach.observed
    (I := fun s order => ∀ fid, (order fid).Nodup ∧ ∀ p ∈ order fid, p ∈ waitingPids s fid)
    (fun fid => ⟨List.nodup_nil, by simp⟩) fun s step s' order _ htracked _ _ _ fid =>
      ⟨nodup_noteArrival (htracked fid).1 (htracked fid).2, fun p hp => mem_noteArrival hp⟩
  exact ⟨⟨start, hboot, hreach'⟩, htracked⟩

/-! ## The order of a waiting list -/

/-- Of two waiters that are noted, with the same priority, the one that stands in front
blocked later. -/
def Reversed (xs : List ProcessNodeContent) (notes : List Int) : Prop :=
  xs.Pairwise fun a b => a.priority = b.priority → a.pid ∈ notes → b.pid ∈ notes →
    [b.pid, a.pid].Sublist notes

theorem sublist_filter {test : Int → Bool} {notes : List Int} (h : [p, q].Sublist notes)
    (hp : p ∈ notes.filter test) (hq : q ∈ notes.filter test) :
    [p, q].Sublist (notes.filter test) := by
  have hfilter := h.filter test
  rwa [List.filter_cons_of_pos (List.of_mem_filter hp),
    List.filter_cons_of_pos (List.of_mem_filter hq), List.filter_nil] at hfilter

theorem Reversed.filter {notes : List Int} (h : Reversed xs notes) (test : Int → Bool) :
    Reversed xs (notes.filter test) := by
  refine h.imp fun {a b} hab hpriority ha hb => ?_
  exact sublist_filter (hab hpriority (List.mem_of_mem_filter ha) (List.mem_of_mem_filter hb))
    hb ha

theorem Reversed.place {notes : List Int} {node : ProcessNodeContent} (h : Reversed xs notes)
    (hsorted : xs.Pairwise fun a b => b.priority ≤ a.priority)
    (hnew : node.pid ∉ xs.map ProcessNodeContent.pid) :
    Reversed (NodeList.place (stands node.priority) node xs) (notes ++ [node.pid]) := by
  have hother : ∀ {x : ProcessNodeContent}, x ∈ xs → x.pid ∈ notes ++ [node.pid] →
      x.pid ∈ notes := by
    intro x hx hmem
    rcases List.mem_append.mp hmem with hmem | hmem
    · exact hmem
    · rw [List.mem_singleton] at hmem
      exact absurd (List.mem_map.mpr ⟨x, hx, hmem⟩) hnew
  have hold : xs.Pairwise fun a b => a.priority = b.priority → a.pid ∈ notes ++ [node.pid] →
      b.pid ∈ notes ++ [node.pid] → [b.pid, a.pid].Sublist (notes ++ [node.pid]) := by
    refine h.imp_of_mem fun {a b} ha hb hab hpriority hna hnb => ?_
    exact (hab hpriority (hother ha hna) (hother hb hnb)).trans (List.sublist_append_left _ _)
  refine NodeList.pairwise_place hold (fun a ha hpriority _ _ => ?_) fun b hb _ _ hnb => ?_
  · have hlt : node.priority < a.priority := NodeList.lt_of_mem_front hsorted ha
    omega
  · have hbx := (List.rtakeWhile_suffix _ xs).sublist.mem hb
    have hnotes := hother hbx hnb
    exact (List.singleton_sublist.mpr hnotes).append (List.Sublist.refl [node.pid])

theorem Reversed.reprioritised {notes : List Int} {priority : Int} (h : Reversed xs notes)
    (hp : p ∉ notes) : Reversed (reprioritised p priority xs) notes := by
  unfold SchlagOS.reprioritised
  cases hfind : xs.find? (isOf p) with
  | none => exact h
  | some content =>
      have hpid : content.pid = p := by simpa [isOf] using List.find?_some hfind
      dsimp only
      refine NodeList.pairwise_place (h.sublist List.eraseP_sublist)
        (fun a _ _ _ hb => ?_) fun b _ _ ha _ => ?_
      · exact absurd (hpid ▸ hb) hp
      · exact absurd (hpid ▸ ha) hp

theorem pid_mem_of_reprioritised {priority : Int}
    (h : q ∈ (reprioritised p priority xs).map ProcessNodeContent.pid) :
    q ∈ xs.map ProcessNodeContent.pid := by
  unfold reprioritised at h
  cases hfind : xs.find? (isOf p) with
  | none =>
      rw [hfind] at h
      exact h
  | some content =>
      rw [hfind] at h
      obtain ⟨node, hnode, rfl⟩ := List.mem_map.mp h
      rcases NodeList.mem_place.mp hnode with rfl | hnode
      · exact List.mem_map.mpr ⟨content, List.mem_of_find?_eq_some hfind, rfl⟩
      · exact List.mem_map.mpr ⟨node, List.mem_of_mem_eraseP hnode, rfl⟩

theorem Requeued.reversed {notes : List Int} (hrequeued : Requeued step r xs ys)
    (h : Reversed xs notes) (hsorted : xs.Pairwise fun a b => b.priority ≤ a.priority) :
    Reversed ys (noteArrival step.event r (xs.map ProcessNodeContent.pid)
      (ys.map ProcessNodeContent.pid) notes) := by
  unfold noteArrival
  dsimp only
  set stay := notes.filter fun p =>
    decide (p ∈ ys.map ProcessNodeContent.pid) && !step.event.changesPriority p with hstay
  have hkept : Reversed xs stay := h.filter _
  cases hrequeued with
  | shrinks hsub =>
      have hold : ¬(r ∈ ys.map ProcessNodeContent.pid ∧ r ∉ xs.map ProcessNodeContent.pid) :=
        fun hr => hr.2 ((hsub.map _).mem hr.1)
      rw [if_neg hold]
      exact hkept.sublist hsub
  | @arrives node priority _ hplace hpriority hpid hnew =>
      subst hplace hpriority hpid
      have hmem : node.pid ∈
          (NodeList.place (stands node.priority) node xs).map ProcessNodeContent.pid :=
        List.mem_map.mpr ⟨node, NodeList.mem_place.mpr (.inl rfl), rfl⟩
      rw [if_pos ⟨hmem, hnew⟩]
      exact hkept.place hsorted hnew
  | @moves p priority hevent =>
      rw [if_neg fun hr => hr.2 (pid_mem_of_reprioritised hr.1)]
      apply hkept.reprioritised
      rw [hstay, List.mem_filter, hevent]
      simp [Event.changesPriority]

theorem Arrived.reversed (h : Arrived ok s order) (htame : Tame ok) (fid : Int) :
    Reversed (s.waiters fid) (order fid) := by
  obtain ⟨start, hboot, hreach⟩ := h
  refine (hreach.observed (I := fun s order => ∀ fid, Reversed (s.waiters fid) (order fid))
    (fun fid => ?_) fun s step s' order hreach hall henabled hok hrun fid => ?_).2 fid
  · exact List.pairwise_of_forall_mem_list (by simp)
  · have hrunning : Running ok s := ⟨start, hboot, hreach⟩
    obtain ⟨r, hsafe, -, hnext⟩ := hrunning.tame (I := fun _ _ => True) htame trivial
      fun _ _ _ _ _ _ _ _ _ => trivial
    obtain ⟨r', hmoved⟩ := (hnext step henabled hok).of_ok hrun
    have hcore := hsafe.inv.core
    have hstep := (hmoved.requeued hcore fid).reversed (hall fid)
      (hcore.locked.listed.sorted fid)
    rw [← hcore.getpid_eq] at hstep
    exact hstep

/-! ## Releases -/

theorem Effect.released (heffect : Effect step r v log v' log') {events : List HistoryEvent}
    {message x : Int} (hevents : log'.history = log.history ++ events)
    (hmem : .handed x q fid message ∈ events ∨ .taken x q fid message ∈ events) :
    ∃ node rest, (v.queues fid).waiters = node :: rest ∧ node.pid = q := by
  have hexact : ∀ {later : List HistoryEvent}, log'.history = log.history ++ later →
      .handed x q fid message ∈ later ∨ .taken x q fid message ∈ later := by
    intro later hlater
    rwa [List.append_cancel_left (hlater.symm.trans hevents)]
  cases heffect
  case hand hsame hwaiters hempty hempty' hframes =>
    have hevent := hexact (List.append_assoc _ _ _)
    simp at hevent
    obtain ⟨-, rfl, rfl, -⟩ := hevent
    exact ⟨_, _, hwaiters, rfl⟩
  case swap fid' message' messages node queue processQueue frames hsame hwaiters hold hnew
      hframes =>
    have hlater : log.history ++ [.received r fid' message'] ++
        [.taken r node.pid fid' node.message] ++ [.awoken node.pid .blockedByMessage] =
          log.history ++ [.received r fid' message', .taken r node.pid fid' node.message,
            .awoken node.pid .blockedByMessage] := by simp
    have hevent := hexact hlater
    simp at hevent
    obtain ⟨-, rfl, rfl, -⟩ := hevent
    exact ⟨_, _, hwaiters, rfl⟩
  case reset hlive hevent hpids hstate hreleases hwaiters hmessages hframes =>
    have hevent' := hexact (List.append_assoc _ _ _)
    cases hevent <;> simp at hevent'
  case goOn => simpa using hexact (List.append_nil _).symm
  case sleeps => simpa using hexact (List.append_nil _).symm
  case alarm => simpa using hexact (List.append_nil _).symm
  case reprioritise => simpa using hexact (List.append_nil _).symm
  all_goals simpa using hexact rfl

theorem Turn.unreleased (hturn : Turn r s s') : ¬Releases s s' fid q := by
  rintro ⟨events, hevents, message, hmem⟩
  have hhistory : s'.history = s.history ∨ ∃ event : HistoryEvent,
      s'.history = s.history ++ [event] ∧ event ≠ .handed s.getpid q fid message ∧
        event ≠ .taken s.getpid q fid message := by
    cases hturn with
    | pass _ _ hlog => exact .inl (congrArg Log.history hlog)
    | resume value frames _ _ _ hlog _ =>
        exact .inr ⟨.resumed r value, congrArg Log.history hlog, by simp, by simp⟩
    | zombify p stack _ _ _ _ _ hlog =>
        exact .inr ⟨.zombified p, congrArg Log.history hlog, by simp, by simp⟩
    | destroy p _ _ hlog =>
        exact .inr ⟨.destroyed p, congrArg Log.history hlog, by simp, by simp⟩
    | switch p state processQueue _ _ _ _ _ _ hlog => exact .inl (congrArg Log.history hlog)
  rcases hhistory with hsame | ⟨event, hlater, hhanded, htaken⟩
  · rw [hsame, List.self_eq_append_right] at hevents
    simp [hevents] at hmem
  · rw [List.append_cancel_left (hevents.symm.trans hlater), List.mem_singleton,
      List.mem_singleton] at hmem
    exact hmem.elim hhanded.symm htaken.symm

/-- Only the first waiter is released. -/
theorem Moved.released (hmoved : Moved step s s' r r') (hreleases : Releases s s' fid q) :
    ∃ node rest, s.waiters fid = node :: rest ∧ node.pid = q := by
  rcases hmoved.change with ⟨-, -, heffect⟩ | hturn
  · obtain ⟨events, hevents, message, hmem⟩ := hreleases
    exact heffect.released hevents hmem
  · exact absurd hreleases hturn.unreleased

/-! ## Who is released -/

theorem Unrivalled.inTurn {notes : List Int} (h : Unrivalled s notes q) (hnodup : notes.Nodup) :
    InTurn s notes q := by
  intro p hp
  have hne : p ≠ q := by simpa using hnodup.sublist hp
  exact h p (hp.mem (by simp)) hne

/-- In every run a process that no other noted waiter of its priority stands beside is
released in its turn, and as long as the process table is in order no other one is. -/
theorem released_in_turn_iff (h : Arrived ok s order) (henabled : step.enabled s)
    (hok : ok s step) (hrun : exec step s = .ok s') (hreleases : Releases s s' fid q)
    (hq : q ∈ order fid) :
    (Unrivalled s (order fid) q → InTurn s (order fid) q) ∧
      (Tame ok → (InTurn s (order fid) q ↔ Unrivalled s (order fid) q)) := by
  obtain ⟨hrunning, htracked⟩ := h.tracked
  obtain ⟨hnodup, hlisted⟩ := htracked fid
  refine ⟨fun hunrivalled => hunrivalled.inTurn hnodup, fun htame =>
    ⟨fun hturn p hp hne heq => ?_, fun hunrivalled => hunrivalled.inTurn hnodup⟩⟩
  obtain ⟨r, hsafe, -, hnext⟩ := hrunning.tame (I := fun _ _ => True) htame trivial
    fun _ _ _ _ _ _ _ _ _ => trivial
  obtain ⟨r', hmoved⟩ := (hnext step henabled hok).of_ok hrun
  obtain ⟨first, rest, hwaiters, rfl⟩ := hmoved.released hreleases
  obtain ⟨node, hnode, rfl⟩ := List.mem_map.mp (hlisted p hp)
  have hlist := hsafe.inv.core.locked.listed
  have hreversed := h.reversed htame fid
  rw [hwaiters] at hreversed hnode
  have hrest : node ∈ rest := by
    rcases List.mem_cons.mp hnode with rfl | hrest
    · exact absurd rfl hne
    · exact hrest
  have hpriority : first.priority = node.priority := by
    have hmem : first ∈ s.waiters fid ∧ node ∈ s.waiters fid := by simp [hwaiters, hrest]
    rw [hlist.priority_eq fid first hmem.1, hlist.priority_eq fid node hmem.2]
    exact heq.symm
  exact hturn node.pid ((List.pairwise_cons.mp hreversed).1 node hrest hpriority hq hp) heq

/-! ## Two runs -/

theorem Arrived.computed [∀ s step, Decidable (ok s step)]
    {test : Kernel × (Int → List Int) → Bool} (steps : List Step)
    (h : checkRun (machine.observing arrivals) (fun x => ok x.1) test (booted, fun _ => [])
      steps = true) : ∃ s order, Arrived ok s order ∧ test (s, order) = true := by
  obtain ⟨⟨s, order⟩, hreach, htest⟩ := Reach.of_checkRun .start h
  exact ⟨s, order, ⟨booted, kernelStart_eq, hreach⟩, htest⟩

/-- Processes 3 and 4 start with the priorities given and block on queue 1, one after the other. -/
private def twoReceivers (first second : Int) : List Step :=
  ([.init 4096 128, .kernel, .kernel, .kernel, .call (.pcreate 1),
    .call (.start 0x1000000 4096 first ⟨0x1000000, 0⟩), .kernel, .kernel, .kernel,
    .call (.preceive 1 0), .kernel, .kernel, .kernel, .kernel,
    .call (.start 0x1000000 4096 second ⟨0x1000000, 0⟩), .kernel, .kernel, .kernel,
    .call (.preceive 1 0), .kernel, .kernel, .kernel, .kernel] : List Event).map Event.step

/-- Whether a `psend` of process 2 releases process `q` next, with 3 and 4 noted in this order. -/
private def releasesNext (q : Int) (x : Kernel × (Int → List Int)) : Bool :=
  match exec (Event.call (.psend 1 7)).step x.1 with
  | .ok s' => decide ((x.2 1 = [3, 4] ∧ (Event.call (.psend 1 7)).step.enabled x.1) ∧
      s'.history = x.1.history ++ [.handed x.1.getpid q 1 7, .awoken q .blockedByMessage])
  | .error _ => false

private theorem of_releasesNext {q : Int} (h : releasesNext q (s, order) = true) :
    order 1 = [3, 4] ∧ (Event.call (.psend 1 7)).step.enabled s ∧
      ∃ s', exec (Event.call (.psend 1 7)).step s = .ok s' ∧ Releases s s' 1 q := by
  unfold releasesNext at h
  dsimp only at h
  cases hexec : exec (Event.call (.psend 1 7)).step s with
  | error e =>
      rw [hexec] at h
      cases h
  | ok s' =>
      rw [hexec] at h
      obtain ⟨⟨horder, henabled⟩, hhistory⟩ := of_decide_eq_true h
      exact ⟨horder, henabled, s', rfl, _, hhistory, 7, .inl (by simp)⟩

/-- Processes 3 and 4 wait with priorities 129 and 130, and 4 is released first. -/
theorem released_in_turn_run : ∃ (s s' : Kernel) (order : Int → List Int), Releases s s' 1 4 ∧
    (InTurn s (order 1) 4 ↔ Unrivalled s (order 1) 4) := by
  have hrun : ∃ s order, Arrived (fun _ step => step.event.calm = true) s order ∧
      releasesNext 4 (s, order) = true :=
    Arrived.computed (twoReceivers 129 130) (by decide +kernel)
  obtain ⟨s, order, harrived, htest⟩ := hrun
  obtain ⟨horder, henabled, s', hexec, hreleases⟩ := of_releasesNext htest
  exact ⟨s, s', order, hreleases, (released_in_turn_iff harrived henabled rfl hexec hreleases
    (by simp [horder])).2 (.inl fun _ _ hcalm => hcalm)⟩

private def equalPriorities (x : Kernel × (Int → List Int)) : Bool :=
  releasesNext 4 x && decide ((x.1.data 3).priority = (x.1.data 4).priority)

/-- Processes 3 and 4 both wait with priority 129, and 4, which blocked later, is released. -/
theorem released_out_of_turn : ∃ (s s' : Kernel) (order : Int → List Int),
    Arrived (fun _ _ => True) s order ∧ exec (Event.call (.psend 1 7)).step s = .ok s' ∧
      Releases s s' 1 4 ∧ order 1 = [3, 4] ∧ ¬InTurn s (order 1) 4 := by
  have hrun : ∃ s order, Arrived (fun _ _ => True) s order ∧ equalPriorities (s, order) = true :=
    Arrived.computed (twoReceivers 129 129) (by decide +kernel)
  obtain ⟨s, order, harrived, htest⟩ := hrun
  unfold equalPriorities at htest
  rw [Bool.and_eq_true] at htest
  obtain ⟨horder, henabled, s', hexec, hreleases⟩ := of_releasesNext htest.1
  refine ⟨s, s', order, harrived, hexec, hreleases, horder, fun hturn => ?_⟩
  exact hturn 3 (by rw [horder]) (of_decide_eq_true htest.2)

end SchlagOS
