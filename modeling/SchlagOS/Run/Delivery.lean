import SchlagOS.Run.FailedStart
import SchlagOS.Run.Stages

/-!
# The children that waitpid delivers

A process against the list of its children that it has not waited for yet, each
with the value that it left: `waitpid` delivers a dead one of them, each child
once and with its own value, and it returns -1 only when there is none.  The
value is read behind a suspension, while the slots of other children are reused.
-/

namespace SchlagOS

open Foundation

variable {ok : Kernel → Step → Prop} {s s' : Kernel} {step : Step} {r r' f p c : Int}
  {v v' : View} {log log' : Log} {codes codes' : Int → Int}

/-! ## The children of a process -/

/-- The children of a process that it has not waited for, with the value that each of them
has left, if it has ended. -/
abbrev Brood := List (Int × Option Int)

/-- There is a child that a call of `waitpid` may wait for. -/
def Brood.awaits (brood : Brood) (request : Int) : Prop :=
  ∃ entry ∈ brood, request < 0 ∨ request = entry.1

/-- There is a dead one among them. -/
def Brood.offers (brood : Brood) (request : Int) : Prop :=
  ∃ entry ∈ brood, (request < 0 ∨ request = entry.1) ∧ entry.2 ≠ none

instance (brood : Brood) (request : Int) : Decidable (brood.awaits request) := by
  unfold Brood.awaits
  infer_instance

instance (brood : Brood) (request : Int) : Decidable (brood.offers request) := by
  unfold Brood.offers
  infer_instance

/-- What the history tells about the children of `f`; `none` when a call of `waitpid` of
`f` does not answer for them. -/
def Brood.next (f : Int) (brood : Brood) : HistoryEvent → Option Brood
  | .started father child =>
      if child = f then some []
      else if father = f then some ((child, none) :: brood)
      else some brood
  | .terminated pid value =>
      some (brood.map fun entry => if entry.1 = pid then (pid, some value) else entry)
  | .reaped father request child value =>
      if father ≠ f then some brood
      else if (child, some value) ∈ brood ∧ (request < 0 ∨ request = child) then
        some (brood.filter fun entry => decide (entry.1 ≠ child))
      else none
  | .waits father request =>
      if father = f ∧ ¬(brood.awaits request ∧ ¬brood.offers request) then none else some brood
  | .noChild father request => if father = f ∧ brood.awaits request then none else some brood
  | _ => some brood

def broodOf (f : Int) (history : List HistoryEvent) : Option Brood :=
  accept (Brood.next f) [] history

theorem broodOf_record (f : Int) (log : Log) (event : HistoryEvent) :
    broodOf f (log.record event).history =
      (broodOf f log.history).bind fun brood => brood.next f event := by
  unfold broodOf Log.record
  rw [accept_append]
  simp

/-- What an event can do to the list. -/
theorem Brood.next_cases {brood brood' : Brood} {event : HistoryEvent}
    (h : brood.next f event = some brood') :
    brood' = [] ∨ (∃ c, event = .started f c ∧ brood' = (c, none) :: brood) ∨
      (∃ p value, event = .terminated p value ∧
        brood' = brood.map fun entry => if entry.1 = p then (p, some value) else entry) ∨
      (∃ request c value, event = .reaped f request c value ∧ (c, some value) ∈ brood ∧
        brood' = brood.filter fun entry => decide (entry.1 ≠ c)) ∨
      brood' = brood ∧ (∀ p value, event ≠ .terminated p value) ∧
        ∀ request c value, event ≠ .reaped f request c value := by
  have hsame : ∀ {b : Brood}, some b = some brood' → b = brood' := Option.some.inj
  cases event with
  | started father child =>
      simp only [Brood.next] at h
      split at h
      · exact .inl (hsame h).symm
      · split_ifs at h with hfather
        · exact .inr (.inl ⟨child, by rw [hfather], (hsame h).symm⟩)
        · exact .inr (.inr (.inr (.inr ⟨(hsame h).symm, by simp, by simp⟩)))
  | terminated p value => exact .inr (.inr (.inl ⟨p, value, rfl, (hsame h).symm⟩))
  | reaped father request c value =>
      simp only [Brood.next] at h
      split_ifs at h with hfather hdead
      · refine .inr (.inr (.inr (.inr ⟨(hsame h).symm, by simp, fun _ _ _ heq => ?_⟩)))
        cases heq
        exact hfather rfl
      · refine .inr (.inr (.inr (.inl ⟨request, c, value, ?_, hdead.1, (hsame h).symm⟩)))
        rw [not_not.mp hfather]
  | waits father request =>
      simp only [Brood.next] at h
      split at h
      · cases h
      · exact .inr (.inr (.inr (.inr ⟨(hsame h).symm, by simp, by simp⟩)))
  | noChild father request =>
      simp only [Brood.next] at h
      split at h
      · cases h
      · exact .inr (.inr (.inr (.inr ⟨(hsame h).symm, by simp, by simp⟩)))
  | _ => exact .inr (.inr (.inr (.inr ⟨(hsame h).symm, by simp, by simp⟩)))

/-- The process `c` is not on the list. -/
def Brood.lacks (brood : Brood) (c : Int) : Prop := ∀ left, (c, left) ∉ brood

theorem Brood.lacks_next {brood brood' : Brood} {event : HistoryEvent}
    (hc : brood.lacks c) (hevent : event ≠ .started f c) (h : brood.next f event = some brood') :
    brood'.lacks c := by
  intro left hmem
  rcases Brood.next_cases h with rfl | ⟨d, rfl, rfl⟩ | ⟨p, value, rfl, rfl⟩ |
    ⟨request, d, value, rfl, -, rfl⟩ | ⟨rfl, -, -⟩
  · cases hmem
  · rcases List.mem_cons.mp hmem with heq | hmem
    · cases heq
      exact hevent rfl
    · exact hc left hmem
  · obtain ⟨⟨d, other⟩, hold, heq⟩ := List.mem_map.mp hmem
    by_cases hd : d = p
    · rw [if_pos hd, Prod.mk.injEq] at heq
      rw [← heq.1, ← hd] at hc
      exact hc other hold
    · rw [if_neg hd, Prod.mk.injEq] at heq
      rw [heq.1] at hold
      exact hc other hold
  · exact hc left (List.mem_of_mem_filter hmem)
  · exact hc left hmem

theorem Brood.lacks_accept {brood brood' : Brood} {events : List HistoryEvent}
    (hc : brood.lacks c) (hevents : .started f c ∉ events)
    (h : accept (Brood.next f) brood events = some brood') : brood'.lacks c := by
  induction events generalizing brood with
  | nil =>
      cases h
      exact hc
  | cons event events ih =>
      rw [List.mem_cons, not_or] at hevents
      rw [accept_cons, Option.bind_eq_some_iff] at h
      obtain ⟨brood₁, hnext, hlater⟩ := h
      exact ih (Brood.lacks_next hc (Ne.symm hevents.1) hnext) hevents.2 hlater

theorem Brood.next_reaped {brood brood' : Brood} {request value : Int}
    (h : brood.next f (.reaped f request c value) = some brood') :
    (c, some value) ∈ brood ∧ brood'.lacks c := by
  simp only [Brood.next] at h
  rw [if_neg (by simp)] at h
  split_ifs at h with hdead
  cases h
  refine ⟨hdead.1, fun left hmem => ?_⟩
  have hne := (List.mem_filter.mp hmem).2
  simp at hne

/-- A child that has been delivered is delivered again only if it has been started again. -/
theorem broodOf_once {brood : Brood} {before between later : List HistoryEvent}
    {request request' value value' : Int}
    (h : broodOf f (before ++ .reaped f request c value ::
      (between ++ .reaped f request' c value' :: later)) = some brood) :
    .started f c ∈ between := by
  by_contra hnot
  unfold broodOf at h
  rw [accept_append, Option.bind_eq_some_iff] at h
  obtain ⟨brood₁, -, h⟩ := h
  rw [accept_cons, Option.bind_eq_some_iff] at h
  obtain ⟨brood₂, hfirst, h⟩ := h
  rw [accept_append, Option.bind_eq_some_iff] at h
  obtain ⟨brood₃, hbetween, h⟩ := h
  rw [accept_cons, Option.bind_eq_some_iff] at h
  obtain ⟨brood₄, hsecond, -⟩ := h
  have hgone := Brood.lacks_accept (Brood.next_reaped hfirst).2 hnot hbetween
  exact hgone _ (Brood.next_reaped hsecond).1

/-- `f` has started `c` and has not waited for it since; `left` is what it has left. -/
def Bred (f c : Int) (left : Option Int) (history : List HistoryEvent) : Prop :=
  ∃ before since, history = before ++ .started f c :: since ∧
    (∀ request value, .reaped f request c value ∉ since) ∧
    ((left = none ∧ ∀ value, .terminated c value ∉ since) ∨
      ∃ living dead value, left = some value ∧ since = living ++ .terminated c value :: dead ∧
        ∀ value, .terminated c value ∉ dead)

theorem Bred.later {left : Option Int} {history : List HistoryEvent} {event : HistoryEvent}
    (h : Bred f c left history) (hreaped : ∀ request value, event ≠ .reaped f request c value)
    (hterminated : ∀ value, event ≠ .terminated c value) :
    Bred f c left (history ++ [event]) := by
  obtain ⟨before, since, rfl, hreaped', hleft⟩ := h
  refine ⟨before, since ++ [event], by simp, fun request value hmem => ?_, ?_⟩
  · rcases List.mem_append.mp hmem with hmem | hmem
    · exact hreaped' request value hmem
    · exact hreaped request value (List.mem_singleton.mp hmem).symm
  · have hnot : ∀ {events : List HistoryEvent}, (∀ value, .terminated c value ∉ events) →
        ∀ value, .terminated c value ∉ events ++ [event] := by
      intro events hevents value hmem
      rcases List.mem_append.mp hmem with hmem | hmem
      · exact hevents value hmem
      · exact hterminated value (List.mem_singleton.mp hmem).symm
    rcases hleft with ⟨hnone, hall⟩ | ⟨living, dead, value, hsome, rfl, hall⟩
    · exact .inl ⟨hnone, hnot hall⟩
    · exact .inr ⟨living, dead ++ [event], value, hsome, by simp, hnot hall⟩

theorem Bred.terminate {left : Option Int} {history : List HistoryEvent}
    (h : Bred f c left history) (value : Int) :
    Bred f c (some value) (history ++ [.terminated c value]) := by
  obtain ⟨before, since, rfl, hreaped, -⟩ := h
  refine ⟨before, since ++ [.terminated c value], by simp, fun request other hmem => ?_,
    .inr ⟨since, [], value, rfl, rfl, by simp⟩⟩
  rcases List.mem_append.mp hmem with hmem | hmem
  · exact hreaped request other hmem
  · simp at hmem

/-- The entries of the list tell the truth about the children. -/
theorem broodOf_bred {history : List HistoryEvent} {brood : Brood} {left : Option Int}
    (h : broodOf f history = some brood) (hmem : (c, left) ∈ brood) : Bred f c left history := by
  induction history using List.reverseRecOn generalizing brood left with
  | nil =>
      cases h
      cases hmem
  | append_singleton history event ih =>
      unfold broodOf at h ih
      rw [accept_append, Option.bind_eq_some_iff] at h
      obtain ⟨brood₁, hold, hevent⟩ := h
      rw [accept_cons, Option.bind_eq_some_iff] at hevent
      obtain ⟨brood₂, hnext, hnil⟩ := hevent
      cases hnil
      rcases Brood.next_cases hnext with rfl | ⟨d, rfl, rfl⟩ | ⟨p, value, rfl, rfl⟩ |
        ⟨request, d, value, rfl, -, rfl⟩ | ⟨rfl, hterminated, hreaped⟩
      · cases hmem
      · rcases List.mem_cons.mp hmem with heq | hmem
        · cases heq
          exact ⟨history, [], rfl, by simp, .inl ⟨rfl, by simp⟩⟩
        · exact (ih hold hmem).later (by simp) (by simp)
      · obtain ⟨⟨d, other⟩, hd, heq⟩ := List.mem_map.mp hmem
        by_cases hdp : d = p
        · rw [if_pos hdp, Prod.mk.injEq] at heq
          obtain ⟨rfl, rfl⟩ := heq
          subst hdp
          exact (ih hold hd).terminate value
        · rw [if_neg hdp, Prod.mk.injEq] at heq
          obtain ⟨rfl, rfl⟩ := heq
          refine (ih hold hd).later (by simp) fun value' heq => ?_
          cases heq
          exact hdp rfl
      · obtain ⟨hmem, hne⟩ := List.mem_filter.mp hmem
        refine (ih hold hmem).later (fun request' value' heq => ?_) (by simp)
        cases heq
        simp at hne
      · exact (ih hold hmem).later (fun request value => hreaped request c value)
          fun value => hterminated c value

/-! ## The children in the tables -/

def View.alive (v : View) (f : Int) : Prop := v.state f ≠ .unset ∧ v.state f ≠ .zombie

def Brood.Fits (brood : Brood) (v : View) (codes : Int → Int) (f : Int) : Prop :=
  ∀ c value, (c, value) ∈ brood ↔
    v.unreaped f c ∧ value = if v.state c = .zombie then some (codes c) else none

/-- The history of a state accounts for the children of `f`. -/
def Accounts (f : Int) (v : View) (log : Log) : Prop :=
  ∃ brood, broodOf f log.history = some brood ∧
    (v.alive f → brood.Fits v log.returnCode f)

namespace Brood.Fits

variable {brood : Brood}

theorem mem_iff (h : brood.Fits v codes f) : c ∈ brood.map Prod.fst ↔ v.unreaped f c := by
  rw [List.mem_map]
  constructor
  · rintro ⟨⟨c, value⟩, hmem, rfl⟩
    exact ((h c value).mp hmem).1
  · intro hc
    exact ⟨⟨c, _⟩, (h c _).mpr ⟨hc, rfl⟩, rfl⟩

theorem awaits_iff (h : brood.Fits v codes f) (request : Int) :
    brood.awaits request ↔ v.awaits f request := by
  have hentry : brood.awaits request ↔ ∃ c, v.unreaped f c ∧ (request < 0 ∨ request = c) := by
    constructor
    · rintro ⟨⟨c, value⟩, hmem, hrequest⟩
      exact ⟨c, ((h c value).mp hmem).1, hrequest⟩
    · rintro ⟨c, hc, hrequest⟩
      exact ⟨(c, _), (h c _).mpr ⟨hc, rfl⟩, hrequest⟩
  rw [hentry]
  unfold View.awaits
  split_ifs with hneg
  · simp [hneg]
  · simp [hneg]

theorem offers_iff (h : brood.Fits v codes f) (request : Int) :
    brood.offers request ↔
      ∃ c, v.unreaped f c ∧ (request < 0 ∨ request = c) ∧ v.state c = .zombie := by
  constructor
  · rintro ⟨⟨c, value⟩, hmem, hrequest, hvalue⟩
    obtain ⟨hc, heq⟩ := (h c value).mp hmem
    refine ⟨c, hc, hrequest, ?_⟩
    by_contra hnot
    rw [if_neg hnot] at heq
    exact hvalue heq
  · rintro ⟨c, hc, hrequest, hzombie⟩
    exact ⟨(c, some (codes c)), (h c _).mpr ⟨hc, by rw [if_pos hzombie]⟩, hrequest, by simp⟩

theorem congr (h : brood.Fits v codes f) (hunreaped : ∀ c, v'.unreaped f c ↔ v.unreaped f c)
    (hzombie : ∀ c, v.unreaped f c → (v'.state c = .zombie ↔ v.state c = .zombie))
    (hcodes : ∀ c, v.unreaped f c → codes' c = codes c) : brood.Fits v' codes' f := by
  intro c value
  rw [h c value, hunreaped c]
  constructor
  · rintro ⟨hc, rfl⟩
    refine ⟨hc, ?_⟩
    simp only [hzombie c hc, hcodes c hc]
  · rintro ⟨hc, rfl⟩
    refine ⟨hc, ?_⟩
    simp only [hzombie c hc, hcodes c hc]

end Brood.Fits

/-! ## What one step does -/

theorem accept_awoken (f : Int) (brood : Brood) (pids : List Int) :
    accept (Brood.next f) brood (pids.map fun p => .awoken p .blockedByMessage) = some brood := by
  induction pids with
  | nil => rfl
  | cons p pids ih => exact ih

theorem unset_iff_of_stage (h : v'.stage = v.stage) (p : Int) :
    v'.state p = .unset ↔ v.state p = .unset := by
  rw [← stage_eq_free, ← stage_eq_free, h]

theorem zombie_iff_of_stage (h : v'.stage = v.stage) (p : Int) :
    v'.state p = .zombie ↔ v.state p = .zombie := by
  have hstage : ∀ v : View, v.state p = .zombie ↔
      v.stage p = .terminated ∨ v.stage p = .deallocated := by
    intro v
    unfold View.stage
    split
    · simp_all
    · split
      · split <;> simp_all
      · simp_all
  rw [hstage, hstage, h]

/-- Nothing changes for the children of `f`. -/
theorem Accounts.quiet (h : Accounts f v log) (hstage : v'.stage = v.stage)
    (hfather : v'.father = v.father) (hsealed : v'.isSealed = v.isSealed)
    (hcodes : log'.returnCode = log.returnCode)
    (hbrood : ∀ brood, broodOf f log.history = some brood →
      (v.alive f → brood.Fits v log.returnCode f) → broodOf f log'.history = some brood) :
    Accounts f v' log' := by
  obtain ⟨brood, haccept, hfits⟩ := h
  have hunset := unset_iff_of_stage hstage
  have hzombie := zombie_iff_of_stage hstage
  refine ⟨brood, hbrood brood haccept hfits, fun halive => ?_⟩
  have halive' : v.alive f := by
    unfold View.alive at halive ⊢
    rwa [ne_eq, ne_eq, hunset, hzombie] at halive
  refine (hfits halive').congr (fun c => ?_) (fun c _ => hzombie c) fun c _ => by rw [hcodes]
  unfold View.unreaped
  rw [hfather, hsealed, ne_eq, hunset]

/-- A process comes to its end and leaves a value. -/
theorem Accounts.terminate (h : Accounts f v log) {value : Int} (halive : v.alive p)
    (hstate : v'.state = Function.update v.state p .zombie) (hfather : v'.father = v.father)
    (hsealed : v'.isSealed = v.isSealed)
    (hhistory : log'.history = (log.record (.terminated p value)).history)
    (hcodes : log'.returnCode = Function.update log.returnCode p value) :
    Accounts f v' log' := by
  obtain ⟨brood, haccept, hfits⟩ := h
  refine ⟨brood.map fun entry => if entry.1 = p then (p, some value) else entry, ?_,
    fun hf => ?_⟩
  · rw [hhistory, broodOf_record, haccept]
    rfl
  · have hf' : v.alive f := by
      unfold View.alive at hf ⊢
      rw [hstate] at hf
      by_cases hfp : f = p
      · rw [hfp] at hf
        simp at hf
      · rwa [Function.update_of_ne hfp] at hf
    have hunreaped : ∀ c, v'.unreaped f c ↔ v.unreaped f c := by
      intro c
      unfold View.unreaped
      rw [hstate, hfather, hsealed, ne_eq, update_eq_iff halive.1 (by decide)]
    have hentry : ∀ c left, (c, left) ∈ (brood.map fun entry =>
        if entry.1 = p then (p, some value) else entry) ↔
        (c ∈ brood.map Prod.fst ∧ c = p ∧ left = some value) ∨
          ((c, left) ∈ brood ∧ c ≠ p) := by
      intro c left
      simp only [List.mem_map]
      constructor
      · rintro ⟨⟨d, other⟩, hmem, heq⟩
        by_cases hd : d = p
        · rw [if_pos hd, Prod.mk.injEq] at heq
          exact .inl ⟨⟨_, hmem, hd.trans heq.1⟩, heq.1.symm, heq.2.symm⟩
        · rw [if_neg hd, Prod.mk.injEq] at heq
          obtain ⟨rfl, rfl⟩ := heq
          exact .inr ⟨hmem, hd⟩
      · rintro (⟨⟨entry, hmem, hc⟩, rfl, rfl⟩ | ⟨hmem, hc⟩)
        · exact ⟨entry, hmem, by rw [if_pos hc]⟩
        · exact ⟨_, hmem, if_neg hc⟩
    intro c left
    rw [hentry, hunreaped, (hfits hf').mem_iff, hfits hf' c left, hstate, hcodes]
    by_cases hc : c = p
    · subst hc
      simp
    · simp [hc]

/-- `r` starts the process `p`. -/
theorem Accounts.start (h : Accounts f v log) (hcore : Core v r fun _ => False)
    (hfree : freePid v.state p) (hpr : p ≠ r)
    (hstate : v'.state = Function.update v.state p .waiting)
    (hfather : v'.father = Function.update v.father p r) (hsealed : v'.isSealed = v.isSealed)
    (hhistory : log'.history = (log.record (.started r p)).history)
    (hcodes : log'.returnCode = Function.update log.returnCode p 0) :
    Accounts f v' log' := by
  obtain ⟨brood, haccept, hfits⟩ := h
  have hnone : ∀ c, ¬v.unreaped p c := fun c hc => by
    have hpos := hfree.1.1
    rcases hcore.family.father_mem c hc.1 (by
      rintro rfl
      rw [← hc.2.1, hcore.family.root] at hpos
      exact absurd hpos (by decide)) with hone | hused
    · have hunset : v.state 1 = .unset := (hc.2.1.symm.trans hone) ▸ hfree.2
      rcases hcore.init with hinit | hinit | hinit
      all_goals
        rw [hunset] at hinit
        cases hinit
    · rw [hc.2.1] at hused
      exact hused.1 hfree.2
  have hunsealed : v.isSealed p = false := by
    apply eq_false_of_ne_true
    intro htrue
    have hzombie := hcore.pending.sealed_zombie p htrue
    rw [hfree.2] at hzombie
    cases hzombie
  have hunreaped : ∀ c, v'.unreaped f c ↔ (c = p ∧ r = f) ∨ (c ≠ p ∧ v.unreaped f c) := by
    intro c
    unfold View.unreaped
    rw [hstate, hfather, hsealed]
    by_cases hc : c = p
    · subst hc
      simp [hunsealed]
    · simp [hc]
  have hrecord : broodOf f log'.history = brood.next f (.started r p) := by
    rw [hhistory, broodOf_record, haccept]
    rfl
  by_cases hpf : p = f
  · refine ⟨[], by rw [hrecord, Brood.next, if_pos hpf], fun _ c value => ?_⟩
    rw [hunreaped]
    subst hpf
    simp [hnone c, Ne.symm hpr]
  · have halive : v'.alive f → v.alive f := by
      unfold View.alive
      rw [hstate, Function.update_of_ne (Ne.symm hpf)]
      exact id
    have hfree' : ¬v.unreaped f p := fun hc => hc.1 hfree.2
    by_cases hrf : r = f
    · refine ⟨(p, none) :: brood, by rw [hrecord, Brood.next, if_neg hpf, if_pos hrf],
        fun ha c value => ?_⟩
      rw [hunreaped, List.mem_cons, Prod.mk.injEq, hfits (halive ha) c value, hstate, hcodes]
      by_cases hc : c = p
      · subst hc
        simp [hrf, hfree']
      · simp [hc]
    · refine ⟨brood, by rw [hrecord, Brood.next, if_neg hpf, if_neg hrf], fun ha => ?_⟩
      refine (hfits (halive ha)).congr (fun c => ?_) (fun c hc => ?_) fun c hc => ?_
      · rw [hunreaped]
        by_cases hc : c = p
        · subst hc
          simp [hrf, hfree']
        · simp [hc]
      all_goals
        have hne : c ≠ p := by
          rintro rfl
          exact hfree' hc
        simp [hstate, hcodes, hne]

/-- `r` is told about its dead child `c`. -/
theorem Accounts.reap (h : Accounts f v log) {request : Int} (hr : v.alive r)
    (hunreaped : v.unreaped r c) (hzombie : v.state c = .zombie)
    (hrequest : request < 0 ∨ request = c) (hstate : v'.state = v.state)
    (hfather : v'.father = v.father) (hsealed : v'.isSealed = Function.update v.isSealed c true)
    (hhistory : log'.history = (log.record (.reaped r request c (log.returnCode c))).history)
    (hcodes : log'.returnCode = log.returnCode) : Accounts f v' log' := by
  obtain ⟨brood, haccept, hfits⟩ := h
  have hrecord : broodOf f log'.history =
      brood.next f (.reaped r request c (log.returnCode c)) := by
    rw [hhistory, broodOf_record, haccept]
    rfl
  have halive : v'.alive f ↔ v.alive f := by
    unfold View.alive
    rw [hstate]
  have hunreaped' : ∀ x, v'.unreaped f x ↔ x ≠ c ∧ v.unreaped f x := by
    intro x
    unfold View.unreaped
    rw [hstate, hfather, hsealed]
    by_cases hx : x = c
    · simp [hx]
    · simp [hx]
  by_cases hrf : r = f
  · subst hrf
    have hfit := hfits hr
    have hmem : (c, some (log.returnCode c)) ∈ brood :=
      (hfit c _).mpr ⟨hunreaped, by rw [if_pos hzombie]⟩
    refine ⟨brood.filter fun entry => decide (entry.1 ≠ c), ?_, fun _ x value => ?_⟩
    · rw [hrecord, Brood.next, if_neg (by simp), if_pos ⟨hmem, hrequest⟩]
    · rw [List.mem_filter, hunreaped', hfit x value, hstate, hcodes]
      simp only [decide_eq_true_eq]
      tauto
  · refine ⟨brood, by rw [hrecord, Brood.next, if_pos hrf], fun ha => ?_⟩
    refine (hfits (halive.mp ha)).congr (fun x => ?_) (fun x _ => by rw [hstate])
      fun x _ => by rw [hcodes]
    rw [hunreaped']
    refine ⟨And.right, fun hx => ⟨?_, hx⟩⟩
    rintro rfl
    exact hrf (hunreaped.2.1.symm.trans hx.2.1)

theorem Effect.accounts (heffect : Effect step r v log v' log')
    (hcore : Core v r fun _ => False) (hrunning : v.state r = .running)
    (hmem : step.event.starts v.currentSize →
      step.mem.kernelStack = true ∧ step.mem.userStack = true)
    (hblank : Blank v) (h : Accounts f v log) : Accounts f v' log' := by
  have hself : v.alive r := by
    unfold View.alive
    rw [hrunning]
    decide
  have hwaiter : ∀ {fid : Int} {node : ProcessNodeContent},
      node ∈ (v.queues fid).waiters → v.alive node.pid := by
    intro fid node hnode
    unfold View.alive
    rw [hcore.locked.listed.blocked_of_mem hnode]
    decide
  have hsame : ∀ {w : View} {wlog : Log}, w.stage = v.stage → w.father = v.father →
      w.isSealed = v.isSealed → wlog.returnCode = log.returnCode → ∀ {events : List HistoryEvent},
      wlog.history = log.history ++ events →
      (∀ brood : Brood, accept (Brood.next f) brood events = some brood) → Accounts f w wlog := by
    intro w wlog hstage hfather hsealed hcodes events hhistory hevents
    refine h.quiet hstage hfather hsealed hcodes fun brood haccept _ => ?_
    unfold broodOf at haccept ⊢
    rw [hhistory, accept_append, haccept]
    exact hevents brood
  cases heffect
  case start p _ _ _ _ _ hfree hpr hsize horder hframes =>
    exact h.start hcore hfree hpr rfl rfl rfl rfl rfl
  case startFails hstarts hfails hfree hpr horder horder' hwasted hframes =>
    rw [(hmem hstarts).1, (hmem hstarts).2] at hfails
    simp at hfails
  case exit => exact h.terminate hself rfl rfl rfl rfl rfl
  case kill hevent hused halive hqueues hframes =>
    exact h.terminate ⟨hused, halive⟩ rfl rfl rfl rfl rfl
  case reap hunreaped hzombie hrequest hframes =>
    exact h.reap hself hunreaped hzombie hrequest rfl rfl rfl rfl rfl
  case waits request code frame frames hawaits hcode hliving hframe =>
    refine h.quiet (stage_move hself (by decide) rfl rfl) rfl rfl rfl fun brood haccept hfits => ?_
    rw [broodOf_record, haccept]
    refine if_neg ?_
    rintro ⟨rfl, hnot⟩
    refine hnot ⟨((hfits hself).awaits_iff request).mpr (hawaits hblank), fun hoffers => ?_⟩
    obtain ⟨c, hc, hrequest, hzombie⟩ := ((hfits hself).offers_iff request).mp hoffers
    exact hliving c hc (by omega) hzombie
  case noChild request frames hnone hframes =>
    refine h.quiet rfl rfl rfl rfl fun brood haccept hfits => ?_
    rw [broodOf_record, haccept]
    refine if_neg ?_
    rintro ⟨rfl, hawaits⟩
    exact hnone (((hfits hself).awaits_iff request).mp hawaits)
  case alarm hstate hsleep hframes =>
    refine hsame (stage_congr (fun x => ?_) (fun x => ?_) rfl) rfl rfl rfl
      (List.append_nil _).symm fun _ => rfl
    all_goals
      dsimp only
      rcases hstate x with heq | ⟨hold, hnew⟩
      · rw [heq]
      · rw [hold, hnew]
        decide
  case reset fid queue fids nbQueues state processQueue resetReleases frames pids events hlive
      hevent hpids hstate hreleases hwaiters hmessages hframes =>
    have hblocked : ∀ x ∈ pids, v.state x = .blockedByMessage := by
      intro x hx
      rw [← hpids] at hx
      obtain ⟨node, hnode, rfl⟩ := List.mem_map.mp hx
      exact hcore.locked.listed.blocked_of_mem hnode
    refine hsame (stage_congr (fun x => ?_) (fun x => ?_) rfl) rfl rfl rfl
      (List.append_assoc _ _ _) fun brood => ?_
    · dsimp only
      rw [hstate]
      split_ifs with hx
      · simp [hblocked x hx]
      · exact Iff.rfl
    · dsimp only
      rw [hstate]
      split_ifs with hx
      · simp [hblocked x hx]
      · exact Iff.rfl
    · rw [accept_append, accept_awoken]
      cases hevent with
      | preset => rfl
      | pdelete => rfl
  case hand hsame' hwaiters hempty hempty' hframes =>
    exact hsame (stage_move (hwaiter (by rw [hwaiters]; simp)) (by decide) rfl rfl) rfl rfl rfl
      (List.append_assoc _ _ _) fun _ => rfl
  case swap hsame' hwaiters hold hnew hframes =>
    refine hsame (stage_move (hwaiter (by rw [hwaiters]; simp)) (by decide) rfl rfl) rfl rfl rfl
      ((List.append_assoc _ _ _).trans (List.append_assoc _ _ _)) fun _ => rfl
  case sleeps =>
    exact hsame (stage_move hself (by decide) rfl rfl) rfl rfl rfl (List.append_nil _).symm
      fun _ => rfl
  case blockSend =>
    exact hsame (stage_move hself (by decide) rfl rfl) rfl rfl rfl rfl fun _ => rfl
  case blockReceive =>
    exact hsame (stage_move hself (by decide) rfl rfl) rfl rfl rfl rfl fun _ => rfl
  case goOn => exact hsame rfl rfl rfl rfl (List.append_nil _).symm fun _ => rfl
  case reprioritise => exact hsame rfl rfl rfl rfl (List.append_nil _).symm fun _ => rfl
  all_goals exact hsame rfl rfl rfl rfl rfl fun _ => rfl

theorem Accounts.zombified (h : Accounts f v log) (hf : f ≠ 1) (hcore : Core v r fun _ => False)
    (hzombified : Zombified v v' p)
    (hhistory : log'.history = (log.record (.zombified p)).history)
    (hcodes : log'.returnCode = log.returnCode) : Accounts f v' log' := by
  obtain ⟨brood, haccept, hfits⟩ := h
  have hview := hzombified.view
  have hzombie : ∀ x, v'.state x = .zombie ↔ v.state x = .zombie := by
    intro x
    rcases hzombified.state with ⟨heq, hwakes⟩ | ⟨heq, -⟩
    · rw [heq]
      exact update_eq_iff (by rw [hwakes.1]; decide) (by decide) x
    · rw [heq]
  have hp : v.state p = .zombie :=
    ((hcore.pending.mem_zombify p).mp (hzombified.perm.mem_iff.mpr (by simp))).1
  refine ⟨brood, by rw [hhistory, broodOf_record, haccept]; rfl, fun ha => ?_⟩
  have halive : v.alive f := by
    unfold View.alive at ha ⊢
    rwa [ne_eq, ne_eq, hzombified.used f, hzombie] at ha
  have hfp : f ≠ p := fun heq => halive.2 (heq ▸ hp)
  have hchild : ∀ c ∈ v.childs p, v.father c ≠ f := fun c hc heq =>
    hfp (heq.symm.trans (hcore.family.child p c hzombified.ne_one hc).2.1)
  have hfather : ∀ c, v'.father c = f ↔ v.father c = f := by
    intro c
    rw [hview]
    unfold adopted
    dsimp only
    split_ifs with hc
    · exact iff_of_false (Ne.symm hf) (hchild c hc.1)
    · exact Iff.rfl
  have hsealed : ∀ c, v.father c = f → (v'.isSealed c = true ↔ v.isSealed c = true) := by
    intro c hc
    rw [hzombified.sealed_iff]
    constructor
    · rintro (hold | ⟨hmem, -⟩ | ⟨rfl, hcloses⟩)
      · exact hold
      · exact absurd hc (hchild c hmem)
      · rcases hcloses.2 with hzombie' | hone
        · rw [hc] at hzombie'
          exact absurd hzombie' halive.2
        · exact absurd (hc.symm.trans hone) hf
    · exact .inl
  refine (hfits halive).congr (fun c => ?_) (fun c _ => hzombie c) fun c _ => by rw [hcodes]
  unfold View.unreaped
  rw [ne_eq, hzombified.used c, hfather]
  refine and_congr_right fun _ => and_congr_right fun hc => ?_
  rw [← Bool.not_eq_true, ← Bool.not_eq_true, hsealed c hc]

theorem Accounts.destroyed (h : Accounts f v log) (hcore : Core v r fun _ => False)
    (hdestroyed : Destroyed v v' p) (hhistory : log'.history = (log.record (.destroyed p)).history)
    (hcodes : log'.returnCode = Function.update log.returnCode p (-1)) :
    Accounts f v' log' := by
  obtain ⟨brood, haccept, hfits⟩ := h
  have hview := hdestroyed.view
  have hsealed : v.isSealed p = true :=
    (hcore.pending.mem_destroy p).mp (by simp [hdestroyed.last])
  refine ⟨brood, by rw [hhistory, broodOf_record, haccept]; rfl, fun ha => ?_⟩
  have hother : ∀ x, x ≠ p → v'.state x = v.state x := by
    intro x hx
    rw [hview]
    exact Function.update_of_ne hx _ _
  have hself : v'.state p = .unset := by
    rw [hview]
    exact Function.update_self p _ _
  have hfp : f ≠ p := fun heq => ha.1 (heq ▸ hself)
  have halive : v.alive f := by
    unfold View.alive at ha ⊢
    rwa [hother f hfp] at ha
  have hgone : ¬v.unreaped f p := fun hc => by
    have hunsealed := hc.2.2
    rw [hsealed] at hunsealed
    cases hunsealed
  have hne : ∀ c, v.unreaped f c → c ≠ p := by
    rintro c hc rfl
    exact hgone hc
  refine (hfits halive).congr (fun c => ?_) (fun c hc => ?_) fun c hc => ?_
  · by_cases hc : c = p
    · subst hc
      exact iff_of_false (fun hnew => hnew.1 hself) hgone
    · unfold View.unreaped
      rw [hother c hc, hview]
      simp [hc]
  · rw [hother c (hne c hc)]
  · rw [hcodes, Function.update_of_ne (hne c hc)]

theorem Turn.accounts (hturn : Turn r s s') (hcore : Core s.view r fun _ => False) (hf : f ≠ 1)
    (h : Accounts f s.view s.log) : Accounts f s'.view s'.log := by
  cases hturn with
  | pass _ hview hlog =>
      rw [hview, hlog]
      exact h
  | resume value _ _ _ hview hlog _ _ =>
      rw [hview, hlog]
      refine h.quiet rfl rfl rfl rfl fun brood haccept _ => ?_
      rw [← haccept]
      exact (broodOf_record f s.log (.resumed r value)).trans (by rw [haccept]; rfl)
  | zombify p stack _ _ _ _ hzombified hlog =>
      exact h.zombified hf hcore hzombified (by rw [hlog]) (by rw [hlog]; rfl)
  | destroy p _ hdestroyed hlog =>
      exact h.destroyed hcore hdestroyed (by rw [hlog]) (by rw [hlog])
  | switch p state processQueue _ hp hp' hr hother hview hlog =>
      rw [hview, hlog]
      exact h.quiet (stage_congr (switched_iff (by decide) hp hp' hr hother)
        (switched_iff (by decide) hp hp' hr hother) rfl) rfl rfl rfl fun _ haccept _ => haccept

theorem booted_accounts (hf : f ≠ 1) : Accounts f booted.view booted.log := by
  have hhistory : booted.log.history =
      [.created 0 keyBufferSize, .started processNotFoundCode 1] := rfl
  have hdata : booted.data f = noProcess := Function.update_of_ne hf _ _
  have hstate : (booted.data f).state = .unset := by
    rw [hdata]
    rfl
  have hbrood : ∃ brood, broodOf f booted.log.history = some brood := by
    rw [hhistory]
    unfold broodOf accept Brood.next
    by_cases hroot : processNotFoundCode = f
    · exact ⟨[(1, none)], by simp [Ne.symm hf, hroot]⟩
    · exact ⟨[], by simp [Ne.symm hf, hroot]⟩
  obtain ⟨brood, haccept⟩ := hbrood
  exact ⟨brood, haccept, fun halive => absurd hstate halive.1⟩

/-! ## Runs -/

theorem Running.accounts (h : Running ok s) (htame : Tame ok)
    (hok : ∀ s step, ok s step → ¬Starved s step) (hf : f ≠ 1) : Accounts f s.view s.log := by
  obtain ⟨r, -, ⟨-, haccounts⟩, -⟩ := h.tame
    (I := fun s _ => Blank s.view ∧ Accounts f s.view s.log) htame
    ⟨booted_attended.blank, booted_accounts hf⟩ fun s step s' r r' hsafe hI hs hmoved => by
      obtain ⟨hblank, haccounts⟩ := hI
      have hfed := hok s step hs
      refine ⟨hmoved.blank hsafe hfed hblank, ?_⟩
      rcases hmoved.change with ⟨hphase, -, heffect⟩ | hturn
      · exact heffect.accounts hsafe.inv.core (hsafe.inv.running (.inl hphase))
          (fed_of_not_starved hfed) hblank haccounts
      · exact hturn.accounts hsafe.inv.core hf haccounts
  exact haccounts

/-! ## The calls -/

/-- The call hands back a dead child of the list and stores what it has left. -/
def Delivers (brood : Brood) (request : Int) (retvalp : Destination) (s s' : Kernel) : Prop :=
  ∃ q value, 0 < q ∧ (q, some value) ∈ brood ∧ (request < 0 ∨ request = q) ∧ s'.eax = q ∧
    s'.userAccesses = (s.store retvalp value).userAccesses

/-- What a call of `waitpid` does when these are the children of the caller. -/
structure Responds (brood : Brood) (request : Int) (retvalp : Destination) (s s' : Kernel) :
    Prop where
  refused : s'.control = [] ∧ s'.eax = -1 ↔ ¬brood.awaits request
  returned : s'.control = [] → 0 < s'.eax → Delivers brood request retvalp s s'
  blocked : s'.control ≠ [] ↔ brood.awaits request ∧ ¬brood.offers request

theorem Brood.Fits.delivers {brood : Brood} (hfits : brood.Fits s.view s.log.returnCode r)
    (hcore : Core s.view r fun _ => False) (hunreaped : s.view.unreaped r c)
    (hzombie : s.view.state c = .zombie) {request : Int}
    (hrequest : request < 0 ∨ request = c) (retvalp : Destination) :
    ∃ s', waitpidReap s request c retvalp = .ok s' ∧ s'.control = s.control ∧ s'.eax = c ∧
      Delivers brood request retvalp s s' := by
  have hview := s.view_store retvalp (s.data c).returnCode
  have hcore' : Core (s.store retvalp (s.data c).returnCode).view r fun _ => False := by
    rw [hview]
    exact hcore
  have hstate : (s.store retvalp (s.data c).returnCode).view.state c = .zombie := by
    rwa [hview]
  have hsealed : (s.store retvalp (s.data c).returnCode).view.isSealed c = false := by
    rw [hview]
    exact hunreaped.2.2
  have hcontrol : (s.store retvalp (s.data c).returnCode).control = s.control := by
    cases retvalp <;> rfl
  unfold waitpidReap
  dsimp only
  rw [requestDestroy_eq hcore' hstate hsealed, ok_bind]
  refine ⟨_, rfl, hcontrol, rfl, c, (s.data c).returnCode, (hcore.isPid hunreaped.1).1, ?_,
    hrequest, rfl, rfl⟩
  exact (hfits c _).mpr ⟨hunreaped, by rw [if_pos hzombie]; rfl⟩

theorem Brood.Fits.responds {brood : Brood} (hfits : brood.Fits s.view s.log.returnCode r)
    (h : Settled s r) (hone : r ≠ 1) (hblank : Blank s.view) (hnil : s.control = []) (pid : Int)
    (retvalp : Destination) :
    Meets (waitpid s pid retvalp) (Responds brood pid retvalp s) fun _ => False := by
  have hawaits := hfits.awaits_iff pid
  have hoffers := hfits.offers_iff pid
  have hsome : brood.offers pid → brood.awaits pid := by
    rintro ⟨entry, hmem, hrequest, -⟩
    exact ⟨entry, hmem, hrequest⟩
  rcases waitpid_cases h hone pid retvalp with ⟨hnone, heq⟩ |
    ⟨c, hunreaped, hzombie, hrequest, heq⟩ |
    ⟨code, frame, -, hcode, hliving, hwaits, heq⟩
  · have hnone' : ¬brood.awaits pid := fun hsome => hnone (hawaits.mp hsome)
    rw [heq, meets_ok]
    refine ⟨iff_of_true ⟨hnil, rfl⟩ hnone', fun _ hpos => ?_,
      iff_of_false (fun hcontrol => hcontrol hnil) fun hblocked => hnone' hblocked.1⟩
    have hminus : ((s.record (.noChild r pid)).ret (-1)).eax = -1 := rfl
    omega
  · obtain ⟨s', hreap, hcontrol, heax, hdelivers⟩ :=
      hfits.delivers h.core hunreaped hzombie hrequest retvalp
    have hoffered := hoffers.mpr ⟨c, hunreaped, hrequest, hzombie⟩
    have hpos := (h.core.isPid hunreaped.1).1
    rw [heq, hreap, meets_ok]
    refine ⟨iff_of_false (fun hminus => ?_) (fun hnot => hnot (hsome hoffered)),
      fun _ _ => hdelivers, iff_of_false (fun hsome' => hsome' (hcontrol.trans hnil))
        fun hblocked => hblocked.2 hoffered⟩
    omega
  · have hawaited := hawaits.mpr (hwaits hblank)
    have hnot : ¬brood.offers pid := fun hoffered => by
      obtain ⟨c, hunreaped, hrequest, hzombie⟩ := hoffers.mp hoffered
      exact hliving c hunreaped (by omega) hzombie
    rw [heq, meets_ok]
    have hcontrol : (((s.update r fun p =>
        { p with state := .blockedByChild, waitingCode := code }).record
          (.waits r pid)).callSchedule [frame]).control ≠ [] := List.cons_ne_nil _ _
    exact ⟨iff_of_false (fun hminus => hcontrol hminus.1) fun hnone => hnone hawaited,
      fun hnil' => absurd hnil' hcontrol, iff_of_true hcontrol ⟨hawaited, hnot⟩⟩

/-- A call that blocked goes on. -/
theorem Brood.Fits.goesOn {brood : Brood} (hfits : brood.Fits s.view s.log.returnCode r)
    (hinv : Inv s r) {frame : Frame} {rest : List Frame} {request : Int} {retvalp : Destination}
    (hcontrol : s.control = frame :: rest)
    (hframe : frame = .waitpidAny request retvalp ∨ frame = .waitpidOne request retvalp)
    (mem : Memory) : Meets (kernelStep mem s)
      (fun s' => s'.control = rest ∧ Delivers brood request retvalp s s') fun _ => False := by
  have hwait : frame.isWaitpid = true ∧ frame.isSchedule = false := by
    rcases hframe with rfl | rfl
    · exact ⟨rfl, rfl⟩
    · exact ⟨rfl, rfl⟩
  have hsettled := hinv.pop hcontrol hwait.2
  have hwoken := hinv.woken hcontrol hwait.1
  obtain ⟨hunreaped, hzombie⟩ := hwoken.unreaped hsettled
  have hview := hinv.popView hcontrol hwait.2
  have hfits' : brood.Fits { s with control := rest }.view
      { s with control := rest }.log.returnCode r := by
    refine hfits.congr (fun c => ?_) (fun c _ => ?_) fun _ _ => rfl
    · rw [hview]
      exact Iff.rfl
    · rw [hview]
  have hrequest : request < 0 ∨ request = { s with control := rest }.view.code r := by
    rcases hframe with rfl | rfl
    · exact .inl (hwoken.request.2 _ _ rfl)
    · exact .inr (hwoken.request.1 _ _ rfl)
  obtain ⟨s', hreap, hcontrol', -, hdelivers⟩ :=
    hfits'.delivers hsettled.core hunreaped hzombie hrequest retvalp
  have hstore : Delivers brood request retvalp s s' := by
    obtain ⟨q, value, hq, hmem, hmatch, heax, haccesses⟩ := hdelivers
    refine ⟨q, value, hq, hmem, hmatch, heax, haccesses.trans ?_⟩
    cases retvalp <;> rfl
  have hstep : kernelStep mem s = .ok s' := by
    unfold kernelStep
    rw [hcontrol]
    dsimp only
    rcases hframe with rfl | rfl
    · dsimp only
      rw [waitpidAnyResume_eq hsettled hunreaped]
      exact hreap
    · dsimp only
      rw [← hwoken.request.1 _ _ rfl] at hreap
      exact hreap
  rw [hstep, meets_ok]
  exact ⟨hcontrol', hstore⟩

/-- What the calls of `waitpid` of the running process have delivered, and what the next
step of one does. -/
structure Delivery (s : Kernel) (brood : Brood) : Prop where
  bred : ∀ c left, (c, left) ∈ brood → Bred s.getpid c left s.history
  once : ∀ c request value request' value' before between later,
    s.history = before ++ .reaped s.getpid request c value ::
      (between ++ .reaped s.getpid request' c value' :: later) → .started s.getpid c ∈ between
  call : ∀ step pid retvalp, step.event = .call (.waitpid pid retvalp) → step.enabled s →
    checkArg retvalp = true →
      Meets (exec step s) (Responds brood pid (.ofPointer retvalp) s) fun _ => False
  goesOn : ∀ step frame rest request retvalp, step.enabled s → s.control = frame :: rest →
    frame = .waitpidAny request retvalp ∨ frame = .waitpidOne request retvalp →
      Meets (exec step s) (fun s' => s'.control = rest ∧ Delivers brood request retvalp s s')
        fun _ => False

theorem waitpid_delivers (h : Running ok s) (htame : Tame ok)
    (hok : ∀ s step, ok s step → ¬Starved s step) (hf : s.getpid ≠ 1) :
    ∃ brood, broodOf s.getpid s.history = some brood ∧ Delivery s brood := by
  obtain ⟨r, hsafe, -, -⟩ := h.tame (I := fun _ _ => True) htame trivial
    fun _ _ _ _ _ _ _ _ _ => trivial
  have hcore := hsafe.inv.core
  have hgetpid := hcore.getpid_eq
  rw [hgetpid] at hf
  obtain ⟨brood, haccept, hfits⟩ := h.accounts htame hok hf
  have hfits' : phaseOf s.control = none → brood.Fits s.view s.log.returnCode r := fun hphase => by
    apply hfits
    unfold View.alive
    rw [hsafe.inv.running (.inl hphase)]
    decide
  refine ⟨brood, by rw [hgetpid]; exact haccept, ?_, ?_, ?_, ?_⟩
  · intro c left hmem
    rw [hgetpid]
    exact broodOf_bred haccept hmem
  · intro c request value request' value' before between later hhistory
    rw [hgetpid] at hhistory ⊢
    have haccept' : broodOf r s.history = some brood := haccept
    rw [hhistory] at haccept'
    exact broodOf_once haccept'
  · intro step pid retvalp hevent henabled harg
    obtain ⟨mem, event⟩ := step
    dsimp only at hevent
    subst hevent
    have hnil : s.control = [] := henabled.1
    have hexec : exec ⟨mem, .call (.waitpid pid retvalp)⟩ s =
        waitpid s pid (.ofPointer retvalp) := if_neg (by simp [harg])
    rw [hexec]
    exact (hfits' (by rw [hnil]; rfl)).responds (hsafe.inv.settled hnil) hf
      (h.blank htame hok) hnil pid (.ofPointer retvalp)
  · intro step frame rest request retvalp henabled hcontrol hframe
    have hphase : phaseOf s.control = none := by
      rw [hcontrol]
      rcases hframe with rfl | rfl
      · rfl
      · rfl
    rw [exec_kernel henabled (by rw [hcontrol]; exact List.cons_ne_nil _ _)]
    exact (hfits' hphase).goesOn hsafe.inv hcontrol hframe step.mem

/-- Process 2 waits for any child while process 3 exits with 5, which it is told about; the ticks
come in process 4. -/
theorem waitpid_delivers_run : ∃ s s', s.getpid = 2 ∧ broodOf 2 s.history = some [(4, none), (3, some 5)] ∧
    exec (Event.kernel).step s = .ok s' ∧ s'.control = [] ∧
      Delivers [(4, none), (3, some 5)] (-1) (.user 0x1000000) s s' := by
  have hrun : ∃ s, Running (fun _ step => step.event.calm = true ∧ step.mem = .available) s ∧
      decide (s.getpid = 2 ∧ broodOf 2 s.history = some [(4, none), (3, some 5)] ∧
        s.control = [.waitpidAny (-1) (.user 0x1000000)]) = true :=
    Running.computed ([Event.init 4096 128, .call (.start 0x1000000 4096 100 ⟨0x1000000, 0⟩),
      .call (.start 0x1000000 4096 90 ⟨0x1000000, 0⟩), .call (.waitpid (-1) 0x1000000),
      .call (.exit 5), .tick].map Event.step)
      ([Event.tick, .kernel, .kernel, .kernel, .kernel].map Event.step) (by decide +kernel)
  obtain ⟨s, hrun, htest⟩ := hrun
  obtain ⟨hgetpid, hbrood, hcontrol⟩ := of_decide_eq_true htest
  obtain ⟨brood, haccept, hdelivery⟩ := waitpid_delivers hrun (.inl fun _ _ hs => hs.1)
    (fun s step hs hstarved => by
      have hmem := hstarved.2
      rw [hs.2] at hmem
      simp [Memory.available] at hmem) (by rw [hgetpid]; decide)
  rw [hgetpid, hbrood, Option.some_inj] at haccept
  subst haccept
  have henabled : (Event.kernel).step.enabled s := by
    change s.control ≠ []
    rw [hcontrol]
    exact List.cons_ne_nil _ _
  obtain ⟨s', hexec, hcontrol', hdelivers⟩ :=
    (hdelivery.goesOn _ _ _ _ _ henabled hcontrol (.inl rfl)).exists_ok
  exact ⟨s, s', hgetpid, hbrood, hexec, hcontrol', hdelivers⟩

end SchlagOS
