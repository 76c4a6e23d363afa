import RemoteCall.Proofs.Session.Endings
import RemoteCall.Proofs.Session.Schedule

/-!
# The end of a client

A client is given up when nobody holds it any more: its owner has dropped it, nobody asks whether its connection lives, and
no tick is under way. Façades, their names in the registry and tasks between their ticks do not hold it. Nothing is torn
down in order then, and still all ends: calls that stand end with the connection, dispatchers and tasks come to rest, and
later calls fail at once.

* `Holding`: what a step does to those who hold a client that its owner has dropped. `Orphan`: it is given up just if there
  is nobody.
* `perform_of_given_up`: the step in which a client is given up. `exit_of_given_up`: the calls that stand then.
* `GivenUp`: a client that was given up. `givenUp_run`: it stays so.
* `Surrenders`: all that the end of a client means.
* `dropped_client_is_given_up`: when it comes, and that it means all this.
-/

namespace RemoteCall.Session

open Pending (Call Outcome)

section Defs

/-- Whether something can only be done by someone who has the client. -/
def Action.takesClient : Action → Bool
  | .connect => true
  | .start => true
  | .stop => true
  | .dropClient => true
  | .enableReconnect _ => true
  | .newFacade _ _ => true
  | .commandFacade => true
  | .dataFacade => true
  | .askLiveness => true
  | _ => false

/-- What a step does to those who hold the client. -/
inductive Holding (s s' : Session) : Prop
  /-- They are the same. -/
  | same (hheld : s'.isHeld = s.isHeld) (hr : s'.client.released = s.client.released)
  /-- A tick takes hold of it. -/
  | taken (hr : s.client.released = false) (hheld : s'.isHeld = true) (hr' : s'.client.released = false)
  /-- Someone may let go of it, and then it may be given up. -/
  | letGo {m : Session} (h : s' = m.releaseUnheld) (hheld : m.isHeld = true → s.isHeld = true)
      (hr : m.client.released = s.client.released)

/-- The owner has dropped the client. It was given up just if nobody else holds it. -/
structure Orphan (s : Session) : Prop where
  owned : s.client.owned = false
  released : s.client.released = !s.isHeld

/-- A client that was given up. -/
structure GivenUp (s : Session) : Prop where
  released : s.client.released = true
  /-- It has no connection. -/
  installed : s.client.installed = none
  /-- Each well-formed call fails at once, through any façade, and changes nothing. -/
  invoke : ∀ (f : Facade) (method : String) (args : List Json) (o : Outgoing), f.outgoing method args = .ok o →
    s.invoke f method args = (.error (.connectFailure "" .clientDropped), s)
  /-- Its caller hears of it at once. -/
  call : ∀ (id : FacadeId) (f : Facade) (method : String) (args : List Json) (o : Outgoing), s.facade? id = some f →
    f.outgoing method args = .ok o → s.perform (.call id method args) =
      (s.addCaller (.result id) (.ended s.now (.result (.error (.connectFailure "" .clientDropped))))).2
  /-- No dispatcher does anything, whatever has come in. -/
  dispatchers : ∀ i, s.perform (.turn (.dispatcher i)) = s
  /-- Each task has ended, or does nothing in its next turn but end. -/
  tasks : ∀ j, s.perform (.turn (.task j)) = s.modifyTask j fun t => { t with stage := .over }
  /-- Nobody waits for a call that has no outcome. -/
  calls : ∀ w ∈ s.waiters, ∃ o, s.outcome? w = some o

/-- All that the end of a client means, for the step in which it is given up and the session before and after it. -/
structure Surrenders (a : Action) (s t : Session) : Prop where
  /-- Calls that stand end with their connection, and the others keep what they ended with. -/
  calls : ∀ w ∈ t.waiters, ∃ x, s.board.call? w = some x ∧
    t.outcome? w = if x.isOpen then some (.error .connectionClosed) else s.outcome? w
  /-- Whoever waited through a façade for a call without an outcome ends at this moment. -/
  callers : ∀ (k : Nat) (id : FacadeId) (f : Facade) (w : Waiting), s.callers[k]? = some ⟨.result id, .waiting w⟩ →
    s.facade? id = some f → s.outcome? w = none → a ≠ .abort k →
    ∀ after, (∀ b ∈ after, b ≠ .abort k) → punctual k after t = true →
      EndsAt k (.result id) t.now (.result (.error .connectionClosed)) (t.run after)
  /-- It is given up for good, and no attempt to connect is made any more. -/
  later : ∀ after, (∀ b ∈ after, b.takesClient = false) → GivenUp (t.run after) ∧ (t.run after).attempts = t.attempts

end Defs

variable {s s' m t : Session} {i j k : Nat} {c : Connection} {w : Waiting} {x : Call} {a : Action}
  {actions : List Action}

theorem asksForConnection_of_takesClient (ha : a.takesClient = false) : a.asksForConnection = false := by
  cases a with
  | connect => cases ha
  | start => cases ha
  | enableReconnect plan => cases ha
  | _ => rfl

theorem ne_dropClient_of_takesClient (ha : a.takesClient = false) : a ≠ .dropClient := by
  rintro rfl
  cases ha

/-! ## Who holds the client -/

theorem any_isProbing (s : Session) : s.client.tasks.any ReconnectTask.isProbing = decide (0 < s.ticking) := by
  rw [Bool.eq_iff_iff, decide_eq_true_iff, ticking, List.countP_pos_iff, List.any_eq_true]

/-- The owner, those who ask whether the connection lives, and ticks are all who hold a client. -/
theorem isHeld_eq_false_iff : s.isHeld = false ↔
    s.client.owned = false ∧ (∀ c ∈ s.callers, c.holdsClient = false) ∧ ∀ j, s.isTicking j = false := by
  have htasks : s.client.tasks.any ReconnectTask.isProbing = false ↔ ∀ j, s.isTicking j = false := by
    rw [List.any_eq_false]
    constructor
    · intro h j
      cases ht : s.client.tasks[j]? with
      | none => rw [isTicking, ht]; rfl
      | some t => rw [isTicking, ht]; exact Bool.eq_false_iff.mpr (h t (List.mem_of_getElem? ht))
    · intro h t ht
      obtain ⟨j, hj⟩ := List.mem_iff_getElem?.mp ht
      have hno := h j
      rw [isTicking, hj] at hno
      exact Bool.eq_false_iff.mp hno
  rw [isHeld, Bool.or_eq_false_iff, Bool.or_eq_false_iff, htasks, List.any_eq_false, and_assoc]
  simp only [Bool.not_eq_true]

theorem isHeld_release (s : Session) : s.release.isHeld = s.isHeld := by
  have htasks : (s.client.tasks.map ReconnectTask.cancel).any ReconnectTask.isProbing =
      s.client.tasks.any ReconnectTask.isProbing := List.any_map
  rw [isHeld, (apart_release s).callers, client_release, htasks, isHeld]

/-- A client is given up just if nobody holds it, if it was not given up before while someone did. -/
theorem released_releaseUnheld (h : s.client.released = true → s.isHeld = false) :
    s.releaseUnheld.client.released = !s.releaseUnheld.isHeld := by
  unfold releaseUnheld
  split
  · rename_i hno
    cases hr : s.client.released with
    | true => rw [h hr]; rfl
    | false =>
      rw [hr, Bool.or_false] at hno
      rw [hno]
      rfl
  · rename_i hgone
    rw [Bool.or_eq_true, not_or, Bool.not_eq_true] at hgone
    rw [isHeld_release, hgone.1, client_release]
    rfl

/-! ## Steps -/

theorem isHeld_addCaller (id : FacadeId) (stage : CallerStage) (s : Session) :
    (s.addCaller (.result id) stage).2.isHeld = s.isHeld := by
  have hcallers : (s.addCaller (.result id) stage).2.callers.any Caller.holdsClient = s.callers.any Caller.holdsClient :=
    List.any_append.trans (Bool.or_false _)
  rw [isHeld, hcallers]
  rfl

theorem holding_call (id : FacadeId) (method : String) (args : List Json) (s : Session) :
    Holding s (s.call id method args).2 := by
  unfold call
  split
  · exact .same (isHeld_addCaller _ _ s) rfl
  · rename_i f hf
    obtain ⟨connections, hframe⟩ := invoke_frame f method args s
    split
    all_goals
      rename_i heq
      rw [heq] at hframe
      cases hframe
      exact .same (isHeld_addCaller _ _ _) rfl

theorem holdsClient_of_not_waiting {c : Caller} (h : c.waiting? = none) : c.holdsClient = false := by
  obtain ⟨purpose, stage⟩ := c
  cases stage with
  | waiting w => cases h
  | ended moment answer => cases purpose <;> rfl
  | gone => cases purpose <;> rfl

/-- A caller that no longer waits may have held the client. -/
theorem holding_leaveCaller {c' : Caller} (hc' : c'.waiting? = none) (k : Nat) (w : Waiting)
    (f : Pending.Table → Pending.Table) (s : Session) : Holding s
      ({ s.modify w.connection (Switchboard.onTable f) with callers := s.callers.set k c' } : Session).releaseUnheld := by
  refine .letGo rfl (fun hheld => ?_) rfl
  have hcallers (h : (s.callers.set k c').any Caller.holdsClient = true) : s.callers.any Caller.holdsClient = true := by
    obtain ⟨d, hd, hholds⟩ := List.any_eq_true.mp h
    rcases List.mem_or_eq_of_mem_set hd with hd | rfl
    · exact List.any_eq_true.mpr ⟨d, hd, hholds⟩
    · rw [holdsClient_of_not_waiting hc'] at hholds
      cases hholds
  simp only [isHeld, Bool.or_eq_true] at hheld ⊢
  exact hheld.imp_left (Or.imp_right hcallers)

theorem holding_resume (k : Nat) (s : Session) : Holding s (s.resume k) := by
  unfold resume
  split
  · exact .same rfl rfl
  · split
    · exact .same rfl rfl
    · split
      · exact .same rfl rfl
      · dsimp only
        rw [finish_eq]
        exact holding_leaveCaller rfl k _ _ s

theorem holding_abort (k : Nat) (s : Session) : Holding s (s.abort k) := by
  unfold abort
  split
  · exact .same rfl rfl
  · split
    · exact .same rfl rfl
    · dsimp only
      rw [forget_eq]
      exact holding_leaveCaller rfl k _ _ s

/-! ### Turns of tasks -/

theorem isHeld_modifyTask {f : ReconnectTask → ReconnectTask}
    (hf : ∀ t, (f t).isProbing = true → t.isProbing = true) (h : (s.modifyTask j f).isHeld = true) :
    s.isHeld = true := by
  have htasks (hany : (s.client.tasks.modify j f).any ReconnectTask.isProbing = true) :
      s.client.tasks.any ReconnectTask.isProbing = true := by
    obtain ⟨t', ht', hprobing⟩ := List.any_eq_true.mp hany
    obtain ⟨i, hi⟩ := List.mem_iff_getElem?.mp ht'
    rw [List.getElem?_modify] at hi
    obtain ⟨t, ht, rfl⟩ := Option.map_eq_some_iff.mp hi
    refine List.any_eq_true.mpr ⟨t, List.mem_of_getElem? ht, ?_⟩
    split at hprobing
    · exact hf t hprobing
    · exact hprobing
  simp only [isHeld, Bool.or_eq_true] at h ⊢
  exact h.imp_right htasks

theorem isHeld_of_client (hclient : s'.client = s.client) (hcallers : s'.callers = s.callers) :
    s'.isHeld = s.isHeld := by
  rw [isHeld, hclient, hcallers, isHeld]

/-- The end of a tick, if the client is held by the same as before. -/
theorem holding_endTick (hheld : m.isHeld = true → s.isHeld = true) (hr : m.client.released = s.client.released)
    (j : Nat) (t : ReconnectTask) (alive : Bool) : Holding s (m.endTick j t alive) := by
  have hconclude : (m.conclude t.plan.callback alive).2.isHeld = m.isHeld := by
    rw [isHeld, owned_conclude, (apart_conclude _ _ m).callers, tasks_conclude, isHeld]
  have hreleased : (m.conclude t.plan.callback alive).2.client.released = m.client.released := by
    have hcourse : Course True m [] (m.conclude t.plan.callback alive).2 ∨
        Course True m [.release, .attempt m.accepts] (m.conclude t.plan.callback alive).2 := course_conclude _ alive m
    rcases hcourse with h | h <;> exact h.remains.released
  refine .letGo rfl (fun h => hheld ?_) (hreleased.trans hr)
  rw [← hconclude]
  exact isHeld_modifyTask (fun t ht => by cases ht) h

theorem holding_runTask (j : Nat) (s : Session) : Holding s (s.runTask j) := by
  have hturn := taskTurn j s
  generalize s.runTask j = s' at hturn ⊢
  cases hturn with
  | idle => exact .same rfl rfl
  | ends ht hstage ho =>
    rw [finish_eq]
    exact holding_endTick (s := s) (m := s.modify _ _) (fun h => h) rfl j _ _
  | @begins t hdue =>
    rw [beginTick_eq]
    have hclient := tasks_probe (s.modifyTask j (ReconnectTask.takeTick s.now))
    have hcallers : (s.modifyTask j (ReconnectTask.takeTick s.now)).probe.2.callers = s.callers := by
      obtain ⟨connections, hframe⟩ := (asked_probe (s.modifyTask j (ReconnectTask.takeTick s.now))).frame
      rw [hframe]
      rfl
    have htask : (s.modifyTask j (ReconnectTask.takeTick s.now)).probe.2.client.tasks[j]? = some (t.takeTick s.now) := by
      rw [hclient]
      exact task_modifyTask hdue.task _
    have hr : (s.modifyTask j (ReconnectTask.takeTick s.now)).probe.2.client.released = s.client.released := by
      rw [hclient]
      rfl
    have hheld (h : (s.modifyTask j (ReconnectTask.takeTick s.now)).probe.2.isHeld = true) : s.isHeld = true := by
      rw [isHeld_of_client hclient hcallers] at h
      exact isHeld_modifyTask (f := ReconnectTask.takeTick s.now) (fun t ht => ht) h
    generalize (s.modifyTask j (ReconnectTask.takeTick s.now)).probe = p at htask hr hheld
    obtain ⟨answer, m⟩ := p
    cases answer with
    | answered alive => exact holding_endTick hheld hr j t alive
    | asked w =>
      refine .taken hdue.held (Bool.or_eq_true_iff.mpr (.inr ?_)) (hr.trans hdue.held)
      exact List.any_eq_true.mpr ⟨_, List.mem_of_getElem? (task_modifyTask htask _), rfl⟩
  | @retires t ht hstage hno =>
    have hticking := ticking_modifyTask (f := fun t => { t with stage := .over }) ht rfl
    rw [isProbing_of_resting hstage] at hticking
    refine .same ?_ rfl
    rw [isHeld, isHeld, any_isProbing, any_isProbing, ← hticking]
    rfl

/-- What any step does to those who hold the client, if nobody does what takes a client. -/
theorem holding_perform (ha : a.takesClient = false) (s : Session) : Holding s (s.perform a) := by
  cases a with
  | refuse refuse => exact .same rfl rfl
  | letGo name => exact .same rfl rfl
  | call id method args => exact holding_call id method args s
  | abort k => exact holding_abort k s
  | peer i act => exact .same rfl rfl
  | pass ms => exact .same rfl rfl
  | turn turn =>
    cases turn with
    | dispatcher i => exact .same rfl rfl
    | server i =>
      show Holding s (s.serve i)
      unfold serve
      split <;> exact .same rfl rfl
    | caller k => exact holding_resume k s
    | task j => exact holding_runTask j s
  | _ => cases ha

/-! ## Clients without owners -/

/-- Only its owner drops a client. -/
theorem owned_of_ne_dropClient (ha : a ≠ .dropClient) (s : Session) :
    (s.perform a).client.owned = s.client.owned := by
  have hcourse {m t : Session} (hasked : s.Asked m) (hc : Course (a ≠ .dropClient) m (s.events a) t) :
      t.client.owned = s.client.owned := by
    obtain ⟨connections, rfl⟩ := hasked.frame
    exact hc.remains.owned ha
  cases manner a s with
  | peer i act hp he h => rw [h]; rfl
  | dispatcher i h => rw [h]; rfl
  | facade hmakes hp he h => exact h.owned ha
  | idle hp he h hs => exact h.owned ha
  | deed hp h =>
    cases h with
    | held hasked hc => exact hcourse hasked hc
    | givenUp hasked hc heq hno =>
      rw [heq, client_release]
      exact hcourse hasked hc

theorem orphan_dropClient (hr : s.client.released = false) : s.dropClient.Orphan := by
  have hreleased : s.dropClient.client.released = !s.dropClient.isHeld :=
    released_releaseUnheld (s := s.onClient fun c => { c with owned := false }) fun h => by
      rw [show (s.onClient fun c => { c with owned := false }).client.released = s.client.released from rfl, hr] at h
      cases h
  refine ⟨?_, hreleased⟩
  unfold dropClient releaseUnheld
  split
  · rfl
  · rw [client_release]
    rfl

/-- As long as nobody does what takes a client, one without an owner is given up just if nobody holds it. -/
theorem Orphan.perform (h : s.Orphan) (ha : a.takesClient = false) : (s.perform a).Orphan where
  owned := (owned_of_ne_dropClient (ne_dropClient_of_takesClient ha) s).trans h.owned
  released := by
    cases holding_perform ha s with
    | same hheld hr => rw [hr, hheld, h.released]
    | taken hr hheld hr' => rw [hr', hheld]; rfl
    | @letGo m heq hheld hr =>
      rw [heq]
      refine released_releaseUnheld fun hgone => ?_
      rw [hr, h.released, Bool.not_eq_true'] at hgone
      exact Bool.eq_false_iff.mpr fun hm => by rw [hheld hm] at hgone; cases hgone

theorem Orphan.run (h : s.Orphan) (ha : ∀ a ∈ actions, a.takesClient = false) : (s.run actions).Orphan := by
  induction actions generalizing s with
  | nil => exact h
  | cons a actions ih => exact ih (h.perform (ha a List.mem_cons_self)) fun b hb => ha b (List.mem_cons_of_mem a hb)

/-! ## Clients that were given up -/

theorem modify_of_fixed {α : Type} {f : α → α} {l : List α} {n : Nat} (hf : ∀ a, l[n]? = some a → f a = a) :
    l.modify n f = l := by
  refine List.ext_getElem? fun k => ?_
  rw [List.getElem?_modify]
  split
  · rename_i hnk
    subst hnk
    cases ha : l[n]? with
    | none => rfl
    | some a => exact congrArg some (hf a ha)
  · exact Option.map_id' ..

/-- No connection of a client that was given up runs. -/
theorem halted_of_none (hs : s.board.Sound) (hi : s.client.installed = none) (hc : s.connections[i]? = some c) :
    c.running = false := by
  by_contra hrun
  rw [Bool.not_eq_false] at hrun
  have hused : s.client.installed = some i := hs.used i c hc hrun
  rw [hi] at hused
  cases hused

/-- A task that was cancelled and is not inside a tick does nothing in its turn but end. -/
theorem runTask_of_calm (hcalm : s.Calm) (hidle : s.ticking = 0) (j : Nat) :
    s.runTask j = s.modifyTask j fun t => { t with stage := .over } := by
  cases ht : s.client.tasks[j]? with
  | none =>
    have hfixed : s.client.tasks.modify j (fun t => { t with stage := .over }) = s.client.tasks :=
      modify_of_fixed fun t h => by rw [ht] at h; cases h
    simp only [runTask, ht, modifyTask, onClient, hfixed]
  | some t =>
    have hprobing : t.isProbing = false := by
      have hnone : s.client.tasks.any ReconnectTask.isProbing = false := by
        rw [any_isProbing, hidle]
        rfl
      exact Bool.eq_false_iff.mpr (List.any_eq_false.mp hnone t (List.mem_of_getElem? ht))
    cases hstage : t.stage with
    | «over» =>
      have hfixed : s.client.tasks.modify j (fun t => { t with stage := .over }) = s.client.tasks := by
        refine modify_of_fixed fun t' ht' => ?_
        cases ht.symm.trans ht'
        rw [← hstage]
      simp only [runTask, ht, hstage, modifyTask, onClient, hfixed]
    | probing w => simp [ReconnectTask.isProbing, hstage] at hprobing
    | resting =>
      have hcancelled : t.cancelled = true := by
        refine (hcalm t (List.mem_of_getElem? ht)).resolve_right fun hover => ?_
        rw [hstage] at hover
        cases hover
      simp only [runTask, ht, hstage, hcancelled, if_true]

theorem givenUp_of_calm (hs : s.board.Sound) (hr : s.client.released = true) (hi : s.client.installed = none)
    (hcalm : s.Calm) (hidle : s.ticking = 0) : GivenUp s := by
  have hinvoke (f : Facade) (method : String) (args : List Json) (o : Outgoing) (ho : f.outgoing method args = .ok o) :
      s.invoke f method args = (.error (.connectFailure "" .clientDropped), s) := by
    simp only [invoke, ho, channel, hr, if_true]
  refine ⟨hr, hi, hinvoke, fun id f method args o hf ho => ?_, fun i => ?_, runTask_of_calm hcalm hidle, fun w hw => ?_⟩
  · show (s.call id method args).2 = _
    simp only [call, hf, hinvoke f method args o ho]
  · have hfixed : s.connections.modify i (Connection.dispatch s.now) = s.connections :=
      modify_of_fixed fun c hc => Connection.dispatch_of_halted (halted_of_none hs hi hc) s.now
    show s.modify i (Connection.dispatch s.now) = s
    rw [modify, hfixed]
  · obtain ⟨x, hx, -⟩ := hs.waited w hw
    refine outcome?_isSome_of_closed hx ?_
    by_contra hopen
    rw [Bool.not_eq_false] at hopen
    obtain ⟨c, hc, -⟩ := Switchboard.call?_eq_some_iff.mp hx
    have hrun := hs.isRunning hx hopen
    rw [Switchboard.isRunning_of_getElem? hc, halted_of_none hs hi hc] at hrun
    cases hrun

/-- The step in which a client is given up ends with that, and nobody holds it then. -/
theorem perform_of_given_up (hr : s.client.released = false) (hr' : (s.perform a).client.released = true) :
    ∃ m : Session, s.perform a = m.release ∧ m.isHeld = false := by
  have hsame (h : (s.perform a).client.released = s.client.released) :
      ∃ m : Session, s.perform a = m.release ∧ m.isHeld = false := by
    rw [hr', hr] at h
    cases h
  cases manner a s with
  | peer i act hp he h => exact hsame (by rw [h]; rfl)
  | dispatcher i h => exact hsame (by rw [h]; rfl)
  | facade ha hp he h => exact hsame h.released
  | idle hp he h hs => exact hsame h.released
  | deed hp h =>
    cases h with
    | held ha hc => exact hsame (hc.remains.released.trans ha.steady.released)
    | givenUp ha hc h hno => exact ⟨_, h, hno⟩

/-- What a client is when it has just been given up. -/
theorem calm_release (hno : s.isHeld = false) :
    s.release.client.released = true ∧ s.release.client.installed = none ∧ s.release.Calm ∧ s.release.ticking = 0 := by
  have hheld := isHeld_release s
  rw [hno, isHeld, Bool.or_eq_false_iff, any_isProbing, decide_eq_false_iff_not] at hheld
  refine ⟨by rw [client_release], by rw [client_release], fun t ht => .inl ?_, by omega⟩
  rw [tasks_release] at ht
  obtain ⟨t₀, -, rfl⟩ := List.mem_map.mp ht
  rfl

/-- A client that was given up stays so, and asks for no connection. -/
theorem givenUp_run (hs : s.board.Sound) (hr : s.client.released = true) (hi : s.client.installed = none)
    (hcalm : s.Calm) (hidle : s.ticking = 0) (ha : ∀ a ∈ actions, a.takesClient = false) :
    GivenUp (s.run actions) ∧ (s.run actions).attempts = s.attempts := by
  have hebbs := ebbs_run hcalm fun a h => asksForConnection_of_takesClient (ha a h)
  have hattempts : (s.run actions).attempts = s.attempts := by
    have hle := hebbs.attempts_le
    have hebb := hebbs.ebb
    omega
  have hr' : (s.run actions).client.released = true := by
    by_contra hheld
    rw [held_run (Bool.eq_false_iff.mpr hheld)] at hr
    cases hr
  have hi' : (s.run actions).client.installed = none := by
    by_contra hsome
    rcases hebbs.installed hsome with hold | hmore
    · exact hold hi
    · omega
  refine ⟨givenUp_of_calm (sound_run hs actions) hr' hi' hebbs.calm ?_, hattempts⟩
  have hebb := hebbs.ebb
  omega

/-! ## Calls that stand when a client is given up -/

/-- A call that stands leaves with its connection when the client is given up. -/
theorem exit_of_given_up (hs : s.board.Sound) (hr : s.client.released = false)
    (hr' : (s.perform a).client.released = true) (hw : w ∈ (s.perform a).waiters) (hx : s.board.call? w = some x)
    (ho : x.isOpen = true) : ∃ y, (s.perform a).board.call? w = some y ∧ y.exit = some .abandoned := by
  obtain ⟨m, hm, hno⟩ := perform_of_given_up hr hr'
  have hi : (s.perform a).client.installed = none := by rw [hm]; exact (calm_release hno).2.1
  rcases dispatch_or_step a s with ⟨i, rfl⟩ | ⟨-, hstep⟩
  · rw [show (s.perform (.turn (.dispatcher i))).client = s.client from rfl, hr] at hr'
    cases hr'
  · obtain ⟨y, hy, -, ⟨-, hrun⟩ | ⟨hexit, -⟩⟩ := hstep.fate hs hw hx ho
    · obtain ⟨c, hc, -⟩ := Switchboard.call?_eq_some_iff.mp hy
      rw [Switchboard.isRunning_of_getElem? hc, halted_of_none (sound_perform hs a) hi hc] at hrun
      cases hrun
    · exact ⟨y, hy, hexit⟩

theorem outcome?_of_given_up (hs : s.board.Sound) (hr : s.client.released = false)
    (hr' : (s.perform a).client.released = true) (hw : w ∈ (s.perform a).waiters) :
    ∃ x, s.board.call? w = some x ∧
      (s.perform a).outcome? w = if x.isOpen then some (.error .connectionClosed) else s.outcome? w := by
  by_cases hold : w ∈ s.waiters
  · obtain ⟨x, hx, -⟩ := hs.waited w hold
    refine ⟨x, hx, ?_⟩
    split
    · rename_i ho
      obtain ⟨y, hy, hexit⟩ := exit_of_given_up hs hr hr' hw hx ho
      rw [outcome?_of_call hy]
      simp only [Call.outcome?, hexit]
    · rename_i hclosed
      obtain ⟨y, hy, hxy⟩ := call?_perform hx a
      rw [outcome?_of_call hy, outcome?_of_call hx]
      exact hxy.outcome? (Bool.eq_false_iff.mpr hclosed) _ _
  · -- nobody begins to wait in this step, since no call stands after it
    exfalso
    rcases dispatch_or_step a s with ⟨i, rfl⟩ | ⟨-, hstep⟩
    · exact hold hw
    · obtain ⟨_, _, _, -, -, -, -, hy⟩ := hstep.issued hw hold
      obtain ⟨m, hm, hno⟩ := perform_of_given_up hr hr'
      have hi : (s.perform a).client.installed = none := by rw [hm]; exact (calm_release hno).2.1
      have hsound := sound_perform hs a
      obtain ⟨c, hc, -⟩ := Switchboard.call?_eq_some_iff.mp hy
      have hrun := hsound.isRunning hy rfl
      rw [Switchboard.isRunning_of_getElem? hc, halted_of_none hsound hi hc] at hrun
      cases hrun

/-- Whoever waits through a façade for a call without an outcome ends when the client is given up. -/
theorem endsAt_of_given_up {id : FacadeId} {f : Facade} (hs : s.board.Sound) (hr : s.client.released = false)
    (hr' : (s.perform a).client.released = true) (hk : s.callers[k]? = some ⟨.result id, .waiting w⟩)
    (hf : s.facade? id = some f) (hnone : s.outcome? w = none) (ha : a ≠ .abort k) {after : List Action}
    (hstays : ∀ b ∈ after, b ≠ .abort k) (htime : punctual k after (s.perform a) = true) :
    EndsAt k (.result id) (s.perform a).now (.result (.error .connectionClosed)) ((s.perform a).run after) := by
  have hk' : (s.perform a).callers[k]? = some ⟨.result id, .waiting w⟩ := by
    by_cases hcaller : a.caller? = some k
    · have hidle : s.perform a = s := by
        rw [eq_turn_of_caller? hcaller ha]
        exact resume_of_no_outcome hk rfl hnone
      rw [hidle, hk]
    · exact callers_perform hk hcaller
  obtain ⟨x, hx, -⟩ := hs.waited w (mem_waiters (waitsFor?_eq hk))
  obtain ⟨hopen, -⟩ := open_of_outcome? hx hnone
  obtain ⟨y, hy, hexit⟩ := exit_of_given_up hs hr hr' (mem_waiters (waitsFor?_eq hk')) hx hopen
  have hout : y.outcome? (s.perform a).now = some (.error .connectionClosed) := by
    simp only [Call.outcome?, hexit]
  have hdecided := decided_of_exit hk' (facade?_perform hf a) hy hexit hout
  rcases ends_run (.inl hdecided) hstays htime with hdecided | hended
  · obtain ⟨z, hz, -, hout'⟩ := hdecided.call
    exact endsAt_of_outcome hdecided.waits hdecided.facade ((outcome?_of_call hz).trans (hout' _)) hdecided.now
  · exact .inl hended.caller

theorem surrenders_of_given_up (hs : s.board.Sound) (hr : s.client.released = false)
    (hr' : (s.perform a).client.released = true) : Surrenders a s (s.perform a) where
  calls w hw := outcome?_of_given_up hs hr hr' hw
  callers k id f w hk hf hnone ha after hstays htime := endsAt_of_given_up hs hr hr' hk hf hnone ha hstays htime
  later after hafter := by
    obtain ⟨m, hm, hno⟩ := perform_of_given_up hr hr'
    obtain ⟨-, hi, hcalm, hidle⟩ := calm_release hno
    rw [← hm] at hi hcalm hidle
    exact givenUp_run (sound_perform hs a) hr' hi hcalm hidle hafter

/-! ## Main statement -/

/-- **A client that is dropped is given up.** After its owner has dropped it, it is given up just if nobody asks whether its
connection lives and no tick is under way, whoever has façades: at once, or in the step in which the last of these ends.
Then all calls that stand end, and for good every call fails, no dispatcher does anything, and no task makes an attempt to
connect. -/
theorem dropped_client_is_given_up (config : Config) (codec : Codec) (before after : List Action) :
    .dropClient ∉ before → (∀ a ∈ after, a.takesClient = false) →
    let s := (ofConfig config codec).run before
    let dropped := s.perform .dropClient
    let final := dropped.run after
    (final.client.released = true ↔
        (∀ c ∈ final.callers, c.holdsClient = false) ∧ ∀ j, final.isTicking j = false) ∧
      (dropped.client.released = true → Surrenders .dropClient s dropped) ∧
      ∀ a, a.takesClient = false → final.client.released = false → (final.perform a).client.released = true →
        Surrenders a final (final.perform a) := by
  intro hkept hnobody s dropped final
  have hs : s.board.Sound := sound_run (sound_ofConfig config codec) before
  have hheld : s.Held := Held.run (s := ofConfig config codec) ⟨rfl, rfl⟩ hkept
  have horphan : final.Orphan := (orphan_dropClient hheld.2).run hnobody
  refine ⟨?_, fun hr' => surrenders_of_given_up hs hheld.2 hr',
    fun a ha hr hr' => surrenders_of_given_up (sound_run (sound_perform hs _) after) hr hr'⟩
  rw [horphan.released, Bool.not_eq_true', isHeld_eq_false_iff]
  exact ⟨fun h => h.2, fun h => ⟨horphan.owned, h⟩⟩

/-- A call waits, and a tick for the answer to its ping, when the client is dropped. The answer comes, the tick ends, and
the client is given up then. -/
theorem dropped_during_tick :
    let before : List Action := [.connect, .commandFacade, .call 0 "ping" [], .enableReconnect { intervalMs := 1000 },
      .pass 1000, .turn (.task 0)]
    let pong : Response := .success 1 [34, 34]
    let after : List Action := [.peer 0 (.send (.packet (.response pong))), .turn (.dispatcher 0)]
    let s := (ofConfig {}).run before
    let final := (s.perform .dropClient).run after
    let ended := final.perform (.turn (.task 0))
    s.isTicking 0 = true ∧ final.client.released = false ∧ ended.client.released = true ∧ ended.attempts = 1 ∧
      ended.outcome? ⟨0, 0⟩ = some (.error .connectionClosed) ∧ Surrenders (.turn (.task 0)) final ended := by
  intro before pong after s final ended
  have hnobody : ∀ a ∈ after, a.takesClient = false := by simp [after, Action.takesClient]
  obtain ⟨-, -, hsurrenders⟩ := dropped_client_is_given_up {} .json before after (by simp [before]) hnobody
  exact ⟨by decide +kernel, by decide +kernel, by decide +kernel, by decide +kernel, by decide +kernel,
    hsurrenders (.turn (.task 0)) rfl (by decide +kernel) (by decide +kernel)⟩

end RemoteCall.Session
