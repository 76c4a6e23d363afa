import RemoteCall.Proofs.Session.Lifecycle

/-!
# Steps of a session as moves

Calls, callers, ticks and with them all that can happen in a session, as seen on its switchboard.

* `invoke_cases`: a call is not sent and nothing changes, or it is sent over the connection in use.
* `TaskTurn`: what a task does in its turn, and `taskTurn`, that it does nothing else.
* `step_perform`: what every step that is no turn of a dispatcher is on the switchboard.
* `sound_run`: the invariant of the switchboard holds in every run.
-/

namespace RemoteCall

open Pending (Call Table Ticket Outcome)
open Switchboard (Move Moves Send Sound)

namespace Session

variable {s s' : Session} {i j k : Nat} {w : Waiting}

/-! ## Sending -/

/-- The new call that someone has to wait for, if there is one. -/
def waiterOf : Except CallError (Option Waiting) → Multiset Waiting
  | .ok (some w) => {w}
  | _ => 0

/-- The connection in use, if there is one that requests can go over. -/
theorem channel_eq_ok (h : s.channel = .ok i) : s.client.installed = some i ∧
    ∃ c, s.connections[i]? = some c ∧ c.link.active = true := by
  unfold channel at h
  split at h
  · cases h
  · dsimp only at h
    split at h
    · cases h
    · rename_i j hj
      split at h
      · cases h
      · rename_i c hc
        cases ha : c.link.active with
        | false => simp [ha] at h
        | true =>
          split at h
          · cases h
          · split at h
            · cases h
            · cases h
              exact ⟨hj, c, hc, ha⟩

theorem timeoutMs_outgoing {f : Facade} {method : String} {args : List Json} {o : Outgoing}
    (h : f.outgoing method args = .ok o) : o.timeoutMs = f.timeoutMs := by
  unfold Facade.outgoing at h
  split at h
  · cases h
  · split at h
    · cases h
    · split at h
      · cases h
      · cases h
        rfl

/-- A call is not sent and nothing changes, or it is sent over the connection in use and nothing else happens. -/
theorem invoke_cases (f : Facade) (method : String) (args : List Json) (s : Session) :
    (∃ e, s.invoke f method args = (.error e, s)) ∨
      ∃ i c o, f.outgoing method args = .ok o ∧ s.client.installed = some i ∧ s.connections[i]? = some c ∧
        c.link.active = true ∧ s.invoke f method args =
          ((c.send s.now o).1.map (Option.map (Waiting.mk i)),
            { s with connections := s.connections.set i (c.send s.now o).2 }) := by
  cases hout : f.outgoing method args with
  | error e => exact .inl ⟨e, by simp [invoke, hout]⟩
  | ok o =>
    cases hch : s.channel with
    | error e => exact .inl ⟨e, by simp [invoke, hout, hch]⟩
    | ok i =>
      obtain ⟨hi, c, hc, ha⟩ := channel_eq_ok hch
      refine .inr ⟨i, c, o, rfl, hi, hc, ha, ?_⟩
      simp only [invoke, hout, hch, onConnection, hc]
      cases (c.send s.now o).1 <;> rfl

/-- What a call is on the switchboard. -/
theorem sends_invoke (f : Facade) (method : String) (args : List Json) (s : Session) (W : Multiset Waiting) :
    (∃ e, s.invoke f method args = (.error e, s)) ∨
      Send s.now (s.boardOf W)
        ((s.invoke f method args).2.boardOf (waiterOf (s.invoke f method args).1 + W)) := by
  rcases invoke_cases f method args s with herr | ⟨i, c, o, -, hi, hc, ha, heq⟩
  · exact .inl herr
  · right
    have hnew : Switchboard.newWaiter i (c.send s.now o).1 =
        waiterOf ((c.send s.now o).1.map (Option.map (Waiting.mk i))) := by
      rcases (c.send s.now o).1 with e | (_ | n) <;> rfl
    rw [heq, ← hnew]
    exact .request (b := s.boardOf W) hi hc ha

theorem invoke_frame (f : Facade) (method : String) (args : List Json) (s : Session) :
    ∃ connections, (s.invoke f method args).2 = { s with connections } := by
  rcases invoke_cases f method args s with ⟨e, h⟩ | ⟨i, c, o, -, -, -, -, h⟩
  · exact ⟨s.connections, by rw [h]⟩
  · exact ⟨_, by rw [h]⟩

theorem apart_invoke (f : Facade) (method : String) (args : List Json) (s : Session) :
    s.Apart (s.invoke f method args).2 := by
  obtain ⟨connections, h⟩ := invoke_frame f method args s
  rw [h]
  exact ⟨rfl, rfl, List.prefix_rfl⟩

/-- What comes of asking whether the connection lives: nothing is sent, or a ping is. -/
theorem probe_cases (s : Session) :
    (∃ alive, s.probe = (.answered alive, s)) ∨
      ∃ f, (∃ alive, s.probe = (.answered alive, (s.invoke f "ping" []).2) ∧
          waiterOf (s.invoke f "ping" []).1 = 0) ∨
        ∃ w, s.probe = (.asked w, (s.invoke f "ping" []).2) ∧ (s.invoke f "ping" []).1 = .ok (some w) := by
  unfold probe
  split
  · exact .inl ⟨false, rfl⟩
  · split
    · exact .inl ⟨true, rfl⟩
    · rename_i f hf
      refine .inr ⟨f, ?_⟩
      split <;> (rename_i heq; simp [heq, waiterOf])

/-- A ping that is waited for was sent through the façade of the command service. -/
theorem invoke_of_asked {w : Waiting} {m : Session} (h : s.probe = (.asked w, m)) :
    ∃ f, s.client.command.bind s.facade? = some f ∧ s.invoke f "ping" [] = (.ok (some w), m) := by
  unfold probe at h
  split at h
  · cases h
  · split at h
    · cases h
    · rename_i f hf
      split at h
      · rename_i hinvoke
        cases h
        exact ⟨f, hf, hinvoke⟩
      · cases h
      · cases h

/-! ## Waiting -/

theorem onTable_eq_modify (i : Nat) (f : Table → Table) (s : Session) :
    (s.onTable i fun t => ((), f t)).2 = s.modify i (Switchboard.onTable f) := by
  unfold onTable onConnection modify
  cases hc : s.connections[i]? with
  | none => rw [List.modify_eq_self (List.getElem?_eq_none_iff.mp hc)]
  | some c => rw [modify_eq_set _ hc]; rfl

theorem finish_eq (w : Waiting) (s : Session) :
    s.finish w = s.modify w.connection (Switchboard.onTable (Table.finish w.ticket)) :=
  onTable_eq_modify _ _ s

theorem forget_eq (w : Waiting) (s : Session) :
    s.forget w = s.modify w.connection (Switchboard.onTable (Table.forget w.ticket)) :=
  onTable_eq_modify _ _ s

/-- A call is no longer waited for. -/
theorem leave_boardOf {f : Table → Table} (hf : f = Table.finish w.ticket ∨ f = Table.forget w.ticket)
    (s : Session) (rest : Multiset Waiting) :
    Move s.now (s.boardOf (w ::ₘ rest)) ((s.modify w.connection (Switchboard.onTable f)).boardOf rest) :=
  .leave (b := s.boardOf (w ::ₘ rest)) rfl hf

theorem apart_modify (i : Nat) (f : Connection → Connection) (s : Session) : s.Apart (s.modify i f) :=
  ⟨rfl, rfl, List.prefix_rfl⟩

/-! ## Callers -/

theorem waiters_addCaller (purpose : Purpose) (stage : CallerStage) (s : Session) :
    (s.addCaller purpose stage).2.waiters = (Caller.mk purpose stage).waiting?.toList + s.waiters := by
  simp only [waiters, addCaller, List.filterMap_append]
  have hone : List.filterMap Caller.waiting? [⟨purpose, stage⟩] = (Caller.mk purpose stage).waiting?.toList := by
    cases h : (Caller.mk purpose stage).waiting? <;> simp [h]
  rw [hone, ← Multiset.coe_add, Multiset.add_comm (List.filterMap Caller.waiting? s.callers : Multiset Waiting),
    Multiset.add_assoc]

/-- Someone who called begins to wait, or has an answer. -/
theorem step_addCaller (purpose : Purpose) (stage : CallerStage) (f : Facade) (method : String)
    (args : List Json) (s : Session) (hw : ((Caller.mk purpose stage).waiting?.toList : Multiset Waiting) =
      waiterOf (s.invoke f method args).1) :
    Switchboard.Step s.now s.board ((s.invoke f method args).2.addCaller purpose stage).2.board := by
  obtain ⟨connections, hframe⟩ := invoke_frame f method args s
  have hwaiters : (s.invoke f method args).2.waiters = s.waiters := by rw [hframe]; rfl
  rcases sends_invoke f method args s s.waiters with ⟨e, h⟩ | h
  · have hzero : waiterOf (s.invoke f method args).1 = 0 := by rw [h]; rfl
    refine .moved ?_
    rw [board, board, waiters_addCaller, hw, hzero, Multiset.zero_add, h]
    exact .refl
  · refine .sent ?_
    rw [board, board, waiters_addCaller, hw, hwaiters]
    exact h

theorem step_ended (purpose : Purpose) (moment : Nat) (a : Answer) (s : Session) :
    (s.addCaller purpose (.ended moment a)).2.board = s.board := by
  rw [board, board, waiters_addCaller]
  exact congrArg s.boardOf (Multiset.zero_add _)

theorem step_call (id : FacadeId) (method : String) (args : List Json) (s : Session) :
    Switchboard.Step s.now s.board (s.call id method args).2.board := by
  unfold call
  split
  · rw [step_ended]
    exact .moved .refl
  · rename_i f hf
    have hs (stage : CallerStage) :=
      step_addCaller (.result id) stage f method args s
    split
    all_goals
      rename_i heq
      rw [heq] at hs
      exact hs _ rfl

theorem step_askLiveness (s : Session) : Switchboard.Step s.now s.board s.askLiveness.2.board := by
  unfold askLiveness
  rcases probe_cases s with ⟨alive, h⟩ | ⟨f, ⟨alive, h, hw⟩ | ⟨w, h, hw⟩⟩
  · rw [h]
    dsimp only
    rw [step_ended]
    exact .moved .refl
  · rw [h]
    exact step_addCaller _ _ f _ _ s (by rw [hw]; rfl)
  · rw [h]
    exact step_addCaller _ _ f _ _ s (by rw [hw]; rfl)

/-- A caller that waited does so no longer. -/
theorem waiters_setCaller {c : Caller} (hk : s.callers[k]? = some c) (hw : c.waiting? = some w) {c' : Caller}
    (hc' : c'.waiting? = none) :
    s.waiters = w ::ₘ { s with callers := s.callers.set k c' }.waiters := by
  obtain ⟨rest, hold, hnew⟩ := filterMap_set Caller.waiting? hk c'
  rw [hw] at hold
  rw [hc'] at hnew
  simp only [waiters]
  rw [hold, hnew]
  simp

theorem moves_leaveCaller {c : Caller} (hk : s.callers[k]? = some c) (hw : c.waiting? = some w) {c' : Caller}
    (hc' : c'.waiting? = none) {f : Table → Table}
    (hf : f = Table.finish w.ticket ∨ f = Table.forget w.ticket) :
    let s' := s.modify w.connection (Switchboard.onTable f)
    Moves s.now s.board ({ s' with callers := s'.callers.set k c' } : Session).releaseUnheld.board := by
  intro s'
  have hrest := moves_releaseUnheld ({ s' with callers := s'.callers.set k c' } : Session)
  refine Relation.ReflTransGen.head ?_ hrest
  rw [board, waiters_setCaller hk hw hc']
  exact leave_boardOf hf s _

theorem moves_resume (k : Nat) (s : Session) : Moves s.now s.board (s.resume k).board := by
  unfold resume
  split
  · exact .refl
  · rename_i c hc
    split
    · exact .refl
    · rename_i w hw
      split
      · exact .refl
      · rename_i o ho
        dsimp only
        rw [finish_eq]
        exact moves_leaveCaller hc hw rfl (.inl rfl)

theorem moves_abort (k : Nat) (s : Session) : Moves s.now s.board (s.abort k).board := by
  unfold abort
  split
  · exact .refl
  · rename_i c hc
    split
    · exact .refl
    · rename_i w hw
      dsimp only
      rw [forget_eq]
      exact moves_leaveCaller hc hw rfl (.inr rfl)

/-! ## Ticks -/

/-- A tick that finds no life releases the connection in use and makes one attempt. -/
theorem conclude_of_dead (callback : Bool) (s : Session) : ∃ callbacks, (s.conclude callback false).2 =
    s.disconnect.connect.2.onClient fun c => { c with callbacks } := by
  unfold conclude
  rw [if_neg Bool.false_ne_true]
  split <;> (rename_i s' heq; rw [heq])
  · cases callback
    · exact ⟨s'.client.callbacks, rfl⟩
    · exact ⟨s'.client.callbacks + 1, rfl⟩
  · exact ⟨s'.client.callbacks, rfl⟩

/-- A tick that finds the connection alive changes nothing; else one attempt is made after a release. -/
theorem conclude_cases (callback alive : Bool) (s : Session) :
    (s.conclude callback alive).2 = s ∨ ∃ callbacks, (s.conclude callback alive).2 =
      s.disconnect.connect.2.onClient fun c => { c with callbacks } := by
  cases alive with
  | true => exact .inl rfl
  | false => exact .inr (conclude_of_dead callback s)

theorem apart_conclude (callback alive : Bool) (s : Session) : s.Apart (s.conclude callback alive).2 := by
  rcases conclude_cases callback alive s with h | ⟨n, h⟩ <;> rw [h]
  · exact .refl s
  · exact ((apart_disconnect s).trans (apart_connect _)).trans ⟨rfl, rfl, List.prefix_rfl⟩

theorem moves_conclude (callback alive : Bool) (s : Session) (W : Multiset Waiting) :
    Moves s.now (s.boardOf W) ((s.conclude callback alive).2.boardOf W) := by
  rcases conclude_cases callback alive s with h | ⟨n, h⟩ <;> rw [h]
  · have hconnect := moves_connect s.disconnect W
    rw [(apart_disconnect s).now] at hconnect
    exact (moves_disconnect s W).trans hconnect

theorem tasks_conclude (callback alive : Bool) (s : Session) :
    (s.conclude callback alive).2.client.tasks = s.client.tasks := by
  rcases conclude_cases callback alive s with h | ⟨n, h⟩ <;> rw [h]
  exact (tasks_connect _).trans (tasks_disconnect s)

theorem waiters_modifyTask {t : ReconnectTask} (ht : s.client.tasks[j]? = some t)
    (f : ReconnectTask → ReconnectTask) :
    ∃ rest : Multiset Waiting, s.waiters = t.probing?.toList + rest ∧
      (s.modifyTask j f).waiters = (f t).probing?.toList + rest := by
  obtain ⟨rest, hold, hnew⟩ := filterMap_set ReconnectTask.probing? ht (f t)
  rw [← modify_eq_set f ht] at hnew
  refine ⟨rest + (s.callers.filterMap Caller.waiting? : Multiset Waiting), ?_, ?_⟩
  · rw [waiters, hold, Multiset.add_comm, Multiset.add_assoc]
  · show ((s.callers.filterMap Caller.waiting? : Multiset Waiting) +
      ((s.client.tasks.modify j f).filterMap ReconnectTask.probing? : Multiset Waiting)) = _
    rw [hnew, Multiset.add_comm, Multiset.add_assoc]

/-- A task that rests before and after a change waits for nothing. -/
theorem waiters_rest {t : ReconnectTask} (ht : s.client.tasks[j]? = some t) (hr : t.probing? = none)
    {f : ReconnectTask → ReconnectTask} (hf : (f t).probing? = none) :
    (s.modifyTask j f).waiters = s.waiters := by
  obtain ⟨rest, hold, hnew⟩ := waiters_modifyTask ht f
  rw [hold, hnew, hr, hf]

/-- A task begins to wait for the answer to its ping. -/
theorem waiters_probing {t : ReconnectTask} (ht : s.client.tasks[j]? = some t) (hr : t.probing? = none)
    (w : Waiting) : (s.modifyTask j fun t => { t with stage := .probing w }).waiters = {w} + s.waiters := by
  obtain ⟨rest, hold, hnew⟩ := waiters_modifyTask ht fun t => { t with stage := .probing w }
  rw [hold, hnew, hr]
  exact congrArg (({w} : Multiset Waiting) + ·) (Multiset.zero_add rest).symm

/-- A task has the answer to its ping. -/
theorem waiters_answered {t : ReconnectTask} (ht : s.client.tasks[j]? = some t) (hp : t.probing? = some w) :
    s.waiters = w ::ₘ (s.modifyTask j fun t => { t with stage := .resting }).waiters := by
  obtain ⟨rest, hold, hnew⟩ := waiters_modifyTask ht fun t => { t with stage := .resting }
  rw [hold, hnew, hp]
  exact congrArg (w ::ₘ ·) (Multiset.zero_add rest).symm

theorem apart_endTick (j : Nat) (t : ReconnectTask) (alive : Bool) (s : Session) :
    s.Apart (s.endTick j t alive) := by
  have hconclude := apart_conclude t.plan.callback alive s
  have hmodify : s.Apart ((s.conclude t.plan.callback alive).2.modifyTask j
      fun t => { t with stage := .resting }) := ⟨hconclude.now, hconclude.callers, hconclude.facades⟩
  exact hmodify.trans (apart_releaseUnheld _)

/-- A tick ends when those who wait are those who wait while its task rests. -/
theorem moves_endTick {W : Multiset Waiting}
    (hW : (s.modifyTask j fun t => { t with stage := .resting }).waiters = W) (t : ReconnectTask)
    (alive : Bool) : Moves s.now (s.boardOf W) (s.endTick j t alive).board := by
  have hconclude := apart_conclude t.plan.callback alive s
  have htasks := tasks_conclude t.plan.callback alive s
  have hrest : ((s.conclude t.plan.callback alive).2.modifyTask j
      fun t => { t with stage := .resting }).waiters = W := by
    rw [← hW]
    refine waiters_eq hconclude.callers ?_
    simp only [modifyTask, onClient, htasks]
  have hrelease := moves_releaseUnheld ((s.conclude t.plan.callback alive).2.modifyTask j
    fun t => { t with stage := .resting })
  rw [board, hrest] at hrelease
  have hnow : ((s.conclude t.plan.callback alive).2.modifyTask j
    fun t => { t with stage := .resting }).now = s.now := hconclude.now
  rw [hnow] at hrelease
  exact (moves_conclude t.plan.callback alive s W).trans hrelease

/-- How a tick goes on with what came of asking whether the connection lives. -/
def goOn (j : Nat) (t : ReconnectTask) : Probe × Session → Session
  | (.answered alive, s) => s.endTick j t alive
  | (.asked w, s) => s.modifyTask j fun t => { t with stage := .probing w }

theorem beginTick_eq (j : Nat) (t : ReconnectTask) (s : Session) :
    s.beginTick j t = goOn j t (s.modifyTask j (ReconnectTask.takeTick s.now)).probe := rfl

/-- A task that is due asks whether the connection lives, and goes on at once if it need not wait. -/
theorem step_goOn {t : ReconnectTask} (ht : s.client.tasks[j]? = some t) (hr : t.probing? = none)
    (t₀ : ReconnectTask) : Switchboard.Step s.now s.board (goOn j t₀ s.probe).board := by
  have hrest : (s.modifyTask j fun t => { t with stage := .resting }).waiters = s.waiters :=
    waiters_rest ht hr rfl
  rcases probe_cases s with ⟨alive, h⟩ | ⟨f, hcases⟩
  · rw [h]
    exact .moved (moves_endTick hrest t₀ alive)
  · obtain ⟨connections, hframe⟩ := invoke_frame f "ping" [] s
    have hsend := sends_invoke f "ping" [] s s.waiters
    rcases hcases with ⟨alive, h, hw⟩ | ⟨w, h, hw⟩
    · have hend : Moves s.now ((s.invoke f "ping" []).2.boardOf s.waiters)
          ((s.invoke f "ping" []).2.endTick j t₀ alive).board := by
        rw [hframe]
        exact moves_endTick (s := { s with connections }) (W := s.waiters) hrest t₀ alive
      rw [h]
      rw [hw, Multiset.zero_add] at hsend
      rcases hsend with ⟨e, herr⟩ | hsend
      · rw [herr] at hend ⊢
        exact .moved hend
      · exact .failed hsend rfl hend
    · have hwait : ((s.invoke f "ping" []).2.modifyTask j fun t => { t with stage := .probing w }).waiters =
          {w} + s.waiters := by
        rw [hframe]
        exact waiters_probing (s := { s with connections }) ht hr w
      rcases hsend with ⟨e, herr⟩ | hsend
      · rw [herr] at hw
        cases hw
      · rw [h]
        refine .sent ?_
        show Send s.now s.board (Session.board (Session.modifyTask j _ _))
        rw [board, board, hwait]
        rw [hw] at hsend
        exact hsend

theorem step_beginTick {t : ReconnectTask} (ht : s.client.tasks[j]? = some t) (hr : t.probing? = none) :
    Switchboard.Step s.now s.board (s.beginTick j t).board := by
  have ht' : (s.modifyTask j (ReconnectTask.takeTick s.now)).client.tasks[j]? = some (t.takeTick s.now) := by
    simp [modifyTask, onClient, ht]
  have htake : (s.modifyTask j (ReconnectTask.takeTick s.now)).board = s.board := by
    rw [board, board, waiters_rest ht hr hr]
    rfl
  rw [beginTick_eq, ← htake]
  exact step_goOn ht' hr t

/-- A tick of a task is due, and the task will take it in its turn. -/
structure Due (j : Nat) (t : ReconnectTask) (s : Session) : Prop where
  task : s.client.tasks[j]? = some t
  resting : t.stage = .resting
  going : t.cancelled = false
  time : t.next ≤ s.now
  held : s.client.released = false

/-- What a task does in its turn. -/
inductive TaskTurn (j : Nat) (s : Session) : Session → Prop
  | idle : TaskTurn j s s
  /-- Its ping has an outcome, and its tick ends. -/
  | ends {t : ReconnectTask} {w : Waiting} {o : Outcome} (ht : s.client.tasks[j]? = some t)
      (hstage : t.stage = .probing w) (ho : s.outcome? w = some o) :
      TaskTurn j s ((s.finish w).endTick j t (s.isAlive o))
  /-- Its tick begins. -/
  | begins {t : ReconnectTask} (h : Due j t s) : TaskTurn j s (s.beginTick j t)
  /-- It was cancelled or the client was given up, and it ends for good. -/
  | retires {t : ReconnectTask} (ht : s.client.tasks[j]? = some t) (hstage : t.stage = .resting)
      (hno : t.cancelled = true ∨ s.client.released = true) :
      TaskTurn j s (s.modifyTask j fun t => { t with stage := .over })

theorem taskTurn (j : Nat) (s : Session) : TaskTurn j s (s.runTask j) := by
  unfold runTask
  split
  · exact .idle
  · rename_i t ht
    split
    · exact .idle
    · rename_i w hstage
      split
      · exact .idle
      · rename_i o ho
        exact .ends ht hstage ho
    · rename_i hstage
      split
      · rename_i hcancelled
        exact .retires ht hstage (.inl hcancelled)
      · rename_i hgoing
        split
        · exact .idle
        · rename_i htime
          split
          · rename_i hreleased
            exact .retires ht hstage (.inr hreleased)
          · rename_i hheld
            exact .begins ⟨ht, hstage, Bool.eq_false_iff.mpr hgoing, Nat.le_of_not_lt htime,
              Bool.eq_false_iff.mpr hheld⟩

theorem step_runTask (j : Nat) (s : Session) : Switchboard.Step s.now s.board (s.runTask j).board := by
  have hturn := taskTurn j s
  generalize s.runTask j = s' at hturn ⊢
  cases hturn with
  | idle => exact .moved .refl
  | @ends t w o ht hstage ho =>
    have hw := waiters_answered ht (show t.probing? = some w by simp [ReconnectTask.probing?, hstage])
    have hend := moves_endTick (s := s.finish w) (j := j) rfl t (s.isAlive o)
    have hnow : (s.finish w).now = s.now := by rw [finish_eq]; rfl
    rw [hnow] at hend
    refine .moved (.head ?_ hend)
    rw [finish_eq, board, hw]
    exact leave_boardOf (.inl rfl) s _
  | begins h => exact step_beginTick h.task (by simp [ReconnectTask.probing?, h.resting])
  | @retires t ht hstage hno =>
    have hover : (s.modifyTask j fun t => { t with stage := .over }).board = s.board := by
      rw [board, board, waiters_rest ht (by simp [ReconnectTask.probing?, hstage]) rfl]
      rfl
    rw [hover]
    exact .moved .refl

/-! ## Steps -/

/-- What every step that is no turn of a dispatcher is on the switchboard. -/
theorem step_perform {a : Action} (ha : ∀ i, a ≠ .turn (.dispatcher i)) (s : Session) :
    Switchboard.Step s.now s.board (s.perform a).board := by
  have hsame {b : Switchboard} (h : b = s.board) : Switchboard.Step s.now s.board b := h ▸ .moved .refl
  have hact (i : Nat) (act : Memory.Link.PeerAct) : Switchboard.Step s.now s.board (s.peerActs i act).board :=
    .moved (.single .act)
  cases a with
  | connect => exact .moved (moves_connect_board s)
  | start => exact .moved (moves_start s)
  | stop => exact .moved (moves_stop s)
  | dropClient => exact .moved (moves_dropClient s)
  | enableReconnect plan => exact hsame (board_enableReconnect plan s)
  | refuse refuse => exact .moved .refl
  | newFacade r name => exact hsame (board_newFacade r s)
  | commandFacade => exact hsame (board_commandFacade s)
  | dataFacade => exact hsame (board_dataFacade s)
  | letGo name => exact .moved .refl
  | call id method args => exact step_call id method args s
  | askLiveness => exact step_askLiveness s
  | abort k => exact .moved (moves_abort k s)
  | peer i act => exact hact i act
  | pass ms => exact .moved .refl
  | turn t =>
    cases t with
    | dispatcher i => exact absurd rfl (ha i)
    | server i =>
      show Switchboard.Step s.now s.board (s.serve i).board
      unfold serve
      split
      · exact hact i _
      · exact .moved .refl
    | caller k => exact .moved (moves_resume k s)
    | task j => exact step_runTask j s

theorem dispatch_or_step (a : Action) (s : Session) : (∃ i, a = .turn (.dispatcher i)) ∨
    (∀ i, a ≠ .turn (.dispatcher i)) ∧ Switchboard.Step s.now s.board (s.perform a).board := by
  by_cases ha : ∃ i, a = .turn (.dispatcher i)
  · exact .inl ha
  · have hnot (i : Nat) : a ≠ .turn (.dispatcher i) := fun hi => ha ⟨i, hi⟩
    exact .inr ⟨hnot, step_perform hnot s⟩

theorem board_dispatch (i : Nat) (s : Session) :
    (s.perform (.turn (.dispatcher i))).board = s.board.modify i (Connection.dispatch s.now) := rfl

theorem sound_ofConfig (config : Config) (codec : Codec) : (ofConfig config codec).board.Sound where
  inside i hi := by cases hi
  used i c hc := by simp [board, boardOf, ofConfig] at hc
  empty i c hc := by simp [board, boardOf, ofConfig] at hc
  ended i c hc := by simp [board, boardOf, ofConfig] at hc
  distinct i c hc := by simp [board, boardOf, ofConfig] at hc
  nodup := Multiset.nodup_zero
  waited w hw := by simp [board, boardOf, ofConfig, waiters] at hw
  heard w x hx := by simp [board, boardOf, ofConfig, Switchboard.call?] at hx

theorem sound_perform (h : s.board.Sound) (a : Action) : (s.perform a).board.Sound := by
  rcases dispatch_or_step a s with ⟨i, rfl⟩ | ⟨-, hs⟩
  · rw [board_dispatch]
    exact h.dispatch i s.now
  · exact h.step hs

/-- The invariant holds in every run. -/
theorem sound_run (h : s.board.Sound) (actions : List Action) : (s.run actions).board.Sound := by
  induction actions generalizing s with
  | nil => exact h
  | cons a actions ih => exact ih (sound_perform h a)

end Session

end RemoteCall
