import RemoteCall.Proofs.Session.Routing
import RemoteCall.Proofs.Session.Stop

/-!
# What a tick releases

A tick sends its ping over the connection that is in use when it begins, and at its end releases the connection that
is in use then. A connection that is made in between ends the one before, and with it the ping.

* `not_tickSparesNewConnection`: a tick releases a connection that was made after its ping was sent.
* `outcome?_of_other`: once another connection is in use, what came of a call stays.
* `tick_and_new_connection`: what a tick does with a connection that was made during it.
-/

namespace RemoteCall.Session

open Pending (Call Outcome)

section Defs

/-- A task is inside a tick and waits for the answer to this ping. -/
def Probes (j : Nat) (w : Waiting) (s : Session) : Prop := ∃ t, s.client.tasks[j]? = some t ∧ t.stage = .probing w

/-- A tick leaves a connection in use that was made after its ping was sent. -/
def TickSparesNewConnection : Prop :=
  ∀ (config : Config) (before during : List Action) (j i : Nat) (w : Waiting),
    let s := (ofConfig config).run before
    let t := s.run during
    s.Probes j w → t.Probes j w → s.connections.length ≤ i → t.client.installed = some i →
      t.isTransportActive = true → t.client.owned = true →
        (t.perform (.turn (.task j))).client.installed = some i

end Defs

/-- The owner makes a connection while a tick waits for the answer to its ping, and the tick releases it. -/
theorem not_tickSparesNewConnection : ¬ TickSparesNewConnection := by
  intro h
  have hrun := h {} [.connect, .commandFacade, .enableReconnect { intervalMs := 1000 }, .pass 1000, .turn (.task 0)]
    [.connect] 0 1 ⟨0, 0⟩ ⟨_, rfl, by decide +kernel⟩ ⟨_, rfl, by decide +kernel⟩
  revert hrun
  decide +kernel

variable {s t : Session} {i j : Nat} {w : Waiting} {x : Call} {o : Outcome}

/-! ## The ping -/

theorem Probes.mem_waiters (h : s.Probes j w) : w ∈ s.waiters := by
  obtain ⟨task, htask, hstage⟩ := h
  refine Multiset.mem_add.mpr (.inr (Multiset.mem_coe.mpr ?_))
  exact List.mem_filterMap.mpr ⟨task, List.mem_of_getElem? htask, by simp [ReconnectTask.probing?, hstage]⟩

/-- A call whose connection is not in use has left. -/
theorem closed_of_other (hs : s.board.Sound) (hx : s.board.call? w = some x) (hi : s.client.installed = some i)
    (hne : w.connection ≠ i) : x.isOpen = false := by
  by_contra hopen
  rw [Bool.not_eq_false] at hopen
  obtain ⟨c, hc, -⟩ := Switchboard.call?_eq_some_iff.mp hx
  have hrun := hs.isRunning hx hopen
  rw [Switchboard.isRunning_of_getElem? hc] at hrun
  have hused : s.client.installed = some w.connection := hs.used _ c hc hrun
  exact hne (Option.some.inj (hused.symm.trans hi))

theorem outcome?_isSome_of_closed (hx : s.board.call? w = some x) (hclosed : x.isOpen = false) :
    ∃ o, s.outcome? w = some o := by
  obtain ⟨e, he⟩ := Call.isOpen_eq_false_iff.mp hclosed
  rw [outcome?_of_call hx]
  simp only [Call.outcome?, he]
  cases e <;> exact ⟨_, rfl⟩

/-- Once another connection is in use, what came of a call stays. -/
theorem outcome?_of_other (hs : s.board.Sound) (hx : s.board.call? w = some x) (hi : s.client.installed = some i)
    (hne : w.connection ≠ i) (actions : List Action) : (s.run actions).outcome? w = s.outcome? w := by
  obtain ⟨y, hy, hxy⟩ := call?_run hx actions
  rw [outcome?_of_call hx, outcome?_of_call hy]
  exact hxy.outcome? (closed_of_other hs hx hi hne) _ _

/-- A ping without an outcome ends with its connection when another one takes its place. -/
theorem outcome?_of_replaced {a : Action} (hs : s.board.Sound) (hx : s.board.call? w = some x)
    (hnone : s.outcome? w = none) (hw : w ∈ (s.perform a).waiters) (hi : (s.perform a).client.installed = some i)
    (hne : w.connection ≠ i) : (s.perform a).outcome? w = some (.error .connectionClosed) := by
  obtain ⟨hopen, -⟩ := open_of_outcome? hx hnone
  rcases dispatch_or_step a s with ⟨l, rfl⟩ | ⟨-, hstep⟩
  · -- the turn of a dispatcher puts no connection in use
    have hclosed := closed_of_other hs hx (i := i) hi hne
    rw [hopen] at hclosed
    cases hclosed
  · obtain ⟨y, hy, -, ⟨hexit, -⟩ | ⟨hexit, -⟩⟩ := hstep.fate hs hw hx hopen
    · have hclosed := closed_of_other (sound_perform hs a) hy hi hne
      rw [Call.isOpen_iff.mpr hexit] at hclosed
      cases hclosed
    · rw [outcome?_of_call hy]
      simp only [Call.outcome?, hexit]

/-- A ping that failed is no sign of life. -/
theorem isAlive_error (e : CallError) (s : Session) : s.isAlive (.error e) = false := by
  unfold isAlive
  split <;> rfl

/-! ## The end of a tick -/

/-- The turn of a task whose ping has an outcome. -/
theorem perform_of_probing {task : ReconnectTask} (htask : s.client.tasks[j]? = some task)
    (hstage : task.stage = .probing w) (ho : s.outcome? w = some o) :
    s.perform (.turn (.task j)) = (s.finish w).endTick j task (s.isAlive o) := by
  show s.runTask j = _
  simp only [runTask, htask, hstage, ho]

theorem releaseUnheld_of_owned (h : s.client.owned = true) : s.releaseUnheld = s := by
  simp [releaseUnheld, isHeld, h]

/-- After an attempt that finds no connection in use, one that was made before is as it was and not in use. -/
theorem connect_of_none (hi : s.client.installed = none) (hlt : i < s.connections.length) :
    s.connect.2.client.installed ≠ some i ∧ s.connect.2.connections[i]? = s.connections[i]? := by
  have hgone : s.teardownInstalled = s := by simp only [teardownInstalled, hi]
  cases hr : s.client.connector.refusal with
  | some cause =>
    rw [connect_of_refusal hr]
    exact ⟨by simp [onClient, hi], rfl⟩
  | none =>
    rw [connect_of_accepted hr, hgone]
    refine ⟨fun heq => ?_, List.getElem?_append_left hlt⟩
    exact Nat.ne_of_gt hlt (Option.some.inj heq)

/-- A tick that finds no life tears down the connection in use and makes one attempt. -/
theorem conclude_tears_down (hi : s.client.installed = some i) (hlt : i < s.connections.length) (callback : Bool) :
    (s.conclude callback false).2.client.installed ≠ some i ∧
      (s.conclude callback false).2.connections[i]? = s.connections[i]?.map Connection.teardown ∧
      (s.conclude callback false).2.attempts = s.attempts + 1 := by
  have hgone : s.disconnect.connections = s.connections.modify i Connection.teardown := by
    simp only [disconnect, onClient, teardownInstalled, hi, modify]
  have hlt' : i < s.disconnect.connections.length := by rwa [hgone, List.length_modify]
  obtain ⟨hinstalled, hsame⟩ := connect_of_none (s := s.disconnect) rfl hlt'
  obtain ⟨callbacks, heq⟩ := conclude_of_dead callback s
  rw [heq]
  refine ⟨hinstalled, ?_, ?_⟩
  · show s.disconnect.connect.2.connections[i]? = _
    rw [hsame, hgone, List.getElem?_modify_eq]
    rfl
  · exact (attempts_connect s.disconnect).trans (congrArg (· + 1) (quiet_disconnect s).attempts)

theorem owned_conclude (callback alive : Bool) (s : Session) :
    (s.conclude callback alive).2.client.owned = s.client.owned := by
  have hclient : s.disconnect.client.owned = s.client.owned := by
    show s.teardownInstalled.client.owned = _
    rw [tasks_teardownInstalled]
  rcases conclude_cases callback alive s with h | ⟨n, h⟩ <;> rw [h]
  cases hr : s.disconnect.client.connector.refusal with
  | some cause =>
    rw [connect_of_refusal hr]
    exact hclient
  | none =>
    rw [connect_of_accepted hr]
    exact hclient

theorem endTick_of_owned (howned : s.client.owned = true) (j : Nat) (task : ReconnectTask) (alive : Bool) :
    s.endTick j task alive =
      (s.conclude task.plan.callback alive).2.modifyTask j fun t => { t with stage := .resting } :=
  releaseUnheld_of_owned ((owned_conclude _ _ s).trans howned)

/-- What a tick makes of the connection in use, if that is not the one its ping went over. -/
theorem ended_of_probes (h : t.Probes j w) (ho : t.outcome? w = some o) (howned : t.client.owned = true)
    (hi : t.client.installed = some i) (hlt : i < t.connections.length) (hne : w.connection ≠ i) :
    let ended := t.perform (.turn (.task j))
    (t.isAlive o = true → ended.client.installed = some i ∧ ended.connections[i]? = t.connections[i]? ∧
      ended.attempts = t.attempts) ∧
    (t.isAlive o = false → ended.client.installed ≠ some i ∧
      ended.connections[i]? = t.connections[i]?.map Connection.teardown ∧ ended.attempts = t.attempts + 1) := by
  intro ended
  obtain ⟨task, htask, hstage⟩ := h
  have hended : ended = (t.finish w).endTick j task (t.isAlive o) := perform_of_probing htask hstage ho
  -- taking the outcome of the ping does not touch the connection in use
  have hfinish := finish_eq w t
  have hown : (t.finish w).client.owned = true := by rw [hfinish]; exact howned
  have hinst : (t.finish w).client.installed = some i := by rw [hfinish]; exact hi
  have hatt : (t.finish w).attempts = t.attempts := by rw [hfinish]; rfl
  have hconn : (t.finish w).connections[i]? = t.connections[i]? := by
    rw [hfinish]
    exact List.getElem?_modify_ne _ _ hne
  have hinside : i < (t.finish w).connections.length := by
    rw [hfinish, modify, List.length_modify]
    exact hlt
  rw [endTick_of_owned hown] at hended
  constructor
  · intro halive
    rw [hended, halive]
    exact ⟨hinst, hconn, hatt⟩
  · intro hdead
    rw [hended, hdead, ← hconn, ← hatt]
    exact conclude_tears_down hinst hinside _

/-- **A tick judges a connection that was made during it by a ping over the one before.** What came of the ping is
settled from the moment the new connection is in use; if nothing had come of it before, the ping ends with its own
connection. If it was answered the tick leaves the new connection as it is. If not the tick tears that connection
down and makes one attempt to connect. -/
theorem tick_and_new_connection (config : Config) (codec : Codec) (before during : List Action) (j i : Nat)
    (w : Waiting) :
    let s := (ofConfig config codec).run before
    let t := s.run during
    let ended := t.perform (.turn (.task j))
    s.Probes j w → t.Probes j w → s.connections.length ≤ i → t.client.installed = some i → t.client.owned = true →
    ∃ o, t.outcome? w = some o ∧
      (∀ first rest, during = first ++ rest → (s.run first).client.installed = some i →
        (s.run first).outcome? w = some o) ∧
      (∀ first a rest, during = first ++ a :: rest → (s.run first).outcome? w = none →
        ((s.run first).perform a).Probes j w → ((s.run first).perform a).client.installed = some i →
          o = .error .connectionClosed ∧ t.isAlive o = false) ∧
      (t.isAlive o = true → ended.client.installed = some i ∧ ended.connections[i]? = t.connections[i]? ∧
        ended.attempts = t.attempts) ∧
      (t.isAlive o = false → ended.client.installed ≠ some i ∧
        ended.connections[i]? = t.connections[i]?.map Connection.teardown ∧ ended.attempts = t.attempts + 1) := by
  intro s t ended hprobes hprobes' hnew hi howned
  have hsound : s.board.Sound := sound_run (sound_ofConfig config codec) before
  have hsound' : t.board.Sound := sound_run hsound during
  obtain ⟨x, hx, -⟩ := hsound.waited w hprobes.mem_waiters
  have hne : w.connection ≠ i := by
    obtain ⟨c, hc, -⟩ := Switchboard.call?_eq_some_iff.mp hx
    have hlt : w.connection < s.connections.length := (List.getElem?_eq_some_iff.mp hc).1
    omega
  obtain ⟨y, hy, -⟩ := call?_run hx during
  obtain ⟨o, ho⟩ := outcome?_isSome_of_closed hy (closed_of_other hsound' hy hi hne)
  have hsettled (first rest : List Action) (hduring : during = first ++ rest)
      (hused : (s.run first).client.installed = some i) : (s.run first).outcome? w = some o := by
    obtain ⟨z, hz, -⟩ := call?_run hx first
    have hrest := outcome?_of_other (sound_run hsound first) hz hused hne rest
    rw [← run_append, ← hduring] at hrest
    exact hrest.symm.trans ho
  obtain ⟨halive, hdead⟩ := ended_of_probes hprobes' ho howned hi (hsound'.inside i hi) hne
  refine ⟨o, ho, hsettled, fun first a rest hduring hnone hstill hused => ?_, halive, hdead⟩
  obtain ⟨z, hz, -⟩ := call?_run hx first
  have hclosed := outcome?_of_replaced (sound_run hsound first) hz hnone hstill.mem_waiters hused hne
  have hlast := hsettled (first ++ [a]) rest (by rw [hduring, List.append_assoc]; rfl)
    (by rw [run_append]; exact hused)
  rw [run_append] at hlast
  have heq : o = .error .connectionClosed := Option.some.inj (hlast.symm.trans hclosed)
  exact ⟨heq, by rw [heq]; exact isAlive_error _ t⟩

/-- The ping was not answered when the owner made a connection. The tick tears that one down and makes another. -/
theorem new_connection_torn_down :
    let before : List Action :=
      [.connect, .commandFacade, .enableReconnect { intervalMs := 1000 }, .pass 1000, .turn (.task 0)]
    let s := (ofConfig {}).run before
    let t := s.run [.connect]
    let ended := t.perform (.turn (.task 0))
    (s.Probes 0 ⟨0, 0⟩ ∧ t.Probes 0 ⟨0, 0⟩ ∧ s.connections.length = 1 ∧ t.client.installed = some 1 ∧
      t.client.owned = true) ∧
      t.outcome? ⟨0, 0⟩ = some (.error .connectionClosed) ∧ ended.client.installed ≠ some 1 ∧
      ended.connections[1]? = t.connections[1]?.map Connection.teardown ∧ ended.attempts = t.attempts + 1 := by
  intro before s t ended
  have hprobes : s.Probes 0 ⟨0, 0⟩ := ⟨_, rfl, by decide +kernel⟩
  have hprobes' : t.Probes 0 ⟨0, 0⟩ := ⟨_, rfl, by decide +kernel⟩
  have hlength : s.connections.length = 1 := by decide +kernel
  have hi : t.client.installed = some 1 := by decide +kernel
  have howned : t.client.owned = true := by decide +kernel
  have hnone : s.outcome? ⟨0, 0⟩ = none := by decide +kernel
  obtain ⟨o, ho, -, hreplaced, -, hdead⟩ :=
    tick_and_new_connection {} .json before [.connect] 0 1 ⟨0, 0⟩ hprobes hprobes'
    (Nat.le_of_eq hlength) hi howned
  have hstep := hreplaced [] .connect [] rfl
  rw [run_nil] at hstep
  obtain ⟨rfl, halive⟩ := hstep hnone hprobes' hi
  exact ⟨⟨hprobes, hprobes', hlength, hi, howned⟩, ho, hdead halive⟩

end RemoteCall.Session
