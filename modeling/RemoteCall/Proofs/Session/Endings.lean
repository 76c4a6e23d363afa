import RemoteCall.Proofs.Session.Chronicle
import RemoteCall.Proofs.Session.Waiting

/-!
# The end of a connection

The connection in use ends when another one takes its place, when it is released, or when its dispatcher stops. Three
tasks do this in different places, and the end is the same: the link is inactive, the table is empty, and nothing is
registered there or written any more.

* `Ends`: the ways in which a connection ends. There is no other one while the client is held (`ends_of_halted`).
* `Finished` and `Rests`: a connection that has ended, and what it is from then on.
* `outcome?_of_ends`: what becomes of the calls that are waited for.
* `invoke_eq_callOver`: a later call depends on the connection in use alone.
* `connection_ends`: all that the end of a connection means.
-/

namespace RemoteCall

open Pending (Call Outcome)

/-- A connection that has ended: nobody reads it, it is inactive, and no call is left in its table. -/
structure Connection.Finished (c : Connection) : Prop where
  halted : c.running = false
  inactive : c.link.active = false
  empty : c.generation.table.size = 0

/-- What holds between a connection that has ended and the same connection later. No id was handed out, no call
registered and nothing written; its far end may have read what was there. -/
structure Connection.Rests (c c' : Connection) : Prop where
  finished : c'.Finished
  nextId : c'.generation.nextId = c.generation.nextId
  length : c'.generation.table.calls.length = c.generation.table.calls.length
  outbound : c'.link.outbound <:+ c.link.outbound

namespace Connection

variable {c c' : Connection}

theorem Finished.rests (h : c.Finished) : c.Rests c := ⟨h, rfl, rfl, List.suffix_refl _⟩

theorem Rests.trans {a b c : Connection} (h : a.Rests b) (h' : b.Rests c) : a.Rests c where
  finished := h'.finished
  nextId := h'.nextId.trans h.nextId
  length := h'.length.trans h.length
  outbound := h'.outbound.trans h.outbound

theorem Finished.carried (h : c.Finished) (hc : c.Carried c') : c.Rests c' where
  finished := ⟨hc.halted h.halted, hc.inactive h.inactive, hc.follows.size_eq_zero hc.length h.empty⟩
  nextId := hc.nextId
  length := hc.length
  outbound := hc.outbound ▸ List.suffix_refl _

theorem Finished.act (h : c.Finished) (a : Memory.Link.PeerAct) : c.Rests { c with link := c.link.act a } where
  finished := ⟨h.halted, (c.turned_act a).inactive h.inactive, h.empty⟩
  nextId := rfl
  length := rfl
  outbound := Memory.Link.outbound_act a c.link

theorem finished_teardown (c : Connection) : c.teardown.Finished := ⟨rfl, rfl, size_teardown c⟩

/-- A dispatcher that stops by itself ends its connection. -/
theorem finished_dispatch {now : Nat} (hr : c.running = true) (hs : (c.dispatch now).running = false) :
    (c.dispatch now).Finished :=
  ⟨hs, active_dispatch hr hs, (turned_dispatch now c).ended hr hs⟩

/-- A dispatcher stops when reading fails, when its link has come to its end, or when it has heard nothing for the idle
time and cannot write its ping. -/
theorem dispatch_stops_iff {now : Nat} (hr : c.running = true) : (c.dispatch now).running = false ↔
    (∃ e rest, c.link.inbound = .fault e :: rest) ∨
      c.link.inbound = [] ∧ (c.link.peerHeld = false ∨
        c.idleAt ≤ now ∧ ∃ e, (c.link.write (.ping c.settings.heartbeatAck)).1 = .error e) := by
  cases hin : c.link.inbound with
  | cons a rest =>
    cases a with
    | fault e => simp [dispatch, hr, Memory.Link.receive, hin, stop]
    | packet p => simp [(dispatch_of_packet hr hin now).1]
  | nil =>
    rw [dispatch, if_pos hr]
    cases hp : c.link.peerHeld with
    | false => simp [Memory.Link.receive, hin, hp, stop]
    | true =>
      simp only [Memory.Link.receive, hin, hp, if_true]
      by_cases hidle : c.idleAt ≤ now
      · have hlink : (c.sweep now).link = c.link := rfl
        simp only [hidle, if_true, onIdle, write, hlink]
        cases hw : c.link.write (.ping c.settings.heartbeatAck) with
        | mk result l => cases result <;> simp [await, stop, sweep, onTable, hr]
      · simp [hidle, hr]

end Connection

namespace Session

section Defs

/-- Whether an attempt or a release ends the connection in use. -/
def Event.ends : Event → Bool
  | attempt accepted => accepted
  | release => true

/-- The ways in which the connection in use ends in a step. -/
inductive Ends (i : Nat) (a : Action) (s : Session) : Prop
  /-- An attempt to connect is accepted, and the new connection takes its place. -/
  | replaced (hi : s.client.installed = some i) (h : .attempt true ∈ s.events a)
  /-- The owner or a tick releases it. -/
  | released (hi : s.client.installed = some i) (h : .release ∈ s.events a)
  /-- Its dispatcher stops. -/
  | stopped (hi : s.client.installed = some i) (ha : a = .turn (.dispatcher i)) (hr : s.board.isRunning i = true)
      (hs : (s.perform a).board.isRunning i = false)

/-- A connection that was made has ended. -/
def FinishedAt (i : Nat) (s : Session) : Prop := ∃ c, s.connections[i]? = some c ∧ c.Finished

/-- What comes of a request over the connection in use, from that connection alone, and what it does to it. -/
def callOver (addr : String) (now : Nat) (j : Nat) (o : Outgoing) (c : Connection) :
    Except CallError (Option Waiting) × Connection :=
  if !c.link.active then (.error (.connectFailure addr .inactive), c)
  else if !c.link.isWritable then (.error (.connectFailure addr .notWritable), c)
  else ((c.send now o).1.map (Option.map (Waiting.mk j)), (c.send now o).2)

/-- What becomes of a call that was waited for when its connection ended in a step. -/
structure Settled (w : Waiting) (a : Action) (s t : Session) : Prop where
  settled : ∃ o, ∀ after, (t.run after).outcome? w = some o
  waiting : s.outcome? w = none → t.outcome? w = some (.error .connectionClosed)
  resolved : ∀ r, s.outcome? w = some (.ok r) → t.outcome? w = some (.ok r)
  /-- A call that has left the table keeps the outcome that it left with. -/
  left : ∀ x, s.board.call? w = some x → x.isOpen = false → t.outcome? w = s.outcome? w
  /-- A call in the table ends with the connection even if its time is up. Only a dispatcher that is about to stop may
  sweep it before. -/
  standing : ∀ x, s.board.call? w = some x → x.isOpen = true → w ∈ t.waiters →
    t.outcome? w = some (.error .connectionClosed) ∨
      a = .turn (.dispatcher w.connection) ∧ x.deadline ≤ s.now ∧ t.outcome? w = some (.error x.timedOut)

/-- What comes of a call that is made when a connection has ended. -/
structure Elsewhere (i : Nat) (addr : String) (f : Facade) (method : String) (args : List Json) (o : Outgoing)
    (s : Session) : Prop where
  dropped : s.client.released = true → s.invoke f method args = (.error (.connectFailure "" .clientDropped), s)
  none : s.client.released = false → s.client.installed = none →
    s.invoke f method args = (.error (.connectFailure addr .noConnection), s)
  same : s.client.released = false → s.client.installed = some i →
    s.invoke f method args = (.error (.connectFailure addr .inactive), s)
  newer : s.client.released = false → ∀ j, s.client.installed = some j → j ≠ i →
    i < j ∧ ∃ d, s.connections[j]? = some d ∧ s.invoke f method args = ((callOver addr s.now j o d).1,
      { s with connections := s.connections.set j (callOver addr s.now j o d).2 })

/-- All that the end of a connection means, for the step in which it ends and the session before and after it. -/
structure Ending (i : Nat) (addr : String) (a : Action) (s t : Session) : Prop where
  /-- It has finished, for good. -/
  finished : ∃ c, t.connections[i]? = some c ∧ c.Finished ∧
    ∀ after, ∃ c', (t.run after).connections[i]? = some c' ∧ c.Rests c'
  /-- All its calls have come to their end. -/
  calls : ∀ w ∈ s.waiters, w.connection = i → Settled w a s t
  /-- Whoever waited through a façade ends at this moment. -/
  callers : ∀ (k : Nat) (id : FacadeId) (f : Facade) (w : Waiting),
    s.callers[k]? = some ⟨.result id, .waiting w⟩ → s.facade? id = some f → w.connection = i →
    s.outcome? w = none → ∀ after, (∀ a ∈ after, a ≠ .abort k) → punctual k after t = true →
      EndsAt k (.result id) s.now (.result (.error .connectionClosed)) (t.run after)
  /-- Calls of other connections are as they were. -/
  others : ∀ (w : Waiting) (x : Call), s.board.call? w = some x → w.connection ≠ i →
    ∀ after, (t.run after).outcome? w = s.outcome? w
  /-- Later calls fail, or go over a newer connection. -/
  later : ∀ (after : List Action) (f : Facade) (method : String) (args : List Json) (o : Outgoing),
    f.outgoing method args = .ok o → Elsewhere i addr f method args o (t.run after)

end Defs

variable {s s' m : Session} {i j k : Nat} {c : Connection} {w : Waiting} {x : Call} {a : Action} {E : List Event}

/-! ## The connection -/

theorem FinishedAt.course {kept : Prop} (h : s.FinishedAt i) (hc : Course kept s E s') : s'.FinishedAt i := by
  obtain ⟨c, hget, hfinished⟩ := h
  obtain ⟨c', hget', hcarried⟩ := hc.carried hget
  exact ⟨c', hget', (hfinished.carried hcarried).finished⟩

/-- In a course the connection in use stays so and runs as before, or an attempt that is accepted or a release ends
it. -/
theorem Course.ends {kept : Prop} (h : Course kept s E s') (hi : s.client.installed = some i) (hc : s.connections[i]? = some c) :
    (E.any Event.ends = false ∧ s'.client.installed = some i ∧
      ∃ c', s'.connections[i]? = some c' ∧ c'.running = c.running) ∨
    (E.any Event.ends = true ∧ s'.FinishedAt i) := by
  induction h generalizing c with
  | aside h => exact .inl ⟨rfl, h.installed.trans hi, c, by rw [h.connections, hc], rfl⟩
  | @leave s w f hf =>
    refine .inl ⟨rfl, hi, ?_⟩
    by_cases hwi : w.connection = i
    · subst hwi
      exact ⟨_, Switchboard.getElem?_modify_self (b := s.board) hc, rfl⟩
    · exact ⟨c, (Switchboard.getElem?_modify_of_ne (b := s.board) hwi).trans hc, rfl⟩
  | attempt s =>
    have hget := connections_connect hc
    cases ha : s.accepts with
    | true =>
      rw [if_pos ⟨ha, hi⟩] at hget
      exact .inr ⟨rfl, _, hget, c.finished_teardown⟩
    | false =>
      rw [if_neg (by simp [ha])] at hget
      have hinstalled := (life_connect s).1
      rw [if_neg (by simp [ha])] at hinstalled
      exact .inl ⟨rfl, hinstalled.trans hi, c, hget, rfl⟩
  | disconnect s =>
    have hget := connections_teardownInstalled hc
    rw [if_pos hi] at hget
    exact .inr ⟨rfl, _, hget, c.finished_teardown⟩
  | trans _ hrest ih ih' =>
    rw [List.any_append]
    rcases ih hi hc with ⟨hE, hi', d, hd, hrun⟩ | ⟨hE, hfinished⟩
    · rcases ih' hi' hd with ⟨hE', hi'', c', hc', hrun'⟩ | ⟨hE', hfinished⟩
      · exact .inl ⟨by rw [hE, hE']; rfl, hi'', c', hc', hrun'.trans hrun⟩
      · exact .inr ⟨by rw [hE', Bool.or_true], hfinished⟩
    · exact .inr ⟨by rw [hE, Bool.true_or], hfinished.course hrest⟩

/-- A step with something that ends the connection in use ends it. -/
theorem finished_of_event (hi : s.client.installed = some i) (hc : s.connections[i]? = some c)
    (hE : (s.events a).any Event.ends = true) : (s.perform a).FinishedAt i := by
  have hnone (he : s.events a = []) : (s.perform a).FinishedAt i := by
    rw [he] at hE
    cases hE
  have hcourse {m t : Session} (ha : s.Asked m) (h : Course (a ≠ .dropClient) m (s.events a) t) : t.FinishedAt i := by
    obtain ⟨d, hd, -⟩ := ha.connection hc
    rcases h.ends (ha.steady.installed.trans hi) hd with ⟨hno, -⟩ | ⟨-, hfinished⟩
    · rw [hE] at hno
      cases hno
    · exact hfinished
  cases manner a s with
  | peer j act hp he h => exact hnone he
  | dispatcher j h => exact hnone (h ▸ rfl)
  | facade ha hp he h => exact hnone he
  | idle hp he h hs => exact hnone he
  | deed hp h =>
    cases h with
    | held ha h => exact hcourse ha h
    | givenUp ha h heq =>
      obtain ⟨d, hd, hfinished⟩ := hcourse ha h
      obtain ⟨c', hc', hcarried⟩ := carried_of_release hd
      exact ⟨c', heq ▸ hc', (hfinished.carried hcarried).finished⟩

theorem Ends.installed (h : s.Ends i a) : s.client.installed = some i := by
  cases h <;> assumption

/-- Attempts and releases are no matter of a caller or a dispatcher, and take no time. -/
theorem frame_of_mem_events {e : Event} (he : e ∈ s.events a) :
    a.caller? = none ∧ (∀ ms, a ≠ .pass ms) ∧ ∀ j, a ≠ .turn (.dispatcher j) := by
  cases a with
  | connect => exact ⟨rfl, nofun, nofun⟩
  | start => exact ⟨rfl, nofun, nofun⟩
  | stop => exact ⟨rfl, nofun, nofun⟩
  | turn t =>
    cases t with
    | task j => exact ⟨rfl, nofun, nofun⟩
    | _ => cases he
  | _ => cases he

theorem Ends.frame (h : s.Ends i a) :
    a.caller? = none ∧ (∀ ms, a ≠ .pass ms) ∧ ∀ j, a = .turn (.dispatcher j) → j = i := by
  cases h with
  | replaced hi he =>
    obtain ⟨hcaller, hpass, hno⟩ := frame_of_mem_events he
    exact ⟨hcaller, hpass, fun j hj => absurd hj (hno j)⟩
  | released hi he =>
    obtain ⟨hcaller, hpass, hno⟩ := frame_of_mem_events he
    exact ⟨hcaller, hpass, fun j hj => absurd hj (hno j)⟩
  | stopped hi ha hr hs =>
    subst ha
    exact ⟨rfl, nofun, fun j hj => by cases hj; rfl⟩

theorem Ends.ne_abort (h : s.Ends i a) (k : Nat) : a ≠ .abort k := by
  rintro rfl
  cases h.frame.1

theorem Ends.finishedAt (h : s.Ends i a) (hs : s.board.Sound) : (s.perform a).FinishedAt i := by
  obtain ⟨c, hc⟩ : ∃ c, s.connections[i]? = some c := ⟨_, List.getElem?_eq_getElem (hs.inside i h.installed)⟩
  cases h with
  | replaced hi h => exact finished_of_event hi hc (List.any_eq_true.mpr ⟨_, h, rfl⟩)
  | released hi h => exact finished_of_event hi hc (List.any_eq_true.mpr ⟨_, h, rfl⟩)
  | stopped hi ha hr hs' =>
    subst ha
    rw [board_dispatch, Switchboard.isRunning_of_getElem? (Switchboard.getElem?_modify_self (b := s.board) hc)] at hs'
    rw [Switchboard.isRunning_of_getElem? (b := s.board) hc] at hr
    exact ⟨_, Switchboard.getElem?_modify_self (b := s.board) hc, Connection.finished_dispatch hr hs'⟩

/-- As long as the client is held, the dispatcher of the connection in use stops in no other way. -/
theorem ends_of_halted (hi : s.client.installed = some i) (hc : s.connections[i]? = some c) (hr : c.running = true)
    (hs : (s.perform a).board.isRunning i = false) (hheld : (s.perform a).client.released = false) :
    s.Ends i a := by
  have hrunning : s.board.isRunning i = true := (Switchboard.isRunning_of_getElem? (b := s.board) hc).trans hr
  have hsame {c' : Connection} (hc' : (s.perform a).connections[i]? = some c') (hrun : c'.running = c.running) :
      s.Ends i a := by
    rw [Switchboard.isRunning_of_getElem? (b := (s.perform a).board) hc', hrun, hr] at hs
    cases hs
  have hevent {e : Event} (he : e ∈ s.events a) (hends : e.ends = true) : s.Ends i a := by
    cases e with
    | attempt accepted =>
      rw [show accepted = true from hends] at he
      exact .replaced hi he
    | release => exact .released hi he
  cases manner a s with
  | peer j act hp he h =>
    rw [h] at hsame
    by_cases hji : j = i
    · subst hji
      exact hsame (Switchboard.getElem?_modify_self (b := s.board) hc) rfl
    · exact hsame ((Switchboard.getElem?_modify_of_ne (b := s.board) hji).trans hc) rfl
  | dispatcher j h =>
    by_cases hji : j = i
    · exact .stopped hi (hji ▸ h) hrunning hs
    · subst h
      exact hsame ((Switchboard.getElem?_modify_of_ne (b := s.board) hji).trans hc) rfl
  | facade ha hp he h => exact hsame (by rw [h.connections, hc]) rfl
  | idle hp he h hs => exact hsame (by rw [h.connections, hc]) rfl
  | deed hp h =>
    cases h with
    | held ha h =>
      obtain ⟨d, hd, hasked⟩ := ha.connection hc
      have hdr : d.running = c.running := by
        rcases hasked with rfl | ⟨f, method, args, o, -, -, rfl⟩
        · rfl
        · exact (c.send_cases s.now o).2.1
      rcases h.ends (ha.steady.installed.trans hi) hd with ⟨-, -, c', hc', hrun⟩ | ⟨hany, -⟩
      · exact hsame hc' (hrun.trans hdr)
      · obtain ⟨e, he, hends⟩ := List.any_eq_true.mp hany
        exact hevent he hends
    | givenUp ha h heq =>
      rw [heq, client_release] at hheld
      cases hheld

/-- A connection that has ended rests in every step. -/
theorem rests_perform (h : c.Finished) (hc : s.connections[i]? = some c) (a : Action) :
    ∃ c', (s.perform a).connections[i]? = some c' ∧ c.Rests c' := by
  obtain ⟨c', hc', hprogress⟩ := progress hc a
  refine ⟨c', hc', ?_⟩
  cases hprogress with
  | acted act hp heq => exact heq ▸ h.act act
  | turned hp ha heq =>
    rw [Connection.dispatch_of_halted h.halted] at heq
    exact heq ▸ h.rests
  | sent hp hi ho hcarried =>
    -- requests go over active connections only
    obtain ⟨-, -, d, hd, hactive, -⟩ := channel_eq_ok_iff.mp hi
    rw [hc] at hd
    rw [← Option.some.inj hd, h.inactive] at hactive
    cases hactive
  | carried hp hcarried => exact h.carried hcarried

theorem rests_run (h : c.Finished) (hc : s.connections[i]? = some c) (actions : List Action) :
    ∃ c', (s.run actions).connections[i]? = some c' ∧ c.Rests c' := by
  induction actions generalizing s c with
  | nil => exact ⟨c, hc, h.rests⟩
  | cons a actions ih =>
    obtain ⟨d, hd, hrests⟩ := rests_perform h hc a
    obtain ⟨c', hc', hrests'⟩ := ih hrests.finished hd
    exact ⟨c', hc', hrests.trans hrests'⟩

/-! ## Its calls -/

/-- The calls of a connection that has ended have all left. -/
theorem FinishedAt.closed (h : s.FinishedAt i) (hx : s.board.call? w = some x) (hw : w.connection = i) :
    x.isOpen = false := by
  obtain ⟨c, hc, hfinished⟩ := h
  obtain ⟨d, hd, hdx⟩ := Switchboard.call?_eq_some_iff.mp hx
  rw [hw, show s.board.connections[i]? = some c from hc] at hd
  cases hd
  by_contra hopen
  rw [Bool.not_eq_false] at hopen
  exact Pending.Table.size_ne_zero hdx hopen hfinished.empty

/-- A call that stands and is waited for leaves with its connection, or was late and is swept before. -/
theorem exit_of_ends (h : s.Ends i a) (hs : s.board.Sound) (hx : s.board.call? w = some x) (ho : x.isOpen = true)
    (hw : w ∈ s.waiters) (hw' : w ∈ (s.perform a).waiters) (hwi : w.connection = i) :
    ∃ y, (s.perform a).board.call? w = some y ∧ x.Follows y ∧
      (y.exit = some .abandoned ∨
        y.exit = some .swept ∧ a = .turn (.dispatcher w.connection) ∧ x.deadline ≤ s.now) := by
  subst hwi
  have hclosed {y : Call} (hy : (s.perform a).board.call? w = some y) : y.isOpen = false :=
    (h.finishedAt hs).closed hy rfl
  rcases dispatch_or_step a s with ⟨j, rfl⟩ | ⟨-, hstep⟩
  · obtain rfl := h.frame.2.2 j rfl
    obtain ⟨c, hc, hcx⟩ := Switchboard.call?_eq_some_iff.mp hx
    have hget : (s.perform (.turn (.dispatcher w.connection))).board.connections[w.connection]? =
      some (c.dispatch s.now) := Switchboard.getElem?_modify_self hc
    have hcall := Switchboard.call?_of_getElem? hget
    obtain ⟨d, hd, hfinished⟩ := h.finishedAt hs
    rw [show (s.perform (.turn (.dispatcher w.connection))).connections[w.connection]? =
      some (c.dispatch s.now) from hget] at hd
    have hstopped : (c.dispatch s.now).running = false := Option.some.inj hd ▸ hfinished.halted
    -- a turn that takes in a response does not stop the dispatcher
    have hno (r : Response) (hr : c.response? = some r) : x.id ≠ r.id := by
      rcases Connection.dispatch_cases s.now c with ⟨-, -, hrun, -⟩ | ⟨hnone, -⟩ | ⟨hnone, -⟩
      · rw [hstopped] at hrun
        cases hrun
      · rw [hr] at hnone
        cases hnone
      · rw [hr] at hnone
        cases hnone
    rcases Connection.call_dispatch hno hcx ho (hs.present hw hx) s.now with ⟨hsame, -⟩ | ⟨hswept, hd⟩ | ⟨hgone, -⟩
    · have hopen := hclosed (hcall.trans hsame)
      rw [ho] at hopen
      cases hopen
    · exact ⟨_, hcall.trans hswept, Call.follows_exit ho _, .inr ⟨rfl, rfl, hd⟩⟩
    · exact ⟨_, hcall.trans hgone, Call.follows_exit ho _, .inl rfl⟩
  · obtain ⟨y, hy, hxy, ⟨hexit, -⟩ | ⟨hexit, -⟩⟩ := hstep.fate hs hw' hx ho
    · have hopen := hclosed hy
      rw [Call.isOpen_iff.mpr hexit] at hopen
      cases hopen
    · exact ⟨y, hy, hxy, .inl hexit⟩

/-- What becomes of a call that is waited for when its connection ends. -/
theorem settled_of_ends (h : s.Ends i a) (hs : s.board.Sound) (howned : s.Owned) (hw : w ∈ s.waiters)
    (hwi : w.connection = i) : Settled w a s (s.perform a) := by
  obtain ⟨x, hx, -⟩ := hs.waited w hw
  obtain ⟨x', hx', hxx'⟩ := call?_perform hx a
  have hclosed := (h.finishedAt hs).closed hx' hwi
  have hleft (hxc : x.isOpen = false) : (s.perform a).outcome? w = s.outcome? w := by
    rw [outcome?_of_call hx, outcome?_of_call hx']
    exact hxx'.outcome? hxc _ _
  have hstands (ho : x.isOpen = true) (hw' : w ∈ (s.perform a).waiters) :
      (s.perform a).outcome? w = some (.error .connectionClosed) ∨
        a = .turn (.dispatcher w.connection) ∧ x.deadline ≤ s.now ∧
          (s.perform a).outcome? w = some (.error x.timedOut) := by
    obtain ⟨y, hy, hxy, hgone | ⟨hswept, ha, hd⟩⟩ := exit_of_ends h hs hx ho hw hw' hwi
    · left
      rw [outcome?_of_call hy]
      simp only [Call.outcome?, hgone]
    · refine .inr ⟨ha, hd, ?_⟩
      rw [outcome?_of_call hy, ← hxy.timedOut]
      simp only [Call.outcome?, hswept]
  constructor
  · obtain ⟨o, ho⟩ := outcome?_isSome_of_closed hx' hclosed
    refine ⟨o, fun after => ?_⟩
    obtain ⟨y, hy, hxy⟩ := call?_run hx' after
    rw [outcome?_of_call hy, hxy.outcome? hclosed (s.perform a).now, ← outcome?_of_call hx', ho]
  · intro hnone
    obtain ⟨hopen, htime⟩ := open_of_outcome? hx hnone
    have hw' := waits_on howned hw hnone h.ne_abort
    exact (hstands hopen hw').resolve_right fun hlate => Nat.not_lt_of_le hlate.2.1 htime
  · intro r hr
    have hxc : x.isOpen = false := by
      by_contra hopen
      rw [Bool.not_eq_false] at hopen
      rw [outcome?_of_call hx, Call.outcome?_of_open hopen] at hr
      split at hr <;> cases hr
    rw [hleft hxc, hr]
  · intro y hy hyc
    obtain rfl := Option.some.inj (hx.symm.trans hy)
    exact hleft hyc
  · intro y hy hopen hw'
    obtain rfl := Option.some.inj (hx.symm.trans hy)
    exact hstands hopen hw'

/-- Whoever waits through a façade for a call without an outcome ends when its connection does. -/
theorem endsAt_of_ends {id : FacadeId} {f : Facade} (h : s.Ends i a) (hs : s.board.Sound) (howned : s.Owned)
    (hk : s.callers[k]? = some ⟨.result id, .waiting w⟩) (hf : s.facade? id = some f) (hwi : w.connection = i)
    (hnone : s.outcome? w = none) {after : List Action} (hstays : ∀ b ∈ after, b ≠ .abort k)
    (htime : punctual k after (s.perform a) = true) :
    EndsAt k (.result id) s.now (.result (.error .connectionClosed)) ((s.perform a).run after) := by
  obtain ⟨hcaller, hpass, -⟩ := h.frame
  have hw := mem_waiters (waitsFor?_eq hk)
  have hout := (settled_of_ends h hs howned hw hwi).waiting hnone
  have hnow : (s.perform a).now = s.now := (beside_perform hpass s).now
  have hk' := callers_perform (a := a) hk (by rw [hcaller]; nofun)
  obtain ⟨x, hx, -⟩ := hs.waited w hw
  obtain ⟨x', hx', -⟩ := call?_perform hx a
  obtain ⟨e, he⟩ := Call.isOpen_eq_false_iff.mp ((h.finishedAt hs).closed hx' hwi)
  rw [outcome?_of_call hx'] at hout
  have hdecided := decided_of_exit hk' (facade?_perform hf a) hx' he hout
  rw [← hnow]
  rcases ends_run (.inl hdecided) hstays htime with hdecided | hended
  · obtain ⟨y, hy, -, hout'⟩ := hdecided.call
    exact endsAt_of_outcome hdecided.waits hdecided.facade ((outcome?_of_call hy).trans (hout' _)) hdecided.now
  · exact .inl hended.caller

/-! ## Later calls -/

/-- A call depends on the connection in use alone, and changes nothing else. -/
theorem invoke_eq_callOver {f : Facade} {method : String} {args : List Json} {o : Outgoing}
    (ho : f.outgoing method args = .ok o) (hheld : s.client.released = false) (hi : s.client.installed = some i)
    (hc : s.connections[i]? = some c) :
    let result := callOver s.client.config.remoteAddr s.now i o c
    s.invoke f method args = (result.1, { s with connections := s.connections.set i result.2 }) := by
  intro result
  have hset : s.connections.set i c = s.connections := by
    obtain ⟨hlt, rfl⟩ := List.getElem?_eq_some_iff.mp hc
    exact List.set_getElem_self hlt
  have hresult : callOver s.client.config.remoteAddr s.now i o c = result := rfl
  unfold callOver at hresult
  cases ha : c.link.active with
  | false =>
    simp only [ha, Bool.not_false, if_true] at hresult
    simp only [invoke, ho, channel, hheld, hi, hc, ha, ← hresult, hset]
    simp
  | true =>
    cases hw : c.link.isWritable with
    | false =>
      simp only [ha, hw, Bool.not_true, Bool.not_false, if_true, Bool.false_eq_true, if_false] at hresult
      simp only [invoke, ho, channel, hheld, hi, hc, ha, hw, ← hresult, hset]
      simp
    | true =>
      simp only [ha, hw, Bool.not_true, Bool.false_eq_true, if_false] at hresult
      have hchannel : s.channel = .ok i := channel_eq_ok_iff.mpr ⟨hheld, hi, c, hc, ha, hw⟩
      simp only [invoke, ho, hchannel, onConnection, hc, ← hresult]
      cases (c.send s.now o).1 <;> rfl

/-- What comes of a call when a connection has ended. -/
theorem elsewhere_of_finished {E : List Event} {f : Facade} {method : String} {args : List Json} {o : Outgoing}
    (h : s.FinishedAt i) (hs : s.board.Sound) (hlived : Lived E s) (ho : f.outgoing method args = .ok o) :
    Elsewhere i s.client.config.remoteAddr f method args o s := by
  obtain ⟨c, hc, hfinished⟩ := h
  constructor
  · intro hr
    simp [invoke, ho, channel, hr]
  · intro hr hnone
    simp [invoke, ho, channel, hr, hnone]
  · intro hr hi
    simp [invoke, ho, channel, hr, hi, hc, hfinished.inactive]
  · intro hr j hj hji
    have hnewest := hlived.newest j hj
    have hlt := (List.getElem?_eq_some_iff.mp hc).1
    obtain ⟨d, hd⟩ : ∃ d, s.connections[j]? = some d := ⟨_, List.getElem?_eq_getElem (hs.inside j hj)⟩
    exact ⟨by omega, d, hd, invoke_eq_callOver ho hr hj hd⟩

/-! ## Main statement -/

/-- **The end of a connection ends all its calls and nothing else.** -/
theorem connection_ends (config : Config) (codec : Codec) (before : List Action) (a : Action) (i : Nat) :
    let s := (ofConfig config codec).run before
    s.Ends i a → Ending i config.remoteAddr a s (s.perform a) := by
  intro s h
  have hs : s.board.Sound := sound_run (sound_ofConfig config codec) before
  have howned : s.Owned := owned_run (owned_ofConfig config codec) before
  obtain ⟨c, hc, hfinished⟩ := h.finishedAt hs
  constructor
  · exact ⟨c, hc, hfinished, rests_run hfinished hc⟩
  · intro w hw hwi
    exact settled_of_ends h hs howned hw hwi
  · intro k id f w hk hf hwi hnone after hstays htime
    exact endsAt_of_ends h hs howned hk hf hwi hnone hstays htime
  · intro w x hx hne after
    exact outcome?_of_other hs hx h.installed hne (a :: after)
  · intro after f method args o ho
    have hrun : (s.perform a).run after = (ofConfig config codec).run (before ++ a :: after) := by
      rw [run_append, run_cons]
    have haddr : ((s.perform a).run after).client.config.remoteAddr = config.remoteAddr := by
      rw [hrun, config_run]
      rfl
    obtain ⟨c', hc', hrests⟩ := rests_run hfinished hc after
    have hlived : Lived (history (before ++ a :: after) (ofConfig config codec)) ((s.perform a).run after) := by
      rw [hrun]
      exact lived_run config codec _
    rw [← haddr]
    exact elsewhere_of_finished ⟨c', hc', hrests.finished⟩ (sound_run (sound_perform hs a) after) hlived ho

/-- The owner makes a connection while a call waits on the one before. The call ends with that one. -/
theorem call_ends_with_replaced_connection :
    let s := (ofConfig {}).run [.connect, .commandFacade, .call 0 "ping" []]
    let t := s.perform .connect
    s.Ends 0 .connect ∧ s.waiters = {⟨0, 0⟩} ∧ s.outcome? ⟨0, 0⟩ = none ∧
      t.outcome? ⟨0, 0⟩ = some (.error .connectionClosed) ∧ t.client.installed = some 1 ∧
      Ending 0 ({} : Config).remoteAddr .connect s t := by
  intro s t
  have hends : s.Ends 0 .connect := .replaced (by decide +kernel) (by decide +kernel)
  have hending : Ending 0 ({} : Config).remoteAddr .connect s t := connection_ends {} .json _ .connect 0 hends
  have hwaiters : s.waiters = {⟨0, 0⟩} := by decide +kernel
  have hnone : s.outcome? ⟨0, 0⟩ = none := by decide +kernel
  have hsettled := hending.calls ⟨0, 0⟩ (by rw [hwaiters]; exact Multiset.mem_singleton_self _) rfl
  exact ⟨hends, hwaiters, hnone, hsettled.waiting hnone, by decide +kernel, hending⟩

end Session

end RemoteCall
