import RemoteCall.Proofs.Connection.Sending
import RemoteCall.Proofs.Connection.Writing

/-!
# One connection in time

A dispatcher shares its connection with those who send over it, with the callers, and with the far end of the link. A
timeline is any sequence of what they do, in which time passes only while the dispatcher has nothing to do, and not
beyond its timer.

* `Incident` and `Scene.run`: what can happen to a connection, and a connection at a moment.
* `Scene.punctual`: all incidents are on time.
* `Took`: what a turn of the dispatcher is, from which all that follows about turns is read off.
* `Steady`: all but the turns leave the timers as they are.
* `Scene.Timely`: while the dispatcher runs, its timer is not overdue.
* `Scene.settles`: a few turns bring the dispatcher to rest, whatever has come in.
-/

namespace RemoteCall.Connection

section Defs

/-- What can happen to a connection. -/
inductive Incident where
  /-- The far end does something to the link. -/
  | peer (act : Memory.Link.PeerAct)
  /-- The dispatcher takes a turn. -/
  | turn
  | send (o : Outgoing)
  | register (id : UInt32) (timeoutMs : Nat)
  /-- Calls leave the table because someone answers, cancels, evicts, sweeps or abandons them. -/
  | leave (p : Pending.Call → Bool) (e : Pending.Exit)
  /-- The caller of a call goes away. -/
  | forget (n : Pending.Ticket)
  /-- The near end closes the link. -/
  | close
  /-- The dispatcher is stopped from outside. -/
  | halt
  | pass (ms : Nat)

/-- How long an incident takes. -/
def Incident.duration : Incident → Nat
  | pass ms => ms
  | _ => 0

/-- What becomes of a connection in an incident. -/
def undergo (now : Nat) (a : Incident) (c : Connection) : Connection :=
  match a with
  | .peer act => { c with link := c.link.act act }
  | .turn => c.dispatch now
  | .send o => (c.send now o).2
  | .register id timeoutMs => (c.onTable (Pending.Table.register now id timeoutMs)).2
  | .leave p e => (c.onTable fun t => ((), t.leave p e)).2
  | .forget n => (c.onTable fun t => ((), t.forget n)).2
  | .close => { c with link := c.link.close }
  | .halt => c.halt
  | .pass _ => c

/-- A connection at a moment. -/
structure Scene where
  now : Nat
  connection : Connection

namespace Scene

/-- A scene with a new connection. -/
def opening (now : Nat) (link : Memory.Link) (number : Nat) (settings : DispatcherConfig) : Scene :=
  ⟨now, .start now link number settings⟩

/-- What comes of an incident. -/
def perform (a : Incident) (x : Scene) : Scene := ⟨x.now + a.duration, x.connection.undergo x.now a⟩

/-- What comes of one incident after another. -/
def run (incidents : List Incident) (x : Scene) : Scene := incidents.foldl (fun x a => x.perform a) x

/-- Whether the dispatcher has nothing to do. -/
def isAtRest (x : Scene) : Bool := !x.connection.isReady x.now

/-- Time passes only while the dispatcher has nothing to do, and no further than to its timer. So a packet is taken in
at the moment at which it arrives. -/
def onTime (a : Incident) (x : Scene) : Bool :=
  match a with
  | .pass ms => x.isAtRest && x.connection.timer?.all fun t => x.now + ms ≤ t
  | _ => true

/-- All incidents are on time. -/
def punctual : List Incident → Scene → Bool
  | [], _ => true
  | a :: incidents, x => x.onTime a && punctual incidents (x.perform a)

/-- Turns alone bring the dispatcher to rest: one for each thing that has come in, and one more at most. -/
def Settles (x : Scene) : Prop :=
  ∃ turns ≤ x.connection.link.inbound.length + 1, (x.run (List.replicate turns .turn)).isAtRest = true

/-- While the dispatcher runs, its timer is not overdue. -/
def Timely (x : Scene) : Prop := x.connection.running = true → x.now ≤ x.connection.idleAt

end Scene

/-- What a turn of a dispatcher is. -/
inductive Took (now : Nat) (c : Connection) : Connection → Prop
  /-- It has stopped. -/
  | halted (hr : c.running = false) : Took now c c
  /-- A packet is there. -/
  | heard {p : Packet} {rest : List Memory.Inbound} {c' : Connection} (hr : c.running = true)
    (hin : c.link.inbound = .packet p :: rest) (h : c' = onPacket p { c with link := { c.link with inbound := rest } })
    (hframe : c' = { c with link := c'.link, generation := c'.generation }) :
    Took now c ((if c.settings.idleMs ≤ now - c.lastSweep then c'.sweep now else c').await now)
  /-- A fault is there, or the far end is gone. -/
  | ended {link : Memory.Link} (hr : c.running = true)
    (hin : ∀ p rest, c.link.inbound ≠ .packet p :: rest) (hp : c.link.inbound = [] → c.link.peerHeld = false)
    (ho : link.outbound = c.link.outbound) : Took now c (stop { c with link })
  /-- Nothing has come in for the idle time, and a ping is written. -/
  | beat (hr : c.running = true) (hin : c.link.inbound = []) (hp : c.link.peerHeld = true) (ht : c.idleAt ≤ now)
    (hw : c.link.write (.ping c.settings.heartbeatAck) =
      (.ok (), { c.link with outbound := c.link.outbound ++ [.ping c.settings.heartbeatAck] })) :
    Took now c (await now { c.sweep now with
      link := { c.link with outbound := c.link.outbound ++ [.ping c.settings.heartbeatAck] } })
  /-- Nothing has come in for the idle time, and no ping can be written. -/
  | failed {e : CallError} (hr : c.running = true) (hin : c.link.inbound = []) (hp : c.link.peerHeld = true)
    (ht : c.idleAt ≤ now) (hw : (c.link.write (.ping c.settings.heartbeatAck)).1 = .error e) :
    Took now c (c.sweep now).stop
  /-- Nothing is there yet. -/
  | idle (hr : c.running = true) (hin : c.link.inbound = []) (hp : c.link.peerHeld = true) (ht : now < c.idleAt) :
    Took now c c

/-- What concerns the timers of a dispatcher is as it was, but that it may have been stopped. -/
structure Steady (c c' : Connection) : Prop where
  settings : c'.settings = c.settings
  lastSweep : c'.lastSweep = c.lastSweep
  idleAt : c'.idleAt = c.idleAt
  running : c'.running = true → c.running = true

end Defs

variable {c c' : Connection} {a : Incident} {incidents : List Incident} {now ms : Nat} {x : Scene}

/-! ## The clock -/

theorem le_after (now ms : Nat) : now ≤ after now ms := by
  unfold after
  split <;> omega

theorem lt_after (now : Nat) (h : 0 < ms) : now < after now ms := by
  have hfar : 0 < farAhead := by decide
  unfold after
  split <;> omega

theorem after_of_lt (h : now + ms < clockEnd) : after now ms = now + ms := if_pos h

/-! ## Turns -/

theorem onPacket_frame (p : Packet) (c : Connection) :
    c.onPacket p = { c with link := (c.onPacket p).link, generation := (c.onPacket p).generation } := by
  match p with
  | .response r => rfl
  | .ping .yes => rfl
  | .ping .no => rfl
  | .pong => rfl
  | .request _ => rfl

theorem inbound_onPacket (p : Packet) (c : Connection) : (c.onPacket p).link.inbound = c.link.inbound := by
  match p with
  | .response r => rfl
  | .ping .yes =>
    show (c.link.write .pong).2.inbound = c.link.inbound
    rcases write_cases .pong c.link with ⟨e, h⟩ | h <;> rw [h]
  | .ping .no => rfl
  | .pong => rfl
  | .request _ => rfl

theorem took_dispatch (now : Nat) (c : Connection) : c.Took now (c.dispatch now) := by
  cases hr : c.running with
  | false =>
    rw [dispatch_of_halted hr]
    exact .halted hr
  | true =>
    rw [dispatch, if_pos hr]
    cases hin : c.link.inbound with
    | cons first rest =>
      cases first with
      | packet p =>
        simp only [Memory.Link.receive, hin]
        have hframe := onPacket_frame p { c with link := { c.link with inbound := rest } }
        rw [congrArg settings hframe, congrArg lastSweep hframe]
        exact .heard hr hin rfl hframe
      | fault e =>
        simp only [Memory.Link.receive, hin]
        exact .ended hr (by simp [hin]) (by simp [hin]) rfl
    | nil =>
      cases hp : c.link.peerHeld with
      | false =>
        simp only [Memory.Link.receive, hin, hp]
        exact .ended hr (by simp [hin]) (fun _ => hp) rfl
      | true =>
        simp only [Memory.Link.receive, hin, hp, if_true]
        by_cases ht : c.idleAt ≤ now
        · rw [if_pos ht]
          have hlink : (c.sweep now).link = c.link := rfl
          simp only [onIdle, write, hlink]
          rcases write_cases (.ping c.settings.heartbeatAck) c.link with ⟨e, hw⟩ | hw
          · simp only [hw]
            exact .failed hr hin hp ht (e := e) (by rw [hw])
          · simp only [hw]
            exact .beat hr hin hp ht hw
        · rw [if_neg ht]
          exact .idle hr hin hp (Nat.lt_of_not_le ht)

/-- A turn sets the timer anew, or leaves it as it is. -/
theorem Took.le_idleAt (h : c.Took now c') (ht : c.running = true → now ≤ c.idleAt) (hr : c'.running = true) :
    now ≤ c'.idleAt := by
  cases h with
  | halted => exact ht hr
  | heard => exact le_after _ _
  | ended => cases hr
  | beat => exact le_after _ _
  | failed => cases hr
  | idle => exact ht hr

theorem Took.settings (h : c.Took now c') : c'.settings = c.settings := by
  cases h with
  | heard hr hin hd hframe =>
    refine Eq.trans ?_ ((congrArg Connection.settings hframe).trans rfl)
    split <;> rfl
  | _ => rfl

/-! ## Rest -/

theorem isReady_of_halted (hr : c.running = false) (now : Nat) : c.isReady now = false := by
  rw [isReady, hr, Bool.false_and]

theorem isReady_of_silent (hin : c.link.inbound = []) (hp : c.link.peerHeld = true) (ht : now < c.idleAt) :
    c.isReady now = false := by
  simp [isReady, Memory.Link.canReceive, hin, hp, ht]

/-- After a turn the dispatcher has nothing to do, or less than before. -/
theorem Took.settles (h : c.Took now c') (hd : 0 < c.settings.idleMs) :
    c'.isReady now = false ∨ c'.link.inbound.length < c.link.inbound.length := by
  cases h with
  | halted hr => exact .inl (isReady_of_halted hr now)
  | @heard p rest d _ hin h =>
    right
    have hleft : d.link.inbound = rest := h ▸ inbound_onPacket p _
    have hlink : d.link.inbound.length < c.link.inbound.length := by
      rw [hleft, hin, List.length_cons]
      exact Nat.lt_succ_self _
    split <;> exact hlink
  | ended => exact .inl (isReady_of_halted rfl now)
  | beat _ hin hp => exact .inl (isReady_of_silent hin hp (lt_after now hd))
  | failed => exact .inl (isReady_of_halted rfl now)
  | idle _ hin hp ht => exact .inl (isReady_of_silent hin hp ht)

/-! ## All but turns -/

theorem Steady.refl (c : Connection) : c.Steady c := ⟨rfl, rfl, rfl, fun h => h⟩

/-- All but the turns of a dispatcher leave its timers as they are. -/
theorem steady_undergo (ha : a ≠ .turn) (now : Nat) (c : Connection) : c.Steady (c.undergo now a) := by
  cases a with
  | turn => exact absurd rfl ha
  | send o =>
    obtain ⟨link, generation, -, h⟩ := send_channel now o c
    rw [undergo, h]
    exact ⟨rfl, rfl, rfl, fun h => h⟩
  | halt => exact ⟨rfl, rfl, rfl, nofun⟩
  | _ => exact ⟨rfl, rfl, rfl, fun h => h⟩

/-! ## Time -/

namespace Scene

@[simp] theorem run_nil (x : Scene) : x.run [] = x := rfl

@[simp] theorem run_cons (a : Incident) (incidents : List Incident) (x : Scene) :
    x.run (a :: incidents) = (x.perform a).run incidents := rfl

theorem run_append (first rest : List Incident) (x : Scene) : x.run (first ++ rest) = (x.run first).run rest := by
  simp [run, List.foldl_append]

theorem now_perform_of_ne (ha : ∀ ms, a ≠ .pass ms) (x : Scene) : (x.perform a).now = x.now := by
  cases a with
  | pass ms => exact absurd rfl (ha ms)
  | _ => rfl

theorem now_le_perform (a : Incident) (x : Scene) : x.now ≤ (x.perform a).now := Nat.le_add_right _ _

theorem settings_perform (a : Incident) (x : Scene) :
    (x.perform a).connection.settings = x.connection.settings := by
  by_cases ha : a = .turn
  · subst ha
    exact (took_dispatch x.now x.connection).settings
  · exact (steady_undergo ha x.now x.connection).settings

theorem settings_run (incidents : List Incident) (x : Scene) :
    (x.run incidents).connection.settings = x.connection.settings := by
  induction incidents generalizing x with
  | nil => rfl
  | cons a incidents ih => exact (ih (x.perform a)).trans (settings_perform a x)

/-- When time passes, the timer of a dispatcher that runs is not passed by. -/
theorem le_idleAt_of_onTime (ht : x.onTime (.pass ms) = true) (hr : x.connection.running = true) :
    x.now + ms ≤ x.connection.idleAt := by
  simp only [onTime, timer?, hr, if_true, Option.all_some, Bool.and_eq_true, decide_eq_true_eq] at ht
  exact ht.2

theorem lt_idleAt_of_isAtRest (hrest : x.isAtRest = true) (hr : x.connection.running = true) :
    x.now < x.connection.idleAt := by
  simp only [isAtRest, isReady, hr, Bool.true_and, Bool.not_eq_true', Bool.or_eq_false_iff] at hrest
  exact Nat.lt_of_not_le (of_decide_eq_false hrest.2)

/-- Whatever has come in, the dispatcher comes to rest. -/
theorem settles (hd : 0 < x.connection.settings.idleMs) : x.Settles := by
  induction hlength : x.connection.link.inbound.length using Nat.strongRecOn generalizing x with
  | ind length ih =>
    subst hlength
    rcases (took_dispatch x.now x.connection).settles hd with hrest | hless
    · exact ⟨1, Nat.le_add_left _ _, congrArg (!·) hrest⟩
    · have hd' : 0 < (x.perform .turn).connection.settings.idleMs := by rwa [settings_perform]
      obtain ⟨turns, hle, hrest⟩ := ih _ hless hd' rfl
      exact ⟨turns + 1, Nat.succ_le_succ (Nat.le_trans hle hless), hrest⟩

theorem settles_run_opening (now : Nat) (link : Memory.Link) (number : Nat) {settings : DispatcherConfig}
    (hd : 0 < settings.idleMs) (incidents : List Incident) :
    ((opening now link number settings).run incidents).Settles := by
  refine settles ?_
  rw [settings_run]
  exact hd

theorem timely_opening (now : Nat) (link : Memory.Link) (number : Nat) (settings : DispatcherConfig) :
    (opening now link number settings).Timely := fun _ => le_after now settings.idleMs

/-- As long as all is on time, no timer is overdue. -/
theorem Timely.perform (h : x.Timely) (ht : x.onTime a = true) : (x.perform a).Timely := by
  intro hr
  by_cases hpass : ∃ ms, a = .pass ms
  · obtain ⟨ms, rfl⟩ := hpass
    exact le_idleAt_of_onTime ht hr
  · rw [now_perform_of_ne (fun ms hms => hpass ⟨ms, hms⟩)]
    by_cases hturn : a = .turn
    · subst hturn
      exact (took_dispatch x.now x.connection).le_idleAt h hr
    · have hsteady := steady_undergo hturn x.now x.connection
      rw [show (x.perform a).connection.idleAt = x.connection.idleAt from hsteady.idleAt]
      exact h (hsteady.running hr)

end Scene

end RemoteCall.Connection
