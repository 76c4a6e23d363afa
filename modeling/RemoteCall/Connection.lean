import RemoteCall.Config
import RemoteCall.Generation
import RemoteCall.Memory.Link
import RemoteCall.Service.Facade

/-!
# Connections and their dispatchers

A connection is a link with the state that belongs to it and the one reader of the link, its dispatcher.
The dispatcher answers calls with the responses that come in, answers pings, and sends a
ping of its own when nothing has come in for the idle time. A fault, the end of the link or a
ping that cannot be written stops it, and with it the connection.
-/

namespace RemoteCall

/-- A link, the calls made over it, and its dispatcher. -/
structure Connection where
  link : Memory.Link
  generation : Generation
  settings : DispatcherConfig
  /-- When late calls were looked for last. -/
  lastSweep : Nat
  /-- When the silence will have lasted for the idle time. -/
  idleAt : Nat
  /-- Whether the dispatcher still reads. -/
  running : Bool := true
  deriving DecidableEq, Repr

namespace Connection

/-- The first moment that is out of the range of the clock. -/
def clockEnd : Nat := 9223372036854775808 * 1000

/-- A time of some decades, for a time that is out of the range of the clock. -/
def farAhead : Nat := 30 * 365 * 86400 * 1000

/-- The moment some time after another. -/
def after (now ms : Nat) : Nat := if now + ms < clockEnd then now + ms else now + farAhead

/-- A connection over a new link. -/
def start (now : Nat) (link : Memory.Link) (number : Nat) (settings : DispatcherConfig) :
    Connection where
  link
  generation := { number }
  settings
  lastSweep := now
  idleAt := after now settings.idleMs

/-! ### Calls -/

/-- Changes the calls that wait. -/
def onTable {α : Type} (f : Pending.Table → α × Pending.Table) (c : Connection) :
    α × Connection :=
  let (a, generation) := c.generation.onTable f
  (a, { c with generation })

/-- Writes a packet. -/
def write (p : Packet) (c : Connection) : Except CallError Unit × Connection :=
  let (r, link) := c.link.write p
  (r, { c with link })

/-- Sends a request under the next id. An answered call is registered first, and its call is taken out again if
the request cannot be written. -/
def send (now : Nat) (o : Outgoing) (c : Connection) :
    Except CallError (Option Pending.Ticket) × Connection :=
  let (id, generation) := c.generation.takeId
  let c := { c with generation }
  let packet := Packet.request (o.request id)
  match o.ack with
  | .no =>
    let (r, c) := c.write packet
    (r.map fun _ => none, c)
  | .yes =>
    match c.onTable (Pending.Table.register now id o.timeoutMs) with
    | (.error e, c) => (.error e, c)
    | (.ok ticket, c) =>
      match c.write packet with
      | (.ok _, c) => (.ok (some ticket), c)
      | (.error e, c) => (.error e, (c.onTable (Pending.Table.cancel id)).2)

/-! ### The end -/

/-- Ends the link, and all calls over it. -/
def close (c : Connection) : Connection :=
  (({ c with link := c.link.close } : Connection).onTable Pending.Table.abandon).2

/-- The dispatcher stops by itself. -/
def stop (c : Connection) : Connection :=
  let c := c.close
  { c with running := false, link := c.link.dropReader }

/-- The dispatcher is stopped from outside and does nothing more. -/
def halt (c : Connection) : Connection := { c with running := false, link := c.link.dropReader }

/-- Releases a connection: its link is closed, its dispatcher halted and its calls ended. -/
def teardown (c : Connection) : Connection := c.close.halt

/-- Gives a connection up without closing its link. -/
def release (c : Connection) : Connection := (c.halt.onTable Pending.Table.abandon).2

/-! ### Steps of the dispatcher -/

/-- Looks for late calls. -/
def sweep (now : Nat) (c : Connection) : Connection :=
  { (c.onTable (Pending.Table.sweep now)).2 with lastSweep := now }

/-- What is done with a packet. A pong that cannot be written changes nothing. -/
def onPacket (p : Packet) (c : Connection) : Connection :=
  match p with
  | .response r => (c.onTable (Pending.Table.resolve r.id r)).2
  | .ping .yes => (c.write .pong).2
  | .ping .no => c
  | .pong => c
  | .request _ => c

/-- Begins to wait for the next packet. -/
def await (now : Nat) (c : Connection) : Connection :=
  { c with idleAt := after now c.settings.idleMs }

/-- What is done when nothing has come in for the idle time. -/
def onIdle (now : Nat) (c : Connection) : Connection :=
  match (c.sweep now).write (.ping c.settings.heartbeatAck) with
  | (.ok _, c) => c.await now
  | (.error _, c) => c.stop

/-- One step of the dispatcher at a moment. What has come in counts before the idle time. -/
def dispatch (now : Nat) (c : Connection) : Connection :=
  if c.running then
    match c.link.receive with
    | (.item (.packet p), link) =>
      let c := ({ c with link } : Connection).onPacket p
      (if c.settings.idleMs ≤ now - c.lastSweep then c.sweep now else c).await now
    | (.item (.fault _), link) => ({ c with link } : Connection).stop
    | (.finished, link) => ({ c with link } : Connection).stop
    | (.pending, link) =>
      if c.idleAt ≤ now then ({ c with link } : Connection).onIdle now else c
  else c

/-- Whether the dispatcher has something to do at a moment. -/
def isReady (now : Nat) (c : Connection) : Bool :=
  c.running && (c.link.canReceive || c.idleAt ≤ now)

/-- When the dispatcher has something to do if nothing comes in. -/
def timer? (c : Connection) : Option Nat := if c.running then some c.idleAt else none

/-- The connection as callers see it. -/
def text (c : Connection) : String :=
  s!"Channel \x7b peer_addr: {Quoted.quote c.link.addr}, generation: {c.generation.number} \x7d"

/-! ### A dispatcher that has nothing to do does nothing -/

theorem dispatch_of_not_isReady {now : Nat} {c : Connection} (h : c.isReady now = false) :
    c.dispatch now = c := by
  unfold isReady Memory.Link.canReceive at h
  unfold dispatch
  by_cases hr : c.running = true
  · rw [if_pos hr]
    simp only [hr, Bool.true_and, Bool.or_eq_false_iff, Bool.not_eq_false',
      List.isEmpty_iff, decide_eq_false_iff_not] at h
    obtain ⟨⟨hi, hp⟩, ht⟩ := h
    simp [Memory.Link.receive, hi, hp, ht]
  · rw [if_neg hr]

theorem size_stop (c : Connection) : c.stop.generation.table.size = 0 :=
  Pending.Table.size_abandon _

theorem size_teardown (c : Connection) : c.teardown.generation.table.size = 0 :=
  Pending.Table.size_abandon _

end Connection

end RemoteCall
