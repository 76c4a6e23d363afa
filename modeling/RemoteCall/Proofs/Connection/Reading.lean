import RemoteCall.Connection

/-!
# Dispatchers over any link

A dispatcher does four things with its link: it reads, writes, ends it, and gives up reading. Over a link in memory
it is the dispatcher of a connection. Once its link gives nothing more, it stops and all calls end.

* `Transport`: what a dispatcher does with a link.
* `Dispatcher.dispatch`: one step of a dispatcher.
* `ofConnection_dispatch`: the dispatcher of a connection is the one over a link in memory.
* `dispatch_of_packet`, `dispatch_of_ended`: what a step does with what comes in.
-/

namespace RemoteCall

open Memory (Received Inbound)

section Defs

/-- What a dispatcher does with a link. -/
structure Transport (L : Type) where
  receive : L → Received Inbound × L
  write : Packet → L → Except CallError Unit × L
  close : L → L
  dropReader : L → L

/-- A link in memory. -/
def Transport.memory : Transport Memory.Link where
  receive := Memory.Link.receive
  write := Memory.Link.write
  close := Memory.Link.close
  dropReader := Memory.Link.dropReader

/-- A dispatcher with its link and the calls over it. -/
structure Dispatcher (L : Type) where
  link : L
  generation : Generation
  settings : DispatcherConfig
  /-- When late calls were looked for last. -/
  lastSweep : Nat
  /-- When the silence will have lasted for the idle time. -/
  idleAt : Nat
  /-- Whether it still reads. -/
  running : Bool := true

namespace Dispatcher

variable {L : Type}

/-- The dispatcher of a connection. -/
def ofConnection (c : Connection) : Dispatcher Memory.Link where
  link := c.link
  generation := c.generation
  settings := c.settings
  lastSweep := c.lastSweep
  idleAt := c.idleAt
  running := c.running

/-- Changes the calls that wait. -/
def onTable {α : Type} (f : Pending.Table → α × Pending.Table) (d : Dispatcher L) : Dispatcher L :=
  { d with generation := (d.generation.onTable f).2 }

/-- Writes a packet. -/
def write (T : Transport L) (p : Packet) (d : Dispatcher L) : Except CallError Unit × Dispatcher L :=
  let (r, link) := T.write p d.link
  (r, { d with link })

/-- Stops, which ends the link and all calls over it. -/
def stop (T : Transport L) (d : Dispatcher L) : Dispatcher L :=
  { d.onTable Pending.Table.abandon with running := false, link := T.dropReader (T.close d.link) }

/-- Looks for late calls. -/
def sweep (now : Nat) (d : Dispatcher L) : Dispatcher L :=
  { d.onTable (Pending.Table.sweep now) with lastSweep := now }

/-- What is done with a packet. -/
def onPacket (T : Transport L) (p : Packet) (d : Dispatcher L) : Dispatcher L :=
  match p with
  | .response r => d.onTable (Pending.Table.resolve r.id r)
  | .ping .yes => (d.write T .pong).2
  | .ping .no => d
  | .pong => d
  | .request _ => d

/-- Begins to wait for the next packet. -/
def await (now : Nat) (d : Dispatcher L) : Dispatcher L :=
  { d with idleAt := Connection.after now d.settings.idleMs }

/-- Waits on after a packet. Late calls are looked for if that was not done for the idle time. -/
def goOn (now : Nat) (d : Dispatcher L) : Dispatcher L :=
  (if d.settings.idleMs ≤ now - d.lastSweep then d.sweep now else d).await now

/-- What is done when nothing has come in for the idle time. -/
def onIdle (T : Transport L) (now : Nat) (d : Dispatcher L) : Dispatcher L :=
  match (d.sweep now).write T (.ping d.settings.heartbeatAck) with
  | (.ok _, d) => d.await now
  | (.error _, d) => d.stop T

/-- One step at a moment. -/
def dispatch (T : Transport L) (now : Nat) (d : Dispatcher L) : Dispatcher L :=
  if d.running then
    match T.receive d.link with
    | (.item (.packet p), link) => (({ d with link } : Dispatcher L).onPacket T p).goOn now
    | (.item (.fault _), link) => ({ d with link } : Dispatcher L).stop T
    | (.finished, link) => ({ d with link } : Dispatcher L).stop T
    | (.pending, link) =>
      if d.idleAt ≤ now then ({ d with link } : Dispatcher L).onIdle T now else d
  else d

end Dispatcher

end Defs

namespace Dispatcher

/-! ## The dispatcher of a connection -/

theorem ofConnection_sweep (now : Nat) (c : Connection) : ofConnection (c.sweep now) = (ofConnection c).sweep now := rfl

theorem ofConnection_write (p : Packet) (c : Connection) :
    (ofConnection c).write .memory p = ((c.write p).1, ofConnection (c.write p).2) := rfl

theorem ofConnection_onPacket (p : Packet) (c : Connection) :
    ofConnection (c.onPacket p) = (ofConnection c).onPacket .memory p := by
  match p with
  | .response _ | .ping .yes | .ping .no | .pong | .request _ => rfl

theorem ofConnection_goOn (now : Nat) (c : Connection) :
    ofConnection ((if c.settings.idleMs ≤ now - c.lastSweep then c.sweep now else c).await now) =
      (ofConnection c).goOn now := by
  have hdue : (ofConnection c).settings.idleMs ≤ now - (ofConnection c).lastSweep ↔
      c.settings.idleMs ≤ now - c.lastSweep := Iff.rfl
  simp only [goOn, hdue]
  split <;> rfl

theorem ofConnection_onIdle (now : Nat) (c : Connection) :
    ofConnection (c.onIdle now) = (ofConnection c).onIdle .memory now := by
  have hsettings : (ofConnection c).settings = c.settings := rfl
  rw [onIdle, hsettings, ← ofConnection_sweep, ofConnection_write, Connection.onIdle]
  obtain ⟨r, c'⟩ := (c.sweep now).write (.ping c.settings.heartbeatAck)
  cases r <;> rfl

/-- **The dispatcher of a connection is the one over a link in memory.** -/
theorem ofConnection_dispatch (now : Nat) (c : Connection) :
    ofConnection (c.dispatch now) = (ofConnection c).dispatch .memory now := by
  have hreceive : Transport.memory.receive (ofConnection c).link = c.link.receive := rfl
  have hrunning : (ofConnection c).running = c.running := rfl
  rw [dispatch, hreceive, hrunning, Connection.dispatch]
  by_cases hgoing : c.running = true
  · rw [if_pos hgoing, if_pos hgoing]
    obtain ⟨r, link⟩ := c.link.receive
    match r with
    | .item (.packet p) =>
      exact (ofConnection_goOn now _).trans (congrArg (goOn now) (ofConnection_onPacket p { c with link }))
    | .item (.fault _) | .finished => rfl
    | .pending =>
      have hidle := ofConnection_onIdle now { c with link }
      by_cases hdue : c.idleAt ≤ now
      · exact (congrArg ofConnection (if_pos hdue)).trans (hidle.trans (if_pos hdue).symm)
      · exact (congrArg ofConnection (if_neg hdue)).trans (if_neg hdue).symm
  · rw [if_neg hgoing, if_neg hgoing]

/-! ## Steps over any link -/

variable {L : Type} {T : Transport L} {d : Dispatcher L} {link : L} {now : Nat}

theorem dispatch_of_packet {p : Packet} (hrunning : d.running = true)
    (h : T.receive d.link = (.item (.packet p), link)) :
    d.dispatch T now = (({ d with link } : Dispatcher L).onPacket T p).goOn now := by
  rw [dispatch, if_pos hrunning, h]

/-- The end of what comes in stops a dispatcher, and so does a fault. -/
theorem dispatch_of_ended {r : Received Inbound} (hrunning : d.running = true) (h : T.receive d.link = (r, link))
    (hr : r = .finished ∨ ∃ e, r = .item (.fault e)) :
    d.dispatch T now = ({ d with link } : Dispatcher L).stop T := by
  rw [dispatch, if_pos hrunning, h]
  obtain rfl | ⟨e, rfl⟩ := hr <;> rfl

theorem dispatch_of_stopped (h : d.running = false) : d.dispatch T now = d := by
  rw [dispatch, h]
  rfl

theorem size_stop (T : Transport L) (d : Dispatcher L) : (d.stop T).generation.table.size = 0 :=
  Pending.Table.size_abandon _

@[simp] theorem running_goOn (now : Nat) (d : Dispatcher L) : (d.goOn now).running = d.running := by
  unfold goOn
  split <;> rfl

@[simp] theorem link_goOn (now : Nat) (d : Dispatcher L) : (d.goOn now).link = d.link := by
  unfold goOn
  split <;> rfl

@[simp] theorem running_onPacket (T : Transport L) (p : Packet) (d : Dispatcher L) :
    (d.onPacket T p).running = d.running := by
  match p with
  | .response _ | .ping .yes | .ping .no | .pong | .request _ => rfl

/-- A packet changes the link only by the answer to it. -/
theorem link_onPacket (T : Transport L) (p : Packet) (d : Dispatcher L) :
    (d.onPacket T p).link = d.link ∨ (d.onPacket T p).link = (T.write .pong d.link).2 := by
  match p with
  | .response _ | .ping .no | .pong | .request _ => exact .inl rfl
  | .ping .yes => exact .inr rfl

end Dispatcher

end RemoteCall
