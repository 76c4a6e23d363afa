import RemoteCall.Error
import RemoteCall.Text.Quoted

/-!
# Links in memory

A link joins two ends through two queues. The near end writes and reads packets; the far end sees
what was written, sends packets or faults, and can force the link into the states that a real
connection gets into.
-/

namespace RemoteCall.Memory

/-- What can come in: a packet, or a fault of reading. -/
inductive Inbound where
  | packet (p : Packet)
  | fault (e : CallError)
  deriving DecidableEq, Repr

/-- A link with its two queues. -/
structure Link where
  addr : String
  active : Bool := true
  writable : Bool := true
  failWrites : Bool := false
  /-- Whether the near end is still held for writing. -/
  writerHeld : Bool := true
  /-- Whether the near end is still read. -/
  readerHeld : Bool := true
  /-- Whether the far end is still held. -/
  peerHeld : Bool := true
  /-- What was written and not read yet. -/
  outbound : List Packet := []
  /-- What was sent and not received yet. -/
  inbound : List Inbound := []
  deriving DecidableEq, Repr

/-- What an attempt to read gives. -/
inductive Received (α : Type) where
  | item (a : α)
  /-- Nothing more will come. -/
  | finished
  /-- Nothing has come yet. -/
  | pending
  deriving DecidableEq, Repr

namespace Link

/-! ### The near end -/

/-- Whether packets can be written without the queue growing too long. -/
def isWritable (l : Link) : Bool := l.active && l.writable

/-- Writes a packet. -/
def write (p : Packet) (l : Link) : Except CallError Unit × Link :=
  if !l.active then (.error .connectionClosed, l)
  else if l.failWrites then (.error (.stream .writeFailed), l)
  else if !l.peerHeld then (.error .connectionClosed, l)
  else (.ok (), { l with outbound := l.outbound ++ [p] })

/-- Ends the link. -/
def close (l : Link) : Link := { l with active := false }

/-- Reads what comes in. When the far end is gone and nothing is left, the link has ended. -/
def receive (l : Link) : Received Inbound × Link :=
  match l.inbound with
  | a :: rest => (.item a, { l with inbound := rest })
  | [] => if l.peerHeld then (.pending, l) else (.finished, l.close)

/-- Whether reading would give something. -/
def canReceive (l : Link) : Bool := !l.inbound.isEmpty || !l.peerHeld

/-- The near end is not read any more; what had come in is lost. -/
def dropReader (l : Link) : Link := { l with readerHeld := false, inbound := [] }

/-- The near end is given up. -/
def drop (l : Link) : Link := { l.dropReader with writerHeld := false }

/-- The near end in words. -/
def text (l : Link) : String :=
  s!"Link \x7b peer_addr: {Quoted.quote l.addr}, active: {l.active} \x7d"

/-! ### The far end -/

/-- Sends a packet or a fault; it is lost if nobody reads. -/
def send (a : Inbound) (l : Link) : Link :=
  if l.readerHeld then { l with inbound := l.inbound ++ [a] } else l

@[simp] theorem outbound_send (a : Inbound) (l : Link) : (l.send a).outbound = l.outbound := by
  unfold send
  split <;> rfl

/-- Reads what was written. -/
def take (l : Link) : Received Packet × Link :=
  match l.outbound with
  | p :: rest => (.item p, { l with outbound := rest })
  | [] => (if l.writerHeld then .pending else .finished, l)

/-- Reads on to the next request. -/
def takeRequest (l : Link) : Received Request × Link :=
  match l.outbound.dropWhile fun p => !(p matches .request _) with
  | .request r :: rest => (.item r, { l with outbound := rest })
  | _ => (if l.writerHeld then .pending else .finished, { l with outbound := [] })

/-- Reads all that was written. -/
def takeAll (l : Link) : List Packet × Link := (l.outbound, { l with outbound := [] })

/-- The far end is given up; what had been written is lost. -/
def dropPeer (l : Link) : Link := { l with peerHeld := false, outbound := [] }

/-- The far end ends the link and is given up. -/
def hangUp (l : Link) : Link := { l.dropPeer with active := false }

/-- How the far end answers requests. -/
abbrev Handler := Request → Option Response

/-- The far end answers the packet that was written first: requests as `handler` says, and pings that ask for it. -/
def serve (handler : Handler) (l : Link) : Link :=
  match l.take with
  | (.item (.request r), l) =>
    match handler r with
    | some response => l.send (.packet (.response response))
    | none => l
  | (.item (.ping .yes), l) => l.send (.packet .pong)
  | (_, l) => l

/-- The far end answers all that was written. -/
def serveAll (handler : Handler) (l : Link) : Link :=
  Nat.repeat (serve handler) l.outbound.length l

theorem outbound_serve (handler : Handler) (l : Link) :
    (l.serve handler).outbound = l.outbound.tail := by
  cases h : l.outbound with
  | nil =>
    unfold serve take
    cases l.writerHeld <;> simp [h]
  | cons p rest =>
    match p with
    | .request r => cases hr : handler r <;> simp [serve, take, h, hr]
    | .response _ => simp [serve, take, h]
    | .ping .yes => simp [serve, take, h]
    | .ping .no => simp [serve, take, h]
    | .pong => simp [serve, take, h]

/-- Nothing is left of what was written. -/
theorem outbound_serveAll (handler : Handler) (l : Link) : (l.serveAll handler).outbound = [] := by
  have drops (n : Nat) : (Nat.repeat (serve handler) n l).outbound = l.outbound.drop n := by
    induction n with
    | zero => rfl
    | succ n ih => rw [Nat.repeat, outbound_serve, ih, List.tail_drop]
  rw [serveAll, drops, List.drop_length]

/-- What the far end can do to a link. -/
inductive PeerAct where
  | send (a : Inbound)
  | setWritable (writable : Bool)
  | setFailWrites (fail : Bool)
  | read
  | serve (handler : Handler)
  | hangUp
  | leave

/-- The far end does something to a link, as long as it is held. -/
def act (a : PeerAct) (l : Link) : Link :=
  if !l.peerHeld then l
  else
    match a with
    | .send a => l.send a
    | .setWritable writable => { l with writable }
    | .setFailWrites fail => { l with failWrites := fail }
    | .read => l.take.2
    | .serve handler => l.serve handler
    | .hangUp => l.hangUp
    | .leave => l.dropPeer

end Link

/-! ### Connectors -/

/-- What makes links: whether it refuses to, and why, and how often it was asked. -/
structure Connector where
  refusal : Option String := none
  attempts : Nat := 0
  deriving DecidableEq, Repr

namespace Connector

/-- The words with which a connector in memory refuses. -/
def refusedInMemory : String := "connection refused"

/-- Lets a connector in memory refuse or not. -/
def setRefuse (refuse : Bool) (c : Connector) : Connector :=
  { c with refusal := if refuse then some refusedInMemory else none }

/-- Asks for a link to an address. -/
def connect (addr : String) (c : Connector) : Except CallError Link × Connector :=
  (match c.refusal with
    | some cause => .error (.connectFailure addr (.refused cause))
    | none => .ok { addr },
   { c with attempts := c.attempts + 1 })

end Connector

end RemoteCall.Memory
