import RemoteCall.Config
import RemoteCall.Memory.Link
import RemoteCall.Wire.Frame

/-!
# Connections over a socket

Packets that are written become frames in a queue. A writer takes one frame after the other and
sends it whole. A reader appends what arrives to a buffer and takes frames off it. Both halves end
together. Main statements: `pending_write` and `pending_complete`, the count of octets that wait goes up by
each frame accepted and down by each frame sent.
-/

namespace RemoteCall.Socket

/-- Both halves of a connection over a socket. -/
structure Stream where
  settings : SocketConfig := {}
  active : Bool := true
  /-- Frames that the writer has not taken yet. -/
  queue : List Bytes := []
  /-- The frame that the writer is sending, and what has not been put on the socket of it. -/
  sending : Option (Bytes × Bytes) := none
  /-- The count of octets accepted and not sent yet. -/
  pending : Nat := 0
  /-- All octets that were put on the socket. -/
  sent : Bytes := []
  /-- How many of them the other side has read. -/
  read : Nat := 0
  /-- Octets that were read and belong to no complete frame yet. -/
  buffer : Bytes := []
  /-- Octets that have arrived and were not read yet. -/
  arrived : Bytes := []
  /-- Whether the other side has stopped sending. -/
  peerEnded : Bool := false
  deriving DecidableEq, Repr

namespace Stream

/-! ### Both halves -/

/-- Ends both halves. -/
def shut (s : Stream) : Stream := { s with active := false }

/-- Whether less is waiting to be sent than the mark. -/
def isWritable (s : Stream) : Bool := s.active && s.pending < s.settings.highWater

/-- The connection in words. -/
def text (addr : String) (s : Stream) : String :=
  s!"Link \x7b peer_addr: {Quoted.quote addr}, active: {s.active} \x7d"

/-! ### Writing -/

/-- Accepts a packet for sending. -/
def write (p : Packet) (s : Stream) : Except CallError Unit × Stream :=
  if !s.active then (.error .connectionClosed, s)
  else
    match Frame.encode p with
    | .error e => (.error e, s)
    | .ok frame =>
      (.ok (), { s with queue := s.queue ++ [frame], pending := s.pending + frame.length })

/-- The writer takes the next frame, unless the connection has ended. -/
def takeFrame (s : Stream) : Stream :=
  match s.active, s.sending, s.queue with
  | true, none, frame :: queue => { s with queue, sending := some (frame, frame) }
  | _, _, _ => s

/-- The socket accepts some octets of the frame that is being sent. -/
def sendSome (count : Nat) (s : Stream) : Stream :=
  match s.active, s.sending with
  | true, some (frame, rest) =>
    { s with sending := some (frame, rest.drop count), sent := s.sent ++ rest.take count }
  | _, _ => s

/-- The writer has sent a frame whole. -/
def complete (s : Stream) : Stream :=
  match s.active, s.sending with
  | true, some (frame, []) => { s with sending := none, pending := s.pending - frame.length }
  | _, _ => s

/-- The writer sends frames, at most `count` of them, while the socket has room for `room` octets. -/
def sendWithin : (count room : Nat) → Stream → Stream
  | 0, _, s => s
  | count + 1, room, s =>
    let s := s.takeFrame
    match s.sending with
    | none => s
    | some (_, rest) => sendWithin count (room - rest.length) (s.sendSome room).complete

/-- The writer sends all frames that the socket has room for. -/
def flush (room : Nat) (s : Stream) : Stream := s.sendWithin (s.queue.length + 1) room

/-- A frame could not be sent within the limit, which ends the connection. -/
def writeTimeout (s : Stream) : Stream :=
  match s.active, s.sending with
  | true, some (frame, _) =>
    ({ s with sending := none, pending := s.pending - frame.length } : Stream).shut
  | _, _ => s

/-! ### Reading -/

/-- Takes a frame off the buffer. A fault ends the connection. -/
def takeBuffered (s : Stream) : Option (Memory.Received Memory.Inbound) × Stream :=
  match Frame.take s.buffer with
  | (.ok (some p), buffer) => (some (.item (.packet p)), { s with buffer })
  | (.ok none, buffer) => (none, { s with buffer })
  | (.error e, buffer) => (some (.item (.fault e)), ({ s with buffer } : Stream).shut)

/-- Reads what has arrived into the buffer. -/
def fill (s : Stream) : Stream := { s with buffer := s.buffer ++ s.arrived, arrived := [] }

/-- What the end of what arrives means: a clean end, or a fault inside a frame. -/
def atEnd (s : Stream) : Memory.Received Memory.Inbound × Stream :=
  (if s.buffer.isEmpty then .finished else .item (.fault (.stream .closedMidFrame)), s.shut)

/-- Reads the next packet: one in the buffer, or one that has arrived. After the end nothing more
is read. -/
def receive (s : Stream) : Memory.Received Memory.Inbound × Stream :=
  match s.takeBuffered with
  | (some r, s) => (r, s)
  | (none, s) =>
    if !s.active then (.finished, s)
    else if s.arrived.isEmpty then
      if s.peerEnded then s.atEnd else (.pending, s)
    else
      match s.fill.takeBuffered with
      | (some r, s) => (r, s)
      | (none, s) => if s.peerEnded then s.atEnd else (.pending, s)

/-! ### The other side -/

/-- The other side sends some octets. -/
def peerWrite (bs : Bytes) (s : Stream) : Stream := { s with arrived := s.arrived ++ bs }

/-- The other side stops sending. -/
def peerEnd (s : Stream) : Stream := { s with peerEnded := true }

/-- What was put on the socket and the other side has not read. -/
def unread (s : Stream) : Bytes := s.sent.drop s.read

/-- The other side reads some octets, or as many as there are. -/
def peerRead (count : Nat) (s : Stream) : Bytes × Stream :=
  let got := s.unread.take count
  (got, { s with read := s.read + got.length })

/-! ### The count of octets that wait -/

theorem pending_write {p : Packet} {s : Stream} {frame : Bytes} (ha : s.active = true)
    (hf : Frame.encode p = .ok frame) :
    (s.write p).2.pending = s.pending + frame.length := by
  simp [write, ha, hf]

theorem pending_complete {s : Stream} {frame : Bytes} (ha : s.active = true)
    (hs : s.sending = some (frame, [])) :
    s.complete.pending = s.pending - frame.length := by
  simp [complete, ha, hs]

end Stream

end RemoteCall.Socket
