import RemoteCall.Wire.Number
import RemoteCall.Wire.Fault

/-!
# Packet bodies

The layout of a packet: variants by their index in four octets, ids in four, lengths in eight,
all least significant first, and the parts of a packet one after the other. Writing is total;
reading goes through the parts in order and stops at the first fault. Octets after a complete
packet are not looked at.
-/

namespace RemoteCall

namespace Ack

/-- The index of a marker among the two. -/
def index : Ack → Nat
  | yes => 0
  | no => 1

/-- The marker at an index. -/
def ofIndex? : Nat → Option Ack
  | 0 => some yes
  | 1 => some no
  | _ => none

theorem ofIndex?_eq_some_iff {i : Nat} {a : Ack} : ofIndex? i = some a ↔ i = a.index := by
  rcases i with _ | _ | i <;> cases a <;> simp [ofIndex?, index]

end Ack

namespace Status

/-- The index of an outcome among the four. -/
def index : Status → Nat
  | ok => 0
  | noSuchMethod => 1
  | noSuchService => 2
  | serverError => 3

/-- The outcome at an index. -/
def ofIndex? : Nat → Option Status
  | 0 => some ok
  | 1 => some noSuchMethod
  | 2 => some noSuchService
  | 3 => some serverError
  | _ => none

theorem ofIndex?_eq_some_iff {i : Nat} {s : Status} : ofIndex? i = some s ↔ i = s.index := by
  rcases i with _ | _ | _ | _ | i <;> cases s <;> simp [ofIndex?, index]

end Status

namespace Wire

/-! ### Writing -/

/-- The index of a variant. -/
def variant (index : Nat) : Bytes := little 4 index

/-- Plain data after its length. -/
def data (bs : Bytes) : Bytes := little 8 bs.length ++ bs

/-- A text after its length in octets. -/
def text (s : String) : Bytes := little 8 s.utf8ByteSize ++ Utf8.octets s

/-! ### Reading -/

/-- Reading a part off the front of octets, up to the first fault. -/
abbrev Reader := StateT Bytes (Except Fault)

/-- As many octets as asked for, `short` being the fault when there are fewer. -/
def readOctets (short : Fault) (count : Nat) : Reader Bytes := fun bs =>
  if bs.length < count then .error short
  else .ok (bs.take count, bs.drop count)

/-- A number of `width` octets. -/
def readNumber (width : Nat) : Reader Nat := do
  let octets ← readOctets .endOfInput width
  return ofLittle octets

/-- The variant at the index that comes next, of `count`. -/
def readVariant {α : Type} (ofIndex? : Nat → Option α) (count : Nat) : Reader α := do
  let index ← readNumber 4
  match ofIndex? index with
  | some a => return a
  | none => throw (.badVariant index count)

/-- Plain data. -/
def readData : Reader Bytes := do
  let count ← readNumber 8
  readOctets .endOfInput count

/-- A text. -/
def readText : Reader String := do
  let count ← readNumber 8
  let octets ← readOctets .textCutShort count
  match Utf8.text octets with
  | .ok s => return s
  | .error fault => throw (.badText fault)

/-- An id of four octets. -/
def readId : Reader UInt32 := do
  let n ← readNumber 4
  return UInt32.ofNat n

end Wire

/-! ### Requests and responses -/

namespace Request

/-- The layout of a request. -/
def body (r : Request) : Bytes :=
  Wire.little 4 r.id.toNat ++ (Wire.text r.service ++ (Wire.text r.method ++
    (Wire.data r.data ++ Wire.variant r.ack.index)))

/-- The number of octets of a request. -/
def bodySize (r : Request) : Nat :=
  4 + (8 + r.service.utf8ByteSize) + (8 + r.method.utf8ByteSize) + (8 + r.data.length) + 4

@[simp] theorem length_body (r : Request) : r.body.length = r.bodySize := by
  simp [body, bodySize, Wire.text, Wire.data, Wire.variant]
  omega

/-- Reads a request. -/
def read : Wire.Reader Request := do
  let id ← Wire.readId
  let service ← Wire.readText
  let method ← Wire.readText
  let data ← Wire.readData
  let ack ← Wire.readVariant Ack.ofIndex? 2
  return ⟨id, service, method, data, ack⟩

end Request

namespace Response

/-- The layout of a response. -/
def body (r : Response) : Bytes :=
  Wire.little 4 r.id.toNat ++ (Wire.variant r.status.index ++ (Wire.text r.message ++
    Wire.data r.data))

/-- The number of octets of a response. -/
def bodySize (r : Response) : Nat :=
  4 + 4 + (8 + r.message.utf8ByteSize) + (8 + r.data.length)

@[simp] theorem length_body (r : Response) : r.body.length = r.bodySize := by
  simp [body, bodySize, Wire.text, Wire.data, Wire.variant]
  omega

/-- Reads a response. -/
def read : Wire.Reader Response := do
  let id ← Wire.readId
  let status ← Wire.readVariant Status.ofIndex? 4
  let message ← Wire.readText
  let data ← Wire.readData
  return ⟨id, status, message, data⟩

end Response

/-! ### Packets -/

namespace Packet

/-- The layout of a packet: the index of its kind, then its parts. -/
def body : Packet → Bytes
  | request r => Wire.variant 0 ++ r.body
  | response r => Wire.variant 1 ++ r.body
  | ping ack => Wire.variant 2 ++ Wire.variant ack.index
  | pong => Wire.variant 3

/-- The number of octets of a packet, found without writing it. -/
def bodySize : Packet → Nat
  | request r => 4 + r.bodySize
  | response r => 4 + r.bodySize
  | ping _ => 8
  | pong => 4

@[simp] theorem length_body (p : Packet) : p.body.length = p.bodySize := by
  cases p <;> simp [body, bodySize, Wire.variant]

/-- Reads a packet. -/
def read : Wire.Reader Packet := do
  let index ← Wire.readNumber 4
  match index with
  | 0 => return request (← Request.read)
  | 1 => return response (← Response.read)
  | 2 => return ping (← Wire.readVariant Ack.ofIndex? 2)
  | 3 => return pong
  | index => throw (.badVariant index 4)

/-- The packet whose body octets begin with. -/
def ofBody (bs : Bytes) : Except Wire.Fault Packet := read.run' bs

end Packet

end RemoteCall
