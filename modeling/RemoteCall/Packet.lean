/-!
# Packets

The four packets that travel between a caller and the process that serves it: requests, the
responses that answer them, and the ping and pong of a heartbeat.
-/

namespace RemoteCall

/-- A run of octets, in the order in which they travel. -/
abbrev Bytes := List UInt8

/-- Whether the sender wants an answer. -/
inductive Ack where
  | yes
  | no
  deriving DecidableEq, Repr, Inhabited

/-- The outcome that a response reports. -/
inductive Status where
  | ok
  | noSuchMethod
  | noSuchService
  | serverError
  deriving DecidableEq, Repr, Inhabited

namespace Status

/-- The number by which an outcome is known outside the wire. -/
def code : Status → Nat
  | ok => 200
  | noSuchMethod => 400
  | noSuchService => 401
  | serverError => 500

/-- The name of an outcome in messages. -/
def name : Status → String
  | ok => "Ok"
  | noSuchMethod => "NoSuchMethod"
  | noSuchService => "NoSuchService"
  | serverError => "ServerError"

theorem code_injective {s t : Status} (h : s.code = t.code) : s = t := by
  cases s <;> cases t <;> simp_all [code]

end Status

/-- A call on its way out: which method of which service, and the encoded arguments. -/
structure Request where
  id : UInt32
  service : String
  method : String
  data : Bytes
  ack : Ack
  deriving DecidableEq, Repr

/-- The answer to the request with the same id. -/
structure Response where
  id : UInt32
  status : Status
  message : String
  data : Bytes
  deriving DecidableEq, Repr

namespace Response

/-- A call that succeeded with an encoded result. -/
def success (id : UInt32) (data : Bytes) : Response := ⟨id, .ok, "", data⟩

/-- A call that failed, with the reason in words. -/
def failure (id : UInt32) (status : Status) (message : String) : Response :=
  ⟨id, status, message, []⟩

end Response

inductive Packet where
  | request (r : Request)
  | response (r : Response)
  | ping (ack : Ack)
  | pong
  deriving DecidableEq, Repr

namespace Packet

/-- The number of the kind of a packet. -/
def kind : Packet → Nat
  | request _ => 1
  | response _ => 2
  | ping _ => 3
  | pong => 4

/-- The id that ties a response to its request; a heartbeat has none. -/
def id? : Packet → Option UInt32
  | request r => some r.id
  | response r => some r.id
  | ping _ => none
  | pong => none

theorem id?_eq_none_iff {p : Packet} : p.id? = none ↔ p.kind = 3 ∨ p.kind = 4 := by
  cases p <;> simp [id?, kind]

end Packet

end RemoteCall
