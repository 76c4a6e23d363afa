import RemoteCall.Wire.Fault

/-!
# Errors

The causes for which a call, a connection or a stream fails, and the words for each.
-/

namespace RemoteCall

/-- Why there is no connection to use. -/
inductive ConnectReason where
  /-- None was made, or it was released. -/
  | noConnection
  /-- The connection has ended. -/
  | inactive
  /-- Too much is waiting to be sent. -/
  | notWritable
  /-- The client that owned it is gone. -/
  | clientDropped
  /-- The other side could not be reached. -/
  | refused (cause : String)
  deriving DecidableEq, Repr

/-- The words for a reason. -/
def ConnectReason.message : ConnectReason → String
  | noConnection => "channel no connect"
  | inactive => "channel no active"
  | notWritable => "channel no writable"
  | clientDropped => "client dropped"
  | refused cause => s!"connect refused: {cause}"

/-- Why arguments or a result could not be carried as data. -/
inductive PayloadFault where
  /-- A method was given a number of arguments other than its own. -/
  | wrongArity (service method : String) (takes given : Nat)
  /-- The data does not hold a value of the kind that was asked for. -/
  | unreadable
  /-- A fault that a transport reports in its own words. -/
  | reported (detail : String)
  deriving DecidableEq, Repr

/-- The words for a fault of data. -/
def PayloadFault.message : PayloadFault → String
  | wrongArity service method takes given =>
    s!"{service}.{method} takes {takes} arguments, got {given}"
  | unreadable => "unreadable data"
  | reported detail => detail

/-- Why octets could not be moved. -/
inductive StreamFault where
  /-- A stream ended inside the body of a frame. -/
  | earlyEnd
  /-- A connection ended inside a frame. -/
  | closedMidFrame
  /-- A transport that was told to fail did so. -/
  | writeFailed
  /-- A fault that a transport reports in its own words. -/
  | reported (detail : String)
  deriving DecidableEq, Repr

/-- The words for a fault of a stream. -/
def StreamFault.message : StreamFault → String
  | earlyEnd => "early eof"
  | closedMidFrame => "connection closed mid-frame"
  | writeFailed => "write failed"
  | reported detail => detail

/-- The ways in which a call, a connection or a stream fails. -/
inductive CallError where
  | connectFailure (addr : String) (reason : ConnectReason)
  /-- A call was not answered within its time limit, a number of milliseconds that fits 64 bits. -/
  | callTimeout (id : UInt32) (milliseconds : Nat)
  | duplicateId (id : UInt32)
  | remoteFailure (status : Status) (detail : String)
  | unknownMethod (service method : String)
  | connectionClosed
  | frameTooLarge (size max : Nat)
  | codec (fault : Wire.Fault)
  | payload (fault : PayloadFault)
  | stream (fault : StreamFault)
  deriving DecidableEq, Repr

namespace CallError

/-- The words for an error. -/
def message : CallError → String
  | connectFailure addr reason => s!"the [{addr}] {reason.message}"
  | callTimeout id milliseconds => s!"request {id} timed out after {milliseconds}ms"
  | duplicateId id => s!"request id {id} is already pending on this connection"
  | remoteFailure status detail => s!"remote failure {status.name}: {detail}"
  | unknownMethod service method => s!"no method {method} on service {service}"
  | connectionClosed => "connection closed before a response arrived"
  | frameTooLarge size max => s!"frame too large: {size} bytes (max {max})"
  | codec fault => s!"codec error: {fault.message}"
  | payload fault => s!"serialization error: {fault.message}"
  | stream fault => fault.message

/-- Whether the other side answered, with a failure. -/
def isRemoteFailure : CallError → Bool
  | remoteFailure _ _ => true
  | _ => false

/-- The reason for which there was no connection, if that is the error. -/
def connectReason? : CallError → Option ConnectReason
  | connectFailure _ reason => some reason
  | _ => none

end CallError

end RemoteCall
