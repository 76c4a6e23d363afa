import RemoteCall.Error
import RemoteCall.Json.Readable

/-!
# Arguments and results as data

Packets carry arguments and results as octets that only the two ends look into.
-/

namespace RemoteCall

/-- How values become data and data become values. -/
structure Codec where
  encode : Json → Except PayloadFault Bytes
  decode : Bytes → Except PayloadFault Json

/-- Values as JSON text. No data at all stand for null. -/
def Codec.json : Codec where
  encode v := .ok v.bytes
  decode bs :=
    if bs.isEmpty then .ok .null
    else
      match Json.ofBytes? bs with
      | some v => .ok v
      | none => .error .unreadable

namespace CallError

/-- A result of a wanted type. -/
def typed (α : Type) [Json.Readable α] (r : Except CallError Json) : Except CallError α :=
  r.bind fun v =>
    match Json.read? α v with
    | some a => .ok a
    | none => .error (.payload .unreadable)

end CallError

end RemoteCall
