import RemoteCall.Memory.Link

/-!
# Addresses and hosts

An address is a host and a number with a colon between them. A host that can be reached may still
refuse.
-/

namespace RemoteCall.Socket

/-- Why an address could not be connected to. -/
inductive DialError where
  /-- The address has no colon. -/
  | notAnAddress
  /-- What follows the last colon is no number, or one that is too large. -/
  | badNumber
  /-- Nothing listens at the address. -/
  | refused
  /-- There is no way to the host. -/
  | unreachable
  /-- It took longer than the limit, in milliseconds. -/
  | timedOut (limit : Nat)
  deriving DecidableEq, Repr

/-- The words for an error. -/
def DialError.message : DialError → String
  | notAnAddress => "invalid socket address"
  | badNumber => "invalid port value"
  | refused => "Connection refused (os error 111)"
  | unreachable => "Network is unreachable (os error 101)"
  | timedOut limit => s!"timeout after {limit}ms"

/-- How the network takes attempts to connect to an address. -/
inductive Network where
  | listening
  | refusing
  | unreachable
  deriving DecidableEq, Repr

/-- What follows the last colon of an address. -/
def afterColon? (addr : String) : Option (List Char) :=
  let back := addr.toList.reverse
  match back.dropWhile (· ≠ ':') with
  | [] => none
  | _ => some (back.takeWhile (· ≠ ':')).reverse

/-- The number in an address: digits, after a plus sign or not, below 65536. -/
def number? (cs : List Char) : Option Nat :=
  let digits : List Char := match cs with
    | '+' :: rest => rest
    | cs => cs
  let n := digits.foldl (fun n c => 10 * n + (c.toNat - '0'.toNat)) 0
  if digits ≠ [] ∧ digits.all Char.isDigit ∧ n < 65536 then some n else none

/-- Why a network does not connect to an address, if it does not. -/
def dialError? (network : Network) (addr : String) : Option DialError :=
  match afterColon? addr with
  | none => some .notAnAddress
  | some text =>
    match number? text, network with
    | none, _ => some .badNumber
    | some _, .listening => none
    | some _, .refusing => some .refused
    | some _, .unreachable => some .unreachable

/-- A connector that meets a network at an address. -/
def connector (network : Network) (addr : String) : Memory.Connector :=
  { refusal := (dialError? network addr).map DialError.message }

end RemoteCall.Socket
