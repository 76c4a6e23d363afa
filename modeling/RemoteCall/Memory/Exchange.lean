import RemoteCall.Memory.Link

/-!
# Links and their far ends

A connector in memory with all the links it has made. The far ends wait in the order in which their links
were made, and are handed out in that order. Main statement: `accept_connect`, an accepted
attempt hands out the far end of the new link when no other waits.
-/

namespace RemoteCall.Memory

/-- A connector, its links in the order in which they were made, and how many far ends were handed out. -/
structure Exchange where
  connector : Connector := {}
  links : List Link := []
  accepted : Nat := 0
  deriving DecidableEq, Repr

namespace Exchange

/-- Asks for a link to an address; its place in the order of all. -/
def connect (addr : String) (x : Exchange) : Except CallError Nat × Exchange :=
  match x.connector.connect addr with
  | (.ok link, connector) => (.ok x.links.length, { x with connector, links := x.links ++ [link] })
  | (.error e, connector) => (.error e, { x with connector })

/-- Hands out the far end that has waited longest. -/
def accept? (x : Exchange) : Option Nat × Exchange :=
  if x.accepted < x.links.length then (some x.accepted, { x with accepted := x.accepted + 1 })
  else (none, x)

/-- Changes a link. -/
def modify (i : Nat) (f : Link → Link) (x : Exchange) : Exchange :=
  { x with links := x.links.modify i f }

/-- Changes a link, and gives what that gave. -/
def onLink {α : Type} (i : Nat) (f : Link → α × Link) (x : Exchange) : Option α × Exchange :=
  match x.links[i]? with
  | some l => (some (f l).1, { x with links := x.links.set i (f l).2 })
  | none => (none, x)

theorem accept_connect {addr : String} {x : Exchange} (hr : x.connector.refusal = none)
    (ha : x.accepted = x.links.length) :
    (x.connect addr).2.accept?.1 = some x.links.length := by
  simp [connect, Connector.connect, hr, accept?, ha]

theorem accept_of_all_accepted {x : Exchange} (ha : x.links.length ≤ x.accepted) :
    x.accept?.1 = none := by
  simp [accept?, Nat.not_lt.mpr ha]

end Exchange

end RemoteCall.Memory
