import RemoteCall.Pending

/-!
# Generations

What belongs to one connection: its number, the id that the next request gets, and the calls that
wait. A new connection starts with fresh ids and no calls.
-/

namespace RemoteCall

/-- The state of one connection. -/
structure Generation where
  number : Nat
  nextId : UInt32 := 0
  table : Pending.Table := {}
  deriving DecidableEq, Repr

namespace Generation

/-- Hands out the next id; after the last one ids begin again. -/
def takeId (g : Generation) : UInt32 × Generation :=
  (g.nextId, { g with nextId := g.nextId + 1 })

/-- Changes the calls that wait. -/
def onTable {α : Type} (f : Pending.Table → α × Pending.Table) (g : Generation) : α × Generation :=
  let (a, table) := f g.table
  (a, { g with table })

/-- A generation in words. -/
def text (g : Generation) : String :=
  s!"Generation \x7b id: {g.number}, next_request_id: {g.nextId}, pending: {g.table.size} \x7d"

end Generation

end RemoteCall
