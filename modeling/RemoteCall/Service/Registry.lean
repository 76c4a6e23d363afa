import RemoteCall.Dictionary

/-!
# The registry of façades

Under each name stands the façade that was made last for it. The registry keeps no façade alive: one
that nobody holds any more counts as absent, although its entry stays until the next pruning.
-/

namespace RemoteCall

/-- The number of a façade, in the order in which they were made. -/
abbrev FacadeId := Nat

/-- The façade made last for each name. -/
structure Registry where
  entries : Dictionary FacadeId := []
  deriving DecidableEq, Repr

namespace Registry

variable (live : FacadeId → Bool)

/-- How many entries there are, also those whose façade is gone. -/
def size (r : Registry) : Nat := r.entries.length

/-- The façade under a name, if it is still held. -/
def get? (r : Registry) (name : String) : Option FacadeId :=
  (r.entries.lookup name).filter live

/-- Takes away the entries whose façade is gone, and counts them. -/
def prune (r : Registry) : Nat × Registry :=
  let kept := r.entries.keep live
  (r.entries.length - kept.length, ⟨kept⟩)

/-- What asking for a façade gives. -/
inductive Found where
  /-- One that is held already. -/
  | reused (id : FacadeId)
  /-- A new one. -/
  | built (id : FacadeId)
  deriving DecidableEq, Repr

/-- The façade that was found or made. -/
def Found.id : Found → FacadeId
  | reused id => id
  | built id => id

/-- Whether a façade was made. -/
def Found.isBuilt : Found → Bool
  | reused _ => false
  | built _ => true

/-- The façade under a name if it is still held and `reusable`; otherwise `fresh` takes the
place under the name and the registry is pruned. -/
def getOrCreate (r : Registry) (name : String) (reusable : FacadeId → Bool) (fresh : FacadeId) :
    Found × Registry :=
  match (r.get? live name).filter reusable with
  | some id => (.reused id, r)
  | none =>
    (.built fresh, (prune (fun id => id = fresh ∨ live id) ⟨r.entries.insert name fresh⟩).2)

end Registry

end RemoteCall
