import RemoteCall.Json.Reader

/-!
# Values of a wanted type

The types a result may be asked for in. A whole number is never taken from a float, and
one out of range is refused.
-/

namespace RemoteCall.Json

/-- A type whose values can be taken from JSON values. -/
class Readable (α : Type) where
  /-- The value, unless the JSON value is of another kind or out of range. -/
  ofJson? : Json → Option α

/-- The value of a wanted type. -/
def read? (α : Type) [Readable α] (v : Json) : Option α := Readable.ofJson? v

instance : Readable Json := ⟨some⟩

instance : Readable Unit where
  ofJson?
    | null => some ()
    | _ => none

instance : Readable Bool where
  ofJson?
    | bool b => some b
    | _ => none

instance : Readable String where
  ofJson?
    | text s => some s
    | _ => none

instance : Readable UInt8 where
  ofJson?
    | whole n => if 0 ≤ n.val ∧ n.val < 256 then some (UInt8.ofNat n.val.toNat) else none
    | _ => none

instance : Readable UInt64 where
  ofJson?
    | whole n => if 0 ≤ n.val then some (UInt64.ofNat n.val.toNat) else none
    | _ => none

instance : Readable Int64 where
  ofJson?
    | whole n => if n.val < 9223372036854775808 then some (Int64.ofInt n.val) else none
    | _ => none

instance {α : Type} [Readable α] : Readable (Option α) where
  ofJson?
    | null => some none
    | v => (read? α v).map some

instance {α : Type} [Readable α] : Readable (List α) where
  ofJson?
    | list items => items.mapM (read? α)
    | _ => none

end RemoteCall.Json
