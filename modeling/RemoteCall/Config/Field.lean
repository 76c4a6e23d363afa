import RemoteCall.Json.Skip
import RemoteCall.Toml.Reader

/-!
# Records in configuration text

A record is read field by field into what is known of it so far. Keys may come in any order, those
of no field are passed over, and a field that comes twice is refused. A list of the fields in their order
stands for the record as well.
-/

namespace RemoteCall.Config

/-- A field of a record of which a value of `σ` is what is known so far. -/
structure Field (σ : Type) where
  name : String
  /-- Whether the field is known already. -/
  known : σ → Bool
  /-- Reads the value of the field from JSON text. -/
  ofJson : σ → List Char → Option (σ × List Char)
  /-- Takes the value of the field from a TOML value. -/
  ofToml : σ → Toml.Value → Option σ

/-- What a setting may be made of. -/
class Setting (α : Type) where
  /-- Reads the setting from JSON text. -/
  ofJson : Json.Part α
  /-- Takes the setting from a TOML value. -/
  ofToml : Toml.Value → Option α

instance : Setting String where
  ofJson cs :=
    match Json.skipBlank cs with
    | '"' :: cs => Json.readText [] cs
    | _ => none
  ofToml
    | .text s => some s
    | _ => none

instance : Setting Bool where
  ofJson cs :=
    match Json.skipBlank cs with
    | 't' :: 'r' :: 'u' :: 'e' :: cs => some (true, cs)
    | 'f' :: 'a' :: 'l' :: 's' :: 'e' :: cs => some (false, cs)
    | _ => none
  ofToml
    | .bool b => some b
    | _ => none

instance : Setting UInt64 where
  ofJson cs := do
    let (numeral, cs) ← Json.Numeral.read (Json.skipBlank cs)
    let n := Json.Numeral.natural numeral.whole
    if numeral.negative ∨ numeral.fraction.isSome ∨ numeral.exponent.isSome ∨ UInt64.size ≤ n then none
    else return (UInt64.ofNat n, cs)
  ofToml
    | .integer n => if 0 ≤ n then some (UInt64.ofNat n.toNat) else none
    | _ => none

/-- The field that is kept where `get` finds it and `set` puts it. -/
def Field.of {σ α : Type} [Setting α] (name : String) (get : σ → Option α)
    (set : σ → α → σ) : Field σ where
  name
  known s := (get s).isSome
  ofJson s cs := (Setting.ofJson cs).map fun (r : α × List Char) => (set s r.1, r.2)
  ofToml s v := (Setting.ofToml v).map fun a : α => set s a

variable {σ : Type}

/-! ### JSON -/

/-- Takes one key with its value. -/
def readKeyed (fields : List (Field σ)) (s : σ) (cs : List Char) : Option (σ × List Char) :=
  match Json.skipBlank cs with
  | '"' :: cs => do
    let (key, cs) ← Json.readText [] cs
    match Json.skipBlank cs with
    | ':' :: cs =>
      match fields.find? (·.name = key) with
      | none => (Json.skipValue cs).map fun cs => (s, cs)
      | some f => if f.known s then none else f.ofJson s cs
    | _ => none
  | _ => none

/-- Takes keys with their values up to the closing brace; `fuel` bounds their number. -/
def readKeys (fields : List (Field σ)) : (fuel : Nat) → σ → List Char → Option (σ × List Char)
  | 0, _, _ => none
  | fuel + 1, s, cs => do
    let (s, cs) ← readKeyed fields s cs
    match Json.skipBlank cs with
    | ',' :: cs => readKeys fields fuel s cs
    | '\x7d' :: cs => return (s, cs)
    | _ => none

/-- Takes the fields after a first one from a list, up to its closing bracket. -/
def readRest : (fields : List (Field σ)) → σ → List Char → Option (σ × List Char)
  | [], s, cs =>
    match Json.skipBlank cs with
    | ']' :: cs => some (s, cs)
    | _ => none
  | f :: fields, s, cs =>
    match Json.skipBlank cs with
    | ']' :: cs => some (s, cs)
    | ',' :: cs => do
      let (s, cs) ← f.ofJson s cs
      readRest fields s cs
    | _ => none

/-- Takes the fields from a list whose opening bracket has been read. -/
def readItems (fields : List (Field σ)) (s : σ) (cs : List Char) : Option (σ × List Char) :=
  match Json.skipBlank cs with
  | ']' :: cs => some (s, cs)
  | cs =>
    match fields with
    | [] => none
    | f :: fields => do
      let (s, cs) ← f.ofJson s cs
      readRest fields s cs

/-- Reads a record, of which `s` is known, from an object or a list. -/
def readRecord (fields : List (Field σ)) (s : σ) (cs : List Char) : Option (σ × List Char) :=
  match Json.skipBlank cs with
  | '\x7b' :: cs =>
    match Json.skipBlank cs with
    | '\x7d' :: cs => some (s, cs)
    | cs => readKeys fields (cs.length + 1) s cs
  | '[' :: cs => readItems fields s cs
  | _ => none

/-! ### TOML -/

/-- Takes the fields from the keys of a table. -/
def takeEntries (fields : List (Field σ)) : σ → Toml.Entries → Option σ
  | s, [] => some s
  | s, (key, v) :: es =>
    match fields.find? (·.name = key) with
    | none => takeEntries fields s es
    | some f => do
      let s ← f.ofToml s v
      takeEntries fields s es

/-- Takes the fields from the items of an array in order. Further items are not looked at. -/
def takeItems : (fields : List (Field σ)) → σ → List Toml.Value → Option σ
  | [], s, _ => some s
  | _, s, [] => some s
  | f :: fields, s, v :: vs => do
    let s ← f.ofToml s v
    takeItems fields s vs

/-- Takes a record, of which `s` is known, from a table or an array. A date or a time counts as a
table with none of the fields. -/
def takeRecord (fields : List (Field σ)) (s : σ) : Toml.Value → Option σ
  | .table _ es => takeEntries fields s es
  | .moment => some s
  | .array items => takeItems fields s items
  | .tables elements => takeItems fields s (elements.map (.table .header))
  | _ => none

end RemoteCall.Config
