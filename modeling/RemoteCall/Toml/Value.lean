/-!
# TOML values and tables

A document is a table. Headers and dotted keys make tables on their way, and whether a table may be
entered again or have keys added depends on how it came to be.
-/

namespace RemoteCall.Toml

/-- How a table came to be. -/
inductive Origin where
  /-- It has a header of its own, or is the document or an element of an array of tables. -/
  | header
  /-- It stands in the header of a table below it. -/
  | implied
  /-- It stands in a dotted key. -/
  | dotted
  /-- It stands between braces. -/
  | inline
  deriving DecidableEq, Repr

inductive Value where
  | integer (n : Int)
  /-- A number with a fraction or an exponent, or one that is none. -/
  | real
  | bool (b : Bool)
  | text (s : String)
  /-- A date, a time or both. -/
  | moment
  | array (items : List Value)
  | table (origin : Origin) (entries : List (String × Value))
  /-- An array of tables with headers of their own. -/
  | tables (elements : List (List (String × Value)))
  deriving Repr, Inhabited

/-- The keys of a table with their values, in the order in which they came. -/
abbrev Entries := List (String × Value)

namespace Entries

/-- Puts a value in the place of the one under a key that is there. -/
def replace (key : String) (v : Value) : Entries → Entries
  | [] => []
  | (k, w) :: es => if k = key then (k, v) :: es else (k, w) :: replace key v es

/-- Adds a key that is not there yet. -/
def insertNew (key : String) (v : Value) (es : Entries) : Option Entries :=
  if (es.lookup key).isSome then none else some (es ++ [(key, v)])

/-- Changes the table at the end of a path, where `origin` is how this table came to be. Tables that
are not there are made. Dots enter only tables without a header. The last element stands for an
array of tables. -/
def alter (dots : Bool) (change : Origin → Entries → Option Entries) (origin : Origin) :
    (path : List String) → Entries → Option Entries
  | [], es => change origin es
  | key :: path, es =>
    match es.lookup key with
    | none =>
      let made := if dots then .dotted else .implied
      (alter dots change made path []).map fun sub => es ++ [(key, .table made sub)]
    | some (.table .inline _) =>
      none
    | some (.table o sub) =>
      if dots ∧ o = .header then none
      else (alter dots change o path sub).map fun sub => replace key (.table o sub) es
    | some (.tables elements) =>
      match elements.getLast? with
      | none => none
      | some sub =>
        (alter dots change .header path sub).map fun sub =>
          replace key (.tables (elements.dropLast ++ [sub])) es
    | some _ => none

/-- Sets a key to a value, under the tables that the dots before the key name. -/
def set (path : List String) (key : String) (v : Value) (origin : Origin) (es : Entries) :
    Option Entries :=
  alter true (fun o sub => if path ≠ [] ∧ o ≠ .dotted then none else sub.insertNew key v)
    origin path es

/-- Opens the table of a header. Only a table that other headers imply may be there. -/
def openTable (path : List String) (key : String) (es : Entries) : Option Entries :=
  alter false (fun _ sub =>
    match sub.lookup key with
    | none => some (sub ++ [(key, .table .header [])])
    | some (.table .implied inner) => some (sub.replace key (.table .header inner))
    | some _ => none) .header path es

/-- Opens a further element of an array of tables. -/
def openElement (path : List String) (key : String) (es : Entries) : Option Entries :=
  alter false (fun _ sub =>
    match sub.lookup key with
    | none => some (sub ++ [(key, .tables [[]])])
    | some (.tables elements) => some (sub.replace key (.tables (elements ++ [[]])))
    | some _ => none) .header path es

/-- Sets a key below the table of the last header. -/
def setBelow (header : List String) (path : List String) (key : String) (v : Value)
    (es : Entries) : Option Entries :=
  alter false (fun o sub => sub.set path key v o) .header header es

end Entries

end RemoteCall.Toml
