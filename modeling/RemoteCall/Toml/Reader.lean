import RemoteCall.Toml.Scalar

/-!
# Reading TOML documents

Keys, arrays, inline tables, and then the lines of a document: blank ones, comments, headers, and
keys with values.
-/

namespace RemoteCall.Toml

/-- The text after blanks. -/
def skipBlank (cs : List Char) : List Char := cs.dropWhile isBlank

/-- The text after a comment, which may be absent; the line end stays. -/
def skipComment : List Char → Option (List Char)
  | '#' :: cs => some (cs.dropWhile isPlain)
  | cs => some cs

/-- The text after a line end, or the end of the document. -/
def endLine : List Char → Option (List Char)
  | [] => some []
  | '\n' :: cs => some cs
  | '\r' :: '\n' :: cs => some cs
  | _ => none

/-- The rest of a line: blanks, a comment, and its end. -/
def restOfLine (cs : List Char) : Option (List Char) := skipComment (skipBlank cs) >>= endLine

/-- The text after blanks, comments and line ends; there are at most as many lines as characters in
`bound`. -/
def skipLinesAndComments : (bound : List Char) → List Char → List Char
  | [], cs => cs
  | _ :: bound, cs =>
    match skipBlank cs with
    | '\n' :: rest => skipLinesAndComments bound rest
    | '\r' :: '\n' :: rest => skipLinesAndComments bound rest
    | '#' :: rest =>
      match endLine (rest.dropWhile isPlain) with
      | some rest => skipLinesAndComments bound rest
      | none => '#' :: rest
    | cs => cs

/-- The text after blanks, comments and line ends. -/
def skipSpace (cs : List Char) : List Char := skipLinesAndComments cs cs

/-! ### Keys -/

def isBare (c : Char) : Bool := c.isAlphanum ∨ c = '_' ∨ c = '-'

/-- One key without dots. -/
def simpleKey : Part String
  | '"' :: cs => lineText '"' false cs [] cs
  | '\'' :: cs => lineText '\'' true cs [] cs
  | cs =>
    match cs.takeWhile isBare with
    | [] => none
    | name => some (String.ofList name, cs.dropWhile isBare)

/-- Keys with dots between them, as the ones before the last and the last; `fuel` bounds their number. -/
def dottedKey : (fuel : Nat) → (before : List String) → Part (List String × String)
  | 0, _, _ => none
  | fuel + 1, before, cs => do
    let (key, cs) ← simpleKey (skipBlank cs)
    match skipBlank cs with
    | '.' :: cs => dottedKey fuel (key :: before) cs
    | cs => return ((before.reverse, key), cs)

/-- How deep values may stand inside each other, and how many keys may stand in a path. -/
def limit : Nat := 79

/-- A key with dots. -/
def readKey : Part (List String × String) := dottedKey limit []

/-! ### Values -/

/-- The items of an array, of which there are fewer than characters in `bound`. -/
def arrayItems (value : Part Value) : (bound : List Char) → (acc : List Value) → Part (List Value)
  | [], _, _ => none
  | _ :: bound, acc, cs =>
    match skipSpace cs with
    | ']' :: cs => some (acc.reverse, cs)
    | cs => do
      let (v, cs) ← value cs
      match skipSpace cs with
      | ',' :: cs => arrayItems value bound (v :: acc) cs
      | ']' :: cs => return ((v :: acc).reverse, cs)
      | _ => none

/-- A key, an equals sign and a value. -/
def binding (value : Part Value) : Part ((List String × String) × Value) := fun cs => do
  let (key, cs) ← readKey cs
  match cs with
  | '=' :: cs => do
    let (v, cs) ← value (skipBlank cs)
    return ((key, v), cs)
  | _ => none

/-- The entries of an inline table after the first brace, of which there are fewer than characters
in `bound`. -/
def tableItems (value : Part Value) : (bound : List Char) → (acc : Entries) → Part Entries
  | [], _, _ => none
  | _ :: bound, acc, cs => do
    let (((path, key), v), cs) ← binding value cs
    let acc ← acc.set path key v .inline
    match skipBlank cs with
    | ',' :: cs => tableItems value bound acc cs
    | '\x7d' :: cs => return (acc, cs)
    | _ => none

/-- A value that holds no other. -/
def scalar : Part Value
  | 't' :: 'r' :: 'u' :: 'e' :: cs => some (.bool true, cs)
  | 'f' :: 'a' :: 'l' :: 's' :: 'e' :: cs => some (.bool false, cs)
  | c :: cs =>
    if c = '"' ∨ c = '\'' then (text (c :: cs)).map fun r => (.text r.1, r.2)
    else if startsDate (c :: cs) ∨ startsTime (c :: cs) then
      (moment (c :: cs)).map fun rest => (.moment, rest)
    else number (c :: cs)
  | [] => none

/-- A value with at most `depth` arrays and inline tables inside each other. -/
def readValue : (depth : Nat) → Part Value
  | 0 => fun cs =>
    match cs with
    | '[' :: _ => none
    | '\x7b' :: _ => none
    | cs => scalar cs
  | depth + 1 => fun cs =>
    match cs with
    | '[' :: cs =>
      (arrayItems (readValue depth) cs [] cs).map fun r => (.array r.1, r.2)
    | '\x7b' :: cs =>
      match skipBlank cs with
      | '\x7d' :: cs => some (.table .inline [], cs)
      | cs =>
        (tableItems (readValue depth) cs [] cs).map fun r =>
          (.table .inline r.1, r.2)
    | cs => scalar cs

/-! ### Documents -/

/-- A document so far: its entries, and the path of the last header. -/
structure Document where
  entries : Entries
  header : List String
  deriving Repr

/-- The table of a header, or a further element of an array of tables. -/
def Document.open (d : Document) (element : Bool) (path : List String) (key : String) :
    Option Document :=
  (if element then d.entries.openElement path key else d.entries.openTable path key).map
    fun entries => ⟨entries, path ++ [key]⟩

/-- Takes one line off the front, with the value of a key whatever lines it fills. -/
def Document.readLine (d : Document) (cs : List Char) : Option (Document × List Char) :=
  match skipBlank cs with
  | [] => some (d, [])
  | '[' :: '[' :: cs => do
    let ((path, key), cs) ← readKey cs
    match cs with
    | ']' :: ']' :: cs => do
      let d ← d.open true path key
      let cs ← restOfLine cs
      return (d, cs)
    | _ => none
  | '[' :: cs => do
    let ((path, key), cs) ← readKey cs
    match cs with
    | ']' :: cs => do
      let d ← d.open false path key
      let cs ← restOfLine cs
      return (d, cs)
    | _ => none
  | c :: cs =>
    if c = '#' ∨ c = '\n' ∨ c = '\r' then (restOfLine (c :: cs)).map fun rest => (d, rest)
    else do
      let (((path, key), v), cs) ← binding (readValue limit) (c :: cs)
      let entries ← d.entries.setBelow d.header path key v
      let cs ← restOfLine cs
      return (⟨entries, d.header⟩, cs)

/-- Takes lines off the front up to the end; `fuel` bounds their number. -/
def Document.readLines : (fuel : Nat) → Document → List Char → Option Document
  | 0, _, _ => none
  | _ + 1, d, [] => some d
  | fuel + 1, d, c :: cs => do
    let (d, rest) ← d.readLine (c :: cs)
    readLines fuel d rest

/-- The text after a mark of its byte order. -/
def skipMark : List Char → List Char
  | '\ufeff' :: cs => cs
  | cs => cs

/-- The entries of a document. -/
def parse (cs : List Char) : Option Entries :=
  (Document.readLines (cs.length + 1) ⟨[], []⟩ (skipMark cs)).map Document.entries

end RemoteCall.Toml
