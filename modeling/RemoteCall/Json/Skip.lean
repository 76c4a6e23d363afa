import RemoteCall.Json.Reader

/-!
# Passing over JSON values

A value that nobody asked for has to be well formed, but neither its depth nor the range of its
numbers nor the pairing of its escapes is looked at.
-/

namespace RemoteCall.Json

/-- The text after a quoted text, whose opening quote has been read. -/
def skipText : List Char → Option (List Char)
  | [] => none
  | '"' :: cs => some cs
  | '\\' :: 'u' :: a :: b :: c :: d :: cs =>
    if (hexQuad? a b c d).isSome then skipText cs else none
  | '\\' :: c :: cs => if (unescape? c).isSome then skipText cs else none
  | c :: cs => if c.toNat < 0x20 then none else skipText cs

/-- The text after a value that is neither a list nor an object. -/
def skipScalar : List Char → Option (List Char)
  | 'n' :: 'u' :: 'l' :: 'l' :: cs => some cs
  | 't' :: 'r' :: 'u' :: 'e' :: cs => some cs
  | 'f' :: 'a' :: 'l' :: 's' :: 'e' :: cs => some cs
  | '"' :: cs => skipText cs
  | cs => (Numeral.read cs).map Prod.snd

/-- The text after a key and its colon. -/
def skipKey (cs : List Char) : Option (List Char) :=
  match skipBlank cs with
  | '"' :: cs => do
    let cs ← skipText cs
    match skipBlank cs with
    | ':' :: cs => some cs
    | _ => none
  | _ => none

/-- What is open around a value. -/
inductive Bracket where
  | list
  | object
  deriving DecidableEq, Repr

/-- The text after what closes a bracket. -/
def Bracket.close? (b : Bracket) : List Char → Option (List Char)
  | ']' :: cs => if b = .list then some cs else none
  | '\x7d' :: cs => if b = .object then some cs else none
  | _ => none

/-- The text before the next value inside a bracket. -/
def Bracket.enter (b : Bracket) (cs : List Char) : Option (List Char) :=
  match b with
  | .list => some cs
  | .object => skipKey cs

/-- Goes on after a value: out of the brackets that close here, up to the next value or to the end
of the outermost. -/
def skipClosing : (stack : List Bracket) → List Char → Option (List Bracket × List Char)
  | [], cs => some ([], cs)
  | b :: stack, cs =>
    match skipBlank cs with
    | ',' :: cs => (b.enter cs).map fun cs => (b :: stack, cs)
    | cs =>
      match b.close? cs with
      | some cs => skipClosing stack cs
      | none => none

/-- The bracket that a value opens, if it does. -/
def opens? : List Char → Option (Bracket × List Char)
  | '[' :: cs => some (.list, cs)
  | '\x7b' :: cs => some (.object, cs)
  | _ => none

/-- The text after the value that comes next and after all that is open around it. -/
def skipOpen : (fuel : Nat) → (stack : List Bracket) → List Char → Option (List Char)
  | 0, _, _ => none
  | fuel + 1, stack, cs => do
    let (stack, cs) ← match opens? (skipBlank cs) with
      | some (b, cs) =>
        match b.close? (skipBlank cs) with
        | some cs => skipClosing stack cs
        | none => (b.enter cs).map fun cs => (b :: stack, cs)
      | none => do
        let cs ← skipScalar (skipBlank cs)
        skipClosing stack cs
    match stack with
    | [] => some cs
    | stack => skipOpen fuel stack cs

/-- The text after one value. -/
def skipValue (cs : List Char) : Option (List Char) := skipOpen (cs.length + 1) [] cs

end RemoteCall.Json
