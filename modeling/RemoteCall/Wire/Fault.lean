import RemoteCall.Text.Utf8

/-!
# What can be wrong with a packet body

The faults of octets that are no packet, and the words for them.
-/

namespace RemoteCall.Wire

/-- Why octets are no packet. -/
inductive Fault where
  /-- The octets end inside a number, or inside or before plain data. -/
  | endOfInput
  /-- Fewer octets follow than the length of a text says. -/
  | textCutShort
  /-- The index of a variant is not below the count of variants. -/
  | badVariant (index count : Nat)
  /-- The octets of a text are no text. -/
  | badText (fault : Utf8.Fault)
  /-- A fault that a transport reports in its own words. -/
  | reported (detail : String)
  deriving DecidableEq, Repr

end Wire

namespace Utf8

/-- The words for octets that are no text. -/
def Fault.message (f : Fault) : String :=
  match f.length with
  | some n => s!"invalid utf-8 sequence of {n} bytes from index {f.start}"
  | none => s!"incomplete utf-8 byte sequence from index {f.start}"

end Utf8

namespace Wire

/-- The words for a fault. A text cut short is a fault of reading that has no words. -/
def Fault.message : Fault → String
  | endOfInput => "io error: unexpected end of file"
  | textCutShort => "io error: "
  | badVariant index count =>
    s!"invalid value: integer \x60{index}\x60, expected variant index 0 <= i < {count}"
  | badText fault => s!"string is not valid utf8: {fault.message}"
  | reported detail => detail

end RemoteCall.Wire
