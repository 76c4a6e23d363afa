import RemoteCall.Config
import RemoteCall.Text.Utf8

/-!
# Configuration files

The extension of a file tells the language of its text.
-/

namespace RemoteCall.Config

/-- Why a file gives no configuration. -/
inductive FileError where
  | missing
  | notText
  | badToml
  | badJson
  | unsupported (extension : String)
  deriving DecidableEq, Repr

/-- The words for an error, where they are its own. -/
def FileError.message : FileError → String
  | missing => "No such file or directory (os error 2)"
  | notText => "stream did not contain valid UTF-8"
  | badToml => "malformed TOML configuration"
  | badJson => "malformed JSON configuration"
  | unsupported extension => s!"Unsupported config file extension: {extension}"

/-- What comes after the last point of a file name, unless that is its first character. -/
def extension (name : String) : String :=
  let back := name.toList.reverse
  match back.dropWhile (· ≠ '.') with
  | [] => ""
  | [_] => ""
  | _ => if name = ".." then "" else String.ofList (back.takeWhile (· ≠ '.')).reverse

/-- The configuration in a file; `content` is missing if there is no such file. -/
def load (name : String) (content : Option Bytes) : Except FileError Config :=
  match content with
  | none => .error .missing
  | some bytes =>
    match Utf8.text bytes with
    | .error _ => .error .notText
    | .ok text =>
      match (extension name).toLower with
      | "toml" => (ofToml text).elim (.error .badToml) .ok
      | "json" => (ofJson text).elim (.error .badJson) .ok
      | _ => .error (.unsupported (extension name))

end RemoteCall.Config
