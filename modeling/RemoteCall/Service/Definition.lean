import RemoteCall.Text.LowerCase

/-!
# Service definitions

What a service offers: its name, its time limit, and its methods with their parameters.
-/

namespace RemoteCall

/-- A method: its parameters, of which some have no declared name, and whether it is answered. -/
structure Method where
  name : String
  params : List (Option String) := []
  oneWay : Bool := false
  deriving DecidableEq, Repr

/-- How many parameters a method has. -/
def Method.arity (m : Method) : Nat := m.params.length

/-- The time limit of calls, in milliseconds, where a definition sets none. -/
def defaultTimeoutMs : Nat := 1000

/-- A service and its methods. -/
structure ServiceDefinition where
  simpleName : String
  serviceName : Option String := none
  timeoutMs : Option Nat := none
  methods : List Method := []
  deriving DecidableEq, Repr

namespace ServiceDefinition

/-- The name under which a service is called: the one it sets, unless that is empty, and
otherwise its simple name after a slash with the first letter in lower case. -/
def defaultServiceName (d : ServiceDefinition) : String :=
  match d.serviceName with
  | some name => if name = "" then "/" ++ LowerCase.lowerFirst d.simpleName else name
  | none => "/" ++ LowerCase.lowerFirst d.simpleName

/-- The time limit that a service sets for its calls. -/
def defaultTimeout (d : ServiceDefinition) : Nat := d.timeoutMs.getD defaultTimeoutMs

end ServiceDefinition

/-- The names under which the arguments of a method travel. -/
abbrev Naming := Method → List String

/-- The declared names; a parameter without one is named for its place. -/
def declaredNames : Naming := fun m =>
  m.params.zipIdx.map fun p => p.1.getD s!"arg{p.2}"

theorem length_declaredNames (m : Method) : (declaredNames m).length = m.arity := by
  simp [declaredNames, Method.arity]

end RemoteCall
