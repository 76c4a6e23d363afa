import RemoteCall.Payload
import RemoteCall.Service.Definition
import RemoteCall.Text.Duration
import RemoteCall.Text.Quoted

/-!
# Façades

A façade turns the call of a method into a request, and the response into a result. It knows
for each method the names of its arguments and whether it is answered.
-/

namespace RemoteCall

/-- How a method is called. -/
structure Route where
  names : List String
  ack : Ack
  deriving DecidableEq, Repr

/-- How each method of a service is called. -/
abbrev Routes := Dictionary Route

/-- How the methods of a definition are called; of two methods with one name the later counts. -/
def ServiceDefinition.routes (d : ServiceDefinition) (naming : Naming) : Routes :=
  .ofPairs (d.methods.map fun m => (m.name, ⟨naming m, if m.oneWay then .no else .yes⟩))

/-- A service bound to a name, a time limit and a codec. -/
structure Facade where
  service : String
  timeoutMs : Nat
  routes : Routes
  codec : Codec := .json

/-- A call before it has an id: all that the request holds, and how long to wait. -/
structure Outgoing where
  service : String
  method : String
  data : Bytes
  ack : Ack
  timeoutMs : Nat
  deriving DecidableEq, Repr

/-- The request with an id. -/
def Outgoing.request (o : Outgoing) (id : UInt32) : Request :=
  ⟨id, o.service, o.method, o.data, o.ack⟩

/-- What was asked for when a façade was made. -/
structure FacadeRequest where
  definition : ServiceDefinition
  /-- The time limit of its calls. It fits 64 bits, and the moments at which they are late are within the range of the
  clock. -/
  timeoutMs : Nat
  service : String
  naming : Naming

namespace Facade

/-- The façade that is asked for. -/
def make (r : FacadeRequest) (codec : Codec := .json) : Facade :=
  ⟨r.service, r.timeoutMs, r.definition.routes r.naming, codec⟩

/-- Whether a façade has the time limit and the routes that are asked for. -/
def answers (f : Facade) (definition : ServiceDefinition) (timeoutMs : Nat)
    (naming : Naming) : Bool :=
  f.timeoutMs = timeoutMs ∧ f.routes = definition.routes naming

/-- Whether there is a method of a name. -/
def hasMethod (f : Facade) (method : String) : Bool := (f.routes.lookup method).isSome

/-- The object of arguments under their names. -/
def arguments (names : List String) (args : List Json) : Json := .ofFields (names.zip args)

/-- The call of a method with arguments. -/
def outgoing (f : Facade) (method : String) (args : List Json) : Except CallError Outgoing :=
  match f.routes.lookup method with
  | none => .error (.unknownMethod f.service method)
  | some route =>
    if args.length ≠ route.names.length then
      .error (.payload (.wrongArity f.service method route.names.length args.length))
    else
      match f.codec.encode (arguments route.names args) with
      | .error fault => .error (.payload fault)
      | .ok data => .ok ⟨f.service, method, data, route.ack, f.timeoutMs⟩

/-- The result that a response holds. -/
def result (f : Facade) (r : Response) : Except CallError Json :=
  match r.status with
  | .ok => (f.codec.decode r.data).mapError CallError.payload
  | status => .error (.remoteFailure status r.message)

/-- A façade in words. -/
def text (f : Facade) : String :=
  s!"RpcFacade \x7b service_name: {Quoted.quote f.service}, timeout: {Duration.text f.timeoutMs}, methods: {f.routes.length} \x7d"

end Facade

end RemoteCall
