import RemoteCall.Service.Facade

/-!
# Services that every server offers

A command service that answers pings, and a service that stores data under keys.
-/

namespace RemoteCall

/-- The service that answers pings. -/
def commandService : ServiceDefinition where
  simpleName := "RpcCommandService"
  serviceName := some "/_nrpc/command"
  timeoutMs := some 5000
  methods := [⟨"ping", [], false⟩]

/-- The service that stores data under keys, which may stand in groups. -/
def dataService : ServiceDefinition where
  simpleName := "RpcDBService"
  serviceName := some "/_nrpc/db"
  methods :=
    [⟨"exist", [some "key", some "group"], false⟩,
     ⟨"put", [some "key", some "data", some "expireSecond", some "group"], false⟩,
     ⟨"get", [some "key", some "group"], false⟩,
     ⟨"count", [some "group"], false⟩,
     ⟨"changeKey", [some "oldKey", some "newKey", some "group"], false⟩,
     ⟨"remove", [some "key", some "group"], false⟩,
     ⟨"removeBatch", [some "keys", some "group"], false⟩,
     ⟨"setMaxSize", [some "maxSize", some "group"], false⟩]

/-- What the data service can be asked to do, apart from the group. -/
inductive DataCommand where
  | exist (key : String)
  | put (key : String) (data : Bytes) (expireSeconds : Int32)
  | get (key : String)
  | count
  | changeKey (old new : String)
  | remove (key : String)
  | removeBatch (keys : List String)
  | setMaxSize (size : UInt32)
  deriving DecidableEq, Repr

namespace DataCommand

/-- The method for a command. -/
def method : DataCommand → String
  | exist _ => "exist"
  | put _ _ _ => "put"
  | get _ => "get"
  | count => "count"
  | changeKey _ _ => "changeKey"
  | remove _ => "remove"
  | removeBatch _ => "removeBatch"
  | setMaxSize _ => "setMaxSize"

/-- A group as an argument. -/
def groupJson : Option String → Json
  | some name => .text name
  | none => .null

/-- The arguments of a command in a group. -/
def args (group : Option String) : DataCommand → List Json
  | exist key => [.text key, groupJson group]
  | put key data expireSeconds =>
    [.text key, .list (data.map fun b => .whole (.ofByte b)),
     .whole (.ofInt64 expireSeconds.toInt64), groupJson group]
  | get key => [.text key, groupJson group]
  | count => [groupJson group]
  | changeKey old new => [.text old, .text new, groupJson group]
  | remove key => [.text key, groupJson group]
  | removeBatch keys => [.list (keys.map .text), groupJson group]
  | setMaxSize size => [.whole (.ofUInt64 size.toUInt64), groupJson group]

/-- What a command gives. -/
inductive Reply where
  | done
  | flag (b : Bool)
  | data (bs : Option Bytes)
  | number (n : UInt64)
  deriving DecidableEq, Repr

/-- The reply that the result of a command stands for. -/
def reply (c : DataCommand) (r : Except CallError Json) : Except CallError Reply :=
  match c with
  | exist _ => (CallError.typed Bool r).map .flag
  | get _ => (CallError.typed (Option (List UInt8)) r).map .data
  | count => (CallError.typed UInt64 r).map .number
  | _ => (CallError.typed Unit r).map fun _ => .done

end DataCommand

end RemoteCall
