import RemoteCall.Config.Field

/-!
# Configuration

What a client can be told: whom to call, when a silent connection is probed, the limits of a transport,
and whether a lost connection is made again. Configuration text gives any part of it; the rest has
its default.
-/

namespace RemoteCall

/-- How a lost connection is made again, in words of configuration text. -/
structure ReconnectSettings where
  intervalSecs : UInt64 := 20
  logEvents : Bool := true
  deriving DecidableEq, Repr

/-- The configuration of a client. -/
structure Config where
  remoteAddr : String := "127.0.0.1:8080"
  idleTimeSecs : UInt64 := 10
  connectTimeoutMs : UInt64 := 5000
  writeHighWaterBytes : UInt64 := 65536
  writeTimeoutMs : UInt64 := 5000
  heartbeatRequiresAck : Bool := false
  autoReconnect : Option ReconnectSettings := none
  deriving DecidableEq, Repr

/-- When a dispatcher probes, and what it asks for. -/
structure DispatcherConfig where
  idleMs : Nat := 10000
  heartbeatAck : Ack := .no
  deriving DecidableEq, Repr

/-- The limits of a connection over a socket. -/
structure SocketConfig where
  connectTimeoutMs : Nat := 5000
  noDelay : Bool := true
  highWater : Nat := 65536
  writeTimeoutMs : Nat := 5000
  deriving DecidableEq, Repr

namespace Config

/-- The configuration for an address, with all else as by default. -/
def forAddr (addr : String) : Config := { remoteAddr := addr }

/-- How long a connection may be silent, in milliseconds. -/
def idleMs (c : Config) : Nat := c.idleTimeSecs.toNat * 1000

/-- What dispatchers are told. -/
def dispatcher (c : Config) : DispatcherConfig :=
  ⟨c.idleMs, if c.heartbeatRequiresAck then .yes else .no⟩

/-- What connections over a socket are told. -/
def socket (c : Config) : SocketConfig :=
  ⟨c.connectTimeoutMs.toNat, true, c.writeHighWaterBytes.toNat, c.writeTimeoutMs.toNat⟩

end Config

/-! ### What is known of a configuration -/

namespace ReconnectSettings

/-- The settings that have been given. -/
structure Given where
  intervalSecs : Option UInt64 := none
  logEvents : Option Bool := none
  deriving DecidableEq, Repr

/-- What was given, and the defaults for the rest. -/
def Given.settings (g : Given) : ReconnectSettings :=
  let d : ReconnectSettings := {}
  ⟨g.intervalSecs.getD d.intervalSecs, g.logEvents.getD d.logEvents⟩

/-- The settings by name, in their order. -/
def fields : List (Config.Field Given) :=
  [.of "interval_secs" Given.intervalSecs fun g n => { g with intervalSecs := some n },
   .of "log_events" Given.logEvents fun g b => { g with logEvents := some b }]

end ReconnectSettings

instance : Config.Setting (Option ReconnectSettings) where
  ofJson cs :=
    match Json.skipBlank cs with
    | 'n' :: 'u' :: 'l' :: 'l' :: cs => some (none, cs)
    | cs => (Config.readRecord ReconnectSettings.fields {} cs).map fun r => (some r.1.settings, r.2)
  ofToml v := (Config.takeRecord ReconnectSettings.fields {} v).map fun g => some g.settings

namespace Config

/-- The parts of a configuration that have been given. -/
structure Given where
  remoteAddr : Option String := none
  idleTimeSecs : Option UInt64 := none
  connectTimeoutMs : Option UInt64 := none
  writeHighWaterBytes : Option UInt64 := none
  writeTimeoutMs : Option UInt64 := none
  heartbeatRequiresAck : Option Bool := none
  autoReconnect : Option (Option ReconnectSettings) := none
  deriving DecidableEq, Repr

/-- What was given, and the defaults for the rest. -/
def Given.config (g : Given) : Config :=
  let d : Config := {}
  ⟨g.remoteAddr.getD d.remoteAddr, g.idleTimeSecs.getD d.idleTimeSecs,
    g.connectTimeoutMs.getD d.connectTimeoutMs,
    g.writeHighWaterBytes.getD d.writeHighWaterBytes, g.writeTimeoutMs.getD d.writeTimeoutMs,
    g.heartbeatRequiresAck.getD d.heartbeatRequiresAck, g.autoReconnect.getD d.autoReconnect⟩

/-- The parts of a configuration by name, in their order. -/
def fields : List (Field Given) :=
  [.of "remote_addr" Given.remoteAddr fun g a => { g with remoteAddr := some a },
   .of "idle_time_secs" Given.idleTimeSecs fun g n => { g with idleTimeSecs := some n },
   .of "connect_timeout_ms" Given.connectTimeoutMs fun g n => { g with connectTimeoutMs := some n },
   .of "write_high_water_bytes" Given.writeHighWaterBytes
     fun g n => { g with writeHighWaterBytes := some n },
   .of "write_timeout_ms" Given.writeTimeoutMs fun g n => { g with writeTimeoutMs := some n },
   .of "heartbeat_requires_ack" Given.heartbeatRequiresAck
     fun g b => { g with heartbeatRequiresAck := some b },
   .of "auto_reconnect" Given.autoReconnect fun g r => { g with autoReconnect := some r }]

/-- The configuration in JSON text. -/
def ofJson (text : String) : Option Config :=
  match readRecord fields {} text.toList with
  | none => none
  | some (g, rest) => if Json.skipBlank rest = [] then some g.config else none

/-- The configuration in TOML text. -/
def ofToml (text : String) : Option Config := do
  let entries ← Toml.parse text.toList
  let g ← takeEntries fields {} entries
  return g.config

end Config

/-! ### Text of a configuration -/

/-- A field of a JSON object: its name and the text of its value. -/
abbrev Json.Member := String × List Char

/-- The text of an object with its fields in the order given. -/
def Json.ordered (members : List Json.Member) : List Char :=
  '\x7b' :: [','].intercalate (members.map fun m => quote m.1 ++ ':' :: m.2) ++ ['\x7d']

namespace ReconnectSettings

/-- The settings as members of an object. -/
def members (r : ReconnectSettings) : List Json.Member :=
  [("interval_secs", Json.wholeText r.intervalSecs.toNat),
   ("log_events", Json.chars (.bool r.logEvents))]

/-- The JSON text of the settings. -/
def json (r : ReconnectSettings) : String := String.ofList (Json.ordered r.members)

end ReconnectSettings

namespace Config

/-- The parts of a configuration as members of an object. -/
def members (c : Config) : List Json.Member :=
  [("remote_addr", Json.quote c.remoteAddr),
   ("idle_time_secs", Json.wholeText c.idleTimeSecs.toNat),
   ("connect_timeout_ms", Json.wholeText c.connectTimeoutMs.toNat),
   ("write_high_water_bytes", Json.wholeText c.writeHighWaterBytes.toNat),
   ("write_timeout_ms", Json.wholeText c.writeTimeoutMs.toNat),
   ("heartbeat_requires_ack", Json.chars (.bool c.heartbeatRequiresAck)),
   ("auto_reconnect",
     match c.autoReconnect with
     | some r => Json.ordered r.members
     | none => Json.chars .null)]

/-- The JSON text of a configuration. -/
def json (c : Config) : String := String.ofList (Json.ordered c.members)

end Config

end RemoteCall
