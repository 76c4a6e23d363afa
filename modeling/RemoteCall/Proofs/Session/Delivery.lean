import RemoteCall.Proofs.Json.RoundTrip
import RemoteCall.Proofs.Service.Arguments
import RemoteCall.Proofs.Service.Caching
import RemoteCall.Proofs.Session.Failures

/-!
# Arguments that reach the other end

A call goes out as one request, which says what is called and carries the arguments under the names of the parameters.
Its caller waits for the response to just this request, or has its result at once if there will be none.

* `ServiceDefinition.Routes`: the method that a name stands for, which is the last one of that name.
* `Outgoing.Carries`: a call says what is called, and its data are read as the arguments under their names.
* `Channel.Ready`, `Channel.Sent`: a channel that takes a request, and what becomes of it.
* `Channel.ready_or_refuses`: a request that a channel does not take is refused for one of the known reasons.
* `Session.Called`: the same in a session, with the caller.
* `arguments_delivered`: arguments without floats that are not too deep arrive as they were given.
-/

namespace RemoteCall

open Pending (Ticket)

section Defs

/-- A method is the last of its name. -/
def ServiceDefinition.Routes (d : ServiceDefinition) (m : Method) : Prop :=
  ∃ before after, d.methods = before ++ m :: after ∧ ∀ m' ∈ after, m'.name ≠ m.name

/-- A value can be an argument: it has no floats, its objects are in order, and it fits into an object that is not too
deep. -/
structure Json.Portable (v : Json) : Prop where
  exact : v.FloatFree
  ordered : v.Ordered
  depth : v.depth ≤ 126

/-- A call of a method says what is called and whether it is answered, and its data are read as the arguments under
their names. -/
structure Outgoing.Carries (r : FacadeRequest) (m : Method) (args : List Json) (o : Outgoing) : Prop where
  service : o.service = r.service
  method : o.method = m.name
  ack : o.ack = .no ↔ m.oneWay = true
  timeout : o.timeoutMs = r.timeoutMs
  data : ∃ fields, Codec.json.decode o.data = .ok (.object fields) ∧ Facade.UnderNames (r.naming m) args fields

namespace Handle

/-- A handle takes a packet. -/
inductive Accepts (p : Packet) : Handle → Prop
  | memory {l : Memory.Link} (ha : l.active = true) (hf : l.failWrites = false) (hp : l.peerHeld = true) :
    Accepts p (memory l)
  | socket {s : Socket.Stream} (ha : s.active = true) (hp : p.bodySize ≤ Frame.maxBody) : Accepts p (socket s)

/-- A handle has taken a packet, and that is all. -/
inductive Took (p : Packet) : Handle → Handle → Prop
  | memory (l : Memory.Link) : Took p (memory l) (memory { l with outbound := l.outbound ++ [p] })
  | socket (s : Socket.Stream) {frame : Bytes} (hf : Frame.encode p = .ok frame) :
    Took p (socket s) (socket { s with queue := s.queue ++ [frame], pending := s.pending + frame.length })

end Handle

namespace Channel

/-- A channel takes a request: its handle does, and the id is free if the call is to be answered. -/
structure Ready (o : Outgoing) (ch : Channel) : Prop where
  free : o.ack = .yes → ch.generation.table.holds ch.generation.nextId = false
  accepts : ch.handle.Accepts (.request (o.request ch.generation.nextId))

/-- The place of the call that a request registers, if it is to be answered. -/
def ticket? (o : Outgoing) (ch : Channel) : Option Ticket :=
  match o.ack with
  | .yes => some ch.generation.table.calls.length
  | .no => none

/-- One request has been written, under an id that is spent. A call under just this id has been registered if it is to
be answered, and none otherwise. -/
structure Sent (now : Nat) (o : Outgoing) (ch ch' : Channel) : Prop where
  written : ch.handle.Took (.request (o.request ch.generation.nextId)) ch'.handle
  number : ch'.generation.number = ch.generation.number
  nextId : ch'.generation.nextId = ch.generation.nextId + 1
  registered : o.ack = .yes → ch'.generation.table.calls =
    ch.generation.table.calls ++ [Pending.Table.newCall now ch.generation.nextId o.timeoutMs]
  unregistered : o.ack = .no → ch'.generation.table = ch.generation.table

end Channel

/-- Where the caller of a request stands that was sent: it waits, or has its result at once. -/
def Session.stageOf (s : Session) (i : Nat) : Option Ticket → CallerStage
  | some ticket => .waiting ⟨i, ticket⟩
  | none => .ended s.now (.result (.ok .null))

/-- A request has been sent over a connection for a new caller, and that is all. -/
def Session.Called (s : Session) (id : FacadeId) (o : Outgoing) (i : Nat) (c : Connection) (s' : Session) : Prop :=
  ∃ link generation, c.channel.Sent s.now o ⟨.memory link, generation⟩ ∧
    s' = { s with
      connections := s.connections.set i { c with link, generation },
      callers := s.callers ++ [⟨.result id, s.stageOf i (c.channel.ticket? o)⟩] }

end Defs

/-! ## Routes -/

namespace ServiceDefinition

variable {d : ServiceDefinition} {m : Method} {name : String}

theorem find?_eq_some_iff :
    (d.methods.reverse.find? fun m => m.name == name) = some m ↔ d.Routes m ∧ m.name = name := by
  rw [List.find?_eq_some_iff_append]
  constructor
  · rintro ⟨hname, after, before, heq, hall⟩
    have hname : m.name = name := by simpa using hname
    refine ⟨⟨before.reverse, after.reverse, ?_, fun m' hm' => ?_⟩, hname⟩
    · rw [← List.reverse_reverse d.methods, heq]
      simp
    · simpa [hname] using hall m' (List.mem_reverse.mp hm')
  · rintro ⟨⟨before, after, heq, hall⟩, rfl⟩
    refine ⟨by simp, after.reverse, before.reverse, by simp [heq], fun m' hm' => ?_⟩
    simpa using hall m' (List.mem_reverse.mp hm')

/-- A name is called as the last method that has it. -/
theorem lookup_eq_some_iff {naming : Naming} {route : Route} : (d.routes naming).lookup name = some route ↔
    ∃ m, (d.Routes m ∧ m.name = name) ∧ ⟨naming m, if m.oneWay then .no else .yes⟩ = route := by
  rw [lookup_routes, route?, Option.map_eq_some_iff]
  simp only [find?_eq_some_iff]

end ServiceDefinition

/-! ## Data -/

namespace Facade

variable {r : FacadeRequest} {m : Method} {names : List String} {args : List Json}

/-- The data of arguments under different names are read as these arguments. -/
theorem decode_arguments (hnames : names.Nodup) (hlen : args.length = names.length)
    (hargs : ∀ v ∈ args, v.Portable) :
    ∃ fields, Codec.json.decode (arguments names args).bytes = .ok (.object fields) ∧
      UnderNames names args fields := by
  have hunder := names_of_nodup hnames hlen
  have hfields : ∀ f ∈ Dictionary.ofPairs (names.zip args), f.2.Portable := fun f hf =>
    hargs f.2 (List.of_mem_zip (hunder.perm.mem_iff.mp hf)).2
  refine ⟨_, Codec.decode_bytes ?_ ?_ ?_, hunder⟩
  · exact Json.floatFree_object_iff.mpr fun f hf => (hfields f hf).exact
  · exact Json.ordered_object_iff.mpr ⟨hunder.sorted, fun f hf => (hfields f hf).ordered⟩
  · exact Json.depth_object_le_iff.mpr fun f hf => (hfields f hf).depth

theorem outgoing_carries (hm : r.definition.Routes m) (hnames : (r.naming m).Nodup)
    (hlen : args.length = (r.naming m).length) (hargs : ∀ v ∈ args, v.Portable) :
    ∃ o, (Facade.make r).outgoing m.name args = .ok o ∧ o.Carries r m args := by
  have hroute : (Facade.make r).routes.lookup m.name = some ⟨r.naming m, if m.oneWay then .no else .yes⟩ :=
    ServiceDefinition.lookup_eq_some_iff.mpr ⟨m, ⟨hm, rfl⟩, rfl⟩
  refine ⟨_, outgoing_of_route hroute hlen, rfl, rfl, ?_, rfl, decode_arguments hnames hlen hargs⟩
  cases m.oneWay <;> simp

end Facade

/-! ## Sending -/

theorem Handle.write_of_accepts {h : Handle} {p : Packet} (ha : h.Accepts p) :
    ∃ h', h.write p = (.ok (), h') ∧ h.Took p h' := by
  cases ha with
  | memory ha hf hp =>
    refine ⟨_, ?_, .memory _⟩
    simp [write, Memory.Link.write, ha, hf, hp]
  | socket ha hp =>
    have hframe := Frame.encode_eq_ok_iff.mpr ⟨hp, rfl⟩
    refine ⟨_, ?_, .socket _ hframe⟩
    simp [write, Socket.Stream.write, ha, hframe]

theorem Handle.accepts_or_refuses (p : Packet) (h : Handle) : h.Accepts p ∨ ∃ e, h.Refuses p e := by
  cases h with
  | memory l =>
    cases ha : l.active with
    | false => exact .inr ⟨_, .ended ha⟩
    | true =>
      cases hf : l.failWrites with
      | true => exact .inr ⟨_, .failing ha hf⟩
      | false =>
        cases hp : l.peerHeld with
        | false => exact .inr ⟨_, .peerGone ha hf hp⟩
        | true => exact .inl (.memory ha hf hp)
  | socket s =>
    cases ha : s.active with
    | false => exact .inr ⟨_, .shut ha⟩
    | true =>
      by_cases hp : p.bodySize ≤ Frame.maxBody
      · exact .inl (.socket ha hp)
      · exact .inr ⟨_, .tooLarge ha (by rwa [Packet.length_body, ← Nat.not_le])⟩

/-- A channel takes a request unless it refuses it. -/
theorem Channel.ready_or_refuses (o : Outgoing) (ch : Channel) : ch.Ready o ∨ ∃ e, ch.Refuses o e := by
  by_cases hfree : o.ack = .yes → ch.generation.table.holds ch.generation.nextId = false
  · have hhandle := Handle.accepts_or_refuses (.request (o.request ch.generation.nextId)) ch.handle
    rcases hhandle with haccepts | ⟨e, hrefuses⟩
    · exact .inl ⟨hfree, haccepts⟩
    · exact .inr ⟨e, .unwritten hfree hrefuses⟩
  · obtain ⟨hack, htaken⟩ := Classical.not_imp.mp hfree
    exact .inr ⟨_, .taken hack (by simpa using htaken)⟩

theorem Channel.send_of_ready {ch : Channel} {o : Outgoing} (h : ch.Ready o) (now : Nat) :
    ∃ ch', ch.send now o = (.ok (ch.ticket? o), ch') ∧ ch.Sent now o ch' := by
  obtain ⟨handle, hwrite, htook⟩ := Handle.write_of_accepts h.accepts
  cases hack : o.ack with
  | no =>
    refine ⟨⟨handle, ch.generation.takeId.2⟩, ?_, htook, rfl, rfl, fun hyes => ?_, fun _ => rfl⟩
    · simp [send, ticket?, hack, Generation.takeId, hwrite, Except.map]
    · rw [hack] at hyes
      cases hyes
  | yes =>
    have hregister := Pending.Table.register_of_not_holds (h.free hack) now o.timeoutMs
    refine ⟨⟨handle, (ch.generation.takeId.2.onTable
      (Pending.Table.register now ch.generation.nextId o.timeoutMs)).2⟩, ?_, htook, rfl, rfl, fun _ => ?_,
      fun hno => ?_⟩
    · simp [send, ticket?, hack, Generation.takeId, Generation.onTable, hregister, hwrite]
    · simp [Generation.takeId, Generation.onTable, hregister]
    · rw [hack] at hno
      cases hno

/-- A call that can be sent over the connection in use of a session is sent. -/
theorem Session.called_of_ready {s : Session} {f : Facade} {id : FacadeId} {method : String} {args : List Json}
    {o : Outgoing} {i : Nat} {c : Connection} (hf : s.facade? id = some f) (ho : f.outgoing method args = .ok o)
    (hi : s.channel = .ok i) (hc : s.connections[i]? = some c) (hready : c.channel.Ready o) :
    ∃ s', s.call id method args = (s.callers.length, s') ∧ s.Called id o i c s' := by
  obtain ⟨ch', hsend, hsent⟩ := Channel.send_of_ready hready s.now
  obtain ⟨link, generation, hchannel, hafter⟩ := Connection.send_channel s.now o c
  rw [hsend] at hchannel
  obtain ⟨hresult, rfl⟩ := Prod.mk.inj hchannel
  refine ⟨_, ?_, link, generation, hsent, rfl⟩
  simp only [call, hf, invoke, ho, hi, onConnection, hc, ← hresult, hafter]
  cases c.channel.ticket? o with
  | none => rfl
  | some ticket => rfl

/-! ## Main statement -/

/-- **The other end sees the arguments that the caller gave.** Take a façade that was made for a service, the last
method of some name, and arguments without floats that are not too deep, as many as the method has names, which all
differ. Then there is one request to send, whose data are read as the object with each argument under its name. Every
channel that takes the request has written it and nothing else, and has registered its id if it is to be answered. In a
session the caller waits for just this call, or has null at once if the method is not answered. -/
theorem arguments_delivered (r : FacadeRequest) (m : Method) (args : List Json) (hm : r.definition.Routes m)
    (hnames : (r.naming m).Nodup) (hlen : args.length = (r.naming m).length) (hargs : ∀ v ∈ args, v.Portable) :
    ∃ o, (Facade.make r).outgoing m.name args = .ok o ∧ o.Carries r m args ∧
      (∀ (now : Nat) (ch : Channel), ch.Ready o → ∃ ch',
        (Facade.make r).send now m.name args (.ok ch) = (.ok (ch.ticket? o), .ok ch') ∧ ch.Sent now o ch') ∧
      ∀ (s : Session) (id : FacadeId) (i : Nat) (c : Connection), s.facade? id = some (.make r) →
        s.channel = .ok i → s.connections[i]? = some c → c.channel.Ready o →
        ∃ s', s.call id m.name args = (s.callers.length, s') ∧ s.Called id o i c s' := by
  obtain ⟨o, ho, hcarries⟩ := Facade.outgoing_carries hm hnames hlen hargs
  refine ⟨o, ho, hcarries, fun now ch hready => ?_, fun s id i c hf hi hc hready => ?_⟩
  · obtain ⟨ch', hsend, hsent⟩ := Channel.send_of_ready hready now
    exact ⟨ch', by simp only [Facade.send, ho, hsend], hsent⟩
  · exact Session.called_of_ready hf ho hi hc hready

/-- Of two methods of one name the later one counts. Its second argument has no declared name, the first one needs an
escape, and the caller waits. -/
theorem later_method_called :
    let m : Method := ⟨"put", [some "key", none], false⟩
    let d : ServiceDefinition := ⟨"Cache", none, none, [⟨"put", [some "old"], true⟩, ⟨"get", [], false⟩, m]⟩
    let r : FacadeRequest := ⟨d, 1000, "/cache", declaredNames⟩
    let args : List Json := [.text "a\"b", .list [.null, .bool true]]
    let s := ((Session.ofConfig {}).connect.2.newFacade r).2
    let c := Connection.start 0 { addr := Config.remoteAddr {} } 1 (Config.dispatcher {})
    d.Routes m ∧ (declaredNames m).Nodup ∧ (∀ v ∈ args, v.Portable) ∧ s.facade? 0 = some (.make r) ∧
      s.channel = .ok 0 ∧ s.connections[0]? = some c ∧ ∃ o s', o.Carries r m args ∧ c.channel.Ready o ∧
        s.call 0 "put" args = (0, s') ∧ s.Called 0 o 0 c s' ∧ s.stageOf 0 (c.channel.ticket? o) = .waiting ⟨0, 0⟩ := by
  intro m d r args s c
  have hm : d.Routes m := ⟨[⟨"put", [some "old"], true⟩, ⟨"get", [], false⟩], [], rfl, nofun⟩
  have hnames : (declaredNames m).Nodup := by decide
  have hargs : ∀ v ∈ args, v.Portable := by
    have htext : (Json.text "a\"b").Portable := ⟨by simp, by simp, by decide +kernel⟩
    have hlist : (Json.list [.null, .bool true]).Portable :=
      ⟨by simp [Json.floatFree_list_iff], by simp [Json.ordered_list_iff], by decide +kernel⟩
    exact List.forall_mem_cons.mpr ⟨htext, List.forall_mem_singleton.mpr hlist⟩
  have hfacade : s.facade? 0 = some (.make r) := rfl
  have hchannel : s.channel = .ok 0 := rfl
  have hconnection : s.connections[0]? = some c := rfl
  obtain ⟨o, -, hcarries, -, hsession⟩ := arguments_delivered r m args hm hnames rfl hargs
  have hready : c.channel.Ready o := ⟨fun _ => rfl, .memory rfl rfl rfl⟩
  obtain ⟨s', hcall, hcalled⟩ := hsession s 0 0 c hfacade hchannel hconnection hready
  have hyes : o.ack = .yes := by
    cases hack : o.ack with
    | yes => rfl
    | no => cases hcarries.ack.mp hack
  have hstage : s.stageOf 0 (c.channel.ticket? o) = .waiting ⟨0, 0⟩ := by
    rw [Channel.ticket?, hyes]
    rfl
  exact ⟨hm, hnames, hargs, hfacade, hchannel, hconnection, o, s', hcarries, hready, hcall, hcalled, hstage⟩

end RemoteCall
