import RemoteCall.Proofs.Connection.Writing
import RemoteCall.Proofs.Session.Stop

/-!
# The course of a step

What a step does to the connections and to the life of the client, said once for all steps. A step is something
that a far end does, the turn of a dispatcher, or a deed of the client: it may send one request over the connection
in use, and then attempts to connect and releases follow.

* `events`: the attempts to connect and the releases of a step.
* `Course`: what can follow in a step after its request. It carries all connections over (`Course.carried`), and
  those that it makes are fresh (`Course.origin`).
* `manner`: what any step is.
* `progress` and `fresh_perform`: what any step does to one connection, and which connections it makes.
-/

namespace RemoteCall

/-- What holds between a connection and the same connection later if nothing was sent over it and its far end
did nothing. -/
structure Connection.Carried (c c' : Connection) : Prop extends c.Kept c' where
  number : c'.generation.number = c.generation.number
  outbound : c'.link.outbound = c.link.outbound
  peerHeld : c'.link.peerHeld = c.link.peerHeld
  inactive : c.link.active = false → c'.link.active = false

/-- A connection, by its place, over which nothing has gone yet. -/
structure Connection.Fresh (i : Nat) (c : Connection) : Prop where
  number : c.generation.number = i + 1
  nextId : c.generation.nextId = 0
  calls : c.generation.table.calls = []
  outbound : c.link.outbound = []

namespace Connection

variable {c c' : Connection} {i : Nat}

theorem Carried.refl (c : Connection) : c.Carried c := ⟨.refl c, rfl, rfl, rfl, fun h => h⟩

theorem Carried.trans {a b c : Connection} (h : a.Carried b) (h' : b.Carried c) : a.Carried c where
  toKept := h.toKept.trans h'.toKept
  number := h'.number.trans h.number
  outbound := h'.outbound.trans h.outbound
  peerHeld := h'.peerHeld.trans h.peerHeld
  inactive ha := h'.inactive (h.inactive ha)

theorem Carried.onward (h : c.Carried c') : c.Onward c' :=
  ⟨h.number, h.halted, h.inactive, fun hp => h.peerHeld.trans hp⟩

theorem carried_teardown (c : Connection) : c.Carried c.teardown :=
  ⟨c.turned_teardown.kept, rfl, rfl, rfl, fun _ => rfl⟩

theorem carried_release (c : Connection) : c.Carried c.release :=
  ⟨c.turned_release.kept, rfl, rfl, rfl, fun h => h⟩

theorem carried_leave {f : Pending.Table → Pending.Table} {n : Pending.Ticket}
    (hf : f = Pending.Table.finish n ∨ f = Pending.Table.forget n) (c : Connection) :
    c.Carried (Switchboard.onTable f c) :=
  ⟨Switchboard.kept_leave hf c, rfl, rfl, rfl, fun h => h⟩

theorem fresh_start (now : Nat) (addr : String) (i : Nat) (settings : DispatcherConfig) :
    (start now { addr } (i + 1) settings).Fresh i :=
  ⟨rfl, rfl, rfl, rfl⟩

theorem Fresh.carried (h : c.Fresh i) (hc : c.Carried c') : c'.Fresh i where
  number := hc.number.trans h.number
  nextId := hc.nextId.trans h.nextId
  calls := by
    refine List.eq_nil_of_length_eq_zero ?_
    rw [hc.length, h.calls, List.length_nil]
  outbound := hc.outbound.trans h.outbound

end Connection

namespace Session

section Defs

/-- What happens to the connection in use. -/
inductive Event where
  /-- An attempt to connect has finished. -/
  | attempt (accepted : Bool)
  /-- The connection in use was released. -/
  | release
  deriving DecidableEq, Repr

/-- Whether something is an attempt to connect. -/
def Event.isAttempt : Event → Bool
  | attempt _ => true
  | release => false

/-- Whether an attempt to connect would be accepted. -/
def accepts (s : Session) : Bool := s.client.connector.refusal.isNone

/-- What happens to the connection in use in a step. A tick that finds no life releases it and makes an attempt. -/
def events (a : Action) (s : Session) : List Event :=
  match a with
  | .connect => [.attempt s.accepts]
  | .start => [.attempt s.accepts]
  | .stop => [.release]
  | .turn (.task j) =>
    if (s.perform (.turn (.task j))).attempts = s.attempts then [] else [.release, .attempt s.accepts]
  | _ => []

/-- What the far end of a connection does in a step, if it does something. -/
def peerAct? (a : Action) (s : Session) : Option (Nat × Memory.Link.PeerAct) :=
  match a with
  | .peer i act => some (i, act)
  | .turn (.server i) => (s.handlers.lookup i).map fun handler => (i, .serve handler)
  | _ => none

/-- Whether a step may make a façade. -/
def Action.makesFacade : Action → Bool
  | .newFacade _ _ => true
  | .commandFacade => true
  | .dataFacade => true
  | _ => false

/-- The connections and the life of the client are as they were. If `kept` holds its owner keeps it. -/
structure Same (kept : Prop) (s s' : Session) : Prop where
  connections : s'.connections = s.connections
  config : s'.client.config = s.client.config
  phase : s'.client.phase = s.client.phase
  installed : s'.client.installed = s.client.installed
  attempts : s'.attempts = s.attempts
  released : s'.client.released = s.client.released
  owned : kept → s'.client.owned = s.client.owned

/-- No façade was made, and the registry and the codec are as they were. The command service is kept until the client is
given up. -/
structure Shelf (s s' : Session) : Prop where
  facades : s'.client.facades = s.client.facades
  registry : s'.client.registry = s.client.registry
  codec : s'.client.codec = s.client.codec
  command : s'.client.released = false → s.client.released = false ∧ s'.client.command = s.client.command

/-- What concerns only tasks, callers and those who hold façades. -/
structure Aside (kept : Prop) (s s' : Session) : Prop extends s.Same kept s', s.Shelf s' where
  now : s'.now = s.now
  refusal : s'.client.connector.refusal = s.client.connector.refusal

/-- What attempts and releases leave of a client as it is. If `kept` holds its owner keeps it. -/
structure Remains (kept : Prop) (s s' : Session) : Prop extends s.Shelf s' where
  config : s'.client.config = s.client.config
  released : s'.client.released = s.client.released
  refusal : s'.client.connector.refusal = s.client.connector.refusal
  owned : kept → s'.client.owned = s.client.owned

/-- Nothing was sent, or a request was sent over the connection in use. -/
inductive Asked (s : Session) : Session → Prop
  | nothing : Asked s s
  | request {i : Nat} {c : Connection} {f : Facade} {method : String} {args : List Json} {o : Outgoing}
      (hi : s.channel = .ok i) (hc : s.connections[i]? = some c) (ho : f.outgoing method args = .ok o) :
      Asked s { s with connections := s.connections.set i (c.send s.now o).2 }

/-- What follows in a step after its request, with the attempts to connect and the releases. -/
inductive Course (kept : Prop) : Session → List Event → Session → Prop
  | aside {s s' : Session} (h : s.Aside kept s') : Course kept s [] s'
  /-- Someone no longer waits. -/
  | leave {s : Session} {w : Waiting} {f : Pending.Table → Pending.Table}
      (hf : f = Pending.Table.finish w.ticket ∨ f = Pending.Table.forget w.ticket) :
      Course kept s [] (s.modify w.connection (Switchboard.onTable f))
  | attempt (s : Session) : Course kept s [.attempt s.accepts] s.connect.2
  | disconnect (s : Session) : Course kept s [.release] s.disconnect
  | trans {s m s' : Session} {E E' : List Event} (h : Course kept s E m) (h' : Course kept m E' s') :
      Course kept s (E ++ E') s'

/-- A deed of the client: it may send a request, then a course follows, and at last nobody may hold the client any
more. -/
inductive Deed (kept : Prop) (s : Session) (E : List Event) (s' : Session) : Prop
  | held {m : Session} (ha : s.Asked m) (hc : Course kept m E s')
  | givenUp {m t : Session} (ha : s.Asked m) (hc : Course kept m E t) (h : s' = t.release) (hno : t.isHeld = false)

/-- What a step is. The owner keeps the client in every step but the one in which it drops it. -/
inductive Manner (a : Action) (s : Session) : Prop
  | peer (i : Nat) (act : Memory.Link.PeerAct) (hp : s.peerAct? a = some (i, act)) (he : s.events a = [])
      (h : s.perform a = s.peerActs i act)
  | dispatcher (i : Nat) (h : a = .turn (.dispatcher i))
  | facade (ha : a.makesFacade = true) (hp : s.peerAct? a = none) (he : s.events a = [])
      (h : s.Same (a ≠ .dropClient) (s.perform a))
  | idle (hp : s.peerAct? a = none) (he : s.events a = []) (h : s.Same (a ≠ .dropClient) (s.perform a))
      (hs : s.Shelf (s.perform a))
  | deed (hp : s.peerAct? a = none) (h : s.Deed (a ≠ .dropClient) (s.events a) (s.perform a))

/-- What a step does to a connection. -/
inductive Progress (a : Action) (s : Session) (i : Nat) (c c' : Connection) : Prop
  /-- Its far end does something. -/
  | acted (act : Memory.Link.PeerAct) (hp : s.peerAct? a = some (i, act)) (h : c' = { c with link := c.link.act act })
  /-- Its dispatcher takes a turn. -/
  | turned (hp : s.peerAct? a = none) (ha : a = .turn (.dispatcher i)) (h : c' = c.dispatch s.now)
  /-- A request goes over it. -/
  | sent {f : Facade} {method : String} {args : List Json} {o : Outgoing} (hp : s.peerAct? a = none)
      (hi : s.channel = .ok i) (ho : f.outgoing method args = .ok o) (h : (c.send s.now o).2.Carried c')
  | carried (hp : ∀ act, s.peerAct? a ≠ some (i, act)) (h : c.Carried c')

end Defs

variable {s s' m : Session} {i j k : Nat} {c c' : Connection} {E : List Event} {a : Action} {kept : Prop}

theorem Same.refl (s : Session) : s.Same kept s := ⟨rfl, rfl, rfl, rfl, rfl, rfl, fun _ => rfl⟩

theorem shelf_of_client (h : s'.client = s.client) : s.Shelf s' := by
  constructor <;> rw [h]
  exact fun hreleased => ⟨hreleased, rfl⟩

theorem Shelf.refl (s : Session) : s.Shelf s := shelf_of_client rfl

theorem Shelf.trans {a b c : Session} (h : a.Shelf b) (h' : b.Shelf c) : a.Shelf c where
  facades := h'.facades.trans h.facades
  registry := h'.registry.trans h.registry
  codec := h'.codec.trans h.codec
  command hc := by
    obtain ⟨hb, hcommand'⟩ := h'.command hc
    obtain ⟨ha, hcommand⟩ := h.command hb
    exact ⟨ha, hcommand'.trans hcommand⟩

theorem Aside.refl (s : Session) : s.Aside kept s := ⟨.refl s, .refl s, rfl, rfl⟩

/-- What leaves the clock, the connections and the life of the client as they are goes on aside. -/
theorem aside_of_client {client : Client} (s : Session) (callers : List Caller) (holders : Dictionary FacadeId)
    (hconfig : client.config = s.client.config) (hphase : client.phase = s.client.phase)
    (hinstalled : client.installed = s.client.installed) (hconnector : client.connector = s.client.connector)
    (hreleased : client.released = s.client.released) (hfacades : client.facades = s.client.facades)
    (hregistry : client.registry = s.client.registry) (hcodec : client.codec = s.client.codec)
    (hcommand : client.command = s.client.command) (howned : kept → client.owned = s.client.owned) :
    s.Aside kept { s with client, callers, holders } where
  connections := rfl
  config := hconfig
  phase := hphase
  installed := hinstalled
  attempts := congrArg Memory.Connector.attempts hconnector
  released := hreleased
  owned := howned
  facades := hfacades
  registry := hregistry
  codec := hcodec
  command hc := ⟨hreleased ▸ hc, hcommand⟩
  now := rfl
  refusal := congrArg Memory.Connector.refusal hconnector

/-! ## Courses -/

theorem Course.refl (s : Session) : Course kept s [] s := .aside (.refl s)

/-- Something goes on aside after a course. -/
theorem Course.thenAside (h : Course kept s E m) (h' : m.Aside kept s') : Course kept s E s' := by
  have hboth := h.trans (.aside h')
  rwa [List.append_nil] at hboth

/-- A connection is torn down when another one takes its place or it is released. -/
theorem connections_teardownInstalled (hc : s.connections[i]? = some c) :
    s.teardownInstalled.connections[i]? = some (if s.client.installed = some i then c.teardown else c) := by
  unfold teardownInstalled
  cases hj : s.client.installed with
  | none => simp [hc]
  | some j =>
    by_cases hji : j = i
    · subst hji
      simp [modify, hc]
    · rw [if_neg fun h => hji (Option.some.inj h)]
      exact (Switchboard.getElem?_modify_of_ne (b := s.board) hji).trans hc

theorem connections_connect (hc : s.connections[i]? = some c) :
    s.connect.2.connections[i]? =
      some (if s.accepts = true ∧ s.client.installed = some i then c.teardown else c) := by
  cases hr : s.client.connector.refusal with
  | some cause =>
    rw [connect_of_refusal hr]
    simpa [accepts, hr, onClient] using hc
  | none =>
    rw [connect_of_accepted hr]
    have hdown := connections_teardownInstalled hc
    obtain ⟨hlt, -⟩ := List.getElem?_eq_some_iff.mp hdown
    simp only [accepts, hr, Option.isNone_none, true_and]
    rw [List.getElem?_append_left hlt, hdown]

theorem length_connect (s : Session) :
    s.connect.2.connections.length = s.connections.length + if s.accepts = true then 1 else 0 := by
  cases hr : s.client.connector.refusal with
  | some cause =>
    rw [connect_of_refusal hr]
    simp [accepts, hr, onClient]
  | none =>
    rw [connect_of_accepted hr]
    simp [accepts, hr, length_teardownInstalled]

/-- The connection that an attempt makes is fresh. -/
theorem fresh_connect (hnone : s.connections[i]? = none) (hc' : s.connect.2.connections[i]? = some c') :
    c'.Fresh i ∧ s.accepts = true ∧ i = s.connections.length := by
  have hle := List.getElem?_eq_none_iff.mp hnone
  have hlt := (List.getElem?_eq_some_iff.mp hc').1
  rw [length_connect] at hlt
  cases hr : s.client.connector.refusal with
  | some cause =>
    have hno : s.accepts = false := by simp [accepts, hr]
    rw [hno] at hlt
    exact absurd hlt (Nat.not_lt_of_le hle)
  | none =>
    have hyes : s.accepts = true := by simp [accepts, hr]
    rw [hyes, if_pos rfl] at hlt
    obtain rfl : i = s.connections.length := Nat.le_antisymm (Nat.lt_succ_iff.mp hlt) hle
    rw [connect_of_accepted hr] at hc'
    have hnew := (Pending.getElem?_concat hc').resolve_left fun hold => by
      have hlt := (List.getElem?_eq_some_iff.mp hold).1
      rw [length_teardownInstalled] at hlt
      exact Nat.lt_irrefl _ hlt
    rw [hnew.2]
    exact ⟨Connection.fresh_start _ _ _ _, hyes, rfl⟩

theorem Course.carried (h : Course kept s E s') (hc : s.connections[i]? = some c) :
    ∃ c', s'.connections[i]? = some c' ∧ c.Carried c' := by
  induction h generalizing c with
  | aside h => exact ⟨c, by rw [h.connections, hc], .refl c⟩
  | @leave s w f hf =>
    by_cases hwi : w.connection = i
    · subst hwi
      exact ⟨_, Switchboard.getElem?_modify_self (b := s.board) hc, c.carried_leave hf⟩
    · exact ⟨c, (Switchboard.getElem?_modify_of_ne (b := s.board) hwi).trans hc, .refl c⟩
  | attempt s =>
    refine ⟨_, connections_connect hc, ?_⟩
    split
    · exact c.carried_teardown
    · exact .refl c
  | disconnect s =>
    refine ⟨_, connections_teardownInstalled hc, ?_⟩
    split
    · exact c.carried_teardown
    · exact .refl c
  | trans _ _ ih ih' =>
    obtain ⟨d, hd, hcd⟩ := ih hc
    obtain ⟨c', hc', hdc⟩ := ih' hd
    exact ⟨c', hc', hcd.trans hdc⟩

/-- A connection after a course was there before, or is fresh. -/
theorem Course.origin (h : Course kept s E s') (hc' : s'.connections[i]? = some c') :
    (∃ c, s.connections[i]? = some c ∧ c.Carried c') ∨ s.connections[i]? = none ∧ c'.Fresh i := by
  cases hc : s.connections[i]? with
  | some c =>
    obtain ⟨d, hd, hcd⟩ := h.carried hc
    rw [hc'] at hd
    exact .inl ⟨c, rfl, Option.some.inj hd ▸ hcd⟩
  | none =>
    refine .inr ⟨rfl, ?_⟩
    induction h generalizing c' with
    | aside h =>
      rw [h.connections, hc] at hc'
      cases hc'
    | @leave s w f hf =>
      obtain ⟨c, hold, -⟩ := Switchboard.exists_of_modify (b := s.board) hc'
      rw [show s.board.connections[i]? = none from hc] at hold
      cases hold
    | attempt s => exact (fresh_connect hc hc').1
    | disconnect s =>
      have hlt := (List.getElem?_eq_some_iff.mp hc').1
      rw [show s.disconnect.connections.length = _ from length_teardownInstalled s] at hlt
      exact absurd hlt (Nat.not_lt_of_le (List.getElem?_eq_none_iff.mp hc))
    | @trans s m s' E E' h h' ih ih' =>
      cases hm : m.connections[i]? with
      | none => exact ih' hc' hm
      | some d =>
        obtain ⟨e, he, hde⟩ := h'.carried hm
        rw [hc'] at he
        exact (ih hm hc).carried (Option.some.inj he ▸ hde)

/-- What an attempt decides: an accepted one puts the new connection into use, and a refused one leaves the one in use
as it is. -/
theorem life_connect (s : Session) :
    s.connect.2.client.installed =
        (if s.accepts = true then some s.connections.length else s.client.installed) ∧
      s.connect.2.client.phase = some (if s.accepts = true then .up else .down) := by
  cases hr : s.client.connector.refusal with
  | some cause =>
    rw [connect_of_refusal hr]
    simp [accepts, hr, onClient]
  | none =>
    rw [connect_of_accepted hr]
    simp [accepts, hr]

theorem client_disconnect (s : Session) : s.disconnect.client =
    { s.client with
      installed := none
      phase := if s.client.phase = some .up then some .down else s.client.phase } := by
  simp only [disconnect, onClient, tasks_teardownInstalled]

theorem Remains.trans {a b c : Session} (h : a.Remains kept b) (h' : b.Remains kept c) : a.Remains kept c where
  toShelf := h.toShelf.trans h'.toShelf
  config := h'.config.trans h.config
  released := h'.released.trans h.released
  refusal := h'.refusal.trans h.refusal
  owned hk := (h'.owned hk).trans (h.owned hk)

theorem Aside.remains (h : s.Aside kept s') : s.Remains kept s' :=
  ⟨h.toShelf, h.config, h.released, h.refusal, h.owned⟩

theorem remains_connect (s : Session) : s.Remains kept s.connect.2 := by
  cases hr : s.client.connector.refusal with
  | some cause =>
    rw [connect_of_refusal hr]
    exact ⟨⟨rfl, rfl, rfl, fun h => ⟨h, rfl⟩⟩, rfl, rfl, hr.symm, fun _ => rfl⟩
  | none =>
    rw [connect_of_accepted hr]
    exact ⟨⟨rfl, rfl, rfl, fun h => ⟨h, rfl⟩⟩, rfl, rfl, hr.symm, fun _ => rfl⟩

theorem remains_disconnect (s : Session) : s.Remains kept s.disconnect := by
  have hclient := client_disconnect s
  constructor
  · constructor <;> rw [hclient]
    exact fun h => ⟨h, rfl⟩
  · rw [hclient]
  · rw [hclient]
  · rw [hclient]
  · intro _
    rw [hclient]

theorem Course.remains (h : Course kept s E s') : s.Remains kept s' := by
  induction h with
  | aside h => exact h.remains
  | leave hf => exact ⟨shelf_of_client rfl, rfl, rfl, rfl, fun _ => rfl⟩
  | attempt s => exact remains_connect s
  | disconnect s => exact remains_disconnect s
  | trans _ _ ih ih' => exact ih.trans ih'

theorem Course.accepts (h : Course kept s E s') : s'.accepts = s.accepts := by
  unfold Session.accepts
  rw [h.remains.refusal]

/-- The attempts of a course are those that the connector has counted. -/
theorem Course.attempts (h : Course kept s E s') : s'.attempts = s.attempts + E.countP Event.isAttempt := by
  induction h with
  | aside h => exact h.attempts
  | leave hf => rfl
  | attempt s => exact attempts_connect s
  | disconnect s => exact (quiet_disconnect s).attempts
  | trans _ _ ih ih' => rw [ih', ih, List.countP_append, Nat.add_assoc]

/-! ## Requests -/

/-- The connection that requests go over is the one in use. It is active and writable. -/
theorem channel_eq_ok_iff : s.channel = .ok i ↔ s.client.released = false ∧ s.client.installed = some i ∧
    ∃ c, s.connections[i]? = some c ∧ c.link.active = true ∧ c.link.isWritable = true := by
  unfold channel
  cases hr : s.client.released with
  | true => simp
  | false =>
    cases hi : s.client.installed with
    | none => simp
    | some j =>
      cases hc : s.connections[j]? with
      | none => simp only [hc]; grind
      | some c =>
        cases ha : c.link.active <;> cases hw : c.link.isWritable <;> simp [ha, hw, hc] <;> grind

theorem asked_invoke (f : Facade) (method : String) (args : List Json) (s : Session) :
    s.Asked (s.invoke f method args).2 := by
  cases ho : f.outgoing method args with
  | error e =>
    simp only [invoke, ho]
    exact .nothing
  | ok o =>
    cases hi : s.channel with
    | error e =>
      simp only [invoke, ho, hi]
      exact .nothing
    | ok i =>
      obtain ⟨-, -, c, hc, -⟩ := channel_eq_ok_iff.mp hi
      have hsent := Asked.request hi hc ho
      simp only [invoke, ho, hi, onConnection, hc]
      cases (c.send s.now o).1 <;> exact hsent

theorem asked_probe (s : Session) : s.Asked s.probe.2 := by
  rcases probe_cases s with ⟨alive, h⟩ | ⟨f, ⟨alive, h, -⟩ | ⟨w, h, -⟩⟩ <;> rw [h]
  · exact .nothing
  · exact asked_invoke f "ping" [] s
  · exact asked_invoke f "ping" [] s

theorem Asked.frame (h : s.Asked m) : ∃ connections, m = { s with connections } := by
  cases h with
  | nothing => exact ⟨s.connections, rfl⟩
  | request hi hc ho => exact ⟨_, rfl⟩

/-- It makes no difference whether something goes on aside before or after a request. -/
theorem Aside.asked (h : s.Aside kept s') (ha : s'.Asked m) : ∃ m', s.Asked m' ∧ m'.Aside kept m := by
  cases ha with
  | nothing => exact ⟨s, .nothing, h⟩
  | @request i c f method args o hi hc ho =>
    have hi' : s.channel = .ok i := by
      obtain ⟨hr, hi, hcon⟩ := channel_eq_ok_iff.mp hi
      rw [h.connections] at hcon
      exact channel_eq_ok_iff.mpr ⟨h.released ▸ hr, h.installed ▸ hi, hcon⟩
    refine ⟨_, .request hi' (h.connections ▸ hc) ho, ?_⟩
    rw [h.connections, h.now]
    exact ⟨⟨rfl, h.config, h.phase, h.installed, h.attempts, h.released, h.owned⟩,
      ⟨h.facades, h.registry, h.codec, h.command⟩, rfl, h.refusal⟩

/-- A request changes only the connection in use. -/
theorem Asked.connection (h : s.Asked m) (hc : s.connections[i]? = some c) :
    ∃ d, m.connections[i]? = some d ∧ (d = c ∨ ∃ (f : Facade) (method : String) (args : List Json) (o : Outgoing),
      s.channel = .ok i ∧ f.outgoing method args = .ok o ∧ d = (c.send s.now o).2) := by
  cases h with
  | nothing => exact ⟨c, hc, .inl rfl⟩
  | @request j d f method args o hj hd ho =>
    by_cases hji : j = i
    · subst hji
      rw [hc] at hd
      cases hd
      exact ⟨_, Switchboard.getElem?_send (b := s.board) hc, .inr ⟨f, method, args, o, hj, ho, rfl⟩⟩
    · exact ⟨c, (List.getElem?_set_ne hji).trans hc, .inl rfl⟩

theorem Asked.length (h : s.Asked m) : m.connections.length = s.connections.length := by
  cases h with
  | nothing => rfl
  | request hi hc ho => exact List.length_set

/-! ## Deeds -/

/-- Something of the client, and at last it may be given up. -/
theorem deed_releaseUnheld (ha : s.Asked m) (hc : Course kept m E s') : s.Deed kept E s'.releaseUnheld := by
  unfold releaseUnheld
  split
  · exact .held ha hc
  · rename_i hno
    rw [Bool.or_eq_true, not_or, Bool.not_eq_true] at hno
    exact .givenUp ha hc rfl hno.1

theorem Deed.attempts (h : s.Deed kept E s') : s'.attempts = s.attempts + E.countP Event.isAttempt := by
  have hasked {m : Session} (ha : s.Asked m) : m.attempts = s.attempts := by
    obtain ⟨connections, rfl⟩ := ha.frame
    rfl
  cases h with
  | held ha hc => rw [hc.attempts, hasked ha]
  | givenUp ha hc h hno => rw [h, (quiet_release _).attempts, hc.attempts, hasked ha]

theorem client_release (s : Session) : s.release.client =
    { s.client with
      released := true, installed := none, command := none, data := none, task := none
      tasks := s.client.tasks.map ReconnectTask.cancel } := by
  unfold release
  split <;> rfl

/-- The connection in use ends when nobody holds the client any more. -/
theorem connections_release (hc : s.connections[i]? = some c) :
    s.release.connections[i]? = some (if s.client.installed = some i then c.release else c) := by
  unfold release
  cases hj : s.client.installed with
  | none => simp [onClient, hc]
  | some j =>
    by_cases hji : j = i
    · subst hji
      simp [onClient, modify, hc]
    · rw [if_neg fun h => hji (Option.some.inj h)]
      exact (Switchboard.getElem?_modify_of_ne (b := s.board) hji).trans hc

theorem length_release (s : Session) : s.release.connections.length = s.connections.length := by
  unfold release
  split
  · simp [onClient, modify]
  · rfl

theorem carried_of_release (hc : s.connections[i]? = some c) :
    ∃ c', s.release.connections[i]? = some c' ∧ c.Carried c' := by
  refine ⟨_, connections_release hc, ?_⟩
  split
  · exact c.carried_release
  · exact .refl c

/-- What a deed does to a connection: a request may go over it, and then it is carried over. -/
theorem Deed.connection (h : s.Deed kept E s') (hc : s.connections[i]? = some c) :
    ∃ d c', s'.connections[i]? = some c' ∧ d.Carried c' ∧ (d = c ∨
      ∃ (f : Facade) (method : String) (args : List Json) (o : Outgoing),
        s.channel = .ok i ∧ f.outgoing method args = .ok o ∧ d = (c.send s.now o).2) := by
  cases h with
  | held ha hcourse =>
    obtain ⟨d, hd, hasked⟩ := ha.connection hc
    obtain ⟨c', hc', hcarried⟩ := hcourse.carried hd
    exact ⟨d, c', hc', hcarried, hasked⟩
  | givenUp ha hcourse h hno =>
    obtain ⟨d, hd, hasked⟩ := ha.connection hc
    obtain ⟨e, he, hcarried⟩ := hcourse.carried hd
    obtain ⟨c', hc', hcarried'⟩ := carried_of_release he
    exact ⟨d, c', h ▸ hc', hcarried.trans hcarried', hasked⟩

/-- A connection that a deed made is fresh. -/
theorem Deed.fresh (h : s.Deed kept E s') (hnone : s.connections[i]? = none) (hc' : s'.connections[i]? = some c') :
    c'.Fresh i := by
  have hgone {m : Session} (ha : s.Asked m) : m.connections[i]? = none := by
    rw [List.getElem?_eq_none_iff] at hnone ⊢
    rwa [ha.length]
  cases h with
  | held ha hcourse =>
    rcases hcourse.origin hc' with ⟨d, hd, -⟩ | ⟨-, hfresh⟩
    · rw [hgone ha] at hd
      cases hd
    · exact hfresh
  | @givenUp m t ha hcourse h hno =>
    subst h
    cases ht : t.connections[i]? with
    | none =>
      have hlt := (List.getElem?_eq_some_iff.mp hc').1
      rw [length_release] at hlt
      exact absurd hlt (Nat.not_lt_of_le (List.getElem?_eq_none_iff.mp ht))
    | some d =>
      obtain ⟨e, he, hcarried⟩ := carried_of_release ht
      rw [hc'] at he
      rcases hcourse.origin ht with ⟨d', hd', -⟩ | ⟨-, hfresh⟩
      · rw [hgone ha] at hd'
        cases hd'
      · exact hfresh.carried (Option.some.inj he ▸ hcarried)

theorem Deed.shelf (h : s.Deed kept E s') : s.Shelf s' := by
  have hasked {m : Session} (ha : s.Asked m) : s.Shelf m := by
    obtain ⟨connections, rfl⟩ := ha.frame
    exact shelf_of_client rfl
  cases h with
  | held ha hc => exact (hasked ha).trans hc.remains.toShelf
  | @givenUp m t ha hc h hno =>
    have hrelease : t.Shelf t.release := by
      constructor <;> rw [client_release]
      exact fun h => by cases h
    exact h ▸ ((hasked ha).trans hc.remains.toShelf).trans hrelease

theorem aside_addCaller (purpose : Purpose) (stage : CallerStage) (s : Session) :
    s.Aside kept (s.addCaller purpose stage).2 :=
  aside_of_client s _ s.holders rfl rfl rfl rfl rfl rfl rfl rfl rfl fun _ => rfl

theorem aside_modifyTask (j : Nat) (f : ReconnectTask → ReconnectTask) (s : Session) :
    s.Aside kept (s.modifyTask j f) :=
  aside_of_client s s.callers s.holders rfl rfl rfl rfl rfl rfl rfl rfl rfl fun _ => rfl

theorem aside_enableReconnect (plan : ReconnectPlan) (s : Session) : s.Aside kept (s.enableReconnect plan) :=
  aside_of_client s s.callers s.holders rfl rfl rfl rfl rfl rfl rfl rfl rfl fun _ => rfl

theorem aside_cancelTask (s : Session) : s.Aside kept (s.onClient cancelTask) := by
  refine aside_of_client s s.callers s.holders ?_ ?_ ?_ ?_ ?_ ?_ ?_ ?_ ?_ fun _ => ?_
  all_goals
    unfold cancelTask
    split <;> rfl

theorem course_start (s : Session) : Course kept s [.attempt s.accepts] s.start.2 := by
  rcases start_eq s with h | ⟨settings, h⟩ <;> rw [h]
  · exact .attempt s
  · exact (Course.attempt s).thenAside (aside_enableReconnect _ _)

theorem course_stop (s : Session) : Course kept s [.release] s.stop :=
  (Course.aside (aside_cancelTask s)).trans (.disconnect _)

theorem deed_call (id : FacadeId) (method : String) (args : List Json) (s : Session) :
    s.Deed kept [] (s.call id method args).2 := by
  unfold call
  split
  · exact .held .nothing (.aside (aside_addCaller _ _ s))
  · rename_i f hf
    have h := asked_invoke f method args s
    split
    all_goals
      rename_i heq
      rw [heq] at h
      exact .held h (.aside (aside_addCaller _ _ _))

theorem deed_askLiveness (s : Session) : s.Deed kept [] s.askLiveness.2 := by
  have h := asked_probe s
  unfold askLiveness
  split
  all_goals
    rename_i heq
    rw [heq] at h
    exact .held h (.aside (aside_addCaller _ _ _))

theorem deed_leaveCaller {w : Waiting} {f : Pending.Table → Pending.Table}
    (hf : f = Pending.Table.finish w.ticket ∨ f = Pending.Table.forget w.ticket) (callers : List Caller)
    (s : Session) :
    s.Deed kept [] ({ s.modify w.connection (Switchboard.onTable f) with callers } : Session).releaseUnheld :=
  deed_releaseUnheld .nothing ((Course.leave hf).thenAside
    (aside_of_client _ _ _ rfl rfl rfl rfl rfl rfl rfl rfl rfl fun _ => rfl))

theorem deed_resume (k : Nat) (s : Session) : s.Deed kept [] (s.resume k) := by
  have hrefl : s.Deed kept [] s := .held .nothing (.refl s)
  unfold resume
  split
  · exact hrefl
  · split
    · exact hrefl
    · rename_i w hw
      split
      · exact hrefl
      · dsimp only
        rw [finish_eq]
        exact deed_leaveCaller (.inl rfl) _ s

theorem deed_abort (k : Nat) (s : Session) : s.Deed kept [] (s.abort k) := by
  have hrefl : s.Deed kept [] s := .held .nothing (.refl s)
  unfold abort
  split
  · exact hrefl
  · split
    · exact hrefl
    · rename_i w hw
      dsimp only
      rw [forget_eq]
      exact deed_leaveCaller (.inr rfl) _ s

/-! ## Ticks -/

/-- A tick comes to its end without an attempt, or with a release and one attempt. -/
theorem course_conclude (callback alive : Bool) (s : Session) :
    Course kept s [] (s.conclude callback alive).2 ∨
      Course kept s [.release, .attempt s.accepts] (s.conclude callback alive).2 := by
  rcases conclude_cases callback alive s with h | ⟨callbacks, h⟩ <;> rw [h]
  · exact .inl (.refl s)
  · right
    have hrelease : Course kept s [.release] s.disconnect := .disconnect s
    have hboth := hrelease.trans (.attempt s.disconnect)
    rw [hrelease.accepts] at hboth
    exact hboth.thenAside (aside_of_client _ _ _ rfl rfl rfl rfl rfl rfl rfl rfl rfl fun _ => rfl)

/-- The end of a tick after a course. -/
theorem deed_endTick (ha : s.Asked m) (hc : Course kept m [] s') (j : Nat) (t : ReconnectTask) (alive : Bool) :
    s.Deed kept [] (s'.endTick j t alive) ∨ s.Deed kept [.release, .attempt s.accepts] (s'.endTick j t alive) := by
  have haccepts : s'.accepts = s.accepts := by
    rw [hc.accepts]
    obtain ⟨connections, rfl⟩ := ha.frame
    rfl
  have hrest {E : List Event} (h : Course kept s' E (s'.conclude t.plan.callback alive).2) :
      s.Deed kept E (s'.endTick j t alive) :=
    deed_releaseUnheld ha ((hc.trans h).thenAside (aside_modifyTask j _ _))
  rcases course_conclude t.plan.callback alive s' with h | h
  · exact .inl (hrest h)
  · rw [haccepts] at h
    exact .inr (hrest h)

theorem deed_goOn (h : s.Aside kept s') (j : Nat) (t : ReconnectTask) :
    s.Deed kept [] (goOn j t s'.probe) ∨ s.Deed kept [.release, .attempt s.accepts] (goOn j t s'.probe) := by
  obtain ⟨m, ha, hm⟩ := h.asked (asked_probe s')
  generalize s'.probe = p at hm
  obtain ⟨answer, s₂⟩ := p
  cases answer with
  | answered alive => exact deed_endTick ha (.aside hm) j t alive
  | asked w => exact .inl (.held ha ((Course.aside hm).thenAside (aside_modifyTask j _ s₂)))

theorem deed_runTask (j : Nat) (s : Session) :
    s.Deed kept [] (s.runTask j) ∨ s.Deed kept [.release, .attempt s.accepts] (s.runTask j) := by
  have haside {s' : Session} (h : s.Aside kept s') : s.Deed kept [] s' := .held .nothing (.aside h)
  have hturn := taskTurn j s
  generalize s.runTask j = s' at hturn ⊢
  cases hturn with
  | idle => exact .inl (haside (.refl s))
  | ends ht hstage ho =>
    rw [finish_eq]
    exact deed_endTick .nothing (.leave (.inl rfl)) j _ _
  | begins h =>
    rw [beginTick_eq]
    exact deed_goOn (aside_modifyTask j _ s) j _
  | retires => exact .inl (haside (aside_modifyTask j _ s))

/-- The attempts that were counted tell which of the two a tick was. -/
theorem deed_task (j : Nat) (s : Session) :
    s.Deed kept (s.events (.turn (.task j))) (s.perform (.turn (.task j))) := by
  have hdeed : s.Deed kept [] (s.runTask j) ∨ s.Deed kept [.release, .attempt s.accepts] (s.runTask j) :=
    deed_runTask j s
  simp only [events]
  rcases hdeed with h | h
  · have hsame : (s.perform (.turn (.task j))).attempts = s.attempts := h.attempts
    rw [if_pos hsame]
    exact h
  · have hmore : (s.perform (.turn (.task j))).attempts = s.attempts + 1 := h.attempts
    rw [if_neg (by omega)]
    exact h

/-! ## Façades -/

theorem same_newFacade (r : FacadeRequest) (s : Session) : s.Same kept (s.newFacade r).2 := by
  unfold newFacade obtain
  dsimp only
  split <;> exact ⟨rfl, rfl, rfl, rfl, rfl, rfl, fun _ => rfl⟩

theorem same_commandFacade (s : Session) : s.Same kept s.commandFacade.2 := by
  unfold commandFacade
  split
  · exact .refl s
  · have h : s.Same kept (s.newInstance commandService).2 := same_newFacade _ s
    exact ⟨h.connections, h.config, h.phase, h.installed, h.attempts, h.released, h.owned⟩

theorem same_dataFacade (s : Session) : s.Same kept s.dataFacade.2 := by
  unfold dataFacade
  split
  · exact .refl s
  · have h : s.Same kept (s.newInstance dataService).2 := same_newFacade _ s
    exact ⟨h.connections, h.config, h.phase, h.installed, h.attempts, h.released, h.owned⟩

/-! ## Steps -/

/-- What any step is. -/
theorem manner (a : Action) (s : Session) : Manner a s := by
  cases a with
  | connect => exact .deed rfl (.held .nothing (.attempt s))
  | start => exact .deed rfl (.held .nothing (course_start s))
  | stop => exact .deed rfl (.held .nothing (course_stop s))
  | dropClient =>
    refine .deed rfl (deed_releaseUnheld .nothing (.aside ?_))
    exact aside_of_client s s.callers s.holders rfl rfl rfl rfl rfl rfl rfl rfl rfl fun hkept => absurd rfl hkept
  | enableReconnect plan => exact .deed rfl (.held .nothing (.aside (aside_enableReconnect plan s)))
  | refuse refuse =>
    exact .idle rfl rfl ⟨rfl, rfl, rfl, rfl, rfl, rfl, fun _ => rfl⟩ ⟨rfl, rfl, rfl, fun h => ⟨h, rfl⟩⟩
  | newFacade r name =>
    have h : s.Same (Action.newFacade r name ≠ .dropClient) (s.newFacade r).2 := same_newFacade r s
    exact .facade rfl rfl rfl ⟨h.connections, h.config, h.phase, h.installed, h.attempts, h.released, h.owned⟩
  | commandFacade => exact .facade rfl rfl rfl (same_commandFacade s)
  | dataFacade => exact .facade rfl rfl rfl (same_dataFacade s)
  | letGo name => exact .idle rfl rfl ⟨rfl, rfl, rfl, rfl, rfl, rfl, fun _ => rfl⟩ (shelf_of_client rfl)
  | call id method args => exact .deed rfl (deed_call id method args s)
  | askLiveness => exact .deed rfl (deed_askLiveness s)
  | abort k => exact .deed rfl (deed_abort k s)
  | peer i act => exact .peer i act rfl rfl rfl
  | pass ms => exact .idle rfl rfl ⟨rfl, rfl, rfl, rfl, rfl, rfl, fun _ => rfl⟩ (shelf_of_client rfl)
  | turn t =>
    cases t with
    | dispatcher i => exact .dispatcher i rfl
    | server i =>
      cases hh : s.handlers.lookup i with
      | none =>
        have hsame : s.perform (.turn (.server i)) = s := by
          show s.serve i = s
          simp only [serve, hh]
        refine .idle (by simp [peerAct?, hh]) rfl ?_ ?_
        · rw [hsame]
          exact .refl s
        · rw [hsame]
          exact .refl s
      | some handler =>
        refine .peer i (.serve handler) (by simp [peerAct?, hh]) rfl ?_
        show s.serve i = _
        simp only [serve, hh]
    | caller k => exact .deed rfl (deed_resume k s)
    | task j => exact .deed rfl (deed_task j s)

/-! ## One connection -/

/-- What any step does to a connection. -/
theorem progress (hc : s.connections[i]? = some c) (a : Action) :
    ∃ c', (s.perform a).connections[i]? = some c' ∧ s.Progress a i c c' := by
  cases manner a s with
  | peer j act hp he h =>
    rw [h]
    by_cases hji : j = i
    · subst hji
      exact ⟨_, Switchboard.getElem?_modify_self (b := s.board) hc, .acted act hp rfl⟩
    · refine ⟨c, (Switchboard.getElem?_modify_of_ne (b := s.board) hji).trans hc, .carried (fun act' heq => ?_) (.refl c)⟩
      rw [hp] at heq
      exact hji (congrArg Prod.fst (Option.some.inj heq))
  | dispatcher j h =>
    subst h
    by_cases hji : j = i
    · subst hji
      exact ⟨_, Switchboard.getElem?_modify_self (b := s.board) hc, .turned rfl rfl rfl⟩
    · exact ⟨c, (Switchboard.getElem?_modify_of_ne (b := s.board) hji).trans hc,
        .carried (fun act heq => by cases heq) (.refl c)⟩
  | facade ha hp he h => exact ⟨c, by rw [h.connections, hc], .carried (fun act => by simp [hp]) (.refl c)⟩
  | idle hp he h hs => exact ⟨c, by rw [h.connections, hc], .carried (fun act => by simp [hp]) (.refl c)⟩
  | deed hp h =>
    obtain ⟨d, c', hc', hcarried, rfl | ⟨f, method, args, o, hi, ho, rfl⟩⟩ := h.connection hc
    · exact ⟨c', hc', .carried (fun act => by simp [hp]) hcarried⟩
    · exact ⟨c', hc', .sent hp hi ho hcarried⟩

/-- A connection that was not there before a step is fresh after it. -/
theorem fresh_perform (hnone : s.connections[i]? = none) (hc' : (s.perform a).connections[i]? = some c') :
    c'.Fresh i := by
  have hsame (heq : (s.perform a).connections[i]? = none) : c'.Fresh i := by
    rw [hc'] at heq
    cases heq
  have hmodify (j : Nat) (f : Connection → Connection) : (s.modify j f).connections[i]? = none := by
    rw [List.getElem?_eq_none_iff] at hnone ⊢
    simpa [modify] using hnone
  cases manner a s with
  | peer j act hp he h => exact hsame (h ▸ hmodify j _)
  | dispatcher j h => exact hsame (h ▸ hmodify j _)
  | facade ha hp he h => exact hsame (by rw [h.connections, hnone])
  | idle hp he h hs => exact hsame (by rw [h.connections, hnone])
  | deed hp h => exact h.fresh hnone hc'

/-- The configuration is never changed. -/
theorem config_perform (a : Action) (s : Session) : (s.perform a).client.config = s.client.config := by
  have hasked {m : Session} (ha : s.Asked m) : m.client.config = s.client.config := by
    obtain ⟨connections, rfl⟩ := ha.frame
    rfl
  cases manner a s with
  | peer j act hp he h => rw [h]; rfl
  | dispatcher j h => rw [h]; rfl
  | facade ha hp he h => exact h.config
  | idle hp he h hs => exact h.config
  | deed hp h =>
    cases h with
    | held ha hc => exact hc.remains.config.trans (hasked ha)
    | givenUp ha hc heq =>
      rw [heq, client_release]
      exact hc.remains.config.trans (hasked ha)

theorem config_run (actions : List Action) (s : Session) : (s.run actions).client.config = s.client.config := by
  induction actions generalizing s with
  | nil => rfl
  | cons a actions ih => exact (ih (s.perform a)).trans (config_perform a s)

theorem Progress.onward (h : s.Progress a i c c') : c.Onward c' := by
  cases h with
  | acted act hp h => exact h ▸ c.onward_act act
  | turned hp ha h => exact h ▸ c.onward_dispatch s.now
  | sent hp hi ho h => exact (c.onward_send s.now _).trans h.onward
  | carried hp h => exact h.onward

/-- A connection is there for ever, and what has ended does not begin again. -/
theorem onward_run (hc : s.connections[i]? = some c) (actions : List Action) :
    ∃ c', (s.run actions).connections[i]? = some c' ∧ c.Onward c' := by
  induction actions generalizing s c with
  | nil => exact ⟨c, hc, .refl c⟩
  | cons a actions ih =>
    obtain ⟨d, hd, hprogress⟩ := progress hc a
    obtain ⟨c', hc', honward⟩ := ih hd
    exact ⟨c', hc', hprogress.onward.trans honward⟩

end Session

end RemoteCall
