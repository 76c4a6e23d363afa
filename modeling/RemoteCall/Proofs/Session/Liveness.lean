import RemoteCall.Proofs.Connection.Inbound
import RemoteCall.Proofs.Connection.Sending
import RemoteCall.Proofs.Service.Caching
import RemoteCall.Proofs.Session.Routing

/-!
# Whether a connection lives

Who asks whether the connection lives has its answer at once, unless the command service was asked for and a ping can
be written. Then the ping decides: the connection lives if the first response to it, on its own connection and in time,
is a sign of life. To ask spends one id and writes one ping at most, and leaves no call behind.

* `IsLifeSign`: a response that tells of success, with a text as its data.
* `Equipped`: the command service, if it was asked for, is called as its definition says.
* `pingsOver?`: the connection over which a ping would go now.
* `command_perform` and `released_perform`: who waits for a ping holds the client, and with it the command service.
* `waits_or_replied`: who asked waits, or has its answer and has left no call behind.
* `liveness_answered`: what the answer is, when it comes, and what is left of the question.
-/

namespace RemoteCall

open Pending (Call Table Outcome)

section Defs

/-- What is asked for when the façade of the command service is made. -/
def commandRequest : FacadeRequest :=
  ⟨commandService, commandService.defaultTimeout, commandService.defaultServiceName, declaredNames⟩

/-- The call of a ping. -/
def pingCall : Outgoing where
  service := "/_nrpc/command"
  method := "ping"
  data := (Json.object []).bytes
  ack := .yes
  timeoutMs := 5000

/-- A response is a sign of life if it tells of success and its data is a JSON text. -/
def Response.IsLifeSign (r : Response) : Prop :=
  r.status = .ok ∧ ∃ text, Codec.json.decode r.data = .ok (.text text)

/-- A connection after a ping was written on it, whose call waits under the next id. -/
def Connection.pinged (now : Nat) (c : Connection) : Connection :=
  let id := c.generation.nextId
  { c with
    link := { c.link with outbound := c.link.outbound ++ [.request (pingCall.request id)] }
    generation := { c.generation with
      nextId := id + 1
      table := ⟨c.generation.table.calls ++ [Table.newCall now id 5000]⟩ } }

namespace Session

/-- The façade of the command service, if it was asked for, is what would be made with a codec. -/
def Equipped (codec : Codec) (s : Session) : Prop :=
  s.client.released = false → ∀ id, s.client.command = some id → s.facade? id = some (.make commandRequest codec)

/-- On every connection the id of the next request is free. -/
def FreeIds (s : Session) : Prop :=
  ∀ (i : Nat) (c : Connection), s.connections[i]? = some c → c.generation.table.holds c.generation.nextId = false

/-- The connection over which a ping would go now: the one in use, if the command service was asked for and the link is
writable and takes what is written. -/
def pingsOver? (s : Session) : Option Nat :=
  s.client.installed.filter fun i =>
    s.client.command.isSome && s.connections[i]?.any fun c => c.link.isWritable && c.link.takesPackets

/-- Nothing has changed, or one id of the connection in use was handed out for nothing. -/
inductive Spends (s : Session) : Session → Prop
  | nothing : Spends s s
  | id {i : Nat} {c : Connection} {g : Generation} (hi : s.client.installed = some i) (hc : s.connections[i]? = some c)
    (hg : c.generation.Spent g) : Spends s { s with connections := s.connections.set i { c with generation := g } }

/-- A session in which someone has begun to wait for the answer to a ping over a connection. -/
def pinging (i : Nat) (c : Connection) (s : Session) : Session :=
  (({ s with connections := s.connections.set i (c.pinged s.now) } : Session).addCaller .liveness
    (.waiting ⟨i, c.generation.table.calls.length⟩)).2

/-- The client is held, and the command service has this façade. -/
structure Commands (id : FacadeId) (s : Session) : Prop where
  released : s.client.released = false
  command : s.client.command = some id
  facade : s.facade? id = some (.make commandRequest)

/-- Someone who asked whether the connection lives has its answer. It has ended, its call is not waited for any more,
and a client that nobody else holds is given up. -/
def answered (k : Nat) (w : Waiting) (alive : Bool) (s : Session) : Session :=
  ({ s.modify w.connection (Switchboard.onTable fun t => ⟨t.calls.modify w.ticket Call.unawaited⟩) with
    callers := s.callers.set k ⟨.liveness, .ended s.now (.liveness alive)⟩ } : Session).releaseUnheld

/-- Someone who asked whether the connection lives has had its answer, and its call does not stand any more. -/
structure Replied (k : Nat) (w : Waiting) (s : Session) : Prop where
  told : ∃ m alive, Told k .liveness m (.liveness alive) s
  closed : ∃ x, s.board.call? w = some x ∧ x.isOpen = false

end Session

end Defs

/-! ## Pings -/

theorem outgoing_ping : (Facade.make commandRequest).outgoing "ping" [] = .ok pingCall := by rfl

/-- A ping was answered if a response is a sign of life. -/
theorem isPong_iff (o : Outcome) :
    Session.isPong (o.bind (Facade.make commandRequest).result) = true ↔ ∃ r, o = .ok r ∧ r.IsLifeSign := by
  cases o with
  | error e => simp [Session.isPong, CallError.typed, Except.bind]
  | ok r =>
    simp only [Except.bind, Except.ok.injEq, exists_eq_left', Response.IsLifeSign, Facade.result, Facade.make]
    cases hs : r.status with
    | ok =>
      cases hd : Codec.json.decode r.data with
      | error fault => simp [Session.isPong, CallError.typed, Except.bind, Except.mapError]
      | ok v =>
        cases v <;> simp [Session.isPong, CallError.typed, Except.bind, Except.mapError, Json.read?,
          Json.Readable.ofJson?]
    | _ => simp [Session.isPong, CallError.typed, Except.bind]

namespace Connection

variable {c : Connection}

/-- A ping that can be written under a free id. -/
theorem send_ping (hid : c.generation.table.holds c.generation.nextId = false) (ht : c.link.takesPackets = true)
    (now : Nat) : c.send now pingCall = (.ok (some c.generation.table.calls.length), c.pinged now) := by
  simp only [send, pingCall, Generation.takeId, onTable, Generation.onTable, Table.register_of_not_holds hid, write,
    Memory.Link.write_of_takesPackets ht]
  rfl

/-- A ping that cannot be written spends an id. -/
theorem send_ping_in_vain (hid : c.generation.table.holds c.generation.nextId = false)
    (ht : c.link.takesPackets = false) (now : Nat) :
    ∃ e g, c.generation.Spent g ∧ c.send now pingCall = (.error e, { c with generation := g }) := by
  obtain ⟨e, hwrite⟩ := Memory.Link.write_of_not_takesPackets ht (.request (pingCall.request c.generation.nextId))
  have hrefuses : c.channel.Refuses pingCall e :=
    .unwritten (fun _ => hid) (Handle.refuses_of_write (by rw [channel, Handle.write, hwrite]))
  obtain ⟨g, hspent, hsend⟩ := Channel.send_of_refuses hrefuses now
  obtain ⟨link, generation, hchannel, hself⟩ := send_channel now pingCall c
  obtain ⟨hfirst, hsecond⟩ := Prod.mk.inj (hchannel.symm.trans hsend)
  obtain ⟨hlink, rfl⟩ := Channel.mk.inj hsecond
  cases hlink
  exact ⟨e, generation, hspent, Prod.ext hfirst hself⟩

end Connection

namespace Session

variable {s : Session} {k i : Nat} {id : FacadeId} {w : Waiting} {x : Call} {c : Connection} {a : Action}

/-! ## The command service -/

theorem command_newFacade (r : FacadeRequest) (s : Session) : (s.newFacade r).2.client.command = s.client.command := by
  unfold newFacade obtain
  dsimp only
  split <;> rfl

theorem command_dataFacade (s : Session) : s.dataFacade.2.client.command = s.client.command := by
  unfold dataFacade
  split
  · rfl
  · exact command_newFacade _ s

theorem commandFacade_of_none (h : s.client.command = none) : s.commandFacade =
    ((s.newFacade commandRequest).1, (s.newFacade commandRequest).2.onClient fun c =>
      { c with command := some (s.newFacade commandRequest).1 }) := by
  simp only [commandFacade, h]
  rfl

/-- While the client is held, its command service changes only when it is asked for first. -/
theorem command_perform (hr : (s.perform a).client.released = false) : s.client.released = false ∧
    ((s.perform a).client.command = s.client.command ∨ a = .commandFacade ∧ s.client.command = none) := by
  have hshelf (h : s.Shelf (s.perform a)) : s.client.released = false ∧
      ((s.perform a).client.command = s.client.command ∨ a = .commandFacade ∧ s.client.command = none) :=
    (h.command hr).imp_right .inl
  cases manner a s with
  | peer i act hp he h => exact hshelf (h ▸ shelf_of_client rfl)
  | dispatcher i h => exact hshelf (h ▸ shelf_of_client rfl)
  | idle hp he h hs => exact hshelf hs
  | deed hp h => exact hshelf h.shelf
  | facade ha hp he h =>
    refine ⟨h.released.symm.trans hr, ?_⟩
    cases a with
    | newFacade r name => exact .inl (command_newFacade r s)
    | dataFacade => exact .inl (command_dataFacade s)
    | commandFacade =>
      show s.commandFacade.2.client.command = _ ∨ _
      unfold commandFacade
      split
      · exact .inl rfl
      · rename_i hnone
        exact .inr ⟨rfl, hnone⟩
    | _ => cases ha

theorem Equipped.perform {codec : Codec} (h : s.Equipped codec) (hs : s.Stocked) (hcodec : s.client.codec = codec)
    (a : Action) : (s.perform a).Equipped codec := by
  intro hr id hid
  obtain ⟨hheld, hsame | ⟨rfl, hnone⟩⟩ := command_perform hr
  · exact facade?_perform (h hheld id (hsame.symm.trans hid)) a
  · -- it was made just now
    have heq : s.perform .commandFacade = s.commandFacade.2 := rfl
    rw [heq, commandFacade_of_none hnone] at hid ⊢
    cases hid
    rw [← hcodec]
    exact facade?_newFacade hs commandRequest

theorem equipped_run (config : Config) (codec : Codec) (actions : List Action) :
    ((ofConfig config codec).run actions).Equipped codec := by
  induction actions using List.reverseRecOn with
  | nil =>
    intro _ id hid
    cases hid
  | append_singleton actions a ih =>
    rw [run_append]
    exact ih.perform ((stocked_ofConfig config codec).run actions) (codec_run actions (ofConfig config codec)) a

/-- While someone who asks whether the connection lives or a tick holds the client, it is not given up. -/
theorem released_of_holds (hr : s.client.released = false)
    (hholds : ((s.perform a).callers.any Caller.holdsClient ||
      (s.perform a).client.tasks.any ReconnectTask.isProbing) = true) : (s.perform a).client.released = false := by
  have hasked {m : Session} (ha : s.Asked m) : m.client.released = s.client.released := by
    obtain ⟨connections, rfl⟩ := ha.frame
    rfl
  cases manner a s with
  | peer i act hp he h => rw [h]; exact hr
  | dispatcher i h => rw [h]; exact hr
  | idle hp he h hs => exact h.released.trans hr
  | facade ha hp he h => exact h.released.trans hr
  | deed hp h =>
    cases h with
    | held ha hc => exact (hc.remains.released.trans (hasked ha)).trans hr
    | @givenUp m t ha hc h hno =>
      have hprobing : (t.client.tasks.map ReconnectTask.cancel).any ReconnectTask.isProbing =
          t.client.tasks.any ReconnectTask.isProbing := List.any_map
      rw [h, (apart_release t).callers, client_release, hprobing] at hholds
      rw [isHeld, Bool.or_assoc, hholds, Bool.or_true] at hno
      cases hno

/-- Who waits for the answer to a ping holds the client. -/
theorem released_perform (hr : s.client.released = false)
    (hk : (s.perform a).callers[k]? = some ⟨.liveness, .waiting w⟩) : (s.perform a).client.released = false := by
  refine released_of_holds hr (Bool.or_eq_true_iff.mpr (.inl ?_))
  exact List.any_eq_true.mpr ⟨_, List.mem_of_getElem? hk, rfl⟩

theorem Commands.kept (h : s.Commands id) (hr : (s.perform a).client.released = false) : (s.perform a).Commands id := by
  obtain ⟨-, hsame | ⟨-, hnone⟩⟩ := command_perform hr
  · exact ⟨hr, hsame.trans h.command, facade?_perform h.facade a⟩
  · rw [h.command] at hnone
    cases hnone

theorem Commands.perform (h : s.Commands id) (hk : (s.perform a).callers[k]? = some ⟨.liveness, .waiting w⟩) :
    (s.perform a).Commands id := h.kept (released_perform h.released hk)

/-- The command service tells whether an outcome is a sign of life. -/
theorem Commands.isAlive (h : s.Commands id) (o : Outcome) :
    s.isAlive o = isPong (o.bind (Facade.make commandRequest).result) := by
  simp only [Session.isAlive, resultOf, h.command, h.facade]

/-- The command service tells what an outcome means for who waits for the answer to a ping. -/
theorem fixes_liveness (k : Nat) (id : FacadeId) (w : Waiting) :
    Fixes k .liveness w (fun o => .liveness (isPong (o.bind (Facade.make commandRequest).result))) (Commands id) := by
  refine ⟨fun s a h hk => h.perform hk, fun s o h => ?_⟩
  rw [answerOf, h.isAlive]

/-! ## Asking -/

theorem isTransportActive_iff : s.isTransportActive = true ↔
    ∃ i c, s.client.installed = some i ∧ s.connections[i]? = some c ∧ c.link.active = true := by
  simp only [isTransportActive, Option.any_eq_true, Option.bind_eq_some_iff]
  constructor
  · rintro ⟨c, ⟨i, hi, hc⟩, ha⟩
    exact ⟨i, c, hi, hc, ha⟩
  · rintro ⟨i, c, hi, hc, ha⟩
    exact ⟨c, ⟨i, hi, hc⟩, ha⟩

theorem probe_of_command (hactive : s.isTransportActive = true) (h : s.Commands id) : s.probe =
    match s.invoke (.make commandRequest) "ping" [] with
    | (.ok (some w), s) => (.asked w, s)
    | (.ok none, s) => (.answered (isPong (.ok .null)), s)
    | (.error _, s) => (.answered false, s) := by
  simp only [probe, hactive, h.command, Option.bind_some, h.facade]
  rfl

theorem invoke_ping (hchannel : s.channel = .ok i) (hc : s.connections[i]? = some c) :
    s.invoke (.make commandRequest) "ping" [] = ((c.send s.now pingCall).1.map (Option.map (Waiting.mk i)),
      { s with connections := s.connections.set i (c.send s.now pingCall).2 }) := by
  simp only [invoke, outgoing_ping, hchannel, onConnection, hc]
  cases (c.send s.now pingCall).1 <;> rfl

/-- Without a ping the answer comes at once. -/
theorem probe_at_once (heq : s.Equipped .json) (hr : s.client.released = false) (hids : s.FreeIds)
    (hno : s.pingsOver? = none) :
    ∃ s', s.Spends s' ∧ s.probe = (.answered (s.isTransportActive && s.client.command.isNone), s') := by
  cases hactive : s.isTransportActive with
  | false => exact ⟨s, .nothing, by simp [probe, hactive]⟩
  | true =>
    cases hcommand : s.client.command with
    | none => exact ⟨s, .nothing, by simp [probe, hactive, hcommand]⟩
    | some id =>
      obtain ⟨i, c, hi, hc, ha⟩ := isTransportActive_iff.mp hactive
      rw [probe_of_command hactive ⟨hr, hcommand, heq hr id hcommand⟩]
      cases hw : c.link.isWritable with
      | false =>
        have hchannel : s.channel = .error (.connectFailure s.client.config.remoteAddr .notWritable) := by
          simp [channel, hr, hi, hc, ha, hw]
        simp only [invoke, outgoing_ping, hchannel]
        exact ⟨s, .nothing, rfl⟩
      | true =>
        have ht : c.link.takesPackets = false := by simpa [pingsOver?, hi, hcommand, hc, hw] using hno
        obtain ⟨e, g, hspent, hsend⟩ := Connection.send_ping_in_vain (hids i c hc) ht s.now
        rw [invoke_ping (channel_eq_ok_iff.mpr ⟨hr, hi, c, hc, ha, hw⟩) hc, hsend]
        exact ⟨_, .id hi hc hspent, rfl⟩

/-- A ping that can be written is written, and its answer is waited for. -/
theorem ask_pings (heq : s.Equipped .json) (hr : s.client.released = false) (hids : s.FreeIds)
    (hover : s.pingsOver? = some i) : ∃ c id, s.client.installed = some i ∧ s.connections[i]? = some c ∧
      s.Commands id ∧ s.perform .askLiveness = s.pinging i c := by
  obtain ⟨hi, hcan⟩ := Option.filter_eq_some_iff.mp hover
  obtain ⟨hsome, hany⟩ := Bool.and_eq_true_iff.mp hcan
  obtain ⟨id, hcommand⟩ := Option.isSome_iff_exists.mp hsome
  obtain ⟨c, hc, hlink⟩ := (Option.any_eq_true _ _).mp hany
  obtain ⟨hw, ht⟩ := Bool.and_eq_true_iff.mp hlink
  have ha : c.link.active = true := (Bool.and_eq_true_iff.mp hw).1
  have h : s.Commands id := ⟨hr, hcommand, heq hr id hcommand⟩
  refine ⟨c, id, hi, hc, h, ?_⟩
  have hactive := isTransportActive_iff.mpr ⟨i, c, hi, hc, ha⟩
  have hinvoke := invoke_ping (channel_eq_ok_iff.mpr ⟨hr, hi, c, hc, ha, hw⟩) hc
  rw [Connection.send_ping (hids i c hc) ht] at hinvoke
  show s.askLiveness.2 = _
  rw [askLiveness, probe_of_command hactive h, hinvoke]
  rfl

/-- Who waits for the answer to a ping waits for its own call, whose time runs from now on. -/
theorem awaits_pinging (hs : (s.pinging i c).board.Sound) (hc : s.connections[i]? = some c) :
    Awaits s.callers.length .liveness ⟨i, c.generation.table.calls.length⟩
      (Table.newCall s.now c.generation.nextId 5000) (s.pinging i c) := by
  refine ⟨hs, List.getElem?_concat_length, ⟨_, ?_, .refl _, rfl⟩, Nat.le_add_right _ _⟩
  exact Switchboard.call?_eq_some_iff.mpr
    ⟨_, Switchboard.getElem?_send (b := s.board) hc, List.getElem?_concat_length⟩

/-! ## Answers -/

/-- When a caller stops waiting, only its own call changes. -/
theorem finish_of_sound (hs : s.board.Sound) (w : Waiting) : s.finish w =
    s.modify w.connection (Switchboard.onTable fun t => ⟨t.calls.modify w.ticket Call.unawaited⟩) := by
  rw [finish_eq]
  unfold modify
  cases hc : s.connections[w.connection]? with
  | none =>
    have hle := List.getElem?_eq_none_iff.mp hc
    rw [List.modify_eq_self hle, List.modify_eq_self hle]
  | some c =>
    rw [modify_eq_set _ hc, modify_eq_set _ hc, Switchboard.onTable, Switchboard.onTable,
      Table.finish_of_distinct (hs.distinct _ c hc)]

/-- The turn of someone who waits for the answer to a ping. -/
theorem resume_liveness (hs : s.board.Sound) (hk : s.callers[k]? = some ⟨.liveness, .waiting w⟩) :
    s.perform (.turn (.caller k)) = s ∨ ∃ alive, s.perform (.turn (.caller k)) = s.answered k w alive := by
  show s.resume k = s ∨ ∃ alive, s.resume k = s.answered k w alive
  cases ho : s.outcome? w with
  | none => exact .inl (resume_of_no_outcome hk rfl ho)
  | some o =>
    refine .inr ⟨s.isAlive o, ?_⟩
    rw [resume_of_outcome hk rfl ho, finish_of_sound hs]
    rfl

/-- No call is left behind by who has its answer. -/
theorem replied_answered (hk : s.callers[k]? = some ⟨.liveness, .waiting w⟩) (hx : s.board.call? w = some x)
    (alive : Bool) : (s.answered k w alive).Replied k w := by
  let t : Session := { s.modify w.connection (Switchboard.onTable fun t =>
    ⟨t.calls.modify w.ticket Call.unawaited⟩) with
      callers := s.callers.set k ⟨.liveness, .ended s.now (.liveness alive)⟩ }
  show t.releaseUnheld.Replied k w
  have happart := apart_releaseUnheld t
  refine ⟨⟨s.now, alive, ?_, Nat.le_of_eq happart.now.symm⟩, ?_⟩
  · rw [happart.callers]
    exact List.getElem?_set_self (List.getElem?_eq_some_iff.mp hk).1
  · obtain ⟨c, hc, hcx⟩ := Switchboard.call?_eq_some_iff.mp hx
    have hleft : t.board.call? w = some x.unawaited := by
      refine (Switchboard.call?_modify_self (b := s.board) hc).trans ?_
      show (c.generation.table.calls.modify w.ticket Call.unawaited)[w.ticket]? = _
      rw [List.getElem?_modify_eq, hcx]
      rfl
    obtain ⟨y, hy, hxy⟩ := Switchboard.Moves.call? (moves_releaseUnheld t) hleft
    exact ⟨y, hy, hxy.closed rfl⟩

theorem Replied.perform (h : s.Replied k w) (ha : a ≠ .abort k) : (s.perform a).Replied k w := by
  obtain ⟨⟨m, alive, htold⟩, x, hx, hclosed⟩ := h
  obtain ⟨y, hy, hxy⟩ := call?_perform hx a
  exact ⟨⟨m, alive, htold.perform ha⟩, y, hy, hxy.closed hclosed⟩

/-- Who waits for the answer to a ping waits on, or has had its answer. -/
theorem waits_or_replied {actions : List Action} (hs : s.board.Sound)
    (hk : s.callers[k]? = some ⟨.liveness, .waiting w⟩) (hx : s.board.call? w = some x)
    (ha : ∀ a ∈ actions, a ≠ .abort k) :
    (s.run actions).callers[k]? = some ⟨.liveness, .waiting w⟩ ∨ (s.run actions).Replied k w := by
  induction actions using List.reverseRecOn with
  | nil => exact .inl hk
  | append_singleton actions a ih =>
    rw [run_append, run_cons, run_nil]
    have hnot : a ≠ .abort k := ha a (List.mem_append_right _ List.mem_cons_self)
    rcases ih fun a' ha' => ha a' (List.mem_append_left _ ha') with hstill | hreplied
    · by_cases hturn : a.caller? = some k
      · rw [eq_turn_of_caller? hturn hnot]
        obtain ⟨y, hy, -⟩ := call?_run hx actions
        rcases resume_liveness (sound_run hs actions) hstill with hsame | ⟨alive, hanswered⟩
        · rw [hsame]
          exact .inl hstill
        · exact .inr (hanswered ▸ replied_answered hstill hy alive)
      · exact .inl (callers_perform hstill hturn)
    · exact .inr (hreplied.perform hnot)

/-! ## Main statement -/

/-- As long as ids do not begin again, the next one is free. -/
theorem free_of_counted {n : Nat} (h : Switchboard.Counted i n s.board) (hc : s.connections[i]? = some c) :
    c.generation.table.holds c.generation.nextId = false := by
  refine Table.holds_eq_false_iff.mpr fun x hx _ hid => ?_
  have hlt := h.ids c hc x hx
  rw [hid, h.next c hc] at hlt
  exact Nat.lt_irrefl n hlt

/-- **Who asks whether the connection lives is told the truth.** Without the command service the answer is whether a
connection is in use and active. With it the answer is yes just if a ping can be written there and the first response
to it that the dispatcher of the same connection takes in, before the connection ends and before five seconds are over,
is a sign of life. To ask spends one id and writes one ping at most. The turns of who asked only wait or take the
answer, and when it has come the call of the ping has left. -/
theorem liveness_answered (config : Config) (before after : List Action) :
    let s := (ofConfig config).run before
    let k := s.callers.length
    let asked := s.perform .askLiveness
    let final := asked.run after
    s.client.released = false → (∀ i, handedOut i before (ofConfig config) < 2 ^ 32) →
    (∀ a ∈ after, a ≠ .abort k) → punctual k after asked = true →
    (s.pingsOver? = none →
      let answer := Answer.liveness (s.isTransportActive && s.client.command.isNone)
      final.callers[k]? = some ⟨.liveness, .ended s.now answer⟩ ∧
      ∃ s', s.Spends s' ∧ asked = (s'.addCaller .liveness (.ended s.now answer)).2) ∧
    (∀ i, s.pingsOver? = some i → ∃ c, s.client.installed = some i ∧ s.connections[i]? = some c ∧
      let rid := c.generation.nextId
      let w : Waiting := ⟨i, c.generation.table.calls.length⟩
      let deadline := s.now + 5000
      let verdict := firstVerdict? i rid after asked
      asked = s.pinging i c ∧
      ((verdict = none ∧ final.now < deadline ∧ final.waitsFor? k = some w) ∨
        ∃ m o alive, Earliest deadline (.error (.callTimeout rid 5000)) verdict m o ∧ m ≤ final.now ∧
          EndsAt k .liveness m (.liveness alive) final ∧ (alive = true ↔ ∃ r, o = .ok r ∧ r.IsLifeSign)) ∧
      (∀ first rest, after = first ++ .turn (.caller k) :: rest →
        let t := asked.run first
        t.perform (.turn (.caller k)) = t ∨ ∃ alive, t.perform (.turn (.caller k)) = t.answered k w alive) ∧
      (final.waitsFor? k = none → ∃ x, final.board.call? w = some x ∧ x.isOpen = false)) := by
  intro s k asked final hr hids hstays htime
  have hs : s.board.Sound := sound_run (sound_ofConfig config .json) before
  have hequipped : s.Equipped .json := equipped_run config .json before
  have hfree : s.FreeIds := fun i c hc =>
    free_of_counted (counted_run (counted_ofConfig i config .json) before (by simpa using hids i)) hc
  refine ⟨fun hno => ?_, fun i hover => ?_⟩
  · intro answer
    obtain ⟨s', hspends, hprobe⟩ := probe_at_once hequipped hr hfree hno
    have hasked : asked = (s'.addCaller .liveness (.ended s.now answer)).2 := by
      show s.askLiveness.2 = _
      rw [askLiveness, hprobe]
      cases hspends <;> rfl
    have hcallers : s'.callers = s.callers := by cases hspends <;> rfl
    have htold : Told k .liveness s.now answer asked := by
      refine ⟨?_, ?_⟩
      · rw [hasked, addCaller, hcallers]
        exact List.getElem?_concat_length
      · exact now_le_perform _ s
    exact ⟨(htold.run hstays).caller, s', hspends, hasked⟩
  · obtain ⟨c, id, hi, hc, hcommands, hasked⟩ := ask_pings hequipped hr hfree hover
    have hawaits : Awaits k .liveness ⟨i, c.generation.table.calls.length⟩
        (Table.newCall s.now c.generation.nextId 5000) asked := by
      have hsound : asked.board.Sound := sound_perform hs _
      rw [show asked = s.pinging i c from hasked] at hsound ⊢
      exact awaits_pinging hsound hc
    obtain ⟨x, hx, -⟩ := hawaits.call
    refine ⟨c, hi, hc, hasked, ?_, fun first rest hafter => ?_, fun hgone => ?_⟩
    · rcases hawaits.ends (fixes_liveness k id _) (hcommands.perform hawaits.waits) hstays htime with
        hstill | ⟨m, o, hearliest, hm, hends⟩
      · exact .inl hstill
      · exact .inr ⟨m, o, _, hearliest, hm, hends, isPong_iff o⟩
    · have hfirst : ∀ a ∈ first, a ≠ .abort k := fun a ha => hstays a (hafter ▸ List.mem_append_left _ ha)
      rcases waits_or_replied hawaits.sound hawaits.waits hx hfirst with hstill | hreplied
      · exact resume_liveness (sound_run hawaits.sound first) hstill
      · obtain ⟨m, alive, htold⟩ := hreplied.told
        exact .inl (resume_of_not_waiting htold.caller rfl)
    · rcases waits_or_replied hawaits.sound hawaits.waits hx hstays with hstill | hreplied
      · cases hgone.symm.trans (waitsFor?_eq hstill)
      · exact hreplied.closed

/-- The far end answers the ping with an empty text. -/
theorem pong_in_time :
    let before : List Action := [.connect, .commandFacade]
    let r : Response := .success 0 [34, 34]
    let after : List Action := [.peer 0 (.send (.packet (.response r))), .turn (.dispatcher 0), .turn (.caller 0)]
    let s := (ofConfig {}).run before
    let asked := s.perform .askLiveness
    let final := asked.run after
    (s.client.released = false ∧ (∀ i, handedOut i before (ofConfig {}) < 2 ^ 32) ∧ (∀ a ∈ after, a ≠ .abort 0) ∧
      punctual 0 after asked = true ∧ s.pingsOver? = some 0) ∧ r.IsLifeSign ∧
      EndsAt 0 .liveness 0 (.liveness true) final ∧ ∃ x, final.board.call? ⟨0, 0⟩ = some x ∧ x.isOpen = false := by
  intro before r after s asked final
  have hr : s.client.released = false := by decide +kernel
  have hids (i : Nat) : handedOut i before (ofConfig {}) < 2 ^ 32 :=
    Nat.lt_of_le_of_lt (handedOut_le i before _) (by decide)
  have hstays : ∀ a ∈ after, a ≠ .abort 0 := by simp [after]
  have htime : punctual 0 after asked = true := by decide +kernel
  have hover : s.pingsOver? = some 0 := by decide +kernel
  have hsign : r.IsLifeSign := ⟨rfl, "", by rfl⟩
  have hconnection : s.connections[0]?.map (fun c => (c.generation.nextId, c.generation.table.calls.length)) =
      some (0, 0) := by decide +kernel
  have hverdict : firstVerdict? 0 0 after asked = some (0, .ok r) := by decide +kernel
  have hgone : final.waitsFor? 0 = none := by decide +kernel
  obtain ⟨c, -, hc, -, hcases, -, hleft⟩ := (liveness_answered {} before after hr hids hstays htime).2 0 hover
  rw [show s.connections[0]? = some c from hc] at hconnection
  obtain ⟨hid, hlength⟩ := Prod.mk.inj (Option.some.inj hconnection)
  rw [hid, hlength] at hcases
  rw [hlength] at hleft
  refine ⟨⟨hr, hids, hstays, htime, hover⟩, hsign, ?_, hleft hgone⟩
  rcases hcases with ⟨hnone, -⟩ | ⟨m, o, alive, ⟨heq, -⟩ | ⟨-, -, hle⟩, -, hend, halive⟩
  · cases hverdict.symm.trans hnone
  · cases hverdict.symm.trans heq
    rw [halive.mpr ⟨r, rfl, hsign⟩] at hend
    exact hend
  · exact absurd (hle 0 (.ok r) hverdict) (by decide +kernel)

end Session

end RemoteCall
