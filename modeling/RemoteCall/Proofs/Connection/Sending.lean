import RemoteCall.Proofs.Connection.Turns
import RemoteCall.Proofs.Wire.Bodies
import RemoteCall.Socket.Stream

/-!
# Sending over a channel

A channel is a handle with the state of its connection; the handle is the near end of a link in memory, or a connection
over a socket. A request that cannot be sent leaves the handle as it is and spends its id.

* `Handle.Refuses`: why a packet cannot be written.
* `Channel.Refuses`: why a request that has got its id cannot be sent.
* `Generation.Spent`: one id was handed out, and all calls are as they were.
* `Channel.send_of_refuses`, `Channel.refuses_of_send`: what comes of a request that cannot be sent.
* `Connection.send_channel`: sending over a connection is sending over its channel.
-/

namespace RemoteCall

open Pending (Ticket)

section Defs

/-- What a call is written to. -/
inductive Handle where
  /-- The near end of a link in memory. -/
  | memory (l : Memory.Link)
  /-- A connection over a socket. -/
  | socket (s : Socket.Stream)

namespace Handle

/-- Writes a packet. -/
def write (p : Packet) : Handle → Except CallError Unit × Handle
  | memory l => ((l.write p).1, memory (l.write p).2)
  | socket s => ((s.write p).1, socket (s.write p).2)

/-- Why a packet cannot be written. -/
inductive Refuses (p : Packet) : Handle → CallError → Prop
  | ended {l : Memory.Link} (ha : l.active = false) : Refuses p (memory l) .connectionClosed
  | failing {l : Memory.Link} (ha : l.active = true) (hf : l.failWrites = true) :
    Refuses p (memory l) (.stream .writeFailed)
  | peerGone {l : Memory.Link} (ha : l.active = true) (hf : l.failWrites = false) (hp : l.peerHeld = false) :
    Refuses p (memory l) .connectionClosed
  | shut {s : Socket.Stream} (ha : s.active = false) : Refuses p (socket s) .connectionClosed
  | tooLarge {s : Socket.Stream} (ha : s.active = true) (hp : Frame.maxBody < p.body.length) :
    Refuses p (socket s) (.frameTooLarge p.body.length Frame.maxBody)

end Handle

/-- The calls that stand in a table, in their order. -/
def Pending.Table.standing (t : Pending.Table) : List Pending.Call := t.calls.filter Pending.Call.isOpen

/-- One id was handed out, and all calls are as they were. -/
structure Generation.Spent (g g' : Generation) : Prop where
  number : g'.number = g.number
  nextId : g'.nextId = g.nextId + 1
  standing : g'.table.standing = g.table.standing
  kept : ∀ (n : Ticket) (c : Pending.Call), g.table.calls[n]? = some c → g'.table.calls[n]? = some c

/-- What a call is sent over: a handle, and the state of its connection. -/
structure Channel where
  handle : Handle
  generation : Generation

namespace Channel

/-- Sends a request under the next id. An answered call is registered first, and its call is taken out again if the
request cannot be written. -/
def send (now : Nat) (o : Outgoing) (ch : Channel) : Except CallError (Option Ticket) × Channel :=
  let (id, generation) := ch.generation.takeId
  let packet := Packet.request (o.request id)
  match o.ack with
  | .no =>
    let (r, handle) := ch.handle.write packet
    (r.map fun _ => none, { handle, generation })
  | .yes =>
    match generation.onTable (Pending.Table.register now id o.timeoutMs) with
    | (.error e, generation) => (.error e, { ch with generation })
    | (.ok ticket, generation) =>
      match ch.handle.write packet with
      | (.ok _, handle) => (.ok (some ticket), { handle, generation })
      | (.error e, handle) => (.error e, { handle, generation := (generation.onTable (Pending.Table.cancel id)).2 })

/-- Why a request with an id cannot be sent: the id is taken, if the call is to be answered, or else the request
cannot be written. -/
inductive Refuses (o : Outgoing) (ch : Channel) : CallError → Prop
  | taken (hack : o.ack = .yes) (hid : ch.generation.table.holds ch.generation.nextId = true) :
    Refuses o ch (.duplicateId ch.generation.nextId)
  | unwritten {e : CallError} (hid : o.ack = .yes → ch.generation.table.holds ch.generation.nextId = false)
    (hw : ch.handle.Refuses (.request (o.request ch.generation.nextId)) e) : Refuses o ch e

end Channel

/-- The channel of a connection. -/
def Connection.channel (c : Connection) : Channel := ⟨.memory c.link, c.generation⟩

end Defs

/-! ## Writing -/

namespace Handle

variable {h : Handle} {p : Packet} {e : CallError}

/-- A packet that cannot be written leaves the handle as it is. -/
theorem write_of_refuses (hr : h.Refuses p e) : h.write p = (.error e, h) := by
  cases hr with
  | ended ha => simp [write, Memory.Link.write, ha]
  | failing ha hf => simp [write, Memory.Link.write, ha, hf]
  | peerGone ha hf hp => simp [write, Memory.Link.write, ha, hf, hp]
  | shut ha => simp [write, Socket.Stream.write, ha]
  | tooLarge ha hp => simp [write, Socket.Stream.write, ha, Frame.encode_eq_error_iff.mpr ⟨hp, rfl⟩]

theorem refuses_of_write (hw : (h.write p).1 = .error e) : h.Refuses p e := by
  cases h with
  | memory l =>
    simp only [write, Memory.Link.write] at hw
    cases ha : l.active with
    | false =>
      simp only [ha] at hw
      cases hw
      exact .ended ha
    | true =>
      cases hf : l.failWrites with
      | true =>
        simp only [ha, hf] at hw
        cases hw
        exact .failing ha hf
      | false =>
        cases hp : l.peerHeld with
        | false =>
          simp only [ha, hf, hp] at hw
          cases hw
          exact .peerGone ha hf hp
        | true =>
          simp only [ha, hf, hp] at hw
          cases hw
  | socket s =>
    simp only [write, Socket.Stream.write] at hw
    cases ha : s.active with
    | false =>
      simp only [ha] at hw
      cases hw
      exact .shut ha
    | true =>
      simp only [ha] at hw
      cases hf : Frame.encode p with
      | ok frame => simp [hf] at hw
      | error e' =>
        obtain ⟨hp, rfl⟩ := Frame.encode_eq_error_iff.mp hf
        simp only [hf] at hw
        cases hw
        exact .tooLarge ha hp

end Handle

/-! ## Sending -/

namespace Generation

variable {g : Generation}

theorem spent_takeId (g : Generation) : g.Spent g.takeId.2 := ⟨rfl, rfl, rfl, fun _ _ h => h⟩

/-- A call that is registered under a free id and taken out again has been the only one with that id. -/
theorem spent_register_cancel (hid : g.table.holds g.nextId = false) (now timeoutMs : Nat) :
    let registered := (g.takeId.2.onTable (Pending.Table.register now g.nextId timeoutMs)).2
    g.Spent (registered.onTable (Pending.Table.cancel g.nextId)).2 := by
  intro registered
  have hcalls : (registered.onTable (Pending.Table.cancel g.nextId)).2.table.calls = g.table.calls ++
      [{ Pending.Table.newCall now g.nextId timeoutMs with exit := some .cancelled }] := by
    have hold := congrArg Pending.Table.calls
      (Pending.Table.leave_eq_self (e := .cancelled) (Pending.Table.not_id_of_not_holds hid))
    have hnew : (Pending.Table.newCall now g.nextId timeoutMs).leaveIf (fun x => x.id == g.nextId) .cancelled =
        { Pending.Table.newCall now g.nextId timeoutMs with exit := some .cancelled } :=
      Pending.Call.leaveIf_of_open rfl (by simp [Pending.Table.newCall])
    have hregistered : registered.table.calls =
        g.table.calls ++ [Pending.Table.newCall now g.nextId timeoutMs] := by
      simp [registered, onTable, takeId, Pending.Table.register_of_not_holds hid]
    show registered.table.calls.map _ = _
    rw [hregistered, List.map_append, List.map_singleton, hnew]
    exact congrArg (· ++ [_]) hold
  refine ⟨rfl, rfl, ?_, fun n c hc => ?_⟩
  · rw [Pending.Table.standing, hcalls, List.filter_append, List.filter_cons_of_neg (by simp [Pending.Call.isOpen]),
      List.filter_nil, List.append_nil]
    rfl
  · rw [hcalls, List.getElem?_append_left (List.getElem?_eq_some_iff.mp hc).1]
    exact hc

end Generation

namespace Channel

variable {ch : Channel} {o : Outgoing} {e : CallError} {now : Nat}

/-- A request that cannot be sent spends its id and leaves the handle as it is. -/
theorem send_of_refuses (h : ch.Refuses o e) (now : Nat) :
    ∃ generation, ch.generation.Spent generation ∧ ch.send now o = (.error e, { ch with generation }) := by
  cases h with
  | taken hack hid =>
    refine ⟨ch.generation.takeId.2, ch.generation.spent_takeId, ?_⟩
    simp [send, hack, Generation.takeId, Generation.onTable, Pending.Table.register_of_holds hid]
  | unwritten hid hw =>
    have hwrite := Handle.write_of_refuses hw
    cases hack : o.ack with
    | no =>
      refine ⟨ch.generation.takeId.2, ch.generation.spent_takeId, ?_⟩
      simp [send, hack, Generation.takeId, hwrite, Except.map]
    | yes =>
      refine ⟨_, Generation.spent_register_cancel (hid hack) now o.timeoutMs, ?_⟩
      simp [send, hack, Generation.takeId, Generation.onTable, Pending.Table.register_of_not_holds (hid hack), hwrite]

theorem refuses_of_send (h : (ch.send now o).1 = .error e) : ch.Refuses o e := by
  cases hack : o.ack with
  | no =>
    refine .unwritten (fun hyes => ?_) (Handle.refuses_of_write ?_)
    · rw [hack] at hyes
      cases hyes
    · simp only [send, hack, Generation.takeId] at h
      cases hw : (ch.handle.write (.request (o.request ch.generation.nextId))).1 with
      | ok _ => simp [hw, Except.map] at h
      | error e' =>
        simp only [hw, Except.map] at h
        cases h
        rfl
  | yes =>
    cases hid : ch.generation.table.holds ch.generation.nextId with
    | true =>
      simp only [send, hack, Generation.takeId, Generation.onTable, Pending.Table.register_of_holds hid] at h
      cases h
      exact .taken hack hid
    | false =>
      simp only [send, hack, Generation.takeId, Generation.onTable, Pending.Table.register_of_not_holds hid] at h
      refine .unwritten (fun _ => hid) (Handle.refuses_of_write ?_)
      split at h
      · cases h
      · rename_i heq
        cases h
        rw [heq]

end Channel

/-- Sending over a connection is sending over its channel. -/
theorem Connection.send_channel (now : Nat) (o : Outgoing) (c : Connection) :
    ∃ link generation, c.channel.send now o = ((c.send now o).1, ⟨.memory link, generation⟩) ∧
      (c.send now o).2 = { c with link, generation } := by
  unfold Connection.send Channel.send
  cases o.ack with
  | no => exact ⟨_, _, rfl, rfl⟩
  | yes =>
    cases hid : c.generation.table.holds c.generation.nextId with
    | true =>
      refine ⟨c.link, c.generation.takeId.2, ?_⟩
      simp [channel, Generation.takeId, onTable, Generation.onTable, Pending.Table.register_of_holds hid]
    | false =>
      simp only [channel, Generation.takeId, onTable, Generation.onTable, Pending.Table.register_of_not_holds hid,
        write, Handle.write]
      rcases hw : c.link.write (.request (o.request c.generation.nextId)) with ⟨_ | _, link⟩
      all_goals exact ⟨_, _, rfl, rfl⟩

end RemoteCall
