import RemoteCall.Proofs.Session.Agreement
import RemoteCall.Proofs.Session.Course

/-!
# Where requests come from

All requests of a client go through one place, whichever façade they come from. It gives the connection in use, takes
the next id of that connection and writes to its link, without a pause in between. So what a far end receives was
written while its link was in use, and the ids on a link grow.

* `sent` and `received`: what a run writes over a connection, and what the far end takes from it.
* `written_request`: a step that writes a request writes that alone, over the connection in use.
* `received_prefix`: what is received is what was sent, in the same order, up to some place.
* `requests_received`: every request that a far end receives was written over the connection in use, and its id is
  larger than all before it.
-/

namespace RemoteCall.Session

open Switchboard (Counted)

section Defs

/-- What was written over a connection and not read yet. -/
def outbound (i : Nat) (s : Session) : List Packet :=
  match s.connections[i]? with
  | some c => c.link.outbound
  | none => []

/-- The packets that a step writes over a connection: those behind what was there before. -/
def written (i : Nat) (a : Action) (s : Session) : List Packet :=
  ((s.perform a).outbound i).drop (s.outbound i).length

/-- The packet that the far end of a connection takes in a step, if it takes one. -/
def taken? (i : Nat) (a : Action) (s : Session) : Option Packet :=
  match s.peerAct? a, s.connections[i]? with
  | some (j, act), some c => if j = i then c.link.taken? act else none
  | _, _ => none

/-- The packets that a run writes over a connection, each with the session in which it was written. -/
def sent (i : Nat) : List Action → Session → List (Session × Packet)
  | [], _ => []
  | a :: actions, s => (s.written i a).map (Prod.mk s) ++ sent i actions (s.perform a)

/-- The packets that the far end of a connection takes in a run. -/
def received (i : Nat) : List Action → Session → List Packet
  | [], _ => []
  | a :: actions, s => (s.taken? i a).toList ++ received i actions (s.perform a)

/-- The ids of the requests among some packets. -/
def requestIds (packets : List Packet) : List UInt32 := (packets.filterMap Packet.request?).map Request.id

/-- A request is written over a connection: it is the one in use, active and writable, and the request has its next
id. -/
def Writes (i : Nat) (r : Request) (s : Session) : Prop :=
  ∃ (c : Connection) (f : Facade) (method : String) (args : List Json) (o : Outgoing),
    s.client.installed = some i ∧ s.connections[i]? = some c ∧ c.link.active = true ∧ c.link.isWritable = true ∧
      f.outgoing method args = .ok o ∧ r = o.request c.generation.nextId

end Defs

variable {s s' : Session} {i n : Nat} {c c' : Connection} {a : Action} {actions : List Action} {r : Request}

theorem outbound_of_getElem? (hc : s.connections[i]? = some c) : s.outbound i = c.link.outbound := by
  simp [outbound, hc]

theorem outbound_of_none (hc : s.connections[i]? = none) : s.outbound i = [] := by simp [outbound, hc]

theorem taken?_of_act (hc : s.connections[i]? = some c) {act : Memory.Link.PeerAct}
    (hp : s.peerAct? a = some (i, act)) : s.taken? i a = c.link.taken? act := by
  simp [taken?, hc, hp]

theorem taken?_of_not_act (hp : ∀ act, s.peerAct? a ≠ some (i, act)) : s.taken? i a = none := by
  unfold taken?
  split
  · rename_i j act c hact hc
    split
    · rename_i hji
      exact absurd (hji ▸ hact) (hp act)
    · rfl
  · rfl

/-! ## One step -/

/-- What a step does to the packets that were written over a connection: the far end takes the first one or none, or
is given up, or packets are added at the end. -/
theorem outbound_perform (i : Nat) (a : Action) (s : Session) :
    (s.outbound i = (s.taken? i a).toList ++ (s.perform a).outbound i ∧ s.written i a = []) ∨
      (s.taken? i a = none ∧ (s.perform a).outbound i = s.outbound i ++ s.written i a) ∨
      (s.taken? i a = none ∧ s.written i a = [] ∧
        ∃ c, (s.perform a).connections[i]? = some c ∧ c.link.peerHeld = false) := by
  cases hc : s.connections[i]? with
  | none =>
    have hnone := outbound_of_none hc
    have htaken : s.taken? i a = none := by
      unfold taken?
      rw [hc]
      split <;> simp_all
    refine .inr (.inl ⟨htaken, ?_⟩)
    rw [written, hnone]
    rfl
  | some c =>
    have hold := outbound_of_getElem? hc
    obtain ⟨c', hc', hprogress⟩ := progress hc a
    have hnew := outbound_of_getElem? hc'
    have hadded {ps : List Packet} (htaken : s.taken? i a = none)
        (h : c'.link.outbound = c.link.outbound ++ ps) :
        s.taken? i a = none ∧ (s.perform a).outbound i = s.outbound i ++ s.written i a := by
      refine ⟨htaken, ?_⟩
      rw [written, hnew, hold, h, List.drop_left]
    cases hprogress with
    | acted act hp heq =>
      subst heq
      rw [taken?_of_act hc hp, written, hold, hnew]
      rcases Memory.Link.act_cases act c.link with ⟨-, h⟩ | ⟨hgone, htaken, hempty⟩
      · refine .inl ⟨h, List.drop_eq_nil_of_le ?_⟩
        exact (Memory.Link.outbound_act act c.link).length_le
      · refine .inr (.inr ⟨htaken, ?_, _, hc', hgone⟩)
        rw [hempty, List.drop_nil]
    | turned hp ha heq =>
      obtain ⟨ps, hps, -⟩ := (Connection.wrote_dispatch s.now c).outbound
      exact .inr (.inl (hadded (taken?_of_not_act (by simp [hp])) (heq ▸ hps)))
    | sent hp hi ho hcarried =>
      have htaken : s.taken? i a = none := taken?_of_not_act (by simp [hp])
      obtain ⟨-, -, hsend⟩ := Connection.send_writes s.now _ c
      rw [← hcarried.outbound] at hsend
      rcases hsend with h | h
      · exact .inr (.inl (hadded htaken (by rw [h, List.append_nil])))
      · exact .inr (.inl (hadded htaken h))
    | carried hp hcarried =>
      have hsame := hcarried.outbound.trans (List.append_nil _).symm
      exact .inr (.inl (hadded (taken?_of_not_act hp) hsame))

/-- A connection whose next id moved on has handed out one id. -/
theorem advance_of_nextId (hc : s.connections[i]? = some c) (hc' : s'.connections[i]? = some c')
    (hnext : c'.generation.nextId = c.generation.nextId + 1) : Switchboard.advance i s.board s'.board = 1 := by
  have hne : c.generation.nextId + 1 ≠ c.generation.nextId := by
    intro heq
    have hval := congrArg UInt32.toNat heq
    have hlt := c.generation.nextId.toNat_lt
    rw [UInt32.toNat_add, UInt32.toNat_one] at hval
    omega
  simp [Switchboard.advance, Switchboard.nextId?, board, boardOf, hc, hc', hnext, hne]

/-- A step writes no request, or it writes one over the connection that `channel` gives and nothing else, and the ids
move on. -/
theorem written_cases (i : Nat) (a : Action) (s : Session) :
    (∀ p ∈ s.written i a, p.request? = none) ∨
      ∃ (c : Connection) (f : Facade) (method : String) (args : List Json) (o : Outgoing),
        s.channel = .ok i ∧ s.connections[i]? = some c ∧ f.outgoing method args = .ok o ∧
          s.written i a = [.request (o.request c.generation.nextId)] ∧
          Switchboard.advance i s.board (s.perform a).board = 1 := by
  cases hc : s.connections[i]? with
  | none =>
    left
    have hempty : s.written i a = [] := by
      rw [written, outbound_of_none hc]
      cases hc' : (s.perform a).connections[i]? with
      | none => rw [outbound_of_none hc', List.drop_nil]
      | some c' => rw [outbound_of_getElem? hc', (fresh_perform hc hc').outbound, List.drop_nil]
    simp [hempty]
  | some c =>
    have hold := outbound_of_getElem? hc
    obtain ⟨c', hc', hprogress⟩ := progress hc a
    have hnew := outbound_of_getElem? hc'
    have hadded {ps : List Packet} (h : c'.link.outbound = c.link.outbound ++ ps) : s.written i a = ps := by
      rw [written, hnew, hold, h, List.drop_left]
    cases hprogress with
    | acted act hp heq =>
      left
      have hempty : s.written i a = [] := by
        rw [written, hold, hnew, heq]
        exact List.drop_eq_nil_of_le (Memory.Link.outbound_act act c.link).length_le
      simp [hempty]
    | turned hp ha heq =>
      obtain ⟨ps, hps, hno⟩ := (Connection.wrote_dispatch s.now c).outbound
      rw [hadded (heq ▸ hps)]
      exact .inl hno
    | @sent f method args o hp hi ho hcarried =>
      obtain ⟨-, -, hsend⟩ := Connection.send_writes s.now o c
      rw [← hcarried.outbound] at hsend
      rcases hsend with h | h
      · left
        rw [hadded (h.trans (List.append_nil _).symm)]
        simp
      · have hnext := (c.send_cases s.now o).1
        rw [← hcarried.nextId] at hnext
        exact .inr ⟨c, f, method, args, o, hi, rfl, ho, hadded h, advance_of_nextId hc hc' hnext⟩
    | carried hp hcarried =>
      left
      rw [hadded (hcarried.outbound.trans (List.append_nil _).symm)]
      simp

/-- A step writes no request, or it writes one over the connection in use and nothing else, and the ids move on. -/
theorem written_request (i : Nat) (a : Action) (s : Session) :
    (∀ p ∈ s.written i a, p.request? = none) ∨
      ∃ r, s.written i a = [.request r] ∧ s.Writes i r ∧ Switchboard.advance i s.board (s.perform a).board = 1 := by
  rcases written_cases i a s with hno | ⟨c, f, method, args, o, hchannel, hc, ho, heq, hadvance⟩
  · exact .inl hno
  · obtain ⟨-, hinstalled, d, hd, hactive, hwritable⟩ := channel_eq_ok_iff.mp hchannel
    rw [hc] at hd
    cases hd
    exact .inr ⟨_, heq, ⟨c, f, method, args, o, hinstalled, hc, hactive, hwritable, ho, rfl⟩, hadvance⟩

/-! ## Runs -/

theorem packets_sent_cons (i : Nat) (a : Action) (actions : List Action) (s : Session) :
    (sent i (a :: actions) s).map Prod.snd = s.written i a ++ (sent i actions (s.perform a)).map Prod.snd := by
  have hwritten : ((s.written i a).map (Prod.mk s)).map Prod.snd = s.written i a := by
    rw [List.map_map]
    exact List.map_id _
  rw [sent, List.map_append, hwritten]

/-- Nothing is received any more when the far end was given up. -/
theorem received_of_gone (hc : s.connections[i]? = some c) (hp : c.link.peerHeld = false) (actions : List Action) :
    received i actions s = [] := by
  induction actions generalizing s c with
  | nil => rfl
  | cons a actions ih =>
    obtain ⟨c', hc', hprogress⟩ := progress hc a
    have htaken : s.taken? i a = none := by
      cases hprogress with
      | acted act hact heq => rw [taken?_of_act hc hact, Memory.Link.taken?_of_gone hp]
      | turned hact ha heq => exact taken?_of_not_act (by simp [hact])
      | sent hact hi ho hcarried => exact taken?_of_not_act (by simp [hact])
      | carried hact hcarried => exact taken?_of_not_act hact
    rw [received, htaken, ih hc' (hprogress.onward.gone hp)]
    rfl

/-- What a far end receives in a run is what was there and what the run sends, in that order, up to some place. -/
theorem received_prefix (i : Nat) (actions : List Action) (s : Session) :
    received i actions s <+: s.outbound i ++ (sent i actions s).map Prod.snd := by
  induction actions generalizing s with
  | nil => exact List.nil_prefix
  | cons a actions ih =>
    rw [received, packets_sent_cons]
    rcases outbound_perform i a s with ⟨htaken, hnone⟩ | ⟨hnone, hadded⟩ | ⟨hnone, -, c, hc, hgone⟩
    · rw [htaken, hnone, List.nil_append, List.append_assoc]
      exact (List.prefix_append_right_inj _).mpr (ih (s.perform a))
    · rw [hnone, Option.toList_none, List.nil_append, ← List.append_assoc, ← hadded]
      exact ih (s.perform a)
    · rw [hnone, received_of_gone hc hgone]
      exact List.nil_prefix

/-- Each packet that is sent in a run was written in one of its steps. -/
theorem exists_of_sent {t : Session} {p : Packet} (h : (t, p) ∈ sent i actions s) :
    ∃ first a rest, actions = first ++ a :: rest ∧ t = s.run first ∧ p ∈ t.written i a := by
  induction actions generalizing s with
  | nil => cases h
  | cons a actions ih =>
    rw [sent, List.mem_append] at h
    rcases h with hhere | hlater
    · obtain ⟨q, hq, heq⟩ := List.mem_map.mp hhere
      cases heq
      exact ⟨[], a, actions, rfl, rfl, hq⟩
    · obtain ⟨first, b, rest, hactions, ht, hp⟩ := ih hlater
      exact ⟨a :: first, b, rest, by rw [hactions]; rfl, ht, hp⟩

theorem requestIds_append (ps qs : List Packet) : requestIds (ps ++ qs) = requestIds ps ++ requestIds qs := by
  rw [requestIds, List.filterMap_append, List.map_append]
  rfl

theorem requestIds_of_none {ps : List Packet} (h : ∀ p ∈ ps, p.request? = none) : requestIds ps = [] := by
  rw [requestIds, List.filterMap_eq_nil_iff.mpr h]
  rfl

/-- As long as the ids do not begin again, the ids of the requests that a run sends over a connection grow, from the
next id of the connection on. -/
theorem sorted_sent (h : Counted i n s.board) (hn : n + handedOut i actions s < 2 ^ 32) :
    (requestIds ((sent i actions s).map Prod.snd)).Pairwise (· < ·) ∧
      ∀ id ∈ requestIds ((sent i actions s).map Prod.snd), n ≤ id.toNat := by
  induction actions generalizing s n with
  | nil => exact ⟨List.Pairwise.nil, nofun⟩
  | cons a actions ih =>
    rw [handedOut, ← Nat.add_assoc] at hn
    have hone : n + handedOut i [a] s < 2 ^ 32 := Nat.lt_of_le_of_lt (Nat.le_add_right _ _) hn
    have hstep := counted_run h [a] hone
    obtain ⟨hsorted, hlow⟩ := ih hstep hn
    rw [packets_sent_cons, requestIds_append]
    rcases written_request i a s with hno | ⟨r, heq, ⟨c, -, -, -, o, -, hc, -, -, -, hr⟩, hadvance⟩
    · rw [requestIds_of_none hno, List.nil_append]
      exact ⟨hsorted, fun id hid => Nat.le_trans (Nat.le_add_right _ _) (hlow id hid)⟩
    · have hid : requestIds [.request r] = [c.generation.nextId] := by rw [hr]; rfl
      have hnext : c.generation.nextId.toNat = n := h.next c hc
      have hmore : handedOut i [a] s = 1 := by rw [handedOut, hadvance]; rfl
      rw [heq, hid, List.singleton_append]
      rw [hmore] at hlow
      refine ⟨List.pairwise_cons.mpr ⟨?_, hsorted⟩, ?_⟩
      · intro id hid'
        have hle := hlow id hid'
        rw [UInt32.lt_iff_toNat_lt]
        omega
      · intro id hid'
        rcases List.mem_cons.mp hid' with rfl | hid'
        · exact Nat.le_of_eq hnext.symm
        · exact Nat.le_trans (Nat.le_add_right _ _) (hlow id hid')

/-! ## Main statement -/

/-- **Every request goes over the connection in use, and the ids on a link grow.** What a far end receives is what was
sent, in the same order and up to some place. Each request in it was written in a step of the run, while the connection
was in use, active and writable. If fewer than 2³² ids are handed out on the connection, each request has a larger id
than all that were received before it. -/
theorem requests_received (config : Config) (codec : Codec) (actions : List Action) (i : Nat) :
    let start := ofConfig config codec
    received i actions start <+: (sent i actions start).map Prod.snd ∧
      (∀ (t : Session) (r : Request), (t, .request r) ∈ sent i actions start →
        t.Writes i r ∧ ∃ first a rest, actions = first ++ a :: rest ∧ t = start.run first ∧
          t.written i a = [.request r]) ∧
      (handedOut i actions start < 2 ^ 32 → (requestIds (received i actions start)).Pairwise (· < ·)) := by
  intro start
  have hfront : received i actions start <+: (sent i actions start).map Prod.snd := by
    have h := received_prefix i actions start
    rwa [outbound_of_none (s := start) rfl, List.nil_append] at h
  refine ⟨hfront, ?_, ?_⟩
  · intro t r hsent
    obtain ⟨first, a, rest, hactions, ht, hp⟩ := exists_of_sent hsent
    rcases written_request i a t with hno | ⟨r', heq, hwrites, -⟩
    · cases hno _ hp
    · rw [heq, List.mem_singleton] at hp
      cases hp
      exact ⟨hwrites, first, a, rest, hactions, ht, heq⟩
  · intro hids
    obtain ⟨hsorted, -⟩ := sorted_sent (counted_ofConfig i config codec) (by rwa [Nat.zero_add])
    obtain ⟨rest, hrest⟩ := hfront
    rw [← hrest, requestIds_append] at hsorted
    exact (List.pairwise_append.mp hsorted).1

/-- Two calls through a façade that was made before the connection, of which the far end reads both requests. -/
theorem two_requests_received :
    let actions : List Action := [.commandFacade, .connect, .connect, .call 0 "ping" [], .call 0 "ping" [],
      .peer 1 .read, .peer 1 .read]
    let start := ofConfig {}
    handedOut 1 actions start < 2 ^ 32 ∧ requestIds (received 1 actions start) = [0, 1] ∧
      (requestIds (received 1 actions start)).Pairwise (· < ·) := by
  intro actions start
  have hids : handedOut 1 actions start < 2 ^ 32 := Nat.lt_of_le_of_lt (handedOut_le 1 actions start) (by decide)
  exact ⟨hids, by decide +kernel, (requests_received {} .json actions 1).2.2 hids⟩

end RemoteCall.Session
