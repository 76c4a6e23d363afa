import RemoteCall.Proofs.Session.Reconnection

/-!
# Connections whose far end is lively

The far end of a connection is there, and answers each ping at once with a sign of life. As long as the connection stays
in use its dispatcher runs, and each ping of a tick is answered without time passing, whether the link is writable or not.

* `LivelyAt` and `Lively`: what the far end does in a step and in a run. `actsLively_serve`: a far end does so that
  answers each request with a sign of life.
* `Sturdy`: a connection that runs and lets packets be written. `Sturdy.goes`: it stays so.
* `Underway`: a ping whose request or response is on its way. `Underway.goes`: it stays so, or is answered.
* `Hale` and `Thrives`: the invariant, which is kept by each step (`Thrives.perform`).
* `thrives_run`: what a connection and the pings over it are after a run.
-/

namespace RemoteCall

open Pending (Call Table Outcome)

section Defs

/-- What comes in at a link when its far end does something. -/
def Memory.Link.arriving (act : Memory.Link.PeerAct) (l : Memory.Link) : List Memory.Inbound :=
  (l.act act).inbound.drop l.inbound.length

/-- What a far end answers that serves. -/
def Memory.Link.answer? (handler : Memory.Link.Handler) : Packet → Option Memory.Inbound
  | .request q => (handler q).map fun r => .packet (.response r)
  | .ping .yes => some (.packet .pong)
  | _ => none

namespace Session

/-- A tick waits for the answer to a ping over a connection, and this is the id of the ping. -/
def Awaited (i : Nat) (id : UInt32) (s : Session) : Prop :=
  ∃ j w x, s.Probes j w ∧ w.connection = i ∧ s.board.call? w = some x ∧ x.id = id

/-- The far end of a connection does something and is lively: packets can be written as before, no fault comes in, only
what was asked is answered, and no ping is taken without an answer. The answer to a ping is a sign of life. -/
structure ActsLively (i : Nat) (act : Memory.Link.PeerAct) (c : Connection) (s : Session) : Prop where
  takes : c.link.takesPackets = true → (c.link.act act).takesPackets = true
  packets : ∀ b ∈ c.link.arriving act, ∃ p, b = .packet p
  asked : ∀ r, .packet (.response r) ∈ c.link.arriving act → r.id < c.generation.nextId
  signs : ∀ r, .packet (.response r) ∈ c.link.arriving act → s.Awaited i r.id → r.IsLifeSign
  answers : ∀ id, .request (pingCall.request id) ∈ c.link.outbound →
    .request (pingCall.request id) ∈ (c.link.act act).outbound ∨
      ∃ r, .packet (.response r) ∈ c.link.arriving act ∧ r.id = id ∧ r.IsLifeSign

/-- In a step the far end of a connection is lively. Time passes only when it has answered all pings, and what it has
sent was taken in. -/
structure LivelyAt (i : Nat) (a : Action) (s : Session) : Prop where
  acts : ∀ act c, s.peerAct? a = some (i, act) → s.connections[i]? = some c → s.ActsLively i act c
  atOnce : ∀ ms c, a = .pass ms → s.connections[i]? = some c →
    c.link.inbound = [] ∧ ∀ id, .request (pingCall.request id) ∉ c.link.outbound

/-- In a run the far end of a connection is lively. -/
def Lively (i : Nat) : List Action → Session → Prop
  | [], _ => True
  | a :: actions, s => s.LivelyAt i a ∧ Lively i actions (s.perform a)

/-- A connection runs, packets can be written, no fault has come in, and only what was asked was answered. -/
structure Sturdy (c : Connection) : Prop where
  running : c.running = true
  takes : c.link.takesPackets = true
  packets : ∀ b ∈ c.link.inbound, ∃ p, b = .packet p
  asked : ∀ r, .packet (.response r) ∈ c.link.inbound → r.id < c.generation.nextId

/-- The ping with an id is on its way: its request was not read yet, or the response to it was not taken in yet. -/
inductive OnItsWay (id : UInt32) (l : Memory.Link) : Prop
  | written (h : .request (pingCall.request id) ∈ l.outbound)
  | answered {r : Response} (h : .packet (.response r) ∈ l.inbound) (hid : r.id = id)

/-- A ping stands that was written just now and is on its way. If it is answered, then with a sign of life. -/
structure Underway (now : Nat) (l : Memory.Link) (x : Call) : Prop where
  stands : x.isOpen = true
  deadline : x.deadline = now + 5000
  signs : ∀ r, .packet (.response r) ∈ l.inbound → r.id = x.id → r.IsLifeSign
  way : OnItsWay x.id l

/-- A call has left with a sign of life. -/
def Vital (x : Call) : Prop := ∃ r, x.exit = some (.resolved r) ∧ r.IsLifeSign

/-- Each ping that a tick waits for over a connection is underway or was answered with a sign of life. -/
structure Hale (i : Nat) (c : Connection) (s : Session) : Prop extends Sturdy c where
  pings : ∀ j w, s.Probes j w → w.connection = i → ∃ x, s.board.call? w = some x ∧ (Vital x ∨ Underway s.now c.link x)

/-- The connection is hale as long as it is in use. -/
def Thrives (i : Nat) (s : Session) : Prop :=
  ∀ c, s.client.installed = some i → s.connections[i]? = some c → Hale i c s

/-- What a step does to a connection that stays in use. -/
inductive Goes (a : Action) (s : Session) (i : Nat) (c c' : Connection) : Prop
  | acted (act : Memory.Link.PeerAct) (hp : s.peerAct? a = some (i, act)) (h : c' = { c with link := c.link.act act })
  | turned (ha : a = .turn (.dispatcher i)) (h : c' = c.dispatch s.now)
  /-- Packets may have been written over it. -/
  | kept (written : List Packet) (hr : c'.running = c.running)
    (hl : c'.link = { c.link with outbound := c.link.outbound ++ written })

end Session

end Defs

/-- A far end that serves answers what was written first. -/
theorem Memory.Link.act_serve {l : Memory.Link} (hpeer : l.peerHeld = true) (hreader : l.readerHeld = true)
    (handler : Memory.Link.Handler) : l.act (.serve handler) =
      { l with
        outbound := l.outbound.tail
        inbound := l.inbound ++ (l.outbound.head?.bind (answer? handler)).toList } := by
  obtain ⟨addr, active, writable, failWrites, writerHeld, _, _, outbound, inbound⟩ := l
  cases hpeer
  cases hreader
  cases outbound with
  | nil => cases writerHeld <;> simp [act, serve, take]
  | cons p rest =>
    cases p with
    | request q => cases hr : handler q <;> simp [act, serve, take, send, answer?, hr]
    | ping ack => cases ack <;> simp [act, serve, take, send, answer?]
    | _ => simp [act, serve, take, answer?]

namespace Session

variable {s s' m : Session} {i j : Nat} {act : Memory.Link.PeerAct} {a : Action} {actions : List Action}
  {c c' : Connection} {w : Waiting} {x : Call} {t : ReconnectTask} {now n : Nat}

/-! ## Far ends -/

/-- What is no act of a far end, and takes no time, is lively. -/
theorem livelyAt_of_none (hp : s.peerAct? a = none) (hpass : ∀ ms, a ≠ .pass ms) : s.LivelyAt i a where
  acts act c h := by
    rw [hp] at h
    cases h
  atOnce ms c h := absurd h (hpass ms)

theorem livelyAt_of_absent (hc : s.connections[i]? = none) (a : Action) : s.LivelyAt i a where
  acts act c _ h := by
    rw [hc] at h
    cases h
  atOnce ms c _ h := by
    rw [hc] at h
    cases h

theorem livelyAt_peer (h : ∀ c, s.connections[i]? = some c → s.ActsLively i act c) : s.LivelyAt i (.peer i act) where
  acts act c hact hc := by
    cases hact
    exact h c hc
  atOnce ms c h := by cases h

/-- A far end that leaves both queues as they are is lively. -/
theorem actsLively_of_silent (htakes : c.link.takesPackets = true → (c.link.act act).takesPackets = true)
    (hin : (c.link.act act).inbound = c.link.inbound) (hout : (c.link.act act).outbound = c.link.outbound) (i : Nat)
    (s : Session) : s.ActsLively i act c := by
  have hnone : c.link.arriving act = [] := by
    rw [Memory.Link.arriving, hin]
    exact List.drop_length
  refine ⟨htakes, ?_, ?_, ?_, fun id h => .inl (hout ▸ h)⟩
  all_goals
    rw [hnone]
    exact fun _ h => absurd h List.not_mem_nil

/-- Whether a link is writable makes no difference to whether its far end is lively. -/
theorem livelyAt_setWritable (i : Nat) (writable : Bool) (s : Session) :
    s.LivelyAt i (.peer i (.setWritable writable)) := by
  refine livelyAt_peer fun c _ => actsLively_of_silent (fun h => ?_) ?_ ?_ i s
  all_goals
    unfold Memory.Link.act
    split
  · exact h
  · exact h
  all_goals rfl

/-- A far end that answers each request with a sign of life is lively. -/
theorem actsLively_serve {handler : Memory.Link.Handler}
    (hsigns : ∀ q, ∃ r, handler q = some r ∧ r.id = q.id ∧ r.IsLifeSign) (hreader : c.link.readerHeld = true)
    (hasked : ∀ q, .request q ∈ c.link.outbound → q.id < c.generation.nextId) (i : Nat) (s : Session) :
    s.ActsLively i (.serve handler) c := by
  cases hpeer : c.link.peerHeld with
  | false =>
    have hsame : c.link.act (.serve handler) = c.link := by simp [Memory.Link.act, hpeer]
    exact actsLively_of_silent (fun h => by rw [hsame]; exact h) (congrArg _ hsame) (congrArg _ hsame) i s
  | true =>
    have hact := Memory.Link.act_serve hpeer hreader handler
    have harriving : c.link.arriving (.serve handler) =
        (c.link.outbound.head?.bind (Memory.Link.answer? handler)).toList := by
      rw [Memory.Link.arriving, hact, List.drop_left]
    have hanswer {b : Memory.Inbound} (hb : b ∈ c.link.arriving (.serve handler)) :
        ∃ p ∈ c.link.outbound, Memory.Link.answer? handler p = some b := by
      rw [harriving, Option.mem_toList] at hb
      obtain ⟨p, hp, hb⟩ := Option.bind_eq_some_iff.mp hb
      exact ⟨p, List.mem_of_mem_head? hp, hb⟩
    have hresponse {r : Response} (hr : .packet (.response r) ∈ c.link.arriving (.serve handler)) :
        ∃ q, .request q ∈ c.link.outbound ∧ r.id = q.id ∧ r.IsLifeSign := by
      obtain ⟨p, hp, hr⟩ := hanswer hr
      unfold Memory.Link.answer? at hr
      split at hr
      · rename_i q
        obtain ⟨r', hr', hsign⟩ := hsigns q
        rw [hr'] at hr
        cases hr
        exact ⟨q, hp, hsign⟩
      · cases hr
      · cases hr
    refine ⟨fun h => by rw [hact]; exact h, fun b hb => ?_, fun r hr => ?_, fun r hr _ => ?_, fun id hq => ?_⟩
    · obtain ⟨p, -, hb⟩ := hanswer hb
      unfold Memory.Link.answer? at hb
      split at hb
      · obtain ⟨r, -, rfl⟩ := Option.map_eq_some_iff.mp hb
        exact ⟨_, rfl⟩
      · cases hb
        exact ⟨_, rfl⟩
      · cases hb
    · obtain ⟨q, hq, hid, -⟩ := hresponse hr
      exact hid ▸ hasked q hq
    · obtain ⟨q, -, -, hsign⟩ := hresponse hr
      exact hsign
    · rw [hact, harriving]
      cases hout : c.link.outbound with
      | nil =>
        rw [hout] at hq
        cases hq
      | cons p rest =>
        rw [hout, List.mem_cons] at hq
        rcases hq with rfl | hq
        · obtain ⟨r, hr, hsign⟩ := hsigns (pingCall.request id)
          exact .inr ⟨r, by simp [Memory.Link.answer?, hr], hsign⟩
        · exact .inl hq

/-- Time passes while nothing is on its way. -/
theorem livelyAt_pass (h : s.connections[i]?.all (fun c => c.link.inbound.isEmpty && c.link.outbound.isEmpty) = true)
    (ms : Nat) : s.LivelyAt i (.pass ms) where
  acts act c h := by cases h
  atOnce ms' c _ hc := by
    rw [hc, Option.all_some, Bool.and_eq_true, List.isEmpty_iff, List.isEmpty_iff] at h
    exact ⟨h.1, fun id hid => by rw [h.2] at hid; cases hid⟩

/-! ## The connection in use -/

/-- The connection in use after a course was in use before with the same link, or its link is new. -/
theorem Course.inUse {kept : Prop} {E : List Event} (h : Course kept s E s') (hi : s'.client.installed = some i)
    (hc' : s'.connections[i]? = some c') :
    (∃ c, s.client.installed = some i ∧ s.connections[i]? = some c ∧ c'.link = c.link ∧ c'.running = c.running) ∨
      s.connections[i]? = none ∧ c'.running = true ∧ ∃ addr, c'.link = { addr } := by
  induction h generalizing c' with
  | aside h => exact .inl ⟨c', h.installed ▸ hi, h.connections ▸ hc', rfl, rfl⟩
  | @leave s w f hf =>
    obtain ⟨c, hc, rfl⟩ := Switchboard.exists_of_modify (b := s.board) hc'
    refine .inl ⟨c, hi, hc, ?_⟩
    split <;> exact ⟨rfl, rfl⟩
  | attempt s =>
    cases hr : s.client.connector.refusal with
    | some cause =>
      rw [connect_of_refusal hr] at hi hc'
      exact .inl ⟨c', hi, hc', rfl, rfl⟩
    | none =>
      rw [connect_of_accepted hr] at hi hc'
      obtain rfl : s.connections.length = i := Option.some.inj hi
      have hlength := length_teardownInstalled s
      rw [List.getElem?_append_right (Nat.le_of_eq hlength), hlength, Nat.sub_self] at hc'
      cases hc'
      exact .inr ⟨List.getElem?_eq_none (Nat.le_refl _), rfl, _, rfl⟩
  | disconnect s =>
    rw [client_disconnect] at hi
    cases hi
  | @trans s m s' _ _ h h' ih ih' =>
    rcases ih' hi hc' with ⟨d, hdi, hd, hlink, hrun⟩ | ⟨hnone, hnew⟩
    · rcases ih hdi hd with ⟨c, hci, hc, hlink', hrun'⟩ | ⟨hnone, hrun', addr, hlink'⟩
      · exact .inl ⟨c, hci, hc, hlink.trans hlink', hrun.trans hrun'⟩
      · exact .inr ⟨hnone, hrun.trans hrun', addr, hlink.trans hlink'⟩
    · refine .inr ⟨?_, hnew⟩
      cases hc : s.connections[i]? with
      | none => rfl
      | some c =>
        obtain ⟨d, hd, -⟩ := h.carried hc
        rw [hnone] at hd
        cases hd

/-- The connection in use after a step was in use before, or its link is new. -/
theorem inUse_perform (hi : (s.perform a).client.installed = some i) (hc' : (s.perform a).connections[i]? = some c') :
    (∃ c, s.client.installed = some i ∧ s.connections[i]? = some c ∧ Goes a s i c c') ∨
      s.connections[i]? = none ∧ c'.running = true ∧ ∃ addr, c'.link = { addr } := by
  have hsame (c : Connection) : Goes a s i c c := .kept [] rfl (by rw [List.append_nil])
  cases manner a s with
  | peer j act hp he h =>
    rw [h] at hi hc'
    obtain ⟨c, hc, rfl⟩ := Switchboard.exists_of_modify (b := s.board) hc'
    refine .inl ⟨c, hi, hc, ?_⟩
    split
    · rename_i hji
      subst hji
      exact .acted act hp rfl
    · exact hsame c
  | dispatcher j h =>
    subst h
    obtain ⟨c, hc, rfl⟩ := Switchboard.exists_of_modify (b := s.board) hc'
    refine .inl ⟨c, hi, hc, ?_⟩
    split
    · rename_i hji
      subst hji
      exact .turned rfl rfl
    · exact hsame c
  | facade hmakes hp he h => exact .inl ⟨c', h.installed ▸ hi, h.connections ▸ hc', hsame c'⟩
  | idle hp he h hs => exact .inl ⟨c', h.installed ▸ hi, h.connections ▸ hc', hsame c'⟩
  | deed hp h =>
    cases h with
    | held hasked hcourse =>
      rcases hcourse.inUse hi hc' with ⟨d, hdi, hd, hlink, hrun⟩ | ⟨hgone, hnew⟩
      · obtain ⟨c, hc⟩ : ∃ c, s.connections[i]? = some c := by
          refine ⟨_, List.getElem?_eq_getElem ?_⟩
          rw [← hasked.length]
          exact (List.getElem?_eq_some_iff.mp hd).1
        refine .inl ⟨c, hasked.steady.installed ▸ hdi, hc, ?_⟩
        obtain ⟨d', hd', hsent⟩ := hasked.connection hc
        cases hd.symm.trans hd'
        rcases hsent with rfl | ⟨f, method, args, o, -, -, rfl⟩
        · exact .kept [] hrun (by rw [hlink, List.append_nil])
        · obtain ⟨written, hwritten⟩ := c.link_send s.now o
          exact .kept written (hrun.trans (c.send_cases s.now o).2.1) (hlink.trans hwritten)
      · refine .inr ⟨?_, hnew⟩
        rw [List.getElem?_eq_none_iff] at hgone ⊢
        rwa [← hasked.length]
    | givenUp hasked hcourse heq =>
      rw [heq, client_release] at hi
      cases hi

/-! ## Its link -/

theorem inbound_act (act : Memory.Link.PeerAct) (l : Memory.Link) :
    (l.act act).inbound = l.inbound ++ l.arriving act := by
  obtain ⟨new, hnew⟩ := (Memory.Link.fed_act act l).inbound
  rw [Memory.Link.arriving, ← hnew, List.drop_left]

/-- Of the link nothing but what was written changes when a packet is dealt with. -/
theorem link_onPacket (p : Packet) (c : Connection) :
    ∃ written, (c.onPacket p).link = { c.link with outbound := c.link.outbound ++ written } := by
  have hsame : ∃ written, c.link = { c.link with outbound := c.link.outbound ++ written } :=
    ⟨[], by rw [List.append_nil]⟩
  match p with
  | .response r => exact hsame
  | .ping .yes => exact Connection.link_write .pong c.link
  | .ping .no => exact hsame
  | .pong => exact hsame
  | .request _ => exact hsame

theorem Sturdy.peerHeld (h : Sturdy c) : c.link.peerHeld = true := (Bool.and_eq_true_iff.mp h.takes).2

theorem Sturdy.active (h : Sturdy c) : c.link.active = true :=
  (Bool.and_eq_true_iff.mp (Bool.and_eq_true_iff.mp h.takes).1).1

/-- The dispatcher of a sturdy connection runs on. It takes in the first packet, and may write. -/
theorem Sturdy.dispatch (h : Sturdy c) (now : Nat) : (c.dispatch now).running = true ∧ ∃ written, (c.dispatch now).link =
    { c.link with inbound := c.link.inbound.tail, outbound := c.link.outbound ++ written } := by
  have htook := Connection.took_dispatch now c
  generalize c.dispatch now = c' at htook
  cases htook with
  | halted hr =>
    rw [h.running] at hr
    cases hr
  | @heard p rest d hr hin hd hframe =>
    have hrun : d.running = true := (congrArg Connection.running hframe).trans hr
    obtain ⟨written, hlink⟩ := link_onPacket p { c with link := { c.link with inbound := rest } }
    rw [← hd] at hlink
    refine ⟨?_, written, ?_⟩
    · split <;> exact hrun
    · rw [hin, List.tail_cons, ← hlink]
      split <;> rfl
  | ended _ hin hp ho =>
    cases hinbound : c.link.inbound with
    | nil =>
      rw [h.peerHeld] at hp
      cases hp hinbound
    | cons b rest =>
      obtain ⟨p, rfl⟩ := h.packets b (hinbound ▸ List.mem_cons_self)
      exact absurd hinbound (hin p rest)
  | beat hr hin hp ht hw => exact ⟨hr, [.ping c.settings.heartbeatAck], by rw [hin, List.tail_nil, ← hin]; rfl⟩
  | failed _ hin hp ht hw =>
    rw [Memory.Link.write_of_takesPackets h.takes] at hw
    cases hw
  | idle hr hin hp ht => exact ⟨hr, [], by rw [hin, List.append_nil, List.tail_nil, ← hin]⟩

/-- A connection stays sturdy while its far end is lively. -/
theorem Sturdy.goes (h : Sturdy c) (hgoes : Goes a s i c c') (hc : s.connections[i]? = some c) (hl : s.LivelyAt i a)
    (hid : c.generation.nextId ≤ c'.generation.nextId) : Sturdy c' := by
  have hasked {r : Response} (hr : .packet (.response r) ∈ c.link.inbound) : r.id < c'.generation.nextId :=
    UInt32.lt_of_lt_of_le (h.asked r hr) hid
  cases hgoes with
  | acted act hp hact =>
    subst hact
    have hacts := hl.acts act c hp hc
    refine ⟨h.running, hacts.takes h.takes, fun b hb => ?_, fun r hr => ?_⟩
    · rw [inbound_act, List.mem_append] at hb
      exact hb.elim (h.packets b) (hacts.packets b)
    · rw [inbound_act, List.mem_append] at hr
      exact hr.elim (h.asked r) (hacts.asked r)
  | turned ha hdispatch =>
    obtain ⟨hrun, written, hlink⟩ := h.dispatch s.now
    rw [← hdispatch] at hrun hlink
    refine ⟨hrun, by rw [hlink]; exact h.takes, fun b hb => ?_, fun r hr => ?_⟩
    · rw [hlink] at hb
      exact h.packets b (List.mem_of_mem_tail hb)
    · rw [hlink] at hr
      exact hasked (List.mem_of_mem_tail hr)
  | kept written hr hlink =>
    refine ⟨hr.trans h.running, by rw [hlink]; exact h.takes, fun b hb => ?_, fun r hr => ?_⟩
    · rw [hlink] at hb
      exact h.packets b hb
    · rw [hlink] at hr
      exact hasked hr

theorem sturdy_of_new {addr : String} (hr : c.running = true) (hl : c.link = { addr }) : Sturdy c := by
  constructor
  · exact hr
  · rw [hl]
    rfl
  · rw [hl]
    exact nofun
  · rw [hl]
    exact nofun

/-! ## Pings -/

/-- In the turn of the dispatcher a ping that is underway stays so, or the response to it is taken in. -/
theorem Underway.dispatch (h : Underway now c.link x) (hsturdy : Sturdy c) {n : Pending.Ticket}
    (hx : c.generation.table.calls[n]? = some x) (hp : x.callerPresent = true) :
    ∃ y, (c.dispatch now).generation.table.calls[n]? = some y ∧ (Vital y ∨ Underway now (c.dispatch now).link y) := by
  obtain ⟨hrun, written, hlink⟩ := hsturdy.dispatch now
  by_cases hr : ∃ r, c.response? = some r ∧ x.id = r.id
  · obtain ⟨r, hr, hid⟩ := hr
    refine ⟨_, Connection.resolved_dispatch hr hx h.stands hid now, .inl ⟨r, rfl, h.signs r ?_ hid.symm⟩⟩
    unfold Connection.response? at hr
    split at hr
    · rename_i hin
      cases hr
      rw [hin]
      exact List.mem_cons_self
    · cases hr
  · rcases Connection.call_dispatch (fun r hr' hid => hr ⟨r, hr', hid⟩) hx h.stands hp now with
      ⟨hsame, -⟩ | ⟨-, hlate⟩ | ⟨-, -, hstop⟩
    · refine ⟨x, hsame, .inr ⟨h.stands, h.deadline, fun r hr' => ?_, ?_⟩⟩
      · rw [hlink] at hr'
        exact h.signs r (List.mem_of_mem_tail hr')
      · rw [hlink]
        cases h.way with
        | written hout => exact .written (List.mem_append_left _ hout)
        | @answered r hin hid =>
          refine .answered (r := r) ?_ hid
          cases hinbound : c.link.inbound with
          | nil =>
            rw [hinbound] at hin
            cases hin
          | cons b rest =>
            rw [hinbound, List.mem_cons] at hin
            refine hin.resolve_left fun hhead => hr ⟨r, ?_, hid.symm⟩
            simp [Connection.response?, hsturdy.running, hinbound, ← hhead]
    · rw [h.deadline] at hlate
      omega
    · rw [hrun] at hstop
      cases hstop

/-- In other steps a ping that stands stays on its way. -/
theorem Underway.link (h : Underway s.now c.link x) (hgoes : Goes a s i c c') (hc : s.connections[i]? = some c)
    (hl : s.LivelyAt i a) (ha : a ≠ .turn (.dispatcher i)) (hwaits : s.Awaited i x.id) :
    Underway s.now c'.link x := by
  cases hgoes with
  | acted act hp hact =>
    subst hact
    have hacts := hl.acts act c hp hc
    refine ⟨h.stands, h.deadline, fun r hr hid => ?_, ?_⟩
    · rw [inbound_act, List.mem_append] at hr
      exact hr.elim (fun hold => h.signs r hold hid) fun hnew => hacts.signs r hnew (hid ▸ hwaits)
    · cases h.way with
      | written hout =>
        rcases hacts.answers x.id hout with hstill | ⟨r, hr, hid, -⟩
        · exact .written hstill
        · refine .answered (r := r) ?_ hid
          rw [inbound_act]
          exact List.mem_append_right _ hr
      | answered hin hid =>
        refine .answered ?_ hid
        rw [inbound_act]
        exact List.mem_append_left _ hin
  | turned hturn => exact absurd hturn ha
  | kept written hr hlink =>
    rw [hlink]
    refine ⟨h.stands, h.deadline, h.signs, ?_⟩
    cases h.way with
    | written hout => exact .written (List.mem_append_left _ hout)
    | answered hin hid => exact .answered hin hid

/-- A ping that is underway stays so, or is answered with a sign of life. -/
theorem Underway.goes (h : Underway s.now c.link x) (hsturdy : Sturdy c) (hsturdy' : Sturdy c') (hgoes : Goes a s i c c')
    (hc : s.connections[i]? = some c) (hc' : (s.perform a).connections[i]? = some c') (hs : s.board.Sound)
    (hl : s.LivelyAt i a) (hprobes : s.Probes j w) (hprobes' : (s.perform a).Probes j w) (hw : w.connection = i)
    (hx : s.board.call? w = some x) :
    ∃ y, (s.perform a).board.call? w = some y ∧ (Vital y ∨ Underway (s.perform a).now c'.link y) := by
  subst hw
  by_cases hturn : a = .turn (.dispatcher w.connection)
  · subst hturn
    obtain ⟨d, hd, hdx⟩ := Switchboard.call?_eq_some_iff.mp hx
    cases hc.symm.trans hd
    have hself := Switchboard.getElem?_modify_self (b := s.board) (f := Connection.dispatch s.now) hc
    cases hself.symm.trans hc'
    rw [board_dispatch, Switchboard.call?_modify_self (b := s.board) hc]
    exact h.dispatch hsturdy hdx (hs.present hprobes.mem_waiters hx)
  · have hstill := h.link hgoes hc hl hturn ⟨j, w, x, hprobes, rfl, hx, rfl⟩
    have hnow : (s.perform a).now = s.now := by
      rcases pass_or_beside a s with ⟨ms, rfl⟩ | hb
      · -- no time passes while a ping is on its way
        obtain ⟨hin, hout⟩ := hl.atOnce ms c rfl hc
        cases h.way with
        | written hmem => exact absurd hmem (hout _)
        | answered hmem =>
          rw [hin] at hmem
          cases hmem
      · exact hb.now
    rw [hnow]
    rcases dispatch_or_step a s with ⟨l, rfl⟩ | ⟨-, hstep⟩
    · have hne : l ≠ w.connection := fun heq => hturn (heq ▸ rfl)
      exact ⟨x, (Switchboard.call?_modify_of_ne hne).trans hx, .inr hstill⟩
    · obtain ⟨y, hy, hxy, ⟨hexit, -⟩ | ⟨-, hhalted⟩⟩ := hstep.fate hs hprobes'.mem_waiters hx h.stands
      · refine ⟨y, hy, .inr ⟨Call.isOpen_iff.mpr hexit, hxy.deadline.trans hstill.deadline, ?_, ?_⟩⟩
        · rw [hxy.id]
          exact hstill.signs
        · rw [hxy.id]
          exact hstill.way
      · rw [Switchboard.isRunning_of_getElem? (b := (s.perform a).board) hc', hsturdy'.running] at hhalted
        cases hhalted

theorem Vital.outcome? (h : Vital x) (now : Nat) : ∃ r, x.outcome? now = some (.ok r) ∧ r.IsLifeSign := by
  obtain ⟨r, hr, hsign⟩ := h
  exact ⟨r, by simp only [Call.outcome?, hr], hsign⟩

theorem Underway.outcome? {l : Memory.Link} (h : Underway now l x) : x.outcome? now = none := by
  have hdeadline := h.deadline
  rw [Call.outcome?_of_open h.stands, if_neg (by omega)]

/-! ## Ticks that wait -/

/-- A tick that waits for the answer to a ping did so before a step, or began in it and sent the ping. -/
theorem probes_of_perform (howned : s.Owned) (h : (s.perform a).Probes j w) : s.Probes j w ∨
    ∃ t m, a = .turn (.task j) ∧ s.Due j t ∧ (s.modifyTask j (ReconnectTask.takeTick s.now)).probe = (.asked w, m) := by
  obtain ⟨t', ht', hstage⟩ := h
  cases ht : s.client.tasks[j]? with
  | none =>
    obtain ⟨plan, -, rfl, -⟩ := task_of_new ht ht'
    unfold ReconnectTask.start at hstage
    split at hstage <;> cases hstage
  | some t =>
    obtain ⟨x, t'', hmove, ht'', hleft⟩ := task_perform howned ht a
    cases ht'.symm.trans ht''
    have hx : x.stage = .probing w := by
      rcases hleft with rfl | ⟨rfl, -⟩ <;> exact hstage
    cases hmove with
    | stays => exact .inl ⟨t, ht, hx⟩
    | ends => cases hx
    | retires => cases hx
    | begins hturn hdue =>
      subst hturn
      have htake := task_modifyTask ht (ReconnectTask.takeTick s.now)
      rw [← tasks_probe] at htake
      cases hprobe : (s.modifyTask j (ReconnectTask.takeTick s.now)).probe with
      | mk answer m =>
        rw [hprobe] at htake
        cases answer with
        | answered alive =>
          rw [hdue.perform_of_answered hprobe] at ht'
          obtain ⟨r, hr, hrests⟩ := task_endTick htake t alive
          cases ht'.symm.trans hr
          rcases hrests with rfl | ⟨rfl, -⟩ <;> cases hstage
        | asked w' =>
          rw [hdue.perform_of_asked hprobe] at ht'
          cases ht'.symm.trans (task_modifyTask htake _)
          cases hstage
          exact .inr ⟨t, m, rfl, hdue, rfl⟩

/-- Who sent a ping has the command service. -/
theorem commands_of_asked (heq : s.Equipped .json) (hr : s.client.released = false) (h : s.probe = (.asked w, m)) :
    ∃ id, s.Commands id := by
  cases hcommand : s.client.command with
  | some id => exact ⟨id, hr, hcommand, heq hr id hcommand⟩
  | none =>
    unfold probe at h
    rw [hcommand] at h
    split at h <;> cases h

/-- As long as a tick waits the command service is kept. -/
theorem commands_of_probes (config : Config) (actions : List Action) (h : ((ofConfig config).run actions).Probes j w) :
    ∃ id, ((ofConfig config).run actions).Commands id := by
  induction actions using List.reverseRecOn with
  | nil =>
    obtain ⟨t, ht, -⟩ := h
    cases ht
  | append_singleton actions a ih =>
    rw [run_append, run_cons, run_nil] at h ⊢
    have hbefore : ∃ id, ((ofConfig config).run actions).Commands id := by
      have howned := owned_run (owned_ofConfig config .json) actions
      rcases probes_of_perform howned h with hprobes | ⟨t, m, -, hdue, hprobe⟩
      · exact ih hprobes
      · obtain ⟨id, hr, hcommand, hfacade⟩ := commands_of_asked (s := modifyTask j _ _)
          (equipped_run config .json actions) hdue.held hprobe
        exact ⟨id, hr, hcommand, hfacade⟩
    obtain ⟨id, hcommands⟩ := hbefore
    exact ⟨id, hcommands.kept (h.held hcommands.released)⟩

/-- A ping that was just written is underway. -/
theorem underway_of_asked (heq : s.Equipped .json) (hdue : s.Due j t)
    (hprobe : (s.modifyTask j (ReconnectTask.takeTick s.now)).probe = (.asked w, m))
    (hc : s.connections[w.connection]? = some c) (hsturdy : Sturdy c)
    (hid : c.generation.table.holds c.generation.nextId = false)
    (hc' : (s.perform (.turn (.task j))).connections[w.connection]? = some c') :
    ∃ x, (s.perform (.turn (.task j))).board.call? w = some x ∧ Underway s.now c'.link x := by
  have hbegun := hdue.perform_of_asked hprobe
  obtain ⟨o, d, ho, hd, hsend, hm⟩ := asked_cases (s := s.modifyTask j (ReconnectTask.takeTick s.now)) heq hdue.held
    hprobe
  cases hc.symm.trans hd
  obtain rfl : pingCall = o := Except.ok.inj (outgoing_ping.symm.trans ho)
  have hcall := call?_of_asked hsend hd hm
  have hpinged : m.connections[w.connection]? = some (c.pinged s.now) := by
    rw [hm]
    show (s.connections.set w.connection (c.send s.now pingCall).2)[w.connection]? = _
    rw [Connection.send_ping hid hsturdy.takes]
    exact Switchboard.getElem?_send (b := s.board) hc
  rw [hbegun] at hc' ⊢
  cases hpinged.symm.trans hc'
  refine ⟨_, hcall, rfl, rfl, fun r hr hrid => ?_, .written (List.mem_append_right _ List.mem_cons_self)⟩
  -- no response can have come in before
  have hlt := hsturdy.asked r hr
  rw [show r.id = c.generation.nextId from hrid] at hlt
  exact absurd hlt (UInt32.lt_irrefl _)

/-! ## Runs -/

theorem Thrives.perform {k : Nat} (h : s.Thrives i) (hs : s.board.Sound) (howned : s.Owned) (heq : s.Equipped .json)
    (hn : Switchboard.Counted i n s.board) (hn' : Switchboard.Counted i (n + k) (s.perform a).board)
    (hl : s.LivelyAt i a) : (s.perform a).Thrives i := by
  intro c' hi hc'
  rcases inUse_perform hi hc' with ⟨c, hbefore, hc, hgoes⟩ | ⟨hnone, hrun, addr, hlink⟩
  · have hale := h c hbefore hc
    have hid : c.generation.nextId ≤ c'.generation.nextId := by
      rw [UInt32.le_iff_toNat_le, hn.next c hc, hn'.next c' hc']
      exact Nat.le_add_right _ _
    have hsturdy := hale.toSturdy.goes hgoes hc hl hid
    refine ⟨hsturdy, fun j w hprobes' hw => ?_⟩
    rcases probes_of_perform howned hprobes' with hprobes | ⟨t, m, rfl, hdue, hprobe⟩
    · obtain ⟨x, hx, ⟨r, hr, hsign⟩ | hunderway⟩ := hale.pings j w hprobes hw
      · obtain ⟨y, hy, hxy⟩ := call?_perform hx a
        exact ⟨y, hy, .inl ⟨r, (hxy.exit (Call.isOpen_eq_false_iff.mpr ⟨_, hr⟩)).trans hr, hsign⟩⟩
      · exact hunderway.goes hale.toSturdy hsturdy hgoes hc hc' hs hl hprobes hprobes' hw hx
    · subst hw
      obtain ⟨x, hx, hunderway⟩ := underway_of_asked heq hdue hprobe hc hale.toSturdy (free_of_counted hn hc) hc'
      have hnow : (s.perform (.turn (.task j))).now = s.now := (beside_perform (fun _ h => by cases h) s).now
      exact ⟨x, hx, .inr (hnow.symm ▸ hunderway)⟩
  · refine ⟨sturdy_of_new hrun hlink, fun j w hprobes' hw => ?_⟩
    -- nothing was sent over it yet
    obtain ⟨x, hx, -⟩ := (sound_perform hs a).waited w hprobes'.mem_waiters
    subst hw
    rw [Switchboard.call?_of_getElem? (b := (s.perform a).board) hc', (fresh_perform hnone hc').calls] at hx
    cases hx

theorem lively_append {first second : List Action} :
    Lively i (first ++ second) s ↔ Lively i first s ∧ Lively i second (s.run first) := by
  induction first generalizing s with
  | nil => exact ⟨fun h => ⟨trivial, h⟩, fun h => h.2⟩
  | cons a first ih => exact (and_congr_right fun _ => ih).trans and_assoc.symm

theorem thrives_run (config : Config) (hl : Lively i actions (ofConfig config))
    (hids : handedOut i actions (ofConfig config) < 2 ^ 32) : ((ofConfig config).run actions).Thrives i := by
  induction actions using List.reverseRecOn with
  | nil =>
    intro c hi
    cases hi
  | append_singleton actions a ih =>
    obtain ⟨hbefore, hlast, -⟩ := lively_append.mp hl
    rw [handedOut_append] at hids
    have hn := counted_run (counted_ofConfig i config .json) actions (by omega)
    have hn' := counted_run hn [a] (by omega)
    rw [run_append]
    exact (ih hbefore (by omega)).perform (sound_run (sound_ofConfig config .json) actions)
      (owned_run (owned_ofConfig config .json) actions) (equipped_run config .json actions) hn hn' hlast

end Session

end RemoteCall
