import RemoteCall.Proofs.Connection.Turns

/-!
# What is written over a link

What was written over a link grows at its end when the near end writes, and shrinks at its front when the far end
reads. A dispatcher writes no request, and one who sends writes one at most.

* `Wrote p c c'`: what holds between a connection and the same connection later if its own end wrote only packets
  that satisfy `p`.
* `act_cases`: the far end takes the first packet or none, or it is given up and all is lost.
* `Onward c c'`: what holds between a connection and the same connection after whatever happens.
-/

namespace RemoteCall

/-- The request in a packet, if it is one. -/
def Packet.request? : Packet → Option Request
  | .request r => some r
  | _ => none

/-! ## The far end -/

namespace Memory.Link

variable {l : Link} {a : PeerAct}

/-- The packet that the far end takes in what it does, if it takes one. -/
def taken? (a : PeerAct) (l : Link) : Option Packet :=
  match l.peerHeld, a with
  | true, .read => l.outbound.head?
  | true, .serve _ => l.outbound.head?
  | _, _ => none

theorem act_of_gone (h : l.peerHeld = false) (a : PeerAct) : l.act a = l := by simp [act, h]

theorem taken?_of_gone (h : l.peerHeld = false) (a : PeerAct) : l.taken? a = none := by simp [taken?, h]

theorem take_eq (l : Link) : l.take.2 = { l with outbound := l.outbound.tail } := by
  unfold take
  split <;> (rename_i h; simp [h])
  rw [← h]

theorem peerHeld_send (a : Inbound) (l : Link) : (l.send a).peerHeld = l.peerHeld := by
  unfold send
  split <;> rfl

theorem peerHeld_serve (handler : Handler) (l : Link) : (l.serve handler).peerHeld = l.peerHeld := by
  have htake : l.take.2.peerHeld = l.peerHeld := by rw [take_eq]
  unfold serve
  split <;> (rename_i heq; rw [heq] at htake)
  · split
    · exact (peerHeld_send _ _).trans htake
    · exact htake
  · exact (peerHeld_send _ _).trans htake
  · exact htake

/-- The far end takes the first packet or none, or it is given up and what had been written is lost. -/
theorem act_cases (a : PeerAct) (l : Link) :
    ((l.act a).peerHeld = l.peerHeld ∧ l.outbound = (l.taken? a).toList ++ (l.act a).outbound) ∨
      ((l.act a).peerHeld = false ∧ l.taken? a = none ∧ (l.act a).outbound = []) := by
  have hhead : l.outbound = l.outbound.head?.toList ++ l.outbound.tail := by cases l.outbound <;> rfl
  cases hp : l.peerHeld with
  | false => exact .inl ⟨by rw [act_of_gone hp, hp], by rw [act_of_gone hp, taken?_of_gone hp]; rfl⟩
  | true =>
    cases a with
    | send a => exact .inl ⟨by simp [act, hp, peerHeld_send], by simp [act, hp, taken?]⟩
    | setWritable writable => exact .inl ⟨by simp [act, hp], by simp [act, hp, taken?]⟩
    | setFailWrites fail => exact .inl ⟨by simp [act, hp], by simp [act, hp, taken?]⟩
    | read =>
      refine .inl ⟨by simp [act, hp, take_eq], ?_⟩
      simp only [act, hp, taken?, take_eq]
      exact hhead
    | serve handler =>
      refine .inl ⟨by simp [act, hp, peerHeld_serve], ?_⟩
      simp only [act, hp, taken?]
      exact hhead.trans (congrArg _ (outbound_serve handler l).symm)
    | hangUp => exact .inr ⟨by simp [act, hp, hangUp, dropPeer], by simp [taken?, hp], by simp [act, hp, hangUp, dropPeer]⟩
    | leave => exact .inr ⟨by simp [act, hp, dropPeer], by simp [taken?, hp], by simp [act, hp, dropPeer]⟩

/-- What the far end leaves is the end of what was there. -/
theorem outbound_act (a : PeerAct) (l : Link) : (l.act a).outbound <:+ l.outbound := by
  rcases act_cases a l with ⟨-, h⟩ | ⟨-, -, h⟩
  · exact ⟨_, h.symm⟩
  · rw [h]
    exact List.nil_suffix

end Memory.Link

namespace Connection

variable {c c' : Connection} {p : Packet → Prop} {now : Nat}

/-! ## The near end -/

/-- What holds between a connection and the same connection later if its own end wrote only packets that satisfy
`p`. -/
structure Wrote (p : Packet → Prop) (c c' : Connection) : Prop where
  number : c'.generation.number = c.generation.number
  peerHeld : c'.link.peerHeld = c.link.peerHeld
  outbound : ∃ ps : List Packet, c'.link.outbound = c.link.outbound ++ ps ∧ ∀ q ∈ ps, p q

/-- Nothing was written. -/
theorem wrote_of_eq (hn : c'.generation.number = c.generation.number) (hp : c'.link.peerHeld = c.link.peerHeld)
    (ho : c'.link.outbound = c.link.outbound) : c.Wrote p c' :=
  ⟨hn, hp, [], by rw [ho, List.append_nil], by simp⟩

theorem Wrote.refl (c : Connection) : c.Wrote p c := wrote_of_eq rfl rfl rfl

theorem Wrote.trans {a b c : Connection} (h : a.Wrote p b) (h' : b.Wrote p c) : a.Wrote p c := by
  obtain ⟨ps, hps, hall⟩ := h.outbound
  obtain ⟨qs, hqs, hall'⟩ := h'.outbound
  refine ⟨h'.number.trans h.number, h'.peerHeld.trans h.peerHeld, ps ++ qs, ?_, fun q hq => ?_⟩
  · rw [hqs, hps, List.append_assoc]
  · exact (List.mem_append.mp hq).elim (hall q) (hall' q)

theorem wrote_write {q : Packet} (hq : p q) (c : Connection) : c.Wrote p (c.write q).2 := by
  have hlink : (c.write q).2 = { c with link := (c.link.write q).2 } := rfl
  rcases write_cases q c.link with ⟨e, h⟩ | h
  · rw [hlink, h]
    exact .refl c
  · rw [hlink, h]
    exact ⟨rfl, rfl, [q], rfl, by simpa using hq⟩

theorem wrote_receive {l : Memory.Link} {a : Memory.Received Memory.Inbound} (h : c.link.receive = (a, l)) :
    c.Wrote p { c with link := l } := by
  unfold Memory.Link.receive at h
  split at h
  · cases h
    exact wrote_of_eq rfl rfl rfl
  · split at h <;> cases h
    · exact .refl c
    · exact wrote_of_eq rfl rfl rfl

theorem wrote_sweep (now : Nat) (c : Connection) : c.Wrote p (c.sweep now) := wrote_of_eq rfl rfl rfl

theorem wrote_await (now : Nat) (c : Connection) : c.Wrote p (c.await now) := wrote_of_eq rfl rfl rfl

theorem wrote_stop (c : Connection) : c.Wrote p c.stop := wrote_of_eq rfl rfl rfl

theorem wrote_onPacket (q : Packet) (c : Connection) : c.Wrote (fun p => p.request? = none) (c.onPacket q) := by
  match q with
  | .response r => exact wrote_of_eq rfl rfl rfl
  | .ping .yes =>
    have hpong : Packet.pong.request? = none := rfl
    exact wrote_write hpong c
  | .ping .no => exact .refl c
  | .pong => exact .refl c
  | .request _ => exact .refl c

theorem wrote_onIdle (now : Nat) (c : Connection) : c.Wrote (fun p => p.request? = none) (c.onIdle now) := by
  have hping : (Packet.ping c.settings.heartbeatAck).request? = none := rfl
  have h : c.Wrote (fun p => p.request? = none) ((c.sweep now).write (.ping c.settings.heartbeatAck)).2 :=
    (wrote_sweep now c).trans (wrote_write hping _)
  unfold onIdle
  split <;> (rename_i heq; rw [heq] at h)
  · exact h.trans (wrote_await now _)
  · exact h.trans (wrote_stop _)

/-- A dispatcher writes no request. -/
theorem wrote_dispatch (now : Nat) (c : Connection) : c.Wrote (fun p => p.request? = none) (c.dispatch now) := by
  unfold dispatch
  split
  · split
    · rename_i q l hl
      refine ((wrote_receive hl).trans (wrote_onPacket q _)).trans ?_
      dsimp only
      split
      · exact (wrote_sweep now _).trans (wrote_await now _)
      · exact wrote_await now _
    · rename_i e l hl
      exact (wrote_receive hl).trans (wrote_stop _)
    · rename_i l hl
      exact (wrote_receive hl).trans (wrote_stop _)
    · rename_i l hl
      split
      · exact (wrote_receive hl).trans (wrote_onIdle now _)
      · exact .refl c
  · exact .refl c

/-- A dispatcher that has stopped does nothing. -/
theorem dispatch_of_halted (h : c.running = false) (now : Nat) : c.dispatch now = c := by
  rw [dispatch, if_neg (by simp [h])]

/-! ## Requests -/

/-- Sending writes the request last, or nothing. -/
theorem send_writes (now : Nat) (o : Outgoing) (c : Connection) :
    let c' := (c.send now o).2
    c'.generation.number = c.generation.number ∧ c'.link.peerHeld = c.link.peerHeld ∧
      (c'.link.outbound = c.link.outbound ∨
        c'.link.outbound = c.link.outbound ++ [.request (o.request c.generation.nextId)]) := by
  intro c'
  have hc' : (c.send now o).2 = c' := rfl
  unfold send at hc'
  cases hack : o.ack with
  | no =>
    simp only [hack, Generation.takeId, write] at hc'
    rcases write_cases (.request (o.request c.generation.nextId)) c.link with ⟨e, hw⟩ | hw
    · simp only [hw] at hc'
      rw [← hc']
      exact ⟨rfl, rfl, .inl rfl⟩
    · simp only [hw] at hc'
      rw [← hc']
      exact ⟨rfl, rfl, .inr rfl⟩
  | yes =>
    simp only [hack, Generation.takeId, onTable, Generation.onTable, write] at hc'
    cases hh : c.generation.table.holds c.generation.nextId with
    | true =>
      simp only [Pending.Table.register_of_holds hh] at hc'
      rw [← hc']
      exact ⟨rfl, rfl, .inl rfl⟩
    | false =>
      simp only [Pending.Table.register_of_not_holds hh] at hc'
      rcases write_cases (.request (o.request c.generation.nextId)) c.link with ⟨e, hw⟩ | hw
      · simp only [hw] at hc'
        rw [← hc']
        exact ⟨rfl, rfl, .inl rfl⟩
      · simp only [hw] at hc'
        rw [← hc']
        exact ⟨rfl, rfl, .inr rfl⟩

theorem link_write (p : Packet) (l : Memory.Link) :
    ∃ written, (l.write p).2 = { l with outbound := l.outbound ++ written } := by
  rcases write_cases p l with ⟨e, h⟩ | h
  · exact ⟨[], by rw [h, List.append_nil]⟩
  · exact ⟨[p], by rw [h]⟩

/-- Of the link sending changes nothing but what was written. -/
theorem link_send (now : Nat) (o : Outgoing) (c : Connection) :
    ∃ written, (c.send now o).2.link = { c.link with outbound := c.link.outbound ++ written } := by
  have hwrite := link_write (.request (o.request c.generation.nextId)) c.link
  unfold send
  cases o.ack with
  | no => exact hwrite
  | yes =>
    simp only [Generation.takeId, onTable, Generation.onTable, write]
    cases hh : c.generation.table.holds c.generation.nextId with
    | true =>
      simp only [Pending.Table.register_of_holds hh]
      exact ⟨[], by rw [List.append_nil]⟩
    | false =>
      simp only [Pending.Table.register_of_not_holds hh]
      split <;> (rename_i heq; obtain ⟨-, rfl⟩ := Prod.mk.inj heq; exact hwrite)

/-! ## Whatever happens -/

/-- What holds between a connection and the same connection after whatever happens. What has ended does not begin
again. -/
structure Onward (c c' : Connection) : Prop where
  number : c'.generation.number = c.generation.number
  halted : c.running = false → c'.running = false
  inactive : c.link.active = false → c'.link.active = false
  gone : c.link.peerHeld = false → c'.link.peerHeld = false

theorem Onward.refl (c : Connection) : c.Onward c := ⟨rfl, fun h => h, fun h => h, fun h => h⟩

theorem Onward.trans {a b c : Connection} (h : a.Onward b) (h' : b.Onward c) : a.Onward c where
  number := h'.number.trans h.number
  halted ha := h'.halted (h.halted ha)
  inactive ha := h'.inactive (h.inactive ha)
  gone ha := h'.gone (h.gone ha)

theorem onward_act (a : Memory.Link.PeerAct) (c : Connection) : c.Onward { c with link := c.link.act a } where
  number := rfl
  halted := (c.turned_act a).halted
  inactive := (c.turned_act a).inactive
  gone h := by rw [Memory.Link.act_of_gone h]; exact h

theorem onward_dispatch (now : Nat) (c : Connection) : c.Onward (c.dispatch now) where
  number := (wrote_dispatch now c).number
  halted := (turned_dispatch now c).halted
  inactive := (turned_dispatch now c).inactive
  gone h := (wrote_dispatch now c).peerHeld.trans h

theorem onward_send (now : Nat) (o : Outgoing) (c : Connection) : c.Onward (c.send now o).2 := by
  obtain ⟨hnumber, hpeer, -⟩ := send_writes now o c
  obtain ⟨-, hrunning, hactive, -⟩ := send_cases now o c
  exact ⟨hnumber, fun h => hrunning.trans h, fun h => hactive.trans h, fun h => hpeer.trans h⟩

end Connection

end RemoteCall
