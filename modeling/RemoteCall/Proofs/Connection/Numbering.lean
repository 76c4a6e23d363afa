import RemoteCall.Proofs.Session.Failures

/-!
# Ids that begin again

The ids of a connection are counted in 32 bits, and every call that gets as far as its connection spends one: an
answered one, one without an answer, and one that fails. After 2³² of them the ids begin again, and a call may meet an
older one that still waits under its id.

* `Draw`: an id that was handed out. `Draw.Occupies`: its call still stands.
* `Channel.History`: all ids that were handed out on a channel since it was new.
* `Channel.Numbered`: the invariant, that each call that stands has the id of its place in the history.
* `Channel.Meets`: the call that would get the next id meets one that still stands under it.
* `Channel.Wraps`: what ids that begin again come to. `Channel.History.wraps`: it holds of every channel.
-/

namespace RemoteCall

open Pending (Call Table Ticket)

section Defs

/-- An id that was handed out to a call: the channel before, the moment, and what was to be sent. -/
structure Draw where
  channel : Channel
  now : Nat
  outgoing : Outgoing

namespace Draw

/-- The id. -/
def id (d : Draw) : UInt32 := d.channel.generation.nextId

/-- What came of sending the call. -/
def result (d : Draw) : Except CallError (Option Ticket) := (d.channel.send d.now d.outgoing).1

/-- The call is an answered one that was sent, and it still stands in a table, under its id and with its deadline. -/
def Occupies (d : Draw) (t : Table) : Prop :=
  d.outgoing.ack = .yes ∧ ∃ (n : Ticket) (x : Call), d.result = .ok (some n) ∧ t.calls[n]? = some x ∧
    x.isOpen = true ∧ x.id = d.id ∧ x.deadline = d.now + d.outgoing.timeoutMs

end Draw

/-- What holds between the state of a connection and its state later if no id was handed out. -/
structure Generation.Kept (g g' : Generation) : Prop where
  nextId : g'.nextId = g.nextId
  length : g'.table.calls.length = g.table.calls.length
  follows : g.table.Follows g'.table

/-- One more id was handed out, and nothing else has changed. -/
def Generation.skipId (g : Generation) : Generation := { g with nextId := g.nextId + 1 }

namespace Channel

/-- The ids that were handed out on a channel since it was new, the first one first. Between them anything may become
of the handle, and of the calls that stand. -/
inductive History : List Draw → Channel → Prop
  | fresh {ch : Channel} (hid : ch.generation.nextId = 0) (hcalls : ch.generation.table.calls = []) : History [] ch
  | kept {D : List Draw} {ch ch' : Channel} (h : History D ch) (hk : ch.generation.Kept ch'.generation) : History D ch'
  | draw {D : List Draw} {ch : Channel} (h : History D ch) (now : Nat) (o : Outgoing) :
    History (D ++ [⟨ch, now, o⟩]) (ch.send now o).2

/-- Ids are handed out in turn, and each call that stands has the id of its place in the history. -/
structure Numbered (D : List Draw) (ch : Channel) : Prop where
  next : ch.generation.nextId.toNat = D.length % 2 ^ 32
  ids : ∀ (k : Nat) (d : Draw), D[k]? = some d → d.id.toNat = k % 2 ^ 32
  owned : ∀ (n : Ticket) (x : Call), ch.generation.table.calls[n]? = some x → x.isOpen = true →
    ∃ (k : Nat) (d : Draw), D[k]? = some d ∧ d.outgoing.ack = .yes ∧ d.result = .ok (some n) ∧ x.id = d.id ∧
      x.deadline = d.now + d.outgoing.timeoutMs

/-- An answered call still stands that got its id some multiple of 2³² ids before the next one. -/
def Meets (D : List Draw) (t : Table) : Prop :=
  ∃ (k m : Nat) (d : Draw), 0 < m ∧ D.length = k + m * 2 ^ 32 ∧ D[k]? = some d ∧ d.Occupies t

/-- What it comes to that ids begin again, on a channel on which the ids of `D` were handed out. -/
structure Wraps (D : List Draw) (ch : Channel) : Prop where
  id_eq : ∀ (k : Nat) (d : Draw), D[k]? = some d → d.id.toNat = k % 2 ^ 32
  next_eq : ch.generation.nextId.toNat = D.length % 2 ^ 32
  distinct : ∀ a : Nat, (((D.map Draw.id).drop a).take (2 ^ 32)).Nodup
  /-- A call finds its id taken just if it is an answered one and meets another that still stands. -/
  taken_iff : ∀ (f : Facade) (method : String) (args : List Json) (now : Nat) (id : UInt32),
    (f.send now method args (.ok ch)).1 = .error (.duplicateId id) ↔
      id = ch.generation.nextId ∧ (∃ o, f.outgoing method args = .ok o ∧ o.ack = .yes) ∧
        Meets D ch.generation.table
  /-- Then nothing is written, every call stands as before, and the next call gets the next id. -/
  harmless : ∀ (f : Facade) (method : String) (args : List Json) (now : Nat) (id : UInt32),
    (f.send now method args (.ok ch)).1 = .error (.duplicateId id) →
      (f.send now method args (.ok ch)).2 = .ok { ch with generation := ch.generation.skipId }

end Channel

end Defs

/-- A call that cannot be made has another error than that its id is taken. -/
theorem Facade.ne_duplicateId_of_outgoing {f : Facade} {method : String} {args : List Json} {e : CallError}
    (h : f.outgoing method args = .error e) (id : UInt32) : e ≠ .duplicateId id := by
  rintro rfl
  rcases f.outgoing_cases method args with ⟨e, he, hunready⟩ | ⟨route, data, -, -, -, ho⟩
  · rw [h] at he
    cases he
    cases hunready (.ok ()) with
    | noChannel _ _ _ ha => cases ha
  · rw [h] at ho
    cases ho

/-! ## What sending does to the calls that stand -/

namespace Channel

variable {ch ch' : Channel} {o : Outgoing} {now : Nat} {n : Ticket} {x : Call} {D : List Draw}

theorem nextId_send (now : Nat) (o : Outgoing) (ch : Channel) :
    (ch.send now o).2.generation.nextId = ch.generation.nextId + 1 := by
  unfold send
  cases o.ack with
  | no => rfl
  | yes =>
    cases hid : ch.generation.table.holds ch.generation.nextId with
    | true => simp [Generation.takeId, Generation.onTable, Table.register_of_holds hid]
    | false =>
      simp only [Generation.takeId, Generation.onTable, Table.register_of_not_holds hid]
      split <;> rfl

/-- A call that stands after sending stood before, or is the one that was sent. -/
theorem open_of_send (hx : (ch.send now o).2.generation.table.calls[n]? = some x) (ho : x.isOpen = true) :
    ch.generation.table.calls[n]? = some x ∨ o.ack = .yes ∧ (ch.send now o).1 = .ok (some n) ∧
      x = Table.newCall now ch.generation.nextId o.timeoutMs := by
  cases hack : o.ack with
  | no =>
    simp only [send, hack] at hx
    exact .inl hx
  | yes =>
    cases hid : ch.generation.table.holds ch.generation.nextId with
    | true =>
      simp only [send, hack, Generation.takeId, Generation.onTable, Table.register_of_holds hid] at hx
      exact .inl hx
    | false =>
      simp only [send, hack, Generation.takeId, Generation.onTable, Table.register_of_not_holds hid] at hx ⊢
      split at hx
      · rcases Pending.getElem?_concat hx with hold | ⟨rfl, hnew⟩
        · exact .inl hold
        · exact .inr ⟨trivial, rfl, hnew⟩
      · -- the call that was taken out again was the only one with its id
        obtain ⟨y, hy, rfl⟩ := Table.exists_of_leave hx
        rw [Call.isOpen_leaveIf, Bool.and_eq_true, Bool.not_eq_true'] at ho
        rw [Call.leaveIf_of_not ho.2]
        rcases Pending.getElem?_concat hy with hold | ⟨-, rfl⟩
        · exact .inl hold
        · simp [Table.newCall] at ho

/-! ## The invariant -/

theorem History.numbered (h : History D ch) : Numbered D ch := by
  induction h with
  | fresh hid hcalls =>
    refine ⟨by rw [hid]; rfl, fun k d hd => ?_, fun n x hx _ => ?_⟩
    · rw [List.getElem?_nil] at hd
      cases hd
    · rw [hcalls, List.getElem?_nil] at hx
      cases hx
  | kept h hk ih =>
    refine ⟨by rw [hk.nextId, ih.next], ih.ids, fun n x hx ho => ?_⟩
    obtain ⟨y, hy, hyx⟩ := hk.follows.exists_of hk.length hx
    rw [hyx.id, hyx.deadline]
    exact ih.owned n y hy (hyx.isOpen ho)
  | @draw D ch h now o ih =>
    refine ⟨?_, fun k d hd => ?_, fun n x hx ho => ?_⟩
    · rw [nextId_send, UInt32.toNat_add, ih.next, UInt32.toNat_one, List.length_append, List.length_singleton,
        Nat.mod_add_mod]
    · rcases Pending.getElem?_concat hd with hold | ⟨rfl, rfl⟩
      · exact ih.ids k d hold
      · exact ih.next
    · rcases open_of_send hx ho with hold | ⟨hack, hok, rfl⟩
      · obtain ⟨k, d, hd, hrest⟩ := ih.owned n x hold ho
        exact ⟨k, d, by rw [List.getElem?_append_left (List.getElem?_eq_some_iff.mp hd).1, hd], hrest⟩
      · exact ⟨D.length, ⟨ch, now, o⟩, List.getElem?_concat_length, hack, hok, rfl, rfl⟩

/-! ## Ids that begin again -/

/-- Among 2³² ids in a row no two are the same. -/
theorem Numbered.distinct (h : Numbered D ch) (a : Nat) : (((D.map Draw.id).drop a).take (2 ^ 32)).Nodup := by
  refine List.nodup_iff_getElem?_ne_getElem?.mpr fun i j hij hj heq => ?_
  have hlen : j < 2 ^ 32 ∧ a + j < D.length := by
    simp only [List.length_take, List.length_drop, List.length_map] at hj
    omega
  have hget (n : Nat) (hn : n < 2 ^ 32) (hlt : a + n < D.length) :
      (((D.map Draw.id).drop a).take (2 ^ 32))[n]? = some D[a + n].id := by
    rw [List.getElem?_take_of_lt hn, List.getElem?_drop, List.getElem?_map, List.getElem?_eq_getElem hlt]
    rfl
  rw [hget i (by omega) (by omega), hget j hlen.1 hlen.2] at heq
  have hi := h.ids (a + i) D[a + i] (List.getElem?_eq_getElem _)
  have hj := h.ids (a + j) D[a + j] (List.getElem?_eq_getElem _)
  rw [Option.some.inj heq, hj] at hi
  omega

/-- The next id is taken just if its call would meet another. -/
theorem Numbered.holds_iff (h : Numbered D ch) :
    ch.generation.table.holds ch.generation.nextId = true ↔ Meets D ch.generation.table := by
  rw [Table.holds_iff]
  constructor
  · rintro ⟨n, x, hx, ho, hid⟩
    obtain ⟨k, d, hd, hack, hresult, hxd, hdeadline⟩ := h.owned n x hx ho
    have hk := h.ids k d hd
    rw [← hxd, hid, h.next] at hk
    have hlt := (List.getElem?_eq_some_iff.mp hd).1
    exact ⟨k, (D.length - k) / 2 ^ 32, d, by omega, by omega, hd, hack, n, x, hresult, hx, ho, hxd, hdeadline⟩
  · rintro ⟨k, m, d, -, hlength, hd, -, n, x, -, hx, ho, hid, -⟩
    refine ⟨n, x, hx, ho, UInt32.toNat_inj.mp ?_⟩
    rw [hid, h.ids k d hd, h.next, hlength, Nat.add_mul_mod_self_right]

/-- A request fails because its id is taken just if it asks for an answer, and a call stands under the next id. -/
theorem send_eq_taken_iff {id : UInt32} : (ch.send now o).1 = .error (.duplicateId id) ↔
    id = ch.generation.nextId ∧ o.ack = .yes ∧ ch.generation.table.holds ch.generation.nextId = true := by
  constructor
  · intro herr
    cases refuses_of_send herr with
    | taken hack hid => exact ⟨rfl, hack, hid⟩
    | unwritten hid hw =>
      generalize ch.handle = handle at hw
      cases hw
  · rintro ⟨rfl, hack, hid⟩
    obtain ⟨generation, -, hsend⟩ := send_of_refuses (.taken hack hid) now
    rw [hsend]

/-- A call fails because its id is taken just if it is an answered one, and a call stands under the next id. -/
theorem call_eq_taken_iff {f : Facade} {method : String} {args : List Json} {id : UInt32} :
    (f.send now method args (.ok ch)).1 = .error (.duplicateId id) ↔ id = ch.generation.nextId ∧
      (∃ o, f.outgoing method args = .ok o ∧ o.ack = .yes) ∧
        ch.generation.table.holds ch.generation.nextId = true := by
  cases ho : f.outgoing method args with
  | error e =>
    simp only [Facade.send, ho, Except.error.injEq, reduceCtorEq, false_and, exists_false, and_false, iff_false]
    exact Facade.ne_duplicateId_of_outgoing ho id
  | ok o => simp only [Facade.send, ho, send_eq_taken_iff, Except.ok.injEq, exists_eq_left']

/-- What ids that begin again come to, on any channel. -/
theorem History.wraps (h : History D ch) : Wraps D ch where
  id_eq := h.numbered.ids
  next_eq := h.numbered.next
  distinct := h.numbered.distinct
  taken_iff f method args now id := by rw [call_eq_taken_iff, h.numbered.holds_iff]
  harmless f method args now id herr := by
    obtain ⟨-, ⟨o, ho, hack⟩, hid⟩ := call_eq_taken_iff.mp herr
    simp [Facade.send, ho, send, hack, Generation.takeId, Generation.onTable, Table.register_of_holds hid,
      Generation.skipId]

end Channel

end RemoteCall
