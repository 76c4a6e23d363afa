import Mathlib.Data.Multiset.AddSub
import Mathlib.Logic.Relation
import RemoteCall.Proofs.Connection.Turns
import RemoteCall.Reconnect

/-!
# The switchboard of a session

Of a session the switchboard keeps what decides on calls: all connections, which of them is in use, and the calls
that someone waits for. Whatever a session does is a sequence of few moves here.

* `Move`, `Send` and turns of a dispatcher: all that can happen to a switchboard.
* `Sound`: the invariant. Connections that are not in use are empty, and calls with callers are those that are
  waited for.
-/

namespace RemoteCall

open Pending (Call Table Ticket)

/-- The connections of a session, which of them is in use, and the calls that someone waits for. -/
structure Switchboard where
  connections : List Connection
  inUse : Option Nat
  waiters : Multiset Waiting

namespace Switchboard

section Defs

/-- Changes a connection. -/
def modify (i : Nat) (f : Connection → Connection) (b : Switchboard) : Switchboard :=
  { b with connections := b.connections.modify i f }

/-- A call, by its connection and its ticket. -/
def call? (w : Waiting) (b : Switchboard) : Option Call :=
  b.connections[w.connection]?.bind fun c => c.generation.table.calls[w.ticket]?

/-- Changes the table of a connection. -/
def onTable (f : Table → Table) (c : Connection) : Connection :=
  { c with generation := { c.generation with table := f c.generation.table } }

/-- The new call that someone waits for after sending, if there is one. -/
def newWaiter (i : Nat) : Except CallError (Option Ticket) → Multiset Waiting
  | .ok (some n) => {⟨i, n⟩}
  | _ => 0

/-- What happens at a moment without a request and without a turn of a dispatcher. -/
inductive Move (now : Nat) : Switchboard → Switchboard → Prop
  /-- The connection in use ends. -/
  | uninstall {b : Switchboard} {i : Nat} {f : Connection → Connection} (hi : b.inUse = some i)
      (hf : f = Connection.teardown ∨ f = Connection.release) :
      Move now b { b.modify i f with inUse := none }
  /-- A new connection comes into use. -/
  | install {b : Switchboard} (link : Memory.Link) (number : Nat) (settings : DispatcherConfig)
      (hi : b.inUse = none) :
      Move now b { b with
        connections := b.connections ++ [.start now link number settings]
        inUse := some b.connections.length }
  /-- Someone no longer waits. -/
  | leave {b : Switchboard} {w : Waiting} {rest : Multiset Waiting} {f : Table → Table}
      (hw : b.waiters = w ::ₘ rest) (hf : f = Table.finish w.ticket ∨ f = Table.forget w.ticket) :
      Move now b { b.modify w.connection (onTable f) with waiters := rest }
  /-- The far end of a connection does something. -/
  | act {b : Switchboard} {i : Nat} {a : Memory.Link.PeerAct} :
      Move now b (b.modify i fun c => { c with link := c.link.act a })

/-- Something is sent over the connection in use. -/
inductive Send (now : Nat) : Switchboard → Switchboard → Prop
  | request {b : Switchboard} {i : Nat} {c : Connection} {o : Outgoing} (hi : b.inUse = some i)
      (hc : b.connections[i]? = some c) (ha : c.link.active = true) :
      Send now b { b with
        connections := b.connections.set i (c.send now o).2
        waiters := newWaiter i (c.send now o).1 + b.waiters }

/-- Connections that are not in use are halted and empty; halted ones in use have ended. A call that is waited for is
in its table or has left with an outcome, and a call that stands and has its caller is waited for. -/
structure Sound (b : Switchboard) : Prop where
  inside : ∀ i, b.inUse = some i → i < b.connections.length
  used : ∀ (i : Nat) (c : Connection), b.connections[i]? = some c → c.running = true → b.inUse = some i
  empty : ∀ (i : Nat) (c : Connection), b.connections[i]? = some c → c.running = false →
    c.generation.table.size = 0
  ended : ∀ (i : Nat) (c : Connection), b.connections[i]? = some c → b.inUse = some i →
    c.running = false → c.link.active = false
  distinct : ∀ (i : Nat) (c : Connection), b.connections[i]? = some c → c.generation.table.Distinct
  nodup : b.waiters.Nodup
  waited : ∀ w ∈ b.waiters, ∃ x, b.call? w = some x ∧ x.callerPresent = true ∧
    x.exit ≠ some .evicted ∧ x.exit ≠ some .cancelled
  heard : ∀ (w : Waiting) (x : Call), b.call? w = some x → x.isOpen = true → x.callerPresent = true →
    w ∈ b.waiters

end Defs

variable {b b' : Switchboard} {i j : Nat} {c c' : Connection} {now : Nat} {w : Waiting} {x : Call}

/-! ## Connections and calls after a change -/

theorem getElem?_modify_self {f : Connection → Connection} (hc : b.connections[i]? = some c) :
    (b.modify i f).connections[i]? = some (f c) := by
  simp [modify, hc]

theorem getElem?_modify_of_ne {f : Connection → Connection} (h : i ≠ j) :
    (b.modify i f).connections[j]? = b.connections[j]? := by
  simp [modify, h]

theorem exists_of_modify {f : Connection → Connection} (h : (b.modify i f).connections[j]? = some c') :
    ∃ c, b.connections[j]? = some c ∧ c' = if i = j then f c else c := by
  by_cases hij : i = j
  · subst hij
    cases hc : b.connections[i]? with
    | none => simp [modify, hc] at h
    | some c =>
      rw [getElem?_modify_self hc] at h
      exact ⟨c, rfl, by rw [if_pos rfl, Option.some.inj h]⟩
  · rw [getElem?_modify_of_ne hij] at h
    exact ⟨c', h, by rw [if_neg hij]⟩

theorem call?_eq_some_iff : b.call? w = some x ↔
    ∃ c, b.connections[w.connection]? = some c ∧ c.generation.table.calls[w.ticket]? = some x :=
  Option.bind_eq_some_iff

theorem call?_of_getElem? (hc : b.connections[w.connection]? = some c) :
    b.call? w = c.generation.table.calls[w.ticket]? := by
  rw [call?, hc, Option.bind_some]

theorem call?_modify_of_ne {f : Connection → Connection} (h : i ≠ w.connection) :
    (b.modify i f).call? w = b.call? w := by
  rw [call?, getElem?_modify_of_ne h, call?]

theorem call?_modify_self {f : Connection → Connection} (hc : b.connections[w.connection]? = some c) :
    (b.modify w.connection f).call? w = (f c).generation.table.calls[w.ticket]? :=
  call?_of_getElem? (getElem?_modify_self hc)

/-- A call that is waited for has its caller. -/
theorem Sound.present (h : b.Sound) (hw : w ∈ b.waiters) (hx : b.call? w = some x) : x.callerPresent = true := by
  obtain ⟨y, hy, hp, -⟩ := h.waited w hw
  rw [hx] at hy
  exact Option.some.inj hy ▸ hp

/-! ## Turns and ends -/

section Turned

variable {f : Connection → Connection}

theorem call?_turned (hf : ∀ c : Connection, c.Turned (f c)) (hx : b.call? w = some x) :
    ∃ x', (b.modify i f).call? w = some x' ∧ x.Served x' := by
  obtain ⟨c, hc, hcx⟩ := call?_eq_some_iff.mp hx
  by_cases hi : i = w.connection
  · subst hi
    obtain ⟨x', hx', hs⟩ := (hf c).table.call w.ticket x hcx
    exact ⟨x', (call?_modify_self hc).trans hx', hs⟩
  · exact ⟨x, (call?_modify_of_ne hi).trans hx, .refl x⟩

theorem exists_of_turned (hf : ∀ c : Connection, c.Turned (f c)) {x' : Call}
    (hx' : (b.modify i f).call? w = some x') : ∃ x, b.call? w = some x ∧ x.Served x' := by
  obtain ⟨c', hc', hcx'⟩ := call?_eq_some_iff.mp hx'
  obtain ⟨c, hc, rfl⟩ := exists_of_modify hc'
  have hturned : c.Turned (if i = w.connection then f c else c) := by
    split
    · exact hf c
    · exact .refl c
  obtain ⟨hlt, -⟩ := List.getElem?_eq_some_iff.mp hcx'
  rw [hturned.table.length] at hlt
  have hcx : c.generation.table.calls[w.ticket]? = some c.generation.table.calls[w.ticket] :=
    List.getElem?_eq_getElem hlt
  obtain ⟨y, hy, hs⟩ := hturned.table.call _ _ hcx
  rw [hcx'] at hy
  exact ⟨_, (call?_of_getElem? hc).trans hcx, Option.some.inj hy ▸ hs⟩

/-- A connection takes turns or ends, and may go out of use. -/
theorem Sound.turned (h : b.Sound) (hf : ∀ c : Connection, c.Turned (f c)) {u : Option Nat}
    (hu : u = b.inUse ∨ u = none)
    (hused : ∀ (j : Nat) (c' : Connection), (b.modify i f).connections[j]? = some c' → c'.running = true →
      u = some j)
    (hended : ∀ c : Connection, b.connections[i]? = some c → u = some i → c.running = true →
      (f c).running = false → (f c).link.active = false) :
    Sound { b.modify i f with inUse := u } where
  inside j hj := by
    rcases hu with rfl | rfl
    · simpa [modify] using h.inside j hj
    · cases hj
  used := hused
  empty j c' hc' hr := by
    obtain ⟨c, hc, rfl⟩ := exists_of_modify hc'
    by_cases hij : i = j
    · rw [if_pos hij] at hr ⊢
      cases hcr : c.running with
      | true => exact (hf c).ended hcr hr
      | false => exact (hf c).table.follows.size_eq_zero (hf c).table.length (h.empty j c hc hcr)
    · rw [if_neg hij] at hr ⊢
      exact h.empty j c hc hr
  ended j c' hc' hj hr := by
    have hbj : b.inUse = some j := by
      rcases hu with rfl | rfl
      · exact hj
      · cases hj
    obtain ⟨c, hc, rfl⟩ := exists_of_modify hc'
    by_cases hij : i = j
    · subst hij
      rw [if_pos rfl] at hr ⊢
      cases hcr : c.running with
      | true => exact hended c hc hj hcr hr
      | false => exact (hf c).inactive (h.ended i c hc hbj hcr)
    · rw [if_neg hij] at hr ⊢
      exact h.ended j c hc hbj hr
  distinct j c' hc' := by
    obtain ⟨c, hc, rfl⟩ := exists_of_modify hc'
    split
    · exact (hf c).table.follows.distinct (hf c).table.length (h.distinct j c hc)
    · exact h.distinct j c hc
  nodup := h.nodup
  waited w hw := by
    obtain ⟨x, hx, hp, hev, hca⟩ := h.waited w hw
    obtain ⟨x', hx', hs⟩ := call?_turned (i := i) hf hx
    refine ⟨x', hx', hs.present.trans hp, ?_⟩
    rcases hs.told with he | ⟨e, he, hne⟩
    · rw [he]
      exact ⟨hev, hca⟩
    · rw [he]
      simpa using hne
  heard w x' hx' ho hp := by
    obtain ⟨x, hx, hs⟩ := exists_of_turned (i := i) hf hx'
    exact h.heard w x hx (hs.isOpen ho) (hs.present ▸ hp)

/-- The dispatcher of a connection takes a turn. -/
theorem Sound.dispatch (h : b.Sound) (i now : Nat) : (b.modify i (Connection.dispatch now)).Sound := by
  have hf (c : Connection) := c.turned_dispatch now
  refine h.turned hf (.inl rfl) (fun j c' hc' hr => ?_) fun c _ _ hr hs => Connection.active_dispatch hr hs
  obtain ⟨c, hc, rfl⟩ := exists_of_modify hc'
  refine h.used j c hc ?_
  split at hr
  · cases hcr : c.running with
    | true => rfl
    | false =>
      rw [(hf c).halted hcr] at hr
      cases hr
  · exact hr

/-- The far end of a connection does something. -/
theorem Sound.act (h : b.Sound) (i : Nat) (a : Memory.Link.PeerAct) :
    (b.modify i fun c => { c with link := c.link.act a }).Sound := by
  refine h.turned (fun c => c.turned_act a) (.inl rfl) (fun j c' hc' hr => ?_) fun c _ _ hr hs => ?_
  · obtain ⟨c, hc, rfl⟩ := exists_of_modify hc'
    refine h.used j c hc ?_
    split at hr <;> exact hr
  · rw [show c.running = false from hs] at hr
    cases hr

/-- The connection in use ends. -/
theorem Sound.uninstall (h : b.Sound) (hi : b.inUse = some i)
    (hf : f = Connection.teardown ∨ f = Connection.release) : Sound { b.modify i f with inUse := none } := by
  have hturned (c : Connection) : c.Turned (f c) := by
    rcases hf with rfl | rfl
    · exact c.turned_teardown
    · exact c.turned_release
  refine h.turned hturned (.inr rfl) (fun j c' hc' hr => ?_) fun c _ hu => by cases hu
  obtain ⟨c, hc, rfl⟩ := exists_of_modify hc'
  by_cases hij : i = j
  · rw [if_pos hij] at hr
    rcases hf with rfl | rfl <;> cases hr
  · rw [if_neg hij] at hr
    have hj := h.used j c hc hr
    rw [hi] at hj
    exact absurd (Option.some.inj hj) hij

end Turned

/-! ## New connections -/

/-- A new connection has no calls. -/
theorem call?_install (c₀ : Connection) (hc₀ : c₀.generation.table = {}) {u : Option Nat} (w : Waiting) :
    call? w { b with connections := b.connections ++ [c₀], inUse := u } = b.call? w := by
  rcases Nat.lt_trichotomy w.connection b.connections.length with hlt | heq | hgt
  · simp [call?, List.getElem?_append_left hlt]
  · simp [call?, heq, hc₀]
  · have hold : b.connections[w.connection]? = none := List.getElem?_eq_none (Nat.le_of_lt hgt)
    have hnew : (b.connections ++ [c₀])[w.connection]? = none :=
      List.getElem?_eq_none (by rw [List.length_append]; exact hgt)
    rw [call?, call?, hnew, hold]

theorem Sound.install (h : b.Sound) (hi : b.inUse = none) (now : Nat) (link : Memory.Link) (number : Nat)
    (settings : DispatcherConfig) : Sound { b with
      connections := b.connections ++ [.start now link number settings]
      inUse := some b.connections.length } := by
  have hcall := call?_install (b := b) (.start now link number settings) rfl (u := some b.connections.length)
  refine ⟨?_, ?_, ?_, ?_, ?_, h.nodup, ?_, ?_⟩
  · intro i hi
    simp [← Option.some.inj hi]
  · intro i c hc hr
    rcases Pending.getElem?_concat hc with hold | ⟨rfl, rfl⟩
    · have hu := h.used i c hold hr
      rw [hi] at hu
      cases hu
    · rfl
  · intro i c hc hr
    rcases Pending.getElem?_concat hc with hold | ⟨rfl, rfl⟩
    · exact h.empty i c hold hr
    · rfl
  · intro i c hc hu hr
    rcases Pending.getElem?_concat hc with hold | ⟨rfl, rfl⟩
    · obtain ⟨hlt, -⟩ := List.getElem?_eq_some_iff.mp hold
      exact absurd (Option.some.inj hu) (Nat.ne_of_gt hlt)
    · cases hr
  · intro i c hc
    rcases Pending.getElem?_concat hc with hold | ⟨rfl, rfl⟩
    · exact h.distinct i c hold
    · exact Pending.Table.distinct_empty
  · intro w hw
    rw [hcall]
    exact h.waited w hw
  · intro w x hx
    rw [hcall] at hx
    exact h.heard w x hx

/-! ## Callers that no longer wait -/

/-- What the table of a connection holds when someone no longer waits for a call there. -/
theorem left_leave {f : Table → Table} {n : Ticket} (hf : f = Table.finish n ∨ f = Table.forget n)
    (t : Table) : t.Left n (f t) := by
  rcases hf with rfl | rfl
  · exact Table.left_finish n t
  · exact Table.left_forget n t

/-- When someone no longer waits for a call, all other calls with callers are as they were. -/
theorem call?_leave {f : Table → Table} (hf : f = Table.finish w.ticket ∨ f = Table.forget w.ticket)
    {w' : Waiting} (hp : x.callerPresent = true) :
    (b.modify w.connection (onTable f)).call? w' = some x ↔ w' ≠ w ∧ b.call? w' = some x := by
  by_cases hw : w.connection = w'.connection
  · cases hc : b.connections[w.connection]? with
    | none =>
      have hc' : b.connections[w'.connection]? = none := hw ▸ hc
      simp [call?, modify, hw, hc']
    | some c =>
      have hc' : b.connections[w'.connection]? = some c := hw ▸ hc
      rw [hw, call?_modify_self hc', call?_of_getElem? hc', onTable,
        (left_leave hf c.generation.table).others w'.ticket x hp]
      have hne : w'.ticket ≠ w.ticket ↔ w' ≠ w := by
        obtain ⟨i, n⟩ := w
        obtain ⟨j, m⟩ := w'
        simp only at hw
        subst hw
        simp
      rw [hne]
  · have hne : w' ≠ w := fun h => hw (congrArg Waiting.connection h.symm)
    rw [call?_modify_of_ne hw]
    exact ⟨fun h => ⟨hne, h⟩, fun h => h.2⟩

theorem Sound.leave (h : b.Sound) {rest : Multiset Waiting} {f : Table → Table} (hw : b.waiters = w ::ₘ rest)
    (hf : f = Table.finish w.ticket ∨ f = Table.forget w.ticket) :
    Sound { b.modify w.connection (onTable f) with waiters := rest } := by
  have hnodup := h.nodup
  rw [hw, Multiset.nodup_cons] at hnodup
  obtain ⟨hnotin, hrest⟩ := hnodup
  have hconn {j : Nat} {c' : Connection} (hc' : (b.modify w.connection (onTable f)).connections[j]? = some c') :
      ∃ c, b.connections[j]? = some c ∧ c'.running = c.running ∧ c'.link = c.link ∧
        c.generation.table.Follows c'.generation.table ∧
        c'.generation.table.calls.length = c.generation.table.calls.length := by
    obtain ⟨c, hc, rfl⟩ := exists_of_modify hc'
    have hl := left_leave hf c.generation.table
    split
    · exact ⟨c, hc, rfl, rfl, hl.follows, hl.length⟩
    · exact ⟨c, hc, rfl, rfl, .refl _, rfl⟩
  refine ⟨?_, ?_, ?_, ?_, ?_, hrest, ?_, ?_⟩
  · intro j hj
    simpa [modify] using h.inside j hj
  · intro j c' hc' hr
    obtain ⟨c, hc, hrun, -, -, -⟩ := hconn hc'
    exact h.used j c hc (hrun ▸ hr)
  · intro j c' hc' hr
    obtain ⟨c, hc, hrun, -, hfol, hlen⟩ := hconn hc'
    exact hfol.size_eq_zero hlen (h.empty j c hc (hrun ▸ hr))
  · intro j c' hc' hu hr
    obtain ⟨c, hc, hrun, hlink, -, -⟩ := hconn hc'
    rw [hlink]
    exact h.ended j c hc hu (hrun ▸ hr)
  · intro j c' hc'
    obtain ⟨c, hc, -, -, hfol, hlen⟩ := hconn hc'
    exact hfol.distinct hlen (h.distinct j c hc)
  · intro w' hw'
    obtain ⟨x, hx, hp, hexit⟩ := h.waited w' (hw ▸ Multiset.mem_cons_of_mem hw')
    have hne : w' ≠ w := fun heq => hnotin (heq ▸ hw')
    exact ⟨x, (call?_leave hf hp).mpr ⟨hne, hx⟩, hp, hexit⟩
  · intro w' x hx ho hp
    obtain ⟨hne, hx'⟩ := (call?_leave hf hp).mp hx
    have hmem := h.heard w' x hx' ho hp
    rw [hw] at hmem
    exact (Multiset.mem_cons.mp hmem).resolve_left hne

/-! ## Sending -/

theorem getElem?_send (hc : b.connections[i]? = some c) {c₁ : Connection} :
    (b.connections.set i c₁)[i]? = some c₁ := by
  obtain ⟨hlt, -⟩ := List.getElem?_eq_some_iff.mp hc
  exact List.getElem?_set_self hlt

theorem exists_of_set {c₁ : Connection} (hc : b.connections[i]? = some c)
    (hc' : (b.connections.set i c₁)[j]? = some c') :
    j = i ∧ c' = c₁ ∨ j ≠ i ∧ b.connections[j]? = some c' := by
  by_cases hij : i = j
  · subst hij
    rw [getElem?_send hc] at hc'
    exact .inl ⟨rfl, (Option.some.inj hc').symm⟩
  · rw [List.getElem?_set_ne hij] at hc'
    exact .inr ⟨fun h => hij h.symm, hc'⟩

/-- A call of a table after sending is an old one, or the new one, which stands and is waited for or was
cancelled. -/
theorem exists_of_send {o : Outgoing} {n : Ticket} (hx : (c.send now o).2.generation.table.calls[n]? = some x) :
    c.generation.table.calls[n]? = some x ∨
      n = c.generation.table.calls.length ∧ x.id = c.generation.nextId ∧ (x.exit = some .cancelled ∨
        x = Table.newCall now c.generation.nextId o.timeoutMs ∧ (c.send now o).1 = .ok (some n)) := by
  obtain ⟨-, -, -, ⟨-, htable | ⟨-, htable⟩⟩ | ⟨hok, -, htable, -⟩⟩ := c.send_cases now o
  · rw [htable] at hx
    exact .inl hx
  · rw [htable] at hx
    rcases Pending.getElem?_concat hx with hold | ⟨rfl, rfl⟩
    · exact .inl hold
    · exact .inr ⟨rfl, rfl, .inl rfl⟩
  · rw [htable] at hx
    rcases Pending.getElem?_concat hx with hold | ⟨rfl, rfl⟩
    · exact .inl hold
    · exact .inr ⟨rfl, rfl, .inr ⟨rfl, hok⟩⟩

theorem getElem?_of_send {o : Outgoing} {n : Ticket} (hx : c.generation.table.calls[n]? = some x) :
    (c.send now o).2.generation.table.calls[n]? = some x := by
  obtain ⟨hlt, -⟩ := List.getElem?_eq_some_iff.mp hx
  obtain ⟨-, -, -, ⟨-, htable | ⟨-, htable⟩⟩ | ⟨-, -, htable, -⟩⟩ := c.send_cases now o
  · rw [htable, hx]
  · rw [htable, List.getElem?_append_left hlt, hx]
  · rw [htable, List.getElem?_append_left hlt, hx]

theorem distinct_send (hd : c.generation.table.Distinct) (o : Outgoing) :
    (c.send now o).2.generation.table.Distinct := by
  obtain ⟨-, -, -, ⟨-, htable | ⟨hh, htable⟩⟩ | ⟨-, hh, htable, -⟩⟩ := c.send_cases now o
  · rw [htable]
    exact hd
  all_goals
    rw [Table.Distinct, htable]
    refine List.pairwise_append.mpr ⟨hd, List.pairwise_singleton _ _, fun y hy z hz hyo _ => ?_⟩
    rw [List.mem_singleton] at hz
    subst hz
    exact Table.holds_eq_false_iff.mp hh y hy hyo

theorem mem_newWaiter {r : Except CallError (Option Ticket)} :
    w ∈ newWaiter i r ↔ r = .ok (some w.ticket) ∧ w.connection = i := by
  obtain ⟨j, m⟩ := w
  unfold newWaiter
  split
  · rw [Multiset.mem_singleton]
    simp [and_comm, eq_comm]
  · rename_i hne
    simp only [Multiset.notMem_zero, false_iff]
    exact fun h => hne m h.1

theorem Send.call? (hs : Send now b b') (hx : b.call? w = some x) : b'.call? w = some x := by
  cases hs with
  | @request i c o hi hc ha =>
    obtain ⟨d, hd, hdx⟩ := call?_eq_some_iff.mp hx
    rw [call?_eq_some_iff]
    by_cases hwi : i = w.connection
    · rw [← hwi, hc] at hd
      rw [← hwi]
      exact ⟨_, getElem?_send hc, getElem?_of_send (Option.some.inj hd ▸ hdx)⟩
    · exact ⟨d, by rw [List.getElem?_set_ne hwi, hd], hdx⟩

theorem Sound.send (h : b.Sound) (hs : Send now b b') : b'.Sound := by
  have hkeep {w : Waiting} {x : Call} (hx : b.call? w = some x) := hs.call? hx
  cases hs with
  | @request i c o hi hc ha =>
  obtain ⟨-, hrunning, hactive, hcases⟩ := c.send_cases now o
  have hrun : c.running = true := by
    cases hr : c.running with
    | true => rfl
    | false =>
      rw [h.ended i c hc hi hr] at ha
      cases ha
  -- a call that is waited for is an old one, so the new one is not
  have hlt {n : Ticket} (hn : ⟨i, n⟩ ∈ b.waiters) : n < c.generation.table.calls.length := by
    obtain ⟨x, hx, -⟩ := h.waited _ hn
    rw [call?_of_getElem? (w := ⟨i, n⟩) hc] at hx
    exact (List.getElem?_eq_some_iff.mp hx).1
  refine ⟨?_, ?_, ?_, ?_, ?_, ?_, ?_, ?_⟩
  · intro j hj
    rw [List.length_set]
    exact h.inside j hj
  · intro j c' hc' hr
    rcases exists_of_set hc hc' with ⟨rfl, -⟩ | ⟨-, hold⟩
    · exact hi
    · exact h.used j c' hold hr
  · intro j c' hc' hr
    rcases exists_of_set hc hc' with ⟨-, rfl⟩ | ⟨-, hold⟩
    · rw [hrunning, hrun] at hr
      cases hr
    · exact h.empty j c' hold hr
  · intro j c' hc' hu hr
    rcases exists_of_set hc hc' with ⟨-, rfl⟩ | ⟨-, hold⟩
    · rw [hrunning, hrun] at hr
      cases hr
    · exact h.ended j c' hold hu hr
  · intro j c' hc'
    rcases exists_of_set hc hc' with ⟨-, rfl⟩ | ⟨-, hold⟩
    · exact distinct_send (h.distinct i c hc) o
    · exact h.distinct j c' hold
  · rcases hcases with ⟨hno, -⟩ | ⟨hok, -⟩
    · have hzero : newWaiter i (c.send now o).1 = 0 :=
        Multiset.eq_zero_of_forall_notMem fun w hw => hno _ (mem_newWaiter.mp hw).1
      rw [hzero, Multiset.zero_add]
      exact h.nodup
    · rw [hok, newWaiter, Multiset.singleton_add, Multiset.nodup_cons]
      exact ⟨fun hn => Nat.lt_irrefl _ (hlt hn), h.nodup⟩
  · intro w hw
    rcases Multiset.mem_add.mp hw with hnew | hold
    · obtain ⟨hok, hwi⟩ := mem_newWaiter.mp hnew
      rcases hcases with ⟨hno, -⟩ | ⟨hok', -, htable, -⟩
      · exact absurd hok (hno _)
      · rw [hok] at hok'
        have heq : w.ticket = c.generation.table.calls.length := by simpa using hok'
        refine ⟨Table.newCall now c.generation.nextId o.timeoutMs, ?_, rfl, by simp [Table.newCall]⟩
        rw [call?_eq_some_iff, hwi]
        exact ⟨_, getElem?_send hc, by rw [htable, heq, List.getElem?_concat_length]⟩
    · obtain ⟨x, hx, hp⟩ := h.waited w hold
      exact ⟨x, hkeep hx, hp⟩
  · intro w x hx ho hp
    rw [call?_eq_some_iff] at hx
    obtain ⟨c', hc', hx⟩ := hx
    rw [Multiset.mem_add, mem_newWaiter]
    rcases exists_of_set hc hc' with ⟨hwi, rfl⟩ | ⟨-, hold⟩
    · rcases exists_of_send hx with hx' | ⟨-, -, hcancelled | ⟨-, hok⟩⟩
      · have hcall : b.call? w = some x := call?_eq_some_iff.mpr ⟨c, hwi ▸ hc, hx'⟩
        exact .inr (h.heard w x hcall ho hp)
      · simp [Call.isOpen, hcancelled] at ho
      · exact .inl ⟨hok, hwi⟩
    · exact .inr (h.heard w x (call?_eq_some_iff.mpr ⟨c', hold, hx⟩) ho hp)

/-- Each move keeps the invariant. -/
theorem Sound.move (h : b.Sound) (hm : Move now b b') : b'.Sound := by
  cases hm with
  | uninstall hi hf => exact h.uninstall hi hf
  | install link number settings hi => exact h.install hi now link number settings
  | leave hw hf => exact h.leave hw hf
  | act => exact h.act _ _

end Switchboard

end RemoteCall
