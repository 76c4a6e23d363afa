import RemoteCall.Connection
import RemoteCall.Proofs.Pending.Calls

/-!
# What a turn does to the calls of a connection

Neither a turn of the dispatcher nor the end of a connection adds a call, and every call that leaves on such an
occasion leaves with an outcome for its caller.

* `Turned c c'`: what holds between a connection and the same connection after turns of its own, or after its end.
* `dispatch_cases`: a turn of the dispatcher takes in a response, or goes on without one, or stops.
* `resolved_dispatch`, `call_dispatch`: a call leaves in a turn with its own response, because it is late, or with the
  connection.
* `send_cases`: the three things that can come of sending.
-/

namespace RemoteCall

namespace Pending.Table

theorem served_sweep (now : Nat) (t : Table) : t.Served (t.sweep now).2 :=
  served_leave _ (by decide) t

theorem served_abandon (t : Table) : t.Served t.abandon.2 :=
  served_leave _ (by decide) t

/-- A search for late calls spares a call that is in time and has its caller. -/
theorem getElem?_sweep {n : Ticket} {x : Call} {t : Table} (hx : t.calls[n]? = some x) (ho : x.isOpen = true)
    (hp : x.callerPresent = true) (now : Nat) :
    (t.sweep now).2.calls[n]? = some x ∧ now < x.deadline ∨
      (t.sweep now).2.calls[n]? = some { x with exit := some .swept } ∧ x.deadline ≤ now := by
  have hget : (t.sweep now).2.calls[n]? = some (x.leaveIf (Call.isStale now) .swept) := by
    rw [sweep, getElem?_leave, hx, Option.map_some]
  rw [hget]
  by_cases hd : x.deadline ≤ now
  · rw [Call.leaveIf_of_open ho (by simp [Call.isStale, hd])]
    exact .inr ⟨rfl, hd⟩
  · rw [Call.leaveIf_of_not (by simp [Call.isStale, hd, hp])]
    exact .inl ⟨rfl, Nat.lt_of_not_le hd⟩

theorem getElem?_abandon {n : Ticket} {x : Call} {t : Table} (hx : t.calls[n]? = some x)
    (ho : x.isOpen = true) : t.abandon.2.calls[n]? = some { x with exit := some .abandoned } := by
  rw [abandon, getElem?_leave, hx, Option.map_some, Call.leaveIf_of_open ho rfl]

theorem getElem?_resolve_of_ne {n : Ticket} {x : Call} {t : Table} {r : Response}
    (hx : t.calls[n]? = some x) (hid : x.id ≠ r.id) : (t.resolve r.id r).2.calls[n]? = some x := by
  rw [resolve, getElem?_leave, hx, Option.map_some, Call.leaveIf_of_not (by simpa using hid)]

theorem getElem?_resolve {n : Ticket} {x : Call} {t : Table} {r : Response}
    (hx : t.calls[n]? = some x) (ho : x.isOpen = true) (hid : x.id = r.id) :
    (t.resolve r.id r).2.calls[n]? = some { x with exit := some (.resolved r) } := by
  rw [resolve, getElem?_leave, hx, Option.map_some, Call.leaveIf_of_open ho (by simpa using hid)]

theorem served_resolve (id : UInt32) (r : Response) (t : Table) : t.Served (t.resolve id r).2 :=
  served_leave _ ⟨by simp, by simp⟩ t

end Pending.Table

namespace Connection

variable {c c' : Connection} {now : Nat}

/-! ## Turns -/

/-- What holds between a connection and the same connection after turns of its own, or after its end. -/
structure Turned (c c' : Connection) : Prop where
  nextId : c'.generation.nextId = c.generation.nextId
  table : c.generation.table.Served c'.generation.table
  halted : c.running = false → c'.running = false
  inactive : c.link.active = false → c'.link.active = false
  ended : c.running = true → c'.running = false → c'.generation.table.size = 0

theorem Turned.refl (c : Connection) : c.Turned c :=
  ⟨rfl, .refl _, fun h => h, fun h => h, fun h h' => by rw [h] at h'; cases h'⟩

theorem Turned.trans {a b c : Connection} (h : a.Turned b) (h' : b.Turned c) : a.Turned c where
  nextId := h'.nextId.trans h.nextId
  table := h.table.trans h'.table
  halted ha := h'.halted (h.halted ha)
  inactive ha := h'.inactive (h.inactive ha)
  ended ha hc := by
    cases hb : b.running with
    | true => exact h'.ended hb hc
    | false => exact h'.table.follows.size_eq_zero h'.table.length (h.ended ha hb)

theorem turned_link {l : Memory.Link} (h : c.link.active = false → l.active = false) :
    c.Turned { c with link := l } :=
  ⟨rfl, .refl _, fun h => h, h, fun h h' => by rw [show c.running = false from h'] at h; cases h⟩

theorem turned_table {t : Pending.Table} (h : c.generation.table.Served t) :
    c.Turned { c with generation := { c.generation with table := t } } :=
  ⟨rfl, h, fun h => h, fun h => h, fun h h' => by rw [show c.running = false from h'] at h; cases h⟩

/-- Writing fails and changes nothing, or appends. -/
theorem write_cases (p : Packet) (l : Memory.Link) :
    (∃ e, l.write p = (.error e, l)) ∨ l.write p = (.ok (), { l with outbound := l.outbound ++ [p] }) := by
  unfold Memory.Link.write
  split
  · exact .inl ⟨_, rfl⟩
  · split
    · exact .inl ⟨_, rfl⟩
    · split
      · exact .inl ⟨_, rfl⟩
      · exact .inr rfl

theorem active_write (p : Packet) (l : Memory.Link) : (l.write p).2.active = l.active := by
  rcases write_cases p l with ⟨e, h⟩ | h <;> rw [h]

theorem turned_write (p : Packet) (c : Connection) : c.Turned (c.write p).2 :=
  turned_link fun h => (active_write p c.link).trans h

theorem active_send (a : Memory.Inbound) (l : Memory.Link) : (l.send a).active = l.active := by
  unfold Memory.Link.send
  split <;> rfl

theorem active_take (l : Memory.Link) : l.take.2.active = l.active := by
  unfold Memory.Link.take
  split <;> rfl

theorem active_serve (handler : Memory.Link.Handler) (l : Memory.Link) :
    (l.serve handler).active = l.active := by
  have htake := active_take l
  unfold Memory.Link.serve
  split <;> (rename_i heq; rw [heq] at htake)
  · split
    · exact (active_send _ _).trans htake
    · exact htake
  · exact (active_send _ _).trans htake
  · exact htake

/-- A link that has ended stays so, whatever its far end does. -/
theorem turned_act (a : Memory.Link.PeerAct) (c : Connection) :
    c.Turned { c with link := c.link.act a } := by
  refine turned_link fun h => ?_
  unfold Memory.Link.act
  split
  · exact h
  · cases a with
    | send a => exact (active_send a c.link).trans h
    | setWritable writable => exact h
    | setFailWrites fail => exact h
    | read => exact (active_take c.link).trans h
    | serve handler => exact (active_serve handler c.link).trans h
    | hangUp => rfl
    | leave => exact h

theorem turned_sweep (now : Nat) (c : Connection) : c.Turned (c.sweep now) :=
  have h : c.Turned (c.onTable (Pending.Table.sweep now)).2 :=
    turned_table (Pending.Table.served_sweep now c.generation.table)
  ⟨h.nextId, h.table, h.halted, h.inactive, h.ended⟩

theorem turned_await (now : Nat) (c : Connection) : c.Turned (c.await now) :=
  have h := Turned.refl c
  ⟨h.nextId, h.table, h.halted, h.inactive, h.ended⟩

theorem turned_onPacket (p : Packet) (c : Connection) : c.Turned (c.onPacket p) := by
  match p with
  | .response r => exact turned_table (Pending.Table.served_resolve r.id r c.generation.table)
  | .ping .yes => exact turned_write .pong c
  | .ping .no => exact .refl c
  | .pong => exact .refl c
  | .request _ => exact .refl c

theorem turned_stop (c : Connection) : c.Turned c.stop :=
  ⟨rfl, Pending.Table.served_abandon c.generation.table, fun _ => rfl, fun _ => rfl, fun _ _ => size_stop c⟩

theorem turned_teardown (c : Connection) : c.Turned c.teardown :=
  ⟨rfl, Pending.Table.served_abandon c.generation.table, fun _ => rfl, fun _ => rfl, fun _ _ => size_teardown c⟩

theorem turned_release (c : Connection) : c.Turned c.release :=
  ⟨rfl, Pending.Table.served_abandon c.generation.table, fun _ => rfl, fun h => h,
    fun _ _ => Pending.Table.size_abandon c.generation.table⟩

theorem turned_onIdle (now : Nat) (c : Connection) : c.Turned (c.onIdle now) := by
  have h : c.Turned ((c.sweep now).write (.ping c.settings.heartbeatAck)).2 :=
    (turned_sweep now c).trans (turned_write _ _)
  unfold onIdle
  split <;> (rename_i heq; rw [heq] at h)
  · exact h.trans (turned_await now _)
  · exact h.trans (turned_stop _)

theorem active_receive {l l' : Memory.Link} {a : Memory.Received Memory.Inbound}
    (h : l.receive = (a, l')) : l.active = false → l'.active = false := by
  intro hl
  unfold Memory.Link.receive at h
  split at h
  · cases h
    exact hl
  · split at h <;> cases h
    · exact hl
    · rfl

theorem turned_dispatch (now : Nat) (c : Connection) : c.Turned (c.dispatch now) := by
  unfold dispatch
  split
  · split
    · rename_i p l hl
      refine ((turned_link (active_receive hl)).trans (turned_onPacket p _)).trans ?_
      dsimp only
      split
      · exact (turned_sweep now _).trans (turned_await now _)
      · exact turned_await now _
    · rename_i e l hl
      exact (turned_link (active_receive hl)).trans (turned_stop _)
    · rename_i l hl
      exact (turned_link (active_receive hl)).trans (turned_stop _)
    · rename_i l hl
      split
      · exact (turned_link (active_receive hl)).trans (turned_onIdle now _)
      · exact .refl c
  · exact .refl c

/-! ## The verdict of a turn -/

/-- The response that the next turn of the dispatcher takes in, if it does. -/
def response? (c : Connection) : Option Response :=
  match c.running, c.link.inbound with
  | true, .packet (.response r) :: _ => some r
  | _, _ => none

theorem running_onPacket (p : Packet) (c : Connection) : (c.onPacket p).running = c.running := by
  match p with
  | .response r => rfl
  | .ping .yes => rfl
  | .ping .no => rfl
  | .pong => rfl
  | .request _ => rfl

theorem generation_onPacket {p : Packet} (hp : ∀ r, p ≠ .response r) (c : Connection) :
    (c.onPacket p).generation = c.generation := by
  match p with
  | .response r => exact absurd rfl (hp r)
  | .ping .yes => rfl
  | .ping .no => rfl
  | .pong => rfl
  | .request _ => rfl

/-- A dispatcher that has heard nothing for the idle time goes on, or stops. -/
theorem onIdle_cases (now : Nat) (c : Connection) :
    ((c.onIdle now).running = c.running ∧
      (c.onIdle now).generation.table = (c.generation.table.sweep now).2) ∨
    ((c.onIdle now).running = false ∧ (c.onIdle now).link.active = false ∧
      (c.onIdle now).generation.table = (c.generation.table.sweep now).2.abandon.2) := by
  have hrun : ((c.sweep now).write (.ping c.settings.heartbeatAck)).2.running = c.running := rfl
  have htable : ((c.sweep now).write (.ping c.settings.heartbeatAck)).2.generation.table =
      (c.generation.table.sweep now).2 := rfl
  unfold onIdle
  split <;> (rename_i heq; rw [heq] at hrun htable)
  · exact .inl ⟨hrun, htable⟩
  · refine .inr ⟨rfl, rfl, ?_⟩
    rw [← htable]
    rfl

/-- A dispatcher that runs takes in the packet that is there, and may look for late calls after that. -/
theorem dispatch_of_packet {p : Packet} {rest : List Memory.Inbound} (hr : c.running = true)
    (hin : c.link.inbound = .packet p :: rest) (now : Nat) :
    let t := (onPacket p { c with link := { c.link with inbound := rest } }).generation.table
    (c.dispatch now).running = true ∧
      ((c.dispatch now).generation.table = t ∨ (c.dispatch now).generation.table = (t.sweep now).2) := by
  intro t
  rw [dispatch, if_pos hr]
  simp only [Memory.Link.receive, hin]
  split
  · exact ⟨(running_onPacket p _).trans hr, .inr rfl⟩
  · exact ⟨(running_onPacket p _).trans hr, .inl rfl⟩

/-- A dispatcher that runs and finds nothing goes on, or stops when its link has ended or no ping can be written. -/
theorem dispatch_of_nil (hr : c.running = true) (hin : c.link.inbound = []) (now : Nat) :
    let t := c.generation.table
    let c' := c.dispatch now
    (c'.running = true ∧ (c'.generation.table = t ∨ c'.generation.table = (t.sweep now).2)) ∨
      (c'.running = false ∧ c'.link.active = false ∧
        (c'.generation.table = t.abandon.2 ∨ c'.generation.table = (t.sweep now).2.abandon.2)) := by
  intro t c'
  have hc' : c.dispatch now = c' := rfl
  rw [dispatch, if_pos hr] at hc'
  cases hp : c.link.peerHeld with
  | false =>
    simp only [Memory.Link.receive, hin, hp] at hc'
    rw [← hc']
    exact .inr ⟨rfl, rfl, .inl rfl⟩
  | true =>
    simp only [Memory.Link.receive, hin, hp, if_true] at hc'
    by_cases hidle : c.idleAt ≤ now
    · rw [if_pos hidle] at hc'
      rw [← hc']
      rcases onIdle_cases now { c with link := c.link } with ⟨hrun, htable⟩ | ⟨hrun, hact, htable⟩
      · exact .inl ⟨hrun.trans hr, .inr htable⟩
      · exact .inr ⟨hrun, hact, .inr htable⟩
    · rw [if_neg hidle] at hc'
      rw [← hc']
      exact .inl ⟨hr, .inl rfl⟩

/-- What a turn of the dispatcher does to the calls: it takes in a response, or goes on without one, or
stops. It may look for late calls on any of these occasions. -/
theorem dispatch_cases (now : Nat) (c : Connection) :
    let t := c.generation.table
    let c' := c.dispatch now
    (∃ r, c.response? = some r ∧ c'.running = true ∧ (c'.generation.table = (t.resolve r.id r).2 ∨
      c'.generation.table = ((t.resolve r.id r).2.sweep now).2)) ∨
    (c.response? = none ∧ c'.running = c.running ∧
      (c'.generation.table = t ∨ c'.generation.table = (t.sweep now).2)) ∨
    (c.response? = none ∧ c.running = true ∧ c'.running = false ∧ c'.link.active = false ∧
      (c'.generation.table = t.abandon.2 ∨ c'.generation.table = (t.sweep now).2.abandon.2)) := by
  intro t c'
  cases hr : c.running with
  | false =>
    have hc' : c' = c := by
      show c.dispatch now = c
      rw [dispatch, if_neg (by simp [hr])]
    rw [hc']
    exact .inr (.inl ⟨by simp [response?, hr], hr, .inl rfl⟩)
  | true =>
    cases hin : c.link.inbound with
    | nil =>
      have hnone : c.response? = none := by simp [response?, hin]
      rcases dispatch_of_nil hr hin now with ⟨hrun, htable⟩ | ⟨hrun, hact, htable⟩
      · exact .inr (.inl ⟨hnone, hrun, htable⟩)
      · exact .inr (.inr ⟨hnone, rfl, hrun, hact, htable⟩)
    | cons a rest =>
      cases a with
      | fault e =>
        have hc' : c' = stop { c with link := { c.link with inbound := rest } } := by
          show c.dispatch now = _
          rw [dispatch, if_pos hr]
          simp only [Memory.Link.receive, hin]
        rw [hc']
        exact .inr (.inr ⟨by simp [response?, hin], rfl, rfl, rfl, .inl rfl⟩)
      | packet p =>
        obtain ⟨hrun, htable⟩ := dispatch_of_packet hr hin now
        by_cases hp : ∃ r, p = .response r
        · obtain ⟨r, rfl⟩ := hp
          exact .inl ⟨r, by simp [response?, hr, hin], hrun, htable⟩
        · have hp' : ∀ r, p ≠ .response r := fun r h => hp ⟨r, h⟩
          rw [generation_onPacket hp'] at htable
          refine .inr (.inl ⟨?_, hrun, htable⟩)
          cases p <;> simp_all [response?]

/-- A dispatcher that stops by itself has ended its link. -/
theorem active_dispatch (hr : c.running = true) (hs : (c.dispatch now).running = false) :
    (c.dispatch now).link.active = false := by
  rcases dispatch_cases now c with ⟨r, -, hrun, -⟩ | ⟨-, hrun, -⟩ | ⟨-, -, -, hact, -⟩
  · rw [hrun] at hs
    cases hs
  · rw [hrun, hr] at hs
    cases hs
  · exact hact

/-- A response that is taken in ends the call with its id. -/
theorem resolved_dispatch {n : Pending.Ticket} {x : Pending.Call} {r : Response}
    (hr : c.response? = some r) (hx : c.generation.table.calls[n]? = some x) (ho : x.isOpen = true)
    (hid : x.id = r.id) (now : Nat) :
    (c.dispatch now).generation.table.calls[n]? = some { x with exit := some (.resolved r) } := by
  have hres := Pending.Table.getElem?_resolve hx ho hid
  rcases dispatch_cases now c with ⟨r', hr', -, htable⟩ | ⟨hnone, -⟩ | ⟨hnone, -⟩
  · rw [hr] at hr'
    cases hr'
    rcases htable with htable | htable
    · rw [htable, hres]
    · -- what has left already is not swept
      rw [htable, Pending.Table.sweep, Pending.Table.getElem?_leave, hres, Option.map_some,
        Pending.Call.leaveIf_of_closed rfl]
  · rw [hr] at hnone
    cases hnone
  · rw [hr] at hnone
    cases hnone

/-- Without a response of its own a call leaves in a turn only because it is late, or with the connection. -/
theorem call_dispatch {n : Pending.Ticket} {x : Pending.Call} (hno : ∀ r, c.response? = some r → x.id ≠ r.id)
    (hx : c.generation.table.calls[n]? = some x) (ho : x.isOpen = true) (hp : x.callerPresent = true)
    (now : Nat) :
    let c' := c.dispatch now
    (c'.generation.table.calls[n]? = some x ∧ c'.running = c.running) ∨
      (c'.generation.table.calls[n]? = some { x with exit := some .swept } ∧ x.deadline ≤ now) ∨
      (c'.generation.table.calls[n]? = some { x with exit := some .abandoned } ∧
        c.running = true ∧ c'.running = false) := by
  intro c'
  have hsweep {t : Pending.Table} (ht : t.calls[n]? = some x) (hrun : c'.running = c.running)
      (htable : c'.generation.table = (t.sweep now).2) :
      (c'.generation.table.calls[n]? = some x ∧ c'.running = c.running) ∨
        (c'.generation.table.calls[n]? = some { x with exit := some .swept } ∧ x.deadline ≤ now) := by
    rw [htable]
    rcases Pending.Table.getElem?_sweep ht ho hp now with ⟨hget, -⟩ | hswept
    · exact .inl ⟨hget, hrun⟩
    · exact .inr hswept
  rcases dispatch_cases now c with ⟨r, hr, hrun, htable⟩ | ⟨-, hrun, htable⟩ | ⟨-, hrun, hstop, -, htable⟩
  · have hsame : c'.running = c.running := by
      cases hc : c.running with
      | true => exact hrun
      | false => simp [response?, hc] at hr
    have hres := Pending.Table.getElem?_resolve_of_ne hx (hno r hr)
    rcases htable with htable | htable
    · exact .inl ⟨by rw [htable, hres], hsame⟩
    · exact (hsweep hres hsame htable).imp_right .inl
  · rcases htable with htable | htable
    · exact .inl ⟨by rw [htable, hx], hrun⟩
    · exact (hsweep hx hrun htable).imp_right .inl
  · refine .inr ?_
    rcases htable with htable | htable
    · exact .inr ⟨by rw [htable, Pending.Table.getElem?_abandon hx ho], hrun, hstop⟩
    · rcases Pending.Table.getElem?_sweep hx ho hp now with ⟨hget, -⟩ | ⟨hget, hd⟩
      · exact .inr ⟨by rw [htable, Pending.Table.getElem?_abandon hget ho], hrun, hstop⟩
      · refine .inl ⟨?_, hd⟩
        rw [htable, Pending.Table.abandon, Pending.Table.getElem?_leave, hget, Option.map_some,
          Pending.Call.leaveIf_of_closed rfl]

/-! ## Sending -/

/-- What comes of sending. Either there is no one to wait, and the table is as it was but for a call
that has been cancelled, or the new call stands last in the table and its request was written last. -/
theorem send_cases (now : Nat) (o : Outgoing) (c : Connection) :
    let id := c.generation.nextId
    let t := c.generation.table
    let c' := (c.send now o).2
    c'.generation.nextId = id + 1 ∧ c'.running = c.running ∧ c'.link.active = c.link.active ∧
      (((∀ n, (c.send now o).1 ≠ .ok (some n)) ∧
          (c'.generation.table = t ∨ t.holds id = false ∧ c'.generation.table.calls =
            t.calls ++ [{ Pending.Table.newCall now id o.timeoutMs with exit := some .cancelled }])) ∨
        ((c.send now o).1 = .ok (some t.calls.length) ∧ t.holds id = false ∧
          c'.generation.table.calls = t.calls ++ [Pending.Table.newCall now id o.timeoutMs] ∧
          c'.link.outbound = c.link.outbound ++ [.request (o.request id)])) := by
  intro id t c'
  have hc' : (c.send now o).2 = c' := rfl
  unfold send at hc' ⊢
  cases hack : o.ack with
  | no =>
    simp only [hack, Generation.takeId, write] at hc' ⊢
    rcases write_cases (.request (o.request c.generation.nextId)) c.link with ⟨e, hw⟩ | hw
    all_goals
      simp only [hw] at hc' ⊢
      rw [← hc']
      exact ⟨rfl, rfl, rfl, .inl ⟨by simp [Except.map], .inl rfl⟩⟩
  | yes =>
    simp only [hack, Generation.takeId, onTable, Generation.onTable, write] at hc' ⊢
    cases hh : t.holds id with
    | true =>
      simp only [show c.generation.table.holds c.generation.nextId = true from hh,
        Pending.Table.register_of_holds] at hc' ⊢
      rw [← hc']
      exact ⟨rfl, rfl, rfl, .inl ⟨by simp, .inl rfl⟩⟩
    | false =>
      simp only [Pending.Table.register_of_not_holds
        (show c.generation.table.holds c.generation.nextId = false from hh)] at hc' ⊢
      rcases write_cases (.request (o.request c.generation.nextId)) c.link with ⟨e, hw⟩ | hw
      · simp only [hw] at hc' ⊢
        rw [← hc']
        refine ⟨rfl, rfl, rfl, .inl ⟨by simp, .inr ⟨trivial, ?_⟩⟩⟩
        -- of all calls in the table only the new one has the id
        have hold := Pending.Table.leave_eq_self (e := .cancelled) (Pending.Table.not_id_of_not_holds hh)
        have hnew : (Pending.Table.newCall now id o.timeoutMs).leaveIf (fun x => x.id == id) .cancelled =
            { Pending.Table.newCall now id o.timeoutMs with exit := some .cancelled } :=
          Pending.Call.leaveIf_of_open rfl (by simp [Pending.Table.newCall])
        show List.map _ (t.calls ++ [_]) = _
        rw [List.map_append, List.map_singleton]
        rw [hnew]
        exact congrArg (· ++ [_]) (congrArg Pending.Table.calls hold)
      · simp only [hw] at hc' ⊢
        rw [← hc']
        exact ⟨rfl, rfl, rfl, .inr ⟨rfl, trivial, rfl, rfl⟩⟩

/-- A call that someone waits for stands in the table under the next id, and its request was written last. -/
theorem sent_of_ticket {now : Nat} {o : Outgoing} {c : Connection} {n : Pending.Ticket}
    (h : (c.send now o).1 = .ok (some n)) :
    (c.send now o).2.generation.table.calls[n]? =
        some (Pending.Table.newCall now c.generation.nextId o.timeoutMs) ∧
      (c.send now o).2.link.outbound = c.link.outbound ++ [.request (o.request c.generation.nextId)] := by
  obtain ⟨-, -, -, ⟨hno, -⟩ | ⟨hok, -, htable, hout⟩⟩ := c.send_cases now o
  · exact absurd h (hno n)
  · obtain rfl : n = c.generation.table.calls.length := Option.some.inj (Except.ok.inj (h.symm.trans hok))
    rw [htable, List.getElem?_concat_length]
    exact ⟨rfl, hout⟩

end Connection

end RemoteCall
