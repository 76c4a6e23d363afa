import RemoteCall.Proofs.Session.Switchboard

/-!
# What moves keep

A sequence of moves adds no call and no one who waits. It takes out a call that is waited for only together with
the connection, and it never brings a connection back into use.

* `Move.kept` and `Move.made`: a connection after a move is the same without new calls, or new and without calls.
* `Moves.fate`: what moves do to a call that stands and is waited for.
* `Retired`: a connection that was in use and is not any more. It stays so.
-/

namespace RemoteCall

open Pending (Call Table Ticket)

/-- What holds between a connection and the same connection later if nothing was sent over it. -/
structure Connection.Kept (c c' : Connection) : Prop where
  nextId : c'.generation.nextId = c.generation.nextId
  length : c'.generation.table.calls.length = c.generation.table.calls.length
  follows : c.generation.table.Follows c'.generation.table
  halted : c.running = false → c'.running = false

theorem Connection.Kept.refl (c : Connection) : c.Kept c := ⟨rfl, rfl, .refl _, fun h => h⟩

theorem Connection.Kept.trans {a b c : Connection} (h : a.Kept b) (h' : b.Kept c) : a.Kept c :=
  ⟨h'.nextId.trans h.nextId, h'.length.trans h.length, h.follows.trans h'.follows, fun ha => h'.halted (h.halted ha)⟩

theorem Connection.Turned.kept {c c' : Connection} (h : c.Turned c') : c.Kept c' :=
  ⟨h.nextId, h.table.length, h.table.follows, h.halted⟩

namespace Switchboard

variable {b b' : Switchboard} {i : Nat} {c c' : Connection} {now : Nat} {w : Waiting} {x : Call}

/-- Moves in sequence. -/
abbrev Moves (now : Nat) : Switchboard → Switchboard → Prop := Relation.ReflTransGen (Move now)

/-- What a step of a session does that is no turn of a dispatcher. Nothing is sent, or one thing is and that
is all, or it is sent in vain and what the client does about it follows. -/
inductive Step (now : Nat) (b b' : Switchboard) : Prop
  | moved (hm : Moves now b b')
  | sent (hs : Send now b b')
  | failed {m : Switchboard} (hs : Send now b m) (hw : m.waiters = b.waiters) (hm : Moves now m b')

/-- Whether the dispatcher of a connection runs. -/
def isRunning (i : Nat) (b : Switchboard) : Bool := b.connections[i]?.any Connection.running

theorem isRunning_of_getElem? (hc : b.connections[i]? = some c) : b.isRunning i = c.running := by
  simp [isRunning, hc]

/-! ## Connections -/

theorem kept_leave {f : Table → Table} {n : Ticket} (hf : f = Table.finish n ∨ f = Table.forget n)
    (c : Connection) : c.Kept (onTable f c) :=
  have h := left_leave hf c.generation.table
  ⟨rfl, h.length, h.follows, fun h => h⟩

theorem kept_modify {f : Connection → Connection} (hf : ∀ c : Connection, c.Kept (f c))
    (hc : b.connections[i]? = some c) (j : Nat) :
    ∃ c', (b.modify j f).connections[i]? = some c' ∧ c.Kept c' := by
  by_cases hji : j = i
  · subst hji
    exact ⟨f c, getElem?_modify_self hc, hf c⟩
  · exact ⟨c, (getElem?_modify_of_ne hji).trans hc, .refl c⟩

/-- What each move that adds no connection does to all of them. -/
theorem Move.changes (hm : Move now b b') :
    (∃ c₀ : Connection, b'.connections = b.connections ++ [c₀] ∧ c₀.generation.nextId = 0 ∧
        c₀.generation.table.calls = []) ∨
      ∃ j f, (∀ c : Connection, c.Kept (f c)) ∧ b'.connections = (b.modify j f).connections := by
  cases hm with
  | @uninstall i f hi hf =>
    refine .inr ⟨i, f, fun c => ?_, rfl⟩
    rcases hf with rfl | rfl
    · exact c.turned_teardown.kept
    · exact c.turned_release.kept
  | install link number settings hi => exact .inl ⟨_, rfl, rfl, rfl⟩
  | @leave w rest f hw hf => exact .inr ⟨w.connection, onTable f, kept_leave hf, rfl⟩
  | @act i a => exact .inr ⟨i, _, fun c => (c.turned_act a).kept, rfl⟩

theorem Move.kept (hm : Move now b b') (hc : b.connections[i]? = some c) :
    ∃ c', b'.connections[i]? = some c' ∧ c.Kept c' := by
  rcases hm.changes with ⟨c₀, heq, -⟩ | ⟨j, f, hf, heq⟩
  · obtain ⟨hlt, -⟩ := List.getElem?_eq_some_iff.mp hc
    exact ⟨c, by rw [heq, List.getElem?_append_left hlt, hc], .refl c⟩
  · rw [heq]
    exact kept_modify hf hc j

theorem Move.made (hm : Move now b b') (hc' : b'.connections[i]? = some c') :
    (∃ c, b.connections[i]? = some c ∧ c.Kept c') ∨
      b.connections[i]? = none ∧ c'.generation.nextId = 0 ∧ c'.generation.table.calls = [] := by
  rcases hm.changes with ⟨c₀, heq, hid, htable⟩ | ⟨j, f, hf, heq⟩
  · rw [heq] at hc'
    rcases Pending.getElem?_concat hc' with hold | ⟨rfl, rfl⟩
    · exact .inl ⟨c', hold, .refl c'⟩
    · exact .inr ⟨List.getElem?_eq_none (Nat.le_refl _), hid, htable⟩
  · rw [heq] at hc'
    obtain ⟨c, hc, rfl⟩ := exists_of_modify hc'
    split
    · exact .inl ⟨c, hc, hf c⟩
    · exact .inl ⟨c, hc, .refl c⟩

theorem Moves.kept (hm : Moves now b b') (hc : b.connections[i]? = some c) :
    ∃ c', b'.connections[i]? = some c' ∧ c.Kept c' := by
  induction hm with
  | refl => exact ⟨c, hc, .refl c⟩
  | tail _ hm ih =>
    obtain ⟨d, hd, hcd⟩ := ih
    obtain ⟨c', hc', hdc⟩ := hm.kept hd
    exact ⟨c', hc', hcd.trans hdc⟩

theorem Moves.made (hm : Moves now b b') (hc' : b'.connections[i]? = some c') :
    (∃ c, b.connections[i]? = some c ∧ c.Kept c') ∨
      b.connections[i]? = none ∧ c'.generation.nextId = 0 ∧ c'.generation.table.calls = [] := by
  induction hm generalizing c' with
  | refl => exact .inl ⟨c', hc', .refl c'⟩
  | tail hbefore hm ih =>
    rcases hm.made hc' with ⟨d, hd, hk⟩ | ⟨hnone, hnew⟩
    · rcases ih hd with ⟨c, hc, hcd⟩ | ⟨hnone, hid, hcalls⟩
      · exact .inl ⟨c, hc, hcd.trans hk⟩
      · refine .inr ⟨hnone, hk.nextId.trans hid, List.eq_nil_of_length_eq_zero ?_⟩
        rw [hk.length, hcalls, List.length_nil]
    · refine .inr ⟨?_, hnew⟩
      cases hc : b.connections[i]? with
      | none => rfl
      | some c =>
        obtain ⟨d, hd, -⟩ := Moves.kept hbefore hc
        rw [hnone] at hd
        cases hd

/-! ## Who waits -/

theorem Move.waiters (hm : Move now b b') (hw : w ∈ b'.waiters) : w ∈ b.waiters := by
  cases hm with
  | uninstall hi hf => exact hw
  | install link number settings hi => exact hw
  | leave hrest hf =>
    rw [hrest]
    exact Multiset.mem_cons_of_mem hw
  | act => exact hw

theorem Moves.waiters (hm : Moves now b b') (hw : w ∈ b'.waiters) : w ∈ b.waiters := by
  induction hm with
  | refl => exact hw
  | tail _ hm ih => exact ih (hm.waiters hw)

theorem Sound.moves (h : b.Sound) (hm : Moves now b b') : b'.Sound := by
  induction hm with
  | refl => exact h
  | tail _ hm ih => exact ih.move hm

theorem Sound.step (h : b.Sound) (hs : Step now b b') : b'.Sound := by
  cases hs with
  | moved hm => exact h.moves hm
  | sent hs => exact h.send hs
  | failed hs _ hm => exact (h.send hs).moves hm

/-! ## One call -/

theorem Moves.call? (hm : Moves now b b') (hx : b.call? w = some x) :
    ∃ x', b'.call? w = some x' ∧ x.Follows x' := by
  obtain ⟨c, hc, hcx⟩ := call?_eq_some_iff.mp hx
  obtain ⟨c', hc', hk⟩ := hm.kept hc
  obtain ⟨x', hx', hf⟩ := hk.follows _ _ hcx
  exact ⟨x', call?_eq_some_iff.mpr ⟨c', hc', hx'⟩, hf⟩

theorem Step.call? (hs : Step now b b') (hx : b.call? w = some x) :
    ∃ x', b'.call? w = some x' ∧ x.Follows x' := by
  cases hs with
  | moved hm => exact hm.call? hx
  | sent hs => exact ⟨x, hs.call? hx, .refl x⟩
  | failed hs _ hm => exact hm.call? (hs.call? hx)

/-- Who begins to wait in a step waits for a new call. It has the next id, its request was written last, and its
time runs from now on. -/
theorem Step.issued (hs : Step now b b') (hw : w ∈ b'.waiters) (hnot : w ∉ b.waiters) :
    ∃ (c c' : Connection) (o : Outgoing), b.inUse = some w.connection ∧
      b.connections[w.connection]? = some c ∧
      b'.connections[w.connection]? = some c' ∧
      c'.link.outbound = c.link.outbound ++ [.request (o.request c.generation.nextId)] ∧
      b'.call? w = some (Table.newCall now c.generation.nextId o.timeoutMs) := by
  cases hs with
  | moved hm => exact absurd (hm.waiters hw) hnot
  | failed hs heq hm => exact absurd (heq ▸ hm.waiters hw) hnot
  | sent hs =>
    cases hs with
    | @request i c o hi hc ha =>
      obtain ⟨hok, hwi⟩ := mem_newWaiter.mp ((Multiset.mem_add.mp hw).resolve_right hnot)
      subst hwi
      obtain ⟨hcall, hout⟩ := Connection.sent_of_ticket hok
      exact ⟨c, _, o, hi, hc, getElem?_send hc, hout, call?_eq_some_iff.mpr ⟨_, getElem?_send hc, hcall⟩⟩

/-- The connection of a call that stands runs. -/
theorem Sound.isRunning (h : b.Sound) (hx : b.call? w = some x) (ho : x.isOpen = true) :
    b.isRunning w.connection = true := by
  obtain ⟨c, hc, hcx⟩ := call?_eq_some_iff.mp hx
  rw [isRunning_of_getElem? hc]
  cases hr : c.running with
  | true => rfl
  | false => exact absurd (h.empty _ c hc hr) (Table.size_ne_zero hcx ho)

/-- What may have become of a call that stood and is still waited for: it stands, or it left when its
connection ended. -/
def Fate (w : Waiting) (x : Call) (b : Switchboard) : Prop :=
  ∃ x', b.call? w = some x' ∧ x.Follows x' ∧
    (x'.exit = none ∧ b.isRunning w.connection = true ∨
      x'.exit = some .abandoned ∧ b.isRunning w.connection = false)

theorem Move.fate (h : b.Sound) (hm : Move now b b') (hw : w ∈ b'.waiters) (hx : b.call? w = some x)
    (ho : x.isOpen = true) : Fate w x b' := by
  have hrun := h.isRunning hx ho
  have hopen := Call.isOpen_iff.mp ho
  obtain ⟨c, hc, hcx⟩ := call?_eq_some_iff.mp hx
  have hcr : c.running = true := by rw [← isRunning_of_getElem? hc]; exact hrun
  cases hm with
  | @uninstall i f hi hf =>
    -- the one connection that runs is the one in use
    have hwi := h.used _ c hc hcr
    rw [hi] at hwi
    have hwi' : i = w.connection := Option.some.inj hwi
    subst hwi'
    refine ⟨{ x with exit := some .abandoned }, ?_, Call.follows_exit ho .abandoned, .inr ⟨rfl, ?_⟩⟩
    · show (b.modify w.connection f).call? w = _
      rw [call?_modify_self hc, ← Table.getElem?_abandon hcx ho]
      rcases hf with rfl | rfl <;> rfl
    · show (b.modify w.connection f).isRunning w.connection = false
      rw [isRunning_of_getElem? (getElem?_modify_self hc)]
      rcases hf with rfl | rfl <;> rfl
  | install link number settings hi =>
    have hc' : (b.connections ++ [Connection.start now link number settings])[w.connection]? = some c := by
      rw [List.getElem?_append_left (List.getElem?_eq_some_iff.mp hc).1, hc]
    exact ⟨x, call?_eq_some_iff.mpr ⟨c, hc', hcx⟩, .refl x, .inl ⟨hopen, (isRunning_of_getElem? hc').trans hcr⟩⟩
  | @leave w' rest f hrest hf =>
    have hnodup := h.nodup
    rw [hrest, Multiset.nodup_cons] at hnodup
    have hne : w ≠ w' := fun heq => hnodup.1 (heq ▸ hw)
    have hp := h.present (hrest ▸ Multiset.mem_cons_of_mem hw) hx
    refine ⟨x, (call?_leave hf hp).mpr ⟨hne, hx⟩, .refl x, .inl ⟨hopen, ?_⟩⟩
    obtain ⟨c', hc', -⟩ := kept_modify (kept_leave hf) hc w'.connection
    obtain ⟨d, hd, rfl⟩ := exists_of_modify hc'
    rw [hc] at hd
    cases hd
    refine (isRunning_of_getElem? hc').trans ?_
    split <;> exact hcr
  | @act i a =>
    obtain ⟨c', hc', -⟩ := kept_modify (fun c => (c.turned_act a).kept) hc i
    obtain ⟨d, hd, rfl⟩ := exists_of_modify hc'
    rw [hc] at hd
    cases hd
    refine ⟨x, call?_eq_some_iff.mpr ⟨_, hc', ?_⟩, .refl x, .inl ⟨hopen, (isRunning_of_getElem? hc').trans ?_⟩⟩
    · split <;> exact hcx
    · split <;> exact hcr

theorem Moves.fate (hm : Moves now b b') (h : b.Sound) (hw : w ∈ b'.waiters) (hx : b.call? w = some x)
    (ho : x.isOpen = true) : Fate w x b' := by
  induction hm with
  | refl => exact ⟨x, hx, .refl x, .inl ⟨Call.isOpen_iff.mp ho, h.isRunning hx ho⟩⟩
  | tail hbefore hm ih =>
    obtain ⟨y, hy, hxy, ⟨hexit, -⟩ | ⟨hexit, hhalted⟩⟩ := ih (hm.waiters hw)
    · obtain ⟨z, hz, hyz, hcases⟩ := hm.fate (h.moves hbefore) hw hy (Call.isOpen_iff.mpr hexit)
      exact ⟨z, hz, hxy.trans hyz, hcases⟩
    · -- once abandoned, it stays so
      have hclosed : y.isOpen = false := Call.isOpen_eq_false_iff.mpr ⟨_, hexit⟩
      obtain ⟨z, hz, hyz⟩ := Moves.call? (.single hm) hy
      refine ⟨z, hz, hxy.trans hyz, .inr ⟨(hyz.exit hclosed).trans hexit, ?_⟩⟩
      obtain ⟨c, hc, -⟩ := call?_eq_some_iff.mp hy
      obtain ⟨c', hc', hk⟩ := hm.kept hc
      rw [isRunning_of_getElem? hc] at hhalted
      rw [isRunning_of_getElem? hc']
      exact hk.halted hhalted

theorem Step.fate (h : b.Sound) (hs : Step now b b') (hw : w ∈ b'.waiters) (hx : b.call? w = some x)
    (ho : x.isOpen = true) : Fate w x b' := by
  have hsend {m : Switchboard} (hs : Send now b m) : Fate w x m := by
    have hx' := hs.call? hx
    exact ⟨x, hx', .refl x, .inl ⟨Call.isOpen_iff.mp ho, (h.send hs).isRunning hx' ho⟩⟩
  cases hs with
  | moved hm => exact hm.fate h hw hx ho
  | sent hs => exact hsend hs
  | failed hs _ hm => exact hm.fate (h.send hs) hw (hs.call? hx) ho

/-! ## Connections that are not in use any more -/

/-- A connection that was made and is not in use. -/
def Retired (i : Nat) (b : Switchboard) : Prop := i < b.connections.length ∧ b.inUse ≠ some i

theorem Retired.move (h : b.Retired i) (hm : Move now b b') : b'.Retired i := by
  obtain ⟨hlt, hu⟩ := h
  cases hm with
  | uninstall hi hf => exact ⟨by simpa [modify] using hlt, by simp⟩
  | install link number settings hi =>
    refine ⟨?_, fun h => Nat.ne_of_gt hlt (Option.some.inj h)⟩
    rw [List.length_append]
    exact Nat.lt_add_right _ hlt
  | leave hw hf => exact ⟨by simpa [modify] using hlt, hu⟩
  | act => exact ⟨by simpa [modify] using hlt, hu⟩

theorem Retired.moves (h : b.Retired i) (hm : Moves now b b') : b'.Retired i := by
  induction hm with
  | refl => exact h
  | tail _ hm ih => exact ih.move hm

theorem Retired.send (h : b.Retired i) (hs : Send now b b') : b'.Retired i := by
  cases hs with
  | request hi hc ha => exact ⟨by simpa using h.1, h.2⟩

theorem Retired.step (h : b.Retired i) (hs : Step now b b') : b'.Retired i := by
  cases hs with
  | moved hm => exact h.moves hm
  | sent hs => exact h.send hs
  | failed hs _ hm => exact (h.send hs).moves hm

/-- The calls of a connection that is not in use have all left. -/
theorem Sound.size_retired (h : b.Sound) (hr : b.Retired i) (hc : b.connections[i]? = some c) :
    c.generation.table.size = 0 := by
  cases hrun : c.running with
  | true => exact absurd (h.used i c hc hrun) hr.2
  | false => exact h.empty i c hc hrun

end Switchboard

end RemoteCall
