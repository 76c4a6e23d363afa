import Mathlib.Algebra.Group.Nat.Defs
import Mathlib.Data.Multiset.MapFold
import RemoteCall.Proofs.Session.Steps

/-!
# Tables and callers agree at rest

When no task of a session has anything to do, those who wait are the callers of the calls that stand in the table of the
connection in use.

* `handedOut`: how many request ids a run hands out on a connection.
* `Counted`: the invariant of the ids. As long as they do not begin again, the next id is their number.
* `Agrees`: what holds between the tables of a session and those who wait.
* `agrees_at_rest`: it holds whenever a run comes to rest.
-/

namespace RemoteCall

open Pending (Call Table Ticket)

/-! ## Ids -/

namespace Switchboard

variable {b b' : Switchboard} {i n : Nat} {now : Nat}

/-- The id that the next request over a connection gets. -/
def nextId? (i : Nat) (b : Switchboard) : Option UInt32 :=
  b.connections[i]?.map fun c => c.generation.nextId

/-- Whether the next id of a connection moves on between two switchboards, as a number. -/
def advance (i : Nat) (b b' : Switchboard) : Nat :=
  if (b.nextId? i).isSome ∧ b'.nextId? i ≠ b.nextId? i then 1 else 0

/-- Of a connection that has handed out `n` ids the next id is `n`, and all ids in its table are smaller. -/
structure Counted (i n : Nat) (b : Switchboard) : Prop where
  absent : b.connections[i]? = none → n = 0
  next : ∀ c, b.connections[i]? = some c → c.generation.nextId.toNat = n
  ids : ∀ c, b.connections[i]? = some c → ∀ x ∈ c.generation.table.calls, x.id.toNat < n

theorem ids_of_follows {t t' : Table} (hf : t.Follows t') (hl : t'.calls.length = t.calls.length)
    (h : ∀ x ∈ t.calls, x.id.toNat < n) : ∀ x ∈ t'.calls, x.id.toNat < n := by
  intro x' hx'
  obtain ⟨m, hm⟩ := List.mem_iff_getElem?.mp hx'
  obtain ⟨x, hx, hfx⟩ := hf.exists_of hl hm
  rw [hfx.id]
  exact h x (List.mem_of_getElem? hx)

/-- Without a request no id is handed out. -/
theorem Counted.kept (h : Counted i n b)
    (hmade : ∀ c', b'.connections[i]? = some c' → (∃ c, b.connections[i]? = some c ∧ c.Kept c') ∨
      b.connections[i]? = none ∧ c'.generation.nextId = 0 ∧ c'.generation.table.calls = [])
    (hkept : ∀ c, b.connections[i]? = some c → ∃ c', b'.connections[i]? = some c' ∧ c.Kept c') :
    advance i b b' = 0 ∧ Counted i n b' := by
  refine ⟨?_, ⟨fun hnone => ?_, fun c' hc' => ?_, fun c' hc' => ?_⟩⟩
  · unfold advance nextId?
    cases hc : b.connections[i]? with
    | none => simp
    | some c =>
      obtain ⟨c', hc', hk⟩ := hkept c hc
      simp [hc', hk.nextId]
  · cases hc : b.connections[i]? with
    | none => exact h.absent hc
    | some c =>
      obtain ⟨c', hc', -⟩ := hkept c hc
      rw [hnone] at hc'
      cases hc'
  · rcases hmade c' hc' with ⟨c, hc, hk⟩ | ⟨hnone, hid, -⟩
    · rw [hk.nextId]
      exact h.next c hc
    · rw [hid, h.absent hnone]
      rfl
  · rcases hmade c' hc' with ⟨c, hc, hk⟩ | ⟨-, -, hcalls⟩
    · exact ids_of_follows hk.follows hk.length (h.ids c hc)
    · simp [hcalls]

theorem Counted.moves (h : Counted i n b) (hm : Moves now b b') : advance i b b' = 0 ∧ Counted i n b' :=
  h.kept (fun _ hc' => Moves.made hm hc') fun _ hc => Moves.kept hm hc

theorem Counted.dispatch (h : Counted i n b) (j now : Nat) :
    advance i b (b.modify j (Connection.dispatch now)) = 0 ∧
      Counted i n (b.modify j (Connection.dispatch now)) := by
  have hf (c : Connection) := (c.turned_dispatch now).kept
  refine h.kept (fun c' hc' => .inl ?_) fun c hc => kept_modify hf hc j
  obtain ⟨c, hc, rfl⟩ := exists_of_modify hc'
  split
  · exact ⟨c, hc, hf c⟩
  · exact ⟨c, hc, .refl c⟩

/-- A request takes one id. -/
theorem Counted.send (h : Counted i n b) (hs : Send now b b') (hn : n + advance i b b' < 2 ^ 32) :
    Counted i (n + advance i b b') b' := by
  cases hs with
  | @request j c o hj hc ha =>
    by_cases hji : j = i
    · subst hji
      obtain ⟨hnext, -⟩ := c.send_cases now o
      have hne : c.generation.nextId + 1 ≠ c.generation.nextId := by
        intro heq
        have hval := congrArg UInt32.toNat heq
        rw [UInt32.toNat_add, UInt32.toNat_one] at hval
        have hlt := c.generation.nextId.toNat_lt
        omega
      have hadvance : advance j b { b with
          connections := b.connections.set j (c.send now o).2
          waiters := newWaiter j (c.send now o).1 + b.waiters } = 1 := by
        have hset : (b.connections.set j (c.send now o).2)[j]? = some (c.send now o).2 := getElem?_send hc
        simp [advance, nextId?, hc, hset, hnext, hne]
      rw [hadvance] at hn ⊢
      have hn' := h.next c hc
      refine ⟨fun hnone => ?_, fun c' hc' => ?_, fun c' hc' x hx => ?_⟩
      · rw [getElem?_send hc] at hnone
        cases hnone
      · rw [getElem?_send hc] at hc'
        rw [← Option.some.inj hc', hnext, UInt32.toNat_add, UInt32.toNat_one, hn', Nat.mod_eq_of_lt hn]
      · rw [getElem?_send hc] at hc'
        rw [← Option.some.inj hc'] at hx
        obtain ⟨m, hm⟩ := List.mem_iff_getElem?.mp hx
        rcases exists_of_send hm with hold | ⟨-, hid, -⟩
        · exact Nat.lt_succ_of_lt (h.ids c hc x (List.mem_of_getElem? hold))
        · rw [hid, hn']
          exact Nat.lt_succ_self n
    · have hsame : (b.connections.set j (c.send now o).2)[i]? = b.connections[i]? := List.getElem?_set_ne hji
      have hadvance : advance i b { b with
          connections := b.connections.set j (c.send now o).2
          waiters := newWaiter j (c.send now o).1 + b.waiters } = 0 := by
        simp [advance, nextId?, hsame]
      rw [hadvance]
      exact ⟨fun hc' => h.absent (hsame ▸ hc'), fun c' hc' => h.next c' (hsame ▸ hc'),
        fun c' hc' => h.ids c' (hsame ▸ hc')⟩

theorem Counted.step (h : Counted i n b) (hs : Step now b b') (hn : n + advance i b b' < 2 ^ 32) :
    Counted i (n + advance i b b') b' := by
  cases hs with
  | moved hm =>
    obtain ⟨hzero, hb'⟩ := h.moves hm
    rw [hzero]
    exact hb'
  | sent hs => exact h.send hs hn
  | @failed m hs hw hm =>
    -- what follows a request in vain hands out no more ids
    have hsame : advance i b b' = advance i b m := by
      unfold advance nextId?
      cases hc : b.connections[i]? with
      | none => simp
      | some c =>
        cases hc' : m.connections[i]? with
        | none =>
          cases hs with
          | request hi hj ha =>
            rw [List.getElem?_eq_none_iff, List.length_set] at hc'
            exact absurd (List.getElem?_eq_some_iff.mp hc).1 (Nat.not_lt_of_le hc')
        | some d =>
          obtain ⟨d', hd', hk⟩ := Moves.kept hm hc'
          simp [hd', hk.nextId]
    rw [hsame] at hn ⊢
    exact ((h.send hs hn).moves hm).2

end Switchboard

namespace Session

open Switchboard (Counted)

variable {s : Session} {i n : Nat} {w : Waiting} {x : Call}

section Defs

/-- How many request ids a run hands out on a connection; a step hands out one at most. -/
def handedOut (i : Nat) : List Action → Session → Nat
  | [], _ => 0
  | a :: actions, s => Switchboard.advance i s.board (s.perform a).board + handedOut i actions (s.perform a)

/-- In a step someone begins to wait for a call with an id and a deadline. The request was written last on the link in
use, under the next id, and its time runs from now on. -/
def Issued (w : Waiting) (id : UInt32) (deadline : Nat) (s s' : Session) : Prop :=
  w ∉ s.waiters ∧ w ∈ s'.waiters ∧ ∃ (c c' : Connection) (o : Outgoing),
    s.client.installed = some w.connection ∧ s.connections[w.connection]? = some c ∧
      s'.connections[w.connection]? = some c' ∧
      c'.link.outbound = c.link.outbound ++ [.request (o.request id)] ∧
      id = c.generation.nextId ∧ deadline = s.now + o.timeoutMs

/-- The tables of a session after a run agree with those who wait. -/
structure Agrees (start : Session) (actions : List Action) (s : Session) : Prop where
  /-- Who waits has one call in the table of the connection in use, with the id and the deadline with which it was
  issued, and the deadline is still to come. -/
  waiting : ∀ w ∈ s.waiters, ∃ (c : Connection) (x : Call), s.client.installed = some w.connection ∧
    s.connections[w.connection]? = some c ∧ c.generation.table.calls[w.ticket]? = some x ∧ x.isOpen = true ∧
    c.generation.table.count (fun y => y.id == x.id) = 1 ∧ s.now < x.deadline ∧
    ∃ first a rest, actions = first ++ a :: rest ∧
      Issued w x.id x.deadline (start.run first) ((start.run first).perform a)
  /-- No two of those who wait have the same id. -/
  different : (s.waiters.map fun w => (s.board.call? w).map Call.id).Nodup
  /-- Every other call in that table has lost its caller. -/
  others : ∀ (i : Nat) (c : Connection), s.client.installed = some i → s.connections[i]? = some c →
    ∀ (n : Ticket) (x : Call), c.generation.table.calls[n]? = some x → x.isOpen = true →
      ⟨i, n⟩ ∈ s.waiters ∨ x.callerPresent = false
  /-- Every id in that table was handed out. -/
  allocated : ∀ (i : Nat) (c : Connection), s.client.installed = some i → s.connections[i]? = some c →
    ∀ x ∈ c.generation.table.calls, x.isOpen = true → x.id < c.generation.nextId
  /-- The tables of all earlier connections are empty and stay empty. -/
  earlier : ∀ (i : Nat) (c : Connection), s.connections[i]? = some c → s.client.installed ≠ some i →
    ∀ more, ∃ c', (s.run more).connections[i]? = some c' ∧ c'.generation.table.size = 0

end Defs

/-! ## Runs -/

theorem counted_ofConfig (i : Nat) (config : Config) (codec : Codec) : Counted i 0 (ofConfig config codec).board where
  absent _ := rfl
  next c hc := by simp [board, boardOf, ofConfig] at hc
  ids c hc := by simp [board, boardOf, ofConfig] at hc

/-- A step hands out one id at most. -/
theorem handedOut_le (i : Nat) (actions : List Action) (s : Session) : handedOut i actions s ≤ actions.length := by
  induction actions generalizing s with
  | nil => exact Nat.le_refl 0
  | cons a actions ih =>
    have hone : Switchboard.advance i s.board (s.perform a).board ≤ 1 := by
      unfold Switchboard.advance
      split <;> omega
    have hrest := ih (s.perform a)
    rw [handedOut, List.length_cons]
    omega

theorem handedOut_append (i : Nat) (first second : List Action) (s : Session) :
    handedOut i (first ++ second) s = handedOut i first s + handedOut i second (s.run first) := by
  induction first generalizing s with
  | nil => exact (Nat.zero_add _).symm
  | cons a first ih => rw [List.cons_append, handedOut, handedOut, ih, Nat.add_assoc, run_cons]

theorem counted_run (h : Counted i n s.board) (actions : List Action)
    (hn : n + handedOut i actions s < 2 ^ 32) :
    Counted i (n + handedOut i actions s) (s.run actions).board := by
  induction actions generalizing s n with
  | nil => exact h
  | cons a actions ih =>
    rw [handedOut, ← Nat.add_assoc] at hn ⊢
    refine ih ?_ hn
    rcases dispatch_or_step a s with ⟨j, rfl⟩ | ⟨-, hs⟩
    · rw [board_dispatch]
      obtain ⟨hzero, hb⟩ := h.dispatch j s.now
      rw [hzero]
      exact hb
    · exact h.step hs (Nat.lt_of_le_of_lt (Nat.le_add_right _ _) hn)

theorem call?_perform (hx : s.board.call? w = some x) (a : Action) :
    ∃ x', (s.perform a).board.call? w = some x' ∧ x.Follows x' := by
  rcases dispatch_or_step a s with ⟨j, rfl⟩ | ⟨-, hs⟩
  · obtain ⟨x', hx', hserved⟩ := Switchboard.call?_turned (i := j) (fun c => c.turned_dispatch s.now) hx
    exact ⟨x', hx', hserved.toFollows⟩
  · exact hs.call? hx

theorem call?_run (hx : s.board.call? w = some x) (actions : List Action) :
    ∃ x', (s.run actions).board.call? w = some x' ∧ x.Follows x' := by
  induction actions generalizing s x with
  | nil => exact ⟨x, hx, .refl x⟩
  | cons a actions ih =>
    obtain ⟨y, hy, hxy⟩ := call?_perform hx a
    obtain ⟨z, hz, hyz⟩ := ih hy
    exact ⟨z, hz, hxy.trans hyz⟩

theorem retired_run (h : s.board.Retired i) (actions : List Action) : (s.run actions).board.Retired i := by
  induction actions generalizing s with
  | nil => exact h
  | cons a actions ih =>
    refine ih ?_
    rcases dispatch_or_step a s with ⟨j, rfl⟩ | ⟨-, hs⟩
    · rw [board_dispatch]
      exact ⟨by simpa [Switchboard.modify] using h.1, h.2⟩
    · exact h.step hs

/-- Who begins to wait in a step waits for what was issued in it. -/
theorem issued_perform {a : Action} (hw : w ∈ (s.perform a).waiters) (hnot : w ∉ s.waiters) :
    ∃ x, (s.perform a).board.call? w = some x ∧ Issued w x.id x.deadline s (s.perform a) := by
  rcases dispatch_or_step a s with ⟨j, rfl⟩ | ⟨-, hs⟩
  · exact absurd hw hnot
  · obtain ⟨c, c', o, hi, hc, hc', hout, hx⟩ := hs.issued (w := w) hw hnot
    exact ⟨_, hx, hnot, hw, c, c', o, hi, hc, hc', hout, rfl, rfl⟩

/-- Who waits after a run did so before it, or waits for what was issued in one of its steps. -/
theorem issued_run {actions : List Action} (hw : w ∈ (s.run actions).waiters) :
    w ∈ s.waiters ∨ ∃ first a rest x, actions = first ++ a :: rest ∧
      (s.run actions).board.call? w = some x ∧
      Issued w x.id x.deadline (s.run first) ((s.run first).perform a) := by
  induction actions generalizing s with
  | nil => exact .inl hw
  | cons a actions ih =>
    rcases ih hw with hold | ⟨first, a', rest, x, heq, hx, hissued⟩
    · by_cases hnot : w ∈ s.waiters
      · exact .inl hnot
      · obtain ⟨x, hx, hissued⟩ := issued_perform hold hnot
        obtain ⟨x', hx', hf⟩ := call?_run hx actions
        refine .inr ⟨[], a, actions, x', rfl, hx', ?_⟩
        rw [hf.id, hf.deadline]
        exact hissued
    · exact .inr ⟨a :: first, a', rest, x, by rw [heq]; rfl, hx, hissued⟩

/-! ## Rest -/

/-- Of someone who waits the task rests, so the call has no outcome yet. -/
theorem outcome?_of_atRest (h : s.AtRest) (hw : w ∈ s.waiters) : s.outcome? w = none := by
  rcases Multiset.mem_add.mp hw with hcaller | htask
  · obtain ⟨c, hc, hwait⟩ := List.mem_filterMap.mp (Multiset.mem_coe.mp hcaller)
    obtain ⟨k, hk⟩ := List.mem_iff_getElem?.mp hc
    obtain ⟨hlt, -⟩ := List.getElem?_eq_some_iff.mp hk
    have hready := h (.caller k) (by simp [turns, hlt])
    simpa [isReady, hk, hwait] using hready
  · obtain ⟨t, ht, hprobe⟩ := List.mem_filterMap.mp (Multiset.mem_coe.mp htask)
    obtain ⟨j, hj⟩ := List.mem_iff_getElem?.mp ht
    obtain ⟨hlt, -⟩ := List.getElem?_eq_some_iff.mp hj
    have hready := h (.task j) (by simp [turns, hlt])
    have hstage : t.stage = .probing w := by
      unfold ReconnectTask.probing? at hprobe
      split at hprobe
      · rename_i w' hw'
        rw [hw', Option.some.inj hprobe]
      · cases hprobe
    simpa [isReady, hj, hstage] using hready

theorem outcome?_eq (s : Session) (w : Waiting) : s.outcome? w = (s.board.call? w).bind (Call.outcome? s.now) := by
  simp only [outcome?, Table.outcome?, Switchboard.call?, board, boardOf]
  cases s.connections[w.connection]? <;> rfl

/-- A call without an outcome stands, and is in time. -/
theorem open_of_outcome? (hx : s.board.call? w = some x) (ho : s.outcome? w = none) :
    x.isOpen = true ∧ s.now < x.deadline := by
  rw [outcome?_eq, hx, Option.bind_some] at ho
  have hopen : x.isOpen = true := by
    cases hop : x.isOpen with
    | true => rfl
    | false =>
      obtain ⟨e, he⟩ := Call.isOpen_eq_false_iff.mp hop
      simp only [Call.outcome?, he] at ho
      cases e <;> cases ho
  rw [Call.outcome?_of_open hopen] at ho
  refine ⟨hopen, Nat.lt_of_not_le fun hle => ?_⟩
  rw [if_pos hle] at ho
  cases ho

/-! ## Main statement -/

/-- **At rest the tables agree with those who wait.** In every run that hands out fewer than 2³² ids on each connection,
whenever no task has anything to do. -/
theorem agrees_at_rest (config : Config) (codec : Codec) (actions : List Action)
    (hids : ∀ i, handedOut i actions (ofConfig config codec) < 2 ^ 32)
    (hrest : ((ofConfig config codec).run actions).AtRest) :
    Agrees (ofConfig config codec) actions ((ofConfig config codec).run actions) := by
  have hsound := sound_run (sound_ofConfig config codec) actions
  have hissued {w : Waiting} (hw : w ∈ ((ofConfig config codec).run actions).waiters) :=
    (issued_run hw).resolve_left (by simp [waiters, ofConfig])
  have hcounted (i : Nat) := counted_run (counted_ofConfig i config codec) actions (by simpa using hids i)
  generalize (ofConfig config codec).run actions = s at hrest hsound hissued hcounted ⊢
  have hwaits {w : Waiting} (hw : w ∈ s.waiters) : ∃ c x, s.client.installed = some w.connection ∧
      s.connections[w.connection]? = some c ∧ c.generation.table.calls[w.ticket]? = some x ∧ x.isOpen = true ∧
      s.now < x.deadline := by
    obtain ⟨x, hx, -⟩ := hsound.waited w hw
    obtain ⟨hopen, htime⟩ := open_of_outcome? hx (outcome?_of_atRest hrest hw)
    obtain ⟨c, hc, hcx⟩ := Switchboard.call?_eq_some_iff.mp hx
    have hrun := hsound.isRunning hx hopen
    rw [Switchboard.isRunning_of_getElem? hc] at hrun
    exact ⟨c, x, hsound.used _ c hc hrun, hc, hcx, hopen, htime⟩
  refine ⟨fun w hw => ?_, ?_, fun i c hi hc n x hx ho => ?_, fun i c hi hc x hx ho => ?_, fun i c hc hi more => ?_⟩
  · obtain ⟨c, x, hi, hc, hcx, hopen, htime⟩ := hwaits hw
    refine ⟨c, x, hi, hc, hcx, hopen, ?_, htime, ?_⟩
    · have hholds : c.generation.table.holds x.id = true := Table.holds_iff.mpr ⟨w.ticket, x, hcx, hopen, rfl⟩
      rw [(hsound.distinct _ c hc).count_id x.id, if_pos hholds]
    · obtain ⟨first, a, rest, y, heq, hy, hiss⟩ := hissued hw
      have hx : s.board.call? w = some x := Switchboard.call?_eq_some_iff.mpr ⟨c, hc, hcx⟩
      rw [hx] at hy
      cases hy
      exact ⟨first, a, rest, heq, hiss⟩
  · refine hsound.nodup.map_on fun w hw w' hw' heq => ?_
    obtain ⟨c, x, hi, hc, hcx, hopen, -⟩ := hwaits hw
    obtain ⟨c', x', hi', hc', hcx', hopen', -⟩ := hwaits hw'
    have hconn : w.connection = w'.connection := Option.some.inj (hi.symm.trans hi')
    have hcc' : c = c' := by
      rw [hconn, hc'] at hc
      exact (Option.some.inj hc).symm
    subst hcc'
    rw [Switchboard.call?_of_getElem? (b := s.board) hc, Switchboard.call?_of_getElem? (b := s.board) hc', hcx,
      hcx', Option.map_some, Option.map_some] at heq
    have hticket := (hsound.distinct _ c hc).ticket_eq hcx hcx' hopen hopen' (Option.some.inj heq)
    obtain ⟨i, n⟩ := w
    obtain ⟨i', n'⟩ := w'
    exact congrArg₂ Waiting.mk hconn hticket
  · cases hp : x.callerPresent with
    | false => exact .inr rfl
    | true => exact .inl (hsound.heard ⟨i, n⟩ x (Switchboard.call?_eq_some_iff.mpr ⟨c, hc, hx⟩) ho hp)
  · have hlt := (hcounted i).ids c hc x hx
    rw [← (hcounted i).next c hc] at hlt
    exact hlt
  · have hretired := retired_run (i := i) ⟨(List.getElem?_eq_some_iff.mp hc).1, hi⟩ more
    have hc' := List.getElem?_eq_getElem hretired.1
    exact ⟨_, hc', (sound_run hsound more).size_retired hretired hc'⟩

/-- Of two calls one has lost its caller. Both stand in the table, and one is waited for. -/
theorem agrees_with_lost_caller :
    let actions : List Action := [.connect, .commandFacade, .call 0 "ping" [], .call 0 "ping" [], .abort 1]
    let s := (ofConfig {}).run actions
    s.waiters = {⟨0, 0⟩} ∧ s.connections.map (fun c => c.generation.table.size) = [2] ∧
      Agrees (ofConfig {}) actions s := by
  intro actions s
  have hids (i : Nat) : handedOut i actions (ofConfig {}) < 2 ^ 32 :=
    Nat.lt_of_le_of_lt (handedOut_le i actions _) (by decide)
  have hrest : s.AtRest := by
    unfold AtRest
    decide +kernel
  exact ⟨by decide +kernel, by decide +kernel, agrees_at_rest {} .json actions hids hrest⟩

end Session

end RemoteCall
