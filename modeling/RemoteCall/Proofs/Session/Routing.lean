import RemoteCall.Proofs.Session.Agreement
import RemoteCall.Proofs.Session.Frames

/-!
# Where responses go

An answered call is decided by the first response with its id that the dispatcher of its own connection takes in, or
by the end of that connection, or by its own deadline, whichever is first. Nothing else has a part in it.

* `verdict?`: what a step decides for the call with an id on a connection.
* `punctual`: time passes only while a caller has nothing to do, and not beyond its timer. It holds of every run on a
  virtual clock (`punctual_of_onClock`).
* `Awaits`, `Ripe` and `Told`: the stages of a call that someone waits for, and `Outlook`: what a step makes of the
  first. `Awaits.run` is what becomes of it in a run.
* `Undecided`, `Decided` and `Ended`: the same of the call of a method, whose caller gets a result.
* `call_ends_at_earliest`: the outcome of a call and its moment.
-/

namespace RemoteCall.Session

open Pending (Call Table Outcome)

section Defs

/-- The response that the dispatcher of a connection takes in with a step, if it does. -/
def takenIn? (i : Nat) (a : Action) (s : Session) : Option Response :=
  match a with
  | .turn (.dispatcher j) => if j = i then s.connections[i]?.bind Connection.response? else none
  | _ => none

/-- What a step decides for the call with an id on a connection: its response is taken in, or the connection
ends. -/
def verdict? (i : Nat) (id : UInt32) (a : Action) (s : Session) : Option Outcome :=
  match (s.takenIn? i a).filter fun r => r.id == id with
  | some r => some (.ok r)
  | none =>
    if s.board.isRunning i && !(s.perform a).board.isRunning i then some (.error .connectionClosed)
    else none

/-- The first verdict in a run, with its moment. -/
def firstVerdict? (i : Nat) (id : UInt32) : List Action → Session → Option (Nat × Outcome)
  | [], _ => none
  | a :: actions, s =>
    match s.verdict? i id a with
    | some o => some (s.now, o)
    | none => firstVerdict? i id actions (s.perform a)

/-- The earlier one of a deadline and a verdict. If they coincide either may count. -/
def Earliest (deadline : Nat) (late : Outcome) (verdict : Option (Nat × Outcome)) (m : Nat) (o : Outcome) :
    Prop :=
  (verdict = some (m, o) ∧ m ≤ deadline) ∨
    (m = deadline ∧ o = late ∧ ∀ m' o', verdict = some (m', o') → deadline ≤ m')

/-- What a caller waits for, if it does. -/
def waitsFor? (k : Nat) (s : Session) : Option Waiting := s.callers[k]?.bind Caller.waiting?

/-- Time does not pass in a step while a caller has something to do, nor beyond its timer. -/
def onTime (k : Nat) (a : Action) (s : Session) : Bool :=
  match a, s.waitsFor? k with
  | .pass ms, some w => (s.outcome? w).isNone && (s.deadline? w).all fun t => s.now + ms ≤ t
  | _, _ => true

/-- All steps of a run are on time for a caller. -/
def punctual (k : Nat) : List Action → Session → Bool
  | [], _ => true
  | a :: actions, s => s.onTime k a && punctual k actions (s.perform a)

/-- Time passes only when all tasks rest, and up to the next timer at most. -/
def OnClock : List Action → Session → Prop
  | [], _ => True
  | a :: actions, s =>
    (∀ ms, a = .pass ms → s.AtRest ∧ ∀ t ∈ s.timers, s.now < t → s.now + ms ≤ t) ∧
      OnClock actions (s.perform a)

/-- A caller has ended at a moment with an answer, or it is that moment and its turn will end it so. -/
def EndsAt (k : Nat) (purpose : Purpose) (m : Nat) (a : Answer) (s : Session) : Prop :=
  s.callers[k]? = some ⟨purpose, .ended m a⟩ ∨
    s.now = m ∧ (s.waitsFor? k).isSome ∧
      (s.perform (.turn (.caller k))).callers[k]? = some ⟨purpose, .ended m a⟩

/-- Someone waits for a call that stands and is in time, to whatever purpose. -/
structure Awaits (k : Nat) (p : Purpose) (w : Waiting) (x : Call) (s : Session) : Prop where
  sound : s.board.Sound
  waits : s.callers[k]? = some ⟨p, .waiting w⟩
  call : ∃ y, s.board.call? w = some y ∧ x.Follows y ∧ y.isOpen = true
  inTime : s.now ≤ x.deadline

/-- Someone waits for a call that has left with an outcome at this moment. -/
structure Ripe (k : Nat) (p : Purpose) (w : Waiting) (m : Nat) (o : Outcome) (s : Session) : Prop where
  waits : s.callers[k]? = some ⟨p, .waiting w⟩
  call : ∃ y, s.board.call? w = some y ∧ y.isOpen = false ∧ ∀ now, y.outcome? now = some o
  now : s.now = m

/-- Someone who waited has ended with an answer. -/
structure Told (k : Nat) (p : Purpose) (m : Nat) (answer : Answer) (s : Session) : Prop where
  caller : s.callers[k]? = some ⟨p, .ended m answer⟩
  now : m ≤ s.now

/-- What holds of a session as long as someone waits, and tells what each outcome would mean for it. -/
structure Fixes (k : Nat) (p : Purpose) (w : Waiting) (answer : Outcome → Answer) (P : Session → Prop) : Prop where
  kept : ∀ (s : Session) (a : Action), P s → (s.perform a).callers[k]? = some ⟨p, .waiting w⟩ → P (s.perform a)
  answers : ∀ (s : Session) (o : Outcome), P s → s.answerOf p o = answer o

/-- What comes of a step for a call that someone waits for: it stands, or leaves by the verdict of the step, or its time
is up, and it is swept or its caller finds that in its turn. -/
inductive Outlook (k : Nat) (p : Purpose) (w : Waiting) (x : Call) (a : Action) (s : Session) : Prop
  | stands (hv : s.verdict? w.connection x.id a = none) (h : Awaits k p w x (s.perform a))
  | judged (o : Outcome) (hv : s.verdict? w.connection x.id a = some o) (h : Ripe k p w s.now o (s.perform a))
  | swept (hnow : s.now = x.deadline) (h : Ripe k p w x.deadline (.error x.timedOut) (s.perform a))
  | due (hnow : s.now = x.deadline) (ha : a = .turn (.caller k)) (ho : s.outcome? w = some (.error x.timedOut))

/-- A caller waits for a call that stands and is in time. -/
structure Undecided (k : Nat) (id : FacadeId) (f : Facade) (w : Waiting) (x : Call) (s : Session) : Prop where
  sound : s.board.Sound
  waits : s.callers[k]? = some ⟨.result id, .waiting w⟩
  facade : s.facade? id = some f
  call : ∃ y, s.board.call? w = some y ∧ x.Follows y ∧ y.isOpen = true
  inTime : s.now ≤ x.deadline

/-- A caller waits for a call that has left with an outcome at this moment. -/
structure Decided (k : Nat) (id : FacadeId) (f : Facade) (w : Waiting) (m : Nat) (o : Outcome) (s : Session) :
    Prop where
  waits : s.callers[k]? = some ⟨.result id, .waiting w⟩
  facade : s.facade? id = some f
  call : ∃ y, s.board.call? w = some y ∧ y.isOpen = false ∧ ∀ now, y.outcome? now = some o
  now : s.now = m

/-- A caller has ended with what an outcome means for it. -/
structure Ended (k : Nat) (id : FacadeId) (f : Facade) (m : Nat) (o : Outcome) (s : Session) : Prop where
  caller : s.callers[k]? = some ⟨.result id, .ended m (.result (o.bind f.result))⟩
  now : m ≤ s.now

end Defs

variable {s : Session} {k i m : Nat} {id : FacadeId} {f : Facade} {p : Purpose} {w : Waiting} {x : Call} {o : Outcome}
  {a : Action} {answer : Outcome → Answer} {P : Session → Prop}

/-! ## Verdicts -/

theorem verdict?_of_takenIn {rid : UInt32} {r : Response} (h : s.takenIn? i a = some r) (hid : r.id = rid) :
    s.verdict? i rid a = some (.ok r) := by
  simp [verdict?, h, hid, Option.filter]

theorem filter_takenIn {rid : UInt32} (h : ∀ r, s.takenIn? i a = some r → rid ≠ r.id) :
    ((s.takenIn? i a).filter fun r => r.id == rid) = none := by
  rw [Option.filter_eq_none_iff]
  intro r hr heq
  exact h r hr (beq_iff_eq.mp heq).symm

theorem verdict?_of_same {rid : UInt32} (h : ∀ r, s.takenIn? i a = some r → rid ≠ r.id)
    (hr : (s.perform a).board.isRunning i = s.board.isRunning i) : s.verdict? i rid a = none := by
  simp [verdict?, filter_takenIn h, hr]

theorem verdict?_of_ended {rid : UInt32} (h : ∀ r, s.takenIn? i a = some r → rid ≠ r.id)
    (hr : s.board.isRunning i = true) (hr' : (s.perform a).board.isRunning i = false) :
    s.verdict? i rid a = some (.error .connectionClosed) := by
  simp [verdict?, filter_takenIn h, hr, hr']

/-- Neither a response on another connection nor one with another id is a verdict. -/
theorem verdict?_of_stranger {j : Nat} {rid : UInt32} {r : Response} (hr : s.takenIn? j a = some r)
    (h : j ≠ i ∨ r.id ≠ rid) : s.verdict? i rid a = none := by
  unfold takenIn? at hr
  split at hr
  · rename_i l
    split at hr
    · rename_i hlj
      subst hlj
      obtain ⟨c, hc, hres⟩ := Option.bind_eq_some_iff.mp hr
      by_cases hij : l = i
      · subst hij
        refine verdict?_of_same (fun r' hr' => ?_) ?_
        · simp only [takenIn?, if_true, hc, Option.bind_some, hres] at hr'
          cases hr'
          exact (h.resolve_left fun hne => hne rfl).symm
        · have hc' : s.board.connections[l]? = some c := hc
          rw [board_dispatch, Switchboard.isRunning_of_getElem? (Switchboard.getElem?_modify_self hc'),
            Switchboard.isRunning_of_getElem? hc']
          rcases Connection.dispatch_cases s.now c with ⟨-, -, hrun, -⟩ | ⟨hnone, -⟩ | ⟨hnone, -⟩
          · rw [hrun]
            cases hcr : c.running with
            | true => rfl
            | false => simp [Connection.response?, hcr] at hres
          · rw [hres] at hnone
            cases hnone
          · rw [hres] at hnone
            cases hnone
      · refine verdict?_of_same (fun r' hr' => by simp [takenIn?, hij] at hr') ?_
        rw [board_dispatch, Switchboard.isRunning, Switchboard.getElem?_modify_of_ne hij, Switchboard.isRunning]
    · cases hr
  · cases hr

theorem now_le_firstVerdict {rid : UInt32} {actions : List Action}
    (h : firstVerdict? i rid actions s = some (m, o)) : s.now ≤ m := by
  induction actions generalizing s with
  | nil => cases h
  | cons a actions ih =>
    rw [firstVerdict?] at h
    split at h
    · cases h
      exact Nat.le_refl _
    · exact Nat.le_trans (now_le_perform a s) (ih h)

/-! ## Turns and timers of a caller -/

theorem waitsFor?_eq {p : Purpose} (h : s.callers[k]? = some ⟨p, .waiting w⟩) : s.waitsFor? k = some w := by
  simp [waitsFor?, h, Caller.waiting?]

theorem mem_waiting (h : s.waitsFor? k = some w) : w ∈ s.callers.filterMap Caller.waiting? := by
  obtain ⟨c, hc, hcw⟩ := Option.bind_eq_some_iff.mp h
  exact List.mem_filterMap.mpr ⟨c, List.mem_of_getElem? hc, hcw⟩

theorem mem_waiters (h : s.waitsFor? k = some w) : w ∈ s.waiters :=
  Multiset.mem_add.mpr (.inl (Multiset.mem_coe.mpr (mem_waiting h)))

theorem outcome?_of_call {y : Call} (hy : s.board.call? w = some y) : s.outcome? w = y.outcome? s.now := by
  rw [outcome?_eq, hy, Option.bind_some]

theorem deadline?_eq (s : Session) (w : Waiting) :
    s.deadline? w = (s.board.call? w).bind fun x => if x.isOpen then some x.deadline else none := by
  simp only [deadline?, Table.deadline?, Switchboard.call?, board, boardOf]
  cases s.connections[w.connection]? <;> rfl

/-- While time passes for a caller its call stands, up to its deadline. -/
theorem open_of_onTime {p : Purpose} {y : Call} {ms : Nat} (hk : s.callers[k]? = some ⟨p, .waiting w⟩)
    (hy : s.board.call? w = some y) (ht : s.onTime k (.pass ms) = true) :
    y.isOpen = true ∧ s.now + ms ≤ y.deadline := by
  simp only [onTime, waitsFor?_eq hk] at ht
  obtain ⟨hnone, htimer⟩ := Bool.and_eq_true_iff.mp ht
  obtain ⟨hopen, -⟩ := open_of_outcome? hy (Option.isNone_iff_eq_none.mp hnone)
  rw [deadline?_eq, hy, Option.bind_some, if_pos hopen] at htimer
  exact ⟨hopen, by simpa using htimer⟩

/-- On a virtual clock no time passes before a caller that has something to do has done it. -/
theorem punctual_of_onClock (k : Nat) {actions : List Action} (h : OnClock actions s) :
    punctual k actions s = true := by
  induction actions generalizing s with
  | nil => rfl
  | cons a actions ih =>
    obtain ⟨hone, hrest⟩ := h
    refine Bool.and_eq_true_iff.mpr ⟨?_, ih hrest⟩
    unfold onTime
    split
    · rename_i ms w hw
      obtain ⟨hatRest, htimers⟩ := hone ms rfl
      have hnone := outcome?_of_atRest hatRest (mem_waiters hw)
      rw [hnone, Option.isNone_none, Bool.true_and]
      cases ht : s.deadline? w with
      | none => rfl
      | some t =>
        have htimer : t ∈ s.timers :=
          List.mem_append_left _ (List.mem_append_right _ (List.mem_filterMap.mpr ⟨w, mem_waiting hw, ht⟩))
        rw [deadline?_eq] at ht
        obtain ⟨x, hx, hxt⟩ := Option.bind_eq_some_iff.mp ht
        obtain ⟨hopen, hlt⟩ := open_of_outcome? hx hnone
        rw [if_pos hopen] at hxt
        cases hxt
        exact decide_eq_true (htimers _ htimer hlt)
    · rfl

/-- What comes of the turn of a caller whose call has an outcome. -/
theorem callers_resume (hk : s.callers[k]? = some ⟨p, .waiting w⟩) (ho : s.outcome? w = some o) :
    (s.perform (.turn (.caller k))).callers[k]? = some ⟨p, .ended s.now (s.answerOf p o)⟩ := by
  show (s.resume k).callers[k]? = _
  rw [resume_of_outcome hk rfl ho, (apart_releaseUnheld _).callers]
  have hlt := (List.getElem?_eq_some_iff.mp hk).1
  show (s.callers.set k _)[k]? = _
  rw [List.getElem?_set_self hlt]

theorem endsAt_of_answer (hk : s.callers[k]? = some ⟨p, .waiting w⟩) (ho : s.outcome? w = some o) (hm : s.now = m) :
    EndsAt k p m (s.answerOf p o) s := by
  refine .inr ⟨hm, ?_, ?_⟩
  · rw [waitsFor?_eq hk]
    rfl
  · rw [callers_resume hk ho, hm]

theorem answerOf_result (hf : s.facade? id = some f) (o : Outcome) :
    s.answerOf (.result id) o = .result (o.bind f.result) := by
  simp only [answerOf, resultOf, hf]

theorem endsAt_of_outcome (hk : s.callers[k]? = some ⟨.result id, .waiting w⟩) (hf : s.facade? id = some f)
    (ho : s.outcome? w = some o) (hm : s.now = m) : EndsAt k (.result id) m (.result (o.bind f.result)) s := by
  rw [← answerOf_result hf]
  exact endsAt_of_answer hk ho hm

/-- A step that is the matter of a caller and does not send it away is its turn. -/
theorem eq_turn_of_caller? (h : a.caller? = some k) (ha : a ≠ .abort k) : a = .turn (.caller k) := by
  unfold Action.caller? at h
  split at h
  · exact absurd (congrArg Action.abort (Option.some.inj h)) ha
  · exact congrArg (fun j => Action.turn (.caller j)) (Option.some.inj h)
  · cases h

/-! ## Calls that have left -/

theorem Ripe.outcome? (h : Ripe k p w m o s) : s.outcome? w = some o := by
  obtain ⟨y, hy, -, hout⟩ := h.call
  exact (outcome?_of_call hy).trans (hout _)

/-- A call that has left has its outcome at any time. -/
theorem ripe_of_exit {y : Call} {e : Pending.Exit} (hk : s.callers[k]? = some ⟨p, .waiting w⟩)
    (hy : s.board.call? w = some y) (he : y.exit = some e) (ho : y.outcome? s.now = some o) : Ripe k p w s.now o s := by
  have hclosed : y.isOpen = false := Call.isOpen_eq_false_iff.mpr ⟨e, he⟩
  exact ⟨hk, ⟨y, hy, hclosed, fun now => ((Call.Follows.refl y).outcome? hclosed s.now now).trans ho⟩, rfl⟩

/-- Who waits for a call that has left takes its outcome at once, if not yet. -/
theorem Ripe.perform (h : Ripe k p w m o s) (ha : a ≠ .abort k) (ht : s.onTime k a = true) :
    Ripe k p w m o (s.perform a) ∨ a = .turn (.caller k) := by
  obtain ⟨y, hy, hclosed, houtcome⟩ := h.call
  by_cases hturn : a.caller? = some k
  · exact .inr (eq_turn_of_caller? hturn ha)
  · left
    obtain ⟨z, hz, hyz⟩ := call?_perform hy a
    refine ⟨callers_perform h.waits hturn, ⟨z, hz, hyz.closed hclosed, fun now => ?_⟩, ?_⟩
    · rw [hyz.outcome? hclosed s.now now]
      exact houtcome s.now
    · rcases pass_or_beside a s with ⟨ms, rfl⟩ | hb
      · -- no time passes before the caller has its answer
        obtain ⟨hopen, -⟩ := open_of_onTime h.waits hy ht
        rw [hclosed] at hopen
        cases hopen
      · exact hb.now.trans h.now

theorem Told.perform {answer : Answer} (h : Told k p m answer s) (ha : a ≠ .abort k) :
    Told k p m answer (s.perform a) := by
  have hnow := Nat.le_trans h.now (now_le_perform a s)
  by_cases hturn : a.caller? = some k
  · have hsame : s.perform (.turn (.caller k)) = s := resume_of_not_waiting h.caller rfl
    rw [eq_turn_of_caller? hturn ha, hsame]
    exact h
  · exact ⟨callers_perform h.caller hturn, hnow⟩

theorem Told.run {answer : Answer} {actions : List Action} (h : Told k p m answer s)
    (ha : ∀ a ∈ actions, a ≠ .abort k) : Told k p m answer (s.run actions) := by
  induction actions generalizing s with
  | nil => exact h
  | cons a actions ih =>
    exact ih (h.perform (ha a List.mem_cons_self)) fun a' ha' => ha a' (List.mem_cons_of_mem a ha')

/-- Who has something to do in its turn has its answer after it. -/
theorem Fixes.told (h : Fixes k p w answer P) (hp : P s) (hk : s.callers[k]? = some ⟨p, .waiting w⟩)
    (ho : s.outcome? w = some o) : Told k p s.now (answer o) (s.perform (.turn (.caller k))) := by
  refine ⟨?_, now_le_perform _ s⟩
  rw [callers_resume hk ho, h.answers s o hp]

/-- Who waits for a call that has left, or has got its outcome, has got it later or is about to. -/
theorem Fixes.settles (hfix : Fixes k p w answer P) {actions : List Action}
    (h : (Ripe k p w m o s ∧ P s) ∨ Told k p m (answer o) s) (ha : ∀ a ∈ actions, a ≠ .abort k)
    (ht : punctual k actions s = true) :
    (Ripe k p w m o (s.run actions) ∧ P (s.run actions)) ∨ Told k p m (answer o) (s.run actions) := by
  induction actions generalizing s with
  | nil => exact h
  | cons a actions ih =>
    obtain ⟨hone, hrest⟩ := Bool.and_eq_true_iff.mp ht
    have hnot : a ≠ .abort k := ha a List.mem_cons_self
    refine ih ?_ (fun a' ha' => ha a' (List.mem_cons_of_mem a ha')) hrest
    rcases h with ⟨hripe, hp⟩ | htold
    · rcases hripe.perform hnot hone with hstill | rfl
      · exact .inl ⟨hstill, hfix.kept s a hp hstill.waits⟩
      · right
        rw [← hripe.now]
        exact hfix.told hp hripe.waits hripe.outcome?
    · exact .inr (htold.perform hnot)

/-- Its façade tells what an outcome means for the caller of a method. -/
theorem fixes_result (k : Nat) (id : FacadeId) (f : Facade) (w : Waiting) :
    Fixes k (.result id) w (fun o => .result (o.bind f.result)) fun s => s.facade? id = some f :=
  ⟨fun _ a hf _ => facade?_perform hf a, fun _ o hf => answerOf_result hf o⟩

theorem Decided.ripe (h : Decided k id f w m o s) : Ripe k (.result id) w m o s := ⟨h.waits, h.call, h.now⟩

theorem Ripe.decided (h : Ripe k (.result id) w m o s) (hf : s.facade? id = some f) : Decided k id f w m o s :=
  ⟨h.waits, hf, h.call, h.now⟩

/-- What came of the call of a method that has left or has got its outcome, in terms of its caller. -/
theorem decided_or_ended (h : (Ripe k (.result id) w m o s ∧ s.facade? id = some f) ∨
    Told k (.result id) m (.result (o.bind f.result)) s) : Decided k id f w m o s ∨ Ended k id f m o s := by
  rcases h with ⟨hripe, hf⟩ | htold
  · exact .inl (hripe.decided hf)
  · exact .inr ⟨htold.caller, htold.now⟩

theorem ends_run {actions : List Action} (h : Decided k id f w m o s ∨ Ended k id f m o s)
    (ha : ∀ a ∈ actions, a ≠ .abort k) (ht : punctual k actions s = true) :
    Decided k id f w m o (s.run actions) ∨ Ended k id f m o (s.run actions) := by
  refine decided_or_ended ((fixes_result k id f w).settles ?_ ha ht)
  rcases h with hdecided | hended
  · exact .inl ⟨hdecided.ripe, hdecided.facade⟩
  · exact .inr ⟨hended.caller, hended.now⟩

/-! ## Calls that stand -/

theorem decided_of_exit {y : Call} {e : Pending.Exit} (hk : s.callers[k]? = some ⟨.result id, .waiting w⟩)
    (hf : s.facade? id = some f) (hy : s.board.call? w = some y) (he : y.exit = some e)
    (ho : y.outcome? s.now = some o) : Decided k id f w s.now o s :=
  (ripe_of_exit hk hy he ho).decided hf

/-- No time passes, the caller waits on, and the call stands or has left with its connection. -/
theorem Awaits.of_fate (h : Awaits k p w x s)
    (hk : (s.perform a).callers[k]? = some ⟨p, .waiting w⟩) (hnow : (s.perform a).now = s.now)
    (hno : ∀ r, s.takenIn? w.connection a = some r → x.id ≠ r.id)
    (hfate : ∀ y, s.board.call? w = some y → y.isOpen = true → Switchboard.Fate w y (s.perform a).board) :
    Outlook k p w x a s := by
  obtain ⟨y, hy, hxy, hopen⟩ := h.call
  obtain ⟨z, hz, hyz, ⟨hexit, hrun⟩ | ⟨hexit, hrun⟩⟩ := hfate y hy hopen
  · have hran := h.sound.isRunning hy hopen
    refine .stands (verdict?_of_same hno (hrun.trans hran.symm)) ⟨sound_perform h.sound a, hk, ?_, ?_⟩
    · exact ⟨z, hz, hxy.trans hyz, Call.isOpen_iff.mpr hexit⟩
    · rw [hnow]
      exact h.inTime
  · refine .judged _ (verdict?_of_ended hno (h.sound.isRunning hy hopen) hrun) ?_
    have hripe := ripe_of_exit (o := .error .connectionClosed) hk hz hexit (by simp [Call.outcome?, hexit])
    rw [hnow] at hripe
    exact hripe

/-- The turn of the dispatcher that has to do with the call. -/
theorem Awaits.dispatch (h : Awaits k p w x s) : Outlook k p w x (.turn (.dispatcher w.connection)) s := by
  obtain ⟨y, hy, hxy, hopen⟩ := h.call
  obtain ⟨c, hc, hcy⟩ := Switchboard.call?_eq_some_iff.mp hy
  generalize hs' : s.perform (.turn (.dispatcher w.connection)) = s'
  have hk : s'.callers[k]? = some ⟨p, .waiting w⟩ := hs' ▸ h.waits
  have hnow : s'.now = s.now := hs' ▸ rfl
  have hgot : s'.board.connections[w.connection]? = some (c.dispatch s.now) :=
    hs' ▸ Switchboard.getElem?_modify_self hc
  have hcall := Switchboard.call?_of_getElem? hgot
  have htaken : s.takenIn? w.connection (.turn (.dispatcher w.connection)) = c.response? := by
    have hc' : s.connections[w.connection]? = some c := hc
    simp [takenIn?, hc']
  by_cases hr : ∃ r, c.response? = some r ∧ x.id = r.id
  · obtain ⟨r, hr, hid⟩ := hr
    have hres := Connection.resolved_dispatch hr hcy hopen (hxy.id.trans hid) s.now
    refine .judged (.ok r) (verdict?_of_takenIn (htaken.trans hr) hid.symm) ?_
    rw [hs', ← hnow]
    exact ripe_of_exit hk (hcall.trans hres) rfl rfl
  · have hno (r : Response) (hr' : c.response? = some r) : x.id ≠ r.id := fun hid => hr ⟨r, hr', hid⟩
    have hpresent := h.sound.present (mem_waiters (waitsFor?_eq h.waits)) hy
    have hrunning : c.running = true := by
      rw [← Switchboard.isRunning_of_getElem? hc]
      exact h.sound.isRunning hy hopen
    have hfate (hsame : Switchboard.Fate w y s'.board) : Outlook k p w x (.turn (.dispatcher w.connection)) s := by
      refine h.of_fate h.waits rfl (fun r hr' => hno r (htaken.symm.trans hr')) fun z hz _ => ?_
      rw [hy] at hz
      rw [hs', ← Option.some.inj hz]
      exact hsame
    rcases Connection.call_dispatch (fun r hr' => hxy.id ▸ hno r hr') hcy hopen hpresent s.now with
      ⟨hgone, hrun⟩ | ⟨hgone, hd⟩ | ⟨hgone, -, hrun⟩
    · have hruns := (Switchboard.isRunning_of_getElem? hgot).trans (hrun.trans hrunning)
      exact hfate ⟨y, hcall.trans hgone, .refl y, .inl ⟨Call.isOpen_iff.mp hopen, hruns⟩⟩
    · -- it was swept, so this is its deadline
      rw [hxy.deadline] at hd
      have hdeadline : s.now = x.deadline := Nat.le_antisymm h.inTime hd
      refine .swept hdeadline ?_
      rw [hs', ← hdeadline, ← hnow, ← hxy.timedOut]
      exact ripe_of_exit hk (hcall.trans hgone) rfl rfl
    · have hhalts := (Switchboard.isRunning_of_getElem? hgot).trans hrun
      exact hfate ⟨_, hcall.trans hgone, Call.follows_exit hopen .abandoned, .inr ⟨rfl, hhalts⟩⟩

/-- When its deadline has come the call is late, whether it was swept or not. -/
theorem Awaits.late (h : Awaits k p w x s) (hd : x.deadline ≤ s.now) :
    s.now = x.deadline ∧ s.outcome? w = some (.error x.timedOut) := by
  obtain ⟨y, hy, hxy, hopen⟩ := h.call
  refine ⟨Nat.le_antisymm h.inTime hd, ?_⟩
  rw [outcome?_of_call hy, Call.outcome?_of_open hopen, hxy.deadline, hxy.timedOut, if_pos hd]

/-- The turn of the caller: nothing, or the time is up. -/
theorem Awaits.resume (h : Awaits k p w x s) : Outlook k p w x (.turn (.caller k)) s := by
  by_cases hd : x.deadline ≤ s.now
  · obtain ⟨hdeadline, hout⟩ := h.late hd
    exact .due hdeadline rfl hout
  · have hout : s.outcome? w = none := by
      obtain ⟨y, hy, hxy, hopen⟩ := h.call
      rw [outcome?_of_call hy, Call.outcome?_of_open hopen, hxy.deadline, if_neg hd]
    have hsame : s.perform (.turn (.caller k)) = s := resume_of_no_outcome h.waits rfl hout
    refine h.of_fate (by rw [hsame, h.waits]) (by rw [hsame]) (fun r hr => by cases hr) fun z hz hzo => ?_
    rw [hsame]
    exact ⟨z, hz, .refl z, .inl ⟨Call.isOpen_iff.mp hzo, h.sound.isRunning hz hzo⟩⟩

/-- What any step on time makes of a call that stands. -/
theorem Awaits.perform (h : Awaits k p w x s) (ha : a ≠ .abort k) (ht : s.onTime k a = true) :
    Outlook k p w x a s := by
  by_cases hturn : a.caller? = some k
  · rw [eq_turn_of_caller? hturn ha]
    exact h.resume
  have hk := callers_perform h.waits hturn
  rcases pass_or_beside a s with ⟨ms, rfl⟩ | hb
  · obtain ⟨y, hy, hxy, hopen⟩ := h.call
    obtain ⟨-, hle⟩ := open_of_onTime h.waits hy ht
    refine .stands (verdict?_of_same (fun r hr => by cases hr) rfl) ⟨h.sound, hk, h.call, ?_⟩
    rw [← hxy.deadline]
    exact hle
  rcases dispatch_or_step a s with ⟨j, rfl⟩ | ⟨hno, hs⟩
  · by_cases hj : j = w.connection
    · rw [hj]
      exact h.dispatch
    · -- the turn of another dispatcher
      refine h.of_fate hk hb.now (fun r hr => by simp [takenIn?, hj] at hr) fun y hy hopen => ?_
      have hrun := h.sound.isRunning hy hopen
      rw [board_dispatch]
      refine ⟨y, (Switchboard.call?_modify_of_ne hj).trans hy, .refl y, .inl ⟨Call.isOpen_iff.mp hopen, ?_⟩⟩
      rw [Switchboard.isRunning, Switchboard.getElem?_modify_of_ne hj]
      exact hrun
  · refine h.of_fate hk hb.now (fun r hr => ?_) fun y hy hopen => ?_
    · unfold takenIn? at hr
      split at hr
      · exact absurd rfl (hno _)
      · cases hr
    · exact hs.fate h.sound (mem_waiters (waitsFor?_eq hk)) hy hopen

/-- What becomes of a call that someone waits for in a run: it stands to the end without a verdict, or it has left by
its deadline or the first verdict, whichever is earlier. -/
theorem Awaits.run (hfix : Fixes k p w answer P) {actions : List Action} (h : Awaits k p w x s) (hp : P s)
    (ha : ∀ a ∈ actions, a ≠ .abort k) (ht : punctual k actions s = true) :
    let verdict := firstVerdict? w.connection x.id actions s
    (verdict = none ∧ Awaits k p w x (s.run actions) ∧ P (s.run actions)) ∨
      ∃ m o, Earliest x.deadline (.error x.timedOut) verdict m o ∧
        ((Ripe k p w m o (s.run actions) ∧ P (s.run actions)) ∨ Told k p m (answer o) (s.run actions)) := by
  induction actions generalizing s with
  | nil => exact .inl ⟨rfl, h, hp⟩
  | cons a actions ih =>
    intro verdict
    obtain ⟨hone, hrest⟩ := Bool.and_eq_true_iff.mp ht
    have ha' : ∀ a' ∈ actions, a' ≠ .abort k := fun a' hmem => ha a' (List.mem_cons_of_mem a hmem)
    have hlate (hnow : s.now = x.deadline) :
        Earliest x.deadline (.error x.timedOut) verdict x.deadline (.error x.timedOut) := by
      refine .inr ⟨rfl, rfl, fun m' o' hverdict => ?_⟩
      rw [← hnow]
      exact now_le_firstVerdict hverdict
    cases h.perform (ha a List.mem_cons_self) hone with
    | stands hv hstands =>
      have hverdict : verdict = firstVerdict? w.connection x.id actions (s.perform a) := by
        simp only [verdict, firstVerdict?, hv]
      rw [hverdict]
      exact ih hstands (hfix.kept s a hp hstands.waits) ha' hrest
    | judged o hv hripe =>
      have hverdict : verdict = some (s.now, o) := by
        simp only [verdict, firstVerdict?, hv]
      refine .inr ⟨s.now, o, .inl ⟨hverdict, h.inTime⟩, hfix.settles (s := s.perform a) (.inl ?_) ha' hrest⟩
      exact ⟨hripe, hfix.kept s a hp hripe.waits⟩
    | swept hnow hripe =>
      refine .inr ⟨x.deadline, _, hlate hnow, hfix.settles (s := s.perform a) (.inl ?_) ha' hrest⟩
      exact ⟨hripe, hfix.kept s a hp hripe.waits⟩
    | due hnow hturn hout =>
      refine .inr ⟨x.deadline, _, hlate hnow, hfix.settles (s := s.perform a) (.inr ?_) ha' hrest⟩
      rw [hturn, ← hnow]
      exact hfix.told hp h.waits hout

/-- How someone who waits for a call ends after a run, if it does. -/
theorem Awaits.ends (hfix : Fixes k p w answer P) {actions : List Action} (h : Awaits k p w x s) (hp : P s)
    (ha : ∀ a ∈ actions, a ≠ .abort k) (ht : punctual k actions s = true) :
    let final := s.run actions
    let verdict := firstVerdict? w.connection x.id actions s
    (verdict = none ∧ final.now < x.deadline ∧ final.waitsFor? k = some w) ∨
      ∃ m o, Earliest x.deadline (.error x.timedOut) verdict m o ∧ m ≤ final.now ∧ EndsAt k p m (answer o) final := by
  intro final verdict
  have hends {o : Outcome} {m : Nat} (hwaits : final.callers[k]? = some ⟨p, .waiting w⟩) (hp : P final)
      (hout : final.outcome? w = some o) (hnow : final.now = m) : EndsAt k p m (answer o) final := by
    rw [← hfix.answers final o hp]
    exact endsAt_of_answer hwaits hout hnow
  rcases h.run hfix hp ha ht with ⟨hverdict, hstill, hp'⟩ | ⟨m, o, hearliest, ⟨hripe, hp'⟩ | htold⟩
  · by_cases hd : final.now < x.deadline
    · exact .inl ⟨hverdict, hd, waitsFor?_eq hstill.waits⟩
    · -- the time is up, and only the turn of the caller is left
      obtain ⟨hnow, hout⟩ := hstill.late (Nat.le_of_not_lt hd)
      refine .inr ⟨_, _, .inr ⟨rfl, rfl, fun m' o' h => ?_⟩, Nat.le_of_not_lt hd, hends hstill.waits hp' hout hnow⟩
      cases hverdict.symm.trans h
  · exact .inr ⟨m, o, hearliest, Nat.le_of_eq hripe.now.symm, hends hripe.waits hp' hripe.outcome? hripe.now⟩
  · exact .inr ⟨m, o, hearliest, htold.now, .inl htold.caller⟩

/-! ## Main statement -/

theorem Undecided.awaits (h : Undecided k id f w x s) : Awaits k (.result id) w x s :=
  ⟨h.sound, h.waits, h.call, h.inTime⟩

/-- Who gets no answer at once after a call has sent its request over the connection in use and waits there. -/
theorem call_cases {method : String} {args : List Json}
    (hw : (s.perform (.call id method args)).waitsFor? s.callers.length = some w) :
    ∃ f o c, s.facade? id = some f ∧ f.outgoing method args = .ok o ∧ s.client.installed = some w.connection ∧
      s.connections[w.connection]? = some c ∧ (c.send s.now o).1 = .ok (some w.ticket) ∧
      s.perform (.call id method args) =
        (({ s with connections := s.connections.set w.connection (c.send s.now o).2 } : Session).addCaller
          (.result id) (.waiting w)).2 := by
  have hended (s' : Session) (m : Nat) (answer : Answer) (hs' : s'.callers = s.callers) :
      (s'.addCaller (.result id) (.ended m answer)).2.waitsFor? s.callers.length ≠ some w := by
    rw [← hs']
    simp [waitsFor?, addCaller, Caller.waiting?]
  have hcall : s.perform (.call id method args) = (s.call id method args).2 := rfl
  rw [hcall] at hw ⊢
  unfold call at hw ⊢
  cases hf : s.facade? id with
  | none =>
    simp only [hf] at hw
    exact absurd hw (hended _ _ _ rfl)
  | some f =>
    simp only [hf] at hw ⊢
    rcases invoke_cases f method args s with ⟨e, he⟩ | ⟨i, c, o, ho, hi, hc, -, hsend⟩
    · simp only [he] at hw
      exact absurd hw (hended _ _ _ rfl)
    · rw [hsend] at hw ⊢
      cases hsent : (c.send s.now o).1 with
      | error e =>
        simp only [hsent, Except.map] at hw
        exact absurd hw (hended _ _ _ rfl)
      | ok ticket =>
        cases ticket with
        | none =>
          simp only [hsent, Except.map, Option.map_none] at hw
          exact absurd hw (hended _ _ _ rfl)
        | some n =>
          simp only [hsent, Except.map, Option.map_some] at hw ⊢
          have heq : (⟨i, n⟩ : Waiting) = w := by
            simpa [waitsFor?, addCaller, Caller.waiting?] using hw
          subst heq
          exact ⟨f, o, c, rfl, ho, hi, hc, hsent, rfl⟩

/-- The request of a call that is waited for was written last on the connection in use, under the next id, and its
time runs from now on. -/
theorem undecided_call {method : String} {args : List Json} (hs : s.board.Sound)
    (hw : (s.perform (.call id method args)).waitsFor? s.callers.length = some w) :
    ∃ f o c c', s.facade? id = some f ∧ f.outgoing method args = .ok o ∧ s.client.installed = some w.connection ∧
      s.connections[w.connection]? = some c ∧
      (s.perform (.call id method args)).connections[w.connection]? = some c' ∧
      c'.link.outbound = c.link.outbound ++ [.request (o.request c.generation.nextId)] ∧
      Undecided s.callers.length id f w (Table.newCall s.now c.generation.nextId f.timeoutMs)
        (s.perform (.call id method args)) := by
  obtain ⟨f, o, c, hf, ho, hi, hc, hsend, heq⟩ := call_cases hw
  have hsound := sound_perform hs (.call id method args)
  rw [heq] at hsound ⊢
  have hget : (s.connections.set w.connection (c.send s.now o).2)[w.connection]? = some (c.send s.now o).2 :=
    Switchboard.getElem?_send (b := s.board) hc
  obtain ⟨hcall, hout⟩ := Connection.sent_of_ticket hsend
  refine ⟨f, o, c, _, hf, ho, hi, hc, hget, hout, ⟨hsound, ?_, hf, ⟨_, ?_, .refl _, rfl⟩, Nat.le_add_right _ _⟩⟩
  · exact List.getElem?_concat_length
  · rw [← timeoutMs_outgoing ho]
    exact Switchboard.call?_eq_some_iff.mpr ⟨_, hget, hcall⟩

/-- **A call ends with its own response, its own connection or its own time, whichever comes first.** -/
theorem call_ends_at_earliest (config : Config) (codec : Codec) (before after : List Action) (id : FacadeId)
    (method : String) (args : List Json) (w : Waiting) :
    let s := (ofConfig config codec).run before
    let k := s.callers.length
    let issued := s.perform (.call id method args)
    let final := issued.run after
    issued.waitsFor? k = some w → (∀ a ∈ after, a ≠ .abort k) → punctual k after issued = true →
    ∃ f o c c', s.facade? id = some f ∧ f.outgoing method args = .ok o ∧
      s.client.installed = some w.connection ∧ s.connections[w.connection]? = some c ∧
      issued.connections[w.connection]? = some c' ∧
      let rid := c.generation.nextId
      let deadline := s.now + f.timeoutMs
      let verdict := firstVerdict? w.connection rid after issued
      c'.link.outbound = c.link.outbound ++ [.request (o.request rid)] ∧
      (∀ (t : Session) (a : Action) (j : Nat) (r : Response), t.takenIn? j a = some r →
        j ≠ w.connection ∨ r.id ≠ rid → t.verdict? w.connection rid a = none) ∧
      ((verdict = none ∧ final.now < deadline ∧ final.waitsFor? k = some w) ∨
        ∃ m r, Earliest deadline (.error (.callTimeout rid f.timeoutMs)) verdict m r ∧ m ≤ final.now ∧
          EndsAt k (.result id) m (.result (r.bind f.result)) final) := by
  intro s k issued final hw hstays htime
  have hs := sound_run (sound_ofConfig config codec) before
  obtain ⟨f, o, c, c', hf, ho, hi, hc, hc', hout, hstands⟩ := undecided_call hs hw
  exact ⟨f, o, c, c', hf, ho, hi, hc, hc', hout, fun t a j r hr h => verdict?_of_stranger hr h,
    hstands.awaits.ends (fixes_result _ id f w) hstands.facade hstays htime⟩

/-- Two calls have the same id on two connections. The response that comes late on the first is not taken for the
second. -/
theorem late_response_on_old_connection :
    let before : List Action := [.connect, .commandFacade, .call 0 "ping" [], .connect]
    let r : Response := .success 0 [34, 34]
    let after : List Action := [.peer 0 (.send (.packet (.response (.failure 0 .serverError "late")))),
      .turn (.dispatcher 0), .peer 1 (.send (.packet (.response r))), .turn (.dispatcher 1)]
    let s := (ofConfig {}).run before
    let k := s.callers.length
    let issued := s.perform (.call 0 "ping" [])
    (issued.waitsFor? k = some ⟨1, 0⟩ ∧ punctual k after issued = true) ∧
      ∃ f, s.facade? 0 = some f ∧ EndsAt k (.result 0) 0 (.result (f.result r)) (issued.run after) := by
  intro before r after s k issued
  have hruns : issued.waitsFor? k = some ⟨1, 0⟩ ∧ punctual k after issued = true := by decide +kernel
  have hverdict : firstVerdict? 1 0 after issued = some (0, .ok r) := by decide +kernel
  have hnext : s.connections[1]?.map (fun c => c.generation.nextId) = some 0 := by decide +kernel
  have htimeout : (s.facade? 0).map Facade.timeoutMs = some 5000 := by decide +kernel
  have hstays : ∀ a ∈ after, a ≠ .abort k := by simp [after]
  obtain ⟨f, o, c, c', hf, -, -, hc, -, -, -, hcases⟩ :=
    call_ends_at_earliest {} .json before after 0 "ping" [] ⟨1, 0⟩ hruns.1 hstays hruns.2
  have hid : c.generation.nextId = 0 := by
    rw [show s.connections[1]? = some c from hc] at hnext
    exact Option.some.inj hnext
  rw [hid] at hcases
  refine ⟨hruns, f, hf, ?_⟩
  rcases hcases with ⟨hnone, -⟩ | ⟨m, o', ⟨heq, -⟩ | ⟨-, -, hle⟩, -, hend⟩
  · cases hverdict.symm.trans hnone
  · cases hverdict.symm.trans heq
    exact hend
  · rw [show s.facade? 0 = some f from hf] at htimeout
    have htime : f.timeoutMs = 5000 := Option.some.inj htimeout
    have hle0 : s.now + f.timeoutMs ≤ 0 := hle 0 (.ok r) hverdict
    omega

end RemoteCall.Session
