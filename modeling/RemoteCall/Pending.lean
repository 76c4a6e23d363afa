import RemoteCall.Error

/-!
# Calls that wait for a response

The calls of one connection, in the order in which they were registered. A call stands in the table until it
leaves, and how it leaves decides what its caller gets. Main statements: `register_eq_ok_iff`, an
id can be registered again as soon as its call has left, and `size_leave`, what leaves is no longer there.
-/

namespace RemoteCall.Pending

/-- How a call leaves the table. -/
inductive Exit where
  /-- A response with its id came. -/
  | resolved (r : Response)
  /-- Its request could not be sent. -/
  | cancelled
  /-- Its caller went away or stopped waiting and took it out. -/
  | evicted
  /-- It was found to be late, or without a caller. -/
  | swept
  /-- The connection ended. -/
  | abandoned
  deriving DecidableEq, Repr

/-- What a caller gets. -/
abbrev Outcome := Except CallError Response

/-- A registered call. -/
structure Call where
  id : UInt32
  /-- The moment from which on it is late. -/
  deadline : Nat
  timeoutMs : Nat
  /-- Whether its caller is still there. -/
  callerPresent : Bool := true
  exit : Option Exit := none
  deriving DecidableEq, Repr

namespace Call

/-- Whether a call still stands in the table. -/
def isOpen (c : Call) : Bool := c.exit.isNone

/-- Whether a call is late, or has no caller any more. -/
def isStale (now : Nat) (c : Call) : Bool := c.deadline ≤ now || !c.callerPresent

/-- The error of a call that is late. -/
def timedOut (c : Call) : CallError := .callTimeout c.id c.timeoutMs

/-- What the caller of a call gets at a moment, if it gets anything yet. How the call left counts
before the deadline. -/
def outcome? (now : Nat) (c : Call) : Option Outcome :=
  match c.exit with
  | some (.resolved r) => some (.ok r)
  | some .swept => some (.error c.timedOut)
  | some .evicted => some (.error c.timedOut)
  | some .cancelled => some (.error .connectionClosed)
  | some .abandoned => some (.error .connectionClosed)
  | none => if c.deadline ≤ now then some (.error c.timedOut) else none

/-- A call after those that satisfy a condition have left. -/
def leaveIf (p : Call → Bool) (e : Exit) (c : Call) : Call :=
  if c.isOpen && p c then { c with exit := some e } else c

@[simp] theorem isOpen_leaveIf (p : Call → Bool) (e : Exit) (c : Call) :
    (c.leaveIf p e).isOpen = (c.isOpen && !p c) := by
  unfold leaveIf
  by_cases h : (c.isOpen && p c) = true
  · rw [if_pos h]
    obtain ⟨ho, hp⟩ := Bool.and_eq_true_iff.mp h
    simp [hp, isOpen]
  · rw [if_neg h]
    cases ho : c.isOpen
    · rfl
    · rw [ho] at h
      simpa using h

end Call

/-- What a caller keeps of its call: its place in the order of registration. -/
abbrev Ticket := Nat

/-- All calls that were registered, in their order. -/
structure Table where
  calls : List Call := []
  deriving DecidableEq, Repr

namespace Table

/-- Whether a call under an id stands in the table. -/
def holds (t : Table) (id : UInt32) : Bool := t.calls.any fun c => c.isOpen && c.id == id

/-- How many calls stand in the table. -/
def size (t : Table) : Nat := t.calls.countP Call.isOpen

/-- Lets the calls in the table that satisfy a condition leave. -/
def leave (p : Call → Bool) (e : Exit) (t : Table) : Table :=
  ⟨t.calls.map (Call.leaveIf p e)⟩

/-- How many calls in the table satisfy a condition. -/
def count (p : Call → Bool) (t : Table) : Nat := t.calls.countP fun c => c.isOpen && p c

/-- Registers a call, unless one with its id stands in the table. Its deadline has to be within the range of the
clock. -/
def register (now : Nat) (id : UInt32) (timeoutMs : Nat) (t : Table) :
    Except CallError Ticket × Table :=
  if t.holds id then (.error (.duplicateId id), t)
  else (.ok t.calls.length, ⟨t.calls ++ [{ id, deadline := now + timeoutMs, timeoutMs }]⟩)

/-- Lets the call with the id of a response leave with it; whether there was one. -/
def resolve (id : UInt32) (r : Response) (t : Table) : Bool × Table :=
  (t.holds id, t.leave (fun c => c.id == id) (.resolved r))

/-- Lets the call with an id leave unanswered; whether there was one. -/
def cancel (id : UInt32) (t : Table) : Bool × Table :=
  (t.holds id, t.leave (fun c => c.id == id) .cancelled)

/-- Lets the call with an id leave if its caller is gone; whether it did. -/
def evict (id : UInt32) (t : Table) : Bool × Table :=
  let p (c : Call) := c.id == id && !c.callerPresent
  (0 < t.count p, t.leave p .evicted)

/-- Lets the calls leave that are late or without a caller; how many did. -/
def sweep (now : Nat) (t : Table) : Nat × Table :=
  (t.count (Call.isStale now), t.leave (Call.isStale now) .swept)

/-- Lets all calls leave; how many did. -/
def abandon (t : Table) : Nat × Table := (t.size, t.leave (fun _ => true) .abandoned)

/-- The caller of a call goes away. -/
def forget (ticket : Ticket) (t : Table) : Table :=
  ⟨t.calls.modify ticket fun c => { c with callerPresent := false }⟩

/-- What the caller of a call gets at a moment, if it gets anything yet. -/
def outcome? (now : Nat) (ticket : Ticket) (t : Table) : Option Outcome :=
  t.calls[ticket]?.bind (Call.outcome? now)

/-- A caller stops waiting: it goes away and, if its time was up before its call left, takes the
call out. -/
def finish (ticket : Ticket) (t : Table) : Table :=
  match t.calls[ticket]? with
  | some c => if c.isOpen then ((t.forget ticket).evict c.id).2 else t.forget ticket
  | none => t

/-- The moment at which a call that stands in the table is late. -/
def deadline? (ticket : Ticket) (t : Table) : Option Nat :=
  t.calls[ticket]?.bind fun c => if c.isOpen then some c.deadline else none

/-! ### What the operations do to the calls in the table -/

theorem size_leave (p : Call → Bool) (e : Exit) (t : Table) :
    (t.leave p e).size + t.count p = t.size := by
  simp only [leave, size, count]
  induction t.calls with
  | nil => rfl
  | cons c calls ih =>
    rw [List.map_cons, List.countP_cons, List.countP_cons, List.countP_cons, Call.isOpen_leaveIf, ← ih]
    cases c.isOpen <;> cases p c <;> simp <;> omega

theorem register_eq_ok_iff {now : Nat} {id : UInt32} {timeoutMs : Nat} {t : Table} :
    (t.register now id timeoutMs).1 = .ok t.calls.length ↔ t.holds id = false := by
  unfold register
  by_cases h : t.holds id = true
  · simp [h]
  · simp [h]

theorem size_abandon (t : Table) : t.abandon.2.size = 0 := by
  have h := size_leave (fun _ => true) .abandoned t
  have hc : t.count (fun _ => true) = t.size := by simp [count, size]
  simp only [abandon]
  omega

end Table

end RemoteCall.Pending
