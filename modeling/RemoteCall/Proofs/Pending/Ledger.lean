import RemoteCall.Proofs.Pending.Calls

/-!
# Every call leaves its table once

A desk is a table with its callers and a ledger of what the operations have reported. The wait of a caller whose
time is up is two steps, with anything in between: the timer fires and the caller stops listening (`poll`), and
then it takes its call out (`evict`).

* `Desk.Good`: the invariant. The ledger is balanced, and a call has its caller exactly as long as that waits.
* `calls_leave_once`: each call that was registered stands in the table or has left it, once; the operation that
  took it out decides what its waiting caller gets; operations that report a failure change nothing.
-/

namespace RemoteCall.Pending

/-! ## Desks -/

section Defs

/-- Where a caller stands. -/
inductive Stage where
  | waiting
  /-- Its timer has fired and it no longer listens, but its call is still to be taken out. -/
  | leaving
  | served (o : Outcome)
  | gone

/-- What the operations have reported, each kind summed up. -/
structure Ledger where
  registered : Nat := 0
  resolved : Nat := 0
  cancelled : Nat := 0
  evicted : Nat := 0
  swept : Nat := 0
  abandoned : Nat := 0
  deriving DecidableEq, Repr

/-- How many calls have left. -/
def Ledger.left (l : Ledger) : Nat := l.resolved + l.cancelled + l.evicted + l.swept + l.abandoned

/-- A table, its callers by their tickets, and the ledger. -/
structure Desk where
  now : Nat := 0
  table : Table := {}
  callers : List Stage := []
  ledger : Ledger := {}

/-- What happens at a desk. -/
inductive Op where
  | register (id : UInt32) (timeoutMs : Nat)
  | resolve (id : UInt32) (r : Response)
  | cancel (id : UInt32)
  | sweep (moment : Nat)
  | abandon
  /-- A caller goes away. -/
  | drop (n : Ticket)
  /-- A waiting caller looks for its outcome, or finds that its time is up. -/
  | poll (n : Ticket)
  /-- A caller whose time was up takes its call out. -/
  | evict (n : Ticket)
  | pass (ms : Nat)
  deriving DecidableEq, Repr

/-- What an operation that takes a call out gives to the caller. -/
def Op.gives (id : UInt32) (timeoutMs : Nat) : Op → Option Outcome
  | .resolve _ r => some (.ok r)
  | .sweep _ => some (.error (.callTimeout id timeoutMs))
  | .cancel _ => some (.error .connectionClosed)
  | .abandon => some (.error .connectionClosed)
  | _ => none

namespace Desk

/-- Whether a call stands in the table. -/
def stands (n : Ticket) (d : Desk) : Bool := d.table.calls[n]?.any Call.isOpen

/-- A waiting caller looks for its outcome. A call that still stands then is late. -/
def poll (n : Ticket) (d : Desk) : Desk :=
  match d.callers[n]?, d.table.outcome? d.now n with
  | some .waiting, some o =>
    { d with
      table := d.table.forget n
      callers := d.callers.set n (if d.stands n then .leaving else .served o) }
  | _, _ => d

/-- A caller whose time was up takes out the call under its id, if nobody waits for that. -/
def evict (n : Ticket) (d : Desk) : Desk :=
  match d.callers[n]?, d.table.calls[n]? with
  | some .leaving, some c =>
    let (found, table) := d.table.evict c.id
    { d with
      table
      callers := d.callers.set n (.served (.error c.timedOut))
      ledger := { d.ledger with evicted := d.ledger.evicted + found.toNat } }
  | _, _ => d

/-- A caller that waits goes away. -/
def drop (n : Ticket) (d : Desk) : Desk :=
  match d.callers[n]? with
  | some .waiting => { d with table := d.table.forget n, callers := d.callers.set n .gone }
  | _ => d

/-- What comes of an operation. -/
def step (op : Op) (d : Desk) : Desk :=
  match op with
  | .register id timeoutMs =>
    match d.table.register d.now id timeoutMs with
    | (.ok _, table) =>
      { d with
        table
        callers := d.callers ++ [.waiting]
        ledger := { d.ledger with registered := d.ledger.registered + 1 } }
    | (.error _, table) => { d with table }
  | .resolve id r =>
    let (found, table) := d.table.resolve id r
    { d with table, ledger := { d.ledger with resolved := d.ledger.resolved + found.toNat } }
  | .cancel id =>
    let (found, table) := d.table.cancel id
    { d with table, ledger := { d.ledger with cancelled := d.ledger.cancelled + found.toNat } }
  | .sweep moment =>
    let (count, table) := d.table.sweep moment
    { d with table, ledger := { d.ledger with swept := d.ledger.swept + count } }
  | .abandon =>
    let (count, table) := d.table.abandon
    { d with table, ledger := { d.ledger with abandoned := d.ledger.abandoned + count } }
  | .drop n => d.drop n
  | .poll n => d.poll n
  | .evict n => d.evict n
  | .pass ms => { d with now := d.now + ms }

/-- What comes of one operation after another. -/
def run (ops : List Op) (d : Desk) : Desk := ops.foldl (fun d op => d.step op) d

/-- How often a call goes out of the table in a run. -/
def departures (n : Ticket) : List Op → Desk → Nat
  | [], _ => 0
  | op :: ops, d =>
    (if d.stands n && !(d.step op).stands n then 1 else 0) + departures n ops (d.step op)

/-- A caller that has not gone away has got an outcome, or gets it whenever it looks. -/
def Gives (n : Ticket) (o : Outcome) (d : Desk) : Prop :=
  (d.callers[n]? = some .waiting ∧ ∀ now, d.table.outcome? now n = some o) ∨
    d.callers[n]? = some (.served o) ∨ d.callers[n]? = some .gone

/-- The own timer of a caller has fired. -/
def TimedOut (n : Ticket) (id : UInt32) (timeoutMs : Nat) (d : Desk) : Prop :=
  d.callers[n]? = some .leaving ∨ d.callers[n]? = some (.served (.error (.callTimeout id timeoutMs)))

/-- The course of a call with a ticket, from the desk at which it has just been registered. -/
structure Course (n : Ticket) (id : UInt32) (timeoutMs : Nat) (d : Desk) (ops : List Op) : Prop where
  /-- It goes out once, unless it still stands. -/
  once : departures n ops d = if (d.run ops).stands n then 0 else 1
  /-- What takes it out while its caller waits decides what the caller gets, at whatever time it looks. -/
  removed : ∀ first op rest, ops = first ++ op :: rest → (d.run first).callers[n]? = some .waiting →
    (d.run first).stands n = true → ((d.run first).step op).stands n = false →
    ∃ o, op.gives id timeoutMs = some o ∧ (d.run ops).Gives n o
  /-- While it stands, its caller gets nothing before its own deadline, and its time-out from then on. -/
  standing : (d.run ops).callers[n]? = some .waiting → (d.run ops).stands n = true → ∀ now,
    (d.run ops).table.outcome? now n =
      if d.now + timeoutMs ≤ now then some (.error (.callTimeout id timeoutMs)) else none
  /-- A caller whose timer has fired gets its time-out, whatever takes its call out. -/
  late : ∀ first rest, ops = first ++ .poll n :: rest → (d.run first).callers[n]? = some .waiting →
    (d.run first).stands n = true → d.now + timeoutMs ≤ (d.run first).now →
    (d.run ops).TimedOut n id timeoutMs

end Desk

end Defs

namespace Desk

variable {d : Desk} {n : Ticket} {c : Call}

@[simp] theorem run_nil (d : Desk) : d.run [] = d := rfl

@[simp] theorem run_cons (op : Op) (ops : List Op) (d : Desk) : d.run (op :: ops) = (d.step op).run ops := rfl

theorem run_append (first rest : List Op) (d : Desk) : d.run (first ++ rest) = (d.run first).run rest := by
  simp [run, List.foldl_append]

/-! ## The invariant -/

/-- The ledger is balanced, calls that stand have different ids, and a call has its caller exactly as long as that
waits. -/
structure Good (d : Desk) : Prop where
  length : d.callers.length = d.table.calls.length
  distinct : d.table.Distinct
  present : ∀ (n : Ticket) (c : Call), d.table.calls[n]? = some c →
    (c.callerPresent = true ↔ d.callers[n]? = some Stage.waiting)
  kept : ∀ (n : Ticket) (c : Call), d.table.calls[n]? = some c → c.callerPresent = true →
    c.exit ≠ some Exit.evicted
  balanced : d.ledger.registered = d.table.size + d.ledger.left

theorem good_empty : Good {} where
  length := rfl
  distinct := Table.distinct_empty
  present n c h := by simp at h
  kept n c h := by simp at h
  balanced := rfl

/-- Calls leave, and the ledger says how many. -/
theorem Good.leave (h : d.Good) {p : Call → Bool} {e : Exit}
    (he : e = .evicted → ∀ c, p c = true → c.callerPresent = false) {l : Ledger}
    (hr : l.registered = d.ledger.registered) (hl : l.left = d.ledger.left + d.table.count p) :
    Good { d with table := d.table.leave p e, ledger := l } where
  length := (h.length).trans (Table.length_leave p e d.table).symm
  distinct := Table.distinct_leave h.distinct
  present n c' hc' := by
    obtain ⟨c, hc, rfl⟩ := Table.exists_of_leave hc'
    rw [Call.callerPresent_leaveIf]
    exact h.present n c hc
  kept n c' hc' hpr := by
    obtain ⟨c, hc, rfl⟩ := Table.exists_of_leave hc'
    rw [Call.callerPresent_leaveIf] at hpr
    by_cases hop : (c.isOpen && p c) = true
    · obtain ⟨ho, hp⟩ := Bool.and_eq_true_iff.mp hop
      rw [Call.leaveIf_of_open ho hp]
      intro hev
      rw [he (Option.some.inj hev) c hp] at hpr
      cases hpr
    · rw [Call.leaveIf, if_neg hop]
      exact h.kept n c hc hpr
  balanced := by
    have hs := Table.size_leave p e d.table
    have hb := h.balanced
    show l.registered = (d.table.leave p e).size + l.left
    omega

/-- A caller that waits stops waiting. -/
theorem Good.forget (h : d.Good) (hw : d.callers[n]? = some .waiting) {st : Stage} (hst : st ≠ .waiting) :
    Good { d with table := d.table.forget n, callers := d.callers.set n st } where
  length := by
    rw [List.length_set, Table.length_forget]
    exact h.length
  distinct := Table.distinct_forget h.distinct n
  present m c' hc' := by
    obtain ⟨c, hc, rfl⟩ := Table.exists_of_forget hc'
    by_cases hnm : n = m
    · subst hnm
      obtain ⟨hlt, -⟩ := List.getElem?_eq_some_iff.mp hw
      rw [if_pos rfl, List.getElem?_set_self hlt]
      simpa using hst
    · rw [if_neg hnm, List.getElem?_set_ne hnm]
      exact h.present m c hc
  kept m c' hc' hpr := by
    obtain ⟨c, hc, rfl⟩ := Table.exists_of_forget hc'
    by_cases hnm : n = m
    · rw [if_pos hnm] at hpr
      cases hpr
    · rw [if_neg hnm] at hpr ⊢
      exact h.kept m c hc hpr
  balanced := by
    rw [Table.size_forget]
    exact h.balanced

/-- A caller whose time was up has its outcome. -/
theorem Good.served (h : d.Good) (hl : d.callers[n]? = some .leaving) (o : Outcome) :
    Good { d with callers := d.callers.set n (.served o) } where
  length := by
    rw [List.length_set]
    exact h.length
  distinct := h.distinct
  present m c hc := by
    rw [h.present m c hc]
    by_cases hnm : n = m
    · subst hnm
      obtain ⟨hlt, -⟩ := List.getElem?_eq_some_iff.mp hl
      rw [List.getElem?_set_self hlt, hl]
      simp
    · rw [List.getElem?_set_ne hnm]
  kept := h.kept
  balanced := h.balanced

theorem Good.register (h : d.Good) (id : UInt32) (timeoutMs : Nat) : (d.step (.register id timeoutMs)).Good := by
  cases hh : d.table.holds id with
  | true =>
    have hstep : d.step (.register id timeoutMs) = d := by simp [step, Table.register_of_holds hh]
    rw [hstep]
    exact h
  | false =>
    simp only [step, Table.register_of_not_holds hh]
    refine ⟨?_, ?_, ?_, ?_, ?_⟩
    · simp [h.length]
    · have hd := Table.distinct_register h.distinct d.now id timeoutMs
      rwa [Table.register_of_not_holds hh] at hd
    · intro n c hc
      rcases getElem?_concat hc with hold | ⟨rfl, rfl⟩
      · obtain ⟨hlt, -⟩ := List.getElem?_eq_some_iff.mp hold
        rw [← h.length] at hlt
        rw [List.getElem?_append_left hlt]
        exact h.present n c hold
      · rw [← h.length, List.getElem?_concat_length]
        simp [Table.newCall]
    · intro n c hc hpr
      rcases getElem?_concat hc with hold | ⟨rfl, rfl⟩
      · exact h.kept n c hold hpr
      · simp [Table.newCall]
    · have hb := h.balanced
      have hs : Table.size ⟨d.table.calls ++ [Table.newCall d.now id timeoutMs]⟩ = d.table.size + 1 := by
        simp [Table.size, Table.newCall, Call.isOpen]
      show d.ledger.registered + 1 = Table.size _ + d.ledger.left
      rw [hs]
      omega

/-- Of the calls with an id as many leave as the table reports. -/
theorem Good.toNat_holds (h : d.Good) (id : UInt32) :
    (d.table.holds id).toNat = d.table.count fun c => c.id == id := by
  rw [h.distinct.count_id id]
  cases d.table.holds id <;> rfl

/-- Each step keeps the invariant. -/
theorem Good.step (h : d.Good) (op : Op) : (d.step op).Good := by
  cases op with
  | register id timeoutMs => exact h.register id timeoutMs
  | resolve id r =>
    refine h.leave (fun he => by cases he) rfl ?_
    simp only [Ledger.left, h.toNat_holds]
    omega
  | cancel id =>
    refine h.leave (fun he => by cases he) rfl ?_
    simp only [Ledger.left, h.toNat_holds]
    omega
  | sweep moment =>
    refine h.leave (fun he => by cases he) rfl ?_
    simp only [Ledger.left]
    omega
  | abandon =>
    refine h.leave (fun he => by cases he) rfl ?_
    have hc : d.table.count (fun _ => true) = d.table.size := by simp [Table.count, Table.size]
    simp only [Ledger.left, hc]
    omega
  | drop n =>
    simp only [Desk.step, Desk.drop]
    split
    · rename_i hw
      exact h.forget hw (by simp)
    · exact h
  | poll n =>
    simp only [Desk.step, Desk.poll]
    split
    · rename_i o hw ho
      exact h.forget hw (by split <;> simp)
    · exact h
  | evict n =>
    simp only [Desk.step, Desk.evict]
    split
    · rename_i c hl hc
      have hgood : Good { d with
          table := (d.table.evict c.id).2
          ledger := { d.ledger with evicted := d.ledger.evicted + (d.table.evict c.id).1.toNat } } := by
        refine h.leave (fun _ x hx => ?_) rfl ?_
        · simpa using (Bool.and_eq_true_iff.mp hx).2
        · have hle := h.distinct.count_le_one c.id fun x => !x.callerPresent
          have hf : (d.table.evict c.id).1.toNat =
              d.table.count (fun x => x.id == c.id && !x.callerPresent) := by
            simp only [Table.evict]
            rcases Nat.le_one_iff_eq_zero_or_eq_one.mp hle with h0 | h1
            · simp [h0]
            · simp [h1]
          simp only [Ledger.left, hf]
          omega
      exact hgood.served hl _
    · exact h
  | pass ms => exact ⟨h.length, h.distinct, h.present, h.kept, h.balanced⟩

theorem Good.run (h : d.Good) (ops : List Op) : (d.run ops).Good := by
  induction ops generalizing d with
  | nil => exact h
  | cons op ops ih => exact ih (h.step op)

/-! ## One call in a run -/

theorem stands_iff : d.stands n = true ↔ ∃ c, d.table.calls[n]? = some c ∧ c.isOpen = true := by
  unfold stands
  rw [Option.any_eq_true]

theorem stands_of_getElem? (h : d.table.calls[n]? = some c) : d.stands n = c.isOpen := by
  simp [stands, h]

theorem step_follows (op : Op) (d : Desk) : d.table.Follows (d.step op).table := by
  cases op with
  | register id timeoutMs =>
    have h := Table.follows_register d.now id timeoutMs d.table
    simp only [step]
    split <;> (rename_i heq; rw [heq] at h; exact h)
  | resolve id r => exact Table.follows_leave _ _ _
  | cancel id => exact Table.follows_leave _ _ _
  | sweep moment => exact Table.follows_leave _ _ _
  | abandon => exact Table.follows_leave _ _ _
  | drop m =>
    simp only [step, drop]
    split
    · exact Table.follows_forget m d.table
    · exact .refl _
  | poll m =>
    simp only [step, poll]
    split
    · exact Table.follows_forget m d.table
    · exact .refl _
  | evict m =>
    simp only [step, evict]
    split
    · exact Table.follows_leave _ _ _
    · exact .refl _
  | pass ms => exact .refl _

theorem run_follows (ops : List Op) (d : Desk) : d.table.Follows (d.run ops).table := by
  induction ops generalizing d with
  | nil => exact .refl _
  | cons op ops ih => exact (step_follows op d).trans (ih (d.step op))

/-- A call that has left does not come back. -/
theorem stands_step_eq_false (hc : d.table.calls[n]? = some c) (hs : d.stands n = false) (op : Op) :
    (d.step op).stands n = false := by
  obtain ⟨c', hc', hf⟩ := step_follows op d n c hc
  rw [stands_of_getElem? hc] at hs
  rw [stands_of_getElem? hc']
  exact hf.closed hs

/-- What a step does to the stage of a caller: only a caller's own steps change it. -/
theorem callers_step {st : Stage} (h : d.callers[n]? = some st) (op : Op) :
    (d.step op).callers[n]? = some st ∨
      (st = .waiting ∧ (op = .poll n ∨ op = .drop n ∧ (d.step op).callers[n]? = some .gone)) ∨
      (st = .leaving ∧ op = .evict n ∧ ∃ c, d.table.calls[n]? = some c ∧
        (d.step op).callers[n]? = some (.served (.error c.timedOut))) := by
  obtain ⟨hlt, -⟩ := List.getElem?_eq_some_iff.mp h
  cases op with
  | register id timeoutMs =>
    left
    simp only [step]
    split
    · rw [List.getElem?_append_left hlt]
      exact h
    · exact h
  | resolve id r => exact .inl h
  | cancel id => exact .inl h
  | sweep moment => exact .inl h
  | abandon => exact .inl h
  | pass ms => exact .inl h
  | drop m =>
    simp only [step, drop]
    split
    · rename_i hw
      by_cases hmn : m = n
      · subst hmn
        rw [h] at hw
        exact .inr (.inl ⟨Option.some.inj hw, .inr ⟨rfl, List.getElem?_set_self hlt⟩⟩)
      · left
        rw [List.getElem?_set_ne hmn]
        exact h
    · exact .inl h
  | poll m =>
    simp only [step, poll]
    split
    · rename_i o hw ho
      by_cases hmn : m = n
      · subst hmn
        rw [h] at hw
        exact .inr (.inl ⟨Option.some.inj hw, .inl rfl⟩)
      · left
        rw [List.getElem?_set_ne hmn]
        exact h
    · exact .inl h
  | evict m =>
    simp only [step, evict]
    split
    · rename_i c hl hc
      by_cases hmn : m = n
      · subst hmn
        rw [h] at hl
        exact .inr (.inr ⟨Option.some.inj hl, rfl, c, hc, List.getElem?_set_self hlt⟩)
      · left
        rw [List.getElem?_set_ne hmn]
        exact h
    · exact .inl h

theorem stands_forget (m n : Ticket) (t : Table) :
    (t.forget m).calls[n]?.any Call.isOpen = t.calls[n]?.any Call.isOpen := by
  have h := congrArg (·[n]?) (Table.map_forget (f := Call.isOpen) (fun _ => rfl) m t)
  simp only [List.getElem?_map] at h
  cases hm : (t.forget m).calls[n]? <;> cases hn : t.calls[n]? <;> simp_all

/-- A step that takes out the call of a waiting caller leaves that to wait, and gives it its outcome. -/
theorem step_removed (h : d.Good) (hw : d.callers[n]? = some .waiting) (hc : d.table.calls[n]? = some c)
    (ho : c.isOpen = true) {op : Op} (hs : (d.step op).stands n = false) :
    ∃ o, op.gives c.id c.timeoutMs = some o ∧ (d.step op).callers[n]? = some .waiting ∧
      ∀ now, (d.step op).table.outcome? now n = some o := by
  have hpr : c.callerPresent = true := (h.present n c hc).mpr hw
  have hleave (p : Call → Bool) (e : Exit) (hl : ((d.table.leave p e).calls[n]?.any Call.isOpen) = false) :
      p c = true ∧ ∀ now, (d.table.leave p e).outcome? now n = Call.outcome? now { c with exit := some e } := by
    rw [Table.getElem?_leave, hc] at hl
    obtain ⟨hp, heq⟩ := Call.leaveIf_of_left ho hl
    exact ⟨hp, fun now => by rw [Table.outcome?, Table.getElem?_leave, hc, Option.map_some, heq]; rfl⟩
  have hstays : d.stands n = true := by rw [stands_of_getElem? hc]; exact ho
  cases op with
  | register id timeoutMs =>
    have hc' := Table.getElem?_register hc d.now id timeoutMs
    have hst : (d.step (.register id timeoutMs)).stands n = true := by
      rw [stands_iff]
      simp only [step]
      split <;> (rename_i heq; rw [heq] at hc'; exact ⟨c, hc', ho⟩)
    rw [hst] at hs
    cases hs
  | resolve id r => exact ⟨_, rfl, hw, (hleave _ _ hs).2⟩
  | cancel id => exact ⟨_, rfl, hw, (hleave _ _ hs).2⟩
  | sweep moment => exact ⟨_, rfl, hw, (hleave _ _ hs).2⟩
  | abandon => exact ⟨_, rfl, hw, (hleave _ _ hs).2⟩
  | pass ms =>
    rw [show (d.step (.pass ms)).stands n = d.stands n from rfl, hstays] at hs
    cases hs
  | drop m =>
    have hst : (d.step (.drop m)).stands n = d.stands n := by
      simp only [step, drop]
      split
      · exact stands_forget m n d.table
      · rfl
    rw [hst, hstays] at hs
    cases hs
  | poll m =>
    have hst : (d.step (.poll m)).stands n = d.stands n := by
      simp only [step, poll]
      split
      · exact stands_forget m n d.table
      · rfl
    rw [hst, hstays] at hs
    cases hs
  | evict m =>
    simp only [step, evict] at hs
    split at hs
    · -- only a call without a caller is taken out so
      obtain ⟨hp, -⟩ := hleave _ _ hs
      simp [hpr] at hp
    · rw [hstays] at hs
      cases hs

theorem callers_poll {o : Outcome} (hw : d.callers[n]? = some .waiting)
    (ho : d.table.outcome? d.now n = some o) :
    (d.poll n).callers[n]? = some (if d.stands n then .leaving else .served o) := by
  obtain ⟨hlt, -⟩ := List.getElem?_eq_some_iff.mp hw
  simp only [poll, hw, ho]
  exact List.getElem?_set_self hlt

/-- A wait that ends without anything in between is one step of the table. -/
theorem evict_poll {o : Outcome} (hw : d.callers[n]? = some .waiting)
    (ho : d.table.outcome? d.now n = some o) : ((d.poll n).evict n).table = d.table.finish n := by
  cases hc : d.table.calls[n]? with
  | none => simp [Table.outcome?, hc] at ho
  | some c =>
    have hcallers := callers_poll hw ho
    rw [stands_of_getElem? hc] at hcallers
    have htable : (d.poll n).table = d.table.forget n := by simp [poll, hw, ho]
    have hforget := Table.getElem?_forget_self hc
    simp only [Table.finish, hc]
    cases hs : c.isOpen with
    | true =>
      rw [hs, if_pos rfl] at hcallers
      simp only [evict, hcallers, htable, hforget, if_true]
    | false =>
      rw [hs, if_neg Bool.false_ne_true] at hcallers
      simp only [evict, hcallers, htable, Bool.false_eq_true, if_false]

theorem Gives.step {o : Outcome} (hg : d.Gives n o) (hc : d.table.calls[n]? = some c)
    (hs : d.stands n = false) (op : Op) : (d.step op).Gives n o := by
  rcases hg with ⟨hw, ho⟩ | hserved | hgone
  · rcases callers_step hw op with hsame | ⟨-, rfl | ⟨rfl, hdrop⟩⟩ | ⟨hl, -⟩
    · refine .inl ⟨hsame, fun now => ?_⟩
      obtain ⟨c', hc', hf⟩ := step_follows op d n c hc
      rw [stands_of_getElem? hc] at hs
      have h := ho now
      rw [Table.outcome?, hc] at h
      rw [Table.outcome?, hc']
      exact (hf.outcome? hs now now).trans h
    · have hserved := callers_poll hw (ho d.now)
      rw [hs] at hserved
      exact .inr (.inl hserved)
    · exact .inr (.inr hdrop)
    · cases hl
  · rcases callers_step hserved op with hsame | ⟨hst, -⟩ | ⟨hst, -⟩
    · exact .inr (.inl hsame)
    · cases hst
    · cases hst
  · rcases callers_step hgone op with hsame | ⟨hst, -⟩ | ⟨hst, -⟩
    · exact .inr (.inr hsame)
    · cases hst
    · cases hst

theorem Gives.run {o : Outcome} (hg : d.Gives n o) (hc : d.table.calls[n]? = some c)
    (hs : d.stands n = false) (ops : List Op) : (d.run ops).Gives n o := by
  induction ops generalizing d c with
  | nil => exact hg
  | cons op ops ih =>
    obtain ⟨c', hc', -⟩ := step_follows op d n c hc
    exact ih (hg.step hc hs op) hc' (stands_step_eq_false hc hs op)

theorem TimedOut.step {id : UInt32} {timeoutMs : Nat} (ht : d.TimedOut n id timeoutMs)
    (hc : d.table.calls[n]? = some c) (hto : c.timedOut = .callTimeout id timeoutMs) (op : Op) :
    (d.step op).TimedOut n id timeoutMs := by
  rcases ht with hl | hserved
  · rcases callers_step hl op with hsame | ⟨hst, -⟩ | ⟨-, -, c', hc', hserved⟩
    · exact .inl hsame
    · cases hst
    · rw [hc] at hc'
      rw [← Option.some.inj hc', hto] at hserved
      exact .inr hserved
  · rcases callers_step hserved op with hsame | ⟨hst, -⟩ | ⟨hst, -⟩
    · exact .inr hsame
    · cases hst
    · cases hst

theorem TimedOut.run {id : UInt32} {timeoutMs : Nat} (ht : d.TimedOut n id timeoutMs)
    (hc : d.table.calls[n]? = some c) (hto : c.timedOut = .callTimeout id timeoutMs) (ops : List Op) :
    (d.run ops).TimedOut n id timeoutMs := by
  induction ops generalizing d c with
  | nil => exact ht
  | cons op ops ih =>
    obtain ⟨c', hc', hf⟩ := step_follows op d n c hc
    exact ih (ht.step hc hto op) hc' (hf.timedOut.trans hto)

theorem departures_eq (hc : d.table.calls[n]? = some c) (ops : List Op) :
    departures n ops d = if d.stands n && !(d.run ops).stands n then 1 else 0 := by
  induction ops generalizing d c with
  | nil => cases h : d.stands n <;> simp [departures, h]
  | cons op ops ih =>
    obtain ⟨c', hc', -⟩ := step_follows op d n c hc
    rw [departures, ih hc', run_cons]
    cases hs : d.stands n with
    | false => simp [stands_step_eq_false hc hs op]
    | true =>
      cases hs' : (d.step op).stands n with
      | true => simp
      | false =>
        have hrest : ((d.step op).run ops).stands n = false := by
          obtain ⟨c'', hc'', hf⟩ := run_follows ops (d.step op) n c' hc'
          rw [stands_of_getElem? hc'] at hs'
          rw [stands_of_getElem? hc'']
          exact hf.closed hs'
        simp [hrest]

/-- The course of a call that has just been registered. -/
theorem course_of_newCall (h : d.Good) {id : UInt32} {timeoutMs : Nat}
    (hc : d.table.calls[n]? = some (Table.newCall d.now id timeoutMs)) (ops : List Op) :
    Course n id timeoutMs d ops where
  once := by
    rw [departures_eq hc, stands_of_getElem? hc]
    cases (d.run ops).stands n <;> rfl
  removed first op rest hops hw hs hs' := by
    obtain ⟨c, hcf, hf⟩ := run_follows first d n _ hc
    have ho : c.isOpen = true := by rw [← stands_of_getElem? hcf]; exact hs
    obtain ⟨o, hgives, hw', hout⟩ := step_removed (h.run first) hw hcf ho hs'
    obtain ⟨c', hc', -⟩ := step_follows op (d.run first) n c hcf
    refine ⟨o, ?_, ?_⟩
    · rw [hf.id, hf.timeoutMs] at hgives
      exact hgives
    · rw [hops, run_append, run_cons]
      exact Gives.run (.inl ⟨hw', hout⟩) hc' hs' rest
  standing hw hs now := by
    obtain ⟨c, hcr, hf⟩ := run_follows ops d n _ hc
    have ho : c.isOpen = true := by rw [← stands_of_getElem? hcr]; exact hs
    rw [Table.outcome?, hcr, Option.bind_some, Call.outcome?_of_open ho, hf.timedOut, hf.deadline]
    rfl
  late first rest hops hw hs hle := by
    obtain ⟨c, hcf, hf⟩ := run_follows first d n _ hc
    have ho : c.isOpen = true := by rw [← stands_of_getElem? hcf]; exact hs
    have hout : (d.run first).table.outcome? (d.run first).now n = some (.error c.timedOut) := by
      rw [Table.outcome?, hcf, Option.bind_some, Call.outcome?_of_open ho, hf.deadline]
      exact if_pos hle
    have hleaving : ((d.run first).poll n).callers[n]? = some .leaving := by
      rw [callers_poll hw hout, hs]
      rfl
    obtain ⟨c', hc', hf'⟩ := step_follows (.poll n) (d.run first) n c hcf
    rw [hops, run_append, run_cons]
    exact TimedOut.run (.inl hleaving) hc' ((hf.trans hf').timedOut) rest

end Desk

/-! ## Main statement -/

open Desk in
/-- **Every call leaves its table once, and its caller gets what belongs to the way it left.** In every run: what was
registered stands or is reported to have left; each call has its course; a registration fails only for an id that is
taken, and it, a resolution and a cancellation that report a failure change nothing. -/
theorem calls_leave_once (ops : List Op) :
    let d := run ops {}
    d.ledger.registered = d.table.size + d.ledger.resolved + d.ledger.cancelled + d.ledger.evicted +
        d.ledger.swept + d.ledger.abandoned ∧
      (∀ first id timeoutMs rest, ops = first ++ .register id timeoutMs :: rest →
        (run first {}).table.holds id = false →
        Course (run first {}).table.calls.length id timeoutMs (run (first ++ [.register id timeoutMs]) {}) rest) ∧
      (∀ id timeoutMs e, (d.table.register d.now id timeoutMs).1 = .error e →
        e = .duplicateId id ∧ d.table.holds id = true ∧ d.step (.register id timeoutMs) = d) ∧
      (∀ id r, (d.table.resolve id r).1 = false → d.step (.resolve id r) = d) ∧
      (∀ id, (d.table.cancel id).1 = false → d.step (.cancel id) = d) := by
  intro d
  have hgood : d.Good := good_empty.run ops
  refine ⟨?_, ?_, ?_, ?_, ?_⟩
  · have hb := hgood.balanced
    unfold Ledger.left at hb
    omega
  · intro first id timeoutMs rest hops hfree
    have hfirst : (run first {}).Good := good_empty.run first
    have hstep : run (first ++ [.register id timeoutMs]) {} = (run first {}).step (.register id timeoutMs) :=
      run_append first _ {}
    rw [hstep]
    refine course_of_newCall (hfirst.step _) ?_ rest
    simp only [step, Table.register_of_not_holds hfree]
    exact List.getElem?_concat_length
  · intro id timeoutMs e he
    cases hh : d.table.holds id with
    | false =>
      rw [Table.register_of_not_holds hh] at he
      cases he
    | true =>
      rw [Table.register_of_holds hh] at he
      exact ⟨(Except.error.inj he).symm, rfl, by simp [step, Table.register_of_holds hh]⟩
  · intro id r hf
    have hleave := Table.leave_eq_self (e := .resolved r) (Table.not_id_of_not_holds hf)
    have hstep : d.table.resolve id r = (false, d.table) := Prod.ext hf hleave
    simp only [step, hstep]
    rfl
  · intro id hf
    have hleave := Table.leave_eq_self (e := .cancelled) (Table.not_id_of_not_holds hf)
    have hstep : d.table.cancel id = (false, d.table) := Prod.ext hf hleave
    simp only [step, hstep]
    rfl

open Desk in
/-- A caller whose timer has fired comes too late to take its call out: a sweep has done so, and the id has been
registered again. The new call stays, and gets its response. -/
theorem late_eviction_spares_new_call :
    let r : Response := ⟨5, .ok, "", []⟩
    let first : List Op := [.register 5 10, .pass 10, .poll 0, .sweep 10]
    let rest : List Op := [.evict 0, .resolve 5 r]
    let d := run (first ++ .register 5 10 :: rest) {}
    d.ledger = { registered := 2, swept := 1, resolved := 1 } ∧ d.table.size = 0 ∧
      departures 1 rest (run (first ++ [.register 5 10]) {}) = 1 ∧ Gives 1 (.ok r) d := by
  intro r first rest d
  obtain ⟨hbalance, hcourse, -⟩ := calls_leave_once (first ++ .register 5 10 :: rest)
  have course := hcourse first 5 10 rest rfl (by decide)
  obtain ⟨o, ho, hgives⟩ := course.removed [.evict 0] (.resolve 5 r) [] rfl rfl rfl rfl
  have hledger : d.ledger = { registered := 2, swept := 1, resolved := 1 } := rfl
  refine ⟨hledger, ?_, course.once, ?_⟩
  · have hb : d.ledger.registered = d.table.size + d.ledger.resolved + d.ledger.cancelled + d.ledger.evicted +
        d.ledger.swept + d.ledger.abandoned := hbalance
    rw [hledger] at hb
    simp only at hb
    omega
  · rw [← Option.some.inj ho] at hgives
    exact hgives

end RemoteCall.Pending
