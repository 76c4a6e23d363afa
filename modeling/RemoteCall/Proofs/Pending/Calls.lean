import RemoteCall.Pending

/-!
# What the operations of a table do to one call

A call that has left a table stays as it left, and no operation changes the id, the deadline or the time limit
of a call. No two calls that stand in a table have the same id, so an operation on an id concerns at most one
of them.

* `Call.Follows c c'`: what holds between a call and the same call later.
* `Table.Distinct`: the calls that stand have different ids. It is kept by every operation.
* `count_id`: how many calls with an id stand, none or one.
-/

namespace RemoteCall.Pending

/-- What stands in a list with a new last entry is an old entry or the new one. -/
theorem getElem?_concat {α : Type} {l : List α} {n : Nat} {x y : α} (h : (l ++ [x])[n]? = some y) :
    l[n]? = some y ∨ n = l.length ∧ y = x := by
  rcases Nat.lt_or_ge n l.length with hlt | hge
  · rw [List.getElem?_append_left hlt] at h
    exact .inl h
  · have hn := (List.getElem?_eq_some_iff.mp h).1
    rw [List.length_append, List.length_singleton] at hn
    have hnl : n = l.length := Nat.le_antisymm (Nat.lt_succ_iff.mp hn) hge
    subst hnl
    rw [List.getElem?_concat_length] at h
    exact .inr ⟨rfl, (Option.some.inj h).symm⟩

namespace Call

variable {p : Call → Bool} {e : Exit} {c : Call}

/-! ## Leaving -/

@[simp] theorem id_leaveIf : (c.leaveIf p e).id = c.id := by
  unfold leaveIf
  split <;> rfl

@[simp] theorem deadline_leaveIf : (c.leaveIf p e).deadline = c.deadline := by
  unfold leaveIf
  split <;> rfl

@[simp] theorem timeoutMs_leaveIf : (c.leaveIf p e).timeoutMs = c.timeoutMs := by
  unfold leaveIf
  split <;> rfl

@[simp] theorem callerPresent_leaveIf : (c.leaveIf p e).callerPresent = c.callerPresent := by
  unfold leaveIf
  split <;> rfl

theorem leaveIf_of_closed (h : c.isOpen = false) : c.leaveIf p e = c := by
  simp [leaveIf, h]

theorem leaveIf_of_not (h : p c = false) : c.leaveIf p e = c := by
  simp [leaveIf, h]

theorem leaveIf_of_open (ho : c.isOpen = true) (hp : p c = true) :
    c.leaveIf p e = { c with exit := some e } := by
  simp [leaveIf, ho, hp]

/-- A call that stood and has left did so in the one way there was. -/
theorem leaveIf_of_left (ho : c.isOpen = true) (hl : (c.leaveIf p e).isOpen = false) :
    p c = true ∧ c.leaveIf p e = { c with exit := some e } := by
  rw [isOpen_leaveIf, ho, Bool.true_and, Bool.not_eq_false'] at hl
  exact ⟨hl, leaveIf_of_open ho hl⟩

theorem isOpen_iff : c.isOpen = true ↔ c.exit = none := by
  simp [isOpen]

theorem isOpen_eq_false_iff : c.isOpen = false ↔ ∃ e, c.exit = some e := by
  cases h : c.exit <;> simp [isOpen, h]

/-- While a call stands, its own deadline alone decides what its caller gets. -/
theorem outcome?_of_open (h : c.isOpen = true) (now : Nat) :
    c.outcome? now = if c.deadline ≤ now then some (.error c.timedOut) else none := by
  simp [outcome?, isOpen_iff.mp h]

/-! ## The same call later -/

/-- What holds between a call and the same call later. -/
structure Follows (c c' : Call) : Prop where
  id : c'.id = c.id
  deadline : c'.deadline = c.deadline
  timeoutMs : c'.timeoutMs = c.timeoutMs
  exit : c.isOpen = false → c'.exit = c.exit
  absent : c.callerPresent = false → c'.callerPresent = false

theorem Follows.refl (c : Call) : c.Follows c := ⟨rfl, rfl, rfl, fun _ => rfl, fun h => h⟩

theorem Follows.closed {c c' : Call} (h : c.Follows c') (hc : c.isOpen = false) : c'.isOpen = false := by
  have he := h.exit hc
  unfold isOpen at hc ⊢
  rw [he]
  exact hc

theorem Follows.trans {a b c : Call} (h : a.Follows b) (h' : b.Follows c) : a.Follows c :=
  ⟨h'.id.trans h.id, h'.deadline.trans h.deadline, h'.timeoutMs.trans h.timeoutMs,
    fun ha => (h'.exit (h.closed ha)).trans (h.exit ha), fun ha => h'.absent (h.absent ha)⟩

theorem Follows.timedOut {c c' : Call} (h : c.Follows c') : c'.timedOut = c.timedOut := by
  unfold Call.timedOut
  rw [h.id, h.timeoutMs]

/-- Once a call has left, what its caller gets depends neither on the time nor on what comes later. -/
theorem Follows.outcome? {c c' : Call} (h : c.Follows c') (hc : c.isOpen = false) (now now' : Nat) :
    c'.outcome? now' = c.outcome? now := by
  obtain ⟨e, he⟩ := isOpen_eq_false_iff.mp hc
  have he' : c'.exit = some e := (h.exit hc).trans he
  have ht := h.timedOut
  unfold Call.outcome?
  rw [he, he']
  cases e <;> simp [ht]

theorem follows_exit {c : Call} (ho : c.isOpen = true) (e : Exit) : c.Follows { c with exit := some e } := by
  refine ⟨rfl, rfl, rfl, fun hclosed => ?_, fun h => h⟩
  rw [ho] at hclosed
  cases hclosed

theorem follows_leaveIf (p : Call → Bool) (e : Exit) (c : Call) : c.Follows (c.leaveIf p e) :=
  ⟨id_leaveIf, deadline_leaveIf, timeoutMs_leaveIf, fun h => by rw [leaveIf_of_closed h],
    fun h => by rw [callerPresent_leaveIf]; exact h⟩

/-- A call that nobody waits for any more. If it stood it was taken out. -/
def unawaited (c : Call) : Call := { c with callerPresent := false, exit := some (c.exit.getD .evicted) }

/-! ## Calls that are served -/

/-- What holds between a call and the same call later if only its connection had to do with it: its caller is as
present as before, and if it has left, its caller was told. -/
structure Served (c c' : Call) : Prop extends c.Follows c' where
  present : c'.callerPresent = c.callerPresent
  told : c'.exit = c.exit ∨ ∃ e, c'.exit = some e ∧ e ≠ .evicted ∧ e ≠ .cancelled

theorem Served.refl (c : Call) : c.Served c := ⟨.refl c, rfl, .inl rfl⟩

theorem Served.trans {a b c : Call} (h : a.Served b) (h' : b.Served c) : a.Served c where
  toFollows := h.toFollows.trans h'.toFollows
  present := h'.present.trans h.present
  told := by
    rcases h'.told with hbc | hleft
    · rw [hbc]
      exact h.told
    · exact .inr hleft

theorem served_leaveIf (p : Call → Bool) {e : Exit} (he : e ≠ .evicted ∧ e ≠ .cancelled) (c : Call) :
    c.Served (c.leaveIf p e) where
  toFollows := follows_leaveIf p e c
  present := callerPresent_leaveIf
  told := by
    by_cases h : (c.isOpen && p c) = true
    · rw [leaveIf, if_pos h]
      exact .inr ⟨e, rfl, he⟩
    · rw [leaveIf, if_neg h]
      exact .inl rfl

/-- A call that stands stood before. -/
theorem Follows.isOpen {c c' : Call} (h : c.Follows c') (ho : c'.isOpen = true) : c.isOpen = true := by
  cases hc : c.isOpen with
  | true => rfl
  | false =>
    rw [h.closed hc] at ho
    cases ho

end Call

namespace Table

variable {t : Table} {n m : Ticket} {c : Call}

/-! ## Calls by their tickets -/

@[simp] theorem getElem?_leave (p : Call → Bool) (e : Exit) (t : Table) (n : Ticket) :
    (t.leave p e).calls[n]? = t.calls[n]?.map (Call.leaveIf p e) := by
  simp [leave]

@[simp] theorem length_leave (p : Call → Bool) (e : Exit) (t : Table) :
    (t.leave p e).calls.length = t.calls.length := by
  simp [leave]

theorem exists_of_leave {p : Call → Bool} {e : Exit} {c' : Call} (h : (t.leave p e).calls[n]? = some c') :
    ∃ c, t.calls[n]? = some c ∧ c' = c.leaveIf p e := by
  rw [getElem?_leave] at h
  obtain ⟨c, hc, hc'⟩ := Option.map_eq_some_iff.mp h
  exact ⟨c, hc, hc'.symm⟩

theorem getElem?_forget_self (h : t.calls[n]? = some c) :
    (t.forget n).calls[n]? = some { c with callerPresent := false } := by
  simp [forget, h]

theorem getElem?_forget_of_ne (h : m ≠ n) : (t.forget m).calls[n]? = t.calls[n]? := by
  simp [forget, h]

theorem exists_of_forget {c' : Call} (h : (t.forget m).calls[n]? = some c') :
    ∃ c, t.calls[n]? = some c ∧ c' = if m = n then { c with callerPresent := false } else c := by
  by_cases hmn : m = n
  · subst hmn
    cases hc : t.calls[m]? with
    | none => simp [forget, hc] at h
    | some c =>
      rw [getElem?_forget_self hc] at h
      exact ⟨c, rfl, by rw [if_pos rfl, Option.some.inj h]⟩
  · rw [getElem?_forget_of_ne hmn] at h
    exact ⟨c', h, by rw [if_neg hmn]⟩

/-- What does not depend on the caller is the same for all calls when a caller goes away. -/
theorem map_forget {α : Type} {f : Call → α} (hf : ∀ c : Call, f { c with callerPresent := false } = f c)
    (n : Ticket) (t : Table) : (t.forget n).calls.map f = t.calls.map f := by
  apply List.ext_getElem?
  intro m
  by_cases hnm : n = m
  · subst hnm
    cases hc : t.calls[n]? <;> simp [forget, hc, hf]
  · simp [forget, hnm]

@[simp] theorem length_forget (n : Ticket) (t : Table) : (t.forget n).calls.length = t.calls.length := by
  simp [forget]

@[simp] theorem size_forget (n : Ticket) (t : Table) : (t.forget n).size = t.size := by
  have h := congrArg (List.countP id) (map_forget (f := Call.isOpen) (fun _ => rfl) n t)
  rwa [List.countP_map, List.countP_map] at h

/-- The call that a registration puts into a table. -/
def newCall (now : Nat) (id : UInt32) (timeoutMs : Nat) : Call :=
  { id, deadline := now + timeoutMs, timeoutMs }

theorem register_of_not_holds {id : UInt32} (h : t.holds id = false) (now timeoutMs : Nat) :
    t.register now id timeoutMs = (.ok t.calls.length, ⟨t.calls ++ [newCall now id timeoutMs]⟩) := by
  simp [register, h, newCall]

theorem register_of_holds {id : UInt32} (h : t.holds id = true) (now timeoutMs : Nat) :
    t.register now id timeoutMs = (.error (.duplicateId id), t) := by
  simp [register, h]

theorem holds_eq_false_iff {id : UInt32} :
    t.holds id = false ↔ ∀ c ∈ t.calls, c.isOpen = true → c.id ≠ id := by
  simp [holds]

theorem holds_iff {id : UInt32} :
    t.holds id = true ↔ ∃ (n : Ticket) (c : Call), t.calls[n]? = some c ∧ c.isOpen = true ∧ c.id = id := by
  simp only [holds, List.any_eq_true, Bool.and_eq_true, beq_iff_eq]
  constructor
  · rintro ⟨c, hc, ho, hid⟩
    obtain ⟨n, hn⟩ := List.mem_iff_getElem?.mp hc
    exact ⟨n, c, hn, ho, hid⟩
  · rintro ⟨n, c, hn, ho, hid⟩
    exact ⟨c, List.mem_of_getElem? hn, ho, hid⟩

theorem leave_eq_self {p : Call → Bool} {e : Exit} (h : ∀ c ∈ t.calls, c.isOpen = true → p c = false) :
    t.leave p e = t := by
  have hmap : t.calls.map (Call.leaveIf p e) = t.calls.map id := by
    refine List.map_congr_left fun c hc => ?_
    cases ho : c.isOpen with
    | false => exact Call.leaveIf_of_closed ho
    | true => exact Call.leaveIf_of_not (h c hc ho)
  rw [List.map_id] at hmap
  exact congrArg Table.mk hmap

theorem not_id_of_not_holds {id : UInt32} (h : t.holds id = false) :
    ∀ c ∈ t.calls, c.isOpen = true → (c.id == id) = false :=
  fun c hc ho => beq_eq_false_iff_ne.mpr (holds_eq_false_iff.mp h c hc ho)

theorem size_eq_zero_iff : t.size = 0 ↔ ∀ c ∈ t.calls, c.isOpen = false := by
  simp [size, List.countP_eq_zero]

/-- A table in which a call stands is not empty. -/
theorem size_ne_zero (h : t.calls[n]? = some c) (ho : c.isOpen = true) : t.size ≠ 0 := by
  intro hz
  rw [size_eq_zero_iff.mp hz c (List.mem_of_getElem? h)] at ho
  cases ho

/-! ## The same table later -/

/-- Every call of a table is still there later, under its ticket. -/
def Follows (t t' : Table) : Prop :=
  ∀ (n : Ticket) (c : Call), t.calls[n]? = some c → ∃ c', t'.calls[n]? = some c' ∧ c.Follows c'

theorem Follows.refl (t : Table) : t.Follows t := fun _ c h => ⟨c, h, .refl c⟩

theorem Follows.trans {a b c : Table} (h : a.Follows b) (h' : b.Follows c) : a.Follows c := by
  intro n x hx
  obtain ⟨y, hy, hxy⟩ := h n x hx
  obtain ⟨z, hz, hyz⟩ := h' n y hy
  exact ⟨z, hz, hxy.trans hyz⟩

theorem follows_leave (p : Call → Bool) (e : Exit) (t : Table) : t.Follows (t.leave p e) :=
  fun _ c h => ⟨c.leaveIf p e, by simp [h], Call.follows_leaveIf p e c⟩

theorem follows_forget (m : Ticket) (t : Table) : t.Follows (t.forget m) := by
  intro n c h
  by_cases hmn : m = n
  · subst hmn
    exact ⟨_, getElem?_forget_self h, ⟨rfl, rfl, rfl, fun _ => rfl, fun _ => rfl⟩⟩
  · exact ⟨c, by rw [getElem?_forget_of_ne hmn, h], .refl c⟩

theorem getElem?_register (h : t.calls[n]? = some c) (now : Nat) (id : UInt32) (timeoutMs : Nat) :
    (t.register now id timeoutMs).2.calls[n]? = some c := by
  obtain ⟨hlt, -⟩ := List.getElem?_eq_some_iff.mp h
  cases hh : t.holds id with
  | true => rw [register_of_holds hh]; exact h
  | false =>
    rw [register_of_not_holds hh, List.getElem?_append_left hlt]
    exact h

theorem follows_register (now : Nat) (id : UInt32) (timeoutMs : Nat) (t : Table) :
    t.Follows (t.register now id timeoutMs).2 :=
  fun _ c h => ⟨c, getElem?_register h now id timeoutMs, .refl c⟩

/-! ## Different ids -/

/-- No two calls that stand have the same id. -/
def Distinct (t : Table) : Prop :=
  t.calls.Pairwise fun a b => a.isOpen = true → b.isOpen = true → a.id ≠ b.id

theorem distinct_empty : ({} : Table).Distinct := List.Pairwise.nil

theorem Follows.exists_of {t' : Table} (h : t.Follows t') (hl : t'.calls.length = t.calls.length) {c' : Call}
    (hc' : t'.calls[n]? = some c') : ∃ c, t.calls[n]? = some c ∧ c.Follows c' := by
  obtain ⟨hlt, -⟩ := List.getElem?_eq_some_iff.mp hc'
  rw [hl] at hlt
  have hc : t.calls[n]? = some t.calls[n] := List.getElem?_eq_getElem hlt
  obtain ⟨c'', hc'', hf⟩ := h n _ hc
  rw [hc'] at hc''
  exact ⟨_, hc, Option.some.inj hc'' ▸ hf⟩

/-- As long as no call is added, the ids stay different. -/
theorem Follows.distinct {t' : Table} (h : t.Follows t') (hl : t'.calls.length = t.calls.length)
    (hd : t.Distinct) : t'.Distinct := by
  refine List.pairwise_iff_getElem.mpr fun n m hn hm hnm hno hmo => ?_
  obtain ⟨c, hc, hf⟩ := h.exists_of hl (List.getElem?_eq_getElem hn)
  obtain ⟨c', hc', hf'⟩ := h.exists_of hl (List.getElem?_eq_getElem hm)
  obtain ⟨hnl, hce⟩ := List.getElem?_eq_some_iff.mp hc
  obtain ⟨hml, hce'⟩ := List.getElem?_eq_some_iff.mp hc'
  have hne := List.pairwise_iff_getElem.mp hd n m hnl hml hnm
  rw [hce, hce'] at hne
  rw [hf.id, hf'.id]
  exact hne (hf.isOpen hno) (hf'.isOpen hmo)

/-- As long as no call is added, an empty table stays empty. -/
theorem Follows.size_eq_zero {t' : Table} (h : t.Follows t') (hl : t'.calls.length = t.calls.length)
    (hz : t.size = 0) : t'.size = 0 := by
  refine size_eq_zero_iff.mpr fun c' hc' => ?_
  obtain ⟨n, hn⟩ := List.mem_iff_getElem?.mp hc'
  obtain ⟨c, hc, hf⟩ := h.exists_of hl hn
  exact hf.closed (size_eq_zero_iff.mp hz c (List.mem_of_getElem? hc))

theorem distinct_leave {p : Call → Bool} {e : Exit} (h : t.Distinct) : (t.leave p e).Distinct :=
  (follows_leave p e t).distinct (length_leave p e t) h

theorem distinct_forget (h : t.Distinct) (n : Ticket) : (t.forget n).Distinct :=
  (follows_forget n t).distinct (length_forget n t) h

theorem distinct_register (h : t.Distinct) (now : Nat) (id : UInt32) (timeoutMs : Nat) :
    (t.register now id timeoutMs).2.Distinct := by
  cases hh : t.holds id with
  | true => rw [register_of_holds hh]; exact h
  | false =>
    rw [register_of_not_holds hh]
    refine List.pairwise_append.mpr ⟨h, List.pairwise_singleton _ _, fun a ha b hb hao _ => ?_⟩
    rw [List.mem_singleton] at hb
    subst hb
    exact holds_eq_false_iff.mp hh a ha hao

/-! ## Tables whose callers are served -/

/-- No call was added or taken out by its caller, and no caller went away. -/
structure Served (t t' : Table) : Prop where
  length : t'.calls.length = t.calls.length
  call : ∀ (n : Ticket) (c : Call), t.calls[n]? = some c → ∃ c', t'.calls[n]? = some c' ∧ c.Served c'

theorem Served.refl (t : Table) : t.Served t := ⟨rfl, fun _ c h => ⟨c, h, .refl c⟩⟩

theorem Served.trans {a b c : Table} (h : a.Served b) (h' : b.Served c) : a.Served c where
  length := h'.length.trans h.length
  call n x hx := by
    obtain ⟨y, hy, hxy⟩ := h.call n x hx
    obtain ⟨z, hz, hyz⟩ := h'.call n y hy
    exact ⟨z, hz, hxy.trans hyz⟩

theorem Served.follows {t' : Table} (h : t.Served t') : t.Follows t' := by
  intro n c hc
  obtain ⟨c', hc', hs⟩ := h.call n c hc
  exact ⟨c', hc', hs.toFollows⟩

theorem served_leave (p : Call → Bool) {e : Exit} (he : e ≠ .evicted ∧ e ≠ .cancelled) (t : Table) :
    t.Served (t.leave p e) :=
  ⟨length_leave p e t, fun _ c h => ⟨c.leaveIf p e, by simp [h], Call.served_leaveIf p he c⟩⟩

/-! ## A caller that no longer waits -/

/-- A caller left and took its own call with it or not; all other calls with callers are as they were. -/
structure Left (n : Ticket) (t t' : Table) : Prop where
  length : t'.calls.length = t.calls.length
  follows : t.Follows t'
  others : ∀ (m : Ticket) (c : Call), c.callerPresent = true →
    (t'.calls[m]? = some c ↔ m ≠ n ∧ t.calls[m]? = some c)

theorem left_forget (n : Ticket) (t : Table) : t.Left n (t.forget n) where
  length := length_forget n t
  follows := follows_forget n t
  others m c hp := by
    by_cases hnm : n = m
    · subst hnm
      refine ⟨fun hc => ?_, fun h => absurd rfl h.1⟩
      obtain ⟨x, -, rfl⟩ := exists_of_forget hc
      rw [if_pos rfl] at hp
      cases hp
    · rw [getElem?_forget_of_ne hnm]
      exact ⟨fun hc => ⟨fun h => hnm h.symm, hc⟩, fun h => h.2⟩

theorem Left.evict {t' : Table} (h : t.Left n t') (id : UInt32) : t.Left n (t'.evict id).2 where
  length := (length_leave _ _ t').trans h.length
  follows := h.follows.trans (follows_leave _ _ t')
  others m c hp := by
    rw [← h.others m c hp]
    constructor
    · intro hc
      obtain ⟨x, hx, rfl⟩ := exists_of_leave hc
      rw [Call.callerPresent_leaveIf] at hp
      rw [hx, Call.leaveIf_of_not (by simp [hp])]
    · intro hc
      rw [Table.evict, getElem?_leave, hc, Option.map_some, Call.leaveIf_of_not (by simp [hp])]

theorem left_finish (n : Ticket) (t : Table) : t.Left n (t.finish n) := by
  cases hc : t.calls[n]? with
  | none =>
    rw [finish, hc]
    refine ⟨rfl, .refl t, fun m c _ => ⟨fun h => ⟨fun hmn => ?_, h⟩, fun h => h.2⟩⟩
    rw [hmn, hc] at h
    cases h
  | some c =>
    simp only [finish, hc]
    split
    · exact (left_forget n t).evict c.id
    · exact left_forget n t

/-! ## Counting by id -/

/-- Two tickets of standing calls with one id are the same ticket. -/
theorem Distinct.ticket_eq (h : t.Distinct) {c' : Call} (hn : t.calls[n]? = some c)
    (hm : t.calls[m]? = some c') (ho : c.isOpen = true) (ho' : c'.isOpen = true) (hid : c.id = c'.id) : n = m := by
  obtain ⟨hnl, rfl⟩ := List.getElem?_eq_some_iff.mp hn
  obtain ⟨hml, rfl⟩ := List.getElem?_eq_some_iff.mp hm
  rcases Nat.lt_trichotomy n m with hlt | heq | hgt
  · exact absurd hid (List.pairwise_iff_getElem.mp h n m hnl hml hlt ho ho')
  · exact heq
  · exact absurd hid.symm (List.pairwise_iff_getElem.mp h m n hml hnl hgt ho' ho)

/-- At most one standing call has an id. -/
theorem Distinct.count_le_one (h : t.Distinct) (id : UInt32) (q : Call → Bool) :
    t.count (fun c => c.id == id && q c) ≤ 1 := by
  obtain ⟨calls⟩ := t
  unfold Distinct at h
  show calls.countP (fun c => c.isOpen && (c.id == id && q c)) ≤ 1
  induction calls with
  | nil => simp
  | cons a calls ih =>
    obtain ⟨ha, hcalls⟩ := List.pairwise_cons.mp h
    rw [List.countP_cons]
    by_cases hc : (a.isOpen && (a.id == id && q a)) = true
    · -- the first call has the id, so no other one can
      have hzero : calls.countP (fun c => c.isOpen && (c.id == id && q c)) = 0 := by
        refine List.countP_eq_zero.mpr fun b hb hbc => ?_
        simp only [Bool.and_eq_true, beq_iff_eq] at hc hbc
        exact ha b hb hc.1 hbc.1 (hc.2.1.trans hbc.2.1.symm)
      rw [if_pos hc]
      omega
    · rw [if_neg hc]
      exact ih hcalls

/-- Under an id stands one call if the table holds the id, and else none. -/
theorem Distinct.count_id (h : t.Distinct) (id : UInt32) :
    t.count (fun c => c.id == id) = if t.holds id then 1 else 0 := by
  have hle := h.count_le_one id fun _ => true
  simp only [Bool.and_true] at hle
  cases hh : t.holds id with
  | true =>
    have hpos : 0 < t.count (fun c => c.id == id) := by
      obtain ⟨c, hc, hcid⟩ := List.any_eq_true.mp hh
      exact List.countP_pos_iff.mpr ⟨c, hc, hcid⟩
    simp only [if_true]
    omega
  | false =>
    have hzero : t.count (fun c => c.id == id) = 0 := by
      refine List.countP_eq_zero.mpr fun c hc hcid => ?_
      rw [Bool.and_eq_true, beq_iff_eq] at hcid
      exact holds_eq_false_iff.mp hh c hc hcid.1 hcid.2
    simp [hzero]

/-- When someone stops waiting for a call, only that call changes. -/
theorem finish_of_distinct (hd : t.Distinct) (n : Ticket) : t.finish n = ⟨t.calls.modify n Call.unawaited⟩ := by
  refine congrArg Table.mk (List.ext_getElem? fun m => ?_)
  show (t.finish n).calls[m]? = _
  rw [List.getElem?_modify]
  cases hc : t.calls[n]? with
  | none =>
    rw [finish, hc]
    by_cases hm : n = m
    · rw [← hm, hc]
      rfl
    · simp [hm]
  | some c =>
    simp only [finish, hc]
    cases ho : c.isOpen with
    | false =>
      obtain ⟨e, he⟩ := Call.isOpen_eq_false_iff.mp ho
      by_cases hm : n = m
      · subst hm
        simp [getElem?_forget_self hc, hc, Call.unawaited, he]
      · simp [getElem?_forget_of_ne hm, hm]
    | true =>
      have hexit := Call.isOpen_iff.mp ho
      by_cases hm : n = m
      · subst hm
        simp [evict, getElem?_forget_self hc, hc, Call.unawaited, Call.leaveIf, Call.isOpen, hexit]
      · simp only [if_true, evict, getElem?_leave, getElem?_forget_of_ne hm]
        cases hx : t.calls[m]? with
        | none => simp
        | some x =>
          -- no other call that stands has its id
          have hno : x.isOpen = true → x.id ≠ c.id := fun hxo hid => hm (hd.ticket_eq hc hx ho hxo hid.symm)
          cases hxo : x.isOpen with
          | false => simp [Call.leaveIf_of_closed hxo, hm]
          | true => simp [Call.leaveIf_of_not, hno hxo, hm]

end Table

end RemoteCall.Pending
