import RemoteCall.Proofs.Session.Ticks

/-!
# When ticks begin

A task keeps to its plan from the moment at which it is started: however long its ticks take, they come one after another and
at the distance of the plan, and a task that was stopped or replaced begins none. On a virtual clock no tick is late, but for
the time that the one before took.

* `diary`: the ticks of a task that begin and end in a run.
* `Entry`: what one step adds to it.
* `OneByOne`, `Paced` and `Prompt`: what a diary keeps, in any run and on a virtual clock.
* `tick_schedule`: when the ticks of a task begin.
-/

namespace RemoteCall.Session

section Defs

/-- A tick begins or ends at a moment. -/
inductive Mark where
  | began (moment : Nat)
  | ended (moment : Nat)
  deriving DecidableEq, Repr

/-- Whether a task takes a tick in a step. The moment of its next tick moves on then. -/
def takesTick (j : Nat) (a : Action) (s : Session) : Bool :=
  match s.client.tasks[j]?, (s.perform a).client.tasks[j]? with
  | some t, some t' => t.next != t'.next
  | _, _ => false

/-- Whether a task is inside a tick. -/
def isTicking (j : Nat) (s : Session) : Bool := s.client.tasks[j]?.any ReconnectTask.isProbing

/-- The ticks of a task that begin and end in a step. -/
def marks (j : Nat) (a : Action) (s : Session) : List Mark :=
  (if s.takesTick j a then [.began s.now] else []) ++
    if (s.takesTick j a || s.isTicking j) && !(s.perform a).isTicking j then [.ended s.now] else []

/-- The ticks of a task that begin and end in a run. -/
def diary (j : Nat) : List Action → Session → List Mark
  | [], _ => []
  | a :: actions, s => s.marks j a ++ diary j actions (s.perform a)

/-- The moments at which ticks begin. -/
def begins : List Mark → List Nat
  | [] => []
  | .began m :: rest => m :: begins rest
  | .ended _ :: rest => begins rest

/-- Ticks begin and end in turn. One may be under way at first. -/
def OneByOne : (inside : Bool) → List Mark → Prop
  | _, [] => True
  | inside, .began _ :: rest => inside = false ∧ OneByOne true rest
  | inside, .ended _ :: rest => inside = true ∧ OneByOne false rest

/-- Each tick ends at the moment at which it begins. One may have begun at first. -/
def Brief : (last : Nat) → List Mark → Prop
  | _, [] => True
  | _, .began m :: rest => Brief m rest
  | last, .ended m :: rest => m = last ∧ Brief last rest

/-- The moment at which the next tick is due after one that was due at a moment and begins at another. -/
def dueAfter (interval due m : Nat) : Nat := (if due + ReconnectTask.tolerance < m then m else due) + interval

/-- No tick begins before it is due. -/
def Paced (interval : Nat) : (due : Nat) → List Mark → Prop
  | _, [] => True
  | due, .began m :: rest => due ≤ m ∧ Paced interval (dueAfter interval due m) rest
  | due, .ended _ :: rest => Paced interval due rest

/-- Each tick begins when it is due at the latest, or when the task is free again after the one before. -/
def Prompt (interval : Nat) : (due free : Nat) → List Mark → Prop
  | _, _, [] => True
  | due, free, .began m :: rest => m ≤ max due free ∧ Prompt interval (dueAfter interval due m) m rest
  | due, _, .ended m :: rest => Prompt interval due m rest

/-- The plan that is to be followed after all that was done: the last one for which a task was started, unless a stop came
after it. -/
def planInForce? (config : Config) (actions : List Action) : Option ReconnectPlan :=
  actions.foldl (fun last a => if a.endsTask config then a.enables? config else last) none

/-- What a step adds to the diary of a task. -/
inductive Entry (j : Nat) (t t' : ReconnectTask) (s : Session) : List Mark → Prop
  | nothing (hnext : t'.next = t.next) (hinside : t'.isProbing = t.isProbing)
      (hrest : t'.stage = .resting → t'.cancelled = false → t.stage = .resting ∧ t.cancelled = false) : Entry j t t' s []
  | began (h : Due j t s) (hnext : t'.next = dueAfter t.plan.intervalMs t.next s.now) (hinside : t'.isProbing = true) :
      Entry j t t' s [.began s.now]
  | both (h : Due j t s) (hnext : t'.next = dueAfter t.plan.intervalMs t.next s.now) (hinside : t'.isProbing = false) :
      Entry j t t' s [.began s.now, .ended s.now]
  | ended (hnext : t'.next = t.next) (hbefore : t.isProbing = true) (hinside : t'.isProbing = false) :
      Entry j t t' s [.ended s.now]

/-- A task begins no tick any more. -/
def Halted (t : ReconnectTask) : Prop := t.cancelled = true ∨ t.stage = .over

/-- The only task that goes on is the last one that was started, and it follows the plan in force. -/
def Latest (plan : Option ReconnectPlan) (s : Session) : Prop :=
  ∀ (k : Nat) (t : ReconnectTask), s.client.tasks[k]? = some t → ¬ Halted t →
    plan = some t.plan ∧ k + 1 = s.client.tasks.length

/-- No time has passed since a task that rests could have taken its next tick. -/
def InTime (free : Nat) (t : ReconnectTask) (s : Session) : Prop :=
  t.stage = .resting → t.cancelled = false → s.now ≤ max t.next free

/-- When the ticks of a task begin that follows a plan from a moment on, in any run. -/
structure Spaced (plan : ReconnectPlan) (start : Nat) (diary : List Mark) : Prop where
  /-- They never overlap. -/
  oneByOne : OneByOne false diary
  /-- They are not closer than the interval, but for the time by which one may be late. -/
  apart : (begins diary).IsChain fun m m' => m + plan.intervalMs ≤ m' + ReconnectTask.tolerance
  /-- None is early. -/
  notEarly : ∀ n m, (begins diary)[n]? = some m → start + (n + 1) * plan.intervalMs ≤ m

/-- When the ticks of a task begin that follows a plan from a moment on, on a virtual clock. -/
structure Scheduled (plan : ReconnectPlan) (start : Nat) (diary : List Mark) : Prop where
  /-- The first begins after one interval. -/
  first : ∀ m, (begins diary).head? = some m → m = start + plan.intervalMs
  /-- If none takes time they begin at the multiples of the interval. -/
  brief : Brief start diary → ∀ n m, (begins diary)[n]? = some m → m = start + (n + 1) * plan.intervalMs

/-- How far time has passed on a virtual clock while a task that follows a plan goes on. -/
structure KeepsUp (plan : ReconnectPlan) (start : Nat) (diary : List Mark) (now : Nat) (inside : Bool) : Prop where
  /-- The first tick is not missed. -/
  first : begins diary = [] → now ≤ start + plan.intervalMs
  /-- If none takes time no tick is missed. -/
  brief : Brief start diary → inside = false → now ≤ start + ((begins diary).length + 1) * plan.intervalMs

end Defs

variable {s : Session} {j : Nat} {t t' : ReconnectTask} {a : Action} {actions : List Action} {marks rest : List Mark}
  {interval due free last m : Nat} {plan : ReconnectPlan}

/-! ## Diaries -/

theorem le_dueAfter (interval due m : Nat) : due + interval ≤ dueAfter interval due m := by
  unfold dueAfter
  split <;> omega

theorem le_dueAfter_of_began (interval due m : Nat) :
    m + interval ≤ dueAfter interval due m + ReconnectTask.tolerance := by
  unfold dueAfter
  split <;> omega

theorem dueAfter_of_prompt (h : m ≤ due) (interval : Nat) : dueAfter interval due m = due + interval := by
  unfold dueAfter
  rw [if_neg (by omega)]

/-- Of ticks that are not early the first begins when it is due at the earliest. -/
theorem Paced.le_first (h : Paced interval due marks) (hm : (begins marks).head? = some m) : due ≤ m := by
  induction marks generalizing due with
  | nil => cases hm
  | cons e rest ih =>
    cases e with
    | began m' =>
      cases hm
      exact h.1
    | ended m' => exact ih h hm

theorem Paced.isChain (h : Paced interval due marks) :
    (begins marks).IsChain fun m m' => m + interval ≤ m' + ReconnectTask.tolerance := by
  induction marks generalizing due with
  | nil => exact .nil
  | cons e rest ih =>
    cases e with
    | ended m' => exact ih h
    | began m' =>
      have hchain := ih h.2
      rw [begins]
      cases hrest : begins rest with
      | nil => exact .singleton m'
      | cons m'' more =>
        rw [hrest] at hchain
        refine .cons_cons ?_ hchain
        have hdue := h.2.le_first (m := m'') (by rw [hrest]; rfl)
        have hafter := le_dueAfter_of_began interval due m'
        omega

theorem Paced.le_begin (h : Paced interval due marks) {n : Nat} (hm : (begins marks)[n]? = some m) :
    due + n * interval ≤ m := by
  induction marks generalizing due n with
  | nil => cases hm
  | cons e rest ih =>
    cases e with
    | ended m' => exact ih h hm
    | began m' =>
      cases n with
      | zero =>
        cases hm
        rw [Nat.zero_mul]
        exact h.1
      | succ n =>
        have hnext := ih h.2 hm
        have hafter := le_dueAfter interval due m'
        rw [Nat.succ_mul]
        omega

/-- The first tick begins when it is due, if the task was free before. -/
theorem Prompt.first_le (h : Prompt interval due free marks) (hone : OneByOne false marks) (hfree : free ≤ due)
    (hm : (begins marks).head? = some m) : m ≤ due := by
  cases marks with
  | nil => cases hm
  | cons e rest =>
    cases e with
    | ended m' => cases hone.1
    | began m' =>
      cases hm
      exact Nat.le_trans h.1 (Nat.max_le.mpr ⟨Nat.le_refl _, hfree⟩)

/-- If ticks take no time each begins when it is due. -/
theorem Prompt.begin_le {inside : Bool} (h : Prompt interval due free marks) (hone : OneByOne inside marks)
    (hbrief : Brief last marks) (hfree : inside = false → free ≤ due) (hlast : inside = true → last ≤ due) {n : Nat}
    (hm : (begins marks)[n]? = some m) : m ≤ due + n * interval := by
  induction marks generalizing due free last inside n with
  | nil => cases hm
  | cons e rest ih =>
    cases e with
    | ended m' =>
      obtain ⟨rfl, hbrief⟩ := hbrief
      exact ih h hone.2 hbrief (fun _ => hlast hone.1) nofun hm
    | began m' =>
      have hle : m' ≤ due := Nat.le_trans h.1 (Nat.max_le.mpr ⟨Nat.le_refl _, hfree hone.1⟩)
      cases n with
      | zero =>
        cases hm
        rw [Nat.zero_mul]
        exact hle
      | succ n =>
        have hrest := h.2
        rw [dueAfter_of_prompt hle] at hrest
        have hnext := ih hrest hone.2 hbrief nofun (fun _ => by omega) hm
        rw [Nat.succ_mul]
        omega

theorem begins_append (first rest : List Mark) : begins (first ++ rest) = begins first ++ begins rest := by
  induction first with
  | nil => rfl
  | cons e first ih => cases e <;> simp [begins, ih]

/-! ## What a step adds -/

theorem marks_eq (ht : s.client.tasks[j]? = some t) (ht' : (s.perform a).client.tasks[j]? = some t') :
    s.marks j a = (if t.next != t'.next then [.began s.now] else []) ++
      if (t.next != t'.next || t.isProbing) && !t'.isProbing then [.ended s.now] else [] := by
  simp only [Session.marks, takesTick, isTicking, ht, ht', Option.any_some]

/-- What any step adds to the diary of a task whose plan takes some time. -/
theorem entry_perform (howned : s.Owned) (ht : s.client.tasks[j]? = some t) (hpos : 0 < t.plan.intervalMs)
    (a : Action) : ∃ t', (s.perform a).client.tasks[j]? = some t' ∧ t'.plan = t.plan ∧ Entry j t t' s (s.marks j a) := by
  obtain ⟨x, t', hmove, ht', hleft⟩ := task_perform howned ht a
  have hsame : t'.plan = x.plan ∧ t'.next = x.next ∧ t'.stage = x.stage ∧
      (t'.cancelled = false → x.cancelled = false) := by
    rcases hleft with rfl | ⟨rfl, -⟩
    · exact ⟨rfl, rfl, rfl, fun h => h⟩
    · exact ⟨rfl, rfl, rfl, nofun⟩
  obtain ⟨hplan, hnext, hstage, hcancelled⟩ := hsame
  have hinside : t'.isProbing = x.isProbing := by rw [ReconnectTask.isProbing, hstage, ReconnectTask.isProbing]
  refine ⟨t', ht', ?_, ?_⟩
  · rw [hplan]
    cases hmove <;> rfl
  rw [marks_eq ht ht']
  cases hmove with
  | stays =>
    rw [hnext, hinside]
    simp only [bne_self_eq_false, Bool.false_eq_true, if_false, Bool.false_or, Bool.and_not_self, List.append_nil]
    exact .nothing hnext hinside fun hrest hgoing => ⟨hstage ▸ hrest, hcancelled hgoing⟩
  | begins ha h stage hover =>
    have hmore := ReconnectTask.next_le_takeTick s.now t
    have hne : (t.next != t'.next) = true := by
      rw [hnext]
      exact bne_iff_ne.mpr (by show t.next ≠ (t.takeTick s.now).next; omega)
    rw [hne]
    cases hp : t'.isProbing with
    | true => exact .began h hnext hp
    | false => exact .both h hnext hp
  | ends ha hprobing ho =>
    have hbefore : t.isProbing = true := by simp [ReconnectTask.isProbing, hprobing]
    have hafter : t'.isProbing = false := by rw [hinside]; rfl
    rw [hnext, hbefore, hafter]
    simp only [bne_self_eq_false]
    exact .ended hnext hbefore hafter
  | retires ha hrest hno =>
    have hbefore : t.isProbing = false := by simp [ReconnectTask.isProbing, hrest]
    have hafter : t'.isProbing = false := by rw [hinside]; rfl
    rw [hnext, hbefore, hafter]
    simp only [bne_self_eq_false]
    refine .nothing hnext (hafter.trans hbefore.symm) fun hresting _ => ?_
    rw [hstage] at hresting
    cases hresting

theorem isProbing_of_resting (h : t.stage = .resting) : t.isProbing = false := by
  simp [ReconnectTask.isProbing, h]

/-- The ticks of a task come one after another, with those that follow a run. -/
theorem oneByOne_diary (actions : List Action) (rest : List Mark) (howned : s.Owned)
    (ht : s.client.tasks[j]? = some t) (hpos : 0 < t.plan.intervalMs)
    (hrest : OneByOne ((s.run actions).isTicking j) rest) : OneByOne t.isProbing (s.diary j actions ++ rest) := by
  induction actions generalizing s t with
  | nil =>
    rw [run_nil, isTicking, ht] at hrest
    exact hrest
  | cons a actions ih =>
    obtain ⟨t', ht', hplan, hentry⟩ := entry_perform howned ht hpos a
    have hone := ih (owned_perform howned a) ht' (hplan ▸ hpos) hrest
    rw [diary, List.append_assoc]
    generalize s.marks j a = new at hentry
    cases hentry with
    | nothing hnext hinside hresting => exact hinside ▸ hone
    | began h hnext hinside => exact ⟨isProbing_of_resting h.resting, hinside ▸ hone⟩
    | both h hnext hinside => exact ⟨isProbing_of_resting h.resting, rfl, hinside ▸ hone⟩
    | ended hnext hbefore hinside => exact ⟨hbefore, hinside ▸ hone⟩

/-- In any run no tick is early. -/
theorem paced_diary (howned : s.Owned) (ht : s.client.tasks[j]? = some t) (hpos : 0 < t.plan.intervalMs)
    (actions : List Action) : Paced t.plan.intervalMs t.next (s.diary j actions) := by
  induction actions generalizing s t with
  | nil => trivial
  | cons a actions ih =>
    obtain ⟨t', ht', hplan, hentry⟩ := entry_perform howned ht hpos a
    have hpaced := ih (owned_perform howned a) ht' (hplan ▸ hpos)
    rw [hplan] at hpaced
    rw [diary]
    generalize s.marks j a = new at hentry
    cases hentry with
    | nothing hnext hinside hresting => exact hnext ▸ hpaced
    | began h hnext hinside => exact ⟨h.time, hnext ▸ hpaced⟩
    | both h hnext hinside => exact ⟨h.time, hnext ▸ hpaced⟩
    | ended hnext hbefore hinside => exact hnext ▸ hpaced

/-! ## Tasks that were stopped or replaced -/

theorem Due.not_halted (h : s.Due j t) : ¬ Halted t := by
  rintro (hc | ho)
  · rw [h.going] at hc
    cases hc
  · rw [h.resting] at ho
    cases ho

/-- What a task does in a step does not make it go on if it was halted. -/
theorem Halted.perform (h : Halted t) (howned : s.Owned) (ht : s.client.tasks[j]? = some t) (a : Action) :
    ∃ t', (s.perform a).client.tasks[j]? = some t' ∧ Halted t' ∧ t'.next = t.next := by
  obtain ⟨x, t', hmove, ht', hleft⟩ := task_perform howned ht a
  have hx : Halted x ∧ x.next = t.next := by
    cases hmove with
    | stays => exact ⟨h, rfl⟩
    | begins ha hdue stage hover => exact absurd h hdue.not_halted
    | ends ha hprobing ho =>
      refine ⟨.inl (h.resolve_right fun hover => ?_), rfl⟩
      rw [hprobing] at hover
      cases hover
    | retires ha hrest hno => exact ⟨.inr rfl, rfl⟩
  refine ⟨t', ht', ?_⟩
  rcases hleft with rfl | ⟨rfl, -⟩
  · exact hx
  · exact ⟨.inl rfl, hx.2⟩

/-- A task that was halted begins no tick. -/
theorem begins_of_halted (h : Halted t) (howned : s.Owned) (ht : s.client.tasks[j]? = some t) (actions : List Action) :
    begins (s.diary j actions) = [] := by
  induction actions generalizing s t with
  | nil => rfl
  | cons a actions ih =>
    obtain ⟨t', ht', hhalted, hnext⟩ := h.perform howned ht a
    have hnone : begins (s.marks j a) = [] := by
      rw [marks_eq ht ht', hnext, bne_self_eq_false]
      simp only [Bool.false_eq_true, if_false, List.nil_append]
      split <;> rfl
    rw [diary, begins_append, hnone, ih hhalted (owned_perform howned a) ht', List.append_nil]

theorem latest_ofConfig (config : Config) (codec : Codec) : (ofConfig config codec).Latest none := by
  intro k t ht
  simp [ofConfig] at ht

/-- A new task is the only one that goes on after it was started, and after a stop there is none. -/
theorem latest_of_endsTask (howned : s.Owned) (h : a.endsTask s.client.config = true) :
    (s.perform a).Latest (a.enables? s.client.config) := by
  intro k t' ht' hgoing
  cases hk : s.client.tasks[k]? with
  | some t =>
    obtain ⟨t'', ht'', -, hhalted⟩ := halted_of_endsTask howned h hk
    rw [ht'] at ht''
    cases ht''
    exact absurd hhalted hgoing
  | none =>
    obtain ⟨plan, hplan, rfl, hlast⟩ := task_of_new hk ht'
    rw [hplan]
    refine ⟨?_, hlast⟩
    unfold ReconnectTask.start
    split <;> rfl

/-- Any other step leaves the last task to follow the plan in force. -/
theorem Latest.perform {inForce : Option ReconnectPlan} (h : s.Latest inForce) (howned : s.Owned)
    (hends : a.endsTask s.client.config = false) : (s.perform a).Latest inForce := by
  intro k t' ht' hgoing
  cases hk : s.client.tasks[k]? with
  | none =>
    rw [no_task_perform hk hends] at ht'
    cases ht'
  | some t =>
    have hbefore : ¬ Halted t := fun hhalted => by
      obtain ⟨t'', ht'', hhalted', -⟩ := hhalted.perform howned hk a
      rw [ht'] at ht''
      cases ht''
      exact hgoing hhalted'
    obtain ⟨hplan, hlast⟩ := h k t hk hbefore
    obtain ⟨t'', ht'', hsame⟩ := plan_perform howned hk a
    rw [ht'] at ht''
    cases ht''
    refine ⟨by rw [hplan, hsame], ?_⟩
    have hnone : s.client.tasks[k + 1]? = none := List.getElem?_eq_none (Nat.le_of_eq hlast.symm)
    have hle := List.getElem?_eq_none_iff.mp (no_task_perform hnone hends)
    have hlt := (List.getElem?_eq_some_iff.mp ht').1
    omega

theorem latest_run (config : Config) (codec : Codec) (actions : List Action) :
    ((ofConfig config codec).run actions).Latest (planInForce? config actions) := by
  induction actions using List.reverseRecOn with
  | nil => exact latest_ofConfig config codec
  | append_singleton actions a ih =>
    have howned := owned_run (owned_ofConfig config codec) actions
    have hconfig : ((ofConfig config codec).run actions).client.config = config := config_run actions _
    rw [run_append, planInForce?, List.foldl_append]
    show Session.Latest (if a.endsTask config then a.enables? config else planInForce? config actions) _
    cases hends : a.endsTask config with
    | true =>
      have hlatest := latest_of_endsTask howned (hconfig.symm ▸ hends)
      rw [hconfig] at hlatest
      exact hlatest
    | false => exact ih.perform howned (hconfig.symm ▸ hends)

/-- Only the last task that was started takes a tick, for the plan in force. -/
theorem Latest.takesTick {inForce : Option ReconnectPlan} (h : s.Latest inForce) (howned : s.Owned)
    (htakes : s.takesTick j a = true) :
    ∃ t, s.client.tasks[j]? = some t ∧ inForce = some t.plan ∧ j + 1 = s.client.tasks.length := by
  unfold Session.takesTick at htakes
  split at htakes
  · rename_i t t' ht ht'
    refine ⟨t, ht, h j t ht fun hhalted => ?_⟩
    obtain ⟨t'', ht'', -, hnext⟩ := hhalted.perform howned ht a
    rw [ht'] at ht''
    cases ht''
    rw [hnext, bne_self_eq_false] at htakes
    cases htakes
  · cases htakes

/-! ## Tasks that go on -/

theorem held_run (h : (s.run actions).client.released = false) : s.client.released = false := by
  induction actions generalizing s with
  | nil => exact h
  | cons a actions ih => exact (command_perform (ih h)).1

/-- A task goes on while no stop, no new task and no end of the client cancels it. -/
theorem going_run (howned : s.Owned) (ht : s.client.tasks[j]? = some t) (hgoing : ¬ Halted t)
    (hends : ∀ a ∈ actions, a.endsTask s.client.config = false) (hheld : (s.run actions).client.released = false) :
    ∃ t', (s.run actions).client.tasks[j]? = some t' ∧ ¬ Halted t' := by
  induction actions generalizing s t with
  | nil => exact ⟨t, ht, hgoing⟩
  | cons a actions ih =>
    obtain ⟨x, t', hmove, ht', hleft⟩ := task_perform howned ht a
    have hafter : (s.perform a).client.released = false := held_run hheld
    have hx : ¬ Halted x := by
      cases hmove with
      | stays => exact hgoing
      | begins ha h stage hover => exact not_or.mpr ⟨fun hc => hgoing (.inl hc), hover⟩
      | ends ha hprobing ho => exact not_or.mpr ⟨fun hc => hgoing (.inl hc), nofun⟩
      | retires ha hrest hno =>
        rcases hno with hc | hr
        · exact absurd (.inl hc) hgoing
        · rw [(command_perform hafter).1] at hr
          cases hr
    obtain rfl : t' = x := by
      refine hleft.resolve_right fun ⟨_, hgone⟩ => ?_
      rw [hafter, hends a List.mem_cons_self] at hgone
      simp at hgone
    refine ih (owned_perform howned a) ht' hx (fun b hb => ?_) hheld
    rw [config_perform]
    exact hends b (List.mem_cons_of_mem a hb)

/-! ## On a virtual clock -/

theorem marks_pass (j ms : Nat) (s : Session) : s.marks j (.pass ms) = [] := by
  have htakes : s.takesTick j (.pass ms) = false := by
    unfold takesTick
    split
    · rename_i t t' ht ht'
      rw [show (s.perform (.pass ms)).client.tasks[j]? = s.client.tasks[j]? from rfl, ht] at ht'
      cases ht'
      exact bne_self_eq_false _
    · rfl
  have hsame : (s.perform (.pass ms)).isTicking j = s.isTicking j := rfl
  simp [marks, htakes, hsame]

/-- While time passes on a virtual clock a task that rests is not due yet. -/
theorem inTime_pass {ms : Nat} (ht : s.client.tasks[j]? = some t) (hrest : s.AtRest)
    (htimers : ∀ m ∈ s.timers, s.now < m → s.now + ms ≤ m) : InTime free t (s.perform (.pass ms)) := by
  intro hstage hgoing
  have hturn : Turn.task j ∈ s.turns := by
    have hlt := (List.getElem?_eq_some_iff.mp ht).1
    simp [turns, hlt]
  have hready := hrest _ hturn
  simp only [isReady, ht, Option.any_some, hstage, hgoing, Bool.false_or, decide_eq_false_iff_not, Nat.not_le] at hready
  have htimer : t.next ∈ s.timers := by
    refine List.mem_append_right _ (List.mem_filterMap.mpr ⟨t, List.mem_of_getElem? ht, ?_⟩)
    rw [hstage]
  exact Nat.le_trans (htimers _ htimer hready) (Nat.le_max_left _ _)

/-- On a virtual clock no tick is late, with those that follow a run. -/
theorem prompt_diary (rest : List Mark) (free : Nat) (howned : s.Owned)
    (ht : s.client.tasks[j]? = some t) (hpos : 0 < t.plan.intervalMs) (hclock : OnClock actions s) (h : InTime free t s)
    (hrest : ∀ t' free', (s.run actions).client.tasks[j]? = some t' → InTime free' t' (s.run actions) →
      Prompt t.plan.intervalMs t'.next free' rest) :
    Prompt t.plan.intervalMs t.next free (s.diary j actions ++ rest) := by
  induction actions generalizing s t free with
  | nil => exact hrest t free ht h
  | cons a actions ih =>
    obtain ⟨hone, hlater⟩ := hclock
    rw [diary, List.append_assoc]
    rcases pass_or_beside a s with ⟨ms, rfl⟩ | hb
    · obtain ⟨hatRest, htimers⟩ := hone ms rfl
      rw [marks_pass]
      exact ih free (owned_perform howned (.pass ms)) ht hpos hlater (inTime_pass ht hatRest htimers) hrest
    · obtain ⟨t', ht', hplan, hentry⟩ := entry_perform howned ht hpos a
      have hnow : InTime s.now t' (s.perform a) := fun _ _ => by
        rw [hb.now]
        exact Nat.le_max_right _ _
      have hnext (free' : Nat) (hin : InTime free' t' (s.perform a)) :=
        ih free' (owned_perform howned a) ht' (hplan ▸ hpos) hlater hin (hplan ▸ hrest)
      rw [hplan] at hnext
      generalize s.marks j a = new at hentry
      cases hentry with
      | nothing hsame hinside hresting =>
        refine hsame ▸ hnext free fun hstage hgoing => ?_
        obtain ⟨hstage', hgoing'⟩ := hresting hstage hgoing
        rw [hb.now, hsame]
        exact h hstage' hgoing'
      | began hdue hmoved hinside => exact ⟨h hdue.resting hdue.going, hmoved ▸ hnext s.now hnow⟩
      | both hdue hmoved hinside => exact ⟨h hdue.resting hdue.going, hmoved ▸ hnext s.now hnow⟩
      | ended hsame hbefore hinside => exact hsame ▸ hnext s.now hnow

/-! ## From the start of a task -/

theorem brief_append (h : Brief last marks) (m : Nat) : Brief last (marks ++ [.began m]) := by
  induction marks generalizing last with
  | nil => trivial
  | cons e rest ih =>
    cases e with
    | began m' => exact ih h
    | ended m' => exact ⟨h.1, ih h.2⟩

theorem eq_nil_of_begins (h : begins marks = []) (hone : OneByOne false (marks ++ rest)) : marks = [] := by
  cases marks with
  | nil => rfl
  | cons e rest =>
    cases e with
    | began m => cases h
    | ended m => cases hone.1

theorem spaced_diary (howned : s.Owned) (ht : s.client.tasks[j]? = some t) (hpos : 0 < t.plan.intervalMs)
    (hinside : t.isProbing = false) {start : Nat} (hnext : t.next = start + t.plan.intervalMs) (actions : List Action) :
    Spaced t.plan start (s.diary j actions) := by
  have hone := oneByOne_diary actions [] howned ht hpos trivial
  have hpaced := paced_diary howned ht hpos actions
  rw [hinside, List.append_nil] at hone
  refine ⟨hone, hpaced.isChain, fun n m hm => ?_⟩
  have hle := hpaced.le_begin hm
  rw [hnext] at hle
  rw [Nat.succ_mul]
  omega

theorem scheduled_diary (howned : s.Owned) (ht : s.client.tasks[j]? = some t) (hpos : 0 < t.plan.intervalMs)
    (hinside : t.isProbing = false) (hnext : t.next = s.now + t.plan.intervalMs) (hclock : OnClock actions s) :
    Scheduled t.plan s.now (s.diary j actions) := by
  have hspaced := spaced_diary howned ht hpos hinside hnext actions
  have hprompt := prompt_diary [] s.now howned ht hpos hclock
    (fun _ _ => Nat.le_max_right _ _) fun _ _ _ _ => trivial
  rw [List.append_nil, hnext] at hprompt
  have hfree : s.now ≤ s.now + t.plan.intervalMs := Nat.le_add_right _ _
  refine ⟨fun m hm => Nat.le_antisymm (hprompt.first_le hspaced.oneByOne hfree hm) ?_, fun hbrief n m hm => ?_⟩
  · have hle := hspaced.notEarly 0 m (by rw [← List.head?_eq_getElem?, hm])
    omega
  · have hle := hprompt.begin_le hspaced.oneByOne hbrief (fun _ => hfree) nofun hm
    have hge := hspaced.notEarly n m hm
    rw [Nat.succ_mul] at hge ⊢
    omega

/-- While a task goes on that is not inside a tick no time has passed beyond the next one. -/
theorem keepsUp_diary (howned : s.Owned) (ht : s.client.tasks[j]? = some t) (hpos : 0 < t.plan.intervalMs)
    (hinside : t.isProbing = false) (hnext : t.next = s.now + t.plan.intervalMs) (hclock : OnClock actions s)
    (hgoing : ¬ Halted t) (hends : ∀ a ∈ actions, a.endsTask s.client.config = false)
    (hheld : (s.run actions).client.released = false) :
    KeepsUp t.plan s.now (s.diary j actions) (s.run actions).now ((s.run actions).isTicking j) := by
  obtain ⟨t', ht', hgoing'⟩ := going_run howned ht hgoing hends hheld
  obtain ⟨hcancelled, hover⟩ := not_or.mp hgoing'
  have hticking : (s.run actions).isTicking j = t'.isProbing := by rw [isTicking, ht', Option.any_some]
  have hbrief (hbrief : Brief s.now (s.diary j actions)) (hout : (s.run actions).isTicking j = false) :
      (s.run actions).now ≤ s.now + ((begins (s.diary j actions)).length + 1) * t.plan.intervalMs := by
    -- the next tick would begin now at the latest
    have hone := oneByOne_diary actions [.began (s.run actions).now] howned ht hpos ⟨hout, trivial⟩
    have hprompt := prompt_diary [.began (s.run actions).now] s.now howned ht hpos hclock
      (fun _ _ => Nat.le_max_right _ _) fun tf free' htf hin => by
        rw [ht'] at htf
        cases htf
        refine ⟨hin ?_ (Bool.eq_false_iff.mpr hcancelled), trivial⟩
        rw [hticking] at hout
        cases hstage : t'.stage with
        | resting => rfl
        | «over» => exact absurd hstage hover
        | probing w => simp [ReconnectTask.isProbing, hstage] at hout
    rw [hinside] at hone
    have hle := hprompt.begin_le hone (brief_append hbrief _) (fun _ => by omega)
      (fun h => absurd h Bool.false_ne_true)
      (n := (begins (s.diary j actions)).length) (m := (s.run actions).now) (by
        rw [begins_append]
        exact List.getElem?_concat_length)
    rw [hnext] at hle
    rw [Nat.succ_mul]
    omega
  refine ⟨fun hnone => ?_, hbrief⟩
  have hone := oneByOne_diary actions [] howned ht hpos trivial
  rw [hinside] at hone
  have hempty := eq_nil_of_begins hnone hone
  have hout : (s.run actions).isTicking j = false := by
    cases hin : (s.run actions).isTicking j with
    | false => rfl
    | true =>
      have hmore := oneByOne_diary actions [.ended 0] howned ht hpos ⟨hin, trivial⟩
      rw [hinside, hempty] at hmore
      cases hmore.1
  have hle := hbrief (by rw [hempty]; trivial) hout
  rwa [hnone, List.length_nil, Nat.zero_add, Nat.one_mul] at hle

/-! ## Main statement -/

/-- **A task keeps to its plan.** Its ticks come one after another and at the distance of the plan, whatever they take. Once
it is stopped or another task takes its place it begins none, even if one is due, and at any time only the last task that
was started and not stopped begins one. On a virtual clock the first tick begins after one interval; if no tick takes time
they begin at the multiples of the interval, and none is missed while the task goes on. -/
theorem tick_schedule (config : Config) (codec : Codec) (before after : List Action) (a : Action)
    (plan : ReconnectPlan) :
    let s := (ofConfig config codec).run before
    let enabled := s.perform a
    let final := enabled.run after
    let j := s.client.tasks.length
    let diary := enabled.diary j after
    a.enables? config = some plan → plan.isFollowable s.now = true →
    Spaced plan s.now diary ∧
      (∀ first b rest, after = first ++ b :: rest → b.endsTask config = true →
        begins (((enabled.run first).perform b).diary j rest) = []) ∧
      (∀ k b, final.takesTick k b = true → ∃ t, final.client.tasks[k]? = some t ∧
        planInForce? config (before ++ a :: after) = some t.plan ∧ k + 1 = final.client.tasks.length) ∧
      (OnClock after enabled → Scheduled plan s.now diary ∧
        ((∀ b ∈ after, b.endsTask config = false) → final.client.released = false →
          KeepsUp plan s.now diary final.now (final.isTicking j))) := by
  intro s enabled final j diary henables hfollowable
  have hconfig : s.client.config = config := config_run before _
  have howned : s.Owned := owned_run (owned_ofConfig config codec) before
  have howned' : enabled.Owned := owned_perform howned a
  have hconfig' : enabled.client.config = config := (config_perform a s).trans hconfig
  have hnow : enabled.now = s.now := by
    rcases pass_or_beside a s with ⟨ms, rfl⟩ | hb
    · cases henables
    · exact hb.now
  obtain ⟨ht, -⟩ := task_of_enables (hconfig.symm ▸ henables)
  simp only [ReconnectTask.start, hfollowable, if_true] at ht
  have hpos : 0 < plan.intervalMs := by
    simp only [ReconnectPlan.isFollowable, decide_eq_true_eq] at hfollowable
    exact hfollowable.1
  refine ⟨spaced_diary howned' ht hpos rfl rfl after, fun first b rest hafter hends => ?_, fun k b htakes => ?_,
    fun hclock => ⟨?_, fun hends hheld => ?_⟩⟩
  · have hat : (enabled.run first).Owned := owned_run howned' first
    obtain ⟨t, ht', -⟩ := plan_run howned' ht first
    rw [← (config_run first enabled).trans hconfig'] at hends
    obtain ⟨t', ht'', -, hhalted⟩ := halted_of_endsTask hat hends ht'
    exact begins_of_halted hhalted (owned_perform hat b) ht'' rest
  · have hlatest := latest_run config codec (before ++ a :: after)
    rw [run_append, run_cons] at hlatest
    exact hlatest.takesTick (owned_run howned' after) htakes
  · rw [← hnow]
    exact scheduled_diary howned' ht hpos rfl (by rw [hnow]) hclock
  · rw [← hnow]
    exact keepsUp_diary howned' ht hpos rfl (by rw [hnow]) hclock (by simp [Halted]) (hconfig'.symm ▸ hends) hheld

instance : Decidable s.AtRest := inferInstanceAs (Decidable (∀ t ∈ s.turns, s.isReady t = false))

/-- A tick waits for five seconds in vain. The next one begins at once after it, and there is none for those that were
missed. -/
theorem tick_after_slow_tick :
    let plan : ReconnectPlan := { intervalMs := 1000 }
    let before : List Action := [.connect, .commandFacade]
    let after : List Action := [.pass 1000, .turn (.task 0), .pass 5000, .turn (.task 0), .turn (.task 0)]
    let enabled := ((ofConfig {}).run before).perform (.enableReconnect plan)
    let diary : List Mark := [.began 1000, .ended 6000, .began 6000]
    (plan.isFollowable 0 = true ∧ OnClock after enabled) ∧
      enabled.diary 0 after = diary ∧ Spaced plan 0 diary ∧ Scheduled plan 0 diary := by
  intro plan before after enabled diary
  have hfollowable : plan.isFollowable 0 = true := by decide
  have hclock : OnClock after enabled := by
    refine ⟨fun ms hms => ?_, nofun, fun ms hms => ?_, nofun, nofun, trivial⟩
    all_goals
      cases hms
      decide +kernel
  have hdiary : enabled.diary 0 after = diary := by decide +kernel
  obtain ⟨hspaced, -, -, hscheduled⟩ := tick_schedule {} .json before after (.enableReconnect plan) plan rfl hfollowable
  exact ⟨⟨hfollowable, hclock⟩, hdiary, hdiary ▸ hspaced, hdiary ▸ (hscheduled hclock).1⟩

end RemoteCall.Session
