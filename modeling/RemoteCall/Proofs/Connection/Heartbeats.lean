import Mathlib.Order.Monotone.Basic
import RemoteCall.Proofs.Connection.Timeline

/-!
# When heartbeats are written

A dispatcher that has heard nothing for the idle time writes a ping, and one more for each further idle time of silence.
What is sent over the connection and what becomes of its calls has no part in it.

* `Scene.signs` and `diary`: the packets that are heard, the pings that are written and the end of the dispatcher,
  each with its moment.
* `gaps`: the silent gaps of a diary, each with the pings that are written in it.
* `Noted`: what an incident notes in the diary, and what it leaves of the timer.
* `Paced`: the invariant. The timer stands at the next multiple of the idle time after the begin of the gap.
* `heartbeat_schedule`: the pings in each gap, and what becomes of a connection on which no ping can be written.
-/

namespace RemoteCall

/-- The mark of a ping, if a packet is one. -/
def Packet.ping? : Packet → Option Ack
  | .ping ack => some ack
  | _ => none

namespace Connection

section Defs

/-- What is noted of a dispatcher. -/
inductive Sign where
  | heard (p : Packet)
  /-- A ping is written. -/
  | beat (ack : Ack)
  /-- A ping is due and cannot be written. -/
  | failed
  /-- The dispatcher has come to its end in another way. -/
  | ended
  deriving DecidableEq

/-- The packet that a dispatcher takes in, if it does. -/
def heard? (a : Incident) (c : Connection) : Option Packet :=
  match a, c.running, c.link.inbound with
  | .turn, true, .packet p :: _ => some p
  | _, _, _ => none

/-- The marks of the pings that are written in an incident. -/
def beats (now : Nat) (a : Incident) (c : Connection) : List Ack :=
  ((c.undergo now a).link.outbound.drop c.link.outbound.length).filterMap Packet.ping?

/-- Whether a ping is due and cannot be written. -/
def failsToBeat (now : Nat) (c : Connection) : Bool :=
  c.running && c.link.inbound.isEmpty && c.link.peerHeld && c.idleAt ≤ now &&
    ((c.link.write (.ping c.settings.heartbeatAck)).1 matches .error _)

/-- Whether the dispatcher comes to its end in an incident. -/
def ends (now : Nat) (a : Incident) (c : Connection) : Bool := c.running && !(c.undergo now a).running

/-- What is noted of an incident. -/
def Scene.signs (a : Incident) (x : Scene) : List Sign :=
  (x.connection.heard? a).toList.map .heard ++ (x.connection.beats x.now a).map .beat ++
    if x.connection.ends x.now a then
      if a matches .turn && x.connection.failsToBeat x.now then [.failed] else [.ended]
    else []

/-- What is noted of one incident after another, with the moments. -/
def diary : List Incident → Scene → List (Nat × Sign)
  | [], _ => []
  | a :: incidents, x => (x.signs a).map (Prod.mk x.now) ++ diary incidents (x.perform a)

/-- A time in which nothing is heard: when it begins, the pings that are written in it, and what ends it and when. -/
structure Gap where
  start : Nat
  beats : List (Nat × Ack) := []
  stop : Option (Nat × Sign) := none
  deriving DecidableEq

/-- The gaps of a diary, the first of which began at a moment and has had some pings. After the end of the dispatcher
there are none. -/
def gaps : (start : Nat) → (beats : List (Nat × Ack)) → List (Nat × Sign) → List Gap
  | start, beats, [] => [⟨start, beats, none⟩]
  | start, beats, (t, .beat ack) :: rest => gaps start (beats ++ [(t, ack)]) rest
  | start, beats, (t, .heard p) :: rest => ⟨start, beats, some (t, .heard p)⟩ :: gaps t [] rest
  | start, beats, (t, sign) :: _ => [⟨start, beats, some (t, sign)⟩]

/-- The moment at which silence has lasted for some times the idle time. -/
def beatAt (idleMs start : Nat) : Nat → Nat
  | 0 => start
  | k + 1 => after (beatAt idleMs start k) idleMs

/-- The first pings of a gap. -/
def firstBeats (settings : DispatcherConfig) (start count : Nat) : List (Nat × Ack) :=
  (List.range count).map fun k => (beatAt settings.idleMs start (k + 1), settings.heartbeatAck)

/-- Up to when a gap lasts, or has lasted by now. -/
def Gap.until (now : Nat) (g : Gap) : Nat := g.stop.elim now Prod.fst

/-- In a gap there is one ping at the end of each idle time, as long as the gap lasts. If something else comes just at the
end of an idle time, the ping at that moment may be there or not; if it is a ping that cannot be written, it is the next
one. While the gap lasts and the dispatcher has nothing to do, no ping is missing. -/
structure Gap.Regular (settings : DispatcherConfig) (final : Scene) (g : Gap) (count : Nat) : Prop where
  beats : g.beats = firstBeats settings g.start count
  upTo : ∀ k, (beatAt settings.idleMs g.start k < g.until final.now → k ≤ count) ∧
    (k ≤ count → beatAt settings.idleMs g.start k ≤ g.until final.now)
  resting : g.stop = none → final.isAtRest = true → ∀ k, beatAt settings.idleMs g.start k ≤ final.now → k ≤ count
  failed : ∀ t, g.stop = some (t, .failed) → t = beatAt settings.idleMs g.start (count + 1)

/-- What an incident notes, and what it leaves of the timer. -/
inductive Noted (now : Nat) (c c' : Connection) : List Sign → Prop
  | nothing (hr : c'.running = c.running) (ht : c'.idleAt = c.idleAt) : Noted now c c' []
  | heard (p : Packet) (hr : c'.running = true) (ht : c'.idleAt = after now c.settings.idleMs) :
    Noted now c c' [.heard p]
  | beat (hidle : c.idleAt ≤ now) (hr : c'.running = true) (ht : c'.idleAt = after now c.settings.idleMs) :
    Noted now c c' [.beat c.settings.heartbeatAck]
  | failed (hidle : c.idleAt ≤ now) (hr : c'.running = false) : Noted now c c' [.failed]
  | ended (hr : c'.running = false) : Noted now c c' [.ended]

/-- A gap has begun and had some pings, and the timer stands at the next. -/
structure Paced (settings : DispatcherConfig) (start count : Nat) (x : Scene) : Prop where
  configured : x.connection.settings = settings
  running : x.connection.running = true
  passed : beatAt settings.idleMs start count ≤ x.now
  next : x.connection.idleAt = beatAt settings.idleMs start (count + 1)

end Defs

variable {c c' : Connection} {a : Incident} {incidents : List Incident} {now start count idleMs : Nat} {x : Scene}
  {settings : DispatcherConfig}

/-! ## Moments -/

theorem beatAt_lt_succ (hd : 0 < idleMs) (start k : Nat) : beatAt idleMs start k < beatAt idleMs start (k + 1) :=
  lt_after _ hd

theorem strictMono_beatAt (hd : 0 < idleMs) (start : Nat) : StrictMono (beatAt idleMs start) :=
  strictMono_nat_of_lt_succ (beatAt_lt_succ hd start)

/-- In the range of the clock the ends of the idle times are the multiples of the idle time. -/
theorem beatAt_eq {k : Nat} (h : start + k * idleMs < clockEnd) : beatAt idleMs start k = start + k * idleMs := by
  induction k with
  | zero => simp [beatAt]
  | succ k ih =>
    rw [Nat.succ_mul, ← Nat.add_assoc] at h ⊢
    rw [beatAt, ih (Nat.lt_of_le_of_lt (Nat.le_add_right _ _) h), after_of_lt h]

theorem firstBeats_succ (settings : DispatcherConfig) (start count : Nat) : firstBeats settings start (count + 1) =
    firstBeats settings start count ++ [(beatAt settings.idleMs start (count + 1), settings.heartbeatAck)] := by
  rw [firstBeats, List.range_succ, List.map_append]
  rfl

/-! ## One incident -/

theorem heard?_of_ne (ha : a ≠ .turn) (c : Connection) : c.heard? a = none := by
  unfold heard?
  split
  · exact absurd rfl ha
  · rfl

/-- What is written over a link in all incidents but turns holds no ping. -/
theorem beats_of_ne (ha : a ≠ .turn) (now : Nat) (c : Connection) : c.beats now a = [] := by
  unfold beats
  cases a with
  | turn => exact absurd rfl ha
  | peer act =>
    have hle := (Memory.Link.outbound_act act c.link).length_le
    rw [undergo, List.drop_eq_nil_of_le hle]
    rfl
  | send o =>
    obtain ⟨-, -, hsend⟩ := send_writes now o c
    rw [undergo]
    rcases hsend with h | h
    · rw [h, List.drop_length]
      rfl
    · rw [h, List.drop_left]
      rfl
  | _ => simp [undergo, onTable, Memory.Link.close, halt, Memory.Link.dropReader]

/-- Packets that a dispatcher writes as answers are no pings. -/
theorem outbound_onPacket (p : Packet) (c : Connection) :
    (c.onPacket p).link.outbound = c.link.outbound ∨ (c.onPacket p).link.outbound = c.link.outbound ++ [.pong] := by
  match p with
  | .response r => exact .inl rfl
  | .ping .yes =>
    rcases write_cases .pong c.link with ⟨e, h⟩ | h
    · exact .inl (by simp [onPacket, write, h])
    · exact .inr (by simp [onPacket, write, h])
  | .ping .no => exact .inl rfl
  | .pong => exact .inl rfl
  | .request _ => exact .inl rfl

/-- What a turn notes. -/
theorem noted_turn (h : c.Took now c') (hc : c.undergo now .turn = c') :
    c.Noted now c' (Scene.signs .turn ⟨now, c⟩) := by
  have hbeats (ps : List Packet) (ho : c'.link.outbound = c.link.outbound ++ ps) :
      c.beats now .turn = ps.filterMap Packet.ping? := by rw [beats, hc, ho, List.drop_left]
  have hnone (ho : c'.link.outbound = c.link.outbound) : c.beats now .turn = [] :=
    hbeats [] (by rw [ho, List.append_nil])
  have hends : c.ends now .turn = (c.running && !c'.running) := by rw [ends, hc]
  cases h with
  | halted hr =>
    have hsigns : Scene.signs .turn ⟨now, c⟩ = [] := by simp [Scene.signs, hnone rfl, heard?, hends, hr]
    rw [hsigns]
    exact .nothing rfl rfl
  | @heard p rest d hr hin hd hframe =>
    have hrun : d.running = true := (congrArg running hframe).trans hr
    have hpings : c.beats now .turn = [] := by
      rcases outbound_onPacket p { c with link := { c.link with inbound := rest } } with ho | ho
      · rw [← hd] at ho
        refine hnone ?_
        split <;> exact ho
      · rw [← hd] at ho
        refine hbeats [.pong] ?_
        split <;> exact ho
    have hend : c.ends now .turn = false := by
      rw [hends]
      split <;> simp [await, sweep, onTable, hrun]
    have hsigns : Scene.signs .turn ⟨now, c⟩ = [.heard p] := by
      simp [Scene.signs, hpings, heard?, hend, hr, hin]
    rw [hsigns]
    refine .heard p ?_ ?_
    · split <;> exact hrun
    · have hsettings : d.settings = c.settings := (congrArg Connection.settings hframe).trans rfl
      rw [← hsettings]
      split <;> rfl
  | ended hr hin hp ho =>
    have hsigns : Scene.signs .turn ⟨now, c⟩ = [.ended] := by
      have hheard : c.heard? .turn = none := by
        unfold heard?
        split
        · rename_i heq
          exact absurd heq (hin _ _)
        · rfl
      have hfail : c.failsToBeat now = false := by
        cases hnil : c.link.inbound with
        | nil => simp [failsToBeat, hp hnil]
        | cons first rest => simp [failsToBeat, hnil]
      simp [Scene.signs, hnone ho, hheard, hends, hr, hfail, stop]
    rw [hsigns]
    exact .ended rfl
  | beat hr hin hp ht hw =>
    have hsigns : Scene.signs .turn ⟨now, c⟩ = [.beat c.settings.heartbeatAck] := by
      have hpings := hbeats [.ping c.settings.heartbeatAck] rfl
      simp [Scene.signs, hpings, heard?, hends, hr, hin, await, sweep, onTable, Packet.ping?]
    rw [hsigns]
    exact .beat ht hr rfl
  | failed hr hin hp ht hw =>
    have hsigns : Scene.signs .turn ⟨now, c⟩ = [.failed] := by
      have hfail : c.failsToBeat now = true := by simp [failsToBeat, hr, hin, hp, ht, hw]
      simp [Scene.signs, hnone rfl, heard?, hends, hr, hin, hfail, stop]
    rw [hsigns]
    exact .failed ht rfl
  | idle hr hin hp ht =>
    have hsigns : Scene.signs .turn ⟨now, c⟩ = [] := by simp [Scene.signs, hnone rfl, heard?, hends, hr, hin]
    rw [hsigns]
    exact .nothing rfl rfl

/-- What an incident notes. -/
theorem noted (a : Incident) (x : Scene) : x.connection.Noted x.now (x.perform a).connection (x.signs a) := by
  by_cases ha : a = .turn
  · subst ha
    exact noted_turn (took_dispatch x.now x.connection) rfl
  · have hsteady := steady_undergo ha x.now x.connection
    have hheard := heard?_of_ne ha x.connection
    cases hend : x.connection.ends x.now a with
    | true =>
      have hsigns : x.signs a = [.ended] := by simp [Scene.signs, hheard, beats_of_ne ha, hend]
      have hr : (x.connection.undergo x.now a).running = false := by simpa using (Bool.and_eq_true_iff.mp hend).2
      rw [hsigns]
      exact .ended hr
    | false =>
      have hsigns : x.signs a = [] := by simp [Scene.signs, hheard, beats_of_ne ha, hend]
      rw [hsigns]
      refine .nothing ?_ hsteady.idleAt
      show (x.connection.undergo x.now a).running = x.connection.running
      have hrunning := hsteady.running
      unfold ends at hend
      cases hr : x.connection.running <;> cases hr' : (x.connection.undergo x.now a).running <;> simp_all

/-- A dispatcher that has stopped notes nothing more. -/
theorem diary_of_halted (hr : x.connection.running = false) (incidents : List Incident) : diary incidents x = [] := by
  induction incidents generalizing x with
  | nil => rfl
  | cons a incidents ih =>
    have hstill : (x.perform a).connection.running = false := by
      by_cases ha : a = .turn
      · subst ha
        show (x.connection.dispatch x.now).running = false
        rw [dispatch_of_halted hr, hr]
      · exact Bool.eq_false_iff.mpr fun h => by
          rw [(steady_undergo ha x.now x.connection).running h] at hr
          cases hr
    have hsigns : x.signs a = [] := by
      have hheard : x.connection.heard? a = none := by simp [heard?, hr]
      have hbeats : x.connection.beats x.now a = [] := by
        by_cases ha : a = .turn
        · subst ha
          rw [beats, undergo, dispatch_of_halted hr, List.drop_length]
          rfl
        · exact beats_of_ne ha _ _
      simp [Scene.signs, hheard, hbeats, ends, hr]
    rw [diary, hsigns, ih hstill]
    rfl

/-! ## Gaps -/

/-- The pings of a gap that lasts are those up to now. -/
theorem Paced.upTo (hd : 0 < settings.idleMs) (h : Paced settings start count x) (htimely : x.Timely) (k : Nat) :
    (beatAt settings.idleMs start k < x.now → k ≤ count) ∧ (k ≤ count → beatAt settings.idleMs start k ≤ x.now) := by
  have hle := htimely h.running
  rw [h.next] at hle
  constructor
  · intro hk
    exact Nat.lt_succ_iff.mp ((strictMono_beatAt hd start).lt_iff_lt.mp (Nat.lt_of_lt_of_le hk hle))
  · intro hk
    exact Nat.le_trans ((strictMono_beatAt hd start).monotone hk) h.passed

theorem Paced.lasting (hd : 0 < settings.idleMs) (h : Paced settings start count x) (htimely : x.Timely) :
    Gap.Regular settings x ⟨start, firstBeats settings start count, none⟩ count where
  beats := rfl
  upTo := h.upTo hd htimely
  resting _ hrest k hk := by
    have hlt := Scene.lt_idleAt_of_isAtRest hrest h.running
    rw [h.next] at hlt
    exact Nat.lt_succ_iff.mp ((strictMono_beatAt hd start).lt_iff_lt.mp (Nat.lt_of_le_of_lt hk hlt))
  failed := nofun

theorem Paced.stopped (hd : 0 < settings.idleMs) (h : Paced settings start count x) (htimely : x.Timely)
    (sign : Sign) (hfail : sign = .failed → x.connection.idleAt ≤ x.now) (final : Scene) :
    Gap.Regular settings final ⟨start, firstBeats settings start count, some (x.now, sign)⟩ count where
  beats := rfl
  upTo := h.upTo hd htimely
  resting := nofun
  failed t heq := by
    cases heq
    rw [← h.next]
    exact Nat.le_antisymm (htimely h.running) (hfail rfl)

/-- All gaps of a diary are regular, from any gap on. -/
theorem regular_gaps (hd : 0 < settings.idleMs) (h : Paced settings start count x) (htimely : x.Timely)
    (ht : x.punctual incidents = true) : ∀ g ∈ gaps start (firstBeats settings start count) (diary incidents x),
      ∃ m, g.Regular settings (x.run incidents) m := by
  induction incidents generalizing x start count with
  | nil =>
    intro g hg
    rw [List.mem_singleton.mp hg]
    exact ⟨count, h.lasting hd htimely⟩
  | cons a incidents ih =>
    obtain ⟨hone, hlater⟩ := Bool.and_eq_true_iff.mp ht
    have htimely' := htimely.perform hone
    have hsettings := (Scene.settings_perform a x).trans h.configured
    have hnow := Scene.now_le_perform a x
    have hnoted := noted a x
    rw [diary]
    generalize x.signs a = signs at hnoted
    cases hnoted with
    | nothing hr hi =>
      exact ih ⟨hsettings, hr.trans h.running, Nat.le_trans h.passed hnow, hi.trans h.next⟩ htimely' hlater
    | heard p hr hi =>
      intro g hg
      rcases List.mem_cons.mp hg with rfl | hg
      · exact ⟨count, h.stopped hd htimely (.heard p) nofun _⟩
      · rw [h.configured] at hi
        have hpaced : Paced settings x.now 0 (x.perform a) := ⟨hsettings, hr, hnow, hi⟩
        exact ih hpaced htimely' hlater g hg
    | beat hidle hr hi =>
      have hat : x.now = beatAt settings.idleMs start (count + 1) := by
        rw [← h.next]
        exact Nat.le_antisymm (htimely h.running) hidle
      rw [h.configured, hat] at hi
      intro g hg
      have hpaced : Paced settings start (count + 1) (x.perform a) := ⟨hsettings, hr, Nat.le_trans hat.ge hnow, hi⟩
      refine ih hpaced htimely' hlater g ?_
      rw [h.configured] at hg
      rw [firstBeats_succ, ← hat]
      exact hg
    | failed hidle hr =>
      rw [diary_of_halted hr]
      intro g hg
      rw [List.mem_singleton.mp hg]
      exact ⟨count, h.stopped hd htimely .failed (fun _ => hidle) _⟩
    | ended hr =>
      rw [diary_of_halted hr]
      intro g hg
      rw [List.mem_singleton.mp hg]
      exact ⟨count, h.stopped hd htimely .ended nofun _⟩

theorem paced_opening (start : Nat) (link : Memory.Link) (number : Nat) (settings : DispatcherConfig) :
    Paced settings start 0 (.opening start link number settings) :=
  ⟨rfl, rfl, Nat.le_refl start, rfl⟩

/-! ## The end -/

/-- After the end of a dispatcher nothing more is noted. -/
theorem last_of_end {before after : List (Nat × Sign)} {t : Nat} {sign : Sign}
    (h : diary incidents x = before ++ (t, sign) :: after) (hs : sign = .failed ∨ sign = .ended) : after = [] := by
  induction incidents generalizing x before with
  | nil => simp [diary] at h
  | cons a incidents ih =>
    have hnoted := noted a x
    rw [diary] at h
    generalize x.signs a = signs at hnoted h
    have hmore {s : Sign} (h : (x.now, s) :: diary incidents (x.perform a) = before ++ (t, sign) :: after)
        (hs' : s ≠ .failed ∧ s ≠ .ended) : after = [] := by
      cases before with
      | nil =>
        cases h
        rcases hs with rfl | rfl
        · exact absurd rfl hs'.1
        · exact absurd rfl hs'.2
      | cons first before => exact ih (List.cons.inj h).2
    have hlast {s : Sign} (h : [(x.now, s)] = before ++ (t, sign) :: after) : after = [] := by
      cases before with
      | nil => exact (List.cons.inj h).2.symm
      | cons first before => simp at h
    cases hnoted with
    | nothing => exact ih h
    | heard p => exact hmore h ⟨nofun, nofun⟩
    | beat => exact hmore h ⟨nofun, nofun⟩
    | failed hidle hr =>
      rw [diary_of_halted hr] at h
      exact hlast h
    | ended hr =>
      rw [diary_of_halted hr] at h
      exact hlast h

/-- A ping that cannot be written ends its connection. -/
theorem finished_of_failsToBeat (h : c.failsToBeat now = true) :
    (c.dispatch now).running = false ∧ (c.dispatch now).link.active = false ∧
      (c.dispatch now).generation.table.size = 0 := by
  simp only [failsToBeat, Bool.and_eq_true, List.isEmpty_iff, decide_eq_true_eq] at h
  obtain ⟨⟨⟨⟨hr, hin⟩, hp⟩, ht⟩, hw⟩ := h
  have htook := took_dispatch now c
  generalize c.dispatch now = c' at htook
  cases htook with
  | halted hr' => simp [hr] at hr'
  | heard _ hin' => simp [hin] at hin'
  | ended _ _ hp' => simp [hp' hin] at hp
  | beat _ _ _ _ hw' => simp [hw'] at hw
  | failed => exact ⟨rfl, rfl, size_stop _⟩
  | idle _ _ _ ht' => exact absurd ht (Nat.not_le_of_lt ht')

/-! ## Main statement -/

/-- **When heartbeats are written.** In each silent gap of a timeline one ping is written at the end of each idle time,
counted from the begin of the gap, and at no other moment. In the range of the clock these are the multiples of the idle
time. After the end of the dispatcher nothing more happens, and it ends at the first ping that is due and cannot be
written: then its link is inactive, no call stands, and nothing more is heard. Whatever has come in, a few turns bring
the dispatcher to rest, so that time can pass. -/
theorem heartbeat_schedule (start : Nat) (link : Memory.Link) (number : Nat) (settings : DispatcherConfig)
    (incidents : List Incident) (hd : 0 < settings.idleMs)
    (ht : (Scene.opening start link number settings).punctual incidents = true) :
    let x := Scene.opening start link number settings
    (∀ g ∈ gaps start [] (diary incidents x), ∃ count, g.Regular settings (x.run incidents) count) ∧
      (x.run incidents).Settles ∧
      (∀ a k, a + k * settings.idleMs < clockEnd →
        beatAt settings.idleMs a k = a + k * settings.idleMs) ∧
      (∀ before t sign after, diary incidents x = before ++ (t, sign) :: after →
        sign = .failed ∨ sign = .ended → after = []) ∧
      ∀ first rest, incidents = first ++ .turn :: rest →
        let y := x.run first
        y.connection.failsToBeat y.now = true →
          let z := y.perform .turn
          z.connection.running = false ∧ z.connection.link.active = false ∧
            z.connection.generation.table.size = 0 ∧ diary rest z = [] := by
  intro x
  refine ⟨?_, Scene.settles_run_opening start link number hd incidents, fun _ _ => beatAt_eq,
    fun _ _ _ _ => last_of_end, fun first rest _ => ?_⟩
  · exact regular_gaps hd (paced_opening start link number settings)
      (Scene.timely_opening start link number settings) ht
  · intro y hfail z
    obtain ⟨hr, hactive, hsize⟩ := finished_of_failsToBeat hfail
    exact ⟨hr, hactive, hsize, diary_of_halted hr rest⟩

/-- A silent second, half a second until a packet comes, a silent second, and a ping that cannot be written. -/
theorem heartbeats_until_failure :
    let x := Scene.opening 0 { addr := "mem:a" } 1 { idleMs := 1000 }
    let quiet : List Incident := [.pass 1000, .turn, .pass 500, .peer (.send (.packet .pong)), .turn, .pass 1000, .turn,
      .peer (.setFailWrites true), .pass 1000]
    let incidents := quiet ++ .turn :: [.peer (.send (.packet .pong)), .turn]
    x.punctual incidents = true ∧
      gaps 0 [] (diary incidents x) =
        [⟨0, [(1000, .no)], some (1500, .heard .pong)⟩, ⟨1500, [(2500, .no)], some (3500, .failed)⟩] ∧
      (∀ g ∈ gaps 0 [] (diary incidents x), ∃ count, g.Regular { idleMs := 1000 } (x.run incidents) count) ∧
      ((x.run quiet).perform .turn).connection.link.active = false := by
  intro x quiet incidents
  have ht : x.punctual incidents = true := by decide +kernel
  have hdue : (x.run quiet).connection.failsToBeat (x.run quiet).now = true := by decide +kernel
  obtain ⟨hgaps, -, -, -, hends⟩ :=
    heartbeat_schedule 0 { addr := "mem:a" } 1 { idleMs := 1000 } incidents (by decide) ht
  have hinactive (first rest : List Incident) (h : incidents = first ++ .turn :: rest)
      (hdue : (x.run first).connection.failsToBeat (x.run first).now = true) :
      ((x.run first).perform .turn).connection.link.active = false := (hends first rest h hdue).2.1
  exact ⟨ht, by decide +kernel, hgaps, hinactive quiet _ rfl hdue⟩

end Connection

end RemoteCall
