import RemoteCall.Proofs.Connection.Heartbeats
import RemoteCall.Proofs.Connection.Sweeping

/-!
# What becomes of packets that come in

Packets come in one after the other while calls wait, until a fault comes or the far end is gone. The dispatcher takes
them in up to that point and stops there. A call gets the first response with its id among them, or ends with the
connection. Pings are answered if their mark asks for it, and nothing else is written.

* `undisturbed`: no one but the dispatcher touches the calls, and it never finds that its idle time is over.
* `taken`, `arrivals`, `written`: the packets that are taken in, what comes in, and what the dispatcher writes.
* `Attended`: what a turn is, from which the three are read off.
* `CallStep`: what an incident does to a call that waits.
* `inbound_handled`: what is taken in, what each call gets, what is written, and that the dispatcher comes to its end.
-/

namespace RemoteCall

namespace Memory.Link

section Defs

/-- Whether a packet can be written. -/
def takesPackets (l : Link) : Bool := l.active && !l.failWrites && l.peerHeld

/-- What came in is still there later, and more may have come in if someone reads. -/
structure Fed (l l' : Link) : Prop where
  readerHeld : l'.readerHeld = l.readerHeld
  inbound : l.inbound <+: l'.inbound
  unread : l.readerHeld = false → l'.inbound = l.inbound

end Defs

variable {l l' : Link}

/-! ## The link -/

theorem write_of_takesPackets (h : l.takesPackets = true) (p : Packet) :
    l.write p = (.ok (), { l with outbound := l.outbound ++ [p] }) := by
  simp only [takesPackets, Bool.and_eq_true, Bool.not_eq_true'] at h
  obtain ⟨⟨hactive, hfail⟩, hpeer⟩ := h
  simp [write, hactive, hfail, hpeer]

theorem write_of_not_takesPackets (h : l.takesPackets = false) (p : Packet) : ∃ e, l.write p = (.error e, l) := by
  unfold write
  split
  · exact ⟨_, rfl⟩
  · split
    · exact ⟨_, rfl⟩
    · split
      · exact ⟨_, rfl⟩
      · -- what can be written is taken
        simp_all [takesPackets]

theorem snd_write_of_not_takesPackets (h : l.takesPackets = false) (p : Packet) : (l.write p).2 = l := by
  obtain ⟨e, hwrite⟩ := write_of_not_takesPackets h p
  rw [hwrite]

theorem fed_of_eq (hr : l'.readerHeld = l.readerHeld) (hin : l'.inbound = l.inbound) : l.Fed l' :=
  ⟨hr, hin ▸ List.prefix_rfl, fun _ => hin⟩

theorem fed_take (l : Link) : l.Fed l.take.2 := by
  rw [take_eq]
  exact fed_of_eq rfl rfl

theorem Fed.send (h : l.Fed l') (a : Inbound) : l.Fed (l'.send a) := by
  unfold Link.send
  split
  · rename_i hr
    refine ⟨h.readerHeld, h.inbound.trans (List.prefix_append _ _), fun hunread => ?_⟩
    rw [h.readerHeld, hunread] at hr
    cases hr
  · exact h

theorem fed_serve (handler : Handler) (l : Link) : l.Fed (l.serve handler) := by
  have htake := fed_take l
  unfold serve
  split <;> (rename_i heq; rw [heq] at htake)
  · split
    · exact htake.send _
    · exact htake
  · exact htake.send _
  · exact htake

/-- What the far end does takes nothing back that has come in. -/
theorem fed_act (act : PeerAct) (l : Link) : l.Fed (l.act act) := by
  have hsame : l.Fed l := fed_of_eq rfl rfl
  unfold Link.act
  split
  · exact hsame
  · cases act with
    | send b => exact hsame.send b
    | read => exact fed_take l
    | serve handler => exact fed_serve handler l
    | _ => exact fed_of_eq rfl rfl

end Memory.Link

namespace Connection

open Memory (Inbound)
open Pending (Call Ticket Table)

section Defs

/-- Whether the next turn finds that nothing has come in for the idle time. -/
def idles (now : Nat) (c : Connection) : Bool :=
  c.running && c.link.inbound.isEmpty && c.link.peerHeld && c.idleAt ≤ now

/-- Whether an incident neither adds a call nor takes one out by other means than a packet or the end. -/
def Scene.isPlain (a : Incident) (x : Scene) : Bool :=
  match a with
  | .turn => !x.connection.idles x.now
  | .peer _ | .forget _ | .close | .pass _ => true
  | .send _ | .register _ _ | .leave _ _ | .halt => false

/-- All incidents are plain. -/
def undisturbed : List Incident → Scene → Bool
  | [], _ => true
  | a :: incidents, x => x.isPlain a && undisturbed incidents (x.perform a)

/-- Whether a call stands. -/
def Scene.stands (n : Ticket) (x : Scene) : Bool := x.connection.generation.table.calls[n]?.any Call.isOpen

/-- Whether the caller of a call goes away. -/
def Incident.forgets (n : Ticket) : Incident → Bool
  | .forget m => m == n
  | _ => false

/-- The caller of a call does not go away while the call stands. -/
def stays (n : Ticket) : List Incident → Scene → Bool
  | [], _ => true
  | a :: incidents, x => !(a.forgets n && x.stands n) && stays n incidents (x.perform a)

/-- What comes in by an incident. -/
def Scene.arriving (a : Incident) (x : Scene) : List Inbound :=
  match a with
  | .peer act => (x.connection.link.act act).inbound.drop x.connection.link.inbound.length
  | _ => []

/-- What comes in. -/
def arrivals : List Incident → Scene → List Inbound
  | [], _ => []
  | a :: incidents, x => x.arriving a ++ arrivals incidents (x.perform a)

/-- The packet that the dispatcher takes in, and whether a packet can be written then. -/
def Scene.taking (a : Incident) (x : Scene) : List (Packet × Bool) :=
  (x.connection.heard? a).toList.map fun p => (p, x.connection.link.takesPackets)

/-- The packets that the dispatcher takes in, and whether a packet can be written then. -/
def taken : List Incident → Scene → List (Packet × Bool)
  | [], _ => []
  | a :: incidents, x => x.taking a ++ taken incidents (x.perform a)

/-- What the dispatcher writes in an incident. -/
def Scene.writing (a : Incident) (x : Scene) : List Packet :=
  match a with
  | .turn => (x.perform .turn).connection.link.outbound.drop x.connection.link.outbound.length
  | _ => []

/-- What the dispatcher writes. -/
def written : List Incident → Scene → List Packet
  | [], _ => []
  | a :: incidents, x => x.writing a ++ written incidents (x.perform a)

/-- The packets up to the first fault. -/
def untilFault : List Inbound → List Packet
  | .packet p :: rest => p :: untilFault rest
  | _ => []

/-- What is written when a packet is taken in. -/
def answer : Packet × Bool → List Packet
  | (.ping .yes, true) => [.pong]
  | _ => []

/-- The response in a packet, if it has the id of a call. -/
def responseTo (id : UInt32) : Packet × Bool → Option Response
  | (.response r, _) => if r.id = id then some r else none
  | _ => none

/-- Whether a packet is of no account: it is neither the response to a call that stands nor a ping that can be
answered. -/
def ignores (c : Connection) : Packet → Bool
  | .response r => !c.generation.table.holds r.id
  | .ping .yes => !c.link.takesPackets
  | .ping .no | .pong | .request _ => true

/-- How a call has left after some packets were taken in, if it has. -/
def exitAfter (id : UInt32) (took : List (Packet × Bool)) (running : Bool) : Option Pending.Exit :=
  match took.findSome? (responseTo id) with
  | some r => some (.resolved r)
  | none => if running then none else some .abandoned

/-- What the caller of a call in time gets after some packets were taken in, if it gets anything yet. -/
def verdictAfter (id : UInt32) (took : List (Packet × Bool)) (running : Bool) : Option Pending.Outcome :=
  match took.findSome? (responseTo id) with
  | some r => some (.ok r)
  | none => if running then none else some (.error .connectionClosed)

/-- What a turn of a dispatcher that runs is, when its idle time is not over: the packet that it takes in, if it does,
and what it leaves. -/
inductive Attended (c c' : Connection) : Option Packet → Prop
  | took {p : Packet} (hin : c.link.inbound = .packet p :: c'.link.inbound) (hr : c'.running = true)
    (ho : c'.link.outbound = c.link.outbound ++ answer (p, c.link.takesPackets)) : Attended c c' (some p)
  | waits (hin : c.link.inbound = []) (hp : c.link.peerHeld = true) (h : c' = c) : Attended c c' none
  | stops (hin : ∀ p rest, c.link.inbound ≠ .packet p :: rest) (hp : c.link.inbound = [] → c.link.peerHeld = false)
    (hr : c'.running = false) (hreader : c'.link.readerHeld = false) (hleft : c'.link.inbound = [])
    (ho : c'.link.outbound = c.link.outbound) : Attended c c' none

/-- What an incident does to a call that stands. -/
inductive CallStep (n : Ticket) (call : Call) (a : Incident) (x : Scene) : Prop
  | answered {r : Response} (hid : r.id = call.id)
    (htake : x.taking a = [(.response r, x.connection.link.takesPackets)])
    (hcall : (x.perform a).connection.generation.table.calls[n]? = some { call with exit := some (.resolved r) })
  | waits (htake : ∀ e ∈ x.taking a, responseTo call.id e = none)
    (hcall : (x.perform a).connection.generation.table.calls[n]? = some call)
    (hr : (x.perform a).connection.running = x.connection.running)
  | closed (htake : x.taking a = []) (hr : (x.perform a).connection.running = false)
    (hreader : (x.perform a).connection.link.readerHeld = false)
    (hcall : (x.perform a).connection.generation.table.calls[n]? = some { call with exit := some .abandoned })

end Defs

variable {c c' : Connection} {a : Incident} {incidents : List Incident} {now : Nat} {x : Scene} {n : Ticket}
  {call : Call} {p : Packet} {rest : List Inbound}

/-! ## One packet -/

/-- A packet of no account changes nothing. -/
theorem onPacket_of_ignores (h : c.ignores p = true) : c.onPacket p = c := by
  match p with
  | .response r =>
    have hid : c.generation.table.holds r.id = false := by simpa [ignores] using h
    have hleave := Table.leave_eq_self (e := .resolved r) (Table.not_id_of_not_holds hid)
    show { c with generation := { c.generation with table := (c.generation.table.resolve r.id r).2 } } = c
    rw [Table.resolve, hleave]
  | .ping .yes =>
    have hwrite : c.link.takesPackets = false := by simpa [ignores] using h
    show { c with link := (c.link.write .pong).2 } = c
    rw [Memory.Link.snd_write_of_not_takesPackets hwrite]
  | .ping .no => rfl
  | .pong => rfl
  | .request _ => rfl

/-- What is written when a packet is dealt with. -/
theorem outbound_onPacket_eq (p : Packet) (c : Connection) :
    (c.onPacket p).link.outbound = c.link.outbound ++ answer (p, c.link.takesPackets) := by
  match p with
  | .ping .yes =>
    show (c.link.write .pong).2.outbound = _
    cases h : c.link.takesPackets with
    | true => rw [Memory.Link.write_of_takesPackets h]; rfl
    | false => rw [Memory.Link.snd_write_of_not_takesPackets h]; exact (List.append_nil _).symm
  | .response r => exact (List.append_nil _).symm
  | .ping .no => exact (List.append_nil _).symm
  | .pong => exact (List.append_nil _).symm
  | .request _ => exact (List.append_nil _).symm

/-- A turn that takes in a packet of no account looks for late calls, if it is time, and waits anew. -/
theorem dispatch_of_ignores (hr : c.running = true) (hin : c.link.inbound = .packet p :: rest)
    (h : c.ignores p = true) (now : Nat) :
    let left : Connection := { c with link := { c.link with inbound := rest } }
    c.dispatch now = (if c.settings.idleMs ≤ now - c.lastSweep then left.sweep now else left).await now := by
  intro left
  have hleft : left.ignores p = true := by
    rw [← h]
    cases p <;> rfl
  rw [dispatch, if_pos hr]
  simp only [Memory.Link.receive, hin]
  rw [show onPacket p { c with link := { c.link with inbound := rest } } = left from onPacket_of_ignores hleft]

/-! ## One turn -/

theorem heard?_turn (hr : c.running = true) (hin : c.link.inbound = .packet p :: rest) :
    c.heard? .turn = some p := by simp [heard?, hr, hin]

theorem heard?_turn_of_ne (hin : ∀ p rest, c.link.inbound ≠ .packet p :: rest) : c.heard? .turn = none := by
  unfold heard?
  split
  · rename_i heq
    exact absurd heq (hin _ _)
  · rfl

/-- What a turn of a dispatcher that runs is, when its idle time is not over. -/
theorem attended_dispatch (hr : c.running = true) (hidle : c.idles now = false) :
    c.Attended (c.dispatch now) (c.heard? .turn) := by
  have hnot (hin : c.link.inbound = []) (hp : c.link.peerHeld = true) (ht : c.idleAt ≤ now) : False := by
    simp [idles, hr, hin, hp, ht] at hidle
  have htook := took_dispatch now c
  generalize c.dispatch now = c' at htook
  cases htook with
  | halted hr' =>
    rw [hr] at hr'
    cases hr'
  | @heard p rest d _ hin hd hframe =>
    rw [heard?_turn hr hin]
    have hlink : d.link.inbound = rest := by rw [hd]; exact inbound_onPacket p _
    have hout : d.link.outbound = c.link.outbound ++ answer (p, c.link.takesPackets) := by
      rw [hd]
      exact outbound_onPacket_eq p _
    have hrun : d.running = true := (congrArg running hframe).trans hr
    refine .took ?_ ?_ ?_
    · rw [hin, ← hlink]
      split <;> rfl
    · split <;> exact hrun
    · rw [← hout]
      split <;> rfl
  | ended _ hin hp ho =>
    rw [heard?_turn_of_ne hin]
    exact .stops hin hp rfl rfl rfl ho
  | beat _ hin hp ht => exact (hnot hin hp ht).elim
  | failed _ hin hp ht => exact (hnot hin hp ht).elim
  | idle _ hin hp =>
    rw [heard?_turn_of_ne (by simp [hin])]
    exact .waits hin hp rfl

/-! ## One incident -/

theorem taking_of_ne (ha : a ≠ .turn) (x : Scene) : x.taking a = [] := by
  rw [Scene.taking, heard?_of_ne ha]
  rfl

/-- In an incident that is no turn nothing is taken in, and what comes in is added at the end. -/
theorem inbound_perform (ha : a ≠ .turn) (hplain : x.isPlain a = true) :
    (x.perform a).connection.link.inbound = x.connection.link.inbound ++ x.arriving a ∧
      (x.perform a).connection.running = x.connection.running := by
  match a with
  | .turn => exact absurd rfl ha
  | .peer act =>
    refine ⟨?_, rfl⟩
    obtain ⟨new, hnew⟩ := (Memory.Link.fed_act act x.connection.link).inbound
    show (x.connection.link.act act).inbound = _ ++ (x.connection.link.act act).inbound.drop _
    rw [← hnew, List.drop_left]
  | .forget m => exact ⟨(List.append_nil _).symm, rfl⟩
  | .close => exact ⟨(List.append_nil _).symm, rfl⟩
  | .pass ms => exact ⟨(List.append_nil _).symm, rfl⟩

theorem not_idles_of_isPlain (h : x.isPlain .turn = true) : x.connection.idles x.now = false := by
  simpa [Scene.isPlain] using h

/-- What an incident does to a call that stands, has its caller and is in time. -/
theorem callStep (hplain : x.isPlain a = true) (hcall : x.connection.generation.table.calls[n]? = some call)
    (ho : call.isOpen = true) (hp : call.callerPresent = true) (hstay : a ≠ .forget n) (hd : x.now < call.deadline) :
    CallStep n call a x := by
  by_cases ha : a = .turn
  · subst ha
    by_cases hresponse : ∃ r, x.connection.response? = some r ∧ call.id = r.id
    · obtain ⟨r, hr, hid⟩ := hresponse
      refine .answered hid.symm ?_ (resolved_dispatch hr hcall ho hid x.now)
      unfold response? at hr
      split at hr
      · rename_i hrun hin
        rw [Scene.taking, heard?_turn hrun hin, ← Option.some.inj hr]
        rfl
      · cases hr
    · have hother : ∀ r, x.connection.response? = some r → call.id ≠ r.id := fun r hr hid => hresponse ⟨r, hr, hid⟩
      have htake : ∀ e ∈ x.taking .turn, responseTo call.id e = none := by
        intro e he
        obtain ⟨p, hp', rfl⟩ := List.mem_map.mp he
        rw [Option.mem_toList] at hp'
        cases p with
        | response r =>
          have hr : x.connection.response? = some r := by
            unfold heard? at hp'
            split at hp'
            · rename_i hrun hin
              cases hp'
              simp [response?, hrun, hin]
            · cases hp'
          exact if_neg fun hid => hother r hr hid.symm
        | _ => rfl
      rcases call_dispatch hother hcall ho hp x.now with ⟨hget, hr⟩ | ⟨-, hlate⟩ | ⟨hget, hrun, hr⟩
      · exact .waits htake hget hr
      · exact absurd hlate (Nat.not_le_of_lt hd)
      · have hattended := attended_dispatch hrun (not_idles_of_isPlain hplain)
        generalize hheard : x.connection.heard? .turn = heard at hattended
        cases hattended with
        | took _ hr' =>
          rw [hr] at hr'
          cases hr'
        | waits _ _ hsame =>
          rw [hsame, hrun] at hr
          cases hr
        | stops _ _ _ hreader =>
          refine .closed ?_ hr hreader hget
          rw [Scene.taking, hheard]
          rfl
  · have hnone : ∀ e ∈ x.taking a, responseTo call.id e = none := by simp [taking_of_ne ha]
    refine .waits hnone ?_ (inbound_perform ha hplain).2
    cases a with
    | turn => exact absurd rfl ha
    | forget m =>
      have hmn : m ≠ n := fun h => hstay (by rw [h])
      exact (Table.getElem?_forget_of_ne hmn).trans hcall
    | peer act => exact hcall
    | close => exact hcall
    | pass ms => exact hcall
    | _ => cases hplain

/-! ## One incident after another -/

theorem follows_run (x : Scene) (incidents : List Incident) :
    x.connection.generation.table.Follows (x.run incidents).connection.generation.table := by
  induction incidents generalizing x with
  | nil => exact .refl _
  | cons a incidents ih => exact (grew_undergo x.now a x.connection).follows.trans (ih (x.perform a))

theorem now_le_run (x : Scene) (incidents : List Incident) : x.now ≤ (x.run incidents).now := by
  induction incidents generalizing x with
  | nil => exact Nat.le_refl _
  | cons a incidents ih => exact Nat.le_trans (Scene.now_le_perform a x) (ih (x.perform a))

/-- A link whose far end is gone stays so. -/
theorem peerHeld_run (hp : x.connection.link.peerHeld = false) (h : undisturbed incidents x = true) :
    (x.run incidents).connection.link.peerHeld = false := by
  induction incidents generalizing x with
  | nil => exact hp
  | cons a incidents ih =>
    obtain ⟨hplain, hlater⟩ := Bool.and_eq_true_iff.mp h
    refine ih ?_ hlater
    match a with
    | .turn => exact (wrote_dispatch x.now x.connection).peerHeld.trans hp
    | .peer act =>
      show (x.connection.link.act act).peerHeld = false
      rw [Memory.Link.act_of_gone hp, hp]
    | .forget m => exact hp
    | .close => exact hp
    | .pass ms => exact hp

/-- A dispatcher that has stopped stays so. Nothing is taken in any more, and what is sent is lost. -/
theorem taken_of_halted (hr : x.connection.running = false) (hreader : x.connection.link.readerHeld = false)
    (h : undisturbed incidents x = true) :
    taken incidents x = [] ∧ arrivals incidents x = [] ∧ (x.run incidents).connection.running = false := by
  induction incidents generalizing x with
  | nil => exact ⟨rfl, rfl, hr⟩
  | cons a incidents ih =>
    obtain ⟨hplain, hlater⟩ := Bool.and_eq_true_iff.mp h
    have htake : x.taking a = [] := by simp [Scene.taking, heard?, hr]
    have hstep : x.arriving a = [] ∧ (x.perform a).connection.running = false ∧
        (x.perform a).connection.link.readerHeld = false := by
      cases a with
      | turn =>
        have hsame : (x.perform .turn).connection = x.connection := dispatch_of_halted hr x.now
        exact ⟨rfl, by rw [hsame, hr], by rw [hsame, hreader]⟩
      | peer act =>
        have hfed := Memory.Link.fed_act act x.connection.link
        refine ⟨?_, hr, hfed.readerHeld.trans hreader⟩
        show (x.connection.link.act act).inbound.drop _ = []
        rw [hfed.unread hreader, List.drop_length]
      | forget m => exact ⟨rfl, hr, hreader⟩
      | close => exact ⟨rfl, hr, hreader⟩
      | pass ms => exact ⟨rfl, hr, hreader⟩
      | _ => cases hplain
    obtain ⟨harrive, hr', hreader'⟩ := hstep
    obtain ⟨htaken, harrivals, hrun⟩ := ih hr' hreader' hlater
    exact ⟨by rw [taken, htake, htaken]; rfl, by rw [arrivals, harrive, harrivals]; rfl, hrun⟩

/-- While the dispatcher runs, what has come in was taken in or is still there. When it has stopped, the packets up to
the first fault were taken in, and there was a fault or the far end is gone. -/
theorem taken_run (hr : x.connection.running = true) (h : undisturbed incidents x = true) :
    ((x.run incidents).connection.running = true →
      (taken incidents x).map (fun e => .packet e.1) ++ (x.run incidents).connection.link.inbound =
        x.connection.link.inbound ++ arrivals incidents x) ∧
    ((x.run incidents).connection.running = false →
      (taken incidents x).map Prod.fst = untilFault (x.connection.link.inbound ++ arrivals incidents x) ∧
        ((∃ e, .fault e ∈ x.connection.link.inbound ++ arrivals incidents x) ∨
          (x.run incidents).connection.link.peerHeld = false)) := by
  induction incidents generalizing x with
  | nil =>
    refine ⟨fun _ => (List.append_nil _).symm, fun hr' => ?_⟩
    rw [Scene.run_nil, hr] at hr'
    cases hr'
  | cons a incidents ih =>
    obtain ⟨hplain, hlater⟩ := Bool.and_eq_true_iff.mp h
    rw [taken, arrivals, Scene.run_cons]
    by_cases ha : a = .turn
    · subst ha
      have hattended := attended_dispatch hr (not_idles_of_isPlain hplain)
      have harrive : x.arriving .turn = [] := rfl
      have hnext : (x.perform .turn).connection = x.connection.dispatch x.now := rfl
      rw [harrive, List.nil_append]
      rw [← hnext] at hattended
      generalize hheard : x.connection.heard? .turn = heard at hattended
      cases hattended with
      | @took p hin hr' =>
        obtain ⟨hgoes, hstops⟩ := ih hr' hlater
        have htake : x.taking .turn = [(p, x.connection.link.takesPackets)] := by rw [Scene.taking, hheard]; rfl
        rw [htake, hin]
        refine ⟨fun hrun => ?_, fun hstop => ?_⟩
        · exact congrArg (.packet p :: ·) (hgoes hrun)
        · obtain ⟨htaken, hend⟩ := hstops hstop
          refine ⟨congrArg (p :: ·) htaken, hend.imp_left ?_⟩
          rintro ⟨e, he⟩
          exact ⟨e, List.mem_cons_of_mem _ he⟩
      | waits hin hp hsame =>
        have htake : x.taking .turn = [] := by rw [Scene.taking, hheard]; rfl
        rw [htake, ← hsame]
        exact ih (by rw [hsame, hr]) hlater
      | stops hin hp hr' hreader hleft =>
        have htake : x.taking .turn = [] := by rw [Scene.taking, hheard]; rfl
        obtain ⟨htaken, harrivals, hrun⟩ := taken_of_halted hr' hreader hlater
        rw [htake, htaken, harrivals, List.append_nil]
        refine ⟨fun hrun' => ?_, fun _ => ?_⟩
        · rw [hrun] at hrun'
          cases hrun'
        · cases hinbound : x.connection.link.inbound with
          | nil =>
            refine ⟨rfl, .inr (peerHeld_run ?_ hlater)⟩
            exact (wrote_dispatch x.now x.connection).peerHeld.trans (hp hinbound)
          | cons first rest =>
            cases first with
            | packet p => exact absurd hinbound (hin p rest)
            | fault e => exact ⟨rfl, .inl ⟨e, List.mem_cons_self⟩⟩
    · obtain ⟨hin, hrun⟩ := inbound_perform ha hplain
      obtain ⟨hgoes, hstops⟩ := ih (hrun.trans hr) hlater
      rw [taking_of_ne ha, List.nil_append, ← List.append_assoc, ← hin]
      exact ⟨hgoes, hstops⟩

/-- A turn writes the answer to what it takes in, and nothing else. -/
theorem writing_turn (hplain : x.isPlain .turn = true) :
    (x.perform .turn).connection.link.outbound = x.connection.link.outbound ++ (x.taking .turn).flatMap answer := by
  cases hr : x.connection.running with
  | false =>
    have hsame : (x.perform .turn).connection = x.connection := dispatch_of_halted hr x.now
    have htake : x.taking .turn = [] := by simp [Scene.taking, heard?, hr]
    rw [hsame, htake]
    exact (List.append_nil _).symm
  | true =>
    have hattended := attended_dispatch hr (not_idles_of_isPlain hplain)
    have hnext : (x.perform .turn).connection = x.connection.dispatch x.now := rfl
    rw [← hnext] at hattended
    rw [Scene.taking]
    generalize x.connection.heard? .turn = heard at hattended
    cases hattended with
    | took _ _ ho =>
      rw [ho]
      exact congrArg _ (List.append_nil _).symm
    | waits _ _ hsame =>
      rw [hsame]
      exact (List.append_nil _).symm
    | stops _ _ _ _ _ ho =>
      rw [ho]
      exact (List.append_nil _).symm

theorem written_run (h : undisturbed incidents x = true) :
    written incidents x = (taken incidents x).flatMap answer := by
  induction incidents generalizing x with
  | nil => rfl
  | cons a incidents ih =>
    obtain ⟨hplain, hlater⟩ := Bool.and_eq_true_iff.mp h
    have hwriting : x.writing a = (x.taking a).flatMap answer := by
      by_cases ha : a = .turn
      · subst ha
        rw [Scene.writing, writing_turn hplain, List.drop_left]
      · rw [taking_of_ne ha]
        cases a with
        | turn => exact absurd rfl ha
        | _ => rfl
    rw [written, taken, List.flatMap_append, hwriting, ih hlater]

/-- How a call in time has left after a run. -/
theorem exit_run (hr : x.connection.running = true) (h : undisturbed incidents x = true)
    (hcall : x.connection.generation.table.calls[n]? = some call) (ho : call.isOpen = true)
    (hp : call.callerPresent = true) (hstay : stays n incidents x = true)
    (hd : (x.run incidents).now < call.deadline) :
    ∃ final : Call, (x.run incidents).connection.generation.table.calls[n]? = some final ∧ call.Follows final ∧
      final.exit = exitAfter call.id (taken incidents x) (x.run incidents).connection.running := by
  induction incidents generalizing x with
  | nil =>
    refine ⟨call, hcall, .refl call, ?_⟩
    rw [exitAfter, taken, Scene.run_nil, hr]
    exact Pending.Call.isOpen_iff.mp ho
  | cons a incidents ih =>
    obtain ⟨hplain, hlater⟩ := Bool.and_eq_true_iff.mp h
    obtain ⟨hhere, hstays⟩ := Bool.and_eq_true_iff.mp hstay
    have hstands : x.stands n = true := by rw [Scene.stands, hcall]; exact ho
    have hkeeps : a ≠ .forget n := by
      rintro rfl
      simp [Incident.forgets, hstands] at hhere
    have hnow : x.now < call.deadline := Nat.lt_of_le_of_lt (now_le_run x (a :: incidents)) hd
    rw [Scene.run_cons] at hd ⊢
    have hleft {e : Pending.Exit}
        (hcall' : (x.perform a).connection.generation.table.calls[n]? = some { call with exit := some e }) :
        ∃ final : Call, ((x.perform a).run incidents).connection.generation.table.calls[n]? = some final ∧
          call.Follows final ∧ final.exit = some e := by
      -- once it has left, a call keeps its exit
      obtain ⟨final, hfinal, hf⟩ := follows_run (x.perform a) incidents n _ hcall'
      exact ⟨final, hfinal, (Pending.Call.follows_exit ho e).trans hf, hf.exit rfl⟩
    cases callStep hplain hcall ho hp hkeeps hnow with
    | @answered r hid htake hcall' =>
      obtain ⟨final, hfinal, hf, hexit⟩ := hleft hcall'
      refine ⟨final, hfinal, hf, ?_⟩
      rw [hexit, exitAfter, taken, htake, List.singleton_append,
        List.findSome?_cons_of_isSome (by simp [responseTo, hid])]
      simp [responseTo, hid]
    | waits htake hcall' hrun =>
      obtain ⟨final, hfinal, hf, hexit⟩ := ih (hrun.trans hr) hlater hcall' hstays hd
      refine ⟨final, hfinal, hf, ?_⟩
      rw [hexit, exitAfter, exitAfter, taken, List.findSome?_append, List.findSome?_eq_none_iff.mpr htake,
        Option.none_or]
    | closed htake hrun hreader hcall' =>
      obtain ⟨final, hfinal, hf, hexit⟩ := hleft hcall'
      obtain ⟨htaken, -, hend⟩ := taken_of_halted hrun hreader hlater
      refine ⟨final, hfinal, hf, ?_⟩
      rw [hexit, taken, htake, htaken, hend]
      rfl

/-- What the caller of a call in time gets is told by how the call has left. -/
theorem outcome?_of_exitAfter {took : List (Packet × Bool)} {running : Bool} (hd : now < call.deadline)
    (hexit : call.exit = exitAfter call.id took running) :
    call.outcome? now = verdictAfter call.id took running := by
  rw [Pending.Call.outcome?, hexit, exitAfter, verdictAfter]
  cases took.findSome? (responseTo call.id) with
  | some r => rfl
  | none =>
    cases running with
    | true => exact if_neg (Nat.not_le_of_lt hd)
    | false => rfl

/-- A dispatcher that is to find a fault, or the far end gone, comes to its end when it takes its turns. -/
theorem halted_of_turns {k : Nat} (hend : x.connection.link.peerHeld = false ∨
    ∃ e, .fault e ∈ x.connection.link.inbound) (hk : x.connection.link.inbound.length < k) :
    (x.run (List.replicate k .turn)).connection.running = false := by
  have hhalted (k : Nat) {x : Scene} (hr : x.connection.running = false) :
      (x.run (List.replicate k .turn)).connection.running = false := by
    induction k generalizing x with
    | zero => exact hr
    | succ k ih =>
      refine ih ?_
      show (x.connection.dispatch x.now).running = false
      rw [dispatch_of_halted hr, hr]
  induction k generalizing x with
  | zero => exact absurd hk (Nat.not_lt_zero _)
  | succ k ih =>
    rw [List.replicate_succ, Scene.run_cons]
    cases hr : x.connection.running with
    | false =>
      refine hhalted k ?_
      show (x.connection.dispatch x.now).running = false
      rw [dispatch_of_halted hr, hr]
    | true =>
      have hidle : x.connection.idles x.now = false := by
        rcases hend with hpeer | ⟨e, he⟩
        · simp [idles, hpeer]
        · have hne : x.connection.link.inbound.isEmpty = false := List.isEmpty_eq_false_iff.mpr (List.ne_nil_of_mem he)
          simp [idles, hne]
      have hattended := attended_dispatch hr hidle
      have hnext : (x.perform .turn).connection = x.connection.dispatch x.now := rfl
      rw [← hnext] at hattended
      have hpeer : (x.perform .turn).connection.link.peerHeld = x.connection.link.peerHeld :=
        (wrote_dispatch x.now x.connection).peerHeld
      generalize x.connection.heard? .turn = heard at hattended
      cases hattended with
      | took hin =>
        rw [hin] at hend hk
        refine ih (hend.imp hpeer.trans ?_) (Nat.lt_of_succ_lt_succ hk)
        rintro ⟨e, he⟩
        rcases List.mem_cons.mp he with heq | he
        · cases heq
        · exact ⟨e, he⟩
      | waits hin hp =>
        rw [hin, hp] at hend
        simp at hend
      | stops _ _ hr' => exact hhalted k hr'

/-! ## Main statement -/

/-- **What the dispatcher does with packets.** A dispatcher runs, and calls wait. Packets and faults come in at any
time, the far end and the link come to their ends or let no packet be written at any time, and the idle time is never
over.

While the dispatcher runs, all that has come in was taken in, in its order, or is still there. When it has stopped, the
packets up to the first fault were taken in and nothing else, and there was a fault or the far end is gone. In both
cases it stops when it has taken its turns for what is still there.

A call in time with its caller gets the first response with its id that was taken in. If there is none, it waits as long
as the dispatcher runs, and then finds the connection closed.

Each ping that asks for it is answered in its turn with one pong, if a packet can be written then, and nothing else is
written. All other packets but responses to calls that stand are of no account: the turn only looks for late calls, if
it is time, and waits anew. -/
theorem inbound_handled (x : Scene) (incidents : List Incident) (hr : x.connection.running = true)
    (h : undisturbed incidents x = true) :
    let y := x.run incidents
    let all := x.connection.link.inbound ++ arrivals incidents x
    let took := taken incidents x
    (y.connection.running = true → took.map (fun e => .packet e.1) ++ y.connection.link.inbound = all) ∧
    (y.connection.running = false → took.map Prod.fst = untilFault all ∧
      ((∃ e, .fault e ∈ all) ∨ y.connection.link.peerHeld = false)) ∧
    (y.connection.link.peerHeld = false ∨ (∃ e, .fault e ∈ y.connection.link.inbound) →
      ∀ k, y.connection.link.inbound.length < k → (y.run (List.replicate k .turn)).connection.running = false) ∧
    (∀ (n : Ticket) (call : Call), x.connection.generation.table.calls[n]? = some call → call.isOpen = true →
      call.callerPresent = true → stays n incidents x = true → y.now < call.deadline →
      y.connection.generation.table.outcome? y.now n = verdictAfter call.id took y.connection.running) ∧
    (∀ first rest, incidents = first ++ .turn :: rest →
      ((x.run first).perform .turn).connection.link.outbound =
        (x.run first).connection.link.outbound ++ ((x.run first).taking .turn).flatMap answer) ∧
    written incidents x = took.flatMap answer ∧
    ∀ (now : Nat) (c : Connection) (p : Packet) (rest : List Inbound), c.running = true →
      c.link.inbound = .packet p :: rest → c.ignores p = true →
      let left : Connection := { c with link := { c.link with inbound := rest } }
      c.dispatch now = (if c.settings.idleMs ≤ now - c.lastSweep then left.sweep now else left).await now := by
  intro y all took
  obtain ⟨hgoes, hstops⟩ := taken_run hr h
  refine ⟨hgoes, hstops, fun hend k => halted_of_turns hend, ?_, ?_, written_run h,
    fun now c p rest hrun hin hp => dispatch_of_ignores hrun hin hp now⟩
  · intro n call hcall ho hp hstay hd
    obtain ⟨final, hfinal, hf, hexit⟩ := exit_run hr h hcall ho hp hstay hd
    rw [Table.outcome?, hfinal, Option.bind_some]
    rw [← hf.id] at hexit ⊢
    exact outcome?_of_exitAfter (hf.deadline ▸ hd) hexit
  · rintro first rest rfl
    have hplain : (x.run first).isPlain .turn = true := by
      clear hgoes hstops hr
      induction first generalizing x with
      | nil => exact (Bool.and_eq_true_iff.mp h).1
      | cons a first ih => exact ih (x.perform a) (Bool.and_eq_true_iff.mp h).2
    exact writing_turn hplain

/-- Two calls wait. A stray, two responses to the second call, a ping that is answered and one that is not come in, then
a fault, and after it a response to the first call. -/
theorem fault_after_second_response :
    let sent (p : Packet) : Incident := .peer (.send (.packet p))
    let x := (Scene.opening 0 { addr := "mem:a" } 1 {}).run [.register 5 5000, .register 6 5000]
    let incidents : List Incident := [sent (.response (.success 9 [1])), sent (.response (.success 6 [2])),
      sent (.ping .yes), sent (.response (.success 6 [3])), .turn, .turn, .forget 1, .turn, .peer (.setFailWrites true),
      sent (.ping .yes), .pass 10, .turn, .turn, .peer (.send (.fault (.stream .closedMidFrame))),
      sent (.response (.success 5 [4])), .turn, .turn]
    ∃ y, y = x.run incidents ∧
      (x.connection.running = true ∧ undisturbed incidents x = true ∧ y.connection.running = false) ∧
      (taken incidents x).map Prod.fst = [.response (.success 9 [1]), .response (.success 6 [2]), .ping .yes,
        .response (.success 6 [3]), .ping .yes] ∧
      y.connection.generation.table.outcome? y.now 0 = some (.error .connectionClosed) ∧
      y.connection.generation.table.outcome? y.now 1 = some (.ok (.success 6 [2])) ∧
      written incidents x = [.pong] := by
  intro sent x incidents
  have hr : x.connection.running = true := by decide +kernel
  have h : undisturbed incidents x = true := by decide +kernel
  have hstop : (x.run incidents).connection.running = false := by decide +kernel
  have htook : taken incidents x = [(.response (.success 9 [1]), true), (.response (.success 6 [2]), true),
      (.ping .yes, true), (.response (.success 6 [3]), false), (.ping .yes, false)] := by decide +kernel
  obtain ⟨-, -, -, hcalls, -, hwritten, -⟩ := inbound_handled x incidents hr h
  have hfirst := hcalls 0 { id := 5, deadline := 5000, timeoutMs := 5000 } (by decide +kernel) rfl rfl
    (by decide +kernel) (by decide +kernel)
  have hsecond := hcalls 1 { id := 6, deadline := 5000, timeoutMs := 5000 } (by decide +kernel) rfl rfl
    (by decide +kernel) (by decide +kernel)
  rw [htook, hstop] at hfirst hsecond
  rw [htook] at hwritten
  refine ⟨_, rfl, ⟨hr, h, hstop⟩, ?_, hfirst, hsecond, hwritten⟩
  rw [htook]
  rfl

end Connection

end RemoteCall
