import RemoteCall.Proofs.Wire.Framing
import RemoteCall.Socket.Stream

/-!
# Receiving over a socket

What is received over a socket is what all octets that arrive hold. It does not matter how many of them arrive at a
time, how many are read at a time, or how often one stops to wait for more.

* `next_receiveBy`: what is received next.
* `heard_hear`: what is received while octets arrive.
* `receiving_of_arrivals`: the same frames for a buffer and for a socket.
-/

namespace RemoteCall.Socket.Stream

open Memory (Received Inbound)

section Defs

/-- Reads at most some of the octets that have arrived into the buffer. -/
def fillSome (count : Nat) (s : Stream) : Stream :=
  { s with buffer := s.buffer ++ s.arrived.take count, arrived := s.arrived.drop count }

/-- Reads the next packet as `receive` does, but with reads of limited sizes first, each of at least one octet. -/
def receiveBy : List Nat → Stream → Received Inbound × Stream
  | [], s => s.receive
  | size :: sizes, s =>
    match s.takeBuffered with
    | (some r, s) => (r, s)
    | (none, s) =>
      if !s.active then (.finished, s)
      else if s.arrived.isEmpty then
        if s.peerEnded then s.atEnd else (.pending, s)
      else receiveBy sizes (s.fillSome (size + 1))

/-- What happens to the reading half: octets arrive, their end arrives, or one receives, with reads of these sizes.
Receiving that finds nothing is given up. -/
inductive Event where
  | arrive (bs : Bytes)
  | finish
  | receive (sizes : List Nat)
  deriving DecidableEq, Repr

/-- The octets that arrive. After their end none does. -/
def arrivals : (ended : Bool) → List Event → Bytes
  | _, [] => []
  | false, .arrive bs :: events => bs ++ arrivals false events
  | true, .arrive _ :: events => arrivals true events
  | _, .finish :: events => arrivals true events
  | ended, .receive _ :: events => arrivals ended events

/-- What is received while octets arrive, and the connection after that. -/
def hear : List Event → Stream → List (Received Inbound) × Stream
  | [], s => ([], s)
  | .arrive bs :: events, s => hear events (if s.peerEnded then s else s.peerWrite bs)
  | .finish :: events, s => hear events s.peerEnd
  | .receive sizes :: events, s =>
    match s.receiveBy sizes with
    | (.pending, s) => hear events s
    | (r, s) => (r :: (hear events s).1, (hear events s).2)

/-- A frame as it is received. -/
def ofOutcome : Except CallError Packet → Received Inbound
  | .ok p => .item (.packet p)
  | .error e => .item (.fault e)

/-- Whether no packet is received after this. -/
def stops : Received Inbound → Bool
  | .item (.packet _) => false
  | _ => true

/-- What the end of the octets is received as. -/
def endOf (left : Bytes) : Received Inbound :=
  if left.isEmpty then .finished else .item (.fault (.stream .closedMidFrame))

/-- What some octets are received as, through the first fault or, if they have ended, their end. -/
def upcoming (bs : Bytes) (ended : Bool) : List (Received Inbound) :=
  let whole := Frame.split bs
  through stops (whole.outcomes.map ofOutcome ++
    if ended && whole.tooLarge.isNone then [endOf whole.rest] else [])

/-- A connection that goes on, and the octets that have arrived and were not taken yet. -/
structure Holds (s : Stream) (bs : Bytes) (ended : Bool) : Prop where
  active : s.active = true
  ended : s.peerEnded = ended
  octets : s.buffer ++ s.arrived = bs

/-- What is received next when some octets have arrived and were not taken yet. -/
inductive Next (bs : Bytes) (ended : Bool) : Received Inbound × Stream → Prop
  | waits {s : Stream} (hfirst : Frame.first bs = .incomplete) (hended : ended = false) (hs : s.Holds bs ended) :
      Next bs ended (.pending, s)
  | ends {s : Stream} (hfirst : Frame.first bs = .incomplete) (hended : ended = true) : Next bs ended (endOf bs, s)
  | tooLarge {s : Stream} {size : Nat} (hfirst : Frame.first bs = .tooLarge size) :
      Next bs ended (.item (.fault (.frameTooLarge size Frame.maxBody)), s)
  | packet {s : Stream} {body rest : Bytes} {p : Packet} (hfirst : Frame.first bs = .whole body rest)
      (hbody : Frame.decode body = .ok p) (hs : s.Holds rest ended) : Next bs ended (.item (.packet p), s)
  | fault {s : Stream} {body rest : Bytes} {e : CallError} (hfirst : Frame.first bs = .whole body rest)
      (hbody : Frame.decode body = .error e) : Next bs ended (.item (.fault e), s)

end Defs

variable {s : Stream} {bs body rest : Bytes} {ended : Bool}

/-! ## What is received next -/

/-- From the buffer one takes what is received next, if the buffer holds a whole frame. -/
theorem takeBuffered_cases (h : s.Holds bs ended) :
    Frame.first s.buffer = .incomplete ∧ s.takeBuffered = (none, s) ∨
      ∃ r s', s.takeBuffered = (some r, s') ∧ Next bs ended (r, s') := by
  obtain ⟨hactive, hended, rfl⟩ := h
  rw [takeBuffered, Frame.take_eq]
  cases hfirst : Frame.first s.buffer with
  | incomplete => exact .inl ⟨rfl, rfl⟩
  | tooLarge size => exact .inr ⟨_, _, rfl, .tooLarge (Frame.first_append_of_tooLarge hfirst s.arrived)⟩
  | whole body rest =>
    have hwhole := Frame.first_append_of_whole hfirst s.arrived
    dsimp only
    cases hbody : Frame.decode body with
    | ok p => exact .inr ⟨_, { s with buffer := rest }, rfl, .packet hwhole hbody ⟨hactive, hended, rfl⟩⟩
    | error e => exact .inr ⟨_, _, rfl, .fault hwhole hbody⟩

/-- Without a whole frame one waits, unless the octets have ended. -/
theorem next_of_incomplete (h : s.Holds bs ended) (hfirst : Frame.first s.buffer = .incomplete)
    (harrived : s.arrived = []) : Next bs ended (if s.peerEnded then s.atEnd else (.pending, s)) := by
  have hbuffer : s.buffer = bs := by rw [← h.octets, harrived, List.append_nil]
  rw [hbuffer] at hfirst
  rw [h.ended]
  cases ended with
  | false => exact .waits hfirst rfl h
  | true =>
    rw [if_pos rfl, atEnd, hbuffer]
    exact .ends hfirst rfl

theorem Holds.fill (h : s.Holds bs ended) : s.fill.Holds bs ended :=
  ⟨h.active, h.ended, by rw [← h.octets]; exact List.append_nil _⟩

theorem Holds.fillSome (h : s.Holds bs ended) (count : Nat) : (s.fillSome count).Holds bs ended :=
  ⟨h.active, h.ended, by
    rw [← h.octets]
    show s.buffer ++ s.arrived.take count ++ s.arrived.drop count = _
    rw [List.append_assoc, List.take_append_drop]⟩

theorem next_receive (h : s.Holds bs ended) : Next bs ended s.receive := by
  unfold receive
  obtain ⟨hfirst, htake⟩ | ⟨r, s', htake, hnext⟩ := takeBuffered_cases h
  · rw [htake]
    simp only [h.active]
    by_cases harrived : s.arrived = []
    · simpa [harrived] using next_of_incomplete h hfirst harrived
    · obtain ⟨hfirst', htake'⟩ | ⟨r, s', htake', hnext⟩ := takeBuffered_cases h.fill
      · simpa [harrived, htake'] using next_of_incomplete h.fill hfirst' rfl
      · simpa [harrived, htake'] using hnext
  · rw [htake]
    exact hnext

/-- What is received next does not depend on how many octets are read at a time. -/
theorem next_receiveBy (h : s.Holds bs ended) (sizes : List Nat) : Next bs ended (s.receiveBy sizes) := by
  induction sizes generalizing s with
  | nil => exact next_receive h
  | cons size sizes ih =>
    unfold receiveBy
    obtain ⟨hfirst, htake⟩ | ⟨r, s', htake, hnext⟩ := takeBuffered_cases h
    · rw [htake]
      simp only [h.active]
      by_cases harrived : s.arrived = []
      · simpa [harrived] using next_of_incomplete h hfirst harrived
      · simpa [harrived] using ih (h.fillSome (size + 1))
    · rw [htake]
      exact hnext

/-! ## What is received of octets -/

theorem endOf_ne_pending (left : Bytes) : endOf left ≠ .pending := by
  unfold endOf
  split <;> simp

theorem stops_endOf (left : Bytes) : stops (endOf left) = true := by
  unfold endOf
  split <;> rfl

theorem upcoming_of_incomplete (h : Frame.first bs = .incomplete) :
    upcoming bs ended = if ended then [endOf bs] else [] := by
  rw [upcoming, Frame.split_of_incomplete h]
  cases ended with
  | false => rfl
  | true =>
    show through stops [endOf bs] = _
    simp [through]

theorem upcoming_of_tooLarge {size : Nat} (h : Frame.first bs = .tooLarge size) :
    upcoming bs ended = [.item (.fault (.frameTooLarge size Frame.maxBody))] := by
  rw [upcoming, Frame.split_of_tooLarge h]
  rfl

theorem upcoming_of_packet {p : Packet} (h : Frame.first bs = .whole body rest) (hbody : Frame.decode body = .ok p) :
    upcoming bs ended = .item (.packet p) :: upcoming rest ended := by
  rw [upcoming, Frame.outcomes_of_whole h, Frame.split_of_whole h, hbody]
  rfl

theorem upcoming_of_fault {e : CallError} (h : Frame.first bs = .whole body rest)
    (hbody : Frame.decode body = .error e) : upcoming bs ended = [.item (.fault e)] := by
  rw [upcoming, Frame.outcomes_of_whole h, hbody]
  rfl

/-- What is received next is the head of what is to be received. -/
theorem Next.eq_headD {r : Received Inbound × Stream} (h : Next bs ended r) :
    r.1 = (upcoming bs ended).headD .pending := by
  cases h with
  | waits hfirst hended _ => rw [upcoming_of_incomplete hfirst, hended]; rfl
  | ends hfirst hended => rw [upcoming_of_incomplete hfirst, hended]; rfl
  | tooLarge hfirst => rw [upcoming_of_tooLarge hfirst]; rfl
  | packet hfirst hbody _ => rw [upcoming_of_packet hfirst hbody]; rfl
  | fault hfirst hbody => rw [upcoming_of_fault hfirst hbody]; rfl

/-! ## What is received while octets arrive -/

/-- What was received of some octets and of those that arrived after them: all up to some octets that were not taken
yet, or all through the first fault or the end. -/
inductive Heard (bs : Bytes) (ended : Bool) : List (Received Inbound) × Stream → Prop
  | goesOn {heard : List (Received Inbound)} {s : Stream} {left : Bytes} (hheard : heard.any stops = false)
      (hleft : upcoming bs ended = heard ++ upcoming left ended) (hs : s.Holds left ended) : Heard bs ended (heard, s)
  | stopped {heard : List (Received Inbound)} {s : Stream} (hheard : heard.any stops = true)
      (hall : through stops heard = upcoming bs ended) : Heard bs ended (heard, s)

theorem arrivals_of_ended (events : List Event) : arrivals true events = [] := by
  induction events with
  | nil => rfl
  | cons event events ih => cases event <;> exact ih

theorem hear_of_received {sizes : List Nat} {r : Received Inbound} {s' : Stream} (h : s.receiveBy sizes = (r, s'))
    (hr : r ≠ .pending) (events : List Event) :
    hear (.receive sizes :: events) s = (r :: (hear events s').1, (hear events s').2) := by
  rw [hear, h]
  cases r with
  | pending => exact absurd rfl hr
  | item _ => rfl
  | finished => rfl

theorem Heard.cons {p : Packet} {r : List (Received Inbound) × Stream}
    (hall : upcoming bs ended = .item (.packet p) :: upcoming rest ended) (h : Heard rest ended r) :
    Heard bs ended (.item (.packet p) :: r.1, r.2) := by
  cases h with
  | goesOn hheard hleft hs => exact .goesOn hheard (by rw [hall, hleft]; rfl) hs
  | stopped hheard hrest => exact .stopped hheard (by rw [hall, ← hrest]; rfl)

theorem Heard.last {r : Received Inbound} (hall : upcoming bs ended = [r]) (hr : stops r = true)
    (later : List (Received Inbound)) (s : Stream) : Heard bs ended (r :: later, s) :=
  .stopped (by rw [List.any_cons, hr]; rfl) (by rw [hall, through, if_pos hr])

/-- What is received while octets arrive is what is to be received of them. -/
theorem heard_hear (h : s.Holds bs ended) (events : List Event) :
    Heard (bs ++ arrivals ended events) (ended || events.contains .finish) (hear events s) := by
  induction events generalizing s bs ended with
  | nil =>
    rw [arrivals, List.append_nil, List.contains_nil, Bool.or_false]
    exact .goesOn rfl rfl h
  | cons event events ih =>
    cases event with
    | arrive octets =>
      have hcontains : (Event.arrive octets :: events).contains .finish = events.contains .finish := rfl
      rw [hear, h.ended, hcontains]
      cases ended with
      | false =>
        rw [arrivals, ← List.append_assoc]
        exact ih ⟨h.active, h.ended, by rw [← h.octets]; exact (List.append_assoc ..).symm⟩
      | true => exact ih h
    | finish =>
      have hcontains : (Event.finish :: events).contains .finish = true := rfl
      have hfinished : s.peerEnd.Holds bs true := ⟨h.active, rfl, h.octets⟩
      have hheard := ih hfinished
      rw [arrivals_of_ended, List.append_nil] at hheard
      rw [hear, hcontains, Bool.or_true, arrivals, arrivals_of_ended, List.append_nil]
      exact hheard
    | receive sizes =>
      have hcontains : (Event.receive sizes :: events).contains .finish = events.contains .finish := rfl
      have hnext := next_receiveBy h sizes
      rw [arrivals, hcontains]
      generalize hr : s.receiveBy sizes = r at hnext
      cases hnext with
      | waits hfirst hended hs =>
        rw [hear, hr]
        exact ih hs
      | ends hfirst hended =>
        rw [hear_of_received hr (endOf_ne_pending bs), hended, arrivals_of_ended, List.append_nil]
        exact .last (upcoming_of_incomplete hfirst) (stops_endOf bs) _ _
      | tooLarge hfirst =>
        rw [hear_of_received hr (by simp)]
        exact .last (upcoming_of_tooLarge (Frame.first_append_of_tooLarge hfirst _)) rfl _ _
      | packet hfirst hbody hs =>
        rw [hear_of_received hr (by simp)]
        exact .cons (upcoming_of_packet (Frame.first_append_of_whole hfirst _) hbody) (ih hs)
      | fault hfirst hbody =>
        rw [hear_of_received hr (by simp)]
        exact .last (upcoming_of_fault (Frame.first_append_of_whole hfirst _) hbody) rfl _ _

/-- **Frames do not depend on how octets arrive.** Off a buffer one takes what all octets hold. Over a socket, until the
first fault or the end, what was received is the beginning of what the octets are received as, and the next thing
received is the one that follows, or one waits if none does; through that fault or end all of it was received. -/
theorem receiving_of_arrivals :
    (∀ events : List Frame.Event, Frame.Framed events) ∧
    ∀ (settings : SocketConfig) (events : List Event),
      let (heard, s) := hear events { settings }
      let all := upcoming (arrivals false events) (events.contains .finish)
      (heard.any stops = false → heard <+: all ∧
        ∀ sizes, (s.receiveBy sizes).1 = (all.drop heard.length).headD .pending) ∧
      (heard.any stops = true → through stops heard = all) := by
  refine ⟨Frame.framed, fun settings events => ?_⟩
  have hstart : ({ settings } : Stream).Holds [] false := ⟨rfl, rfl, rfl⟩
  have hheard := heard_hear hstart events
  rw [List.nil_append, Bool.false_or] at hheard
  revert hheard
  generalize hear events { settings } = r
  intro hheard
  cases hheard with
  | goesOn hopen hleft hs =>
    refine ⟨fun _ => ⟨⟨_, hleft.symm⟩, fun sizes => ?_⟩, fun hstopped => ?_⟩
    · rw [(next_receiveBy hs sizes).eq_headD, hleft, List.drop_left]
    · rw [hopen] at hstopped
      cases hstopped
  | stopped hstopped hall =>
    refine ⟨fun hopen => ?_, fun _ => hall⟩
    rw [hstopped] at hopen
    cases hopen

/-- A ping whose length arrives in two parts, with an attempt to receive in between, and a pong that is not whole. -/
theorem ping_received_in_parts :
    let events : List Event := [.arrive [0, 0], .receive [], .arrive [0, 8, 2, 0, 0, 0, 0, 0, 0, 0, 0, 0],
      .receive [0, 2, 1], .finish]
    let (heard, s) := hear events {}
    heard = [.item (.packet (.ping .yes))] ∧ heard.any stops = false ∧
      heard <+: upcoming (arrivals false events) (events.contains .finish) ∧
      (s.receiveBy []).1 = .item (.fault (.stream .closedMidFrame)) := by
  intro events
  have hopen : (hear events {}).1.any stops = false := by decide
  exact ⟨by decide, hopen, ((receiving_of_arrivals.2 {} events).1 hopen).1, by decide⟩

end RemoteCall.Socket.Stream
