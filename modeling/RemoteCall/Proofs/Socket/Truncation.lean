import RemoteCall.Proofs.Socket.Receiving

/-!
# Frames that are cut off

The frames of packets come one after the other, and then the octets end, at any place. Both readers give the packets
whose frames are whole. After these a connection tells a cut between frames from one inside a frame. A stream
takes a length of which one to three octets are there for a clean end.

* `before`: the packets whose frames lie before a cut, and how far it lies inside the next frame.
* `take_encodeAll`: the octets before a cut.
* `not_truncationDetected`: a cut inside a length is taken for a clean end.
* `truncated_stream`: what both readers make of a cut at any place.
-/

namespace RemoteCall

namespace Frame

section Defs

/-- The frames of packets, one after the other, if all packets have one. -/
def encodeAll : List Packet → Except CallError Bytes
  | [] => .ok []
  | p :: ps => do
    let frame ← encode p
    let frames ← encodeAll ps
    return frame ++ frames

/-- What lies before a cut through the frames of packets. -/
structure Part where
  /-- The packets whose frames lie wholly before the cut. -/
  whole : List Packet
  /-- How many octets of the next frame do. -/
  inside : Nat
deriving DecidableEq

/-- What lies before the cut at an octet. -/
def before : List Packet → (cut : Nat) → Part
  | [], cut => { whole := [], inside := cut }
  | p :: ps, cut =>
    if lengthSize + p.body.length ≤ cut then
      let later := before ps (cut - (lengthSize + p.body.length))
      { later with whole := p :: later.whole }
    else { whole := [], inside := cut }

/-- What the reader of a stream gives for what lies before a cut. -/
def Part.read (part : Part) : List (Except CallError (Option Packet)) :=
  part.whole.map (fun p => .ok (some p)) ++ [if part.inside < lengthSize then .ok none else .error (.stream .earlyEnd)]

/-- What a connection gives for what lies before a cut. -/
def Part.received (part : Part) : List (Memory.Received Memory.Inbound) :=
  part.whole.map (fun p => .item (.packet p)) ++
    [if part.inside = 0 then .finished else .item (.fault (.stream .closedMidFrame))]

/-- Frames that are cut at any octet are read up to the cut. They end cleanly if the cut is at the end of a frame,
and otherwise with a fault. -/
def TruncationDetected : Prop :=
  ∀ (ps : List Packet) (octets : Bytes) (cut : Nat), encodeAll ps = .ok octets → cut ≤ octets.length →
    ∃ last, readAll (octets.take cut) = (before ps cut).whole.map (fun p => .ok (some p)) ++ [last] ∧
      (last = .ok none ↔ (before ps cut).inside = 0) ∧ ((before ps cut).inside ≠ 0 → ∃ e, last = .error e)

end Defs

variable {ps : List Packet} {octets left : Bytes} {cut : Nat}

/-! ## The octets before a cut -/

theorem encodeAll_eq_ok_iff : encodeAll ps = .ok octets ↔
    (∀ p ∈ ps, p.body.length ≤ maxBody) ∧ octets = (ps.map Packet.body).flatMap ofBody := by
  induction ps generalizing octets with
  | nil => simp [encodeAll, eq_comm]
  | cons p ps ih =>
    have hbind : encodeAll (p :: ps) = .ok octets ↔
        ∃ frame, encode p = .ok frame ∧ ∃ frames, encodeAll ps = .ok frames ∧ frame ++ frames = octets := by
      show (encode p >>= fun frame => encodeAll ps >>= fun frames => pure (frame ++ frames)) = _ ↔ _
      cases encode p with
      | error e => simp [bind, Except.bind]
      | ok frame => cases encodeAll ps <;> simp [bind, Except.bind, pure, Except.pure]
    rw [hbind]
    constructor
    · rintro ⟨frame, hframe, frames, hframes, rfl⟩
      obtain ⟨hsize, rfl⟩ := encode_eq_ok_iff.mp hframe
      obtain ⟨hsizes, rfl⟩ := ih.mp hframes
      refine ⟨fun q hq => ?_, by rw [List.map_cons, List.flatMap_cons]⟩
      rcases List.mem_cons.mp hq with rfl | hq
      · rwa [Packet.length_body]
      · exact hsizes q hq
    · rintro ⟨hsizes, rfl⟩
      refine ⟨_, encode_eq_ok_iff.mpr ⟨?_, rfl⟩, _, ih.mpr ⟨fun q hq => hsizes q (List.mem_cons_of_mem p hq), rfl⟩, ?_⟩
      · rw [← Packet.length_body]
        exact hsizes p List.mem_cons_self
      · rw [List.map_cons, List.flatMap_cons]

/-- The octets of a frame that ends too early hold no whole frame. -/
theorem first_of_prefix {body : Bytes} (h : left <+: ofBody body) (hsize : body.length ≤ maxBody)
    (hlt : left.length < lengthSize + body.length) : first left = .incomplete := by
  obtain ⟨more, hmore⟩ := h
  cases hfirst : first left with
  | incomplete => rfl
  | tooLarge size =>
    -- the length at the start is that of the body
    have hlater := first_append_of_tooLarge hfirst more
    rw [hmore, ← List.append_nil (ofBody body), first_eq_whole_iff.mpr ⟨hsize, rfl⟩] at hlater
    cases hlater
  | whole inner rest =>
    have hlater := first_append_of_whole hfirst more
    rw [hmore, ← List.append_nil (ofBody body), first_eq_whole_iff.mpr ⟨hsize, rfl⟩] at hlater
    obtain ⟨rfl, -⟩ := First.whole.inj hlater
    obtain ⟨-, rfl⟩ := first_eq_whole_iff.mp hfirst
    rw [List.length_append, length_ofBody] at hlt
    omega

/-- What lies before a cut: the frames of some packets, and some octets of the next frame. -/
theorem take_encodeAll (h : encodeAll ps = .ok octets) (hcut : cut ≤ octets.length) :
    ∃ left, octets.take cut = ((before ps cut).whole.map Packet.body).flatMap ofBody ++ left ∧
      left.length = (before ps cut).inside ∧ first left = .incomplete ∧
      (∀ p ∈ (before ps cut).whole, p.body.length ≤ maxBody) ∧ (before ps cut).whole <+: ps := by
  obtain ⟨hsizes, rfl⟩ := encodeAll_eq_ok_iff.mp h
  clear h
  induction ps generalizing cut with
  | nil =>
    obtain rfl : cut = 0 := Nat.le_zero.mp hcut
    exact ⟨[], rfl, rfl, rfl, nofun, List.prefix_rfl⟩
  | cons p ps ih =>
    have hp := hsizes p List.mem_cons_self
    have hlength := length_ofBody p.body
    rw [List.map_cons, List.flatMap_cons, List.length_append] at hcut
    rw [List.map_cons, List.flatMap_cons, before]
    split
    · rename_i hle
      obtain ⟨left, htake, hleft, hfirst, hall, hwhole⟩ := ih
        (fun q hq => hsizes q (List.mem_cons_of_mem p hq))
        (show cut - (lengthSize + p.body.length) ≤ ((ps.map Packet.body).flatMap ofBody).length by omega)
      refine ⟨left, ?_, hleft, hfirst, ?_, List.cons_prefix_cons.mpr ⟨rfl, hwhole⟩⟩
      · rw [List.take_append, hlength, htake, List.take_of_length_le (by omega), List.map_cons, List.flatMap_cons,
          List.append_assoc]
      · intro q hq
        rcases List.mem_cons.mp hq with rfl | hq
        · exact hp
        · exact hall q hq
    · rename_i hlt
      rw [List.take_append_of_le_length (by omega)]
      refine ⟨(ofBody p.body).take cut, rfl, List.length_take_of_le (by omega), ?_, nofun, List.nil_prefix⟩
      refine first_of_prefix (List.take_prefix _ _) hp ?_
      rw [List.length_take_of_le (by omega)]
      omega

/-- Before a cut stand the whole frames before it, and what is left is no whole frame. -/
theorem split_take (h : encodeAll ps = .ok octets) (hcut : cut ≤ octets.length) :
    ∃ left, split (octets.take cut) = ⟨(before ps cut).whole.map Packet.body, none, left⟩ ∧
      left.length = (before ps cut).inside ∧ ∀ p ∈ (before ps cut).whole, p.body.length ≤ maxBody := by
  obtain ⟨left, htake, hleft, hfirst, hall, -⟩ := take_encodeAll h hcut
  refine ⟨left, ?_, hleft, hall⟩
  rw [htake]
  clear htake
  generalize (before ps cut).whole = whole at hall
  induction whole with
  | nil => exact split_of_incomplete hfirst
  | cons p whole ih =>
    have hwhole : first (ofBody p.body ++ ((whole.map Packet.body).flatMap ofBody ++ left)) =
        .whole p.body ((whole.map Packet.body).flatMap ofBody ++ left) :=
      first_eq_whole_iff.mpr ⟨hall p List.mem_cons_self, rfl⟩
    rw [List.map_cons, List.flatMap_cons, List.append_assoc, split_of_whole hwhole,
      ih fun q hq => hall q (List.mem_cons_of_mem p hq)]

/-! ## Both readers -/

theorem decode_whole {whole : List Packet} (h : ∀ p ∈ whole, p.body.length ≤ maxBody) :
    (whole.map Packet.body).map decode = whole.map .ok := by
  rw [List.map_map]
  refine List.map_congr_left fun p hp => ?_
  exact decode_own_body (Nat.lt_of_le_of_lt (h p hp) (by decide))

/-- What is read from a stream of frames that is cut. -/
theorem readAll_take (h : encodeAll ps = .ok octets) (hcut : cut ≤ octets.length) :
    readAll (octets.take cut) = (before ps cut).read := by
  obtain ⟨left, hsplit, hleft, hall⟩ := split_take h hcut
  have hdecode : ((before ps cut).whole.map Packet.body).map (fun body => (decode body).map some) =
      (before ps cut).whole.map (fun p => .ok (some p)) :=
    calc ((before ps cut).whole.map Packet.body).map (fun body => (decode body).map some)
      _ = (((before ps cut).whole.map Packet.body).map decode).map (Except.map some) := by
        rw [List.map_map, List.map_map, List.map_map]
        rfl
      _ = ((before ps cut).whole.map .ok).map (Except.map some) := by rw [decode_whole hall]
      _ = (before ps cut).whole.map (fun p => .ok (some p)) := List.map_map
  rw [readAll_eq, hsplit, Part.read, ← hleft]
  exact congrArg (· ++ _) hdecode

/-- What is received of frames that are cut. -/
theorem upcoming_take (h : encodeAll ps = .ok octets) (hcut : cut ≤ octets.length) :
    Socket.Stream.upcoming (octets.take cut) true = (before ps cut).received := by
  obtain ⟨left, hsplit, hleft, hall⟩ := split_take h hcut
  have hpackets : (split (octets.take cut)).outcomes.map Socket.Stream.ofOutcome =
      (before ps cut).whole.map (fun p => .item (.packet p)) := by
    rw [Split.outcomes, hsplit, decode_whole hall, Option.map_none, Option.toList_none, List.append_nil, List.map_map]
    rfl
  have hend : Socket.Stream.endOf left =
      if (before ps cut).inside = 0 then .finished else .item (.fault (.stream .closedMidFrame)) := by
    simp only [Socket.Stream.endOf, ← hleft, List.isEmpty_iff, List.length_eq_zero_iff]
  have hopen : ∀ r ∈ (before ps cut).whole.map (fun p => Memory.Received.item (Memory.Inbound.packet p)),
      Socket.Stream.stops r = false := by
    intro r hr
    obtain ⟨p, -, rfl⟩ := List.mem_map.mp hr
    rfl
  rw [Socket.Stream.upcoming, hpackets, through_append hopen, hsplit, Part.received, ← hend]
  show _ ++ through Socket.Stream.stops [Socket.Stream.endOf left] = _
  rw [through, Socket.Stream.stops_endOf left, if_pos rfl]

/-- Of a pong and the first octet of the next frame the reader of a stream gives the pong and a clean end. -/
theorem not_truncationDetected : ¬ TruncationDetected := by
  intro h
  have hframes : encodeAll [.pong, .pong] = .ok [0, 0, 0, 4, 3, 0, 0, 0, 0, 0, 0, 4, 3, 0, 0, 0] :=
    encodeAll_eq_ok_iff.mpr ⟨by decide, by decide⟩
  have hbefore : before [.pong, .pong] 9 = { whole := [.pong], inside := 1 } := by decide
  obtain ⟨last, hread, hclean, -⟩ := h _ _ 9 hframes (by decide)
  rw [readAll_take hframes (by decide), hbefore] at hread
  rw [hbefore] at hclean
  have hlast : last = .ok none := (List.singleton_inj.mp (List.append_cancel_left hread)).symm
  exact absurd (hclean.mp hlast) (by decide)

/-- **What is read of frames that are cut.** Both readers give the packets whose frames lie wholly before the cut. Then
the reader of a stream gives a clean end if the cut lies at the end of a frame or within the four octets of a length,
and otherwise a fault. A connection, however the octets arrive and are received, gives its end if the cut lies at the
end of a frame, and otherwise a fault. -/
theorem truncated_stream (ps : List Packet) (octets : Bytes) (cut : Nat) (h : encodeAll ps = .ok octets)
    (hcut : cut ≤ octets.length) :
    (before ps cut).whole <+: ps ∧
    (∃ left, octets.take cut = ((before ps cut).whole.map Packet.body).flatMap ofBody ++ left ∧
      left.length = (before ps cut).inside ∧ first left = .incomplete) ∧
    readAll (octets.take cut) = (before ps cut).read ∧
    ∀ (settings : SocketConfig) (events : List Socket.Stream.Event),
      Socket.Stream.arrivals false events = octets.take cut → events.contains .finish = true →
      let (heard, s) := Socket.Stream.hear events { settings }
      (heard.any Socket.Stream.stops = true → through Socket.Stream.stops heard = (before ps cut).received) ∧
      (heard.any Socket.Stream.stops = false → heard <+: (before ps cut).received ∧
        ∀ sizes, (s.receiveBy sizes).1 = ((before ps cut).received.drop heard.length).headD .pending) := by
  obtain ⟨left, htake, hleft, hfirst, -, hwhole⟩ := take_encodeAll h hcut
  refine ⟨hwhole, ⟨left, htake, hleft, hfirst⟩, readAll_take h hcut, fun settings events harrive hfinish => ?_⟩
  have hstart : ({ settings } : Socket.Stream).Holds [] false := ⟨rfl, rfl, rfl⟩
  have hheard := Socket.Stream.heard_hear hstart events
  rw [List.nil_append, Bool.false_or, harrive, hfinish] at hheard
  rw [← upcoming_take h hcut]
  revert hheard
  generalize Socket.Stream.hear events { settings } = r
  intro hheard
  cases hheard with
  | goesOn hopen hrest hs =>
    refine ⟨fun hstopped => ?_, fun _ => ⟨⟨_, hrest.symm⟩, fun sizes => ?_⟩⟩
    · rw [hopen] at hstopped
      cases hstopped
    · rw [(Socket.Stream.next_receiveBy hs sizes).eq_headD, hrest, List.drop_left]
  | stopped hstopped hall =>
    refine ⟨fun _ => hall, fun hopen => ?_⟩
    rw [hstopped] at hopen
    cases hopen

/-- Two pings, of which the second is cut inside its length. A stream ends cleanly there and a connection does
not. -/
theorem ping_cut_in_length :
    let ps : List Packet := [.ping .yes, .ping .no]
    let octets : Bytes := [0, 0, 0, 8, 2, 0, 0, 0, 0, 0, 0, 0, 0, 0, 0, 8, 2, 0, 0, 0, 1, 0, 0, 0]
    let events : List Socket.Stream.Event := [.arrive (octets.take 7), .receive [], .arrive ((octets.take 15).drop 7),
      .finish, .receive [2], .receive []]
    (encodeAll ps = .ok octets ∧ 15 ≤ octets.length ∧ Socket.Stream.arrivals false events = octets.take 15 ∧
      events.contains .finish = true) ∧
    readAll (octets.take 15) = [.ok (some (.ping .yes)), .ok none] ∧
      through Socket.Stream.stops (Socket.Stream.hear events {}).1 =
        [.item (.packet (.ping .yes)), .item (.fault (.stream .closedMidFrame))] := by
  intro ps octets events
  have hframes : encodeAll ps = .ok octets := encodeAll_eq_ok_iff.mpr ⟨by decide, by decide⟩
  have hcut : 15 ≤ octets.length := by decide
  have harrive : Socket.Stream.arrivals false events = octets.take 15 := by decide
  have hfinish : events.contains .finish = true := by decide
  have hstopped : (Socket.Stream.hear events {}).1.any Socket.Stream.stops = true := by decide
  have hbefore : before ps 15 = { whole := [.ping .yes], inside := 3 } := by decide
  have hreads : (before ps 15).read = [.ok (some (.ping .yes)), .ok none] := by rw [hbefore]; rfl
  have hreceives : (before ps 15).received = [.item (.packet (.ping .yes)), .item (.fault (.stream .closedMidFrame))] :=
    by rw [hbefore]; rfl
  obtain ⟨-, -, hread, hreceive⟩ := truncated_stream ps octets 15 hframes hcut
  have hreceived := hreceive {} events harrive hfinish
  rw [hreads] at hread
  rw [hreceives] at hreceived
  -- what was heard is named, so that it is not computed again
  cases hheard : Socket.Stream.hear events {} with
  | mk heard s =>
    rw [hheard] at hstopped hreceived
    exact ⟨⟨hframes, hcut, harrive, hfinish⟩, hread, hreceived.1 hstopped⟩

end Frame

end RemoteCall
