import RemoteCall.Proofs.Wire.Bodies

/-!
# Taking frames apart

What the two readers of frames make of a run of octets is what `split` says it holds. The buffer may be cut at any
place, and frames may be taken off it at any time.

* `codec_exact`: a packet and its frame.
* `first_eq_whole_iff`, `split_ofBodies`: octets that begin with whole frames.
* `take_eq`, `takeAll_eq`, `framed`: the reader of a buffer.
* `readStream_eq`, `readAll_eq`: the reader of a stream.
* `readers_agree`: both read the same.
-/

namespace RemoteCall

/-- A list through the first member at which one stops. -/
def through {α : Type} (stops : α → Bool) : List α → List α
  | [] => []
  | a :: as => if stops a then [a] else a :: through stops as

theorem through_append {α : Type} {stops : α → Bool} {as : List α} (h : ∀ a ∈ as, stops a = false) (bs : List α) :
    through stops (as ++ bs) = as ++ through stops bs := by
  induction as with
  | nil => rfl
  | cons a as ih =>
    rw [List.cons_append, through, h a (List.mem_cons_self ..), ih fun b hb => h b (List.mem_cons_of_mem _ hb)]
    rfl

namespace Frame

variable {bs body rest more : Bytes} {size : Nat} {p : Packet}

/-! ## The first frame -/

theorem first_eq (bs : Bytes) : first bs =
    if bs.length < lengthSize then .incomplete
    else if maxBody < announced bs then .tooLarge (announced bs)
    else if bs.length < lengthSize + announced bs then .incomplete
    else .whole ((bs.drop lengthSize).take (announced bs)) (bs.drop (lengthSize + announced bs)) := by
  match bs with
  | [] | [a] | [a, b] | [a, b, c] => rfl
  | a :: b :: c :: d :: tail =>
    have hsize : announced (a :: b :: c :: d :: tail) = Wire.ofBig [a, b, c, d] := rfl
    have hlength : (a :: b :: c :: d :: tail).length = lengthSize + tail.length := by
      rw [lengthSize, Nat.add_comm]
      rfl
    have hlong : ¬ lengthSize + tail.length < lengthSize := by omega
    simp only [first, hsize, hlength, if_neg hlong, Nat.add_lt_add_iff_left, ← List.drop_drop]
    rfl

/-- The four octets of a length are read as that length. -/
theorem announced_ofBody (h : body.length ≤ maxBody) (rest : Bytes) :
    announced (ofBody body ++ rest) = body.length := by
  have hlength := Wire.length_big lengthSize body.length
  rw [announced, ofBody, List.append_assoc, List.take_append_of_le_length (Nat.le_of_eq hlength.symm),
    List.take_of_length_le (Nat.le_of_eq hlength), Wire.ofBig_big, Nat.mod_eq_of_lt]
  exact Nat.lt_of_le_of_lt h (by decide)

theorem length_ofBody (body : Bytes) : (ofBody body).length = lengthSize + body.length := by
  rw [ofBody, List.length_append, Wire.length_big]

/-- A whole frame comes first if and only if the octets begin with the frame of a body within the limit. -/
theorem first_eq_whole_iff : first bs = .whole body rest ↔ body.length ≤ maxBody ∧ bs = ofBody body ++ rest := by
  constructor
  · intro h
    rw [first_eq] at h
    split at h
    · cases h
    split at h
    · cases h
    split at h
    · cases h
    obtain ⟨rfl, rfl⟩ := First.whole.inj h
    have hlength : ((bs.drop lengthSize).take (announced bs)).length = announced bs :=
      List.length_take_of_le (by rw [List.length_drop]; omega)
    have hbig : Wire.big lengthSize (announced bs) = bs.take lengthSize := by
      have := Wire.big_ofBig (bs.take lengthSize)
      rwa [List.length_take_of_le (by omega)] at this
    refine ⟨by omega, ?_⟩
    rw [ofBody, hlength, hbig, List.append_assoc, ← List.drop_drop, List.take_append_drop, List.take_append_drop]
  · rintro ⟨hsize, rfl⟩
    have hannounced := announced_ofBody hsize rest
    have hlength := length_ofBody body
    have hprefix : (ofBody body ++ rest).drop lengthSize = body ++ rest := by
      rw [ofBody, List.append_assoc, List.drop_left' (Wire.length_big ..)]
    rw [first_eq, hannounced, List.length_append, hlength, if_neg (by omega), if_neg (by omega), if_neg (by omega),
      ← List.drop_drop, hprefix, List.take_left, List.drop_left]

theorem first_append_of_whole (h : first bs = .whole body rest) (more : Bytes) :
    first (bs ++ more) = .whole body (rest ++ more) := by
  obtain ⟨hsize, rfl⟩ := first_eq_whole_iff.mp h
  exact first_eq_whole_iff.mpr ⟨hsize, List.append_assoc ..⟩

theorem lt_of_first_tooLarge (h : first bs = .tooLarge size) : maxBody < size := by
  rw [first_eq] at h
  split at h
  · cases h
  split at h
  · cases h
    assumption
  split at h <;> cases h

theorem first_append_of_tooLarge (h : first bs = .tooLarge size) (more : Bytes) :
    first (bs ++ more) = .tooLarge size := by
  rw [first_eq] at h ⊢
  split at h
  · cases h
  · rename_i hlong
    have hannounced : announced (bs ++ more) = announced bs := by
      rw [announced, announced, List.take_append_of_le_length (by omega)]
    split at h
    · rename_i hsize
      rw [hannounced, List.length_append, if_neg (by omega), if_pos hsize, h]
    · split at h <;> cases h

/-! ## Taking one frame -/

/-- The reader of a buffer does with the first frame what `first` says of it. -/
theorem take_eq (bs : Bytes) : take bs =
    match first bs with
    | .incomplete => (.ok none, bs)
    | .tooLarge size => (.error (.frameTooLarge size maxBody), bs)
    | .whole body rest => ((decode body).map some, rest) := by
  rw [first_eq, take]
  split
  · rfl
  dsimp only
  split
  · rfl
  split <;> rfl

/-- The reader of a stream does the same, but for a frame that is not whole. -/
theorem readStream_eq (bs : Bytes) : readStream bs =
    match first bs with
    | .incomplete => (if bs.length < lengthSize then .ok none else .error (.stream .earlyEnd), [])
    | .tooLarge size => (.error (.frameTooLarge size maxBody), bs.drop lengthSize)
    | .whole body rest => ((decode body).map some, rest) := by
  rw [first_eq, readStream]
  split
  · rfl
  dsimp only
  split
  · rfl
  have hrest : (bs.drop lengthSize).length < announced bs ↔ bs.length < lengthSize + announced bs := by
    rw [List.length_drop]
    omega
  simp only [hrest]
  split
  · rfl
  · rw [List.drop_drop]

theorem take_of_whole (h : first bs = .whole body rest) : take bs = ((decode body).map some, rest) := by
  rw [take_eq, h]

theorem goesOn_decode (body : Bytes) : goesOn ((decode body).map some) = true := by
  unfold decode
  cases Packet.ofBody body <;> rfl

theorem take_shorter (h : goesOn (take bs).1 = true) : (take bs).2.length < bs.length := by
  rw [take_eq] at h ⊢
  cases hf : first bs with
  | incomplete => simp [hf, goesOn] at h
  | tooLarge size => simp [hf, goesOn] at h
  | whole body rest => exact first_shorter hf

/-- **The codec of packets is exact.** A packet that has a frame is taken off any octets that begin with that frame,
and octets are decoded to a packet if and only if they begin with its body. The length of what is decoded is a number of
eight octets, as the lengths inside a body are. -/
theorem codec_exact (p : Packet) :
    (∀ e, encode p = .error e ↔ maxBody < p.body.length ∧ e = .frameTooLarge p.body.length maxBody) ∧
    (∀ frame, encode p = .ok frame ↔ p.body.length ≤ maxBody ∧ frame = Wire.big 4 p.body.length ++ p.body) ∧
    (∀ frame rest, encode p = .ok frame → take (frame ++ rest) = (.ok (some p), rest)) ∧
    (∀ bs : Bytes, bs.length < 2 ^ 64 → (decode bs = .ok p ↔ ∃ rest, bs = p.body ++ rest)) ∧
    (∀ q : Packet, q.body.length < 2 ^ 64 → p.body <+: q.body → p = q) ∧
    (∀ bs rest, decode bs = .ok p → decode (bs ++ rest) = .ok p) := by
  refine ⟨fun e => encode_eq_error_iff, fun frame => ?_, fun frame rest hframe => ?_, fun bs hbs => ⟨?_, ?_⟩, ?_, ?_⟩
  · rw [encode_eq_ok_iff, ← Packet.length_body]
    rfl
  · obtain ⟨hsize, rfl⟩ := encode_eq_ok_iff.mp hframe
    rw [← Packet.length_body] at hsize
    have hdecode : decode p.body = .ok p := decode_own_body (Nat.lt_of_le_of_lt hsize (by decide))
    rw [take_of_whole (first_eq_whole_iff.mpr ⟨hsize, rfl⟩), hdecode]
    rfl
  · exact fun h => (decode_eq_ok_iff.mp h).2
  · rintro ⟨rest, rfl⟩
    rw [List.length_append] at hbs
    exact decode_body (by omega) rest
  · rintro q hq ⟨rest, hrest⟩
    -- the body of the other packet decodes to both
    have hlength := congrArg List.length hrest
    rw [List.length_append] at hlength
    have hp := decode_body (p := p) (by omega) rest
    rw [hrest, decode_own_body hq] at hp
    exact (Except.ok.inj hp).symm
  · intro bs rest hbs
    obtain ⟨hfits, tail, rfl⟩ := decode_eq_ok_iff.mp hbs
    exact decode_eq_ok_iff.mpr ⟨hfits, tail ++ rest, List.append_assoc ..⟩

/-- A response that tells of a failure in a word that is not plain letters, with what comes after it. -/
theorem response_taken :
    let p := Packet.response ⟨5, .serverError, "é", [42]⟩
    let body : Bytes :=
      [1, 0, 0, 0, 5, 0, 0, 0, 3, 0, 0, 0, 2, 0, 0, 0, 0, 0, 0, 0, 0xC3, 0xA9, 1, 0, 0, 0, 0, 0, 0, 0, 42]
    let frame : Bytes := [0, 0, 0, 31] ++ body
    (body ++ [0, 0]).length < 2 ^ 64 ∧ encode p = .ok frame ∧ take (frame ++ [0, 0]) = (.ok (some p), [0, 0]) ∧
      decode (body ++ [0, 0]) = .ok p := by
  intro p body frame
  have hlength : (body ++ [0, 0]).length < 2 ^ 64 := by decide
  obtain ⟨-, hencode, htake, hdecode, -⟩ := codec_exact p
  have hframe : encode p = .ok frame := (hencode frame).mpr ⟨by decide, by decide⟩
  exact ⟨hlength, hframe, htake frame [0, 0] hframe, (hdecode _ hlength).mpr ⟨[0, 0], by decide⟩⟩

/-! ## Taking octets apart -/

theorem split_of_incomplete (h : first bs = .incomplete) : split bs = ⟨[], none, bs⟩ := by
  rw [split]
  split <;> simp_all

theorem split_of_tooLarge (h : first bs = .tooLarge size) : split bs = ⟨[], some size, bs⟩ := by
  rw [split]
  split <;> simp_all

theorem split_of_whole (h : first bs = .whole body rest) :
    split bs = { split rest with bodies := body :: (split rest).bodies } := by
  rw [split]
  split <;> simp_all

theorem outcomes_of_whole (h : first bs = .whole body rest) :
    (split bs).outcomes = decode body :: (split rest).outcomes := by
  rw [split_of_whole h]
  rfl

/-- Octets are the frames of their bodies and what is left, and no whole frame is left. -/
theorem split_spec (bs : Bytes) :
    bs = (split bs).bodies.flatMap ofBody ++ (split bs).rest ∧ (∀ body ∈ (split bs).bodies, body.length ≤ maxBody) ∧
      first (split bs).rest =
        (match (split bs).tooLarge with | none => .incomplete | some size => .tooLarge size) := by
  fun_induction split bs with
  | case1 bs h => simp [h]
  | case2 bs size h => simp [h]
  | case3 bs body rest h later ih =>
    obtain ⟨hsize, rfl⟩ := first_eq_whole_iff.mp h
    obtain ⟨hrest, hsizes, hleft⟩ := ih
    refine ⟨?_, ?_, hleft⟩
    · rw [List.flatMap_cons, List.append_assoc, ← hrest]
    · simpa [hsize] using hsizes

/-- Frames of bodies within the limit are taken apart into those bodies. -/
theorem split_ofBodies (bodies : List Bytes) (h : ∀ body ∈ bodies, body.length ≤ maxBody) :
    split (bodies.flatMap ofBody) = ⟨bodies, none, []⟩ := by
  induction bodies with
  | nil => exact split_of_incomplete rfl
  | cons body bodies ih =>
    have hfirst : first (ofBody body ++ bodies.flatMap ofBody) = .whole body (bodies.flatMap ofBody) :=
      first_eq_whole_iff.mpr ⟨h body (List.mem_cons_self ..), rfl⟩
    rw [List.flatMap_cons, split_of_whole hfirst, ih fun b hb => h b (List.mem_cons_of_mem _ hb)]

section Defs

/-- Takes frames off a buffer up to the first outcome after which a reader stops; all outcomes, and what is left. -/
def takeAll (buffer : Bytes) : List (Except CallError (Option Packet)) × Bytes :=
  if _h : goesOn (take buffer).1 = true then
    ((take buffer).1 :: (takeAll (take buffer).2).1, (takeAll (take buffer).2).2)
  else ([(take buffer).1], (take buffer).2)
termination_by buffer.length
decreasing_by all_goals exact take_shorter _h

/-- What happens to a buffer: octets arrive, or a frame is taken off it. -/
inductive Event where
  | arrive (bs : Bytes)
  | take
  deriving DecidableEq, Repr

/-- The octets that arrive. -/
def arrivals : List Event → Bytes
  | [] => []
  | .arrive bs :: events => bs ++ arrivals events
  | .take :: events => arrivals events

/-- What frames are taken off a buffer while octets arrive, and the buffer after that. -/
def run : List Event → Bytes → List (Except CallError (Option Packet)) × Bytes
  | [], buffer => ([], buffer)
  | .arrive bs :: events, buffer => run events (buffer ++ bs)
  | .take :: events, buffer => ((take buffer).1 :: (run events (take buffer).2).1, (run events (take buffer).2).2)

/-- What was taken, unless there was no whole frame. -/
def taken? : Except CallError (Option Packet) → Option (Except CallError Packet)
  | .ok none => none
  | .ok (some p) => some (.ok p)
  | .error e => some (.error e)

/-- Whether a length was over the limit. -/
def isTooLarge : Except CallError Packet → Bool
  | .error (.frameTooLarge _ _) => true
  | _ => false

/-- What is taken off a buffer while octets arrive and after that is what all these octets hold. -/
structure Framed (events : List Event) : Prop where
  /-- What was taken, through the first length over the limit. -/
  outcomes : through isTooLarge (((run events []).1 ++ (takeAll (run events []).2).1).filterMap taken?) =
    (split (arrivals events)).outcomes
  /-- What is left in the buffer. -/
  left : (takeAll (run events []).2).2 = (split (arrivals events)).rest
  /-- All octets are frames, one after the other, and what is left. -/
  octets : arrivals events = (split (arrivals events)).bodies.flatMap ofBody ++ (split (arrivals events)).rest
  sizes : ∀ body ∈ (split (arrivals events)).bodies, body.length ≤ maxBody
  /-- A frame that is not whole stays. -/
  incomplete : (split (arrivals events)).tooLarge = none →
    take (split (arrivals events)).rest = (.ok none, (split (arrivals events)).rest)
  /-- A length over the limit stays whatever comes after it. -/
  tooLarge : ∀ size, (split (arrivals events)).tooLarge = some size → ∀ more, maxBody < size ∧
    take ((split (arrivals events)).rest ++ more) =
      (.error (.frameTooLarge size maxBody), (split (arrivals events)).rest ++ more)

end Defs

@[simp] theorem taken?_decode (body : Bytes) : taken? ((decode body).map some) = some (decode body) := by
  cases decode body <;> rfl

@[simp] theorem isTooLarge_decode (body : Bytes) : isTooLarge (decode body) = false := by
  unfold decode
  cases Packet.ofBody body <;> rfl

/-- What is taken off a buffer until there is no whole frame any more. -/
theorem takeAll_eq (bs : Bytes) : takeAll bs =
    ((split bs).bodies.map (fun body => (decode body).map some) ++
      [match (split bs).tooLarge with | none => .ok none | some size => .error (.frameTooLarge size maxBody)],
      (split bs).rest) := by
  fun_induction split bs with
  | case1 bs h => simp [takeAll, take_eq, h, goesOn]
  | case2 bs size h => simp [takeAll, take_eq, h, goesOn]
  | case3 bs body rest h later ih =>
    rw [takeAll, take_of_whole h, dif_pos (goesOn_decode body), ih]
    rfl

/-- What is read from a stream until there is no whole frame any more. -/
theorem readAll_eq (bs : Bytes) : readAll bs =
    (split bs).bodies.map (fun body => (decode body).map some) ++
      [match (split bs).tooLarge with
        | none => if (split bs).rest.length < lengthSize then .ok none else .error (.stream .earlyEnd)
        | some size => .error (.frameTooLarge size maxBody)] := by
  fun_induction split bs with
  | case1 bs h =>
    have hstop : goesOn (readStream bs).1 = false := by
      simp only [readStream_eq, h]
      split <;> rfl
    simp [readAll, hstop]
    simp [readStream_eq, h]
  | case2 bs size h => simp [readAll, readStream_eq, h, goesOn]
  | case3 bs body rest h later ih =>
    have hread : readStream bs = ((decode body).map some, rest) := by rw [readStream_eq, h]
    rw [readAll, hread, dif_pos (goesOn_decode body), ih]
    rfl

theorem filterMap_takeAll (bs : Bytes) : (takeAll bs).1.filterMap taken? = (split bs).outcomes := by
  rw [takeAll_eq, List.filterMap_append, List.filterMap_map]
  have hbodies : taken? ∘ (fun body => (decode body).map some) = fun body => some (decode body) :=
    funext taken?_decode
  rw [hbodies, List.filterMap_eq_map', Split.outcomes]
  cases (split bs).tooLarge <;> rfl

theorem through_outcomes (bs : Bytes) : through isTooLarge (split bs).outcomes = (split bs).outcomes := by
  have hbodies : ∀ a ∈ (split bs).bodies.map decode, isTooLarge a = false := by
    intro a ha
    obtain ⟨body, -, rfl⟩ := List.mem_map.mp ha
    exact isTooLarge_decode body
  rw [Split.outcomes, through_append hbodies]
  cases (split bs).tooLarge <;> rfl

/-- However octets arrive and frames are taken in between, what was taken and what can still be taken are what the
octets hold, through the first length over the limit. -/
theorem through_run (events : List Event) (buffer : Bytes) :
    through isTooLarge ((run events buffer).1.filterMap taken? ++ (split (run events buffer).2).outcomes) =
        (split (buffer ++ arrivals events)).outcomes ∧
      (split (run events buffer).2).rest = (split (buffer ++ arrivals events)).rest := by
  induction events generalizing buffer with
  | nil =>
    rw [arrivals, List.append_nil]
    exact ⟨through_outcomes buffer, rfl⟩
  | cons event events ih =>
    cases event with
    | arrive bs => simpa only [run, arrivals, List.append_assoc] using ih (buffer ++ bs)
    | take =>
      simp only [run, arrivals, take_eq]
      cases hfirst : first buffer with
      | incomplete => exact ih buffer
      | tooLarge size =>
        have hlater := first_append_of_tooLarge hfirst (arrivals events)
        refine ⟨?_, (ih buffer).2⟩
        rw [split_of_tooLarge hlater]
        rfl
      | whole body rest =>
        have hlater := first_append_of_whole hfirst (arrivals events)
        obtain ⟨htaken, hrest⟩ := ih rest
        rw [outcomes_of_whole hlater, ← htaken, split_of_whole hlater]
        refine ⟨?_, hrest⟩
        simp only [List.filterMap_cons, taken?_decode, List.cons_append, through, isTooLarge_decode]
        rfl

/-- **However octets arrive at a buffer, the same frames are taken off it.** -/
theorem framed (events : List Event) : Framed events where
  outcomes := by
    rw [List.filterMap_append, filterMap_takeAll]
    exact List.nil_append (arrivals events) ▸ (through_run events []).1
  left := by
    rw [takeAll_eq]
    exact List.nil_append (arrivals events) ▸ (through_run events []).2
  octets := (split_spec (arrivals events)).1
  sizes := (split_spec (arrivals events)).2.1
  incomplete hnone := by
    have hleft := (split_spec (arrivals events)).2.2
    rw [hnone] at hleft
    rw [take_eq, hleft]
  tooLarge size hsize more := by
    have hleft := (split_spec (arrivals events)).2.2
    rw [hsize] at hleft
    rw [take_eq, first_append_of_tooLarge hleft]
    exact ⟨lt_of_first_tooLarge hleft, rfl⟩

/-! ## Both readers -/

/-- Writes packets one after the other. -/
def writeAll (ps : List Packet) (written : Bytes) : Bytes :=
  ps.foldl (fun written p => (write written p).2) written

theorem write_eq (written : Bytes) (p : Packet) : write written p =
    if maxBody < p.body.length then (.error (.frameTooLarge p.body.length maxBody), written)
    else (.ok (lengthSize + p.body.length), written ++ ofBody p.body) := by
  rw [write, encode, ← Packet.length_body, ← length_ofBody]
  by_cases hsize : maxBody < p.body.length
  · rw [if_pos hsize, if_pos hsize]
  · rw [if_neg hsize, if_neg hsize]
    rfl

theorem writeAll_eq (ps : List Packet) (written : Bytes) : writeAll ps written =
    written ++ ((ps.filter fun p => p.body.length ≤ maxBody).map Packet.body).flatMap ofBody := by
  induction ps generalizing written with
  | nil => exact (List.append_nil _).symm
  | cons p ps ih =>
    rw [writeAll, List.foldl_cons, ← writeAll, ih, write_eq]
    by_cases hsize : maxBody < p.body.length
    · rw [if_pos hsize, List.filter_cons_of_neg (by simpa using hsize)]
    · rw [if_neg hsize, List.filter_cons_of_pos (by simpa using hsize), List.map_cons, List.flatMap_cons,
        List.append_assoc]

theorem split_writeAll (ps : List Packet) :
    split (writeAll ps []) = ⟨(ps.filter fun p => p.body.length ≤ maxBody).map Packet.body, none, []⟩ := by
  rw [writeAll_eq, List.nil_append]
  refine split_ofBodies _ fun body hbody => ?_
  obtain ⟨p, hp, rfl⟩ := List.mem_map.mp hbody
  exact of_decide_eq_true (List.mem_filter.mp hp).2

theorem decode_accepted (ps : List Packet) :
    ((ps.filter fun p => p.body.length ≤ maxBody).map Packet.body).map (fun body => (decode body).map some) =
      (ps.filter fun p => p.body.length ≤ maxBody).map fun p => .ok (some p) := by
  rw [List.map_map]
  refine List.map_congr_left fun p hp => ?_
  have hsize : p.body.length ≤ maxBody := of_decide_eq_true (List.mem_filter.mp hp).2
  rw [Function.comp_apply, decode_own_body (Nat.lt_of_le_of_lt hsize (by decide))]
  rfl

/-- **Both readers read the same.** Their packets and faults of bodies are the same, and after these both tell of the
same length over the limit or neither does. Of packets that were written one after the other both read those within
the limit; the others were not written. -/
theorem readers_agree :
    (∀ octets : Bytes, ∃ frames last drained, readAll octets = frames ++ [last] ∧
      (takeAll octets).1 = frames ++ [drained] ∧ (∀ frame ∈ frames, goesOn frame = true) ∧
      goesOn last = false ∧ goesOn drained = false ∧
      ∀ size limit, last = .error (.frameTooLarge size limit) ↔ drained = .error (.frameTooLarge size limit)) ∧
    (∀ written p, write written p =
      if maxBody < p.body.length then (.error (.frameTooLarge p.body.length maxBody), written)
      else (.ok (lengthSize + p.body.length), written ++ ofBody p.body)) ∧
    ∀ ps : List Packet,
      let accepted := ps.filter fun p => p.body.length ≤ maxBody
      readAll (writeAll ps []) = accepted.map (fun p => .ok (some p)) ++ [.ok none] ∧
        takeAll (writeAll ps []) = (accepted.map (fun p => .ok (some p)) ++ [.ok none], []) := by
  refine ⟨fun octets => ⟨_, _, _, readAll_eq octets, congrArg Prod.fst (takeAll_eq octets), ?_, ?_, ?_, ?_⟩,
    write_eq, fun ps => ⟨?_, ?_⟩⟩
  · intro frame hframe
    obtain ⟨body, -, rfl⟩ := List.mem_map.mp hframe
    exact goesOn_decode body
  · cases (split octets).tooLarge with
    | none =>
      dsimp only
      split <;> rfl
    | some size => rfl
  · cases (split octets).tooLarge <;> rfl
  · intro size limit
    cases (split octets).tooLarge with
    | none =>
      dsimp only
      split <;> simp
    | some size => exact Iff.rfl
  · rw [readAll_eq, split_writeAll, decode_accepted]
    rfl
  · rw [takeAll_eq, split_writeAll, decode_accepted]

end Frame

end RemoteCall
