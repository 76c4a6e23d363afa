import RemoteCall.Error
import RemoteCall.Wire.Body

/-!
# Frames

A frame is the length of a body in four octets, most significant first, and then the body. Two
readers take frames apart: `take` from a buffer that grows as octets arrive, and `readStream` from a
stream that ends. `Split` says what a run of octets holds, apart from both.
-/

namespace RemoteCall.Frame

/-- The number of octets of the length of a body. -/
def lengthSize : Nat := 4

/-- The most octets that a body may have. -/
def maxBody : Nat := 16777216

/-- The frame of a body. -/
def ofBody (body : Bytes) : Bytes := Wire.big lengthSize body.length ++ body

/-- The frame of a packet, which fails if its body is over the limit. -/
def encode (p : Packet) : Except CallError Bytes :=
  if maxBody < p.bodySize then .error (.frameTooLarge p.bodySize maxBody)
  else .ok (Wire.big lengthSize p.bodySize ++ p.body)

/-- The packet of a body. -/
def decode (body : Bytes) : Except CallError Packet :=
  (Packet.ofBody body).mapError CallError.codec

theorem encode_eq_ok_iff {p : Packet} {frame : Bytes} :
    encode p = .ok frame ↔ p.bodySize ≤ maxBody ∧ frame = ofBody p.body := by
  unfold encode ofBody
  split
  · simp; omega
  · simp [eq_comm]; omega

/-! ### A buffer that grows -/

/-- The length at the start of at least four octets. -/
def announced (bs : Bytes) : Nat := Wire.ofBig (bs.take lengthSize)

/-- Takes the first frame off a buffer. The buffer is left as it is while its first frame is
incomplete, or when the length of that frame is over the limit; a body that is no packet is
taken off. -/
def take (buffer : Bytes) : Except CallError (Option Packet) × Bytes :=
  if buffer.length < lengthSize then (.ok none, buffer)
  else
    let size := announced buffer
    if maxBody < size then (.error (.frameTooLarge size maxBody), buffer)
    else if buffer.length < lengthSize + size then (.ok none, buffer)
    else
      ((decode ((buffer.drop lengthSize).take size)).map some, buffer.drop (lengthSize + size))

theorem length_take_le (buffer : Bytes) : (take buffer).2.length ≤ buffer.length := by
  unfold take
  split
  · simp
  · dsimp only
    split
    · simp
    · split
      · simp
      · simp

/-! ### A stream that ends -/

/-- Reads one frame from a stream. Fewer than four octets are the end of the stream; a body cut
short is a fault. What was read is gone also after an error. -/
def readStream (stream : Bytes) : Except CallError (Option Packet) × Bytes :=
  if stream.length < lengthSize then (.ok none, [])
  else
    let size := announced stream
    let rest := stream.drop lengthSize
    if maxBody < size then (.error (.frameTooLarge size maxBody), rest)
    else if rest.length < size then (.error (.stream .earlyEnd), [])
    else ((decode (rest.take size)).map some, rest.drop size)

/-- Whether a reader goes on after an outcome: after packets and after bodies that are none. -/
def goesOn : Except CallError (Option Packet) → Bool
  | .ok (some _) => true
  | .error (.codec _) => true
  | _ => false

theorem readStream_shorter {stream : Bytes} (h : goesOn (readStream stream).1 = true) :
    (readStream stream).2.length < stream.length := by
  unfold readStream at h ⊢
  split
  · rename_i h4
    rw [if_pos h4] at h
    simp [goesOn] at h
  · rename_i h4
    rw [if_neg h4] at h
    have : lengthSize = 4 := rfl
    dsimp only at h ⊢
    split
    · simp; omega
    · split
      · simp; omega
      · simp; omega

/-- The outcomes of reading a stream again and again, up to the first after which a reader stops. -/
def readAll (stream : Bytes) : List (Except CallError (Option Packet)) :=
  if _h : goesOn (readStream stream).1 = true then
    (readStream stream).1 :: readAll (readStream stream).2
  else [(readStream stream).1]
termination_by stream.length
decreasing_by exact readStream_shorter _h

/-- Writes the frame of a packet at the end of what was written before; the count of octets. -/
def write (written : Bytes) (p : Packet) : Except CallError Nat × Bytes :=
  match encode p with
  | .ok frame => (.ok frame.length, written ++ frame)
  | .error e => (.error e, written)

/-! ### What a run of octets holds -/

/-- The first frame of a run of octets. -/
inductive First where
  /-- The octets end before the frame does. -/
  | incomplete
  /-- The frame announces a body over the limit. -/
  | tooLarge (size : Nat)
  /-- A whole body, and the octets after it. -/
  | whole (body rest : Bytes)

/-- Looks at the first frame of a run of octets. -/
def first : Bytes → First
  | a :: b :: c :: d :: rest =>
    let size := Wire.ofBig [a, b, c, d]
    if maxBody < size then .tooLarge size
    else if rest.length < size then .incomplete
    else .whole (rest.take size) (rest.drop size)
  | _ => .incomplete

theorem first_shorter {bs body rest : Bytes} (h : first bs = .whole body rest) :
    rest.length < bs.length := by
  unfold first at h
  split at h
  · dsimp only at h
    split at h
    · simp at h
    · split at h
      · simp at h
      · simp only [First.whole.injEq] at h
        obtain ⟨-, rfl⟩ := h
        simp
        omega
  · simp at h

/-- A run of octets taken apart: the bodies of the whole frames at its start, the length over the limit
that comes next if one does, and the octets that are left. -/
structure Split where
  bodies : List Bytes
  tooLarge : Option Nat
  rest : Bytes
  deriving DecidableEq, Repr

/-- Takes a run of octets apart. -/
def split (bs : Bytes) : Split :=
  match _h : first bs with
  | .incomplete => ⟨[], none, bs⟩
  | .tooLarge size => ⟨[], some size, bs⟩
  | .whole body rest =>
    let later := split rest
    { later with bodies := body :: later.bodies }
termination_by bs.length
decreasing_by exact first_shorter _h

/-- The packets and faults that a run of octets holds, with a length over the limit as the last. -/
def Split.outcomes (s : Split) : List (Except CallError Packet) :=
  s.bodies.map decode ++ (s.tooLarge.map fun n => .error (.frameTooLarge n maxBody)).toList

end RemoteCall.Frame
