import Mathlib.Algebra.Group.Nat.Defs
import RemoteCall.Proofs.Text.Utf8
import RemoteCall.Wire.Frame

/-!
# Bodies of packets

A reader accepts what its writer has written and nothing else, and leaves the octets that follow. Lengths are written
in eight octets, so this is about parts that are shorter than `2 ^ 64`.

* `readNumber_eq_ok_iff`, `readVariant_eq_ok_iff`, `readData_eq_ok_iff`, `readText_eq_ok_iff`: the parts of a packet.
* `Packet.read_eq_ok_iff`: a whole packet.
* `Frame.decode_eq_ok_iff`: octets that begin with the body of a packet.
-/

namespace RemoteCall

namespace Wire

variable {α β : Type} {bs rest : Bytes}

/-! ## One reader after the other -/

theorem bind_eq_ok_iff {ra : Reader α} {f : α → Reader β} {b : β} :
    (ra >>= f) bs = .ok (b, rest) ↔ ∃ a mid, ra bs = .ok (a, mid) ∧ f a mid = .ok (b, rest) := by
  show Except.bind (ra bs) (fun x => f x.1 x.2) = .ok (b, rest) ↔ _
  cases ra bs with
  | error e => simp [Except.bind]
  | ok x => exact ⟨fun h => ⟨x.1, x.2, rfl, h⟩, fun ⟨a, mid, hx, h⟩ => by cases hx; exact h⟩

theorem pure_eq_ok_iff {a b : α} : (pure a : Reader α) bs = .ok (b, rest) ↔ a = b ∧ bs = rest := by
  show Except.ok (a, bs) = Except.ok (b, rest) ↔ _
  simp

theorem throw_ne_ok {fault : Fault} {b : β} : (throw fault : Reader β) bs ≠ .ok (b, rest) := by
  intro h
  cases h

/-! ## Parts of a packet -/

theorem readOctets_eq_ok_iff {short : Fault} {count : Nat} {octets : Bytes} :
    readOctets short count bs = .ok (octets, rest) ↔ octets.length = count ∧ bs = octets ++ rest := by
  unfold readOctets
  constructor
  · intro h
    split at h
    · cases h
    · simp only [Except.ok.injEq, Prod.mk.injEq] at h
      obtain ⟨rfl, rfl⟩ := h
      exact ⟨List.length_take_of_le (by omega), (List.take_append_drop count bs).symm⟩
  · rintro ⟨rfl, rfl⟩
    rw [if_neg (by simp), List.take_left, List.drop_left]

/-- A number is read from its own octets, least significant first. -/
theorem readNumber_eq_ok_iff {width n : Nat} :
    readNumber width bs = .ok (n, rest) ↔ n < Nat.pow 256 width ∧ bs = little width n ++ rest := by
  unfold readNumber
  simp only [bind_eq_ok_iff, readOctets_eq_ok_iff, pure_eq_ok_iff]
  constructor
  · rintro ⟨octets, _, ⟨rfl, rfl⟩, rfl, rfl⟩
    exact ⟨ofLittle_lt octets, by rw [little_ofLittle]⟩
  · rintro ⟨hn, rfl⟩
    refine ⟨_, rest, ⟨length_little width n, rfl⟩, ?_, rfl⟩
    rw [ofLittle_little, Nat.mod_eq_of_lt hn]

theorem readVariant_eq_ok_iff {ofIndex? : Nat → Option α} {index : α → Nat} {count : Nat} {a : α}
    (hindex : ∀ {i a}, ofIndex? i = some a ↔ i = index a) (hfits : ∀ a, index a < Nat.pow 256 4) :
    readVariant ofIndex? count bs = .ok (a, rest) ↔ bs = variant (index a) ++ rest := by
  unfold readVariant
  simp only [bind_eq_ok_iff, readNumber_eq_ok_iff]
  constructor
  · rintro ⟨i, mid, ⟨-, rfl⟩, h⟩
    cases hi : ofIndex? i with
    | none => exact absurd (by rwa [hi] at h) throw_ne_ok
    | some a' =>
      rw [hi] at h
      obtain ⟨rfl, rfl⟩ := pure_eq_ok_iff.mp h
      rw [hindex.mp hi]
      rfl
  · rintro rfl
    refine ⟨index a, rest, ⟨hfits a, rfl⟩, ?_⟩
    rw [hindex.mpr rfl]
    exact pure_eq_ok_iff.mpr ⟨rfl, rfl⟩

theorem readData_eq_ok_iff {octets : Bytes} :
    readData bs = .ok (octets, rest) ↔ octets.length < Nat.pow 256 8 ∧ bs = data octets ++ rest := by
  unfold readData data
  simp only [bind_eq_ok_iff, readNumber_eq_ok_iff, readOctets_eq_ok_iff]
  constructor
  · rintro ⟨_, _, ⟨hcount, rfl⟩, rfl, rfl⟩
    exact ⟨hcount, (List.append_assoc ..).symm⟩
  · rintro ⟨hlength, rfl⟩
    exact ⟨octets.length, octets ++ rest, ⟨hlength, List.append_assoc ..⟩, rfl, rfl⟩

theorem readText_eq_ok_iff {s : String} :
    readText bs = .ok (s, rest) ↔ s.utf8ByteSize < Nat.pow 256 8 ∧ bs = text s ++ rest := by
  unfold readText text
  simp only [bind_eq_ok_iff, readNumber_eq_ok_iff, readOctets_eq_ok_iff]
  constructor
  · rintro ⟨_, _, ⟨hcount, rfl⟩, octets, _, ⟨rfl, rfl⟩, h⟩
    cases hs : Utf8.text octets with
    | error fault => exact absurd (by rwa [hs] at h) throw_ne_ok
    | ok s' =>
      rw [hs] at h
      obtain ⟨rfl, rfl⟩ := pure_eq_ok_iff.mp h
      obtain rfl := Utf8.text_eq_ok_iff.mp hs
      rw [Utf8.length_octets] at hcount ⊢
      exact ⟨hcount, (List.append_assoc ..).symm⟩
  · rintro ⟨hlength, rfl⟩
    refine ⟨_, Utf8.octets s ++ rest, ⟨hlength, List.append_assoc ..⟩, _, rest, ⟨Utf8.length_octets s, rfl⟩, ?_⟩
    rw [Utf8.text_eq_ok_iff.mpr rfl]
    exact pure_eq_ok_iff.mpr ⟨rfl, rfl⟩

theorem readId_eq_ok_iff {id : UInt32} :
    readId bs = .ok (id, rest) ↔ bs = little 4 id.toNat ++ rest := by
  unfold readId
  simp only [bind_eq_ok_iff, readNumber_eq_ok_iff, pure_eq_ok_iff]
  constructor
  · rintro ⟨n, _, ⟨hn, rfl⟩, rfl, rfl⟩
    rw [UInt32.toNat_ofNat_of_lt' hn]
  · rintro rfl
    exact ⟨id.toNat, rest, ⟨id.toNat_lt, rfl⟩, UInt32.ofNat_toNat, rfl⟩

end Wire

/-! ## Packets -/

section Defs

/-- The lengths of the parts of a request can be written. -/
def Request.Fits (r : Request) : Prop :=
  r.service.utf8ByteSize < Nat.pow 256 8 ∧ r.method.utf8ByteSize < Nat.pow 256 8 ∧ r.data.length < Nat.pow 256 8

/-- The lengths of the parts of a response can be written. -/
def Response.Fits (r : Response) : Prop :=
  r.message.utf8ByteSize < Nat.pow 256 8 ∧ r.data.length < Nat.pow 256 8

/-- The lengths of the parts of a packet can be written. -/
def Packet.Fits : Packet → Prop
  | request r => r.Fits
  | response r => r.Fits
  | _ => True

end Defs

variable {bs rest : Bytes} {p q : Packet}

theorem Wire.readAck_eq_ok_iff {count : Nat} {a : Ack} :
    Wire.readVariant Ack.ofIndex? count bs = .ok (a, rest) ↔ bs = Wire.variant a.index ++ rest :=
  Wire.readVariant_eq_ok_iff Ack.ofIndex?_eq_some_iff fun a => by cases a <;> decide

theorem Wire.readStatus_eq_ok_iff {count : Nat} {s : Status} :
    Wire.readVariant Status.ofIndex? count bs = .ok (s, rest) ↔ bs = Wire.variant s.index ++ rest :=
  Wire.readVariant_eq_ok_iff Status.ofIndex?_eq_some_iff fun s => by cases s <;> decide

theorem Request.read_eq_ok_iff {r : Request} :
    Request.read bs = .ok (r, rest) ↔ r.Fits ∧ bs = r.body ++ rest := by
  unfold Request.read
  simp only [Wire.bind_eq_ok_iff, Wire.readId_eq_ok_iff, Wire.readText_eq_ok_iff, Wire.readData_eq_ok_iff,
    Wire.readAck_eq_ok_iff, Wire.pure_eq_ok_iff]
  constructor
  · rintro ⟨id, _, rfl, service, _, ⟨hservice, rfl⟩, method, _, ⟨hmethod, rfl⟩, data, _, ⟨hdata, rfl⟩, ack, _,
      rfl, rfl, rfl⟩
    exact ⟨⟨hservice, hmethod, hdata⟩, by simp only [Request.body, List.append_assoc]⟩
  · rintro ⟨⟨hservice, hmethod, hdata⟩, rfl⟩
    simp only [Request.body, List.append_assoc]
    exact ⟨r.id, _, rfl, r.service, _, ⟨hservice, rfl⟩, r.method, _, ⟨hmethod, rfl⟩, r.data, _, ⟨hdata, rfl⟩,
      r.ack, _, rfl, rfl, rfl⟩

theorem Response.read_eq_ok_iff {r : Response} :
    Response.read bs = .ok (r, rest) ↔ r.Fits ∧ bs = r.body ++ rest := by
  unfold Response.read
  simp only [Wire.bind_eq_ok_iff, Wire.readId_eq_ok_iff, Wire.readText_eq_ok_iff, Wire.readData_eq_ok_iff,
    Wire.readStatus_eq_ok_iff, Wire.pure_eq_ok_iff]
  constructor
  · rintro ⟨id, _, rfl, status, _, rfl, message, _, ⟨hmessage, rfl⟩, data, _, ⟨hdata, rfl⟩, rfl, rfl⟩
    exact ⟨⟨hmessage, hdata⟩, by simp only [Response.body, List.append_assoc]⟩
  · rintro ⟨⟨hmessage, hdata⟩, rfl⟩
    simp only [Response.body, List.append_assoc]
    exact ⟨r.id, _, rfl, r.status, _, rfl, r.message, _, ⟨hmessage, rfl⟩, r.data, _, ⟨hdata, rfl⟩, rfl, rfl⟩

/-- A packet is read from its body and leaves what follows, and nothing else is read as that packet. -/
theorem Packet.read_eq_ok_iff : Packet.read bs = .ok (p, rest) ↔ p.Fits ∧ bs = p.body ++ rest := by
  unfold Packet.read
  simp only [Wire.bind_eq_ok_iff, Wire.readNumber_eq_ok_iff]
  constructor
  · rintro ⟨i, _, ⟨-, rfl⟩, h⟩
    rcases i with _ | _ | _ | _ | i
    · change (Request.read >>= fun r => pure (Packet.request r)) _ = _ at h
      simp only [Wire.bind_eq_ok_iff, Request.read_eq_ok_iff, Wire.pure_eq_ok_iff] at h
      obtain ⟨r, _, ⟨hfits, rfl⟩, rfl, rfl⟩ := h
      exact ⟨hfits, by simp only [Packet.body, Wire.variant, List.append_assoc]⟩
    · change (Response.read >>= fun r => pure (Packet.response r)) _ = _ at h
      simp only [Wire.bind_eq_ok_iff, Response.read_eq_ok_iff, Wire.pure_eq_ok_iff] at h
      obtain ⟨r, _, ⟨hfits, rfl⟩, rfl, rfl⟩ := h
      exact ⟨hfits, by simp only [Packet.body, Wire.variant, List.append_assoc]⟩
    · change (Wire.readVariant Ack.ofIndex? 2 >>= fun a => pure (Packet.ping a)) _ = _ at h
      simp only [Wire.bind_eq_ok_iff, Wire.readAck_eq_ok_iff, Wire.pure_eq_ok_iff] at h
      obtain ⟨a, _, rfl, rfl, rfl⟩ := h
      exact ⟨trivial, by simp only [Packet.body, Wire.variant, List.append_assoc]⟩
    · change (pure Packet.pong : Wire.Reader Packet) _ = _ at h
      obtain ⟨rfl, rfl⟩ := Wire.pure_eq_ok_iff.mp h
      exact ⟨trivial, by simp only [Packet.body, Wire.variant]⟩
    · exact absurd h Wire.throw_ne_ok
  · rintro ⟨hfits, rfl⟩
    cases p with
    | request r =>
      refine ⟨0, r.body ++ rest, ⟨by decide, ?_⟩, ?_⟩
      · simp only [Packet.body, Wire.variant, List.append_assoc]
      · exact Wire.bind_eq_ok_iff.mpr ⟨r, rest, Request.read_eq_ok_iff.mpr ⟨hfits, rfl⟩, rfl⟩
    | response r =>
      refine ⟨1, r.body ++ rest, ⟨by decide, ?_⟩, ?_⟩
      · simp only [Packet.body, Wire.variant, List.append_assoc]
      · exact Wire.bind_eq_ok_iff.mpr ⟨r, rest, Response.read_eq_ok_iff.mpr ⟨hfits, rfl⟩, rfl⟩
    | ping a =>
      refine ⟨2, Wire.variant a.index ++ rest, ⟨by decide, ?_⟩, ?_⟩
      · simp only [Packet.body, Wire.variant, List.append_assoc]
      · exact Wire.bind_eq_ok_iff.mpr ⟨a, rest, Wire.readAck_eq_ok_iff.mpr rfl, rfl⟩
    | pong => exact ⟨3, rest, ⟨by decide, by simp only [Packet.body, Wire.variant]⟩, rfl⟩

/-- A packet whose body is shorter than `2 ^ 64` octets has no part that is longer. -/
theorem Packet.fits_of_length (h : p.body.length < 2 ^ 64) : p.Fits := by
  rw [Packet.length_body] at h
  have hpow : Nat.pow 256 8 = 2 ^ 64 := by decide
  cases p with
  | request r =>
    simp only [Packet.bodySize, Request.bodySize] at h
    refine ⟨?_, ?_, ?_⟩ <;> omega
  | response r =>
    simp only [Packet.bodySize, Response.bodySize] at h
    refine ⟨?_, ?_⟩ <;> omega
  | ping a => trivial
  | pong => trivial

namespace Frame

/-! ## Bodies and frames -/

theorem decode_eq_ok_iff : decode bs = .ok p ↔ p.Fits ∧ ∃ rest, bs = p.body ++ rest := by
  have hread : decode bs = .ok p ↔ ∃ rest, Packet.read bs = .ok (p, rest) := by
    unfold decode Packet.ofBody
    show Except.mapError _ (Except.map _ (Packet.read bs)) = _ ↔ _
    cases Packet.read bs with
    | error e => exact ⟨fun h => (by cases h), fun ⟨_, h⟩ => (by cases h)⟩
    | ok x => exact ⟨fun h => ⟨x.2, by cases h; rfl⟩, fun ⟨_, h⟩ => (by cases h; rfl)⟩
  simp only [hread, Packet.read_eq_ok_iff, exists_and_left]

theorem decode_body (h : p.body.length < 2 ^ 64) (rest : Bytes) : decode (p.body ++ rest) = .ok p :=
  decode_eq_ok_iff.mpr ⟨Packet.fits_of_length h, rest, rfl⟩

theorem decode_own_body (h : p.body.length < 2 ^ 64) : decode p.body = .ok p :=
  decode_eq_ok_iff.mpr ⟨Packet.fits_of_length h, [], (List.append_nil _).symm⟩

theorem encode_eq_error_iff {e : CallError} :
    encode p = .error e ↔ maxBody < p.body.length ∧ e = .frameTooLarge p.body.length maxBody := by
  rw [Packet.length_body, encode]
  split
  · rename_i h
    simp [h, eq_comm]
  · rename_i h
    simp [h]

end Frame

end RemoteCall
