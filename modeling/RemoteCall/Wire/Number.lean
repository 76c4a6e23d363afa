import RemoteCall.Packet

/-!
# Numbers of fixed width

A natural number as a fixed count of octets, least significant first or most significant first.
Main statements: reading what was written gives the number back when it fits, and writing what
was read gives the octets back.
-/

namespace RemoteCall.Wire

/-- `n` in `width` octets, least significant first; what does not fit is cut off. -/
def little : (width : Nat) → (n : Nat) → Bytes
  | 0, _ => []
  | width + 1, n => UInt8.ofNat n :: little width (n / 256)

/-- The number that octets stand for, least significant first. -/
def ofLittle : Bytes → Nat
  | [] => 0
  | b :: bs => b.toNat + 256 * ofLittle bs

/-- `n` in `width` octets, most significant first. -/
def big (width n : Nat) : Bytes := (little width n).reverse

/-- The number that octets stand for, most significant first. -/
def ofBig (bs : Bytes) : Nat := ofLittle bs.reverse

@[simp] theorem length_little (width n : Nat) : (little width n).length = width := by
  induction width generalizing n with
  | zero => rfl
  | succ width ih => simp [little, ih]

@[simp] theorem length_big (width n : Nat) : (big width n).length = width := by
  simp [big]

theorem ofLittle_little (width n : Nat) : ofLittle (little width n) = n % Nat.pow 256 width := by
  induction width generalizing n with
  | zero => simp [little, ofLittle, Nat.mod_one]
  | succ width ih =>
    rw [little, ofLittle, ih, Nat.pow_eq, Nat.pow_eq, Nat.pow_succ', Nat.mod_mul]
    simp [UInt8.toNat_ofNat']

theorem ofLittle_lt (bs : Bytes) : ofLittle bs < Nat.pow 256 bs.length := by
  induction bs with
  | nil => simp [ofLittle]
  | cons b bs ih =>
    have := b.toNat_lt
    rw [Nat.pow_eq] at ih
    rw [ofLittle, List.length_cons, Nat.pow_eq, Nat.pow_succ']
    omega

theorem little_ofLittle (bs : Bytes) : little bs.length (ofLittle bs) = bs := by
  induction bs with
  | nil => rfl
  | cons b bs ih =>
    have hb := b.toNat_lt
    rw [List.length_cons, little, ofLittle]
    have h1 : (b.toNat + 256 * ofLittle bs) / 256 = ofLittle bs := by omega
    have h2 : UInt8.ofNat (b.toNat + 256 * ofLittle bs) = b := by
      apply UInt8.toNat_inj.mp
      simp only [UInt8.toNat_ofNat']
      omega
    rw [h1, h2, ih]

theorem ofBig_big (width n : Nat) : ofBig (big width n) = n % Nat.pow 256 width := by
  simp [ofBig, big, ofLittle_little]

theorem big_ofBig (bs : Bytes) : big bs.length (ofBig bs) = bs := by
  have h := little_ofLittle bs.reverse
  rw [List.length_reverse] at h
  simp [big, ofBig, h]

theorem ofBig_lt (bs : Bytes) : ofBig bs < Nat.pow 256 bs.length := by
  simpa [ofBig] using ofLittle_lt bs.reverse

end RemoteCall.Wire
