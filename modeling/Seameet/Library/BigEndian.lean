import Mathlib.Data.List.Induction

/-!
# Big-endian byte fields

A field of a wire format holds a number in a fixed count of bytes, most
significant byte first. Encoding keeps the number's remainder at that width, and
decoding reads any bytes at all, so the two are inverse to each other exactly on
the numbers that fit and on the byte strings of the width.
-/

namespace Library.BigEndian

/-- How many numbers a field of this many bytes can hold. -/
def span : Nat → Nat
  | 0 => 1
  | width + 1 => 256 * span width

/-- The bytes of a number at a width. Bits above the width are dropped. -/
def encode : Nat → Nat → List UInt8
  | 0, _ => []
  | width + 1, number => encode width (number / 256) ++ [UInt8.ofNat number]

/-- The number that a byte string holds. -/
def decode (bytes : List UInt8) : Nat :=
  bytes.foldl (fun number byte => number * 256 + byte.toNat) 0

/-- A number is written in as many bytes as the width. -/
@[simp] theorem encode_length (width number : Nat) : (encode width number).length = width := by
  induction width generalizing number with
  | zero => rfl
  | succ width inductionHypothesis => simp [encode, inductionHypothesis]

/-- The last byte is the least significant one. -/
theorem decode_snoc (bytes : List UInt8) (byte : UInt8) :
    decode (bytes ++ [byte]) = decode bytes * 256 + byte.toNat := by
  simp [decode]

/-- A number read back is its remainder at the width. -/
theorem decode_encode_mod (width number : Nat) :
    decode (encode width number) = number % span width := by
  induction width generalizing number with
  | zero => simp [encode, decode, span, Nat.mod_one]
  | succ width inductionHypothesis =>
    have lowest : (UInt8.ofNat number).toNat = number % 256 := UInt8.toNat_ofNat'
    rw [encode, decode_snoc, inductionHypothesis, lowest, span, Nat.mod_mul]
    omega

/-- A number that fits its field is read back as it was written. -/
theorem decode_encode {width number : Nat} (fits : number < span width) :
    decode (encode width number) = number := by
  rw [decode_encode_mod, Nat.mod_eq_of_lt fits]

/-- Bytes read as a number and written again at their own width are unchanged. -/
theorem encode_decode (bytes : List UInt8) : encode bytes.length (decode bytes) = bytes := by
  induction bytes using List.reverseRecOn with
  | nil => rfl
  | append_singleton bytes byte inductionHypothesis =>
    have below : byte.toNat < 256 := byte.toNat_lt
    have upper : (decode bytes * 256 + byte.toNat) / 256 = decode bytes := by omega
    have lowest : UInt8.ofNat (decode bytes * 256 + byte.toNat) = byte := by
      apply UInt8.toNat.inj
      rw [UInt8.toNat_ofNat']
      omega
    rw [List.length_append, List.length_singleton, decode_snoc, encode, upper, lowest,
      inductionHypothesis]

/-- Bytes of a known width are written again unchanged at that width. -/
theorem encode_decode_of_length {bytes : List UInt8} {width : Nat}
    (length : bytes.length = width) : encode width (decode bytes) = bytes := by
  subst length
  exact encode_decode bytes

/-- A byte string of a known width holds a number that fits the width. -/
theorem decode_lt {bytes : List UInt8} {width : Nat} (length : bytes.length = width) :
    decode bytes < span width := by
  subst length
  induction bytes using List.reverseRecOn with
  | nil => decide
  | append_singleton bytes byte inductionHypothesis =>
    have below : byte.toNat < 256 := byte.toNat_lt
    rw [List.length_append, List.length_singleton, decode_snoc, span]
    omega

end Library.BigEndian
