import Lightpay.Keys
import Lightpay.PaymentHash
import Mathlib.Algebra.Group.Nat.Defs

/-! Hexadecimal text is read back as the bytes it was written from. Hashes and
keys have a fixed width, so their texts name them uniquely. -/

namespace Lightpay

namespace Bytes

theorem toNat_append (left right : Bytes) :
    toNat (left ++ right) =
      right.foldl (fun n byte => 256 * n + byte.toNat) (toNat left) := by
  rw [toNat, List.foldl_append]
  rfl

theorem toNat_ofNat (width n : Nat) (h : n < 256 ^ width) : toNat (ofNat width n) = n := by
  induction width generalizing n with
  | zero =>
    have hzero : n = 0 := by simpa using h
    rw [hzero]
    rfl
  | succ width ih =>
    have hdiv : n / 256 < 256 ^ width := by
      rw [Nat.pow_succ] at h
      exact Nat.div_lt_of_lt_mul (by rwa [Nat.mul_comm])
    rw [ofNat, toNat_append, ih (n / 256) hdiv]
    simp only [List.foldl_cons, List.foldl_nil, UInt8.toNat_ofNat']
    omega

end Bytes

namespace Hex

theorem value?_digit : ∀ n < 16, value? (digit n) = some n := by decide

theorem utf8Size_digit : ∀ n < 16, (digit n).utf8Size = 1 := by decide

theorem value_digit (position n : Nat) (h : n < 16) : value position (digit n) = .ok n := by
  rw [value, value?_digit n h]

theorem pairs_digits (position : Nat) (bytes : Bytes) :
    pairs position (digits bytes) = .ok bytes := by
  induction bytes generalizing position with
  | nil => rfl
  | cons byte rest ih =>
    have hbyte : byte.toNat < 256 := byte.toNat_lt
    have hjoin : UInt8.ofNat (16 * (byte.toNat / 16) + byte.toNat % 16) = byte := by
      rw [Nat.div_add_mod]
      exact UInt8.ofNat_toNat
    rw [digits, pairs, value_digit _ _ (by omega), value_digit _ _ (by omega)]
    simp only [bind, Except.bind, ih, hjoin]

theorem utf8ByteSize_encode (bytes : Bytes) :
    (encode bytes).utf8ByteSize = 2 * bytes.length := by
  induction bytes with
  | nil => rfl
  | cons byte rest ih =>
    have hbyte : byte.toNat < 256 := byte.toNat_lt
    have hhigh := utf8Size_digit (byte.toNat / 16) (by omega)
    have hlow := utf8Size_digit (byte.toNat % 16) (by omega)
    rw [encode] at ih ⊢
    simp only [digits, String.ofList_cons, String.utf8ByteSize_append,
      String.utf8ByteSize_singleton, hhigh, hlow, ih, List.length_cons]
    omega

@[simp] theorem decode_encode (bytes : Bytes) : decode (encode bytes) = .ok bytes := by
  rw [decode, utf8ByteSize_encode, if_neg (by omega), encode, String.toList_ofList,
    pairs_digits]

theorem decodeExact_encode (bytes : Bytes) :
    decodeExact bytes.length (encode bytes) = .ok bytes := by
  rw [decodeExact, utf8ByteSize_encode, if_neg (by omega), if_neg (by omega), encode,
    String.toList_ofList, pairs_digits]

end Hex

@[simp] theorem Bytes32.parse_text (value : Bytes32) : parse value.text = .ok value := by
  have h := Hex.decodeExact_encode value.bytes
  rw [value.length_bytes] at h
  simp only [parse, text, h, value.length_bytes, ↓reduceDIte]

theorem Secp256k1.fieldSize_lt : fieldSize < 256 ^ 32 := by decide

theorem Secp256k1.order_lt : order < 256 ^ 32 := by decide

theorem PublicKey.ofAbscissa?_x (key : PublicKey) :
    ofAbscissa? (Bytes.toNat (Bytes.ofNat 32 key.x)) key.yIsOdd = some key := by
  have hx : key.x < 256 ^ 32 := Nat.lt_trans key.onCurve.1 Secp256k1.fieldSize_lt
  rw [Bytes.toNat_ofNat 32 key.x hx, ofAbscissa?, dif_pos key.onCurve]

@[simp] theorem PublicKey.ofBytes?_bytes (key : PublicKey) : ofBytes? key.bytes = some key := by
  have h := key.ofAbscissa?_x
  rw [bytes, ofBytes?, if_pos (Bytes.length_ofNat 32 key.x)]
  cases hodd : key.yIsOdd
  · rw [hodd] at h
    rw [if_pos (Or.inl (by simp))]
    simpa using h
  · rw [hodd] at h
    rw [if_pos (Or.inr (by simp))]
    simpa using h

@[simp] theorem PublicKey.parse?_text (key : PublicKey) : parse? key.text = some key := by
  simp [parse?, text]

@[simp] theorem SecretKey.ofBytes?_bytes (key : SecretKey) : ofBytes? key.bytes = some key := by
  have hscalar : key.scalar < 256 ^ 32 := Nat.lt_trans key.lt_order Secp256k1.order_lt
  simp [ofBytes?, bytes, Bytes.toNat_ofNat 32 key.scalar hscalar, key.pos, key.lt_order]

@[simp] theorem SecretKey.parse?_text (key : SecretKey) : parse? key.text = some key := by
  simp [parse?, text]

end Lightpay
