import Mathlib.Data.Nat.Digits.Lemmas

-- Numbers in a fixed number of bytes, and codecs whose encodings all have one width.
namespace FixedWidth

section Numbers

-- The low bytes of a number, the least significant of them first.
def leBytes : (width value : Nat) → List UInt8
  | 0, _ => []
  | width + 1, value => UInt8.ofNat value :: leBytes width (value / 256)

def beBytes (width value : Nat) : List UInt8 := (leBytes width value).reverse

def beValue (bytes : List UInt8) : Nat := bytes.foldl (fun value byte => 256 * value + byte.toNat) 0

@[simp] theorem length_leBytes (width value : Nat) : (leBytes width value).length = width := by
  induction width generalizing value with
  | zero => rfl
  | succ width ih => rw [leBytes, List.length_cons, ih]

@[simp] theorem length_beBytes (width value : Nat) : (beBytes width value).length = width := by
  rw [beBytes, List.length_reverse, length_leBytes]

theorem beValue_eq_ofDigits (bytes : List UInt8) :
    beValue bytes = Nat.ofDigits 256 (bytes.reverse.map UInt8.toNat) := by
  rw [beValue, Nat.ofDigits_eq_foldr, List.foldr_map, List.foldr_reverse]
  simp only [Nat.cast_id, Nat.add_comm]

theorem beValue_append (first second : List UInt8) :
    beValue (first ++ second) = beValue first * 256 ^ second.length + beValue second := by
  simp only [beValue_eq_ofDigits, List.reverse_append, List.map_append, Nat.ofDigits_append, List.length_map,
    List.length_reverse]
  rw [Nat.add_comm, Nat.mul_comm]

theorem beValue_lt (bytes : List UInt8) : beValue bytes < 256 ^ bytes.length := by
  have hbyte : ∀ digit ∈ bytes.reverse.map UInt8.toNat, digit < 256 := by
    intro digit hdigit
    obtain ⟨byte, _, rfl⟩ := List.mem_map.mp hdigit
    exact byte.toNat_lt
  have hlt := Nat.ofDigits_lt_base_pow_length (by decide) hbyte
  rwa [List.length_map, List.length_reverse, ← beValue_eq_ofDigits] at hlt

@[simp] theorem beValue_replicate_zero (count : Nat) : beValue (List.replicate count 0) = 0 := by
  simp [beValue_eq_ofDigits]

theorem beValue_beBytes (width value : Nat) : beValue (beBytes width value) = value % 256 ^ width := by
  induction width generalizing value with
  | zero => simp [beBytes, leBytes, beValue, Nat.mod_one]
  | succ width ih =>
      have hlast : beValue [UInt8.ofNat value] = value % 256 := by simp [beValue]
      rw [beBytes, leBytes, List.reverse_cons, ← beBytes, beValue_append, ih, hlast,
        List.length_singleton, pow_one, pow_succ', Nat.mod_mul, Nat.add_comm, Nat.mul_comm]

theorem beBytes_beValue (bytes : List UInt8) : beBytes bytes.length (beValue bytes) = bytes := by
  induction bytes using List.reverseRecOn with
  | nil => rfl
  | append_singleton bytes byte ih =>
      have hvalue : beValue (bytes ++ [byte]) = beValue bytes * 256 + byte.toNat := by
        rw [beValue_append, List.length_singleton, pow_one]
        simp [beValue]
      have hlow : UInt8.ofNat (beValue bytes * 256 + byte.toNat) = byte := by
        apply UInt8.toNat_inj.mp
        rw [UInt8.toNat_ofNat', Nat.mul_comm, Nat.mul_add_mod]
        exact Nat.mod_eq_of_lt byte.toNat_lt
      have hhigh : (beValue bytes * 256 + byte.toNat) / 256 = beValue bytes := by
        have hlt := byte.toNat_lt
        omega
      rw [List.length_append, List.length_singleton, beBytes, leBytes, hvalue, hlow, hhigh, List.reverse_cons,
        ← beBytes, ih]

theorem beBytes_inj {width first second : Nat} (hfirst : first < 256 ^ width) (hsecond : second < 256 ^ width) :
    beBytes width first = beBytes width second ↔ first = second := by
  constructor
  · intro h
    have hvalue := congrArg beValue h
    rwa [beValue_beBytes, beValue_beBytes, Nat.mod_eq_of_lt hfirst, Nat.mod_eq_of_lt hsecond] at hvalue
  · intro h
    rw [h]

theorem beValue_inj {first second : List UInt8} (hlength : first.length = second.length) :
    beValue first = beValue second ↔ first = second := by
  constructor
  · intro h
    rw [← beBytes_beValue first, h, hlength, beBytes_beValue]
  · intro h
    rw [h]

end Numbers

section Codecs

variable {α β γ : Type*}

-- Encodings of one width. `normal` is what becomes of bytes of that width when they are decoded and encoded
-- again.
structure Codec (β α : Type*) where
  width : Nat
  encode : α → List β
  decode : List β → α
  normal : List β → List β
  length_encode : ∀ value, (encode value).length = width
  decode_encode : ∀ value, decode (encode value) = value
  encode_decode : ∀ bytes, bytes.length = width → encode (decode bytes) = normal bytes

namespace Codec

def unit : Codec β Unit where
  width := 0
  encode _ := []
  decode _ := ()
  normal := id
  length_encode _ := rfl
  decode_encode _ := rfl
  encode_decode _ hlength := (List.length_eq_zero_iff.mp hlength).symm

-- One encoding after the other.
def append (first : Codec β α) (second : Codec β γ) : Codec β (α × γ) where
  width := first.width + second.width
  encode value := first.encode value.1 ++ second.encode value.2
  decode bytes := (first.decode (bytes.take first.width), second.decode (bytes.drop first.width))
  normal bytes := first.normal (bytes.take first.width) ++ second.normal (bytes.drop first.width)
  length_encode value := by rw [List.length_append, first.length_encode, second.length_encode]
  decode_encode value := by
    have hwidth := first.length_encode value.1
    rw [List.take_left' hwidth, List.drop_left' hwidth, first.decode_encode, second.decode_encode]
  encode_decode bytes hlength := by
    have hfirst : (bytes.take first.width).length = first.width := by
      rw [List.length_take, hlength]
      exact Nat.min_eq_left (Nat.le_add_right ..)
    have hsecond : (bytes.drop first.width).length = second.width := by
      rw [List.length_drop, hlength, Nat.add_sub_cancel_left]
    rw [first.encode_decode _ hfirst, second.encode_decode _ hsecond]

-- The same encoding for the values of another type.
def map (codec : Codec β α) (e : α ≃ γ) : Codec β γ where
  width := codec.width
  encode value := codec.encode (e.symm value)
  decode bytes := e (codec.decode bytes)
  normal := codec.normal
  length_encode value := codec.length_encode (e.symm value)
  decode_encode value := by rw [codec.decode_encode, e.apply_symm_apply]
  encode_decode bytes hlength := by rw [e.symm_apply_apply, codec.encode_decode bytes hlength]

-- Machine words, the most significant byte first.
def word (width : Nat) : Codec UInt8 (BitVec (8 * width)) where
  width
  encode value := beBytes width value.toNat
  decode bytes := BitVec.ofNat (8 * width) (beValue bytes)
  normal := id
  length_encode value := length_beBytes width value.toNat
  decode_encode value := by
    have hlt := value.isLt
    rw [Nat.pow_mul] at hlt
    rw [beValue_beBytes, Nat.mod_eq_of_lt hlt, BitVec.ofNat_toNat, BitVec.setWidth_eq]
  encode_decode bytes hlength := by
    have hlt := beValue_lt bytes
    rw [hlength, ← Nat.pow_mul 2 8 width] at hlt
    rw [BitVec.toNat_ofNat, Nat.mod_eq_of_lt hlt, ← hlength, beBytes_beValue, id]

end Codec

end Codecs

end FixedWidth
