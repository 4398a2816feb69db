import Cougr.Macros

namespace Cougr.Macros

open FixedWidth

section Codecs

-- A byte that holds a bool, written again.
def canonicalBool (byte : UInt8) : UInt8 := if byte = 0 then 0 else 1

def boolCodec : Codec UInt8 Bool where
  width := 1
  encode value := [if value then 1 else 0]
  decode bytes := bytes.headD 0 != 0
  normal bytes := bytes.map canonicalBool
  length_encode _ := rfl
  decode_encode value := by cases value <;> rfl
  encode_decode bytes hlength := by
    obtain ⟨byte, rfl⟩ := List.length_eq_one_iff.mp hlength
    by_cases hzero : byte = 0
    · simp [canonicalBool, hzero]
    · simp [canonicalBool, hzero]

def byteCodec : Codec UInt8 UInt8 where
  width := 1
  encode value := [value]
  decode bytes := bytes.headD 0
  normal := id
  length_encode _ := rfl
  decode_encode _ := rfl
  encode_decode bytes hlength := by
    obtain ⟨byte, rfl⟩ := List.length_eq_one_iff.mp hlength
    rfl

def bytesCodec (count : Nat) : Codec UInt8 (BytesN count) where
  width := count
  encode value := value.toList
  decode bytes := Vector.ofFn fun i => bytes.getD i 0
  normal := id
  length_encode value := value.length_toList
  decode_encode value := by
    ext i hi
    simp
  encode_decode bytes hlength := by
    apply List.ext_getElem
    · simp [hlength]
    · intro i _ hi
      have hget : i < bytes.length := hi
      simp [hget]

def u32Codec : Codec UInt8 UInt32 :=
  (Codec.word 4).map ⟨UInt32.ofBitVec, UInt32.toBitVec, fun _ => rfl, fun _ => rfl⟩

def u64Codec : Codec UInt8 UInt64 :=
  (Codec.word 8).map ⟨UInt64.ofBitVec, UInt64.toBitVec, fun _ => rfl, fun _ => rfl⟩

def fieldCodec : (ftype : FieldType) → Codec UInt8 ftype.Value
  | .i32 => u32Codec.map ⟨UInt32.toInt32, Int32.toUInt32, fun _ => rfl, fun _ => rfl⟩
  | .u32 => u32Codec
  | .i64 => u64Codec.map ⟨UInt64.toInt64, Int64.toUInt64, fun _ => rfl, fun _ => rfl⟩
  | .u64 => u64Codec
  | .i128 => Codec.word 16
  | .u8 => byteCodec
  | .bool => boolCodec
  | .u128 => Codec.word 16
  | .bytes32 => bytesCodec 32

def recordCodec : (fields : List FieldType) → Codec UInt8 (Record fields)
  | [] => Codec.unit
  | ftype :: fields => (fieldCodec ftype).append (recordCodec fields)

-- The tables of the encoder and of the sizes are those of the codecs.
theorem width_fieldCodec (ftype : FieldType) : (fieldCodec ftype).width = fieldSize ftype := by
  cases ftype <;> rfl

theorem encode_fieldCodec (ftype : FieldType) (value : ftype.Value) :
    (fieldCodec ftype).encode value = serializeField ftype value := by
  cases ftype <;> rfl

theorem width_recordCodec (fields : List FieldType) :
    (recordCodec fields).width = (fields.map fieldSize).sum := by
  induction fields with
  | nil => rfl
  | cons ftype fields ih =>
      rw [List.map_cons, List.sum_cons, ← ih, ← width_fieldCodec]
      rfl

theorem serializeFields_eq (fields : List FieldType) (record : Record fields) (bytes : Bytes) :
    serializeFields fields record bytes = bytes ++ (recordCodec fields).encode record := by
  induction fields generalizing bytes with
  | nil => exact (List.append_nil bytes).symm
  | cons ftype fields ih =>
      obtain ⟨value, rest⟩ := record
      rw [serializeFields, ih, ← encode_fieldCodec, List.append_assoc]
      rfl

theorem serialize_eq (fields : List FieldType) (record : Record fields) :
    serialize fields record = (recordCodec fields).encode record :=
  serializeFields_eq fields record []

end Codecs

section Decoders

variable {data : Bytes}

theorem getByte_eq {offset : Nat} (hoffset : offset < data.length) :
    getByte data offset = pure data[offset] := by
  rw [getByte, List.getElem?_eq_getElem hoffset]
  rfl

-- Within the data no byte is missing and no offset overflows.
theorem getBytes_eq (hdata : data.length < 2 ^ 32) {offset : Nat} (count : Nat)
    (hroom : offset + count ≤ data.length) :
    ∃ bytes : BytesN count, getBytes data offset count = pure bytes ∧
      bytes.toList = (data.drop offset).take count := by
  induction count with
  | zero => exact ⟨#v[], rfl, List.take_zero.symm⟩
  | succ count ih =>
      obtain ⟨bytes, hbytes, hlist⟩ := ih (by omega)
      have hindex : offset + count < data.length := by omega
      refine ⟨bytes.push data[offset + count], ?_, ?_⟩
      · have hadd : checkedAdd offset count = some (offset + count) := if_pos (by omega)
        rw [getBytes, hbytes, pure_bind, hadd, Decoded.lift_some, pure_bind, getByte_eq hindex, pure_bind]
      · rw [Vector.toList_push, hlist, List.take_add_one, List.getElem?_drop, List.getElem?_eq_getElem hindex]
        rfl

theorem headD_take_drop {offset : Nat} (hoffset : offset < data.length) :
    ((data.drop offset).take 1).headD 0 = data[offset] := by
  rw [List.drop_eq_getElem_cons hoffset]
  rfl

theorem deserializeField_eq (hdata : data.length < 2 ^ 32) {offset : Nat} (ftype : FieldType)
    (hroom : offset + fieldSize ftype ≤ data.length) :
    deserializeField data offset ftype =
      pure ((fieldCodec ftype).decode ((data.drop offset).take (fieldSize ftype))) := by
  have hword : ∀ {α : Type} (width : Nat) (read : Nat → α), offset + width ≤ data.length →
      (do let bytes ← getBytes data offset width; return read (beValue bytes.toList) : Decoded α) =
        pure (read (beValue ((data.drop offset).take width))) := by
    intro α width read hwidth
    obtain ⟨bytes, hbytes, hlist⟩ := getBytes_eq hdata width hwidth
    rw [hbytes, pure_bind, hlist]
  cases ftype with
  | i32 => exact hword 4 (fun n => (UInt32.ofNat n).toInt32) hroom
  | u32 => exact hword 4 UInt32.ofNat hroom
  | i64 => exact hword 8 (fun n => (UInt64.ofNat n).toInt64) hroom
  | u64 => exact hword 8 UInt64.ofNat hroom
  | i128 => exact hword 16 (BitVec.ofNat 128) hroom
  | u128 => exact hword 16 (BitVec.ofNat 128) hroom
  | u8 =>
      rw [deserializeField, getByte_eq hroom, ← headD_take_drop hroom]
      rfl
  | bool =>
      rw [deserializeField, getByte_eq hroom, ← headD_take_drop hroom]
      rfl
  | bytes32 =>
      obtain ⟨bytes, hbytes, hlist⟩ := getBytes_eq hdata 32 hroom
      have hdecode := (bytesCodec 32).decode_encode bytes
      rw [deserializeField, hbytes, ← hdecode]
      exact congrArg (fun list => pure ((bytesCodec 32).decode list)) hlist

theorem checkedAdd_eq {first second : Nat} (hroom : first + second < 2 ^ 32) :
    checkedAdd first second = some (first + second) := if_pos hroom

theorem deserializeFields_eq (hdata : data.length < 2 ^ 32) (fields : List FieldType) {offset : Nat}
    (hlength : data.length = offset + (recordCodec fields).width) :
    deserializeFields data fields offset = pure ((recordCodec fields).decode (data.drop offset)) := by
  induction fields generalizing offset with
  | nil => rfl
  | cons ftype fields ih =>
      have hsplit : (recordCodec (ftype :: fields)).width = fieldSize ftype + (recordCodec fields).width := by
        rw [← width_fieldCodec]
        rfl
      rw [hsplit] at hlength
      rw [deserializeFields, deserializeField_eq hdata ftype (by omega), pure_bind,
        checkedAdd_eq (by omega), Decoded.lift_some, pure_bind, ih (by omega), pure_bind, ← List.drop_drop,
        ← width_fieldCodec]
      rfl

theorem expectedLen_eq {fields : List FieldType} (hsize : (fields.map fieldSize).sum < 2 ^ 32) :
    expectedLen fields = some (fields.map fieldSize).sum := by
  have hsum : ∀ len, len + (fields.map fieldSize).sum < 2 ^ 32 →
      fields.foldlM (fun len ftype => checkedAdd len (fieldSize ftype)) len =
        some (len + (fields.map fieldSize).sum) := by
    clear hsize
    induction fields with
    | nil => exact fun len _ => rfl
    | cons ftype fields ih =>
        intro len hlen
        rw [List.map_cons, List.sum_cons, ← Nat.add_assoc] at hlen ⊢
        rw [List.foldlM_cons, checkedAdd_eq (by omega), Option.bind_eq_bind, Option.bind_some, ih _ hlen]
  have hall := hsum 0 (by omega)
  rwa [Nat.zero_add] at hall

theorem deserialize_eq {fields : List FieldType} (hsize : (fields.map fieldSize).sum < 2 ^ 32) (data : Bytes) :
    deserialize fields data =
      if data.length = (fields.map fieldSize).sum then pure ((recordCodec fields).decode data) else failure := by
  rw [deserialize, expectedLen_eq hsize, Decoded.lift_some, pure_bind]
  by_cases hlength : data.length = (fields.map fieldSize).sum
  · have hdata : data.length < 2 ^ 32 := by omega
    have hwidth : data.length = 0 + (recordCodec fields).width := by rw [hlength, width_recordCodec, Nat.zero_add]
    rw [if_neg (not_not.mpr hlength), if_pos hlength]
    exact deserializeFields_eq hdata fields hwidth
  · rw [if_pos hlength, if_neg hlength]
    rfl

end Decoders

section Exact

-- The positions of the bytes that hold bools.
def boolBytes (fields : List FieldType) : List Bool :=
  fields.flatMap fun ftype => List.replicate (fieldSize ftype) (ftype == .bool)

def canonicalByte (isBool : Bool) (byte : UInt8) : UInt8 := if isBool then canonicalBool byte else byte

-- Bytes with every bool among them written as zero or one.
def normalised (fields : List FieldType) (bytes : Bytes) : Bytes :=
  List.zipWith canonicalByte (boolBytes fields) bytes

-- What is written has the width of the fields and is read back, and exactly the bytes of that width are read,
-- as what they stand for.
structure Exact (fields : List FieldType) (serialize : Record fields → Bytes)
    (deserialize : Bytes → Decoded (Record fields)) : Prop where
  length : ∀ value, (serialize value).length = (fields.map fieldSize).sum
  roundTrip : ∀ value, deserialize (serialize value) = some (some value)
  accepts : ∀ bytes, (∃ value, deserialize bytes = some (some value)) ↔ bytes.length = (fields.map fieldSize).sum
  rejects : ∀ bytes, bytes.length ≠ (fields.map fieldSize).sum → deserialize bytes = some none
  normalises : ∀ bytes value, deserialize bytes = some (some value) → serialize value = normalised fields bytes

theorem zipWith_replicate_false (count : Nat) {bytes : Bytes} (hlength : bytes.length = count) :
    List.zipWith canonicalByte (List.replicate count false) bytes = bytes := by
  subst hlength
  induction bytes with
  | nil => rfl
  | cons byte bytes ih =>
      rw [List.length_cons, List.replicate_succ, List.zipWith_cons_cons, ih]
      rfl

theorem normal_fieldCodec (ftype : FieldType) {bytes : Bytes} (hlength : bytes.length = fieldSize ftype) :
    (fieldCodec ftype).normal bytes =
      List.zipWith canonicalByte (List.replicate (fieldSize ftype) (ftype == .bool)) bytes := by
  cases ftype with
  | bool =>
      obtain ⟨byte, rfl⟩ := List.length_eq_one_iff.mp hlength
      rfl
  | _ => exact (zipWith_replicate_false _ hlength).symm

theorem normal_recordCodec (fields : List FieldType) {bytes : Bytes}
    (hlength : bytes.length = (fields.map fieldSize).sum) :
    (recordCodec fields).normal bytes = normalised fields bytes := by
  induction fields generalizing bytes with
  | nil =>
      obtain rfl := List.length_eq_zero_iff.mp hlength
      rfl
  | cons ftype fields ih =>
      rw [List.map_cons, List.sum_cons] at hlength
      have hfirst : (bytes.take (fieldSize ftype)).length = fieldSize ftype := by
        rw [List.length_take]
        omega
      have hrest : (bytes.drop (fieldSize ftype)).length = (fields.map fieldSize).sum := by
        rw [List.length_drop]
        omega
      have hsplit : (recordCodec (ftype :: fields)).normal bytes =
          (fieldCodec ftype).normal (bytes.take (fieldCodec ftype).width) ++
            (recordCodec fields).normal (bytes.drop (fieldCodec ftype).width) := rfl
      have hbools : boolBytes (ftype :: fields) =
          List.replicate (fieldSize ftype) (ftype == .bool) ++ boolBytes fields := List.flatMap_cons
      rw [hsplit, width_fieldCodec, normal_fieldCodec ftype hfirst, ih hrest, normalised, normalised, hbools]
      nth_rewrite 3 [← List.take_append_drop (fieldSize ftype) bytes]
      exact (List.zipWith_append (by rw [List.length_replicate, hfirst])).symm

theorem exact_of_size {fields : List FieldType} (hsize : (fields.map fieldSize).sum < 2 ^ 32) :
    Exact fields (serialize fields) (deserialize fields) where
  length value := by rw [serialize_eq, (recordCodec fields).length_encode, width_recordCodec]
  roundTrip value := by
    have hlength : (serialize fields value).length = (fields.map fieldSize).sum := by
      rw [serialize_eq, (recordCodec fields).length_encode, width_recordCodec]
    rw [deserialize_eq hsize, if_pos hlength, serialize_eq, (recordCodec fields).decode_encode]
    rfl
  accepts bytes := by
    rw [deserialize_eq hsize]
    split_ifs with hlength
    · exact iff_of_true ⟨_, rfl⟩ hlength
    · refine iff_of_false ?_ hlength
      rintro ⟨value, hvalue⟩
      cases hvalue
  rejects bytes hlength := by
    rw [deserialize_eq hsize, if_neg hlength]
    rfl
  normalises bytes value hvalue := by
    rw [deserialize_eq hsize] at hvalue
    split_ifs at hvalue with hlength
    · obtain rfl := Option.some.inj (Option.some.inj hvalue)
      rw [serialize_eq, (recordCodec fields).encode_decode bytes (by rw [hlength, width_recordCodec]),
        normal_recordCodec fields hlength]
    · cases hvalue

theorem codecs_exact (symbol : Symbol) (storage : ComponentStorage) (fields : List FieldType)
    (hsize : (fields.map fieldSize).sum < 2 ^ 32) :
    Exact fields (implComponent symbol storage fields).serialize
      (implComponent symbol storage fields).deserialize ∧
    Exact fields (implResource symbol fields).serialize (implResource symbol fields).deserialize :=
  ⟨exact_of_size hsize, exact_of_size hsize⟩

-- A score, a level, and whether the game is over.
theorem game_state_exact :
    Exact [.i32, .i32, .bool] (implComponent (symbolShort "gamestate") .Table [.i32, .i32, .bool]).serialize
      (implComponent (symbolShort "gamestate") .Table [.i32, .i32, .bool]).deserialize ∧
    Exact [.i32, .i32, .bool] (implResource (symbolShort "gamestate") [.i32, .i32, .bool]).serialize
      (implResource (symbolShort "gamestate") [.i32, .i32, .bool]).deserialize :=
  codecs_exact (symbolShort "gamestate") .Table [.i32, .i32, .bool] (by decide)

-- A bool may come as any byte.
example : deserialize [.i32, .bool] [255, 255, 255, 254, 7] = some (some ((-2 : Int32), true, ())) := rfl

end Exact

end Cougr.Macros
