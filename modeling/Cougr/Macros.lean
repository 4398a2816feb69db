import Cougr.SimpleWorld
import Cougr.Library.FixedWidth

namespace Cougr.Macros

open FixedWidth

-- The types that a field of a component or of a resource can have.
inductive FieldType where
  | i32
  | u32
  | i64
  | u64
  | i128
  | u8
  | bool
  | u128
  | bytes32
  deriving DecidableEq

-- A signed number is the word of its two's complement.
def FieldType.Value : FieldType → Type
  | .i32 => Int32
  | .u32 => UInt32
  | .i64 => Int64
  | .u64 => UInt64
  | .i128 => BitVec 128
  | .u8 => UInt8
  | .bool => Bool
  | .u128 => BitVec 128
  | .bytes32 => BytesN 32

section Fields

def serializeField : (ftype : FieldType) → ftype.Value → Bytes
  | .i32, (value : Int32) => beBytes 4 value.toUInt32.toNat
  | .u32, (value : UInt32) => beBytes 4 value.toNat
  | .i64, (value : Int64) => beBytes 8 value.toUInt64.toNat
  | .u64, (value : UInt64) => beBytes 8 value.toNat
  | .i128, (value : BitVec 128) => beBytes 16 value.toNat
  | .u8, (value : UInt8) => [value]
  | .bool, (value : Bool) => [if value then 1 else 0]
  | .u128, (value : BitVec 128) => beBytes 16 value.toNat
  | .bytes32, (value : BytesN 32) => value.toList

def fieldSize : FieldType → Nat
  | .i32 => 4
  | .u32 => 4
  | .i64 => 8
  | .u64 => 8
  | .i128 => 16
  | .u8 => 1
  | .bool => 1
  | .u128 => 16
  | .bytes32 => 32

-- A call that answers with an `Option`, or traps.
abbrev Decoded := OptionT Option

-- A step that can only trap goes on with its value.
@[simp] theorem Decoded.lift_some {α : Type} (value : α) : (OptionT.lift (some value) : Decoded α) = pure value :=
  rfl

-- Offsets are `u32`, and their sums are checked.
def checkedAdd (first second : Nat) : Option Nat :=
  if first + second < 2 ^ 32 then some (first + second) else none

-- `data.get(offset)?`
def getByte (data : Bytes) (offset : Nat) : Decoded UInt8 := OptionT.mk (some data[offset]?)

-- The bytes from `offset` on, one after the other.
def getBytes (data : Bytes) (offset : Nat) : (count : Nat) → Decoded (BytesN count)
  | 0 => return #v[]
  | count + 1 => do
    let bytes ← getBytes data offset count
    let index ← OptionT.lift (checkedAdd offset count)
    let byte ← getByte data index
    return bytes.push byte

def deserializeField (data : Bytes) (offset : Nat) : (ftype : FieldType) → Decoded ftype.Value
  | .i32 => do
    let bytes ← getBytes data offset 4
    return (UInt32.ofNat (beValue bytes.toList)).toInt32
  | .u32 => do
    let bytes ← getBytes data offset 4
    return UInt32.ofNat (beValue bytes.toList)
  | .i64 => do
    let bytes ← getBytes data offset 8
    return (UInt64.ofNat (beValue bytes.toList)).toInt64
  | .u64 => do
    let bytes ← getBytes data offset 8
    return UInt64.ofNat (beValue bytes.toList)
  | .i128 => do
    let bytes ← getBytes data offset 16
    return BitVec.ofNat 128 (beValue bytes.toList)
  | .u8 => getByte data offset
  | .bool => do
    let byte ← getByte data offset
    return byte != 0
  | .u128 => do
    let bytes ← getBytes data offset 16
    return BitVec.ofNat 128 (beValue bytes.toList)
  | .bytes32 => getBytes data offset 32

end Fields

section Records

-- A struct with these fields.
def Record : List FieldType → Type
  | [] => Unit
  | ftype :: fields => ftype.Value × Record fields

-- The fields are appended one after the other.
def serializeFields : (fields : List FieldType) → Record fields → Bytes → Bytes
  | [], _, bytes => bytes
  | ftype :: fields, (value, rest), bytes => serializeFields fields rest (bytes ++ serializeField ftype value)

def serialize (fields : List FieldType) (record : Record fields) : Bytes := serializeFields fields record []

def expectedLen (fields : List FieldType) : Option Nat :=
  fields.foldlM (fun len ftype => checkedAdd len (fieldSize ftype)) 0

def deserializeFields (data : Bytes) : (fields : List FieldType) → (offset : Nat) → Decoded (Record fields)
  | [], _ => return ()
  | ftype :: fields, offset => do
    let value ← deserializeField data offset ftype
    let offset ← OptionT.lift (checkedAdd offset (fieldSize ftype))
    let rest ← deserializeFields data fields offset
    return (value, rest)

def deserialize (fields : List FieldType) (data : Bytes) : Decoded (Record fields) := do
  let len ← OptionT.lift (expectedLen fields)
  if data.length ≠ len then failure
  deserializeFields data fields 0

structure ComponentTrait (Self : Type) where
  componentType : Symbol
  serialize : Self → Bytes
  deserialize : Bytes → Decoded Self
  defaultStorage : ComponentStorage

def implComponent (symbol : Symbol) (storage : ComponentStorage) (fields : List FieldType) :
    ComponentTrait (Record fields) where
  componentType := symbol
  serialize := serialize fields
  deserialize := deserialize fields
  defaultStorage := storage

-- A unit struct; any one byte is read as it.
def implMarkerComponent (symbol : Symbol) (storage : ComponentStorage) : ComponentTrait Unit where
  componentType := symbol
  serialize _ := [1]
  deserialize data := if data.length ≠ 1 then failure else return ()
  defaultStorage := storage

structure ResourceTrait (Self : Type) where
  resourceType : Symbol
  serialize : Self → Bytes
  deserialize : Bytes → Decoded Self

def implResource (symbol : Symbol) (fields : List FieldType) : ResourceTrait (Record fields) where
  resourceType := symbol
  serialize := serialize fields
  deserialize := deserialize fields

end Records

end Cougr.Macros
