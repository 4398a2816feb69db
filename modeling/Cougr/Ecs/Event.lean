import Cougr.Soroban
import Cougr.Library.FixedWidth
import Cougr.Library.Transition

namespace Cougr.Ecs

open FixedWidth

structure Event where
  eventType : Symbol
  data : Bytes
  timestamp : UInt64

namespace Event

def new (eventType : Symbol) (data : Bytes) : Event := ⟨eventType, data, 0⟩

def withTimestamp (eventType : Symbol) (data : Bytes) (timestamp : UInt64) : Event := ⟨eventType, data, timestamp⟩

end Event

structure EventReader where
  events : List Event
  eventType : Symbol
  readIndex : Nat

namespace EventReader

def new (events : List Event) (eventType : Symbol) : EventReader := ⟨events, eventType, 0⟩

def read (self : EventReader) : Option Event × EventReader :=
  if h : self.readIndex < self.events.length then
    let event := self.events[self.readIndex]
    let next := { self with readIndex := self.readIndex + 1 }
    if event.eventType = self.eventType then (some event, next) else next.read
  else (none, self)
termination_by self.events.length - self.readIndex

def hasMore (self : EventReader) : Bool := self.readIndex < self.events.length

def reset (self : EventReader) : EventReader := { self with readIndex := 0 }

end EventReader

-- The writer appends to the events it borrows.
namespace EventWriter

def send (events : List Event) (event : Event) : List Event := events ++ [event]

def sendWithData (events : List Event) (eventType : Symbol) (data : Bytes) : List Event :=
  send events (Event.new eventType data)

def sendBatch (events : List Event) (batch : List Event) : List Event := batch.foldl send events

theorem sendBatch_eq (events batch : List Event) : sendBatch events batch = events ++ batch := by
  induction batch generalizing events with
  | nil => exact (List.append_nil events).symm
  | cons event batch ih =>
      rw [sendBatch, List.foldl_cons, ← sendBatch, ih, send, List.append_assoc, List.singleton_append]

end EventWriter

-- How the host writes a symbol into a 64-bit value, and which values it reads as one.
structure SymbolVals where
  payload : Symbol → UInt64
  fromPayload : UInt64 → Option Symbol

structure EventTrait (T : Type) where
  eventType : Symbol
  serialize : T → Bytes
  deserialize : Bytes → Option T

-- `[data.get(offset)?, data.get(offset + 1)?, ..]`
def getBytes (data : Bytes) (offset : Nat) : Nat → Option Bytes
  | 0 => some []
  | width + 1 => do
    let byte ← data[offset]?
    let rest ← getBytes data (offset + 1) width
    return byte :: rest

def u64FromBeBytes (bytes : Bytes) : UInt64 := UInt64.ofNat (beValue bytes)

def i32FromBeBytes (bytes : Bytes) : Int32 := (UInt32.ofNat (beValue bytes)).toInt32

structure CollisionEvent where
  entityA : UInt64
  entityB : UInt64
  collisionType : Symbol

def CollisionEvent.trait (vals : SymbolVals) : EventTrait CollisionEvent where
  eventType := symbolShort "collision"
  serialize event :=
    beBytes 8 event.entityA.toNat ++ beBytes 8 event.entityB.toNat ++
      beBytes 8 (vals.payload event.collisionType).toNat
  deserialize data := if data.length < 24 then none else do
    let entityA ← getBytes data 0 8
    let entityB ← getBytes data 8 8
    let symbolBits ← getBytes data 16 8
    let collisionType ← vals.fromPayload (u64FromBeBytes symbolBits)
    return ⟨u64FromBeBytes entityA, u64FromBeBytes entityB, collisionType⟩

structure DamageEvent where
  targetEntity : UInt64
  damageAmount : Int32
  damageType : Symbol

def DamageEvent.trait (vals : SymbolVals) : EventTrait DamageEvent where
  eventType := symbolShort "damage"
  serialize event :=
    beBytes 8 event.targetEntity.toNat ++ beBytes 4 event.damageAmount.toUInt32.toNat ++
      beBytes 8 (vals.payload event.damageType).toNat
  deserialize data := if data.length < 20 then none else do
    let targetEntity ← getBytes data 0 8
    let damageAmount ← getBytes data 8 4
    let symbolBits ← getBytes data 12 8
    let damageType ← vals.fromPayload (u64FromBeBytes symbolBits)
    return ⟨u64FromBeBytes targetEntity, i32FromBeBytes damageAmount, damageType⟩

section Codec

theorem getBytes_of_le {data : Bytes} {offset width : Nat} (h : offset + width ≤ data.length) :
    getBytes data offset width = some ((data.drop offset).take width) := by
  induction width generalizing offset with
  | zero => rw [getBytes, List.take_zero]
  | succ width ih =>
      have hlt : offset < data.length := by omega
      rw [getBytes, List.getElem?_eq_getElem hlt, ih (by omega), List.drop_eq_getElem_cons hlt,
        List.take_succ_cons]
      rfl

theorem u64FromBeBytes_beBytes (value : UInt64) : u64FromBeBytes (beBytes 8 value.toNat) = value := by
  have hlt : value.toNat < 256 ^ 8 := value.toNat_lt
  rw [u64FromBeBytes, beValue_beBytes, Nat.mod_eq_of_lt hlt, UInt64.ofNat_toNat]

theorem beBytes_u64FromBeBytes {bytes : Bytes} (hlength : bytes.length = 8) :
    beBytes 8 (u64FromBeBytes bytes).toNat = bytes := by
  have hlt := beValue_lt bytes
  rw [hlength] at hlt
  rw [u64FromBeBytes, UInt64.toNat_ofNat_of_lt' hlt, ← hlength, beBytes_beValue]

theorem i32FromBeBytes_beBytes (value : Int32) : i32FromBeBytes (beBytes 4 value.toUInt32.toNat) = value := by
  have hlt : value.toUInt32.toNat < 256 ^ 4 := value.toUInt32.toNat_lt
  rw [i32FromBeBytes, beValue_beBytes, Nat.mod_eq_of_lt hlt, UInt32.ofNat_toNat]
  rfl

theorem beBytes_i32FromBeBytes {bytes : Bytes} (hlength : bytes.length = 4) :
    beBytes 4 (i32FromBeBytes bytes).toUInt32.toNat = bytes := by
  have hlt := beValue_lt bytes
  rw [hlength] at hlt
  have hsame : (i32FromBeBytes bytes).toUInt32 = UInt32.ofNat (beValue bytes) := rfl
  rw [hsame, UInt32.toNat_ofNat_of_lt' hlt, ← hlength, beBytes_beValue]

theorem getBytes_append {head field tail : Bytes} {offset width : Nat} (hhead : head.length = offset)
    (hfield : field.length = width) : getBytes (head ++ (field ++ tail)) offset width = some field := by
  subst hhead hfield
  rw [getBytes_of_le (by simp only [List.length_append]; omega), List.drop_left, List.take_left]

theorem exists_u64_append (data : Bytes) (h : 8 ≤ data.length) :
    ∃ (word : UInt64) (tail : Bytes), data = beBytes 8 word.toNat ++ tail ∧ tail.length + 8 = data.length := by
  refine ⟨u64FromBeBytes (data.take 8), data.drop 8, ?_, by rw [List.length_drop]; omega⟩
  rw [beBytes_u64FromBeBytes (by rw [List.length_take]; omega), List.take_append_drop]

theorem exists_i32_append (data : Bytes) (h : 4 ≤ data.length) :
    ∃ (word : Int32) (tail : Bytes), data = beBytes 4 word.toUInt32.toNat ++ tail ∧
    tail.length + 4 = data.length := by
  refine ⟨i32FromBeBytes (data.take 4), data.drop 4, ?_, by rw [List.length_drop]; omega⟩
  rw [beBytes_i32FromBeBytes (by rw [List.length_take]; omega), List.take_append_drop]

theorem CollisionEvent.deserialize_append (vals : SymbolVals) (entityA entityB word : UInt64) (tail : Bytes) :
    (trait vals).deserialize
        (beBytes 8 entityA.toNat ++ (beBytes 8 entityB.toNat ++ (beBytes 8 word.toNat ++ tail))) =
      (vals.fromPayload word).map fun collisionType => ⟨entityA, entityB, collisionType⟩ := by
  set fieldA := beBytes 8 entityA.toNat with hfieldA
  set fieldB := beBytes 8 entityB.toNat with hfieldB
  set fieldW := beBytes 8 word.toNat with hfieldW
  have hA : getBytes ([] ++ (fieldA ++ (fieldB ++ (fieldW ++ tail)))) 0 8 = some fieldA :=
    getBytes_append rfl (length_beBytes 8 _)
  have hB : getBytes (fieldA ++ (fieldB ++ (fieldW ++ tail))) 8 8 = some fieldB :=
    getBytes_append (length_beBytes 8 _) (length_beBytes 8 _)
  have hW : getBytes ((fieldA ++ fieldB) ++ (fieldW ++ tail)) 16 8 = some fieldW :=
    getBytes_append (by simp [hfieldA, hfieldB]) (length_beBytes 8 _)
  have hlength : ¬ (fieldA ++ (fieldB ++ (fieldW ++ tail))).length < 24 := by
    simp only [hfieldA, hfieldB, hfieldW, List.length_append, length_beBytes]
    omega
  rw [List.nil_append] at hA
  rw [List.append_assoc] at hW
  simp only [trait, if_neg hlength, hA, hB, hW, Option.bind_eq_bind, Option.bind_some]
  rw [hfieldA, hfieldB, hfieldW, u64FromBeBytes_beBytes, u64FromBeBytes_beBytes, u64FromBeBytes_beBytes]
  cases vals.fromPayload word <;> rfl

-- Collision data are read off the first 24 bytes; what follows does not matter.
theorem CollisionEvent.deserialize_eq_some_iff (vals : SymbolVals) (data : Bytes) (event : CollisionEvent) :
    (trait vals).deserialize data = some event ↔ ∃ (word : UInt64) (tail : Bytes),
      data = beBytes 8 event.entityA.toNat ++ (beBytes 8 event.entityB.toNat ++ (beBytes 8 word.toNat ++ tail)) ∧
      vals.fromPayload word = some event.collisionType := by
  constructor
  · intro hsome
    by_cases hshort : data.length < 24
    · simp only [trait, if_pos hshort, reduceCtorEq] at hsome
    · obtain ⟨entityA, tail, rfl, htail⟩ := exists_u64_append data (by omega)
      obtain ⟨entityB, tail, rfl, htail'⟩ := exists_u64_append tail (by omega)
      obtain ⟨word, tail, rfl, -⟩ := exists_u64_append tail (by omega)
      rw [deserialize_append, Option.map_eq_some_iff] at hsome
      obtain ⟨collisionType, hword, rfl⟩ := hsome
      exact ⟨word, tail, rfl, hword⟩
  · rintro ⟨word, tail, rfl, hword⟩
    rw [deserialize_append, hword]
    rfl

theorem CollisionEvent.serialize_append (vals : SymbolVals) (event : CollisionEvent) (tail : Bytes) :
    (trait vals).serialize event ++ tail = beBytes 8 event.entityA.toNat ++
      (beBytes 8 event.entityB.toNat ++ (beBytes 8 (vals.payload event.collisionType).toNat ++ tail)) := by
  simp only [trait, List.append_assoc]

theorem CollisionEvent.deserialize_serialize_append (vals : SymbolVals) (event : CollisionEvent) (tail : Bytes) :
    (trait vals).deserialize ((trait vals).serialize event ++ tail) = some event ↔
      vals.fromPayload (vals.payload event.collisionType) = some event.collisionType := by
  rw [serialize_append, deserialize_append, Option.map_eq_some_iff]
  constructor
  · rintro ⟨collisionType, hword, hevent⟩
    rw [hword, ← congrArg CollisionEvent.collisionType hevent]
  · exact fun hword => ⟨event.collisionType, hword, rfl⟩

theorem DamageEvent.deserialize_append (vals : SymbolVals) (targetEntity word : UInt64) (damageAmount : Int32)
    (tail : Bytes) :
    (trait vals).deserialize
        (beBytes 8 targetEntity.toNat ++
          (beBytes 4 damageAmount.toUInt32.toNat ++ (beBytes 8 word.toNat ++ tail))) =
      (vals.fromPayload word).map fun damageType => ⟨targetEntity, damageAmount, damageType⟩ := by
  set fieldT := beBytes 8 targetEntity.toNat with hfieldT
  set fieldD := beBytes 4 damageAmount.toUInt32.toNat with hfieldD
  set fieldW := beBytes 8 word.toNat with hfieldW
  have hT : getBytes ([] ++ (fieldT ++ (fieldD ++ (fieldW ++ tail)))) 0 8 = some fieldT :=
    getBytes_append rfl (length_beBytes 8 _)
  have hD : getBytes (fieldT ++ (fieldD ++ (fieldW ++ tail))) 8 4 = some fieldD :=
    getBytes_append (length_beBytes 8 _) (length_beBytes 4 _)
  have hW : getBytes ((fieldT ++ fieldD) ++ (fieldW ++ tail)) 12 8 = some fieldW :=
    getBytes_append (by simp [hfieldT, hfieldD]) (length_beBytes 8 _)
  have hlength : ¬ (fieldT ++ (fieldD ++ (fieldW ++ tail))).length < 20 := by
    simp only [hfieldT, hfieldD, hfieldW, List.length_append, length_beBytes]
    omega
  rw [List.nil_append] at hT
  rw [List.append_assoc] at hW
  simp only [trait, if_neg hlength, hT, hD, hW, Option.bind_eq_bind, Option.bind_some]
  rw [hfieldT, hfieldD, hfieldW, u64FromBeBytes_beBytes, i32FromBeBytes_beBytes, u64FromBeBytes_beBytes]
  cases vals.fromPayload word <;> rfl

theorem DamageEvent.deserialize_eq_some_iff (vals : SymbolVals) (data : Bytes) (event : DamageEvent) :
    (trait vals).deserialize data = some event ↔ ∃ (word : UInt64) (tail : Bytes),
      data = beBytes 8 event.targetEntity.toNat ++
        (beBytes 4 event.damageAmount.toUInt32.toNat ++ (beBytes 8 word.toNat ++ tail)) ∧
      vals.fromPayload word = some event.damageType := by
  constructor
  · intro hsome
    by_cases hshort : data.length < 20
    · simp only [trait, if_pos hshort, reduceCtorEq] at hsome
    · obtain ⟨targetEntity, tail, rfl, htail⟩ := exists_u64_append data (by omega)
      obtain ⟨damageAmount, tail, rfl, htail'⟩ := exists_i32_append tail (by omega)
      obtain ⟨word, tail, rfl, -⟩ := exists_u64_append tail (by omega)
      rw [deserialize_append, Option.map_eq_some_iff] at hsome
      obtain ⟨damageType, hword, rfl⟩ := hsome
      exact ⟨word, tail, rfl, hword⟩
  · rintro ⟨word, tail, rfl, hword⟩
    rw [deserialize_append, hword]
    rfl

theorem DamageEvent.serialize_append (vals : SymbolVals) (event : DamageEvent) (tail : Bytes) :
    (trait vals).serialize event ++ tail = beBytes 8 event.targetEntity.toNat ++
      (beBytes 4 event.damageAmount.toUInt32.toNat ++
        (beBytes 8 (vals.payload event.damageType).toNat ++ tail)) := by
  simp only [trait, List.append_assoc]

theorem DamageEvent.deserialize_serialize_append (vals : SymbolVals) (event : DamageEvent) (tail : Bytes) :
    (trait vals).deserialize ((trait vals).serialize event ++ tail) = some event ↔
      vals.fromPayload (vals.payload event.damageType) = some event.damageType := by
  rw [serialize_append, deserialize_append, Option.map_eq_some_iff]
  constructor
  · rintro ⟨damageType, hword, hevent⟩
    rw [hword, ← congrArg DamageEvent.damageType hevent]
  · exact fun hword => ⟨event.damageType, hword, rfl⟩

-- The decoders take exactly the strings that start with the fields of an event and a word that the host reads
-- as its type. An event comes back from its encoding, whatever follows, when the host knows its own symbols.
theorem event_codecs_exact (vals : SymbolVals) :
    (∀ event data, (CollisionEvent.trait vals).deserialize data = some event ↔ ∃ (word : UInt64) (tail : Bytes),
      data = beBytes 8 event.entityA.toNat ++ (beBytes 8 event.entityB.toNat ++ (beBytes 8 word.toNat ++ tail)) ∧
      vals.fromPayload word = some event.collisionType) ∧
    (∀ event data, (DamageEvent.trait vals).deserialize data = some event ↔ ∃ (word : UInt64) (tail : Bytes),
      data = beBytes 8 event.targetEntity.toNat ++
        (beBytes 4 event.damageAmount.toUInt32.toNat ++ (beBytes 8 word.toNat ++ tail)) ∧
      vals.fromPayload word = some event.damageType) ∧
    (∀ event tail, (CollisionEvent.trait vals).deserialize ((CollisionEvent.trait vals).serialize event ++ tail) =
      some event ↔ vals.fromPayload (vals.payload event.collisionType) = some event.collisionType) ∧
    ∀ event tail, (DamageEvent.trait vals).deserialize ((DamageEvent.trait vals).serialize event ++ tail) =
      some event ↔ vals.fromPayload (vals.payload event.damageType) = some event.damageType := by
  refine ⟨fun event data => ?_, fun event data => ?_, fun event tail => ?_, fun event tail => ?_⟩
  · exact CollisionEvent.deserialize_eq_some_iff vals data event
  · exact DamageEvent.deserialize_eq_some_iff vals data event
  · exact CollisionEvent.deserialize_serialize_append vals event tail
  · exact DamageEvent.deserialize_serialize_append vals event tail

end Codec

section Reader

inductive ReaderOp where
  | read
  | reset

-- What is left to be read.
def EventReader.unread (self : EventReader) : List Event :=
  (self.events.drop self.readIndex).filter fun event => event.eventType = self.eventType

def EventReader.step (self : EventReader) : ReaderOp → EventReader
  | .read => self.read.2
  | .reset => self.reset

-- How many events a reader has tried to read since it was last reset.
def readsSinceReset (ops : List ReaderOp) : Nat :=
  Transition.run (fun reads => fun
    | .read => reads + 1
    | .reset => 0) 0 ops

-- What one read does.
structure EventReader.Reads (reader : EventReader) (answer : Option Event) (next : EventReader) : Prop where
  head : answer = reader.unread.head?
  tail : next.unread = reader.unread.tail
  sameEvents : next.events = reader.events
  sameType : next.eventType = reader.eventType
  exhausted : answer = none → next.hasMore = false

theorem EventReader.reads_read (self : EventReader) : self.Reads self.read.1 self.read.2 := by
  fun_induction EventReader.read self with
  | case1 self h event next htype =>
      have hunread : self.unread = event :: next.unread := by
        rw [unread, List.drop_eq_getElem_cons h, List.filter_cons_of_pos (by simpa using htype)]
        rfl
      exact ⟨by rw [hunread]; rfl, by rw [hunread]; rfl, rfl, rfl, nofun⟩
  | case2 self h event next htype ih =>
      have hunread : self.unread = next.unread := by
        rw [unread, List.drop_eq_getElem_cons h, List.filter_cons_of_neg (by simpa using htype)]
        rfl
      exact ⟨hunread ▸ ih.head, hunread ▸ ih.tail, ih.sameEvents, ih.sameType, ih.exhausted⟩
  | case3 self h =>
      have hunread : self.unread = [] := by
        rw [unread, List.drop_eq_nil_of_le (Nat.le_of_not_lt h)]
        rfl
      exact ⟨by rw [hunread]; rfl, by rw [hunread]; rfl, rfl, rfl, fun _ => decide_eq_false h⟩

theorem reader_run (events : List Event) (eventType : Symbol) (ops : List ReaderOp) :
    let reader := Transition.run EventReader.step (EventReader.new events eventType) ops
    reader.unread = (events.filter fun event => event.eventType = eventType).drop (readsSinceReset ops) ∧
      reader.events = events ∧ reader.eventType = eventType := by
  induction ops using List.reverseRecOn with
  | nil => exact ⟨rfl, rfl, rfl⟩
  | append_singleton past op ih =>
      obtain ⟨hunread, hevents, htype⟩ := ih
      simp only [readsSinceReset, Transition.run_concat] at hunread ⊢
      cases op with
      | read =>
          have hreads := EventReader.reads_read (Transition.run EventReader.step (.new events eventType) past)
          refine ⟨?_, hreads.sameEvents.trans hevents, hreads.sameType.trans htype⟩
          exact hreads.tail.trans (by rw [hunread, List.tail_drop])
      | reset =>
          refine ⟨?_, hevents, htype⟩
          simp only [EventReader.step, EventReader.reset, EventReader.unread, hevents, htype, List.drop_zero]

-- A reader answers with the events of its type one after the other, and starts over when it is reset. Once it
-- answers with none it has passed all there is.
theorem read_after (events : List Event) (eventType : Symbol) (ops : List ReaderOp) :
    let reader := Transition.run EventReader.step (EventReader.new events eventType) ops
    reader.read.1 = (events.filter fun event => event.eventType = eventType)[readsSinceReset ops]? ∧
      (reader.read.1 = none → reader.read.2.hasMore = false) := by
  intro reader
  have hreads := reader.reads_read
  refine ⟨?_, hreads.exhausted⟩
  rw [hreads.head, (reader_run events eventType ops).1, List.head?_drop]

end Reader

end Cougr.Ecs
