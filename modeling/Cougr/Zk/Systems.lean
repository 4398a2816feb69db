import Cougr.SimpleWorld.Presence
import Cougr.Library.FixedWidth

namespace Cougr.Zk

open FixedWidth SimpleWorld

def commitRevealType : Symbol := Symbol.new "zk_cr"

def verifiedMarkerType : Symbol := Symbol.new "zk_veri"

-- The bytes are unwrapped one by one, so that a missing one traps.
def readU64 (data : Bytes) (offset : Nat) : Option UInt64 := do
  let arr ← (List.range 8).mapM fun i => data[offset + i]?
  return UInt64.ofNat (beValue arr)

def readBool (data : Bytes) (offset : Nat) : Option Bool := do
  let byte ← data[offset]?
  return byte != 0

def encodeVerifiedMarker (verifiedAt : UInt64) : Bytes := beBytes 8 verifiedAt.toNat

def decodeVerifiedAt (data : Bytes) : Option UInt64 := readU64 data 0

def encodeCommitReveal (commitment : BytesN 32) (revealDeadline : UInt64) (revealed : Bool) : Bytes :=
  commitment.toList ++ beBytes 8 revealDeadline.toNat ++ [if revealed then 1 else 0]

-- One turn of the loops below: the component goes when what its data says has expired.
def sweepEntity (componentType : Symbol) (expired : Bytes → Option Bool) (world : SimpleWorld)
    (entityId : EntityId) : Option SimpleWorld :=
  match world.getComponent entityId componentType with
  | some data => do
    if ← expired data then return (world.removeComponent entityId componentType).2
    else return world
  | none => return world

-- The entities are listed before the first of them is looked at.
def sweep (componentType : Symbol) (expired : Bytes → Option Bool) (world : SimpleWorld) : Option SimpleWorld :=
  (world.getEntitiesWithComponent componentType).foldlM (sweepEntity componentType expired) world

def commitExpired (now : UInt64) (data : Bytes) : Option Bool := do
  let deadline ← readU64 data 32
  let revealed ← readBool data 40
  return !revealed && now > deadline

def commitRevealDeadlineSystem (world : SimpleWorld) (now : UInt64) : Option SimpleWorld :=
  sweep commitRevealType (commitExpired now) world

-- The age of a marker saturates at zero, as the difference of natural numbers does.
def markerExpired (now maxAge : UInt64) (data : Bytes) : Option Bool := do
  let verifiedAt ← readU64 data 0
  return now.toNat - verifiedAt.toNat > maxAge.toNat

def cleanupVerifiedSystem (world : SimpleWorld) (now maxAge : UInt64) : Option SimpleWorld :=
  sweep verifiedMarkerType (markerExpired now maxAge) world

section Codec

theorem mapM_of_forall_some {α β : Type} {f : α → Option β} {g : α → β} {items : List α}
    (h : ∀ item ∈ items, f item = some (g item)) : items.mapM f = some (items.map g) := by
  induction items with
  | nil => rfl
  | cons item items ih =>
      obtain ⟨hitem, hitems⟩ := List.forall_mem_cons.mp h
      rw [List.mapM_cons, hitem, ih hitems]
      rfl

theorem isSome_mapM_iff {α β : Type} {f : α → Option β} {items : List α} :
    (items.mapM f).isSome ↔ ∀ item ∈ items, (f item).isSome := by
  induction items with
  | nil => simp
  | cons item items ih =>
      rw [List.mapM_cons, List.forall_mem_cons, ← ih]
      cases f item with
      | none => simp
      | some value => cases items.mapM f <;> simp

theorem isSome_readU64_iff (data : Bytes) (offset : Nat) : (readU64 data offset).isSome ↔
    offset + 8 ≤ data.length := by
  have hbytes : (readU64 data offset).isSome = ((List.range 8).mapM fun i => data[offset + i]?).isSome := by
    rw [readU64]
    cases (List.range 8).mapM fun i => data[offset + i]? <;> rfl
  rw [hbytes, isSome_mapM_iff]
  simp only [List.mem_range, Option.isSome_iff_ne_none, ne_eq, List.getElem?_eq_none_iff, Nat.not_le]
  constructor
  · intro h
    exact h 7 (by decide)
  · intro h i hi
    omega

theorem isSome_readBool_iff (data : Bytes) (offset : Nat) : (readBool data offset).isSome ↔
    offset < data.length := by
  rw [readBool]
  cases hbyte : data[offset]? with
  | none => simpa using hbyte
  | some byte => simpa using (List.getElem?_eq_some_iff.mp hbyte).1

-- A number that was written behind `before` is read there.
theorem readU64_append (before after : Bytes) (value : UInt64) :
    readU64 (before ++ beBytes 8 value.toNat ++ after) before.length = some value := by
  have hbyte : ∀ i ∈ List.range 8, (before ++ beBytes 8 value.toNat ++ after)[before.length + i]? =
      some ((beBytes 8 value.toNat).getD i 0) := by
    intro i hi
    have hlt : i < (beBytes 8 value.toNat).length := by simpa using hi
    rw [List.append_assoc, List.getElem?_append_right (Nat.le_add_right _ _), Nat.add_sub_cancel_left,
      List.getElem?_append_left hlt, List.getD_eq_getElem?_getD, List.getElem?_eq_getElem hlt]
    rfl
  have hbytes : (List.range 8).map ((beBytes 8 value.toNat).getD · 0) = beBytes 8 value.toNat := by
    apply List.ext_getElem
    · simp
    · intro i _ hi
      rw [List.getElem_map, List.getElem_range, List.getD_eq_getElem?_getD, List.getElem?_eq_getElem hi,
        Option.getD_some]
  have hvalue : value.toNat % 256 ^ 8 = value.toNat := Nat.mod_eq_of_lt value.toNat_lt
  rw [readU64, mapM_of_forall_some hbyte, hbytes]
  simp only [Option.bind_eq_bind, Option.bind_some, beValue_beBytes, hvalue, UInt64.ofNat_toNat]
  rfl

theorem readBool_append (before : Bytes) (value : Bool) :
    readBool (before ++ [if value then 1 else 0]) before.length = some value := by
  rw [readBool, List.getElem?_concat_length]
  cases value <;> rfl

theorem decodeVerifiedAt_encode (verifiedAt : UInt64) :
    decodeVerifiedAt (encodeVerifiedMarker verifiedAt) = some verifiedAt := by
  have hread := readU64_append [] [] verifiedAt
  rwa [List.nil_append, List.append_nil] at hread

theorem markerExpired_encode (now maxAge verifiedAt : UInt64) :
    markerExpired now maxAge (encodeVerifiedMarker verifiedAt) =
      some (decide (now.toNat - verifiedAt.toNat > maxAge.toNat)) := by
  have hread : readU64 (encodeVerifiedMarker verifiedAt) 0 = some verifiedAt := decodeVerifiedAt_encode verifiedAt
  rw [markerExpired, hread]
  rfl

theorem commitExpired_encode (now : UInt64) (commitment : BytesN 32) (revealDeadline : UInt64) (revealed : Bool) :
    commitExpired now (encodeCommitReveal commitment revealDeadline revealed) =
      some (!revealed && now > revealDeadline) := by
  have hcommitment : commitment.toList.length = 32 := by simp
  have hboth : (commitment.toList ++ beBytes 8 revealDeadline.toNat).length = 40 := by simp
  have hdeadline := readU64_append commitment.toList [if revealed then 1 else 0] revealDeadline
  have hrevealed := readBool_append (commitment.toList ++ beBytes 8 revealDeadline.toNat) revealed
  rw [hcommitment] at hdeadline
  rw [hboth] at hrevealed
  rw [commitExpired, encodeCommitReveal, hdeadline, hrevealed]
  rfl

theorem isSome_commitExpired_iff (now : UInt64) (data : Bytes) : (commitExpired now data).isSome ↔
    41 ≤ data.length := by
  have hdeadline := isSome_readU64_iff data 32
  have hrevealed := isSome_readBool_iff data 40
  rw [commitExpired]
  cases hread : readU64 data 32 with
  | none =>
      rw [hread] at hdeadline
      refine iff_of_false (by simp) fun h => Bool.false_ne_true (hdeadline.mpr (by omega))
  | some deadline =>
      cases hbool : readBool data 40 with
      | none =>
          rw [hbool] at hrevealed
          refine iff_of_false (by simp) fun h => Bool.false_ne_true (hrevealed.mpr h)
      | some revealed =>
          rw [hbool] at hrevealed
          exact iff_of_true rfl (hrevealed.mp rfl)

theorem isSome_markerExpired_iff (now maxAge : UInt64) (data : Bytes) :
    (markerExpired now maxAge data).isSome ↔ 8 ≤ data.length := by
  have hread : (markerExpired now maxAge data).isSome = (readU64 data 0).isSome := by
    rw [markerExpired]
    cases readU64 data 0 <;> rfl
  rw [hread, isSome_readU64_iff, Nat.zero_add]

end Codec

end Cougr.Zk
