import Mathlib

namespace Cougr

-- The host accepts at most 32 letters, digits and underscores in a symbol.
def validSymbol (text : String) : Bool :=
  text.length ≤ 32 && text.toList.all fun c => c.isAlphanum || c == '_'

structure Symbol where
  text : String
  valid : validSymbol text = true

def Symbol.new (text : String) (valid : validSymbol text = true := by decide) : Symbol :=
  ⟨text, valid⟩

def symbolShort (text : String) (valid : validSymbol text = true := by decide) : Symbol :=
  ⟨text, valid⟩

theorem Symbol.text_injective : Function.Injective Symbol.text := by
  rintro ⟨first, _⟩ ⟨second, _⟩ rfl
  rfl

instance : LinearOrder Symbol := LinearOrder.lift' Symbol.text Symbol.text_injective

instance : Std.LawfulEqOrd Symbol where
  eq_of_compare h := compare_eq_iff_eq.mp h

-- Lists of symbols are searched everywhere; the search finds this instance at once.
instance : LawfulBEq Symbol := inferInstance

abbrev Bytes := List UInt8

abbrev BytesN (n : Nat) := Vector UInt8 n

inductive Address where
  | account (key : BytesN 32)
  | contract (hash : BytesN 32)
  deriving DecidableEq

-- Host tuples are compared component by component.
instance instOrdProd {α β : Type} [Ord α] [Ord β] : Ord (α × β) := lexOrd

-- The host's map: sorted by key, one value per key.
def Map (κ ν : Type) [Ord κ] : Type := Std.ExtTreeMap κ ν compare

namespace Map

variable {κ ν : Type} [Ord κ] [Std.TransOrd κ]

def new : Map κ ν := (∅ : Std.ExtTreeMap κ ν compare)

def get (map : Map κ ν) (key : κ) : Option ν := Std.ExtTreeMap.get? map key

def set (map : Map κ ν) (key : κ) (value : ν) : Map κ ν := Std.ExtTreeMap.insert map key value

def erase (map : Map κ ν) (key : κ) : Map κ ν := Std.ExtTreeMap.erase map key

def containsKey (map : Map κ ν) (key : κ) : Bool := Std.ExtTreeMap.contains map key

-- `remove` also tells whether there was an entry.
def remove (map : Map κ ν) (key : κ) : Option Unit × Map κ ν :=
  (if map.containsKey key then some () else none, map.erase key)

def keys (map : Map κ ν) : List κ := Std.ExtTreeMap.keys map

def len (map : Map κ ν) : Nat := Std.ExtTreeMap.size map

@[simp] theorem get_new (key : κ) : (new : Map κ ν).get key = none :=
  Std.ExtTreeMap.getElem?_empty

theorem containsKey_eq_isSome (map : Map κ ν) (key : κ) :
    map.containsKey key = (map.get key).isSome := Std.ExtTreeMap.contains_eq_isSome_getElem?

@[simp] theorem get_set_self (map : Map κ ν) (key : κ) (value : ν) :
    (map.set key value).get key = some value := Std.ExtTreeMap.getElem?_insert_self

@[simp] theorem get_erase_self (map : Map κ ν) (key : κ) : (map.erase key).get key = none :=
  Std.ExtTreeMap.getElem?_erase_self

theorem keys_sorted (map : Map κ ν) : map.keys.Pairwise (compare · · = .lt) :=
  Std.ExtTreeMap.ordered_keys

theorem nodup_keys (map : Map κ ν) : map.keys.Nodup := Std.ExtTreeMap.nodup_keys

variable [Std.LawfulEqOrd κ]

theorem get_set [DecidableEq κ] (map : Map κ ν) (key other : κ) (value : ν) :
    (map.set key value).get other = if other = key then some value else map.get other := by
  simp only [eq_comm (a := other), ← @Std.LawfulEqCmp.compare_eq_iff_eq κ compare _ key]
  exact Std.ExtTreeMap.getElem?_insert

theorem get_erase [DecidableEq κ] (map : Map κ ν) (key other : κ) :
    (map.erase key).get other = if other = key then none else map.get other := by
  simp only [eq_comm (a := other), ← @Std.LawfulEqCmp.compare_eq_iff_eq κ compare _ key]
  exact Std.ExtTreeMap.getElem?_erase

theorem mem_keys (map : Map κ ν) (key : κ) : key ∈ map.keys ↔ (map.get key).isSome := by
  rw [← containsKey_eq_isSome]
  exact Std.ExtTreeMap.mem_keys

@[ext] theorem ext {first second : Map κ ν} (h : ∀ key, first.get key = second.get key) :
    first = second := Std.ExtTreeMap.ext_getElem? h

-- Erasing keys one after the other clears exactly the listed ones.
theorem get_foldl_erase [DecidableEq κ] {ι : Type} (key : ι → κ) (items : List ι) (map : Map κ ν)
    (other : κ) :
    (items.foldl (fun m item => m.erase (key item)) map).get other =
      if other ∈ items.map key then none else map.get other := by
  induction items generalizing map with
  | nil => simp
  | cons first rest ih =>
      simp only [List.foldl_cons, ih, get_erase, List.map_cons, List.mem_cons]
      by_cases hrest : other ∈ rest.map key <;> by_cases hfirst : other = key first <;>
        simp [hrest, hfirst]

end Map

end Cougr
