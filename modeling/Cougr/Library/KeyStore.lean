import Mathlib.Logic.Function.Basic
import Mathlib.Data.List.Basic

-- A store that holds at most one value per key; the key fixes the type of its value.
def KeyStore {κ : Type*} (β : κ → Type*) : Type _ := (key : κ) → Option (β key)

namespace KeyStore

variable {κ : Type*} {β : κ → Type*}

def empty : KeyStore β := fun _ => none

def get (store : KeyStore β) (key : κ) : Option (β key) := store key

theorem get_empty (key : κ) : (empty : KeyStore β).get key = none := rfl

@[ext] theorem ext {first second : KeyStore β} (h : ∀ key, first.get key = second.get key) :
    first = second := funext h

-- A fold of writes none of which touches the key.
theorem get_foldl_of_unchanged {ι : Type*} {write : KeyStore β → ι → KeyStore β} {key : κ}
    {items : List ι} (hother : ∀ store, ∀ item ∈ items, (write store item).get key = store.get key)
    (store : KeyStore β) : (items.foldl write store).get key = store.get key := by
  induction items generalizing store with
  | nil => rfl
  | cons first rest ih =>
      rw [List.foldl_cons, ih fun store item hitem => hother store item (List.mem_cons_of_mem _ hitem)]
      exact hother store first List.mem_cons_self

-- A fold of writes of which only those for `target` touch the key. To write it twice is to
-- write it once.
theorem get_foldl_of_mem {ι : Type*} (write : KeyStore β → ι → KeyStore β) (key : κ) (target : ι)
    (f : Option (β key) → Option (β key)) (hidem : ∀ value, f (f value) = f value)
    (hother : ∀ store item, item ≠ target → (write store item).get key = store.get key)
    (htarget : ∀ store, (write store target).get key = f (store.get key))
    {items : List ι} (hmem : target ∈ items) (store : KeyStore β) :
    (items.foldl write store).get key = f (store.get key) := by
  induction items generalizing store with
  | nil => cases hmem
  | cons first rest ih =>
      rw [List.foldl_cons]
      by_cases hrest : target ∈ rest
      · rw [ih hrest]
        by_cases hfirst : first = target
        · rw [hfirst, htarget, hidem]
        · rw [hother store first hfirst]
      · have hfirst : target = first := (List.mem_cons.mp hmem).resolve_right hrest
        rw [get_foldl_of_unchanged fun store item hitem => hother store item fun h => hrest (h ▸ hitem),
          ← hfirst, htarget]

variable [DecidableEq κ]

def set (store : KeyStore β) (key : κ) (value : β key) : KeyStore β :=
  Function.update store key (some value)

def remove (store : KeyStore β) (key : κ) : KeyStore β :=
  Function.update store key none

@[simp] theorem get_set_self (store : KeyStore β) (key : κ) (value : β key) :
    (store.set key value).get key = some value := Function.update_self ..

@[simp] theorem get_set_of_ne (store : KeyStore β) {key other : κ} (value : β key)
    (h : other ≠ key) : (store.set key value).get other = store.get other :=
  Function.update_of_ne h ..

@[simp] theorem get_remove_self (store : KeyStore β) (key : κ) :
    (store.remove key).get key = none := Function.update_self ..

@[simp] theorem get_remove_of_ne (store : KeyStore β) {key other : κ} (h : other ≠ key) :
    (store.remove key).get other = store.get other := Function.update_of_ne h ..

theorem get_remove (store : KeyStore β) (key other : κ) :
    (store.remove key).get other = if other = key then none else store.get other := by
  split_ifs with h
  · subst h; simp
  · simp [h]

-- Removing keys one after the other clears exactly the listed ones.
theorem get_foldl_remove (keys : List κ) (store : KeyStore β) (key : κ) :
    (keys.foldl remove store).get key = if key ∈ keys then none else store.get key := by
  induction keys generalizing store with
  | nil => simp
  | cons first rest ih =>
      simp only [List.foldl_cons, ih, get_remove, List.mem_cons]
      by_cases hrest : key ∈ rest <;> by_cases hfirst : key = first <;> simp [hrest, hfirst]

end KeyStore
