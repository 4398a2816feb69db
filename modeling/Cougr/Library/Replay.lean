import Mathlib.Data.List.Basic

-- Copying the entries of one map into another, one write after the other.
namespace Replay

variable {κ ν World : Type*} [DecidableEq κ]

-- What a write does to a world that shows a partial map.
structure Writes (Inv : World → Prop) (get : World → κ → Option ν)
    (set : World → κ → ν → World) : Prop where
  keeps : ∀ world key value, Inv world → Inv (set world key value)
  shows : ∀ world key value, Inv world → ∀ other,
    get (set world key value) other = if other = key then some value else get world other

def replay (set : World → κ → ν → World) (start : World) (entries : List (κ × ν)) : World :=
  entries.foldl (fun world entry => set world entry.1 entry.2) start

-- The entries are those of the partial map, in any order and as often as it happens.
def Lists (entries : List (κ × ν)) (contents : κ → Option ν) : Prop :=
  ∀ key value, (key, value) ∈ entries ↔ contents key = some value

variable {Inv : World → Prop} {get : World → κ → Option ν} {set : World → κ → ν → World} {start : World}

theorem Writes.inv_replay (h : Writes Inv get set) (hstart : Inv start) (entries : List (κ × ν)) :
    Inv (replay set start entries) := by
  induction entries generalizing start with
  | nil => exact hstart
  | cons entry entries ih => exact ih (h.keeps start entry.1 entry.2 hstart)

theorem Writes.get_replay (h : Writes Inv get set) (hstart : Inv start) {entries : List (κ × ν)}
    {contents : κ → Option ν} (hentries : ∀ entry ∈ entries, contents entry.1 = some entry.2) (key : κ) :
    get (replay set start entries) key =
      if key ∈ entries.map Prod.fst then contents key else get start key := by
  induction entries generalizing start with
  | nil => simp [replay]
  | cons entry entries ih =>
      obtain ⟨hfirst, hrest⟩ := List.forall_mem_cons.mp hentries
      have hnext := ih (h.keeps start entry.1 entry.2 hstart) hrest
      rw [h.shows start entry.1 entry.2 hstart] at hnext
      rw [replay, List.foldl_cons, ← replay, hnext, List.map_cons]
      by_cases hlater : key ∈ entries.map Prod.fst
      · simp [hlater]
      · by_cases hhere : key = entry.1
        · simp [hhere, hfirst]
        · simp [hlater, hhere]

-- Copied into a world that shows nothing, a partial map is shown as it was.
theorem Writes.get_replay_of_lists (h : Writes Inv get set) (hstart : Inv start)
    (hempty : ∀ key, get start key = none) {entries : List (κ × ν)} {contents : κ → Option ν}
    (hlists : Lists entries contents) (key : κ) : get (replay set start entries) key = contents key := by
  rw [h.get_replay hstart (fun entry hentry => (hlists entry.1 entry.2).mp hentry)]
  split_ifs with hmem
  · rfl
  · rw [hempty]
    cases hcontents : contents key with
    | none => rfl
    | some value =>
        exact absurd (List.mem_map_of_mem (f := Prod.fst) ((hlists key value).mpr hcontents)) hmem

end Replay
