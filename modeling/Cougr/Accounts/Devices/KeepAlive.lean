import Cougr.Accounts.Devices.Theorems

namespace Cougr.Accounts.DeviceManager

open DeviceStorage Transition

-- Ledger time does not go back and stays within a `u64`.
def Onward (env : Env) : Use → Prop
  | .invoke timestamp => env.timestamp ≤ timestamp ∧ timestamp ≤ u64Max
  | _ => True

instance (env : Env) : DecidablePred (Onward env)
  | .invoke timestamp => inferInstanceAs (Decidable (env.timestamp ≤ timestamp ∧ timestamp ≤ u64Max))
  | .registerDevice _ _ => inferInstanceAs (Decidable True)
  | .revokeDevice _ => inferInstanceAs (Decidable True)
  | .updateLastUsed _ => inferInstanceAs (Decidable True)
  | .cleanupInactive => inferInstanceAs (Decidable True)

-- A cleanup at this moment leaves every active record of the key active.
def Spares (self : DeviceManager) (env : Env) (keyId : BytesN 32) : Prop :=
  ∀ (i : Nat) (d : DeviceKey), (self.listDevices env)[i]? = some d → holds keyId d →
    ∃ d', (self.listDevices (self.cleanupInactive env).2)[i]? = some d' ∧ d'.isActive = true

-- After an update now and whatever uses of the devices follow, a cleanup within the period spares the key.
def KeepsAlive (self : DeviceManager) (env : Env) (keyId : BytesN 32) : Prop :=
  (self.updateLastUsed env keyId).1 = .ok () →
    ∀ more, StepsMeet self.use Onward (self.updateLastUsed env keyId).2 more →
      (run self.use (self.updateLastUsed env keyId).2 more).timestamp - env.timestamp ≤
        (self.policy (run self.use (self.updateLastUsed env keyId).2 more)).autoRevokeAfter →
      Spares self (run self.use (self.updateLastUsed env keyId).2 more) keyId

-- The last moment of the period that starts now.
def periodEnd (policy : DevicePolicy) (now : Nat) : Nat := min (now + policy.autoRevokeAfter) u64Max

-- The update reaches the first record of the key only. An active one behind it has to last on its own.
def ReachesActive (policy : DevicePolicy) (now : Nat) (devices : List DeviceKey) (keyId : BytesN 32) : Prop :=
  policy.autoRevokeAfter = 0 ∨ ∀ d ∈ (devices.filter fun d => d.keyId = keyId).tail, d.isActive = true →
    periodEnd policy now ≤ d.lastUsed + policy.autoRevokeAfter

section Cleanup

variable (self : DeviceManager) {env : Env} {policy : DevicePolicy}

theorem cleanupInactive_off (hpolicy : loadPolicy env self.address = some policy)
    (hoff : policy.autoRevokeAfter = 0) : (self.cleanupInactive env).2 = env := by
  unfold cleanupInactive
  simp only [hpolicy, Option.getD_some, if_pos hoff]

theorem stale_iff_of_holds {keyId : BytesN 32} {d : DeviceKey} (hholds : holds keyId d)
    (now autoRevokeAfter : Nat) :
    stale now autoRevokeAfter d = true ↔ d.lastUsed + autoRevokeAfter < now := by
  rw [stale, (Bool.and_eq_true_iff.mp hholds).2, Bool.true_and, decide_eq_true_eq]
  omega

theorem spares_iff (hpolicy : loadPolicy env self.address = some policy) (keyId : BytesN 32) :
    Spares self env keyId ↔ policy.autoRevokeAfter = 0 ∨
      ∀ d ∈ self.listDevices env, holds keyId d → env.timestamp ≤ d.lastUsed + policy.autoRevokeAfter := by
  by_cases hoff : policy.autoRevokeAfter = 0
  · refine iff_of_true (fun i d hd hholds => ?_) (Or.inl hoff)
    rw [self.cleanupInactive_off hpolicy hoff]
    exact ⟨d, hd, (Bool.and_eq_true_iff.mp hholds).2⟩
  · rw [or_iff_right hoff, Spares, (self.cleanupInactive_spec hpolicy (Nat.pos_of_ne_zero hoff)).2]
    constructor
    · intro hspares d hd hholds
      obtain ⟨i, hi⟩ := List.mem_iff_getElem?.mp hd
      obtain ⟨d', hd', hactive⟩ := hspares i d hi hholds
      rw [List.getElem?_map, hi, Option.map_some, Option.some.injEq] at hd'
      rw [← hd'] at hactive
      by_contra hlate
      have hstale := (stale_iff_of_holds hholds env.timestamp policy.autoRevokeAfter).mpr (Nat.lt_of_not_le hlate)
      rw [deactivate, if_pos hstale] at hactive
      cases hactive
    · intro hrecent i d hi hholds
      have hd := hrecent d (List.mem_of_getElem? hi) hholds
      have hkept : ¬stale env.timestamp policy.autoRevokeAfter d = true :=
        fun hstale => Nat.not_lt_of_le hd ((stale_iff_of_holds hholds ..).mp hstale)
      refine ⟨d, ?_, (Bool.and_eq_true_iff.mp hholds).2⟩
      rw [List.getElem?_map, hi, Option.map_some, deactivate, if_neg hkept]

end Cleanup

section Uses

variable (self : DeviceManager) {env : Env} {policy : DevicePolicy}

theorem timestamp_updateDevice (env : Env) (account : Address) (keyId : BytesN 32)
    (updater : DeviceKey → DeviceKey) :
    (updateDevice env account keyId updater).2.timestamp = env.timestamp := by
  unfold updateDevice
  dsimp only
  split_ifs <;> rfl

-- Time passes between invocations only.
theorem timestamp_use (env : Env) (input : Use) : (self.use env input).timestamp =
    match input with
    | .invoke timestamp => timestamp
    | _ => env.timestamp := by
  cases input with
  | invoke timestamp => rfl
  | registerDevice keyId deviceName =>
      rw [use, registerDevice]
      split
      · rfl
      · dsimp only
        split_ifs <;> rfl
  | revokeDevice keyId => exact timestamp_updateDevice ..
  | updateLastUsed keyId => exact timestamp_updateDevice ..
  | cleanupInactive =>
      rw [use, cleanupInactive]
      dsimp only
      split_ifs <;> rfl

theorem Onward.timestamp_use {input : Use} (honward : Onward env input) (hbounded : env.timestamp ≤ u64Max) :
    env.timestamp ≤ (self.use env input).timestamp ∧ (self.use env input).timestamp ≤ u64Max := by
  rw [DeviceManager.timestamp_use]
  cases input with
  | invoke timestamp => exact honward
  | _ => exact ⟨le_rfl, hbounded⟩

-- An active record was active before with the same last use, or it has been used right now.
theorem active_after_use (hpolicy : loadPolicy env self.address = some policy) (input : Use) {d : DeviceKey}
    (hd : d ∈ self.listDevices (self.use env input)) (hactive : d.isActive = true) :
    (∃ old ∈ self.listDevices env, old.keyId = d.keyId ∧ old.isActive = true ∧ old.lastUsed = d.lastUsed) ∨
      d.lastUsed = env.timestamp := by
  have hkept : d ∈ self.listDevices env → ∃ old ∈ self.listDevices env,
      old.keyId = d.keyId ∧ old.isActive = true ∧ old.lastUsed = d.lastUsed :=
      fun hold => ⟨d, hold, rfl, hactive, rfl⟩
  cases input with
  | invoke timestamp => exact Or.inl (hkept hd)
  | registerDevice keyId deviceName =>
      rw [use, registerDevice, hpolicy] at hd
      dsimp only at hd
      split_ifs at hd
      · exact Or.inl (hkept hd)
      · exact Or.inl (hkept hd)
      · rw [listDevices, loadDevices_storeDevices] at hd
        rcases List.mem_append.mp hd with hold | hnew
        · exact Or.inl (hkept hold)
        · rw [List.mem_singleton.mp hnew]
          exact Or.inr rfl
  | revokeDevice keyId =>
      rw [use, listDevices_revokeDevice] at hd
      rcases KeyedList.mem_modifyFirst hd with hold | ⟨old, _, rfl⟩
      · exact Or.inl (hkept hold)
      · cases hactive
  | updateLastUsed keyId =>
      rw [use, updateLastUsed, listDevices, loadDevices_updateDevice] at hd
      rcases KeyedList.mem_modifyFirst hd with hold | ⟨old, _, rfl⟩
      · exact Or.inl (hkept hold)
      · exact Or.inr rfl
  | cleanupInactive =>
      by_cases hoff : policy.autoRevokeAfter = 0
      · rw [use, self.cleanupInactive_off hpolicy hoff] at hd
        exact Or.inl (hkept hd)
      · rw [use, (self.cleanupInactive_spec hpolicy (Nat.pos_of_ne_zero hoff)).2] at hd
        obtain ⟨old, hold, rfl⟩ := List.mem_map.mp hd
        unfold deactivate at hactive ⊢
        split_ifs at hactive ⊢
        exact Or.inl ⟨old, hold, rfl, hactive, rfl⟩

end Uses

section Period

variable {self : DeviceManager} {env : Env} {policy : DevicePolicy} {keyId : BytesN 32}

-- From `start` on, the active records of the key last until `limit`.
structure LastsUntil (manager : DeviceManager) (policy : DevicePolicy) (keyId : BytesN 32) (start limit : Nat)
    (env : Env) : Prop where
  loaded : loadPolicy env manager.address = some policy
  onward : start ≤ env.timestamp
  bounded : env.timestamp ≤ u64Max
  lasts : ∀ d ∈ manager.listDevices env, holds keyId d → limit ≤ d.lastUsed + policy.autoRevokeAfter

theorem lastsUntil_use {start limit : Nat} (h : LastsUntil self policy keyId start limit env)
    (hlimit : limit ≤ start + policy.autoRevokeAfter) {input : Use} (honward : Onward env input) :
    LastsUntil self policy keyId start limit (self.use env input) where
  loaded := (self.use_cases h.loaded input).1
  onward := h.onward.trans (honward.timestamp_use self h.bounded).1
  bounded := (honward.timestamp_use self h.bounded).2
  lasts := by
    intro d hd hholds
    obtain ⟨hkey, hactive⟩ := Bool.and_eq_true_iff.mp hholds
    rcases self.active_after_use h.loaded input hd hactive with ⟨old, hold, hsame, hwas, hused⟩ | hused
    · have holdHolds : holds keyId old := by
        rw [holds, hsame, hwas, Bool.and_true]
        exact hkey
      exact hused ▸ h.lasts old hold holdHolds
    · have hstart := h.onward
      omega

theorem listDevices_updateLastUsed (self : DeviceManager) (env : Env) (keyId : BytesN 32) :
    self.listDevices (self.updateLastUsed env keyId).2 =
      KeyedList.modifyFirst DeviceKey.keyId keyId (fun d => { d with lastUsed := env.timestamp })
        (self.listDevices env) := loadDevices_updateDevice ..

theorem filter_updateLastUsed (self : DeviceManager) (env : Env) (keyId : BytesN 32) :
    (self.listDevices (self.updateLastUsed env keyId).2).filter (fun d => d.keyId = keyId) =
      ((self.listDevices env).filter fun d => d.keyId = keyId).modifyHead
        fun d => { d with lastUsed := env.timestamp } := by
  rw [listDevices_updateLastUsed]
  apply KeyedList.filter_modifyFirst
  exact fun _ => rfl

theorem mem_filter_iff_holds {devices : List DeviceKey} {d : DeviceKey} (hactive : d.isActive = true) :
    d ∈ devices.filter (fun d => d.keyId = keyId) ↔ d ∈ devices ∧ holds keyId d := by
  rw [List.mem_filter, holds, hactive, Bool.and_true]

-- The records of the key after the update: the first one used now, the others as they were.
theorem lastsUntil_updateLastUsed (hpolicy : loadPolicy env self.address = some policy)
    (hbounded : env.timestamp ≤ u64Max) (hon : policy.autoRevokeAfter ≠ 0)
    (hreaches : ReachesActive policy env.timestamp (self.listDevices env) keyId) :
    LastsUntil self policy keyId env.timestamp (periodEnd policy env.timestamp)
      (self.updateLastUsed env keyId).2 where
  loaded := (self.use_cases hpolicy (.updateLastUsed keyId)).1
  onward := (timestamp_updateDevice ..).ge
  bounded := (timestamp_updateDevice ..).trans_le hbounded
  lasts := by
    intro d hd hholds
    have hactive := (Bool.and_eq_true_iff.mp hholds).2
    have hd := (mem_filter_iff_holds hactive).mpr ⟨hd, hholds⟩
    have hbehind := hreaches.resolve_left hon
    rw [filter_updateLastUsed] at hd
    cases hrecords : (self.listDevices env).filter fun d => d.keyId = keyId with
    | nil =>
        rw [hrecords] at hd
        cases hd
    | cons first rest =>
        rw [hrecords] at hd hbehind
        rcases List.mem_cons.mp hd with hfirst | hrest
        · rw [hfirst]
          exact Nat.min_le_left _ _
        · exact hbehind d hrest hactive

theorem keepsAlive_of_reaches (hpolicy : loadPolicy env self.address = some policy)
    (hbounded : env.timestamp ≤ u64Max)
    (hreaches : ReachesActive policy env.timestamp (self.listDevices env) keyId) : KeepsAlive self env keyId := by
  intro _ more honward hperiod
  have hlimit : periodEnd policy env.timestamp ≤ env.timestamp + policy.autoRevokeAfter := Nat.min_le_left _ _
  by_cases hoff : policy.autoRevokeAfter = 0
  · have hstill : loadPolicy (run self.use (self.updateLastUsed env keyId).2 more) self.address = some policy :=
      run_invariant_of_step (fun env => loadPolicy env self.address = some policy)
        (fun _ input h => (self.use_cases h input).1) (self.use_cases hpolicy (.updateLastUsed keyId)).1 more
    exact (self.spares_iff hstill keyId).mpr (Or.inl hoff)
  · let Lasts := LastsUntil self policy keyId env.timestamp (periodEnd policy env.timestamp)
    have hstep : ∀ before input, Lasts before → Onward before input → Lasts (self.use before input) :=
      fun _ _ hlasts hok => lastsUntil_use hlasts hlimit hok
    have hafter := run_invariant Lasts hstep
        (lastsUntil_updateLastUsed hpolicy hbounded hoff hreaches) more honward
    rw [DeviceManager.policy, hafter.loaded, Option.getD_some] at hperiod
    refine (self.spares_iff hafter.loaded keyId).mpr (Or.inr fun d hd hholds => ?_)
    have hlasts := hafter.lasts d hd hholds
    have hend := hafter.bounded
    unfold periodEnd at hlasts
    omega

-- At the last moment of the period a cleanup deactivates what the update has not reached.
theorem reaches_of_keepsAlive (hpolicy : loadPolicy env self.address = some policy)
    (hbounded : env.timestamp ≤ u64Max) (halive : KeepsAlive self env keyId) :
    ReachesActive policy env.timestamp (self.listDevices env) keyId := by
  refine or_iff_not_imp_left.mpr fun hon d hd hactive => ?_
  let updated := (self.updateLastUsed env keyId).2
  have htime : updated.timestamp = env.timestamp := timestamp_updateDevice ..
  have hstill : loadPolicy (updated.atTime (periodEnd policy env.timestamp)) self.address = some policy :=
    (self.use_cases hpolicy (.updateLastUsed keyId)).1
  have hfound : (self.updateLastUsed env keyId).1 = .ok () := by
    obtain ⟨hmem, hkey⟩ := List.mem_filter.mp (List.mem_of_mem_tail hd)
    exact (updateDevice_ok_iff ..).mpr ⟨d, hmem, of_decide_eq_true hkey⟩
  have hspares : Spares self (updated.atTime (periodEnd policy env.timestamp)) keyId := by
    apply halive hfound [.invoke (periodEnd policy env.timestamp)]
    · refine ⟨⟨?_, Nat.min_le_right _ _⟩, trivial⟩
      rw [htime]
      exact Nat.le_min.mpr ⟨Nat.le_add_right _ _, hbounded⟩
    · have hpolicy' : (self.policy (updated.atTime (periodEnd policy env.timestamp))) = policy := by
        rw [DeviceManager.policy, hstill, Option.getD_some]
      simp only [run_cons, run_nil, use]
      rw [hpolicy', Env.timestamp_atTime, periodEnd]
      omega
  have hafter : d ∈ (self.listDevices updated).filter fun d => d.keyId = keyId := by
    rw [filter_updateLastUsed]
    apply List.mem_of_mem_tail
    rwa [List.tail_modifyHead]
  obtain ⟨hmem, hholds⟩ := (mem_filter_iff_holds hactive).mp hafter
  exact ((self.spares_iff hstill keyId).mp hspares).resolve_left hon d hmem hholds

end Period

-- In every state that a run reaches, an update keeps the key alive exactly when no active record of it is
-- left behind an older one without lasting as long by itself.
theorem keepsAlive_iff_reaches (address : Address) (policy : DevicePolicy) (env : Env) (uses : List Use)
    (keyId : BytesN 32) (hstart : env.timestamp ≤ u64Max)
    (honward : StepsMeet (new address policy env).1.use Onward (new address policy env).2 uses) :
    KeepsAlive (new address policy env).1 (inUse address policy env uses) keyId ↔
      ReachesActive policy (inUse address policy env uses).timestamp
        ((new address policy env).1.listDevices (inUse address policy env uses)) keyId := by
  have hpolicy := (registry_inUse address policy env uses).1
  have hinit : (new address policy env).2.timestamp ≤ u64Max := hstart
  have hbounded : (inUse address policy env uses).timestamp ≤ u64Max :=
    run_invariant (fun env : Env => env.timestamp ≤ u64Max)
      (fun _ _ h hok => (Onward.timestamp_use (new address policy env).1 hok h).2) hinit uses honward
  exact ⟨reaches_of_keepsAlive hpolicy hbounded, keepsAlive_of_reaches hpolicy hbounded⟩

def tablet : BytesN 32 := Vector.replicate 32 9

-- Cleanups deactivate what has not been used for more than ten seconds.
def tenSeconds : DevicePolicy := { maxDevices := 3, autoRevokeAfter := 10 }

def registeredTablet : List Use := [.registerDevice tablet (symbolShort "tablet"), .invoke 8]

def registeredAnew : List Use :=
  [.registerDevice tablet (symbolShort "tablet"), .revokeDevice tablet,
    .registerDevice tablet (symbolShort "tablet"), .invoke 8]

theorem registered_tablet_kept_alive :
    KeepsAlive (new owner tenSeconds (Env.fresh 0)).1
    (inUse owner tenSeconds (Env.fresh 0) registeredTablet) tablet := by
  refine (keepsAlive_iff_reaches owner tenSeconds (Env.fresh 0) registeredTablet tablet ?_ ?_).mpr ?_
  · decide
  · decide
  · exact Or.inr (by decide)

-- The tablet is registered, revoked and registered again, used at time 8 and cleaned up at time 15.
theorem used_tablet_cleaned_up :
    ¬KeepsAlive (new owner tenSeconds (Env.fresh 0)).1
    (inUse owner tenSeconds (Env.fresh 0) registeredAnew) tablet := by
  intro halive
  obtain ⟨d', hd', hactive⟩ := halive (by decide) [.invoke 15] (by decide) (by decide) 1
    ⟨tablet, symbolShort "tablet", 0, 0, true⟩ (by decide) (by decide)
  have hnow : d' = ⟨tablet, symbolShort "tablet", 0, 0, false⟩ := Option.some.inj (hd'.symm.trans (by decide))
  rw [hnow] at hactive
  cases hactive

end Cougr.Accounts.DeviceManager
