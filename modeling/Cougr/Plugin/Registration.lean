import Cougr.Plugin
import Mathlib.Data.Fintype.Card

namespace Cougr.PluginApp

variable {System OnAddHook OnRemoveHook ι : Type} {family : ι → Plugin System OnAddHook OnRemoveHook ι}
  {app after : PluginApp System OnAddHook OnRemoveHook} {calls : List (PluginCall ι)}

-- The plugins built, in order.
def built (calls : List (PluginCall ι)) : List ι :=
  calls.filterMap fun
    | .build plugin => some plugin
    | .addPlugin _ => none

-- Every new name is that of one plugin built, and whatever has been asked for is there.
structure RegistersOnce (family : ι → Plugin System OnAddHook OnRemoveHook ι)
    (app after : PluginApp System OnAddHook OnRemoveHook) (calls : List (PluginCall ι)) : Prop where
  nodup : after.pluginsRegistered.Nodup
  extended : app.pluginsRegistered <+: after.pluginsRegistered
  built_once : ∀ name, (built calls).countP (fun plugin => (family plugin).name = name) =
    if name ∈ after.pluginsRegistered ∧ name ∉ app.pluginsRegistered then 1 else 0
  requested : ∀ plugin, .addPlugin plugin ∈ calls → after.hasPlugin (family plugin).name

section Registers

-- The names grow by those of the plugins built.
structure Registers (family : ι → Plugin System OnAddHook OnRemoveHook ι)
    (app after : PluginApp System OnAddHook OnRemoveHook) (calls : List (PluginCall ι)) : Prop where
  grown : after.pluginsRegistered = app.pluginsRegistered ++ (built calls).map fun plugin => (family plugin).name
  requested : ∀ plugin, .addPlugin plugin ∈ calls → after.hasPlugin (family plugin).name

theorem hasPlugin_iff (app : PluginApp System OnAddHook OnRemoveHook) (name : String) :
    app.hasPlugin name ↔ name ∈ app.pluginsRegistered := List.contains_iff_mem

theorem Registers.kept (h : Registers family app after calls) :
    app.pluginsRegistered <+: after.pluginsRegistered := ⟨_, h.grown.symm⟩

theorem Registers.hasPlugin (h : Registers family app after calls) {name : String} (hname : app.hasPlugin name) :
    after.hasPlugin name :=
  (after.hasPlugin_iff name).mpr (h.kept.subset ((app.hasPlugin_iff name).mp hname))

theorem registers_refl (app : PluginApp System OnAddHook OnRemoveHook) : Registers family app app [] where
  grown := (List.append_nil _).symm
  requested _ hmem := absurd hmem List.not_mem_nil

theorem Registers.trans {middle : PluginApp System OnAddHook OnRemoveHook} {more : List (PluginCall ι)}
    (hfirst : Registers family app middle calls) (hmore : Registers family middle after more) :
    Registers family app after (calls ++ more) where
  grown := by
    have hbuilt : built (calls ++ more) = built calls ++ built more := List.filterMap_append
    rw [hmore.grown, hfirst.grown, hbuilt, List.map_append, List.append_assoc]
  requested plugin hmem := by
    rcases List.mem_append.mp hmem with hold | hnew
    · exact hmore.hasPlugin (hfirst.requested plugin hold)
    · exact hmore.requested plugin hnew

theorem pluginsRegistered_set (app : PluginApp System OnAddHook OnRemoveHook)
    (setting : Setting System OnAddHook OnRemoveHook) :
    (app.set setting).pluginsRegistered = app.pluginsRegistered := by
  cases setting <;> rfl

theorem registers_set (app : PluginApp System OnAddHook OnRemoveHook)
    (setting : Setting System OnAddHook OnRemoveHook) : Registers family app (app.set setting) [] where
  grown := (app.pluginsRegistered_set setting).trans (List.append_nil _).symm
  requested _ hmem := absurd hmem List.not_mem_nil

-- A plugin that is built is registered first, under a name that is new.
theorem registers_build {plugin : ι} (hnew : ¬app.hasPlugin (family plugin).name)
    (h : Registers family (app.register (family plugin).name hnew) after calls) :
    Registers family app after (.addPlugin plugin :: .build plugin :: calls) where
  grown := by
    rw [h.grown, register, List.append_assoc]
    rfl
  requested other hmem := by
    have hself : after.hasPlugin (family plugin).name := by
      apply h.hasPlugin
      rw [hasPlugin_iff, register]
      exact List.mem_concat_self
    simp only [List.mem_cons, PluginCall.addPlugin.injEq, reduceCtorEq, false_or] at hmem
    rcases hmem with rfl | hmem
    · exact hself
    · exact h.requested other hmem

-- No name is there twice, so the plugins built have new names, all different.
theorem Registers.once (h : Registers family app after calls) : RegistersOnce family app after calls where
  nodup := after.nodup
  extended := h.kept
  requested := h.requested
  built_once name := by
    have hnodup := after.nodup
    rw [h.grown] at hnodup
    obtain ⟨_, hnames, hdisjoint⟩ := List.nodup_append.mp hnodup
    have hnew : name ∈ (built calls).map (fun plugin => (family plugin).name) ↔
        name ∈ after.pluginsRegistered ∧ name ∉ app.pluginsRegistered := by
      rw [h.grown, List.mem_append]
      constructor
      · exact fun hmem => ⟨Or.inr hmem, fun hold => hdisjoint name hold name hmem rfl⟩
      · exact fun hmem => hmem.1.resolve_left hmem.2
    have hcount := hnames.count (a := name)
    rw [List.count, List.countP_map] at hcount
    simp only [hnew] at hcount
    exact hcount

end Registers

section Termination

variable [Fintype ι]

-- The names of the family that are still to be registered.
def unregistered (family : ι → Plugin System OnAddHook OnRemoveHook ι)
    (app : PluginApp System OnAddHook OnRemoveHook) : Finset String :=
  (Finset.univ.image fun plugin => (family plugin).name).filter fun name => name ∉ app.pluginsRegistered

theorem Registers.card_le (h : Registers family app after calls) :
    (unregistered family after).card ≤ (unregistered family app).card := by
  apply Finset.card_le_card
  intro name hname
  obtain ⟨hmember, hnew⟩ := Finset.mem_filter.mp hname
  exact Finset.mem_filter.mpr ⟨hmember, fun hold => hnew (h.kept.subset hold)⟩

theorem card_unregistered_register (plugin : ι) (hnew : ¬app.hasPlugin (family plugin).name) :
    (unregistered family (app.register (family plugin).name hnew)).card < (unregistered family app).card := by
  rw [hasPlugin_iff] at hnew
  apply Finset.card_lt_card
  refine Finset.ssubset_iff_of_subset ?_ |>.mpr ⟨(family plugin).name, ?_, ?_⟩
  · intro name hname
    obtain ⟨hmember, hout⟩ := Finset.mem_filter.mp hname
    exact Finset.mem_filter.mpr ⟨hmember, fun hold => hout (List.mem_append_left _ hold)⟩
  · exact Finset.mem_filter.mpr ⟨Finset.mem_image_of_mem _ (Finset.mem_univ plugin), hnew⟩
  · exact fun hname => (Finset.mem_filter.mp hname).2 (List.mem_append_right _ (List.mem_singleton_self _))

-- The call comes back, with one outcome for whatever room from `bound` on.
def Ends (family : ι → Plugin System OnAddHook OnRemoveHook ι) (bound : Nat)
    (app : PluginApp System OnAddHook OnRemoveHook) (plugin : ι) : Prop :=
  ∃ after calls, (∀ room, bound ≤ room → addPlugin family room app plugin = some (after, calls)) ∧
    Registers family app after calls ∧ .addPlugin plugin ∈ calls

omit [Fintype ι] in
theorem ends_of_registered (bound : Nat) {plugin : ι} (hregistered : app.hasPlugin (family plugin).name) :
    Ends family (bound + 1) app plugin := by
  refine ⟨app, [.addPlugin plugin], fun room hle => ?_, ⟨(List.append_nil _).symm, fun other hmem => ?_⟩,
    List.mem_singleton_self _⟩
  · obtain ⟨inner, rfl⟩ := Nat.exists_eq_add_of_le' (Nat.one_le_of_lt hle)
    exact dif_pos hregistered
  · cases List.mem_singleton.mp hmem
    exact hregistered

-- A build runs with one name less to register, so that its calls need less room.
theorem ends_of_build {bound : Nat} {plugin : ι} (hnew : ¬app.hasPlugin (family plugin).name)
    (hsmall : (unregistered family app).card ≤ bound)
    (hcalls : ∀ (app : PluginApp System OnAddHook OnRemoveHook) (other : ι),
      (unregistered family app).card < bound → Ends family bound app other) :
    Ends family (bound + 1) app plugin := by
  have hact : ∀ (app : PluginApp System OnAddHook OnRemoveHook) (setting : Setting System OnAddHook OnRemoveHook),
      (unregistered family app).card < bound →
        (unregistered family (app.set setting)).card < bound ∧ Registers family app (app.set setting) [] := by
    intro app setting h
    have hset : Registers family app (app.set setting) [] := registers_set app setting
    exact ⟨hset.card_le.trans_lt h, hset⟩
  have hcall : ∀ (app : PluginApp System OnAddHook OnRemoveHook) (other : ι),
      (unregistered family app).card < bound → ∃ after calls,
        (∀ room, bound ≤ room → addPlugin family room app other = some (after, calls)) ∧
          (unregistered family after).card < bound ∧ Registers family app after calls := by
    intro app other h
    obtain ⟨after, calls, hends, hregisters, _⟩ := hcalls app other h
    exact ⟨after, calls, hends, hregisters.card_le.trans_lt h, hregisters⟩
  have hstarted := (card_unregistered_register plugin hnew).trans_le hsmall
  obtain ⟨after, calls, hrun, _, hregisters⟩ :=
    Program.run_total registers_refl Registers.trans hact hcall (family plugin).build hstarted
  refine ⟨after, _, fun room hle => ?_, registers_build hnew hregisters, List.mem_cons_self⟩
  obtain ⟨inner, rfl⟩ := Nat.exists_eq_add_of_le' (Nat.one_le_of_lt hle)
  rw [addPlugin, dif_neg hnew, hrun inner (Nat.le_of_succ_le_succ hle)]
  rfl

theorem addPlugin_ends (bound : Nat) (app : PluginApp System OnAddHook OnRemoveHook) (plugin : ι)
    (hbound : (unregistered family app).card < bound) : Ends family bound app plugin := by
  induction bound generalizing app plugin with
  | zero => exact absurd hbound (Nat.not_lt_zero _)
  | succ bound ih =>
      by_cases hregistered : app.hasPlugin (family plugin).name
      · exact ends_of_registered bound hregistered
      · exact ends_of_build hregistered (Nat.le_of_lt_succ hbound) ih

-- However the builds call each other, no more calls are open at a time than there are names left and one.
theorem addPlugin_registers_once (family : ι → Plugin System OnAddHook OnRemoveHook ι)
    (app : PluginApp System OnAddHook OnRemoveHook) (plugin : ι) :
    ∃ after calls, (∀ room, (unregistered family app).card < room →
        addPlugin family room app plugin = some (after, calls)) ∧
      RegistersOnce family app after calls ∧ after.hasPlugin (family plugin).name := by
  obtain ⟨after, calls, hends, hregisters, hasked⟩ := addPlugin_ends _ app plugin (Nat.lt_succ_self _)
  exact ⟨after, calls, hends, hregisters.once, hregisters.requested plugin hasked⟩

end Termination

-- Two plugins that ask for each other and for themselves.
def pairOf (scoring : Bool) : Plugin Unit Unit Unit Bool where
  name := if scoring then "scoring" else "physics"
  build := .call (!scoring) (.call scoring .done)

example : (addPlugin pairOf 3 .new true).map (fun outcome => outcome.1.pluginsRegistered) =
    some ["scoring", "physics"] := rfl

end Cougr.PluginApp
