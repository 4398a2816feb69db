import Cougr.Reactive
import Cougr.Library.Program

namespace Cougr

-- A system is a function pointer; the scheduler keeps it under its name.
structure SimpleScheduler (System : Type) where
  systems : List (String × System)

namespace SimpleScheduler

variable {System : Type}

def new : SimpleScheduler System := ⟨[]⟩

def addSystem (self : SimpleScheduler System) (name : String) (system : System) : SimpleScheduler System :=
  ⟨self.systems ++ [(name, system)]⟩

end SimpleScheduler

-- The names are private to the app, which starts without any and adds none twice.
structure PluginApp (System OnAddHook OnRemoveHook : Type) where
  world : SimpleWorld
  scheduler : SimpleScheduler System
  hooks : HookRegistry OnAddHook OnRemoveHook
  pluginsRegistered : List String
  nodup : pluginsRegistered.Nodup

-- What a plugin sets up in the app besides other plugins.
inductive Setting (System OnAddHook OnRemoveHook : Type) where
  | addSystem (name : String) (system : System)
  | addHookOnAdd (componentType : Symbol) (hook : OnAddHook)
  | addHookOnRemove (componentType : Symbol) (hook : OnRemoveHook)
  | worldMut (edit : SimpleWorld → SimpleWorld)

-- `build` is code of the plugin's author. It sets up the app, may read all of it on the way, and adds plugins.
structure Plugin (System OnAddHook OnRemoveHook ι : Type) where
  name : String
  build : Program (PluginApp System OnAddHook OnRemoveHook) (Setting System OnAddHook OnRemoveHook) ι

-- A call of `add_plugin` or of `build`.
inductive PluginCall (ι : Type) where
  | addPlugin (plugin : ι)
  | build (plugin : ι)

namespace PluginApp

variable {System OnAddHook OnRemoveHook ι : Type}

def withWorld (world : SimpleWorld) : PluginApp System OnAddHook OnRemoveHook where
  world := world
  scheduler := .new
  hooks := .new
  pluginsRegistered := []
  nodup := List.nodup_nil

def new : PluginApp System OnAddHook OnRemoveHook := withWorld .new

def hasPlugin (self : PluginApp System OnAddHook OnRemoveHook) (name : String) : Bool :=
  self.pluginsRegistered.contains name

def addSystem (self : PluginApp System OnAddHook OnRemoveHook) (name : String) (system : System) :
    PluginApp System OnAddHook OnRemoveHook :=
  { self with scheduler := self.scheduler.addSystem name system }

def addHookOnAdd (self : PluginApp System OnAddHook OnRemoveHook) (componentType : Symbol) (hook : OnAddHook) :
    PluginApp System OnAddHook OnRemoveHook :=
  { self with hooks := self.hooks.onAdd componentType hook }

def addHookOnRemove (self : PluginApp System OnAddHook OnRemoveHook) (componentType : Symbol)
    (hook : OnRemoveHook) : PluginApp System OnAddHook OnRemoveHook :=
  { self with hooks := self.hooks.onRemove componentType hook }

def set (self : PluginApp System OnAddHook OnRemoveHook) :
    Setting System OnAddHook OnRemoveHook → PluginApp System OnAddHook OnRemoveHook
  | .addSystem name system => self.addSystem name system
  | .addHookOnAdd componentType hook => self.addHookOnAdd componentType hook
  | .addHookOnRemove componentType hook => self.addHookOnRemove componentType hook
  | .worldMut edit => { self with world := edit self.world }

def register (self : PluginApp System OnAddHook OnRemoveHook) (name : String) (hnew : ¬self.hasPlugin name) :
    PluginApp System OnAddHook OnRemoveHook :=
  { self with
    pluginsRegistered := self.pluginsRegistered ++ [name]
    nodup := by
      rw [← List.concat_eq_append]
      exact self.nodup.concat fun hmem => hnew (List.contains_iff_mem.mpr hmem) }

-- At most `room` calls may be open at a time; the plugins are the members of a family. What is called in the
-- course of it is returned as well.
def addPlugin (family : ι → Plugin System OnAddHook OnRemoveHook ι) :
    Nat → PluginApp System OnAddHook OnRemoveHook → ι →
      Option (PluginApp System OnAddHook OnRemoveHook × List (PluginCall ι))
  | 0, _, _ => none
  | room + 1, self, plugin =>
    let name := (family plugin).name
    if hregistered : self.hasPlugin name then some (self, [.addPlugin plugin])
    else
      ((family plugin).build.run set (addPlugin family room) (self.register name hregistered)).map
        fun (app, calls) => (app, .addPlugin plugin :: .build plugin :: calls)

end PluginApp

end Cougr
