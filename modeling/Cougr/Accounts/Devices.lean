import Cougr.Accounts.Env
import Cougr.Library.KeyedList
import Cougr.Library.Transition

namespace Cougr.Accounts

namespace DeviceStorage

def storeDevices (env : Env) (account : Address) (devices : List DeviceKey) : Env :=
  env.set (.devKeys account) devices

def loadDevices (env : Env) (account : Address) : List DeviceKey :=
  (env.get (.devKeys account) : Option (List DeviceKey)).getD []

def storePolicy (env : Env) (account : Address) (policy : DevicePolicy) : Env :=
  env.set (.devPolicy account) policy

def loadPolicy (env : Env) (account : Address) : Option DevicePolicy := env.get (.devPolicy account)

-- The updater can be applied once, and the first record with the key takes it.
def updateDevice (env : Env) (account : Address) (keyId : BytesN 32) (updater : DeviceKey → DeviceKey) :
    Except AccountError Unit × Env :=
  let devices := loadDevices env account
  let newDevices := KeyedList.modifyFirst DeviceKey.keyId keyId updater devices
  let found := devices.any fun d => d.keyId = keyId
  if ¬found then (.error .DeviceNotFound, env)
  else (.ok (), storeDevices env account newDevices)

end DeviceStorage

structure DeviceManager where
  address : Address

namespace DeviceManager

open DeviceStorage

def new (address : Address) (policy : DevicePolicy) (env : Env) : DeviceManager × Env :=
  let env := storePolicy env address policy
  let env := storeDevices env address []
  ({ address }, env)

def load (address : Address) : DeviceManager := { address }

def defaultPolicy : DevicePolicy where
  maxDevices := 5
  autoRevokeAfter := 0

def withDefaults (address : Address) (env : Env) : DeviceManager × Env := new address defaultPolicy env

def registerDevice (self : DeviceManager) (env : Env) (keyId : BytesN 32) (deviceName : Symbol) :
    Except AccountError DeviceKey × Env :=
  match loadPolicy env self.address with
  | none => (.error .StorageError, env)
  | some policy =>
    let devices := loadDevices env self.address
    if devices.any fun d => d.keyId = keyId && d.isActive then (.error .DeviceLimitReached, env)
    else if policy.maxDevices ≤ devices.countP DeviceKey.isActive then (.error .DeviceLimitReached, env)
    else
      let now := env.timestamp
      let device := { keyId, deviceName, registeredAt := now, lastUsed := now, isActive := true }
      (.ok device, storeDevices env self.address (devices ++ [device]))

def revokeDevice (self : DeviceManager) (env : Env) (keyId : BytesN 32) : Except AccountError Unit × Env :=
  updateDevice env self.address keyId fun d => { d with isActive := false }

def listDevices (self : DeviceManager) (env : Env) : List DeviceKey := loadDevices env self.address

def activeDeviceCount (self : DeviceManager) (env : Env) : Nat :=
  (loadDevices env self.address).countP DeviceKey.isActive

def updateLastUsed (self : DeviceManager) (env : Env) (keyId : BytesN 32) : Except AccountError Unit × Env :=
  let now := env.timestamp
  updateDevice env self.address keyId fun d => { d with lastUsed := now }

def setPolicy (self : DeviceManager) (env : Env) (policy : DevicePolicy) : Env :=
  storePolicy env self.address policy

def policy (self : DeviceManager) (env : Env) : DevicePolicy :=
  (loadPolicy env self.address).getD defaultPolicy

-- An active record that has not been used for longer than the threshold; the difference saturates.
def stale (now threshold : Nat) (d : DeviceKey) : Bool := d.isActive && threshold < now - d.lastUsed

def cleanupInactive (self : DeviceManager) (env : Env) : Nat × Env :=
  let policy := (loadPolicy env self.address).getD defaultPolicy
  if policy.autoRevokeAfter = 0 then (0, env)
  else
    let threshold := policy.autoRevokeAfter
    let devices := loadDevices env self.address
    let newDevices := devices.map fun d =>
      if stale env.timestamp threshold d then { d with isActive := false } else d
    let revoked := devices.countP (stale env.timestamp threshold)
    (revoked, if revoked > 0 then storeDevices env self.address newDevices else env)

-- What an owner does with the devices, at the ledger times of the invocations.
inductive Use where
  | invoke (timestamp : Nat)
  | registerDevice (keyId : BytesN 32) (deviceName : Symbol)
  | revokeDevice (keyId : BytesN 32)
  | updateLastUsed (keyId : BytesN 32)
  | cleanupInactive

def use (self : DeviceManager) (env : Env) : Use → Env
  | .invoke timestamp => env.atTime timestamp
  | .registerDevice keyId deviceName => (self.registerDevice env keyId deviceName).2
  | .revokeDevice keyId => (self.revokeDevice env keyId).2
  | .updateLastUsed keyId => (self.updateLastUsed env keyId).2
  | .cleanupInactive => (self.cleanupInactive env).2

inductive Op where
  | use (use : Use)
  | setPolicy (policy : DevicePolicy)

def step (self : DeviceManager) (env : Env) : Op → Env
  | .use use => self.use env use
  | .setPolicy policy => self.setPolicy env policy

end DeviceManager

end Cougr.Accounts
