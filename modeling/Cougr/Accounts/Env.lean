import Cougr.Accounts.Types
import Cougr.Library.KeyStore

namespace Cougr.Accounts

-- The entries of persistent storage that belong to accounts.
inductive AccountKey where
  | sessKeys (account : Address)
  | rcvGuard (account : Address)
  | rcvConf (account : Address)
  | rcvReq (account : Address)
  | devKeys (account : Address)
  | devPolicy (account : Address)
  | p256Keys (account : Address)
  deriving DecidableEq

-- The code writes and reads each kind of entry at one type only.
abbrev AccountKey.Value : AccountKey → Type
  | .sessKeys _ => List SessionKey
  | .rcvGuard _ => List Guardian
  | .rcvConf _ => RecoveryConfig
  | .rcvReq _ => RecoveryRequest
  | .devKeys _ => List DeviceKey
  | .devPolicy _ => DevicePolicy
  | .p256Keys _ => List Secp256r1Key

-- The tuple under which the host keeps the entry.
def AccountKey.tuple : AccountKey → Symbol × Address
  | .sessKeys account => (Symbol.new "sess_keys", account)
  | .rcvGuard account => (Symbol.new "rcv_guard", account)
  | .rcvConf account => (Symbol.new "rcv_conf", account)
  | .rcvReq account => (Symbol.new "rcv_req", account)
  | .devKeys account => (Symbol.new "dev_keys", account)
  | .devPolicy account => (Symbol.new "dev_policy", account)
  | .p256Keys account => (Symbol.new "p256_keys", account)

-- The prefixes keep the entries apart, so a store with typed keys hides no collision.
theorem AccountKey.tuple_injective : Function.Injective AccountKey.tuple := by
  intro first second h
  have hname := congrArg (Symbol.text ∘ Prod.fst) h
  have haccount := congrArg Prod.snd h
  cases first <;> cases second <;> first
    | exact congrArg _ haccount
    | simp [tuple, Symbol.new] at hname

-- What a contract invocation sees of the host. Ledger times are `u64`, counters `u32`.
structure Env where
  timestamp : Nat
  persistent : KeyStore AccountKey.Value
  authorized : Address → Bool
  authLog : List Address

-- A call that answers with a `Result` and leaves an environment, or traps.
abbrev Outcome (α : Type) := Option (Except AccountError α × Env)

def u32Max : Nat := 4294967295

def u64Max : Nat := 18446744073709551615

-- Overflow is checked: a sum past the largest value traps.
def checkedAdd (max first second : Nat) : Option Nat :=
  if first + second ≤ max then some (first + second) else none

namespace Env

-- Nothing stored, and an invocation that carries no authorization.
def fresh (timestamp : Nat) : Env :=
  { timestamp, persistent := KeyStore.empty, authorized := fun _ => false, authLog := [] }

-- `Address::require_auth` traps unless the invocation carries the authorization. A trap is
-- `none` everywhere in this development: the host then rolls the invocation back.
def requireAuth (env : Env) (address : Address) : Option Env :=
  if env.authorized address then some { env with authLog := env.authLog ++ [address] } else none

-- The same storage at another ledger time.
def atTime (env : Env) (timestamp : Nat) : Env := { env with timestamp }

def get (env : Env) (key : AccountKey) : Option key.Value := env.persistent.get key

def set (env : Env) (key : AccountKey) (value : key.Value) : Env :=
  { env with persistent := env.persistent.set key value }

def remove (env : Env) (key : AccountKey) : Env :=
  { env with persistent := env.persistent.remove key }

@[simp] theorem get_set_self (env : Env) (key : AccountKey) (value : key.Value) :
    (env.set key value).get key = some value := KeyStore.get_set_self ..

@[simp] theorem get_set_of_ne (env : Env) {key other : AccountKey} (value : key.Value)
    (h : other ≠ key) : (env.set key value).get other = env.get other := KeyStore.get_set_of_ne _ _ h

@[simp] theorem get_remove_self (env : Env) (key : AccountKey) : (env.remove key).get key = none :=
  KeyStore.get_remove_self ..

@[simp] theorem get_remove_of_ne (env : Env) {key other : AccountKey} (h : other ≠ key) :
    (env.remove key).get other = env.get other := KeyStore.get_remove_of_ne _ h

@[simp] theorem timestamp_atTime (env : Env) (timestamp : Nat) :
    (env.atTime timestamp).timestamp = timestamp := rfl

end Env

end Cougr.Accounts
