import Cougr.Soroban

namespace Cougr.Accounts

inductive AccountError where
  | Unauthorized
  | SessionExpired
  | InvalidSignature
  | CapabilityNotSupported
  | SessionLimitReached
  | InvalidScope
  | BatchEmpty
  | BatchTooLarge
  | StorageError
  | GuardianAlreadyExists
  | RecoveryNotInitiated
  | TimelockNotExpired
  | ThresholdNotMet
  | MaxGuardiansReached
  | DeviceLimitReached
  | DeviceNotFound
  | RecoveryAlreadyActive
  deriving DecidableEq

structure GameAction where
  systemName : Symbol
  data : Bytes

structure SessionScope where
  allowedActions : List Symbol
  maxOperations : Nat
  expiresAt : Nat
  deriving DecidableEq

structure SessionKey where
  keyId : BytesN 32
  scope : SessionScope
  createdAt : Nat
  operationsUsed : Nat
  deriving DecidableEq

structure AccountCapabilities where
  canBatch : Bool
  hasSessionKeys : Bool
  hasSocialRecovery : Bool
  hasPasskeyAuth : Bool

structure Guardian where
  address : Address
  addedAt : Nat
  deriving DecidableEq

structure RecoveryRequest where
  newOwner : Address
  approvals : List Address
  initiatedAt : Nat
  timelockUntil : Nat
  cancelled : Bool
  deriving DecidableEq

structure RecoveryConfig where
  threshold : Nat
  timelockPeriod : Nat
  maxGuardians : Nat
  deriving DecidableEq

structure DeviceKey where
  keyId : BytesN 32
  deviceName : Symbol
  registeredAt : Nat
  lastUsed : Nat
  isActive : Bool
  deriving DecidableEq

structure DevicePolicy where
  maxDevices : Nat
  -- 0 disables the cleanup
  autoRevokeAfter : Nat
  deriving DecidableEq

structure Secp256r1Key where
  publicKey : BytesN 65
  label : Symbol
  registeredAt : Nat
  deriving DecidableEq

end Cougr.Accounts
