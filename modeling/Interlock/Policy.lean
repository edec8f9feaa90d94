import Interlock.Exposure
import Interlock.Json
import Interlock.WordSet

/-!
# Recovery policies

A policy says which files are checked and which functions need no guard.  Files are excluded by
their exact path, never by a pattern.  A function complies when its visibility or its mutability
is exempt or one of its modifiers is a guard.
-/

namespace Interlock

/-- What a check asks of files and functions. -/
structure Policy where
  sourceExtension : String
  excludedPaths : WordSet
  guardModifiers : WordSet
  readOnlyMutability : WordSet
  exemptVisibility : WordSet
  deriving DecidableEq, Repr

namespace Policy

/-- Whether a path is that of a source file. -/
def isSource (policy : Policy) (path : String) : Bool :=
  policy.sourceExtension.toList.isSuffixOf path.toList

/-- Whether a path is excluded from the check. -/
def isExcluded (policy : Policy) (path : String) : Bool :=
  path ∈ policy.excludedPaths

/-- A policy that excludes further paths. -/
def withExclusions (policy : Policy) (paths : List String) : Policy :=
  { policy with excludedPaths := policy.excludedPaths.insertAll paths }

/-- Whether a function with this exposure may stay without a guard, or has one. -/
def permits (policy : Policy) (exposure : Exposure) : Bool :=
  exposure.visibility ∈ policy.exemptVisibility ||
    exposure.mutability ∈ policy.readOnlyMutability ||
    exposure.modifiers.any (· ∈ policy.guardModifiers)

/-- A policy as a JSON object. -/
def toJson (policy : Policy) : Json :=
  .object
    [("source_ext", .string policy.sourceExtension),
     ("excluded_paths", .strings policy.excludedPaths.toList),
     ("guard_modifiers", .strings policy.guardModifiers.toList),
     ("read_only_mutability", .strings policy.readOnlyMutability.toList),
     ("exempt_visibility", .strings policy.exemptVisibility.toList)]

/-- The paths that take no part in recovery mode: interfaces, storage layouts, authorities, test
helpers and tokens kept elsewhere. -/
def defaultExclusions : List String :=
  ["contracts/ColonyAuthority.sol",
   "contracts/ColonyNetworkAuthority.sol",
   "contracts/ColonyNetworkStorage.sol",
   "contracts/ColonyStorage.sol",
   "contracts/CommonAuthority.sol",
   "contracts/DomainRoles.sol",
   "contracts/ERC20Extended.sol",
   "contracts/EtherRouter.sol",
   "contracts/IColony.sol",
   "contracts/IColonyNetwork.sol",
   "contracts/IEtherRouter.sol",
   "contracts/IMetaColony.sol",
   "contracts/IRecovery.sol",
   "contracts/IReputationMiningCycle.sol",
   "contracts/ITokenLocking.sol",
   "contracts/Migrations.sol",
   "contracts/PatriciaTree/Bits.sol",
   "contracts/PatriciaTree/Data.sol",
   "contracts/PatriciaTree/IPatriciaTree.sol",
   "contracts/PatriciaTree/IPatriciaTreeNoHash.sol",
   "contracts/PatriciaTree/PatriciaTree.sol",
   "contracts/PatriciaTree/PatriciaTreeBase.sol",
   "contracts/PatriciaTree/PatriciaTreeNoHash.sol",
   "contracts/PatriciaTree/PatriciaTreeProofs.sol",
   "contracts/ReputationMiningCycle.sol",
   "contracts/ReputationMiningCycleRespond.sol",
   "contracts/Resolver.sol",
   "contracts/Token.sol",
   "contracts/TokenAuthority.sol",
   "contracts/TokenLocking.sol",
   "contracts/TokenLockingStorage.sol",
   "contracts/ens/ENS.sol",
   "contracts/ens/ENSRegistry.sol",
   "contracts/extensions/ExtensionFactory.sol",
   "contracts/extensions/OldRoles.sol",
   "contracts/extensions/OldRolesFactory.sol",
   "contracts/extensions/OneTxPayment.sol",
   "contracts/extensions/OneTxPaymentFactory.sol",
   "contracts/gnosis/MultiSigWallet.sol",
   "contracts/testHelpers/ContractEditing.sol",
   "contracts/testHelpers/FunctionsNotAvailableOnColony.sol",
   "contracts/testHelpers/NoLimitSubdomains.sol",
   "contracts/testHelpers/TaskSkillEditing.sol",
   "contracts/testHelpers/TransferTest.sol"]

/-- The policy that holds where nothing else is said. -/
def standard : Policy where
  sourceExtension := ".sol"
  excludedPaths := .ofList defaultExclusions
  guardModifiers := .ofList ["stoppable", "recovery", "always"]
  readOnlyMutability := .ofList ["view", "pure"]
  exemptVisibility := .ofList ["private", "internal"]

end Policy

end Interlock
