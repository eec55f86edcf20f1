import KeenPbr.RouteTypes

/-! routing/runtime_routing_transaction.hpp: the request of one exact route/rule transaction,
the owner's fence, the pre-allocated journal and the result. -/
namespace KeenPbr

structure RuntimeRoutingTransactionIdentity where
  operationSerial : UInt64 := 0
  runtimeGeneration : UInt64 := 0
  intentSerial : UInt64 := 0
  baseInventoryRevision : UInt64 := 0
  routeEpoch : UInt64 := 0
  deriving DecidableEq, Repr

structure RuntimeRoutingExternalTableAuthority where
  table : UInt32 := 0
  family : Int := 0
  deriving DecidableEq, Repr

structure RuntimeRoutingCurrentFence where
  lastOperationSerial : UInt64 := 0
  runtimeGeneration : UInt64 := 0
  intentSerial : UInt64 := 0
  inventoryRevision : UInt64 := 0
  routeEpoch : UInt64 := 0
  deriving DecidableEq, Repr

structure RuntimeRoutingTransactionRequest where
  identity : RuntimeRoutingTransactionIdentity
  desiredRoutes : List RouteSpec := []
  desiredRules : List RuleSpec := []
  priorRoutes : List RouteSpec := []
  priorRules : List RuleSpec := []
  requirePriorPreimageProof : Bool := false
  priorOwnedRules : List RuleSpec := []
  authorizedExternalTables : List RuntimeRoutingExternalTableAuthority := []
  allowRecoveryRuleHeuristic : Bool := false
  deriving DecidableEq, Repr

inductive RuntimeRoutingTerminal where
  | prepared
  | running
  | staleBeforeMutation
  | candidateRolledBack
  | candidateCommitted
  | committedCleanupPending
  | partialUnknown
  | preconditionFailed
  deriving DecidableEq, Repr

inductive RuntimeRoutingFailureStage where
  | none
  | journalPublish
  | fence
  | candidateRoute
  | candidateRuleDependency
  | candidateRule
  | candidateVerify
  | rollbackRule
  | rollbackRoute
  | cleanupRule
  | cleanupRoute
  | committedVerify
  | unexpectedException
  deriving DecidableEq, Repr

inductive RuntimeRoutingStaleReason where
  | none
  | zeroIdentity
  | replayedOperation
  | runtimeGenerationChanged
  | intentChanged
  | inventoryRevisionChanged
  | routeEpochChanged
  deriving DecidableEq, Repr

inductive RuntimeRoutingJournalOperation where
  | addCandidateRoute
  | replaceCandidateRoute
  | addCandidateRule
  | verifyCandidate
  | deleteStaleRule
  | verifyStaleRuleAbsence
  | deleteObsoleteRoute
  | verifyCommittedState
  | rollbackCreatedRule
  | rollbackCreatedRoute
  | restoreReplacedRoute
  deriving DecidableEq, Repr

inductive RuntimeRoutingJournalState where
  | planned
  | completed
  | verified
  | rolledBack
  | skipped
  | failed
  | unknown
  deriving DecidableEq, Repr

inductive RuntimeRoutingJournalReceipt where
  | none
  | created
  | alreadyPresent
  | replaced
  | deletedOrAbsent
  | preconditionMismatch
  | effectUnknown
  deriving DecidableEq, Repr

structure RuntimeRoutingJournalEntry where
  operation : RuntimeRoutingJournalOperation
  state : RuntimeRoutingJournalState := .planned
  receipt : RuntimeRoutingJournalReceipt := .none
  route : Option RouteSpec := none
  rule : Option RuleSpec := none
  deriving DecidableEq, Repr

structure RuntimeRoutingPublishedJournal where
  identity : RuntimeRoutingTransactionIdentity := {}
  entries : List RuntimeRoutingJournalEntry := []
  terminal : RuntimeRoutingTerminal := .prepared
  failureStage : RuntimeRoutingFailureStage := .none
  mutationStarted : Bool := false
  candidateExactVerified : Bool := false
  deriving DecidableEq, Repr

structure RuntimeRoutingTransactionResult where
  identity : RuntimeRoutingTransactionIdentity := {}
  terminal : RuntimeRoutingTerminal := .preconditionFailed
  staleReason : RuntimeRoutingStaleReason := .none
  mutationStarted : Bool := false
  candidateExactVerified : Bool := false
  staleRuleAbsenceProven : Bool := false
  routeCleanupAttempted : Bool := false
  routeInterfaceUnavailable : Bool := false
  priorPreimageObserved : Bool := false
  priorPreimageExact : Bool := false
  detail : String := ""
  journal : List RuntimeRoutingJournalEntry := []
  publishedJournal : Option RuntimeRoutingPublishedJournal := none
  deriving DecidableEq, Repr

def identityHasZero (identity : RuntimeRoutingTransactionIdentity) : Bool :=
  identity.operationSerial == 0 || identity.runtimeGeneration == 0 || identity.intentSerial == 0 ||
    identity.baseInventoryRevision == 0 || identity.routeEpoch == 0

def staleReason (identity : RuntimeRoutingTransactionIdentity) (current : RuntimeRoutingCurrentFence) :
    RuntimeRoutingStaleReason :=
  if identityHasZero identity then .zeroIdentity
  else if identity.operationSerial ≤ current.lastOperationSerial then .replayedOperation
  else if identity.runtimeGeneration != current.runtimeGeneration then .runtimeGenerationChanged
  else if identity.intentSerial != current.intentSerial then .intentChanged
  else if identity.baseInventoryRevision != current.inventoryRevision then .inventoryRevisionChanged
  else if identity.routeEpoch != current.routeEpoch then .routeEpochChanged
  else .none

inductive FenceProbeState where
  | current
  | stale
  | unavailable
  deriving DecidableEq, Repr

end KeenPbr
