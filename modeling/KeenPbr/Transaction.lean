import KeenPbr.Netlink
import KeenPbr.TransactionPlan

/-! execute_runtime_routing_transaction. The state splits in two: `Core` is what later steps
read (kernel, receipts, whether a mutation was entered) with the trace of fence observations
and mutating calls; `Book` is what the run writes down (result and published journal). The
phase of a call is a ghost: the source has it only as a place in the text. -/
namespace KeenPbr
open Wp

inductive Phase where
  | forward
  | rollback
  | cleanup
  deriving DecidableEq, Repr

inductive Mutation where
  | addRoute (spec : RouteSpec)
  | replaceRouteIfExact (expected replacement : RouteSpec)
  | deleteRouteIfExact (spec : RouteSpec)
  | addRuleForFamily (spec : RuleSpec)
  | deleteRuleIfExact (spec : RuleSpec)

inductive Event where
  | fence (phase : Phase) (state : FenceProbeState)
  | call (phase : Phase) (mutation : Mutation) (before after : Kernel)

structure Core where
  backend : Backend
  probes : Nat := 0
  phase : Phase := .forward
  trace : List Event := []
  mutationStarted : Bool := false
  routes : List PlannedRouteMutation := []
  rules : List PlannedRuleMutation := []

structure Book where
  result : RuntimeRoutingTransactionResult := {}
  journal : RuntimeRoutingPublishedJournal := {}

structure State where
  core : Core
  book : Book := {}

abbrev Exec := EStateM NetlinkError State

/- The caller's side of one run: the n-th fence observation (`none`: no probe was given), the
backend's capabilities and lease (`none`: a null lease), and whether the journal was retained. -/
structure Outside where
  inet : Inet
  faults : Faults
  currentFence : Option (Nat → Except NetlinkError RuntimeRoutingCurrentFence)
  sameBackend : Bool := true
  supportsExactRoute : Bool := true
  supportsExactRule : Bool := true
  lease : Except NetlinkError (Option Unit) := .ok (some ())
  publishJournal : Option (RuntimeRoutingPublishedJournal → Except NetlinkError Bool)

def exceptionDetail (stage : String) : NetlinkError → String
  | .routeInterfaceUnavailable what => stage ++ ": " ++ what
  | .netlink what => stage ++ ": " ++ what
  | .unknown => stage ++ ": unknown exception"

def onBackend {α : Type} (m : Netlink α) : Exec α := fun s =>
  match m s.core.backend with
  | .ok a b => .ok a { s with core := { s.core with backend := b } }
  | .error e b => .error e { s with core := { s.core with backend := b } }

def logCall (mutation : Mutation) (before : Kernel) : Exec Unit :=
  modify fun s => { s with core := { s.core with
    trace := s.core.trace ++ [.call s.core.phase mutation before s.core.backend.kernel] } }

def mutating {α : Type} (mutation : Mutation) (m : Netlink α) : Exec α := do
  let before := (← get).core.backend.kernel
  let receipt ← tryCatch (onBackend m) fun e => do
    logCall mutation before
    throw e
  logCall mutation before
  pure receipt

def onResult (f : RuntimeRoutingTransactionResult → RuntimeRoutingTransactionResult) : Exec Unit :=
  modify fun s => { s with book := { s.book with result := f s.book.result } }

def onJournal (f : RuntimeRoutingPublishedJournal → RuntimeRoutingPublishedJournal) : Exec Unit :=
  modify fun s => { s with book := { s.book with journal := f s.book.journal } }

def onEntry (index : Nat) (f : RuntimeRoutingJournalEntry → RuntimeRoutingJournalEntry) : Exec Unit :=
  onJournal fun j => { j with entries := j.entries.modify index f }

def onEntries (indices : List Nat) (f : RuntimeRoutingJournalEntry → RuntimeRoutingJournalEntry) : Exec Unit :=
  onJournal fun j => { j with entries := indices.foldl (fun es i => es.modify i f) j.entries }

def setState (state : RuntimeRoutingJournalState) (e : RuntimeRoutingJournalEntry) : RuntimeRoutingJournalEntry :=
  { e with state }

def setReceipt (receipt : RuntimeRoutingJournalReceipt) (e : RuntimeRoutingJournalEntry) :
    RuntimeRoutingJournalEntry :=
  { e with receipt }

def setBoth (receipt : RuntimeRoutingJournalReceipt) (state : RuntimeRoutingJournalState)
    (e : RuntimeRoutingJournalEntry) : RuntimeRoutingJournalEntry :=
  { e with receipt, state }

def onRoute (index : Nat) (f : PlannedRouteMutation → PlannedRouteMutation) : Exec Unit :=
  modify fun s => { s with core := { s.core with routes := s.core.routes.modify index f } }

def onRule (index : Nat) (f : PlannedRuleMutation → PlannedRuleMutation) : Exec Unit :=
  modify fun s => { s with core := { s.core with rules := s.core.rules.modify index f } }

def enterPhase (phase : Phase) : Exec Unit := modify fun s => { s with core := { s.core with phase } }

def logFence (state : FenceProbeState) : Exec Unit :=
  modify fun s => { s with core := { s.core with
    probes := s.core.probes + 1, trace := s.core.trace ++ [.fence s.core.phase state] } }

def observeFence (out : Outside) (request : RuntimeRoutingTransactionRequest) : Exec FenceProbeState := do
  match out.currentFence with
  | none =>
    logFence .unavailable
    pure .unavailable
  | some probe =>
    match probe (← get).core.probes with
    | .ok current => do
      let reason := staleReason request.identity current
      let state := if reason == .none then FenceProbeState.current else .stale
      onResult fun r => { r with staleReason := reason }
      logFence state
      pure state
    | .error _ => do
      onResult fun r => { r with staleReason := .none }
      logFence .unavailable
      pure .unavailable

def enterMutation : Exec Unit := do
  modify fun s => { s with core := { s.core with mutationStarted := true } }
  onJournal fun j => { j with mutationStarted := true, terminal := .running }

def returnResult : Exec RuntimeRoutingTransactionResult := do
  let s ← get
  pure { s.book.result with mutationStarted := s.core.mutationStarted, publishedJournal := some s.book.journal }

def retainResultJournal : Exec Unit :=
  modify fun s => { s with book := { s.book with
    result := { s.book.result with journal := s.book.journal.entries } } }

def publishEnd (terminal : RuntimeRoutingTerminal) (stage : RuntimeRoutingFailureStage) : Exec Unit := do
  onResult fun r => { r with terminal }
  onJournal fun j => { j with failureStage := stage, terminal }

section Rollback
variable (out : Outside)

/- A rollback error leaves the entry unknown and the loop goes on: only the verification
after it decides. The stage is the one the loop has reached so far. -/
def rollbackRule (stage : RuntimeRoutingFailureStage) (m : PlannedRuleMutation) :
    Exec RuntimeRoutingFailureStage :=
  if !m.createdReceipt then do
    onEntry m.rollbackJournal (setState .skipped)
    pure stage
  else
    tryCatch (do
      let receipt ← mutating (.deleteRuleIfExact m.candidate)
        (NetlinkManager.deleteRuleIfExact out.faults m.candidate m.candidate.family)
      if receipt == .preconditionMismatch then do
        onEntry m.rollbackJournal (setBoth .preconditionMismatch .unknown)
        pure .rollbackRule
      else do
        onEntry m.rollbackJournal (setBoth .deletedOrAbsent .rolledBack)
        pure stage)
    fun _ => do
      onEntry m.rollbackJournal (setBoth .effectUnknown .unknown)
      pure stage

def rollbackRules : RuntimeRoutingFailureStage → List PlannedRuleMutation → Exec RuntimeRoutingFailureStage
  | stage, [] => pure stage
  | stage, m :: rest => do
    let next ← rollbackRule out stage m
    rollbackRules next rest

def createdRulesAbsent (rules : List PlannedRuleMutation) (live : List DumpedRule) : Bool :=
  !rules.any fun m => m.createdReceipt && exactRuleState m.candidate live != .empty

def verifyCreatedRulesAbsent (rules : List PlannedRuleMutation) : Exec Bool := do
  let live ← onBackend (NetlinkManager.dumpPolicyRules out.faults 0)
  pure (createdRulesAbsent rules live)

/- `some ()` ends rollback_candidate with false. -/
def rollbackMismatch (m : PlannedRouteMutation) : Exec (Option Unit) := do
  onEntries m.rollbackJournals (setBoth .preconditionMismatch .unknown)
  pure (some ())

def rollbackCreatedRoute (m : PlannedRouteMutation) : Exec (Option Unit) := do
  let before ← onBackend (NetlinkManager.dumpRoutes out.faults m.candidate.family)
  match exactSlotState m.candidate before with
  | .empty => do
    onEntries m.rollbackJournals (setBoth .deletedOrAbsent .rolledBack)
    pure none
  | .mismatch => rollbackMismatch m
  | .exactSingle => do
    let receipt ← mutating (.deleteRouteIfExact m.candidate)
      (NetlinkManager.deleteRouteIfExact out.faults m.candidate)
    if receipt == .preconditionMismatch then rollbackMismatch m
    else do
      onEntries m.rollbackJournals (setReceipt .deletedOrAbsent)
      let live ← onBackend (NetlinkManager.dumpRoutes out.faults m.candidate.family)
      if exactSlotState m.candidate live != .empty then do
        onEntries m.rollbackJournals (setState .unknown)
        pure (some ())
      else do
        onEntries m.rollbackJournals (setState .rolledBack)
        pure none

def addPreimages : List RouteSpec → Exec Unit
  | [] => pure ()
  | previous :: rest => do
    let _ ← mutating (.addRoute previous) (NetlinkManager.addRoute out.faults previous)
    addPreimages rest

def rollbackReplacedRoute (m : PlannedRouteMutation) : Exec (Option Unit) := do
  let before ← onBackend (NetlinkManager.dumpRoutes out.faults m.candidate.family)
  if slotMatchesPreimages m.candidate m.preimages before then do
    onEntries m.rollbackJournals (setBoth .alreadyPresent .rolledBack)
    pure none
  else if exactSlotState m.candidate before != .exactSingle then rollbackMismatch m
  else do
    let first := m.preimages.headD m.candidate
    let receipt ← mutating (.replaceRouteIfExact m.candidate first)
      (NetlinkManager.replaceRouteIfExact out.faults m.candidate first)
    if receipt == .preconditionMismatch then rollbackMismatch m
    else do
      onEntries m.rollbackJournals (setReceipt .replaced)
      addPreimages out m.preimages.tail
      let live ← onBackend (NetlinkManager.dumpRoutes out.faults m.candidate.family)
      if !slotMatchesPreimages m.candidate m.preimages live then do
        onEntries m.rollbackJournals (setState .unknown)
        pure (some ())
      else do
        onEntries m.rollbackJournals (setState .rolledBack)
        pure none

def rollbackRoute (m : PlannedRouteMutation) : Exec (Option Unit) :=
  let unknown : NetlinkError → Exec (Option Unit) := fun _ => do
    onEntries m.rollbackJournals (setBoth .effectUnknown .unknown)
    pure (some ())
  if m.createdReceipt then tryCatch (rollbackCreatedRoute out m) unknown
  else if m.replacementReceipt then tryCatch (rollbackReplacedRoute out m) unknown
  else do
    onEntries m.rollbackJournals (setState .skipped)
    pure none

def rollbackCandidate (stage : RuntimeRoutingFailureStage) : Exec (Bool × RuntimeRoutingFailureStage) := do
  enterPhase .rollback
  let afterRules ← rollbackRules out stage (← get).core.rules.reverse
  let absent ← tryCatch (verifyCreatedRulesAbsent out (← get).core.rules) fun _ => pure false
  if !absent then pure (false,.rollbackRule)
  else do
    match ← forEach (fun _ m => rollbackRoute out m) 0 (← get).core.routes.reverse with
    | some () => pure (false,.rollbackRoute)
    | none => pure (true,afterRules)

end Rollback

section Forward
variable (out : Outside) (request : RuntimeRoutingTransactionRequest)

def priorPreimageRestored : Exec Bool :=
  if !request.requirePriorPreimageProof then pure true
  else
    tryCatch (do
      let finalRoutes ← onBackend (NetlinkManager.dumpRoutes out.faults 0)
      let finalRules ← onBackend (NetlinkManager.dumpPolicyRules out.faults 0)
      let exact := expectedInventoryExact request.priorRoutes request.priorRules finalRoutes finalRules
      onResult fun r => { r with priorPreimageObserved := true, priorPreimageExact := exact }
      pure exact)
    fun _ => do
      onResult fun r => { r with priorPreimageObserved := false, priorPreimageExact := false }
      pure false

def endCandidate (terminal : RuntimeRoutingTerminal) (stage : RuntimeRoutingFailureStage) (detail : String) :
    Exec RuntimeRoutingTransactionResult := do
  publishEnd terminal stage
  onResult fun r => { r with detail }
  retainResultJournal
  returnResult

def failCandidate (stage : RuntimeRoutingFailureStage) (ambiguous : Bool) (detail : String) :
    Exec RuntimeRoutingTransactionResult := do
  if ambiguous then endCandidate .partialUnknown stage detail
  else do
    let (rolledBack,reached) ← rollbackCandidate out stage
    if !rolledBack then endCandidate .partialUnknown reached detail
    else do
      let restored ← priorPreimageRestored out request
      if restored then endCandidate .candidateRolledBack reached detail
      else endCandidate .partialUnknown .rollbackRoute detail

def failForwardFence (entry : Nat) (detail : String) : Exec RuntimeRoutingTransactionResult := do
  let s ← get
  let unavailable := s.book.result.staleReason == .none
  onEntry entry (setState (if unavailable then .unknown else .failed))
  if s.core.mutationStarted then failCandidate out request .fence false detail
  else endCandidate (if unavailable then .preconditionFailed else .staleBeforeMutation) .fence detail

abbrev Return := Exec (Option RuntimeRoutingTransactionResult)

def leave (m : Exec RuntimeRoutingTransactionResult) : Return := do
  let r ← m
  pure (some r)

def replaceForward (i : Nat) (m : PlannedRouteMutation) : Return := do
  let currentSlot ← onBackend (NetlinkManager.dumpRoutes out.faults m.candidate.family)
  if !slotMatchesPreimages m.candidate m.preimages currentSlot then do
    onEntry m.forwardJournal (setBoth .preconditionMismatch .failed)
    leave (failCandidate out request .candidateRoute false "managed route slot changed after transaction planning")
  else do
    let fence ← observeFence out request
    if fence != .current then
      leave (failForwardFence out request m.forwardJournal "routing fence changed before route replacement")
    else do
      enterMutation
      let first := m.preimages.headD m.candidate
      let receipt ← mutating (.replaceRouteIfExact first m.candidate)
        (NetlinkManager.replaceRouteIfExact out.faults first m.candidate)
      if receipt == .preconditionMismatch then do
        onEntry m.forwardJournal (setBoth .preconditionMismatch .failed)
        leave (failCandidate out request .candidateRoute false "exact managed route replacement was refused")
      else do
        onRoute i fun m => { m with replacementReceipt := true }
        onEntry m.forwardJournal (setBoth .replaced .completed)
        pure none

def addForward (i : Nat) (m : PlannedRouteMutation) : Return := do
  let fence ← observeFence out request
  if fence != .current then
    leave (failForwardFence out request m.forwardJournal "routing fence changed before route creation")
  else do
    enterMutation
    let receipt ← mutating (.addRoute m.candidate) (NetlinkManager.addRoute out.faults m.candidate)
    onRoute i fun m => { m with createdReceipt := receipt == .created }
    onEntry m.forwardJournal
      (setBoth (if receipt == .created then .created else .alreadyPresent) .completed)
    pure none

def settleRoute (m : PlannedRouteMutation) (absent unknown : String) : Return := do
  onEntry m.forwardJournal (setBoth .effectUnknown .unknown)
  let settled ← tryCatch (do
      let live ← onBackend (NetlinkManager.dumpRoutes out.faults m.candidate.family)
      if !routePresent m.candidate live then do
        onEntry m.forwardJournal (setBoth .deletedOrAbsent .failed)
        leave (failCandidate out request .candidateRoute false absent)
      else pure none)
    fun _ => pure none
  match settled with
  | some r => pure (some r)
  | none => leave (failCandidate out request .candidateRoute true unknown)

def forwardRouteFailed (m : PlannedRouteMutation) : NetlinkError → Return
  | .routeInterfaceUnavailable what => do
    onResult fun r => { r with routeInterfaceUnavailable := true }
    settleRoute out request m what what
  | _ => settleRoute out request m "candidate route mutation failed" "candidate route mutation result is unknown"

def forwardRoute (i : Nat) (m : PlannedRouteMutation) : Return :=
  tryCatch (if m.replace then replaceForward out request i m else addForward out request i m)
    (forwardRouteFailed out request m)

def forwardRuleFailed (addStarted : Bool) (i : Nat) (m : PlannedRuleMutation) : Return := do
  onEntry m.forwardJournal (setBoth .effectUnknown .unknown)
  let settled ← tryCatch (do
      let live ← onBackend (NetlinkManager.dumpPolicyRules out.faults m.candidate.family)
      let observed := exactRuleState m.candidate live
      if observed == .empty then do
        onEntry m.forwardJournal (setBoth .deletedOrAbsent .failed)
        leave (failCandidate out request .candidateRule false "candidate rule mutation failed")
      else if addStarted && observed == .exactSingle then do
        onRule i fun m => { m with createdReceipt := true }
        onEntry m.forwardJournal (setBoth .created .completed)
        leave (failCandidate out request .candidateRule false
          "candidate rule mutation completed with an observed service-owned effect")
      else pure none)
    fun _ => pure none
  match settled with
  | some r => pure (some r)
  | none => leave (failCandidate out request .candidateRule true "candidate rule mutation result is unknown")

def addRuleForward (i : Nat) (m : PlannedRuleMutation) : Return := do
  let receipt ← mutating (.addRuleForFamily m.candidate)
    (NetlinkManager.addRuleForFamily out.faults m.candidate m.candidate.family)
  onRule i fun m => { m with createdReceipt := receipt == .created }
  onEntry m.forwardJournal (setBoth (if receipt == .created then .created else .alreadyPresent) .completed)
  pure none

def forwardRule (i : Nat) (m : PlannedRuleMutation) : Return :=
  tryCatch (do
    let currentRoutes ← onBackend (NetlinkManager.dumpRoutes out.faults m.candidate.family)
    if !ruleDependencyPresent request m.candidate currentRoutes then do
      onEntry m.forwardJournal (setState .failed)
      leave (failCandidate out request .candidateRuleDependency false "candidate rule route dependency disappeared")
    else do
      let currentRules ← onBackend (NetlinkManager.dumpPolicyRules out.faults m.candidate.family)
      match exactRuleState m.candidate currentRules with
      | .mismatch => do
        onEntry m.forwardJournal (setState .failed)
        leave (failCandidate out request .candidateRule false "foreign rule occupied the candidate identity")
      | .exactSingle => do
        onEntry m.forwardJournal (setBoth .alreadyPresent .completed)
        pure none
      | .empty => do
        let fence ← observeFence out request
        if fence != .current then
          leave (failForwardFence out request m.forwardJournal "routing fence changed before rule creation")
        else do
          enterMutation
          tryCatch (addRuleForward out i m) fun _ => forwardRuleFailed out request true i m)
  fun _ => forwardRuleFailed out request false i m

def verifyCandidate (plan : Plan) : Return :=
  tryCatch (do
    let liveRoutes ← onBackend (NetlinkManager.dumpRoutes out.faults 0)
    let liveRules ← onBackend (NetlinkManager.dumpPolicyRules out.faults 0)
    if !allDesiredExact request liveRoutes liveRules then do
      onEntry plan.candidateVerifyJournal (setState .failed)
      leave (failCandidate out request .candidateVerify false "candidate exact verification failed")
    else do
      let fence ← observeFence out request
      if fence != .current then
        leave (failForwardFence out request plan.candidateVerifyJournal
          "routing fence changed before candidate commit")
      else do
        onEntry plan.candidateVerifyJournal (setState .verified)
        onResult fun r => { r with candidateExactVerified := true }
        onJournal fun j => { j with candidateExactVerified := true }
        pure none)
  fun _ => do
    onEntry plan.candidateVerifyJournal (setState .unknown)
    leave (failCandidate out request .candidateVerify true "candidate exact verification unavailable")

end Forward

section Cleanup
variable (out : Outside) (request : RuntimeRoutingTransactionRequest)

structure CleanupFlags where
  pending : Bool := false
  superseded : Bool := false
  failureStage : RuntimeRoutingFailureStage := .none
  deriving DecidableEq, Repr

def CleanupFlags.fail (flags : CleanupFlags) (stage : RuntimeRoutingFailureStage) : CleanupFlags :=
  { flags with pending := true, failureStage := stage }

def cleanupRule (flags : CleanupFlags) (c : PlannedCleanupRule) : Exec CleanupFlags :=
  if flags.superseded then do
    onEntry c.journal (setState .skipped)
    pure flags
  else
    tryCatch (do
      let before ← onBackend (NetlinkManager.dumpPolicyRules out.faults c.stale.family)
      match exactRuleState c.stale before with
      | .empty => do
        onEntry c.journal (setState .skipped)
        pure flags
      | .mismatch => do
        onEntry c.journal (setBoth .preconditionMismatch .failed)
        pure (flags.fail .cleanupRule)
      | .exactSingle => do
        let fence ← observeFence out request
        if fence != .current then do
          onEntry c.journal (setState .skipped)
          pure { flags.fail .fence with superseded := true }
        else do
          enterMutation
          let receipt ← mutating (.deleteRuleIfExact c.stale)
            (NetlinkManager.deleteRuleIfExact out.faults c.stale c.stale.family)
          if receipt == .preconditionMismatch then do
            onEntry c.journal (setBoth .preconditionMismatch .failed)
            pure (flags.fail .cleanupRule)
          else do
            onEntry c.journal (setReceipt .deletedOrAbsent)
            let live ← onBackend (NetlinkManager.dumpPolicyRules out.faults c.stale.family)
            if exactRuleState c.stale live != .empty then do
              onEntry c.journal (setState .failed)
              pure (flags.fail .cleanupRule)
            else do
              onEntry c.journal (setState .completed)
              pure flags)
    fun _ => do
      onEntry c.journal (setBoth .effectUnknown .unknown)
      pure (flags.fail .cleanupRule)

def cleanupRules : CleanupFlags → List PlannedCleanupRule → Exec CleanupFlags
  | flags, [] => pure flags
  | flags, c :: rest => do
    let next ← cleanupRule out request flags c
    cleanupRules next rest

def staleRulesAbsent (plan : Plan) (live : List DumpedRule) : Bool :=
  !plan.staleRules.any fun c => exactRuleState c.stale live != .empty

def proveStaleRuleAbsence (plan : Plan) : Exec Bool :=
  tryCatch (do
    let live ← onBackend (NetlinkManager.dumpPolicyRules out.faults 0)
    let proven := staleRulesAbsent plan live
    onResult fun r => { r with staleRuleAbsenceProven := proven }
    onEntry plan.staleAbsenceJournal (setState (if proven then .verified else .failed))
    pure proven)
  fun _ => do
    onEntry plan.staleAbsenceJournal (setState .unknown)
    onResult fun r => { r with staleRuleAbsenceProven := false }
    pure false

def cleanupRoute (flags : CleanupFlags) (c : PlannedCleanupRoute) : Exec CleanupFlags :=
  if flags.superseded then do
    onEntry c.journal (setState .skipped)
    pure { flags with pending := true }
  else
    tryCatch (do
      let currentRules ← onBackend (NetlinkManager.dumpPolicyRules out.faults 0)
      let before ← onBackend (NetlinkManager.dumpRoutes out.faults c.stale.family)
      if tableHasUnaccountedRuleDependency c.stale request currentRules before then do
        onEntry c.journal (setState .skipped)
        onResult fun r => { r with
          staleRuleAbsenceProven := false
          detail := "routing cleanup_route blocked by an unaccounted policy-rule dependency" }
        pure (flags.fail .cleanupRoute)
      else
        match exactSlotState c.stale before with
        | .empty => do
          onEntry c.journal (setState .skipped)
          pure flags
        | .mismatch => do
          onEntry c.journal (setState .failed)
          pure (flags.fail .cleanupRoute)
        | .exactSingle => do
          let fence ← observeFence out request
          if fence != .current then do
            onEntry c.journal (setState .skipped)
            pure { flags.fail .fence with superseded := true }
          else do
            onResult fun r => { r with routeCleanupAttempted := true }
            enterMutation
            let receipt ← mutating (.deleteRouteIfExact c.stale)
              (NetlinkManager.deleteRouteIfExact out.faults c.stale)
            if receipt == .preconditionMismatch then do
              onEntry c.journal (setBoth .preconditionMismatch .failed)
              pure (flags.fail .cleanupRoute)
            else do
              onEntry c.journal (setReceipt .deletedOrAbsent)
              let live ← onBackend (NetlinkManager.dumpRoutes out.faults c.stale.family)
              if exactSlotState c.stale live != .empty then do
                onEntry c.journal (setState .failed)
                pure (flags.fail .cleanupRoute)
              else do
                onEntry c.journal (setState .completed)
                pure flags)
    fun _ => do
      onEntry c.journal (setBoth .effectUnknown .unknown)
      pure (flags.fail .cleanupRoute)

def cleanupRoutes : CleanupFlags → List PlannedCleanupRoute → Exec CleanupFlags
  | flags, [] => pure flags
  | flags, c :: rest => do
    let next ← cleanupRoute out request flags c
    cleanupRoutes next rest

def cleanupObsoleteRoutes (plan : Plan) (flags : CleanupFlags) (proven : Bool) : Exec CleanupFlags :=
  if !proven then do
    onEntries (plan.staleRoutes.map (·.journal)) (setState .skipped)
    pure { flags with
      pending := true
      failureStage := if flags.failureStage == .none then .cleanupRule else flags.failureStage }
  else cleanupRoutes out request flags plan.staleRoutes

def cleanupRemains (plan : Plan) (liveRoutes : List DumpedRoute) (liveRules : List DumpedRule) : Bool :=
  (plan.staleRoutes.any fun c => exactSlotState c.stale liveRoutes != .empty) ||
    (plan.staleRules.any fun c => exactRuleState c.stale liveRules != .empty) ||
    plan.staleRoutes.any fun c => tableHasUnaccountedRuleDependency c.stale request liveRules liveRoutes

def judgeCommitted (plan : Plan) (flags : CleanupFlags) (liveRoutes : List DumpedRoute)
    (liveRules : List DumpedRule) : Exec Unit :=
  if !allDesiredExact request liveRoutes liveRules then do
    onEntry plan.committedVerifyJournal (setState .failed)
    onResult fun r => { r with
      terminal := .partialUnknown
      detail := "routing committed_verify: desired route/rule state is not exact" }
    onJournal fun j => { j with failureStage := .committedVerify }
  else do
    onEntry plan.committedVerifyJournal (setState .verified)
    let pending := flags.pending || cleanupRemains request plan liveRoutes liveRules
    onResult fun r => { r with terminal := if pending then .committedCleanupPending else .candidateCommitted }
    onJournal fun j => { j with failureStage :=
      if !pending then .none
      else if flags.failureStage == .none then .cleanupRoute
      else flags.failureStage }

def committedUnobserved (plan : Plan) : Exec Unit := do
  onEntry plan.committedVerifyJournal (setState .unknown)
  onResult fun r => { r with
    terminal := .committedCleanupPending
    detail := "routing committed_verify: final route/rule observation failed" }
  onJournal fun j => { j with failureStage := .committedVerify }

def verifyCommitted (plan : Plan) (flags : CleanupFlags) : Exec Unit :=
  tryCatch (do
    let liveRoutes ← onBackend (NetlinkManager.dumpRoutes out.faults 0)
    let liveRules ← onBackend (NetlinkManager.dumpPolicyRules out.faults 0)
    let fence ← observeFence out request
    if fence != .current then do
      onResult fun r => { r with detail := "routing fence changed during cleanup" }
      judgeCommitted request plan (flags.fail .fence) liveRoutes liveRules
    else judgeCommitted request plan flags liveRoutes liveRules)
  fun _ => committedUnobserved plan

def defaultDetail : RuntimeRoutingFailureStage → String
  | .cleanupRule => "routing cleanup_rule: stale policy-rule absence was not verified"
  | .fence => "routing fence changed during cleanup"
  | _ => "routing cleanup_route: obsolete route cleanup was not verified"

def endCommitted : Exec RuntimeRoutingTransactionResult := do
  let s ← get
  if s.book.result.terminal != .candidateCommitted && s.book.result.detail == "" then
    onResult fun r => { r with detail := defaultDetail s.book.journal.failureStage }
  else pure ()
  onJournal fun j => { j with terminal := s.book.result.terminal }
  retainResultJournal
  returnResult

def markUnusedRollbacksSkipped : Exec Unit := do
  let s ← get
  onEntries (s.core.rules.map (·.rollbackJournal)) (setState .skipped)
  onEntries (s.core.routes.flatMap (·.rollbackJournals)) (setState .skipped)

def cleanup (plan : Plan) : Exec RuntimeRoutingTransactionResult := do
  markUnusedRollbacksSkipped
  enterPhase .cleanup
  let afterRules ← cleanupRules out request {} plan.staleRules
  let proven ← proveStaleRuleAbsence out plan
  let afterRoutes ← cleanupObsoleteRoutes out request plan afterRules proven
  verifyCommitted out request plan afterRoutes
  endCommitted

end Cleanup

section Execute
variable (out : Outside) (request : RuntimeRoutingTransactionRequest)

def refuse (terminal : RuntimeRoutingTerminal) (detail : String) : Exec RuntimeRoutingTransactionResult := do
  onResult fun r => { r with terminal, detail }
  pure (← get).book.result

def runPlan (plan : Plan) : Exec RuntimeRoutingTransactionResult := do
  match ← forEach (forwardRoute out request) 0 (← get).core.routes with
  | some r => pure r
  | none =>
    match ← forEach (forwardRule out request) 0 (← get).core.rules with
    | some r => pure r
    | none =>
      match ← verifyCandidate out request plan with
      | some r => pure r
      | none => cleanup out request plan

def runPublished (plan : Plan) : Exec RuntimeRoutingTransactionResult := do
  let retained := match out.publishJournal with
    | none => false
    | some publish => match publish plan.publishedJournal with
      | .ok kept => kept
      | .error _ => false
  if !retained then do
    publishEnd .preconditionFailed .journalPublish
    onResult fun r => { r with detail := "routing journal was not retained before execution" }
    retainResultJournal
    returnResult
  else do
    match ← observeFence out request with
    | .unavailable => do
      publishEnd .preconditionFailed .fence
      onResult fun r => { r with detail := "final routing fence unavailable" }
      returnResult
    | .stale => do
      publishEnd .staleBeforeMutation .fence
      onResult fun r => { r with detail := "runtime routing transaction fence changed while planning" }
      returnResult
    | .current => runPlan out request plan

def notePreimage (initialRoutes : List DumpedRoute) (initialRules : List DumpedRule) : Exec Unit :=
  if request.requirePriorPreimageProof then
    onResult fun r => { r with
      priorPreimageObserved := true
      priorPreimageExact := expectedInventoryExact request.priorRoutes request.priorRules initialRoutes initialRules }
  else pure ()

def runPlanned (initialRoutes : List DumpedRoute) (initialRules : List DumpedRule) :
    Exec RuntimeRoutingTransactionResult := do
  notePreimage request initialRoutes initialRules
  match buildPlan out.inet request initialRoutes initialRules with
  | .error detail => refuse .preconditionFailed detail
  | .ok plan => do
    modify fun s => { core := { s.core with routes := plan.routes, rules := plan.rules },
                      book := { s.book with journal := plan.publishedJournal } }
    runPublished out request plan

def runLeased : Exec RuntimeRoutingTransactionResult := do
  let inventory ← tryCatch (do
      let routes ← onBackend (NetlinkManager.dumpRoutes out.faults 0)
      let rules ← onBackend (NetlinkManager.dumpPolicyRules out.faults 0)
      pure (Except.ok (routes,rules)))
    fun e => pure (Except.error e)
  match inventory with
  | .error e => refuse .preconditionFailed (exceptionDetail "initial exact inventory unavailable" e)
  | .ok (routes,rules) => runPlanned out request routes rules

def execute : Exec RuntimeRoutingTransactionResult := do
  onResult fun r => { r with identity := request.identity }
  match out.currentFence with
  | none => do
    logFence .unavailable
    refuse .preconditionFailed "current routing fence probe is unavailable"
  | some probe =>
    match probe (← get).core.probes with
    | .error e => do
      logFence .unavailable
      refuse .preconditionFailed (exceptionDetail "current routing fence unavailable" e)
    | .ok current => do
      let reason := staleReason request.identity current
      onResult fun r => { r with staleReason := reason }
      if reason != .none then do
        logFence .stale
        refuse .staleBeforeMutation "runtime routing transaction fence is stale"
      else do
        logFence .current
        if !out.sameBackend || !out.supportsExactRoute || !out.supportsExactRule then
          refuse .preconditionFailed "routing backend lacks exact transactional capabilities"
        else
          match out.lease with
          | .error e =>
            refuse .preconditionFailed (exceptionDetail "routing backend exact lease unavailable" e)
          | .ok none =>
            refuse .preconditionFailed "routing backend lacks one combined exact transaction lease"
          | .ok (some ()) => runLeased out request

end Execute

def initialState (kernel : Kernel) : State := { core := { backend := { kernel } } }

def executeRuntimeRoutingTransaction (out : Outside) (request : RuntimeRoutingTransactionRequest)
    (kernel : Kernel) : EStateM.Result NetlinkError State RuntimeRoutingTransactionResult :=
  execute out request (initialState kernel)

end KeenPbr
