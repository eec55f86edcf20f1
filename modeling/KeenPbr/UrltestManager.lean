import Mathlib.Data.List.Sort
import KeenPbr.CircuitBreaker

/-! routing/urltest_manager.cpp. Every operation is one critical section of mutex_; what a public
method does between two of them (the executor, the scheduler, the on_change callback) is another
step of the interleaving. A std::map is a partial function. generation_ is a 64-bit counter that
only a probe, an abandonment or a clear advances; it counts without end here. -/
namespace KeenPbr

structure URLTestResult where
  success : Bool := false
  latencyMs : UInt32 := 0
  error : String := ""
  deriving DecidableEq, Repr

structure UrltestState where
  config : Outbound
  lastResults : String → Option URLTestResult := fun _ => none
  circuitBreakers : String → Option CircuitBreaker := fun _ => none
  directChildInterfaces : String → Option String := fun _ => none
  priorityRecoverySuccesses : String → Option UInt32 := fun _ => none
  selectedOutbound : String := ""
  schedulerTaskId : Int := -1
  probeInflight : Bool := false
  selectionPending : Bool := false
  generation : Nat := 0
  externalHealthRequestSerial : UInt64 := 0
  externalHealthCompletedSerial : UInt64 := 0
  probeExternalHealthSerial : UInt64 := 0
  externalHealthFailures : UInt8 := 0
  externalHealthRetryTaskId : Int := -1
  externalHealthRetryScheduling : Bool := false
  externalHealthRetryEpoch : UInt64 := 0

inductive UrltestSelectionChangeReason where
  | initial
  | previousUnhealthy
  | healthyRebalance
  deriving DecidableEq, Repr

structure UrltestSelectionChange where
  urltestTag : String
  probeGeneration : Nat
  previousChildTag : String
  newChildTag : String
  reason : UrltestSelectionChangeReason
  deriving DecidableEq, Repr

structure ExternalHealthResolution where
  launchTrailing : Bool := false
  ensureRetry : Bool := false
  retryTaskToCancel : Int := -1
  deriving DecidableEq, Repr

inductive ProbeReason where
  | initial
  | manual
  | scheduled
  | externalHealth
  deriving DecidableEq, Repr

/- What queue_probe_unlocked hands to its workers. -/
structure Probe where
  tag : String
  generation : Nat
  candidates : List String
  deriving DecidableEq, Repr

def kExternalHealthMaxFailures : UInt8 := 4

def nextNonzeroSerial (current : UInt64) : UInt64 := if current = 0xFFFFFFFFFFFFFFFF then 1 else current + 1

namespace UrltestState
variable (state : UrltestState)

def children : List String := (state.config.outboundGroups.getD []).flatMap (·.outbounds)

def priorityMode : Bool := state.config.selectionMode.getD .latency == .priority

def externalPending : Bool := state.externalHealthRequestSerial != state.externalHealthCompletedSerial

def healthyResult (child : String) : Option URLTestResult :=
  if state.priorityMode && (state.priorityRecoverySuccesses child).isSome then none
  else
    match state.circuitBreakers child with
    | none => none
    | some breaker =>
      if breaker.stateOf child != .closed then none else (state.lastResults child).filter (·.success)

def sortedGroups (groups : List OutboundGroup) : List OutboundGroup :=
  groups.insertionSort fun lhs rhs => toUint32 (lhs.weight.getD 1) ≤ toUint32 (rhs.weight.getD 1)

def minLatency (group : OutboundGroup) : UInt32 :=
  group.outbounds.foldl (fun low child =>
    match state.healthyResult child with
    | none => low
    | some result => if result.latencyMs < low then result.latencyMs else low) 0xFFFFFFFF

def selectFromGroup (group : OutboundGroup) : Option String :=
  if state.priorityMode then group.outbounds.find? fun child => (state.healthyResult child).isSome
  else if state.minLatency group == 0xFFFFFFFF then none
  else
    let toleratedLatency := (state.minLatency group).toNat + (toUint32 (state.config.toleranceMs.getD 100)).toNat
    let tolerated := fun child => (state.healthyResult child).any fun result => result.latencyMs.toNat ≤ toleratedLatency
    if !state.selectedOutbound.isEmpty && group.outbounds.contains state.selectedOutbound && tolerated state.selectedOutbound then
      some state.selectedOutbound
    else group.outbounds.find? tolerated

def selectOutboundFromState : String :=
  match state.config.outboundGroups with
  | none => ""
  | some groups => ((sortedGroups groups).findSome? state.selectFromGroup).getD ""

def recordClaimedExternalHealthFailure : UrltestState :=
  if state.probeExternalHealthSerial = 0 then state
  else
    let dropped := { state with probeExternalHealthSerial := 0 }
    if dropped.externalPending && dropped.externalHealthFailures < kExternalHealthMaxFailures then
      { dropped with externalHealthFailures := dropped.externalHealthFailures + 1 }
    else dropped

/- The first half of finish_external_health_probe_locked: settling the claimed serial. -/
def settleClaim (controllerAdmitted : Bool) : UrltestState :=
  let claimedSerial := state.probeExternalHealthSerial
  let dropped := { state with probeExternalHealthSerial := 0 }
  if claimedSerial = 0 then dropped
  else if controllerAdmitted then
    { dropped with externalHealthCompletedSerial := claimedSerial, externalHealthFailures := 0 }
  else if dropped.externalHealthFailures < kExternalHealthMaxFailures then
    { dropped with externalHealthFailures := dropped.externalHealthFailures + 1 }
  else dropped

def finishExternalHealthProbe (controllerAdmitted : Bool) : UrltestState × ExternalHealthResolution :=
  let settled := state.settleClaim controllerAdmitted
  if !settled.externalPending then
    ({ settled with
        externalHealthRetryTaskId := -1
        externalHealthRetryScheduling := false
        externalHealthRetryEpoch := nextNonzeroSerial settled.externalHealthRetryEpoch
        externalHealthFailures := 0 },
      { retryTaskToCancel := settled.externalHealthRetryTaskId })
  else
    let ensureRetry := decide (settled.externalHealthFailures < kExternalHealthMaxFailures)
    (settled,
      { ensureRetry
        launchTrailing := (state.probeExternalHealthSerial == 0 || controllerAdmitted) && ensureRetry })

/- complete_selection without resume_pending: the serial stays, its timer goes. -/
def retireRetry : UrltestState :=
  { state with
    externalHealthRetryTaskId := if state.externalHealthRetryTaskId ≥ 0 then -1 else state.externalHealthRetryTaskId
    externalHealthRetryScheduling := false
    externalHealthRetryEpoch := nextNonzeroSerial state.externalHealthRetryEpoch }

def retiredResolution (resolution : ExternalHealthResolution) : ExternalHealthResolution :=
  { retryTaskToCancel :=
      if state.externalHealthRetryTaskId ≥ 0 then state.externalHealthRetryTaskId else resolution.retryTaskToCancel }

/- One turn of the loop over the results in commit_probe_results, on the private copy. -/
def commitResult (previousSelected : String) (now : Int) (child : String) (result : URLTestResult) : UrltestState :=
  match state.circuitBreakers child with
  | none => state
  | some breaker =>
    let ended := breaker.endRequest child
    let recorded := if result.success then ended.recordSuccess child else ended.recordFailure child now
    let threshold := toUint32 ((state.config.circuitBreaker.getD {}).successThreshold.getD 2)
    let recovery :=
      if state.priorityMode && (state.directChildInterfaces child).isSome then
        match result.success,state.priorityRecoverySuccesses child with
        | false,recovering =>
          if child == previousSelected || recovering.isSome then
            Function.update state.priorityRecoverySuccesses child (some 0)
          else state.priorityRecoverySuccesses
        | true,some successes =>
          Function.update state.priorityRecoverySuccesses child
            (if successes + 1 ≥ threshold then none else some (successes + 1))
        | true,none => state.priorityRecoverySuccesses
      else state.priorityRecoverySuccesses
    { state with
      circuitBreakers := Function.update state.circuitBreakers child (some recorded)
      priorityRecoverySuccesses := recovery
      lastResults := Function.update state.lastResults child (some result) }

def commitResults (previousSelected : String) (now : Int) (results : List (String × URLTestResult)) : UrltestState :=
  results.foldl (fun committed entry => committed.commitResult previousSelected now entry.1 entry.2) state

def changeReason (previousSelected : String) : UrltestSelectionChangeReason :=
  if previousSelected.isEmpty then .initial
  else
    let healthy := (state.lastResults previousSelected).any (·.success) &&
      (state.circuitBreakers previousSelected).any fun breaker => breaker.stateOf previousSelected == .closed
    if healthy then .healthyRebalance else .previousUnhealthy

def settleCursor (previousChildTag : String) (transitionAdmitted : Bool) : UrltestState :=
  if transitionAdmitted then state else { state with selectionPending := false, selectedOutbound := previousChildTag }

def startProbe (generation : Nat) : UrltestState :=
  { state with probeInflight := true, probeExternalHealthSerial := 0, generation }

def mapBreaker (f : CircuitBreaker → CircuitBreaker) (child : String) : UrltestState :=
  match state.circuitBreakers child with
  | none => state
  | some breaker => { state with circuitBreakers := Function.update state.circuitBreakers child (some (f breaker)) }

def beginRequests (candidates : List String) : UrltestState :=
  candidates.foldl (fun begun child => begun.mapBreaker (·.beginRequest child) child) state

def endRequests (candidates : List String) : UrltestState :=
  candidates.foldl (fun ended child => ended.mapBreaker (·.endRequest child) child) state

/- One turn of the candidate loops of queue_probe_unlocked: is_allowed may move a breaker to half-open. -/
def checkCandidate (marks : String → Option UInt32) (now : Int) (checked : UrltestState × List String) (child : String) :
    UrltestState × List String :=
  match marks child,checked.1.circuitBreakers child with
  | some _,some breaker =>
    let (allowed,moved) := breaker.isAllowed child now
    ({ checked.1 with circuitBreakers := Function.update checked.1.circuitBreakers child (some moved) },
      if allowed then checked.2 ++ [child] else checked.2)
  | _,_ => checked

def collectCandidates (marks : String → Option UInt32) (now : Int) : UrltestState × List String :=
  state.children.foldl (checkCandidate marks now) (state,[])

end UrltestState

structure UrltestManager where
  states : String → Option UrltestState := fun _ => none
  marksGeneration : String → Option UInt32 := fun _ => none
  generation : Nat := 1

namespace UrltestManager
variable (manager : UrltestManager)

def put (tag : String) (state : UrltestState) : UrltestManager :=
  { manager with states := Function.update manager.states tag (some state) }

def urltestState (ut : Outbound) (initialSelectedOutbound : String) (directChildInterfaces : String → Option String)
    (taskId : Int) : UrltestState :=
  let children := (ut.outboundGroups.getD []).flatMap (·.outbounds)
  { config := ut
    circuitBreakers := fun child => if child ∈ children then some { config := ut.circuitBreaker.getD {} } else none
    directChildInterfaces := fun child =>
      if child ∈ children then (directChildInterfaces child).filter (!·.isEmpty) else none
    selectedOutbound := if initialSelectedOutbound ∈ children then initialSelectedOutbound else ""
    schedulerTaskId := taskId }

def registerUrltest (ut : Outbound) (initialSelectedOutbound : String) (directChildInterfaces : String → Option String)
    (taskId : Int) : UrltestManager :=
  match manager.states ut.tag with
  | some _ => manager
  | none => manager.put ut.tag (urltestState ut initialSelectedOutbound directChildInterfaces taskId)

def requestTrailing (state : UrltestState) (reason : ProbeReason) : UrltestState :=
  if state.selectionPending && (reason == .manual || reason == .scheduled) &&
      (state.externalHealthRequestSerial == state.probeExternalHealthSerial || !state.externalPending) then
    { state with
      externalHealthRequestSerial := nextNonzeroSerial state.externalHealthRequestSerial
      externalHealthFailures := 0 }
  else state

def claimExternalHealth (state : UrltestState) : UrltestState :=
  if state.externalPending then { state with probeExternalHealthSerial := state.externalHealthRequestSerial } else state

def admitProbe (state : UrltestState) (now : Int) : UrltestState × List String :=
  let (checked,candidates) := state.collectCandidates manager.marksGeneration now
  (claimExternalHealth ((checked.startProbe manager.generation).beginRequests candidates),candidates)

def queueProbe (tag : String) (reason : ProbeReason) (now : Int) : UrltestManager × Option Probe :=
  match manager.states tag with
  | none => (manager,none)
  | some state =>
    if state.probeInflight then (manager.put tag (requestTrailing state reason),none)
    else
      ({ manager.put tag (manager.admitProbe state now).1 with generation := manager.generation + 1 },
        some { tag, generation := manager.generation, candidates := (manager.admitProbe state now).2 })

/- The edge of trigger_external_health_test. -/
def recordEdge (state : UrltestState) : UrltestState :=
  let rebased :=
    if state.externalHealthRequestSerial = 0xFFFFFFFFFFFFFFFF ∧
        state.externalHealthCompletedSerial = state.externalHealthRequestSerial then
      { state with externalHealthRequestSerial := 0, externalHealthCompletedSerial := 0 }
    else state
  { rebased with
    externalHealthRequestSerial :=
      if rebased.externalHealthRequestSerial = 0xFFFFFFFFFFFFFFFF then rebased.externalHealthRequestSerial
      else rebased.externalHealthRequestSerial + 1
    externalHealthFailures := 0 }

def triggerExternalHealthTest (tag : String) : UrltestManager :=
  match manager.states tag with
  | none => manager
  | some state => manager.put tag (recordEdge state)

/- commit_probe_results up to the callback. -/
def commitProbeResults (tag : String) (generation : Nat) (results : List (String × URLTestResult)) (now : Int) :
    UrltestManager × Option UrltestSelectionChange × Option ExternalHealthResolution :=
  match manager.states tag with
  | none => (manager,none,none)
  | some state =>
    if generation != state.generation || !state.probeInflight then (manager,none,none)
    else
      let previousSelected := state.selectedOutbound
      let candidate := state.commitResults previousSelected now results
      let newSelected := candidate.selectOutboundFromState
      let published := { candidate with selectedOutbound := newSelected }
      if newSelected != previousSelected then
        (manager.put tag published,
          some {
            urltestTag := tag
            probeGeneration := generation
            previousChildTag := previousSelected
            newChildTag := newSelected
            reason := candidate.changeReason previousSelected },
          none)
      else
        let finish := { published with probeInflight := false }.finishExternalHealthProbe true
        (manager.put tag finish.1,none,some finish.2)

/- commit_probe_results after the callback. -/
def settleChange (change : UrltestSelectionChange) (transitionAdmitted : Bool) :
    UrltestManager × Option ExternalHealthResolution :=
  match manager.states change.urltestTag with
  | none => (manager,none)
  | some state =>
    if state.generation != change.probeGeneration || !state.probeInflight then (manager,none)
    else
      let settled := state.settleCursor change.previousChildTag transitionAdmitted
      if settled.selectionPending then (manager,none)
      else
        let finish := { settled with probeInflight := false }.finishExternalHealthProbe transitionAdmitted
        (manager.put change.urltestTag finish.1,some finish.2)

def abandonProbe (tag : String) (generation : Nat) (candidateTags : List String) : UrltestManager :=
  match manager.states tag with
  | none => manager
  | some state =>
    if state.generation != generation || !state.probeInflight then manager
    else
      let dropped := { state with probeInflight := false, selectionPending := false }.recordClaimedExternalHealthFailure
      { manager.put tag ({ dropped with generation := manager.generation }.endRequests candidateTags) with
        generation := manager.generation + 1 }

def deferSelectionCompletion (tag : String) (expectedGeneration : Nat) : UrltestManager × Bool :=
  match manager.states tag with
  | none => (manager,false)
  | some state =>
    if state.generation != expectedGeneration || !state.probeInflight then (manager,false)
    else (manager.put tag { state with selectionPending := true },true)

def completeSelection (tag : String) (expectedGeneration : Nat) (resumePending : Bool) :
    UrltestManager × Option ExternalHealthResolution :=
  match manager.states tag with
  | none => (manager,none)
  | some state =>
    if state.generation != expectedGeneration || !state.selectionPending then (manager,none)
    else
      let finish := { state with selectionPending := false, probeInflight := false }.finishExternalHealthProbe true
      if resumePending then (manager.put tag finish.1,some finish.2)
      else (manager.put tag finish.1.retireRetry,some (finish.1.retiredResolution finish.2))

def synchronizeSelected (tag selectedOutbound : String) : UrltestManager × Bool :=
  match manager.states tag with
  | none => (manager,false)
  | some state =>
    if !selectedOutbound.isEmpty && (state.circuitBreakers selectedOutbound).isNone then (manager,false)
    else (manager.put tag { state with selectedOutbound },true)

def synchronizeSelectedIfGeneration (tag : String) (expectedGeneration : Nat) (selectedOutbound : String) :
    UrltestManager × Bool :=
  if ((manager.states tag).map (·.generation)) != some expectedGeneration then (manager,false)
  else manager.synchronizeSelected tag selectedOutbound

def clear : UrltestManager := { manager with states := fun _ => none, generation := manager.generation + 1 }

def replaceMarksGeneration (marksGeneration : String → Option UInt32) : UrltestManager :=
  { manager.clear with marksGeneration }

def recordExternalHealthStartFailure (tag : String) (expectedFailures : UInt8) : UrltestManager :=
  match manager.states tag with
  | none => manager
  | some state =>
    if !state.externalPending || state.probeInflight || state.externalHealthFailures != expectedFailures then manager
    else if state.externalHealthFailures < kExternalHealthMaxFailures then
      manager.put tag { state with externalHealthFailures := state.externalHealthFailures + 1 }
    else manager

/- ensure_external_health_retry: the reservation, and the publication of the scheduled task. -/
def reserveExternalHealthRetry (tag : String) : UrltestManager :=
  match manager.states tag with
  | none => manager
  | some state =>
    if !state.externalPending || state.externalHealthFailures ≥ kExternalHealthMaxFailures ||
        state.externalHealthRetryTaskId ≥ 0 || state.externalHealthRetryScheduling then manager
    else
      manager.put tag { state with
        externalHealthRetryScheduling := true
        externalHealthRetryEpoch := nextNonzeroSerial state.externalHealthRetryEpoch }

def publishExternalHealthRetry (tag : String) (registrationTaskId : Int) (retryEpoch : UInt64) (scheduledTaskId : Int) :
    UrltestManager :=
  match manager.states tag with
  | none => manager
  | some state =>
    if state.schedulerTaskId != registrationTaskId || !state.externalHealthRetryScheduling ||
        state.externalHealthRetryEpoch != retryEpoch then manager
    else if scheduledTaskId ≥ 0 && state.externalPending && state.externalHealthFailures < kExternalHealthMaxFailures &&
        state.externalHealthRetryTaskId < 0 then
      manager.put tag { state with externalHealthRetryScheduling := false, externalHealthRetryTaskId := scheduledTaskId }
    else manager.put tag { state with externalHealthRetryScheduling := false }

def runExternalHealthRetry (tag : String) (registrationTaskId : Int) (retryEpoch : UInt64) : UrltestManager :=
  match manager.states tag with
  | none => manager
  | some state =>
    if state.schedulerTaskId != registrationTaskId || state.externalHealthRetryTaskId < 0 ||
        state.externalHealthRetryEpoch != retryEpoch then manager
    else if !state.externalPending || state.externalHealthFailures ≥ kExternalHealthMaxFailures then
      manager.put tag { state with
        externalHealthRetryTaskId := -1
        externalHealthRetryEpoch := nextNonzeroSerial state.externalHealthRetryEpoch }
    else manager

end UrltestManager

end KeenPbr
