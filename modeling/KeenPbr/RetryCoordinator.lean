import KeenPbr.Runs
import Mathlib.Data.Finset.Basic

/-! daemon/runtime_recovery_policy.hpp, RuntimeFirewallRetryCoordinator. A stretch of code under
operation_mutex_ is one section, total and atomic; a call that opens several is a script of them,
with what the callbacks and the allocator answer as its inputs. What a callback itself does to the
coordinator are sections of other scripts in between. complete_attempt and the schedules that give
their claim up when the timer fires are left out. -/
namespace KeenPbr.RetryCoordinator

section Recovery

structure OwnedConntrackCleanupSnapshot where
  runtimeGeneration : UInt64 := 0
  ownedMask : UInt32 := 0
  marks : Finset UInt32 := ∅
  priorityMarks : Finset UInt32 := ∅
  ipv6Enabled : Bool := true
  deriving DecidableEq

def OwnedConntrackCleanupSnapshot.valid (s : OwnedConntrackCleanupSnapshot) : Bool :=
  s.runtimeGeneration ≠ 0 && s.ownedMask ≠ 0 && s.marks ≠ ∅

def mergeOwnedConntrackCleanupSnapshot (left right : OwnedConntrackCleanupSnapshot) : OwnedConntrackCleanupSnapshot :=
  if !left.valid then right
  else if !right.valid then left
  else if left.runtimeGeneration ≠ right.runtimeGeneration || left.ownedMask ≠ right.ownedMask then
    if left.runtimeGeneration > right.runtimeGeneration then left else right
  else { left with
    marks := left.marks ∪ right.marks
    priorityMarks := left.priorityMarks ∪ right.priorityMarks
    ipv6Enabled := left.ipv6Enabled || right.ipv6Enabled }

/- owned_snat_recovery_equal compares every field, so it is the equality here. -/
structure OwnedSnatRecovery where
  requested : Bool := false
  missingObserved : Bool := false
  cleanupSnapshot : Option OwnedConntrackCleanupSnapshot := none
  deriving DecidableEq

def mergeOwnedSnatRecovery (left right : OwnedSnatRecovery) : OwnedSnatRecovery where
  requested := left.requested || right.requested
  missingObserved := left.missingObserved || right.missingObserved
  cleanupSnapshot := match left.cleanupSnapshot,right.cleanupSnapshot with
    | some l,some r => some (mergeOwnedConntrackCleanupSnapshot l r)
    | some l,none => some l
    | none,r => r

end Recovery

inductive Phase where
  | timerPending
  | workerQueued
  | workerRunning
  | controlPending
  deriving DecidableEq, Repr

structure Claim where
  serial : UInt64 := 0
  runtimeGeneration : UInt64 := 0
  attempt : Nat := 0
  phase : Phase := .timerPending
  recoveryRevision : UInt64 := 0
  deriving DecidableEq

structure PreparedCatalog where
  runtimeGeneration : UInt64
  deriving DecidableEq

structure Coordinator where
  retryTaskId : Int := -1
  scheduleSerial : UInt64 := 0
  activeScheduleSerial : UInt64 := 0
  activeOperationGeneration : UInt64 := 0
  activeOperationAttempt : Nat := 0
  activeOperationPhase : Phase := .timerPending
  activeOperationRecoveryRevision : UInt64 := 0
  pendingOwnedSnatRecovery : OwnedSnatRecovery := {}
  pendingRecoveryRevision : UInt64 := 0
  trailingAttemptRequested : Bool := false
  activeOperationAcceptsPreparedCatalog : Bool := false
  activeOperationRetainsClaim : Bool := false
  activePreparedCatalog : Option PreparedCatalog := none
  trailingPreparedCatalog : Option PreparedCatalog := none
  deriving DecidableEq

/- Where an allocation fails in a section: before it changed anything, or when the result is copied out. -/
inductive Fault where
  | none
  | early
  | late
  deriving DecidableEq, Repr

section Helpers
variable (c : Coordinator)

def following (n : UInt64) : UInt64 := if n + 1 = 0 then 1 else n + 1

def advanceRecoveryRevision : Coordinator := { c with pendingRecoveryRevision := following c.pendingRecoveryRevision }

def retainRecoveryLocked (snatRecovery : OwnedSnatRecovery) : Coordinator :=
  let merged := mergeOwnedSnatRecovery c.pendingOwnedSnatRecovery snatRecovery
  if merged = c.pendingOwnedSnatRecovery then c
  else advanceRecoveryRevision { c with pendingOwnedSnatRecovery := merged }

def operationMatches (claim : Claim) : Bool :=
  claim.serial ≠ 0 && c.activeScheduleSerial == claim.serial && c.activeOperationGeneration == claim.runtimeGeneration &&
    c.activeOperationAttempt == claim.attempt && c.activeOperationPhase == claim.phase &&
    c.activeOperationRecoveryRevision == claim.recoveryRevision

def releaseRetrySlot : Coordinator :=
  { c with
    activeScheduleSerial := 0
    activeOperationGeneration := 0
    activeOperationAttempt := 0
    activeOperationPhase := .timerPending
    activeOperationRecoveryRevision := 0
    retryTaskId := -1
    trailingAttemptRequested := false
    activeOperationAcceptsPreparedCatalog := false
    activeOperationRetainsClaim := false
    activePreparedCatalog := none
    trailingPreparedCatalog := none }

def coalesces (retryAttempt : Nat) : Bool := retryAttempt == 0 && c.activeScheduleSerial != 0

def retainedGeneration : UInt64 :=
  match c.trailingPreparedCatalog with
  | some trailing => trailing.runtimeGeneration
  | none => c.activeOperationGeneration

end Helpers

section BeginAttempt
variable (c : Coordinator) (retryAttempt : Nat) (snatRecovery : OwnedSnatRecovery) (preparedCatalog : Option PreparedCatalog)

inductive CatalogFate where
  | left
  | active
  | trailing
  deriving DecidableEq, Repr

def catalogFate (catalog : PreparedCatalog) : CatalogFate :=
  if coalesces c retryAttempt && c.activeOperationRetainsClaim && c.activeOperationAcceptsPreparedCatalog then
    if c.activeOperationPhase == .timerPending && catalog.runtimeGeneration == c.activeOperationGeneration then .active
    else if catalog.runtimeGeneration ≥ retainedGeneration c then .trailing
    else .left
  else .left

def fateOf : CatalogFate :=
  match preparedCatalog with
  | some catalog => catalogFate c retryAttempt catalog
  | none => .left

def admitCatalog : Coordinator :=
  match fateOf c retryAttempt preparedCatalog with
  | .active => { c with activePreparedCatalog := preparedCatalog }
  | .trailing => { c with trailingPreparedCatalog := preparedCatalog, trailingAttemptRequested := true }
  | .left => c

def trailsBehind : Bool :=
  coalesces c retryAttempt && c.activeOperationPhase != .timerPending &&
    (preparedCatalog.isNone || fateOf c retryAttempt preparedCatalog != .left || snatRecovery.requested)

def markTrailing (revisionBefore : UInt64) : Coordinator :=
  if trailsBehind c retryAttempt snatRecovery preparedCatalog then
    let admitted := { admitCatalog c retryAttempt preparedCatalog with trailingAttemptRequested := true }
    if snatRecovery.requested && c.pendingRecoveryRevision == revisionBefore then advanceRecoveryRevision admitted
    else admitted
  else admitCatalog c retryAttempt preparedCatalog

structure Admission where
  coalesced : Bool
  snatRecovery : OwnedSnatRecovery
  recoveryRevision : UInt64
  preparedNow : Option PreparedCatalog

def beginAttempt : Fault → Coordinator
  | .none => markTrailing (retainRecoveryLocked c snatRecovery) retryAttempt snatRecovery preparedCatalog c.pendingRecoveryRevision
  | .early => c
  | .late => retainRecoveryLocked c snatRecovery

def admission : Admission where
  coalesced := coalesces c retryAttempt
  snatRecovery := (retainRecoveryLocked c snatRecovery).pendingOwnedSnatRecovery
  recoveryRevision := (beginAttempt c retryAttempt snatRecovery preparedCatalog .none).pendingRecoveryRevision
  preparedNow := if fateOf (retainRecoveryLocked c snatRecovery) retryAttempt preparedCatalog = .left then preparedCatalog else none

end BeginAttempt

section Claims
variable (c : Coordinator) (claim : Claim)

def retainRecovery (snatRecovery : OwnedSnatRecovery) : Fault → Coordinator
  | .early => c
  | _ => retainRecoveryLocked c snatRecovery

def clearOwnedSnatRecovery : Coordinator :=
  if c.pendingOwnedSnatRecovery = {} then c
  else advanceRecoveryRevision { c with pendingOwnedSnatRecovery := {} }

def reserveRetrySlot (runtimeGeneration : UInt64) (attempt : Nat) (preparedCatalog : Option PreparedCatalog)
    (acceptPreparedCatalog retainOperationClaim : Bool) : Coordinator :=
  if c.activeScheduleSerial ≠ 0 then c
  else { c with
    scheduleSerial := following c.scheduleSerial
    activeScheduleSerial := following c.scheduleSerial
    activeOperationGeneration := runtimeGeneration
    activeOperationAttempt := attempt
    activeOperationPhase := .timerPending
    activeOperationRecoveryRevision := c.pendingRecoveryRevision
    activePreparedCatalog := preparedCatalog
    activeOperationAcceptsPreparedCatalog := acceptPreparedCatalog
    activeOperationRetainsClaim := retainOperationClaim
    retryTaskId := -1 }

def reservedClaim (runtimeGeneration : UInt64) (attempt : Nat) : Option Claim :=
  if c.activeScheduleSerial ≠ 0 then none
  else some ⟨following c.scheduleSerial,runtimeGeneration,attempt,.timerPending,c.pendingRecoveryRevision⟩

def authorizes (phases : List Phase) : Bool := phases.contains claim.phase && operationMatches c claim

def fires : Fault → Bool
  | .none => authorizes c claim [.timerPending]
  | _ => false

def beginQueuedOperation (fault : Fault) : Coordinator :=
  if fires c claim fault then
    { c with
      activeOperationPhase := .workerQueued
      activeOperationRecoveryRevision := c.pendingRecoveryRevision
      retryTaskId := -1 }
  else c

def queuedClaim : Claim := { claim with phase := .workerQueued, recoveryRevision := c.pendingRecoveryRevision }

inductive TimerTaskRegistration where
  | consumed
  | installed
  | rejected
  deriving DecidableEq, Repr

def registration (taskId : Int) : TimerTaskRegistration :=
  if !operationMatches c claim then .consumed else if taskId < 0 then .rejected else .installed

def registerTimerTask (taskId : Int) : Coordinator :=
  if registration c claim taskId = .installed then { c with retryTaskId := taskId } else c

def beginWorker : Coordinator :=
  if authorizes c claim [.workerQueued] then
    { c with activeOperationPhase := .workerRunning, activePreparedCatalog := none, retryTaskId := -1 }
  else c

def beginControl (empty : Bool) : Coordinator :=
  if empty && authorizes c claim [.workerRunning] then { c with activeOperationPhase := .controlPending } else c

def completes (empty : Bool) : Fault → Bool
  | .none => empty && authorizes c claim [.controlPending]
  | _ => false

def completeOperation (empty : Bool) (fault : Fault) : Coordinator :=
  if completes c claim empty fault then releaseRetrySlot c else c

def clearsCompleted (succeeded : Bool) (processedRecovery : OwnedSnatRecovery) : Bool :=
  succeeded && processedRecovery.requested && !(c.pendingRecoveryRevision > claim.recoveryRevision)

def completedRecovery (succeeded : Bool) (processedRecovery : OwnedSnatRecovery) : OwnedSnatRecovery :=
  if clearsCompleted c claim succeeded processedRecovery then {}
  else mergeOwnedSnatRecovery c.pendingOwnedSnatRecovery processedRecovery

def publishCompleted (succeeded : Bool) (processedRecovery : OwnedSnatRecovery) : Coordinator :=
  if clearsCompleted c claim succeeded processedRecovery then
    advanceRecoveryRevision { c with pendingOwnedSnatRecovery := completedRecovery c claim succeeded processedRecovery }
  else { c with pendingOwnedSnatRecovery := completedRecovery c claim succeeded processedRecovery }

def completeOperationWith (succeeded : Bool) (processedRecovery : OwnedSnatRecovery) (empty : Bool) (fault : Fault) : Coordinator :=
  if completes c claim empty fault then releaseRetrySlot (publishCompleted c claim succeeded processedRecovery) else c

def terminateOperation : Coordinator :=
  if authorizes c claim [.timerPending,.workerQueued] then releaseRetrySlot c else c

def cancelOperation : Coordinator :=
  if authorizes c claim [.timerPending,.workerQueued] then releaseRetrySlot c else c

/- cancel and cancel_timer_for_terminal: only a timer is cancelled, and its serial is left behind. -/
def cancelTimer : Coordinator :=
  if c.activeScheduleSerial = 0 || c.activeOperationPhase ≠ .timerPending then c
  else { releaseRetrySlot c with scheduleSerial := following c.scheduleSerial }

end Claims

section Scripts

/- One stretch under operation_mutex_. -/
inductive Section where
  | beginAttempt (retryAttempt : Nat) (snatRecovery : OwnedSnatRecovery) (preparedCatalog : Option PreparedCatalog) (fault : Fault)
  | retainRecovery (snatRecovery : OwnedSnatRecovery) (fault : Fault)
  | clearOwnedSnatRecovery
  | reserveRetrySlot (runtimeGeneration : UInt64) (attempt : Nat) (preparedCatalog : Option PreparedCatalog)
      (acceptPreparedCatalog retainOperationClaim : Bool)
  | beginQueuedOperation (claim : Claim) (fault : Fault)
  | registerTimerTask (claim : Claim) (taskId : Int)
  | beginWorker (claim : Claim)
  | beginControl (claim : Claim) (empty : Bool)
  | completeOperation (claim : Claim) (empty : Bool) (fault : Fault)
  | completeOperationWith (claim : Claim) (succeeded : Bool) (processedRecovery : OwnedSnatRecovery) (empty : Bool) (fault : Fault)
  | terminateOperation (claim : Claim)
  | cancelOperation (claim : Claim)
  | cancelTimer

def Section.run (c : Coordinator) : Section → Coordinator
  | .beginAttempt retryAttempt snatRecovery preparedCatalog fault =>
    RetryCoordinator.beginAttempt c retryAttempt snatRecovery preparedCatalog fault
  | .retainRecovery snatRecovery fault => RetryCoordinator.retainRecovery c snatRecovery fault
  | .clearOwnedSnatRecovery => RetryCoordinator.clearOwnedSnatRecovery c
  | .reserveRetrySlot generation attempt preparedCatalog accept retain =>
    RetryCoordinator.reserveRetrySlot c generation attempt preparedCatalog accept retain
  | .beginQueuedOperation claim fault => RetryCoordinator.beginQueuedOperation c claim fault
  | .registerTimerTask claim taskId => RetryCoordinator.registerTimerTask c claim taskId
  | .beginWorker claim => RetryCoordinator.beginWorker c claim
  | .beginControl claim empty => RetryCoordinator.beginControl c claim empty
  | .completeOperation claim empty fault => RetryCoordinator.completeOperation c claim empty fault
  | .completeOperationWith claim succeeded processed empty fault =>
    RetryCoordinator.completeOperationWith c claim succeeded processed empty fault
  | .terminateOperation claim => RetryCoordinator.terminateOperation c claim
  | .cancelOperation claim => RetryCoordinator.cancelOperation c claim
  | .cancelTimer => RetryCoordinator.cancelTimer c

inductive Reply where
  | threw
  | yes
  | no
  | task (id : Int)
  deriving DecidableEq, Repr

inductive Script where
  | stop
  | only (next : Section)
  | beginAttempt (retryAttempt : Nat) (snatRecovery : OwnedSnatRecovery) (preparedCatalog : Option PreparedCatalog)
      (next : Option Admission → Script)
  | retainRecovery (snatRecovery : OwnedSnatRecovery) (next : Option OwnedSnatRecovery → Script)
  | retryPending (next : Bool → Script)
  | reserveRetrySlot (runtimeGeneration : UInt64) (attempt : Nat) (preparedCatalog : Option PreparedCatalog)
      (acceptPreparedCatalog : Bool) (next : Option Claim → Script)
  | beginQueuedOperation (claim : Claim) (next : Option (Option Claim) → Script)
  | registerTimerTask (claim : Claim) (taskId : Int) (next : TimerTaskRegistration → Script)
  | ask (next : Reply → Script)

def Script.step (c : Coordinator) (fault : Fault) (reply : Reply) : Script → Option Section × Script
  | .stop => (none,.stop)
  | .only next => (some next,.stop)
  | .beginAttempt retryAttempt snatRecovery preparedCatalog next =>
    (some (.beginAttempt retryAttempt snatRecovery preparedCatalog fault),
      next (if fault = .none then some (admission c retryAttempt snatRecovery preparedCatalog) else none))
  | .retainRecovery snatRecovery next =>
    (some (.retainRecovery snatRecovery fault),
      next (if fault = .none then some (retainRecoveryLocked c snatRecovery).pendingOwnedSnatRecovery else none))
  | .retryPending next => (none,next (c.activeScheduleSerial ≠ 0))
  | .reserveRetrySlot generation attempt preparedCatalog accept next =>
    (some (.reserveRetrySlot generation attempt preparedCatalog accept true),next (reservedClaim c generation attempt))
  | .beginQueuedOperation claim next =>
    (some (.beginQueuedOperation claim fault),
      next (if fault = .none then some (if fires c claim fault then some (queuedClaim c claim) else none) else none))
  | .registerTimerTask claim taskId next => (some (.registerTimerTask claim taskId),next (registration c claim taskId))
  | .ask next => (none,next reply)

def handOff (queued : Claim) : Script :=
  .ask fun
    | .threw => .only (.terminateOperation queued)
    | .yes => .ask fun
        | .threw => .only (.terminateOperation queued)
        | _ => .stop
    | _ => .only (.terminateOperation queued)

def timerCallback (claim : Claim) : Script :=
  .beginQueuedOperation claim fun
    | none => .only (.terminateOperation claim)
    | some none => .stop
    | some (some queued) => handOff queued

def generationDiffers (preparedCatalog : Option PreparedCatalog) (runtimeGeneration : UInt64) : Bool :=
  preparedCatalog.any fun catalog => catalog.runtimeGeneration ≠ runtimeGeneration

/- start_immediate_operation_with_prepared_catalog_and_terminal -/
def startImmediateOperation (attempt : Nat) (runtimeGeneration : UInt64) (snatRecovery : OwnedSnatRecovery)
    (preparedCatalog : Option PreparedCatalog) : Script :=
  if generationDiffers preparedCatalog runtimeGeneration then .stop
  else .ask fun
    | .threw => .stop
    | _ => .beginAttempt attempt snatRecovery preparedCatalog fun
        | none => .stop
        | some admission =>
          if admission.coalesced then .stop
          else .reserveRetrySlot runtimeGeneration attempt admission.preparedNow true fun
            | none => .beginAttempt attempt {} preparedCatalog fun _ => .stop
            | some claim => timerCallback claim

def armTimer (claim : Claim) : Script :=
  .ask fun
    | .task id => .registerTimerTask claim id fun
        | .rejected => .only (.terminateOperation claim)
        | _ => .stop
    | _ => .only (.terminateOperation claim)

structure RetryPlan where
  schedule : Bool := false
  maintenance : Bool := false
  nextAttempt : Nat := 0
  deriving DecidableEq

def planRuntimeFirewallRetry (attempt boundedRetryCount : Nat) (snatRecoveryRequested persistentRecoveryRequested : Bool) : RetryPlan :=
  if attempt < boundedRetryCount then ⟨true,false,attempt + 1⟩
  else if snatRecoveryRequested || persistentRecoveryRequested then ⟨true,true,0⟩
  else {}

/- What schedule_impl and defer_same_attempt_impl share: the attempt is planned, if at all, from the retained recovery.
Forms without a catalogue of their own do not accept one later. -/
def scheduleFrom (plan : OwnedSnatRecovery → Option Nat) (runtimeGeneration : UInt64) (snatRecovery : OwnedSnatRecovery)
    (preparedCatalog : Option PreparedCatalog) (acceptPreparedCatalog : Bool) : Script :=
  if generationDiffers preparedCatalog runtimeGeneration then .stop
  else .retainRecovery snatRecovery fun
    | none => .stop
    | some retained => .retryPending fun
        | true => .stop
        | false => match plan retained with
            | none => .stop
            | some attempt => .ask fun
                | .threw => .stop
                | _ => .reserveRetrySlot runtimeGeneration attempt preparedCatalog acceptPreparedCatalog fun
                    | none => .stop
                    | some claim => armTimer claim

def scheduleOperation (attempt : Nat) (runtimeGeneration : UInt64) (boundedRetryCount : Nat) (snatRecovery : OwnedSnatRecovery)
    (preparedCatalog : Option PreparedCatalog) (acceptPreparedCatalog persistentRecoveryRequested : Bool) : Script :=
  scheduleFrom (fun retained =>
    let plan := planRuntimeFirewallRetry attempt boundedRetryCount retained.requested persistentRecoveryRequested
    if plan.schedule then some plan.nextAttempt else none) runtimeGeneration snatRecovery preparedCatalog acceptPreparedCatalog

def deferSameAttemptOperation (attempt : Nat) (runtimeGeneration : UInt64) (snatRecovery : OwnedSnatRecovery)
    (preparedCatalog : Option PreparedCatalog) (acceptPreparedCatalog : Bool) : Script :=
  scheduleFrom (fun _ => some attempt) runtimeGeneration snatRecovery preparedCatalog acceptPreparedCatalog

end Scripts

section Runs

/- The calls of the coordinator; `timer` is the callback a schedule left with the scheduler. -/
inductive Call where
  | beginAttempt (retryAttempt : Nat) (snatRecovery : OwnedSnatRecovery) (preparedCatalog : Option PreparedCatalog)
  | startImmediateOperation (attempt : Nat) (runtimeGeneration : UInt64) (snatRecovery : OwnedSnatRecovery)
      (preparedCatalog : Option PreparedCatalog)
  | scheduleOperation (attempt : Nat) (runtimeGeneration : UInt64) (boundedRetryCount : Nat) (snatRecovery : OwnedSnatRecovery)
      (preparedCatalog : Option PreparedCatalog) (acceptPreparedCatalog persistentRecoveryRequested : Bool)
  | deferSameAttemptOperation (attempt : Nat) (runtimeGeneration : UInt64) (snatRecovery : OwnedSnatRecovery)
      (preparedCatalog : Option PreparedCatalog) (acceptPreparedCatalog : Bool)
  | timer (claim : Claim)
  | retainRecovery (snatRecovery : OwnedSnatRecovery)
  | single (next : Section)

def Call.script : Call → Script
  | .beginAttempt retryAttempt snatRecovery preparedCatalog => .beginAttempt retryAttempt snatRecovery preparedCatalog fun _ => .stop
  | .startImmediateOperation attempt generation snatRecovery preparedCatalog =>
    RetryCoordinator.startImmediateOperation attempt generation snatRecovery preparedCatalog
  | .scheduleOperation attempt generation bounded snatRecovery preparedCatalog accept persistent =>
    RetryCoordinator.scheduleOperation attempt generation bounded snatRecovery preparedCatalog accept persistent
  | .deferSameAttemptOperation attempt generation snatRecovery preparedCatalog accept =>
    RetryCoordinator.deferSameAttemptOperation attempt generation snatRecovery preparedCatalog accept
  | .timer claim => timerCallback claim
  | .retainRecovery snatRecovery => .retainRecovery snatRecovery fun _ => .stop
  | .single next => .only next

/- What the sections did, in order: an observation with attempt 0 was admitted, an operation captured
its worker input, one completed with success, the recovery was cleared, its revision advanced, the
slot was given back. -/
inductive Event where
  | observed
  | captured (serial : UInt64)
  | completed (serial : UInt64)
  | cleared
  | revised
  | released
  deriving DecidableEq, Repr

def Section.told (c : Coordinator) : Section → List Event
  | .beginAttempt retryAttempt snatRecovery _ fault =>
    if retryAttempt = 0 ∧ snatRecovery.requested = true ∧ fault = .none then [.observed] else []
  | .beginQueuedOperation claim fault => if fires c claim fault then [.captured claim.serial] else []
  | .completeOperationWith claim succeeded _ empty fault => if completes c claim empty fault && succeeded
    then [.completed claim.serial] else []
  | .clearOwnedSnatRecovery => [.cleared]
  | _ => []

def Section.events (c : Coordinator) (next : Section) : List Event :=
  next.told c ++ (if (next.run c).pendingRecoveryRevision ≠ c.pendingRecoveryRevision then [Event.revised] else []) ++
    (if c.activeScheduleSerial ≠ 0 ∧ (next.run c).activeScheduleSerial = 0 then [Event.released] else [])

structure World where
  coordinator : Coordinator := {}
  scripts : List Script := []
  journal : List Event := []

def World.perform (w : World) : Option Section → World
  | none => w
  | some next => { w with coordinator := next.run w.coordinator, journal := w.journal ++ next.events w.coordinator }

inductive Act where
  | call (next : Call)
  | advance (script : Nat) (fault : Fault) (reply : Reply)

def act (w : World) : Act → World
  | .call next => { w with scripts := w.scripts ++ [next.script] }
  | .advance i fault reply =>
    match w.scripts[i]? with
    | none => w
    | some script =>
      let (next,rest) := script.step w.coordinator fault reply
      { w.perform next with scripts := w.scripts.set i rest }

end Runs

end KeenPbr.RetryCoordinator
