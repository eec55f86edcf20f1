import KeenPbr.Runs
import Mathlib.Data.Finset.Card
import Mathlib.Data.Prod.Lex
import Mathlib.Data.String.Basic
import Mathlib.Data.Int.ConditionallyCompleteOrder
import Mathlib.Order.ConditionallyCompleteLattice.Basic
import Mathlib.Data.List.Sort

/-! runtime/idle_stall_detector.hpp. A map is a function to options, but for the pending attempts,
which are counted and searched; times are numbers of one unit, the steady clock's. next_attempt_id_ is a
64-bit counter that counts without end here. -/
namespace KeenPbr.IdleStall
open Runs

inductive IdleStallAddressFamily where
  | ipv4
  | ipv6
  deriving DecidableEq, Repr

inductive IdleStallProtocol where
  | tcp
  | udp
  deriving DecidableEq, Repr

inductive IdleStallFlowReadiness where
  | ineligible
  | tcpEstablished
  | udpAssured
  deriving DecidableEq, Repr

inductive IdleStallRecoveryPolicy where
  | standard
  | packagedWhatsappIpCompanion
  deriving DecidableEq, Repr

structure IdleStallFlowKey where
  family : IdleStallAddressFamily := .ipv4
  protocol : IdleStallProtocol := .tcp
  source : String := ""
  destination : String := ""
  sourcePort : UInt16 := 0
  destinationPort : UInt16 := 0
  fullMark : UInt32 := 0
  deriving DecidableEq, Repr

structure IdleStallFlowCounters where
  originalPackets : UInt64 := 0
  originalBytes : UInt64 := 0
  replyPackets : UInt64 := 0
  replyBytes : UInt64 := 0
  deriving DecidableEq, Repr

structure IdleStallFlowSample where
  key : IdleStallFlowKey
  counters : IdleStallFlowCounters
  readiness : IdleStallFlowReadiness := .ineligible
  fastnat : Bool := false
  recoveryPolicy : IdleStallRecoveryPolicy := .standard
  deriving DecidableEq, Repr

structure IdleStallEpoch where
  runtimeGeneration : UInt64 := 0
  coverageGeneration : UInt64 := 0
  deriving DecidableEq, Repr

def IdleStallEpoch.valid (epoch : IdleStallEpoch) : Bool := epoch.runtimeGeneration != 0 && epoch.coverageGeneration != 0

structure IdleStallScanStatus where
  snapshotComplete : Bool := true
  countersAvailable : Bool := true
  localScopeComplete : Bool := true
  coverageComplete : Bool := true
  deriving DecidableEq, Repr

def IdleStallScanStatus.trustworthy (status : IdleStallScanStatus) : Bool :=
  status.snapshotComplete && status.countersAvailable && status.localScopeComplete && status.coverageComplete

structure IdleStallScan where
  epoch : IdleStallEpoch := {}
  ownedMarkMask : UInt32 := 0
  status : IdleStallScanStatus := {}
  flows : List IdleStallFlowSample := []
  preventiveTcpResetOwnedMark : Option UInt32 := none
  deriving DecidableEq, Repr

inductive IdleStallDecisionReason where
  | idleRequestWithoutReply
  | idleFastnatRotation
  | idlePackagedWhatsappTcpResetRotation
  deriving DecidableEq, Repr

structure PendingAttempt where
  epoch : IdleStallEpoch
  reason : IdleStallDecisionReason
  attemptId : Nat
  deriving DecidableEq, Repr

structure IdleStallDeleteDecision where
  flow : IdleStallFlowKey
  reason : IdleStallDecisionReason
  epoch : IdleStallEpoch
  attemptId : Nat
  deriving DecidableEq, Repr

structure IdleStallDetectorOptions where
  idleThreshold : Int := 30
  confirmationDelay : Int := 5
  whatsappConfirmationDelay : Int := 1
  rotateIdleFastnatTcp : Bool := true
  fastnatIdleRotationThreshold : Int := 30
  activeMediaHold : Int := 15
  sourceCooldown : Int := 30
  globalRateWindow : Int := 60
  tinyKeepaliveMaxBytesPerDirection : UInt64 := 256
  preventiveTcpResetMaxPacketsPerDirection : UInt64 := 4
  preventiveTcpResetMaxBytesPerDirection : UInt64 := 512
  maxTrackedFlows : Nat := 256
  maxDecisionsPerScan : Nat := 2
  maxDecisionsPerRateWindow : Nat := 8
  deriving DecidableEq, Repr

structure SourceKey where
  family : IdleStallAddressFamily
  source : String
  deriving DecidableEq, Repr

structure FlowState where
  counters : IdleStallFlowCounters
  lastActivityAt : Int
  lastCounterChangeAt : Int
  suspectSince : Option Int := none
  recoveryPolicy : IdleStallRecoveryPolicy
  deriving DecidableEq, Repr

structure IdleStallDetector where
  activeEpoch : Option IdleStallEpoch := none
  activePreventiveTcpResetOwnedMark : Option UInt32 := none
  states : IdleStallFlowKey → Option FlowState := fun _ => none
  activeMediaUntil : SourceKey → Option Int := fun _ => none
  pendingAttempts : Finset (IdleStallFlowKey × PendingAttempt) := ∅
  sourceCooldownUntil : SourceKey → Option Int := fun _ => none
  decisionTimes : List Int := []
  nextAttemptId : Nat := 0
  whatsappFastFollowupRequested : Bool := false

section Order

def IdleStallFlowKey.tied (key : IdleStallFlowKey) : Bool ×ₗ Bool ×ₗ String ×ₗ String ×ₗ Nat ×ₗ Nat ×ₗ Nat :=
  toLex (key.family == .ipv6,toLex (key.protocol == .udp,toLex (key.source,toLex (key.destination,toLex (key.sourcePort.toNat,
    toLex (key.destinationPort.toNat,key.fullMark.toNat))))))

theorem tiedInjective : Function.Injective IdleStallFlowKey.tied := by
  rintro ⟨f,p,s,d,sp,dp,m⟩ ⟨f',p',s',d',sp',dp',m'⟩ same
  simp only [IdleStallFlowKey.tied,toLex_inj,Prod.mk.injEq,UInt16.toNat_inj,UInt32.toNat_inj] at same
  obtain ⟨family,protocol,rfl,rfl,rfl,rfl,rfl⟩ := same
  have sameFamily : f = f' := by cases f <;> cases f' <;> first | rfl | cases family
  have sameProtocol : p = p' := by cases p <;> cases p' <;> first | rfl | cases protocol
  rw [sameFamily,sameProtocol]

end Order

section Samples
variable (options : IdleStallDetectorOptions)

def sourceKey (key : IdleStallFlowKey) : SourceKey := ⟨key.family,key.source⟩

def validKey (key : IdleStallFlowKey) :
    Bool := !key.source.isEmpty && !key.destination.isEmpty && key.sourcePort != 0 && key.destinationPort != 0

def eligibleSample (sample : IdleStallFlowSample) (ownedMarkMask : UInt32) : Bool :=
  let stateMatchesProtocol :=
    (sample.key.protocol == .tcp && sample.readiness == .tcpEstablished) || (sample.key.protocol == .udp && sample.readiness == .udpAssured)
  stateMatchesProtocol && (sample.key.fullMark == 0 ||
    ((sample.key.fullMark &&& ownedMarkMask) != 0 && (sample.key.fullMark &&& ~~~ownedMarkMask) == 0))

def countersRegressed (current previous : IdleStallFlowCounters) : Bool :=
  current.originalPackets < previous.originalPackets || current.originalBytes < previous.originalBytes ||
    current.replyPackets < previous.replyPackets || current.replyBytes < previous.replyBytes

def confirmationDelayFor (policy : IdleStallRecoveryPolicy) : Int :=
  if policy = .packagedWhatsappIpCompanion then options.whatsappConfirmationDelay else options.confirmationDelay

def admissible (scan : IdleStallScan) : Bool :=
  scan.epoch.valid && scan.ownedMarkMask != 0 &&
    scan.preventiveTcpResetOwnedMark.all (fun mark => mark != 0 && (mark &&& ~~~scan.ownedMarkMask) == 0) &&
    scan.status.trustworthy && scan.flows.length ≤ options.maxTrackedFlows

def distinctKeys (scan : IdleStallScan) : Bool := scan.flows.all (validKey ·.key) && decide ((scan.flows.map (·.key)).Nodup)

def originalGrew (current previous : IdleStallFlowCounters) : Bool :=
  previous.originalPackets < current.originalPackets || previous.originalBytes < current.originalBytes

def replyGrew (current previous : IdleStallFlowCounters) : Bool :=
  previous.replyPackets < current.replyPackets || previous.replyBytes < current.replyBytes

structure PreparedSample where
  sample : IdleStallFlowSample
  state : FlowState
  baseline : Bool := false
  originalGrew : Bool := false
  replyGrew : Bool := false
  originalApplicationProgress : Bool := false
  replyApplicationProgress : Bool := false
  wasIdle : Bool := false
  countersUnchangedForIdle : Bool := false
  deriving DecidableEq, Repr

def freshState (sample : IdleStallFlowSample) (now : Int) : FlowState :=
  { counters := sample.counters, lastActivityAt := now, lastCounterChangeAt := now, recoveryPolicy := sample.recoveryPolicy }

/- One round of the first loop. The keys are distinct, so the state of a sample is the one before the loop. -/
def prepare (states : IdleStallFlowKey → Option FlowState) (now : Int) (sample : IdleStallFlowSample) : PreparedSample :=
  match states sample.key with
  | none => { sample, state := freshState sample now, baseline := true }
  | some state =>
    if countersRegressed sample.counters state.counters || state.recoveryPolicy != sample.recoveryPolicy then
      { sample, state := freshState sample now, baseline := true }
    else
      { sample
        state
        originalGrew := originalGrew sample.counters state.counters
        replyGrew := replyGrew sample.counters state.counters
        originalApplicationProgress :=
          options.tinyKeepaliveMaxBytesPerDirection < sample.counters.originalBytes - state.counters.originalBytes
        replyApplicationProgress := options.tinyKeepaliveMaxBytesPerDirection < sample.counters.replyBytes - state.counters.replyBytes
        wasIdle := options.idleThreshold ≤ now - state.lastActivityAt
        countersUnchangedForIdle := options.idleThreshold ≤ now - state.lastCounterChangeAt }

end Samples

section Observe
variable (options : IdleStallDetectorOptions)

def pruneLimits (d : IdleStallDetector) (now : Int) : IdleStallDetector :=
  { d with
    decisionTimes := d.decisionTimes.dropWhile fun time => options.globalRateWindow ≤ now - time
    sourceCooldownUntil := fun source => (d.sourceCooldownUntil source).filter fun limit => now < limit
    activeMediaUntil := fun source => (d.activeMediaUntil source).filter fun limit => now < limit }

def resetObservationContinuity (d : IdleStallDetector) : IdleStallDetector :=
  { d with states := fun _ => none, activeMediaUntil := fun _ => none, pendingAttempts := ∅, whatsappFastFollowupRequested := false }

/- The branch of a scan that may not be used. -/
def discontinue (d : IdleStallDetector) (scan : IdleStallScan) : IdleStallDetector :=
  { resetObservationContinuity d with
    activeEpoch := if scan.epoch.valid then some scan.epoch else none
    activePreventiveTcpResetOwnedMark := if scan.epoch.valid then scan.preventiveTcpResetOwnedMark else none }

def alignEpoch (d : IdleStallDetector) (scan : IdleStallScan) : IdleStallDetector :=
  if d.activeEpoch ≠ some scan.epoch then
    { resetObservationContinuity d with
      activeEpoch := some scan.epoch, activePreventiveTcpResetOwnedMark := scan.preventiveTcpResetOwnedMark }
  else if d.activePreventiveTcpResetOwnedMark ≠ scan.preventiveTcpResetOwnedMark then
    { resetObservationContinuity d with activePreventiveTcpResetOwnedMark := scan.preventiveTcpResetOwnedMark }
  else d

def prepareAll (d : IdleStallDetector) (scan : IdleStallScan) (now : Int) : List PreparedSample :=
  (scan.flows.filter (eligibleSample · scan.ownedMarkMask)).map (prepare options d.states now)

def preparedFor (prepared : List PreparedSample) (key : IdleStallFlowKey) : Option PreparedSample := prepared.find? (·.sample.key == key)

/- The states and attempts after the first loop and the removal of what was not observed. -/
def keepObserved (d : IdleStallDetector) (prepared : List PreparedSample) : IdleStallDetector :=
  { d with
    states := fun key => (preparedFor prepared key).map (·.state)
    pendingAttempts := d.pendingAttempts.filter fun attempt =>
      (match preparedFor prepared attempt.1 with
      | some current => !current.baseline
      | none => (d.states attempt.1).isNone) = true }

def showsMedia (current : PreparedSample) (source : SourceKey) : Bool :=
  !current.baseline && current.sample.key.protocol == .udp && current.originalGrew && current.replyGrew &&
    sourceKey current.sample.key == source

def protectMedia (d : IdleStallDetector) (prepared : List PreparedSample) (now : Int) : IdleStallDetector :=
  { d with activeMediaUntil := fun source =>
    if prepared.any (showsMedia · source) then some (max ((d.activeMediaUntil source).getD 0) (now + options.activeMediaHold))
    else d.activeMediaUntil source }

def mediaProtected (d : IdleStallDetector) (source : SourceKey) (now : Int) : Bool := (d.activeMediaUntil source).any (now < ·)

structure Verdict where
  suspectSince : Option Int
  erasesAttempt : Bool := false
  fastFollowup : Bool := false
  candidate : Option IdleStallDecisionReason := none
  deriving DecidableEq, Repr

def judge (d : IdleStallDetector) (scan : IdleStallScan) (now : Int) (current : PreparedSample) : Verdict :=
  let state := current.state
  let key := current.sample.key
  let counters := current.sample.counters
  let whatsapp := state.recoveryPolicy == .packagedWhatsappIpCompanion
  if mediaProtected d (sourceKey key) now || current.replyApplicationProgress then { suspectSince := none, erasesAttempt := true }
  else
    match state.suspectSince with
    | some since =>
      { suspectSince := some since
        candidate := if confirmationDelayFor options state.recoveryPolicy ≤ now - since then some .idleRequestWithoutReply else none }
    | none =>
      if current.wasIdle && current.originalApplicationProgress then { suspectSince := some now, fastFollowup := whatsapp }
      else if whatsapp && scan.preventiveTcpResetOwnedMark == some key.fullMark && key.protocol == .tcp && key.destinationPort == 443 &&
          key.fullMark != 0 && current.countersUnchangedForIdle && !current.originalGrew && !current.replyGrew &&
          counters.originalPackets ≤ options.preventiveTcpResetMaxPacketsPerDirection &&
          counters.replyPackets ≤ options.preventiveTcpResetMaxPacketsPerDirection &&
          counters.originalBytes ≤ options.preventiveTcpResetMaxBytesPerDirection &&
          counters.replyBytes ≤ options.preventiveTcpResetMaxBytesPerDirection && !current.originalApplicationProgress &&
          !current.replyApplicationProgress then
        { suspectSince := none, candidate := some .idlePackagedWhatsappTcpResetRotation }
      else if options.rotateIdleFastnatTcp && current.sample.fastnat && key.protocol == .tcp && current.originalGrew && current.replyGrew &&
          !current.originalApplicationProgress && !current.replyApplicationProgress &&
          options.fastnatIdleRotationThreshold ≤ now - state.lastActivityAt then
        { suspectSince := none, candidate := some .idleFastnatRotation }
      else { suspectSince := none }

def judgedState (d : IdleStallDetector) (scan : IdleStallScan) (now : Int) (current : PreparedSample) : FlowState :=
  if current.baseline then current.state
  else
    { current.state with
      suspectSince := (judge options d scan now current).suspectSince
      lastActivityAt := if current.originalApplicationProgress || current.replyApplicationProgress then now
        else current.state.lastActivityAt
      lastCounterChangeAt := if current.originalGrew || current.replyGrew then now else current.state.lastCounterChangeAt
      counters := current.sample.counters }

structure Candidate where
  key : IdleStallFlowKey
  reason : IdleStallDecisionReason
  deriving DecidableEq, Repr

def candidatesOf (d : IdleStallDetector) (scan : IdleStallScan) (now : Int) (prepared : List PreparedSample) : List Candidate :=
  prepared.filterMap fun current =>
    if current.baseline then none else (judge options d scan now current).candidate.map fun reason => ⟨current.sample.key,reason⟩

def judgeAll (d : IdleStallDetector) (scan : IdleStallScan) (now : Int) (prepared : List PreparedSample) : IdleStallDetector :=
  { d with
    states := fun key => (preparedFor prepared key).map (judgedState options d scan now)
    pendingAttempts := d.pendingAttempts.filter fun attempt =>
      ∀ current ∈ prepared, current.sample.key = attempt.1 → current.baseline = false →
        (judge options d scan now current).erasesAttempt = false
    whatsappFastFollowupRequested :=
      d.whatsappFastFollowupRequested || prepared.any fun current => !current.baseline && (judge options d scan now current).fastFollowup }

def candidateRank (d : IdleStallDetector) (candidate : Candidate) : WithBot Int ×ₗ Bool ×ₗ Bool ×ₗ String ×ₗ String ×ₗ Nat ×ₗ Nat ×ₗ Nat :=
  toLex ((((d.states candidate.key).bind (·.suspectSince) : Option Int) : WithBot Int),candidate.key.tied)

def sortCandidates (d : IdleStallDetector) (candidates : List Candidate) : List Candidate :=
  candidates.insertionSort fun left right => candidateRank d left ≤ candidateRank d right

def retireSuspect (d : IdleStallDetector) (key : IdleStallFlowKey) (now : Int) : IdleStallDetector :=
  { d with states := fun other =>
    if other = key then (d.states other).map fun state => { state with suspectSince := none, lastActivityAt := now } else d.states other }

/- One candidate, while fewer than the limit are decided. -/
def selectOne (scan : IdleStallScan) (now : Int) (decisionLimit : Nat) (committedRateLimitReached : Bool) (d : IdleStallDetector)
    (decisions : List IdleStallDeleteDecision) (candidate : Candidate) : IdleStallDetector × List IdleStallDeleteDecision :=
  let source := sourceKey candidate.key
  if (d.sourceCooldownUntil source).any (now < ·) then (retireSuspect d candidate.key now,decisions)
  else if ∃ pending ∈ d.pendingAttempts, sourceKey pending.1 = source then (d,decisions)
  else if decisionLimit ≤ decisions.length then
    if committedRateLimitReached then (retireSuspect d candidate.key now,decisions) else (d,decisions)
  else
    let attemptId := d.nextAttemptId + 1
    ({ d with nextAttemptId := attemptId, pendingAttempts := insert (candidate.key,
      ⟨scan.epoch,candidate.reason,attemptId⟩) d.pendingAttempts },
      decisions ++ [⟨candidate.key,candidate.reason,scan.epoch,attemptId⟩])

def select (scan : IdleStallScan) (now : Int) (decisionLimit : Nat) (committedRateLimitReached : Bool) :
    IdleStallDetector → List IdleStallDeleteDecision → List Candidate → IdleStallDetector × List IdleStallDeleteDecision
  | d,decisions,[] => (d,decisions)
  | d,decisions,candidate :: rest =>
    let (next,more) := selectOne scan now decisionLimit committedRateLimitReached d decisions candidate
    select scan now decisionLimit committedRateLimitReached next more rest

def decisionLimitOf (d : IdleStallDetector) : Nat :=
  let committedAndReserved := min options.maxDecisionsPerRateWindow (d.decisionTimes.length + d.pendingAttempts.card)
  min options.maxDecisionsPerScan (options.maxDecisionsPerRateWindow - committedAndReserved)

/- From the first loop on. -/
def observeFlows (d : IdleStallDetector) (scan : IdleStallScan) (now : Int) : IdleStallDetector × List IdleStallDeleteDecision :=
  let prepared := prepareAll options d scan now
  let d := protectMedia options (keepObserved d prepared) prepared now
  let candidates := candidatesOf options d scan now prepared
  let d := judgeAll options d scan now prepared
  select scan now (decisionLimitOf options d) (decide (options.maxDecisionsPerRateWindow ≤ d.decisionTimes.length)) d
    [] (sortCandidates d candidates)

def observe (d : IdleStallDetector) (scan : IdleStallScan) (now : Int) : IdleStallDetector × List IdleStallDeleteDecision :=
  let d := pruneLimits options { d with whatsappFastFollowupRequested := false } now
  if !admissible options scan then (discontinue d scan,[])
  else
    let d := alignEpoch d scan
    if !distinctKeys scan then ({ resetObservationContinuity d with activeEpoch := some scan.epoch },[])
    else observeFlows options d scan now

def pendingOf (decision : IdleStallDeleteDecision) : IdleStallFlowKey × PendingAttempt :=
  (decision.flow,⟨decision.epoch,decision.reason,decision.attemptId⟩)

/- pending_attempts_ has one attempt for a flow at most, so finding it and comparing it is membership. -/
def acknowledgeDeleteResult (d : IdleStallDetector) (decision : IdleStallDeleteDecision) (deleteSucceeded : Bool) (now : Int) :
    IdleStallDetector × Bool :=
  if d.activeEpoch ≠ some decision.epoch ∨ decision.attemptId = 0 then (d,false)
  else if pendingOf decision ∉ d.pendingAttempts then (d,false)
  else
    let d := { d with pendingAttempts := d.pendingAttempts.erase (pendingOf decision) }
    if !deleteSucceeded then (d,true)
    else
      let d := pruneLimits options d now
      let source := sourceKey decision.flow
      ({ d with
          decisionTimes := d.decisionTimes ++ [now]
          sourceCooldownUntil := fun other =>
            if other = source then some (max ((d.sourceCooldownUntil source).getD 0) (now + options.sourceCooldown))
              else d.sourceCooldownUntil other
          states := fun key =>
            if sourceKey key = source then (d.states key).map fun state => { state with suspectSince := none, lastActivityAt := now }
            else d.states key },true)

def takeWhatsappFastFollowupDelay (d : IdleStallDetector) : IdleStallDetector × Option Int :=
  if !d.whatsappFastFollowupRequested then (d,none)
  else ({ d with whatsappFastFollowupRequested := false },some options.whatsappConfirmationDelay)

def reset (d : IdleStallDetector) : IdleStallDetector := { nextAttemptId := d.nextAttemptId }

end Observe

end KeenPbr.IdleStall
