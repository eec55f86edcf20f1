import Mathlib.Algebra.Order.Ring.Int
import Mathlib.Data.List.Basic

/-! daemon/resolver_sync_state_machine.cpp. Timestamps are seconds; the counter of failures and the
distance of two timestamps stay far from the limits of their types. -/
namespace KeenPbr.ResolverSync

inductive ResolverConfigHashProbeStatus where
  | success
  | noUsableTxt
  | invalidTxt
  | queryFailed
  deriving DecidableEq, Repr

inductive ResolverConfigProbeStatus where
  | unknown
  | notConfigured
  | success
  | missingTxt
  | invalidTxt
  | queryFailed
  deriving DecidableEq, Repr

inductive ResolverConfigSyncState where
  | converging
  | converged
  | stale
  deriving DecidableEq, Repr

inductive ResolverLiveStatus where
  | unknown
  | healthy
  | degraded
  | unavailable
  deriving DecidableEq, Repr

structure ResolverSyncSnapshot where
  expectedHash : String
  actualHash : String
  actualTs : Option Int
  lastProbeTs : Option Int
  applyStartedTs : Option Int
  syncState : Option ResolverConfigSyncState := none
  probeStatus : ResolverConfigProbeStatus
  liveStatus : ResolverLiveStatus := .unknown
  deriving DecidableEq, Repr

structure ResolverSyncCheckpoint where
  expectedHash : String
  actualHash : String
  actualTs : Option Int
  lastProbeTs : Option Int
  applyStartedTs : Option Int
  probeStatus : ResolverConfigProbeStatus
  consecutiveProbeFailures : Int
  runtimeActive : Bool
  resolverConfigured : Bool
  deriving DecidableEq, Repr

structure ResolverSyncStateMachine where
  expectedHash : String := ""
  actualHash : String := ""
  actualTs : Option Int := none
  lastProbeTs : Option Int := none
  applyStartedTs : Option Int := none
  probeStatus : ResolverConfigProbeStatus := .unknown
  consecutiveProbeFailures : Int := 0
  runtimeActive : Bool := true
  resolverConfigured : Bool := true
  deriving DecidableEq, Repr

def kConvergingWindowSeconds : Int := 15
def kFailuresBeforeClearing : Int := 3

def withinConvergingWindow (applyStartedTs : Option Int) (nowTs : Int) : Bool :=
  applyStartedTs.any fun started => nowTs - started ≤ kConvergingWindowSeconds

def resolverProbeStatusFromHashProbeStatus : ResolverConfigHashProbeStatus → ResolverConfigProbeStatus
  | .success => .success
  | .noUsableTxt => .missingTxt
  | .invalidTxt => .invalidTxt
  | .queryFailed => .queryFailed

namespace ResolverSyncStateMachine
variable (machine : ResolverSyncStateMachine)

/- runtime_stopped and resolver_not_configured differ in one flag. -/
def unconfigured (runtimeActive : Bool) : ResolverSyncStateMachine :=
  { machine with
    runtimeActive
    resolverConfigured := false
    actualHash := ""
    actualTs := none
    lastProbeTs := none
    probeStatus := .notConfigured
    consecutiveProbeFailures := 0 }

def runtimeStopped : ResolverSyncStateMachine := machine.unconfigured false

def resolverNotConfigured : ResolverSyncStateMachine := machine.unconfigured true

def expectedHashUpdated (expectedHash : String) : ResolverSyncStateMachine :=
  { machine with runtimeActive := true, resolverConfigured := true, expectedHash }

def applyStarted (ts : Int) (expectedHash : String) : ResolverSyncStateMachine :=
  { machine with runtimeActive := true, resolverConfigured := true, applyStartedTs := some ts, expectedHash, consecutiveProbeFailures := 0 }

def probeSucceeded (actualHash : String) (actualTs probeTs : Option Int) : ResolverSyncStateMachine :=
  { machine with
    runtimeActive := true
    resolverConfigured := true
    actualHash
    actualTs
    lastProbeTs := probeTs
    probeStatus := .success
    consecutiveProbeFailures := 0 }

def probeFailed (status : ResolverConfigHashProbeStatus) (probeTs : Option Int) : ResolverSyncStateMachine :=
  let failures := machine.consecutiveProbeFailures + 1
  let clears := status != .queryFailed && decide (failures ≥ kFailuresBeforeClearing)
  { machine with
    runtimeActive := true
    resolverConfigured := true
    consecutiveProbeFailures := failures
    actualHash := if clears then "" else machine.actualHash
    actualTs := if clears then none else machine.actualTs
    lastProbeTs := probeTs
    probeStatus := resolverProbeStatusFromHashProbeStatus status }

def converging (nowTs : Int) : Bool :=
  withinConvergingWindow machine.applyStartedTs nowTs &&
    (machine.probeStatus == .unknown || machine.probeStatus == .queryFailed || machine.probeStatus == .missingTxt ||
      machine.probeStatus == .invalidTxt ||
      (machine.expectedHash != machine.actualHash &&
        machine.actualTs.any fun actual => machine.applyStartedTs.any fun started => actual < started))

def snapshot (nowTs : Int) : ResolverSyncSnapshot :=
  let result : ResolverSyncSnapshot :=
    { expectedHash := machine.expectedHash
      actualHash := machine.actualHash
      actualTs := machine.actualTs
      lastProbeTs := machine.lastProbeTs
      applyStartedTs := machine.applyStartedTs
      probeStatus := machine.probeStatus }
  if !machine.runtimeActive || !machine.resolverConfigured then { result with probeStatus := .notConfigured }
  else if machine.expectedHash.isEmpty then result
  else if machine.converging nowTs then
    { result with syncState := some .converging, liveStatus := if machine.probeStatus = .queryFailed then .unavailable else .healthy }
  else if machine.probeStatus = .queryFailed then { result with liveStatus := .unavailable }
  else if machine.probeStatus = .success then
    { result with syncState := some (if machine.expectedHash = machine.actualHash then .converged else .stale), liveStatus := .healthy }
  else if machine.probeStatus = .missingTxt ∨ machine.probeStatus = .invalidTxt then
    { result with syncState := some .stale, liveStatus := .degraded }
  else result

def checkpoint : ResolverSyncCheckpoint :=
  ⟨machine.expectedHash,machine.actualHash,machine.actualTs,machine.lastProbeTs,machine.applyStartedTs,machine.probeStatus,
    machine.consecutiveProbeFailures,machine.runtimeActive,machine.resolverConfigured⟩

def restore (_machine : ResolverSyncStateMachine) (checkpoint : ResolverSyncCheckpoint) : ResolverSyncStateMachine :=
  ⟨checkpoint.expectedHash,checkpoint.actualHash,checkpoint.actualTs,checkpoint.lastProbeTs,checkpoint.applyStartedTs,
    checkpoint.probeStatus,
    checkpoint.consecutiveProbeFailures,checkpoint.runtimeActive,checkpoint.resolverConfigured⟩

end ResolverSyncStateMachine

inductive Event where
  | runtimeStopped
  | resolverNotConfigured
  | expectedHashUpdated (expectedHash : String)
  | applyStarted (ts : Int) (expectedHash : String)
  | probeSucceeded (actualHash : String) (actualTs probeTs : Option Int)
  | probeFailed (status : ResolverConfigHashProbeStatus) (probeTs : Option Int)
  deriving DecidableEq, Repr

def ResolverSyncStateMachine.on (machine : ResolverSyncStateMachine) : Event → ResolverSyncStateMachine
  | .runtimeStopped => machine.runtimeStopped
  | .resolverNotConfigured => machine.resolverNotConfigured
  | .expectedHashUpdated expectedHash => machine.expectedHashUpdated expectedHash
  | .applyStarted ts expectedHash => machine.applyStarted ts expectedHash
  | .probeSucceeded actualHash actualTs probeTs => machine.probeSucceeded actualHash actualTs probeTs
  | .probeFailed status probeTs => machine.probeFailed status probeTs

namespace Event

def isProbe : Event → Bool
  | .probeSucceeded .. | .probeFailed .. => true
  | _ => false

def expects : Event → Option String
  | .expectedHashUpdated expectedHash | .applyStarted _ expectedHash => some expectedHash
  | _ => none

/- The caller takes the status SUCCESS to probe_succeeded. -/
def Proper : Event → Prop
  | .probeFailed status _ => status ≠ .success
  | _ => True

end Event

def lastProbe (history : List Event) : Option Event := history.reverse.find? Event.isProbe

def expectedBy (history : List Event) : String := (history.reverse.findSome? Event.expects).getD ""

theorem lastProbeSnoc (history : List Event) (event : Event) :
    lastProbe (history ++ [event]) = if event.isProbe then some event else lastProbe history := by
  unfold lastProbe
  rw [List.reverse_append,List.reverse_singleton,List.singleton_append,List.find?_cons]
  cases event.isProbe <;> rfl

theorem expectedBySnoc (history : List Event) (event : Event) :
    expectedBy (history ++ [event]) = event.expects.getD (expectedBy history) := by
  unfold expectedBy
  rw [List.reverse_append,List.reverse_singleton,List.singleton_append,List.findSome?_cons]
  cases event.expects <;> rfl

/- A machine and the events that made it what it is; a restored machine has those of the checkpoint. -/
inductive Reached : List Event → ResolverSyncStateMachine → Prop where
  | start : Reached [] {}
  | event {history : List Event} {machine : ResolverSyncStateMachine} {event : Event} (reached : Reached history machine)
    (proper : event.Proper) :
      Reached (history ++ [event]) (machine.on event)
  | restored {history : List Event} {source : ResolverSyncStateMachine} (reached : Reached history source)
    (machine : ResolverSyncStateMachine) :
      Reached history (machine.restore source.checkpoint)

/- A machine that shows a success shows the hash of the last probe, which was one. -/
structure Sound (history : List Event) (machine : ResolverSyncStateMachine) : Prop where
  expected : machine.expectedHash = expectedBy history
  probed : machine.probeStatus = .success →
    ∃ actualTs probeTs, lastProbe history = some (.probeSucceeded machine.actualHash actualTs probeTs)

theorem soundOn {history : List Event} {machine : ResolverSyncStateMachine} {event : Event} (sound : Sound history machine)
    (proper : event.Proper) :
    Sound (history ++ [event]) (machine.on event) := by
  constructor
  · rw [expectedBySnoc]
    cases event with
    | runtimeStopped | resolverNotConfigured => exact sound.expected
    | expectedHashUpdated | applyStarted => rfl
    | probeSucceeded | probeFailed => exact sound.expected
  · intro success
    rw [lastProbeSnoc]
    cases event with
    | runtimeStopped | resolverNotConfigured => cases success
    | expectedHashUpdated | applyStarted => exact sound.probed success
    | probeSucceeded actualHash actualTs probeTs => exact ⟨actualTs,probeTs,rfl⟩
    | probeFailed status probeTs =>
      cases status with
      | success => exact absurd rfl proper
      | noUsableTxt | invalidTxt | queryFailed => cases success

theorem reachedSound {history : List Event} {machine : ResolverSyncStateMachine} (reached : Reached history machine) :
    Sound history machine := by
  induction reached with
  | start => exact ⟨rfl,fun success => by cases success⟩
  | event _ proper ih => exact soundOn ih proper
  | restored _ _ ih => exact ih

theorem snapshotConverged {machine : ResolverSyncStateMachine} {nowTs : Int}
    (converged : (machine.snapshot nowTs).syncState = some .converged) :
    machine.probeStatus = .success ∧ machine.actualHash = machine.expectedHash := by
  unfold ResolverSyncStateMachine.snapshot at converged
  dsimp only at converged
  split at converged
  · cases converged
  · split at converged
    · cases converged
    · split at converged
      · cases converged
      · split at converged
        · cases converged
        · split at converged
          · rename_i success
            refine ⟨success,?_⟩
            by_cases same : machine.expectedHash = machine.actualHash
            · exact same.symm
            · rw [if_neg same] at converged
              cases converged
          · split at converged
            · cases converged
            · cases converged

/- Whenever the machine shows CONVERGED, its last probe succeeded with the hash expected now. -/
theorem convergedProbed {history : List Event} {machine : ResolverSyncStateMachine} (reached : Reached history machine) (nowTs : Int)
    (converged : (machine.snapshot nowTs).syncState = some .converged) :
    machine.expectedHash = expectedBy history ∧
      ∃ actualTs probeTs, lastProbe history = some (.probeSucceeded machine.expectedHash actualTs probeTs) := by
  have sound := reachedSound reached
  obtain ⟨success,same⟩ := snapshotConverged converged
  rw [← same]
  exact ⟨same.trans sound.expected,sound.probed success⟩

theorem appliedConverges : (((({} : ResolverSyncStateMachine).on (.applyStarted 0 "a1")).on
    (.probeSucceeded "a1" none none)).snapshot 20).syncState = some .converged ∧
    ∃ actualTs probeTs, lastProbe [.applyStarted 0 "a1",.probeSucceeded "a1" none none] = some (.probeSucceeded "a1" actualTs probeTs) := by
  have reached : Reached ([] ++ [.applyStarted 0 "a1"] ++ [.probeSucceeded "a1" none none])
      ((({} : ResolverSyncStateMachine).on (.applyStarted 0 "a1")).on (.probeSucceeded "a1" none none)) :=
        .event (.event .start trivial) trivial
  have converged : (((({} : ResolverSyncStateMachine).on (.applyStarted 0 "a1")).on (.probeSucceeded "a1" none none)).snapshot
    20).syncState = some .converged := by
    decide
  exact ⟨converged,(convergedProbed reached 20 converged).2⟩

def contradictoryFailure : List Event :=
  [.expectedHashUpdated "a1",.probeSucceeded "a1" none none,.probeFailed .success none]

theorem contradictoryFailureConverged :
    ((contradictoryFailure.foldl ResolverSyncStateMachine.on {}).snapshot 0).syncState = some .converged ∧
      lastProbe contradictoryFailure = some (.probeFailed .success none) := by
  decide

end KeenPbr.ResolverSync
