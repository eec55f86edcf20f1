import KeenPbr.Runs
import KeenPbr.UrltestManager
import KeenPbr.ConfigAccepted

/-! The manager among its callers: the probes its workers hold, the commits whose on_change callback
runs, and a history of the external-health edges that no operation reads. -/
namespace KeenPbr

inductive HealthEvent where
  | edge (tag : String) (serial : UInt64) (nextGeneration : Nat)
  | claimed (tag : String) (generation : Nat) (serial : UInt64)
  | completed (tag : String) (generation : Nat)
  deriving DecidableEq, Repr

structure UrltestSystem where
  manager : UrltestManager := {}
  issued : List Probe := []
  committed : List Nat := []
  waiting : List UrltestSelectionChange := []
  log : List HealthEvent := []

inductive UrltestAction where
  | register (ut : Outbound) (initialSelectedOutbound : String) (directChildInterfaces : String → Option String) (taskId : Int)
  | queueProbe (tag : String) (reason : ProbeReason) (now : Int)
  | edge (tag : String)
  | commit (tag : String) (generation : Nat) (results : List (String × URLTestResult)) (now : Int)
  | settle (change : UrltestSelectionChange) (admitted : Bool)
  | abandon (tag : String) (generation : Nat) (candidateTags : List String)
  | defer (tag : String) (generation : Nat)
  | complete (tag : String) (generation : Nat) (resumePending : Bool)
  | synchronize (tag selectedOutbound : String)
  | synchronizeIf (tag : String) (generation : Nat) (selectedOutbound : String)
  | clear
  | replaceMarks (marks : String → Option UInt32)
  | startFailure (tag : String) (expectedFailures : UInt8)
  | reserveRetry (tag : String)
  | publishRetry (tag : String) (registrationTaskId : Int) (retryEpoch : UInt64) (scheduledTaskId : Int)
  | runRetry (tag : String) (registrationTaskId : Int) (retryEpoch : UInt64)

namespace UrltestSystem

def claimEvents (manager : UrltestManager) (probe : Probe) : List HealthEvent :=
  match manager.states probe.tag with
  | none => []
  | some state => [.claimed probe.tag probe.generation state.probeExternalHealthSerial]

def edgeEvents (manager : UrltestManager) (tag : String) : List HealthEvent :=
  match manager.states tag with
  | none => []
  | some state => [.edge tag state.externalHealthRequestSerial manager.generation]

/- finish_external_health_probe_locked ran, for a transition the controller admitted. -/
def completionEvents (tag : String) (generation : Nat) (admitted : Bool) (resolution : Option ExternalHealthResolution) :
    List HealthEvent := if admitted && resolution.isSome then [.completed tag generation] else []

def act (sys : UrltestSystem) : UrltestAction → UrltestSystem
  | .register ut initial direct taskId => { sys with manager := sys.manager.registerUrltest ut initial direct taskId }
  | .queueProbe tag reason now =>
    let (manager,probe) := sys.manager.queueProbe tag reason now
    { sys with manager, issued := probe.toList ++ sys.issued, log := sys.log ++ probe.toList.flatMap (claimEvents manager) }
  | .edge tag =>
    let manager := sys.manager.triggerExternalHealthTest tag
    { sys with manager, log := sys.log ++ edgeEvents manager tag }
  | .commit tag generation results now =>
    let (manager,change,resolution) := sys.manager.commitProbeResults tag generation results now
    { sys with
      manager
      committed := generation :: sys.committed
      waiting := change.toList ++ sys.waiting
      log := sys.log ++ completionEvents tag generation true resolution }
  | .settle change admitted =>
    let (manager,resolution) := sys.manager.settleChange change admitted
    { sys with
      manager
      waiting := sys.waiting.erase change
      log := sys.log ++ completionEvents change.urltestTag change.probeGeneration admitted resolution }
  | .abandon tag generation candidateTags => { sys with manager := sys.manager.abandonProbe tag generation candidateTags }
  | .defer tag generation => { sys with manager := (sys.manager.deferSelectionCompletion tag generation).1 }
  | .complete tag generation resumePending =>
    let (manager,resolution) := sys.manager.completeSelection tag generation resumePending
    { sys with manager, log := sys.log ++ completionEvents tag generation true resolution }
  | .synchronize tag selected => { sys with manager := (sys.manager.synchronizeSelected tag selected).1 }
  | .synchronizeIf tag generation selected =>
    { sys with manager := (sys.manager.synchronizeSelectedIfGeneration tag generation selected).1 }
  | .clear => { sys with manager := sys.manager.clear }
  | .replaceMarks marks => { sys with manager := sys.manager.replaceMarksGeneration marks }
  | .startFailure tag expected => { sys with manager := sys.manager.recordExternalHealthStartFailure tag expected }
  | .reserveRetry tag => { sys with manager := sys.manager.reserveExternalHealthRetry tag }
  | .publishRetry tag registration epoch task => { sys with manager := sys.manager.publishExternalHealthRetry tag registration epoch task }
  | .runRetry tag registration epoch => { sys with manager := sys.manager.runExternalHealthRetry tag registration epoch }

end UrltestSystem

namespace UrltestManager
variable {manager : UrltestManager} {tag : String} {state : UrltestState}

theorem putSelf (manager : UrltestManager) (tag : String) (state : UrltestState) : (manager.put tag state).states tag = some state := by
  change Function.update manager.states tag (some state) tag = some state
  rw [Function.update_self]

theorem putOther (manager : UrltestManager) {tag other : String} (apart : other ≠ tag) (state : UrltestState) :
    (manager.put tag state).states other = manager.states other := by
  change Function.update manager.states tag (some state) other = manager.states other
  rw [Function.update_of_ne apart]

theorem queueMissing (missing : manager.states tag = none) (reason : ProbeReason) (now : Int) :
    manager.queueProbe tag reason now = (manager,none) := by
  rw [queueProbe,missing]

theorem queueBusy (found : manager.states tag = some state) (busy : state.probeInflight = true) (reason : ProbeReason) (now : Int) :
    manager.queueProbe tag reason now = (manager.put tag (requestTrailing state reason),none) := by
  rw [queueProbe,found]
  simp [busy]

theorem queueFree (found : manager.states tag = some state) (free : state.probeInflight = false) (reason : ProbeReason) (now : Int) :
    manager.queueProbe tag reason now =
      ({ manager.put tag (manager.admitProbe state now).1 with generation := manager.generation + 1 },
        some { tag, generation := manager.generation, candidates := (manager.admitProbe state now).2 }) := by
  rw [queueProbe,found]
  simp [free]

def Fenced (manager : UrltestManager) (tag : String) (generation : Nat) (state : UrltestState) : Prop :=
  manager.states tag = some state ∧ state.generation = generation

theorem fenceOpen {generation other : Nat} {flag : Bool} : ¬(generation != other || !flag) = true ↔ generation = other ∧ flag = true := by
  simp

theorem commitCases (manager : UrltestManager) (tag : String) (generation : Nat) (results : List (String × URLTestResult)) (now : Int) :
    (manager.commitProbeResults tag generation results now = (manager,none,none) ∧
      ∀ state, manager.Fenced tag generation state → state.probeInflight = false) ∨
    ∃ state, manager.Fenced tag generation state ∧ state.probeInflight = true ∧
      ∃ published : UrltestState, published = { state.commitResults state.selectedOutbound now results with
          selectedOutbound := (state.commitResults state.selectedOutbound now results).selectOutboundFromState } ∧
        ((∃ change : UrltestSelectionChange, change.urltestTag = tag ∧ change.probeGeneration = generation ∧
            change.previousChildTag = state.selectedOutbound ∧
            manager.commitProbeResults tag generation results now = (manager.put tag published,some change,none)) ∨
          (published.selectedOutbound = state.selectedOutbound ∧ ∃ resolution,
            manager.commitProbeResults tag generation results now =
              (manager.put tag ({ published with probeInflight := false }.finishExternalHealthProbe true).1,none,some resolution))) := by
  unfold commitProbeResults
  cases found : manager.states tag with
  | none =>
    refine Or.inl ⟨rfl,fun state fenced => ?_⟩
    rw [Fenced,found] at fenced
    cases fenced.1
  | some state =>
    dsimp only
    split
    · rename_i stale
      refine Or.inl ⟨rfl,fun other fenced => ?_⟩
      rw [Fenced,found] at fenced
      obtain ⟨same,generationSame⟩ := fenced
      cases same
      simpa [generationSame] using stale
    · rename_i current
      rw [fenceOpen] at current
      refine Or.inr ⟨state,⟨found,current.1.symm⟩,current.2,_,rfl,?_⟩
      split
      · exact Or.inl ⟨_,rfl,rfl,rfl,rfl⟩
      · rename_i same
        simp only [bne_iff_ne,ne_eq,not_not] at same
        exact Or.inr ⟨same,_,rfl⟩

theorem settleCases (manager : UrltestManager) (change : UrltestSelectionChange) (admitted : Bool) :
    manager.settleChange change admitted = (manager,none) ∨
    ∃ state, manager.Fenced change.urltestTag change.probeGeneration state ∧ state.probeInflight = true ∧
      ∃ settled : UrltestState, settled = state.settleCursor change.previousChildTag admitted ∧
      settled.selectionPending = false ∧ ∃ resolution,
      manager.settleChange change admitted =
        (manager.put change.urltestTag ({ settled with probeInflight := false }.finishExternalHealthProbe admitted).1,
          some resolution) := by
  unfold settleChange
  cases found : manager.states change.urltestTag with
  | none => exact Or.inl rfl
  | some state =>
    dsimp only
    split
    · exact Or.inl rfl
    · rename_i current
      rw [fenceOpen] at current
      generalize cursor : state.settleCursor change.previousChildTag admitted = settled
      split
      · exact Or.inl rfl
      · rename_i free
        exact Or.inr ⟨state,⟨found,current.1⟩,current.2,settled,cursor.symm,by simpa using free,_,rfl⟩

theorem abandonCases (manager : UrltestManager) (tag : String) (generation : Nat) (candidateTags : List String) :
    manager.abandonProbe tag generation candidateTags = manager ∨
    ∃ state, manager.Fenced tag generation state ∧ state.probeInflight = true ∧
      manager.abandonProbe tag generation candidateTags =
        { manager.put tag (({ ({ state with probeInflight := false, selectionPending := false } :
              UrltestState).recordClaimedExternalHealthFailure with generation := manager.generation } :
              UrltestState).endRequests candidateTags) with
          generation := manager.generation + 1 } := by
  unfold abandonProbe
  cases found : manager.states tag with
  | none => exact Or.inl rfl
  | some state =>
    dsimp only
    split
    · exact Or.inl rfl
    · rename_i current
      rw [fenceOpen] at current
      exact Or.inr ⟨state,⟨found,current.1⟩,current.2,rfl⟩

theorem deferCases (manager : UrltestManager) (tag : String) (generation : Nat) :
    (manager.deferSelectionCompletion tag generation).1 = manager ∨
    ∃ state, manager.Fenced tag generation state ∧ state.probeInflight = true ∧
      (manager.deferSelectionCompletion tag generation).1 = manager.put tag { state with selectionPending := true } := by
  unfold deferSelectionCompletion
  cases found : manager.states tag with
  | none => exact Or.inl rfl
  | some state =>
    dsimp only
    split
    · exact Or.inl rfl
    · rename_i current
      rw [fenceOpen] at current
      exact Or.inr ⟨state,⟨found,current.1⟩,current.2,rfl⟩

theorem completeCases (manager : UrltestManager) (tag : String) (generation : Nat) (resumePending : Bool) :
    manager.completeSelection tag generation resumePending = (manager,none) ∨
    ∃ state, manager.Fenced tag generation state ∧ state.selectionPending = true ∧
      ∃ finished : UrltestState, finished = (({ state with selectionPending := false, probeInflight := false } :
          UrltestState).finishExternalHealthProbe true).1 ∧ ∃ next resolution,
        (next = finished ∨ next = finished.retireRetry) ∧
        manager.completeSelection tag generation resumePending = (manager.put tag next,some resolution) := by
  unfold completeSelection
  cases found : manager.states tag with
  | none => exact Or.inl rfl
  | some state =>
    dsimp only
    split
    · exact Or.inl rfl
    · rename_i current
      rw [fenceOpen] at current
      refine Or.inr ⟨state,⟨found,current.1⟩,current.2,_,rfl,?_⟩
      split
      · exact ⟨_,_,Or.inl rfl,rfl⟩
      · exact ⟨_,_,Or.inr rfl,rfl⟩

def QuietMove (before next : UrltestManager) : Prop :=
  next = before ∨ ∃ tag state selected failures task scheduling epoch, before.states tag = some state ∧
    next = before.put tag { state with
      selectedOutbound := selected
      externalHealthFailures := failures
      externalHealthRetryTaskId := task
      externalHealthRetryScheduling := scheduling
      externalHealthRetryEpoch := epoch }

section Quiet
variable (manager : UrltestManager) (tag : String)

theorem synchronizeQuiet (selected : String) : QuietMove manager (manager.synchronizeSelected tag selected).1 := by
  unfold synchronizeSelected
  split
  · exact Or.inl rfl
  · rename_i state found
    split
    · exact Or.inl rfl
    · exact Or.inr ⟨tag,state,_,_,_,_,_,found,rfl⟩

theorem synchronizeIfQuiet (generation : Nat) (selected : String) :
    QuietMove manager (manager.synchronizeSelectedIfGeneration tag generation selected).1 := by
  unfold synchronizeSelectedIfGeneration
  split
  · exact Or.inl rfl
  · exact synchronizeQuiet manager tag selected

theorem startFailureQuiet (expected : UInt8) : QuietMove manager (manager.recordExternalHealthStartFailure tag expected) := by
  unfold recordExternalHealthStartFailure
  split
  · exact Or.inl rfl
  · rename_i state found
    split
    · exact Or.inl rfl
    · split
      · exact Or.inr ⟨tag,state,_,_,_,_,_,found,rfl⟩
      · exact Or.inl rfl

theorem reserveQuiet : QuietMove manager (manager.reserveExternalHealthRetry tag) := by
  unfold reserveExternalHealthRetry
  split
  · exact Or.inl rfl
  · rename_i state found
    split
    · exact Or.inl rfl
    · exact Or.inr ⟨tag,state,_,_,_,_,_,found,rfl⟩

theorem publishQuiet (registration : Int) (epoch : UInt64) (task : Int) :
    QuietMove manager (manager.publishExternalHealthRetry tag registration epoch task) := by
  unfold publishExternalHealthRetry
  split
  · exact Or.inl rfl
  · rename_i state found
    split
    · exact Or.inl rfl
    · split
      · exact Or.inr ⟨tag,state,_,_,_,_,_,found,rfl⟩
      · exact Or.inr ⟨tag,state,_,_,_,_,_,found,rfl⟩

theorem runRetryQuiet (registration : Int) (epoch : UInt64) :
    QuietMove manager (manager.runExternalHealthRetry tag registration epoch) := by
  unfold runExternalHealthRetry
  split
  · exact Or.inl rfl
  · rename_i state found
    split
    · exact Or.inl rfl
    · split
      · exact Or.inr ⟨tag,state,_,_,_,_,_,found,rfl⟩
      · exact Or.inl rfl

end Quiet

end UrltestManager

namespace UrltestSystem

/- The calls as the daemon makes them: it registers outbounds of a validated configuration; a worker
commits its probe once, with a result for every candidate, or abandons it; the second half of a commit
follows its callback; and only that callback defers. -/
def Called (sys : UrltestSystem) : UrltestAction → Prop
  | .register ut _ _ _ => ∃ inet cfg, validateConfig inet cfg = [] ∧ ut ∈ cfg.outboundList ∧ ut.type = .urltest
  | .commit tag generation results _ => ∃ probe ∈ sys.issued, probe.tag = tag ∧ probe.generation = generation ∧
      generation ∉ sys.committed ∧ (results.map (·.1)).Nodup ∧ ∀ child, child ∈ results.map (·.1) ↔ child ∈ probe.candidates
  | .settle change _ => change ∈ sys.waiting
  | .abandon tag generation candidateTags => ∃ probe ∈ sys.issued, probe.tag = tag ∧ probe.generation = generation ∧
      ∀ child, child ∈ candidateTags ↔ child ∈ probe.candidates
  | .defer tag generation => ∃ change ∈ sys.waiting, change.urltestTag = tag ∧ change.probeGeneration = generation
  | _ => True

end UrltestSystem

end KeenPbr
