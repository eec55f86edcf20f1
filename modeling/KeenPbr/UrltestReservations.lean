import KeenPbr.UrltestSystem

/-! Half-open reservations over whole runs: queue_probe reserves, commit and abandon release, and
nothing else moves the count. -/
namespace KeenPbr

def Held (breakers : String → Option CircuitBreaker) (tags : List String) : Prop :=
  ∀ child breaker, breakers child = some breaker →
    breaker.Holds child (if child ∈ tags then 1 else 0) ∧ 1 ≤ breaker.halfOpenMax.toNat

section Breakers
variable {breakers : String → Option CircuitBreaker} {tags : List String}

theorem heldUpdate (held : Held breakers tags) {child : String} {breaker : CircuitBreaker} {after : List String}
    (holds : breaker.Holds child (if child ∈ after then 1 else 0)) (room : 1 ≤ breaker.halfOpenMax.toNat)
    (same : ∀ other, other ≠ child → (other ∈ after ↔ other ∈ tags)) :
    Held (Function.update breakers child (some breaker)) after := by
  intro other found at_other
  by_cases here : other = child
  · subst here
    rw [Function.update_self] at at_other
    cases at_other
    exact ⟨holds,room⟩
  · rw [Function.update_of_ne here] at at_other
    obtain ⟨old,oldRoom⟩ := held other found at_other
    refine ⟨?_,oldRoom⟩
    simp only [same other here]
    exact old

theorem heldCongr (held : Held breakers tags) {after : List String} (same : ∀ child, child ∈ after ↔ child ∈ tags) :
    Held breakers after := by
  intro child breaker found
  simp only [same child]
  exact held child breaker found

theorem heldMono (held : Held breakers tags) {after : List String} (more : ∀ child ∈ tags, child ∈ after) : Held breakers after := by
  intro child breaker found
  obtain ⟨holds,room⟩ := held child breaker found
  refine ⟨holds.mono ?_,room⟩
  split
  · rename_i mem
    rw [if_pos (more child mem)]
  · exact Nat.zero_le _

theorem heldOne {child : String} {breaker : CircuitBreaker} (held : Held breakers tags) (found : breakers child = some breaker) :
    breaker.Holds child 1 := by
  refine (held child breaker found).1.mono ?_
  split
  · exact Nat.le_refl 1
  · exact Nat.zero_le 1

theorem heldEnd (held : Held breakers tags) {child : String} {breaker : CircuitBreaker} (found : breakers child = some breaker)
    {ended : CircuitBreaker} (holds : ended.Holds child 0) (config : ended.config = breaker.config) :
    Held (Function.update breakers child (some ended)) (tags.filter (· != child)) := by
  refine heldUpdate held (holds.mono (Nat.zero_le _)) ?_ fun other apart => ?_
  · rw [CircuitBreaker.halfOpenMax,config]
    exact (held child breaker found).2
  · simp [apart]

end Breakers

section States
variable {state : UrltestState} {tags : List String}

theorem mapBreakerHeld (held : Held state.circuitBreakers tags) (child : String) :
    Held (state.mapBreaker (·.endRequest child) child).circuitBreakers (tags.filter (· != child)) := by
  unfold UrltestState.mapBreaker
  split
  · rename_i missing
    intro other breaker found
    have apart : other ≠ child := by
      rintro rfl
      rw [missing] at found
      cases found
    simpa [apart] using held other breaker found
  · rename_i breaker found
    exact heldEnd held found (heldOne held found).endRequest CircuitBreaker.endRequest_config

theorem endRequestsHeld (held : Held state.circuitBreakers tags) (ended : List String) :
    Held (state.endRequests ended).circuitBreakers (tags.filter (· ∉ ended)) := by
  induction ended generalizing state tags with
  | nil => exact heldCongr held (by simp)
  | cons child rest ih =>
    have one := mapBreakerHeld held child
    refine heldCongr (ih one) fun other => ?_
    simp only [List.mem_filter,List.mem_cons,not_or,decide_eq_true_eq,bne_iff_ne,ne_eq]
    tauto

theorem commitResultHeld (held : Held state.circuitBreakers tags) (previous : String) (now : Int) (child : String)
    (result : URLTestResult) :
    Held (state.commitResult previous now child result).circuitBreakers (tags.filter (· != child)) := by
  unfold UrltestState.commitResult
  split
  · rename_i missing
    intro other breaker found
    have apart : other ≠ child := by
      rintro rfl
      rw [missing] at found
      cases found
    simpa [apart] using held other breaker found
  · rename_i breaker found
    have ended : (breaker.endRequest child).Holds child 0 := (heldOne held found).endRequest
    refine heldEnd held found ?_ ?_
    · cases result.success with
      | true => exact ended.recordSuccess
      | false => exact ended.recordFailure now
    · cases result.success with
      | true => exact CircuitBreaker.recordSuccess_config.trans CircuitBreaker.endRequest_config
      | false => exact (CircuitBreaker.recordFailure_config now).trans CircuitBreaker.endRequest_config

theorem commitResultsHeld (held : Held state.circuitBreakers tags) (previous : String) (now : Int)
    (results : List (String × URLTestResult)) :
    Held (state.commitResults previous now results).circuitBreakers (tags.filter (· ∉ results.map (·.1))) := by
  induction results generalizing state tags with
  | nil => exact heldCongr held (by simp)
  | cons entry rest ih =>
    have one := commitResultHeld held previous now entry.1 entry.2
    refine heldCongr (ih one) fun other => ?_
    simp only [List.map_cons,List.mem_filter,List.mem_cons,not_or,decide_eq_true_eq,bne_iff_ne,ne_eq]
    tauto

theorem beginRequestsHeld (held : Held state.circuitBreakers tags) {begun : List String} (distinct : begun.Nodup)
    (free : ∀ child ∈ begun, child ∉ tags) : Held (state.beginRequests begun).circuitBreakers (begun ++ tags) := by
  induction begun generalizing state tags with
  | nil => exact held
  | cons child rest ih =>
    obtain ⟨apart,distinctRest⟩ := List.nodup_cons.mp distinct
    have one : Held (state.mapBreaker (·.beginRequest child) child).circuitBreakers (child :: tags) := by
      unfold UrltestState.mapBreaker
      split
      · exact heldMono held fun other mem => List.mem_cons_of_mem child mem
      · rename_i breaker found
        have idle := (held child breaker found).1
        rw [if_neg (free child List.mem_cons_self)] at idle
        refine heldUpdate held ?_ ?_ fun other differs => ?_
        · rw [if_pos List.mem_cons_self]
          exact idle.beginRequest
        · rw [CircuitBreaker.halfOpenMax,CircuitBreaker.beginRequest_config]
          exact (held child breaker found).2
        · simp [differs]
    have later : ∀ other ∈ rest, other ∉ child :: tags := by
      intro other mem listed
      cases List.mem_cons.mp listed with
      | inl same => exact apart (same ▸ mem)
      | inr old => exact free other (List.mem_cons_of_mem child mem) old
    refine heldCongr (ih one distinctRest later) fun other => ?_
    simp only [List.cons_append,List.mem_cons,List.mem_append]
    tauto

theorem checkedHeld {marks : String → Option UInt32} {now : Int} {checked : UrltestState × List String}
    (held : Held checked.1.circuitBreakers []) (child : String) :
    Held (UrltestState.checkCandidate marks now checked child).1.circuitBreakers [] := by
  unfold UrltestState.checkCandidate
  split
  · rename_i mark breaker _ found
    obtain ⟨holds,room⟩ := held child breaker found
    refine heldUpdate held (holds.isAllowed now) ?_ fun _ _ => Iff.rfl
    rw [CircuitBreaker.halfOpenMax,CircuitBreaker.isAllowed_config]
    exact room
  · exact held

theorem checkedCandidates (marks : String → Option UInt32) (now : Int) (checked : UrltestState × List String) (child : String) :
    (UrltestState.checkCandidate marks now checked child).2 = checked.2 ∨
      (UrltestState.checkCandidate marks now checked child).2 = checked.2 ++ [child] := by
  unfold UrltestState.checkCandidate
  split
  · dsimp only
    split
    · exact Or.inr rfl
    · exact Or.inl rfl
  · exact Or.inl rfl

theorem collectedCandidates (marks : String → Option UInt32) (now : Int) (children : List String)
    (checked : UrltestState × List String) :
    ∃ some_children, some_children.Sublist children ∧
      (children.foldl (UrltestState.checkCandidate marks now) checked).2 = checked.2 ++ some_children := by
  induction children generalizing checked with
  | nil => exact ⟨[],List.Sublist.refl [],by simp⟩
  | cons child rest ih =>
    obtain ⟨kept,sub,same⟩ := ih (UrltestState.checkCandidate marks now checked child)
    rw [List.foldl_cons,same]
    cases checkedCandidates marks now checked child with
    | inl skipped => exact ⟨kept,sub.cons child,by rw [skipped]⟩
    | inr taken => exact ⟨child :: kept,sub.cons_cons child,by rw [taken,List.append_assoc,List.singleton_append]⟩

theorem collectedHeld {marks : String → Option UInt32} {now : Int} {children : List String} (checked : UrltestState × List String)
    (held : Held checked.1.circuitBreakers []) :
    Held (children.foldl (UrltestState.checkCandidate marks now) checked).1.circuitBreakers [] := by
  induction children generalizing checked with
  | nil => exact held
  | cons child rest ih => exact ih _ (checkedHeld held child)

end States

structure ReservationCore where
  children : List String
  breakers : String → Option CircuitBreaker
  inflight : Bool
  pending : Bool
  generation : Nat

def UrltestState.core (state : UrltestState) : ReservationCore :=
  ⟨state.children,state.circuitBreakers,state.probeInflight,state.selectionPending,state.generation⟩

structure GroupSound (sys : UrltestSystem) (tag : String) (core : ReservationCore) : Prop where
  children : core.children.Nodup
  older : core.generation < sys.manager.generation
  idle : core.inflight = false → Held core.breakers []
  pending : core.pending = true → core.inflight = true ∧ core.generation ∈ sys.committed
  settled : core.inflight = true → core.generation ∈ sys.committed → Held core.breakers []
  probed : core.inflight = true → ∃ probe ∈ sys.issued, probe.tag = tag ∧ probe.generation = core.generation ∧
    Held core.breakers probe.candidates

structure SystemSound (sys : UrltestSystem) : Prop where
  groups : ∀ tag state, sys.manager.states tag = some state → GroupSound sys tag state.core
  positive : 0 < sys.manager.generation
  issued : ∀ probe ∈ sys.issued, probe.generation < sys.manager.generation
  distinct : ∀ probe ∈ sys.issued, ∀ other ∈ sys.issued, probe.generation = other.generation → probe = other
  committed : ∀ generation ∈ sys.committed, generation < sys.manager.generation
  waiting : ∀ change ∈ sys.waiting, change.probeGeneration ∈ sys.committed

section Cores
variable (state : UrltestState)

theorem settleClaimCore (admitted : Bool) : (state.settleClaim admitted).core = state.core := by
  unfold UrltestState.settleClaim
  dsimp only
  split
  · rfl
  · split
    · rfl
    · split <;> rfl

theorem finishCore (admitted : Bool) : (state.finishExternalHealthProbe admitted).1.core = state.core := by
  unfold UrltestState.finishExternalHealthProbe
  dsimp only
  split
  · exact settleClaimCore state admitted
  · exact settleClaimCore state admitted

theorem claimedFailureCore : state.recordClaimedExternalHealthFailure.core = state.core := by
  unfold UrltestState.recordClaimedExternalHealthFailure
  split
  · rfl
  · dsimp only
    split <;> rfl

theorem recordEdgeCore : (UrltestManager.recordEdge state).core = state.core := by
  unfold UrltestManager.recordEdge
  dsimp only
  split <;> rfl

theorem requestTrailingCore (reason : ProbeReason) : (UrltestManager.requestTrailing state reason).core = state.core := by
  unfold UrltestManager.requestTrailing
  split <;> rfl

theorem claimCore : (UrltestManager.claimExternalHealth state).core = state.core := by
  unfold UrltestManager.claimExternalHealth
  split <;> rfl

theorem mapBreakerCore (f : CircuitBreaker → CircuitBreaker) (child : String) :
    (state.mapBreaker f child).core = { state.core with breakers := (state.mapBreaker f child).circuitBreakers } := by
  unfold UrltestState.mapBreaker
  split <;> rfl

theorem endRequestsCore (tags : List String) :
    (state.endRequests tags).core = { state.core with breakers := (state.endRequests tags).circuitBreakers } := by
  induction tags generalizing state with
  | nil => rfl
  | cons child rest ih =>
    have later := ih (state.mapBreaker (·.endRequest child) child)
    rw [mapBreakerCore] at later
    exact later

theorem beginRequestsCore (tags : List String) :
    (state.beginRequests tags).core = { state.core with breakers := (state.beginRequests tags).circuitBreakers } := by
  induction tags generalizing state with
  | nil => rfl
  | cons child rest ih =>
    have later := ih (state.mapBreaker (·.beginRequest child) child)
    rw [mapBreakerCore] at later
    exact later

theorem commitResultsCore (previous : String) (now : Int) (results : List (String × URLTestResult)) :
    (state.commitResults previous now results).core =
      { state.core with breakers := (state.commitResults previous now results).circuitBreakers } := by
  induction results generalizing state with
  | nil => rfl
  | cons entry rest ih =>
    have later := ih (state.commitResult previous now entry.1 entry.2)
    have one : (state.commitResult previous now entry.1 entry.2).core =
        { state.core with breakers := (state.commitResult previous now entry.1 entry.2).circuitBreakers } := by
      unfold UrltestState.commitResult
      split <;> rfl
    rw [one] at later
    exact later

theorem collectedCore (marks : String → Option UInt32) (now : Int) (children : List String) (checked : UrltestState × List String) :
    (children.foldl (UrltestState.checkCandidate marks now) checked).1.core =
      { checked.1.core with breakers := (children.foldl (UrltestState.checkCandidate marks now) checked).1.circuitBreakers } := by
  induction children generalizing checked with
  | nil => rfl
  | cons child rest ih =>
    have later := ih (UrltestState.checkCandidate marks now checked child)
    have one : (UrltestState.checkCandidate marks now checked child).1.core =
        { checked.1.core with breakers := (UrltestState.checkCandidate marks now checked child).1.circuitBreakers } := by
      unfold UrltestState.checkCandidate
      split <;> rfl
    rw [one] at later
    exact later

end Cores

section Steps
variable {sys after : UrltestSystem}

theorem GroupSound.frame {tag : String} {core : ReservationCore} (group : GroupSound sys tag core)
    (later : sys.manager.generation ≤ after.manager.generation) (issued : ∀ probe ∈ sys.issued, probe ∈ after.issued)
    (kept : ∀ generation ∈ sys.committed, generation ∈ after.committed)
    (fresh : core.inflight = true → core.generation ∈ after.committed → core.generation ∈ sys.committed) :
    GroupSound after tag core := by
  refine ⟨group.children,Nat.lt_of_lt_of_le group.older later,group.idle,?_,?_,?_⟩
  · intro pending
    obtain ⟨inflight,committed⟩ := group.pending pending
    exact ⟨inflight,kept _ committed⟩
  · intro inflight committed
    exact group.settled inflight (fresh inflight committed)
  · intro inflight
    obtain ⟨probe,mem,rest⟩ := group.probed inflight
    exact ⟨probe,issued probe mem,rest⟩

theorem SystemSound.quiet (sound : SystemSound sys) (later : sys.manager.generation ≤ after.manager.generation)
    (issued : after.issued = sys.issued) (committed : after.committed = sys.committed)
    (waiting : ∀ change ∈ after.waiting, change ∈ sys.waiting)
    (groups : ∀ tag state, after.manager.states tag = some state →
      GroupSound after tag state.core ∨ ∃ old, sys.manager.states tag = some old ∧ state.core = old.core) : SystemSound after := by
  refine ⟨?_,Nat.lt_of_lt_of_le sound.positive later,?_,?_,?_,?_⟩
  · intro tag state found
    cases groups tag state found with
    | inl group => exact group
    | inr unchanged =>
      obtain ⟨old,known,same⟩ := unchanged
      rw [same]
      refine (sound.groups tag old known).frame later ?_ ?_ ?_
      · rw [issued]
        exact fun _ mem => mem
      · rw [committed]
        exact fun _ mem => mem
      · rw [committed]
        exact fun _ mem => mem
  · rw [issued]
    exact fun probe mem => Nat.lt_of_lt_of_le (sound.issued probe mem) later
  · rw [issued]
    exact sound.distinct
  · rw [committed]
    exact fun generation mem => Nat.lt_of_lt_of_le (sound.committed generation mem) later
  · rw [committed]
    exact fun change mem => sound.waiting change (waiting change mem)

theorem putGroups {manager : UrltestManager} {tag : String} {state : UrltestState} {P : String → UrltestState → Prop}
    (here : P tag state) (others : ∀ other found, other ≠ tag → manager.states other = some found → P other found) :
    ∀ other found, (manager.put tag state).states other = some found → P other found := by
  intro other found at_other
  by_cases same : other = tag
  · subst same
    rw [UrltestManager.putSelf] at at_other
    cases at_other
    exact here
  · rw [UrltestManager.putOther manager same] at at_other
    exact others other found same at_other

theorem SystemSound.putSame (sound : SystemSound sys) {tag : String} {state next : UrltestState}
    (found : sys.manager.states tag = some state) (same : next.core = state.core) (waiting : List UrltestSelectionChange)
    (fewer : ∀ change ∈ waiting, change ∈ sys.waiting) (log : List HealthEvent) :
    SystemSound { sys with manager := sys.manager.put tag next, waiting, log } := by
  refine sound.quiet (Nat.le_refl _) rfl rfl fewer ?_
  refine putGroups ?_ fun other old _ known => ?_
  · exact Or.inr ⟨state,found,same⟩
  · exact Or.inr ⟨old,known,rfl⟩

theorem SystemSound.putNew (sound : SystemSound sys) {tag : String} {next : UrltestState} {manager : UrltestManager}
    (states : manager.states = (sys.manager.put tag next).states) (later : sys.manager.generation ≤ manager.generation)
    (waiting : List UrltestSelectionChange) (fewer : ∀ change ∈ waiting, change ∈ sys.waiting) (log : List HealthEvent)
    (group : GroupSound { sys with manager, waiting, log } tag next.core) : SystemSound { sys with manager, waiting, log } := by
  refine sound.quiet later rfl rfl fewer ?_
  rw [states]
  refine putGroups ?_ fun other old _ known => ?_
  · exact Or.inl group
  · exact Or.inr ⟨old,known,rfl⟩

theorem SystemSound.unmoved (sound : SystemSound sys) (waiting : List UrltestSelectionChange)
    (fewer : ∀ change ∈ waiting, change ∈ sys.waiting) (log : List HealthEvent) : SystemSound { sys with waiting, log } :=
  sound.quiet (Nat.le_refl _) rfl rfl fewer fun _ state found => Or.inr ⟨state,found,rfl⟩

theorem freshHeld {ut : Outbound} (room : 1 ≤ (toUint32 ((ut.circuitBreaker.getD {}).halfOpenMaxRequests.getD 1)).toNat)
    (initial : String) (direct : String → Option String) (taskId : Int) :
    Held (UrltestManager.urltestState ut initial direct taskId).circuitBreakers [] := by
  intro child breaker found
  unfold UrltestManager.urltestState at found
  dsimp only at found
  split at found
  · cases found
    exact ⟨CircuitBreaker.fresh _ child,room⟩
  · cases found

theorem registerSound (sound : SystemSound sys) {ut : Outbound} (initial : String) (direct : String → Option String) (taskId : Int)
    (validated : ∃ inet cfg, validateConfig inet cfg = [] ∧ ut ∈ cfg.outboundList ∧ ut.type = .urltest) :
    SystemSound { sys with manager := sys.manager.registerUrltest ut initial direct taskId } := by
  obtain ⟨inet,cfg,accepted,listed,type⟩ := validated
  obtain ⟨distinct,room⟩ := acceptedUrltest (acceptedConfig accepted) listed type
  unfold UrltestManager.registerUrltest
  split
  · exact sound
  · refine sound.putNew rfl (Nat.le_refl _) _ (fun _ mem => mem) _ ?_
    exact ⟨distinct,sound.positive,fun _ => freshHeld room initial direct taskId,nofun,nofun,nofun⟩

theorem admittedCore (manager : UrltestManager) {state : UrltestState} (distinct : state.children.Nodup)
    (idle : Held state.circuitBreakers []) (now : Int) :
    ∃ breakers, (manager.admitProbe state now).1.core =
        { state.core with breakers, inflight := true, generation := manager.generation } ∧
      Held breakers (manager.admitProbe state now).2 := by
  obtain ⟨candidates,sub,listed⟩ := collectedCandidates manager.marksGeneration now state.children (state,[])
  have same : (state.collectCandidates manager.marksGeneration now).2 = candidates := listed
  have held : Held (state.collectCandidates manager.marksGeneration now).1.circuitBreakers [] :=
    collectedHeld (state,[]) idle
  have core : (state.collectCandidates manager.marksGeneration now).1.core =
      { state.core with breakers := (state.collectCandidates manager.marksGeneration now).1.circuitBreakers } :=
    collectedCore manager.marksGeneration now state.children (state,[])
  unfold UrltestManager.admitProbe
  dsimp only
  rw [claimCore,beginRequestsCore,same]
  generalize (state.collectCandidates manager.marksGeneration now).1 = checked at held core
  refine ⟨((checked.startProbe manager.generation).beginRequests candidates).circuitBreakers,?_,?_⟩
  · have started : (checked.startProbe manager.generation).core =
        { checked.core with inflight := true, generation := manager.generation } := rfl
    rw [started,core]
  · have idleProbe : Held (checked.startProbe manager.generation).circuitBreakers [] := held
    have begun := beginRequestsHeld idleProbe (sub.nodup distinct) (by simp)
    rwa [List.append_nil] at begun

theorem queueSound (sound : SystemSound sys) (tag : String) (reason : ProbeReason) (now : Int) :
    SystemSound (sys.act (.queueProbe tag reason now)) := by
  change SystemSound { sys with
    manager := (sys.manager.queueProbe tag reason now).1
    issued := (sys.manager.queueProbe tag reason now).2.toList ++ sys.issued
    log := _ }
  cases found : sys.manager.states tag with
  | none =>
    rw [UrltestManager.queueMissing found]
    exact sound.unmoved _ (fun _ mem => mem) _
  | some state =>
    cases busy : state.probeInflight with
    | true =>
      rw [UrltestManager.queueBusy found busy]
      exact sound.putSame found (requestTrailingCore state reason) _ (fun _ mem => mem) _
    | false =>
      rw [UrltestManager.queueFree found busy]
      have group := sound.groups tag state found
      obtain ⟨breakers,core,held⟩ := admittedCore sys.manager group.children (group.idle busy) now
      have quiet : state.selectionPending = false := by
        cases pending : state.selectionPending with
        | false => rfl
        | true =>
          have inflight := (group.pending pending).1
          rw [UrltestState.core,busy] at inflight
          cases inflight
      have unissued : ∀ probe ∈ sys.issued, probe.generation ≠ sys.manager.generation :=
        fun probe mem => Nat.ne_of_lt (sound.issued probe mem)
      refine ⟨?_,Nat.succ_pos _,?_,?_,?_,sound.waiting⟩
      · refine putGroups ?_ fun other old _ known => ?_
        · rw [core]
          refine ⟨group.children,Nat.lt_succ_self _,nofun,?_,?_,?_⟩
          · intro pending
            change state.selectionPending = true at pending
            rw [quiet] at pending
            cases pending
          · intro _ committed
            exact absurd (sound.committed _ committed) (Nat.lt_irrefl _)
          · intro _
            exact ⟨_,List.mem_cons_self,rfl,rfl,held⟩
        · exact (sound.groups other old known).frame (Nat.le_succ _) (fun probe mem => List.mem_cons_of_mem _ mem)
            (fun _ mem => mem) fun _ mem => mem
      · intro probe mem
        cases List.mem_cons.mp mem with
        | inl same =>
          subst same
          exact Nat.lt_succ_self _
        | inr old => exact Nat.lt_succ_of_lt (sound.issued probe old)
      · intro probe mem other otherMem same
        cases List.mem_cons.mp mem with
        | inl here =>
          cases List.mem_cons.mp otherMem with
          | inl there => rw [here,there]
          | inr old =>
            subst here
            exact absurd same.symm (unissued other old)
        | inr known =>
          cases List.mem_cons.mp otherMem with
          | inl there =>
            subst there
            exact absurd same (unissued probe known)
          | inr old => exact sound.distinct probe known other old same
      · exact fun generation mem => Nat.lt_succ_of_lt (sound.committed generation mem)

theorem SystemSound.probeOf (sound : SystemSound sys) {tag : String} {state : UrltestState}
    (found : sys.manager.states tag = some state) (inflight : state.probeInflight = true) {probe : Probe}
    (mem : probe ∈ sys.issued) (same : probe.generation = state.generation) :
    probe.tag = tag ∧ Held state.circuitBreakers probe.candidates := by
  obtain ⟨own,ownMem,ownTag,ownGeneration,held⟩ := (sound.groups tag state found).probed inflight
  have equal : probe = own := sound.distinct probe mem own ownMem (same.trans ownGeneration.symm)
  subst equal
  exact ⟨ownTag,held⟩

theorem filterNone {tags ended : List String} (covered : ∀ child ∈ tags, child ∈ ended) (child : String) :
    child ∈ ([] : List String) ↔ child ∈ tags.filter (· ∉ ended) := by
  simp only [List.not_mem_nil,List.mem_filter,decide_eq_true_eq,false_iff,not_and,not_not]
  exact covered child

theorem GroupSound.released {tag : String} {core : ReservationCore} (group : GroupSound sys tag core)
    {breakers : String → Option CircuitBreaker}
    (held : Held breakers []) {generation : Nat} (older : generation < after.manager.generation) :
    GroupSound after tag { core with breakers, inflight := false, pending := false, generation } :=
  ⟨group.children,older,fun _ => held,nofun,nofun,nofun⟩

theorem commitSound (sound : SystemSound sys) {tag : String} {generation : Nat} {results : List (String × URLTestResult)} {now : Int}
    (called : sys.Called (.commit tag generation results now)) : SystemSound (sys.act (.commit tag generation results now)) := by
  obtain ⟨probe,mem,sameTag,sameGeneration,fresh,_,covers⟩ := called
  change SystemSound { sys with
    manager := (sys.manager.commitProbeResults tag generation results now).1
    committed := generation :: sys.committed
    waiting := (sys.manager.commitProbeResults tag generation results now).2.1.toList ++ sys.waiting
    log := _ }
  have below : generation < sys.manager.generation := sameGeneration ▸ sound.issued probe mem
  -- a group in flight under this generation is the one the probe belongs to
  have owner : ∀ other state, sys.manager.states other = some state → state.probeInflight = true →
      state.generation = generation → other = tag := by
    intro other state found inflight same
    exact (sound.probeOf found inflight mem (sameGeneration.trans same.symm)).1.symm.trans sameTag
  have committedBelow : ∀ other ∈ generation :: sys.committed, other < sys.manager.generation := by
    intro other listed
    cases List.mem_cons.mp listed with
    | inl same => exact same ▸ below
    | inr old => exact sound.committed other old
  have waitingOld : ∀ change ∈ sys.waiting, change.probeGeneration ∈ generation :: sys.committed :=
    fun change listed => List.mem_cons_of_mem _ (sound.waiting change listed)
  have others : ∀ {next : UrltestSystem}, next.manager.generation = sys.manager.generation → next.issued = sys.issued →
      next.committed = generation :: sys.committed → ∀ other state, sys.manager.states other = some state →
      (state.probeInflight = true → state.generation ≠ generation) → GroupSound next other state.core := by
    intro next sameCounter sameIssued nowCommitted other state found elsewhere
    refine (sound.groups other state found).frame (Nat.le_of_eq sameCounter.symm) (sameIssued ▸ fun _ listed => listed) ?_ ?_
    · rw [nowCommitted]
      exact fun _ listed => List.mem_cons_of_mem _ listed
    · rw [nowCommitted]
      intro inflight listed
      cases List.mem_cons.mp listed with
      | inl same => exact absurd same (elsewhere inflight)
      | inr old => exact old
  cases UrltestManager.commitCases sys.manager tag generation results now with
  | inl stale =>
    obtain ⟨same,unheld⟩ := stale
    rw [same]
    refine ⟨?_,sound.positive,sound.issued,sound.distinct,committedBelow,waitingOld⟩
    intro other state found
    refine others (by rfl) (by rfl) (by rfl) other state found fun inflight sameGen => ?_
    have here := owner other state found inflight sameGen
    subst here
    rw [unheld state ⟨found,sameGen⟩] at inflight
    cases inflight
  | inr current =>
    obtain ⟨state,⟨found,stateGeneration⟩,inflight,published,publishedEq,outcome⟩ := current
    have held := (sound.probeOf found inflight mem (sameGeneration.trans stateGeneration.symm)).2
    have ended : Held published.circuitBreakers [] := by
      rw [publishedEq]
      exact heldCongr (commitResultsHeld held state.selectedOutbound now results)
        (filterNone fun child listed => (covers child).mpr listed)
    have core : published.core = { state.core with breakers := published.circuitBreakers } := by
      rw [publishedEq]
      exact commitResultsCore state state.selectedOutbound now results
    have group := sound.groups tag state found
    have elsewhere : ∀ other old, other ≠ tag → sys.manager.states other = some old → old.probeInflight = true →
        old.generation ≠ generation := fun other old apart known busy same => apart (owner other old known busy same)
    cases outcome with
    | inl changed =>
      obtain ⟨change,_,changeGeneration,_,result⟩ := changed
      rw [result]
      refine ⟨putGroups ?_ fun other old apart known => others (by rfl) (by rfl) (by rfl) other old known (elsewhere other old apart known),
        sound.positive,sound.issued,sound.distinct,committedBelow,?_⟩
      · rw [core]
        refine ⟨group.children,group.older,fun _ => ended,?_,fun _ _ => ended,?_⟩
        · intro pending
          exact ⟨inflight,List.mem_cons_of_mem _ (group.pending pending).2⟩
        · intro _
          exact ⟨probe,mem,sameTag,sameGeneration.trans stateGeneration.symm,heldMono ended nofun⟩
      · intro other listed
        cases List.mem_cons.mp listed with
        | inl same =>
          rw [same,changeGeneration]
          exact List.mem_cons_self
        | inr old => exact waitingOld other old
    | inr unchanged =>
      obtain ⟨_,resolution,result⟩ := unchanged
      rw [result]
      refine ⟨putGroups ?_ fun other old apart known => others (by rfl) (by rfl) (by rfl) other old known (elsewhere other old apart known),
        sound.positive,sound.issued,sound.distinct,committedBelow,waitingOld⟩
      rw [finishCore]
      have free : ({ published with probeInflight := false } : UrltestState).core =
          { published.core with inflight := false } := rfl
      rw [free,core]
      refine ⟨group.children,group.older,fun _ => ended,?_,nofun,nofun⟩
      intro pending
      have committed := (group.pending pending).2
      rw [show state.core.generation = generation from stateGeneration] at committed
      exact absurd committed fresh

theorem settleSound (sound : SystemSound sys) {change : UrltestSelectionChange} {admitted : Bool} (waiting : change ∈ sys.waiting) :
    SystemSound (sys.act (.settle change admitted)) := by
  have fewer : ∀ other ∈ sys.waiting.erase change, other ∈ sys.waiting := fun _ mem => List.mem_of_mem_erase mem
  change SystemSound { sys with
    manager := (sys.manager.settleChange change admitted).1
    waiting := sys.waiting.erase change
    log := _ }
  cases UrltestManager.settleCases sys.manager change admitted with
  | inl stale =>
    rw [stale]
    exact sound.unmoved _ fewer _
  | inr current =>
    obtain ⟨state,⟨found,generation⟩,inflight,settled,settledEq,free,resolution,result⟩ := current
    rw [result]
    have group := sound.groups change.urltestTag state found
    have committed : state.core.generation ∈ sys.committed := by
      change state.generation ∈ sys.committed
      rw [generation]
      exact sound.waiting change waiting
    have core : ({ settled with probeInflight := false } : UrltestState).core =
        { state.core with inflight := false, pending := false } := by
      have kept : settled.core = { state.core with pending := settled.selectionPending } := by
        rw [settledEq,UrltestState.settleCursor]
        split <;> rfl
      change ({ settled.core with inflight := false } : ReservationCore) = _
      rw [kept,free]
    refine sound.putNew rfl (Nat.le_refl _) _ fewer _ ?_
    rw [finishCore,core]
    exact group.released (group.settled inflight committed) group.older

theorem abandonSound (sound : SystemSound sys) {tag : String} {generation : Nat} {candidateTags : List String}
    (called : sys.Called (.abandon tag generation candidateTags)) : SystemSound (sys.act (.abandon tag generation candidateTags)) := by
  obtain ⟨probe,mem,_,sameGeneration,covers⟩ := called
  change SystemSound { sys with manager := sys.manager.abandonProbe tag generation candidateTags }
  cases UrltestManager.abandonCases sys.manager tag generation candidateTags with
  | inl stale =>
    rw [stale]
    exact sound
  | inr current =>
    obtain ⟨state,⟨found,stateGeneration⟩,inflight,result⟩ := current
    rw [result]
    have group := sound.groups tag state found
    have held := (sound.probeOf found inflight mem (sameGeneration.trans stateGeneration.symm)).2
    refine sound.putNew (by rfl) (Nat.le_succ _) _ (fun _ listed => listed) _ ?_
    rw [endRequestsCore]
    generalize dropped : ({ state with probeInflight := false, selectionPending := false } :
      UrltestState).recordClaimedExternalHealthFailure = failed
    have core : failed.core = { state.core with inflight := false, pending := false } := by
      rw [← dropped]
      exact claimedFailureCore _
    have breakers : failed.circuitBreakers = state.circuitBreakers := congrArg ReservationCore.breakers core
    have heldFailed : Held ({ failed with generation := sys.manager.generation } : UrltestState).circuitBreakers probe.candidates := by
      rw [← breakers] at held
      exact held
    have ended := heldCongr (endRequestsHeld heldFailed candidateTags) (filterNone fun child listed => (covers child).mpr listed)
    have failedCore : ({ failed with generation := sys.manager.generation } : UrltestState).core =
        { failed.core with generation := sys.manager.generation } := rfl
    rw [failedCore,core]
    exact group.released ended (Nat.lt_succ_self _)

theorem deferSound (sound : SystemSound sys) {tag : String} {generation : Nat} (called : sys.Called (.defer tag generation)) :
    SystemSound (sys.act (.defer tag generation)) := by
  obtain ⟨change,mem,_,sameGeneration⟩ := called
  change SystemSound { sys with manager := (sys.manager.deferSelectionCompletion tag generation).1 }
  cases UrltestManager.deferCases sys.manager tag generation with
  | inl stale =>
    rw [stale]
    exact sound
  | inr current =>
    obtain ⟨state,⟨found,stateGeneration⟩,inflight,result⟩ := current
    rw [result]
    have group := sound.groups tag state found
    refine sound.putNew rfl (Nat.le_refl _) _ (fun _ listed => listed) _ ?_
    refine ⟨group.children,group.older,group.idle,fun _ => ⟨inflight,?_⟩,group.settled,group.probed⟩
    change state.generation ∈ sys.committed
    rw [stateGeneration,← sameGeneration]
    exact sound.waiting change mem

theorem completeSound (sound : SystemSound sys) (tag : String) (generation : Nat) (resumePending : Bool) :
    SystemSound (sys.act (.complete tag generation resumePending)) := by
  change SystemSound { sys with manager := (sys.manager.completeSelection tag generation resumePending).1, log := _ }
  cases UrltestManager.completeCases sys.manager tag generation resumePending with
  | inl stale =>
    rw [stale]
    exact sound.unmoved _ (fun _ mem => mem) _
  | inr current =>
    obtain ⟨state,⟨found,_⟩,pending,finished,finishedEq,next,resolution,nextEq,result⟩ := current
    rw [result]
    have group := sound.groups tag state found
    obtain ⟨inflight,committed⟩ := group.pending pending
    have core : next.core = { state.core with inflight := false, pending := false } := by
      have done : finished.core = { state.core with inflight := false, pending := false } := by
        rw [finishedEq]
        exact finishCore _ true
      cases nextEq with
      | inl same => rw [same,done]
      | inr retired =>
        rw [retired]
        exact done
    refine sound.putNew rfl (Nat.le_refl _) _ (fun _ mem => mem) _ ?_
    rw [core]
    exact group.released (group.settled inflight committed) group.older

theorem clearSound (sound : SystemSound sys) (marksGeneration : String → Option UInt32) :
    SystemSound { sys with manager := { sys.manager.clear with marksGeneration } } := by
  refine sound.quiet (Nat.le_succ _) rfl rfl (fun _ mem => mem) ?_
  intro tag state found
  cases found

theorem SystemSound.quietMove (sound : SystemSound sys) {manager : UrltestManager}
    (quiet : UrltestManager.QuietMove sys.manager manager) : SystemSound { sys with manager } := by
  cases quiet with
  | inl unchanged =>
    rw [unchanged]
    exact sound
  | inr put =>
    obtain ⟨tag,state,selected,failures,task,scheduling,epoch,found,result⟩ := put
    rw [result]
    exact sound.putSame found (by rfl) _ (fun _ mem => mem) _

theorem edgeSound (sound : SystemSound sys) (tag : String) : SystemSound (sys.act (.edge tag)) := by
  change SystemSound { sys with manager := sys.manager.triggerExternalHealthTest tag, log := _ }
  unfold UrltestManager.triggerExternalHealthTest
  cases found : sys.manager.states tag with
  | none => exact sound.unmoved _ (fun _ mem => mem) _
  | some state => exact sound.putSame found (recordEdgeCore state) _ (fun _ mem => mem) _

theorem stepSound (sys : UrltestSystem) (action : UrltestAction) (called : sys.Called action) (sound : SystemSound sys) :
    SystemSound (sys.act action) := by
  cases action with
  | register ut initial direct taskId => exact registerSound sound initial direct taskId called
  | queueProbe tag reason now => exact queueSound sound tag reason now
  | edge tag => exact edgeSound sound tag
  | commit tag generation results now => exact commitSound sound called
  | settle change admitted => exact settleSound sound called
  | abandon tag generation candidateTags => exact abandonSound sound called
  | defer tag generation => exact deferSound sound called
  | complete tag generation resumePending => exact completeSound sound tag generation resumePending
  | synchronize tag selected => exact sound.quietMove (UrltestManager.synchronizeQuiet sys.manager tag selected)
  | synchronizeIf tag generation selected => exact sound.quietMove (UrltestManager.synchronizeIfQuiet sys.manager tag generation selected)
  | clear => exact clearSound sound sys.manager.marksGeneration
  | replaceMarks marks => exact clearSound sound marks
  | startFailure tag expected => exact sound.quietMove (UrltestManager.startFailureQuiet sys.manager tag expected)
  | reserveRetry tag => exact sound.quietMove (UrltestManager.reserveQuiet sys.manager tag)
  | publishRetry tag registration epoch task => exact sound.quietMove (UrltestManager.publishQuiet sys.manager tag registration epoch task)
  | runRetry tag registration epoch => exact sound.quietMove (UrltestManager.runRetryQuiet sys.manager tag registration epoch)

end Steps

def UrltestAction.carries : UrltestAction → Option (String × Nat)
  | .commit tag generation _ _ => some (tag,generation)
  | .settle change _ => some (change.urltestTag,change.probeGeneration)
  | .abandon tag generation _ => some (tag,generation)
  | .defer tag generation => some (tag,generation)
  | .complete tag generation _ => some (tag,generation)
  | .synchronizeIf tag generation _ => some (tag,generation)
  | _ => none

theorem supersededUnmoved (sys : UrltestSystem) {action : UrltestAction} {tag : String} {generation : Nat}
    (carries : action.carries = some (tag,generation)) (superseded : ∀ state, ¬ sys.manager.Fenced tag generation state) :
    (sys.act action).manager = sys.manager := by
  have never {P : UrltestState → Prop} (current : ∃ state, sys.manager.Fenced tag generation state ∧ P state) : False := by
    obtain ⟨state,fenced,_⟩ := current
    exact superseded state fenced
  cases action with
  | commit tag' generation' results now =>
    cases carries
    cases UrltestManager.commitCases sys.manager tag generation results now with
    | inl stale => exact congrArg Prod.fst stale.1
    | inr current => exact (never current).elim
  | settle change admitted =>
    cases carries
    cases UrltestManager.settleCases sys.manager change admitted with
    | inl stale => exact congrArg Prod.fst stale
    | inr current => exact (never current).elim
  | abandon tag' generation' candidateTags =>
    cases carries
    cases UrltestManager.abandonCases sys.manager tag generation candidateTags with
    | inl stale => exact stale
    | inr current => exact (never current).elim
  | defer tag' generation' =>
    cases carries
    cases UrltestManager.deferCases sys.manager tag generation with
    | inl stale => exact stale
    | inr current => exact (never current).elim
  | complete tag' generation' resumePending =>
    cases carries
    cases UrltestManager.completeCases sys.manager tag generation resumePending with
    | inl stale => exact congrArg Prod.fst stale
    | inr current => exact (never current).elim
  | synchronizeIf tag' generation' selected =>
    cases carries
    change (sys.manager.synchronizeSelectedIfGeneration tag generation selected).1 = sys.manager
    unfold UrltestManager.synchronizeSelectedIfGeneration
    split
    · rfl
    · rename_i current
      simp only [bne_iff_ne,ne_eq,not_not] at current
      obtain ⟨state,found,same⟩ := Option.map_eq_some_iff.mp current
      exact absurd ⟨found,same⟩ (superseded state)
  | register | queueProbe | edge | synchronize | clear | replaceMarks | startFailure | reserveRetry | publishRetry | runRetry =>
    cases carries

/- What a reader of the manager may rely on between any two calls. -/
structure ReservationsHold (manager : UrltestManager) : Prop where
  released : ∀ tag state, manager.states tag = some state → state.probeInflight = false →
    ∀ child breaker, state.circuitBreakers child = some breaker → ∀ entry, breaker.active entry = 0
  pending : ∀ tag state, manager.states tag = some state → state.selectionPending = true → state.probeInflight = true
  bounded : ∀ tag state, manager.states tag = some state → ∀ child breaker, state.circuitBreakers child = some breaker →
    ∀ entry, breaker.active entry ≤ breaker.halfOpenMax

theorem heldBounded {breakers : String → Option CircuitBreaker} {tags : List String} (held : Held breakers tags) {child : String}
    {breaker : CircuitBreaker} (found : breakers child = some breaker) (entry : String) : breaker.active entry ≤ breaker.halfOpenMax := by
  have one := heldOne held found
  have room := (held child breaker found).2
  rw [UInt32.le_iff_toNat_le]
  by_cases same : entry = child
  · subst same
    exact Nat.le_trans one.own room
  · rw [one.others entry same]
    exact Nat.zero_le _

theorem reservationsOf {sys : UrltestSystem} (sound : SystemSound sys) : ReservationsHold sys.manager := by
  refine ⟨?_,?_,?_⟩
  · intro tag state found free child breaker at_child entry
    have held := (sound.groups tag state found).idle free child breaker at_child
    exact CircuitBreaker.Holds.zero held.1 entry
  · intro tag state found pending
    exact ((sound.groups tag state found).pending pending).1
  · intro tag state found child breaker at_child entry
    have group := sound.groups tag state found
    cases busy : state.probeInflight with
    | false => exact heldBounded (group.idle busy) at_child entry
    | true =>
      obtain ⟨probe,_,_,_,held⟩ := group.probed busy
      exact heldBounded held at_child entry

theorem startSound (marksGeneration : String → Option UInt32) : SystemSound { manager := { marksGeneration } } := by
  refine ⟨?_,Nat.one_pos,?_,?_,?_,?_⟩
  · intro tag state found
    cases found
  · intro probe mem
    cases mem
  · intro probe mem
    cases mem
  · intro generation mem
    cases mem
  · intro change mem
    cases mem

theorem reservationsHold (marksGeneration : String → Option UInt32) {actions : List UrltestAction} {sys : UrltestSystem}
    (run : Runs.Run UrltestSystem.act UrltestSystem.Called { manager := { marksGeneration } } actions sys) :
    ReservationsHold sys.manager ∧ ∀ action tag generation, action.carries = some (tag,generation) →
      (∀ state, sys.manager.states tag = some state → state.generation ≠ generation) →
      (sys.act action).manager = sys.manager := by
  refine ⟨reservationsOf (run.keeps stepSound (startSound marksGeneration)),?_⟩
  intro action tag generation carries superseded
  exact supersededUnmoved sys carries fun state fenced => superseded state fenced.1 fenced.2

def probedOutbound : Outbound :=
  { tag := "auto", type := .urltest, url := some "http://probe.test/", outboundGroups := some [{ outbounds := ["wan"] }]
    circuitBreaker := some { failureThreshold := some 1, timeoutMs := some 0 } }

def probedConfig : Config := { outbounds := some [{ tag := "wan", type := .interface, interface := some "eth0" },probedOutbound] }

def silentInet : Inet := ⟨fun _ _ => none,fun _ _ => none⟩

theorem autoValidated : ∃ inet cfg, validateConfig inet cfg = [] ∧ probedOutbound ∈ cfg.outboundList ∧ probedOutbound.type = .urltest :=
  ⟨silentInet,probedConfig,by decide,List.mem_cons_of_mem _ List.mem_cons_self,rfl⟩

def autoStart : UrltestSystem := { manager := { marksGeneration := fun tag => if tag == "wan" then some 0x10000 else none } }

def autoRegister : UrltestAction := .register probedOutbound "" (fun _ => none) 1

def wanResult (success : Bool) : List (String × URLTestResult) := [("wan",{ success, latencyMs := 20 })]

def autoRun (actions : List UrltestAction) : UrltestSystem := actions.foldl UrltestSystem.act autoStart

def autoView (sys : UrltestSystem) : Option (Bool × Bool × UInt32) :=
  (sys.manager.states "auto").map fun state =>
    (state.selectionPending,state.probeInflight,((state.circuitBreakers "wan").map (·.active "wan")).getD 0)

def halfOpenActions : List UrltestAction :=
  [autoRegister,.queueProbe "auto" .initial 0,.commit "auto" 1 (wanResult false) 5,.queueProbe "auto" .scheduled 10]

theorem halfOpenReserved : autoView (autoRun halfOpenActions) = some (false,true,1) ∧
    ReservationsHold (autoRun halfOpenActions).manager := by
  have run : Runs.Run UrltestSystem.act UrltestSystem.Called autoStart halfOpenActions (autoRun halfOpenActions) := by
    refine .step autoValidated (.step trivial (.step ?_ (.step trivial (.stop _))))
    refine ⟨⟨"auto",1,["wan"]⟩,?_,rfl,rfl,?_,?_,?_⟩
    · decide
    · decide
    · decide
    · intro child
      rfl
  exact ⟨by decide,(reservationsHold autoStart.manager.marksGeneration run).1⟩

theorem pendingBroken {sys : UrltestSystem} (active : UInt32) (view : autoView sys = some (true,false,active)) :
    ¬ ReservationsHold sys.manager := by
  intro hold
  obtain ⟨state,found,same⟩ := Option.map_eq_some_iff.mp view
  simp only [Prod.mk.injEq] at same
  have inflight := hold.pending "auto" state found same.1
  rw [same.2.1] at inflight
  cases inflight

theorem releaseBroken {sys : UrltestSystem} (pending : Bool) (active : UInt32) (view : autoView sys = some (pending,false,active))
    (some_active : active ≠ 0) : ¬ ReservationsHold sys.manager := by
  intro hold
  obtain ⟨state,found,same⟩ := Option.map_eq_some_iff.mp view
  simp only [Prod.mk.injEq] at same
  cases breaker : state.circuitBreakers "wan" with
  | none =>
    rw [breaker] at same
    exact some_active same.2.2.symm
  | some held =>
    have none := hold.released "auto" state found same.2.1 "wan" held breaker "wan"
    rw [breaker] at same
    exact some_active (same.2.2.symm.trans none)

/- Calls the signatures allow and the daemon never makes: a deferral before the commit, a commit that
leaves a candidate out, a second commit of a deferred probe. -/
theorem looseCallsBreak :
    ¬ ReservationsHold (autoRun [autoRegister,.queueProbe "auto" .initial 0,.defer "auto" 1,
      .commit "auto" 1 (wanResult false) 5]).manager ∧
    ¬ ReservationsHold (autoRun (halfOpenActions ++ [.commit "auto" 2 [] 15])).manager ∧
    ¬ ReservationsHold (autoRun [autoRegister,.queueProbe "auto" .initial 0,.commit "auto" 1 (wanResult true) 5,
      .defer "auto" 1,.settle ⟨"auto",1,"","wan",.initial⟩ true,.commit "auto" 1 (wanResult true) 9]).manager := by
  refine ⟨pendingBroken 0 ?_,releaseBroken false 1 ?_ ?_,pendingBroken 0 ?_⟩
  · decide
  · decide
  · decide
  · decide

end KeenPbr
