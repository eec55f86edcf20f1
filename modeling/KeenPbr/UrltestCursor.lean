import KeenPbr.UrltestSerials

/-! The selection cursor of a group: what it may hold, and that a rejected transition takes it back. -/
namespace KeenPbr

structure CursorView where
  children : List String
  known : String → Bool
  selected : String
  inflight : Bool
  generation : Nat

def UrltestState.cursor (state : UrltestState) : CursorView :=
  ⟨state.children,fun child => (state.circuitBreakers child).isSome,state.selectedOutbound,state.probeInflight,state.generation⟩

def Choice (children : List String) (selected : String) : Prop := selected = "" ∨ selected ∈ children

structure CursorView.Sound (view : CursorView) : Prop where
  chosen : Choice view.children view.selected
  known : ∀ child, view.known child = true → child ∈ view.children

section Views
variable (state : UrltestState)

theorem settleClaimCursor (admitted : Bool) : (state.settleClaim admitted).cursor = state.cursor := by
  unfold UrltestState.settleClaim
  dsimp only
  split
  · rfl
  · split
    · rfl
    · split <;> rfl

theorem finishCursor (admitted : Bool) : (state.finishExternalHealthProbe admitted).1.cursor = state.cursor := by
  unfold UrltestState.finishExternalHealthProbe
  dsimp only
  split
  · exact settleClaimCursor state admitted
  · exact settleClaimCursor state admitted

theorem claimedFailureCursor : state.recordClaimedExternalHealthFailure.cursor = state.cursor := by
  unfold UrltestState.recordClaimedExternalHealthFailure
  split
  · rfl
  · dsimp only
    split <;> rfl

theorem recordEdgeCursor : (UrltestManager.recordEdge state).cursor = state.cursor := by
  unfold UrltestManager.recordEdge
  dsimp only
  split <;> rfl

theorem requestTrailingCursor (reason : ProbeReason) : (UrltestManager.requestTrailing state reason).cursor = state.cursor := by
  unfold UrltestManager.requestTrailing
  split <;> rfl

theorem claimCursor : (UrltestManager.claimExternalHealth state).cursor = state.cursor := by
  unfold UrltestManager.claimExternalHealth
  split <;> rfl

theorem updateKnown {breakers : String → Option CircuitBreaker} {child : String} {breaker : CircuitBreaker}
    (found : breakers child = some breaker)
    (next : CircuitBreaker) : (fun other => (Function.update breakers child (some next) other).isSome) = fun other =>
    (breakers other).isSome := by
  funext other
  by_cases same : other = child
  · subst same
    rw [Function.update_self,found]
    rfl
  · rw [Function.update_of_ne same]

theorem mapBreakerCursor (f : CircuitBreaker → CircuitBreaker) (child : String) : (state.mapBreaker f child).cursor = state.cursor := by
  unfold UrltestState.mapBreaker
  split
  · rfl
  · rename_i breaker found
    change ({ state.cursor with known := _ } : CursorView) = _
    rw [updateKnown found]
    rfl

theorem endRequestsCursor (tags : List String) : (state.endRequests tags).cursor = state.cursor := by
  induction tags generalizing state with
  | nil => rfl
  | cons child rest ih => exact (ih (state.mapBreaker (·.endRequest child) child)).trans (mapBreakerCursor state _ child)

theorem beginRequestsCursor (tags : List String) : (state.beginRequests tags).cursor = state.cursor := by
  induction tags generalizing state with
  | nil => rfl
  | cons child rest ih => exact (ih (state.mapBreaker (·.beginRequest child) child)).trans (mapBreakerCursor state _ child)

theorem commitResultsCursor (previous : String) (now : Int) (results : List (String × URLTestResult)) :
    (state.commitResults previous now results).cursor = state.cursor := by
  induction results generalizing state with
  | nil => rfl
  | cons entry rest ih =>
    have one : (state.commitResult previous now entry.1 entry.2).cursor = state.cursor := by
      unfold UrltestState.commitResult
      split
      · rfl
      · rename_i breaker found
        change ({ state.cursor with known := _ } : CursorView) = _
        rw [updateKnown found]
        rfl
    exact (ih (state.commitResult previous now entry.1 entry.2)).trans one

theorem collectedCursor (marks : String → Option UInt32) (now : Int) (children : List String) (checked : UrltestState × List String) :
    (children.foldl (UrltestState.checkCandidate marks now) checked).1.cursor = checked.1.cursor := by
  induction children generalizing checked with
  | nil => rfl
  | cons child rest ih =>
    have one : (UrltestState.checkCandidate marks now checked child).1.cursor = checked.1.cursor := by
      unfold UrltestState.checkCandidate
      split
      · rename_i found
        change ({ checked.1.cursor with known := _ } : CursorView) = _
        rw [updateKnown found]
        rfl
      · rfl
    exact (ih (UrltestState.checkCandidate marks now checked child)).trans one

theorem admittedCursor (manager : UrltestManager) (now : Int) :
    (manager.admitProbe state now).1.cursor = { state.cursor with inflight := true, generation := manager.generation } := by
  have collected : (state.collectCandidates manager.marksGeneration now).1.cursor = state.cursor :=
    collectedCursor manager.marksGeneration now state.children (state,[])
  unfold UrltestManager.admitProbe
  dsimp only
  rw [claimCursor,beginRequestsCursor]
  change ({ (state.collectCandidates manager.marksGeneration now).1.cursor with inflight := true, generation := manager.generation }
    : CursorView) = _
  rw [collected]

theorem selectedFromGroup {group : OutboundGroup} {child : String} (selected : state.selectFromGroup group = some child) :
    child ∈ group.outbounds := by
  unfold UrltestState.selectFromGroup at selected
  split at selected
  · exact List.mem_of_find?_eq_some selected
  · split at selected
    · cases selected
    · dsimp only at selected
      split at selected
      · rename_i kept
        cases selected
        simp only [Bool.and_eq_true] at kept
        exact List.contains_iff_mem.mp kept.1.2
      · exact List.mem_of_find?_eq_some selected

theorem selectedChoice : Choice state.children state.selectOutboundFromState := by
  unfold UrltestState.selectOutboundFromState UrltestState.children
  cases state.config.outboundGroups with
  | none => exact .inl rfl
  | some groups =>
    dsimp only
    cases found : (UrltestState.sortedGroups groups).findSome? state.selectFromGroup with
    | none => exact .inl rfl
    | some child =>
      obtain ⟨group,mem,selected⟩ := List.exists_of_findSome?_eq_some found
      have listed : group ∈ groups := (List.mem_insertionSort _).mp mem
      exact .inr (List.mem_flatMap.mpr ⟨group,listed,selectedFromGroup state selected⟩)

end Views

inductive Move (sys : UrltestSystem) (tag : String) : UrltestAction → CursorView → CursorView → Prop where
  | same (action : UrltestAction) (view : CursorView) : Move sys tag action view view
  | synchronized (action : UrltestAction) (view : CursorView) (selected : String) (chosen : selected = "" ∨ view.known selected = true) :
      Move sys tag action view { view with selected }
  | probed (reason : ProbeReason) (now : Int) (view : CursorView) (free : view.inflight = false) :
      Move sys tag (.queueProbe tag reason now) view { view with inflight := true, generation := sys.manager.generation }
  | published (results : List (String × URLTestResult)) (now : Int) (view : CursorView) (selected : String)
      (chosen : Choice view.children selected) (busy : view.inflight = true) (change : UrltestSelectionChange)
      (own : change.urltestTag = tag) (generation : change.probeGeneration = view.generation)
        (previous : change.previousChildTag = view.selected)
      (made : (sys.manager.commitProbeResults tag view.generation results now).2.1 = some change) :
      Move sys tag (.commit tag view.generation results now) view { view with selected }
  | finished (results : List (String × URLTestResult)) (now : Int) (view : CursorView) :
      Move sys tag (.commit tag view.generation results now) view { view with inflight := false }
  | settled (change : UrltestSelectionChange) (admitted : Bool) (view : CursorView) (own : change.urltestTag = tag)
      (current : change.probeGeneration = view.generation) :
      Move sys tag (.settle change admitted) view
        { view with inflight := false, selected := if admitted then view.selected else change.previousChildTag }
  | abandoned (candidateTags : List String) (view : CursorView) :
      Move sys tag (.abandon tag view.generation candidateTags) view { view with inflight := false, generation := sys.manager.generation }
  | completed (resumePending : Bool) (view : CursorView) :
      Move sys tag (.complete tag view.generation resumePending) view { view with inflight := false }

/- A registration of this step. -/
structure CursorView.Fresh (view : CursorView) : Prop where
  sound : view.Sound
  idle : view.inflight = false
  unprobed : view.generation = 0

section Moves
variable {sys : UrltestSystem} {manager : UrltestManager} {action : UrltestAction} {own tag : String}

structure Moved (sys : UrltestSystem) (action : UrltestAction) (manager : UrltestManager) : Prop where
  groups : ∀ tag state, manager.states tag = some state →
    (∃ old, sys.manager.states tag = some old ∧ Move sys tag action old.cursor state.cursor) ∨
    (sys.manager.states tag = none ∧ state.cursor.Fresh)
  kept : action.retires = false → ∀ tag old, sys.manager.states tag = some old → ∃ state, manager.states tag = some state

theorem Moved.refl : Moved sys action sys.manager :=
  ⟨fun _ state found => .inl ⟨state,found,.same action state.cursor⟩,fun _ _ old found => ⟨old,found⟩⟩

theorem putKept (manager : UrltestManager) (own : String) (next : UrltestState) {tag : String} {old : UrltestState}
    (found : manager.states tag = some old) : ∃ state, (manager.put own next).states tag = some state := by
  by_cases same : tag = own
  · exact ⟨next,same ▸ UrltestManager.putSelf manager own next⟩
  · exact ⟨old,(UrltestManager.putOther manager same next).trans found⟩

theorem Moved.put {old next : UrltestState} (found : sys.manager.states own = some old)
    (move : Move sys own action old.cursor next.cursor) :
    Moved sys action (sys.manager.put own next) := by
  refine ⟨putGroups ?_ fun other state _ known => ?_,fun _ tag state known => putKept sys.manager own next known⟩
  · exact .inl ⟨old,found,move⟩
  · exact .inl ⟨state,known,.same action state.cursor⟩

theorem Moved.counted {old next : UrltestState} (found : sys.manager.states own = some old)
    (move : Move sys own action old.cursor next.cursor) (states : manager.states = (sys.manager.put own next).states) :
    Moved sys action manager := by
  have put := Moved.put found move
  refine ⟨?_,?_⟩
  · rw [states]
    exact put.groups
  · rw [states]
    exact put.kept

theorem Moved.still {old next : UrltestState} (found : sys.manager.states own = some old) (same : next.cursor = old.cursor) :
    Moved sys action (sys.manager.put own next) := by
  refine Moved.put found ?_
  rw [same]
  exact .same action old.cursor

theorem registerMoves (ut : Outbound) (initial : String) (direct : String → Option String) (taskId : Int) :
    Moved sys (.register ut initial direct taskId) (sys.manager.registerUrltest ut initial direct taskId) := by
  unfold UrltestManager.registerUrltest
  cases found : sys.manager.states ut.tag with
  | some state => exact Moved.refl
  | none =>
    refine ⟨putGroups ?_ fun other state _ known => ?_,fun _ tag state known => putKept sys.manager ut.tag _ known⟩
    · refine .inr ⟨found,⟨?_,?_⟩,rfl,rfl⟩
      · change Choice ((ut.outboundGroups.getD []).flatMap (·.outbounds)) (if _ then _ else _)
        split
        · rename_i listed
          exact .inr listed
        · exact .inl rfl
      · intro child known
        change (if child ∈ (ut.outboundGroups.getD []).flatMap (·.outbounds) then some _ else none).isSome = true at known
        split at known
        · rename_i listed
          exact listed
        · cases known
    · exact .inl ⟨state,known,.same _ state.cursor⟩

theorem queueMoves (reason : ProbeReason) (now : Int) :
    Moved sys (.queueProbe own reason now) (sys.manager.queueProbe own reason now).1 := by
  cases found : sys.manager.states own with
  | none =>
    rw [UrltestManager.queueMissing found]
    exact Moved.refl
  | some state =>
    cases busy : state.probeInflight with
    | true =>
      rw [UrltestManager.queueBusy found busy]
      exact Moved.still found (requestTrailingCursor state reason)
    | false =>
      rw [UrltestManager.queueFree found busy]
      refine Moved.counted found ?_ rfl
      rw [admittedCursor]
      exact .probed reason now state.cursor busy

theorem edgeMoves : Moved sys (.edge own) (sys.manager.triggerExternalHealthTest own) := by
  unfold UrltestManager.triggerExternalHealthTest
  cases found : sys.manager.states own with
  | none => exact Moved.refl
  | some state => exact Moved.still found (recordEdgeCursor state)

theorem commitMoves (generation : Nat) (results : List (String × URLTestResult)) (now : Int) :
    Moved sys (.commit own generation results now) (sys.manager.commitProbeResults own generation results now).1 := by
  rcases UrltestManager.commitCases sys.manager own generation results now with ⟨stale,_⟩ | ⟨state,⟨found,rfl⟩,busy,published,shape,outcome⟩
  · rw [stale]
    exact Moved.refl
  · have candidate := commitResultsCursor state state.selectedOutbound now results
    have view : published.cursor = { state.cursor with selected := published.selectedOutbound } := by
      rw [shape,← candidate]
      rfl
    have chosen : Choice state.children published.selectedOutbound := by
      have choice := selectedChoice (state.commitResults state.selectedOutbound now results)
      have children : (state.commitResults state.selectedOutbound now results).children = state.children :=
        congrArg CursorView.children candidate
      rw [children] at choice
      rw [shape]
      exact choice
    rcases outcome with ⟨change,tagged,probed,previous,result⟩ | ⟨unchanged,resolution,result⟩
    · rw [result]
      refine Moved.put found ?_
      rw [view]
      refine .published results now state.cursor _ chosen busy change tagged probed previous ?_
      change (sys.manager.commitProbeResults own state.generation results now).2.1 = some change
      rw [result]
    · rw [result]
      refine Moved.put found ?_
      rw [finishCursor]
      have finished : ({ published with probeInflight := false } : UrltestState).cursor = { state.cursor with inflight := false } := by
        change ({ published.cursor with inflight := false } : CursorView) = _
        rw [view,unchanged]
        rfl
      rw [finished]
      exact .finished results now state.cursor

theorem settleMoves (change : UrltestSelectionChange) (admitted : Bool) :
    Moved sys (.settle change admitted) (sys.manager.settleChange change admitted).1 := by
  rcases UrltestManager.settleCases sys.manager change admitted with stale | ⟨state,⟨found,current⟩,busy,settled,shape,_,resolution,result⟩
  · rw [stale]
    exact Moved.refl
  · rw [result]
    refine Moved.put found ?_
    rw [finishCursor]
    have view : ({ settled with probeInflight := false } : UrltestState).cursor =
        { state.cursor with inflight := false, selected := if admitted then state.selectedOutbound else change.previousChildTag } := by
      rw [shape,UrltestState.settleCursor]
      cases admitted <;> rfl
    rw [view]
    exact .settled change admitted state.cursor rfl current.symm

theorem abandonMoves (generation : Nat) (candidateTags : List String) :
    Moved sys (.abandon own generation candidateTags) (sys.manager.abandonProbe own generation candidateTags) := by
  rcases UrltestManager.abandonCases sys.manager own generation candidateTags with stale | ⟨state,⟨found,rfl⟩,busy,result⟩
  · rw [stale]
    exact Moved.refl
  · rw [result]
    refine Moved.counted found ?_ rfl
    have dropped := claimedFailureCursor { state with probeInflight := false, selectionPending := false }
    rw [endRequestsCursor]
    change Move sys own _ state.cursor
      ({ (UrltestState.recordClaimedExternalHealthFailure _).cursor with generation := sys.manager.generation } : CursorView)
    rw [dropped]
    exact .abandoned candidateTags state.cursor

theorem deferMoves (generation : Nat) : Moved sys (.defer own generation) (sys.manager.deferSelectionCompletion own generation).1 := by
  rcases UrltestManager.deferCases sys.manager own generation with stale | ⟨state,⟨found,_⟩,busy,result⟩
  · rw [stale]
    exact Moved.refl
  · rw [result]
    exact Moved.still found rfl

theorem completeMoves (generation : Nat) (resumePending : Bool) :
    Moved sys (.complete own generation resumePending) (sys.manager.completeSelection own generation resumePending).1 := by
  rcases UrltestManager.completeCases sys.manager own generation resumePending with
    stale | ⟨state,⟨found,rfl⟩,_,finished,shape,next,resolution,kind,result⟩
  · rw [stale]
    exact Moved.refl
  · rw [result]
    refine Moved.put found ?_
    have view : finished.cursor = { state.cursor with inflight := false } := by
      rw [shape,finishCursor]
      rfl
    have same : next.cursor = finished.cursor := by
      rcases kind with rfl | rfl <;> rfl
    rw [same,view]
    exact .completed resumePending state.cursor

theorem synchronizeMoves (selected : String) (action : UrltestAction) :
    Moved sys action (sys.manager.synchronizeSelected own selected).1 := by
  unfold UrltestManager.synchronizeSelected
  split
  · exact Moved.refl
  · rename_i state found
    split
    · exact Moved.refl
    · rename_i known
      refine Moved.put found (.synchronized action state.cursor selected ?_)
      simp only [Bool.and_eq_true,Bool.not_eq_true',not_and,Option.isNone_iff_eq_none] at known
      cases empty : selected.isEmpty with
      | true => exact .inl (String.isEmpty_iff.mp empty)
      | false => exact .inr (Option.isSome_iff_ne_none.mpr (known empty))

theorem retryMoves (action : UrltestAction) :
    (∀ expected, Moved sys action (sys.manager.recordExternalHealthStartFailure own expected)) ∧
    Moved sys action (sys.manager.reserveExternalHealthRetry own) ∧
    (∀ registration epoch task, Moved sys action (sys.manager.publishExternalHealthRetry own registration epoch task)) ∧
    ∀ registration epoch, Moved sys action (sys.manager.runExternalHealthRetry own registration epoch) := by
  refine ⟨fun expected => ?_,?_,fun registration epoch task => ?_,fun registration epoch => ?_⟩
  · unfold UrltestManager.recordExternalHealthStartFailure
    split
    · exact Moved.refl
    · rename_i state found
      split
      · exact Moved.refl
      · split
        · exact Moved.still found rfl
        · exact Moved.refl
  · unfold UrltestManager.reserveExternalHealthRetry
    split
    · exact Moved.refl
    · rename_i state found
      split
      · exact Moved.refl
      · exact Moved.still found rfl
  · unfold UrltestManager.publishExternalHealthRetry
    split
    · exact Moved.refl
    · rename_i state found
      split
      · exact Moved.refl
      · split
        · exact Moved.still found rfl
        · exact Moved.still found rfl
  · unfold UrltestManager.runExternalHealthRetry
    split
    · exact Moved.refl
    · rename_i state found
      split
      · exact Moved.refl
      · split
        · exact Moved.still found rfl
        · exact Moved.refl

theorem actMoves (sys : UrltestSystem) (action : UrltestAction) : Moved sys action (sys.act action).manager := by
  cases action with
  | register ut initial direct taskId => exact registerMoves ut initial direct taskId
  | queueProbe tag reason now => exact queueMoves reason now
  | edge tag => exact edgeMoves
  | commit tag generation results now => exact commitMoves generation results now
  | settle change admitted => exact settleMoves change admitted
  | abandon tag generation candidateTags => exact abandonMoves generation candidateTags
  | defer tag generation => exact deferMoves generation
  | complete tag generation resumePending => exact completeMoves generation resumePending
  | synchronize tag selected => exact synchronizeMoves selected _
  | synchronizeIf tag generation selected =>
    change Moved sys _ (sys.manager.synchronizeSelectedIfGeneration tag generation selected).1
    unfold UrltestManager.synchronizeSelectedIfGeneration
    split
    · exact Moved.refl
    · exact synchronizeMoves selected _
  | clear | replaceMarks => exact ⟨(fun _ _ found => by cases found),(fun kept => by cases kept)⟩
  | startFailure tag expected => exact (retryMoves _).1 expected
  | reserveRetry tag => exact (retryMoves _).2.1
  | publishRetry tag registration epoch task => exact (retryMoves _).2.2.1 registration epoch task
  | runRetry tag registration epoch => exact (retryMoves _).2.2.2 registration epoch

theorem Move.children {view next : CursorView} (move : Move sys tag action view next) : next.children = view.children := by
  cases move <;> rfl

theorem Move.generation {view next : CursorView} (move : Move sys tag action view next) :
    next.generation = view.generation ∨ next.generation = sys.manager.generation := by
  cases move with
  | probed | abandoned => exact .inr rfl
  | _ => exact .inl rfl

end Moves

/- As the daemon calls: a worker that handed its results over does not abandon the probe, and the
terminal of a deferred transition runs on the control loop, after the callback. -/
def UrltestSystem.Handed (sys : UrltestSystem) (action : UrltestAction) : Prop :=
  sys.Called action ∧
    match action with
    | .abandon _ generation _ => generation ∉ sys.committed
    | .complete tag generation _ => ∀ change ∈ sys.waiting, ¬ (change.urltestTag = tag ∧ change.probeGeneration = generation)
    | _ => True

structure CursorsSound (sys : UrltestSystem) : Prop where
  system : SystemSound sys
  groups : ∀ tag state, sys.manager.states tag = some state → state.cursor.Sound
  issued : ∀ probe ∈ sys.issued, 0 < probe.generation
  distinct : (sys.waiting.map (·.probeGeneration)).Nodup
  changes : ∀ change ∈ sys.waiting, 0 < change.probeGeneration ∧ ∀ state, sys.manager.states change.urltestTag = some state →
    state.generation = change.probeGeneration → Choice state.children change.previousChildTag

section Steps
variable {sys : UrltestSystem} {action : UrltestAction}

theorem groupsStep (sound : CursorsSound sys) (called : sys.Called action) :
    ∀ tag state, (sys.act action).manager.states tag = some state → state.cursor.Sound := by
  intro tag state found
  rcases (actMoves sys action).groups tag state found with ⟨old,known,move⟩ | ⟨_,fresh⟩
  · have before := sound.groups tag old known
    generalize after : state.cursor = next at move
    generalize view : old.cursor = prior at move before
    cases move with
    | same => exact before
    | synchronized _ _ selected chosen =>
      refine ⟨?_,before.known⟩
      rcases chosen with empty | listed
      · exact .inl empty
      · exact .inr (before.known _ listed)
    | probed => exact ⟨before.chosen,before.known⟩
    | published results now _ selected chosen => exact ⟨chosen,before.known⟩
    | finished => exact ⟨before.chosen,before.known⟩
    | settled change admitted _ own current =>
      refine ⟨?_,before.known⟩
      cases admitted with
      | true => exact before.chosen
      | false =>
        subst view own
        exact (sound.changes change called).2 old known current.symm
    | abandoned | completed => exact ⟨before.chosen,before.known⟩
  · exact fresh.sound

theorem waitingStep {change : UrltestSelectionChange} (mem : change ∈ (sys.act action).waiting) :
    change ∈ sys.waiting ∨ ∃ tag generation results now, action = .commit tag generation results now ∧
      (sys.manager.commitProbeResults tag generation results now).2.1 = some change := by
  cases action with
  | commit tag generation results now =>
    rcases List.mem_append.mp mem with new | old
    · exact .inr ⟨tag,generation,results,now,rfl,Option.mem_toList.mp new⟩
    · exact .inl old
  | settle settled admitted => exact .inl (List.mem_of_mem_erase mem)
  | _ => exact .inl mem

theorem committedStep {generation : Nat} (mem : generation ∈ sys.committed) : generation ∈ (sys.act action).committed := by
  cases action with
  | commit tag own results now => exact List.mem_cons_of_mem own mem
  | _ => exact mem

theorem changeOf {tag : String} {generation : Nat} {results : List (String × URLTestResult)} {now : Int} {change : UrltestSelectionChange}
    (made : (sys.manager.commitProbeResults tag generation results now).2.1 = some change) :
    ∃ state, sys.manager.states tag = some state ∧ state.generation = generation ∧ state.probeInflight = true ∧
      change.urltestTag = tag ∧ change.probeGeneration = generation ∧ change.previousChildTag = state.selectedOutbound := by
  rcases UrltestManager.commitCases sys.manager tag generation results now with ⟨stale,_⟩ | ⟨state,⟨found,current⟩,busy,published,_,outcome⟩
  · rw [stale] at made
    cases made
  · rcases outcome with ⟨own,tagged,probed,previous,result⟩ | ⟨_,resolution,result⟩
    · rw [result] at made
      cases made
      exact ⟨state,found,current,busy,tagged,probed,previous⟩
    · rw [result] at made
      cases made

theorem generationApart (sound : SystemSound sys) {change : UrltestSelectionChange} (positive : 0 < change.probeGeneration)
    (old : change.probeGeneration ∈ sys.committed) {tag : String} {state : UrltestState}
    (found : (sys.act action).manager.states tag = some state)
    (current : state.generation = change.probeGeneration) :
    ∃ before, sys.manager.states tag = some before ∧ before.generation = change.probeGeneration ∧
      Move sys tag action before.cursor state.cursor := by
  rcases (actMoves sys action).groups tag state found with ⟨before,known,move⟩ | ⟨_,fresh⟩
  · rcases move.generation with same | new
    · exact ⟨before,known,same.symm.trans current,move⟩
    · have below := sound.committed _ old
      change state.generation = sys.manager.generation at new
      omega
  · have zero : state.generation = 0 := fresh.unprobed
    omega

theorem changesStep (sound : CursorsSound sys) : ∀ change ∈ (sys.act action).waiting,
    0 < change.probeGeneration ∧ ∀ state, (sys.act action).manager.states change.urltestTag = some state →
      state.generation = change.probeGeneration → Choice state.children change.previousChildTag := by
  intro change mem
  rcases waitingStep mem with old | ⟨tag,generation,results,now,rfl,made⟩
  · obtain ⟨positive,chosen⟩ := sound.changes change old
    refine ⟨positive,fun state found current => ?_⟩
    obtain ⟨before,known,same,move⟩ := generationApart sound.system positive (sound.system.waiting change old) found current
    have children : state.children = before.children := move.children
    rw [children]
    exact chosen before known same
  · obtain ⟨before,known,current,busy,rfl,rfl,previous⟩ := changeOf made
    obtain ⟨probe,issued,_,same,_⟩ := (sound.system.groups _ before known).probed busy
    have positive := sound.issued probe issued
    have own : probe.generation = before.generation := same
    refine ⟨by omega,fun state found _ => ?_⟩
    rcases (actMoves sys _).groups _ state found with ⟨old,found',move⟩ | ⟨none,_⟩
    · rw [known] at found'
      cases found'
      have children : state.children = before.children := move.children
      rw [children,previous]
      exact (sound.groups _ before known).chosen
    · rw [known] at none
      cases none

theorem distinctStep (sound : CursorsSound sys) (called : sys.Called action) :
    ((sys.act action).waiting.map (·.probeGeneration)).Nodup := by
  cases action with
  | commit tag generation results now =>
    change (((sys.manager.commitProbeResults tag generation results now).2.1.toList ++ sys.waiting).map (·.probeGeneration)).Nodup
    cases made : (sys.manager.commitProbeResults tag generation results now).2.1 with
    | none => exact sound.distinct
    | some change =>
      obtain ⟨_,_,_,_,_,rfl,_⟩ := changeOf made
      obtain ⟨probe,_,_,_,fresh,_⟩ := called
      refine List.nodup_cons.mpr ⟨fun again => ?_,sound.distinct⟩
      obtain ⟨other,mem,same⟩ := List.mem_map.mp again
      have listed := sound.system.waiting other mem
      have equal : other.probeGeneration = change.probeGeneration := same
      rw [equal] at listed
      exact fresh listed
  | settle change admitted => exact sound.distinct.sublist ((List.erase_sublist).map _)
  | _ => exact sound.distinct

theorem issuedStep (sound : CursorsSound sys) : ∀ probe ∈ (sys.act action).issued, 0 < probe.generation := by
  intro probe mem
  cases action with
  | queueProbe tag reason now =>
    rcases List.mem_append.mp mem with new | old
    · have queued : (sys.manager.queueProbe tag reason now).2 = some probe := Option.mem_toList.mp new
      cases found : sys.manager.states tag with
      | none =>
        rw [UrltestManager.queueMissing found] at queued
        cases queued
      | some state =>
        cases busy : state.probeInflight with
        | true =>
          rw [UrltestManager.queueBusy found busy] at queued
          cases queued
        | false =>
          rw [UrltestManager.queueFree found busy] at queued
          cases queued
          exact sound.system.positive
    · exact sound.issued probe old
  | _ => exact sound.issued probe mem

theorem cursorsStep (sys : UrltestSystem) (action : UrltestAction) (handed : sys.Handed action) (sound : CursorsSound sys) :
    CursorsSound (sys.act action) where
  system := stepSound sys action handed.1 sound.system
  groups := groupsStep sound handed.1
  issued := issuedStep sound
  distinct := distinctStep sound handed.1
  changes := changesStep sound

theorem cursorsStart (marksGeneration : String → Option UInt32) : CursorsSound { manager := { marksGeneration } } where
  system := startSound marksGeneration
  groups := fun _ _ found => by cases found
  issued := fun _ mem => by cases mem
  distinct := List.nodup_nil
  changes := fun _ mem => by cases mem

end Steps

section Attempt
variable {sys : UrltestSystem} {action : UrltestAction} {change : UrltestSelectionChange}

structure Awaiting (change : UrltestSelectionChange) (sys : UrltestSystem) : Prop where
  sound : CursorsSound sys
  positive : 0 < change.probeGeneration
  committed : change.probeGeneration ∈ sys.committed
  live : change ∈ sys.waiting → ∃ state, sys.manager.states change.urltestTag = some state ∧ state.generation = change.probeGeneration ∧
    state.probeInflight = true

structure Outlived (change : UrltestSelectionChange) (sys : UrltestSystem) : Prop where
  sound : CursorsSound sys
  positive : 0 < change.probeGeneration
  committed : change.probeGeneration ∈ sys.committed
  gone : ∀ state, sys.manager.states change.urltestTag = some state → state.generation ≠ change.probeGeneration

theorem waitedBefore (called : sys.Called action) (committed : change.probeGeneration ∈ sys.committed)
    (mem : change ∈ (sys.act action).waiting) :
    change ∈ sys.waiting := by
  rcases waitingStep mem with old | ⟨tag,generation,results,now,rfl,made⟩
  · exact old
  · obtain ⟨_,_,_,_,_,rfl,_⟩ := changeOf made
    obtain ⟨probe,_,_,_,fresh,_⟩ := called
    exact absurd committed fresh

theorem settledGone (sound : CursorsSound sys) : change ∉ sys.waiting.erase change := by
  have distinct : sys.waiting.Nodup := sound.distinct.of_map _
  exact distinct.not_mem_erase

theorem sameGeneration (sound : CursorsSound sys) {other : UrltestSelectionChange} (mem : change ∈ sys.waiting) (also : other ∈ sys.waiting)
    (same : other.probeGeneration = change.probeGeneration) : other = change :=
  List.inj_on_of_nodup_map sound.distinct also mem same

theorem awaitingStep (handed : sys.Handed action) (kept : action.retires = false) (awaiting : Awaiting change sys) :
    Awaiting change (sys.act action) := by
  refine ⟨cursorsStep sys action handed awaiting.sound,awaiting.positive,committedStep awaiting.committed,fun mem => ?_⟩
  have waited := waitedBefore handed.1 awaiting.committed mem
  obtain ⟨old,known,current,busy⟩ := awaiting.live waited
  obtain ⟨state,found⟩ := (actMoves sys action).kept kept _ old known
  refine ⟨state,found,?_⟩
  rcases (actMoves sys action).groups _ state found with ⟨before,known',move⟩ | ⟨none,_⟩
  · rw [known] at known'
    cases known'
    change old.cursor.generation = _ at current
    change old.cursor.inflight = true at busy
    change state.cursor.generation = _ ∧ state.cursor.inflight = true
    generalize state.cursor = next at move
    generalize old.cursor = prior at move current busy
    -- a step that ends the flight would end it twice, or run inside the callback
    cases move with
    | same | synchronized => exact ⟨current,busy⟩
    | probed _ _ _ free =>
      rw [busy] at free
      cases free
    | published => exact ⟨current,busy⟩
    | finished =>
      obtain ⟨probe,_,_,_,fresh,_⟩ := handed.1
      rw [current] at fresh
      exact absurd awaiting.committed fresh
    | settled other admitted _ own same =>
      have again : other = change := sameGeneration awaiting.sound waited handed.1 (same.trans current)
      subst again
      exact absurd mem (settledGone awaiting.sound)
    | abandoned =>
      have fresh : prior.generation ∉ sys.committed := handed.2
      rw [current] at fresh
      exact absurd awaiting.committed fresh
    | completed => exact absurd ⟨rfl,current.symm⟩ (handed.2 change waited)
  · rw [known] at none
    cases none

theorem outlivedStep (handed : sys.Handed action) (outlived : Outlived change sys) : Outlived change (sys.act action) := by
  refine ⟨cursorsStep sys action handed outlived.sound,outlived.positive,committedStep outlived.committed,fun state found current => ?_⟩
  obtain ⟨before,known,same,_⟩ := generationApart outlived.sound.system outlived.positive outlived.committed found current
  exact outlived.gone before known same

theorem retiredStep (handed : sys.Handed action) (retires : action.retires = true) (awaiting : Awaiting change sys) :
    Outlived change (sys.act action) := by
  refine ⟨cursorsStep sys action handed awaiting.sound,awaiting.positive,committedStep awaiting.committed,fun state found => ?_⟩
  cases action with
  | clear | replaceMarks => cases found
  | _ => cases retires

theorem attemptRun {during : List UrltestAction} {after : UrltestSystem}
    (run : Runs.Run UrltestSystem.act UrltestSystem.Handed sys during after) (awaiting : Awaiting change sys) :
    if during.any (·.retires) then Outlived change after else Awaiting change after := by
  induction run with
  | stop => exact awaiting
  | @step s t action rest handed later ih =>
    rw [List.any_cons]
    cases retires : action.retires with
    | false => exact ih (awaitingStep handed retires awaiting)
    | true => exact later.keeps (fun s a may inv => outlivedStep may inv) (retiredStep handed retires awaiting)

theorem commitAwaits (sound : CursorsSound sys) {tag : String} {generation : Nat} {results : List (String × URLTestResult)} {now : Int}
    (handed : sys.Handed (.commit tag generation results now))
    (made : (sys.manager.commitProbeResults tag generation results now).2.1 = some change) :
    Awaiting change (sys.act (.commit tag generation results now)) := by
  have after := cursorsStep sys _ handed sound
  have mem : change ∈ (sys.act (.commit tag generation results now)).waiting :=
    List.mem_append_left _ (Option.mem_toList.mpr made)
  rcases UrltestManager.commitCases sys.manager tag generation results now
    with ⟨stale,_⟩ | ⟨state,⟨found,current⟩,busy,published,shape,outcome⟩
  · rw [stale] at made
    cases made
  · rcases outcome with ⟨own,tagged,probed,previous,result⟩ | ⟨_,resolution,result⟩
    · rw [result] at made
      cases made
      refine ⟨after,(after.changes change mem).1,?_,fun _ => ⟨published,?_,?_,?_⟩⟩
      · rw [probed]
        exact List.mem_cons_self
      · change (sys.manager.commitProbeResults tag generation results now).1.states change.urltestTag = _
        rw [result,tagged]
        exact UrltestManager.putSelf _ _ _
      · have view := congrArg CursorView.generation (commitResultsCursor state state.selectedOutbound now results)
        rw [shape,probed,← current]
        exact view
      · have view := congrArg CursorView.inflight (commitResultsCursor state state.selectedOutbound now results)
        rw [shape,← busy]
        exact view
    · rw [result] at made
      cases made

theorem rejectedCursor (awaiting : Awaiting change sys) (mem : change ∈ sys.waiting) :
    ∃ state, (sys.act (.settle change false)).manager.states change.urltestTag = some state ∧
      state.selectedOutbound = change.previousChildTag := by
  obtain ⟨old,found,current,busy⟩ := awaiting.live mem
  change ∃ state, (sys.manager.settleChange change false).1.states change.urltestTag = some state ∧ _
  unfold UrltestManager.settleChange
  rw [found]
  have fenced : (old.generation != change.probeGeneration || !old.probeInflight) = false := by simp [current,busy]
  have free : (old.settleCursor change.previousChildTag false).selectionPending = false := rfl
  dsimp only
  rw [if_neg (by rw [fenced]; exact Bool.false_ne_true),if_neg (by rw [free]; exact Bool.false_ne_true)]
  refine ⟨_,UrltestManager.putSelf _ _ _,?_⟩
  exact congrArg CursorView.selected (finishCursor _ false)

theorem rejectedUnmoved (outlived : Outlived change sys) : (sys.act (.settle change false)).manager = sys.manager := by
  change (sys.manager.settleChange change false).1 = sys.manager
  rcases UrltestManager.settleCases sys.manager change false with stale | ⟨state,⟨found,current⟩,_⟩
  · rw [stale]
  · exact absurd current (outlived.gone state found)

end Attempt

/- In every reachable state each cursor is empty or a child; and a callback that rejects or throws
leaves the cursor of the group as it was before the commit, whatever ran meanwhile, unless the
registration itself was dropped, and then nothing moves. -/
theorem cursorKept (marksGeneration : String → Option UInt32) (actions : List UrltestAction) (sys : UrltestSystem)
    (run : Runs.Run UrltestSystem.act UrltestSystem.Handed { manager := { marksGeneration } } actions sys) :
    (∀ tag state, sys.manager.states tag = some state → state.selectedOutbound = "" ∨ state.selectedOutbound ∈ state.children) ∧
    ∀ tag generation results now change before, sys.Handed (.commit tag generation results now) → sys.manager.states tag = some before →
      (sys.manager.commitProbeResults tag generation results now).2.1 = some change →
      ∀ during after, Runs.Run UrltestSystem.act UrltestSystem.Handed (sys.act (.commit tag generation results now)) during after →
        change ∈ after.waiting →
        if during.any (·.retires) then (after.act (.settle change false)).manager = after.manager
        else ∃ state, (after.act (.settle change false)).manager.states tag = some state ∧
          state.selectedOutbound = before.selectedOutbound := by
  have sound := run.keeps cursorsStep (cursorsStart marksGeneration)
  refine ⟨fun tag state found => (sound.groups tag state found).chosen,?_⟩
  intro tag generation results now change before handed found made during after callback mem
  have attempt := attemptRun callback (commitAwaits sound handed made)
  obtain ⟨state,known,_,_,rfl,_,previous⟩ := changeOf made
  rw [found] at known
  cases known
  split
  · rename_i retired
    rw [if_pos retired] at attempt
    exact rejectedUnmoved attempt
  · rename_i kept
    rw [if_neg kept] at attempt
    rw [← previous]
    exact rejectedCursor attempt mem

def firstCommit : UrltestAction := .commit "auto" 1 (wanResult true) 5

def firstChange : UrltestSelectionChange := ⟨"auto",1,"","wan",.initial⟩

def probing : UrltestSystem := autoRun [autoRegister,.queueProbe "auto" .initial 0]

theorem firstRejected : ∃ state, ((probing.act firstCommit).act (.settle firstChange false)).manager.states "auto" = some state ∧
    state.selectedOutbound = "" := by
  have start : Runs.Run UrltestSystem.act UrltestSystem.Handed { manager := { marksGeneration := autoStart.manager.marksGeneration } }
      [autoRegister,.queueProbe "auto" .initial 0] probing := .step ⟨autoValidated,trivial⟩ (.step ⟨trivial,trivial⟩ (.stop _))
  have handed : probing.Handed firstCommit := by
    refine ⟨⟨⟨"auto",1,["wan"]⟩,?_,rfl,rfl,?_,?_,?_⟩,trivial⟩
    · decide
    · decide
    · decide
    · intro child
      rfl
  have made : (probing.manager.commitProbeResults "auto" 1 (wanResult true) 5).2.1 = some firstChange := by decide
  have waits : firstChange ∈ (probing.act firstCommit).waiting := by decide
  obtain ⟨before,found,_⟩ := changeOf made
  have unselected : (probing.manager.states "auto").map (·.selectedOutbound) = some "" := by decide
  rw [found] at unselected
  have kept := (cursorKept autoStart.manager.marksGeneration _ probing start).2 "auto" 1
    (wanResult true) 5 firstChange before handed found made [] _
    (.stop _) waits
  obtain ⟨state,settled,same⟩ := kept
  exact ⟨state,settled,same.trans (Option.some.inj unselected)⟩

end KeenPbr
