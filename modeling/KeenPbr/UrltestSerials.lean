import KeenPbr.UrltestReservations

/-! External-health edges over whole runs. The request serial is advanced by an edge and by a manual
or scheduled trigger behind a pending selection; the completed serial follows the probe in flight. -/
namespace KeenPbr

def UrltestAction.retires : UrltestAction → Bool
  | .clear => true
  | .replaceMarks _ => true
  | _ => false

def requestOf (sys : UrltestSystem) (tag : String) : UInt64 :=
  ((sys.manager.states tag).map (·.externalHealthRequestSerial)).getD 0

def completedOf (sys : UrltestSystem) (tag : String) : UInt64 :=
  ((sys.manager.states tag).map (·.externalHealthCompletedSerial)).getD 0

def advances (tag : String) : UrltestSystem → List UrltestAction → Nat
  | _, [] => 0
  | sys, action :: rest =>
    (if requestOf (sys.act action) tag = requestOf sys tag then 0 else 1) + advances tag (sys.act action) rest

structure SerialView where
  request : UInt64
  completed : UInt64
  probe : UInt64
  generation : Nat

def UrltestState.serials (state : UrltestState) : SerialView :=
  ⟨state.externalHealthRequestSerial,state.externalHealthCompletedSerial,state.probeExternalHealthSerial,state.generation⟩

structure SerialsSound (sys : UrltestSystem) (tag : String) (view : SerialView) : Prop where
  order : view.completed.toNat ≤ view.request.toNat
  probe : view.probe = 0 ∨ view.completed.toNat < view.probe.toNat ∧ view.probe.toNat ≤ view.request.toNat ∧
    .claimed tag view.generation view.probe ∈ sys.log
  edges : ∀ serial next, .edge tag serial next ∈ sys.log → 1 ≤ serial.toNat ∧ serial.toNat ≤ view.request.toNat ∧
    (serial.toNat ≤ view.completed.toNat → ∃ generation, next ≤ generation ∧ .completed tag generation ∈ sys.log) ∧
    (serial.toNat ≤ view.probe.toNat → next ≤ view.generation)

structure HistorySound (count : Nat) (tag : String) (sys : UrltestSystem) : Prop where
  groups : ∀ state, sys.manager.states tag = some state → SerialsSound sys tag state.serials
  counted : (requestOf sys tag).toNat ≤ count
  unregistered : sys.manager.states tag = none → ∀ serial next, .edge tag serial next ∉ sys.log
  older : ∀ serial next, .edge tag serial next ∈ sys.log → next ≤ sys.manager.generation

/- Once an edge is recorded, the group stays pending until a probe admitted after it has completed. -/
def EdgesKept (sys : UrltestSystem) (tag : String) : Prop :=
  ∀ serial next, .edge tag serial next ∈ sys.log → ∀ state, sys.manager.states tag = some state →
    (∃ generation, next ≤ generation ∧ .completed tag generation ∈ sys.log) ∨
      state.externalHealthRequestSerial ≠ state.externalHealthCompletedSerial

structure HistoryStep (count : Nat) (tag : String) (sys after : UrltestSystem) : Prop where
  sound : HistorySound count tag after
  completed : completedOf after tag = completedOf sys tag ∨
    ∃ generation, .claimed tag generation (completedOf after tag) ∈ sys.log

theorem edgesOf {count : Nat} {tag : String} {sys : UrltestSystem} (sound : HistorySound count tag sys) : EdgesKept sys tag := by
  intro serial next recorded state found
  obtain ⟨_,below,done,_⟩ := (sound.groups state found).edges serial next recorded
  by_cases same : state.externalHealthRequestSerial = state.externalHealthCompletedSerial
  · left
    apply done
    change serial.toNat ≤ state.externalHealthCompletedSerial.toNat
    rw [← same]
    exact below
  · exact Or.inr same

section Views
variable (state : UrltestState)

theorem finishSerials (admitted : Bool) : (state.finishExternalHealthProbe admitted).1.serials =
    { state.serials with
      completed := if state.probeExternalHealthSerial ≠ 0 ∧ admitted = true then state.probeExternalHealthSerial
        else state.externalHealthCompletedSerial
      probe := 0 } := by
  have settled : (state.settleClaim admitted).serials = { state.serials with
      completed := if state.probeExternalHealthSerial ≠ 0 ∧ admitted = true then state.probeExternalHealthSerial
        else state.externalHealthCompletedSerial
      probe := 0 } := by
    unfold UrltestState.settleClaim
    dsimp only
    split
    · rename_i unclaimed
      simp [UrltestState.serials,unclaimed]
    · rename_i claimed
      split
      · rename_i accepted
        simp [UrltestState.serials,claimed,accepted]
      · rename_i rejected
        split <;> simp [UrltestState.serials,rejected]
  rw [← settled]
  unfold UrltestState.finishExternalHealthProbe
  dsimp only
  split <;> rfl

theorem claimedFailureSerials : state.recordClaimedExternalHealthFailure.serials = { state.serials with probe := 0 } := by
  unfold UrltestState.recordClaimedExternalHealthFailure
  split
  · rename_i unclaimed
    simp [UrltestState.serials,unclaimed]
  · dsimp only
    split <;> rfl

theorem endRequestsSerials (tags : List String) : (state.endRequests tags).serials = state.serials := by
  induction tags generalizing state with
  | nil => rfl
  | cons child rest ih =>
    have later := ih (state.mapBreaker (·.endRequest child) child)
    have one : (state.mapBreaker (·.endRequest child) child).serials = state.serials := by
      unfold UrltestState.mapBreaker
      split <;> rfl
    exact later.trans one

theorem beginRequestsSerials (tags : List String) : (state.beginRequests tags).serials = state.serials := by
  induction tags generalizing state with
  | nil => rfl
  | cons child rest ih =>
    have later := ih (state.mapBreaker (·.beginRequest child) child)
    have one : (state.mapBreaker (·.beginRequest child) child).serials = state.serials := by
      unfold UrltestState.mapBreaker
      split <;> rfl
    exact later.trans one

theorem commitResultsSerials (previous : String) (now : Int) (results : List (String × URLTestResult)) :
    (state.commitResults previous now results).serials = state.serials := by
  induction results generalizing state with
  | nil => rfl
  | cons entry rest ih =>
    have later := ih (state.commitResult previous now entry.1 entry.2)
    have one : (state.commitResult previous now entry.1 entry.2).serials = state.serials := by
      unfold UrltestState.commitResult
      split <;> rfl
    exact later.trans one

theorem collectedSerials (marks : String → Option UInt32) (now : Int) (children : List String) (checked : UrltestState × List String) :
    (children.foldl (UrltestState.checkCandidate marks now) checked).1.serials = checked.1.serials := by
  induction children generalizing checked with
  | nil => rfl
  | cons child rest ih =>
    have later := ih (UrltestState.checkCandidate marks now checked child)
    have one : (UrltestState.checkCandidate marks now checked child).1.serials = checked.1.serials := by
      unfold UrltestState.checkCandidate
      split <;> rfl
    exact later.trans one

theorem admittedSerials (manager : UrltestManager) (now : Int) : (manager.admitProbe state now).1.serials =
    { state.serials with
      probe := if state.externalPending then state.externalHealthRequestSerial else 0
      generation := manager.generation } := by
  have begun : ((state.collectCandidates manager.marksGeneration now).1.startProbe manager.generation
      |>.beginRequests (state.collectCandidates manager.marksGeneration now).2).serials =
      { state.serials with probe := 0, generation := manager.generation } := by
    rw [beginRequestsSerials]
    have collected : (state.collectCandidates manager.marksGeneration now).1.serials = state.serials :=
      collectedSerials manager.marksGeneration now state.children (state,[])
    change ({ (state.collectCandidates manager.marksGeneration now).1.serials with
      probe := 0, generation := manager.generation } : SerialView) = _
    rw [collected]
  unfold UrltestManager.admitProbe
  dsimp only
  generalize ((state.collectCandidates manager.marksGeneration now).1.startProbe manager.generation).beginRequests
    (state.collectCandidates manager.marksGeneration now).2 = started at begun
  have request : started.externalHealthRequestSerial = state.externalHealthRequestSerial := congrArg SerialView.request begun
  have completed : started.externalHealthCompletedSerial = state.externalHealthCompletedSerial :=
    congrArg SerialView.completed begun
  have pending : started.externalPending = state.externalPending := by
    rw [UrltestState.externalPending,request,completed]
    rfl
  unfold UrltestManager.claimExternalHealth
  rw [pending]
  split
  · change ({ started.serials with probe := started.externalHealthRequestSerial } : SerialView) = _
    rw [begun,request]
  · exact begun

end Views

section Transitions
variable {sys after : UrltestSystem} {tag : String} {view : SerialView}

structure LogGrows (sys after : UrltestSystem) (tag : String) : Prop where
  kept : ∀ event ∈ sys.log, event ∈ after.log
  fresh : ∀ serial next, .edge tag serial next ∈ after.log → .edge tag serial next ∈ sys.log

theorem LogGrows.refl {manager : UrltestManager} {issued : List Probe} {committed : List Nat} {waiting : List UrltestSelectionChange} :
    LogGrows sys { manager, issued, committed, waiting, log := sys.log } tag := ⟨fun _ mem => mem,fun _ _ mem => mem⟩

theorem LogGrows.append {events : List HealthEvent} (none : ∀ serial next, .edge tag serial next ∉ events)
    (log : after.log = sys.log ++ events) : LogGrows sys after tag := by
  refine ⟨?_,?_⟩
  · rw [log]
    exact fun event mem => List.mem_append_left _ mem
  · intro serial next mem
    rw [log] at mem
    cases List.mem_append.mp mem with
    | inl old => exact old
    | inr new => exact absurd new (none serial next)

theorem SerialsSound.grow (sound : SerialsSound sys tag view) (log : LogGrows sys after tag) : SerialsSound after tag view := by
  refine ⟨sound.order,?_,?_⟩
  · exact sound.probe.imp_right fun ⟨above,below,claimed⟩ => ⟨above,below,log.kept _ claimed⟩
  · intro serial next recorded
    obtain ⟨positive,below,done,admitted⟩ := sound.edges serial next (log.fresh serial next recorded)
    refine ⟨positive,below,fun reached => ?_,admitted⟩
    obtain ⟨generation,after_edge,completed⟩ := done reached
    exact ⟨generation,after_edge,log.kept _ completed⟩

theorem SerialsSound.dropped (sound : SerialsSound sys tag view) (log : LogGrows sys after tag) (generation : Nat) :
    SerialsSound after tag { view with probe := 0, generation } := by
  have grown := sound.grow log
  refine ⟨grown.order,Or.inl rfl,?_⟩
  intro serial next recorded
  obtain ⟨positive,below,done,_⟩ := grown.edges serial next recorded
  refine ⟨positive,below,done,fun reached => ?_⟩
  change serial.toNat ≤ 0 at reached
  omega

theorem SerialsSound.finished (sound : SerialsSound sys tag view) (log : LogGrows sys after tag) (claimed : view.probe ≠ 0)
    (event : .completed tag view.generation ∈ after.log) :
    SerialsSound after tag { view with completed := view.probe, probe := 0 } := by
  have grown := sound.grow log
  obtain ⟨above,below,_⟩ := grown.probe.resolve_left claimed
  refine ⟨below,Or.inl rfl,?_⟩
  intro serial next recorded
  obtain ⟨positive,within,_,admitted⟩ := grown.edges serial next recorded
  refine ⟨positive,within,fun reached => ⟨view.generation,admitted reached,event⟩,fun reached => ?_⟩
  change serial.toNat ≤ 0 at reached
  omega

theorem SerialsSound.admitted (sound : SerialsSound sys tag view) (log : LogGrows sys after tag) {generation : Nat}
    (newer : ∀ serial next, .edge tag serial next ∈ sys.log → next ≤ generation) {probe : UInt64}
    (claim : probe = if view.request != view.completed then view.request else 0)
    (event : .claimed tag generation probe ∈ after.log) : SerialsSound after tag { view with probe, generation } := by
  have grown := sound.grow log
  have order : view.completed.toNat ≤ view.request.toNat := grown.order
  refine ⟨order,?_,?_⟩
  · by_cases pending : view.request = view.completed
    · left
      simpa [pending] using claim
    · right
      have same : probe = view.request := by simpa [pending] using claim
      have apart : view.request.toNat ≠ view.completed.toNat := fun equal => pending (UInt64.toNat.inj equal)
      refine ⟨?_,?_,event⟩
      · change view.completed.toNat < probe.toNat
        rw [same]
        omega
      · change probe.toNat ≤ view.request.toNat
        rw [same]
  · intro serial next recorded
    obtain ⟨positive,below,done,_⟩ := grown.edges serial next recorded
    exact ⟨positive,below,done,fun _ => newer serial next (log.fresh serial next recorded)⟩

theorem UInt64.succToNat {serial : UInt64} (below : serial.toNat < 2 ^ 64 - 1) : (serial + 1).toNat = serial.toNat + 1 := by
  rw [UInt64.toNat_add]
  simp only [UInt64.reduceToNat]
  omega

theorem SerialsSound.advanced (sound : SerialsSound sys tag view) (room : view.request.toNat < 2 ^ 64 - 1)
    (kept : ∀ event ∈ sys.log, event ∈ after.log)
    (fresh : ∀ serial next, .edge tag serial next ∈ after.log → .edge tag serial next ∈ sys.log ∨ serial = view.request + 1) :
    SerialsSound after tag { view with request := view.request + 1 } := by
  have more := UInt64.succToNat room
  have order := sound.order
  refine ⟨?_,?_,?_⟩
  · change view.completed.toNat ≤ (view.request + 1).toNat
    omega
  · refine sound.probe.imp_right fun ⟨above,below,claimed⟩ => ⟨above,?_,kept _ claimed⟩
    change view.probe.toNat ≤ (view.request + 1).toNat
    omega
  · intro serial next recorded
    cases fresh serial next recorded with
    | inl old =>
      obtain ⟨positive,below,done,admitted⟩ := sound.edges serial next old
      refine ⟨positive,?_,fun reached => ?_,admitted⟩
      · change serial.toNat ≤ (view.request + 1).toNat
        omega
      · obtain ⟨generation,after_edge,completed⟩ := done reached
        exact ⟨generation,after_edge,kept _ completed⟩
    | inr new =>
      have value : serial.toNat = view.request.toNat + 1 := by rw [new,more]
      refine ⟨by omega,?_,fun reached => ?_,fun reached => ?_⟩
      · change serial.toNat ≤ (view.request + 1).toNat
        omega
      · change serial.toNat ≤ view.completed.toNat at reached
        omega
      · change serial.toNat ≤ view.probe.toNat at reached
        cases sound.probe with
        | inl unclaimed =>
          rw [unclaimed] at reached
          change serial.toNat ≤ 0 at reached
          omega
        | inr claimed =>
          have below := claimed.2.1
          omega

end Transitions

section Steps
variable {sys after : UrltestSystem} {tag : String} {count : Nat}

theorem HistorySound.mono (sound : HistorySound count tag sys) {more : Nat} (le : count ≤ more) : HistorySound more tag sys :=
  ⟨sound.groups,Nat.le_trans sound.counted le,sound.unregistered,sound.older⟩

theorem HistoryStep.refl (sound : HistorySound count tag sys) : HistoryStep count tag sys sys := ⟨sound,Or.inl rfl⟩

theorem HistorySound.same (sound : HistorySound count tag sys) (later : sys.manager.generation ≤ after.manager.generation)
    (states : (after.manager.states tag).map (·.serials) = (sys.manager.states tag).map (·.serials))
    (log : LogGrows sys after tag) : HistoryStep count tag sys after := by
  have field : ∀ read : SerialView → UInt64, ((after.manager.states tag).map fun state => read state.serials) =
      (sys.manager.states tag).map fun state => read state.serials := by
    intro read
    have mapped := congrArg (Option.map read) states
    rw [Option.map_map,Option.map_map] at mapped
    exact mapped
  have request : requestOf after tag = requestOf sys tag := congrArg (Option.getD · 0) (field SerialView.request)
  refine ⟨⟨?_,?_,?_,?_⟩,Or.inl (congrArg (Option.getD · 0) (field SerialView.completed))⟩
  · intro state found
    rw [found,Option.map_some] at states
    obtain ⟨old,known,same⟩ := Option.map_eq_some_iff.mp states.symm
    rw [← same]
    exact (sound.groups old known).grow log
  · rw [request]
    exact sound.counted
  · intro missing serial next recorded
    rw [missing,Option.map_none] at states
    exact sound.unregistered (Option.map_eq_none_iff.mp states.symm) serial next (log.fresh serial next recorded)
  · intro serial next recorded
    exact Nat.le_trans (sound.older serial next (log.fresh serial next recorded)) later

theorem HistorySound.moved (sound : HistorySound count tag sys) (later : sys.manager.generation ≤ after.manager.generation)
    {state next : UrltestState} (found : sys.manager.states tag = some state) (put : after.manager.states tag = some next)
    (request : next.serials.request = state.serials.request) (log : LogGrows sys after tag)
    (serials : SerialsSound after tag next.serials)
    (completed : next.serials.completed = state.serials.completed ∨
      ∃ generation, .claimed tag generation next.serials.completed ∈ sys.log) :
    HistoryStep count tag sys after := by
  have before : completedOf sys tag = state.serials.completed := by
    rw [completedOf,found]
    rfl
  have now : completedOf after tag = next.serials.completed := by
    rw [completedOf,put]
    rfl
  refine ⟨⟨?_,?_,?_,?_⟩,by rw [before,now]; exact completed⟩
  · intro other listed
    rw [put] at listed
    cases listed
    exact serials
  · have counted := sound.counted
    rw [requestOf,found] at counted
    rw [requestOf,put]
    change next.serials.request.toNat ≤ count
    rw [request]
    exact counted
  · intro missing
    rw [put] at missing
    cases missing
  · intro serial next recorded
    exact Nat.le_trans (sound.older serial next (log.fresh serial next recorded)) later

open UrltestManager

theorem HistorySound.putKeeps (sound : HistorySound count tag sys) {own : String} {state next : UrltestState}
    (found : sys.manager.states own = some state) (serials : own = tag → next.serials = state.serials)
    (states : after.manager.states = (sys.manager.put own next).states)
    (later : sys.manager.generation ≤ after.manager.generation) (log : LogGrows sys after tag) : HistoryStep count tag sys after := by
  refine sound.same later ?_ log
  rw [states]
  by_cases here : own = tag
  · subst here
    rw [putSelf,found,Option.map_some,Option.map_some,serials rfl]
  · rw [putOther sys.manager (Ne.symm here)]

theorem quietHistory (sound : HistorySound count tag sys) {manager : UrltestManager} (quiet : QuietMove sys.manager manager) :
    HistoryStep count tag sys { sys with manager } := by
  cases quiet with
  | inl unchanged =>
    rw [unchanged]
    exact HistoryStep.refl sound
  | inr put =>
    obtain ⟨own,state,selected,failures,task,scheduling,epoch,found,result⟩ := put
    rw [result]
    exact sound.putKeeps found (fun _ => by rfl) rfl (Nat.le_refl _) LogGrows.refl

theorem registerHistory (sound : HistorySound count tag sys) (ut : Outbound) (initial : String) (direct : String → Option String)
    (taskId : Int) : HistoryStep count tag sys { sys with manager := sys.manager.registerUrltest ut initial direct taskId } := by
  unfold registerUrltest
  split
  · exact HistoryStep.refl sound
  · rename_i missing
    by_cases here : ut.tag = tag
    · subst here
      refine ⟨⟨?_,?_,?_,sound.older⟩,Or.inl ?_⟩
      · intro state found
        rw [putSelf] at found
        cases found
        refine ⟨Nat.le_refl 0,Or.inl rfl,fun serial next recorded => ?_⟩
        exact absurd recorded (sound.unregistered missing serial next)
      · rw [requestOf]
        dsimp only
        rw [putSelf]
        exact Nat.zero_le count
      · intro unregistered
        rw [putSelf] at unregistered
        cases unregistered
      · rw [completedOf,completedOf,missing]
        dsimp only
        rw [putSelf]
        rfl
    · refine sound.same (Nat.le_refl _) ?_ LogGrows.refl
      rw [putOther sys.manager (Ne.symm here)]

theorem completionNoEdge (own : String) (generation : Nat) (admitted : Bool) (resolution : Option ExternalHealthResolution) :
    ∀ serial next, HealthEvent.edge tag serial next ∉ UrltestSystem.completionEvents own generation admitted resolution := by
  intro serial next mem
  unfold UrltestSystem.completionEvents at mem
  split at mem
  · cases List.mem_singleton.mp mem
  · cases mem

theorem finishHistory (sound : HistorySound count tag sys) {own : String} {generation : Nat} {state : UrltestState}
    (fenced : sys.manager.Fenced own generation state) (free next : UrltestState) (admitted : Bool) (resolution : ExternalHealthResolution)
    (same : free.serials = state.serials) (serials : next.serials = (free.finishExternalHealthProbe admitted).1.serials)
    (states : after.manager.states = (sys.manager.put own next).states) (counter : after.manager.generation = sys.manager.generation)
    (log : after.log = sys.log ++ UrltestSystem.completionEvents own generation admitted (some resolution)) :
    HistoryStep count tag sys after := by
  obtain ⟨found,stateGeneration⟩ := fenced
  have grows : LogGrows sys after tag := LogGrows.append (completionNoEdge own generation admitted (some resolution)) log
  by_cases here : own = tag
  · subst here
    have put : after.manager.states own = some next := by rw [states,putSelf]
    have view := sound.groups state found
    rw [finishSerials,same] at serials
    have probe : free.probeExternalHealthSerial = state.probeExternalHealthSerial := congrArg SerialView.probe same
    have completed : free.externalHealthCompletedSerial = state.externalHealthCompletedSerial := congrArg SerialView.completed same
    rw [probe,completed] at serials
    by_cases claimed : state.probeExternalHealthSerial ≠ 0 ∧ admitted = true
    · rw [if_pos claimed] at serials
      refine sound.moved (Nat.le_of_eq counter.symm) found put (by rw [serials]) grows ?_ ?_
      · rw [serials]
        refine view.finished grows claimed.1 ?_
        rw [log,claimed.2]
        change HealthEvent.completed own state.generation ∈ _
        rw [stateGeneration]
        exact List.mem_append_right _ List.mem_cons_self
      · rw [serials]
        exact Or.inr ⟨state.generation,(view.probe.resolve_left claimed.1).2.2⟩
    · rw [if_neg claimed] at serials
      refine sound.moved (Nat.le_of_eq counter.symm) found put (by rw [serials]) grows ?_ ?_
      · rw [serials]
        exact view.dropped grows state.generation
      · rw [serials]
        exact Or.inl rfl
  · refine sound.same (Nat.le_of_eq counter.symm) ?_ grows
    rw [states,putOther sys.manager (Ne.symm here)]

theorem commitHistory (sound : HistorySound count tag sys) (own : String) (generation : Nat) (results : List (String × URLTestResult))
    (now : Int) : HistoryStep count tag sys (sys.act (.commit own generation results now)) := by
  cases commitCases sys.manager own generation results now with
  | inl stale =>
    refine sound.same ?_ ?_ ?_
    · exact Nat.le_of_eq (congrArg (fun result => result.1.generation) stale.1).symm
    · exact congrArg (fun result => (result.1.states tag).map (·.serials)) stale.1
    · exact LogGrows.append (completionNoEdge own generation true _) rfl
  | inr current =>
    obtain ⟨state,fenced,_,published,publishedEq,outcome⟩ := current
    have serials : published.serials = state.serials := by
      rw [publishedEq]
      exact commitResultsSerials state state.selectedOutbound now results
    cases outcome with
    | inl changed =>
      obtain ⟨change,_,_,_,result⟩ := changed
      refine sound.putKeeps fenced.1 (fun _ => serials) ?_ ?_ (LogGrows.append (completionNoEdge own generation true _) rfl)
      · exact congrArg (fun result => result.1.states) result
      · exact Nat.le_of_eq (congrArg (fun result => result.1.generation) result).symm
    | inr unchanged =>
      obtain ⟨_,resolution,result⟩ := unchanged
      refine finishHistory sound fenced { published with probeInflight := false } _ true resolution serials rfl ?_ ?_ ?_
      · exact congrArg (fun result => result.1.states) result
      · exact congrArg (fun result => result.1.generation) result
      · exact congrArg (fun result => sys.log ++ UrltestSystem.completionEvents own generation true result.2.2) result

theorem settleHistory (sound : HistorySound count tag sys) (change : UrltestSelectionChange) (admitted : Bool) :
    HistoryStep count tag sys (sys.act (.settle change admitted)) := by
  cases settleCases sys.manager change admitted with
  | inl stale =>
    refine sound.same ?_ ?_ ?_
    · exact Nat.le_of_eq (congrArg (fun result => result.1.generation) stale).symm
    · exact congrArg (fun result => (result.1.states tag).map (·.serials)) stale
    · exact LogGrows.append (completionNoEdge change.urltestTag change.probeGeneration admitted _) rfl
  | inr current =>
    obtain ⟨state,fenced,_,settled,settledEq,_,resolution,result⟩ := current
    have serials : ({ settled with probeInflight := false } : UrltestState).serials = state.serials := by
      change settled.serials = state.serials
      rw [settledEq,UrltestState.settleCursor]
      split <;> rfl
    refine finishHistory sound fenced _ _ admitted resolution serials rfl ?_ ?_ ?_
    · exact congrArg (fun result => result.1.states) result
    · exact congrArg (fun result => result.1.generation) result
    · exact congrArg (fun result => sys.log ++
        UrltestSystem.completionEvents change.urltestTag change.probeGeneration admitted result.2) result

theorem completeHistory (sound : HistorySound count tag sys) (own : String) (generation : Nat) (resumePending : Bool) :
    HistoryStep count tag sys (sys.act (.complete own generation resumePending)) := by
  cases completeCases sys.manager own generation resumePending with
  | inl stale =>
    refine sound.same ?_ ?_ ?_
    · exact Nat.le_of_eq (congrArg (fun result => result.1.generation) stale).symm
    · exact congrArg (fun result => (result.1.states tag).map (·.serials)) stale
    · exact LogGrows.append (completionNoEdge own generation true _) rfl
  | inr current =>
    obtain ⟨state,fenced,_,finished,finishedEq,next,resolution,nextEq,result⟩ := current
    have serials : next.serials = (({ state with selectionPending := false, probeInflight := false } :
        UrltestState).finishExternalHealthProbe true).1.serials := by
      rw [← finishedEq]
      cases nextEq with
      | inl same => rw [same]
      | inr retired =>
        rw [retired]
        rfl
    refine finishHistory sound fenced _ next true resolution (by rfl) serials ?_ ?_ ?_
    · exact congrArg (fun result => result.1.states) result
    · exact congrArg (fun result => result.1.generation) result
    · exact congrArg (fun result => sys.log ++ UrltestSystem.completionEvents own generation true result.2) result

theorem abandonHistory (sound : HistorySound count tag sys) (own : String) (generation : Nat) (candidateTags : List String) :
    HistoryStep count tag sys (sys.act (.abandon own generation candidateTags)) := by
  change HistoryStep count tag sys { sys with manager := sys.manager.abandonProbe own generation candidateTags }
  cases abandonCases sys.manager own generation candidateTags with
  | inl stale =>
    rw [stale]
    exact HistoryStep.refl sound
  | inr current =>
    obtain ⟨state,⟨found,_⟩,_,result⟩ := current
    rw [result]
    by_cases here : own = tag
    · subst here
      have dropped := claimedFailureSerials { state with probeInflight := false, selectionPending := false }
      have view : (({ ({ state with probeInflight := false, selectionPending := false } :
          UrltestState).recordClaimedExternalHealthFailure with generation := sys.manager.generation } :
          UrltestState).endRequests candidateTags).serials =
          { state.serials with probe := 0, generation := sys.manager.generation } := by
        rw [endRequestsSerials]
        exact congrArg (fun old : SerialView => { old with generation := sys.manager.generation }) dropped
      refine sound.moved (Nat.le_succ _) found (putSelf _ _ _) (by rw [view]) LogGrows.refl ?_ ?_
      · rw [view]
        exact (sound.groups state found).dropped LogGrows.refl sys.manager.generation
      · rw [view]
        exact Or.inl rfl
    · refine sound.same (Nat.le_succ _) ?_ LogGrows.refl
      rw [putOther sys.manager (Ne.symm here)]

theorem deferHistory (sound : HistorySound count tag sys) (own : String) (generation : Nat) :
    HistoryStep count tag sys (sys.act (.defer own generation)) := by
  change HistoryStep count tag sys { sys with manager := (sys.manager.deferSelectionCompletion own generation).1 }
  cases deferCases sys.manager own generation with
  | inl stale =>
    rw [stale]
    exact HistoryStep.refl sound
  | inr current =>
    obtain ⟨state,⟨found,_⟩,_,result⟩ := current
    rw [result]
    exact sound.putKeeps found (fun _ => by rfl) rfl (Nat.le_refl _) LogGrows.refl

theorem HistorySound.advanced (sound : HistorySound count tag sys) (few : count < 2 ^ 64 - 1) {state next : UrltestState}
    (found : sys.manager.states tag = some state) (put : after.manager.states tag = some next)
    (counter : after.manager.generation = sys.manager.generation)
    (serials : next.serials = { state.serials with request := state.serials.request + 1 })
    (kept : ∀ event ∈ sys.log, event ∈ after.log)
    (fresh : ∀ serial next, .edge tag serial next ∈ after.log → .edge tag serial next ∈ sys.log ∨
      serial = state.serials.request + 1 ∧ next = sys.manager.generation) :
    HistoryStep (count + if requestOf after tag = requestOf sys tag then 0 else 1) tag sys after := by
  have counted : state.serials.request.toNat ≤ count := by
    have bound := sound.counted
    rw [requestOf,found] at bound
    exact bound
  have room : state.serials.request.toNat < 2 ^ 64 - 1 := Nat.lt_of_le_of_lt counted few
  have more := UInt64.succToNat room
  have before : requestOf sys tag = state.serials.request := by
    rw [requestOf,found]
    rfl
  have now : requestOf after tag = state.serials.request + 1 := by
    rw [requestOf,put]
    exact congrArg SerialView.request serials
  have moved : requestOf after tag ≠ requestOf sys tag := by
    rw [now,before]
    intro same
    have equal := congrArg UInt64.toNat same
    omega
  have completed : completedOf after tag = completedOf sys tag := by
    rw [completedOf,completedOf,found,put]
    exact congrArg SerialView.completed serials
  rw [if_neg moved]
  refine ⟨⟨?_,?_,?_,?_⟩,Or.inl completed⟩
  · intro other listed
    rw [put] at listed
    cases listed
    rw [serials]
    exact (sound.groups state found).advanced room kept fun serial next recorded => (fresh serial next recorded).imp_right And.left
  · rw [now,more]
    omega
  · intro missing
    rw [put] at missing
    cases missing
  · intro serial generation recorded
    rw [counter]
    cases fresh serial generation recorded with
    | inl old => exact sound.older serial generation old
    | inr new => exact Nat.le_of_eq new.2

theorem HistoryStep.unadvanced (step : HistoryStep count tag sys after) :
    HistoryStep (count + if requestOf after tag = requestOf sys tag then 0 else 1) tag sys after :=
  ⟨step.sound.mono (Nat.le_add_right _ _),step.completed⟩

theorem nextSerial {serial : UInt64} (room : serial.toNat < 2 ^ 64 - 1) : serial ≠ 0xFFFFFFFFFFFFFFFF := by
  rintro rfl
  exact absurd room (by decide)

theorem edgeHistory (sound : HistorySound count tag sys) (few : count < 2 ^ 64 - 1) (own : String) :
    HistoryStep (count + if requestOf (sys.act (.edge own)) tag = requestOf sys tag then 0 else 1) tag sys (sys.act (.edge own)) := by
  cases found : sys.manager.states own with
  | none =>
    have manager : (sys.act (.edge own)).manager = sys.manager := by
      change sys.manager.triggerExternalHealthTest own = sys.manager
      rw [triggerExternalHealthTest,found]
    have log : (sys.act (.edge own)).log = sys.log ++ [] := by
      change sys.log ++ UrltestSystem.edgeEvents (sys.manager.triggerExternalHealthTest own) own = _
      rw [triggerExternalHealthTest,found]
      simp only [UrltestSystem.edgeEvents,found]
    refine HistoryStep.unadvanced (sound.same ?_ ?_ (LogGrows.append (fun _ _ => List.not_mem_nil) log))
    · rw [manager]
    · rw [manager]
  | some state =>
    have manager : (sys.act (.edge own)).manager = sys.manager.put own (recordEdge state) := by
      change sys.manager.triggerExternalHealthTest own = _
      rw [triggerExternalHealthTest,found]
    have log : (sys.act (.edge own)).log =
        sys.log ++ [.edge own (recordEdge state).externalHealthRequestSerial sys.manager.generation] := by
      change sys.log ++ UrltestSystem.edgeEvents (sys.manager.triggerExternalHealthTest own) own = _
      rw [triggerExternalHealthTest,found]
      simp only [UrltestSystem.edgeEvents,putSelf]
      rfl
    by_cases here : own = tag
    · subst here
      have counted := sound.counted
      rw [requestOf,found] at counted
      change state.externalHealthRequestSerial.toNat ≤ count at counted
      have apart := nextSerial (Nat.lt_of_le_of_lt counted few)
      have serials : (recordEdge state).serials = { state.serials with request := state.serials.request + 1 } := by
        unfold recordEdge
        simp [apart,UrltestState.serials]
      refine sound.advanced few found ?_ ?_ serials ?_ ?_
      · rw [manager,putSelf]
      · rw [manager]
        rfl
      · rw [log]
        exact fun event mem => List.mem_append_left _ mem
      · intro serial next recorded
        rw [log] at recorded
        cases List.mem_append.mp recorded with
        | inl old => exact Or.inl old
        | inr new =>
          cases List.mem_singleton.mp new
          exact Or.inr ⟨congrArg SerialView.request serials,rfl⟩
    · refine HistoryStep.unadvanced (sound.same ?_ ?_ (LogGrows.append ?_ log))
      · rw [manager]
        exact Nat.le_refl _
      · rw [manager,putOther sys.manager (Ne.symm here)]
      · intro serial next mem
        cases List.mem_singleton.mp mem
        exact here rfl

theorem queueHistory (sound : HistorySound count tag sys) (few : count < 2 ^ 64 - 1) (own : String) (reason : ProbeReason) (now : Int) :
    HistoryStep (count + if requestOf (sys.act (.queueProbe own reason now)) tag = requestOf sys tag then 0 else 1) tag sys
      (sys.act (.queueProbe own reason now)) := by
  have logged : (sys.act (.queueProbe own reason now)).log = sys.log ++
      (sys.manager.queueProbe own reason now).2.toList.flatMap
        (UrltestSystem.claimEvents (sys.manager.queueProbe own reason now).1) := rfl
  cases found : sys.manager.states own with
  | none =>
    have result := queueMissing found reason now
    refine HistoryStep.unadvanced (sound.same ?_ ?_ (LogGrows.append (fun _ _ => List.not_mem_nil) ?_))
    · exact Nat.le_of_eq (congrArg (fun result => result.1.generation) result).symm
    · exact congrArg (fun result => (result.1.states tag).map (·.serials)) result
    · rw [logged,result]
      rfl
  | some state =>
    cases busy : state.probeInflight with
    | true =>
      have result := queueBusy found busy reason now
      have states : (sys.act (.queueProbe own reason now)).manager = sys.manager.put own (requestTrailing state reason) :=
        congrArg Prod.fst result
      have log : (sys.act (.queueProbe own reason now)).log = sys.log ++ [] := by
        rw [logged,result]
        rfl
      have grows : LogGrows sys (sys.act (.queueProbe own reason now)) tag := LogGrows.append (fun _ _ => List.not_mem_nil) log
      by_cases here : own = tag
      · subst here
        have counted := sound.counted
        rw [requestOf,found] at counted
        change state.externalHealthRequestSerial.toNat ≤ count at counted
        have apart := nextSerial (Nat.lt_of_le_of_lt counted few)
        have either : (requestTrailing state reason).serials = { state.serials with request := state.serials.request + 1 } ∨
            (requestTrailing state reason).serials = state.serials := by
          unfold requestTrailing
          split
          · left
            simp [UrltestState.serials,nextNonzeroSerial,apart]
          · exact Or.inr rfl
        cases either with
        | inl advanced =>
          refine sound.advanced few found (by rw [states,putSelf]) (by rw [states]; rfl) advanced grows.kept ?_
          exact fun serial next recorded => Or.inl (grows.fresh serial next recorded)
        | inr same =>
          refine HistoryStep.unadvanced (sound.putKeeps found (fun _ => same) (by rw [states]) ?_ grows)
          rw [states]
          exact Nat.le_refl _
      · refine HistoryStep.unadvanced (sound.putKeeps found (fun same => absurd same here) (by rw [states]) ?_ grows)
        rw [states]
        exact Nat.le_refl _
    | false =>
      have result := queueFree found busy reason now
      have states : (sys.act (.queueProbe own reason now)).manager =
          { sys.manager.put own (sys.manager.admitProbe state now).1 with generation := sys.manager.generation + 1 } :=
        congrArg Prod.fst result
      have log : (sys.act (.queueProbe own reason now)).log = sys.log ++
          [.claimed own sys.manager.generation (sys.manager.admitProbe state now).1.probeExternalHealthSerial] := by
        rw [logged,result]
        simp only [Option.toList_some,List.flatMap_singleton,UrltestSystem.claimEvents,putSelf]
      have grows : LogGrows sys (sys.act (.queueProbe own reason now)) tag := by
        refine LogGrows.append (fun serial next mem => ?_) log
        cases List.mem_singleton.mp mem
      by_cases here : own = tag
      · subst here
        have serials := admittedSerials state sys.manager now
        refine HistoryStep.unadvanced (sound.moved ?_ found (by rw [states]; exact putSelf _ _ _) (by rw [serials]) grows ?_
          (by rw [serials]; exact Or.inl rfl))
        · rw [states]
          exact Nat.le_succ _
        · rw [serials]
          refine (sound.groups state found).admitted grows sound.older rfl ?_
          rw [log]
          have claimed : (sys.manager.admitProbe state now).1.probeExternalHealthSerial = _ := congrArg SerialView.probe serials
          rw [claimed]
          exact List.mem_append_right _ List.mem_cons_self
      · refine HistoryStep.unadvanced (sound.putKeeps found (fun same => absurd same here) (by rw [states]) ?_ grows)
        rw [states]
        exact Nat.le_succ _

theorem stepHistory (sound : HistorySound count tag sys) (few : count < 2 ^ 64 - 1) (action : UrltestAction)
    (kept : action.retires = false) :
    HistoryStep (count + if requestOf (sys.act action) tag = requestOf sys tag then 0 else 1) tag sys (sys.act action) := by
  cases action with
  | register ut initial direct taskId => exact HistoryStep.unadvanced (registerHistory sound ut initial direct taskId)
  | queueProbe own reason now => exact queueHistory sound few own reason now
  | edge own => exact edgeHistory sound few own
  | commit own generation results now => exact HistoryStep.unadvanced (commitHistory sound own generation results now)
  | settle change admitted => exact HistoryStep.unadvanced (settleHistory sound change admitted)
  | abandon own generation candidateTags => exact HistoryStep.unadvanced (abandonHistory sound own generation candidateTags)
  | defer own generation => exact HistoryStep.unadvanced (deferHistory sound own generation)
  | complete own generation resumePending => exact HistoryStep.unadvanced (completeHistory sound own generation resumePending)
  | synchronize own selected => exact HistoryStep.unadvanced (quietHistory sound (synchronizeQuiet sys.manager own selected))
  | synchronizeIf own generation selected =>
    exact HistoryStep.unadvanced (quietHistory sound (synchronizeIfQuiet sys.manager own generation selected))
  | clear => cases kept
  | replaceMarks marks => cases kept
  | startFailure own expected => exact HistoryStep.unadvanced (quietHistory sound (startFailureQuiet sys.manager own expected))
  | reserveRetry own => exact HistoryStep.unadvanced (quietHistory sound (reserveQuiet sys.manager own))
  | publishRetry own registration epoch task =>
    exact HistoryStep.unadvanced (quietHistory sound (publishQuiet sys.manager own registration epoch task))
  | runRetry own registration epoch =>
    exact HistoryStep.unadvanced (quietHistory sound (runRetryQuiet sys.manager own registration epoch))

theorem runHistory (sound : HistorySound count tag sys) (actions : List UrltestAction) (kept : ∀ action ∈ actions, action.retires = false)
    (few : count + advances tag sys actions < 2 ^ 64 - 1) :
    HistorySound (count + advances tag sys actions) tag (actions.foldl UrltestSystem.act sys) := by
  induction actions generalizing sys count with
  | nil => exact sound
  | cons action rest ih =>
    rw [advances,← Nat.add_assoc] at few ⊢
    have one := stepHistory sound (by omega) action (kept action List.mem_cons_self)
    exact ih one.sound (fun other mem => kept other (List.mem_cons_of_mem action mem)) few

end Steps

theorem startHistory (marksGeneration : String → Option UInt32) (tag : String) :
    HistorySound 0 tag { manager := { marksGeneration } } := by
  refine ⟨?_,Nat.le_refl 0,?_,?_⟩
  · intro state found
    cases found
  · intro _ serial next recorded
    cases recorded
  · intro serial next recorded
    cases recorded

theorem edgesKept (marksGeneration : String → Option UInt32) (tag : String) (actions : List UrltestAction)
    (kept : ∀ action ∈ actions, action.retires = false)
    (few : advances tag { manager := { marksGeneration } } actions < 2 ^ 64 - 1) :
    let sys := actions.foldl UrltestSystem.act { manager := { marksGeneration } }
    EdgesKept sys tag ∧ ∀ action, action.retires = false → completedOf (sys.act action) tag ≠ completedOf sys tag →
      ∃ generation, .claimed tag generation (completedOf (sys.act action) tag) ∈ sys.log := by
  have sound := runHistory (startHistory marksGeneration tag) actions kept (by rwa [Nat.zero_add])
  rw [Nat.zero_add] at sound
  refine ⟨edgesOf sound,fun action stays moved => ?_⟩
  exact ((stepHistory sound few action stays).completed).resolve_left moved

/- A group whose only child is a blackhole has nothing to probe: every commit drops the retained
selection, and the controller keeps putting it back. -/
def holeOutbound : Outbound :=
  { tag := "auto", type := .urltest, url := some "http://probe.test/", outboundGroups := some [{ outbounds := ["hole"] }] }

def holeConfig : Config := { outbounds := some [{ tag := "hole", type := .blackhole },holeOutbound] }

def holeState (selected : String) (inflight pending : Bool) (generation : Nat) (request completed probe : UInt64)
    (failures : UInt8) : UrltestState :=
  { UrltestManager.urltestState holeOutbound "hole" (fun _ => none) 1 with
    selectedOutbound := selected
    probeInflight := inflight
    selectionPending := pending
    generation
    externalHealthRequestSerial := request
    externalHealthCompletedSerial := completed
    probeExternalHealthSerial := probe
    externalHealthFailures := failures }

theorem unhealthySelects {state : UrltestState} (unhealthy : ∀ child, state.healthyResult child = none) :
    state.selectOutboundFromState = "" := by
  have latency : ∀ group, state.minLatency group = 0xFFFFFFFF := by
    intro group
    unfold UrltestState.minLatency
    generalize (0xFFFFFFFF : UInt32) = low
    induction group.outbounds with
    | nil => rfl
    | cons child rest ih => rw [List.foldl_cons,unhealthy child,ih]
  have nothing : ∀ group, state.selectFromGroup group = none := by
    intro group
    unfold UrltestState.selectFromGroup
    split
    · rw [List.find?_eq_none]
      intro child _
      rw [unhealthy child]
      exact Bool.false_ne_true
    · rw [latency group]
      rfl
  unfold UrltestState.selectOutboundFromState
  split
  · rfl
  · rename_i groups _
    have none : (UrltestState.sortedGroups groups).findSome? state.selectFromGroup = none :=
      List.findSome?_eq_none_iff.mpr fun group _ => nothing group
    rw [none]
    rfl

section Hole
variable {selected : String} {inflight pending : Bool} {generation : Nat} {request completed probe : UInt64} {failures : UInt8}

theorem holeSelects : (holeState selected inflight pending generation request completed probe failures).selectOutboundFromState = "" := by
  refine unhealthySelects fun child => ?_
  unfold UrltestState.healthyResult
  split
  · rfl
  · split
    · rfl
    · split <;> rfl

variable {sys : UrltestSystem}

theorem holeAdmits {manager : UrltestManager} (marks : manager.marksGeneration = fun _ => none) (now : Int)
    (apart : request ≠ completed) :
    manager.admitProbe (holeState selected inflight pending generation request completed probe failures) now =
      (holeState selected true pending manager.generation request completed request failures,[]) := by
  have collected : (holeState selected inflight pending generation request completed probe failures).collectCandidates
      manager.marksGeneration now = (holeState selected inflight pending generation request completed probe failures,[]) := by
    rw [marks]
    rfl
  unfold UrltestManager.admitProbe
  rw [collected]
  have claims : ((holeState selected inflight pending generation request completed probe failures).startProbe
      manager.generation).externalPending = true := bne_iff_ne.mpr apart
  change (UrltestManager.claimExternalHealth ((holeState selected inflight pending generation request completed probe
    failures).startProbe manager.generation),([] : List String)) = _
  rw [UrltestManager.claimExternalHealth,claims]
  rfl

theorem holeQueues (found : sys.manager.states "auto" = some (holeState "hole" false false generation request completed probe failures))
    (marks : sys.manager.marksGeneration = fun _ => none) (apart : request ≠ completed) :
    (sys.act (.queueProbe "auto" .manual 0)).manager =
        { sys.manager.put "auto" (holeState "hole" true false sys.manager.generation request completed request failures) with
          generation := sys.manager.generation + 1 } ∧
      (sys.act (.queueProbe "auto" .manual 0)).issued = ⟨"auto",sys.manager.generation,[]⟩ :: sys.issued ∧
      (sys.act (.queueProbe "auto" .manual 0)).log = sys.log ++ [.claimed "auto" sys.manager.generation request] := by
  have result := UrltestManager.queueFree found rfl .manual 0
  rw [holeAdmits marks 0 apart] at result
  refine ⟨congrArg Prod.fst result,?_,?_⟩
  · change (sys.manager.queueProbe "auto" .manual 0).2.toList ++ sys.issued = _
    rw [result]
    rfl
  change sys.log ++ (sys.manager.queueProbe "auto" .manual 0).2.toList.flatMap
    (UrltestSystem.claimEvents (sys.manager.queueProbe "auto" .manual 0).1) = _
  rw [result]
  simp only [Option.toList_some,List.flatMap_singleton,UrltestSystem.claimEvents,UrltestManager.putSelf]
  rfl

theorem holeCommits (found : sys.manager.states "auto" = some (holeState "hole" true false generation request completed probe failures)) :
    (sys.act (.commit "auto" generation [] 0)).manager =
        sys.manager.put "auto" (holeState "" true false generation request completed probe failures) ∧
      (∃ change, change.urltestTag = "auto" ∧ change.probeGeneration = generation ∧
        (sys.act (.commit "auto" generation [] 0)).waiting = change :: sys.waiting) ∧
      (sys.act (.commit "auto" generation [] 0)).log = sys.log := by
  cases UrltestManager.commitCases sys.manager "auto" generation [] 0 with
  | inl stale =>
    have stopped : true = false := stale.2 _ ⟨found,rfl⟩
    cases stopped
  | inr current =>
    obtain ⟨state,⟨found',_⟩,_,published,publishedEq,outcome⟩ := current
    rw [found] at found'
    cases found'
    have dropped : published = holeState "" true false generation request completed probe failures := by
      rw [publishedEq]
      have empty : ((holeState "hole" true false generation request completed probe failures).commitResults
          (holeState "hole" true false generation request completed probe failures).selectedOutbound 0
            []).selectOutboundFromState = "" := holeSelects
      rw [empty]
      rfl
    cases outcome with
    | inr unchanged =>
      have same := unchanged.1
      rw [dropped] at same
      exact absurd (show "" = "hole" from same) (by decide)
    | inl changed =>
      obtain ⟨change,changeTag,changeGeneration,_,result⟩ := changed
      rw [dropped] at result
      refine ⟨congrArg Prod.fst result,⟨change,changeTag,changeGeneration,?_⟩,?_⟩
      · change (sys.manager.commitProbeResults "auto" generation [] 0).2.1.toList ++ sys.waiting = _
        rw [result]
        rfl
      · change sys.log ++ UrltestSystem.completionEvents "auto" generation true
          (sys.manager.commitProbeResults "auto" generation [] 0).2.2 = sys.log
        rw [result]
        exact List.append_nil sys.log

theorem holeRestores (found : sys.manager.states "auto" = some
    (holeState selected inflight pending generation request completed probe failures)) :
    (sys.act (.synchronizeIf "auto" generation "hole")).manager =
      sys.manager.put "auto" (holeState "hole" inflight pending generation request completed probe failures) := by
  change (sys.manager.synchronizeSelectedIfGeneration "auto" generation "hole").1 = _
  have current : ((sys.manager.states "auto").map (·.generation) != some generation) = false := by
    rw [found]
    change (some generation != some generation) = false
    simp
  rw [UrltestManager.synchronizeSelectedIfGeneration,current]
  simp only [Bool.false_eq_true,if_false]
  rw [UrltestManager.synchronizeSelected,found]
  rfl

theorem holeDefers (found : sys.manager.states "auto" = some (holeState selected true false generation request completed probe failures)) :
    (sys.act (.defer "auto" generation)).manager =
      sys.manager.put "auto" (holeState selected true true generation request completed probe failures) := by
  change (sys.manager.deferSelectionCompletion "auto" generation).1 = _
  rw [UrltestManager.deferSelectionCompletion,found]
  have current : ((holeState selected true false generation request completed probe failures).generation != generation ||
      !(holeState selected true false generation request completed probe failures).probeInflight) = false := by
    change (generation != generation || false) = false
    simp
  simp only [current,Bool.false_eq_true,if_false]
  rfl

theorem holeTrails (found : sys.manager.states "auto" = some (holeState selected true true generation request completed request failures))
    (room : request ≠ 0xFFFFFFFFFFFFFFFF) :
    (sys.act (.queueProbe "auto" .manual 0)).manager =
        sys.manager.put "auto" (holeState selected true true generation (request + 1) completed request 0) ∧
      (sys.act (.queueProbe "auto" .manual 0)).issued = sys.issued ∧ (sys.act (.queueProbe "auto" .manual 0)).log = sys.log := by
  have result := UrltestManager.queueBusy found rfl .manual 0
  have trailing : UrltestManager.requestTrailing (holeState selected true true generation request completed request failures) .manual =
      holeState selected true true generation (request + 1) completed request 0 := by
    have asks : ((holeState selected true true generation request completed request failures).selectionPending &&
        (ProbeReason.manual == .manual || ProbeReason.manual == .scheduled) &&
        ((holeState selected true true generation request completed request failures).externalHealthRequestSerial ==
          (holeState selected true true generation request completed request failures).probeExternalHealthSerial ||
          !(holeState selected true true generation request completed request failures).externalPending)) = true := by
      change (true && true && (request == request || _)) = true
      simp
    rw [UrltestManager.requestTrailing,if_pos asks]
    have next : nextNonzeroSerial (holeState selected true true generation request completed request failures).externalHealthRequestSerial =
        request + 1 := if_neg room
    rw [next]
    rfl
  rw [trailing] at result
  refine ⟨congrArg Prod.fst result,?_,?_⟩
  · change (sys.manager.queueProbe "auto" .manual 0).2.toList ++ sys.issued = sys.issued
    rw [result]
    rfl
  · change sys.log ++ (sys.manager.queueProbe "auto" .manual 0).2.toList.flatMap _ = sys.log
    rw [result]
    exact List.append_nil sys.log

theorem holeSettles (found : sys.manager.states "auto" = some (holeState selected true true generation request completed probe failures))
    {change : UrltestSelectionChange} (changeTag : change.urltestTag = "auto") :
    (sys.act (.settle change true)).manager = sys.manager ∧ (sys.act (.settle change true)).log = sys.log := by
  have stale : sys.manager.settleChange change true = (sys.manager,none) := by
    cases UrltestManager.settleCases sys.manager change true with
    | inl unmoved => exact unmoved
    | inr current =>
      obtain ⟨state,⟨found',_⟩,_,settled,settledEq,free,_⟩ := current
      rw [changeTag,found] at found'
      cases found'
      rw [settledEq] at free
      have stuck : true = false := free
      cases stuck
  refine ⟨congrArg Prod.fst stale,?_⟩
  change sys.log ++ UrltestSystem.completionEvents change.urltestTag change.probeGeneration true
    (sys.manager.settleChange change true).2 = sys.log
  rw [stale]
  exact List.append_nil sys.log

theorem holeCompletes (found : sys.manager.states "auto" = some (holeState selected true true generation request completed probe failures))
    (claimed : probe ≠ 0) : ∃ next : UrltestState,
    (request ≠ probe → next = holeState selected false false generation request probe 0 0) ∧
    next.externalHealthRequestSerial = request ∧ next.externalHealthCompletedSerial = probe ∧
    (sys.act (.complete "auto" generation true)).manager = sys.manager.put "auto" next ∧
    (sys.act (.complete "auto" generation true)).log = sys.log ++ [.completed "auto" generation] := by
  have settled : (holeState selected false false generation request completed probe failures).settleClaim true =
      holeState selected false false generation request probe 0 0 := by
    have some_claim : ¬ (holeState selected false false generation request completed probe failures).probeExternalHealthSerial
      = 0 := claimed
    rw [UrltestState.settleClaim,if_neg some_claim]
    rfl
  have result : sys.manager.completeSelection "auto" generation true =
      (sys.manager.put "auto" ((holeState selected false false generation request completed probe
        failures).finishExternalHealthProbe true).1,
        some ((holeState selected false false generation request completed probe failures).finishExternalHealthProbe true).2) := by
    rw [UrltestManager.completeSelection,found]
    have current : ((holeState selected true true generation request completed probe failures).generation != generation ||
        !(holeState selected true true generation request completed probe failures).selectionPending) = false := by
      change (generation != generation || false) = false
      simp
    simp only [current,Bool.false_eq_true,if_false]
    rfl
  refine ⟨((holeState selected false false generation request completed probe failures).finishExternalHealthProbe true).1,?_,?_,?_,
    congrArg Prod.fst result,?_⟩
  · intro apart
    have waits : (holeState selected false false generation request probe 0 0).externalPending = true := bne_iff_ne.mpr apart
    rw [UrltestState.finishExternalHealthProbe,settled]
    simp only [waits]
    rfl
  · exact congrArg SerialView.request (finishSerials (holeState selected false false generation request completed probe failures) true)
  · have serials := finishSerials (holeState selected false false generation request completed probe failures) true
    have done := congrArg SerialView.completed serials
    change _ = if probe ≠ 0 ∧ true = true then probe else completed at done
    rw [if_pos ⟨claimed,rfl⟩] at done
    exact done
  · change sys.log ++ UrltestSystem.completionEvents "auto" generation true
      (sys.manager.completeSelection "auto" generation true).2 = _
    rw [result]
    rfl

def Edgeless (sys : UrltestSystem) (action : UrltestAction) : Prop :=
  sys.Called action ∧ action.retires = false ∧ ∀ tag, action ≠ .edge tag

structure HoleAt (sys : UrltestSystem) (inflight pending : Bool) (generation : Nat) (request completed probe : UInt64) : Prop where
  found : ∃ failures, sys.manager.states "auto" = some (holeState "hole" inflight pending generation request completed probe failures)
  marks : sys.manager.marksGeneration = fun _ => none

theorem holeDefersRun (hole : HoleAt sys true false generation request completed probe)
    (issued : ⟨"auto",generation,[]⟩ ∈ sys.issued) (fresh : generation ∉ sys.committed) :
    ∃ after change, Runs.Run UrltestSystem.act Edgeless sys
        [.commit "auto" generation [] 0,.synchronizeIf "auto" generation "hole",.defer "auto" generation] after ∧
      HoleAt after true true generation request completed probe ∧ change ∈ after.waiting ∧ change.urltestTag = "auto" ∧
      after.manager.generation = sys.manager.generation ∧ after.log = sys.log := by
  obtain ⟨⟨failures,found⟩,marks⟩ := hole
  obtain ⟨committed,⟨change,changeTag,changeGeneration,waiting⟩,log⟩ := holeCommits found
  have foundCommitted : (sys.act (.commit "auto" generation [] 0)).manager.states "auto" =
      some (holeState "" true false generation request completed probe failures) := by
    rw [committed]
    exact UrltestManager.putSelf _ _ _
  have restored := holeRestores foundCommitted
  have foundRestored : ((sys.act (.commit "auto" generation [] 0)).act (.synchronizeIf "auto" generation "hole")).manager.states
      "auto" = some (holeState "hole" true false generation request completed probe failures) := by
    rw [restored]
    exact UrltestManager.putSelf _ _ _
  have deferred := holeDefers foundRestored
  have listed : change ∈ (sys.act (.commit "auto" generation [] 0)).waiting := by
    rw [waiting]
    exact List.mem_cons_self
  refine ⟨_,change,.step ⟨?_,rfl,nofun⟩
    (.step ⟨trivial,rfl,nofun⟩ (.step ⟨⟨change,listed,changeTag,changeGeneration⟩,rfl,nofun⟩ (.stop _))),
    ⟨⟨failures,?_⟩,?_⟩,listed,changeTag,?_,log⟩
  · exact ⟨_,issued,rfl,rfl,fresh,List.nodup_nil,fun _ => Iff.rfl⟩
  · rw [deferred]
    exact UrltestManager.putSelf _ _ _
  · rw [deferred]
    change ((sys.act (.commit "auto" generation [] 0)).act (.synchronizeIf "auto" generation "hole")).manager.marksGeneration = _
    rw [restored]
    change (sys.act (.commit "auto" generation [] 0)).manager.marksGeneration = _
    rw [committed]
    exact marks
  · rw [deferred]
    change ((sys.act (.commit "auto" generation [] 0)).act (.synchronizeIf "auto" generation "hole")).manager.generation = _
    rw [restored]
    change (sys.act (.commit "auto" generation [] 0)).manager.generation = _
    rw [committed]
    rfl

theorem holeCompletesRun (hole : HoleAt sys true true generation request completed probe) {change : UrltestSelectionChange}
    (waiting : change ∈ sys.waiting) (changeTag : change.urltestTag = "auto") (claimed : probe ≠ 0) :
    ∃ after, Runs.Run UrltestSystem.act Edgeless sys [.settle change true,.complete "auto" generation true] after ∧
      (request ≠ probe → HoleAt after false false generation request probe 0) ∧ requestOf after "auto" = request ∧
      completedOf after "auto" = probe ∧ after.manager.generation = sys.manager.generation ∧
      after.log = sys.log ++ [.completed "auto" generation] := by
  obtain ⟨⟨failures,found⟩,marks⟩ := hole
  obtain ⟨settled,settledLog⟩ := holeSettles found changeTag
  have foundSettled : (sys.act (.settle change true)).manager.states "auto" =
      some (holeState "hole" true true generation request completed probe failures) := by
    rw [settled]
    exact found
  obtain ⟨next,nextEq,nextRequest,nextCompleted,finished,log⟩ := holeCompletes foundSettled claimed
  have foundNext : ((sys.act (.settle change true)).act (.complete "auto" generation true)).manager.states "auto" = some next := by
    rw [finished]
    exact UrltestManager.putSelf _ _ _
  refine ⟨_,.step ⟨waiting,rfl,nofun⟩ (.step ⟨trivial,rfl,nofun⟩ (.stop _)),?_,?_,?_,?_,?_⟩
  · intro apart
    refine ⟨⟨0,by rw [foundNext,nextEq apart]⟩,?_⟩
    rw [finished,settled]
    exact marks
  · rw [requestOf,foundNext]
    exact nextRequest
  · rw [completedOf,foundNext]
    exact nextCompleted
  · rw [finished,settled]
    rfl
  · rw [log,settledLog]

structure Stage (n : Nat) (sys : UrltestSystem) : Prop where
  hole : ∃ generation, HoleAt sys false false generation (UInt64.ofNat (n + 1)) (UInt64.ofNat n) 0
  sound : SystemSound sys
  history : ∀ tag generation, .completed tag generation ∈ sys.log → generation < sys.manager.generation

theorem edgelessSound (s : UrltestSystem) (action : UrltestAction) (edgeless : Edgeless s action) (sound : SystemSound s) :
    SystemSound (s.act action) := stepSound s action edgeless.1 sound

theorem stageQueues {n : Nat} (stage : Stage n sys) :
    Edgeless sys (.queueProbe "auto" .manual 0) ∧
      HoleAt (sys.act (.queueProbe "auto" .manual 0)) true false sys.manager.generation (UInt64.ofNat (n + 1)) (UInt64.ofNat n)
        (UInt64.ofNat (n + 1)) ∧
      ⟨"auto",sys.manager.generation,[]⟩ ∈ (sys.act (.queueProbe "auto" .manual 0)).issued ∧
      sys.manager.generation ∉ (sys.act (.queueProbe "auto" .manual 0)).committed ∧
      (sys.act (.queueProbe "auto" .manual 0)).manager.generation = sys.manager.generation + 1 ∧
      (sys.act (.queueProbe "auto" .manual 0)).log = sys.log ++ [.claimed "auto" sys.manager.generation (UInt64.ofNat (n + 1))] := by
  obtain ⟨generation,⟨failures,found⟩,marks⟩ := stage.hole
  have apart : UInt64.ofNat (n + 1) ≠ UInt64.ofNat n := by
    intro same
    have equal := congrArg UInt64.toNat same
    rw [UInt64.toNat_ofNat',UInt64.toNat_ofNat'] at equal
    omega
  obtain ⟨queued,issued,log⟩ := holeQueues found marks apart
  refine ⟨⟨trivial,rfl,nofun⟩,⟨⟨failures,?_⟩,?_⟩,?_,?_,?_,log⟩
  · rw [queued]
    exact UrltestManager.putSelf sys.manager "auto" _
  · rw [queued]
    exact marks
  · rw [issued]
    exact List.mem_cons_self
  · exact fun listed => Nat.lt_irrefl _ (stage.sound.committed _ listed)
  · rw [queued]

theorem stageRound (n : Nat) (room : n < 2 ^ 64 - 2) (start : UrltestSystem) (stage : Stage n start) :
    ∃ actions after, Runs.Run UrltestSystem.act Edgeless start actions after ∧ Stage (n + 1) after := by
  obtain ⟨may,hole,issued,fresh,counter,log⟩ := stageQueues stage
  obtain ⟨deferred,change,deferRun,deferHole,waiting,changeTag,deferCounter,deferLog⟩ := holeDefersRun hole issued fresh
  obtain ⟨⟨failures,found⟩,marks⟩ := deferHole
  have value : (UInt64.ofNat (n + 1)).toNat = n + 1 := by
    rw [UInt64.toNat_ofNat']
    omega
  have below : UInt64.ofNat (n + 1) ≠ 0xFFFFFFFFFFFFFFFF := nextSerial (by omega)
  have claimed : UInt64.ofNat (n + 1) ≠ 0 := by
    intro zero
    rw [zero] at value
    change 0 = n + 1 at value
    omega
  obtain ⟨trailed,_,trailLog⟩ := holeTrails found below
  have successor : UInt64.ofNat (n + 1) + 1 = UInt64.ofNat (n + 1 + 1) := (UInt64.ofNat_add (n + 1) 1).symm
  rw [successor] at trailed
  have trailHole : HoleAt (deferred.act (.queueProbe "auto" .manual 0)) true true start.manager.generation
      (UInt64.ofNat (n + 1 + 1)) (UInt64.ofNat n) (UInt64.ofNat (n + 1)) := by
    refine ⟨⟨0,?_⟩,?_⟩
    · rw [trailed]
      exact UrltestManager.putSelf _ _ _
    · rw [trailed]
      exact marks
  obtain ⟨after,completeRun,completeHole,_,_,completeCounter,completeLog⟩ := holeCompletesRun trailHole waiting changeTag claimed
  have apart : UInt64.ofNat (n + 1 + 1) ≠ UInt64.ofNat (n + 1) := by
    intro same
    have equal := congrArg UInt64.toNat same
    rw [value,UInt64.toNat_ofNat'] at equal
    omega
  have trails : Edgeless deferred (.queueProbe "auto" .manual 0) := ⟨trivial,rfl,nofun⟩
  have run := Runs.Run.append (.step may deferRun) (.step trails completeRun)
  have final : after.manager.generation = start.manager.generation + 1 := by
    rw [completeCounter,trailed]
    change deferred.manager.generation = _
    rw [deferCounter,counter]
  refine ⟨_,after,run,⟨⟨start.manager.generation,completeHole apart⟩,run.keeps edgelessSound stage.sound,?_⟩⟩
  intro tag generation recorded
  rw [final]
  rw [completeLog,trailLog,deferLog,log,List.append_assoc] at recorded
  cases List.mem_append.mp recorded with
  | inl old => exact Nat.lt_succ_of_lt (stage.history tag generation old)
  | inr new =>
    simp only [List.cons_append,List.nil_append,List.mem_cons,List.not_mem_nil,or_false] at new
    cases new with
    | inl other => cases other
    | inr own =>
      cases own
      exact Nat.lt_succ_self _

end Hole

def UrltestAction.isEdge (tag : String) : UrltestAction → Bool
  | .edge own => own == tag
  | _ => false

theorem edgelessRun {start after : UrltestSystem} {actions : List UrltestAction}
    (run : Runs.Run UrltestSystem.act Edgeless start actions after) (tag : String) :
    Runs.Run UrltestSystem.act UrltestSystem.Called start actions after ∧ (∀ action ∈ actions, action.retires = false) ∧
      actions.countP (·.isEdge tag) = 0 := by
  induction run with
  | stop s => exact ⟨.stop s,fun _ mem => absurd mem List.not_mem_nil,rfl⟩
  | step allowed later ih =>
    obtain ⟨called,kept,none⟩ := ih
    refine ⟨.step allowed.1 called,?_,?_⟩
    · intro action mem
      cases List.mem_cons.mp mem with
      | inl same => exact same ▸ allowed.2.1
      | inr more => exact kept action more
    · rename_i action rest
      have quiet : action.isEdge tag = false := by
        cases action with
        | edge own => exact absurd rfl (allowed.2.2 own)
        | _ => rfl
      rw [List.countP_cons_of_neg (by simp [quiet]),none]

theorem holeValidated : ∃ inet cfg, validateConfig inet cfg = [] ∧ holeOutbound ∈ cfg.outboundList ∧ holeOutbound.type = .urltest :=
  ⟨silentInet,holeConfig,by decide,List.mem_cons_of_mem _ List.mem_cons_self,rfl⟩

def holeRegister : UrltestAction := .register holeOutbound "hole" (fun _ => none) 1

theorem holeStarts : Runs.Run UrltestSystem.act UrltestSystem.Called {} [holeRegister,.edge "auto"]
      ((UrltestSystem.act {} holeRegister).act (.edge "auto")) ∧
    Stage 0 ((UrltestSystem.act {} holeRegister).act (.edge "auto")) := by
  have run : Runs.Run UrltestSystem.act UrltestSystem.Called {} [holeRegister,.edge "auto"]
      ((UrltestSystem.act {} holeRegister).act (.edge "auto")) := .step holeValidated (.step trivial (.stop _))
  refine ⟨run,⟨0,⟨0,?_⟩,rfl⟩,run.keeps stepSound (startSound fun _ => none),?_⟩
  · rfl
  · intro tag generation recorded
    have log : ((UrltestSystem.act {} holeRegister).act (.edge "auto")).log = [.edge "auto" 1 1] := rfl
    rw [log] at recorded
    cases List.mem_singleton.mp recorded

def trailingActions : List UrltestAction :=
  [holeRegister,.queueProbe "auto" .initial 0,.edge "auto",.abandon "auto" 1 [],.queueProbe "auto" .externalHealth 1]

theorem trailingEdgeKept : (trailingActions.foldl UrltestSystem.act {}).log =
      [.claimed "auto" 1 0,.edge "auto" 1 2,.claimed "auto" 3 1] ∧
    EdgesKept (trailingActions.foldl UrltestSystem.act {}) "auto" :=
  ⟨by decide,(edgesKept (fun _ => none) "auto" trailingActions (by simp [trailingActions,holeRegister,UrltestAction.retires])
    (by decide)).1⟩

theorem holeCoalesces {sys : UrltestSystem} {generation : Nat} {completed : UInt64} (below : completed ≠ 0xFFFFFFFFFFFFFFFF)
    (hole : HoleAt sys true false generation 0xFFFFFFFFFFFFFFFF completed 0xFFFFFFFFFFFFFFFF) :
    HoleAt (sys.act (.edge "auto")) true false generation 0xFFFFFFFFFFFFFFFF completed 0xFFFFFFFFFFFFFFFF ∧
      (sys.act (.edge "auto")).manager.generation = sys.manager.generation ∧
      (sys.act (.edge "auto")).log = sys.log ++ [.edge "auto" 0xFFFFFFFFFFFFFFFF sys.manager.generation] := by
  obtain ⟨⟨failures,found⟩,marks⟩ := hole
  have recorded : UrltestManager.recordEdge
      (holeState "hole" true false generation 0xFFFFFFFFFFFFFFFF completed 0xFFFFFFFFFFFFFFFF failures) =
      holeState "hole" true false generation 0xFFFFFFFFFFFFFFFF completed 0xFFFFFFFFFFFFFFFF 0 := by
    have outstanding : ¬ ((holeState "hole" true false generation 0xFFFFFFFFFFFFFFFF completed 0xFFFFFFFFFFFFFFFF
          failures).externalHealthRequestSerial = 0xFFFFFFFFFFFFFFFF ∧
        (holeState "hole" true false generation 0xFFFFFFFFFFFFFFFF completed 0xFFFFFFFFFFFFFFFF
          failures).externalHealthCompletedSerial = (holeState "hole" true false generation 0xFFFFFFFFFFFFFFFF completed
          0xFFFFFFFFFFFFFFFF failures).externalHealthRequestSerial) := fun both => below both.2
    rw [UrltestManager.recordEdge,if_neg outstanding]
    rfl
  have manager : (sys.act (.edge "auto")).manager =
      sys.manager.put "auto" (holeState "hole" true false generation 0xFFFFFFFFFFFFFFFF completed 0xFFFFFFFFFFFFFFFF 0) := by
    change sys.manager.triggerExternalHealthTest "auto" = _
    rw [UrltestManager.triggerExternalHealthTest,found]
    dsimp only
    rw [recorded]
  refine ⟨⟨⟨0,?_⟩,?_⟩,?_,?_⟩
  · rw [manager]
    exact UrltestManager.putSelf _ _ _
  · rw [manager]
    exact marks
  · rw [manager]
    rfl
  · change sys.log ++ UrltestSystem.edgeEvents (sys.act (.edge "auto")).manager "auto" = _
    rw [manager,UrltestSystem.edgeEvents,UrltestManager.putSelf]
    rfl

/- One edge, every serial but the last used up by trailing requests, and the second edge falls into the
probe that had already claimed the last one. -/
theorem triggersOutrunSerial : ∃ actions sys, Runs.Run UrltestSystem.act UrltestSystem.Called {} actions sys ∧
    (∀ action ∈ actions, action.retires = false) ∧ actions.countP (·.isEdge "auto") < 2 ^ 64 - 1 ∧ ¬ EdgesKept sys "auto" := by
  obtain ⟨startRun,stageZero⟩ := holeStarts
  obtain ⟨rounds,full,roundsRun,stage⟩ := Runs.Run.rounds stageRound stageZero (Nat.le_refl (2 ^ 64 - 2))
  obtain ⟨roundsCalled,roundsKept,roundsEdgeless⟩ := edgelessRun roundsRun "auto"
  obtain ⟨may,hole,issued,fresh,counter,log⟩ := stageQueues stage
  have last : UInt64.ofNat (2 ^ 64 - 2 + 1) = 0xFFFFFFFFFFFFFFFF := rfl
  rw [last] at hole
  obtain ⟨coalesced,edgeCounter,edgeLog⟩ := holeCoalesces (by decide) hole
  obtain ⟨deferred,change,deferRun,deferHole,waiting,changeTag,deferCounter,deferLog⟩ := holeDefersRun coalesced issued fresh
  obtain ⟨after,completeRun,_,request,completed,_,completeLog⟩ := holeCompletesRun deferHole waiting changeTag (by decide)
  obtain ⟨tailCalled,tailKept,tailEdgeless⟩ := edgelessRun (deferRun.append completeRun) "auto"
  have edgeRun : Runs.Run UrltestSystem.act UrltestSystem.Called full
      (.queueProbe "auto" .manual 0 :: .edge "auto" :: _) after := .step may.1 (.step trivial tailCalled)
  refine ⟨_,after,startRun.append (roundsCalled.append edgeRun),?_,?_,?_⟩
  · rw [List.forall_mem_append,List.forall_mem_append,List.forall_mem_cons,List.forall_mem_cons,List.forall_mem_cons,
      List.forall_mem_cons]
    exact ⟨⟨rfl,rfl,fun _ mem => absurd mem List.not_mem_nil⟩,roundsKept,rfl,rfl,tailKept⟩
  · have first : [holeRegister,UrltestAction.edge "auto"].countP (·.isEdge "auto") = 1 := rfl
    have quiet : ¬ (UrltestAction.queueProbe "auto" .manual 0).isEdge "auto" = true := Bool.false_ne_true
    have second : (UrltestAction.edge "auto").isEdge "auto" = true := rfl
    rw [List.countP_append,List.countP_append,roundsEdgeless,first,List.countP_cons_of_neg quiet,List.countP_cons_of_pos second,
      tailEdgeless]
    decide
  · intro kept
    have recorded : HealthEvent.edge "auto" 0xFFFFFFFFFFFFFFFF (full.manager.generation + 1) ∈ after.log := by
      rw [completeLog,deferLog,edgeLog,counter]
      exact List.mem_append_left _ (List.mem_append_right _ List.mem_cons_self)
    have older : ∀ generation, HealthEvent.completed "auto" generation ∈ after.log → generation < full.manager.generation + 1 := by
      intro generation mem
      rw [completeLog,deferLog,edgeLog,log] at mem
      simp only [List.mem_append,List.mem_singleton,reduceCtorEq,or_false] at mem
      cases mem with
      | inl old => exact Nat.lt_succ_of_lt (stage.history "auto" generation old)
      | inr own =>
        cases own
        exact Nat.lt_succ_self _
    cases found : after.manager.states "auto" with
    | none =>
      rw [requestOf,found] at request
      exact absurd request (by decide)
    | some state =>
      cases kept _ _ recorded state found with
      | inl done =>
        obtain ⟨generation,later,mem⟩ := done
        exact absurd (older generation mem) (Nat.not_lt.mpr later)
      | inr apart =>
        rw [requestOf,found] at request
        rw [completedOf,found] at completed
        exact apart (request.trans completed.symm)

end KeenPbr
