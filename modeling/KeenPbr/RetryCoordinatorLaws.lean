import KeenPbr.RetryCoordinator
import Mathlib.Data.UInt

/-! What every interleaving of the coordinator's sections keeps: one claim is current, a foreign one
changes nothing, an observation stays pending until an operation that captured it succeeds, and the
trailing catalogue does not go back in generation. -/
namespace KeenPbr.RetryCoordinator
open Runs

section Following

theorem followingDiffers (n : UInt64) : following n ≠ n := by
  rw [following]
  split
  · rename_i wrapped
    intro same
    rw [← same] at wrapped
    cases wrapped
  · intro same
    have values := congrArg UInt64.toNat same
    rw [UInt64.toNat_add] at values
    have bound := n.toNat_lt
    simp at values
    omega

theorem followingValue {n : UInt64} (within : n.toNat + 1 < 2 ^ 64) : (following n).toNat = n.toNat + 1 := by
  have sum : (n + 1).toNat = n.toNat + 1 := by
    rw [UInt64.toNat_add]
    exact Nat.mod_eq_of_lt within
  rw [following,if_neg]
  · exact sum
  · intro wrapped
    rw [wrapped] at sum
    simp at sum

end Following

section Effects
variable {c : Coordinator}

structure SameSlot (c after : Coordinator) : Prop where
  serial : after.activeScheduleSerial = c.activeScheduleSerial
  phase : after.activeOperationPhase = c.activeOperationPhase
  revision : after.activeOperationRecoveryRevision = c.activeOperationRecoveryRevision

def Revises (c after : Coordinator) : Prop :=
  after.pendingRecoveryRevision = c.pendingRecoveryRevision ∨
    after.pendingRecoveryRevision = following c.pendingRecoveryRevision

theorem retainSlot (snatRecovery : OwnedSnatRecovery) : SameSlot c (retainRecoveryLocked c snatRecovery) := by
  rw [retainRecoveryLocked]
  split
  · exact ⟨rfl,rfl,rfl⟩
  · exact ⟨rfl,rfl,rfl⟩

theorem retainRequested (snatRecovery : OwnedSnatRecovery) :
    (retainRecoveryLocked c snatRecovery).pendingOwnedSnatRecovery.requested =
      (c.pendingOwnedSnatRecovery.requested || snatRecovery.requested) := by
  rw [retainRecoveryLocked]
  split
  · rename_i same
    exact congrArg OwnedSnatRecovery.requested same.symm
  · rfl

theorem retainRevises (snatRecovery : OwnedSnatRecovery) : Revises c (retainRecoveryLocked c snatRecovery) := by
  rw [retainRecoveryLocked]
  split
  · exact .inl rfl
  · exact .inr rfl

theorem admitSlot (retryAttempt : Nat) (preparedCatalog : Option PreparedCatalog) :
    SameSlot c (admitCatalog c retryAttempt preparedCatalog) := by
  rw [admitCatalog]
  split <;> exact ⟨rfl,rfl,rfl⟩

theorem admitRecovery (retryAttempt : Nat) (preparedCatalog : Option PreparedCatalog) :
    (admitCatalog c retryAttempt preparedCatalog).pendingOwnedSnatRecovery = c.pendingOwnedSnatRecovery ∧
    (admitCatalog c retryAttempt preparedCatalog).pendingRecoveryRevision = c.pendingRecoveryRevision := by
  rw [admitCatalog]
  split <;> exact ⟨rfl,rfl⟩

section Marking
variable (retryAttempt : Nat) (snatRecovery : OwnedSnatRecovery) (preparedCatalog : Option PreparedCatalog) (before : UInt64)

theorem markSlot : SameSlot c (markTrailing c retryAttempt snatRecovery preparedCatalog before) := by
  have slot := @admitSlot c retryAttempt preparedCatalog
  rw [markTrailing]
  split
  · split
    · exact ⟨slot.serial,slot.phase,slot.revision⟩
    · exact ⟨slot.serial,slot.phase,slot.revision⟩
  · exact slot

theorem markRecovery :
    (markTrailing c retryAttempt snatRecovery preparedCatalog before).pendingOwnedSnatRecovery = c.pendingOwnedSnatRecovery := by
  have recovery := (@admitRecovery c retryAttempt preparedCatalog).1
  rw [markTrailing]
  split
  · split
    · exact recovery
    · exact recovery
  · exact recovery

theorem markRevision :
    (markTrailing c retryAttempt snatRecovery preparedCatalog before).pendingRecoveryRevision =
      if trailsBehind c retryAttempt snatRecovery preparedCatalog = true ∧ snatRecovery.requested = true ∧
        c.pendingRecoveryRevision = before then
        following c.pendingRecoveryRevision
      else c.pendingRecoveryRevision := by
  have revision := (@admitRecovery c retryAttempt preparedCatalog).2
  rw [markTrailing]
  by_cases trails : trailsBehind c retryAttempt snatRecovery preparedCatalog = true
  · rw [if_pos trails]
    by_cases fresh : snatRecovery.requested = true ∧ c.pendingRecoveryRevision = before
    · rw [if_pos (by simp [fresh.1,fresh.2]),if_pos ⟨trails,fresh⟩]
      simp [advanceRecoveryRevision,revision]
    · rw [if_neg (by simpa using fresh),if_neg (fun all => fresh all.2)]
      exact revision
  · rw [if_neg trails,if_neg (fun all => trails all.1)]
    exact revision

end Marking

theorem beginRevises (retryAttempt : Nat) (snatRecovery : OwnedSnatRecovery) (preparedCatalog : Option PreparedCatalog) (fault : Fault) :
    Revises c (beginAttempt c retryAttempt snatRecovery preparedCatalog fault) := by
  have retained := @retainRevises c snatRecovery
  cases fault with
  | early => exact .inl rfl
  | late => exact retained
  | none =>
    rw [Revises,beginAttempt,markRevision]
    split
    · rename_i all
      rw [all.2.2]
      exact .inr rfl
    · exact retained

theorem beginNewer {snatRecovery : OwnedSnatRecovery} {preparedCatalog : Option PreparedCatalog} (requested : snatRecovery.requested = true)
    (busy : c.activeScheduleSerial ≠ 0) (captured : c.activeOperationPhase ≠ .timerPending) :
    (beginAttempt c 0 snatRecovery preparedCatalog .none).pendingRecoveryRevision = following c.pendingRecoveryRevision := by
  have slot := @retainSlot c snatRecovery
  have trails : trailsBehind (retainRecoveryLocked c snatRecovery) 0 snatRecovery preparedCatalog = true := by
    simp [trailsBehind,coalesces,slot.serial,slot.phase,busy,captured,requested]
  rw [beginAttempt,markRevision]
  rcases @retainRevises c snatRecovery with same | advanced
  · rw [if_pos ⟨trails,requested,same⟩,same]
  · rw [if_neg]
    · exact advanced
    · intro all
      exact followingDiffers _ (advanced.symm.trans all.2.2)

/- All that one section can do to the slot and the recovery. -/
inductive Effect (c : Coordinator) (next : Section) (after : Coordinator) : Prop where
  | keeps (slot : SameSlot c after) (pending : c.pendingOwnedSnatRecovery.requested = true →
    after.pendingOwnedSnatRecovery.requested = true)
      (revises : Revises c after) (told : next.told c = [])
  | observes (slot : SameSlot c after) (pending : after.pendingOwnedSnatRecovery.requested = true) (revises : Revises c after)
      (newer : c.activeScheduleSerial ≠ 0 → c.activeOperationPhase ≠ .timerPending →
        after.pendingRecoveryRevision = following c.pendingRecoveryRevision)
      (told : next.told c = [.observed])
  | clears (slot : SameSlot c after) (revises : Revises c after) (told : next.told c = [.cleared])
  | reserves (free : c.activeScheduleSerial = 0) (phase : after.activeOperationPhase = .timerPending)
      (revision : after.activeOperationRecoveryRevision = c.pendingRecoveryRevision)
      (pending : after.pendingOwnedSnatRecovery = c.pendingOwnedSnatRecovery)
      (same : after.pendingRecoveryRevision = c.pendingRecoveryRevision) (told : next.told c = [])
  | captures (serial : after.activeScheduleSerial = c.activeScheduleSerial)
      (busy : c.activeScheduleSerial ≠ 0) (revision : after.activeOperationRecoveryRevision = c.pendingRecoveryRevision)
      (pending : after.pendingOwnedSnatRecovery = c.pendingOwnedSnatRecovery)
      (same : after.pendingRecoveryRevision = c.pendingRecoveryRevision) (told : next.told c = [.captured c.activeScheduleSerial])
  | hands (serial : after.activeScheduleSerial = c.activeScheduleSerial) (busy : c.activeScheduleSerial ≠ 0)
      (phase : c.activeOperationPhase ≠ .timerPending)
      (revision : after.activeOperationRecoveryRevision = c.activeOperationRecoveryRevision)
      (pending : after.pendingOwnedSnatRecovery = c.pendingOwnedSnatRecovery)
      (same : after.pendingRecoveryRevision = c.pendingRecoveryRevision) (told : next.told c = [])
  | releases (serial : after.activeScheduleSerial = 0) (phase : after.activeOperationPhase = .timerPending)
      (revision : after.activeOperationRecoveryRevision = 0)
      (pending : c.pendingOwnedSnatRecovery.requested = true → after.pendingOwnedSnatRecovery.requested = true)
      (same : after.pendingRecoveryRevision = c.pendingRecoveryRevision) (told : ∀ event ∈ next.told c, ∃ serial, event = .completed serial)
  | succeeds (serial : after.activeScheduleSerial = 0) (phase : after.activeOperationPhase = .timerPending)
      (revision : after.activeOperationRecoveryRevision = 0) (busy : c.activeScheduleSerial ≠ 0)
      (captured : c.activeOperationPhase ≠ .timerPending) (latest : ¬c.activeOperationRecoveryRevision < c.pendingRecoveryRevision)
      (revises : Revises c after) (told : next.told c = [.completed c.activeScheduleSerial])

theorem keepsSame {next : Section} (told : next.told c = []) : Effect c next c :=
  .keeps ⟨rfl,rfl,rfl⟩ (fun requested => requested) (.inl rfl) told

theorem matchesActive {claim : Claim} (current : operationMatches c claim = true) :
    c.activeScheduleSerial ≠ 0 ∧ claim = ⟨c.activeScheduleSerial,c.activeOperationGeneration,c.activeOperationAttempt,
      c.activeOperationPhase,c.activeOperationRecoveryRevision⟩ := by
  cases claim
  simp only [operationMatches,Bool.and_eq_true,beq_iff_eq,decide_eq_true_eq,ne_eq] at current
  obtain ⟨⟨⟨⟨⟨busy,serial⟩,generation⟩,attempt⟩,phase⟩,revision⟩ := current
  subst serial generation attempt phase revision
  exact ⟨busy,rfl⟩

theorem authorized {claim : Claim} {phases : List Phase} (may : authorizes c claim phases = true) :
    c.activeScheduleSerial ≠ 0 ∧ claim = ⟨c.activeScheduleSerial,c.activeOperationGeneration,c.activeOperationAttempt,
      c.activeOperationPhase,c.activeOperationRecoveryRevision⟩ ∧ c.activeOperationPhase ∈ phases := by
  rw [authorizes,Bool.and_eq_true] at may
  obtain ⟨busy,same⟩ := matchesActive may.2
  refine ⟨busy,same,?_⟩
  have within := may.1
  rw [same] at within
  simpa using within

theorem releaseEffect {next : Section} (told : next.told c = []) : Effect c next (releaseRetrySlot c) :=
  .releases rfl rfl rfl (fun requested => requested) rfl (by simp [told])

theorem beginEffect (retryAttempt : Nat) (snatRecovery : OwnedSnatRecovery) (preparedCatalog : Option PreparedCatalog) (fault : Fault) :
    Effect c (.beginAttempt retryAttempt snatRecovery preparedCatalog fault)
      (beginAttempt c retryAttempt snatRecovery preparedCatalog fault) := by
  have revises := @beginRevises c retryAttempt snatRecovery preparedCatalog fault
  cases fault with
  | early => exact keepsSame (by simp [Section.told])
  | late => exact .keeps (retainSlot snatRecovery) (fun requested => by simp [beginAttempt,retainRequested,requested]) revises (by
    simp [Section.told])
  | none =>
    have retained := @retainSlot c snatRecovery
    have marked := @markSlot (retainRecoveryLocked c snatRecovery) retryAttempt snatRecovery preparedCatalog c.pendingRecoveryRevision
    have slot : SameSlot c (beginAttempt c retryAttempt snatRecovery preparedCatalog .none) :=
      ⟨marked.serial.trans retained.serial,marked.phase.trans retained.phase,marked.revision.trans retained.revision⟩
    have pending : (beginAttempt c retryAttempt snatRecovery preparedCatalog .none).pendingOwnedSnatRecovery.requested =
        (c.pendingOwnedSnatRecovery.requested || snatRecovery.requested) := by
      rw [beginAttempt,markRecovery,retainRequested]
    by_cases observes : retryAttempt = 0 ∧ snatRecovery.requested = true
    · obtain ⟨rfl,requested⟩ := observes
      exact .observes slot (by simp [pending,requested]) revises (beginNewer requested) (by simp [Section.told,requested])
    · exact .keeps slot (fun requested => by simp [pending,requested]) revises (if_neg fun all => observes ⟨all.1,all.2.1⟩)

theorem completeEffect (claim : Claim) (succeeded : Bool) (processed : OwnedSnatRecovery) (empty : Bool) (fault : Fault) :
    Effect c (.completeOperationWith claim succeeded processed empty fault)
      (completeOperationWith c claim succeeded processed empty fault) := by
  rw [completeOperationWith]
  split
  · rename_i done
    have may : authorizes c claim [.controlPending] = true := by
      cases fault with
      | none => exact (Bool.and_eq_true_iff.mp done).2
      | early | late => cases done
    obtain ⟨busy,same,phase⟩ := authorized may
    have captured : c.activeOperationPhase ≠ .timerPending := by simp_all
    by_cases clears : clearsCompleted c claim succeeded processed = true
    · rw [publishCompleted,if_pos clears]
      simp only [clearsCompleted,Bool.and_eq_true,Bool.not_eq_true',decide_eq_false_iff_not] at clears
      refine .succeeds rfl rfl rfl busy captured ?_ (.inr rfl) ?_
      · rw [same] at clears
        exact clears.2
      · simp only [Section.told,done,clears.1.1,Bool.and_self,if_true]
        rw [same]
    · rw [publishCompleted,if_neg clears]
      refine .releases rfl rfl rfl ?_ rfl ?_
      · intro requested
        simp [releaseRetrySlot,completedRecovery,clears,mergeOwnedSnatRecovery,requested]
      · intro event mem
        simp only [Section.told] at mem
        split at mem
        · exact ⟨_,List.mem_singleton.mp mem⟩
        · cases mem
  · rename_i refused
    exact keepsSame (by simp [Section.told,refused])

theorem sectionEffect (next : Section) : Effect c next (next.run c) := by
  cases next with
  | beginAttempt retryAttempt snatRecovery preparedCatalog fault => exact beginEffect retryAttempt snatRecovery preparedCatalog fault
  | retainRecovery snatRecovery fault =>
    have retained : Effect c (.retainRecovery snatRecovery fault) (retainRecoveryLocked c snatRecovery) :=
      .keeps (retainSlot snatRecovery) (fun requested => by simp [retainRequested,requested]) (retainRevises snatRecovery) rfl
    cases fault with
    | early => exact keepsSame rfl
    | none | late => exact retained
  | clearOwnedSnatRecovery =>
    simp only [Section.run,clearOwnedSnatRecovery]
    split
    · exact .clears ⟨rfl,rfl,rfl⟩ (.inl rfl) rfl
    · exact .clears ⟨rfl,rfl,rfl⟩ (.inr rfl) rfl
  | reserveRetrySlot generation attempt preparedCatalog accept retain =>
    simp only [Section.run,reserveRetrySlot]
    split
    · exact keepsSame rfl
    · rename_i free
      exact .reserves (not_not.mp free) rfl rfl rfl rfl rfl
  | beginQueuedOperation claim fault =>
    simp only [Section.run,beginQueuedOperation]
    split
    · rename_i fired
      have may : authorizes c claim [.timerPending] = true := by
        cases fault with
        | none => exact fired
        | early | late => cases fired
      obtain ⟨busy,same,-⟩ := authorized may
      refine .captures rfl busy rfl rfl rfl ?_
      simp only [Section.told,fired,if_true]
      rw [same]
    · rename_i refused
      exact keepsSame (if_neg refused)
  | registerTimerTask claim taskId =>
    simp only [Section.run,registerTimerTask]
    split
    · exact .keeps ⟨rfl,rfl,rfl⟩ (fun requested => requested) (.inl rfl) rfl
    · exact keepsSame rfl
  | beginWorker claim =>
    simp only [Section.run,beginWorker]
    split
    · rename_i may
      obtain ⟨busy,-,phase⟩ := authorized may
      exact .hands rfl busy (by simp_all) rfl rfl rfl rfl
    · exact keepsSame rfl
  | beginControl claim empty =>
    simp only [Section.run,beginControl]
    split
    · rename_i may
      rw [Bool.and_eq_true] at may
      obtain ⟨busy,-,phase⟩ := authorized may.2
      exact .hands rfl busy (by simp_all) rfl rfl rfl rfl
    · exact keepsSame rfl
  | completeOperation claim empty fault =>
    simp only [Section.run,completeOperation]
    split
    · exact releaseEffect rfl
    · exact keepsSame rfl
  | completeOperationWith claim succeeded processed empty fault => exact completeEffect claim succeeded processed empty fault
  | terminateOperation claim =>
    simp only [Section.run,terminateOperation]
    split
    · exact releaseEffect rfl
    · exact keepsSame rfl
  | cancelOperation claim =>
    simp only [Section.run,cancelOperation]
    split
    · exact releaseEffect rfl
    · exact keepsSame rfl
  | cancelTimer =>
    simp only [Section.run,cancelTimer]
    split
    · exact keepsSame rfl
    · exact .releases rfl rfl rfl (fun requested => requested) rfl (by simp [Section.told])

end Effects
section Journal

def capturedAfter (last : Option UInt64) : Event → Option UInt64
  | .captured serial => some serial
  | _ => last

def lastCaptured (journal : List Event) : Option UInt64 := journal.foldl capturedAfter none

/- After the observation the recovery was cleared, or an operation captured its worker input and
completed with success, no other capture in between. -/
def Discharged (later : List Event) : Prop :=
  .cleared ∈ later ∨
    ∃ before middle rest serial, later = before ++ Event.captured serial :: (middle ++ Event.completed serial :: rest) ∧
      ∀ other, .captured other ∉ middle

theorem Discharged.more {later more : List Event} (done : Discharged later) : Discharged (later ++ more) := by
  rcases done with cleared | ⟨before,middle,rest,serial,same,alone⟩
  · exact .inl (List.mem_append_left _ cleared)
  · refine .inr ⟨before,middle,rest ++ more,serial,?_,alone⟩
    rw [same]
    simp

theorem lastKept {events : List Event} (alone : ∀ other, .captured other ∉ events) (last : Option UInt64) :
    events.foldl capturedAfter last = last := by
  induction events generalizing last with
  | nil => rfl
  | cons event rest ih =>
    have here : capturedAfter last event = last := by
      cases event with
      | captured serial => exact absurd (List.mem_cons_self ..) (alone serial)
      | _ => rfl
    rw [List.foldl_cons,here]
    exact ih (fun other mem => alone other (List.mem_cons_of_mem _ mem)) last

theorem lastIn {later : List Event} (some_ : ∃ serial, .captured serial ∈ later) :
    ∃ before middle serial, later = before ++ .captured serial :: middle ∧ ∀ other, .captured other ∉ middle := by
  induction later with
  | nil =>
    obtain ⟨serial,mem⟩ := some_
    cases mem
  | cons event rest ih =>
    by_cases inside : ∃ serial, .captured serial ∈ rest
    · obtain ⟨before,middle,serial,same,alone⟩ := ih inside
      exact ⟨event :: before,middle,serial,by rw [same]; rfl,alone⟩
    · obtain ⟨serial,mem⟩ := some_
      rcases List.mem_cons.mp mem with here | there
      · exact ⟨[],rest,serial,by rw [here]; rfl,fun other mem => inside ⟨other,mem⟩⟩
      · exact absurd ⟨serial,there⟩ inside

theorem dischargedBy {before later : List Event} {event : Event} {serial : UInt64} (some_ : ∃ other, .captured other ∈ later)
    (last : lastCaptured (before ++ event :: later) = some serial) : Discharged (later ++ [.completed serial]) := by
  obtain ⟨first,middle,other,rfl,alone⟩ := lastIn some_
  rw [lastCaptured,List.foldl_append,List.foldl_cons,List.foldl_append,List.foldl_cons,lastKept alone] at last
  cases last
  exact .inr ⟨first,middle,[],serial,by simp,alone⟩

theorem splitAppend {α : Type} {before later journal events : List α} {middle : α} (same : journal ++ events = before ++ middle :: later) :
    (∃ rest, journal = before ++ middle :: rest ∧ later = rest ++ events) ∨ ∃ first, events = first ++ middle :: later := by
  rcases List.append_eq_append_iff.mp same with ⟨first,-,here⟩ | ⟨rest,there,here⟩
  · exact .inr ⟨first,here⟩
  · cases rest with
    | nil => exact .inr ⟨[],here.symm⟩
    | cons head rest =>
      cases here
      exact .inl ⟨rest,there,rfl⟩

end Journal

section Invariant
variable {w : World}

def revisions (journal : List Event) : Nat := journal.count .revised

/- An observation whose journal goes on with `later` is discharged, or pending and not in the input of an operation under way
unless that was captured later. -/
def Awaits (c : Coordinator) (later : List Event) : Prop :=
  c.pendingOwnedSnatRecovery.requested = true ∧
    (c.activeScheduleSerial ≠ 0 → c.activeOperationPhase ≠ .timerPending →
      (∃ serial, .captured serial ∈ later) ∨ c.activeOperationRecoveryRevision < c.pendingRecoveryRevision)

structure Sound (c : Coordinator) (journal : List Event) : Prop where
  last : c.activeScheduleSerial ≠ 0 → c.activeOperationPhase ≠ .timerPending → lastCaptured journal = some c.activeScheduleSerial
  idle : c.activeScheduleSerial = 0 → c.activeOperationPhase = .timerPending
  counted : revisions journal < 2 ^ 64 → c.pendingRecoveryRevision.toNat = revisions journal
  older : revisions journal < 2 ^ 64 → c.activeOperationRecoveryRevision ≤ c.pendingRecoveryRevision
  observed : revisions journal < 2 ^ 64 → ∀ before later, journal = before ++ .observed :: later → Discharged later ∨ Awaits c later

section Step
variable {c : Coordinator} {journal : List Event} {next : Section}

theorem effectRevises (effect : Effect c next (next.run c)) : Revises c (next.run c) := by
  cases effect with
  | keeps _ _ revises | observes _ _ revises | clears _ revises | succeeds _ _ _ _ _ _ revises => exact revises
  | reserves _ _ _ _ same | captures _ _ _ _ same | hands _ _ _ _ _ same | releases _ _ _ _ same => exact .inl same

theorem toldPlain : .revised ∉ next.told c := by
  cases next <;> simp only [Section.told] <;> first | exact List.not_mem_nil | simp

theorem memEvents {event : Event} (mem : event ∈ next.events c) : event ∈ next.told c ∨ event = .revised ∨ event = .released := by
  simp only [Section.events,List.mem_append] at mem
  rcases mem with (told | revised) | released
  · exact .inl told
  · split at revised
    · exact .inr (.inl (List.mem_singleton.mp revised))
    · cases revised
  · split at released
    · exact .inr (.inr (List.mem_singleton.mp released))
    · cases released

theorem revisionsStep : revisions (journal ++ next.events c) =
    revisions journal + if (next.run c).pendingRecoveryRevision ≠ c.pendingRecoveryRevision then 1 else 0 := by
  have told : (next.told c).count .revised = 0 := List.count_eq_zero.mpr toldPlain
  have released : (if c.activeScheduleSerial ≠ 0 ∧ (next.run c).activeScheduleSerial = 0 then [Event.released]
    else []).count .revised = 0 := by
    split <;> rfl
  rw [revisions,Section.events,List.count_append,List.count_append,List.count_append,told,released]
  split <;> simp [revisions]

theorem lastEvents (alone : ∀ other, .captured other ∉ next.told c) : lastCaptured (journal ++ next.events c) = lastCaptured journal := by
  rw [lastCaptured,List.foldl_append]
  refine lastKept (fun other mem => ?_) _
  rcases memEvents mem with told | revised | released
  · exact alone other told
  · cases revised
  · cases released

variable (sound : Sound c journal) (effect : Effect c next (next.run c))
include sound effect

theorem countedStep (few : revisions (journal ++ next.events c) < 2 ^ 64) :
    (next.run c).pendingRecoveryRevision.toNat = revisions (journal ++ next.events c) := by
  rw [revisionsStep] at few ⊢
  have before := sound.counted (by omega)
  rcases effectRevises effect with same | advanced
  · rw [same,before]
    simp
  · have differs : (next.run c).pendingRecoveryRevision ≠ c.pendingRecoveryRevision := by
      rw [advanced]
      exact followingDiffers _
    rw [if_pos differs] at few ⊢
    rw [advanced,followingValue (by omega),before]

theorem revisionGrows (few : revisions (journal ++ next.events c) < 2 ^ 64) :
    c.pendingRecoveryRevision ≤ (next.run c).pendingRecoveryRevision := by
  have after := countedStep sound effect few
  rw [revisionsStep] at few after
  have before := sound.counted (by omega)
  rw [UInt64.le_iff_toNat_le]
  omega

theorem olderStep (few : revisions (journal ++ next.events c) < 2 ^ 64) :
    (next.run c).activeOperationRecoveryRevision ≤ (next.run c).pendingRecoveryRevision := by
  have grows := revisionGrows sound effect few
  have before : c.activeOperationRecoveryRevision ≤ c.pendingRecoveryRevision := by
    refine sound.older ?_
    rw [revisionsStep] at few
    omega
  cases effect with
  | keeps slot | observes slot | clears slot =>
    rw [slot.revision]
    exact UInt64.le_trans before grows
  | reserves _ _ revision _ same | captures _ _ revision _ same =>
    rw [revision,same]
    exact UInt64.le_refl _
  | hands _ _ _ revision =>
    rw [revision]
    exact UInt64.le_trans before grows
  | releases _ _ revision | succeeds _ _ revision =>
    rw [revision,UInt64.le_iff_toNat_le]
    exact Nat.zero_le _

theorem lastStep (busy : (next.run c).activeScheduleSerial ≠ 0) (captured : (next.run c).activeOperationPhase ≠ .timerPending) :
    lastCaptured (journal ++ next.events c) = some (next.run c).activeScheduleSerial := by
  cases effect with
  | keeps slot _ _ told =>
    rw [slot.serial] at busy ⊢
    rw [slot.phase] at captured
    rw [lastEvents (by simp [told])]
    exact sound.last busy captured
  | observes slot _ _ _ told | clears slot _ told =>
    rw [slot.serial] at busy ⊢
    rw [slot.phase] at captured
    rw [lastEvents (by simp [told])]
    exact sound.last busy captured
  | reserves _ phase => exact absurd phase captured
  | captures serial _ _ _ _ told =>
    rw [serial,Section.events,told,lastCaptured,List.foldl_append,List.foldl_append,List.foldl_append]
    have quiet {condition : Prop} [Decidable condition] {event : Event} (plain : ∀ other, event ≠ .captured other) (last : Option UInt64) :
        (if condition then [event] else []).foldl capturedAfter last = last := by
      refine lastKept (fun other mem => ?_) last
      split at mem
      · exact plain other (List.mem_singleton.mp mem).symm
      · cases mem
    rw [quiet (by simp),quiet (by simp)]
    rfl
  | hands serial old phase _ _ _ told =>
    rw [serial,lastEvents (by simp [told])]
    exact sound.last old phase
  | releases serial | succeeds serial => exact absurd serial busy

theorem idleStep (free : (next.run c).activeScheduleSerial = 0) : (next.run c).activeOperationPhase = .timerPending := by
  cases effect with
  | keeps slot | observes slot | clears slot =>
    rw [slot.phase]
    exact sound.idle (slot.serial.symm.trans free)
  | reserves _ phase | releases _ phase | succeeds _ phase => exact phase
  | captures serial busy | hands serial busy => exact absurd (serial.symm.trans free) busy

theorem awaitsStep (few : revisions (journal ++ next.events c) < 2 ^ 64) {before rest : List Event}
    (split_ : journal = before ++ .observed :: rest) (awaits : Awaits c rest) :
    Discharged (rest ++ next.events c) ∨ Awaits (next.run c) (rest ++ next.events c) := by
  have grows := revisionGrows sound effect few
  have still (serial : (next.run c).activeScheduleSerial = c.activeScheduleSerial)
      (phase : (next.run c).activeOperationPhase ≠ .timerPending → c.activeOperationPhase ≠ .timerPending)
      (revision : (next.run c).activeOperationRecoveryRevision = c.activeOperationRecoveryRevision)
      (pending : (next.run c).pendingOwnedSnatRecovery.requested = true) : Awaits (next.run c) (rest ++ next.events c) := by
    refine ⟨pending,fun busy captured => ?_⟩
    rw [serial] at busy
    rw [revision]
    rcases awaits.2 busy (phase captured) with ⟨other,mem⟩ | older
    · exact .inl ⟨other,List.mem_append_left _ mem⟩
    · exact .inr (UInt64.lt_of_lt_of_le older grows)
  cases effect with
  | keeps slot pending => exact .inr (still slot.serial (fun captured => slot.phase ▸ captured) slot.revision (pending awaits.1))
  | observes slot pending => exact .inr (still slot.serial (fun captured => slot.phase ▸ captured) slot.revision pending)
  | clears slot _ told =>
    refine .inl (.inl (List.mem_append_right _ ?_))
    simp [Section.events,told]
  | reserves _ phase _ pending => exact .inr ⟨by rw [pending]; exact awaits.1,fun _ captured => absurd phase captured⟩
  | captures _ _ _ pending _ told =>
    refine .inr ⟨by rw [pending]; exact awaits.1,fun _ _ => .inl ⟨c.activeScheduleSerial,List.mem_append_right _ ?_⟩⟩
    simp [Section.events,told]
  | hands serial _ phase revision pending =>
    exact .inr (still serial (fun _ => phase) revision (by rw [pending]; exact awaits.1))
  | releases serial _ _ pending => exact .inr ⟨pending awaits.1,fun busy => absurd serial busy⟩
  | succeeds _ _ _ busy captured latest _ told =>
    -- the operation captured the observation, or its revision would be behind
    rcases awaits.2 busy captured with some_ | older
    · have last := sound.last busy captured
      rw [split_] at last
      rw [Section.events,told,List.append_assoc,← List.append_assoc rest]
      exact .inl (dischargedBy some_ last).more
    · exact absurd older latest

theorem awaitsNew (few : revisions (journal ++ next.events c) < 2 ^ 64) (mem : .observed ∈ next.events c) (later : List Event) :
    Awaits (next.run c) later := by
  have told : .observed ∈ next.told c := by
    rcases memEvents mem with told | revised | released
    · exact told
    · cases revised
    · cases released
  have within : revisions journal < 2 ^ 64 := by
    rw [revisionsStep] at few
    omega
  cases effect with
  | observes slot pending _ newer =>
    refine ⟨pending,fun busy captured => .inr ?_⟩
    rw [slot.serial] at busy
    rw [slot.phase] at captured
    have advanced := newer busy captured
    have counted := countedStep sound (sectionEffect next) few
    have differs : (next.run c).pendingRecoveryRevision ≠ c.pendingRecoveryRevision := by
      rw [advanced]
      exact followingDiffers _
    rw [revisionsStep,if_pos differs] at counted
    have before := sound.counted within
    have older := sound.older within
    rw [slot.revision,UInt64.lt_iff_toNat_lt]
    rw [UInt64.le_iff_toNat_le] at older
    omega
  | keeps _ _ _ empty | reserves _ _ _ _ _ empty | hands _ _ _ _ _ _ empty =>
    rw [empty] at told
    cases told
  | clears _ _ only | captures _ _ _ _ _ only | succeeds _ _ _ _ _ _ _ only =>
    rw [only,List.mem_singleton] at told
    cases told
  | releases _ _ _ _ _ only =>
    obtain ⟨serial,same⟩ := only _ told
    cases same

theorem soundSection : Sound (next.run c) (journal ++ next.events c) where
  last := lastStep sound effect
  idle := idleStep sound effect
  counted := countedStep sound effect
  older := olderStep sound effect
  observed := by
    intro few before later split_
    rcases splitAppend split_ with ⟨rest,there,rfl⟩ | ⟨first,here⟩
    · have within : revisions journal < 2 ^ 64 := by
        rw [revisionsStep] at few
        omega
      rcases sound.observed within before rest there with done | awaits
      · exact .inl done.more
      · exact awaitsStep sound effect few there awaits
    · refine .inr (awaitsNew sound effect few ?_ later)
      rw [here]
      exact List.mem_append_right _ (List.mem_cons_self ..)

end Step

theorem performSound (sound : Sound w.coordinator w.journal) (next : Option Section) :
    Sound (w.perform next).coordinator (w.perform next).journal := by
  cases next with
  | none => exact sound
  | some next => exact soundSection sound (sectionEffect next)

theorem actSound (a : Act) (sound : Sound w.coordinator w.journal) : Sound (act w a).coordinator (act w a).journal := by
  cases a with
  | call next => exact sound
  | advance i fault reply =>
    simp only [act]
    split
    · exact sound
    · exact performSound sound _

theorem soundInitial : Sound {} [] where
  last := fun busy => absurd rfl busy
  idle := fun _ => rfl
  counted := fun _ => rfl
  older := fun _ => UInt64.le_refl _
  observed := by
    intro _ before later same
    simp at same

end Invariant

section Trailing

/- The trailing catalogue of the second is at least as new as that of the first. -/
def NotOlder (c after : Coordinator) : Prop :=
  ∀ old, c.trailingPreparedCatalog = some old → ∃ new, after.trailingPreparedCatalog = some new ∧
    old.runtimeGeneration ≤ new.runtimeGeneration

theorem notOlderSame {c after : Coordinator} (same : after.trailingPreparedCatalog = c.trailingPreparedCatalog) : NotOlder c after :=
  fun old found => ⟨old,same.trans found,UInt64.le_refl _⟩

theorem admitNotOlder {c : Coordinator} (retryAttempt : Nat) (preparedCatalog : Option PreparedCatalog) :
    NotOlder c (admitCatalog c retryAttempt preparedCatalog) := by
  rw [admitCatalog]
  split
  · exact notOlderSame rfl
  · rename_i fate
    intro old found
    cases preparedCatalog with
    | none => cases fate
    | some catalog =>
      refine ⟨catalog,rfl,?_⟩
      simp only [fateOf,catalogFate] at fate
      split at fate
      · split at fate
        · cases fate
        · split at fate
          · rename_i newer
            rw [retainedGeneration,found] at newer
            exact newer
          · cases fate
      · cases fate
  · exact notOlderSame rfl

theorem markNotOlder {c : Coordinator} (retryAttempt : Nat) (snatRecovery : OwnedSnatRecovery) (preparedCatalog : Option PreparedCatalog)
    (before : UInt64) : NotOlder c (markTrailing c retryAttempt snatRecovery preparedCatalog before) := by
  have admitted := @admitNotOlder c retryAttempt preparedCatalog
  rw [markTrailing]
  split
  · split
    · exact admitted
    · exact admitted
  · exact admitted

theorem retainTrailing {c : Coordinator} (snatRecovery : OwnedSnatRecovery) :
    (retainRecoveryLocked c snatRecovery).trailingPreparedCatalog = c.trailingPreparedCatalog := by
  rw [retainRecoveryLocked]
  split <;> rfl

theorem sectionTrailing {c : Coordinator} (next : Section) :
    NotOlder c (next.run c) ∨ c.activeScheduleSerial ≠ 0 ∧ (next.run c).activeScheduleSerial = 0 := by
  have released {claim : Claim} {phases : List Phase} (may : authorizes c claim phases = true) (after : Coordinator) :
      NotOlder c (releaseRetrySlot after) ∨ c.activeScheduleSerial ≠ 0 ∧ (releaseRetrySlot after).activeScheduleSerial = 0 :=
    .inr ⟨(authorized may).1,rfl⟩
  have completed {claim : Claim} {empty : Bool} {fault : Fault} (done : completes c claim empty fault = true) :
      authorizes c claim [.controlPending] = true := by
    cases fault with
    | none => exact (Bool.and_eq_true_iff.mp done).2
    | early | late => cases done
  cases next with
  | beginAttempt retryAttempt snatRecovery preparedCatalog fault =>
    cases fault with
    | early => exact .inl (notOlderSame rfl)
    | late => exact .inl (notOlderSame (retainTrailing snatRecovery))
    | none =>
      refine .inl (fun old found => ?_)
      exact markNotOlder _ _ _ _ old ((retainTrailing snatRecovery).trans found)
  | retainRecovery snatRecovery fault =>
    cases fault with
    | early => exact .inl (notOlderSame rfl)
    | none | late => exact .inl (notOlderSame (retainTrailing snatRecovery))
  | clearOwnedSnatRecovery =>
    simp only [Section.run,clearOwnedSnatRecovery]
    split <;> exact .inl (notOlderSame rfl)
  | reserveRetrySlot generation attempt preparedCatalog accept retain =>
    simp only [Section.run,reserveRetrySlot]
    split <;> exact .inl (notOlderSame rfl)
  | beginQueuedOperation claim fault =>
    simp only [Section.run,beginQueuedOperation]
    split <;> exact .inl (notOlderSame rfl)
  | registerTimerTask claim taskId =>
    simp only [Section.run,registerTimerTask]
    split <;> exact .inl (notOlderSame rfl)
  | beginWorker claim =>
    simp only [Section.run,beginWorker]
    split <;> exact .inl (notOlderSame rfl)
  | beginControl claim empty =>
    simp only [Section.run,beginControl]
    split <;> exact .inl (notOlderSame rfl)
  | completeOperation claim empty fault =>
    simp only [Section.run,completeOperation]
    split
    · rename_i done
      exact released (completed done) c
    · exact .inl (notOlderSame rfl)
  | completeOperationWith claim succeeded processed empty fault =>
    simp only [Section.run,completeOperationWith]
    split
    · rename_i done
      exact released (completed done) _
    · exact .inl (notOlderSame rfl)
  | terminateOperation claim =>
    simp only [Section.run,terminateOperation]
    split
    · rename_i may
      exact released may c
    · exact .inl (notOlderSame rfl)
  | cancelOperation claim =>
    simp only [Section.run,cancelOperation]
    split
    · rename_i may
      exact released may c
    · exact .inl (notOlderSame rfl)
  | cancelTimer =>
    simp only [Section.run,cancelTimer]
    split
    · exact .inl (notOlderSame rfl)
    · rename_i pending
      simp only [Bool.or_eq_true,decide_eq_true_eq,not_or] at pending
      exact .inr ⟨pending.1,rfl⟩

def Trails (w after : World) : Prop :=
  ∃ added, after.journal = w.journal ++ added ∧ (.released ∉ added → NotOlder w.coordinator after.coordinator)

theorem trailsRefl (w : World) : Trails w w := ⟨[],by simp,fun _ => notOlderSame rfl⟩

theorem Trails.trans {w middle after : World} (first : Trails w middle) (second : Trails middle after) : Trails w after := by
  obtain ⟨added,journal,kept⟩ := first
  obtain ⟨added',journal',kept'⟩ := second
  refine ⟨added ++ added',by rw [journal',journal,List.append_assoc],fun alone old found => ?_⟩
  rw [List.mem_append,not_or] at alone
  obtain ⟨new,there,le⟩ := kept alone.1 old found
  obtain ⟨newer,here,le'⟩ := kept' alone.2 new there
  exact ⟨newer,here,UInt64.le_trans le le'⟩

theorem performTrails {w : World} (next : Option Section) : Trails w (w.perform next) := by
  cases next with
  | none => exact trailsRefl w
  | some next =>
    refine ⟨next.events w.coordinator,rfl,fun alone => ?_⟩
    rcases @sectionTrailing w.coordinator next with kept | gone
    · exact kept
    · exact absurd (List.mem_append_right _ (by rw [if_pos gone]; exact List.mem_singleton.mpr rfl)) alone

theorem actTrails {w : World} (a : Act) : Trails w (act w a) := by
  cases a with
  | call next => exact trailsRefl w
  | advance i fault reply =>
    simp only [act]
    split
    · exact trailsRefl w
    · exact performTrails _

theorem runTrails {w : World} (acts : List Act) : Trails w (acts.foldl act w) := by
  induction acts generalizing w with
  | nil => exact trailsRefl w
  | cons a rest ih => exact (actTrails a).trans ih

end Trailing

section Laws

def Section.claim : Section → Option (Claim × List Phase)
  | .beginQueuedOperation claim _ => some (claim,[.timerPending])
  | .registerTimerTask claim _ => some (claim,[.timerPending,.workerQueued,.workerRunning,.controlPending])
  | .beginWorker claim => some (claim,[.workerQueued])
  | .beginControl claim _ => some (claim,[.workerRunning])
  | .completeOperation claim _ _ | .completeOperationWith claim _ _ _ _ => some (claim,[.controlPending])
  | .terminateOperation claim | .cancelOperation claim => some (claim,[.timerPending,.workerQueued])
  | _ => none

theorem foreignKeeps {c : Coordinator} {next : Section} {claim : Claim} {phases : List Phase} (opened : next.claim = some (claim,phases))
    (foreign : authorizes c claim phases = false) : next.run c = c := by
  cases next with
  | beginQueuedOperation k fault =>
    cases opened
    cases fault <;> simp [Section.run,beginQueuedOperation,fires,foreign]
  | registerTimerTask k taskId =>
    cases opened
    have matches_ : operationMatches c claim = false := by
      rw [authorizes] at foreign
      cases phase : claim.phase <;> simpa [phase] using foreign
    simp [Section.run,registerTimerTask,registration,matches_]
  | beginWorker k =>
    cases opened
    simp [Section.run,beginWorker,foreign]
  | beginControl k empty =>
    cases opened
    simp [Section.run,beginControl,foreign]
  | completeOperation k empty fault =>
    cases opened
    cases fault <;> simp [Section.run,completeOperation,completes,foreign]
  | completeOperationWith k succeeded processed empty fault =>
    cases opened
    cases fault <;> simp [Section.run,completeOperationWith,completes,foreign]
  | terminateOperation k =>
    cases opened
    simp [Section.run,terminateOperation,foreign]
  | cancelOperation k =>
    cases opened
    simp [Section.run,cancelOperation,foreign]
  | _ => cases opened

def World.after (acts : List Act) : World := acts.foldl act {}

theorem soundAfter (acts : List Act) : Sound (World.after acts).coordinator (World.after acts).journal := by
  have run {w : World} (sound : Sound w.coordinator w.journal) : Sound (acts.foldl act w).coordinator (acts.foldl act w).journal := by
    induction acts generalizing w with
    | nil => exact sound
    | cons a rest ih => exact ih (actSound a sound)
  exact run soundInitial

theorem retryCoordinatorLaws (acts : List Act) :
    let w := World.after acts
    (∀ first second, operationMatches w.coordinator first = true → operationMatches w.coordinator second = true → first = second) ∧
    (∀ (next : Section) claim phases, next.claim = some (claim,phases) →
      operationMatches w.coordinator claim = false ∨ claim.phase ∉ phases → next.run w.coordinator = w.coordinator) ∧
    (revisions w.journal < 2 ^ 64 → ∀ before later, w.journal = before ++ .observed :: later → ¬Discharged later →
      w.coordinator.pendingOwnedSnatRecovery.requested = true) ∧
    ∀ more, ∃ added, (World.after (acts ++ more)).journal = w.journal ++ added ∧
      (.released ∉ added → NotOlder w.coordinator (World.after (acts ++ more)).coordinator) := by
  refine ⟨fun first second one two => ?_,fun next claim phases opened foreign => ?_,fun few before later same open_ => ?_,fun more => ?_⟩
  · rw [(matchesActive one).2,(matchesActive two).2]
  · refine foreignKeeps opened ?_
    rw [authorizes]
    rcases foreign with stale | wrong
    · rw [stale,Bool.and_false]
    · rw [Bool.and_eq_false_iff]
      exact .inl (by simpa using wrong)
  · rcases (soundAfter acts).observed few before later same with done | awaits
    · exact absurd done open_
    · exact awaits.1
  · rw [World.after,List.foldl_append]
    exact runTrails more

def steps (script : Nat) (replies : List Reply) : List Act := replies.map fun reply => .advance script .none reply

def observedTwice : List Act :=
  let recovery : OwnedSnatRecovery := { requested := true }
  let claim (phase : Phase) : Claim := ⟨1,7,1,phase,1⟩
  [Act.call (.scheduleOperation 0 7 1 recovery none false false)] ++ steps 0 [.yes,.yes,.yes,.yes,.task 3,.yes] ++
  [Act.call (.timer (claim .timerPending))] ++ steps 1 [.yes,.yes,.yes] ++
  [Act.call (.single (.beginWorker (claim .workerQueued))),.call (.beginAttempt 0 recovery none),
    .call (.single (.beginControl (claim .workerRunning) true)),
    .call (.single (.completeOperationWith (claim .controlPending) true recovery true .none))] ++
  steps 2 [.yes] ++ steps 3 [.yes] ++ steps 4 [.yes] ++ steps 5 [.yes]

theorem observedTwicePending : (World.after observedTwice).coordinator.pendingOwnedSnatRecovery.requested = true := by
  have told : (World.after observedTwice).journal =
      [Event.revised,.captured 1] ++ Event.observed :: [Event.revised,.completed 1,.released] := by decide
  refine (retryCoordinatorLaws observedTwice).2.2.1 ?_ _ _ told ?_
  · rw [told]
    decide
  · rintro (cleared | ⟨before,middle,rest,serial,same,-⟩)
    · simp at cleared
    · have mem : Event.captured serial ∈ [Event.revised,.completed 1,.released] := by
        rw [same]
        simp
      simp at mem

end Laws

end KeenPbr.RetryCoordinator
