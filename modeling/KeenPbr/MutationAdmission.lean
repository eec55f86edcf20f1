import KeenPbr.Runs
import Mathlib.Order.Interval.Finset.Nat

/-! runtime/runtime_mutation_admission.hpp. A call holds the mutex from its first access of the state
to its last, so it is one action; a call that waits is two, with the mutex free in between. The
waits that only observe the state (wait_until_idle, wait_for_idle_for, active) are left out. -/
namespace KeenPbr.MutationAdmission
open Runs

inductive Kind where
  | foreground
  | background
  deriving DecidableEq, Repr

structure State where
  nextToken : UInt64 := 0
  activeToken : UInt64 := 0
  activeLabel : String := ""
  activeKind : Kind := .foreground
  handoffCount : UInt64 := 0
  handoffToken : UInt64 := 0
  foregroundWaiters : UInt64 := 0
  accepting : Bool := true
  shutdownCleanupClaimed : Bool := false
  deriving DecidableEq, Repr

abbrev Address := { place : UInt64 // place ≠ 0 }

structure Lease where
  state : Option Address := none
  token : UInt64 := 0
  deriving DecidableEq

inductive Waitable where
  | background
  | labels (waitableActiveLabels : List String)
  deriving DecidableEq, Repr

def Waitable.holds : Waitable → State → Bool
  | .background,state => state.activeKind == .background
  | .labels waitableActiveLabels,state => waitableActiveLabels.contains state.activeLabel

section Calls

def followingToken (state : State) : UInt64 :=
  if state.nextToken + 1 = 0 then 1 else state.nextToken + 1

def acquireLocked (state : State) (label : String) (kind : Kind) : State :=
  { state with nextToken := followingToken state, activeToken := followingToken state, activeLabel := label, activeKind := kind }

def tryAcquire (state : State) (label : String) (kind : Kind) : Option State :=
  if !state.accepting || state.activeToken != 0 || state.handoffCount != 0 || state.foregroundWaiters != 0 then none
  else some (acquireLocked state label kind)

inductive Entered where
  | refused
  | acquired (state : State)
  | waits (state : State) (predecessorToken : UInt64)

def tryAcquireAfter (state : State) (label : String) (waitable : Waitable) : Entered :=
  if !state.accepting then .refused
  else if state.activeToken == 0 && state.handoffCount == 0 then
    if state.foregroundWaiters != 0 then .refused else .acquired (acquireLocked state label .foreground)
  else if !waitable.holds state then .refused
  else .waits { state with foregroundWaiters := state.foregroundWaiters + 1 }
    (if state.activeToken != 0 then state.activeToken else state.handoffToken)

/- The predicate of wait_for. -/
def waitOver (state : State) (predecessorToken : UInt64) : Bool :=
  !state.accepting || (state.activeToken != 0 && state.activeToken != predecessorToken) ||
    (state.activeToken == 0 && state.handoffCount == 0)

inductive Woken where
  | asleep
  | refused (state : State)
  | acquired (state : State)

def leaveWait (state : State) : State := { state with foregroundWaiters := state.foregroundWaiters - 1 }

def wake (state : State) (label : String) (predecessorToken : UInt64) (timedOut : Bool) : Woken :=
  if !waitOver state predecessorToken then if timedOut then .refused (leaveWait state) else .asleep
  else if !state.accepting || state.activeToken != 0 || state.handoffCount != 0 then .refused (leaveWait state)
  else .acquired (leaveWait (acquireLocked state label .foreground))

def tryAcquireShutdownCleanup (state : State) (label : String) : Option State :=
  if state.accepting || state.activeToken != 0 || state.handoffCount != 0 || state.shutdownCleanupClaimed then none
  else some { acquireLocked state label .foreground with shutdownCleanupClaimed := true }

def releaseToken (state : State) (token : UInt64) : State :=
  if state.activeToken ≠ token then state
  else { state with activeToken := 0, activeLabel := if state.handoffCount = 0 then "" else state.activeLabel }

def enterHandoff (state : State) (token : UInt64) : State :=
  { state with handoffToken := token, handoffCount := state.handoffCount + 1 }

def leaveHandoff (state : State) : State :=
  let handoffCount := if state.handoffCount ≠ 0 then state.handoffCount - 1 else state.handoffCount
  if handoffCount = 0 then
    { state with handoffCount, handoffToken := 0, activeLabel := if state.activeToken = 0 then "" else state.activeLabel }
  else { state with handoffCount }

def shutdown (state : State) : State := { state with accepting := false }

end Calls

structure WaitFrame where
  label : String := ""
  predecessorToken : UInt64 := 0
  deriving DecidableEq

/- The state with the objects of its callers: the leases, the gates that hold it and the
priorities of the calls that wait. -/
structure World where
  state : State := {}
  leases : Address → Lease := fun _ => {}
  gates : Finset Address := ∅
  waiting : Finset Address := ∅
  frames : Address → WaitFrame := fun _ => {}

inductive Act where
  | tryAcquire (into : Address) (label : String) (kind : Kind)
  | tryAcquireAfter (frame into : Address) (label : String) (waitable : Waitable)
  | wake (frame into : Address) (timedOut : Bool)
  | tryAcquireShutdownCleanup (into : Address) (label : String)
  | release (lease : Address)
  | moveLease (target source : Address)
  | tryAcquireHandoffGate (lease into : Address)
  | releaseGate (gate : Address)
  | moveGate (target source : Address)
  | shutdown
  | foreign (place : Address) (lease : Lease)

section Steps
variable (home : Address)

def World.grant (w : World) (state : State) (into : Address) : World :=
  { w with state, leases := Function.update w.leases into ⟨some home,state.activeToken⟩ }

def World.release (w : World) (place : Address) : World :=
  let lease := w.leases place
  { w with
    leases := Function.update w.leases place {}
    state := if lease.state ≠ some home ∨ lease.token = 0 then w.state else releaseToken w.state lease.token }

def World.releaseGate (w : World) (gate : Address) : World :=
  if gate ∉ w.gates then w else { w with gates := w.gates.erase gate, state := leaveHandoff w.state }

def step (w : World) : Act → World × Option Address
  | .tryAcquire into label kind =>
    match MutationAdmission.tryAcquire w.state label kind with
    | none => (w,none)
    | some state => (w.grant home state into,some into)
  | .tryAcquireAfter frame into label waitable =>
    match MutationAdmission.tryAcquireAfter w.state label waitable with
    | .refused => (w,none)
    | .acquired state => (w.grant home state into,some into)
    | .waits state predecessorToken =>
      ({ w with state, waiting := insert frame w.waiting, frames := Function.update w.frames frame ⟨label,predecessorToken⟩ },none)
  | .wake frame into timedOut =>
    match MutationAdmission.wake w.state (w.frames frame).label (w.frames frame).predecessorToken timedOut with
    | .asleep => (w,none)
    | .refused state => ({ w with state, waiting := w.waiting.erase frame },none)
    | .acquired state => ({ w with waiting := w.waiting.erase frame }.grant home state into,some into)
  | .tryAcquireShutdownCleanup into label =>
    match MutationAdmission.tryAcquireShutdownCleanup w.state label with
    | none => (w,none)
    | some state => (w.grant home state into,some into)
  | .release lease => (w.release home lease,none)
  | .moveLease target source =>
    if target = source then (w,none)
    else
      let w := w.release home target
      ({ w with leases := Function.update (Function.update w.leases target (w.leases source)) source {} },none)
  | .tryAcquireHandoffGate lease into =>
    if (w.leases lease).state ≠ some home ∨ (w.leases lease).token = 0 ∨ w.state.activeToken ≠ (w.leases lease).token then (w,none)
    else ({ w with state := enterHandoff w.state (w.leases lease).token, gates := insert into w.gates },none)
  | .releaseGate gate => (w.releaseGate gate,none)
  | .moveGate target source =>
    if target = source then (w,none)
    else
      let w := w.releaseGate target
      if source ∈ w.gates then ({ w with gates := insert target (w.gates.erase source) },none) else (w,none)
  | .shutdown => ({ w with state := MutationAdmission.shutdown w.state },none)
  | .foreign place lease => ({ w with leases := Function.update w.leases place lease },none)

def act (w : World) (a : Act) : World := (step home w a).1

def may (w : World) : Act → Prop
  | .tryAcquire into _ _ => w.leases into = {}
  | .tryAcquireAfter frame into _ _ => frame ∉ w.waiting ∧ w.leases into = {}
  | .wake frame into _ => frame ∈ w.waiting ∧ w.leases into = {}
  | .tryAcquireShutdownCleanup into _ => w.leases into = {}
  | .tryAcquireHandoffGate _ into => into ∉ w.gates
  | .foreign place lease => (w.leases place).state ≠ some home ∧ lease.state ≠ some home
  | _ => True

/- The lease object holds a token of this admission. -/
def World.Outstanding (w : World) (place : Address) : Prop := (w.leases place).state = some home ∧ (w.leases place).token ≠ 0

/- owns. -/
def World.Owns (w : World) (place : Address) : Prop := w.Outstanding home place ∧ w.state.activeToken = (w.leases place).token

def grants : World → List Act → Nat
  | _,[] => 0
  | w,a :: rest => (if (step home w a).2.isSome then 1 else 0) + grants (act home w a) rest

end Steps

section Counters

theorem fewObjects (objects : Finset Address) : objects.card < 2 ^ 64 := by
  have inside : objects.card ≤ (Finset.Ico 1 (2 ^ 64)).card := by
    refine Finset.card_le_card_of_injOn (fun place => place.val.toNat) ?_ ?_
    · intro place _
      have positive : place.val.toNat ≠ 0 := fun zero => place.property (UInt64.toNat_inj.mp (by simpa using zero))
      simp only [Finset.coe_Ico,Set.mem_Ico]
      exact ⟨Nat.one_le_iff_ne_zero.mpr positive,UInt64.toNat_lt _⟩
    · intro a _ b _ same
      exact Subtype.ext (UInt64.toNat_inj.mp same)
  rw [Nat.card_Ico] at inside
  omega

variable {count : UInt64} {objects : Finset Address} {place : Address}

theorem countZero (counted : count.toNat = objects.card) : count = 0 ↔ objects = ∅ := by
  rw [← UInt64.toNat_inj,counted]
  exact Finset.card_eq_zero

theorem countInsert (counted : count.toNat = objects.card) (fresh : place ∉ objects) : (count + 1).toNat = (insert place objects).card := by
  have bound := fewObjects (insert place objects)
  rw [Finset.card_insert_of_notMem fresh] at bound ⊢
  rw [UInt64.toNat_add,counted]
  exact Nat.mod_eq_of_lt bound

theorem countErase (counted : count.toNat = objects.card) (mem : place ∈ objects) : (count - 1).toNat = (objects.erase place).card := by
  have filled : 0 < objects.card := Finset.card_pos.mpr ⟨place,mem⟩
  rw [Finset.card_erase_of_mem mem,UInt64.toNat_sub_of_le _ _ (UInt64.le_iff_toNat_le.mpr (by simp; omega)),counted]
  rfl

end Counters

section Invariant
variable {home : Address}

/- Every lease with a token of the admission is the one that owns it, and the counters count the
gates and the calls that wait. -/
structure Sound (home : Address) (w : World) : Prop where
  current : ∀ place, w.Outstanding home place → (w.leases place).token = w.state.activeToken
  single : ∀ a b, w.Outstanding home a → w.Outstanding home b → a = b
  gates : w.state.handoffCount.toNat = w.gates.card
  waiting : w.state.foregroundWaiters.toNat = w.waiting.card

variable {w : World}

theorem Sound.idle (sound : Sound home w) (free : w.state.activeToken = 0) (place : Address) : ¬ w.Outstanding home place := by
  intro held
  exact held.2 ((sound.current place held).trans free)

theorem soundInitially : Sound home {} where
  current _ held := by cases held.1
  single _ _ held := by cases held.1
  gates := rfl
  waiting := rfl

theorem grantSound (sound : Sound home w) (free : w.state.activeToken = 0) (state : State)
    (handoffs : state.handoffCount = w.state.handoffCount) {waiting : Finset Address}
    (waiters : state.foregroundWaiters.toNat = waiting.card)
    (into : Address) : Sound home ({ w with waiting }.grant home state into) where
  current place held := by
    by_cases own : place = into
    · subst own
      simp [World.grant]
    · have other := sound.idle free place
      simp [World.Outstanding,World.grant,own] at held other
      exact absurd held.2 (by simpa using other held.1)
  single a b left right := by
    have only (place : Address) (held : ({ w with waiting }.grant home state into).Outstanding home place) : place = into := by
      by_contra own
      have other := sound.idle free place
      simp [World.Outstanding,World.grant,own] at held other
      exact held.2 (other held.1)
    rw [only a left,only b right]
  gates := by
    change state.handoffCount.toNat = w.gates.card
    rw [handoffs]
    exact sound.gates
  waiting := waiters

theorem releasedOutstanding {place other : Address} (held : (w.release home place).Outstanding home other) :
    other ≠ place ∧ w.Outstanding home other := by
  by_cases own : other = place
  · subst own
    have bare := held.1
    simp [World.release] at bare
  · simp only [World.Outstanding,World.release,Function.update_of_ne own] at held
    exact ⟨own,held⟩

theorem releaseStale {place : Address} (stale : ¬ w.Outstanding home place) : (w.release home place).state = w.state := by
  unfold World.release
  dsimp only
  rw [if_pos]
  by_contra held
  simp only [not_or,not_not] at held
  exact stale held

theorem releaseCounters (place : Address) : (w.release home place).state.handoffCount = w.state.handoffCount ∧
    (w.release home place).state.foregroundWaiters = w.state.foregroundWaiters := by
  unfold World.release releaseToken
  dsimp only
  split
  · exact ⟨rfl,rfl⟩
  · split <;> exact ⟨rfl,rfl⟩

theorem releaseSound (sound : Sound home w) (place : Address) : Sound home (w.release home place) where
  current other held := by
    obtain ⟨apart,before⟩ := releasedOutstanding held
    have stale : ¬ w.Outstanding home place := fun own => apart (sound.single other place before own)
    rw [releaseStale stale,← sound.current other before]
    simp only [World.release,Function.update_of_ne apart]
  single a b left right := sound.single a b (releasedOutstanding left).2 (releasedOutstanding right).2
  gates := by
    rw [(releaseCounters place).1]
    exact sound.gates
  waiting := by
    rw [(releaseCounters place).2]
    exact sound.waiting

theorem leaveHandoffCount (state : State) (held : state.handoffCount ≠ 0) : (leaveHandoff state).handoffCount = state.handoffCount - 1 := by
  unfold leaveHandoff
  dsimp only
  rw [if_pos held]
  split <;> rfl

theorem leaveHandoffKeeps (state : State) : (leaveHandoff state).activeToken = state.activeToken ∧
    (leaveHandoff state).foregroundWaiters = state.foregroundWaiters ∧ (leaveHandoff state).accepting = state.accepting ∧
    (leaveHandoff state).shutdownCleanupClaimed = state.shutdownCleanupClaimed := by
  unfold leaveHandoff
  dsimp only
  generalize (if state.handoffCount ≠ 0 then state.handoffCount - 1 else state.handoffCount) = count
  split <;> exact ⟨rfl,rfl,rfl,rfl⟩

theorem releaseGateSound (sound : Sound home w) (gate : Address) : Sound home (w.releaseGate gate) := by
  unfold World.releaseGate
  split
  · exact sound
  · rename_i held
    rw [not_not] at held
    have counted : w.state.handoffCount ≠ 0 := by
      rw [Ne,countZero sound.gates]
      exact Finset.ne_empty_of_mem held
    obtain ⟨active,waiters,_⟩ := leaveHandoffKeeps w.state
    refine ⟨fun place own => ?_,sound.single,?_,?_⟩
    · rw [active]
      exact sound.current place own
    · change (leaveHandoff w.state).handoffCount.toNat = _
      rw [leaveHandoffCount w.state counted]
      exact countErase sound.gates held
    · change (leaveHandoff w.state).foregroundWaiters.toNat = _
      rw [waiters]
      exact sound.waiting

theorem moveLeaseSound (sound : Sound home w) {target source : Address} (apart : target ≠ source) (empty : ¬ w.Outstanding home target) :
    Sound home { w with leases := Function.update (Function.update w.leases target (w.leases source)) source {} } := by
  -- the place a claim was at before the move
  have from_place (place : Address) (held : World.Outstanding home
      { w with leases := Function.update (Function.update w.leases target (w.leases source)) source {} } place) :
      ∃ before, w.Outstanding home before ∧ (w.leases before).token =
        (Function.update (Function.update w.leases target (w.leases source)) source {} place).token ∧
        ((place = target ∧ before = source) ∨ (place = before ∧ place ≠ source)) := by
    by_cases last : place = source
    · subst last
      have bare := held.1
      simp at bare
    · by_cases moved : place = target
      · subst moved
        simp only [World.Outstanding,Function.update_of_ne last,Function.update_self] at held ⊢
        exact ⟨source,held,rfl,.inl ⟨trivial,rfl⟩⟩
      · simp only [World.Outstanding,Function.update_of_ne last,Function.update_of_ne moved] at held ⊢
        exact ⟨place,held,rfl,.inr ⟨rfl,last⟩⟩
  refine ⟨fun place held => ?_,fun a b left right => ?_,sound.gates,sound.waiting⟩
  · obtain ⟨before,own,token,_⟩ := from_place place held
    exact token.symm.trans (sound.current before own)
  · obtain ⟨first,ownFirst,_,whereFirst⟩ := from_place a left
    obtain ⟨second,ownSecond,_,whereSecond⟩ := from_place b right
    have same := sound.single first second ownFirst ownSecond
    rcases whereFirst with ⟨rfl,rfl⟩ | ⟨rfl,awayFirst⟩
    · rcases whereSecond with ⟨rfl,_⟩ | ⟨rfl,awaySecond⟩
      · rfl
      · exact absurd same.symm awaySecond
    · rcases whereSecond with ⟨rfl,rfl⟩ | ⟨rfl,_⟩
      · exact absurd same awayFirst
      · exact same

end Invariant

section Grants
variable {home : Address} {w : World}

theorem tryAcquireSome {state next : State} {label : String} {kind : Kind} (ok : tryAcquire state label kind = some next) :
    state.accepting = true ∧ state.activeToken = 0 ∧ state.handoffCount = 0 ∧ state.foregroundWaiters = 0 ∧
      next = acquireLocked state label kind := by
  unfold tryAcquire at ok
  split at ok
  · cases ok
  · rename_i free
    simp only [Bool.or_eq_true,Bool.not_eq_true',bne_iff_ne,ne_eq,not_or,not_not,Bool.not_eq_false] at free
    exact ⟨free.1.1.1,free.1.1.2,free.1.2,free.2,(Option.some.inj ok).symm⟩

theorem cleanupSome {state next : State} {label : String} (ok : tryAcquireShutdownCleanup state label = some next) :
    state.accepting = false ∧ state.activeToken = 0 ∧ state.handoffCount = 0 ∧ state.shutdownCleanupClaimed = false ∧
      next = { acquireLocked state label .foreground with shutdownCleanupClaimed := true } := by
  unfold tryAcquireShutdownCleanup at ok
  split at ok
  · cases ok
  · rename_i free
    simp only [Bool.or_eq_true,bne_iff_ne,ne_eq,not_or,not_not,Bool.not_eq_true] at free
    exact ⟨free.1.1.1,free.1.1.2,free.1.2,free.2,(Option.some.inj ok).symm⟩

theorem enteredAcquired {state next : State} {label : String} {waitable : Waitable}
    (ok : tryAcquireAfter state label waitable = .acquired next) :
    state.accepting = true ∧ state.activeToken = 0 ∧ state.handoffCount = 0 ∧ state.foregroundWaiters = 0 ∧
      next = acquireLocked state label .foreground := by
  unfold tryAcquireAfter at ok
  split at ok
  · cases ok
  · rename_i open_
    split at ok
    · rename_i idle
      split at ok
      · cases ok
      · rename_i alone
        rw [Bool.and_eq_true,beq_iff_eq,beq_iff_eq] at idle
        cases ok
        exact ⟨by simpa using open_,idle.1,idle.2,by simpa using alone,rfl⟩
    · split at ok <;> cases ok

theorem enteredWaits {state next : State} {label : String} {waitable : Waitable} {predecessorToken : UInt64}
    (ok : tryAcquireAfter state label waitable = .waits next predecessorToken) :
    state.accepting = true ∧ next = { state with foregroundWaiters := state.foregroundWaiters + 1 } := by
  unfold tryAcquireAfter at ok
  split at ok
  · cases ok
  · rename_i open_
    split at ok
    · split at ok <;> cases ok
    · split at ok
      · cases ok
      · cases ok
        exact ⟨by simpa using open_,rfl⟩

theorem wokenAcquired {state next : State} {label : String} {predecessorToken : UInt64} {timedOut : Bool}
    (ok : wake state label predecessorToken timedOut = .acquired next) :
    state.accepting = true ∧ state.activeToken = 0 ∧ state.handoffCount = 0 ∧ next = leaveWait (acquireLocked state label .foreground) := by
  unfold wake at ok
  split at ok
  · split at ok <;> cases ok
  · split at ok
    · cases ok
    · rename_i free
      simp only [Bool.or_eq_true,Bool.not_eq_true',bne_iff_ne,ne_eq,not_or,not_not,Bool.not_eq_false] at free
      cases ok
      exact ⟨free.1.1,free.1.2,free.2,rfl⟩

theorem wokenRefused {state next : State} {label : String} {predecessorToken : UInt64} {timedOut : Bool}
    (ok : wake state label predecessorToken timedOut = .refused next) : next = leaveWait state := by
  unfold wake at ok
  split at ok
  · split at ok
    · cases ok
      rfl
    · cases ok
  · split at ok
    · cases ok
      rfl
    · cases ok

theorem grantPlain (sound : Sound home w) (free : w.state.activeToken = 0) (state : State)
    (handoffs : state.handoffCount = w.state.handoffCount) (waiters : state.foregroundWaiters = w.state.foregroundWaiters)
    (into : Address) :
    Sound home (w.grant home state into) :=
  grantSound sound free state handoffs (by rw [waiters]; exact sound.waiting) into

theorem stepSound {a : Act} (allowed : may home w a) (sound : Sound home w) : Sound home (act home w a) := by
  unfold act
  cases a with
  | tryAcquire into label kind =>
    simp only [step]
    split
    · exact sound
    · rename_i state ok
      obtain ⟨_,free,_,_,rfl⟩ := tryAcquireSome ok
      exact grantPlain sound free (acquireLocked w.state label kind) rfl rfl into
  | tryAcquireAfter frame into label waitable =>
    simp only [step]
    split
    · exact sound
    · rename_i state ok
      obtain ⟨_,free,_,_,rfl⟩ := enteredAcquired ok
      exact grantPlain sound free (acquireLocked w.state label .foreground) rfl rfl into
    · rename_i state predecessorToken ok
      obtain ⟨_,rfl⟩ := enteredWaits ok
      exact ⟨sound.current,sound.single,sound.gates,countInsert sound.waiting allowed.1⟩
  | wake frame into timedOut =>
    simp only [step]
    split
    · exact sound
    · rename_i state ok
      rw [wokenRefused ok]
      exact ⟨sound.current,sound.single,sound.gates,countErase sound.waiting allowed.1⟩
    · rename_i state ok
      obtain ⟨_,free,_,rfl⟩ := wokenAcquired ok
      exact grantSound sound free (leaveWait (acquireLocked w.state (w.frames frame).label .foreground)) rfl
        (countErase sound.waiting allowed.1) into
  | tryAcquireShutdownCleanup into label =>
    simp only [step]
    split
    · exact sound
    · rename_i state ok
      obtain ⟨_,free,_,_,rfl⟩ := cleanupSome ok
      exact grantPlain sound free { acquireLocked w.state label .foreground with shutdownCleanupClaimed := true }
        rfl rfl into
  | release lease => exact releaseSound sound lease
  | moveLease target source =>
    simp only [step]
    split
    · exact sound
    · rename_i apart
      exact moveLeaseSound (releaseSound sound target) apart fun held => (releasedOutstanding held).1 rfl
  | tryAcquireHandoffGate lease into =>
    simp only [step]
    split
    · exact sound
    · exact ⟨sound.current,sound.single,countInsert sound.gates allowed,sound.waiting⟩
  | releaseGate gate => exact releaseGateSound sound gate
  | moveGate target source =>
    simp only [step]
    split
    · exact sound
    · have released := releaseGateSound sound target
      split
      · rename_i apart held
        refine ⟨released.current,released.single,?_,released.waiting⟩
        have gone : target ∉ (w.releaseGate target).gates := by
          unfold World.releaseGate
          split
          · assumption
          · exact Finset.notMem_erase _ _
        have fresh : target ∉ (w.releaseGate target).gates.erase source := fun mem => gone (Finset.mem_of_mem_erase mem)
        rw [Finset.card_insert_of_notMem fresh,Finset.card_erase_of_mem held,released.gates]
        have filled : 0 < (w.releaseGate target).gates.card := Finset.card_pos.mpr ⟨source,held⟩
        omega
      · exact released
  | shutdown => exact ⟨sound.current,sound.single,sound.gates,sound.waiting⟩
  | foreign place lease =>
    have kept (other : Address) (held : (act home w (.foreign place lease)).Outstanding home other) :
      other ≠ place ∧ w.Outstanding home other := by
      by_cases own : other = place
      · subst own
        have state := held.1
        simp only [act,step,Function.update_self] at state
        exact absurd state allowed.2
      · simp only [act,step,World.Outstanding,Function.update_of_ne own] at held
        exact ⟨own,held⟩
    refine ⟨fun other held => ?_,fun a b left right => sound.single a b (kept a left).2 (kept b right).2,sound.gates,sound.waiting⟩
    obtain ⟨apart,before⟩ := kept other held
    simp only [step,Function.update_of_ne apart]
    exact sound.current other before

structure Granting (home : Address) (w : World) (a : Act) : Prop where
  active : w.state.activeToken = 0
  handoffs : w.state.handoffCount = 0
  background : ∀ into label, a = .tryAcquire into label .background → w.state.foregroundWaiters = 0
  closed : w.state.accepting = false → (∃ into label, a = .tryAcquireShutdownCleanup into label) ∧
    w.state.shutdownCleanupClaimed = false ∧ (act home w a).state.shutdownCleanupClaimed = true

theorem granting {a : Act} (granted : (step home w a).2.isSome = true) : Granting home w a := by
  cases a with
  | tryAcquire into label kind =>
    simp only [step] at granted
    split at granted
    · cases granted
    · rename_i state ok
      obtain ⟨accepting,active,handoffs,waiters,_⟩ := tryAcquireSome ok
      exact ⟨active,handoffs,fun _ _ _ => waiters,fun closed => by rw [accepting] at closed; cases closed⟩
  | tryAcquireAfter frame into label waitable =>
    simp only [step] at granted
    split at granted
    · cases granted
    · rename_i state ok
      obtain ⟨accepting,active,handoffs,_,_⟩ := enteredAcquired ok
      exact ⟨active,handoffs,(fun _ _ other => by cases other),fun closed => by rw [accepting] at closed; cases closed⟩
    · cases granted
  | wake frame into timedOut =>
    simp only [step] at granted
    split at granted
    · cases granted
    · cases granted
    · rename_i state ok
      obtain ⟨accepting,active,handoffs,_⟩ := wokenAcquired ok
      exact ⟨active,handoffs,(fun _ _ other => by cases other),fun closed => by rw [accepting] at closed; cases closed⟩
  | tryAcquireShutdownCleanup into label =>
    simp only [step] at granted
    split at granted
    · cases granted
    · rename_i state ok
      obtain ⟨_,active,handoffs,unclaimed,rfl⟩ := cleanupSome ok
      refine ⟨active,handoffs,(fun _ _ other => by cases other),fun _ => ⟨⟨into,label,rfl⟩,unclaimed,?_⟩⟩
      simp only [act,step,ok]
      rfl
  | moveLease target source =>
    simp only [step] at granted
    split at granted <;> cases granted
  | tryAcquireHandoffGate lease into =>
    simp only [step] at granted
    split at granted <;> cases granted
  | moveGate target source =>
    simp only [step] at granted
    split at granted
    · cases granted
    · split at granted <;> cases granted
  | release | releaseGate | shutdown | foreign => cases granted

end Grants

section Shutdown
variable {home : Address} {w : World}

theorem releaseFlags (place : Address) : (w.release home place).state.accepting = w.state.accepting ∧
    (w.release home place).state.shutdownCleanupClaimed = w.state.shutdownCleanupClaimed := by
  unfold World.release releaseToken
  dsimp only
  split
  · exact ⟨rfl,rfl⟩
  · split <;> exact ⟨rfl,rfl⟩

theorem releaseGateFlags (gate : Address) : (w.releaseGate gate).state.accepting = w.state.accepting ∧
    (w.releaseGate gate).state.shutdownCleanupClaimed = w.state.shutdownCleanupClaimed := by
  unfold World.releaseGate
  split
  · exact ⟨rfl,rfl⟩
  · exact ⟨(leaveHandoffKeeps w.state).2.2.1,(leaveHandoffKeeps w.state).2.2.2⟩

theorem stepFlags (a : Act) : ((act home w a).state.accepting = true → w.state.accepting = true ∧ a ≠ .shutdown) ∧
    (w.state.shutdownCleanupClaimed = true → (act home w a).state.shutdownCleanupClaimed = true) := by
  unfold act
  cases a with
  | tryAcquire into label kind =>
    simp only [step]
    split
    · exact ⟨fun same => ⟨same,nofun⟩,id⟩
    · rename_i state ok
      obtain ⟨_,_,_,_,rfl⟩ := tryAcquireSome ok
      exact ⟨fun same => ⟨same,nofun⟩,id⟩
  | tryAcquireAfter frame into label waitable =>
    simp only [step]
    split
    · exact ⟨fun same => ⟨same,nofun⟩,id⟩
    · rename_i state ok
      obtain ⟨_,_,_,_,rfl⟩ := enteredAcquired ok
      exact ⟨fun same => ⟨same,nofun⟩,id⟩
    · rename_i state predecessorToken ok
      obtain ⟨_,rfl⟩ := enteredWaits ok
      exact ⟨fun same => ⟨same,nofun⟩,id⟩
  | wake frame into timedOut =>
    simp only [step]
    split
    · exact ⟨fun same => ⟨same,nofun⟩,id⟩
    · rename_i state ok
      rw [wokenRefused ok]
      exact ⟨fun same => ⟨same,nofun⟩,id⟩
    · rename_i state ok
      obtain ⟨_,_,_,rfl⟩ := wokenAcquired ok
      exact ⟨fun same => ⟨same,nofun⟩,id⟩
  | tryAcquireShutdownCleanup into label =>
    simp only [step]
    split
    · exact ⟨fun same => ⟨same,nofun⟩,id⟩
    · rename_i state ok
      obtain ⟨_,_,_,_,rfl⟩ := cleanupSome ok
      exact ⟨fun same => ⟨same,nofun⟩,fun _ => rfl⟩
  | release lease =>
    change ((w.release home lease).state.accepting = true → _) ∧ (_ → (w.release home lease).state.shutdownCleanupClaimed = true)
    rw [(releaseFlags lease).1,(releaseFlags lease).2]
    exact ⟨fun same => ⟨same,nofun⟩,id⟩
  | moveLease target source =>
    simp only [step]
    split
    · exact ⟨fun same => ⟨same,nofun⟩,id⟩
    · dsimp only
      rw [(releaseFlags target).1,(releaseFlags target).2]
      exact ⟨fun same => ⟨same,nofun⟩,id⟩
  | tryAcquireHandoffGate lease into =>
    simp only [step]
    split <;> exact ⟨fun same => ⟨same,nofun⟩,id⟩
  | releaseGate gate =>
    change ((w.releaseGate gate).state.accepting = true → _) ∧ (_ → (w.releaseGate gate).state.shutdownCleanupClaimed = true)
    rw [(releaseGateFlags gate).1,(releaseGateFlags gate).2]
    exact ⟨fun same => ⟨same,nofun⟩,id⟩
  | moveGate target source =>
    simp only [step]
    split
    · exact ⟨fun same => ⟨same,nofun⟩,id⟩
    · split
      all_goals
        dsimp only
        rw [(releaseGateFlags target).1,(releaseGateFlags target).2]
        exact ⟨fun same => ⟨same,nofun⟩,id⟩
  | shutdown => exact ⟨(fun same => by cases same),id⟩
  | foreign place lease => exact ⟨fun same => ⟨same,nofun⟩,id⟩

theorem stepClosed {a : Act} (closed : w.state.accepting = false) : (act home w a).state.accepting = false := by
  by_contra other
  rw [Bool.not_eq_false] at other
  rw [((stepFlags a).1 other).1] at closed
  cases closed

theorem closedAfter {history : List Act} {start : World} (run : Run (act home) (may home) start history w) (shut : .shutdown ∈ history) :
    w.state.accepting = false := by
  induction run with
  | stop => cases shut
  | @step s t a rest allowed later ih =>
    rcases List.mem_cons.mp shut with rfl | after
    · have kept : ∀ s a, may home s a → s.state.accepting = false → (act home s a).state.accepting = false :=
        fun _ _ _ closed => stepClosed closed
      exact later.keeps kept rfl
    · exact ih after

theorem fewGrants (later : List Act) (closed : w.state.accepting = false) :
    grants home w later + (if w.state.shutdownCleanupClaimed then 1 else 0) ≤ 1 := by
  induction later generalizing w with
  | nil =>
    rw [grants]
    split <;> decide
  | cons a rest ih =>
    have still : (act home w a).state.accepting = false := stepClosed closed
    have tail := ih still
    rw [grants]
    by_cases granted : (step home w a).2.isSome = true
    · obtain ⟨_,unclaimed,claimed⟩ := (granting granted).closed closed
      rw [claimed,if_pos rfl] at tail
      rw [if_pos granted,unclaimed,if_neg Bool.false_ne_true]
      omega
    · rw [if_neg granted]
      by_cases claimed : w.state.shutdownCleanupClaimed = true
      · rw [(stepFlags a).2 claimed,if_pos rfl] at tail
        rw [if_pos claimed]
        omega
      · rw [if_neg claimed]
        split at tail <;> omega

end Shutdown

section Exclusion
variable {home : Address} {w : World}

theorem reachableSound {history : List Act} (run : Run (act home) (may home) {} history w) : Sound home w :=
  run.keeps (fun _ _ allowed sound => stepSound allowed sound) soundInitially

/- In every interleaving one lease at most owns the admission; a lease is granted only when no lease
and no gate is outstanding, and to a background call only when no foreground call waits; after a
shutdown only the cleanup is granted, once; and a release leaves the lease that owns the admission
its owner unless it is that lease. -/
theorem admissionExclusive {history : List Act} (run : Run (act home) (may home) {} history w) :
    (∀ a b, w.Owns home a → w.Owns home b → a = b) ∧
    (∀ a, (step home w a).2.isSome = true → (∀ place, ¬ w.Outstanding home place) ∧ w.gates = ∅) ∧
    (∀ into label, (step home w (.tryAcquire into label .background)).2.isSome = true → w.waiting = ∅) ∧
    (.shutdown ∈ history → (∀ later, grants home w later ≤ 1) ∧
      ∀ a, (step home w a).2.isSome = true → ∃ into label, a = .tryAcquireShutdownCleanup into label) ∧
    (∀ a b, a ≠ b → w.Owns home b → (act home w (.release a)).Owns home b) := by
  have sound := reachableSound run
  refine ⟨fun a b left right => sound.single a b left.1 right.1,fun a granted => ?_,fun into label granted => ?_,fun shut => ?_,
    fun a b apart owns => ?_⟩
  · have found := granting granted
    exact ⟨sound.idle found.active,(countZero sound.gates).mp found.handoffs⟩
  · exact (countZero sound.waiting).mp ((granting granted).background into label rfl)
  · have closed := closedAfter run shut
    refine ⟨fun later => Nat.le_of_add_right_le (fewGrants later closed),fun a granted => ((granting granted).closed closed).1⟩
  · have stale : ¬ w.Outstanding home a := fun held => apart (sound.single a b held owns.1)
    have same : (act home w (.release a)).leases b = w.leases b := by
      simp only [act,step,World.release,Function.update_of_ne apart.symm]
    have state : (act home w (.release a)).state = w.state := releaseStale stale
    exact ⟨by rw [World.Outstanding,same]; exact owns.1,by rw [same,state]; exact owns.2⟩

def admission : Address := ⟨16,by decide⟩
def probeLease : Address := ⟨32,by decide⟩
def probeGate : Address := ⟨48,by decide⟩
def applyFrame : Address := ⟨64,by decide⟩
def applyLease : Address := ⟨80,by decide⟩

/- A background lease with a gate, a foreground call that waits for both, and a shutdown after it owns the admission. -/
def handover : List Act :=
  [.tryAcquire probeLease "probe" .background,.tryAcquireHandoffGate probeLease probeGate,
   .tryAcquireAfter applyFrame applyLease "apply" .background,.release probeLease,.releaseGate probeGate,.wake applyFrame
     applyLease false,.shutdown]

theorem handoverOwned : ∃ w, Run (act admission) (may admission) {} handover w ∧ w.Owns admission applyLease ∧
    ∀ later, grants admission w later ≤ 1 := by
  have run : Run (act admission) (may admission) {} handover _ :=
    .step rfl (.step (Finset.notMem_empty _) (.step ⟨Finset.notMem_empty _,rfl⟩ (.step trivial (.step trivial (.step ⟨by decide,rfl⟩
      (.step trivial (.stop _)))))))
  refine ⟨_,run,⟨⟨rfl,by decide⟩,rfl⟩,?_⟩
  have shut : Act.shutdown ∈ handover := List.mem_append_right [_,_,_,_,_,_] List.mem_cons_self
  exact ((admissionExclusive run).2.2.2.1 shut).1

end Exclusion

end KeenPbr.MutationAdmission
