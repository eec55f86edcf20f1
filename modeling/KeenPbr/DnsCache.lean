import KeenPbr.Runs

/-! KeeneticDnsCache of dns/keenetic_dns.cpp. The mutex is held but for the wait and the fetch, so a
call is cut there: what it does up to the wait or the fetch, what it does when it wakes, and what
it does when the fetch has ended. The steady clock is read as the time since its epoch, and the
64-bit counters are numbers. -/
namespace KeenPbr.DnsCache
open Runs

inductive KeeneticDnsCacheStatus where
  | fresh
  | stale
  | unavailable
  deriving DecidableEq, Repr

structure KeeneticDnsCacheView (α : Type) where
  snapshot : Option α
  status : KeeneticDnsCacheStatus := .unavailable
  refreshed : Bool := false
  changed : Bool := false
  generation : Nat := 0
  error : String := ""
  deriving DecidableEq, Repr

structure KeeneticDnsCache (α : Type) where
  snapshot : Option α := none
  status : KeeneticDnsCacheStatus := .unavailable
  refreshAfter : Int := 0
  forcedRefreshAfter : Int := 0
  refreshAttempted : Bool := false
  refreshInProgress : Bool := false
  lastRefreshAccepted : Bool := false
  lastRefreshChanged : Bool := false
  refreshGeneration : Nat := 0
  invalidationEpoch : Nat := 0
  lastCompletedRefreshEpoch : Nat := 0
  lastError : String := ""
  deriving DecidableEq, Repr

section Calls
variable {α : Type} (equal : α → α → Bool) (cacheTtl failureRetry : Int)

def snapshotLocked (cache : KeeneticDnsCache α) (now : Nat) (refreshed changed : Bool) : KeeneticDnsCacheView α :=
  let effectiveStatus := if cache.snapshot.isSome && cache.status == .fresh && cache.refreshAfter ≤ now then .stale else cache.status
  { snapshot := cache.snapshot, status := if cache.snapshot.isSome then effectiveStatus else .unavailable, refreshed, changed,
    generation := cache.refreshGeneration, error := cache.lastError }

def unfreshStatus (cache : KeeneticDnsCache α) : KeeneticDnsCacheStatus := if cache.snapshot.isSome then .stale else .unavailable

def invalidate (cache : KeeneticDnsCache α) : KeeneticDnsCache α :=
  { cache with invalidationEpoch := cache.invalidationEpoch + 1, status := unfreshStatus cache, refreshAfter := 0, forcedRefreshAfter := 0,
               lastError := "" }

inductive Entered (α : Type) where
  | returns (view : KeeneticDnsCacheView α)
  | waits (observedGeneration : Nat)
  | fetches (cache : KeeneticDnsCache α) (fetchInvalidationEpoch : Nat)

/- One round of the loop of get_impl, up to its wait or its fetch. -/
def enter (cache : KeeneticDnsCache α) (forceRefresh : Bool) (now viewNow : Nat) : Entered α :=
  if cache.refreshAttempted && ((!forceRefresh && (now : Int) < cache.refreshAfter) ||
    (forceRefresh && (now : Int) < cache.forcedRefreshAfter)) then
    .returns (snapshotLocked cache viewNow false false)
  else if cache.refreshInProgress then .waits cache.refreshGeneration
  else .fetches { cache with refreshInProgress := true } cache.invalidationEpoch

inductive Woken (α : Type) where
  | asleep
  | again
  | returns (view : KeeneticDnsCacheView α)

def wake (cache : KeeneticDnsCache α) (observedGeneration viewNow : Nat) : Woken α :=
  if cache.refreshGeneration = observedGeneration then .asleep
  else if cache.lastCompletedRefreshEpoch ≠ cache.invalidationEpoch then .again
  else .returns (snapshotLocked cache viewNow cache.lastRefreshAccepted cache.lastRefreshChanged)

/- From lock.lock() after the fetch to the return. -/
def complete (cache : KeeneticDnsCache α) (fetchInvalidationEpoch : Nat) (fetched : Except String α) (completedAt viewNow : Nat) :
    KeeneticDnsCache α × KeeneticDnsCacheView α :=
  let refreshEpochIsCurrent := fetchInvalidationEpoch == cache.invalidationEpoch
  let attempted := { cache with refreshAttempted := true }
  let refreshed : KeeneticDnsCache α :=
    match fetched with
    | .ok snapshot =>
      if refreshEpochIsCurrent then
        { attempted with snapshot := some snapshot, status := .fresh, refreshAfter := completedAt + cacheTtl,
                         forcedRefreshAfter := 0, lastError := "",
                         lastRefreshAccepted := true, lastRefreshChanged := !cache.snapshot.any (equal · snapshot) }
      else
        { attempted with status := unfreshStatus cache, refreshAfter := 0, forcedRefreshAfter := 0, lastRefreshAccepted := false,
                         lastRefreshChanged := false }
    | .error fetchError =>
      { attempted with
        status := unfreshStatus cache
        refreshAfter := if refreshEpochIsCurrent then completedAt + failureRetry else 0
        forcedRefreshAfter := if refreshEpochIsCurrent then completedAt + failureRetry else 0
        lastError := if refreshEpochIsCurrent then fetchError else cache.lastError
        lastRefreshAccepted := false
        lastRefreshChanged := false }
  let completed := { refreshed with refreshInProgress := false, lastCompletedRefreshEpoch := fetchInvalidationEpoch,
                                    refreshGeneration := cache.refreshGeneration + 1 }
  (completed,snapshotLocked completed viewNow completed.lastRefreshAccepted completed.lastRefreshChanged)

end Calls

inductive Caller where
  | idle
  | waiting (forceRefresh : Bool) (observedGeneration : Nat)
  | fetching (fetchInvalidationEpoch began : Nat)
  deriving DecidableEq, Repr

/- The cache with its callers. Every action takes a tick; a snapshot is kept with the tick its fetch
began at, beside the ticks of the last invalidation and of the start of the fetch that ended last. -/
structure World (κ σ : Type) where
  cache : KeeneticDnsCache (σ × Nat) := {}
  callers : κ → Caller := fun _ => .idle
  tick : Nat := 1
  invalidatedAt : Nat := 0
  completedBegan : Nat := 0

inductive Act (κ σ : Type) where
  | call (caller : κ) (forceRefresh : Bool) (now viewNow : Nat)
  | wake (caller : κ) (now viewNow : Nat)
  | complete (caller : κ) (fetched : Except String σ) (completedAt viewNow : Nat)
  | invalidate
  | peek (now : Nat)

section Steps
variable {κ σ : Type} [DecidableEq κ] (equal : σ → σ → Bool) (cacheTtl failureRetry : Int)

def World.enter (w : World κ σ) (caller : κ) (forceRefresh : Bool) (now viewNow : Nat) :
    World κ σ × Option (KeeneticDnsCacheView (σ × Nat)) :=
  match DnsCache.enter w.cache forceRefresh now viewNow with
  | .returns view => ({ w with callers := Function.update w.callers caller .idle },some view)
  | .waits observedGeneration => ({ w with callers := Function.update w.callers caller (.waiting forceRefresh observedGeneration) },none)
  | .fetches cache fetchInvalidationEpoch =>
    ({ w with cache, callers := Function.update w.callers caller (.fetching fetchInvalidationEpoch w.tick) },none)

def effect (w : World κ σ) : Act κ σ → World κ σ × Option (KeeneticDnsCacheView (σ × Nat))
  | .call caller forceRefresh now viewNow => w.enter caller forceRefresh now viewNow
  | .wake caller now viewNow =>
    match w.callers caller with
    | .waiting forceRefresh observedGeneration =>
      match DnsCache.wake w.cache observedGeneration viewNow with
      | .asleep => (w,none)
      | .again => w.enter caller forceRefresh now viewNow
      | .returns view => ({ w with callers := Function.update w.callers caller .idle },some view)
    | _ => (w,none)
  | .complete caller fetched completedAt viewNow =>
    match w.callers caller with
    | .fetching fetchInvalidationEpoch began =>
      let (cache,view) := DnsCache.complete (fun a b : σ × Nat => equal a.1 b.1) cacheTtl failureRetry w.cache fetchInvalidationEpoch
        (fetched.map (·,began)) completedAt viewNow
      ({ w with cache, callers := Function.update w.callers caller .idle, completedBegan := began },some view)
    | _ => (w,none)
  | .invalidate => ({ w with cache := DnsCache.invalidate w.cache, invalidatedAt := w.tick },none)
  | .peek now => (w,some (snapshotLocked w.cache now false false))

def act (w : World κ σ) (a : Act κ σ) : World κ σ :=
  { (effect equal cacheTtl failureRetry w a).1 with tick := w.tick + 1 }

def may (w : World κ σ) : Act κ σ → Prop
  | .call caller _ _ _ => w.callers caller = .idle
  | _ => True

def World.Fetching (w : World κ σ) (caller : κ) :
    Prop := ∃ fetchInvalidationEpoch began, w.callers caller = .fetching fetchInvalidationEpoch began

end Steps

section Invariant
variable {κ σ : Type} [DecidableEq κ] {equal : σ → σ → Bool} {cacheTtl failureRetry : Int}

/- One fetch at most is in flight. A fetch of the current epoch began after the last invalidation,
and so did the one that ended last if it is of that epoch; only then the times to wait are set. -/
structure Sound (w : World κ σ) : Prop where
  single : ∀ j k, w.Fetching j → w.Fetching k → j = k
  flight : w.cache.refreshInProgress = false → ∀ k, ¬ w.Fetching k
  clock : w.invalidatedAt < w.tick
  fetch : ∀ k epoch began, w.callers k = .fetching epoch began → epoch ≤ w.cache.invalidationEpoch ∧
    (epoch = w.cache.invalidationEpoch → w.invalidatedAt < began)
  fresh : w.cache.status = .fresh → ∃ snapshot began, w.cache.snapshot = some (snapshot,began) ∧ w.invalidatedAt < began
  completed : w.cache.lastCompletedRefreshEpoch ≤ w.cache.invalidationEpoch
  current : w.cache.refreshGeneration ≠ 0 → w.cache.lastCompletedRefreshEpoch = w.cache.invalidationEpoch →
    w.invalidatedAt < w.completedBegan
  settled : w.cache.lastCompletedRefreshEpoch ≠ w.cache.invalidationEpoch → w.cache.refreshAfter = 0 ∧ w.cache.forcedRefreshAfter = 0
  accepted : w.cache.lastRefreshAccepted = true → ∃ snapshot, w.cache.snapshot = some (snapshot,w.completedBegan)
  waiting : ∀ k force observed, w.callers k = .waiting force observed → observed ≤ w.cache.refreshGeneration

omit [DecidableEq κ] in
theorem soundInitially : Sound ({} : World κ σ) where
  single _ _ := by rintro ⟨_,_,impossible⟩; cases impossible
  flight _ _ := by rintro ⟨_,_,impossible⟩; cases impossible
  clock := Nat.zero_lt_one
  fetch _ _ _ impossible := by cases impossible
  fresh impossible := by cases impossible
  completed := Nat.le_refl _
  current started := absurd rfl started
  settled other := absurd rfl other
  accepted impossible := by cases impossible
  waiting _ _ _ impossible := by cases impossible

variable {w : World κ σ}

theorem updatedAt {callers : κ → Caller} {caller k : κ} {place other : Caller} (found : Function.update callers caller place k = other) :
    k = caller ∧ place = other ∨ k ≠ caller ∧ callers k = other := by
  by_cases own : k = caller
  · subst own
    rw [Function.update_self] at found
    exact .inl ⟨rfl,found⟩
  · rw [Function.update_of_ne own] at found
    exact .inr ⟨own,found⟩

theorem Sound.moved (sound : Sound w) {caller : κ} {place : Caller} (free : ∀ epoch began, place ≠ .fetching epoch began)
    (seen : ∀ force observed, place = .waiting force observed → observed ≤ w.cache.refreshGeneration) :
    Sound { w with callers := Function.update w.callers caller place, tick := w.tick + 1 } := by
  have before (k : κ) (held : World.Fetching { w with callers := Function.update w.callers caller place, tick := w.tick + 1 } k) :
      w.Fetching k := by
    obtain ⟨epoch,began,at_k⟩ := held
    rcases updatedAt at_k with ⟨_,same⟩ | ⟨_,same⟩
    · exact absurd same (free epoch began)
    · exact ⟨epoch,began,same⟩
  refine ⟨fun j k left right => sound.single j k (before j left) (before k right),fun idle k held => sound.flight idle k (before k held),
    Nat.lt_succ_of_lt sound.clock,fun k epoch began at_k => ?_,sound.fresh,sound.completed,sound.current,sound.settled,sound.accepted,
    fun k force observed at_k => ?_⟩
  · rcases updatedAt at_k with ⟨_,same⟩ | ⟨_,same⟩
    · exact absurd same (free epoch began)
    · exact sound.fetch k epoch began same
  · rcases updatedAt at_k with ⟨_,same⟩ | ⟨_,same⟩
    · exact seen force observed same
    · exact sound.waiting k force observed same

omit [DecidableEq κ] in
theorem Sound.ticked (sound : Sound w) : Sound { w with tick := w.tick + 1 } :=
  ⟨sound.single,sound.flight,Nat.lt_succ_of_lt sound.clock,sound.fetch,sound.fresh,sound.completed,sound.current,
    sound.settled,sound.accepted,
    sound.waiting⟩

theorem Sound.started (sound : Sound w) (idle : w.cache.refreshInProgress = false) (caller : κ) :
    Sound { w with cache := { w.cache with refreshInProgress := true }, tick := w.tick + 1
                   callers := Function.update w.callers caller (.fetching w.cache.invalidationEpoch w.tick) } := by
  have only (k : κ) (held : World.Fetching { w with
      cache := { w.cache with refreshInProgress := true }, tick := w.tick + 1
      callers := Function.update w.callers caller (.fetching w.cache.invalidationEpoch w.tick) } k) : k = caller := by
    obtain ⟨epoch,began,at_k⟩ := held
    rcases updatedAt at_k with ⟨own,_⟩ | ⟨_,same⟩
    · exact own
    · exact absurd ⟨epoch,began,same⟩ (sound.flight idle k)
  refine ⟨fun j k left right => (only j left).trans (only k right).symm,(fun impossible => by cases impossible),
    Nat.lt_succ_of_lt sound.clock,
    fun k epoch began at_k => ?_,sound.fresh,sound.completed,sound.current,sound.settled,sound.accepted,fun k force observed at_k => ?_⟩
  · rcases updatedAt at_k with ⟨_,same⟩ | ⟨_,same⟩
    · cases same
      exact ⟨Nat.le_refl _,fun _ => sound.clock⟩
    · exact absurd ⟨epoch,began,same⟩ (sound.flight idle k)
  · rcases updatedAt at_k with ⟨_,same⟩ | ⟨_,same⟩
    · cases same
    · exact sound.waiting k force observed same

theorem enterSound (sound : Sound w) (caller : κ) (forceRefresh : Bool) (now viewNow : Nat) :
    Sound { (w.enter caller forceRefresh now viewNow).1 with tick := w.tick + 1 } := by
  unfold World.enter DnsCache.enter
  split
  · rename_i cached
    exact sound.moved nofun nofun
  · rename_i observedGeneration found
    split at found
    · cases found
    · split at found
      · cases found
        exact sound.moved nofun fun _ _ same => by cases same; exact Nat.le_refl _
      · cases found
  · rename_i cache epoch found
    split at found
    · cases found
    · split at found
      · cases found
      · rename_i idle
        cases found
        exact sound.started (by simpa using idle) caller

omit [DecidableEq κ] in
theorem invalidateSound (sound : Sound w) : Sound { w with cache := invalidate w.cache, invalidatedAt := w.tick, tick := w.tick + 1 } where
  single := sound.single
  flight := sound.flight
  clock := Nat.lt_succ_self _
  fetch k epoch began at_k := by
    have bound := (sound.fetch k epoch began at_k).1
    exact ⟨Nat.le_succ_of_le bound,fun same => absurd same (Nat.ne_of_lt (Nat.lt_succ_of_le bound))⟩
  fresh held := by
    simp only [invalidate,unfreshStatus] at held
    split at held <;> cases held
  completed := Nat.le_succ_of_le sound.completed
  current _ same := absurd same (Nat.ne_of_lt (Nat.lt_succ_of_le sound.completed))
  settled _ := ⟨rfl,rfl⟩
  accepted := sound.accepted
  waiting := sound.waiting

theorem completeShape {α : Type} (equal : α → α → Bool) (cacheTtl failureRetry : Int) (cache : KeeneticDnsCache α)
    (epoch : Nat) (fetched : Except String α) (completedAt viewNow : Nat) :
    let next := (complete equal cacheTtl failureRetry cache epoch fetched completedAt viewNow).1
    next.refreshInProgress = false ∧ next.invalidationEpoch = cache.invalidationEpoch ∧ next.lastCompletedRefreshEpoch = epoch ∧
      next.refreshGeneration = cache.refreshGeneration + 1 ∧
      (epoch ≠ cache.invalidationEpoch → next.refreshAfter = 0 ∧ next.forcedRefreshAfter = 0) ∧
      ((∃ snapshot, fetched = .ok snapshot ∧ epoch = cache.invalidationEpoch ∧ next.snapshot = some snapshot) ∨
        next.status ≠ .fresh ∧ next.lastRefreshAccepted = false) := by
  have unfresh : unfreshStatus cache ≠ .fresh := by
    unfold unfreshStatus
    split <;> nofun
  unfold complete
  dsimp only
  cases fetched with
  | ok snapshot =>
    by_cases current : epoch = cache.invalidationEpoch
    · rw [beq_iff_eq.mpr current]
      exact ⟨rfl,rfl,rfl,rfl,fun other => absurd current other,.inl ⟨snapshot,rfl,current,rfl⟩⟩
    · rw [beq_eq_false_iff_ne.mpr current]
      exact ⟨rfl,rfl,rfl,rfl,fun _ => ⟨rfl,rfl⟩,.inr ⟨unfresh,rfl⟩⟩
  | error fetchError =>
    refine ⟨rfl,rfl,rfl,rfl,fun other => ?_,.inr ⟨unfresh,rfl⟩⟩
    rw [beq_eq_false_iff_ne.mpr other]
    exact ⟨rfl,rfl⟩

theorem completeSound (sound : Sound w) {caller : κ} {epoch began : Nat} (at_caller : w.callers caller = .fetching epoch began)
    (fetched : Except String σ)
    (completedAt viewNow : Nat) :
    Sound { w with cache := (complete (fun a b : σ × Nat => equal a.1 b.1) cacheTtl failureRetry w.cache epoch
      (fetched.map (·,began)) completedAt
                     viewNow).1
                   callers := Function.update w.callers caller .idle, completedBegan := began, tick := w.tick + 1 } := by
  obtain ⟨idle,epochs,last,generation,settled,outcome⟩ :=
    completeShape (fun a b : σ × Nat => equal a.1 b.1) cacheTtl failureRetry w.cache epoch
      (fetched.map (·,began)) completedAt viewNow
  generalize (complete (fun a b : σ × Nat => equal a.1 b.1) cacheTtl failureRetry w.cache epoch
    (fetched.map (·,began)) completedAt viewNow).1 = next at *
  obtain ⟨bound,recent⟩ := sound.fetch caller epoch began at_caller
  have none_left (k : κ) : ¬ World.Fetching { w with
      cache := next, callers := Function.update w.callers caller .idle, completedBegan := began, tick := w.tick + 1 } k := by
    rintro ⟨other,start,at_k⟩
    rcases updatedAt at_k with ⟨_,same⟩ | ⟨apart,same⟩
    · cases same
    · exact apart (sound.single k caller ⟨other,start,same⟩ ⟨epoch,began,at_caller⟩)
  refine ⟨fun j k left => absurd left (none_left j),fun _ => none_left,Nat.lt_succ_of_lt sound.clock,fun k other start at_k =>
    absurd ⟨other,start,at_k⟩ (none_left k),?_,?_,?_,?_,?_,?_⟩
  · intro fresh
    rcases outcome with ⟨snapshot,ok,current,stored⟩ | ⟨unfresh,_⟩
    · cases fetched with
      | ok value =>
        cases ok
        exact ⟨value,began,stored,recent current⟩
      | error message => cases ok
    · exact absurd fresh unfresh
  · dsimp only
    rw [last,epochs]
    exact bound
  · intro _ same
    dsimp only at same
    rw [last,epochs] at same
    exact recent same
  · intro other
    dsimp only at other
    rw [last,epochs] at other
    exact settled other
  · intro accepted
    rcases outcome with ⟨snapshot,ok,_,stored⟩ | ⟨_,rejected⟩
    · cases fetched with
      | ok value =>
        cases ok
        exact ⟨value,stored⟩
      | error message => cases ok
    · dsimp only at accepted
      rw [rejected] at accepted
      cases accepted
  · intro k force observed at_k
    dsimp only
    rw [generation]
    rcases updatedAt at_k with ⟨_,same⟩ | ⟨_,same⟩
    · cases same
    · exact Nat.le_succ_of_le (sound.waiting k force observed same)

theorem stepSound {a : Act κ σ} (sound : Sound w) : Sound (act equal cacheTtl failureRetry w a) := by
  unfold act
  cases a with
  | call caller forceRefresh now viewNow => exact enterSound sound caller forceRefresh now viewNow
  | wake caller now viewNow =>
    simp only [effect]
    split
    · split
      · exact sound.ticked
      · exact enterSound sound caller _ now viewNow
      · exact sound.moved nofun nofun
    · exact sound.ticked
  | complete caller fetched completedAt viewNow =>
    simp only [effect]
    split
    · rename_i epoch began at_caller
      exact completeSound sound at_caller fetched completedAt viewNow
    · exact sound.ticked
  | invalidate => exact invalidateSound sound
  | peek now => exact sound.ticked

end Invariant

section Views
variable {κ σ : Type} [DecidableEq κ] {equal : σ → σ → Bool} {cacheTtl failureRetry : Int} {w : World κ σ}

theorem freshView {α : Type} {cache : KeeneticDnsCache α} {now : Nat} {refreshed changed : Bool}
    (fresh : (snapshotLocked cache now refreshed changed).status = .fresh) : cache.status = .fresh := by
  unfold snapshotLocked at fresh
  dsimp only at fresh
  split at fresh
  · split at fresh
    · cases fresh
    · exact fresh
  · cases fresh

theorem enterReturns {caller : κ} {forceRefresh : Bool} {now viewNow : Nat} {view : KeeneticDnsCacheView (σ × Nat)}
    (returned : (w.enter caller forceRefresh now viewNow).2 = some view) :
    view = snapshotLocked w.cache viewNow false false ∧ (w.enter caller forceRefresh now viewNow).1.cache = w.cache ∧
      ((now : Int) < w.cache.refreshAfter ∨ (now : Int) < w.cache.forcedRefreshAfter) := by
  unfold World.enter DnsCache.enter at returned ⊢
  by_cases cached : (w.cache.refreshAttempted && ((!forceRefresh && decide ((now : Int) < w.cache.refreshAfter)) ||
      (forceRefresh && decide ((now : Int) < w.cache.forcedRefreshAfter)))) = true
  · simp only [cached,if_true] at returned ⊢
    cases returned
    refine ⟨rfl,trivial,?_⟩
    simp only [Bool.and_eq_true,Bool.or_eq_true,decide_eq_true_eq] at cached
    exact cached.2.imp And.right And.right
  · simp only [cached,if_false,Bool.false_eq_true] at returned
    by_cases busy : w.cache.refreshInProgress = true
    · simp only [busy,if_true] at returned
      cases returned
    · simp only [busy,if_false,Bool.false_eq_true] at returned
      cases returned

theorem wakeReturns {caller : κ} {now viewNow : Nat} {view : KeeneticDnsCacheView (σ × Nat)}
    (returned : (effect equal cacheTtl failureRetry w (.wake caller now viewNow)).2 = some view) :
    (∃ force observed, w.callers caller = .waiting force observed ∧ w.cache.refreshGeneration ≠ observed) ∧
      (effect equal cacheTtl failureRetry w (.wake caller now viewNow)).1.cache = w.cache ∧
      ((w.cache.lastCompletedRefreshEpoch = w.cache.invalidationEpoch ∧
          view = snapshotLocked w.cache viewNow w.cache.lastRefreshAccepted w.cache.lastRefreshChanged) ∨
        (w.cache.lastCompletedRefreshEpoch ≠ w.cache.invalidationEpoch ∧ view = snapshotLocked w.cache viewNow false false ∧
          ((now : Int) < w.cache.refreshAfter ∨ (now : Int) < w.cache.forcedRefreshAfter))) := by
  cases place : w.callers caller with
  | idle =>
    simp only [effect,place] at returned
    cases returned
  | fetching epoch began =>
    simp only [effect,place] at returned
    cases returned
  | waiting force observed =>
    by_cases asleep : w.cache.refreshGeneration = observed
    · simp only [effect,place,DnsCache.wake,if_pos asleep] at returned
      cases returned
    · by_cases current : w.cache.lastCompletedRefreshEpoch = w.cache.invalidationEpoch
      · simp only [effect,place,DnsCache.wake,if_neg asleep,current,ne_eq,not_true_eq_false,if_false] at returned ⊢
        cases returned
        exact ⟨⟨force,observed,rfl,asleep⟩,trivial,.inl ⟨trivial,rfl⟩⟩
      · simp only [effect,place,DnsCache.wake,if_neg asleep,ne_eq,current,not_false_eq_true,if_true] at returned ⊢
        obtain ⟨shown,kept,early⟩ := enterReturns returned
        exact ⟨⟨force,observed,rfl,asleep⟩,kept,.inr ⟨trivial,shown,early⟩⟩

theorem viewOf {a : Act κ σ} {view : KeeneticDnsCacheView (σ × Nat)} (returned : (effect equal cacheTtl failureRetry w a).2 = some view) :
    ∃ now refreshed changed, view = snapshotLocked (act equal cacheTtl failureRetry w a).cache now refreshed changed := by
  cases a with
  | call caller forceRefresh now viewNow =>
    obtain ⟨shown,kept,_⟩ := enterReturns returned
    have same : (act equal cacheTtl failureRetry w (.call caller forceRefresh now viewNow)).cache = w.cache := kept
    exact ⟨viewNow,false,false,by rw [shown,same]⟩
  | wake caller now viewNow =>
    obtain ⟨_,kept,shown⟩ := wakeReturns returned
    have same : (act equal cacheTtl failureRetry w (.wake caller now viewNow)).cache = w.cache := kept
    rcases shown with ⟨_,shown⟩ | ⟨_,shown,_⟩
    · exact ⟨viewNow,w.cache.lastRefreshAccepted,w.cache.lastRefreshChanged,by rw [shown,same]⟩
    · exact ⟨viewNow,false,false,by rw [shown,same]⟩
  | complete caller fetched completedAt viewNow =>
    simp only [act,effect] at returned ⊢
    split at returned
    · cases returned
      exact ⟨viewNow,_,_,rfl⟩
    · cases returned
  | invalidate => cases returned
  | peek now =>
    cases returned
    exact ⟨now,false,false,rfl⟩

theorem reachableSound {history : List (Act κ σ)} (run : Run (act equal cacheTtl failureRetry) may {} history w) : Sound w :=
  run.keeps (fun _ _ _ sound => stepSound sound) soundInitially

/- In every interleaving one fetch at most is in flight; a fresh view holds the snapshot of a fetch
that began after the last invalidation; and a caller that waited returns with the outcome of a fetch
that began after the last invalidation, and with its snapshot if the fetch was accepted. -/
theorem cacheCurrent {history : List (Act κ σ)} (run : Run (act equal cacheTtl failureRetry) may {} history w) :
    (∀ j k, w.Fetching j → w.Fetching k → j = k) ∧
    (∀ a view, (effect equal cacheTtl failureRetry w a).2 = some view → view.status = .fresh →
      ∃ snapshot began, view.snapshot = some (snapshot,began) ∧ (act equal cacheTtl failureRetry w a).invalidatedAt < began) ∧
    (∀ caller now viewNow view, (effect equal cacheTtl failureRetry w (.wake caller now viewNow)).2 = some view →
      w.invalidatedAt < w.completedBegan ∧ view.refreshed = w.cache.lastRefreshAccepted ∧
        (view.refreshed = true → ∃ snapshot, view.snapshot = some (snapshot,w.completedBegan))) := by
  have sound := reachableSound run
  refine ⟨sound.single,fun a view returned fresh => ?_,fun caller now viewNow view returned => ?_⟩
  · obtain ⟨now,refreshed,changed,rfl⟩ := viewOf returned
    have after : Sound (act equal cacheTtl failureRetry w a) := stepSound sound
    exact after.fresh (freshView fresh)
  · obtain ⟨⟨force,observed,waits,woken⟩,_,shown⟩ := wakeReturns returned
    have seen := sound.waiting caller force observed waits
    rcases shown with ⟨current,rfl⟩ | ⟨other,_,early⟩
    · exact ⟨sound.current (by omega) current,rfl,sound.accepted⟩
    · -- the times to wait are not set in a new epoch
      obtain ⟨after,forced⟩ := sound.settled other
      rw [after,forced] at early
      omega

/- One caller fetches and another waits; the first fetch ends after an invalidation, and the next one is taken. -/
def secondFetch : List (Act Bool String) :=
  [.call true false 0 0,.call false true 1 1,.invalidate,.complete true (.ok "a") 2 2,.call true false 3 3,.complete true (.ok "b") 4 4]

theorem waiterRefreshed : ∃ w view, Run (act (· == ·) 10 5) may {} secondFetch w ∧
    (effect (· == ·) 10 5 w (.wake false 5 5)).2 = some view ∧ view.status = .fresh ∧ view.snapshot.map Prod.fst = some "b" ∧
    0 < w.invalidatedAt ∧ w.invalidatedAt < w.completedBegan := by
  have run : Run (act (κ := Bool) (σ := String) (· == ·) 10 5) may {} secondFetch _ :=
    .step rfl (.step rfl (.step trivial (.step trivial (.step rfl (.step trivial (.stop _))))))
  refine ⟨_,_,run,rfl,rfl,rfl,by decide,?_⟩
  exact ((cacheCurrent run).2.2 false 5 5 _ rfl).1

end Views

end KeenPbr.DnsCache
