import KeenPbr.CircuitBreaker
import KeenPbr.Runs

/-! Runs of one circuit breaker under any number of concurrent requests. The breaker counts the
requests of the current half-open period; the traffic beside it remembers in which period each live
request was begun. -/
namespace KeenPbr.HalfOpen
open Runs

structure Request where
  tag : String
  begunIn : Option Nat
  deriving DecidableEq, Repr

structure Traffic where
  breaker : CircuitBreaker
  period : String → Nat := fun _ => 0
  live : List Request := []

inductive Call where
  | isAllowed (tag : String) (now : Int)
  | beginRequest (tag : String)
  | endRequest (request : Request)
  | recordSuccess (tag : String)
  | recordFailure (tag : String) (now : Int)

namespace Traffic
variable (traffic : Traffic)

def begun (tag : String) : Request :=
  ⟨tag,if traffic.breaker.stateOf tag = .halfOpen then some (traffic.period tag) else none⟩

def entered (tag : String) (after : CircuitBreaker) : String → Nat :=
  if traffic.breaker.stateOf tag ≠ .halfOpen ∧ after.stateOf tag = .halfOpen
    then Function.update traffic.period tag (traffic.period tag + 1)
  else traffic.period

def call : Call → Traffic
  | .isAllowed tag now =>
    { traffic with breaker := (traffic.breaker.isAllowed tag now).2, period := traffic.entered tag (traffic.breaker.isAllowed tag now).2 }
  | .beginRequest tag => { traffic with breaker := traffic.breaker.beginRequest tag, live := traffic.begun tag :: traffic.live }
  | .endRequest request => { traffic with breaker := traffic.breaker.endRequest request.tag, live := traffic.live.erase request }
  | .recordSuccess tag =>
    { traffic with breaker := traffic.breaker.recordSuccess tag, period := traffic.entered tag (traffic.breaker.recordSuccess tag) }
  | .recordFailure tag now =>
    { traffic with breaker := traffic.breaker.recordFailure tag now, period := traffic.entered tag (traffic.breaker.recordFailure tag now) }

def may : Call → Prop
  | .endRequest request => request ∈ traffic.live
  | _ => True

def current (tag : String) : Nat := traffic.live.count ⟨tag,some (traffic.period tag)⟩

/- A request of the half-open period begins only where is_allowed would let it, and a request from before
the period does not end in the middle of it while the counter is positive. -/
def InTurn : Call → Prop
  | .beginRequest tag =>
    traffic.breaker.stateOf tag = .halfOpen → traffic.breaker.active tag < traffic.breaker.halfOpenMax
  | .endRequest request =>
    traffic.breaker.stateOf request.tag = .halfOpen →
      request.begunIn = some (traffic.period request.tag) ∨ traffic.breaker.active request.tag = 0
  | _ => True

end Traffic

section Entries
variable (breaker : CircuitBreaker) (tag : String) (now : Int)

structure Touched (after : CircuitBreaker) (kept : CircuitBreakerEntry → Prop) : Prop where
  config : after.config = breaker.config
  others : ∀ other, other ≠ tag → after.entries other = breaker.entries other
  own : kept (after.entries tag)

variable {breaker tag} {kept : CircuitBreakerEntry → Prop}

theorem touchedSet {entry : CircuitBreakerEntry} (holds : kept entry) : Touched breaker tag (breaker.setEntry tag entry) kept := by
  refine ⟨rfl,fun other different => ?_,?_⟩
  · change Function.update breaker.entries tag entry other = _
    rw [Function.update_of_ne different]
  · change kept (Function.update breaker.entries tag entry tag)
    rw [Function.update_self]
    exact holds

theorem touchedSame (holds : kept (breaker.entries tag)) : Touched breaker tag breaker kept := ⟨rfl,fun _ _ => rfl,holds⟩

def Goes (old entry : CircuitBreakerEntry) : Prop :=
  entry.state = .halfOpen → old.state = .halfOpen ∧ entry.halfOpenActiveRequests = old.halfOpenActiveRequests

variable (breaker tag)

theorem recordSuccessTouches : Touched breaker tag (breaker.recordSuccess tag) (Goes (breaker.entries tag)) := by
  unfold CircuitBreaker.recordSuccess
  dsimp only
  split
  · rename_i half
    split
    · exact touchedSet fun closed => by cases closed
    · exact touchedSet fun _ => ⟨half,rfl⟩
  · rename_i closed
    exact touchedSet fun half => ⟨half,rfl⟩
  · exact touchedSame fun half => ⟨half,rfl⟩

theorem recordFailureTouches : Touched breaker tag (breaker.recordFailure tag now) (Goes (breaker.entries tag)) := by
  unfold CircuitBreaker.recordFailure
  dsimp only
  split
  · split
    · exact touchedSet fun opened => by cases opened
    · exact touchedSet fun half => ⟨half,rfl⟩
  · exact touchedSet fun opened => by cases opened
  · exact touchedSet fun half => ⟨half,rfl⟩

theorem isAllowedTouches : Touched breaker tag (breaker.isAllowed tag now).2 fun entry =>
  Goes (breaker.entries tag) entry ∨
    ((breaker.entries tag).state ≠ .halfOpen ∧ entry.state = .halfOpen ∧ entry.halfOpenActiveRequests = 0) := by
  unfold CircuitBreaker.isAllowed
  dsimp only
  split
  · exact touchedSame (.inl fun half => ⟨half,rfl⟩)
  · rename_i opened
    split
    · refine touchedSet (.inr ⟨?_,rfl,rfl⟩)
      rw [opened]
      decide
    · exact touchedSame (.inl fun half => ⟨half,rfl⟩)
  · exact touchedSame (.inl fun half => ⟨half,rfl⟩)

theorem beginRequestTouches : Touched breaker tag (breaker.beginRequest tag) fun entry =>
  entry.state = (breaker.entries tag).state ∧
    (entry.state = .halfOpen → entry.halfOpenActiveRequests = (breaker.entries tag).halfOpenActiveRequests + 1) := by
  unfold CircuitBreaker.beginRequest
  dsimp only
  split
  · exact touchedSet ⟨rfl,fun _ => rfl⟩
  · rename_i other
    exact touchedSame ⟨rfl,fun half => absurd half other⟩

theorem endRequestTouches : Touched breaker tag (breaker.endRequest tag) fun entry =>
  entry.state = (breaker.entries tag).state ∧
    entry.halfOpenActiveRequests.toNat = (breaker.entries tag).halfOpenActiveRequests.toNat - 1 := by
  unfold CircuitBreaker.endRequest
  dsimp only
  split
  · rename_i some_
    refine touchedSet ⟨rfl,?_⟩
    have one : (1 : UInt32) ≤ (breaker.entries tag).halfOpenActiveRequests := by
      rw [UInt32.le_iff_toNat_le]
      exact UInt32.lt_iff_toNat_lt.mp some_
    exact UInt32.toNat_sub_of_le _ _ one
  · rename_i none_
    refine touchedSame ⟨rfl,?_⟩
    have zero : ¬ 0 < (breaker.entries tag).halfOpenActiveRequests.toNat := fun positive => none_ (UInt32.lt_iff_toNat_lt.mpr positive)
    omega

end Entries

section Invariant
variable {config : CircuitBreakerConfig} {traffic : Traffic}

/- One tag: while it is half open its counter covers the requests of the period and stays within the limit. -/
def Covered (config : CircuitBreakerConfig) (traffic : Traffic) (tag : String) : Prop :=
  traffic.breaker.stateOf tag = .halfOpen →
    traffic.current tag ≤ (traffic.breaker.active tag).toNat ∧
      (traffic.breaker.active tag).toNat ≤ (toUint32 (config.halfOpenMaxRequests.getD 1)).toNat

structure Sound (config : CircuitBreakerConfig) (traffic : Traffic) : Prop where
  configured : traffic.breaker.config = config
  past : ∀ request ∈ traffic.live, ∀ period, request.begunIn = some period → period ≤ traffic.period request.tag
  covered : ∀ tag, Covered config traffic tag

theorem soundFresh (config : CircuitBreakerConfig) : Sound config { breaker := { config } } :=
  ⟨rfl,fun _ absent => (by cases absent),fun _ half => (by cases half)⟩

theorem coveredOther {after : Traffic} {tag other : String} {kept : CircuitBreakerEntry → Prop}
    (touched : Touched traffic.breaker tag after.breaker kept) (different : other ≠ tag)
    (period : after.period other = traffic.period other)
    (live : after.live.count ⟨other,some (traffic.period other)⟩ = traffic.live.count ⟨other,some (traffic.period other)⟩)
    (covered : Covered config traffic other) : Covered config after other := by
  unfold Covered Traffic.current CircuitBreaker.stateOf CircuitBreaker.active at *
  rw [touched.others other different,period,live]
  exact covered

theorem enteredLe (tag other : String) (after : CircuitBreaker) : traffic.period other ≤ traffic.entered tag after other := by
  unfold Traffic.entered
  split
  · by_cases same : other = tag
    · rw [same,Function.update_self]
      omega
    · exact Nat.le_of_eq (Function.update_of_ne same _ _).symm
  · exact Nat.le_refl _

theorem enteredOther {tag other : String} (different : other ≠ tag) (after : CircuitBreaker) :
    traffic.entered tag after other = traffic.period other := by
  unfold Traffic.entered
  split
  · rw [Function.update_of_ne different]
  · rfl

theorem soundMoved (sound : Sound config traffic) {tag : String} {after : CircuitBreaker}
    (touched : Touched traffic.breaker tag after fun entry =>
      Goes (traffic.breaker.entries tag) entry ∨
        ((traffic.breaker.entries tag).state ≠ .halfOpen ∧ entry.state = .halfOpen ∧ entry.halfOpenActiveRequests = 0)) :
    Sound config { traffic with breaker := after, period := traffic.entered tag after } := by
  refine ⟨touched.config.trans sound.configured,fun request mem period own =>
    Nat.le_trans (sound.past request mem period own) (enteredLe tag request.tag after),fun other => ?_⟩
  by_cases different : other = tag
  · subst different
    intro half
    rcases touched.own with goes | ⟨before,_,zero⟩
    · obtain ⟨old,same⟩ := goes half
      have stays : traffic.entered other after = traffic.period := if_neg fun begins => begins.1 old
      have covered := sound.covered other old
      unfold Traffic.current CircuitBreaker.active at covered ⊢
      dsimp only
      rw [stays,same]
      exact covered
    · have begins : traffic.entered other after = Function.update traffic.period other (traffic.period other + 1) := if_pos ⟨before,half⟩
      -- No live request carries the number of a period that only begins now.
      have none_ : traffic.live.count ⟨other,some (traffic.period other + 1)⟩ = 0 := by
        refine List.count_eq_zero.mpr fun mem => ?_
        have old := sound.past _ mem _ rfl
        dsimp only at old
        omega
      unfold Traffic.current CircuitBreaker.active
      dsimp only
      rw [begins,Function.update_self,none_,zero]
      exact ⟨Nat.le_refl 0,Nat.zero_le _⟩
  · exact coveredOther touched different (enteredOther different after) rfl (sound.covered other)

theorem soundBegun (sound : Sound config traffic) {tag : String} (turn : traffic.InTurn (.beginRequest tag)) :
    Sound config (traffic.call (.beginRequest tag)) := by
  have touched := beginRequestTouches traffic.breaker tag
  refine ⟨touched.config.trans sound.configured,?_,fun other => ?_⟩
  · refine List.forall_mem_cons.mpr ⟨fun period own => ?_,sound.past⟩
    unfold Traffic.begun at own
    dsimp only at own
    split at own
    · exact Nat.le_of_eq (Option.some.inj own).symm
    · cases own
  · by_cases different : other = tag
    · subst different
      intro half
      have old : (traffic.breaker.entries other).state = .halfOpen := touched.own.1.symm.trans half
      have room : (traffic.breaker.active other).toNat < (toUint32 (config.halfOpenMaxRequests.getD 1)).toNat := by
        rw [← sound.configured]
        exact UInt32.lt_iff_toNat_lt.mp (turn old)
      have counts : ((traffic.breaker.entries other).halfOpenActiveRequests + 1).toNat = (traffic.breaker.active other).toNat + 1 := by
        have limit := (toUint32 (config.halfOpenMaxRequests.getD 1)).toNat_lt
        rw [UInt32.toNat_add]
        exact Nat.mod_eq_of_lt (by change (traffic.breaker.active other).toNat + 1 < _; omega)
      have begun : traffic.begun other = ⟨other,some (traffic.period other)⟩ := by
        unfold Traffic.begun CircuitBreaker.stateOf
        rw [if_pos old]
      have covered := (sound.covered other old).1
      unfold Traffic.current CircuitBreaker.active at *
      dsimp only [Traffic.call]
      rw [touched.own.2 half,counts,begun,List.count_cons_self]
      omega
    · refine coveredOther touched different rfl (List.count_cons_of_ne ?_) (sound.covered other)
      intro same
      exact different (congrArg Request.tag same).symm

theorem soundEnded (sound : Sound config traffic) {request : Request} (turn : traffic.InTurn (.endRequest request)) :
    Sound config (traffic.call (.endRequest request)) := by
  have touched := endRequestTouches traffic.breaker request.tag
  refine ⟨touched.config.trans sound.configured,fun other kept => sound.past other (List.mem_of_mem_erase kept),fun other => ?_⟩
  by_cases different : other = request.tag
  · subst different
    intro half
    have old : (traffic.breaker.entries request.tag).state = .halfOpen := touched.own.1.symm.trans half
    obtain ⟨covers,within⟩ := sound.covered request.tag old
    unfold Traffic.current CircuitBreaker.active at *
    dsimp only [Traffic.call]
    rw [touched.own.2]
    rcases turn old with own | zero
    · have same : request = ⟨request.tag,some (traffic.period request.tag)⟩ := by rw [← own]
      rw [← same] at covers ⊢
      rw [List.count_erase_self]
      omega
    · have fewer := (List.erase_sublist (a := request) (l := traffic.live)).count_le ⟨request.tag,some (traffic.period request.tag)⟩
      have none_ : (traffic.breaker.entries request.tag).halfOpenActiveRequests.toNat = 0 := congrArg UInt32.toNat zero
      omega
  · refine coveredOther touched different rfl (List.count_erase_of_ne ?_) (sound.covered other)
    intro same
    exact different (congrArg Request.tag same)

theorem soundCalled (traffic : Traffic) (call : Call) (allowed : traffic.may call ∧ traffic.InTurn call) (sound : Sound config traffic) :
    Sound config (traffic.call call) := by
  cases call with
  | isAllowed tag now => exact soundMoved sound (isAllowedTouches traffic.breaker tag now)
  | beginRequest tag => exact soundBegun sound allowed.2
  | endRequest request => exact soundEnded sound allowed.2
  | recordSuccess tag =>
    have touched := recordSuccessTouches traffic.breaker tag
    exact soundMoved sound ⟨touched.config,touched.others,.inl touched.own⟩
  | recordFailure tag now =>
    have touched := recordFailureTouches traffic.breaker tag now
    exact soundMoved sound ⟨touched.config,touched.others,.inl touched.own⟩

end Invariant

/- The limit holds along every run whose begins and ends are in turn. -/
theorem halfOpenBounded (config : CircuitBreakerConfig) {calls : List Call} {traffic : Traffic}
    (run : Run Traffic.call (fun before call => before.may call ∧ before.InTurn call) { breaker := { config } } calls traffic)
    (tag : String)
    (half : traffic.breaker.stateOf tag = .halfOpen) :
    traffic.current tag ≤ (toUint32 (config.halfOpenMaxRequests.getD 1)).toNat := by
  have sound : Sound config traffic := run.keeps (fun before call allowed sound => soundCalled before call allowed sound)
    (soundFresh config)
  obtain ⟨covers,within⟩ := sound.covered tag half
  exact Nat.le_trans covers within

def eager : CircuitBreakerConfig :=
  { failureThreshold := some 1, timeoutMs := some 0, halfOpenMaxRequests := some 1 }

def probesInTurn : List Call :=
  [.recordFailure "wan" 0,.isAllowed "wan" 0,.beginRequest "wan",.endRequest ⟨"wan",some 1⟩,.isAllowed "wan" 0,.beginRequest "wan"]

theorem probesBounded :
    (probesInTurn.foldl Traffic.call { breaker := { config := eager } }).current "wan" = 1 ∧
      (probesInTurn.foldl Traffic.call { breaker := { config := eager } }).current "wan" ≤ 1 := by
  have run : Run Traffic.call (fun before call => before.may call ∧ before.InTurn call) { breaker := { config := eager } } probesInTurn
      (probesInTurn.foldl Traffic.call { breaker := { config := eager } }) := by
    refine .step ⟨trivial,trivial⟩
      (.step ⟨trivial,trivial⟩ (.step ⟨trivial,?_⟩ (.step ⟨?_,?_⟩ (.step ⟨trivial,trivial⟩ (.step ⟨trivial,?_⟩ (.stop _))))))
    · exact fun _ => by decide
    · exact List.mem_singleton.mpr rfl
    · exact fun _ => .inl rfl
    · exact fun _ => by decide
  exact ⟨by decide,halfOpenBounded eager run "wan" (by decide)⟩

/- Every begin follows an is_allowed that said yes. The probe of the first period ends in the second and
gives its place away. -/
def staleEnd : List Call :=
  [.recordFailure "wan" 0,.isAllowed "wan" 0,.beginRequest "wan",.recordFailure "wan" 0,.isAllowed "wan" 0,.beginRequest "wan",
    .endRequest ⟨"wan",some 1⟩,.isAllowed "wan" 0,.beginRequest "wan"]

theorem staleEndOverruns : ∃ traffic, Run Traffic.call Traffic.may { breaker := { config := eager } } staleEnd traffic ∧
    traffic.breaker.stateOf "wan" = .halfOpen ∧ traffic.current "wan" = 2 ∧ (toUint32 (eager.halfOpenMaxRequests.getD 1)).toNat = 1 := by
  refine ⟨staleEnd.foldl Traffic.call { breaker := { config := eager } },?_,by decide,by decide,by decide⟩
  refine .step trivial (.step trivial
    (.step trivial (.step trivial (.step trivial (.step trivial (.step ?_ (.step trivial (.step trivial (.stop _)))))))))
  exact List.mem_cons_of_mem _ (List.mem_singleton.mpr rfl)

end KeenPbr.HalfOpen
