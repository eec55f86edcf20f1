import KeenPbr.Config

/-! health/circuit_breaker.cpp. get_or_create makes a default entry for any tag, so the entries are
total; a time point counts nanoseconds of the steady clock. -/
namespace KeenPbr

inductive CircuitState where
  | closed
  | opened
  | halfOpen
  deriving DecidableEq, Repr

structure CircuitBreakerEntry where
  state : CircuitState := .closed
  failureCount : Int := 0
  successCountInHalfOpen : UInt32 := 0
  halfOpenActiveRequests : UInt32 := 0
  lastFailureTime : Int := 0
  openedAt : Int := 0
  deriving DecidableEq, Repr

structure CircuitBreaker where
  config : CircuitBreakerConfig := {}
  entries : String → CircuitBreakerEntry := fun _ => {}

namespace CircuitBreaker

def setEntry (breaker : CircuitBreaker) (tag : String) (entry : CircuitBreakerEntry) : CircuitBreaker :=
  { breaker with entries := Function.update breaker.entries tag entry }

def recordSuccess (breaker : CircuitBreaker) (tag : String) : CircuitBreaker :=
  let entry := breaker.entries tag
  match entry.state with
  | .halfOpen =>
    let counted := { entry with successCountInHalfOpen := entry.successCountInHalfOpen + 1 }
    if counted.successCountInHalfOpen ≥ toUint32 (breaker.config.successThreshold.getD 2) then
      breaker.setEntry tag { counted with
        state := .closed, failureCount := 0, successCountInHalfOpen := 0, halfOpenActiveRequests := 0 }
    else breaker.setEntry tag counted
  | .closed => breaker.setEntry tag { entry with failureCount := 0 }
  | .opened => breaker

def recordFailure (breaker : CircuitBreaker) (tag : String) (now : Int) : CircuitBreaker :=
  let entry := breaker.entries tag
  let counted := { entry with failureCount := entry.failureCount + 1, lastFailureTime := now }
  match entry.state with
  | .closed =>
    if counted.failureCount ≥ toInt32 (breaker.config.failureThreshold.getD 5) then
      breaker.setEntry tag { counted with state := .opened, openedAt := now }
    else breaker.setEntry tag counted
  | .halfOpen =>
    breaker.setEntry tag { counted with
      state := .opened, openedAt := now, successCountInHalfOpen := 0, halfOpenActiveRequests := 0 }
  | .opened => breaker.setEntry tag counted

def halfOpenMax (breaker : CircuitBreaker) : UInt32 := toUint32 (breaker.config.halfOpenMaxRequests.getD 1)

def isAllowed (breaker : CircuitBreaker) (tag : String) (now : Int) : Bool × CircuitBreaker :=
  let entry := breaker.entries tag
  match entry.state with
  | .closed => (true,breaker)
  | .opened =>
    if now - entry.openedAt ≥ breaker.config.timeoutMs.getD 30000 * 1000000 then
      (true,breaker.setEntry tag { entry with state := .halfOpen, successCountInHalfOpen := 0, halfOpenActiveRequests := 0 })
    else (false,breaker)
  | .halfOpen => (entry.halfOpenActiveRequests < breaker.halfOpenMax,breaker)

def beginRequest (breaker : CircuitBreaker) (tag : String) : CircuitBreaker :=
  let entry := breaker.entries tag
  if entry.state = .halfOpen then
    breaker.setEntry tag { entry with halfOpenActiveRequests := entry.halfOpenActiveRequests + 1 }
  else breaker

def endRequest (breaker : CircuitBreaker) (tag : String) : CircuitBreaker :=
  let entry := breaker.entries tag
  if entry.halfOpenActiveRequests > 0 then
    breaker.setEntry tag { entry with halfOpenActiveRequests := entry.halfOpenActiveRequests - 1 }
  else breaker

def stateOf (breaker : CircuitBreaker) (tag : String) : CircuitState := (breaker.entries tag).state

def active (breaker : CircuitBreaker) (tag : String) : UInt32 := (breaker.entries tag).halfOpenActiveRequests

structure Holds (breaker : CircuitBreaker) (child : String) (limit : Nat) : Prop where
  own : (breaker.active child).toNat ≤ limit
  others : ∀ tag, tag ≠ child → breaker.active tag = 0

variable {breaker : CircuitBreaker} {child : String} {limit : Nat}

theorem Holds.mono (holds : breaker.Holds child limit) {more : Nat} (le : limit ≤ more) : breaker.Holds child more :=
  ⟨Nat.le_trans holds.own le,holds.others⟩

theorem Holds.zero (holds : breaker.Holds child 0) (tag : String) : breaker.active tag = 0 := by
  by_cases same : tag = child
  · subst same
    exact UInt32.toNat.inj (Nat.le_zero.mp holds.own)
  · exact holds.others tag same

theorem Holds.setEntry (holds : breaker.Holds child limit) {entry : CircuitBreakerEntry} {more : Nat}
    (few : entry.halfOpenActiveRequests.toNat ≤ more) : (breaker.setEntry child entry).Holds child more := by
  refine ⟨?_,fun tag other => ?_⟩
  · change (Function.update breaker.entries child entry child).halfOpenActiveRequests.toNat ≤ more
    rw [Function.update_self]
    exact few
  · change (Function.update breaker.entries child entry tag).halfOpenActiveRequests = 0
    rw [Function.update_of_ne other]
    exact holds.others tag other

theorem fresh (config : CircuitBreakerConfig) (child : String) : ({ config } : CircuitBreaker).Holds child 0 :=
  ⟨Nat.le_refl 0,fun _ _ => rfl⟩

theorem Holds.recordSuccess (holds : breaker.Holds child limit) : (breaker.recordSuccess child).Holds child limit := by
  unfold CircuitBreaker.recordSuccess
  dsimp only
  split
  · split
    · exact holds.setEntry (Nat.zero_le limit)
    · exact holds.setEntry holds.own
  · exact holds.setEntry holds.own
  · exact holds

theorem Holds.recordFailure (holds : breaker.Holds child limit) (now : Int) : (breaker.recordFailure child now).Holds child limit := by
  unfold CircuitBreaker.recordFailure
  dsimp only
  split
  · split
    · exact holds.setEntry holds.own
    · exact holds.setEntry holds.own
  · exact holds.setEntry (Nat.zero_le limit)
  · exact holds.setEntry holds.own

theorem Holds.isAllowed (holds : breaker.Holds child limit) (now : Int) : (breaker.isAllowed child now).2.Holds child limit := by
  unfold CircuitBreaker.isAllowed
  dsimp only
  split
  · exact holds
  · split
    · exact holds.setEntry (Nat.zero_le limit)
    · exact holds
  · exact holds

theorem Holds.beginRequest (holds : breaker.Holds child 0) : (breaker.beginRequest child).Holds child 1 := by
  unfold CircuitBreaker.beginRequest
  dsimp only
  split
  · refine holds.setEntry ?_
    have none : (breaker.entries child).halfOpenActiveRequests = 0 := holds.zero child
    change ((breaker.entries child).halfOpenActiveRequests + 1).toNat ≤ 1
    rw [none]
    decide
  · exact holds.mono (Nat.zero_le 1)

theorem Holds.endRequest (holds : breaker.Holds child 1) : (breaker.endRequest child).Holds child 0 := by
  unfold CircuitBreaker.endRequest
  dsimp only
  have few : (breaker.entries child).halfOpenActiveRequests.toNat ≤ 1 := holds.own
  split
  · rename_i some_active
    refine holds.setEntry ?_
    have positive : 0 < (breaker.entries child).halfOpenActiveRequests.toNat := some_active
    have one : (breaker.entries child).halfOpenActiveRequests = 1 := UInt32.toNat.inj (Nat.le_antisymm few positive)
    change ((breaker.entries child).halfOpenActiveRequests - 1).toNat ≤ 0
    rw [one]
    decide
  · rename_i none_active
    refine ⟨?_,holds.others⟩
    have none : ¬ 0 < (breaker.entries child).halfOpenActiveRequests.toNat := none_active
    exact Nat.le_of_not_lt none

@[simp] theorem recordSuccess_config : (breaker.recordSuccess child).config = breaker.config := by
  unfold recordSuccess
  dsimp only
  split
  · split <;> rfl
  · rfl
  · rfl

@[simp] theorem recordFailure_config (now : Int) : (breaker.recordFailure child now).config = breaker.config := by
  unfold recordFailure
  dsimp only
  split
  · split <;> rfl
  · rfl
  · rfl

@[simp] theorem isAllowed_config (now : Int) : (breaker.isAllowed child now).2.config = breaker.config := by
  unfold isAllowed
  dsimp only
  split
  · rfl
  · split <;> rfl
  · rfl

@[simp] theorem beginRequest_config : (breaker.beginRequest child).config = breaker.config := by
  unfold beginRequest
  dsimp only
  split <;> rfl

@[simp] theorem endRequest_config : (breaker.endRequest child).config = breaker.config := by
  unfold endRequest
  dsimp only
  split <;> rfl

end CircuitBreaker

end KeenPbr
