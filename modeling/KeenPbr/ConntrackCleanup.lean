import KeenPbr.Conntrack
import KeenPbr.Runs
import Mathlib.Data.Finset.Basic

/-! What is left of a deletion by marks, and daemon/conntrack_cleanup_coordinator.cpp, which keeps it for
a later attempt. -/
namespace KeenPbr.ConntrackCleanup
open Conntrack Runs

section Deleting
variable (env : Environment) (ownedMask : UInt32) (options : ConntrackCleanupOptions)

def familyCommands (mark : UInt32) : List Command :=
  markCommand ownedMask "ipv4" mark :: if options.ipv6Enabled then [markCommand ownedMask "ipv6" mark] else []

/- A mark the loop took up, the commands before its turn and those of its turn. -/
structure Turn where
  mark : UInt32
  before : List Command
  own : List Command

inductive Turns : List Command → List Turn → Prop where
  | stop (before : List Command) : Turns before []
  | turn {before own : List Command} {mark : UInt32} {rest : List Turn} (shape : own <+: familyCommands ownedMask options mark)
      (later : Turns (before ++ own) rest) : Turns before (⟨mark,before,own⟩ :: rest)

def Turn.confirmed (turn : Turn) : Bool :=
  turn.own == familyCommands ownedMask options turn.mark &&
  deleteFamily env turn.before (markCommand ownedMask "ipv4" turn.mark) == .succeeded &&
  (!options.ipv6Enabled ||
    deleteFamily env (turn.before ++ [markCommand ownedMask "ipv4" turn.mark]) (markCommand ownedMask "ipv6" turn.mark) == .succeeded)

def unconfirmed (turns : List Turn) : List UInt32 := (turns.filter fun turn => !turn.confirmed env ownedMask options).map Turn.mark

structure Account (loop : MarkLoop) (marks : List UInt32) (result : MarkLoop) (turns : List Turn) (left : List UInt32)
    (last : List Command) : Prop where
  spent : marks = turns.map Turn.mark ++ left
  chained : Turns ownedMask options loop.commands turns
  issued : result.commands = loop.commands ++ turns.flatMap Turn.own ++ last
  stopped : last = [] ∨ ∃ mark later, left = mark :: later ∧ last = [markCommand ownedMask "ipv4" mark] ∧
    deleteFamily env (loop.commands ++ turns.flatMap Turn.own) (markCommand ownedMask "ipv4" mark) = .commandUnavailable
  failed : result.failedMarks = loop.failedMarks ++ unconfirmed env ownedMask options turns
  untried : result.unattemptedMarks = loop.unattemptedMarks ++ left

theorem distinctFrom (marks ordered : List UInt32) (distinct : ordered.Nodup) :
    (marks.foldl (fun ordered mark => if mark ∈ ordered then ordered else ordered ++ [mark]) ordered).Nodup ∧
      ∀ mark, mark ∈ marks.foldl (fun ordered mark => if mark ∈ ordered then ordered else ordered ++ [mark]) ordered ↔
        mark ∈ ordered ∨ mark ∈ marks := by
  induction marks generalizing ordered with
  | nil => exact ⟨distinct,fun mark => ⟨.inl,fun mem => mem.resolve_right List.not_mem_nil⟩⟩
  | cons first rest ih =>
    rw [List.foldl_cons]
    split
    · rename_i seen
      obtain ⟨nodup,mem⟩ := ih ordered distinct
      refine ⟨nodup,fun mark => (mem mark).trans ?_⟩
      rw [List.mem_cons]
      constructor
      · rintro (old | later)
        · exact .inl old
        · exact .inr (.inr later)
      · rintro (old | rfl | later)
        · exact .inl old
        · exact .inl seen
        · exact .inr later
    · rename_i fresh
      have apart : (ordered ++ [first]).Nodup := List.nodup_append.mpr ⟨distinct,List.nodup_singleton first,fun one mem two own same => by
        cases List.mem_singleton.mp own
        exact fresh (same ▸ mem)⟩
      obtain ⟨nodup,mem⟩ := ih (ordered ++ [first]) apart
      refine ⟨nodup,fun mark => (mem mark).trans ?_⟩
      rw [List.mem_append,List.mem_singleton,List.mem_cons,or_assoc]

theorem distinctNodup (marks : List UInt32) : (distinctMarks marks).Nodup := (distinctFrom marks [] List.nodup_nil).1

theorem distinctMem {marks : List UInt32} {mark : UInt32} : mark ∈ distinctMarks marks ↔ mark ∈ marks := by
  rw [distinctMarks,(distinctFrom marks [] List.nodup_nil).2]
  exact ⟨fun mem => mem.resolve_left List.not_mem_nil,.inr⟩

variable {env ownedMask options}
variable {loop next result : MarkLoop} {mark : UInt32} {marks rest left : List UInt32} {turns : List Turn} {last own : List Command}

theorem Account.turn (account : Account env ownedMask options next rest result turns left last)
    (shape : own <+: familyCommands ownedMask options mark) (commands : next.commands = loop.commands ++ own)
    (unattempted : next.unattemptedMarks = loop.unattemptedMarks)
    (failed : next.failedMarks = loop.failedMarks ++ unconfirmed env ownedMask options [⟨mark,loop.commands,own⟩]) :
    Account env ownedMask options loop (mark :: rest) result (⟨mark,loop.commands,own⟩ :: turns) left last where
  spent := by
    rw [account.spent]
    rfl
  chained := .turn shape (commands ▸ account.chained)
  issued := by
    rw [account.issued,commands,List.flatMap_cons]
    simp only [List.append_assoc]
  stopped := by
    rcases account.stopped with none_ | ⟨first,later,behind,same,answer⟩
    · exact .inl none_
    · refine .inr ⟨first,later,behind,same,?_⟩
      rw [List.flatMap_cons,← List.append_assoc,← commands]
      exact answer
  failed := by
    have both : unconfirmed env ownedMask options ([⟨mark,loop.commands,own⟩] ++ turns) =
        unconfirmed env ownedMask options [⟨mark,loop.commands,own⟩] ++ unconfirmed env ownedMask options turns := by
      rw [unconfirmed,List.filter_append,List.map_append]
      rfl
    rw [account.failed,failed,List.append_assoc,← both]
    rfl
  untried := by
    rw [account.untried,unattempted]

theorem unconfirmedOne (turn : Turn) : unconfirmed env ownedMask options [turn] = if turn.confirmed env ownedMask options
    then [] else [turn.mark] := by
  unfold unconfirmed
  cases sure : turn.confirmed env ownedMask options with
  | true => simp [sure]
  | false => simp [sure]

theorem retainAccount {marks : List UInt32} (issued : next.commands = loop.commands ++ last) (failed : next.failedMarks = loop.failedMarks)
    (unattempted : next.unattemptedMarks = loop.unattemptedMarks)
    (stopped : last = [] ∨ ∃ mark later, marks = mark :: later ∧ last = [markCommand ownedMask "ipv4" mark] ∧
      deleteFamily env loop.commands (markCommand ownedMask "ipv4" mark) = .commandUnavailable) :
    Account env ownedMask options loop marks (next.retain marks) [] marks last where
  spent := rfl
  chained := .stop _
  issued := by
    rw [List.flatMap_nil,List.append_nil]
    exact issued
  stopped := by
    rw [List.flatMap_nil,List.append_nil]
    exact stopped
  failed := failed.trans (List.append_nil _).symm
  untried := congrArg (· ++ marks) unattempted

theorem oneCommand (single : options.ipv6Enabled = false) :
    [markCommand ownedMask "ipv4" mark] <+: familyCommands ownedMask options mark := by
  rw [familyCommands,single]
  exact List.prefix_refl _

theorem turnAccount {wrong : Prop} [Decidable wrong] {loops : MarkLoop → MarkLoop} (shape : own <+: familyCommands ownedMask options mark)
    (commands : next.commands = loop.commands ++ own) (unattempted : next.unattemptedMarks = loop.unattemptedMarks)
    (failed : next.failedMarks = loop.failedMarks)
    (later : ∀ loop, ∃ turns left last, Account env ownedMask options loop rest (loops loop) turns left last)
    (bad : wrong → Turn.confirmed env ownedMask options ⟨mark,loop.commands,own⟩ = false)
    (fine : ¬ wrong → Turn.confirmed env ownedMask options ⟨mark,loop.commands,own⟩ = true) :
    ∃ turns left last, Account env ownedMask options loop (mark :: rest)
      (loops (if wrong then next.fail mark else next)) turns left last := by
  obtain ⟨turns,left,last,account⟩ := later (if wrong then next.fail mark else next)
  refine ⟨_,left,last,account.turn shape ?_ ?_ ?_⟩
  · split
    · exact commands
    · exact commands
  · split
    · exact unattempted
    · exact unattempted
  · rw [unconfirmedOne]
    split
    · rename_i wrong_
      rw [bad wrong_]
      exact congrArg (· ++ [mark]) failed
    · rename_i right
      rw [fine right]
      exact failed.trans (List.append_nil _).symm

theorem stoppedAccount (shape : own <+: familyCommands ownedMask options mark) (commands : next.commands = loop.commands ++ own)
    (unattempted : next.unattemptedMarks = loop.unattemptedMarks) (failed : next.failedMarks = loop.failedMarks ++ [mark])
    (bad : Turn.confirmed env ownedMask options ⟨mark,loop.commands,own⟩ = false) :
    ∃ turns left last, Account env ownedMask options loop (mark :: rest) (next.retain rest) turns left last := by
  have account : Account env ownedMask options next rest (next.retain rest) [] rest [] :=
    retainAccount (List.append_nil _).symm rfl rfl (.inl rfl)
  refine ⟨_,_,_,account.turn shape commands unattempted ?_⟩
  rw [unconfirmedOne,bad]
  exact failed

theorem succeededElse {result : ConntrackCleanupResult} (available : result ≠ .commandUnavailable) (fine : result ≠ .failed) :
    result = .succeeded := by
  cases result with
  | succeeded => rfl
  | commandUnavailable => exact absurd rfl available
  | failed => exact absurd rfl fine

theorem loopAccount (index : Nat) (marks : List UInt32) (loop : MarkLoop) :
    ∃ turns left last, Account env ownedMask options loop marks
      (deleteMarkLoop env ownedMask options index marks loop) turns left last := by
  induction marks generalizing index loop with
  | nil =>
    refine ⟨[],[],[],rfl,.stop _,?_,.inl rfl,(List.append_nil _).symm,(List.append_nil _).symm⟩
    rw [List.flatMap_nil,List.append_nil,List.append_nil]
    rfl
  | cons mark rest ih =>
    unfold deleteMarkLoop
    split
    · exact ⟨[],_,[],retainAccount (List.append_nil _).symm rfl rfl (.inl rfl)⟩
    · split
      · obtain ⟨turns,left,last,account⟩ := ih (index + 1) (loop.fail mark)
        refine ⟨_,left,last,account.turn List.nil_prefix (List.append_nil _).symm rfl ?_⟩
        rw [unconfirmedOne]
        exact rfl
      · split
        · exact ⟨[],_,[],retainAccount (List.append_nil _).symm rfl rfl (.inl rfl)⟩
        · dsimp only
          split
          · rename_i unavailable
            exact ⟨[],_,_,retainAccount rfl rfl rfl (.inr ⟨mark,rest,rfl,rfl,unavailable⟩)⟩
          · rename_i first
            split
            · rename_i single
              rw [Bool.not_eq_true'] at single
              refine turnAccount (oneCommand single) rfl rfl rfl (ih (index + 1)) ?_ ?_
              · intro bad
                simp [Turn.confirmed,bad]
              · intro fine
                simp [Turn.confirmed,familyCommands,single,succeededElse first fine]
            · rename_i double
              rw [Bool.not_eq_true',Bool.not_eq_false] at double
              have whole : familyCommands ownedMask options
                mark = [markCommand ownedMask "ipv4" mark,markCommand ownedMask "ipv6" mark] := by
                rw [familyCommands,double]
                rfl
              have both : [markCommand ownedMask "ipv4" mark] ++
                [markCommand ownedMask "ipv6" mark] <+: familyCommands ownedMask options mark := by
                rw [whole]
                exact List.prefix_refl _
              split
              · -- no time for the other family
                have front : [markCommand ownedMask "ipv4" mark] <+: familyCommands ownedMask options mark := by
                  rw [whole]
                  exact List.prefix_append [_] [_]
                let late : MarkLoop :=
                  { loop with
                    commands := loop.commands ++ [markCommand ownedMask "ipv4" mark]
                    summary := { loop.summary with budgetExhausted := true } }
                change ∃ turns left last, Account env ownedMask options loop (mark :: rest) ((late.fail mark).retain rest) turns left last
                refine stoppedAccount front rfl rfl rfl ?_
                simp [Turn.confirmed,whole]
              · split
                · rename_i unavailable
                  refine stoppedAccount both (List.append_assoc ..) rfl rfl ?_
                  simp [Turn.confirmed,double,unavailable]
                · rename_i second
                  refine turnAccount both (List.append_assoc ..) rfl rfl (ih (index + 1)) ?_ ?_
                  · rintro (bad | bad)
                    · simp [Turn.confirmed,bad]
                    · simp [Turn.confirmed,double,bad]
                  · intro fine
                    have ipv4 := succeededElse first (not_or.mp fine).1
                    have ipv6 := succeededElse second (not_or.mp fine).2
                    simp [Turn.confirmed,whole,ipv4,ipv6]

end Deleting

section Coordinator

structure OwnedConntrackCleanupSnapshot where
  runtimeGeneration : UInt64
  ownedMask : UInt32
  marks : Finset UInt32
  priorityMarks : Finset UInt32
  ipv6Enabled : Bool
  deriving DecidableEq

def OwnedConntrackCleanupSnapshot.valid (snapshot : OwnedConntrackCleanupSnapshot) : Bool :=
  snapshot.runtimeGeneration != 0 && snapshot.ownedMask != 0 && decide (snapshot.marks ≠ ∅)

structure OwnedConntrackCleanupRetry where
  snapshot : OwnedConntrackCleanupSnapshot
  orderedMarks : List UInt32
  noProgressAttempt : Nat
  deriving DecidableEq

/- `attempt` is not in the source: the retry that dispatch_retry took, until it is over. -/
structure ConntrackCleanupCoordinator where
  retryTaskId : Int := -1
  pending : Option OwnedConntrackCleanupRetry := none
  attempt : Option OwnedConntrackCleanupRetry := none
  deriving DecidableEq

/- How the callbacks answer: the id of the timer, none if scheduling it throws, which of the others throw, and whether
dispatch_retry gives the retry back at once, for the mutation lease is not free. -/
structure Callbacks where
  taskId : Option Int := some 0
  cancelThrows : Bool := false
  exhaustedThrows : Bool := false
  requeues : Bool := false

def kOwnedConntrackCleanupRetryDelays : List Nat := [2,4,8,16,30]

variable (callbacks : Callbacks)

def arm (c : ConntrackCleanupCoordinator) : ConntrackCleanupCoordinator :=
  if c.retryTaskId ≥ 0 then c
  else
    match c.pending with
    | none => c
    | some pending =>
      if pending.noProgressAttempt ≥ kOwnedConntrackCleanupRetryDelays.length then
        if callbacks.exhaustedThrows then c else { c with pending := none }
      else
        match callbacks.taskId with
        | none => c
        | some taskId => if taskId ≥ 0 then { c with retryTaskId := taskId } else c

def cancel (c : ConntrackCleanupCoordinator) : ConntrackCleanupCoordinator × Bool :=
  if c.retryTaskId ≥ 0 ∧ callbacks.cancelThrows = true then (c,false) else ({ c with retryTaskId := -1, pending := none },true)

def clearAfterHandoff (c : ConntrackCleanupCoordinator) : ConntrackCleanupCoordinator := { c with retryTaskId := -1, pending := none }

def ownedMarks (ownedMask : UInt32) (marks : List UInt32) : List UInt32 := distinctMarks (marks.filter fun mark => mark &&& ownedMask != 0)

def candidateOf (source : OwnedConntrackCleanupSnapshot) (filtered : List UInt32) (noProgressAttempt : Nat) :
    OwnedConntrackCleanupRetry where
  snapshot := { source with marks := filtered.toFinset, priorityMarks := source.priorityMarks ∩ filtered.toFinset }
  orderedMarks := filtered
  noProgressAttempt := noProgressAttempt

def sameRuntime (one two : OwnedConntrackCleanupSnapshot) : Bool :=
  one.runtimeGeneration == two.runtimeGeneration && one.ownedMask == two.ownedMask

def mergeRetry (pending candidate : OwnedConntrackCleanupRetry) : OwnedConntrackCleanupRetry :=
  let fresh := candidate.orderedMarks.filter fun mark => mark ∉ pending.orderedMarks
  { snapshot := { pending.snapshot with
      marks := pending.snapshot.marks ∪ fresh.toFinset
      priorityMarks := pending.snapshot.priorityMarks ∪ (fresh.toFinset ∩ candidate.snapshot.priorityMarks)
      ipv6Enabled := pending.snapshot.ipv6Enabled || candidate.snapshot.ipv6Enabled }
    orderedMarks := pending.orderedMarks ++ fresh
    noProgressAttempt := min pending.noProgressAttempt candidate.noProgressAttempt }

def supersede (candidate : OwnedConntrackCleanupRetry) (c : ConntrackCleanupCoordinator) : ConntrackCleanupCoordinator :=
  if c.pending.isSome || decide (c.retryTaskId ≥ 0) then
    let (cancelled,ok) := cancel callbacks c
    if ok then arm callbacks { cancelled with pending := some candidate } else cancelled
  else arm callbacks { c with pending := some candidate }

def schedule (source : OwnedConntrackCleanupSnapshot) (remainingMarks : List UInt32) (noProgressAttempt : Nat)
    (c : ConntrackCleanupCoordinator) : ConntrackCleanupCoordinator :=
  let filtered := ownedMarks source.ownedMask remainingMarks
  if !source.valid || remainingMarks.isEmpty || filtered.isEmpty then c
  else
    let candidate := candidateOf source filtered noProgressAttempt
    match c.pending with
    | none => supersede callbacks candidate c
    | some pending =>
      if sameRuntime pending.snapshot candidate.snapshot then arm callbacks { c with pending := some (mergeRetry pending candidate) }
      else supersede callbacks candidate c

def scheduleRetry (retry : OwnedConntrackCleanupRetry) (c : ConntrackCleanupCoordinator) : ConntrackCleanupCoordinator :=
  schedule callbacks retry.snapshot retry.orderedMarks retry.noProgressAttempt c

def onTimer (c : ConntrackCleanupCoordinator) : ConntrackCleanupCoordinator :=
  match c.pending with
  | none => { c with retryTaskId := -1 }
  | some retry =>
    if callbacks.requeues then scheduleRetry callbacks retry { c with retryTaskId := -1, pending := none }
    else { retryTaskId := -1, pending := none, attempt := some retry }

/- `finished` is no call: an attempt that ends without one, with nothing left of it or nothing more to do. -/
inductive Call where
  | schedule (source : OwnedConntrackCleanupSnapshot) (remainingMarks : List UInt32)
  | scheduleRetry (retry : OwnedConntrackCleanupRetry)
  | scheduleRemaining (retry : OwnedConntrackCleanupRetry) (remainingMarks : List UInt32)
  | finished (retry : OwnedConntrackCleanupRetry)
  | arm
  | cancel
  | clearAfterHandoff
  | onTimer
  deriving DecidableEq

def madeProgress (retry : OwnedConntrackCleanupRetry) (remainingMarks : List UInt32) : Bool :=
  decide (remainingMarks.length < retry.orderedMarks.length)

def Call.scheduled : Call → Option (OwnedConntrackCleanupSnapshot × List UInt32 × Nat)
  | .schedule source remainingMarks => some (source,remainingMarks,0)
  | .scheduleRetry retry => some (retry.snapshot,retry.orderedMarks,retry.noProgressAttempt)
  | .scheduleRemaining retry remainingMarks =>
    if remainingMarks.isEmpty then none
    else some (retry.snapshot,remainingMarks,if madeProgress retry remainingMarks then 0 else retry.noProgressAttempt + 1)
  | _ => none

structure Step where
  call : Call
  callbacks : Callbacks := {}

def Call.ends : Call → Option OwnedConntrackCleanupRetry
  | .scheduleRetry retry => some retry
  | .scheduleRemaining retry _ => some retry
  | .finished retry => some retry
  | _ => none

def act (c : ConntrackCleanupCoordinator) (step : Step) : ConntrackCleanupCoordinator :=
  let c := if step.call.ends.isSome then { c with attempt := none } else c
  match step.call.scheduled with
  | some (source,marks,attempt) => schedule step.callbacks source marks attempt c
  | none =>
    match step.call with
    | .arm => arm step.callbacks c
    | .cancel => (cancel step.callbacks c).1
    | .clearAfterHandoff => clearAfterHandoff c
    | .onTimer => onTimer step.callbacks c
    | _ => c

/- The mutation lease admits one attempt at a time: only the one taken last is reported, once, and what it leaves is among
the marks it had. -/
def Permitted (c : ConntrackCleanupCoordinator) (step : Step) : Prop :=
  match step.call with
  | .scheduleRetry retry => c.attempt = some retry
  | .scheduleRemaining retry remainingMarks => c.attempt = some retry ∧ ∀ mark ∈ remainingMarks, mark ∈ retry.orderedMarks
  | .finished retry => c.attempt = some retry
  | _ => True

end Coordinator

section Changes
variable {callbacks : Callbacks} {c : ConntrackCleanupCoordinator} {source : OwnedConntrackCleanupSnapshot}
    {marks : List UInt32} {attempt : Nat}

def Made (c : ConntrackCleanupCoordinator) (source : OwnedConntrackCleanupSnapshot) (marks : List UInt32) (attempt : Nat)
    (retry : OwnedConntrackCleanupRetry) : Prop :=
  let candidate := candidateOf source (ownedMarks source.ownedMask marks) attempt
  (∃ pending, c.pending = some pending ∧ sameRuntime pending.snapshot source = true ∧ retry = mergeRetry pending candidate) ∨
  ((∀ pending, c.pending = some pending → sameRuntime pending.snapshot source = false) ∧ retry = candidate)

inductive Change (c : ConntrackCleanupCoordinator) (step : Step) (after : ConntrackCleanupCoordinator) : Prop where
  | kept (same : after.pending = c.pending) (quiet : after.attempt = c.attempt)
      (refused : ∀ source marks attempt, step.call.scheduled = some (source,marks,attempt) →
        source.valid = false ∨ ownedMarks source.ownedMask marks = [] ∨ step.callbacks.cancelThrows = true)
  | put {source : OwnedConntrackCleanupSnapshot} {marks : List UInt32} {attempt : Nat} {retry : OwnedConntrackCleanupRetry}
      (told : step.call.scheduled = some (source,marks,attempt)) (valid : source.valid = true)
        (filled : ownedMarks source.ownedMask marks ≠ [])
      (made : Made c source marks attempt retry)
      (now : after.pending = some retry ∨ after.pending = none ∧ 5 ≤ retry.noProgressAttempt) (quiet : after.attempt = c.attempt)
  | exhausted {retry : OwnedConntrackCleanupRetry} (was : c.pending = some retry) (five : 5 ≤ retry.noProgressAttempt)
      (now : after.pending = none) (quiet : after.attempt = c.attempt) (idle : step.call.scheduled = none)
  | cleared (cancels : step.call = .cancel ∨ step.call = .clearAfterHandoff) (now : after.pending = none)
    (quiet : after.attempt = c.attempt)
  | taken {retry : OwnedConntrackCleanupRetry} (fired : step.call = .onTimer) (takes : step.callbacks.requeues = false)
      (was : c.pending = some retry) (now : after.pending = none) (out : after.attempt = some retry)
  | requeued {retry again : OwnedConntrackCleanupRetry} (fired : step.call = .onTimer) (was : c.pending = some retry)
      (same : again = candidateOf retry.snapshot (ownedMarks retry.snapshot.ownedMask retry.orderedMarks) retry.noProgressAttempt)
      (now : after.pending = some again ∧ again.orderedMarks ≠ [] ∨
        after.pending = none ∧ (5 ≤ again.noProgressAttempt ∨ retry.snapshot.valid = false ∨ again.orderedMarks = []))
      (quiet : after.attempt = c.attempt)

theorem armed (callbacks : Callbacks) (c : ConntrackCleanupCoordinator) : (arm callbacks c).attempt = c.attempt ∧
    ((arm callbacks c).pending = c.pending ∨
      (arm callbacks c).pending = none ∧ ∃ retry, c.pending = some retry ∧ 5 ≤ retry.noProgressAttempt) := by
  unfold arm
  split
  · exact ⟨rfl,.inl rfl⟩
  · split
    · exact ⟨rfl,.inl rfl⟩
    · rename_i retry found
      split
      · rename_i five
        split
        · exact ⟨rfl,.inl rfl⟩
        · exact ⟨rfl,.inr ⟨rfl,retry,found,five⟩⟩
      · split
        · exact ⟨rfl,.inl rfl⟩
        · split
          · exact ⟨rfl,.inl rfl⟩
          · exact ⟨rfl,.inl rfl⟩

theorem armedPut (callbacks : Callbacks) (c base : ConntrackCleanupCoordinator) (attempt : base.attempt = c.attempt)
    (retry : OwnedConntrackCleanupRetry) :
    ((arm callbacks { base with pending := some retry }).pending = some retry ∨
      (arm callbacks { base with pending := some retry }).pending = none ∧ 5 ≤ retry.noProgressAttempt) ∧
    (arm callbacks { base with pending := some retry }).attempt = c.attempt := by
  obtain ⟨quiet,same | ⟨gone,other,found,five⟩⟩ := armed callbacks { base with pending := some retry }
  · exact ⟨.inl same,quiet.trans attempt⟩
  · cases found
    exact ⟨.inr ⟨gone,five⟩,quiet.trans attempt⟩

/- What schedule does to the pending retry: nothing, or the retry that it makes is pending or out of attempts. -/
inductive Scheduled (callbacks : Callbacks) (c : ConntrackCleanupCoordinator) (source : OwnedConntrackCleanupSnapshot) (marks : List UInt32)
    (attempt : Nat) (after : ConntrackCleanupCoordinator) : Prop where
  | refused (same : after.pending = c.pending)
      (why : source.valid = false ∨ ownedMarks source.ownedMask marks = [] ∨ callbacks.cancelThrows = true ∧ c.retryTaskId ≥ 0)
      (quiet : after.attempt = c.attempt)
  | put {retry : OwnedConntrackCleanupRetry} (valid : source.valid = true) (filled : ownedMarks source.ownedMask marks ≠ [])
      (made : Made c source marks attempt retry)
      (now : after.pending = some retry ∨ after.pending = none ∧ 5 ≤ retry.noProgressAttempt) (quiet : after.attempt = c.attempt)

theorem supersedeScheduled (valid : source.valid = true) (filled : ownedMarks source.ownedMask marks ≠ [])
    (other : ∀ pending, c.pending = some pending → sameRuntime pending.snapshot source = false) :
    Scheduled callbacks c source marks attempt
      (supersede callbacks (candidateOf source (ownedMarks source.ownedMask marks) attempt) c) := by
  unfold supersede
  split
  · by_cases throws : c.retryTaskId ≥ 0 ∧ callbacks.cancelThrows = true
    · rw [cancel,if_pos throws]
      exact .refused rfl (.inr (.inr throws.symm)) rfl
    · rw [cancel,if_neg throws]
      obtain ⟨now,quiet⟩ := armedPut callbacks c { c with retryTaskId := -1, pending := none } rfl
        (candidateOf source (ownedMarks source.ownedMask marks) attempt)
      exact .put valid filled (.inr ⟨other,rfl⟩) now quiet
  · obtain ⟨now,quiet⟩ := armedPut callbacks c c rfl (candidateOf source (ownedMarks source.ownedMask marks) attempt)
    exact .put valid filled (.inr ⟨other,rfl⟩) now quiet

theorem scheduled (callbacks : Callbacks) (c : ConntrackCleanupCoordinator) (source : OwnedConntrackCleanupSnapshot) (marks : List UInt32)
    (attempt : Nat) : Scheduled callbacks c source marks attempt (schedule callbacks source marks attempt c) := by
  unfold schedule
  dsimp only
  split
  · rename_i refused
    refine .refused rfl ?_ rfl
    rw [Bool.or_eq_true,Bool.or_eq_true,Bool.not_eq_true'] at refused
    rcases refused with (invalid | empty) | empty
    · exact .inl invalid
    · rw [List.isEmpty_iff.mp empty]
      exact .inr (.inl rfl)
    · exact .inr (.inl (List.isEmpty_iff.mp empty))
  · rename_i passed
    have valid : source.valid = true := by
      by_contra invalid
      exact passed (by rw [Bool.eq_false_iff.mpr invalid]; rfl)
    have filled : ownedMarks source.ownedMask marks ≠ [] := fun empty => passed (by rw [empty]; exact Bool.or_true _)
    split
    · rename_i none_
      exact supersedeScheduled valid filled fun pending found => by rw [none_] at found; cases found
    · rename_i pending found
      split
      · rename_i same
        obtain ⟨now,quiet⟩ := armedPut callbacks c c rfl
          (mergeRetry pending (candidateOf source (ownedMarks source.ownedMask marks) attempt))
        exact .put valid filled (.inl ⟨pending,found,same,rfl⟩) now quiet
      · rename_i differs
        refine supersedeScheduled valid filled fun other there => ?_
        cases Option.some.inj (found.symm.trans there)
        exact Bool.eq_false_iff.mpr differs

theorem timerChange {step : Step} (fired : step.call = .onTimer) : Change c step (onTimer step.callbacks c) := by
  have idle : step.call.scheduled = none := by
    rw [fired]
    rfl
  unfold onTimer
  split
  · refine .kept rfl rfl fun source marks attempt told => ?_
    rw [idle] at told
    cases told
  · rename_i retry found
    split
    · rename_i requeues
      cases scheduled step.callbacks { c with retryTaskId := -1, pending := none } retry.snapshot retry.orderedMarks
        retry.noProgressAttempt with
      | refused same why quiet =>
        refine .requeued fired found rfl (.inr ⟨same,?_⟩) quiet
        rcases why with invalid | empty | ⟨_,timed⟩
        · exact .inr (.inl invalid)
        · exact .inr (.inr empty)
        · exact absurd timed (show ¬(-1 : Int) ≥ 0 by decide)
      | put valid filled made now quiet =>
        rcases made with ⟨pending,there,-⟩ | ⟨-,rfl⟩
        · cases there
        · exact .requeued fired found rfl (now.imp (fun kept => ⟨kept,filled⟩) fun gone => ⟨gone.1,.inl gone.2⟩) quiet
    · rename_i takes
      exact .taken fired (Bool.eq_false_iff.mpr takes) found rfl rfl

theorem actChange (c : ConntrackCleanupCoordinator) (step : Step) :
    Change (if step.call.ends.isSome then { c with attempt := none } else c) step (act c step) := by
  unfold act
  generalize (if step.call.ends.isSome then { c with attempt := none } else c) = c
  dsimp only
  split
  · rename_i source marks attempt told
    cases scheduled step.callbacks c source marks attempt with
    | refused same why quiet =>
      refine .kept same quiet fun _ _ _ other => ?_
      cases Option.some.inj (told.symm.trans other)
      exact why.imp id (Or.imp id And.left)
    | put valid filled made now quiet => exact .put told valid filled made now quiet
  · rename_i idle
    have quiet : ∀ source marks attempt, step.call.scheduled = some (source,marks,attempt) →
        source.valid = false ∨ ownedMarks source.ownedMask marks = [] ∨ step.callbacks.cancelThrows = true := by
      intro source marks attempt told
      rw [idle] at told
      cases told
    split
    · obtain ⟨out,same | ⟨gone,retry,found,five⟩⟩ := armed step.callbacks c
      · exact .kept same out quiet
      · exact .exhausted found five gone out idle
    · rename_i cancels
      unfold cancel
      split
      · exact .kept rfl rfl quiet
      · exact .cleared (.inl cancels) rfl rfl
    · rename_i cancels
      exact .cleared (.inr cancels) rfl rfl
    · rename_i fired
      exact timerChange fired
    · exact .kept rfl rfl quiet

end Changes

section Attempts
variable {history : List Step} {mark : UInt32} {count : Nat}

def reportOf (mark : UInt32) (step : Step) : Option (OwnedConntrackCleanupRetry × List UInt32) :=
  match step.call with
  | .scheduleRemaining retry remaining => if mark ∈ retry.orderedMarks then some (retry,remaining) else none
  | .finished retry => if mark ∈ retry.orderedMarks then some (retry,[]) else none
  | _ => none

/- The last attempts at the mark, that many in a row, left it and made no progress. -/
def Attempts (history : List Step) (mark : UInt32) (count : Nat) : Prop :=
  ∃ earlier tries, history.filterMap (reportOf mark) = earlier ++ tries ∧ tries.length = count ∧
    ∀ tried ∈ tries, mark ∈ tried.2 ∧ madeProgress tried.1 tried.2 = false

theorem Attempts.zero (history : List Step) (mark : UInt32) : Attempts history mark 0 := ⟨_,[],(List.append_nil _).symm,rfl,nofun⟩

theorem Attempts.fewer (attempts : Attempts history mark count) {fewer : Nat} (less : fewer ≤ count) : Attempts history mark fewer := by
  obtain ⟨earlier,tries,reports,number,each⟩ := attempts
  refine ⟨earlier ++ tries.take (count - fewer),tries.drop (count - fewer),?_,?_,fun tried mem => each tried (List.mem_of_mem_drop mem)⟩
  · rw [List.append_assoc,List.take_append_drop]
    exact reports
  · rw [List.length_drop,number]
    omega

theorem Attempts.later {step : Step} (attempts : Attempts history mark count) (silent : reportOf mark step = none) :
    Attempts (history ++ [step]) mark count := by
  have same : (history ++ [step]).filterMap (reportOf mark) = history.filterMap (reportOf mark) := by
    rw [List.filterMap_append,List.filterMap_cons_none silent,List.filterMap_nil,List.append_nil]
  rw [Attempts,same]
  exact attempts

theorem Attempts.more {retry : OwnedConntrackCleanupRetry} {remaining : List UInt32} {step : Step}
    (attempts : Attempts history mark count) (report : reportOf mark step = some (retry,remaining))
    (left : mark ∈ remaining) (stuck : madeProgress retry remaining = false) : Attempts (history ++ [step]) mark (count + 1) := by
  obtain ⟨earlier,tries,reports,number,each⟩ := attempts
  refine ⟨earlier,tries ++ [(retry,remaining)],?_,?_,?_⟩
  · rw [List.filterMap_append,List.filterMap_cons_some report,List.filterMap_nil,reports,List.append_assoc]
  · rw [List.length_append,number]
    rfl
  · intro tried mem
    rcases List.mem_append.mp mem with old | new
    · exact each tried old
    · cases List.mem_singleton.mp new
      exact ⟨left,stuck⟩

/- The number of a retry counts attempts at each of its marks; while one is out, what is pending starts anew. -/
structure Counted (history : List Step) (c : ConntrackCleanupCoordinator) : Prop where
  pending : ∀ retry, c.pending = some retry → ∀ mark ∈ retry.orderedMarks, Attempts history mark retry.noProgressAttempt
  attempt : ∀ retry, c.attempt = some retry → ∀ mark ∈ retry.orderedMarks, Attempts history mark retry.noProgressAttempt
  anew : ∀ out, c.attempt = some out → ∀ retry, c.pending = some retry → retry.noProgressAttempt = 0
  valid : ∀ retry, c.pending = some retry → retry.snapshot.valid = true
  owned : ∀ retry, c.pending = some retry → ∀ mark ∈ retry.orderedMarks, mark &&& retry.snapshot.ownedMask ≠ 0

theorem ownedMem {ownedMask : UInt32} {marks : List UInt32} :
    mark ∈ ownedMarks ownedMask marks ↔ mark ∈ marks ∧ mark &&& ownedMask ≠ 0 := by
  rw [ownedMarks,distinctMem,List.mem_filter,bne_iff_ne]

variable {c : ConntrackCleanupCoordinator} {step : Step}

theorem endsOut {out : OwnedConntrackCleanupRetry} (allowed : Permitted c step) (ends : step.call.ends = some out) :
    c.attempt = some out := by
  unfold Permitted at allowed
  unfold Call.ends at ends
  split at ends
  · rename_i called
    cases ends
    rw [called] at allowed
    exact allowed
  · rename_i called
    cases ends
    rw [called] at allowed
    exact allowed.1
  · rename_i called
    cases ends
    rw [called] at allowed
    exact allowed
  · cases ends

theorem silentUnless (running : step.call.ends = none) : reportOf mark step = none := by
  unfold reportOf
  split
  · rename_i called
    rw [called] at running
    cases running
  · rename_i called
    rw [called] at running
    cases running
  · rfl

theorem pendingCounted (counted : Counted history c) (allowed : Permitted c step) {retry : OwnedConntrackCleanupRetry}
    (found : c.pending = some retry)
    (listed : mark ∈ retry.orderedMarks) : Attempts (history ++ [step]) mark retry.noProgressAttempt := by
  cases ends : step.call.ends with
  | none => exact (counted.pending retry found mark listed).later (silentUnless ends)
  | some out =>
    rw [counted.anew out (endsOut allowed ends) retry found]
    exact Attempts.zero _ _

theorem toldCounted (counted : Counted history c) (allowed : Permitted c step) {source : OwnedConntrackCleanupSnapshot}
    {marks : List UInt32}
    {attempt : Nat} (told : step.call.scheduled = some (source,marks,attempt)) :
    ∀ mark ∈ marks, Attempts (history ++ [step]) mark attempt := by
  intro mark mem
  unfold Permitted at allowed
  cases called : step.call with
  | schedule other remaining =>
    rw [called] at told
    cases told
    exact Attempts.zero _ _
  | scheduleRetry retry =>
    rw [called] at told allowed
    cases told
    exact (counted.attempt retry allowed mark mem).later (by rw [reportOf,called])
  | scheduleRemaining retry remaining =>
    rw [called] at told allowed
    simp only [Call.scheduled] at told
    split at told
    · cases told
    · cases told
      split
      · exact Attempts.zero _ _
      · rename_i stuck
        have had := allowed.2 mark mem
        have report : reportOf mark step = some (retry,marks) := by
          rw [reportOf,called]
          exact if_pos had
        exact (counted.attempt retry allowed.1 mark had).more report mem (Bool.eq_false_iff.mpr stuck)
  | finished | arm | cancel | clearAfterHandoff | onTimer =>
    rw [called] at told
    cases told

theorem madeCounted (counted : Counted history c) (allowed : Permitted c step) {source : OwnedConntrackCleanupSnapshot}
    {marks : List UInt32}
    {attempt : Nat} (told : step.call.scheduled = some (source,marks,attempt)) {retry : OwnedConntrackCleanupRetry}
    (made : Made c source marks attempt retry) :
    ∀ mark ∈ retry.orderedMarks, Attempts (history ++ [step]) mark retry.noProgressAttempt := by
  have own : ∀ mark ∈ ownedMarks source.ownedMask marks, Attempts (history ++ [step]) mark attempt :=
    fun mark mem => toldCounted counted allowed told mark (ownedMem.mp mem).1
  intro mark mem
  rcases made with ⟨pending,found,-,rfl⟩ | ⟨-,rfl⟩
  · rcases List.mem_append.mp mem with old | fresh
    · exact (pendingCounted counted allowed found old).fewer (Nat.min_le_left _ _)
    · exact (own mark (List.mem_filter.mp fresh).1).fewer (Nat.min_le_right _ _)
  · exact own mark mem

theorem candidateValid {source : OwnedConntrackCleanupSnapshot} {filtered : List UInt32} (valid : source.valid = true)
    (filled : filtered ≠ [])
    (attempt : Nat) : (candidateOf source filtered attempt).snapshot.valid = true := by
  rw [OwnedConntrackCleanupSnapshot.valid,Bool.and_eq_true] at valid ⊢
  refine ⟨valid.1,decide_eq_true fun empty => filled ?_⟩
  exact List.toFinset_eq_empty_iff _ |>.mp empty

theorem madeValid (counted : Counted history c) {source : OwnedConntrackCleanupSnapshot} {marks : List UInt32} {attempt : Nat}
    (valid : source.valid = true) (filled : ownedMarks source.ownedMask marks ≠ []) {retry : OwnedConntrackCleanupRetry}
    (made : Made c source marks attempt retry) :
    retry.snapshot.valid = true ∧ ∀ mark ∈ retry.orderedMarks, mark &&& retry.snapshot.ownedMask ≠ 0 := by
  rcases made with ⟨pending,found,same,rfl⟩ | ⟨-,rfl⟩
  · have before := counted.valid pending found
    rw [OwnedConntrackCleanupSnapshot.valid,Bool.and_eq_true] at before ⊢
    refine ⟨⟨before.1,decide_eq_true fun empty =>
      of_decide_eq_true before.2 (Finset.subset_empty.mp (empty ▸ Finset.subset_union_left))⟩,fun mark mem => ?_⟩
    rw [sameRuntime,Bool.and_eq_true,beq_iff_eq,beq_iff_eq] at same
    rcases List.mem_append.mp mem with old | fresh
    · exact counted.owned pending found mark old
    · have own := (ownedMem.mp (List.mem_filter.mp fresh).1).2
      rw [← same.2] at own
      exact own
  · exact ⟨candidateValid valid filled attempt,fun mark mem => (ownedMem.mp mem).2⟩

theorem endedSame (c : ConntrackCleanupCoordinator) (step : Step) :
    let ended := if step.call.ends.isSome then { c with attempt := none } else c
    ended.pending = c.pending ∧ (∀ retry, ended.attempt = some retry → step.call.ends = none ∧ c.attempt = some retry) := by
  dsimp only
  cases ends : step.call.ends with
  | none => exact ⟨rfl,fun retry out => ⟨rfl,out⟩⟩
  | some out => exact ⟨rfl,nofun⟩

/- What is scheduled while an attempt is still out comes from a direct schedule. -/
theorem scheduledAnew {source : OwnedConntrackCleanupSnapshot} {marks : List UInt32} {attempt : Nat}
    (told : step.call.scheduled = some (source,marks,attempt)) (running : step.call.ends = none) : attempt = 0 := by
  cases called : step.call with
  | schedule =>
    rw [called] at told
    cases told
    rfl
  | scheduleRetry | scheduleRemaining | finished =>
    rw [called] at running
    cases running
  | arm | cancel | clearAfterHandoff | onTimer =>
    rw [called] at told
    cases told

theorem madeAnew {source : OwnedConntrackCleanupSnapshot} {marks : List UInt32} {retry : OwnedConntrackCleanupRetry}
    (made : Made c source marks 0 retry) : retry.noProgressAttempt = 0 := by
  rcases made with ⟨pending,-,-,rfl⟩ | ⟨-,rfl⟩
  · exact Nat.min_zero _
  · rfl

theorem emptyCounted (gone : c.pending = none)
    (out : ∀ retry, c.attempt = some retry → ∀ mark ∈ retry.orderedMarks, Attempts history mark retry.noProgressAttempt) :
    Counted history c := by
  have nothing (retry : OwnedConntrackCleanupRetry) (found : c.pending = some retry) : False := by
    rw [gone] at found
    cases found
  exact ⟨fun retry found => (nothing retry found).elim,out,fun _ _ retry found => (nothing retry found).elim,
    fun retry found => (nothing retry found).elim,fun retry found => (nothing retry found).elim⟩

theorem actCounted (counted : Counted history c) (allowed : Permitted c step) : Counted (history ++ [step]) (act c step) := by
  obtain ⟨waits,runs⟩ := endedSame c step
  have change := actChange c step
  generalize (if step.call.ends.isSome then { c with attempt := none } else c) = ended at waits runs change
  have out (retry : OwnedConntrackCleanupRetry) (still : ended.attempt = some retry) :
      ∀ mark ∈ retry.orderedMarks, Attempts (history ++ [step]) mark retry.noProgressAttempt :=
    fun mark mem => (counted.attempt retry (runs retry still).2 mark mem).later (silentUnless (runs retry still).1)
  cases change with
  | kept same quiet refused =>
    rw [waits] at same
    refine ⟨fun retry found mark mem => pendingCounted counted allowed (same ▸ found) mem,quiet ▸ out,fun retry running => ?_,?_,?_⟩
    · rw [quiet] at running
      exact same ▸ counted.anew retry (runs retry running).2
    · exact same ▸ counted.valid
    · exact same ▸ counted.owned
  | @put source marks attempt retry told valid filled made now quiet =>
    have before : Made c source marks attempt retry := by
      unfold Made at made ⊢
      rw [waits] at made
      exact made
    rcases now with now | ⟨now,-⟩
    · have only {other : OwnedConntrackCleanupRetry} (found : (act c step).pending = some other) : retry = other :=
        Option.some.inj (now.symm.trans found)
      obtain ⟨sound,owns⟩ := madeValid counted valid filled before
      refine ⟨fun other found => only found ▸ madeCounted counted allowed told before,quiet ▸ out,fun running still other found => ?_,
        fun other found => only found ▸ sound,fun other found => only found ▸ owns⟩
      rw [quiet] at still
      have start : attempt = 0 := scheduledAnew told (runs running still).1
      subst start
      rw [← only found]
      exact madeAnew before
    · exact emptyCounted now (quiet ▸ out)
  | exhausted was five now quiet idle => exact emptyCounted now (quiet ▸ out)
  | cleared cancels now quiet => exact emptyCounted now (quiet ▸ out)
  | @taken retry fired takes was now handed =>
    refine emptyCounted now fun other running mark mem => ?_
    cases Option.some.inj (handed.symm.trans running)
    exact pendingCounted counted allowed (waits ▸ was) mem
  | @requeued retry again fired was same now quiet =>
    rw [waits] at was
    rcases now with ⟨now,filled⟩ | ⟨now,-⟩
    · have only {other : OwnedConntrackCleanupRetry} (found : (act c step).pending = some other) : again = other :=
        Option.some.inj (now.symm.trans found)
      subst same
      refine ⟨fun other found mark mem => ?_,quiet ▸ out,fun running still other found => ?_,fun other found =>
        ?_,fun other found mark mem => ?_⟩
      · cases only found
        have old := pendingCounted counted allowed was (ownedMem.mp mem).1
        exact old
      · cases only found
        rw [quiet] at still
        exact counted.anew running (runs running still).2 retry was
      · exact only found ▸ candidateValid (counted.valid retry was) filled _
      · cases only found
        exact (ownedMem.mp mem).2
    · exact emptyCounted now (quiet ▸ out)

end Attempts

section Result
variable {steps : List Step} {c : ConntrackCleanupCoordinator}

/- A mark that waits for its deletion under a generation and mask. -/
def Waiting (c : ConntrackCleanupCoordinator) (generation : UInt64) (ownedMask : UInt32) (mark : UInt32) : Prop :=
  ∃ retry, c.pending = some retry ∧ retry.snapshot.runtimeGeneration = generation ∧ retry.snapshot.ownedMask = ownedMask ∧
    mark ∈ retry.orderedMarks

theorem runCounted (run : Run act Permitted {} steps c) : Counted steps c := by
  have start : Counted [] ({} : ConntrackCleanupCoordinator) := ⟨nofun,nofun,nofun,nofun,nofun⟩
  exact run.traced (fun history c step allowed counted => actCounted counted allowed) start

/- Why a mark waits no longer. -/
inductive Released (steps : List Step) (c : ConntrackCleanupCoordinator) (step : Step) (generation : UInt64)
    (ownedMask mark : UInt32) : Prop where
  | dispatched {retry : OwnedConntrackCleanupRetry} (fired : step.call = .onTimer) (takes : step.callbacks.requeues = false)
      (out : (act c step).attempt = some retry) (listed : mark ∈ retry.orderedMarks)
  | cancelled (cancels : step.call = .cancel ∨ step.call = .clearAfterHandoff)
  | superseded {source : OwnedConntrackCleanupSnapshot} {marks : List UInt32} {attempt : Nat}
    (told : step.call.scheduled = some (source,marks,attempt))
      (other : source.runtimeGeneration ≠ generation ∨ source.ownedMask ≠ ownedMask)
  | exhausted (attempts : Attempts (steps ++ [step]) mark 5)

theorem waitingStays (counted : Counted steps c) {step : Step} (allowed : Permitted c step) {generation : UInt64} {ownedMask mark : UInt32}
    (waiting : Waiting c generation ownedMask mark) :
    Waiting (act c step) generation ownedMask mark ∨ Released steps c step generation ownedMask mark := by
  obtain ⟨pending,found,rfl,rfl,listed⟩ := waiting
  have attempts := pendingCounted counted allowed found listed
  have change := actChange c step
  have waits := (endedSame c step).1
  generalize (if step.call.ends.isSome then { c with attempt := none } else c) = ended at waits change
  rw [← waits] at found
  cases change with
  | kept same quiet refused => exact .inl ⟨pending,same.trans found,rfl,rfl,listed⟩
  | put told valid filled made now quiet =>
    rcases made with ⟨own,there,same,rfl⟩ | ⟨other,rfl⟩
    · cases Option.some.inj (found.symm.trans there)
      rcases now with now | ⟨-,five⟩
      · exact .inl ⟨_,now,rfl,rfl,List.mem_append_left _ listed⟩
      · exact .inr (.exhausted (attempts.fewer (Nat.le_trans five (Nat.min_le_left _ _))))
    · refine .inr (.superseded told ?_)
      have differs := other pending found
      rw [sameRuntime,Bool.and_eq_false_iff,beq_eq_false_iff_ne,beq_eq_false_iff_ne] at differs
      exact differs.imp Ne.symm Ne.symm
  | exhausted was five now quiet idle =>
    cases Option.some.inj (found.symm.trans was)
    exact .inr (.exhausted (attempts.fewer five))
  | cleared cancels now quiet => exact .inr (.cancelled cancels)
  | taken fired takes was now out =>
    cases Option.some.inj (found.symm.trans was)
    exact .inr (.dispatched fired takes out listed)
  | requeued fired was same now quiet =>
    cases Option.some.inj (found.symm.trans was)
    rw [waits] at found
    subst same
    have kept : mark ∈ ownedMarks pending.snapshot.ownedMask pending.orderedMarks :=
      ownedMem.mpr ⟨listed,counted.owned pending found mark listed⟩
    rcases now with ⟨now,-⟩ | ⟨-,five | invalid | empty⟩
    · exact .inl ⟨_,now,rfl,rfl,kept⟩
    · exact .inr (.exhausted (attempts.fewer five))
    · rw [counted.valid pending found] at invalid
      cases invalid
    · change ownedMarks pending.snapshot.ownedMask pending.orderedMarks = [] at empty
      rw [empty] at kept
      cases kept

theorem scheduledWaits (counted : Counted steps c) {step : Step} (allowed : Permitted c step) {source : OwnedConntrackCleanupSnapshot}
    {marks : List UInt32} {attempt : Nat} (told : step.call.scheduled = some (source,marks,attempt)) (valid : source.valid = true)
    {mark : UInt32}
    (listed : mark ∈ marks) (owned : mark &&& source.ownedMask ≠ 0) :
    Waiting (act c step) source.runtimeGeneration source.ownedMask mark ∨ Attempts (steps ++ [step]) mark 5 ∨
      step.callbacks.cancelThrows = true := by
  have mem : mark ∈ ownedMarks source.ownedMask marks := ownedMem.mpr ⟨listed,owned⟩
  have change := actChange c step
  have waits := (endedSame c step).1
  generalize (if step.call.ends.isSome then { c with attempt := none } else c) = ended at waits change
  cases change with
  | kept same quiet refused =>
    rcases refused source marks attempt told with invalid | empty | throws
    · rw [valid] at invalid
      cases invalid
    · rw [empty] at mem
      cases mem
    · exact .inr (.inr throws)
  | put other _ _ made now quiet =>
    cases Option.some.inj (told.symm.trans other)
    unfold Made at made
    rw [waits] at made
    have attempts := madeCounted counted allowed told made
    have held : ∀ retry, Made c source marks attempt retry → mark ∈ retry.orderedMarks ∧
        retry.snapshot.runtimeGeneration = source.runtimeGeneration ∧ retry.snapshot.ownedMask = source.ownedMask := by
      rintro retry (⟨pending,found,same,rfl⟩ | ⟨-,rfl⟩)
      · rw [sameRuntime,Bool.and_eq_true,beq_iff_eq,beq_iff_eq] at same
        refine ⟨?_,same.1,same.2⟩
        by_cases old : mark ∈ pending.orderedMarks
        · exact List.mem_append_left _ old
        · exact List.mem_append_right _ (List.mem_filter.mpr ⟨mem,decide_eq_true old⟩)
      · exact ⟨mem,rfl,rfl⟩
    obtain ⟨kept,generation,mask⟩ := held _ made
    rcases now with now | ⟨-,five⟩
    · exact .inl ⟨_,now,generation,mask,kept⟩
    · exact .inr (.inl ((attempts mark kept).fewer five))
  | exhausted was five now quiet idle =>
    rw [idle] at told
    cases told
  | cleared cancels now quiet =>
    rcases cancels with cancels | cancels
    · rw [cancels] at told
      cases told
    · rw [cancels] at told
      cases told
  | taken fired | requeued fired =>
    rw [fired] at told
    cases told

/- What is left of a deletion is what was not confirmed, and what is scheduled waits until it is dispatched or given up. -/
theorem cleanupConserved (env : Environment) (ownedMask : UInt32) (options : ConntrackCleanupOptions) (marks : List UInt32)
    (run : Run act Permitted {} steps c) (step : Step) (allowed : Permitted c step) :
    (∃ turns left last, distinctMarks marks = turns.map Turn.mark ++ left ∧ Turns ownedMask options [] turns ∧
      (deleteMarksOrdered env ownedMask options marks).1 = turns.flatMap Turn.own ++ last ∧
      (last = [] ∨ ∃ mark later, left = mark :: later ∧ last = [markCommand ownedMask "ipv4" mark] ∧
        deleteFamily env (turns.flatMap Turn.own) (markCommand ownedMask "ipv4" mark) = .commandUnavailable) ∧
      (deleteMarksOrdered env ownedMask options marks).2.remainingMarks = left ++ unconfirmed env ownedMask options turns ∧
      (deleteMarksOrdered env ownedMask options marks).2.remainingMarks.Nodup ∧
      ∀ mark, mark ∈ (deleteMarksOrdered env ownedMask options marks).2.remainingMarks ↔
        mark ∈ marks ∧ ∀ turn ∈ turns, turn.mark = mark → turn.confirmed env ownedMask options = false) ∧
    (∀ generation mask mark, Waiting c generation mask mark →
      Waiting (act c step) generation mask mark ∨ Released steps c step generation mask mark) ∧
    (∀ source told attempt mark, step.call.scheduled = some (source,told,attempt) → source.valid = true → mark ∈ told →
      mark &&& source.ownedMask ≠ 0 → Waiting (act c step) source.runtimeGeneration source.ownedMask mark ∨
        Attempts (steps ++ [step]) mark 5 ∨ step.callbacks.cancelThrows = true) := by
  have counted := runCounted run
  refine ⟨?_,fun _ _ _ waiting => waitingStays counted allowed waiting,
    fun _ _ _ _ told valid listed owned => scheduledWaits counted allowed told valid listed owned⟩
  obtain ⟨turns,left,last,account⟩ := @loopAccount env ownedMask options 0 (distinctMarks marks) {}
  have remaining : (deleteMarksOrdered env ownedMask options marks).2.remainingMarks = left ++ unconfirmed env ownedMask options turns := by
    have untried := account.untried
    have failed := account.failed
    rw [List.nil_append] at untried failed
    rw [deleteMarksOrdered,untried,failed]
  have nodup := distinctNodup marks
  rw [account.spent] at nodup
  obtain ⟨turnsApart,leftApart,apart⟩ := List.nodup_append.mp nodup
  have fromTurns : ∀ mark ∈ unconfirmed env ownedMask options turns, mark ∈ turns.map Turn.mark := by
    intro mark mem
    obtain ⟨turn,listed,rfl⟩ := List.mem_map.mp mem
    exact List.mem_map_of_mem (List.mem_filter.mp listed).1
  refine ⟨turns,left,last,account.spent,account.chained,account.issued,account.stopped,remaining,?_,fun mark => ?_⟩
  · rw [remaining]
    refine List.nodup_append.mpr ⟨leftApart,turnsApart.sublist (List.filter_sublist.map _),?_⟩
    intro one mem two other same
    exact apart two (fromTurns two other) one mem same.symm
  · have given : mark ∈ marks ↔ mark ∈ turns.map Turn.mark ∨ mark ∈ left := by
      rw [← distinctMem,account.spent,List.mem_append]
    rw [remaining,List.mem_append,given]
    constructor
    · rintro (mem | mem)
      · refine ⟨.inr mem,fun turn listed same => ?_⟩
        exact absurd same (apart turn.mark (List.mem_map_of_mem listed) mark mem)
      · refine ⟨.inl (fromTurns mark mem),fun turn listed same => ?_⟩
        obtain ⟨own,found,named⟩ := List.mem_map.mp mem
        obtain ⟨ownListed,unsure⟩ := List.mem_filter.mp found
        have alike : turn = own := List.inj_on_of_nodup_map turnsApart listed ownListed (same.trans named.symm)
        rw [alike]
        simpa using unsure
    · rintro ⟨mem | mem,unsure⟩
      · obtain ⟨turn,listed,rfl⟩ := List.mem_map.mp mem
        refine .inr (List.mem_map_of_mem (List.mem_filter.mpr ⟨listed,?_⟩))
        rw [unsure turn listed rfl]
        rfl
      · exact .inl mem

def sampleSnapshot : OwnedConntrackCleanupSnapshot := ⟨7,255,{1,2},∅,true⟩

def sampleRetry (marks : List UInt32) (attempt : Nat) : OwnedConntrackCleanupRetry := candidateOf sampleSnapshot marks attempt

def sampleIdle (marks : List UInt32) (attempt : Nat) : ConntrackCleanupCoordinator where
  retryTaskId := 0
  pending := some (sampleRetry marks attempt)

def sampleOut (marks : List UInt32) (attempt : Nat) : ConntrackCleanupCoordinator where
  attempt := some (sampleRetry marks attempt)

def sampleReport (marks : List UInt32) (attempt : Nat) : Step := ⟨.scheduleRemaining (sampleRetry marks attempt) [1],{}⟩

def sampleTimer : Step := ⟨.onTimer,{}⟩

/- One attempt gets rid of a mark, then four in a row of nothing. -/
def sampleSteps : List Step :=
  [⟨.schedule sampleSnapshot [1,2,1],{}⟩,sampleTimer,sampleReport [1,2] 0,sampleTimer] ++
  (List.range 4).flatMap fun attempt => [sampleReport [1] attempt,sampleTimer]

theorem sampleRound {attempt : Nat} (few : attempt < 4) :
    Run act Permitted (sampleOut [1] attempt) [sampleReport [1] attempt,sampleTimer] (sampleOut [1] (attempt + 1)) := by
  have again : act (sampleOut [1] attempt) (sampleReport [1] attempt) = sampleIdle [1] (attempt + 1) := by
    obtain rfl | rfl | rfl | rfl : attempt = 0 ∨ attempt = 1 ∨ attempt = 2 ∨ attempt = 3 := by omega
    all_goals decide
  refine .step ⟨rfl,fun _ mem => mem⟩ (.step trivial ?_)
  rw [again]
  exact .stop _

theorem sampleRun : Run act Permitted {} sampleSteps (sampleOut [1] 4) := by
  have first : act {} ⟨.schedule sampleSnapshot [1,2,1],{}⟩ = sampleIdle [1,2] 0 := by decide
  have rest : act (sampleOut [1,2] 0) (sampleReport [1,2] 0) = sampleIdle [1] 0 := by decide
  have opening : Run act Permitted {} [⟨.schedule sampleSnapshot [1,2,1],{}⟩,sampleTimer,sampleReport [1,2] 0,sampleTimer]
      (sampleOut [1] 0) := by
    refine .step trivial ?_
    rw [first]
    refine .step trivial (.step ⟨rfl,fun _ mem => List.mem_cons.mpr (.inl (List.mem_singleton.mp mem))⟩ ?_)
    change Run act Permitted (act (sampleOut [1,2] 0) (sampleReport [1,2] 0)) _ _
    rw [rest]
    exact .step trivial (.stop _)
  exact opening.append ((sampleRound (by decide)).append ((sampleRound (by decide)).append
    ((sampleRound (by decide)).append (sampleRound (by decide)))))

theorem sampleWaits : ¬Waiting (act (sampleOut [1] 4) (sampleReport [1] 4)) 7 255 1 ∧ Attempts (sampleSteps ++ [sampleReport [1] 4]) 1 5 := by
  have gone : ¬Waiting (act (sampleOut [1] 4) (sampleReport [1] 4)) 7 255 1 := by
    rintro ⟨retry,found,-⟩
    have empty : (act (sampleOut [1] 4) (sampleReport [1] 4)).pending = none := by decide
    rw [empty] at found
    cases found
  have told := (cleanupConserved ⟨fun _ _ => some ⟨0,[]⟩,fun _ => false,fun _ => false,fun _ => none⟩ 255 {} [1,1] sampleRun
    (sampleReport [1] 4) ⟨rfl,fun _ mem => mem⟩).2.2 (sampleRetry [1] 4).snapshot [1] 5 1 rfl (by decide) (by decide) (by decide)
  exact ⟨gone,(told.resolve_left gone).resolve_right Bool.false_ne_true⟩

end Result

end KeenPbr.ConntrackCleanup
