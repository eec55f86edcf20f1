import Mathlib.Data.List.Forall2
import KeenPbr.Runs
import KeenPbr.NfqwsParser

/-! runtime/lifecycle_operation.cpp: the one lifecycle operation that may be active, its stages and how it ends. A call is one step;
an observer that throws leaves what was published behind. -/
namespace KeenPbr.Lifecycle
open Runs

inductive OperationType where
  | applyConfig
  | start
  | stop
  | restart
  deriving DecidableEq, Repr

inductive Status where
  | pending
  | running
  | succeeded
  | failed
  | skipped
  deriving DecidableEq, Repr

inductive Result where
  | running
  | succeeded
  | failed
  deriving DecidableEq, Repr

structure Stage where
  id : Text
  status : Status := .pending
  detail : Text := []
  deriving DecidableEq, Repr

structure Snapshot where
  id : Text := []
  type : OperationType := .applyConfig
  result : Result := .running
  startedAt : Int := 0
  finishedAt : Option Int := none
  error : Text := []
  stages : List Stage := []
  deriving DecidableEq, Repr

/- The coordinator with its store. `begun` and `finished` are not in the source: how many operations begin has admitted, and each
operation as finish left it. -/
structure Coordinator where
  active : Option Snapshot := none
  sequence : UInt64 := 0
  store : Option Snapshot := none
  begun : Nat := 0
  finished : List Snapshot := []
  deriving DecidableEq, Repr

/- `created` is the caller's snapshot as begin finds it. -/
inductive Call where
  | begin (type : OperationType) (stages : List Stage) (created : Snapshot)
  | startStage (id stageId : Text)
  | succeedStage (id stageId detail : Text)
  | failStage (id stageId detail : Text)
  | skipStage (id stageId detail : Text)
  | finish (id error : Text)
  deriving DecidableEq, Repr

/- A call at a time, and whether the publish callback throws in it. -/
structure Step where
  call : Call
  now : Int := 0
  observerThrows : Bool := false
  deriving DecidableEq, Repr

section Stages
variable (found : Stage → Bool) (change : Stage → Stage)

def changeFirst : List Stage → List Stage
  | [] => []
  | stage :: rest => if found stage then change stage :: rest else stage :: changeFirst rest

def skipPending (stages : List Stage) : List Stage :=
  stages.map fun stage => if stage.status = .pending then { stage with status := .skipped } else stage

end Stages

/- The mutations; start_stage finds a stage by its name alone. -/
def startMutation (stageId : Text) (operation : Snapshot) : Snapshot :=
  { operation with
      stages := changeFirst (fun stage => stage.id == stageId)
        (fun stage => if stage.status = .pending then { stage with status := .running } else stage) operation.stages }

def succeedMutation (stageId detail : Text) (operation : Snapshot) : Snapshot :=
  { operation with
      stages := changeFirst (fun stage => stage.id == stageId && stage.status == .running)
        (fun stage => { stage with status := .succeeded, detail }) operation.stages }

def fails (stageId : Text) (stage : Stage) : Bool := stage.id == stageId && (stage.status == .pending || stage.status == .running)

def failMutation (stageId detail : Text) (operation : Snapshot) : Snapshot :=
  { operation with
      stages := skipPending (changeFirst (fails stageId) (fun stage => { stage with status := .failed, detail }) operation.stages),
      error := if operation.stages.any (fails stageId) then detail else operation.error }

def skipMutation (stageId detail : Text) (operation : Snapshot) : Snapshot :=
  { operation with
      stages := changeFirst (fun stage => stage.id == stageId && stage.status == .pending)
        (fun stage => { stage with status := .skipped, detail }) operation.stages }

def finishMutation (now : Int) (error : Text) (operation : Snapshot) : Snapshot :=
  let remembered := if error.isEmpty then operation.error else error
  { operation with
      error := remembered,
      stages := skipPending operation.stages,
      result := if remembered.isEmpty then .succeeded else .failed,
      finishedAt := some now }

def begin_ (type : OperationType) (stages : List Stage) (created : Snapshot) (now : Int) (observerThrows : Bool) (c : Coordinator) :
    Coordinator :=
  match c.active with
  | some _ => c
  | none =>
    let sequence := c.sequence + 1
    let operation := { created with
      id := text "lifecycle-" ++ Nat.toDigits 10 sequence.toNat,
      type,
      result := .running,
      startedAt := now,
      stages }
    if observerThrows then { c with sequence, store := some operation }
    else { c with sequence, store := some operation, active := some operation, begun := c.begun + 1 }

/- mutate publishes before it returns or throws, so that both leave the same. -/
def mutate (id : Text) (mutation : Snapshot → Snapshot) (c : Coordinator) : Coordinator :=
  match c.active with
  | none => c
  | some operation =>
    if operation.id ≠ id then c else { c with active := some (mutation operation), store := some (mutation operation) }

def finish (id error : Text) (now : Int) (c : Coordinator) : Coordinator :=
  let after := mutate id (finishMutation now error) c
  match after.active with
  | none => after
  | some operation => if operation.id ≠ id then after else { after with active := none, finished := after.finished ++ [operation] }

def act (c : Coordinator) (step : Step) : Coordinator :=
  match step.call with
  | .begin type stages created => begin_ type stages created step.now step.observerThrows c
  | .startStage id stageId => mutate id (startMutation stageId) c
  | .succeedStage id stageId detail => mutate id (succeedMutation stageId detail) c
  | .failStage id stageId detail => mutate id (failMutation stageId detail) c
  | .skipStage id stageId detail => mutate id (skipMutation stageId detail) c
  | .finish id error => finish id error step.now c

def Status.rank : Status → Nat
  | .pending => 0
  | .running => 1
  | .succeeded | .failed | .skipped => 2

def Forward (before after : Stage) : Prop := after.id = before.id ∧ (after.status = before.status ∨ before.status.rank < after.status.rank)

def Moves (before after : List Stage) : Prop := List.Forall₂ Forward before after

section Moving

theorem forwardRefl (stage : Stage) : Forward stage stage := ⟨rfl,.inl rfl⟩

theorem forwardTrans {first second third : Stage} (one : Forward first second) (two : Forward second third) : Forward first third := by
  refine ⟨two.1.trans one.1,?_⟩
  rcases one.2 with same | more
  · rcases two.2 with same' | more'
    · exact .inl (same'.trans same)
    · exact .inr (same ▸ more')
  · rcases two.2 with same' | more'
    · exact .inr (same' ▸ more)
    · exact .inr (Nat.lt_trans more more')

theorem movesRefl (stages : List Stage) : Moves stages stages := List.forall₂_same.mpr fun stage _ => forwardRefl stage

theorem changeMoves {found : Stage → Bool} {change : Stage → Stage} (forward : ∀ stage, found stage = true → Forward stage (change stage)) :
    ∀ stages, Moves stages (changeFirst found change stages) := by
  intro stages
  induction stages with
  | nil => exact .nil
  | cons stage rest ih =>
    rw [changeFirst]
    split
    · exact .cons (forward stage ‹_›) (movesRefl rest)
    · exact .cons (forwardRefl stage) ih

theorem skipMoves (stages : List Stage) : Moves stages (skipPending stages) := by
  induction stages with
  | nil => exact .nil
  | cons stage rest ih =>
    refine .cons ?_ ih
    dsimp only
    split
    · rename_i pending
      refine ⟨rfl,.inr ?_⟩
      rw [pending]
      exact Nat.zero_lt_two
    · exact forwardRefl stage

theorem movesTrans {first second third : List Stage} (one : Moves first second) (two : Moves second third) : Moves first third := by
  induction one generalizing third with
  | nil => exact two
  | cons forward _ ih =>
    cases two with
    | cons forward' rest => exact .cons (forwardTrans forward forward') (ih rest)

structure Keeps (before after : Snapshot) : Prop where
  id : after.id = before.id
  moves : Moves before.stages after.stages

theorem startKeeps (stageId : Text) (operation : Snapshot) : Keeps operation (startMutation stageId operation) := by
  refine ⟨rfl,changeMoves ?_ _⟩
  intro stage _
  split
  · rename_i pending
    refine ⟨rfl,.inr ?_⟩
    rw [pending]
    exact Nat.zero_lt_one
  · exact forwardRefl stage

theorem succeedKeeps (stageId detail : Text) (operation : Snapshot) : Keeps operation (succeedMutation stageId detail operation) := by
  refine ⟨rfl,changeMoves ?_ _⟩
  intro stage found
  have running : stage.status = .running := by simpa using (Bool.and_eq_true_iff.mp found).2
  refine ⟨rfl,.inr ?_⟩
  rw [running]
  exact Nat.one_lt_two

theorem failsOpen {stageId : Text} {stage : Stage} (found : fails stageId stage = true) :
    stage.status = .pending ∨ stage.status = .running := by
  simpa using (Bool.and_eq_true_iff.mp found).2

theorem failKeeps (stageId detail : Text) (operation : Snapshot) : Keeps operation (failMutation stageId detail operation) := by
  refine ⟨rfl,movesTrans (changeMoves ?_ _) (skipMoves _)⟩
  intro stage found
  refine ⟨rfl,.inr ?_⟩
  rcases failsOpen found with pending | running
  · rw [pending]
    exact Nat.zero_lt_two
  · rw [running]
    exact Nat.one_lt_two

theorem skipKeeps (stageId detail : Text) (operation : Snapshot) : Keeps operation (skipMutation stageId detail operation) := by
  refine ⟨rfl,changeMoves ?_ _⟩
  intro stage found
  have pending : stage.status = .pending := by simpa using (Bool.and_eq_true_iff.mp found).2
  refine ⟨rfl,.inr ?_⟩
  rw [pending]
  exact Nat.zero_lt_two

theorem finishKeeps (now : Int) (error : Text) (operation : Snapshot) : Keeps operation (finishMutation now error operation) :=
  ⟨rfl,skipMoves _⟩

end Moving

/- What a step makes of the operation that is active before it: it stays active or ends, and its stages have moved forward. -/
inductive Follows (before after : Coordinator) (operation : Snapshot) : Prop where
  | stays {next : Snapshot} (keeps : Keeps operation next) (active : after.active = some next) (same : after.finished = before.finished)
  | ends {last : Snapshot} (keeps : Keeps operation last) (inactive : after.active = none)
    (more : after.finished = before.finished ++ [last])

section Steps
variable {c : Coordinator} {operation : Snapshot}

theorem mutateIdle {id : Text} {mutation : Snapshot → Snapshot} (idle : c.active = none) : mutate id mutation c = c := by
  rw [mutate,idle]

theorem mutateActive {id : Text} {mutation : Snapshot → Snapshot} (active : c.active = some operation) : mutate id mutation c =
    if operation.id ≠ id then c else { c with active := some (mutation operation), store := some (mutation operation) } := by
  rw [mutate,active]

theorem finishIdle {id error : Text} {now : Int} (idle : c.active = none) : finish id error now c = c := by
  rw [finish,mutateIdle idle]
  rw [idle]

theorem finishActive {id error : Text} {now : Int} (active : c.active = some operation) : finish id error now c =
    if operation.id ≠ id then c
    else { c with
      active := none,
      store := some (finishMutation now error operation),
      finished := c.finished ++ [finishMutation now error operation] } := by
  rw [finish,mutateActive active]
  by_cases other : operation.id ≠ id
  · rw [if_pos other,if_pos other]
    rw [active]
    exact if_pos other
  · rw [if_neg other,if_neg other]
    exact if_neg other

theorem mutateFollows {id : Text} {mutation : Snapshot → Snapshot} (keeps : ∀ operation, Keeps operation (mutation operation))
    (active : c.active = some operation) : Follows c (mutate id mutation c) operation := by
  rw [mutateActive active]
  split
  · exact .stays ⟨rfl,movesRefl _⟩ active rfl
  · exact .stays (keeps operation) rfl rfl

theorem finishFollows {id error : Text} {now : Int} (active : c.active = some operation) : Follows c (finish id error now c) operation := by
  rw [finishActive active]
  split
  · exact .stays ⟨rfl,movesRefl _⟩ active rfl
  · exact .ends (finishKeeps now error operation) rfl rfl

theorem actFollows (step : Step) (active : c.active = some operation) : Follows c (act c step) operation := by
  unfold act
  cases step.call with
  | begin type stages created =>
    dsimp only
    rw [begin_,active]
    exact .stays ⟨rfl,movesRefl _⟩ active rfl
  | startStage id stageId => exact mutateFollows (startKeeps stageId) active
  | succeedStage id stageId detail => exact mutateFollows (succeedKeeps stageId detail) active
  | failStage id stageId detail => exact mutateFollows (failKeeps stageId detail) active
  | skipStage id stageId detail => exact mutateFollows (skipKeeps stageId detail) active
  | finish id error => exact finishFollows active

/- Each operation that begin admitted has ended or is the active one. -/
def Counted (c : Coordinator) : Prop := c.begun = c.finished.length + c.active.toList.length

theorem beginEq (type : OperationType) (stages : List Stage) (created : Snapshot) (now : Int) (observerThrows : Bool) (c : Coordinator) :
    (c.active ≠ none ∨ observerThrows = true) ∧ (begin_ type stages created now observerThrows c).active = c.active ∧
      (begin_ type stages created now observerThrows c).begun = c.begun ∧
      (begin_ type stages created now observerThrows c).finished = c.finished ∨
    c.active = none ∧ ∃ operation :
      Snapshot, operation.stages = stages ∧ (begin_ type stages created now observerThrows c).active = some operation ∧
      (begin_ type stages created now observerThrows c).begun = c.begun + 1 ∧
      (begin_ type stages created now observerThrows c).finished = c.finished := by
  unfold begin_
  split
  · rename_i operation active
    exact .inl ⟨.inl (by rw [active]; exact nofun),rfl,rfl,rfl⟩
  · rename_i idle
    dsimp only
    split
    · rename_i throws
      exact .inl ⟨.inr throws,rfl,rfl,rfl⟩
    · exact .inr ⟨idle,_,rfl,rfl,rfl,rfl⟩

theorem mutateCounted {id : Text} {mutation : Snapshot → Snapshot} (counted : Counted c) : Counted (mutate id mutation c) := by
  cases active : c.active with
  | none =>
    rw [mutateIdle active]
    exact counted
  | some operation =>
    rw [mutateActive active]
    split
    · exact counted
    · unfold Counted at counted ⊢
      rw [counted,active]
      exact rfl

theorem actCounted (c : Coordinator) (step : Step) (counted : Counted c) : Counted (act c step) := by
  unfold act
  cases step.call with
  | begin type stages created =>
    obtain ⟨_,active,begun,finished⟩ | ⟨idle,operation,_,active,begun,finished⟩ :=
      beginEq type stages created step.now step.observerThrows c
    · unfold Counted at counted ⊢
      dsimp only
      rw [active,begun,finished,counted]
    · unfold Counted at counted ⊢
      dsimp only
      rw [active,begun,finished,counted,idle]
      exact rfl
  | startStage | succeedStage | failStage | skipStage => exact mutateCounted counted
  | finish id error =>
    cases active : c.active with
    | none =>
      dsimp only
      rw [finishIdle active]
      exact counted
    | some operation =>
      dsimp only
      rw [finishActive active]
      split
      · exact counted
      · unfold Counted at counted ⊢
        dsimp only
        rw [counted,active,List.length_append]
        exact rfl

/- What a finished operation should be. -/
structure Settled (operation : Snapshot) : Prop where
  closed : ∀ stage ∈ operation.stages, stage.status ≠ .pending ∧ stage.status ≠ .running
  honest : operation.result = .succeeded → ∀ stage ∈ operation.stages, stage.status ≠ .failed

/- A call that keeps an operation's failures and leaves none of its stages behind. -/
def Sound (c : Coordinator) (step : Step) : Prop :=
  match step.call with
  | .begin _ stages _ => c.active = none → ∀ stage ∈ stages, stage.status ≠ .failed
  | .failStage id stageId detail => ∀ operation, c.active = some operation → operation.id = id →
      operation.stages.any (fails stageId) = true → detail ≠ []
  | .finish id _ => ∀ operation, c.active = some operation → operation.id = id → ∀ stage ∈ operation.stages, stage.status ≠ .running
  | _ => True

def Remembers (operation : Snapshot) : Prop := (∃ stage ∈ operation.stages, stage.status = .failed) → operation.error ≠ []

structure Honest (c : Coordinator) : Prop where
  active : ∀ operation, c.active = some operation → Remembers operation
  finished : ∀ operation ∈ c.finished, Settled operation

theorem changeMem {found : Stage → Bool} {change : Stage → Stage} {stages : List Stage} {stage : Stage}
    (listed : stage ∈ changeFirst found change stages) : stage ∈ stages ∨ ∃ old ∈ stages, found old = true ∧ stage = change old := by
  induction stages with
  | nil => cases listed
  | cons first rest ih =>
    rw [changeFirst] at listed
    split at listed
    · rename_i hit
      rcases List.mem_cons.mp listed with rfl | later
      · exact .inr ⟨first,List.mem_cons_self,hit,rfl⟩
      · exact .inl (List.mem_cons_of_mem _ later)
    · rcases List.mem_cons.mp listed with rfl | later
      · exact .inl List.mem_cons_self
      · rcases ih later with kept | ⟨old,listed,hit⟩
        · exact .inl (List.mem_cons_of_mem _ kept)
        · exact .inr ⟨old,List.mem_cons_of_mem _ listed,hit⟩

theorem skippedMem {stages : List Stage} {stage : Stage} (listed : stage ∈ skipPending stages) :
    stage.status ≠ .pending ∧ (stage.status ≠ .skipped → stage ∈ stages) := by
  obtain ⟨old,mem,rfl⟩ := List.mem_map.mp listed
  split
  · exact ⟨nofun,fun other => absurd rfl other⟩
  · exact ⟨‹_›,fun _ => mem⟩

theorem changeRemembers {found : Stage → Bool} {change : Stage → Stage}
    (harmless : ∀ stage, found stage = true → (change stage).status = .failed →
    stage.status = .failed) (before : Remembers operation) :
    Remembers { operation with stages := changeFirst found change operation.stages } := by
  rintro ⟨stage,listed,failed⟩
  rcases changeMem listed with kept | ⟨old,mem,hit,rfl⟩
  · exact before ⟨stage,kept,failed⟩
  · exact before ⟨old,mem,harmless old hit failed⟩

theorem failRemembers {stageId detail : Text} (before : Remembers operation)
    (told : operation.stages.any (fails stageId) = true → detail ≠ []) :
    Remembers (failMutation stageId detail operation) := by
  rintro ⟨stage,listed,failed⟩
  change (if operation.stages.any (fails stageId) then detail else operation.error) ≠ []
  split
  · exact told ‹_›
  · rename_i none_
    have old := (skippedMem listed).2 (by rw [failed]; exact nofun)
    rcases changeMem old with kept | ⟨other,mem,hit,_⟩
    · exact before ⟨stage,kept,failed⟩
    · exact absurd (List.any_eq_true.mpr ⟨other,mem,hit⟩) none_

theorem finishSettled {now : Int} {error : Text} (before : Remembers operation)
    (idle : ∀ stage ∈ operation.stages, stage.status ≠ .running) :
    Settled (finishMutation now error operation) where
  closed := by
    intro stage listed
    obtain ⟨past,kept⟩ := skippedMem listed
    refine ⟨past,fun running => ?_⟩
    exact idle stage (kept (by rw [running]; exact nofun)) running
  honest := by
    intro succeeded stage listed failed
    have old := (skippedMem listed).2 (by rw [failed]; exact nofun)
    have text := before ⟨stage,old,failed⟩
    unfold finishMutation at succeeded
    dsimp only at succeeded
    split at succeeded
    · split at succeeded
      · rename_i empty
        exact text (List.isEmpty_iff.mp empty)
      · cases succeeded
    · cases succeeded

theorem mutateHonest {id : Text} {mutation : Snapshot → Snapshot} (honest : Honest c)
    (kept : ∀ operation, c.active = some operation → operation.id = id → Remembers operation → Remembers (mutation operation)) :
    Honest (mutate id mutation c) := by
  cases active : c.active with
  | none =>
    rw [mutateIdle active]
    exact honest
  | some operation =>
    rw [mutateActive active]
    split
    · exact honest
    · rename_i same
      refine ⟨?_,honest.finished⟩
      rintro _ ⟨⟩
      exact kept operation active (not_not.mp same) (honest.active operation active)

theorem actHonest (c : Coordinator) (step : Step) (sound : Sound c step) (honest : Honest c) : Honest (act c step) := by
  unfold Sound at sound
  unfold act
  cases call : step.call with
  | begin type stages created =>
    rw [call] at sound
    obtain ⟨_,active,_,finished⟩ | ⟨idle,operation,given,active,_,finished⟩ := beginEq type stages created step.now step.observerThrows c
    · constructor
      · intro operation found
        exact honest.active operation (active ▸ found)
      · intro operation found
        exact honest.finished operation (finished ▸ found)
    · constructor
      · intro other found
        cases active.symm.trans found
        rintro ⟨stage,listed,failed⟩
        exact absurd failed (sound idle stage (given ▸ listed))
      · intro operation found
        exact honest.finished operation (finished ▸ found)
  | startStage id stageId =>
    refine mutateHonest honest fun operation _ _ => changeRemembers fun stage _ failed => ?_
    split at failed
    · cases failed
    · exact failed
  | succeedStage id stageId detail => exact mutateHonest honest fun operation _ _ => changeRemembers fun stage _ failed => by cases failed
  | failStage id stageId detail =>
    rw [call] at sound
    exact mutateHonest honest fun operation active same before => failRemembers before (sound operation active same)
  | skipStage id stageId detail => exact mutateHonest honest fun operation _ _ => changeRemembers fun stage _ failed => by cases failed
  | finish id error =>
    rw [call] at sound
    cases active : c.active with
    | none =>
      dsimp only
      rw [finishIdle active]
      exact honest
    | some operation =>
      dsimp only
      rw [finishActive active]
      split
      · exact honest
      · rename_i same
        refine ⟨nofun,?_⟩
        intro last listed
        rcases List.mem_append.mp listed with old | new
        · exact honest.finished last old
        · cases List.mem_singleton.mp new
          exact finishSettled (honest.active operation active) (sound operation active (not_not.mp same))

end Steps

/- In every run one operation at most is open and its stages move forward; in every run of sound calls each operation that has ended
has no open stage, and none that failed if it is reported as succeeded. -/
theorem operationsSettle (steps : List Step) (after : Coordinator) :
    (Run act (fun _ _ => True) {} steps after → after.begun ≤ after.finished.length + 1 ∧
      ∀ step operation, after.active = some operation → Follows after (act after step) operation) ∧
    (Run act Sound {} steps after → ∀ operation ∈ after.finished, Settled operation) := by
  constructor
  · intro run
    have counted : Counted after := run.keeps (fun c step _ => actCounted c step) rfl
    refine ⟨?_,fun step operation active => actFollows step active⟩
    unfold Counted at counted
    cases active : after.active with
    | none =>
      rw [counted,active]
      exact Nat.le_succ _
    | some operation =>
      rw [counted,active]
      exact Nat.le_refl _
  · intro run
    have honest : Honest after := run.keeps actHonest ⟨nofun,nofun⟩
    exact honest.finished

def toldFailure : List Step :=
  [{ call := .begin .restart [{ id := text "start" }] {} },
   { call := .startStage (text "lifecycle-1") (text "start") },
   { call := .failStage (text "lifecycle-1") (text "start") (text "timeout") },
   { call := .finish (text "lifecycle-1") [] }]

theorem toldFailureSettles : Run act Sound {} toldFailure (toldFailure.foldl act {}) ∧
    ∀ operation ∈ (toldFailure.foldl act {}).finished, Settled operation := by
  have open_ : ((toldFailure.take 3).foldl act {}).active =
      some { id := text "lifecycle-1", type := .restart, error := text "timeout",
             stages := [{ id := text "start", status := .failed, detail := text "timeout" }] } := by
    decide
  have run : Run act Sound {} toldFailure (toldFailure.foldl act {}) := by
    refine .step ?_ (.step trivial (.step ?_ (.step ?_ (.stop _))))
    · intro _ stage mem
      cases List.mem_singleton.mp mem
      decide
    · intro _ _ _ _
      decide
    · intro operation active _
      cases Option.some.inj (open_.symm.trans active)
      decide
  exact ⟨run,(operationsSettle _ _).2 run⟩

def untoldFailure : List Step :=
  [{ call := .begin .restart [{ id := text "start" }] {} },
   { call := .startStage (text "lifecycle-1") (text "start") },
   { call := .failStage (text "lifecycle-1") (text "start") [] },
   { call := .finish (text "lifecycle-1") [] }]

theorem untoldFailureSucceeds :
    ¬∀ steps after, Run act (fun _ _ => True) {} steps after → ∀ operation ∈ after.finished, Settled operation := by
  intro all
  have run : Run act (fun _ _ => True) {} untoldFailure (untoldFailure.foldl act {}) :=
    .step trivial (.step trivial (.step trivial (.step trivial (.stop _))))
  have finished : (untoldFailure.foldl act {}).finished =
      [{ id := text "lifecycle-1", type := .restart, result := .succeeded, finishedAt := some 0,
         stages := [{ id := text "start", status := .failed }] }] := by
    decide
  have settled := all _ _ run _ (by rw [finished]; exact List.mem_cons_self)
  exact settled.honest rfl _ List.mem_cons_self rfl

end KeenPbr.Lifecycle
