import KeenPbr.IdleStall
import Mathlib.Data.List.TakeWhile

/-! How many deletions the detector lets happen: in a window of the rate limit, for one source at a
time, and after the last one for a source. -/
namespace KeenPbr.IdleStall
open Runs

section Selection
variable {scan : IdleStallScan} {now : Int} {limit : Nat} {reached : Bool}

structure Selected (now : Int) (limit : Nat) (start d : IdleStallDetector) (decisions : List IdleStallDeleteDecision) : Prop where
  times : d.decisionTimes = start.decisionTimes
  cooldown : d.sourceCooldownUntil = start.sourceCooldownUntil
  card : d.pendingAttempts.card ≤ start.pendingAttempts.card + decisions.length
  few : decisions.length ≤ limit
  single : ∀ p ∈ d.pendingAttempts, ∀ q ∈ d.pendingAttempts, sourceKey p.1 = sourceKey q.1 → p = q
  numbered : ∀ p ∈ d.pendingAttempts, p.2.attemptId ≤ d.nextAttemptId
  distinct : ∀ p ∈ d.pendingAttempts, ∀ q ∈ d.pendingAttempts, p.2.attemptId = q.2.attemptId → p = q
  grown : start.nextAttemptId ≤ d.nextAttemptId
  numbers : ∀ p ∈ d.pendingAttempts, p ∈ start.pendingAttempts ∨ start.nextAttemptId < p.2.attemptId ∧ p.2.attemptId ≤ d.nextAttemptId
  cool : ∀ decision ∈ decisions, (start.sourceCooldownUntil (sourceKey decision.flow)).any (now < ·) = false

variable {start d : IdleStallDetector} {decisions : List IdleStallDeleteDecision}

theorem Selected.retired (selected : Selected now limit start d decisions) (key : IdleStallFlowKey) :
    Selected now limit start (retireSuspect d key now) decisions :=
  ⟨selected.times,selected.cooldown,selected.card,selected.few,selected.single,selected.numbered,selected.distinct,selected.grown,
    selected.numbers,selected.cool⟩

theorem selectOneKeeps (candidate : Candidate) (selected : Selected now limit start d decisions) :
    Selected now limit start (selectOne scan now limit reached d decisions candidate).1
      (selectOne scan now limit reached d decisions candidate).2 := by
  unfold selectOne
  dsimp only
  split
  · exact selected.retired candidate.key
  · rename_i warm
    split
    · exact selected
    · rename_i alone
      split
      · split
        · exact selected.retired candidate.key
        · exact selected
      · rename_i room
        have fresh : (candidate.key,(⟨scan.epoch,candidate.reason,d.nextAttemptId + 1⟩ : PendingAttempt)) ∉ d.pendingAttempts :=
          fun mem => alone ⟨_,mem,rfl⟩
        refine ⟨selected.times,selected.cooldown,?_,?_,?_,?_,?_,Nat.le_succ_of_le selected.grown,?_,?_⟩
        · rw [Finset.card_insert_of_notMem fresh,List.length_append,List.length_singleton]
          have := selected.card
          omega
        · rw [List.length_append,List.length_singleton]
          omega
        · intro p atP q atQ same
          rcases Finset.mem_insert.mp atP with rfl | atP
          · rcases Finset.mem_insert.mp atQ with rfl | atQ
            · rfl
            · exact absurd ⟨q,atQ,same.symm⟩ alone
          · rcases Finset.mem_insert.mp atQ with rfl | atQ
            · exact absurd ⟨p,atP,same⟩ alone
            · exact selected.single p atP q atQ same
        · intro p atP
          rcases Finset.mem_insert.mp atP with rfl | atP
          · exact Nat.le_refl _
          · exact Nat.le_succ_of_le (selected.numbered p atP)
        · intro p atP q atQ same
          rcases Finset.mem_insert.mp atP with rfl | atP
          · rcases Finset.mem_insert.mp atQ with rfl | atQ
            · rfl
            · exact absurd same.symm (Nat.ne_of_lt (Nat.lt_succ_of_le (selected.numbered q atQ)))
          · rcases Finset.mem_insert.mp atQ with rfl | atQ
            · exact absurd same (Nat.ne_of_lt (Nat.lt_succ_of_le (selected.numbered p atP)))
            · exact selected.distinct p atP q atQ same
        · intro p atP
          rcases Finset.mem_insert.mp atP with rfl | atP
          · exact .inr ⟨Nat.lt_succ_of_le selected.grown,Nat.le_refl _⟩
          · exact (selected.numbers p atP).imp id fun held => ⟨held.1,Nat.le_succ_of_le held.2⟩
        · intro decision mem
          rcases List.mem_append.mp mem with old | new
          · exact selected.cool decision old
          · cases List.mem_singleton.mp new
            rw [selected.cooldown] at warm
            exact Bool.eq_false_iff.mpr warm

theorem selectKeeps (candidates : List Candidate) (selected : Selected now limit start d decisions) :
    Selected now limit start (select scan now limit reached d decisions candidates).1
      (select scan now limit reached d decisions candidates).2 := by
  induction candidates generalizing d decisions with
  | nil => exact selected
  | cons candidate rest ih => exact ih (selectOneKeeps candidate selected)

end Selection

section Observed
variable {options : IdleStallDetectorOptions}

structure Accounted (options : IdleStallDetectorOptions) (before : IdleStallDetector) (now : Int) (d : IdleStallDetector) : Prop where
  times : d.decisionTimes = (pruneLimits options before now).decisionTimes
  cooldown : d.sourceCooldownUntil = (pruneLimits options before now).sourceCooldownUntil
  pending : d.pendingAttempts ⊆ before.pendingAttempts
  numbers : d.nextAttemptId = before.nextAttemptId

variable {before d : IdleStallDetector} {now : Int} {scan : IdleStallScan}

theorem Accounted.cleared (accounted : Accounted options before now d) : Accounted options before now (resetObservationContinuity d) :=
  ⟨accounted.times,accounted.cooldown,Finset.empty_subset _,accounted.numbers⟩

theorem Accounted.aligned (accounted : Accounted options before now d) (scan : IdleStallScan) :
    Accounted options before now (alignEpoch d scan) := by
  have cleared := accounted.cleared
  unfold alignEpoch
  split
  · exact ⟨cleared.times,cleared.cooldown,cleared.pending,cleared.numbers⟩
  · split
    · exact ⟨cleared.times,cleared.cooldown,cleared.pending,cleared.numbers⟩
    · exact accounted

theorem Accounted.judged (accounted : Accounted options before now d) (scan : IdleStallScan) (prepared : List PreparedSample) :
    Accounted options before now (judgeAll options (protectMedia options (keepObserved d prepared) prepared now) scan now prepared) :=
  ⟨accounted.times,accounted.cooldown,
    (Finset.filter_subset _ _).trans ((Finset.filter_subset _ _).trans accounted.pending),accounted.numbers⟩

theorem observeCases (options : IdleStallDetectorOptions) (before : IdleStallDetector) (scan : IdleStallScan) (now : Int) :
    ∃ d, Accounted options before now d ∧ (observe options before scan now = (d,[]) ∨
      ∃ candidates, observe options before scan now =
        select scan now (decisionLimitOf options d) (decide (options.maxDecisionsPerRateWindow ≤ d.decisionTimes.length)) d
          [] candidates) := by
  have pruned : Accounted options before now (pruneLimits options { before with whatsappFastFollowupRequested := false } now) :=
    ⟨rfl,rfl,Finset.Subset.refl _,rfl⟩
  have cleared := pruned.cleared
  unfold observe
  dsimp only
  split
  · refine ⟨_,?_,.inl rfl⟩
    exact ⟨cleared.times,cleared.cooldown,cleared.pending,cleared.numbers⟩
  · have aligned := pruned.aligned scan
    split
    · have again := aligned.cleared
      refine ⟨_,?_,.inl rfl⟩
      exact ⟨again.times,again.cooldown,again.pending,again.numbers⟩
    · exact ⟨_,aligned.judged scan _,.inr ⟨_,rfl⟩⟩

end Observed

/- The detector with the time of its last call and the acknowledgements it accepted. -/
structure World where
  detector : IdleStallDetector := {}
  clock : Int
  successes : List (IdleStallDeleteDecision × Int) := []
  settled : List IdleStallDeleteDecision := []

inductive Act where
  | observe (scan : IdleStallScan) (now : Int)
  | acknowledge (decision : IdleStallDeleteDecision) (deleteSucceeded : Bool) (now : Int)
  | takeFollowup
  | reset

section Runs
variable (options : IdleStallDetectorOptions)

def act (w : World) : Act → World
  | .observe scan now => { w with detector := (observe options w.detector scan now).1, clock := now }
  | .acknowledge decision deleteSucceeded now =>
    let (detector,accepted) := acknowledgeDeleteResult options w.detector decision deleteSucceeded now
    { detector
      clock := now
      successes := if accepted && deleteSucceeded then (decision,now) :: w.successes else w.successes
      settled := if accepted then decision :: w.settled else w.settled }
  | .takeFollowup => { w with detector := (takeWhatsappFastFollowupDelay options w.detector).1 }
  | .reset => { w with detector := reset w.detector }

def may (w : World) : Act → Prop
  | .observe _ now => w.clock ≤ now
  | .acknowledge _ _ now => w.clock ≤ now
  | _ => True

def World.successesFrom (w : World) (time : Int) : Nat :=
  (w.successes.filter fun success => time ≤ success.2 ∧ success.2 < time + options.globalRateWindow).length

/- Committed times and pending attempts stay within the limit, and the times forgotten lie a window back. -/
structure Sound (options : IdleStallDetectorOptions) (w : World) : Prop where
  capacity : w.detector.decisionTimes.length + w.detector.pendingAttempts.card ≤ options.maxDecisionsPerRateWindow
  single : ∀ p ∈ w.detector.pendingAttempts, ∀ q ∈ w.detector.pendingAttempts, sourceKey p.1 = sourceKey q.1 → p = q
  numbered : ∀ p ∈ w.detector.pendingAttempts, p.2.attemptId ≤ w.detector.nextAttemptId
  distinct : ∀ p ∈ w.detector.pendingAttempts, ∀ q ∈ w.detector.pendingAttempts, p.2.attemptId = q.2.attemptId → p = q
  settled : ∀ decision ∈ w.settled, decision.attemptId ≤ w.detector.nextAttemptId ∧
    ∀ p ∈ w.detector.pendingAttempts, p.2.attemptId ≠ decision.attemptId
  kept : ∃ dropped, (w.successes.map (·.2)).reverse = dropped ++ w.detector.decisionTimes ∧
    ∀ time ∈ dropped, time + options.globalRateWindow ≤ w.clock
  windows : ∀ time, w.successesFrom options time ≤ options.maxDecisionsPerRateWindow
  cooldown : ∀ success ∈ w.successes, success.2 + options.sourceCooldown ≤ w.clock ∨
    ∃ limit, w.detector.sourceCooldownUntil (sourceKey success.1.flow) = some limit ∧ success.2 + options.sourceCooldown ≤ limit

end Runs

section Steps
variable {options : IdleStallDetectorOptions} {w : World} {now : Int}

theorem soundInitially (clock : Int) : Sound options { clock } where
  capacity := Nat.zero_le _
  single _ mem := absurd mem (Finset.notMem_empty _)
  numbered _ mem := absurd mem (Finset.notMem_empty _)
  distinct _ mem := absurd mem (Finset.notMem_empty _)
  settled _ mem := by cases mem
  kept := ⟨[],rfl,nofun⟩
  windows _ := Nat.zero_le _
  cooldown _ mem := by cases mem

theorem prunedTimes (sound : Sound options w) (later : w.clock ≤ now) : ∃ dropped,
    (w.successes.map (·.2)).reverse = dropped ++ (pruneLimits options w.detector now).decisionTimes ∧
      ∀ time ∈ dropped, time + options.globalRateWindow ≤ now := by
  obtain ⟨dropped,split,far⟩ := sound.kept
  refine ⟨dropped ++ w.detector.decisionTimes.takeWhile fun time => options.globalRateWindow ≤ now - time,?_,?_⟩
  · rw [split,List.append_assoc]
    exact congrArg (dropped ++ ·) List.takeWhile_append_dropWhile.symm
  · intro time mem
    rcases List.mem_append.mp mem with old | new
    · have := far time old
      omega
    · have gone := List.mem_takeWhile_imp new
      simp only [decide_eq_true_eq] at gone
      omega

theorem prunedCooldown (sound : Sound options w) (later : w.clock ≤ now) {success : IdleStallDeleteDecision × Int}
    (mem : success ∈ w.successes) :
    success.2 + options.sourceCooldown ≤ now ∨ ∃ limit,
      (pruneLimits options w.detector now).sourceCooldownUntil (sourceKey success.1.flow) = some limit ∧
        success.2 + options.sourceCooldown ≤ limit := by
  rcases sound.cooldown success mem with elapsed | ⟨limit,found,bound⟩
  · exact .inl (Int.le_trans elapsed later)
  · by_cases alive : now < limit
    · refine .inr ⟨limit,?_,bound⟩
      simp only [pruneLimits,found,Option.filter_some,decide_eq_true_eq,if_pos alive]
    · exact .inl (by omega)

variable (options) in
theorem prunedFew (d : IdleStallDetector) (now : Int) : (pruneLimits options d now).decisionTimes.length ≤ d.decisionTimes.length :=
  List.Sublist.length_le (List.dropWhile_sublist _)

theorem limitRoom (d : IdleStallDetector) (within : d.decisionTimes.length + d.pendingAttempts.card ≤ options.maxDecisionsPerRateWindow) :
    d.decisionTimes.length + d.pendingAttempts.card + decisionLimitOf options d ≤ options.maxDecisionsPerRateWindow := by
  unfold decisionLimitOf
  dsimp only
  omega

theorem accountedSound (sound : Sound options w) (later : w.clock ≤ now) {d : IdleStallDetector}
    (accounted : Accounted options w.detector now d) :
    Sound options { w with detector := d, clock := now } where
  capacity := by
    have fewer := Finset.card_le_card accounted.pending
    have shorter := prunedFew options w.detector now
    have before := sound.capacity
    dsimp only
    rw [accounted.times]
    omega
  single p atP q atQ := sound.single p (accounted.pending atP) q (accounted.pending atQ)
  numbered p atP := by
    dsimp only
    rw [accounted.numbers]
    exact sound.numbered p (accounted.pending atP)
  distinct p atP q atQ := sound.distinct p (accounted.pending atP) q (accounted.pending atQ)
  settled decision mem := by
    obtain ⟨bound,away⟩ := sound.settled decision mem
    dsimp only
    rw [accounted.numbers]
    exact ⟨bound,fun p atP => away p (accounted.pending atP)⟩
  kept := by
    dsimp only
    rw [accounted.times]
    exact prunedTimes sound later
  windows := sound.windows
  cooldown success mem := by
    dsimp only
    rw [accounted.cooldown]
    exact prunedCooldown sound later mem

theorem selectedSound {next : IdleStallDetector} {decisions : List IdleStallDeleteDecision} (sound : Sound options w)
    (selected : Selected now (decisionLimitOf options w.detector) w.detector next decisions) :
    Sound options { w with detector := next } where
  capacity := by
    have room := limitRoom w.detector sound.capacity
    have card := selected.card
    have few := selected.few
    dsimp only
    rw [selected.times]
    omega
  single := selected.single
  numbered := selected.numbered
  distinct := selected.distinct
  settled decision mem := by
    obtain ⟨bound,away⟩ := sound.settled decision mem
    refine ⟨Nat.le_trans bound selected.grown,fun p atP => ?_⟩
    rcases selected.numbers p atP with old | ⟨new,_⟩
    · exact away p old
    · exact Nat.ne_of_gt (Nat.lt_of_le_of_lt bound new)
  kept := by
    dsimp only
    rw [selected.times]
    exact sound.kept
  windows := sound.windows
  cooldown success mem := by
    dsimp only
    rw [selected.cooldown]
    exact sound.cooldown success mem

theorem selectedStart {limit : Nat} (sound : Sound options w) : Selected now limit w.detector w.detector [] :=
  ⟨rfl,rfl,Nat.le_refl _,Nat.zero_le _,sound.single,sound.numbered,sound.distinct,Nat.le_refl _,fun _ mem => .inl mem,nofun⟩

theorem observeSound (sound : Sound options w) (later : w.clock ≤ now) (scan : IdleStallScan) :
    Sound options (act options w (.observe scan now)) := by
  obtain ⟨d,accounted,outcome⟩ := observeCases options w.detector scan now
  have before := accountedSound sound later accounted
  unfold act
  dsimp only
  rcases outcome with ended | ⟨candidates,chosen⟩
  · rw [ended]
    exact before
  · rw [chosen]
    exact selectedSound before (selectKeeps candidates (selectedStart before))

variable (options) in
theorem acknowledgeCases (d : IdleStallDetector) (decision : IdleStallDeleteDecision) (deleteSucceeded : Bool) (now : Int) :
    acknowledgeDeleteResult options d decision deleteSucceeded now = (d,false) ∨
      (d.activeEpoch = some decision.epoch ∧ pendingOf decision ∈ d.pendingAttempts ∧
        (acknowledgeDeleteResult options d decision deleteSucceeded now).2 = true) := by
  unfold acknowledgeDeleteResult
  split
  · exact .inl rfl
  · rename_i same
    split
    · exact .inl rfl
    · rename_i pending
      refine .inr ⟨by simpa using (not_or.mp same).1,not_not.mp pending,?_⟩
      dsimp only
      split <;> rfl

variable (options) in
theorem acknowledgedAccounts (d : IdleStallDetector) (decision : IdleStallDeleteDecision) (deleteSucceeded : Bool) (now : Int)
    (ok : (acknowledgeDeleteResult options d decision deleteSucceeded now).2 = true) :
    let next := (acknowledgeDeleteResult options d decision deleteSucceeded now).1
    next.pendingAttempts = d.pendingAttempts.erase (pendingOf decision) ∧ next.nextAttemptId = d.nextAttemptId ∧
      next.decisionTimes = (if deleteSucceeded then (pruneLimits options d now).decisionTimes ++ [now] else d.decisionTimes) ∧
      ∀ source, next.sourceCooldownUntil source =
        if deleteSucceeded then
          if source = sourceKey decision.flow then
            some (max (((pruneLimits options d now).sourceCooldownUntil source).getD 0) (now + options.sourceCooldown))
          else (pruneLimits options d now).sourceCooldownUntil source
        else d.sourceCooldownUntil source := by
  unfold acknowledgeDeleteResult at ok ⊢
  split at ok
  · cases ok
  · rename_i same
    split at ok
    · cases ok
    · rename_i pending
      rw [if_neg same,if_neg pending]
      cases deleteSucceeded with
      | false => exact ⟨rfl,rfl,rfl,fun _ => rfl⟩
      | true =>
        refine ⟨rfl,rfl,rfl,fun source => ?_⟩
        by_cases own : source = sourceKey decision.flow
        · subst own
          rfl
        · simp only [Bool.not_true,Bool.false_eq_true,if_false,if_true,if_neg own]
          rfl

theorem laterSound (sound : Sound options w) (later : w.clock ≤ now) : Sound options { w with clock := now } := by
  obtain ⟨dropped,split,far⟩ := sound.kept
  exact ⟨sound.capacity,sound.single,sound.numbered,sound.distinct,sound.settled,
    ⟨dropped,split,fun time mem => Int.le_trans (far time mem) later⟩,
    sound.windows,fun success mem => (sound.cooldown success mem).imp (fun elapsed => Int.le_trans elapsed later) id⟩

theorem windowsAfter (sound : Sound options w) (later : w.clock ≤ now)
    (room : (pruneLimits options w.detector now).decisionTimes.length + 1 ≤ options.maxDecisionsPerRateWindow)
    (decision : IdleStallDeleteDecision)
    (time : Int) : World.successesFrom options
    { w with successes := (decision,now) :: w.successes } time ≤ options.maxDecisionsPerRateWindow := by
  unfold World.successesFrom
  dsimp only
  by_cases inside : time ≤ now ∧ now < time + options.globalRateWindow
  · obtain ⟨dropped,split,far⟩ := prunedTimes sound later
    rw [List.filter_cons_of_pos (by simpa using inside),List.length_cons]
    have counted : (w.successes.filter fun success => time ≤ success.2 ∧ success.2 < time + options.globalRateWindow).length =
        ((w.successes.map (·.2)).reverse.filter fun at_time => time ≤ at_time ∧ at_time < time + options.globalRateWindow).length := by
      rw [List.filter_reverse,List.length_reverse,List.filter_map,List.length_map]
      rfl
    have gone : dropped.filter (fun at_time => time ≤ at_time ∧ at_time < time + options.globalRateWindow) = [] := by
      rw [List.filter_eq_nil_iff]
      intro at_time mem held
      have := far at_time mem
      simp only [decide_eq_true_eq] at held
      omega
    rw [counted,split,List.filter_append,gone,List.nil_append]
    have fewer := List.length_filter_le (fun at_time => decide (time ≤ at_time ∧ at_time < time + options.globalRateWindow))
      (pruneLimits options w.detector now).decisionTimes
    omega
  · rw [List.filter_cons_of_neg (by simpa using inside)]
    exact sound.windows time

theorem acknowledgeSound (sound : Sound options w) (later : w.clock ≤ now) (decision : IdleStallDeleteDecision) (deleteSucceeded : Bool) :
    Sound options (act options w (.acknowledge decision deleteSucceeded now)) := by
  unfold act
  dsimp only
  rcases acknowledgeCases options w.detector decision deleteSucceeded now with ignored | ⟨_,pending,ok⟩
  · rw [ignored]
    exact laterSound sound later
  · obtain ⟨attempts,numbers,times,cooldowns⟩ := acknowledgedAccounts options w.detector decision deleteSucceeded now ok
    rw [ok,if_pos rfl,Bool.true_and]
    generalize (acknowledgeDeleteResult options w.detector decision deleteSucceeded now).1 = next at *
    have filled : 0 < w.detector.pendingAttempts.card := Finset.card_pos.mpr ⟨_,pending⟩
    have before := sound.capacity
    have shorter := prunedFew options w.detector now
    refine ⟨?_,?_,?_,?_,?_,?_,?_,?_⟩
    · dsimp only
      rw [times,attempts,Finset.card_erase_of_mem pending]
      split
      · rw [List.length_append,List.length_singleton]
        omega
      · omega
    · dsimp only
      rw [attempts]
      exact fun p atP q atQ => sound.single p (Finset.mem_of_mem_erase atP) q (Finset.mem_of_mem_erase atQ)
    · dsimp only
      rw [attempts,numbers]
      exact fun p atP => sound.numbered p (Finset.mem_of_mem_erase atP)
    · dsimp only
      rw [attempts]
      exact fun p atP q atQ => sound.distinct p (Finset.mem_of_mem_erase atP) q (Finset.mem_of_mem_erase atQ)
    · dsimp only
      rw [attempts,numbers]
      intro other mem
      rcases List.mem_cons.mp mem with rfl | old
      · refine ⟨sound.numbered _ pending,fun p atP same => ?_⟩
        obtain ⟨apart,inside⟩ := Finset.mem_erase.mp atP
        exact apart (sound.distinct p inside _ pending same)
      · exact ⟨(sound.settled other old).1,fun p atP => (sound.settled other old).2 p (Finset.mem_of_mem_erase atP)⟩
    · dsimp only
      rw [times]
      cases deleteSucceeded with
      | false =>
        obtain ⟨dropped,split,far⟩ := sound.kept
        exact ⟨dropped,split,fun time mem => Int.le_trans (far time mem) later⟩
      | true =>
        obtain ⟨dropped,split,far⟩ := prunedTimes sound later
        refine ⟨dropped,?_,far⟩
        rw [if_pos rfl,if_pos rfl,List.map_cons,List.reverse_cons,split,List.append_assoc]
    · cases deleteSucceeded with
      | false => exact sound.windows
      | true => exact windowsAfter sound later (by omega) decision
    · dsimp only
      intro success mem
      rw [cooldowns]
      cases deleteSucceeded with
      | false => exact (sound.cooldown success mem).imp (fun elapsed => Int.le_trans elapsed later) id
      | true =>
        rw [if_pos rfl] at mem ⊢
        rcases List.mem_cons.mp mem with rfl | old
        · rw [if_pos rfl]
          exact .inr ⟨_,rfl,le_max_right _ _⟩
        · rcases prunedCooldown sound later old with elapsed | ⟨limit,found,bound⟩
          · exact .inl elapsed
          · right
            rw [found]
            split
            · exact ⟨_,rfl,le_max_of_le_left bound⟩
            · exact ⟨limit,rfl,bound⟩

theorem stepSound {a : Act} (quiet : a ≠ .reset) (allowed : may w a) (sound : Sound options w) : Sound options (act options w a) := by
  cases a with
  | observe scan now => exact observeSound sound allowed scan
  | acknowledge decision deleteSucceeded now => exact acknowledgeSound sound allowed decision deleteSucceeded
  | takeFollowup =>
    unfold act takeWhatsappFastFollowupDelay
    dsimp only
    split
    · exact sound
    · exact ⟨sound.capacity,sound.single,sound.numbered,sound.distinct,sound.settled,sound.kept,sound.windows,sound.cooldown⟩
  | reset => exact absurd rfl quiet

theorem reachableSound {history : List Act} {start : World} (run : Run (act options) may start history w) (quiet : .reset ∉ history)
    (sound : Sound options start) : Sound options w := by
  induction run with
  | stop => exact sound
  | step allowed later ih =>
    have first := List.ne_of_not_mem_cons quiet
    exact ih (List.not_mem_of_not_mem_cons quiet) (stepSound (fun same => first same.symm) allowed sound)

theorem decidedAfterCooldown (sound : Sound options w) (later : w.clock ≤ now) {scan : IdleStallScan} {decision : IdleStallDeleteDecision}
    (decided : decision ∈ (observe options w.detector scan now).2) {success : IdleStallDeleteDecision × Int} (mem : success ∈ w.successes)
    (same : sourceKey success.1.flow = sourceKey decision.flow) : success.2 + options.sourceCooldown ≤ now := by
  obtain ⟨d,accounted,outcome⟩ := observeCases options w.detector scan now
  rcases outcome with ended | ⟨candidates,chosen⟩
  · rw [ended] at decided
    cases decided
  · have before := accountedSound sound later accounted
    have cool := (selectKeeps candidates (selectedStart before)).cool decision (by rw [chosen] at decided; exact decided)
    rcases prunedCooldown sound later mem with elapsed | ⟨limit,found,_⟩
    · exact elapsed
    · have alive : now < limit := by
        simp only [pruneLimits,Option.filter_eq_some_iff,decide_eq_true_eq] at found
        exact found.2
      dsimp only at cool
      rw [accounted.cooldown,← same,found] at cool
      simp only [Option.any_some,decide_eq_false_iff_not] at cool
      exact absurd alive cool

/- In every run without a full reset: no window of the rate limit holds more successes than it
allows, a source has one pending attempt at most, none is decided in its cooldown, and an
acknowledgement of another epoch, of an attempt no longer pending or already acknowledged changes nothing. -/
theorem stallLimits {history : List Act} {clock : Int} (run : Run (act options) may { clock } history w) (quiet : .reset ∉ history) :
    (∀ time, w.successesFrom options time ≤ options.maxDecisionsPerRateWindow) ∧
    (∀ p ∈ w.detector.pendingAttempts, ∀ q ∈ w.detector.pendingAttempts, sourceKey p.1 = sourceKey q.1 → p = q) ∧
    (∀ scan now, w.clock ≤ now → ∀ decision ∈ (observe options w.detector scan now).2, ∀ success ∈ w.successes,
      sourceKey success.1.flow = sourceKey decision.flow → success.2 + options.sourceCooldown ≤ now) ∧
    (∀ decision deleteSucceeded now, decision ∈ w.settled ∨ w.detector.activeEpoch ≠ some decision.epoch ∨
      pendingOf decision ∉ w.detector.pendingAttempts →
      acknowledgeDeleteResult options w.detector decision deleteSucceeded now = (w.detector,false)) := by
  have sound := reachableSound run quiet (soundInitially clock)
  refine ⟨sound.windows,sound.single,fun scan now later decision decided success mem same =>
    decidedAfterCooldown sound later decided mem same,
    fun decision deleteSucceeded now stale => ?_⟩
  rcases acknowledgeCases options w.detector decision deleteSucceeded now with ignored | ⟨epoch,pending,_⟩
  · exact ignored
  · rcases stale with again | other | gone
    · exact absurd rfl ((sound.settled decision again).2 _ pending)
    · exact absurd epoch other
    · exact absurd pending gone

end Steps

section Samples

def phone : IdleStallFlowKey :=
  { source := "192.168.1.10", destination := "203.0.113.7", sourcePort := 50000, destinationPort := 443, fullMark := 0x10000 }

def phoneScan (originalBytes : UInt64) : IdleStallScan :=
  { epoch := ⟨1,1⟩, ownedMarkMask := 0xff0000
    flows := [{ key := phone, counters := { originalPackets := 1, originalBytes, replyPackets := 1, replyBytes := 100 },
                readiness := .tcpEstablished }] }

def phoneDecision : IdleStallDeleteDecision := ⟨phone,.idleRequestWithoutReply,⟨1,1⟩,1⟩

def stalledPhone : List Act :=
  [.observe (phoneScan 100) 0,.observe (phoneScan 1000) 30,.observe (phoneScan 1000) 35,.acknowledge phoneDecision true 36]

theorem phoneLimited : ∃ w, Run (act {}) may { clock := 0 } stalledPhone w ∧ w.successes = [(phoneDecision,36)] ∧
    acknowledgeDeleteResult {} w.detector phoneDecision true 37 = (w.detector,false) := by
  have run : Run (act {}) may { clock := 0 } stalledPhone _ :=
    .step (by decide : (0 : Int) ≤ 0)
      (.step (by decide : (0 : Int) ≤ 30) (.step (by decide : (30 : Int) ≤ 35) (.step (by decide : (35 : Int) ≤ 36) (.stop _))))
  have once : (stalledPhone.foldl (act {}) { clock := 0 }).successes = [(phoneDecision,36)] := by decide
  have quiet : Act.reset ∉ stalledPhone := by simp [stalledPhone]
  refine ⟨_,run,once,(stallLimits run quiet).2.2.2 phoneDecision true 37 (.inl ?_)⟩
  have settled : phoneDecision ∈ (stalledPhone.foldl (act {}) { clock := 0 }).settled := by decide
  exact settled

end Samples

end KeenPbr.IdleStall
