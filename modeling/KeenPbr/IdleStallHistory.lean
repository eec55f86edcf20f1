import KeenPbr.IdleStallLimits

/-! What a decision about an unanswered request rests on, told by the scans alone, and that the
detector does not depend on the order of the flows in a scan. -/
namespace KeenPbr.IdleStall
open Runs

abbrev Observation := IdleStallScan × Int

section Evidence
variable (options : IdleStallDetectorOptions)

def Usable (scan : IdleStallScan) : Prop := admissible options scan = true ∧ distinctKeys scan = true

def sampleIn (scan : IdleStallScan) (key : IdleStallFlowKey) : Option IdleStallFlowSample :=
  (scan.flows.filter (eligibleSample · scan.ownedMarkMask)).find? (·.key == key)

structure Continues (current previous : Observation) : Prop where
  usable : Usable options current.1
  before : Usable options previous.1
  epoch : current.1.epoch = previous.1.epoch
  mark : current.1.preventiveTcpResetOwnedMark = previous.1.preventiveTcpResetOwnedMark

structure Flowing (key : IdleStallFlowKey) (current previous : Observation) (sample earlier : IdleStallFlowSample) : Prop where
  continues : Continues options current previous
  here : sampleIn current.1 key = some sample
  before : sampleIn previous.1 key = some earlier
  counters : countersRegressed sample.counters earlier.counters = false
  policy : earlier.recoveryPolicy = sample.recoveryPolicy

def originalProgress (sample earlier : IdleStallFlowSample) : Prop :=
  options.tinyKeepaliveMaxBytesPerDirection < sample.counters.originalBytes - earlier.counters.originalBytes

def replyProgress (sample earlier : IdleStallFlowSample) : Prop :=
  options.tinyKeepaliveMaxBytesPerDirection < sample.counters.replyBytes - earlier.counters.replyBytes

inductive Quiet (key : IdleStallFlowKey) : Int → List Observation → Prop where
  | base {current : Observation} {log : List Observation} {sample : IdleStallFlowSample} (usable : Usable options current.1)
      (here : sampleIn current.1 key = some sample) : Quiet key current.2 (current :: log)
  | step {since : Int} {current previous : Observation} {log : List Observation} {sample earlier : IdleStallFlowSample}
      (quiet : Quiet key since (previous :: log)) (flowing : Flowing options key current previous sample earlier)
      (original : ¬ originalProgress options sample earlier) (reply : ¬ replyProgress options sample earlier) :
      Quiet key since (current :: previous :: log)

/- A UDP flow of the source grew in both directions at the time, in the scans of this epoch. -/
inductive MediaAt (source : SourceKey) : Int → List Observation → Prop where
  | here {key : IdleStallFlowKey} {current previous : Observation} {log : List Observation} {sample earlier : IdleStallFlowSample}
      (flowing : Flowing options key current previous sample earlier) (udp : key.protocol = .udp) (own : sourceKey key = source)
      (original : originalGrew sample.counters earlier.counters = true) (reply : replyGrew sample.counters earlier.counters = true) :
      MediaAt source current.2 (current :: previous :: log)
  | before {time : Int} {current previous : Observation} {log : List Observation} (continues : Continues options current previous)
      (media : MediaAt source time (previous :: log)) : MediaAt source time (current :: previous :: log)

def NoMedia (source : SourceKey) (now : Int) (log : List Observation) : Prop :=
  ∀ time, MediaAt options source time log → time + options.activeMediaHold ≤ now

/- The flow was quiet for the threshold, sent application data at the time, and has had no
application reply since; nor has its source had media within the hold. -/
inductive Unanswered (key : IdleStallFlowKey) : Int → List Observation → Prop where
  | request {since : Int} {current previous : Observation} {log : List Observation} {sample earlier : IdleStallFlowSample}
      (quiet : Quiet options key since (previous :: log)) (idle : options.idleThreshold ≤ current.2 - since)
      (flowing : Flowing options key current previous sample earlier) (original : originalProgress options sample earlier)
      (reply : ¬ replyProgress options sample earlier) (media : NoMedia options (sourceKey key) current.2 (current :: previous :: log)) :
      Unanswered key current.2 (current :: previous :: log)
  | wait {time : Int} {current previous : Observation} {log : List Observation} {sample earlier : IdleStallFlowSample}
      (unanswered : Unanswered key time (previous :: log)) (flowing : Flowing options key current previous sample earlier)
      (reply : ¬ replyProgress options sample earlier) (media : NoMedia options (sourceKey key) current.2 (current :: previous :: log)) :
      Unanswered key time (current :: previous :: log)

end Evidence

/- The detector with the time of its last call and the scans since the last full reset. -/
structure Watch where
  detector : IdleStallDetector := {}
  clock : Int
  log : List Observation := []

section Watching
variable (options : IdleStallDetectorOptions)

def watch (w : Watch) : Act → Watch
  | .observe scan now => { detector := (observe options w.detector scan now).1, clock := now, log := (scan,now) :: w.log }
  | .acknowledge decision deleteSucceeded now =>
    { w with detector := (acknowledgeDeleteResult options w.detector decision deleteSucceeded now).1, clock := now }
  | .takeFollowup => { w with detector := (takeWhatsappFastFollowupDelay options w.detector).1 }
  | .reset => { w with detector := reset w.detector, log := [] }

def mayWatch (w : Watch) : Act → Prop
  | .observe _ now => w.clock ≤ now
  | .acknowledge _ _ now => w.clock ≤ now
  | _ => True

structure Explained (log : List Observation) (clock : Int) (key : IdleStallFlowKey) (state : FlowState)
    (sample : IdleStallFlowSample) : Prop where
  counters : state.counters = sample.counters
  policy : state.recoveryPolicy = sample.recoveryPolicy
  quiet : ∃ since, since ≤ state.lastActivityAt ∧ since ≤ clock ∧ Quiet options key since log
  suspect : ∀ time, state.suspectSince = some time → Unanswered options key time log

structure Followed (d : IdleStallDetector) (clock : Int) (log : List Observation) : Prop where
  states : ∀ key state, d.states key = some state → ∃ current rest sample, log = current :: rest ∧ Usable options current.1 ∧
    sampleIn current.1 key = some sample ∧ Explained options log clock key state sample
  present : ∀ current rest key sample, log = current :: rest → Usable options current.1 → sampleIn current.1 key = some sample →
    ∃ state, d.states key = some state
  epoch : ∀ current rest, log = current :: rest → Usable options current.1 → d.activeEpoch = some current.1.epoch ∧
    d.activePreventiveTcpResetOwnedMark = current.1.preventiveTcpResetOwnedMark
  media : ∀ source time, MediaAt options source time log → time + options.activeMediaHold ≤ clock ∨
    ∃ limit, d.activeMediaUntil source = some limit ∧ time + options.activeMediaHold ≤ limit

end Watching

section Samples
variable {options : IdleStallDetectorOptions} {scan : IdleStallScan} {now : Int} {d : IdleStallDetector}

theorem preparedSample (states : IdleStallFlowKey → Option FlowState) (sample : IdleStallFlowSample) :
    (prepare options states now sample).sample = sample := by
  unfold prepare
  split
  · rfl
  · split <;> rfl

variable (options scan now d) in
theorem preparedForKey (key : IdleStallFlowKey) :
    preparedFor (prepareAll options d scan now) key = (sampleIn scan key).map (prepare options d.states now) := by
  unfold preparedFor prepareAll sampleIn
  rw [List.find?_map]
  congr 2
  funext sample
  simp only [Function.comp,preparedSample]

theorem sampleKey {key : IdleStallFlowKey} {sample : IdleStallFlowSample} (found : sampleIn scan key = some sample) : sample.key = key := by
  have held := List.find?_some found
  simpa using held

theorem sampleOfMem (distinct : distinctKeys scan = true) {sample : IdleStallFlowSample}
    (mem : sample ∈ scan.flows.filter (eligibleSample · scan.ownedMarkMask)) : sampleIn scan sample.key = some sample := by
  unfold distinctKeys at distinct
  rw [Bool.and_eq_true,decide_eq_true_eq] at distinct
  cases found : sampleIn scan sample.key with
  | none =>
    have missing := List.find?_eq_none.mp found sample mem
    simp at missing
  | some other =>
    have listed : other ∈ scan.flows.filter (eligibleSample · scan.ownedMarkMask) := List.mem_of_find?_eq_some found
    have same := List.inj_on_of_nodup_map distinct.2 (List.mem_of_mem_filter listed) (List.mem_of_mem_filter mem) (sampleKey found)
    rw [same]

theorem preparedMem (distinct : distinctKeys scan = true) {current : PreparedSample} (mem : current ∈ prepareAll options d scan now) :
    sampleIn scan current.sample.key = some current.sample ∧ current = prepare options d.states now current.sample := by
  obtain ⟨sample,listed,rfl⟩ := List.mem_map.mp mem
  rw [preparedSample]
  exact ⟨sampleOfMem distinct listed,rfl⟩

theorem preparedFlow {sample : IdleStallFlowSample} {states : IdleStallFlowKey → Option FlowState}
    (steady : (prepare options states now sample).baseline = false) : ∃ state, states sample.key = some state ∧
      countersRegressed sample.counters state.counters = false ∧ state.recoveryPolicy = sample.recoveryPolicy ∧
      prepare options states now sample =
        { sample
          state
          originalGrew := originalGrew sample.counters state.counters
          replyGrew := replyGrew sample.counters state.counters
          originalApplicationProgress :=
            options.tinyKeepaliveMaxBytesPerDirection < sample.counters.originalBytes - state.counters.originalBytes
          replyApplicationProgress := options.tinyKeepaliveMaxBytesPerDirection < sample.counters.replyBytes - state.counters.replyBytes
          wasIdle := options.idleThreshold ≤ now - state.lastActivityAt
          countersUnchangedForIdle := options.idleThreshold ≤ now - state.lastCounterChangeAt } := by
  unfold prepare at steady ⊢
  cases found : states sample.key with
  | none =>
    rw [found] at steady
    cases steady
  | some state =>
    rw [found] at steady
    dsimp only at steady ⊢
    split at steady
    · cases steady
    · rename_i goes
      rw [if_neg goes]
      rw [Bool.or_eq_true,not_or] at goes
      exact ⟨state,rfl,by simpa using goes.1,by simpa using goes.2,rfl⟩

theorem preparedState {sample : IdleStallFlowSample} {states : IdleStallFlowKey → Option FlowState} {state : FlowState}
    (found : states sample.key = some state) (counters : countersRegressed sample.counters state.counters = false)
    (policy : state.recoveryPolicy = sample.recoveryPolicy) : (prepare options states now sample).baseline = false := by
  unfold prepare
  rw [found]
  dsimp only
  rw [if_neg]
  simp [counters,policy]

theorem preparedBaseline {sample : IdleStallFlowSample} {states : IdleStallFlowKey → Option FlowState}
    (baseline : (prepare options states now sample).baseline = true) :
    (prepare options states now sample).state = freshState sample now := by
  unfold prepare at baseline ⊢
  split
  · rfl
  · rename_i state found
    rw [found] at baseline
    dsimp only at baseline
    split
    · rfl
    · rename_i goes
      rw [if_neg goes] at baseline
      cases baseline

end Samples

section Aligned
variable {options : IdleStallDetectorOptions} {scan : IdleStallScan} {now clock : Int} {d : IdleStallDetector} {log : List Observation}

def alignedDetector (options : IdleStallDetectorOptions) (d : IdleStallDetector) (scan : IdleStallScan) (now : Int) : IdleStallDetector :=
  alignEpoch (pruneLimits options { d with whatsappFastFollowupRequested := false } now) scan

theorem alignedEpoch : (alignedDetector options d scan now).activeEpoch = some scan.epoch ∧
    (alignedDetector options d scan now).activePreventiveTcpResetOwnedMark = scan.preventiveTcpResetOwnedMark := by
  unfold alignedDetector alignEpoch
  split
  · exact ⟨rfl,rfl⟩
  · rename_i same
    rw [not_not] at same
    split
    · exact ⟨same,rfl⟩
    · rename_i mark
      rw [not_not] at mark
      exact ⟨same,mark⟩

theorem alignedKeeps (followed : Followed options d clock log) {previous : Observation} {rest : List Observation}
    (shape : log = previous :: rest)
    (continues : Continues options (scan,now) previous) :
    (alignedDetector options d scan now).states = d.states ∧
      ∀ source, (alignedDetector options d scan now).activeMediaUntil source = (d.activeMediaUntil source).filter fun limit =>
        now < limit := by
  obtain ⟨epoch,mark⟩ := followed.epoch previous rest shape continues.before
  have sameEpoch : ¬ (pruneLimits options { d with whatsappFastFollowupRequested := false } now).activeEpoch ≠ some scan.epoch := by
    rw [not_not]
    exact epoch.trans (congrArg some continues.epoch.symm)
  have sameMark : ¬ (pruneLimits options { d with whatsappFastFollowupRequested := false } now).activePreventiveTcpResetOwnedMark ≠
      scan.preventiveTcpResetOwnedMark := by
    rw [not_not]
    exact mark.trans continues.mark.symm
  unfold alignedDetector alignEpoch
  rw [if_neg sameEpoch,if_neg sameMark]
  exact ⟨rfl,fun _ => rfl⟩

theorem alignedState (followed : Followed options d clock log) (usable : Usable options scan) {key : IdleStallFlowKey} {state : FlowState}
    (found : (alignedDetector options d scan now).states key = some state) :
    ∃ previous rest, log = previous :: rest ∧ Continues options (scan,now) previous ∧ d.states key = some state := by
  unfold alignedDetector alignEpoch at found
  split at found
  · cases found
  · rename_i epoch
    rw [not_not] at epoch
    split at found
    · cases found
    · rename_i mark
      rw [not_not] at mark
      obtain ⟨previous,rest,_,shape,before,_,_⟩ := followed.states key state found
      obtain ⟨active,owned⟩ := followed.epoch previous rest shape before
      have sameEpoch : scan.epoch = previous.1.epoch :=
        Option.some.inj ((show d.activeEpoch = some scan.epoch from epoch).symm.trans active)
      exact ⟨previous,rest,shape,⟨usable,before,sameEpoch,(show d.activePreventiveTcpResetOwnedMark = _ from mark).symm.trans owned⟩,found⟩

theorem preparedFlowing (followed : Followed options d clock log) (usable : Usable options scan) {key : IdleStallFlowKey}
    {sample : IdleStallFlowSample}
    (found : sampleIn scan key = some sample) {state : FlowState}
    (held : (alignedDetector options d scan now).states sample.key = some state)
    (counters : countersRegressed sample.counters state.counters = false) (policy : state.recoveryPolicy = sample.recoveryPolicy) :
    ∃ previous rest earlier, log = previous :: rest ∧ Flowing options key (scan,now) previous sample earlier ∧
      Explained options log clock key state earlier := by
  have own := sampleKey found
  obtain ⟨previous,rest,shape,continues,before⟩ := alignedState followed usable held
  rw [own] at before
  obtain ⟨current,tail,earlier,again,_,listed,explained⟩ := followed.states key state before
  rw [shape,List.cons.injEq] at again
  obtain ⟨rfl,rfl⟩ := again
  refine ⟨previous,rest,earlier,shape,⟨continues,found,listed,?_,?_⟩,explained⟩
  · rw [← explained.counters]
    exact counters
  · rw [← explained.policy]
    exact policy

end Aligned

section Judged
variable {options : IdleStallDetectorOptions} {scan : IdleStallScan} {now clock : Int} {d : IdleStallDetector} {log : List Observation}
  {current : PreparedSample}

theorem judgeSuspect {time : Int} (suspect : (judge options d scan now current).suspectSince = some time) :
    mediaProtected d (sourceKey current.sample.key) now = false ∧ current.replyApplicationProgress = false ∧
      (current.state.suspectSince = some time ∨
        time = now ∧ current.wasIdle = true ∧ current.originalApplicationProgress = true) := by
  unfold judge at suspect
  dsimp only at suspect
  split at suspect
  · cases suspect
  · rename_i free
    rw [Bool.or_eq_true,not_or,Bool.not_eq_true,Bool.not_eq_true] at free
    refine ⟨free.1,free.2,?_⟩
    split at suspect
    · rename_i since held
      cases suspect
      exact .inl held
    · split at suspect
      · rename_i request
        rw [Bool.and_eq_true] at request
        cases suspect
        exact .inr ⟨rfl,request⟩
      · split at suspect
        · cases suspect
        · split at suspect <;> cases suspect

theorem judgeCandidate (proposed : (judge options d scan now current).candidate = some .idleRequestWithoutReply) :
    ∃ since, (judge options d scan now current).suspectSince = some since ∧ current.state.suspectSince = some since ∧
      confirmationDelayFor options current.state.recoveryPolicy ≤ now - since := by
  unfold judge at proposed ⊢
  dsimp only at proposed ⊢
  split at proposed
  · cases proposed
  · rename_i free
    rw [if_neg free]
    cases held : current.state.suspectSince with
    | some since =>
      rw [held] at proposed
      dsimp only at proposed
      split at proposed
      · rename_i due
        exact ⟨since,rfl,rfl,due⟩
      · cases proposed
    | none =>
      rw [held] at proposed
      dsimp only at proposed
      split at proposed
      · cases proposed
      · split at proposed
        · cases proposed
        · split at proposed <;> cases proposed

def mediaDetector (options : IdleStallDetectorOptions) (d : IdleStallDetector) (scan : IdleStallScan) (now : Int) : IdleStallDetector :=
  let aligned := alignedDetector options d scan now
  protectMedia options (keepObserved aligned (prepareAll options aligned scan now)) (prepareAll options aligned scan now) now

theorem mediaFollowed (followed : Followed options d clock log) (later : clock ≤ now) {source : SourceKey} {time : Int}
    (media : MediaAt options source time ((scan,now) :: log)) : time + options.activeMediaHold ≤ now ∨
      ∃ limit, (mediaDetector options d scan now).activeMediaUntil source = some limit ∧ time + options.activeMediaHold ≤ limit := by
  cases media with
  | @here key _ previous rest sample earlier flowing udp own original reply =>
    right
    obtain ⟨states,_⟩ := alignedKeeps followed rfl flowing.continues
    obtain ⟨state,held⟩ := followed.present previous rest key earlier rfl flowing.continues.before flowing.before
    obtain ⟨_,_,other,again,_,listed,explained⟩ := followed.states key state held
    cases again
    rw [flowing.before] at listed
    cases listed
    have same := sampleKey flowing.here
    have found : (alignedDetector options d scan now).states sample.key = some state := by rw [states,same,held]
    have steady : (prepare options (alignedDetector options d scan now).states now sample).baseline = false :=
      preparedState found (by rw [explained.counters]; exact flowing.counters) (explained.policy.trans flowing.policy)
    obtain ⟨again,found',_,_,shape⟩ := preparedFlow steady
    rw [found] at found'
    cases found'
    have shows : (prepareAll options (alignedDetector options d scan now) scan now).any (showsMedia · source) = true := by
      rw [List.any_eq_true]
      refine ⟨_,List.mem_map_of_mem (List.mem_of_find?_eq_some flowing.here),?_⟩
      rw [shape]
      simp only [showsMedia,explained.counters,original,reply,same,udp,own,Bool.not_false,Bool.and_true,beq_self_eq_true]
    refine ⟨_,if_pos shows,le_max_right _ _⟩
  | @before _ _ previous rest continues media =>
    obtain ⟨_,kept⟩ := alignedKeeps followed rfl continues
    rcases followed.media source time media with elapsed | ⟨limit,found,bound⟩
    · exact .inl (Int.le_trans elapsed later)
    · by_cases alive : now < limit
      · right
        have still : (alignedDetector options d scan now).activeMediaUntil source = some limit := by
          rw [kept,found,Option.filter_some,decide_eq_true alive,if_pos rfl]
        unfold mediaDetector protectMedia
        dsimp only
        split
        · refine ⟨_,rfl,le_max_of_le_left ?_⟩
          rw [show (keepObserved _ _).activeMediaUntil source = some limit from still]
          exact bound
        · exact ⟨limit,still,bound⟩
      · exact .inl (by omega)

theorem unprotected (followed : Followed options d clock log) (later : clock ≤ now) {source : SourceKey}
    (free : mediaProtected (mediaDetector options d scan now) source now = false) : NoMedia options source now ((scan,now) :: log) := by
  intro time media
  rcases mediaFollowed followed later media with elapsed | ⟨limit,found,bound⟩
  · exact elapsed
  · unfold mediaProtected at free
    rw [found,Option.any_some,decide_eq_false_iff_not] at free
    omega

theorem quietNow (usable : Usable options scan) {key : IdleStallFlowKey} {sample : IdleStallFlowSample}
    (found : sampleIn scan key = some sample) :
    Quiet options key now ((scan,now) :: log) :=
  @Quiet.base options key (scan,now) log sample usable found

theorem judgedExplained (followed : Followed options d clock log) (later : clock ≤ now) (usable : Usable options scan)
    {key : IdleStallFlowKey}
    {sample : IdleStallFlowSample} (found : sampleIn scan key = some sample) :
    let current := prepare options (alignedDetector options d scan now).states now sample
    Explained options ((scan,now) :: log) now key (judgedState options (mediaDetector options d scan now) scan now current) sample ∧
      (current.baseline = false → (judge options (mediaDetector options d scan now) scan now current).candidate = some
        .idleRequestWithoutReply →
        ∃ since, Unanswered options key since ((scan,now) :: log) ∧ confirmationDelayFor options sample.recoveryPolicy ≤ now - since) := by
  have own := sampleKey found
  dsimp only
  have kept : (prepare options (alignedDetector options d scan now).states now sample).sample = sample := preparedSample _ sample
  generalize made : prepare options (alignedDetector options d scan now).states now sample = current at kept ⊢
  cases baseline : current.baseline with
  | true =>
    have fresh : current.state = freshState sample now := by
      rw [← made] at baseline ⊢
      exact preparedBaseline baseline
    unfold judgedState
    rw [if_pos baseline,fresh]
    refine ⟨⟨rfl,rfl,⟨now,le_refl _,le_refl _,quietNow usable found⟩,fun time impossible => ?_⟩,fun impossible => ?_⟩
    · cases impossible
    · cases impossible
  | false =>
    rw [← made] at baseline
    obtain ⟨state,held,counters,policy,shape⟩ := preparedFlow baseline
    obtain ⟨previous,rest,earlier,rfl,flowing,explained⟩ := preparedFlowing followed usable found held counters policy
    rw [made] at shape baseline
    -- the flags of the sample, in terms of the scans
    have originalFlag : current.originalApplicationProgress = true ↔ originalProgress options sample earlier := by
      rw [shape,originalProgress,explained.counters,decide_eq_true_eq]
    have replyFlag : current.replyApplicationProgress = true ↔ replyProgress options sample earlier := by
      rw [shape,replyProgress,explained.counters,decide_eq_true_eq]
    have suspects (time : Int) (suspect : (judge options (mediaDetector options d scan now) scan now current).suspectSince = some time) :
        Unanswered options key time ((scan,now) :: previous :: rest) := by
      obtain ⟨free,reply,start⟩ := judgeSuspect suspect
      rw [kept,own] at free
      have silent : ¬ replyProgress options sample earlier := fun progress => by
        rw [replyFlag.mpr progress] at reply
        cases reply
      rcases start with old | ⟨rfl,idle,original⟩
      · rw [shape] at old
        exact .wait (explained.suspect time old) flowing silent (unprotected followed later free)
      · obtain ⟨since,early,_,quiet⟩ := explained.quiet
        rw [shape,decide_eq_true_eq] at idle
        have long : options.idleThreshold ≤ time - since := by omega
        exact @Unanswered.request options key since (scan,time) previous rest sample earlier quiet long flowing
          (originalFlag.mp original) silent
          (unprotected followed later free)
    constructor
    · unfold judgedState
      rw [baseline,if_neg Bool.false_ne_true]
      refine ⟨by rw [kept],?_,?_,suspects⟩
      · rw [shape]
        exact policy
      · dsimp only
        split
        · exact ⟨now,le_refl _,le_refl _,quietNow usable found⟩
        · rename_i silent
          rw [Bool.or_eq_true,not_or] at silent
          obtain ⟨since,early,past,quiet⟩ := explained.quiet
          refine ⟨since,?_,Int.le_trans past later,.step quiet flowing (fun progress => silent.1 (originalFlag.mpr progress))
            fun progress => silent.2 (replyFlag.mpr progress)⟩
          rw [shape]
          exact early
    · intro _ proposed
      obtain ⟨since,suspect,_,due⟩ := judgeCandidate proposed
      refine ⟨since,suspects since suspect,?_⟩
      rw [shape] at due
      rw [← policy]
      exact due

end Judged

section Kept
variable {options : IdleStallDetectorOptions} {scan : IdleStallScan} {now clock : Int} {start d next : IdleStallDetector}
    {log : List Observation}

def retired (now : Int) (state : FlowState) : FlowState := { state with suspectSince := none, lastActivityAt := now }

structure Retires (now : Int) (d next : IdleStallDetector) : Prop where
  states : ∀ key, next.states key = d.states key ∨ next.states key = (d.states key).map (retired now)
  epoch : next.activeEpoch = d.activeEpoch ∧ next.activePreventiveTcpResetOwnedMark = d.activePreventiveTcpResetOwnedMark
  media : ∀ source, next.activeMediaUntil source = d.activeMediaUntil source ∨
    next.activeMediaUntil source = (d.activeMediaUntil source).filter fun limit => now < limit

theorem Retires.refl : Retires now d d := ⟨fun _ => .inl rfl,⟨rfl,rfl⟩,fun _ => .inl rfl⟩

theorem retiredFollowed (followed : Followed options d clock log) (later : clock ≤ now) (retires : Retires now d next) :
    Followed options next now log where
  states key state found := by
    rcases retires.states key with same | changed
    · rw [same] at found
      obtain ⟨current,rest,sample,shape,usable,listed,explained⟩ := followed.states key state found
      obtain ⟨since,early,past,quiet⟩ := explained.quiet
      exact ⟨current,rest,sample,shape,usable,listed,
        ⟨explained.counters,explained.policy,⟨since,early,Int.le_trans past later,quiet⟩,explained.suspect⟩⟩
    · rw [changed,Option.map_eq_some_iff] at found
      obtain ⟨before,held,rfl⟩ := found
      obtain ⟨current,rest,sample,shape,usable,listed,explained⟩ := followed.states key before held
      obtain ⟨since,_,past,quiet⟩ := explained.quiet
      refine ⟨current,rest,sample,shape,usable,listed,⟨explained.counters,explained.policy,
        ⟨since,Int.le_trans past later,Int.le_trans past later,quiet⟩,fun time impossible => ?_⟩⟩
      cases impossible
  present current rest key sample shape usable listed := by
    obtain ⟨state,held⟩ := followed.present current rest key sample shape usable listed
    rcases retires.states key with same | changed
    · exact ⟨state,same.trans held⟩
    · exact ⟨retired now state,by rw [changed,held]; rfl⟩
  epoch current rest shape usable := by
    rw [retires.epoch.1,retires.epoch.2]
    exact followed.epoch current rest shape usable
  media source time media := by
    rcases followed.media source time media with elapsed | ⟨limit,found,bound⟩
    · exact .inl (Int.le_trans elapsed later)
    · rcases retires.media source with same | pruned
      · exact .inr ⟨limit,same.trans found,bound⟩
      · by_cases alive : now < limit
        · exact .inr ⟨limit,by rw [pruned,found,Option.filter_some,decide_eq_true alive,if_pos rfl],bound⟩
        · exact .inl (by omega)

theorem Retires.suspect (retires : Retires now start d) (key : IdleStallFlowKey) : Retires now start (retireSuspect d key now) where
  states other := by
    unfold retireSuspect
    dsimp only
    split
    · right
      rcases retires.states other with same | changed
      · rw [same]
        rfl
      · rw [changed,Option.map_map]
        rfl
    · exact retires.states other
  epoch := retires.epoch
  media := retires.media

variable {limit : Nat} {reached : Bool}

theorem selectOneRetires (candidate : Candidate) {decisions : List IdleStallDeleteDecision} (retires : Retires now start d) :
    Retires now start (selectOne scan now limit reached d decisions candidate).1 := by
  unfold selectOne
  dsimp only
  split
  · exact retires.suspect candidate.key
  · split
    · exact retires
    · split
      · split
        · exact retires.suspect candidate.key
        · exact retires
      · exact ⟨retires.states,retires.epoch,retires.media⟩

theorem selectRetires (candidates : List Candidate) {decisions : List IdleStallDeleteDecision} (retires : Retires now start d) :
    Retires now start (select scan now limit reached d decisions candidates).1 := by
  induction candidates generalizing d decisions with
  | nil => exact retires
  | cons candidate rest ih => exact ih (selectOneRetires candidate retires)

theorem decidedOne (candidate : Candidate) {decisions : List IdleStallDeleteDecision} {decision : IdleStallDeleteDecision}
    (decided : decision ∈ (selectOne scan now limit reached d decisions candidate).2) :
    decision ∈ decisions ∨ decision.flow = candidate.key ∧ decision.reason = candidate.reason := by
  unfold selectOne at decided
  dsimp only at decided
  split at decided
  · exact .inl decided
  · split at decided
    · exact .inl decided
    · split at decided
      · split at decided <;> exact .inl decided
      · rcases List.mem_append.mp decided with old | new
        · exact .inl old
        · cases List.mem_singleton.mp new
          exact .inr ⟨rfl,rfl⟩

theorem decidedFrom (candidates : List Candidate) {decisions : List IdleStallDeleteDecision} {decision : IdleStallDeleteDecision}
    (decided : decision ∈ (select scan now limit reached d decisions candidates).2) :
    decision ∈ decisions ∨ ∃ candidate ∈ candidates, decision.flow = candidate.key ∧ decision.reason = candidate.reason := by
  induction candidates generalizing d decisions with
  | nil => exact .inl decided
  | cons candidate rest ih =>
    rcases ih decided with before | ⟨other,mem,same⟩
    · exact (decidedOne candidate before).imp id fun same => ⟨candidate,List.mem_cons_self,same⟩
    · exact .inr ⟨other,List.mem_cons_of_mem _ mem,same⟩

theorem mediaUsable {source : SourceKey} {time : Int} {current : Observation} {rest : List Observation}
    (media : MediaAt options source time (current :: rest)) : Usable options current.1 := by
  cases media with
  | here flowing => exact flowing.continues.usable
  | before continues => exact continues.usable

theorem unusableFollowed (unusable : ¬ Usable options scan) (clear : ∀ key, d.states key = none) :
    Followed options d now ((scan,now) :: log) where
  states key state found := by
    rw [clear] at found
    cases found
  present current rest key sample shape usable := by
    cases shape
    exact absurd usable unusable
  epoch current rest shape usable := by
    cases shape
    exact absurd usable unusable
  media source time media := absurd (mediaUsable media) unusable

def judgedDetector (options : IdleStallDetectorOptions) (d : IdleStallDetector) (scan : IdleStallScan) (now : Int) : IdleStallDetector :=
  judgeAll options (mediaDetector options d scan now) scan now (prepareAll options (alignedDetector options d scan now) scan now)

theorem judgedFollowed (followed : Followed options d clock log) (later : clock ≤ now) (usable : Usable options scan) :
    Followed options (judgedDetector options d scan now) now ((scan,now) :: log) where
  states key state found := by
    change (preparedFor (prepareAll options (alignedDetector options d scan now) scan now) key).map _ = some state at found
    rw [preparedForKey,Option.map_map,Option.map_eq_some_iff] at found
    obtain ⟨sample,listed,rfl⟩ := found
    exact ⟨(scan,now),log,sample,rfl,usable,listed,(judgedExplained followed later usable listed).1⟩
  present current rest key sample shape _ listed := by
    cases shape
    change ∃ state, (preparedFor (prepareAll options (alignedDetector options d scan now) scan now) key).map _ = some state
    rw [preparedForKey,show sampleIn scan key = some sample from listed]
    exact ⟨_,rfl⟩
  epoch current rest shape _ := by
    cases shape
    exact alignedEpoch
  media source time media := mediaFollowed followed later media

theorem observeFollows (d : IdleStallDetector) (scan : IdleStallScan) (now : Int) :
    (Usable options scan ∧ observe options d scan now =
      select scan now (decisionLimitOf options (judgedDetector options d scan now))
        (decide (options.maxDecisionsPerRateWindow ≤ (judgedDetector options d scan now).decisionTimes.length))
          (judgedDetector options d scan now) []
        (sortCandidates (judgedDetector options d scan now) (candidatesOf options (mediaDetector options d scan now) scan now
          (prepareAll options (alignedDetector options d scan now) scan now)))) ∨
    (¬ Usable options scan ∧ (∀ key, (observe options d scan now).1.states key = none) ∧ (observe options d scan now).2 = []) := by
  unfold observe Usable
  dsimp only
  cases admitted : admissible options scan with
  | false => exact .inr ⟨(fun held => by cases held.1),fun _ => rfl,rfl⟩
  | true =>
    simp only [Bool.not_true,Bool.false_eq_true,if_false,true_and]
    cases distinct : distinctKeys scan with
    | false => exact .inr ⟨(fun held => by cases held),fun _ => rfl,rfl⟩
    | true => exact .inl ⟨rfl,rfl⟩

theorem observeFollowed (followed : Followed options d clock log) (later : clock ≤ now) :
    Followed options (observe options d scan now).1 now ((scan,now) :: log) := by
  rcases observeFollows d scan now with ⟨usable,chosen⟩ | ⟨unusable,clear,_⟩
  · rw [chosen]
    exact retiredFollowed (judgedFollowed followed later usable) (le_refl _) (selectRetires _ .refl)
  · exact unusableFollowed unusable clear

theorem decisionExplained (followed : Followed options d clock log) (later : clock ≤ now) {decision : IdleStallDeleteDecision}
    (decided : decision ∈ (observe options d scan now).2) (reason : decision.reason = .idleRequestWithoutReply) :
    ∃ sample since, sampleIn scan decision.flow = some sample ∧ Unanswered options decision.flow since ((scan,now) :: log) ∧
      confirmationDelayFor options sample.recoveryPolicy ≤ now - since := by
  rcases observeFollows d scan now with ⟨usable,chosen⟩ | ⟨_,_,none_decided⟩
  · rw [chosen] at decided
    rcases decidedFrom _ decided with impossible | ⟨candidate,mem,flow,same⟩
    · cases impossible
    · have listed : candidate ∈ candidatesOf options (mediaDetector options d scan now) scan now
          (prepareAll options (alignedDetector options d scan now) scan now) := (List.mem_insertionSort _).mp mem
      obtain ⟨current,prepared,proposed⟩ := List.mem_filterMap.mp listed
      split at proposed
      · cases proposed
      · rename_i steady
        obtain ⟨found,wanted,rfl⟩ := Option.map_eq_some_iff.mp proposed
        obtain ⟨sampled,made⟩ := preparedMem usable.2 prepared
        dsimp only at flow same
        rw [← same,reason] at wanted
        rw [Bool.not_eq_true] at steady
        obtain ⟨since,unanswered,due⟩ := (judgedExplained followed later usable sampled).2 (by rw [← made]; exact steady)
          (by rw [← made]; exact wanted)
        rw [flow]
        exact ⟨current.sample,since,sampled,unanswered,due⟩
  · rw [none_decided] at decided
    cases decided

theorem acknowledgeRetires (d : IdleStallDetector) (decision : IdleStallDeleteDecision) (deleteSucceeded : Bool) (now : Int) :
    Retires now d (acknowledgeDeleteResult options d decision deleteSucceeded now).1 := by
  unfold acknowledgeDeleteResult
  split
  · exact .refl
  · split
    · exact .refl
    · dsimp only
      split
      · exact ⟨fun _ => .inl rfl,⟨rfl,rfl⟩,fun _ => .inl rfl⟩
      · refine ⟨fun key => ?_,⟨rfl,rfl⟩,fun _ => .inr rfl⟩
        dsimp only
        split
        · exact .inr rfl
        · exact .inl rfl

theorem nothingFollowed (clear : ∀ key, d.states key = none) : Followed options d clock [] where
  states key state found := by
    rw [clear] at found
    cases found
  present _ _ _ _ shape := by cases shape
  epoch _ _ shape := by cases shape
  media source time media := by cases media

theorem watchFollowed {w : Watch} {a : Act} (allowed : mayWatch w a) (followed : Followed options w.detector w.clock w.log) :
    Followed options (watch options w a).detector (watch options w a).clock (watch options w a).log := by
  cases a with
  | observe scan now => exact observeFollowed followed allowed
  | acknowledge decision deleteSucceeded now =>
    exact retiredFollowed followed allowed (acknowledgeRetires w.detector decision deleteSucceeded now)
  | takeFollowup =>
    unfold watch takeWhatsappFastFollowupDelay
    dsimp only
    split
    · exact followed
    · exact ⟨followed.states,followed.present,followed.epoch,followed.media⟩
  | reset => exact nothingFollowed fun _ => rfl

end Kept

section Reordered
variable {options : IdleStallDetectorOptions} {scan : IdleStallScan} {flows : List IdleStallFlowSample} {now : Int} {d : IdleStallDetector}
  {prepared others : List PreparedSample} {candidates rest : List Candidate}

theorem reorderedAdmissible (perm : flows.Perm scan.flows) : admissible options { scan with flows } = admissible options scan := by
  unfold admissible
  dsimp only
  rw [perm.length_eq]

theorem reorderedDistinct (perm : flows.Perm scan.flows) : distinctKeys { scan with flows } = distinctKeys scan := by
  unfold distinctKeys
  dsimp only
  rw [perm.all_eq,decide_eq_decide.mpr (perm.map _).nodup_iff]

theorem sampleIff (distinct : distinctKeys scan = true) {key : IdleStallFlowKey} {sample : IdleStallFlowSample} :
    sampleIn scan key = some sample ↔ sample ∈ scan.flows.filter (eligibleSample · scan.ownedMarkMask) ∧ sample.key = key := by
  constructor
  · intro found
    exact ⟨List.mem_of_find?_eq_some found,sampleKey found⟩
  · rintro ⟨mem,rfl⟩
    exact sampleOfMem distinct mem

theorem reorderedSample (perm : flows.Perm scan.flows) (distinct : distinctKeys scan = true) (key : IdleStallFlowKey) :
    sampleIn { scan with flows } key = sampleIn scan key := by
  have also : distinctKeys { scan with flows } = true := (reorderedDistinct perm).trans distinct
  refine Option.ext fun sample => ?_
  rw [sampleIff also,sampleIff distinct,(perm.filter _).mem_iff]

variable (options now d) in
theorem reorderedPrepared (perm : flows.Perm scan.flows) (distinct : distinctKeys scan = true) (key : IdleStallFlowKey) :
    preparedFor (prepareAll options d { scan with flows } now) key = preparedFor (prepareAll options d scan now) key := by
  rw [preparedForKey,preparedForKey,reorderedSample perm distinct]

theorem reorderedKept (same : ∀ key, preparedFor others key = preparedFor prepared key) :
    keepObserved d others = keepObserved d prepared := by
  unfold keepObserved
  simp only [same]

theorem reorderedMedia (perm : others.Perm prepared) : protectMedia options d others now = protectMedia options d prepared now := by
  unfold protectMedia
  simp only [perm.any_eq]

theorem reorderedJudged (perm : others.Perm prepared) (same : ∀ key, preparedFor others key = preparedFor prepared key) :
    judgeAll options d { scan with flows } now others = judgeAll options d scan now prepared := by
  unfold judgeAll
  simp only [same,perm.any_eq,perm.mem_iff]
  rfl

theorem reorderedSort (perm : candidates.Perm rest) (distinct : (candidates.map (·.key)).Nodup) :
    sortCandidates d candidates = sortCandidates d rest := by
  have sorted (list : List Candidate) : (sortCandidates d list).Perm list := List.perm_insertionSort _ _
  refine List.Perm.eq_of_pairwise (fun a b left right before after => ?_) (List.pairwise_insertionSort _ candidates)
    (List.pairwise_insertionSort _ rest) ((sorted candidates).trans (perm.trans (sorted rest).symm))
  have rank : candidateRank d a = candidateRank d b := le_antisymm before after
  have keys : a.key.tied = b.key.tied := congrArg (fun rank => (ofLex rank).2) rank
  exact List.inj_on_of_nodup_map distinct ((sorted candidates).mem_iff.mp left) (perm.mem_iff.mpr ((sorted rest).mem_iff.mp right))
    (tiedInjective keys)

theorem candidatesDistinct (distinct : distinctKeys scan = true) (other : IdleStallDetector) :
    ((candidatesOf options other scan now (prepareAll options d scan now)).map (·.key)).Nodup := by
  unfold distinctKeys at distinct
  rw [Bool.and_eq_true,decide_eq_true_eq] at distinct
  have keys : ((prepareAll options d scan now).map (·.sample.key)).Nodup := by
    unfold prepareAll
    rw [List.map_map]
    simp only [Function.comp_def,preparedSample]
    exact distinct.2.sublist (List.filter_sublist.map _)
  refine keys.sublist ?_
  unfold candidatesOf
  generalize prepareAll options d scan now = list
  induction list with
  | nil => exact List.Sublist.refl _
  | cons current more ih =>
    rw [List.filterMap_cons]
    split
    · exact ih.cons _
    · rename_i candidate proposed
      split at proposed
      · cases proposed
      · obtain ⟨reason,_,rfl⟩ := Option.map_eq_some_iff.mp proposed
        exact ih.cons_cons _

theorem reorderedSelect (limit : Nat) (reached : Bool) (decisions : List IdleStallDeleteDecision) :
    select { scan with flows } now limit reached d decisions candidates = select scan now limit reached d decisions candidates := by
  induction candidates generalizing d decisions with
  | nil => rfl
  | cons candidate more ih => exact ih _

theorem reorderedObserve (perm : flows.Perm scan.flows) : observe options d { scan with flows } now = observe options d scan now := by
  unfold observe
  rw [reorderedAdmissible perm,reorderedDistinct perm]
  dsimp only
  split
  · rfl
  · split
    · rfl
    · rename_i listed
      have distinct : distinctKeys scan = true := by simpa using listed
      change observeFlows options (alignEpoch _ scan) { scan with flows } now = _
      generalize alignEpoch _ scan = d
      unfold observeFlows
      have same := reorderedPrepared options now d perm distinct
      have listedSame : (prepareAll options d { scan with flows } now).Perm (prepareAll options d scan now) := (perm.filter _).map _
      dsimp only
      rw [reorderedKept same,reorderedMedia listedSame,reorderedJudged listedSame same,reorderedSelect]
      congr 1
      refine (reorderedSort ?_ (candidatesDistinct distinct _)).symm
      exact (listedSame.filterMap _).symm

end Reordered

section Histories
variable {options : IdleStallDetectorOptions}

/- In every history a decision about an unanswered request has the evidence in the scans, and the
order of the flows in a scan changes neither the decisions nor the detector. -/
theorem stallEvidence {history : List Act} {clock : Int} {w : Watch} (run : Run (watch options) mayWatch { clock } history w) :
    (∀ scan now, w.clock ≤ now → ∀ decision ∈ (observe options w.detector scan now).2, decision.reason = .idleRequestWithoutReply →
      ∃ sample since, sampleIn scan decision.flow = some sample ∧ Unanswered options decision.flow since ((scan,now) :: w.log) ∧
        confirmationDelayFor options sample.recoveryPolicy ≤ now - since) ∧
    (∀ d scan flows now, flows.Perm scan.flows → observe options d { scan with flows } now = observe options d scan now) := by
  have followed : Followed options w.detector w.clock w.log :=
    @Run.keeps _ _ _ _ (fun w => Followed options w.detector w.clock w.log) (fun _ _ => watchFollowed) _ _ _ run
      (nothingFollowed fun _ => rfl)
  exact ⟨fun scan now later decision decided reason => decisionExplained followed later decided reason,
    fun d scan flows now perm => reorderedObserve perm⟩

def phoneHistory : List Act := [.observe (phoneScan 100) 0,.observe (phoneScan 1000) 30]

def phoneLog : List Observation := [(phoneScan 1000,30),(phoneScan 100,0)]

theorem phoneUnanswered : ∃ since, Unanswered {} phone since ((phoneScan 1000,35) :: phoneLog) ∧ 5 ≤ 35 - since := by
  have run : Run (watch {}) mayWatch { clock := 0 } phoneHistory _ :=
    .step (by decide : (0 : Int) ≤ 0) (.step (by decide : (0 : Int) ≤ 30) (.stop _))
  have decided : phoneDecision ∈ (observe {} (phoneHistory.foldl (watch {}) { clock := 0 }).detector (phoneScan 1000) 35).2 := by decide
  obtain ⟨sample,since,found,unanswered,due⟩ :=
    (stallEvidence run).1 (phoneScan 1000) 35 (by decide : (30 : Int) ≤ 35) phoneDecision decided rfl
  refine ⟨since,unanswered,?_⟩
  cases found
  exact due

end Histories

end KeenPbr.IdleStall
