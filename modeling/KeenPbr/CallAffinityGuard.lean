import KeenPbr.CallAffinity

/-! Which peers the call affinity detector vouches for, over every run of its operations. -/
namespace KeenPbr.CallAffinity
open Tables Runs

section Confirmed
variable {inet : Inet} {options : UdpCallAffinityDetectorOptions} {scan : Scan} {now : Int}

theorem foldKeeps {σ α β : Type} (view : σ → β) {step : σ → α → σ} (same : ∀ s a, view (step s a) = view s) (list : List α) (s : σ) :
    view (list.foldl step s) = view s := by
  induction list generalizing s with
  | nil => rfl
  | cons a rest ih => exact (ih (step s a)).trans (same s a)

theorem mediaConfirmed (targets : Table UInt32 UdpCallAffinityTarget) (media : Media) (flow : ConntrackExactForwardedFlow) :
    (mediaFlow inet options scan now targets media flow).detector.confirmedUntil = media.detector.confirmedUntil := by
  unfold mediaFlow
  dsimp only
  split
  · rfl
  · split
    · rfl
    · split
      · rfl
      · split
        · rfl
        · split <;> rfl

theorem promotedConfirmed (context : ActiveContext) (peers : List (PeerKey × List ConntrackExactForwardedFlow)) (sourceCount : Nat)
    (d : UdpCallAffinityDetector) (decisions : List UdpCallAffinityDecision) :
    (promotePeers options now context sourceCount d decisions peers).1.confirmedUntil = d.confirmedUntil := by
  induction peers generalizing sourceCount d decisions with
  | nil => rfl
  | cons entry rest ih =>
    unfold promotePeers
    split
    · exact ih _ _ _
    · split
      · rfl
      · exact ih _ _ _

theorem sourceConfirmed (state : UdpCallAffinityDetector × List UdpCallAffinityDecision)
    (entry : SourceKey × List (PeerKey × List ConntrackExactForwardedFlow)) :
    (promoteSource options now state entry).1.confirmedUntil = state.1.confirmedUntil := by
  unfold promoteSource
  split
  · rfl
  · exact promotedConfirmed _ _ _ _ _

theorem observeConfirmed (d : UdpCallAffinityDetector) :
    (observe inet options scan now d).1.confirmedUntil = (pruneLimits options d now).confirmedUntil := by
  have aligned : (alignEpoch (pruneLimits options d now) scan.epoch).confirmedUntil = (pruneLimits options d now).confirmedUntil := by
    unfold alignEpoch
    split <;> rfl
  unfold observe
  dsimp only
  split
  · rfl
  · split
    · exact aligned
    · refine Eq.trans ?_ aligned
      unfold observeFlows
      dsimp only
      refine (foldKeeps (fun state : UdpCallAffinityDetector × List UdpCallAffinityDecision => state.1.confirmedUntil)
        sourceConfirmed _ _).trans ?_
      exact foldKeeps (fun media : Media => media.detector.confirmedUntil) (mediaConfirmed _) scan.sourceWideUdpFlows _

end Confirmed

inductive Act where
  | observe (scan : Scan) (now : Int)
  | confirmInstalled (decision : UdpCallAffinityDecision) (now : Int)
  | releaseFailed (decision : UdpCallAffinityDecision)
  | needsFastFollowup (now : Int)
  | retainedGuardSources (now : Int)
  | retainedGuardPeers (now : Int)
  | reset

/- The detector with the time of its last call. -/
structure World where
  detector : UdpCallAffinityDetector := {}
  clock : Int

section Calls
variable (inet : Inet) (options : UdpCallAffinityDetectorOptions)

def act (w : World) : Act → World
  | .observe scan now => ⟨(observe inet options scan now w.detector).1,now⟩
  | .confirmInstalled decision now => ⟨(confirmInstalled options now w.detector decision).1,now⟩
  | .releaseFailed decision => { w with detector := releaseFailed w.detector decision }
  | .needsFastFollowup now => ⟨(needsFastFollowup options now w.detector).1,now⟩
  | .retainedGuardSources now => ⟨(retainedGuardSources options now w.detector).1,now⟩
  | .retainedGuardPeers now => ⟨(retainedGuardPeers options now w.detector).1,now⟩
  | .reset => { w with detector := reset w.detector }

def Act.time : Act → Option Int
  | .observe _ now => some now
  | .confirmInstalled _ now => some now
  | .needsFastFollowup now => some now
  | .retainedGuardSources now => some now
  | .retainedGuardPeers now => some now
  | .releaseFailed _ => none
  | .reset => none

def may (w : World) (a : Act) : Prop := a.time.all (w.clock ≤ ·) = true

def after (history : List Act) (start : World) : UdpCallAffinityDetector := (history.foldl (act inet options) start).detector

def FailsInitial (d : UdpCallAffinityDetector) (failed : UdpCallAffinityDecision) (peer : PeerKey) : Prop :=
  decisionPeer failed = peer ∧ failed.refreshOnly = false ∧ outstanding d failed = true

/- Since the last reset the token outstanding for the peer was confirmed, and no first publication of the peer failed later. -/
def Confirmed (start : World) (history : List Act) (peer : PeerKey) (time : Int) : Prop :=
  ∃ before decision later, history = before ++ Act.confirmInstalled decision time :: later ∧ decisionPeer decision = peer ∧
    find (after inet options before start).pendingConfirmationTokens peer = some decision.confirmationToken ∧
    (confirmInstalled options time (after inet options before start) decision).2 = true ∧ .reset ∉ later ∧
    ∀ middle failed rest, later = middle ++ Act.releaseFailed failed :: rest →
      ¬ FailsInitial (after inet options (before ++ Act.confirmInstalled decision time :: middle) start) failed peer

structure Vouched (start : World) (history : List Act) (w : World) : Prop where
  reached : w = history.foldl (act inet options) start
  entries : ∀ entry ∈ w.detector.confirmedUntil, ∃ time, time ≤ w.clock ∧ entry.2.expiresAt = time + options.promotedPairHold ∧
    Confirmed inet options start history entry.1 time

end Calls

section Steps
variable {inet : Inet} {options : UdpCallAffinityDetectorOptions} {start w : World} {history : List Act} {a : Act}
    {peer : PeerKey} {time : Int}

theorem confirmedLater (confirmed : Confirmed inet options start history peer time) (quiet : a ≠ .reset)
    (kept : ∀ failed, a = .releaseFailed failed → ¬ FailsInitial (after inet options history start) failed peer) :
    Confirmed inet options start (history ++ [a]) peer time := by
  obtain ⟨before,decision,later,rfl,own,token,accepted,noReset,noFailure⟩ := confirmed
  refine ⟨before,decision,later ++ [a],by rw [List.append_assoc,List.cons_append],own,token,accepted,?_,?_⟩
  · rw [List.mem_append,List.mem_singleton]
    exact fun mem => mem.elim noReset fun same => quiet same.symm
  · intro middle failed rest shape
    rcases List.eq_nil_or_concat rest with rfl | ⟨front,last,rfl⟩
    · obtain ⟨rfl,tail⟩ := List.append_inj' shape rfl
      exact kept failed (List.singleton_inj.mp tail)
    · rw [List.concat_eq_append,← List.cons_append,← List.append_assoc] at shape
      exact noFailure middle failed front (List.append_inj' shape rfl).1

theorem prunedEntry {d : UdpCallAffinityDetector} {now : Int} {entry : PeerKey × PromotedPeer}
    (mem : entry ∈ (pruneLimits options d now).confirmedUntil) :
    entry ∈ d.confirmedUntil := List.mem_of_mem_filter mem

theorem vouchedLater (vouched : Vouched inet options start history w) (quiet : a ≠ .reset) (later : w.clock ≤ (act inet options w a).clock)
    (fewer : ∀ entry ∈ (act inet options w a).detector.confirmedUntil, entry ∈ w.detector.confirmedUntil ∧
      ∀ failed, a = .releaseFailed failed → ¬ FailsInitial w.detector failed entry.1) :
    Vouched inet options start (history ++ [a]) (act inet options w a) where
  reached := by
    rw [List.foldl_append,← vouched.reached]
    rfl
  entries entry mem := by
    obtain ⟨old,kept⟩ := fewer entry mem
    obtain ⟨time,past,hold,confirmed⟩ := vouched.entries entry old
    refine ⟨time,Int.le_trans past later,hold,confirmedLater confirmed quiet fun failed same => ?_⟩
    rw [after,← vouched.reached]
    exact kept failed same

theorem outstandingIff {d : UdpCallAffinityDetector} {decision : UdpCallAffinityDecision} : outstanding d decision = true ↔
    decision.confirmationToken ≠ 0 ∧ find d.pendingConfirmationTokens (decisionPeer decision) = some decision.confirmationToken := by
  rw [outstanding,Bool.and_eq_true,bne_iff_ne,beq_iff_eq]

theorem releasedEntry {d : UdpCallAffinityDetector} {failed : UdpCallAffinityDecision} {entry : PeerKey × PromotedPeer}
    (mem : entry ∈ (releaseFailed d failed).confirmedUntil) : entry ∈ d.confirmedUntil ∧ ¬ FailsInitial d failed entry.1 := by
  unfold releaseFailed at mem
  dsimp only at mem
  split at mem
  · rename_i stale
    refine ⟨mem,fun fails => ?_⟩
    rw [fails.2.2] at stale
    cases stale
  · split at mem
    · rename_i refresh
      refine ⟨mem,fun fails => ?_⟩
      rw [fails.2.1] at refresh
      cases refresh
    · obtain ⟨old,other⟩ := memDrop.mp mem
      exact ⟨old,fun fails => other fails.1.symm⟩

theorem confirmedVouched (vouched : Vouched inet options start history w) {decision : UdpCallAffinityDecision} {now : Int}
    (later : w.clock ≤ now) :
    Vouched inet options start (history ++ [.confirmInstalled decision now]) (act inet options w (.confirmInstalled decision now)) := by
  cases current : outstanding w.detector decision with
  | false =>
    have ignored : confirmInstalled options now w.detector decision = (w.detector,false) := by
      unfold confirmInstalled
      rw [current]
      rfl
    refine vouchedLater vouched (by exact fun same => by cases same) later fun entry mem => ⟨?_,fun _ same => by cases same⟩
    unfold act at mem
    dsimp only at mem
    rwa [ignored] at mem
  | true =>
    have accepted : (confirmInstalled options now w.detector decision).2 = true := by
      unfold confirmInstalled
      rw [current]
      rfl
    have taken : (confirmInstalled options now w.detector decision).1.confirmedUntil =
        put w.detector.confirmedUntil (decisionPeer decision) ⟨⟨decision.listName,decision.fwmark⟩,now + options.promotedPairHold⟩ := by
      unfold confirmInstalled
      rw [current]
      rfl
    refine ⟨by rw [List.foldl_append,← vouched.reached]; rfl,fun entry mem => ?_⟩
    unfold act at mem
    dsimp only at mem
    rw [taken] at mem
    rcases memPut mem with rfl | old
    · refine ⟨now,le_refl _,rfl,history,decision,[],rfl,rfl,?_,?_,nofun,fun middle failed rest shape => ?_⟩
      · rw [after,← vouched.reached]
        exact (outstandingIff.mp current).2
      · rw [after,← vouched.reached]
        exact accepted
      · cases middle <;> cases shape
    · obtain ⟨time,past,hold,confirmed⟩ := vouched.entries entry old
      exact ⟨time,Int.le_trans past later,hold,confirmedLater confirmed (fun same => by cases same) fun _ same => by cases same⟩

theorem vouchedStep (allowed : may w a) (vouched : Vouched inet options start history w) :
    Vouched inet options start (history ++ [a]) (act inet options w a) := by
  have later {now : Int} (given : a.time = some now) : w.clock ≤ now := by
    unfold may at allowed
    rw [given] at allowed
    simpa using allowed
  cases a with
  | observe scan now =>
    refine vouchedLater vouched (fun same => by cases same) (later rfl) fun entry mem => ⟨?_,fun _ same => by cases same⟩
    unfold act at mem
    dsimp only at mem
    rw [observeConfirmed] at mem
    exact prunedEntry mem
  | confirmInstalled decision now => exact confirmedVouched vouched (later rfl)
  | releaseFailed decision =>
    refine vouchedLater vouched (fun same => by cases same) (le_refl _) fun entry mem => ?_
    obtain ⟨old,kept⟩ := releasedEntry mem
    refine ⟨old,fun failed same => ?_⟩
    cases same
    exact kept
  | needsFastFollowup now => exact vouchedLater vouched (fun same => by cases same) (later rfl) fun entry mem => ⟨prunedEntry mem,
    fun _ same => by cases same⟩
  | retainedGuardSources now =>
    exact vouchedLater vouched (fun same => by cases same) (later rfl) fun entry mem => ⟨prunedEntry mem,fun _ same => by cases same⟩
  | retainedGuardPeers now => exact vouchedLater vouched (fun same => by cases same) (later rfl) fun entry mem => ⟨prunedEntry mem,
    fun _ same => by cases same⟩
  | reset =>
    refine ⟨by rw [List.foldl_append,← vouched.reached]; rfl,fun entry mem => ?_⟩
    cases mem

def guardKey (guard : UdpCallAffinityGuardPeer) : PeerKey := ⟨guard.family,guard.source,guard.destinationPort,guard.destination⟩

theorem retainedEntry {d : UdpCallAffinityDetector} {now : Int} {guard : UdpCallAffinityGuardPeer}
    (mem : guard ∈ (retainedGuardPeers options now d).2) :
    ∃ entry ∈ d.confirmedUntil, entry.1 = guardKey guard ∧ now < entry.2.expiresAt := by
  unfold retainedGuardPeers at mem
  obtain ⟨⟨peer,promoted⟩,listed,rfl⟩ := List.mem_map.mp mem
  have live := List.mem_filter.mp ((List.mem_insertionSort _).mp listed)
  exact ⟨(peer,promoted),prunedEntry live.1,rfl,by simpa using live.2⟩

/- In every run: a retained peer was confirmed with its outstanding token since the last reset, within the hold, and no first
publication of it failed later; a completion with another token changes nothing; and a failed first publication ends the authority. -/
theorem guardAuthority {clock : Int} (run : Run (act inet options) may { clock } history w) :
    (∀ now, w.clock ≤ now → ∀ guard ∈ (retainedGuardPeers options now w.detector).2,
      ∃ time, time ≤ now ∧ now < time + options.promotedPairHold ∧ Confirmed inet options { clock } history (guardKey guard) time) ∧
    (∀ d decision now, find d.pendingConfirmationTokens (decisionPeer decision) ≠ some decision.confirmationToken →
      confirmInstalled options now d decision = (d,false) ∧ releaseFailed d decision = d) ∧
    ∀ d failed now, failed.refreshOnly = false → outstanding d failed = true →
      ∀ guard ∈ (retainedGuardPeers options now (releaseFailed d failed)).2, guardKey guard ≠ decisionPeer failed := by
  have start : Vouched inet options { clock } [] { clock } := ⟨rfl,fun entry mem => by cases mem⟩
  have vouched := run.traced (fun _ _ _ allowed inv => vouchedStep allowed inv) start
  refine ⟨fun now later guard mem => ?_,fun d decision now other => ?_,fun d failed now initial current guard mem same => ?_⟩
  · obtain ⟨entry,listed,own,live⟩ := retainedEntry mem
    obtain ⟨time,past,hold,confirmed⟩ := vouched.entries entry listed
    rw [own] at confirmed
    exact ⟨time,Int.le_trans past later,hold ▸ live,confirmed⟩
  · have stale : outstanding d decision = false := Bool.eq_false_iff.mpr fun current => other (outstandingIff.mp current).2
    constructor
    · unfold confirmInstalled
      rw [stale]
      rfl
    · unfold releaseFailed
      rw [stale]
      rfl
  · obtain ⟨entry,listed,own,_⟩ := retainedEntry mem
    exact (releasedEntry listed).2 ⟨(own.trans same).symm,initial,current⟩

end Steps

section Samples

def callInet : Inet where
  pton family address := if family == afInet && address == "8.8.8.8" then some [8,8,8,8] else none
  ntop _ _ := none

def callScan (rounds : UInt64) : Scan :=
  { epoch := ⟨1,1⟩, ownedMask := 0xff0000, targets := [⟨"whatsapp",0x10000⟩]
    destinationFlows :=
      [{ protocol := .udp, source := "192.168.1.10", destination := "203.0.113.7", sourcePort := 5000, destinationPort := 443, mark := 0x10000,
         original := ⟨10 * rounds,4000 * rounds⟩, reply := ⟨10 * rounds,4000 * rounds⟩, assured := true, seenReply := true }]
    sourceWideUdpFlows :=
      [{ protocol := .udp, source := "192.168.1.10", destination := "8.8.8.8", sourcePort := 6000, destinationPort := 3478,
         original := ⟨rounds,100 * rounds⟩ }] }

def callDecision : UdpCallAffinityDecision :=
  { source := "192.168.1.10", destination := "8.8.8.8", destinationPort := 3478, listName := "whatsapp", fwmark := 0x10000,
    baselineFlows := (callScan 4).sourceWideUdpFlows, confirmationToken := 1 }

def callHistory : List Act :=
  [.observe (callScan 1) 0,.observe (callScan 2) 5,.observe (callScan 3) 10,.observe (callScan 4) 15,.confirmInstalled callDecision 16]

def callGuard : UdpCallAffinityGuardPeer :=
  { source := "192.168.1.10", destination := "8.8.8.8", destinationPort := 3478, fwmark := 0x10000 }

theorem callConfirmed : ∃ time, time ≤ 17 ∧ 17 < time + 90 ∧
    Confirmed callInet {} { clock := 0 } callHistory (guardKey callGuard) time := by
  have run : Run (act callInet {}) may { clock := 0 } callHistory (callHistory.foldl (act callInet {}) { clock := 0 }) :=
    .step rfl (.step rfl (.step rfl (.step rfl (.step rfl (.stop _)))))
  have retained : callGuard ∈ (retainedGuardPeers {} 17 (callHistory.foldl (act callInet {}) { clock := 0 }).detector).2 := by decide
  exact (guardAuthority run).1 17 (by decide : (16 : Int) ≤ 17) callGuard retained

end Samples

end KeenPbr.CallAffinity
