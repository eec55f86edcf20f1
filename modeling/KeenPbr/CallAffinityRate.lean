import KeenPbr.CallAffinityGuard
import KeenPbr.RateWindow

/-! How many first publications the call affinity detector asks for: in one scan, for one source of a
scan, and in any stretch as long as its rate window. -/
namespace KeenPbr.CallAffinity
open Tables Runs RateWindow

/- The options the constructor does not throw at. -/
def acceptsOptions (options : UdpCallAffinityDetectorOptions) : Bool :=
  !(options.activeSeedHold ≤ 0 || options.promotedPairHold ≤ 0 || options.activePairRefreshInterval ≤ 0 ||
    options.candidateStreakHold ≤ 0 ||
    options.globalRateWindow ≤ 0 || options.minimumSeedPacketsPerDirection == 0 || options.minimumSeedBytesPerDirection == 0 ||
    options.minimumCandidatePacketsPerScan == 0 || options.minimumCandidateBytesPerScan == 0 || options.maxTrackedFlows == 0 ||
    options.maxPairsPerSourcePerScan == 0 || options.maxPairsPerScan == 0 || options.maxPairsPerRateWindow == 0 ||
      options.maxStaleFlowsPerPair == 0)

section Ledger
variable (inet : Inet) (options : UdpCallAffinityDetectorOptions)

def issuedAt (decisions : List UdpCallAffinityDecision) (now : Int) : List (PeerKey × Int) :=
  ((decisions.filter fun decision => !decision.refreshOnly).map fun decision => (decisionPeer decision,now)).reverse

/- The detector with the first publications it asked for since the last reset that were not released as failed. -/
structure Counted where
  world : World
  promotions : List (PeerKey × Int) := []

def counted (c : Counted) (a : Act) : Counted where
  world := act inet options c.world a
  promotions :=
    match a with
    | .observe scan now => issuedAt (observe inet options scan now c.world.detector).2 now ++ c.promotions
    | .releaseFailed decision =>
      if outstanding c.world.detector decision && !decision.refreshOnly then takeBack c.promotions (decisionPeer decision) else c.promotions
    | .reset => []
    | _ => c.promotions

end Ledger

section Promotions
variable {options : UdpCallAffinityDetectorOptions} {now : Int}

structure Promotes (options : UdpCallAffinityDetectorOptions) (now : Int) (peer : PeerKey)
    (s t : UdpCallAffinityDetector × List UdpCallAffinityDecision) : Prop where
  room : s.1.promotionTimes.length < options.maxPairsPerRateWindow
  scanRoom : s.2.length < options.maxPairsPerScan
  times : t.1.promotionTimes = put s.1.promotionTimes peer now
  holds : ∃ target, t.1.promotedUntil = put s.1.promotedUntil peer ⟨target,now + options.promotedPairHold⟩
  decides : ∃ decision, t.2 = s.2 ++ [decision] ∧ decisionPeer decision = peer ∧ decision.refreshOnly = false

inductive PromotesAll (options : UdpCallAffinityDetectorOptions) (now : Int) : List PeerKey →
    UdpCallAffinityDetector × List UdpCallAffinityDecision → UdpCallAffinityDetector × List UdpCallAffinityDecision → Prop where
  | stop (s) : PromotesAll options now [] s s
  | step {peer : PeerKey} {rest : List PeerKey} {s m t} (first : Promotes options now peer s m) (later : PromotesAll options now rest m t) :
      PromotesAll options now (peer :: rest) s t

theorem PromotesAll.append {front back : List PeerKey} {s m t : UdpCallAffinityDetector × List UdpCallAffinityDecision}
    (first : PromotesAll options now front s m) (later : PromotesAll options now back m t) :
    PromotesAll options now (front ++ back) s t := by
  induction first with
  | stop => exact later
  | step one _ ih => exact .step one (ih later)

theorem promotesPeers (context : ActiveContext) (peers : List (PeerKey × List ConntrackExactForwardedFlow)) (sourceCount : Nat)
    (d : UdpCallAffinityDetector) (decisions : List UdpCallAffinityDecision) : ∃ taken, taken.Sublist (peers.map (·.1)) ∧
      taken.length ≤ options.maxPairsPerSourcePerScan - sourceCount ∧
      PromotesAll options now taken (d,decisions) (promotePeers options now context sourceCount d decisions peers) := by
  induction peers generalizing sourceCount d decisions with
  | nil => exact ⟨[],List.nil_sublist _,Nat.zero_le _,.stop _⟩
  | cons entry rest ih =>
    obtain ⟨peer,flows⟩ := entry
    unfold promotePeers
    split
    · obtain ⟨taken,fewer,small,all⟩ := ih sourceCount d decisions
      exact ⟨taken,fewer.trans (List.sublist_cons_self _ _),small,all⟩
    · split
      · exact ⟨[],List.nil_sublist _,Nat.zero_le _,.stop _⟩
      · rename_i below
        simp only [ge_iff_le,Bool.or_eq_true,decide_eq_true_eq,not_or,not_le] at below
        obtain ⟨⟨sourceRoom,scanRoom⟩,room⟩ := below
        obtain ⟨taken,fewer,small,all⟩ := ih (sourceCount + 1) _ _
        refine ⟨peer :: taken,fewer.cons_cons _,?_,.step ⟨room,scanRoom,rfl,⟨_,rfl⟩,⟨_,rfl,rfl,rfl⟩⟩ all⟩
        rw [List.length_cons]
        omega

/- The candidates of a scan, each source once and each peer of it once. -/
structure Keyed (ordered : List (SourceKey × List (PeerKey × List ConntrackExactForwardedFlow))) : Prop where
  sources : (ordered.map (·.1)).Nodup
  peers : ∀ entry ∈ ordered, (entry.2.map (·.1)).Nodup
  own : ∀ entry ∈ ordered, ∀ peer ∈ entry.2.map (·.1), peer.sourceKey = entry.1

def allPeers (ordered : List (SourceKey × List (PeerKey × List ConntrackExactForwardedFlow))) :
    List PeerKey := ordered.flatMap fun entry => entry.2.map (·.1)

theorem Keyed.tail {entry : SourceKey × List (PeerKey × List ConntrackExactForwardedFlow)}
    {rest : List (SourceKey × List (PeerKey × List ConntrackExactForwardedFlow))} (keyed : Keyed (entry :: rest)) : Keyed rest where
  sources := (List.nodup_cons.mp keyed.sources).2
  peers other mem := keyed.peers other (List.mem_cons_of_mem _ mem)
  own other mem := keyed.own other (List.mem_cons_of_mem _ mem)

theorem Keyed.elsewhere {entry : SourceKey × List (PeerKey × List ConntrackExactForwardedFlow)}
    {rest : List (SourceKey × List (PeerKey × List ConntrackExactForwardedFlow))} (keyed : Keyed (entry :: rest)) {peer : PeerKey}
    (mem : peer ∈ allPeers rest) : peer.sourceKey ≠ entry.1 := by
  obtain ⟨other,listed,inside⟩ := List.mem_flatMap.mp mem
  intro same
  rw [keyed.own other (List.mem_cons_of_mem _ listed) peer inside] at same
  exact (List.nodup_cons.mp keyed.sources).1 (List.mem_map.mpr ⟨other,listed,same⟩)

theorem Keyed.distinct {ordered : List (SourceKey × List (PeerKey × List ConntrackExactForwardedFlow))} (keyed : Keyed ordered) :
    (allPeers ordered).Nodup := by
  induction ordered with
  | nil => exact .nil
  | cons entry rest ih =>
    rw [allPeers,List.flatMap_cons]
    refine List.nodup_append.mpr ⟨keyed.peers entry List.mem_cons_self,ih keyed.tail,?_⟩
    rintro peer first other second rfl
    exact keyed.elsewhere second (keyed.own entry List.mem_cons_self peer first)

theorem promotesSources {ordered : List (SourceKey × List (PeerKey × List ConntrackExactForwardedFlow))} (keyed : Keyed ordered)
    (s : UdpCallAffinityDetector × List UdpCallAffinityDecision) : ∃ taken, taken.Sublist (allPeers ordered) ∧
      (∀ source, (taken.filter fun peer => peer.sourceKey = source).length ≤ options.maxPairsPerSourcePerScan) ∧
      PromotesAll options now taken s (ordered.foldl (promoteSource options now) s) := by
  induction ordered generalizing s with
  | nil => exact ⟨[],List.nil_sublist _,fun _ => Nat.zero_le _,.stop _⟩
  | cons entry rest ih =>
    rw [List.foldl_cons]
    obtain ⟨first,firstFewer,small,firstAll⟩ :
      ∃ first, first.Sublist (entry.2.map (·.1)) ∧ first.length ≤ options.maxPairsPerSourcePerScan ∧
        PromotesAll options now first s (promoteSource options now s entry) := by
      unfold promoteSource
      split
      · exact ⟨[],List.nil_sublist _,Nat.zero_le _,.stop _⟩
      · exact promotesPeers _ entry.2 0 s.1 s.2
    obtain ⟨later,fewer,capped,all⟩ := ih keyed.tail (promoteSource options now s entry)
    refine ⟨first ++ later,firstFewer.append fewer,fun source => ?_,firstAll.append all⟩
    rw [List.filter_append,List.length_append]
    by_cases same : entry.1 = source
    · have none_ : (later.filter fun peer => peer.sourceKey = source) = [] := by
        refine List.filter_eq_nil_iff.mpr fun peer mem own => keyed.elsewhere (fewer.subset mem) ?_
        rw [of_decide_eq_true own,same]
      rw [none_,List.length_nil,Nat.add_zero]
      exact Nat.le_trans (List.length_filter_le _ _) small
    · have none_ : (first.filter fun peer => peer.sourceKey = source) = [] := by
        refine List.filter_eq_nil_iff.mpr fun peer mem own => same ?_
        rw [← keyed.own entry List.mem_cons_self peer (firstFewer.subset mem)]
        exact of_decide_eq_true own
      rw [none_,List.length_nil,Nat.zero_add]
      exact capped source

theorem promotesDecisions {taken : List PeerKey} {s t : UdpCallAffinityDetector × List UdpCallAffinityDecision}
    (all : PromotesAll options now taken s t) :
    (s.2.length ≤ options.maxPairsPerScan → t.2.length ≤ options.maxPairsPerScan) ∧
      ∃ new, t.2 = s.2 ++ new ∧ new.map decisionPeer = taken ∧ ∀ decision ∈ new, decision.refreshOnly = false := by
  induction all with
  | stop s => exact ⟨id,[],(List.append_nil _).symm,rfl,nofun⟩
  | step first _ ih =>
    obtain ⟨fits,new,shape,peers,initial⟩ := ih
    obtain ⟨decision,one,own,started⟩ := first.decides
    have scanRoom := first.scanRoom
    refine ⟨fun _ => fits ?_,decision :: new,?_,?_,?_⟩
    · rw [one,List.length_append,List.length_singleton]
      omega
    · rw [shape,one,List.append_assoc,List.singleton_append]
    · rw [List.map_cons,own,peers]
    · intro other mem
      rcases List.mem_cons.mp mem with rfl | later
      · exact started
      · exact initial other later

end Promotions

section Candidates
variable {inet : Inet} {options : UdpCallAffinityDetectorOptions} {scan : Scan} {now : Int} {d : UdpCallAffinityDetector}

def Free (d : UdpCallAffinityDetector) (now : Int) (peer : PeerKey) : Prop :=
  ∀ promoted, find d.promotedUntil peer = some promoted → promoted.expiresAt ≤ now

theorem putKeys {κ ν : Type} [DecidableEq κ] {table : Table κ ν} (distinct : (table.map (·.1)).Nodup) (key : κ) (value : ν) :
    ((put table key value).map (·.1)).Nodup := by
  refine List.nodup_cons.mpr ⟨fun mem => ?_,distinct.sublist (List.filter_sublist.map _)⟩
  obtain ⟨entry,listed,same⟩ := List.mem_map.mp mem
  exact (memDrop.mp listed).2 same

theorem addKeyed {candidates : Table SourceKey (Table PeerKey (List ConntrackExactForwardedFlow))} {flow : ConntrackExactForwardedFlow}
    (keyed : Keyed candidates) (free : ∀ peer ∈ allPeers candidates, Free d now peer) (new : Free d now (peerOf flow)) :
    Keyed (addCandidate candidates flow) ∧ ∀ peer ∈ allPeers (addCandidate candidates flow), Free d now peer := by
  have pairs : (((find candidates (sourceOf flow)).getD []).map (·.1)).Nodup ∧
      ∀ peer ∈ ((find candidates (sourceOf flow)).getD []).map (·.1), peer.sourceKey = sourceOf flow ∧ Free d now peer := by
    cases found : find candidates (sourceOf flow) with
    | none => exact ⟨.nil,nofun⟩
    | some pairs =>
      have mem := findMem found
      exact ⟨keyed.peers _ mem,fun peer inside => ⟨keyed.own _ mem peer inside,free peer (List.mem_flatMap.mpr ⟨_,mem,inside⟩)⟩⟩
  have added : ∀ peer ∈ (put ((find candidates (sourceOf flow)).getD []) (peerOf flow)
      ((find ((find candidates (sourceOf flow)).getD []) (peerOf flow)).getD [] ++
        [flow])).map (·.1), peer.sourceKey = sourceOf flow ∧ Free d now peer := by
    intro peer mem
    obtain ⟨entry,listed,rfl⟩ := List.mem_map.mp mem
    rcases memPut listed with rfl | old
    · exact ⟨rfl,new⟩
    · exact pairs.2 _ (List.mem_map.mpr ⟨entry,old,rfl⟩)
  refine ⟨⟨putKeys keyed.sources _ _,?_,?_⟩,?_⟩
  · intro entry mem
    rcases memPut mem with rfl | old
    · exact putKeys pairs.1 _ _
    · exact keyed.peers entry old
  · intro entry mem
    rcases memPut mem with rfl | old
    · exact fun peer inside => (added peer inside).1
    · exact keyed.own entry old
  · intro peer mem
    obtain ⟨entry,listed,inside⟩ := List.mem_flatMap.mp mem
    rcases memPut listed with rfl | old
    · exact (added peer inside).2
    · exact free peer (List.mem_flatMap.mpr ⟨entry,old,inside⟩)

theorem candidateKeyed {found : Candidates} {flow : ConntrackExactForwardedFlow} (keyed : Keyed found.candidates)
    (free : ∀ peer ∈ allPeers found.candidates, Free d now peer) :
    Keyed (candidateFlow inet options scan now d found flow).candidates ∧
      ∀ peer ∈ allPeers (candidateFlow inet options scan now d found flow).candidates, Free d now peer := by
  unfold candidateFlow
  dsimp only
  split
  · exact ⟨keyed,free⟩
  · split
    · exact ⟨keyed,free⟩
    · split
      · exact ⟨keyed,free⟩
      · rename_i unpromoted
        split
        · exact ⟨keyed,free⟩
        · refine addKeyed keyed free fun promoted there => ?_
          rw [there,Option.any_some,decide_eq_true_eq] at unpromoted
          exact Int.not_lt.mp unpromoted

theorem candidatesKeyed (flows : List ConntrackExactForwardedFlow) :
    Keyed (flows.foldl (candidateFlow inet options scan now d) {}).candidates ∧
      ∀ peer ∈ allPeers (flows.foldl (candidateFlow inet options scan now d) {}).candidates, Free d now peer := by
  refine List.foldlRecOn (motive := fun found : Candidates => Keyed found.candidates ∧
    ∀ peer ∈ allPeers found.candidates, Free d now peer) flows _ ?_ ?_
  · exact ⟨⟨.nil,nofun,nofun⟩,nofun⟩
  · exact fun found kept flow _ => candidateKeyed kept.1 kept.2

theorem orderedKeyed {candidates : Table SourceKey (Table PeerKey (List ConntrackExactForwardedFlow))} (keyed : Keyed candidates) :
    Keyed (orderedCandidates candidates) ∧ ∀ peer ∈ allPeers (orderedCandidates candidates), peer ∈ allPeers candidates := by
  have sorted (pairs : Table PeerKey (List ConntrackExactForwardedFlow)) :
      ((pairs.insertionSort fun left right => left.1.tied ≤ right.1.tied).map (·.1)).Perm (pairs.map (·.1)) :=
        (List.perm_insertionSort _ _).map _
  have source {entry : SourceKey × List (PeerKey × List ConntrackExactForwardedFlow)} (mem : entry ∈ orderedCandidates candidates) :
      ∃ pairs, (entry.1,pairs) ∈ candidates ∧ entry.2 = pairs.insertionSort fun left right => left.1.tied ≤ right.1.tied := by
    obtain ⟨⟨name,pairs⟩,listed,rfl⟩ := List.mem_map.mp mem
    exact ⟨pairs,(List.mem_insertionSort _).mp listed,rfl⟩
  refine ⟨⟨?_,?_,?_⟩,?_⟩
  · rw [orderedCandidates,List.map_map]
    exact (((List.perm_insertionSort _ candidates).map _).nodup_iff).mpr keyed.sources
  · intro entry mem
    obtain ⟨pairs,listed,same⟩ := source mem
    rw [same]
    exact ((sorted pairs).nodup_iff).mpr (keyed.peers _ listed)
  · intro entry mem peer inside
    obtain ⟨pairs,listed,same⟩ := source mem
    rw [same] at inside
    exact keyed.own _ listed peer ((sorted pairs).mem_iff.mp inside)
  · intro peer mem
    obtain ⟨entry,ordered,inside⟩ := List.mem_flatMap.mp mem
    obtain ⟨pairs,listed,same⟩ := source ordered
    rw [same] at inside
    exact List.mem_flatMap.mpr ⟨_,listed,(sorted pairs).mem_iff.mp inside⟩

end Candidates

section Refreshes
variable {inet : Inet} {options : UdpCallAffinityDetectorOptions} {scan : Scan} {now : Int}

structure Refreshed (options : UdpCallAffinityDetectorOptions) (d : UdpCallAffinityDetector) (media : Media) : Prop where
  times : media.detector.promotionTimes = d.promotionTimes
  promoted : media.detector.promotedUntil = d.promotedUntil
  fits : media.decisions.length ≤ options.maxPairsPerScan
  refreshes : ∀ decision ∈ media.decisions, decision.refreshOnly = true

theorem mediaRefreshed {d : UdpCallAffinityDetector} {targets : Table UInt32 UdpCallAffinityTarget} {media : Media}
    {flow : ConntrackExactForwardedFlow} (kept : Refreshed options d media) :
    Refreshed options d (mediaFlow inet options scan now targets media flow) := by
  unfold mediaFlow
  dsimp only
  split
  · exact kept
  · split
    · exact kept
    · split
      · exact kept
      · split
        · exact ⟨kept.times,kept.promoted,kept.fits,kept.refreshes⟩
        · split
          · exact ⟨kept.times,kept.promoted,kept.fits,kept.refreshes⟩
          · rename_i below
            simp only [ge_iff_le,Bool.or_eq_true,decide_eq_true_eq,not_or,not_le] at below
            refine ⟨kept.times,kept.promoted,?_,?_⟩
            · rw [List.length_append,List.length_singleton]
              exact below.1
            · intro decision mem
              rcases List.mem_append.mp mem with old | new
              · exact kept.refreshes decision old
              · rw [List.mem_singleton.mp new]

structure ScanPromotes (options : UdpCallAffinityDetectorOptions) (now : Int) (pruned : UdpCallAffinityDetector)
    (result : UdpCallAffinityDetector × List UdpCallAffinityDecision) (taken : List PeerKey) : Prop where
  distinct : taken.Nodup
  free : ∀ peer ∈ taken, Free pruned now peer
  capped : ∀ source, (taken.filter fun peer => peer.sourceKey = source).length ≤ options.maxPairsPerSourcePerScan
  chain : ∃ media last, Refreshed options pruned media ∧ PromotesAll options now taken (media.detector,media.decisions) last ∧
    result.2 = last.2 ∧ result.1.promotionTimes = last.1.promotionTimes ∧ result.1.promotedUntil = last.1.promotedUntil

theorem quietPromotes {pruned d : UdpCallAffinityDetector} (times : d.promotionTimes = pruned.promotionTimes)
    (promoted : d.promotedUntil = pruned.promotedUntil) :
    ScanPromotes options now pruned (d,[]) [] :=
  ⟨.nil,nofun,fun _ => Nat.zero_le _,{ detector := pruned },_,⟨rfl,rfl,Nat.zero_le _,nofun⟩,.stop _,rfl,times,promoted⟩

theorem sourcesPromote {pruned d : UdpCallAffinityDetector} {decisions : List UdpCallAffinityDecision}
    {ordered : List (SourceKey × List (PeerKey × List ConntrackExactForwardedFlow))}
    (refreshed : Refreshed options pruned { detector := d, decisions })
    (keyed : Keyed ordered) (free : ∀ peer ∈ allPeers ordered, Free pruned now peer) :
    ∃ taken, ScanPromotes options now pruned (ordered.foldl (promoteSource options now) (d,decisions)) taken := by
  obtain ⟨taken,fewer,capped,all⟩ := @promotesSources options now _ keyed (d,decisions)
  exact ⟨taken,keyed.distinct.sublist fewer,fun peer mem => free peer (fewer.subset mem),capped,_,_,refreshed,all,rfl,rfl,rfl⟩

theorem flowsPromote {pruned d : UdpCallAffinityDetector} {targets : Table UInt32 UdpCallAffinityTarget}
    (times : d.promotionTimes = pruned.promotionTimes)
    (promoted : d.promotedUntil = pruned.promotedUntil) :
    ∃ taken, ScanPromotes options now pruned (observeFlows inet options scan now d targets) taken := by
  unfold observeFlows
  dsimp only
  generalize seeded : ({ d with
      seedCounters := (scan.destinationFlows.foldl (seedFlow options scan targets d.seedCounters) {}).next
      activeContexts := seedContexts options now targets
        (scan.destinationFlows.foldl (seedFlow options scan targets d.seedCounters) {}) d.activeContexts } :
      UdpCallAffinityDetector) = start
  have begun : Refreshed options pruned { detector := start } := by
    subst seeded
    exact ⟨times,promoted,Nat.zero_le _,nofun⟩
  have refreshed : Refreshed options pruned
    (scan.sourceWideUdpFlows.foldl (mediaFlow inet options scan now targets) { detector := start }) :=
    List.foldlRecOn (motive := Refreshed options pruned) _ _ begun fun _ kept _ _ => mediaRefreshed kept
  generalize scan.sourceWideUdpFlows.foldl (mediaFlow inet options scan now targets) { detector := start } = media at refreshed ⊢
  have inForce {peer : PeerKey} (free : Free { media.detector with mediaCounters := media.next } now peer) : Free pruned now peer := by
    intro promoted there
    rw [← refreshed.promoted] at there
    exact free promoted there
  obtain ⟨keyed,free⟩ := @candidatesKeyed inet options scan now { media.detector with mediaCounters := media.next } scan.sourceWideUdpFlows
  obtain ⟨ordered,among⟩ := orderedKeyed keyed
  refine sourcesPromote ?_ ordered fun peer mem => inForce (free peer (among peer mem))
  exact ⟨refreshed.times,refreshed.promoted,refreshed.fits,refreshed.refreshes⟩

theorem observePromotes (d : UdpCallAffinityDetector) :
    ∃ taken, ScanPromotes options now (pruneLimits options d now) (observe inet options scan now d) taken := by
  have aligned : (alignEpoch (pruneLimits options d now) scan.epoch).promotionTimes = (pruneLimits options d now).promotionTimes ∧
      (alignEpoch (pruneLimits options d now) scan.epoch).promotedUntil = (pruneLimits options d now).promotedUntil := by
    unfold alignEpoch
    split <;> exact ⟨rfl,rfl⟩
  unfold observe
  dsimp only
  split
  · exact ⟨[],quietPromotes rfl rfl⟩
  · split
    · exact ⟨[],quietPromotes aligned.1 aligned.2⟩
    · exact flowsPromote aligned.1 aligned.2

theorem scanCapped {pruned : UdpCallAffinityDetector} {result : UdpCallAffinityDetector × List UdpCallAffinityDecision}
    {taken : List PeerKey}
    (scanned : ScanPromotes options now pruned result taken) : result.2.length ≤ options.maxPairsPerScan ∧
      (result.2.filter fun decision => !decision.refreshOnly).map decisionPeer = taken := by
  obtain ⟨media,last,refreshed,all,decisions,-,-⟩ := scanned.chain
  obtain ⟨fits,new,shape,peers,initial⟩ := promotesDecisions all
  have none_ : (media.decisions.filter fun decision => !decision.refreshOnly) = [] := by
    refine List.filter_eq_nil_iff.mpr fun decision mem => ?_
    rw [refreshed.refreshes decision mem]
    exact Bool.false_ne_true
  have every : (new.filter fun decision => !decision.refreshOnly) = new := by
    refine List.filter_eq_self.mpr fun decision mem => ?_
    rw [initial decision mem]
    rfl
  rw [decisions]
  refine ⟨fits refreshed.fits,?_⟩
  rw [shape,List.filter_append,none_,every,List.nil_append,peers]

end Refreshes

section Limited
variable {inet : Inet} {options : UdpCallAffinityDetectorOptions} {now : Int} {d : UdpCallAffinityDetector}
    {promotions : List (PeerKey × Int)}

/- A promotion that counts is held at least as long as it counts, if the hold is no shorter than the window. -/
structure Limited (options : UdpCallAffinityDetectorOptions) (now : Int) (d : UdpCallAffinityDetector)
    (promotions : List (PeerKey × Int)) : Prop where
  counts : Counts options.globalRateWindow options.maxPairsPerRateWindow now d.promotionTimes promotions
  past : ∀ entry ∈ d.promotionTimes, entry.2 ≤ now
  live : options.globalRateWindow ≤ options.promotedPairHold → ∀ entry ∈ d.promotionTimes,
    ∃ promoted, find d.promotedUntil entry.1 = some promoted ∧ entry.2 + options.promotedPairHold ≤ promoted.expiresAt

theorem Limited.pruned {before : Int} (limited : Limited options before d promotions) (passed : before ≤ now) :
    Limited options now (pruneLimits options d now) promotions where
  counts := limited.counts.passed passed
  past entry mem := Int.le_trans (limited.past entry (List.mem_of_mem_filter mem)) passed
  live holds entry mem := by
    obtain ⟨old,young⟩ := List.mem_filter.mp mem
    obtain ⟨promoted,there,hold⟩ := limited.live holds entry old
    refine ⟨promoted,findFilter there (decide_eq_true ?_),hold⟩
    have fresh := of_decide_eq_true young
    dsimp only at fresh ⊢
    omega

theorem prunedRecent {entry : PeerKey × Int} (mem : entry ∈ (pruneLimits options d now).promotionTimes) :
    now - entry.2 < options.globalRateWindow :=
  of_decide_eq_true (List.mem_filter.mp mem).2

theorem freeFresh (enough : options.globalRateWindow ≤ options.promotedPairHold ∨ options.maxPairsPerRateWindow = 1)
    (limited : Limited options now d promotions) (recent : ∀ entry ∈ d.promotionTimes, now - entry.2 < options.globalRateWindow)
    (room : d.promotionTimes.length < options.maxPairsPerRateWindow) {peer : PeerKey} (free : Free d now peer) :
    find d.promotionTimes peer = none := by
  cases found : find d.promotionTimes peer with
  | none => rfl
  | some time =>
    have mem := findMem found
    rcases enough with longer | single
    · obtain ⟨promoted,there,hold⟩ := limited.live longer _ mem
      have ended := free promoted there
      have young := recent _ mem
      dsimp only at hold young
      omega
    · have empty : d.promotionTimes = [] := List.length_eq_zero_iff.mp (by omega)
      rw [empty] at mem
      cases mem

theorem Limited.promoted (limited : Limited options now d promotions) {peer : PeerKey}
    {s t : UdpCallAffinityDetector × List UdpCallAffinityDecision}
    (same : s.1 = d) (one : Promotes options now peer s t) (fresh : find d.promotionTimes peer = none) :
    Limited options now t.1 ((peer,now) :: promotions) := by
  subst same
  obtain ⟨target,holds⟩ := one.holds
  refine ⟨?_,?_,?_⟩
  · rw [one.times]
    exact limited.counts.issued fresh one.room
  · intro entry mem
    rw [one.times] at mem
    rcases memPut mem with rfl | old
    · exact Int.le_refl _
    · exact limited.past entry old
  · intro longer entry mem
    rw [one.times] at mem
    rw [holds]
    rcases List.mem_cons.mp mem with rfl | old
    · exact ⟨_,by rw [findPut,if_pos rfl],Int.le_refl _⟩
    · obtain ⟨listed,other⟩ := memDrop.mp old
      obtain ⟨promoted,there,hold⟩ := limited.live longer entry listed
      exact ⟨promoted,by rw [findPut,if_neg other,there],hold⟩

theorem Limited.promotedAll (positive : 0 < options.globalRateWindow)
    (enough : options.globalRateWindow ≤ options.promotedPairHold ∨ options.maxPairsPerRateWindow = 1) {taken : List PeerKey}
    {s t : UdpCallAffinityDetector × List UdpCallAffinityDecision} (all : PromotesAll options now taken s t)
    (limited : Limited options now s.1 promotions)
    (recent : ∀ entry ∈ s.1.promotionTimes, now - entry.2 < options.globalRateWindow) (distinct : taken.Nodup)
    (free : ∀ peer ∈ taken, Free s.1 now peer) :
    Limited options now t.1 ((taken.map fun peer => (peer,now)).reverse ++ promotions) := by
  induction all generalizing promotions with
  | stop s => exact limited
  | @step peer rest s m t first later ih =>
    have fresh := freeFresh enough limited recent first.room (free peer List.mem_cons_self)
    obtain ⟨target,holds⟩ := first.holds
    rw [List.map_cons,List.reverse_cons,List.append_assoc,List.singleton_append]
    refine ih (limited.promoted rfl first fresh) ?_ (List.nodup_cons.mp distinct).2 ?_
    · intro entry mem
      rw [first.times] at mem
      rcases memPut mem with rfl | old
      · simpa using positive
      · exact recent entry old
    · intro other mem promoted there
      have apart : other ≠ peer := fun equal => (List.nodup_cons.mp distinct).1 (equal ▸ mem)
      rw [holds,findPut,if_neg apart] at there
      exact free other (List.mem_cons_of_mem _ mem) promoted there

theorem Limited.scanned (positive : 0 < options.globalRateWindow)
    (enough : options.globalRateWindow ≤ options.promotedPairHold ∨ options.maxPairsPerRateWindow = 1) {before : Int}
    (limited : Limited options before d promotions) (passed : before ≤ now)
    {result : UdpCallAffinityDetector × List UdpCallAffinityDecision}
    {taken : List PeerKey} (scanned : ScanPromotes options now (pruneLimits options d now) result taken) :
    Limited options now result.1 (issuedAt result.2 now ++ promotions) := by
  have issued : issuedAt result.2 now = (taken.map fun peer => (peer,now)).reverse := by
    rw [issuedAt,← (scanCapped scanned).2,List.map_map]
    rfl
  obtain ⟨media,last,refreshed,all,-,times,promoted⟩ := scanned.chain
  have pruned := limited.pruned passed
  have begun : Limited options now media.detector promotions := by
    refine ⟨?_,?_,?_⟩
    · rw [refreshed.times]
      exact pruned.counts
    · rw [refreshed.times]
      exact pruned.past
    · rw [refreshed.times,refreshed.promoted]
      exact pruned.live
  have done := begun.promotedAll positive enough all ?_ scanned.distinct ?_
  · rw [issued]
    refine ⟨?_,?_,?_⟩
    · rw [times]
      exact done.counts
    · rw [times]
      exact done.past
    · rw [times,promoted]
      exact done.live
  · intro entry mem
    change entry ∈ media.detector.promotionTimes at mem
    rw [refreshed.times] at mem
    exact prunedRecent mem
  · intro peer mem held there
    change find media.detector.promotedUntil peer = some held at there
    rw [refreshed.promoted] at there
    exact scanned.free peer mem held there

theorem Limited.released (limited : Limited options now d promotions) (decision : UdpCallAffinityDecision) :
    Limited options now (releaseFailed d decision)
      (if outstanding d decision && !decision.refreshOnly then takeBack promotions (decisionPeer decision) else promotions) := by
  unfold releaseFailed
  dsimp only
  cases outstanding d decision with
  | false => exact limited
  | true =>
    cases decision.refreshOnly with
    | true => exact ⟨limited.counts,limited.past,limited.live⟩
    | false =>
      refine ⟨limited.counts.released _,fun entry mem => limited.past entry (memDrop.mp mem).1,fun longer entry mem => ?_⟩
      obtain ⟨old,other⟩ := memDrop.mp mem
      obtain ⟨promoted,there,hold⟩ := limited.live longer entry old
      exact ⟨promoted,(findDrop other).trans there,hold⟩

theorem Limited.confirmed {before : Int} (limited : Limited options before d promotions) (passed : before ≤ now)
    (decision : UdpCallAffinityDecision) :
    Limited options now (confirmInstalled options now d decision).1 promotions := by
  have waited : Limited options now d promotions :=
    ⟨limited.counts.waited passed,fun entry mem => Int.le_trans (limited.past entry mem) passed,limited.live⟩
  unfold confirmInstalled
  dsimp only
  cases outstanding d decision with
  | false => exact waited
  | true =>
    refine ⟨waited.counts,waited.past,fun longer entry mem => ?_⟩
    change ∃ promoted, find (put d.promotedUntil _ _) entry.1 = some promoted ∧ _
    rw [findPut]
    split
    · have past := waited.past entry mem
      exact ⟨_,rfl,by dsimp only; omega⟩
    · exact limited.live longer entry mem

end Limited

section Runs
variable {inet : Inet} {options : UdpCallAffinityDetectorOptions}

def Within (options : UdpCallAffinityDetectorOptions) (c : Counted) : Prop := Limited options c.world.clock c.world.detector c.promotions

theorem limitedStep (positive : 0 < options.globalRateWindow)
    (enough : options.globalRateWindow ≤ options.promotedPairHold ∨ options.maxPairsPerRateWindow = 1) {c : Counted}
    {a : Act} (allowed : may c.world a)
    (limited : Within options c) : Within options (counted inet options c a) := by
  have later {now : Int} (given : a.time = some now) : c.world.clock ≤ now := by
    unfold may at allowed
    rw [given] at allowed
    simpa using allowed
  cases a with
  | observe scan now =>
    obtain ⟨taken,scanned⟩ := @observePromotes inet options scan now c.world.detector
    exact limited.scanned positive enough (later rfl) scanned
  | confirmInstalled decision now => exact limited.confirmed (later rfl) decision
  | releaseFailed decision => exact limited.released decision
  | needsFastFollowup | retainedGuardSources | retainedGuardPeers => exact limited.pruned (later rfl)
  | reset => exact ⟨.empty,nofun,fun _ => nofun⟩

theorem acceptedWindow (accepted : acceptsOptions options = true) : 0 < options.globalRateWindow := by
  unfold acceptsOptions at accepted
  simp only [Bool.not_eq_true',Bool.or_eq_false_iff,decide_eq_false_iff_not] at accepted
  omega

/- In every run: no stretch as long as the window has more promotions than the limit that were not released as failed, no scan
more decisions than its cap, and none more first publications of one source than the source's cap. -/
theorem promotionsLimited (accepted : acceptsOptions options = true)
    (enough : options.globalRateWindow ≤ options.promotedPairHold ∨ options.maxPairsPerRateWindow = 1) {clock : Int}
    {history : List Act} {c : Counted}
    (run : Run (counted inet options) (fun c => may c.world) { world := { clock } } history c) :
    (∀ start, (c.promotions.filter (inside options.globalRateWindow start)).length ≤ options.maxPairsPerRateWindow) ∧
    ∀ scan now, (observe inet options scan now c.world.detector).2.length ≤ options.maxPairsPerScan ∧
      ∀ source, ((observe inet options scan now c.world.detector).2.filter fun decision =>
        !decision.refreshOnly && (decisionPeer decision).sourceKey = source).length ≤ options.maxPairsPerSourcePerScan := by
  have start : Within options { world := { clock } } := ⟨.empty,nofun,fun _ => nofun⟩
  have limited : Within options c := run.keeps (fun _ _ allowed inv => limitedStep (acceptedWindow accepted) enough allowed inv) start
  refine ⟨limited.counts.bounded,fun scan now => ?_⟩
  obtain ⟨taken,scanned⟩ := @observePromotes inet options scan now c.world.detector
  obtain ⟨fits,peers⟩ := scanCapped scanned
  refine ⟨fits,fun source => ?_⟩
  have capped := scanned.capped source
  rw [← peers,List.filter_map,List.length_map,List.filter_filter] at capped
  refine Nat.le_trans (Nat.le_of_eq (congrArg List.length (List.filter_congr fun decision _ => ?_))) capped
  rw [Bool.and_comm]
  rfl

def shortHold : UdpCallAffinityDetectorOptions := { promotedPairHold := 1, maxPairsPerRateWindow := 2 }

def shortHoldHistory : List Act :=
  [.observe (callScan 1) 0,.observe (callScan 2) 5,.observe (callScan 3) 10,.observe (callScan 4) 15,.observe (callScan 5) 16,
    .observe (callScan 6) 17]

set_option maxRecDepth 4000 in
theorem shortHoldExceeds : acceptsOptions shortHold = true ∧ ∃ c,
    Run (counted callInet shortHold) (fun c => may c.world) { world := { clock := 0 } } shortHoldHistory c ∧
      (c.promotions.filter (inside shortHold.globalRateWindow 0)).length = 3 ∧ shortHold.maxPairsPerRateWindow = 2 := by
  refine ⟨by decide,shortHoldHistory.foldl (counted callInet shortHold) { world := { clock := 0 } },?_,?_,rfl⟩
  · exact .step rfl (.step rfl (.step rfl (.step rfl (.step rfl (.step rfl (.stop _))))))
  · decide

/- With a limit of one the same history is held to the promotion at 15: the later ones find the entry in the window. -/
def singlePair : UdpCallAffinityDetectorOptions := { promotedPairHold := 1, maxPairsPerRateWindow := 1 }

def singlePairEnd : Counted := shortHoldHistory.foldl (counted callInet singlePair) { world := { clock := 0 } }

set_option maxRecDepth 4000 in
theorem callLimited : (singlePairEnd.promotions.filter (inside 60 0)).length ≤ 1 ∧ singlePairEnd.promotions.map Prod.snd = [15] := by
  have run : Run (counted callInet singlePair) (fun c => may c.world) { world := { clock := 0 } } shortHoldHistory singlePairEnd :=
    .step rfl (.step rfl (.step rfl (.step rfl (.step rfl (.step rfl (.stop _))))))
  have limited := (promotionsLimited (by decide) (.inr rfl) run).1 0
  exact ⟨limited,by decide⟩

end Runs
end KeenPbr.CallAffinity
