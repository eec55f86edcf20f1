import KeenPbr.IdleStall
import KeenPbr.RuleCriteria
import KeenPbr.Tables

/-! The detector of runtime/udp_call_affinity.hpp. Times are numbers of one unit, the steady clock's;
a std::map is a table that is sorted where the order of its entries tells. -/
namespace KeenPbr.CallAffinity
open Tables IdleStall

inductive ConntrackFlowFamily where
  | ipv4
  | ipv6
  deriving DecidableEq, Repr

inductive ConntrackFlowProtocol where
  | tcp
  | udp
  deriving DecidableEq, Repr

inductive ConntrackTcpState where
  | noState
  | synSent
  | synRecv
  | established
  | finWait
  | closeWait
  | lastAck
  | timeWait
  | close
  | listen
  | synSent2
  | retrans
  | unack
  deriving DecidableEq, Repr

structure ConntrackFlowCounters where
  packets : UInt64 := 0
  bytes : UInt64 := 0
  deriving DecidableEq, Repr

structure ConntrackExactForwardedFlow where
  family : ConntrackFlowFamily := .ipv4
  protocol : ConntrackFlowProtocol := .tcp
  source : String := ""
  destination : String := ""
  sourcePort : UInt16 := 0
  destinationPort : UInt16 := 0
  mark : UInt32 := 0
  original : ConntrackFlowCounters := {}
  reply : ConntrackFlowCounters := {}
  tcpState : Option ConntrackTcpState := none
  assured : Bool := false
  seenReply : Bool := false
  deriving DecidableEq, Repr

structure UdpCallAffinityTarget where
  listName : String
  fwmark : UInt32 := 0
  deriving DecidableEq, Repr

structure UdpCallAffinityDecision where
  family : ConntrackFlowFamily := .ipv4
  source : String
  destination : String
  destinationPort : UInt16 := 0
  listName : String
  fwmark : UInt32 := 0
  baselineFlows : List ConntrackExactForwardedFlow := []
  refreshOnly : Bool := false
  confirmationToken : UInt64 := 0
  deriving DecidableEq, Repr

structure UdpCallAffinityGuardPeer where
  family : ConntrackFlowFamily := .ipv4
  source : String
  destination : String
  destinationPort : UInt16 := 0
  fwmark : UInt32 := 0
  deriving DecidableEq, Repr

structure UdpCallAffinityDetectorOptions where
  activeSeedHold : Int := 15
  promotedPairHold : Int := 90
  activePairRefreshInterval : Int := 30
  candidateStreakHold : Int := 10
  globalRateWindow : Int := 60
  minimumSeedPacketsPerDirection : UInt64 := 4
  minimumSeedBytesPerDirection : UInt64 := 1024
  minimumCandidatePacketsPerScan : UInt64 := 1
  minimumCandidateBytesPerScan : UInt64 := 64
  maxTrackedFlows : Nat := 256
  maxPairsPerSourcePerScan : Nat := 4
  maxPairsPerScan : Nat := 4
  maxPairsPerRateWindow : Nat := 64
  maxStaleFlowsPerPair : Nat := 8
  deriving DecidableEq, Repr

section Keys

structure SourceKey where
  family : ConntrackFlowFamily
  source : String
  deriving DecidableEq, Repr

structure PeerKey where
  family : ConntrackFlowFamily
  source : String
  destinationPort : UInt16
  destination : String
  deriving DecidableEq, Repr

structure FlowKey where
  family : ConntrackFlowFamily
  protocol : ConntrackFlowProtocol
  source : String
  destination : String
  sourcePort : UInt16
  destinationPort : UInt16
  deriving DecidableEq, Repr

abbrev SeedKey := FlowKey × UInt32

variable (flow : ConntrackExactForwardedFlow)

def sourceOf : SourceKey := ⟨flow.family,flow.source⟩

def peerOf : PeerKey := ⟨flow.family,flow.source,flow.destinationPort,flow.destination⟩

def flowKey : FlowKey := ⟨flow.family,flow.protocol,flow.source,flow.destination,flow.sourcePort,flow.destinationPort⟩

def PeerKey.sourceKey (peer : PeerKey) : SourceKey := ⟨peer.family,peer.source⟩

def decisionPeer (decision : UdpCallAffinityDecision) : PeerKey :=
  ⟨decision.family,decision.source,decision.destinationPort,decision.destination⟩

def SourceKey.tied (key : SourceKey) : Bool ×ₗ String := toLex (key.family == .ipv6,key.source)

def PeerKey.tied (key : PeerKey) : Bool ×ₗ String ×ₗ Nat ×ₗ String :=
  toLex (key.family == .ipv6,toLex (key.source,toLex (key.destinationPort.toNat,key.destination)))

def staleTied : Nat ×ₗ Nat ×ₗ String := toLex (flow.sourcePort.toNat,toLex (flow.destinationPort.toNat,flow.destination))

end Keys

section Flows
variable (inet : Inet) (flow : ConntrackExactForwardedFlow)

def seedTransportIsReady : Bool :=
  if flow.protocol = .udp then flow.tcpState.isNone else flow.protocol == .tcp && flow.tcpState == some .established

def countersRegressed (original reply : ConntrackFlowCounters) : Bool :=
  flow.original.packets < original.packets || flow.original.bytes < original.bytes || flow.reply.packets < reply.packets ||
    flow.reply.bytes < reply.bytes

def directionProgressed (current previous : ConntrackFlowCounters) : Bool :=
  current.packets > previous.packets || current.bytes > previous.bytes

def directionProgressedBy (current previous : ConntrackFlowCounters) (minimumPackets minimumBytes : UInt64) : Bool :=
  if current.packets < previous.packets || current.bytes < previous.bytes then false
  else current.packets - previous.packets ≥ minimumPackets && current.bytes - previous.bytes ≥ minimumBytes

def globalIpv4 (first second third : UInt8) : Bool :=
  !(first == 0 || first == 10 || first == 127 || first ≥ 224 || (first == 100 && second ≥ 64 && second ≤ 127) ||
    (first == 169 && second == 254) ||
    (first == 172 && second ≥ 16 && second ≤ 31) || (first == 192 && second == 168) || (first == 192 && second == 0 && third == 0) ||
    (first == 192 && second == 0 && third == 2) || (first == 192 && second == 88 && third == 99) ||
    (first == 198 && (second == 18 || second == 19)) || (first == 198 && second == 51 && third == 100) ||
    (first == 203 && second == 0 && third == 113))

def isGlobalUnicastDestination : Bool :=
  if flow.destination.isEmpty || flow.destination.toList.contains '/' then false
  else
    match flow.family with
    | .ipv4 =>
      match inet.pton afInet (cString flow.destination.toList) with
      | some (first :: second :: third :: _) => globalIpv4 first second third
      | _ => false
    | .ipv6 =>
      match inet.pton afInet6 (cString flow.destination.toList) with
      | some (first :: second :: third :: fourth :: _) =>
        first &&& 0xE0 == 0x20 && !(first == 0x20 && second == 0x01 && third == 0x0d && fourth == 0xb8)
      | _ => false

end Flows

structure CounterState where
  original : ConntrackFlowCounters := {}
  reply : ConntrackFlowCounters := {}
  deriving DecidableEq, Repr

structure ActiveContext where
  target : UdpCallAffinityTarget
  expiresAt : Int
  deriving DecidableEq, Repr

structure CandidateStreak where
  observations : Nat := 0
  requiredObservations : Nat := 0
  target : UdpCallAffinityTarget
  lastProgressAt : Int
  deriving DecidableEq, Repr

structure PromotedPeer where
  target : UdpCallAffinityTarget
  expiresAt : Int
  deriving DecidableEq, Repr

structure UdpCallAffinityDetector where
  activeEpoch : Option IdleStallEpoch := none
  seedCounters : Table SeedKey CounterState := []
  mediaCounters : Table SeedKey CounterState := []
  candidateCounters : Table FlowKey CounterState := []
  activeContexts : Table SourceKey ActiveContext := []
  candidateStreaks : Table PeerKey CandidateStreak := []
  promotedUntil : Table PeerKey PromotedPeer := []
  confirmedUntil : Table PeerKey PromotedPeer := []
  pendingConfirmationTokens : Table PeerKey UInt64 := []
  peerRefreshedAt : Table PeerKey Int := []
  promotionTimes : Table PeerKey Int := []
  nextConfirmationToken : UInt64 := 1
  deriving DecidableEq, Repr

section Limits
variable (options : UdpCallAffinityDetectorOptions) (d : UdpCallAffinityDetector)

/- The number wraps round and never is zero. -/
def reserveConfirmationToken (peer : PeerKey) : UInt64 × UdpCallAffinityDetector :=
  let token := if d.nextConfirmationToken = 0 then d.nextConfirmationToken + 1 else d.nextConfirmationToken
  (token,
    { d with
      nextConfirmationToken := if token + 1 = 0 then 1 else token + 1
      pendingConfirmationTokens := put d.pendingConfirmationTokens peer token })

def resetObservationContinuity : UdpCallAffinityDetector :=
  { d with seedCounters := [], mediaCounters := [], candidateCounters := [], activeContexts := [], candidateStreaks := [] }

def pruneLimits (now : Int) : UdpCallAffinityDetector :=
  let promoted := d.promotedUntil.filter fun entry => now < entry.2.expiresAt
  let reserved (peer : PeerKey) : Bool := (find promoted peer).isSome
  { d with
    promotionTimes := d.promotionTimes.filter fun entry => now - entry.2 < options.globalRateWindow
    promotedUntil := promoted
    confirmedUntil := d.confirmedUntil.filter fun entry => now < entry.2.expiresAt && reserved entry.1
    pendingConfirmationTokens := d.pendingConfirmationTokens.filter fun entry => reserved entry.1
    peerRefreshedAt := d.peerRefreshedAt.filter fun entry => reserved entry.1 }

/- The branch of a scan that may not be used. -/
def discontinue (epoch : IdleStallEpoch) : UdpCallAffinityDetector :=
  { resetObservationContinuity d with activeEpoch := if epoch.valid then some epoch else none }

def alignEpoch (epoch : IdleStallEpoch) : UdpCallAffinityDetector :=
  if d.activeEpoch ≠ some epoch then { resetObservationContinuity d with activeEpoch := some epoch } else d

end Limits

structure Scan where
  epoch : IdleStallEpoch
  status : IdleStallScanStatus := {}
  ownedMask : UInt32
  targets : List UdpCallAffinityTarget
  destinationFlows : List ConntrackExactForwardedFlow := []
  sourceWideUdpFlows : List ConntrackExactForwardedFlow := []
  deriving DecidableEq, Repr

section Seeds
variable (options : UdpCallAffinityDetectorOptions) (scan : Scan) (now : Int)

/- observed_flow_keys has the full mark. -/
def observedFlows : Nat := ((scan.destinationFlows ++ scan.sourceWideUdpFlows).map fun flow => (flowKey flow,flow.mark)).dedup.length

def usable : Bool :=
  scan.epoch.valid && scan.status.trustworthy && scan.ownedMask != 0 && !scan.targets.isEmpty &&
    observedFlows scan ≤ options.maxTrackedFlows

def addTarget (targets : Table UInt32 UdpCallAffinityTarget) (target : UdpCallAffinityTarget) :
    Option (Table UInt32 UdpCallAffinityTarget) :=
  if target.listName.isEmpty || target.fwmark == 0 || target.fwmark &&& ~~~scan.ownedMask != 0 then none
  else
    match find targets target.fwmark with
    | none => some (put targets target.fwmark target)
    | some existing => some (if target.listName < existing.listName then put targets target.fwmark target else targets)

structure Seeds where
  next : Table SeedKey CounterState := []
  progressedMarks : Table SourceKey (List UInt32) := []
  regressed : List SourceKey := []
  firstSnapshot : List SourceKey := []
  delta : List SourceKey := []
  deriving DecidableEq, Repr

def seedProgressed (flow : ConntrackExactForwardedFlow) (previous : CounterState) : Bool :=
  directionProgressedBy flow.original previous.original options.minimumSeedPacketsPerDirection options.minimumSeedBytesPerDirection &&
    directionProgressedBy flow.reply previous.reply options.minimumSeedPacketsPerDirection options.minimumSeedBytesPerDirection

def seedFlow (targets : Table UInt32 UdpCallAffinityTarget) (counters : Table SeedKey CounterState) (seeds : Seeds)
    (flow : ConntrackExactForwardedFlow) : Seeds :=
  let owned := flow.mark &&& scan.ownedMask
  if !seedTransportIsReady flow || flow.destinationPort != 443 || !flow.assured || !flow.seenReply || flow.original.packets == 0 ||
      flow.reply.packets == 0 || (find targets owned).isNone then seeds
  else
    let key := (flowKey flow,owned)
    let previous := find counters key
    let source := sourceOf flow
    let seeds := { seeds with next := emplace seeds.next key ⟨flow.original,flow.reply⟩ }
    if previous.any fun old => countersRegressed flow old.original old.reply then { seeds with regressed := source :: seeds.regressed }
    else if seedProgressed options flow (previous.getD {}) then
      let marks := (find seeds.progressedMarks source).getD []
      let seeds := { seeds with progressedMarks := put seeds.progressedMarks source (marks.insert owned) }
      if previous.isNone then { seeds with firstSnapshot := source :: seeds.firstSnapshot }
        else { seeds with delta := source :: seeds.delta }
    else seeds

def seedContext (targets : Table UInt32 UdpCallAffinityTarget) (seeds : Seeds) (contexts : Table SourceKey ActiveContext)
    (entry : SourceKey × List UInt32) : Table SourceKey ActiveContext :=
  match entry.2 with
  | [mark] =>
    if entry.1 ∈ seeds.regressed then drop contexts entry.1
    else
      match find targets mark with
      | none => drop contexts entry.1
      | some target => put contexts entry.1 ⟨target,now + options.activeSeedHold⟩
  | _ => drop contexts entry.1

def seedContexts (targets : Table UInt32 UdpCallAffinityTarget) (seeds : Seeds) (contexts : Table SourceKey ActiveContext) :
    Table SourceKey ActiveContext :=
  let contexts := seeds.progressedMarks.foldl (seedContext options now targets seeds) contexts
  let contexts := seeds.regressed.foldl drop contexts
  contexts.filter fun entry => now < entry.2.expiresAt && (find targets entry.2.target.fwmark).isSome

/- The sources whose only seeds are new. -/
def provisionalSource (seeds : Seeds) (previous : Table SourceKey ActiveContext) (source : SourceKey) : Bool :=
  seeds.firstSnapshot.contains source && !seeds.delta.contains source && (find previous source).isNone && !seeds.regressed.contains source

end Seeds

section Media
variable (inet : Inet) (options : UdpCallAffinityDetectorOptions) (scan : Scan) (now : Int)

structure Media where
  detector : UdpCallAffinityDetector
  decisions : List UdpCallAffinityDecision := []
  next : Table SeedKey CounterState := []
  deriving DecidableEq, Repr

def coveredFlow (flow : ConntrackExactForwardedFlow) : Bool := scan.destinationFlows.any fun other => flowKey other == flowKey flow

def mediaFlow (targets : Table UInt32 UdpCallAffinityTarget) (media : Media) (flow : ConntrackExactForwardedFlow) : Media :=
  let d := media.detector
  let peer := peerOf flow
  match find d.promotedUntil peer with
  | none => media
  | some promoted =>
    let target := promoted.target
    let owned := flow.mark &&& scan.ownedMask
    if flow.protocol != .udp || !flow.assured || !flow.seenReply || flow.original.packets == 0 || flow.reply.packets == 0 ||
        coveredFlow scan flow || now ≥ promoted.expiresAt || !isGlobalUnicastDestination inet flow then media
    else if find targets target.fwmark != some target || (owned != 0 && owned != target.fwmark) then media
    else
      let key := (flowKey flow,target.fwmark)
      let progressed := (find d.mediaCounters key).any fun previous =>
        !countersRegressed flow previous.original previous.reply && directionProgressed flow.original previous.original &&
          directionProgressed flow.reply previous.reply
      let media := { media with next := emplace media.next key ⟨flow.original,flow.reply⟩ }
      if !progressed then media
      else
        let d := { d with activeContexts := put d.activeContexts (sourceOf flow) ⟨target,now + options.activeSeedHold⟩ }
        if media.decisions.length ≥ options.maxPairsPerScan ||
            (find d.peerRefreshedAt peer).any fun refreshed => now - refreshed < options.activePairRefreshInterval
              then { media with detector := d }
        else
          let (token,d) := reserveConfirmationToken d peer
          { media with
            detector := { d with peerRefreshedAt := put d.peerRefreshedAt peer now }
            decisions := media.decisions ++
              [{ family := flow.family, source := flow.source, destination := flow.destination, destinationPort := flow.destinationPort,
                 listName := target.listName, fwmark := target.fwmark, baselineFlows := [flow], refreshOnly :=
                   true, confirmationToken := token }] }

end Media

section Candidates
variable (inet : Inet) (options : UdpCallAffinityDetectorOptions) (scan : Scan) (now : Int) (d : UdpCallAffinityDetector)

structure Candidates where
  next : Table FlowKey CounterState := []
  regressed : List PeerKey := []
  observed : List PeerKey := []
  burst : List PeerKey := []
  candidates : Table SourceKey (Table PeerKey (List ConntrackExactForwardedFlow)) := []
  deriving DecidableEq, Repr

def candidateBurst (flow : ConntrackExactForwardedFlow) (previous : Option CounterState) (restarted : Bool) : Bool :=
  match previous with
  | some old =>
    if restarted then
      flow.original.packets ≥ options.minimumCandidatePacketsPerScan && flow.original.bytes ≥ options.minimumCandidateBytesPerScan
    else directionProgressedBy flow.original old.original options.minimumCandidatePacketsPerScan options.minimumCandidateBytesPerScan
  | none => flow.original.packets ≥ options.minimumCandidatePacketsPerScan && flow.original.bytes ≥ options.minimumCandidateBytesPerScan

def addCandidate (candidates : Table SourceKey (Table PeerKey (List ConntrackExactForwardedFlow))) (flow : ConntrackExactForwardedFlow) :
    Table SourceKey (Table PeerKey (List ConntrackExactForwardedFlow)) :=
  let pairs := (find candidates (sourceOf flow)).getD []
  put candidates (sourceOf flow) (put pairs (peerOf flow) ((find pairs (peerOf flow)).getD [] ++ [flow]))

def candidateFlow (found : Candidates) (flow : ConntrackExactForwardedFlow) : Candidates :=
  if flow.protocol != .udp || flow.mark &&& scan.ownedMask != 0 || flow.tcpState.isSome then found
  else
    let previous := find d.candidateCounters (flowKey flow)
    let restarted := previous.any fun old => countersRegressed flow old.original old.reply
    let peer := peerOf flow
    let found :=
      { found with
        regressed := if restarted then peer :: found.regressed else found.regressed
        next := emplace found.next (flowKey flow) ⟨flow.original,flow.reply⟩ }
    if (find d.activeContexts (sourceOf flow)).isNone || coveredFlow scan flow || flow.assured || flow.seenReply ||
      flow.reply.packets != 0 ||
        flow.reply.bytes != 0 || !isGlobalUnicastDestination inet flow then found
    else if (find d.promotedUntil peer).any fun promoted => now < promoted.expiresAt then found
    else
      let found := { found with observed := peer :: found.observed }
      if !candidateBurst options flow previous restarted then found
      else { found with burst := peer :: found.burst, candidates := addCandidate found.candidates flow }

def kFastFanoutPairCount : Nat := 4
def kFastFanoutRequiredObservations : Nat := 2
def kSparseFanoutRequiredObservations : Nat := 3

def keepStreaks (found : Candidates) (contexts : Table SourceKey ActiveContext) (streaks : Table PeerKey CandidateStreak) :
    Table PeerKey CandidateStreak :=
  streaks.filter fun (peer,streak) =>
    found.observed.contains peer && !found.regressed.contains peer && !(streak.observations == 0 && !found.burst.contains peer) &&
      ((find contexts peer.sourceKey).any fun context => context.target == streak.target) &&
        now - streak.lastProgressAt ≤ options.candidateStreakHold

/- The sources in the order of their map, each with its peers in the order of theirs. -/
def orderedCandidates (candidates : Table SourceKey (Table PeerKey (List ConntrackExactForwardedFlow))) :
    List (SourceKey × List (PeerKey × List ConntrackExactForwardedFlow)) :=
  (candidates.insertionSort fun left right => left.1.tied ≤ right.1.tied).map fun (source,pairs) =>
    (source,pairs.insertionSort fun left right => left.1.tied ≤ right.1.tied)

def growStreak (found : Candidates) (context : ActiveContext) (required : Nat) (provisional : Bool)
    (streaks : Table PeerKey CandidateStreak)
    (peer : PeerKey) : Table PeerKey CandidateStreak :=
  let fresh := if provisional then 0 else 1
  let observations :=
    match find streaks peer with
    | some previous =>
      if !found.regressed.contains peer && previous.target == context.target then
        if previous.observations < kSparseFanoutRequiredObservations then previous.observations + 1 else previous.observations
      else fresh
    | none => fresh
  put streaks peer ⟨observations,required,context.target,now⟩

def growStreaks (found : Candidates) (provisional : SourceKey → Bool) (contexts : Table SourceKey ActiveContext)
    (streaks : Table PeerKey CandidateStreak) (entry : SourceKey × List (PeerKey × List ConntrackExactForwardedFlow)) :
    Table PeerKey CandidateStreak :=
  match find contexts entry.1 with
  | none => streaks
  | some context =>
    let required := if entry.2.length ≥ kFastFanoutPairCount then kFastFanoutRequiredObservations else kSparseFanoutRequiredObservations
    (entry.2.map (·.1)).foldl (growStreak now found context required (provisional entry.1)) streaks

end Candidates

section Observe
variable (inet : Inet) (options : UdpCallAffinityDetectorOptions) (scan : Scan) (now : Int)

def staleFlows (flows : List ConntrackExactForwardedFlow) : List ConntrackExactForwardedFlow :=
  (flows.insertionSort fun left right => staleTied left ≤ staleTied right).take options.maxStaleFlowsPerPair

/- The peers of one source, as long as no limit is reached. -/
def promotePeers (context : ActiveContext) : Nat → UdpCallAffinityDetector → List UdpCallAffinityDecision →
    List (PeerKey × List ConntrackExactForwardedFlow) → UdpCallAffinityDetector × List UdpCallAffinityDecision
  | _,d,decisions,[] => (d,decisions)
  | sourceCount,d,decisions,(peer,flows) :: rest =>
    if !((find d.candidateStreaks peer).any fun streak => streak.requiredObservations ≤ streak.observations) then
      promotePeers context sourceCount d decisions rest
    else if sourceCount ≥ options.maxPairsPerSourcePerScan || decisions.length ≥ options.maxPairsPerScan ||
        d.promotionTimes.length ≥ options.maxPairsPerRateWindow then (d,decisions)
    else
      let (token,d) := reserveConfirmationToken d peer
      let decision : UdpCallAffinityDecision :=
        { family := peer.family, source := peer.source, destination := peer.destination, destinationPort := peer.destinationPort,
          listName := context.target.listName, fwmark := context.target.fwmark, baselineFlows := staleFlows options flows,
          confirmationToken := token }
      promotePeers context (sourceCount + 1)
        { d with
          promotedUntil := put d.promotedUntil peer ⟨context.target,now + options.promotedPairHold⟩
          peerRefreshedAt := put d.peerRefreshedAt peer now
          promotionTimes := put d.promotionTimes peer now }
        (decisions ++ [decision]) rest

def promoteSource (state : UdpCallAffinityDetector × List UdpCallAffinityDecision)
    (entry : SourceKey × List (PeerKey × List ConntrackExactForwardedFlow)) : UdpCallAffinityDetector × List UdpCallAffinityDecision :=
  match find state.1.activeContexts entry.1 with
  | none => state
  | some context => promotePeers options now context 0 state.1 state.2 entry.2

/- From the first loop on. -/
def observeFlows (d : UdpCallAffinityDetector) (targets : Table UInt32 UdpCallAffinityTarget) :
    UdpCallAffinityDetector × List UdpCallAffinityDecision :=
  let seeds := scan.destinationFlows.foldl (seedFlow options scan targets d.seedCounters) {}
  let provisional := provisionalSource seeds d.activeContexts
  let d := { d with seedCounters := seeds.next, activeContexts := seedContexts options now targets seeds d.activeContexts }
  let media := scan.sourceWideUdpFlows.foldl (mediaFlow inet options scan now targets) { detector := d }
  let d := { media.detector with mediaCounters := media.next }
  let found := scan.sourceWideUdpFlows.foldl (candidateFlow inet options scan now d) {}
  let ordered := orderedCandidates found.candidates
  let kept := keepStreaks options now found d.activeContexts d.candidateStreaks
  let d :=
    { d with
      candidateCounters := found.next
      candidateStreaks := ordered.foldl (growStreaks now found provisional d.activeContexts) kept }
  ordered.foldl (promoteSource options now) (d,media.decisions)

def observe (d : UdpCallAffinityDetector) : UdpCallAffinityDetector × List UdpCallAffinityDecision :=
  let d := pruneLimits options d now
  if scan.destinationFlows.length > options.maxTrackedFlows || scan.sourceWideUdpFlows.length > options.maxTrackedFlows ||
    !usable options scan then
    (discontinue d scan.epoch,[])
  else
    let d := alignEpoch d scan.epoch
    match scan.targets.foldlM (addTarget scan) [] with
    | none => ({ resetObservationContinuity d with activeEpoch := some scan.epoch },[])
    | some targets => observeFlows inet options scan now d targets

variable (d : UdpCallAffinityDetector)

def needsFastFollowup : UdpCallAffinityDetector × Bool :=
  let d := pruneLimits options d now
  (d,d.promotionTimes.length < options.maxPairsPerRateWindow && d.candidateStreaks.any fun (peer,streak) =>
    ((find d.activeContexts peer.sourceKey).any fun context => now < context.expiresAt) &&
      now - streak.lastProgressAt ≤ options.candidateStreakHold &&
      (find d.promotedUntil peer).all fun promoted => promoted.expiresAt ≤ now)

def outstanding (decision : UdpCallAffinityDecision) : Bool :=
  decision.confirmationToken != 0 && find d.pendingConfirmationTokens (decisionPeer decision) == some decision.confirmationToken

def releaseFailed (decision : UdpCallAffinityDecision) : UdpCallAffinityDetector :=
  let peer := decisionPeer decision
  if !outstanding d decision then d
  else
    let d := { d with pendingConfirmationTokens := drop d.pendingConfirmationTokens peer, peerRefreshedAt := drop d.peerRefreshedAt peer }
    if decision.refreshOnly then d
    else
      { d with
        confirmedUntil := drop d.confirmedUntil peer
        promotedUntil := drop d.promotedUntil peer
        promotionTimes := drop d.promotionTimes peer }

def confirmInstalled (decision : UdpCallAffinityDecision) : UdpCallAffinityDetector × Bool :=
  let peer := decisionPeer decision
  if !outstanding d decision then (d,false)
  else
    let confirmed : PromotedPeer := ⟨⟨decision.listName,decision.fwmark⟩,now + options.promotedPairHold⟩
    ({ d with
        confirmedUntil := put d.confirmedUntil peer confirmed
        promotedUntil := put d.promotedUntil peer confirmed
        peerRefreshedAt := put d.peerRefreshedAt peer now
        pendingConfirmationTokens := drop d.pendingConfirmationTokens peer
        candidateStreaks := drop d.candidateStreaks peer },true)

def retainedGuardSources : UdpCallAffinityDetector × List String :=
  let d := pruneLimits options d now
  let contexts := (d.activeContexts.filter fun entry => now < entry.2.expiresAt).map (·.1)
  let promoted := (d.promotedUntil.filter fun entry => now < entry.2.expiresAt).map (·.1.sourceKey)
  (d,((contexts ++ promoted).dedup.insertionSort fun left right => left.tied ≤ right.tied).map (·.source))

def retainedGuardPeers : UdpCallAffinityDetector × List UdpCallAffinityGuardPeer :=
  let d := pruneLimits options d now
  let live := (d.confirmedUntil.filter fun entry => now < entry.2.expiresAt).insertionSort fun left right => left.1.tied ≤ right.1.tied
  (d,live.map fun (peer,promoted) => ⟨peer.family,peer.source,peer.destination,peer.destinationPort,promoted.target.fwmark⟩)

def reset : UdpCallAffinityDetector := { nextConfirmationToken := d.nextConfirmationToken }

end Observe

end KeenPbr.CallAffinity
