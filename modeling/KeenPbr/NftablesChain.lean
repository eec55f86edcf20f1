import KeenPbr.IptablesChain
import KeenPbr.Nftables

/-! What the nftables rules do to a packet, by the documented meaning of the expressions. -/
namespace KeenPbr.Nftables
open Blocks

section Semantics
variable (inet : Inet) (sets : KernelSets)

def Key.read (s : Skb) : Key → UInt32
  | .metaMark => s.mark
  | .ctMark => s.ctMark

def Value.eval (s : Skb) : Value → UInt32
  | .key slot => slot.read s
  | .const number => number
  | .band left right => left.eval s &&& right.eval s
  | .bor left right => left.eval s ||| right.eval s

def Prefix.holds (ipv6 : Bool) (address : Bits) (entry : Prefix) : Bool :=
  inBlock (entry.len.bind (prefixBlock inet ipv6 entry.addr)) address

def Match.holds (s : Skb) : Match → Bool
  | .iifname equal names => names.any (nftNames · s.header.iif) == equal
  | .nfproto ipv6 => s.header.ipv6 == ipv6
  | .saddr ipv6 equal prefixes => s.header.ipv6 == ipv6 && (prefixes.any (Prefix.holds inet ipv6 s.header.src) == equal)
  | .daddr ipv6 equal prefixes => s.header.ipv6 == ipv6 && (prefixes.any (Prefix.holds inet ipv6 s.header.dst) == equal)
  | .daddrSet ipv6 name => s.header.ipv6 == ipv6 && sets.member name s.header.dst
  | .peerSet ipv6 name =>
    s.header.ipv6 == ipv6 && (s.header.l4proto == ipprotoUdp &&
      (s.header.port false).any fun port => sets.peer name s.header.src port s.header.dst)
  | .dscp ipv6 tag => s.header.ipv6 == ipv6 && tag == s.header.dscp
  | .l4proto l4 => l4.admits s.header.l4proto
  | .port payload ofSource equal spec => payload.admits s.header.l4proto && s.header.portMatches ofSource (!equal) spec
  | .ctDirection => s.header.ctOriginal
  | .ctStatusDnat => s.header.ctDnat
  | .value left equal right => (left.eval s == right) == equal

end Semantics

section Selection
variable {inet : Inet} {sets : KernelSets} {s : Skb}

theorem prefixReads (documented : inet.Documented) (ipv6 : Bool) (address : Bits) (cidr : Text) :
    (addrToRhs cidr).holds inet ipv6 address = inCidr inet ipv6 cidr address := by
  unfold Prefix.holds inCidr cidrBlock addrToRhs
  cases cidr.contains '/' with
  | true => rfl
  | false =>
    rw [if_neg Bool.false_ne_true,if_neg Bool.false_ne_true]
    refine congrArg (inBlock · address) ?_
    change prefixBlock inet ipv6 cidr (if isIpv6Addr cidr then 128 else 32) = prefixBlock inet ipv6 cidr (addressWidth ipv6)
    unfold prefixBlock
    cases read : inet.pton (familyOf ipv6) (cString cidr) with
    | none => rfl
    | some bytes =>
      refine congrArg some ?_
      have bits := bitsLength bytes
      cases ipv6 with
      | true =>
        have colon : isIpv6Addr cidr = true := by
          have inside := (documented.v6 _ _ read).2
          rw [cString,String.toList_ofList] at inside
          rw [isIpv6Addr,List.contains_iff_mem]
          exact (List.takeWhile_sublist _).mem inside
        rw [colon]
        rfl
      | false =>
        have size := (documented.v4 _ _ read).1
        cases isIpv6Addr cidr with
        | true =>
          change (bitsOf bytes).take 128 = (bitsOf bytes).take 32
          rw [List.take_of_length_le (by rw [bits,size]; decide),List.take_of_length_le (by rw [bits,size])]
        | false => rfl

theorem prefixesRead (documented : inet.Documented) (ipv6 : Bool) (address : Bits) (addrs : List Text) :
    (cidrListToNftRhs addrs).any (Prefix.holds inet ipv6 address) = addrs.any (inCidr inet ipv6 · address) := by
  rw [cidrListToNftRhs,List.any_map]
  exact congrArg addrs.any (funext (prefixReads documented ipv6 address))

theorem setConditions (ipv6 : Bool) (criteria : FirewallRuleCriteria) :
    (namedSetMatch ipv6 criteria).all (Match.holds inet sets s) =
      ((!criteria.setName.isSome || s.header.ipv6 == ipv6) && s.header.inSet sets criteria) := by
  unfold namedSetMatch Header.inSet FirewallRuleCriteria.setName
  cases criteria.srcUdpPeerSetName with
  | some name => simp [Match.holds]
  | none =>
    cases criteria.dstSetName with
    | some name => simp [Match.holds]
    | none => rfl

theorem dscpConditions (ipv6 : Bool) (dscp : Option UInt8) :
    (buildDscpMatchExprs ipv6 dscp).all (Match.holds inet sets s) =
      ((!dscp.isSome || s.header.ipv6 == ipv6) && dscp.all (· == s.header.dscp)) := by
  cases dscp with
  | none => rfl
  | some tag => simp [buildDscpMatchExprs,Match.holds]

theorem sideCondition {condition : Match} {same negated : Bool} {ipv6 : Bool} {addrs : List Text} {address : Bits}
    (reads : condition.holds inet sets s = (same && (addrs.any (inCidr inet ipv6 · address) != negated))) :
    (if addrs.isEmpty then [] else [condition]).all (Match.holds inet sets s) =
      ((addrs.isEmpty || same) && addressSelected inet ipv6 addrs negated address) := by
  unfold addressSelected
  cases addrs.isEmpty with
  | true => rfl
  | false => simp [reads]

theorem addrConditions (documented : inet.Documented) (ipv6 : Bool) (srcAddr dstAddr : List Text) (negateSrcAddr negateDstAddr : Bool) :
    (buildAddrMatchExprs ipv6 srcAddr dstAddr negateSrcAddr negateDstAddr).all (Match.holds inet sets s) =
      ((srcAddr.isEmpty && dstAddr.isEmpty || s.header.ipv6 == ipv6) &&
        (addressSelected inet ipv6 srcAddr negateSrcAddr s.header.src &&
          addressSelected inet ipv6 dstAddr negateDstAddr s.header.dst)) := by
  have signs (found negated : Bool) : (found == !negated) = (found != negated) := by
    cases found <;> cases negated <;> rfl
  have src : (Match.saddr ipv6 (!negateSrcAddr) (cidrListToNftRhs srcAddr)).holds inet sets s =
      (s.header.ipv6 == ipv6 && (srcAddr.any (inCidr inet ipv6 · s.header.src) != negateSrcAddr)) := by
    rw [Match.holds,prefixesRead documented,signs]
  have dst : (Match.daddr ipv6 (!negateDstAddr) (cidrListToNftRhs dstAddr)).holds inet sets s =
      (s.header.ipv6 == ipv6 && (dstAddr.any (inCidr inet ipv6 · s.header.dst) != negateDstAddr)) := by
    rw [Match.holds,prefixesRead documented,signs]
  have joined (e f same x y : Bool) : ((e || same) && x && ((f || same) && y)) = ((e && f || same) && (x && y)) := by
    revert e f same x y
    decide
  rw [buildAddrMatchExprs,List.all_append,sideCondition src,sideCondition dst,joined]

theorem portConditions (proto : L4Proto) (srcPort dstPort : PortSpec) (negateSrcPort negateDstPort : Bool) :
    (buildPortMatchExprs proto srcPort dstPort negateSrcPort negateDstPort).all (Match.holds inet sets s) =
      (proto.admits s.header.l4proto && s.header.portSelected true negateSrcPort srcPort &&
        s.header.portSelected false negateDstPort dstPort) := by
  have side (ofSource negated : Bool) (spec : PortSpec) : (Match.port proto ofSource (!negated) spec).holds inet sets s =
      (proto.admits s.header.l4proto && s.header.portMatches ofSource negated spec) := by
    rw [Match.holds,Bool.not_not]
  unfold buildPortMatchExprs Header.portSelected
  cases proto with
  | any => cases srcPort.empty <;> cases dstPort.empty <;> simp [side,L4Proto.admits]
  | tcp =>
    cases srcPort.empty <;> cases dstPort.empty <;> cases admits : L4Proto.tcp.admits s.header.l4proto <;>
      simp [Match.holds,admits]
  | udp =>
    cases srcPort.empty <;> cases dstPort.empty <;> cases admits : L4Proto.udp.admits s.header.l4proto <;>
      simp [Match.holds,admits]
  | tcpUdp =>
    cases srcPort.empty <;> cases dstPort.empty <;> cases admits : L4Proto.tcpUdp.admits s.header.l4proto <;>
      simp [Match.holds,admits]

def bound (criteria : FirewallRuleCriteria) : Bool :=
  criteria.setName.isSome || criteria.dscp.isSome || !(criteria.srcAddr.isEmpty && criteria.dstAddr.isEmpty)

def headerSelected (inet : Inet) (sets : KernelSets) (ipv6 : Bool) (criteria : FirewallRuleCriteria) (header : Header) : Bool :=
  header.inSet sets criteria && addressSelected inet ipv6 criteria.srcAddr criteria.negateSrcAddr header.src &&
    addressSelected inet ipv6 criteria.dstAddr criteria.negateDstAddr header.dst && criteria.dscp.all (· == header.dscp)

def portsSelected (criteria : FirewallRuleCriteria) (header : Header) : Bool :=
  criteria.proto.admits header.l4proto && header.portSelected true criteria.negateSrcPort criteria.srcPort &&
    header.portSelected false criteria.negateDstPort criteria.dstPort

theorem verdictConditions (documented : inet.Documented) (pr : PendingRule) :
    (verdictMatches pr).all (Match.holds inet sets s) =
      ((!bound pr.criteria || s.header.ipv6 == (pr.family == afInet6)) &&
        (headerSelected inet sets (pr.family == afInet6) pr.criteria s.header && portsSelected pr.criteria s.header)) := by
  have joined (d e f same a b x y : Bool) :
      ((!d || same) && a && ((!e || same) && b && ((f || same) && (x && y)))) =
        ((!(d || e || !f) || same) && (a && x && y && b)) := by
    revert d e f same a b x y
    decide
  rw [verdictMatches,ruleMatches,portMatches,List.all_append,List.all_append,List.all_append,setConditions,dscpConditions,
    addrConditions documented,portConditions,joined,Bool.and_assoc]
  rfl

theorem familyCondition (pr : PendingRule) :
    (if pr.criteria.family ≠ afUnspec then [Match.nfproto (pr.family == afInet6)] else []).all (Match.holds inet sets s) =
      (!(pr.criteria.family != afUnspec) || s.header.ipv6 == (pr.family == afInet6)) := by
  by_cases free : pr.criteria.family = afUnspec
  · simp [free]
  · simp [free,Match.holds]

theorem markConditions (documented : inet.Documented) (pr : PendingRule) :
    (markMatches pr).all (Match.holds inet sets s) =
      ((!(bound pr.criteria || pr.criteria.family != afUnspec) || s.header.ipv6 == (pr.family == afInet6)) &&
        (headerSelected inet sets (pr.family == afInet6) pr.criteria s.header &&
          (pr.criteria.srcUdpPeerSetName.isSome || portsSelected pr.criteria s.header))) := by
  have ports : (if pr.criteria.srcUdpPeerSetName.isSome then [] else portMatches pr).all (Match.holds inet sets s) =
      (pr.criteria.srcUdpPeerSetName.isSome || portsSelected pr.criteria s.header) := by
    cases pr.criteria.srcUdpPeerSetName.isSome with
    | true => rfl
    | false => exact portConditions _ _ _ _ _
  have joined (d e f g same a b x y : Bool) :
      ((!d || same) && a && (!g || same) && ((!e || same) && b && ((f || same) && (x && y)))) =
        ((!(d || e || !f || g) || same) && (a && x && y && b)) := by
    revert d e f g same a b x y
    decide
  rw [markMatches,ruleMatches,List.all_append,List.all_append,List.all_append,List.all_append,setConditions,familyCondition,
    dscpConditions,addrConditions documented,ports,joined,Bool.and_assoc]
  rfl

end Selection

end KeenPbr.Nftables
