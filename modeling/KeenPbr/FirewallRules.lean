import KeenPbr.Packets

/-! The rules and the prefilter both firewall backends are given: firewall.hpp, and the part of
iptables.cpp and nftables.cpp that turns one call into pending rules. The DNS redirect selectors of
the prefilter belong to the NAT chains and are left out. -/
namespace KeenPbr

/- PendingRule::Action of both backends. -/
inductive RuleAction where
  | mark
  | drop
  | pass
  deriving DecidableEq, Repr

structure FirewallIngressSourceSelector where
  interface : Text
  cidr : Text
  deriving DecidableEq, Repr

structure FirewallBridgeIngressSourceSelector where
  interface : Text
  bridgePort : Text
  cidr : Text
  deriving DecidableEq, Repr

structure FirewallGlobalPrefilter where
  inboundInterfaces : Option (List Text) := none
  bypassInboundInterfaces : List Text := []
  includeSourceCidrsV4 : List Text := []
  includeSourceCidrsV6 : List Text := []
  bypassSourceSelectorsV4 : List FirewallIngressSourceSelector := []
  bypassSourceSelectorsV6 : List FirewallIngressSourceSelector := []
  bypassBridgeSourceSelectorsV4 : List FirewallBridgeIngressSourceSelector := []
  bypassBridgeSourceSelectorsV6 : List FirewallBridgeIngressSourceSelector := []
  skipEstablishedOrDnat : Bool := false
  skipMarkedPackets : Bool := false
  restoreConntrackMark : Bool := false
  conntrackMarkMask : UInt32 := 0
  configuredOutboundMarks : List UInt32 := []
  deriving DecidableEq, Repr

namespace FirewallGlobalPrefilter
variable (prefilter : FirewallGlobalPrefilter)

/- has_inbound_interfaces together with the list it found. -/
def inbound : List Text := prefilter.inboundInterfaces.getD []

def hasInboundInterfaces : Bool := !prefilter.inbound.isEmpty

def includeSourceCidrs (ipv6 : Bool) : List Text := if ipv6 then prefilter.includeSourceCidrsV6 else prefilter.includeSourceCidrsV4

end FirewallGlobalPrefilter

def kRouterOriginMark : UInt32 := 0x01000000

def afUnspec : Int := 0

def isIpv6Addr (addr : Text) : Bool := addr.contains ':'

def filterAddrsByFamily (addrs : List Text) (ipv6 : Bool) : List Text := addrs.filter fun addr => isIpv6Addr addr == ipv6

def expandL4Protos (proto : L4Proto) : List L4Proto := if proto = .tcpUdp then [.tcp,.udp] else [proto]

def PortSpec.empty (spec : PortSpec) : Bool := spec.ranges.isEmpty

namespace FirewallRuleCriteria
variable (criteria : FirewallRuleCriteria)

def setName : Option String := if criteria.srcUdpPeerSetName.isSome then criteria.srcUdpPeerSetName else criteria.dstSetName

def unusable (addrs : List Text) (ipv6 : Bool) : Bool := !addrs.isEmpty && (filterAddrsByFamily addrs ipv6).isEmpty

end FirewallRuleCriteria

namespace Iptables

structure PendingRule where
  ipv6 : Bool
  action : RuleAction
  fwmark : UInt32 := 0
  fwmarkMask : UInt32 := 0xffffffff
  criteria : FirewallRuleCriteria := {}
  output : Bool := false
  deriving DecidableEq, Repr

def expandL4ProtosForIptables (criteria : FirewallRuleCriteria) : List L4Proto :=
  if criteria.proto = .any ∧ (!criteria.srcPort.empty || !criteria.dstPort.empty) then [.tcp,.udp]
  else expandL4Protos criteria.proto

def addrList (addrs : List Text) (ipv6 : Bool) : List Text := if addrs.isEmpty then [[]] else filterAddrsByFamily addrs ipv6

def single (addr : Text) : List Text := if addr.isEmpty then [] else [addr]

def pendingRule (ipv6 : Bool) (action : RuleAction) (fwmark fwmarkMask : UInt32) (criteria : FirewallRuleCriteria)
    (outputScope : Bool) (proto : L4Proto) (src dst : Text) : PendingRule :=
  let origin := outputScope && action == .mark
  { ipv6, action
    fwmark := if origin then fwmark ||| kRouterOriginMark else fwmark
    fwmarkMask := if origin then fwmarkMask ||| kRouterOriginMark else fwmarkMask
    criteria := { criteria with proto, srcAddr := single src, dstAddr := single dst }
    output := outputScope }

def appendRulesForFamily (fwmarkMask : UInt32) (ipv6 : Bool) (action : RuleAction) (fwmark : UInt32)
    (criteria : FirewallRuleCriteria) (outputScope : Bool) : List PendingRule :=
  if criteria.family ≠ afUnspec ∧ criteria.family ≠ familyOf ipv6 then []
  else if FirewallRuleCriteria.unusable criteria.srcAddr ipv6 || FirewallRuleCriteria.unusable criteria.dstAddr ipv6 then []
  else
    (expandL4ProtosForIptables criteria).flatMap fun proto =>
      (addrList criteria.srcAddr ipv6).flatMap fun src =>
        (addrList criteria.dstAddr ipv6).map fun dst =>
          pendingRule ipv6 action fwmark fwmarkMask criteria outputScope proto src dst

def createOutputMarkRule (fwmarkMask fwmark : UInt32) (criteria : FirewallRuleCriteria) : List PendingRule :=
  appendRulesForFamily fwmarkMask false .mark fwmark criteria true ++ appendRulesForFamily fwmarkMask true .mark fwmark criteria true

end Iptables

namespace Nftables

structure PendingRule where
  family : Int
  action : RuleAction
  fwmark : UInt32 := 0
  fwmarkMask : UInt32 := 0xffffffff
  criteria : FirewallRuleCriteria := {}
  output : Bool := false
  deriving DecidableEq, Repr

def pendingRule (family : Int) (action : RuleAction) (fwmark fwmarkMask : UInt32) (criteria : FirewallRuleCriteria)
    (outputScope : Bool) (proto : L4Proto) : PendingRule :=
  let origin := outputScope && action == .mark
  let ipv6 := family == afInet6
  { family, action
    fwmark := if origin then fwmark ||| kRouterOriginMark else fwmark
    fwmarkMask := if origin then fwmarkMask ||| kRouterOriginMark else fwmarkMask
    criteria := { criteria with
      proto
      srcAddr := if criteria.srcAddr.isEmpty then criteria.srcAddr else filterAddrsByFamily criteria.srcAddr ipv6
      dstAddr := if criteria.dstAddr.isEmpty then criteria.dstAddr else filterAddrsByFamily criteria.dstAddr ipv6 }
    output := outputScope }

section Create
variable (sets : CreatedSets) (ipv6Enabled : Bool) (fwmarkMask : UInt32)

def appendRulesForFamily (family : Int) (action : RuleAction) (fwmark : UInt32) (criteria : FirewallRuleCriteria)
    (outputScope : Bool) : List PendingRule :=
  if criteria.family ≠ afUnspec ∧ criteria.family ≠ family then []
  else if family = afInet6 ∧ ipv6Enabled = false then []
  else if FirewallRuleCriteria.unusable criteria.srcAddr (family == afInet6) ||
      FirewallRuleCriteria.unusable criteria.dstAddr (family == afInet6) then []
  else (expandL4Protos criteria.proto).map (pendingRule family action fwmark fwmarkMask criteria outputScope)

def createOutputMarkRule (fwmark : UInt32) (criteria : FirewallRuleCriteria) : List PendingRule :=
  appendRulesForFamily ipv6Enabled fwmarkMask afInet .mark fwmark criteria true ++
    appendRulesForFamily ipv6Enabled fwmarkMask afInet6 .mark fwmark criteria true

end Create

end Nftables

end KeenPbr
