import KeenPbr.FirewallRules

/-! The lines of the mangle PREROUTING chain: build_proto_port_fragments, build_prefilter_lines,
build_rule_lines and the PREROUTING part of build_ipt_script. A line keeps its options in the order
of the text, and Line.text writes them out. -/
namespace KeenPbr.Iptables
open Blocks

inductive SetDimensions where
  | dst
  | srcDstDst
  deriving DecidableEq, Repr

inductive Match where
  | inInterface (negated : Bool) (name : Text)
  | physdevIn (name : Text)
  | source (negated : Bool) (cidr : Text)
  | destination (negated : Bool) (cidr : Text)
  | proto (l4 : L4Proto)
  | port (ofSource negated : Bool) (range : PortRange)
  | multiport (ofSource negated : Bool) (spec : PortSpec)
  | matchSet (name : String) (dimensions : SetDimensions)
  | dscp (value : UInt8)
  | ctdirOriginal
  | connmark (mask : UInt32)
  | ctstateDnat
  | marked
  deriving DecidableEq, Repr

inductive Target where
  | mark (value mask : UInt32)
  | saveMark (mask : UInt32)
  | restoreMark (mask : UInt32)
  | ret
  | accept
  | drop
  deriving DecidableEq, Repr

structure Line where
  chain : String
  options : List Match
  target : Target
  deriving DecidableEq, Repr

section Lines

def chainName : String := "KeenPbrTable"
def outputChainName : String := "KeenPbrOutput"

def rangeSlots (range : PortRange) : Nat := if range.fromPort = range.toPort then 1 else 2

/- The open chunk and its slots; xt_multiport takes fifteen, a range takes two of them. -/
def chunkLoop (chunk : List PortRange) (slots : Nat) : List PortRange → List PortSpec
  | [] => if chunk.isEmpty then [] else [{ ranges := chunk }]
  | range :: rest =>
    if !chunk.isEmpty && slots + rangeSlots range > 15 then { ranges := chunk } :: chunkLoop [range] (rangeSlots range) rest
    else chunkLoop (chunk ++ [range]) (slots + rangeSlots range) rest

def chunkMultiportSpec (spec : PortSpec) : List PortSpec := chunkLoop [] 0 spec.ranges

def buildSideFragments (spec : PortSpec) (source negated : Bool) : List (List Match) :=
  match spec.ranges with
  | [] => [[]]
  | [range] => [[.port source negated range]]
  | _ =>
    if negated then [(chunkMultiportSpec spec).map (.multiport source true)]
    else (chunkMultiportSpec spec).map fun chunk => [.multiport source false chunk]

def protoFragment (proto : L4Proto) : List Match := if proto = .any then [] else [.proto proto]

def buildProtoPortFragments (proto : L4Proto) (srcPort dstPort : PortSpec) (negateSrcPort negateDstPort : Bool) : List (List Match) :=
  if proto = .any ∧ srcPort.empty ∧ dstPort.empty then [[]]
  else
    (buildSideFragments srcPort true negateSrcPort).flatMap fun src =>
      (buildSideFragments dstPort false negateDstPort).map fun dst =>
        protoFragment proto ++ src ++ dst

def inboundGuardLines (prefilter : FirewallGlobalPrefilter) (chain : String) (ipv6 : Bool) : List Line :=
  match prefilter.inbound with
  | [interface] =>
    if (prefilter.includeSourceCidrs ipv6).isEmpty then [{ chain, options := [.inInterface true interface], target := .ret }] else []
  | _ => []

def ifaceFrags (pr : PendingRule) (prefilter : FirewallGlobalPrefilter) : List (List Match) :=
  if !pr.output && prefilter.hasInboundInterfaces then
    let sourceCidrs := prefilter.includeSourceCidrs pr.ipv6
    let needsExplicitScope := decide (prefilter.inbound.length > 1) || !sourceCidrs.isEmpty
    (if needsExplicitScope then prefilter.inbound.map fun iface => [.inInterface false iface] else [[]]) ++
      sourceCidrs.map fun cidr => [.source false cidr]
  else [[]]

def addrFrag (criteria : FirewallRuleCriteria) : List Match :=
  (criteria.srcAddr.head?.toList.map (.source criteria.negateSrcAddr)) ++
    criteria.dstAddr.head?.toList.map (.destination criteria.negateDstAddr)

def dscpFrag (criteria : FirewallRuleCriteria) : List Match := criteria.dscp.toList.map .dscp

def setFrag (criteria : FirewallRuleCriteria) : List Match :=
  criteria.setName.toList.map fun name => .matchSet name (if criteria.srcUdpPeerSetName.isSome then .srcDstDst else .dst)

def saves (pr : PendingRule) (prefilter : FirewallGlobalPrefilter) (allowConntrack : Bool) : Bool :=
  pr.criteria.persistConntrackMark && allowConntrack && prefilter.restoreConntrackMark && prefilter.conntrackMarkMask != 0

def ruleTargets (pr : PendingRule) (prefilter : FirewallGlobalPrefilter) (allowConntrack : Bool) : List Target :=
  match pr.action with
  | .mark =>
    [.mark pr.fwmark pr.fwmarkMask] ++
      (if saves pr prefilter allowConntrack then [.saveMark prefilter.conntrackMarkMask] else []) ++ [.ret]
  | .drop => [.drop]
  | .pass => [.ret]

def ruleOptions (pr : PendingRule) (prefilter : FirewallGlobalPrefilter) : List (List Match) :=
  (expandL4ProtosForIptables pr.criteria).flatMap fun proto =>
    (buildProtoPortFragments proto pr.criteria.srcPort pr.criteria.dstPort pr.criteria.negateSrcPort
      pr.criteria.negateDstPort).flatMap fun pp =>
      (ifaceFrags pr prefilter).map fun ifaceFrag =>
        setFrag pr.criteria ++ ifaceFrag ++ addrFrag pr.criteria ++ dscpFrag pr.criteria ++ pp

def buildRuleLines (pr : PendingRule) (prefilter : FirewallGlobalPrefilter) (allowConntrack : Bool) : List Line :=
  (ruleOptions pr prefilter).flatMap fun options =>
    (ruleTargets pr prefilter allowConntrack).map fun target =>
      { chain := if pr.output then outputChainName else chainName, options, target }

end Lines

section Text

def l4ProtoName : L4Proto → String
  | .any => ""
  | .tcp => "tcp"
  | .udp => "udp"
  | .tcpUdp => "tcp/udp"

def rangeString (range : PortRange) : String :=
  if range.fromPort = range.toPort then toString range.fromPort else toString range.fromPort ++ ":" ++ toString range.toPort

def toIptablesString (spec : PortSpec) : String := ",".intercalate (spec.ranges.map rangeString)

def hex (value : UInt32) : String := "0x" ++ String.ofList (Nat.toDigits 16 value.toNat)

def bang (negated : Bool) : String := if negated then " !" else ""

def Match.text : Match → String
  | .inInterface negated name => bang negated ++ " -i " ++ String.ofList name
  | .physdevIn name => " -m physdev --physdev-in " ++ String.ofList name
  | .source negated cidr => bang negated ++ " -s " ++ String.ofList cidr
  | .destination negated cidr => bang negated ++ " -d " ++ String.ofList cidr
  | .proto l4 => " -p " ++ l4ProtoName l4
  | .port ofSource negated range => bang negated ++ (if ofSource then " --sport " else " --dport ") ++ rangeString range
  | .multiport ofSource negated spec =>
    " -m multiport" ++ bang negated ++ (if ofSource then " --sports " else " --dports ") ++ toIptablesString spec
  | .matchSet name .dst => " -m set --match-set " ++ name ++ " dst"
  | .matchSet name .srcDstDst => " -m set --match-set " ++ name ++ " src,dst,dst"
  | .dscp value => " -m dscp --dscp " ++ toString value.toNat
  | .ctdirOriginal => " -m conntrack --ctdir ORIGINAL"
  | .connmark mask => " -m connmark ! --mark 0/" ++ hex mask
  | .ctstateDnat => " -m conntrack --ctstate DNAT"
  | .marked => " -m mark ! --mark 0x0/0xffffffff"

def Target.text : Target → String
  | .mark value mask => " -j MARK --set-xmark " ++ hex value ++ "/" ++ hex mask
  | .saveMark mask => " -j CONNMARK --save-mark --nfmask " ++ hex mask ++ " --ctmask " ++ hex mask
  | .restoreMark mask => " -j CONNMARK --restore-mark --nfmask " ++ hex mask ++ " --ctmask " ++ hex mask
  | .ret => " -j RETURN"
  | .accept => " -j ACCEPT"
  | .drop => " -j DROP"

def Line.text (line : Line) : String :=
  "-A " ++ line.chain ++ String.join (line.options.map Match.text) ++ line.target.text ++ "\n"

end Text

end KeenPbr.Iptables
