import KeenPbr.FirewallRules

/-! The rule commands of the nftables backend: build_rule_add_commands with the expression builders
it calls. An expression keeps the statements of the JSON array in their order; a right-hand side is
the list whose one element the source writes without a set around it. -/
namespace KeenPbr.Nftables
open Blocks

structure Prefix where
  addr : Text
  len : Option Int
  deriving DecidableEq, Repr

inductive Key where
  | metaMark
  | ctMark
  deriving DecidableEq, Repr

inductive Value where
  | key (slot : Key)
  | const (value : UInt32)
  | band (left right : Value)
  | bor (left right : Value)
  deriving DecidableEq, Repr

inductive Match where
  | iifname (equal : Bool) (names : List Text)
  | nfproto (ipv6 : Bool)
  | saddr (ipv6 equal : Bool) (prefixes : List Prefix)
  | daddr (ipv6 equal : Bool) (prefixes : List Prefix)
  | daddrSet (ipv6 : Bool) (name : String)
  | peerSet (ipv6 : Bool) (name : String)
  | dscp (ipv6 : Bool) (tag : UInt8)
  | l4proto (l4 : L4Proto)
  | port (payload : L4Proto) (ofSource equal : Bool) (spec : PortSpec)
  | ctDirection
  | ctStatusDnat
  | value (left : Value) (equal : Bool) (right : UInt32)
  deriving DecidableEq, Repr

section Expressions

def addrToRhs (addr : Text) : Prefix :=
  if addr.contains '/' then { addr := hostPart addr, len := prefixNumber addr }
  else { addr, len := some (if isIpv6Addr addr then 128 else 32) }

def cidrListToNftRhs (addrs : List Text) : List Prefix := addrs.map addrToRhs

/- append_named_set_match, for criteria the create calls have let through. -/
def namedSetMatch (ipv6 : Bool) (criteria : FirewallRuleCriteria) : List Match :=
  match criteria.srcUdpPeerSetName,criteria.dstSetName with
  | some name,_ => [.peerSet ipv6 name]
  | none,some name => [.daddrSet ipv6 name]
  | none,none => []

def buildDscpMatchExprs (ipv6 : Bool) (dscp : Option UInt8) : List Match := dscp.toList.map (.dscp ipv6)

def buildAddrMatchExprs (ipv6 : Bool) (srcAddr dstAddr : List Text) (negateSrcAddr negateDstAddr : Bool) : List Match :=
  (if srcAddr.isEmpty then [] else [Match.saddr ipv6 (!negateSrcAddr) (cidrListToNftRhs srcAddr)]) ++
    (if dstAddr.isEmpty then [] else [Match.daddr ipv6 (!negateDstAddr) (cidrListToNftRhs dstAddr)])

def buildPortMatchExprs (proto : L4Proto) (srcPort dstPort : PortSpec) (negateSrcPort negateDstPort : Bool) : List Match :=
  if proto = .any ∧ srcPort.empty ∧ dstPort.empty then []
  else
    (if proto = .any then [] else [Match.l4proto proto]) ++
    (if srcPort.empty then [] else [Match.port proto true (!negateSrcPort) srcPort]) ++
    (if dstPort.empty then [] else [Match.port proto false (!negateDstPort) dstPort])

end Expressions

section Rules

def ruleMatches (pr : PendingRule) : List Match :=
  let ipv6 := pr.family == afInet6
  let criteria := pr.criteria
  buildDscpMatchExprs ipv6 criteria.dscp ++
    buildAddrMatchExprs ipv6 criteria.srcAddr criteria.dstAddr criteria.negateSrcAddr criteria.negateDstAddr

def portMatches (pr : PendingRule) : List Match :=
  buildPortMatchExprs pr.criteria.proto pr.criteria.srcPort pr.criteria.dstPort pr.criteria.negateSrcPort pr.criteria.negateDstPort

def markMatches (pr : PendingRule) : List Match :=
  namedSetMatch (pr.family == afInet6) pr.criteria ++
  (if pr.criteria.family ≠ afUnspec then [.nfproto (pr.family == afInet6)] else []) ++
  ruleMatches pr ++ (if pr.criteria.srcUdpPeerSetName.isSome then [] else portMatches pr)

def verdictMatches (pr : PendingRule) : List Match :=
  namedSetMatch (pr.family == afInet6) pr.criteria ++ ruleMatches pr ++ portMatches pr

def conditions (pr : PendingRule) : List Match := if pr.action = .mark then markMatches pr else verdictMatches pr

def markValue (pr : PendingRule) : Value :=
  if pr.fwmarkMask = 0xffffffff then .const pr.fwmark
  else .bor (.band (.key .metaMark) (.const (~~~pr.fwmarkMask ||| pr.fwmark))) (.const pr.fwmark)

end Rules

end KeenPbr.Nftables
