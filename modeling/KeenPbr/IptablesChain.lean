import KeenPbr.Iptables

/-! What the mangle lines do to a packet, by the documented meaning of the matches and targets, and
what the criteria of a rule select. -/
namespace KeenPbr
open Blocks

section Selection
variable (inet : Inet)

def PortRange.holds (range : PortRange) (port : UInt16) : Bool := decide (range.fromPort ≤ port ∧ port ≤ range.toPort)

def PortSpec.covers (spec : PortSpec) (port : UInt16) : Bool := spec.ranges.any (·.holds port)

def L4Proto.admits : L4Proto → UInt8 → Bool
  | .any,_ => true
  | .tcp,number => number == ipprotoTcp
  | .udp,number => number == ipprotoUdp
  | .tcpUdp,number => number == ipprotoTcp || number == ipprotoUdp

def Header.port (header : Header) (ofSource : Bool) : Option UInt16 := header.ports.map fun ports => if ofSource then ports.1 else ports.2

def Header.portMatches (header : Header) (ofSource negated : Bool) (spec : PortSpec) : Bool :=
  (header.port ofSource).any fun port => spec.covers port != negated

def Header.portSelected (header : Header) (ofSource negated : Bool) (spec : PortSpec) : Bool :=
  spec.empty || header.portMatches ofSource negated spec

def addressSelected (ipv6 : Bool) (addrs : List Text) (negated : Bool) (address : Bits) : Bool :=
  addrs.isEmpty || (addrs.any (inCidr inet ipv6 · address) != negated)

def Header.inSet (sets : KernelSets) (header : Header) (criteria : FirewallRuleCriteria) : Bool :=
  match criteria.srcUdpPeerSetName,criteria.dstSetName with
  | some name,_ => header.l4proto == ipprotoUdp && (header.port false).any fun port => sets.peer name header.src port header.dst
  | none,some name => sets.member name header.dst
  | none,none => true

def FirewallRuleCriteria.selects (sets : KernelSets) (criteria : FirewallRuleCriteria) (header : Header) : Bool :=
  header.inSet sets criteria &&
  addressSelected inet header.ipv6 criteria.srcAddr criteria.negateSrcAddr header.src &&
  addressSelected inet header.ipv6 criteria.dstAddr criteria.negateDstAddr header.dst &&
  criteria.dscp.all (· == header.dscp) &&
  (Iptables.expandL4ProtosForIptables criteria).any (·.admits header.l4proto) &&
  header.portSelected true criteria.negateSrcPort criteria.srcPort &&
  header.portSelected false criteria.negateDstPort criteria.dstPort

end Selection

namespace Iptables

inductive Verdict where
  | ret
  | accept
  | drop
  deriving DecidableEq, Repr

section Semantics
variable (inet : Inet) (sets : KernelSets)

def Match.holds (s : Skb) : Match → Bool
  | .inInterface negated name => iptablesNames name s.header.iif != negated
  | .physdevIn name => s.header.physdevIn.any (iptablesNames name)
  | .source negated cidr => inCidr inet s.header.ipv6 cidr s.header.src != negated
  | .destination negated cidr => inCidr inet s.header.ipv6 cidr s.header.dst != negated
  | .proto l4 => l4.admits s.header.l4proto
  | .port ofSource negated range => s.header.portMatches ofSource negated { ranges := [range] }
  | .multiport ofSource negated spec => s.header.portMatches ofSource negated spec
  | .matchSet name .dst => sets.member name s.header.dst
  | .matchSet name .srcDstDst =>
    s.header.l4proto == ipprotoUdp && (s.header.port false).any fun port => sets.peer name s.header.src port s.header.dst
  | .dscp value => value == s.header.dscp
  | .ctdirOriginal => s.header.ctOriginal
  | .connmark mask => s.ctMark &&& mask != 0
  | .ctstateDnat => s.header.ctDnat
  | .marked => s.mark != 0

def Target.apply (s : Skb) : Target → Skb × Option Verdict
  | .mark value mask => ({ s with mark := (s.mark &&& ~~~mask) ^^^ value },none)
  | .saveMark mask => ({ s with ctMark := (s.ctMark &&& ~~~mask) ^^^ (s.mark &&& mask) },none)
  | .restoreMark mask => ({ s with mark := (s.mark &&& ~~~mask) ^^^ (s.ctMark &&& mask) },none)
  | .ret => (s,some .ret)
  | .accept => (s,some .accept)
  | .drop => (s,some .drop)

def hold (s : Skb) (options : List Match) : Bool := options.all (Match.holds inet sets s)

def Match.isSource : Match → Bool
  | .source _ _ => true
  | _ => false

def Match.isInterface : Match → Bool
  | .inInterface _ _ => true
  | _ => false

def once (options : List Match) : Bool := decide (options.countP Match.isSource ≤ 1) && decide (options.countP Match.isInterface ≤ 1)

end Semantics

section Options
variable {inet : Inet} {sets : KernelSets} {s : Skb}

theorem holdAppend (first second : List Match) : hold inet sets s (first ++ second) = (hold inet sets s first && hold inet sets s second) :=
  List.all_append

@[simp] theorem holdNil : hold inet sets s [] = true := rfl

theorem holdOne (option : Match) : hold inet sets s [option] = option.holds inet sets s := by
  rw [hold,List.all_cons,List.all_nil,Bool.and_true]

theorem anyProduct {α β γ : Type} {first : List α} {second : List β} {join : α → β → γ} {p : γ → Bool} {f : α → Bool} {g : β → Bool}
    (both : ∀ a b, p (join a b) = (f a && g b)) :
    (first.flatMap fun a => second.map (join a)).any p = (first.any f && second.any g) := by
  rw [Bool.eq_iff_iff]
  simp only [List.any_flatMap,List.any_map,Bool.and_eq_true,List.any_eq_true,Function.comp_apply,both]
  constructor
  · rintro ⟨a,aMem,b,bMem,left,right⟩
    exact ⟨⟨a,aMem,left⟩,b,bMem,right⟩
  · rintro ⟨⟨a,aMem,left⟩,b,bMem,right⟩
    exact ⟨a,aMem,b,bMem,left,right⟩

theorem chunkLoopCovers (port : UInt16) (ranges : List PortRange) (chunk : List PortRange) (slots : Nat) :
    (chunkLoop chunk slots ranges).any (·.covers port) = (chunk ++ ranges).any (·.holds port) := by
  induction ranges generalizing chunk slots with
  | nil =>
    rw [chunkLoop,List.append_nil]
    cases chunk with
    | nil => rfl
    | cons range rest => simp [PortSpec.covers]
  | cons range rest ih =>
    rw [chunkLoop]
    split
    · rw [List.any_cons,ih]
      simp [PortSpec.covers]
    · rw [ih,List.append_assoc]
      rfl

theorem chunksCover (spec : PortSpec) (port : UInt16) : (chunkMultiportSpec spec).any (·.covers port) = spec.covers port :=
  chunkLoopCovers port spec.ranges [] 0

theorem chunkLoopSome (ranges : List PortRange) (chunk : List PortRange) (slots : Nat) (some : chunk ++ ranges ≠ []) :
    chunkLoop chunk slots ranges ≠ [] := by
  induction ranges generalizing chunk slots with
  | nil =>
    rw [List.append_nil] at some
    simp [chunkLoop,some]
  | cons range rest ih =>
    rw [chunkLoop]
    split
    · exact List.cons_ne_nil _ _
    · exact ih _ _ (by simp)

theorem sideSelects (spec : PortSpec) (ofSource negated : Bool) :
    (buildSideFragments spec ofSource negated).any (hold inet sets s) = s.header.portSelected ofSource negated spec := by
  unfold buildSideFragments
  split
  · rename_i none
    simp [Header.portSelected,PortSpec.empty,none]
  · rename_i range one
    have same : spec = { ranges := [range] } := by
      cases spec
      cases one
      rfl
    rw [List.any_cons,List.any_nil,Bool.or_false,holdOne,same]
    rfl
  · rename_i several _
    have nonempty : spec.empty = false := by
      rw [PortSpec.empty,List.isEmpty_eq_false_iff]
      exact several
    rw [Header.portSelected,nonempty,Bool.false_or]
    cases negated with
    | true =>
      -- outside the union is outside every chunk
      have chunks := chunkLoopSome spec.ranges [] 0 several
      rw [if_pos rfl,List.any_cons,List.any_nil,Bool.or_false,hold,List.all_map]
      change (chunkMultiportSpec spec).all (fun chunk => (s.header.port ofSource).any fun port => chunk.covers port != true) = _
      rw [Header.portMatches]
      cases s.header.port ofSource with
      | none =>
        obtain ⟨chunk,rest,shape⟩ := List.exists_cons_of_ne_nil chunks
        rw [chunkMultiportSpec,shape]
        rfl
      | some port =>
        change (chunkMultiportSpec spec).all (fun chunk => chunk.covers port != true) = (spec.covers port != true)
        rw [← chunksCover]
        simp [List.all_eq_not_any_not]
    | false =>
      rw [if_neg Bool.false_ne_true,List.any_map]
      change (chunkMultiportSpec spec).any (fun chunk => hold inet sets s [Match.multiport ofSource false chunk]) = _
      simp only [holdOne,Match.holds,Header.portMatches]
      cases s.header.port ofSource with
      | none => simp
      | some port =>
        change (chunkMultiportSpec spec).any (fun chunk => chunk.covers port != false) = (spec.covers port != false)
        rw [← chunksCover]
        simp

theorem protoSelects (proto : L4Proto) : hold inet sets s (protoFragment proto) = proto.admits s.header.l4proto := by
  cases proto <;> simp [protoFragment,hold,Match.holds,L4Proto.admits]

theorem protoPortSelects (proto : L4Proto) (srcPort dstPort : PortSpec) (negateSrcPort negateDstPort : Bool) :
    (buildProtoPortFragments proto srcPort dstPort negateSrcPort negateDstPort).any (hold inet sets s) =
      (proto.admits s.header.l4proto && s.header.portSelected true negateSrcPort srcPort &&
        s.header.portSelected false negateDstPort dstPort) := by
  have joined (src dst : List Match) : hold inet sets s (protoFragment proto ++ src ++ dst) =
      ((proto.admits s.header.l4proto && hold inet sets s src) && hold inet sets s dst) := by
    rw [holdAppend,holdAppend,protoSelects]
  unfold buildProtoPortFragments
  split
  · rename_i plain
    obtain ⟨rfl,src,dst⟩ := plain
    simp [Header.portSelected,src,dst,L4Proto.admits]
  · rw [anyProduct joined,sideSelects,← List.and_any_distrib_left,sideSelects]

/- Rules are pending with one address a side at most. -/
structure PendingRule.Single (pr : PendingRule) : Prop where
  src : pr.criteria.srcAddr.length ≤ 1
  dst : pr.criteria.dstAddr.length ≤ 1

theorem listedOne {addrs : List Text} (few : addrs.length ≤ 1) (option : Text → Match) {ipv6 negated : Bool} {address : Bits}
    (reads : ∀ addr, (option addr).holds inet sets s = (inCidr inet ipv6 addr address != negated)) :
    hold inet sets s (addrs.head?.toList.map option) = addressSelected inet ipv6 addrs negated address := by
  cases addrs with
  | nil => rfl
  | cons addr rest =>
    have alone : rest = [] := by
      rw [List.length_cons] at few
      exact List.length_eq_zero_iff.mp (by omega)
    subst alone
    change hold inet sets s [option addr] = _
    rw [holdOne,reads]
    simp [addressSelected]

theorem setSelects (criteria : FirewallRuleCriteria) : hold inet sets s (setFrag criteria) = s.header.inSet sets criteria := by
  unfold setFrag FirewallRuleCriteria.setName Header.inSet
  cases criteria.srcUdpPeerSetName with
  | some name => exact holdOne _
  | none =>
    cases criteria.dstSetName with
    | some name => exact holdOne _
    | none => rfl

theorem dscpSelects (criteria : FirewallRuleCriteria) : hold inet sets s (dscpFrag criteria) = criteria.dscp.all (· == s.header.dscp) := by
  unfold dscpFrag
  cases criteria.dscp with
  | none => rfl
  | some value => exact holdOne _

theorem optionsSelect {pr : PendingRule} (single : pr.Single) (prefilter : FirewallGlobalPrefilter) :
    (ruleOptions pr prefilter).any (hold inet sets s) =
      (pr.criteria.selects inet sets s.header && (ifaceFrags pr prefilter).any (hold inet sets s)) := by
  have src : hold inet sets s (pr.criteria.srcAddr.head?.toList.map (.source pr.criteria.negateSrcAddr)) =
      addressSelected inet s.header.ipv6 pr.criteria.srcAddr pr.criteria.negateSrcAddr s.header.src :=
    listedOne single.src _ fun _ => rfl
  have dst : hold inet sets s (pr.criteria.dstAddr.head?.toList.map (.destination pr.criteria.negateDstAddr)) =
      addressSelected inet s.header.ipv6 pr.criteria.dstAddr pr.criteria.negateDstAddr s.header.dst :=
    listedOne single.dst _ fun _ => rfl
  have joined (pp iface : List Match) :
      hold inet sets s (setFrag pr.criteria ++ iface ++ addrFrag pr.criteria ++ dscpFrag pr.criteria ++ pp) =
        (hold inet sets s pp && (hold inet sets s iface && (s.header.inSet sets pr.criteria &&
          addressSelected inet s.header.ipv6 pr.criteria.srcAddr pr.criteria.negateSrcAddr s.header.src &&
          addressSelected inet s.header.ipv6 pr.criteria.dstAddr pr.criteria.negateDstAddr s.header.dst &&
          pr.criteria.dscp.all (· == s.header.dscp)))) := by
    rw [addrFrag,holdAppend,holdAppend,holdAppend,holdAppend,holdAppend,setSelects,dscpSelects,src,dst]
    simp only [Bool.and_assoc,Bool.and_comm,Bool.and_left_comm]
  rw [ruleOptions,List.any_flatMap]
  simp only [anyProduct joined,protoPortSelects,← List.and_any_distrib_right,FirewallRuleCriteria.selects]
  ac_rfl

end Options

end Iptables

end KeenPbr
