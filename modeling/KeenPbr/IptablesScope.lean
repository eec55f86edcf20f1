import KeenPbr.IptablesChain

/-! The inbound scope of the lines of one rule: which interface and source options they carry, and
which packets they select together with the guard of the prefilter. -/
namespace KeenPbr
open Blocks

/- Packets that arrive on an allowed interface or from an included source. -/
def Header.inScope (inet : Inet) (prefilter : FirewallGlobalPrefilter) (header : Header) : Bool :=
  !prefilter.hasInboundInterfaces || prefilter.inbound.any (iptablesNames · header.iif) ||
    (prefilter.includeSourceCidrs header.ipv6).any (inCidr inet header.ipv6 · header.src)

namespace Iptables

section Shape

def Match.onTransport : Match → Bool
  | .proto _ => true
  | .port _ _ _ => true
  | .multiport _ _ _ => true
  | _ => false

theorem sideTransport {spec : PortSpec} {ofSource negated : Bool} {fragment : List Match}
    (mem : fragment ∈ buildSideFragments spec ofSource negated) : ∀ option ∈ fragment, option.onTransport = true := by
  unfold buildSideFragments at mem
  split at mem
  · cases List.mem_singleton.mp mem
    intro option inside
    cases inside
  · cases List.mem_singleton.mp mem
    intro option inside
    cases List.mem_singleton.mp inside
    rfl
  · split at mem
    · cases List.mem_singleton.mp mem
      intro option inside
      obtain ⟨chunk,_,rfl⟩ := List.mem_map.mp inside
      rfl
    · obtain ⟨chunk,_,rfl⟩ := List.mem_map.mp mem
      intro option inside
      cases List.mem_singleton.mp inside
      rfl

theorem fragmentTransport {proto : L4Proto} {srcPort dstPort : PortSpec} {negateSrcPort negateDstPort : Bool} {fragment : List Match}
    (mem : fragment ∈ buildProtoPortFragments proto srcPort dstPort negateSrcPort negateDstPort) :
    ∀ option ∈ fragment, option.onTransport = true := by
  unfold buildProtoPortFragments at mem
  split at mem
  · cases List.mem_singleton.mp mem
    intro option inside
    cases inside
  · obtain ⟨src,srcMem,inner⟩ := List.mem_flatMap.mp mem
    obtain ⟨dst,dstMem,rfl⟩ := List.mem_map.mp inner
    intro option inside
    rcases List.mem_append.mp inside with front | last
    · rcases List.mem_append.mp front with head | middle
      · unfold protoFragment at head
        split at head
        · cases head
        · cases List.mem_singleton.mp head
          rfl
      · exact sideTransport srcMem option middle
    · exact sideTransport dstMem option last

theorem sideSome (spec : PortSpec) (ofSource negated : Bool) : buildSideFragments spec ofSource negated ≠ [] := by
  unfold buildSideFragments
  split
  · exact List.cons_ne_nil _ _
  · exact List.cons_ne_nil _ _
  · rename_i several _
    split
    · exact List.cons_ne_nil _ _
    · rw [ne_eq,List.map_eq_nil_iff]
      exact chunkLoopSome spec.ranges [] 0 several

theorem fragmentSome (proto : L4Proto) (srcPort dstPort : PortSpec) (negateSrcPort negateDstPort : Bool) :
    ∃ fragment, fragment ∈ buildProtoPortFragments proto srcPort dstPort negateSrcPort negateDstPort := by
  unfold buildProtoPortFragments
  split
  · exact ⟨[],List.mem_singleton_self []⟩
  · obtain ⟨src,srcMem⟩ := List.exists_mem_of_ne_nil _ (sideSome srcPort true negateSrcPort)
    obtain ⟨dst,dstMem⟩ := List.exists_mem_of_ne_nil _ (sideSome dstPort false negateDstPort)
    exact ⟨_,List.mem_flatMap.mpr ⟨src,srcMem,List.mem_map.mpr ⟨dst,dstMem,rfl⟩⟩⟩

theorem protosSome (criteria : FirewallRuleCriteria) : ∃ proto, proto ∈ expandL4ProtosForIptables criteria := by
  unfold expandL4ProtosForIptables expandL4Protos
  split
  · exact ⟨.tcp,List.mem_cons_self⟩
  · split
    · exact ⟨.tcp,List.mem_cons_self⟩
    · exact ⟨_,List.mem_singleton_self _⟩

theorem optionsShape {pr : PendingRule} {prefilter : FirewallGlobalPrefilter} {options : List Match} :
    options ∈ ruleOptions pr prefilter ↔ ∃ proto ∈ expandL4ProtosForIptables pr.criteria,
      ∃ pp ∈ buildProtoPortFragments proto pr.criteria.srcPort pr.criteria.dstPort pr.criteria.negateSrcPort pr.criteria.negateDstPort,
      ∃ iface ∈ ifaceFrags pr prefilter,
        setFrag pr.criteria ++ iface ++ addrFrag pr.criteria ++ dscpFrag pr.criteria ++ pp = options := by
  simp only [ruleOptions,List.mem_flatMap,List.mem_map]

theorem ifaceShape {pr : PendingRule} {prefilter : FirewallGlobalPrefilter} {iface : List Match} (mem : iface ∈ ifaceFrags pr prefilter) :
    iface = [] ∨ (∃ name, iface = [.inInterface false name]) ∨
      (∃ cidr ∈ prefilter.includeSourceCidrs pr.ipv6, iface = [.source false cidr] ∧ pr.output = false ∧
        prefilter.hasInboundInterfaces = true) := by
  unfold ifaceFrags at mem
  split at mem
  · rename_i restricted
    simp only [Bool.and_eq_true,Bool.not_eq_true'] at restricted
    rcases List.mem_append.mp mem with named | sourced
    · split at named
      · obtain ⟨name,_,rfl⟩ := List.mem_map.mp named
        exact .inr (.inl ⟨name,rfl⟩)
      · exact .inl (List.mem_singleton.mp named)
    · obtain ⟨cidr,cidrMem,rfl⟩ := List.mem_map.mp sourced
      exact .inr (.inr ⟨cidr,cidrMem,rfl,restricted⟩)
  · exact .inl (List.mem_singleton.mp mem)

theorem countPlain {options : List Match} {p : Match → Bool} (plain : ∀ option ∈ options, p option = false) : options.countP p = 0 :=
  List.countP_eq_zero.mpr fun option mem => by rw [plain option mem]; decide

theorem transportPlain {option : Match} (transport : option.onTransport = true) : option.isSource = false ∧ option.isInterface = false := by
  cases option with
  | proto | port | multiport => exact ⟨rfl,rfl⟩
  | _ => cases transport

theorem fragmentsCount {c : FirewallRuleCriteria} {iface pp : List Match} {p : Match → Bool}
    (named : ∀ name slots, p (.matchSet name slots) = false)
    (tagged : ∀ value, p (.dscp value) = false) (ports : ∀ option ∈ pp, p option = false) :
    (setFrag c ++ iface ++ addrFrag c ++ dscpFrag c ++ pp).countP p = iface.countP p + (addrFrag c).countP p := by
  have sets : (setFrag c).countP p = 0 := by
    refine countPlain fun option mem => ?_
    obtain ⟨name,_,rfl⟩ := List.mem_map.mp mem
    exact named _ _
  have tags : (dscpFrag c).countP p = 0 := by
    refine countPlain fun option mem => ?_
    obtain ⟨value,_,rfl⟩ := List.mem_map.mp mem
    exact tagged _
  simp only [List.countP_append,sets,tags,countPlain ports,Nat.zero_add,Nat.add_zero]

theorem sourceCount {pr : PendingRule} {iface pp : List Match} (transport : ∀ option ∈ pp, option.onTransport = true) :
    (setFrag pr.criteria ++ iface ++ addrFrag pr.criteria ++ dscpFrag pr.criteria ++ pp).countP Match.isSource =
      iface.countP Match.isSource + pr.criteria.srcAddr.head?.toList.length := by
  rw [fragmentsCount (fun _ _ => rfl) (fun _ => rfl) fun option mem => (transportPlain (transport option mem)).1,addrFrag]
  cases pr.criteria.srcAddr <;> cases pr.criteria.dstAddr <;> rfl

theorem interfaceCount {pr : PendingRule} {iface pp : List Match} (transport : ∀ option ∈ pp, option.onTransport = true) :
    (setFrag pr.criteria ++ iface ++ addrFrag pr.criteria ++ dscpFrag pr.criteria ++ pp).countP Match.isInterface =
      iface.countP Match.isInterface := by
  rw [fragmentsCount (fun _ _ => rfl) (fun _ => rfl) fun option mem => (transportPlain (transport option mem)).2,addrFrag]
  cases pr.criteria.srcAddr <;> cases pr.criteria.dstAddr <;> rfl

/- The scope is written with a source option of its own and the rule has one too. -/
def clashes (pr : PendingRule) (prefilter : FirewallGlobalPrefilter) : Bool :=
  !pr.output && prefilter.hasInboundInterfaces && !(prefilter.includeSourceCidrs pr.ipv6).isEmpty && !pr.criteria.srcAddr.isEmpty

theorem onceUnlessClash {pr : PendingRule} {prefilter : FirewallGlobalPrefilter} (apart : clashes pr prefilter = false) :
    ∀ options ∈ ruleOptions pr prefilter, once options = true := by
  intro options mem
  obtain ⟨proto,_,pp,ppMem,iface,ifaceMem,rfl⟩ := optionsShape.mp mem
  have transport := fragmentTransport ppMem
  rw [once,Bool.and_eq_true,decide_eq_true_eq,decide_eq_true_eq,sourceCount transport,interfaceCount transport]
  have own : pr.criteria.srcAddr.head?.toList.length ≤ 1 := by
    cases pr.criteria.srcAddr with
    | nil => exact Nat.zero_le 1
    | cons addr rest => exact Nat.le_refl 1
  rcases ifaceShape ifaceMem with rfl | ⟨name,rfl⟩ | ⟨cidr,cidrMem,rfl,listed,restricted⟩
  · exact ⟨(Nat.zero_add _).trans_le own,Nat.zero_le 1⟩
  · exact ⟨(Nat.zero_add _).trans_le own,Nat.le_refl 1⟩
  · have bare : pr.criteria.srcAddr = [] := by
      have some : (prefilter.includeSourceCidrs pr.ipv6).isEmpty = false := List.isEmpty_eq_false_iff.mpr (List.ne_nil_of_mem cidrMem)
      simpa [clashes,listed,restricted,some] using apart
    rw [bare]
    exact ⟨Nat.le_refl 1,Nat.zero_le 1⟩

theorem clashTwice {pr : PendingRule} {prefilter : FirewallGlobalPrefilter} (clash : clashes pr prefilter = true) :
    ∃ options ∈ ruleOptions pr prefilter, options.countP Match.isSource = 2 := by
  simp only [clashes,Bool.and_eq_true,Bool.not_eq_true',List.isEmpty_eq_false_iff] at clash
  obtain ⟨⟨⟨listed,restricted⟩,sourced⟩,own⟩ := clash
  obtain ⟨cidr,cidrMem⟩ := List.exists_mem_of_ne_nil _ sourced
  obtain ⟨addr,rest,shape⟩ := List.exists_cons_of_ne_nil own
  obtain ⟨proto,protoMem⟩ := protosSome pr.criteria
  obtain ⟨pp,ppMem⟩ := fragmentSome proto pr.criteria.srcPort pr.criteria.dstPort pr.criteria.negateSrcPort pr.criteria.negateDstPort
  have ifaceMem : [Match.source false cidr] ∈ ifaceFrags pr prefilter := by
    rw [ifaceFrags,listed,restricted]
    exact List.mem_append.mpr (.inr (List.mem_map.mpr ⟨cidr,cidrMem,rfl⟩))
  refine ⟨_,optionsShape.mpr ⟨proto,protoMem,pp,ppMem,_,ifaceMem,rfl⟩,?_⟩
  rw [sourceCount (fragmentTransport ppMem),shape]
  rfl

end Shape

section Scope
variable {inet : Inet} {sets : KernelSets} {s : Skb}

def ruleGuards (pr : PendingRule) (prefilter : FirewallGlobalPrefilter) : List Line :=
  if pr.output then [] else inboundGuardLines prefilter chainName pr.ipv6

theorem scopeSelects {pr : PendingRule} {prefilter : FirewallGlobalPrefilter} (listed : pr.output = false)
    (family : s.header.ipv6 = pr.ipv6) :
    (!(inboundGuardLines prefilter chainName pr.ipv6).any (fun line => hold inet sets s line.options) &&
      (ifaceFrags pr prefilter).any (hold inet sets s)) = s.header.inScope inet prefilter := by
  unfold inboundGuardLines ifaceFrags Header.inScope FirewallGlobalPrefilter.hasInboundInterfaces
  rw [listed,family]
  cases prefilter.inbound with
  | nil => rfl
  | cons iface more =>
    cases more with
    | nil =>
      cases prefilter.includeSourceCidrs pr.ipv6 with
      | nil => simp [holdOne,Match.holds]
      | cons cidr cidrs => simp [hold,Match.holds,family,Function.comp_def]
    | cons other others => simp [hold,Match.holds,family,Function.comp_def,Bool.or_assoc]

/- Every line of the rule is one iptables takes, and for each of its targets the lines select the
packets of the rule's family that satisfy the criteria inside the scope. -/
def ScopedExactly (inet : Inet) (sets : KernelSets) (prefilter : FirewallGlobalPrefilter) (pr : PendingRule)
    (allowConntrack : Bool) : Prop :=
  (∀ line ∈ buildRuleLines pr prefilter allowConntrack,
    line.options.countP Match.isSource ≤ 1 ∧ line.options.countP Match.isInterface ≤ 1) ∧
  ∀ target ∈ ruleTargets pr prefilter allowConntrack, ∀ s : Skb, s.header.ipv6 = pr.ipv6 →
    ((∀ guard ∈ ruleGuards pr prefilter, hold inet sets s guard.options = false) ∧
      (∃ line ∈ buildRuleLines pr prefilter allowConntrack, line.target = target ∧ hold inet sets s line.options = true) ↔
    pr.criteria.selects inet sets s.header = true ∧ (pr.output = true ∨ s.header.inScope inet prefilter = true))

theorem lineShape {pr : PendingRule} {prefilter : FirewallGlobalPrefilter} {allowConntrack : Bool} {line : Line}
    (mem : line ∈ buildRuleLines pr prefilter allowConntrack) :
    line.options ∈ ruleOptions pr prefilter ∧ line.target ∈ ruleTargets pr prefilter allowConntrack := by
  obtain ⟨options,optionsMem,inner⟩ := List.mem_flatMap.mp mem
  obtain ⟨target,targetMem,rfl⟩ := List.mem_map.mp inner
  exact ⟨optionsMem,targetMem⟩

theorem someLine {pr : PendingRule} {prefilter : FirewallGlobalPrefilter} {allowConntrack : Bool} {options : List Match} {target : Target}
    (optionsMem : options ∈ ruleOptions pr prefilter) (targetMem : target ∈ ruleTargets pr prefilter allowConntrack) :
    ∃ line ∈ buildRuleLines pr prefilter allowConntrack, line.target = target ∧ line.options = options :=
  ⟨_,List.mem_flatMap.mpr ⟨options,optionsMem,List.mem_map.mpr ⟨target,targetMem,rfl⟩⟩,rfl,rfl⟩

theorem targetsSome (pr : PendingRule) (prefilter : FirewallGlobalPrefilter) (allowConntrack : Bool) :
    ∃ target, target ∈ ruleTargets pr prefilter allowConntrack := by
  unfold ruleTargets
  cases pr.action with
  | mark => exact ⟨_,List.mem_append.mpr (.inr (List.mem_singleton_self _))⟩
  | drop | pass => exact ⟨_,List.mem_singleton_self _⟩

theorem anyLine {pr : PendingRule} {prefilter : FirewallGlobalPrefilter} {allowConntrack : Bool} {target : Target}
    (targetMem : target ∈ ruleTargets pr prefilter allowConntrack) :
    (∃ line ∈ buildRuleLines pr prefilter allowConntrack, line.target = target ∧ hold inet sets s line.options = true) ↔
      (ruleOptions pr prefilter).any (hold inet sets s) = true := by
  rw [List.any_eq_true]
  constructor
  · rintro ⟨line,mem,_,holds⟩
    exact ⟨line.options,(lineShape mem).1,holds⟩
  · rintro ⟨options,mem,holds⟩
    obtain ⟨line,lineMem,same,rfl⟩ := someLine mem targetMem
    exact ⟨line,lineMem,same,holds⟩

theorem linesSelect {pr : PendingRule} (single : pr.Single) {prefilter : FirewallGlobalPrefilter} {allowConntrack : Bool} {target : Target}
    (targetMem : target ∈ ruleTargets pr prefilter allowConntrack) (family : s.header.ipv6 = pr.ipv6) :
    ((∀ guard ∈ ruleGuards pr prefilter, hold inet sets s guard.options = false) ∧
      (∃ line ∈ buildRuleLines pr prefilter allowConntrack, line.target = target ∧ hold inet sets s line.options = true) ↔
    pr.criteria.selects inet sets s.header = true ∧ (pr.output = true ∨ s.header.inScope inet prefilter = true)) := by
  rw [anyLine targetMem,optionsSelect single,Bool.and_eq_true]
  cases listed : pr.output with
  | true =>
    have free : ifaceFrags pr prefilter = [[]] := by
      rw [ifaceFrags,listed]
      rfl
    simp [ruleGuards,listed,free]
  | false =>
    rw [ruleGuards,listed,← scopeSelects listed family]
    simp only [Bool.and_eq_true,Bool.not_eq_true',List.any_eq_false,Bool.false_eq_true,if_false,false_or]
    simp only [Bool.not_eq_true]
    tauto

theorem clashUnscoped {prefilter : FirewallGlobalPrefilter} {pr : PendingRule} (clash : clashes pr prefilter = true)
    (allowConntrack : Bool) :
    ¬ ScopedExactly inet sets prefilter pr allowConntrack := by
  rintro ⟨counts,_⟩
  obtain ⟨options,mem,two⟩ := clashTwice clash
  obtain ⟨target,targetMem⟩ := targetsSome pr prefilter allowConntrack
  obtain ⟨line,lineMem,_,rfl⟩ := someLine mem targetMem
  have one := (counts line lineMem).1
  omega

theorem singleFew (addr : Text) : (single addr).length ≤ 1 := by
  unfold single
  split <;> simp

theorem pendingSingle {fwmarkMask : UInt32} {ipv6 : Bool} {action : RuleAction} {fwmark : UInt32} {criteria : FirewallRuleCriteria}
    {outputScope : Bool} {pr : PendingRule} (pending : pr ∈ appendRulesForFamily fwmarkMask ipv6 action fwmark criteria outputScope) :
    pr.Single := by
  unfold appendRulesForFamily at pending
  split at pending
  · cases pending
  · split at pending
    · cases pending
    · obtain ⟨proto,_,inner⟩ := List.mem_flatMap.mp pending
      obtain ⟨src,_,last⟩ := List.mem_flatMap.mp inner
      obtain ⟨dst,_,rfl⟩ := List.mem_map.mp last
      exact ⟨singleFew src,singleFew dst⟩

theorem scopedIff (inet : Inet) (sets : KernelSets) (prefilter : FirewallGlobalPrefilter) (allowConntrack : Bool)
    (fwmarkMask : UInt32) (ipv6 : Bool) (action : RuleAction) (fwmark : UInt32) (criteria : FirewallRuleCriteria) (outputScope : Bool)
    (pr : PendingRule) (pending : pr ∈ appendRulesForFamily fwmarkMask ipv6 action fwmark criteria outputScope) :
    ScopedExactly inet sets prefilter pr allowConntrack ↔
      pr.output = true ∨ prefilter.hasInboundInterfaces = false ∨ prefilter.includeSourceCidrs pr.ipv6 = [] ∨ pr.criteria.srcAddr = [] := by
  have apart : (pr.output = true ∨ prefilter.hasInboundInterfaces = false ∨ prefilter.includeSourceCidrs pr.ipv6 = [] ∨
      pr.criteria.srcAddr = []) ↔ clashes pr prefilter = false := by
    simp only [clashes,Bool.and_eq_false_iff,Bool.not_eq_false',List.isEmpty_iff,or_assoc]
  rw [apart]
  constructor
  · intro exactly
    exact Bool.eq_false_iff.mpr fun clash => clashUnscoped clash allowConntrack exactly
  · intro free
    refine ⟨fun line mem => ?_,fun target mem s family => linesSelect (pendingSingle pending) mem family⟩
    have parsed := onceUnlessClash free line.options (lineShape mem).1
    rw [once,Bool.and_eq_true,decide_eq_true_eq,decide_eq_true_eq] at parsed
    exact parsed

def vpnPrefilter : FirewallGlobalPrefilter :=
  { inboundInterfaces := some ["br0".toList], includeSourceCidrsV4 := ["172.16.3.0/24".toList] }

def emptySets : KernelSets where
  member _ _ := false
  peer _ _ _ _ := false

def clientRule (srcAddr : List Text) : PendingRule :=
  { ipv6 := false, action := .mark, fwmark := 0x10000, fwmarkMask := 0xff0000, criteria := { srcAddr, dstAddr := ["192.0.2.1".toList] } }

theorem poolScoped : clientRule [] ∈ appendRulesForFamily 0xff0000 false .mark 0x10000 { dstAddr := ["192.0.2.1".toList] } false ∧
    ScopedExactly hostInet emptySets vpnPrefilter (clientRule []) true :=
  ⟨by decide,(scopedIff hostInet emptySets vpnPrefilter true 0xff0000 false .mark 0x10000 { dstAddr := ["192.0.2.1".toList] } false
    (clientRule []) (by decide)).mpr (.inr (.inr (.inr rfl)))⟩

theorem clientPoolClashes :
    clientRule ["192.168.1.10".toList] ∈ appendRulesForFamily 0xff0000 false .mark 0x10000
      { srcAddr := ["192.168.1.10".toList], dstAddr := ["192.0.2.1".toList] } false ∧
    (buildRuleLines (clientRule ["192.168.1.10".toList]) vpnPrefilter true).map Line.text =
      ["-A KeenPbrTable -i br0 -s 192.168.1.10 -d 192.0.2.1 -j MARK --set-xmark 0x10000/0xff0000\n",
       "-A KeenPbrTable -i br0 -s 192.168.1.10 -d 192.0.2.1 -j RETURN\n",
       "-A KeenPbrTable -s 172.16.3.0/24 -s 192.168.1.10 -d 192.0.2.1 -j MARK --set-xmark 0x10000/0xff0000\n",
       "-A KeenPbrTable -s 172.16.3.0/24 -s 192.168.1.10 -d 192.0.2.1 -j RETURN\n"] ∧
    ¬ ScopedExactly hostInet emptySets vpnPrefilter (clientRule ["192.168.1.10".toList]) true :=
  ⟨by decide,by decide,clashUnscoped (by decide) true⟩

end Scope

end Iptables

end KeenPbr
