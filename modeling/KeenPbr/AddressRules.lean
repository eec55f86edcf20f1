import KeenPbr.Fields
import KeenPbr.IptablesScope
import KeenPbr.NftablesChain

/-! One address criterion in both backends: iptables writes a rule for every pair of addresses,
nftables one rule with both lists. -/
namespace KeenPbr
open Blocks

section Listed
variable {inet : Inet}

theorem prefixDigits {text : Text} {length : Int} (read : fromCharsInt text = some length) : ':' ∉ text := by
  have digits {rest : Text} (all : rest.all (·.isDigit) = true) : ':' ∉ rest := fun mem =>
    absurd (List.all_eq_true.mp all ':' mem) (by decide)
  unfold fromCharsInt at read
  split at read
  · rename_i rest
    split at read
    · cases read
    · rename_i shape
      simp only [Bool.or_eq_true,not_or,Bool.not_eq_true,Bool.not_eq_false'] at shape
      rw [List.mem_cons,not_or]
      exact ⟨by decide,digits shape.1.2⟩
  · split at read
    · cases read
    · rename_i shape
      simp only [Bool.or_eq_true,not_or,Bool.not_eq_true,Bool.not_eq_false'] at shape
      exact digits shape.1.2

theorem validatedCidr {cidr : Text} (valid : validateCidr inet cidr = .ok ()) :
    ((inet.pton afInet (cString (hostPart cidr))).isSome = true ∨ (inet.pton afInet6 (cString (hostPart cidr))).isSome = true) ∧
    (cidr.dropWhile (· != '/') = [] ∨ ∃ slash digits length, cidr.dropWhile (· != '/') = slash :: digits ∧
      fromCharsInt digits = some length) := by
  unfold validateCidr at valid
  dsimp only at valid
  split at valid
  · cases valid
  · rename_i family
    simp only [Bool.and_eq_true,Bool.not_eq_true',Bool.and_eq_false_iff,not_and_or,Bool.not_eq_false] at family
    refine ⟨?_,?_⟩
    · rcases family with v4 | v6
      · exact .inl v4
      · exact .inr (Bool.eq_true_of_not_eq_false fun none => v6 (.inr none))
    · split at valid
      · rename_i bare
        exact .inl bare
      · rename_i slash digits shape
        split at valid
        · cases valid
        · rename_i length read
          exact .inr ⟨slash,digits,length,shape,read⟩

theorem colonBeforeSlash {cidr : Text} (valid : validateCidr inet cidr = .ok ()) : ':' ∈ cidr ↔ ':' ∈ hostPart cidr := by
  obtain ⟨_,rest⟩ := validatedCidr valid
  have whole : cidr = hostPart cidr ++ cidr.dropWhile (· != '/') := List.takeWhile_append_dropWhile.symm
  have tail : ':' ∉ cidr.dropWhile (· != '/') := by
    rcases rest with none | ⟨slash,digits,length,shape,read⟩
    · rw [none]
      exact List.not_mem_nil
    · rw [shape,(Fields.cutTail shape).1,List.mem_cons,not_or]
      exact ⟨by decide,prefixDigits read⟩
  constructor
  · intro mem
    rw [whole] at mem
    exact (List.mem_append.mp mem).resolve_right tail
  · intro mem
    exact (List.takeWhile_sublist _).mem mem

theorem listedBlock (documented : inet.Documented) {cidr : Text} (valid : validateCidr inet cidr = .ok ()) (clean : '\x00' ∉ cidr) :
    ∃ block, cidrBlock inet (isIpv6Addr cidr) cidr = some block ∧ block.length ≤ addressWidth (isIpv6Addr cidr) := by
  obtain ⟨family,rest⟩ := validatedCidr valid
  have cleanHost : (cString (hostPart cidr)).toList = hostPart cidr := by
    rw [cString,String.toList_ofList,List.takeWhile_eq_self_iff]
    intro c mem
    rw [bne_iff_ne]
    rintro rfl
    exact clean ((List.takeWhile_sublist _).mem mem)
  have bytes : ∃ bytes, inet.pton (familyOf (isIpv6Addr cidr)) (cString (hostPart cidr)) = some bytes ∧
      8 * bytes.length = addressWidth (isIpv6Addr cidr) := by
    rcases family with v4 | v6
    · obtain ⟨bytes,read⟩ := Option.isSome_iff_exists.mp v4
      obtain ⟨size,plain⟩ := documented.v4 _ _ read
      have ipv4 : isIpv6Addr cidr = false := by
        rw [isIpv6Addr,← Bool.not_eq_true,List.contains_iff_mem,colonBeforeSlash valid,← cleanHost]
        exact plain
      rw [ipv4]
      exact ⟨bytes,read,by rw [size]; rfl⟩
    · obtain ⟨bytes,read⟩ := Option.isSome_iff_exists.mp v6
      obtain ⟨size,colon⟩ := documented.v6 _ _ read
      have ipv6 : isIpv6Addr cidr = true := by
        rw [isIpv6Addr,List.contains_iff_mem,colonBeforeSlash valid,← cleanHost]
        exact colon
      rw [ipv6]
      exact ⟨bytes,read,by rw [size]; rfl⟩
  obtain ⟨bytes,read,size⟩ := bytes
  have short (length : Nat) : ((bitsOf bytes).take length).length ≤ addressWidth (isIpv6Addr cidr) := by
    rw [List.length_take,bitsLength,size]
    exact Nat.min_le_right _ _
  unfold cidrBlock
  split
  · rename_i slashed
    rcases rest with none | ⟨slash,digits,length,shape,number⟩
    · have mem : '/' ∈ cidr := List.contains_iff_mem.mp slashed
      have free := List.dropWhile_eq_nil_iff.mp none '/' mem
      exact absurd free (by decide)
    · have found : prefixNumber cidr = some length := by
        rw [prefixNumber,shape]
        exact number
      refine ⟨(bitsOf bytes).take length.toNat,?_,short _⟩
      rw [found]
      exact congrArg (Option.map _) read
  · rename_i bare
    have host : hostPart cidr = cidr := by
      rw [hostPart,List.takeWhile_eq_self_iff]
      intro c mem
      rw [bne_iff_ne]
      rintro rfl
      exact bare (List.contains_iff_mem.mpr mem)
    rw [host] at read
    exact ⟨_,congrArg (Option.map _) read,short _⟩

theorem readListed {value : Option String} {spec : AddrSpec} (read : readAddressSpec inet value = .ok spec) :
    ∀ addr ∈ spec.addrs, addr ≠ [] ∧ validateCidr inet addr = .ok () := by
  unfold readAddressSpec at read
  split at read
  · cases read
    exact nofun
  · dsimp only at read
    split at read
    · cases read
      exact nofun
    · rename_i some_text
      split at read
      · cases read
      · split at read
        · cases read
        · rename_i parsed accepted
          cases read
          obtain ⟨_,listed,valid⟩ := (parsedAddrSpec (Bool.eq_false_iff.mpr some_text)).mp accepted
          intro addr mem
          refine ⟨?_,valid addr mem⟩
          rw [listed] at mem
          simpa using (List.mem_filter.mp mem).2

end Listed

section Sides
variable (inet : Inet) (ipv6 : Bool) (spec : AddrSpec)

def listed : List Text := filterAddrsByFamily spec.addrs ipv6

def inUnion (address : Bits) : Bool := addressSelected inet ipv6 (listed ipv6 spec) spec.negate address

def inSome (address : Bits) : Bool := spec.addrs.isEmpty || (listed ipv6 spec).any fun cidr => inCidr inet ipv6 cidr address != spec.negate

def oneBlock : Bool := !spec.negate || (listed ipv6 spec).all fun a => (listed ipv6 spec).all fun b =>
    cidrBlock inet ipv6 a == cidrBlock inet ipv6 b

def nowhere : Bool := spec.negate && !spec.addrs.isEmpty && (listed ipv6 spec).all fun cidr => cidrBlock inet ipv6 cidr == some []

end Sides

section Agreement
variable {inet : Inet} {ipv6 : Bool} {spec : AddrSpec}

structure Usable (inet : Inet) (ipv6 : Bool) (spec : AddrSpec) : Prop where
  present : FirewallRuleCriteria.unusable spec.addrs ipv6 = false
  block : ∀ cidr ∈ listed ipv6 spec, ∃ block, cidrBlock inet ipv6 cidr = some block ∧ block.length ≤ addressWidth ipv6
  named : ∀ cidr ∈ spec.addrs, cidr ≠ []

theorem listedEmpty (usable : Usable inet ipv6 spec) : (listed ipv6 spec).isEmpty = spec.addrs.isEmpty := by
  have present := usable.present
  rw [FirewallRuleCriteria.unusable] at present
  rw [listed]
  cases shape : spec.addrs with
  | nil => rfl
  | cons addr rest => simpa [shape] using present

theorem unionInSome (usable : Usable inet ipv6 spec) {address : Bits} (union : inUnion inet ipv6 spec address = true) :
    inSome inet ipv6 spec address = true := by
  unfold inUnion addressSelected at union
  unfold inSome
  rw [listedEmpty usable] at union
  cases empty : spec.addrs.isEmpty with
  | true => rfl
  | false =>
    rw [empty,Bool.false_or] at union
    rw [Bool.false_or]
    cases sign : spec.negate with
    | false =>
      rw [sign,Bool.bne_false] at union
      simpa using union
    | true =>
      rw [sign] at union
      obtain ⟨cidr,rest,shape⟩ := List.exists_cons_of_ne_nil (List.isEmpty_eq_false_iff.mp ((listedEmpty usable).trans empty))
      rw [shape] at union ⊢
      simp only [List.any_cons,bne_iff_ne,ne_eq,Bool.not_eq_true,Bool.or_eq_false_iff] at union
      simp [union.1]

theorem someInUnion (usable : Usable inet ipv6 spec) (one : oneBlock inet ipv6 spec = true) {address : Bits}
    (found : inSome inet ipv6 spec address = true) : inUnion inet ipv6 spec address = true := by
  unfold inUnion addressSelected
  unfold inSome at found
  rw [listedEmpty usable]
  cases empty : spec.addrs.isEmpty with
  | true => rfl
  | false =>
    rw [empty,Bool.false_or] at found
    rw [Bool.false_or]
    obtain ⟨cidr,mem,held⟩ := List.any_eq_true.mp found
    cases sign : spec.negate with
    | false =>
      rw [sign,Bool.bne_false] at held
      rw [Bool.bne_false]
      exact List.any_eq_true.mpr ⟨cidr,mem,held⟩
    | true =>
      -- the one block is left, so every entry is left
      rw [sign,Bool.bne_true,Bool.not_eq_true'] at held
      rw [oneBlock,sign,Bool.not_true,Bool.false_or] at one
      rw [Bool.bne_true,Bool.not_eq_true',List.any_eq_false]
      intro other otherMem
      have same : cidrBlock inet ipv6 cidr = cidrBlock inet ipv6 other :=
        eq_of_beq (List.all_eq_true.mp (List.all_eq_true.mp one cidr mem) other otherMem)
      rw [Bool.not_eq_true,inCidr,← same]
      exact held

theorem splitBlocks (usable : Usable inet ipv6 spec) (several : oneBlock inet ipv6 spec = false) :
    ∃ address : Bits, address.length = addressWidth ipv6 ∧ inSome inet ipv6 spec address = true ∧
      inUnion inet ipv6 spec address = false := by
  simp only [oneBlock,Bool.or_eq_false_iff,Bool.not_eq_false'] at several
  obtain ⟨sign,several⟩ := several
  obtain ⟨a,aMem,several⟩ := List.all_eq_false.mp several
  obtain ⟨b,bMem,differ⟩ := List.all_eq_false.mp (Bool.eq_false_iff.mpr several)
  obtain ⟨first,aBlock,aFits⟩ := usable.block a aMem
  obtain ⟨second,bBlock,bFits⟩ := usable.block b bMem
  have apart : first ≠ second := by
    rintro rfl
    rw [aBlock,bBlock] at differ
    exact differ (beq_self_eq_true _)
  obtain ⟨address,size,split⟩ := separated apart aFits bFits
  have empty : spec.addrs.isEmpty = false := by
    rw [← listedEmpty usable]
    exact List.isEmpty_eq_false_iff.mpr (List.ne_nil_of_mem aMem)
  have inA : inCidr inet ipv6 a address = inside first address := by rw [inCidr,aBlock]; rfl
  have inB : inCidr inet ipv6 b address = inside second address := by rw [inCidr,bBlock]; rfl
  refine ⟨address,size,?_,?_⟩
  · rw [inSome,empty,sign,Bool.false_or,List.any_eq_true]
    cases under : inside first address with
    | false => exact ⟨a,aMem,by rw [inA,under]; rfl⟩
    | true =>
      rw [under] at split
      exact ⟨b,bMem,by rw [inB,Bool.eq_false_iff.mpr split.symm]; rfl⟩
  · have held : (listed ipv6 spec).any (inCidr inet ipv6 · address) = true := by
      rw [List.any_eq_true]
      cases under : inside first address with
      | true => exact ⟨a,aMem,inA.trans under⟩
      | false =>
        rw [under] at split
        exact ⟨b,bMem,inB.trans (Bool.eq_true_of_not_eq_false split.symm)⟩
    rw [inUnion,addressSelected,listedEmpty usable,empty,sign,held]
    rfl

theorem someSelected (usable : Usable inet ipv6 spec) (somewhere : nowhere inet ipv6 spec = false) :
    ∃ address : Bits, address.length = addressWidth ipv6 ∧ inSome inet ipv6 spec address = true := by
  cases empty : spec.addrs.isEmpty with
  | true =>
    refine ⟨List.replicate (addressWidth ipv6) false,List.length_replicate,?_⟩
    rw [inSome,empty]
    rfl
  | false =>
    have entries : listed ipv6 spec ≠ [] := List.isEmpty_eq_false_iff.mp ((listedEmpty usable).trans empty)
    cases sign : spec.negate with
    | false =>
      obtain ⟨cidr,mem⟩ := List.exists_mem_of_ne_nil _ entries
      obtain ⟨block,read,fits⟩ := usable.block cidr mem
      refine ⟨pad (addressWidth ipv6) block,padLength fits,?_⟩
      rw [inSome,empty,sign,Bool.false_or,List.any_eq_true]
      refine ⟨cidr,mem,?_⟩
      rw [inCidr,read,Bool.bne_false]
      exact insidePad _ block
    | true =>
      rw [nowhere,sign,empty,Bool.not_false,Bool.and_self,Bool.true_and] at somewhere
      obtain ⟨cidr,mem,part⟩ := List.all_eq_false.mp somewhere
      obtain ⟨block,read,fits⟩ := usable.block cidr mem
      have proper : block ≠ [] := by
        rintro rfl
        exact part (beq_iff_eq.mpr read)
      obtain ⟨address,size,out⟩ := outside proper fits
      refine ⟨address,size,?_⟩
      rw [inSome,empty,sign,Bool.false_or,List.any_eq_true]
      refine ⟨cidr,mem,?_⟩
      rw [inCidr,read]
      change (inside block address != true) = true
      rw [out]
      rfl

theorem nowhereNone (gone : nowhere inet ipv6 spec = true) (address : Bits) : inSome inet ipv6 spec address = false := by
  simp only [nowhere,Bool.and_eq_true,Bool.not_eq_true'] at gone
  obtain ⟨⟨sign,nonempty⟩,whole⟩ := gone
  rw [inSome,nonempty,sign,Bool.false_or,List.any_eq_false]
  intro cidr mem
  have read : cidrBlock inet ipv6 cidr = some [] := eq_of_beq (List.all_eq_true.mp whole cidr mem)
  rw [inCidr,read]
  change ¬ (inside [] address != true) = true
  rw [insideWhole]
  decide

theorem pairIff {src dst : AddrSpec} (srcUsable : Usable inet ipv6 src) (dstUsable : Usable inet ipv6 dst) :
    (∀ x y : Bits, x.length = addressWidth ipv6 → y.length = addressWidth ipv6 →
      (inSome inet ipv6 src x = true ∧ inSome inet ipv6 dst y = true ↔ inUnion inet ipv6 src x = true ∧ inUnion inet ipv6 dst y = true)) ↔
    oneBlock inet ipv6 src = true ∧ oneBlock inet ipv6 dst = true ∨ nowhere inet ipv6 src = true ∨ nowhere inet ipv6 dst = true := by
  constructor
  · intro agree
    by_contra other
    rw [not_or,not_or,Bool.not_eq_true,Bool.not_eq_true,not_and_or,Bool.not_eq_true,Bool.not_eq_true] at other
    obtain ⟨several,srcSomewhere,dstSomewhere⟩ := other
    rcases several with srcSeveral | dstSeveral
    · obtain ⟨x,xSize,xSome,xOut⟩ := splitBlocks srcUsable srcSeveral
      obtain ⟨y,ySize,ySome⟩ := someSelected dstUsable dstSomewhere
      have union := ((agree x y xSize ySize).mp ⟨xSome,ySome⟩).1
      rw [xOut] at union
      cases union
    · obtain ⟨x,xSize,xSome⟩ := someSelected srcUsable srcSomewhere
      obtain ⟨y,ySize,ySome,yOut⟩ := splitBlocks dstUsable dstSeveral
      have union := ((agree x y xSize ySize).mp ⟨xSome,ySome⟩).2
      rw [yOut] at union
      cases union
  · intro condition x y _ _
    constructor
    · rintro ⟨xSome,ySome⟩
      rcases condition with ⟨srcOne,dstOne⟩ | srcNowhere | dstNowhere
      · exact ⟨someInUnion srcUsable srcOne xSome,someInUnion dstUsable dstOne ySome⟩
      · rw [nowhereNone srcNowhere x] at xSome
        cases xSome
      · rw [nowhereNone dstNowhere y] at ySome
        cases ySome
    · rintro ⟨xUnion,yUnion⟩
      exact ⟨unionInSome srcUsable xUnion,unionInSome dstUsable yUnion⟩

end Agreement

section Generated
variable {inet : Inet} {sets : KernelSets} {s : Skb}

def addressCriteria (src dst : AddrSpec) : FirewallRuleCriteria :=
  { srcAddr := src.addrs, negateSrcAddr := src.negate, dstAddr := dst.addrs, negateDstAddr := dst.negate }

def Iptables.Selected (inet : Inet) (sets : KernelSets) (rules : List Iptables.PendingRule) (s : Skb) : Prop :=
  ∃ pr ∈ rules, ∃ line ∈ Iptables.buildRuleLines pr {} true, Iptables.hold inet sets s line.options = true

theorem addrListSelects {ipv6 : Bool} {spec : AddrSpec} (usable : Usable inet ipv6 spec) (address : Bits) :
    (∃ addr ∈ Iptables.addrList spec.addrs ipv6, addressSelected inet ipv6 (Iptables.single addr) spec.negate address = true) ↔
      inSome inet ipv6 spec address = true := by
  unfold Iptables.addrList inSome
  cases empty : spec.addrs.isEmpty with
  | true => simp [Iptables.single,addressSelected]
  | false =>
    rw [if_neg Bool.false_ne_true,Bool.false_or,List.any_eq_true]
    refine exists_congr fun addr => and_congr_right fun mem => ?_
    have named : addr.isEmpty = false := List.isEmpty_eq_false_iff.mpr (usable.named addr (List.mem_filter.mp mem).1)
    rw [Iptables.single,named,if_neg Bool.false_ne_true]
    simp [addressSelected]

theorem unscopedLines (pr : Iptables.PendingRule) :
    (∃ line ∈ Iptables.buildRuleLines pr {} true, Iptables.hold inet sets s line.options = true) ↔
      (Iptables.ruleOptions pr {}).any (Iptables.hold inet sets s) = true := by
  constructor
  · rintro ⟨line,mem,holds⟩
    exact (Iptables.anyLine (Iptables.lineShape mem).2).mp ⟨line,mem,rfl,holds⟩
  · intro selected
    obtain ⟨target,targetMem⟩ := Iptables.targetsSome pr {} true
    obtain ⟨line,mem,_,holds⟩ := (Iptables.anyLine targetMem).mpr selected
    exact ⟨line,mem,holds⟩

theorem iptablesAddresses {ipv6 : Bool} {src dst : AddrSpec} (srcUsable : Usable inet ipv6 src) (dstUsable : Usable inet ipv6 dst)
    (family : s.header.ipv6 = ipv6) (fwmarkMask fwmark : UInt32) (action : RuleAction) :
    Iptables.Selected inet sets (Iptables.appendRulesForFamily fwmarkMask ipv6 action fwmark (addressCriteria src dst) false) s ↔
      inSome inet ipv6 src s.header.src = true ∧ inSome inet ipv6 dst s.header.dst = true := by
  have pending : Iptables.appendRulesForFamily fwmarkMask ipv6 action fwmark (addressCriteria src dst) false =
      (Iptables.addrList src.addrs ipv6).flatMap fun srcAddr => (Iptables.addrList dst.addrs ipv6).map fun dstAddr =>
        Iptables.pendingRule ipv6 action fwmark fwmarkMask (addressCriteria src dst) false .any srcAddr dstAddr := by
    have srcPresent := srcUsable.present
    have dstPresent := dstUsable.present
    rw [Iptables.appendRulesForFamily,if_neg (by rintro ⟨other,_⟩; exact other rfl)]
    change (if FirewallRuleCriteria.unusable src.addrs ipv6 || FirewallRuleCriteria.unusable dst.addrs ipv6 then _ else _) = _
    rw [srcPresent,dstPresent]
    exact List.flatMap_singleton _ L4Proto.any
  have each (srcAddr dstAddr : Text) : (∃ line ∈ Iptables.buildRuleLines
      (Iptables.pendingRule ipv6 action fwmark fwmarkMask (addressCriteria src dst) false .any srcAddr dstAddr) {} true,
        Iptables.hold inet sets s line.options = true) ↔
      addressSelected inet ipv6 (Iptables.single srcAddr) src.negate s.header.src = true ∧
        addressSelected inet ipv6 (Iptables.single dstAddr) dst.negate s.header.dst = true := by
    rw [unscopedLines,Iptables.optionsSelect ⟨Iptables.singleFew srcAddr,Iptables.singleFew dstAddr⟩,FirewallRuleCriteria.selects,family]
    change (((((((true && addressSelected inet ipv6 (Iptables.single srcAddr) src.negate s.header.src) &&
      addressSelected inet ipv6 (Iptables.single dstAddr) dst.negate s.header.dst) && true) && true) && true) && true) && true) = true ↔ _
    simp only [Bool.true_and,Bool.and_true,Bool.and_eq_true]
  rw [Iptables.Selected,pending,← addrListSelects srcUsable,← addrListSelects dstUsable]
  constructor
  · rintro ⟨pr,mem,selected⟩
    obtain ⟨srcAddr,srcMem,inner⟩ := List.mem_flatMap.mp mem
    obtain ⟨dstAddr,dstMem,rfl⟩ := List.mem_map.mp inner
    obtain ⟨srcHeld,dstHeld⟩ := (each srcAddr dstAddr).mp selected
    exact ⟨⟨srcAddr,srcMem,srcHeld⟩,dstAddr,dstMem,dstHeld⟩
  · rintro ⟨⟨srcAddr,srcMem,srcHeld⟩,dstAddr,dstMem,dstHeld⟩
    exact ⟨_,List.mem_flatMap.mpr ⟨srcAddr,srcMem,List.mem_map.mpr ⟨dstAddr,dstMem,rfl⟩⟩,(each srcAddr dstAddr).mpr ⟨srcHeld,dstHeld⟩⟩

theorem listedOrEmpty (ipv6 : Bool) (spec : AddrSpec) :
    (if spec.addrs.isEmpty then spec.addrs else filterAddrsByFamily spec.addrs ipv6) = listed ipv6 spec := by
  unfold listed
  cases shape : spec.addrs with
  | nil => rfl
  | cons addr rest => rfl

theorem nftAddresses (documented : inet.Documented) {ipv6 ipv6Enabled : Bool} (enabled : ipv6 = true → ipv6Enabled = true)
    {src dst : AddrSpec}
    (srcUsable : Usable inet ipv6 src) (dstUsable : Usable inet ipv6 dst) (fwmarkMask fwmark : UInt32) (action : RuleAction) :
    ∃ rule, Nftables.appendRulesForFamily ipv6Enabled fwmarkMask (familyOf ipv6) action fwmark (addressCriteria src dst) false = [rule] ∧
      ∀ (sets : KernelSets) (s : Skb), s.header.ipv6 = ipv6 →
        ((Nftables.conditions rule).all (Nftables.Match.holds inet sets s) = true ↔
          inUnion inet ipv6 src s.header.src = true ∧ inUnion inet ipv6 dst s.header.dst = true) := by
  refine ⟨Nftables.pendingRule (familyOf ipv6) action fwmark fwmarkMask (addressCriteria src dst) false .any,?_,?_⟩
  · have present : ¬ (familyOf ipv6 = afInet6 ∧ ipv6Enabled = false) := by
      rintro ⟨six,off⟩
      have on := enabled (by rw [← familyOfIpv6 ipv6]; exact beq_iff_eq.mpr six)
      rw [off] at on
      cases on
    rw [Nftables.appendRulesForFamily,if_neg (by rintro ⟨other,_⟩; exact other rfl),if_neg present,familyOfIpv6]
    change (if FirewallRuleCriteria.unusable src.addrs ipv6 || FirewallRuleCriteria.unusable dst.addrs ipv6 then _ else _) = _
    rw [srcUsable.present,dstUsable.present]
    rfl
  · intro sets s family
    have selected : Nftables.headerSelected inet sets ipv6
        (Nftables.pendingRule (familyOf ipv6) action fwmark fwmarkMask (addressCriteria src dst) false .any).criteria s.header =
        (inUnion inet ipv6 src s.header.src && inUnion inet ipv6 dst s.header.dst) := by
      change (true && addressSelected inet ipv6 (if src.addrs.isEmpty then src.addrs
        else filterAddrsByFamily src.addrs (familyOf ipv6 == afInet6))
        src.negate s.header.src && addressSelected inet ipv6 (if dst.addrs.isEmpty then dst.addrs else
          filterAddrsByFamily dst.addrs (familyOf ipv6 == afInet6)) dst.negate s.header.dst && true) = _
      rw [familyOfIpv6,listedOrEmpty,listedOrEmpty,Bool.and_true,Bool.true_and]
      rfl
    have ports (criteria : FirewallRuleCriteria) (any : criteria.proto = .any) (srcPort : criteria.srcPort = {})
      (dstPort : criteria.dstPort = {}) :
        Nftables.portsSelected criteria s.header = true := by
      rw [Nftables.portsSelected,any,srcPort,dstPort]
      rfl
    have unported := ports (Nftables.pendingRule (familyOf ipv6) action fwmark fwmarkMask
      (addressCriteria src dst) false .any).criteria rfl rfl rfl
    unfold Nftables.conditions
    split
    · rw [Nftables.markConditions documented]
      change ((_ || s.header.ipv6 == (familyOf ipv6 == afInet6)) &&
        (Nftables.headerSelected inet sets (familyOf ipv6 == afInet6) _ _ && _)) = true ↔ _
      rw [familyOfIpv6,family,beq_self_eq_true,Bool.or_true,Bool.true_and,selected,unported,Bool.or_true,Bool.and_true,Bool.and_eq_true]
    · rw [Nftables.verdictConditions documented]
      change ((_ || s.header.ipv6 == (familyOf ipv6 == afInet6)) &&
        (Nftables.headerSelected inet sets (familyOf ipv6 == afInet6) _ _ && _)) = true ↔ _
      rw [familyOfIpv6,family,beq_self_eq_true,Bool.or_true,Bool.true_and,selected,unported,Bool.and_true,Bool.and_eq_true]

/- Both backends select the packets of the family whose addresses lie in the unions. -/
def AddressesSelected (inet : Inet) (ipv6 ipv6Enabled : Bool) (fwmarkMask fwmark : UInt32) (action : RuleAction)
    (src dst : AddrSpec) : Prop :=
  ∃ rule, Nftables.appendRulesForFamily ipv6Enabled fwmarkMask (familyOf ipv6) action fwmark (addressCriteria src dst) false = [rule] ∧
    ∀ (sets : KernelSets) (s : Skb), s.header.ipv6 = ipv6 →
      (Iptables.Selected inet sets (Iptables.appendRulesForFamily fwmarkMask ipv6 action fwmark (addressCriteria src dst) false) s ↔
        inUnion inet ipv6 src s.header.src = true ∧ inUnion inet ipv6 dst s.header.dst = true) ∧
      ((Nftables.conditions rule).all (Nftables.Match.holds inet sets s) = true ↔
        inUnion inet ipv6 src s.header.src = true ∧ inUnion inet ipv6 dst s.header.dst = true)

theorem readUsable (documented : inet.Documented) {value : Option String} {spec : AddrSpec} (read : readAddressSpec inet value = .ok spec)
    (clean : ∀ addr ∈ spec.addrs, '\x00' ∉ addr) {ipv6 : Bool} (present : FirewallRuleCriteria.unusable spec.addrs ipv6 = false) :
    Usable inet ipv6 spec where
  present := present
  block := by
    intro cidr mem
    obtain ⟨listedMem,family⟩ := List.mem_filter.mp mem
    rw [beq_iff_eq] at family
    rw [← family]
    exact listedBlock documented (readListed read cidr listedMem).2 (clean cidr listedMem)
  named := fun cidr mem => (readListed read cidr mem).1

theorem selectedIff {ipv6 ipv6Enabled : Bool} {fwmarkMask fwmark : UInt32} {action : RuleAction} {src dst : AddrSpec}
    (documented : inet.Documented) (enabled : ipv6 = true → ipv6Enabled = true) (srcUsable : Usable inet ipv6 src)
    (dstUsable : Usable inet ipv6 dst) :
    AddressesSelected inet ipv6 ipv6Enabled fwmarkMask fwmark action src dst ↔
      ∀ x y : Bits, x.length = addressWidth ipv6 → y.length = addressWidth ipv6 →
        (inSome inet ipv6 src x = true ∧ inSome inet ipv6 dst y = true ↔ inUnion inet ipv6 src x = true ∧
          inUnion inet ipv6 dst y = true) := by
  constructor
  · rintro ⟨rule,_,every⟩ x y xSize ySize
    -- a packet between the two addresses
    have packet := (every ⟨fun _ _ => false,fun _ _ _ _ => false⟩
      { header := { ipv6, iif := [], src := x, dst := y, l4proto := ipprotoTcp, srcWidth := xSize, dstWidth := ySize },
        mark := 0, ctMark := 0 } rfl).1
    rw [iptablesAddresses srcUsable dstUsable rfl] at packet
    exact packet
  · intro agree
    obtain ⟨rule,one,selects⟩ := nftAddresses documented enabled srcUsable dstUsable fwmarkMask fwmark action
    refine ⟨rule,one,fun sets s family => ⟨?_,selects sets s family⟩⟩
    rw [iptablesAddresses srcUsable dstUsable family]
    exact agree s.header.src s.header.dst (by rw [s.header.srcWidth,family]) (by rw [s.header.dstWidth,family])

theorem addressesSelectedIff (inet : Inet) (documented : inet.Documented) (srcText dstText : Option String) (src dst : AddrSpec)
    (srcRead : readAddressSpec inet srcText = .ok src) (dstRead : readAddressSpec inet dstText = .ok dst)
    (srcClean : ∀ addr ∈ src.addrs, '\x00' ∉ addr) (dstClean : ∀ addr ∈ dst.addrs, '\x00' ∉ addr)
    (ipv6 ipv6Enabled : Bool) (enabled : ipv6 = true → ipv6Enabled = true)
    (srcPresent : FirewallRuleCriteria.unusable src.addrs ipv6 = false) (dstPresent : FirewallRuleCriteria.unusable dst.addrs ipv6 = false)
    (fwmarkMask fwmark : UInt32) (action : RuleAction) :
    AddressesSelected inet ipv6 ipv6Enabled fwmarkMask fwmark action src dst ↔
      oneBlock inet ipv6 src = true ∧ oneBlock inet ipv6 dst = true ∨ nowhere inet ipv6 src = true ∨ nowhere inet ipv6 dst = true := by
  have srcUsable := readUsable documented srcRead srcClean srcPresent
  have dstUsable := readUsable documented dstRead dstClean dstPresent
  rw [selectedIff documented enabled srcUsable dstUsable,pairIff srcUsable dstUsable]

/- inet_pton on two hosts of one documentation network. -/
def pairInet : Inet where
  pton family address :=
    if family = afInet ∧ address = "192.0.2.1" then some [192,0,2,1]
    else if family = afInet ∧ address = "192.0.2.2" then some [192,0,2,2]
    else none
  ntop _ _ := none

theorem pairDocumented : pairInet.Documented where
  v4 := by
    intro text bytes read
    simp only [pairInet,true_and] at read
    split at read
    · rename_i same
      cases read
      rw [same]
      decide
    · split at read
      · rename_i same
        cases read
        rw [same]
        decide
      · cases read
  v6 := by
    intro text bytes read
    simp [pairInet,afInet,afInet6] at read

theorem oneHostSelected : readAddressSpec pairInet (some "!192.0.2.1,192.0.2.1/32") =
      .ok { addrs := ["192.0.2.1".toList,"192.0.2.1/32".toList], negate := true } ∧
    AddressesSelected pairInet false true 0xff0000 0x10000 .mark { addrs := ["192.0.2.1".toList,"192.0.2.1/32".toList], negate := true }
      { addrs := ["192.0.2.2".toList] } :=
  ⟨by decide,(addressesSelectedIff pairInet pairDocumented (some "!192.0.2.1,192.0.2.1/32") (some "192.0.2.2") _ _ (by decide)
    (by decide) (by decide) (by decide) false true (fun _ => rfl) (by decide) (by decide)
    0xff0000 0x10000 .mark).mpr (.inl (by decide))⟩

/- Each of the two rules lets the other host through. -/
theorem twoHostsNegated : readAddressSpec pairInet (some "!192.0.2.1,192.0.2.2") =
      .ok { addrs := ["192.0.2.1".toList,"192.0.2.2".toList], negate := true } ∧ readAddressSpec pairInet none = .ok {} ∧
    ¬ AddressesSelected pairInet false true 0xff0000 0x10000 .mark
      { addrs := ["192.0.2.1".toList,"192.0.2.2".toList], negate := true } {} := by
  have srcRead : readAddressSpec pairInet (some "!192.0.2.1,192.0.2.2") =
      .ok { addrs := ["192.0.2.1".toList,"192.0.2.2".toList], negate := true } := by decide
  have dstRead : readAddressSpec pairInet none = .ok {} := rfl
  have src : Usable pairInet false _ := readUsable pairDocumented srcRead (by decide) (by decide)
  have dst : Usable pairInet false _ := readUsable pairDocumented dstRead (by decide) (by decide)
  refine ⟨srcRead,dstRead,fun selected => ?_⟩
  have condition := (pairIff src dst).mp ((selectedIff pairDocumented (fun _ => rfl) src dst).mp selected)
  revert condition
  decide

end Generated

end KeenPbr
