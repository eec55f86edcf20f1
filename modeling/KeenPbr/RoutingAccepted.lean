import KeenPbr.EffectiveOutbound
import KeenPbr.FreshTransaction
import KeenPbr.FwmarkMasks

/-! A plan from an accepted configuration handed to build_plan on an empty inventory. The
validator takes every address inet_pton reads, the transaction only the spelling inet_ntop
writes; the planner counts metrics that the kernel's slots do not tell apart. -/
namespace KeenPbr

section Request
variable (input : PlanInput)

def tableAuthorities : List RuntimeRoutingExternalTableAuthority :=
  (input.outbounds.filter fun ob => ob.type == .table).flatMap fun ob =>
    (families.filter input.familyEnabled).map fun family => { table := toUint32 (ob.table.getD 0), family }

def planRequest (identity : RuntimeRoutingTransactionIdentity) (entries : List PlannedOutbound) :
    RuntimeRoutingTransactionRequest :=
  { identity, desiredRoutes := (joinEntries entries).routes, desiredRules := (joinEntries entries).rules,
    authorizedExternalTables := tableAuthorities input }

/- What the configuration leaves open and the transaction asks for. -/
structure Applicable (inet : Inet) : Prop where
  gateways : ∀ ob ∈ input.outbounds, ob.type = .interface → ∀ family ∈ families, input.usable ob family = true →
    ∀ gateway, ob.gatewayFor family = some gateway → canonicalAddressForFamily inet gateway family = true
  tables : ∀ ob ∈ input.outbounds, ob.type = .table → toUint32 (ob.table.getD 0) ≠ 0
  metrics : ∀ ob ∈ input.outbounds, ob.type = .urltest → groupFits input ob
  ipv6 : ∀ ob ∈ input.outbounds, ob.type = .urltest →
    (resolveUrltestSelection input.selections ob.tag).isEmpty = false → ∀ child fallback, groupPrimary input ob = some child →
      input.usable child afInet6 = true → (groupFallbacks input ob)[1023]? = some fallback →
        input.usable fallback afInet6 = false

theorem enabledFamily {ob : Outbound} {family : Int} (usable : input.usable ob family = true) :
    input.familyEnabled family = true := (Bool.and_eq_true_iff.mp usable).2

theorem ipv4Enabled : input.familyEnabled afInet = true := by
  simp [PlanInput.familyEnabled,afInet,afInet6]

theorem generatedFree {tableId : UInt32} (free : isReservedTable tableId = false) (spec : RouteSpec)
    (table : spec.table = tableId) (protocol : spec.protocol = keenPbrGeneratedRouteProtocol) :
    isGeneratedRouteCandidate (dumpedRouteFromSpec spec) = true := by
  rw [freeIff] at free
  simp only [isGeneratedRouteCandidate,dumpedRouteFromSpec,table,protocol,beq_self_eq_true,Bool.true_and,Bool.and_eq_true,
    Bool.or_eq_true,bne_iff_ne,ne_eq,decide_eq_true_eq,← UInt32.toNat_inj,UInt32.lt_iff_toNat_lt,gt_iff_lt,UInt32.reduceToNat]
  omega

variable {inet : Inet}

theorem memberDefaultChecked {tableId metric : UInt32} {ob : Outbound} {family : Int} (known : family ∈ families)
    (free : isReservedTable tableId = false) (named : ob.interface.getD "" ≠ "") :
    checkCandidateRoute inet (memberDefault tableId metric ob family) = .ok () ↔
      ∀ gateway, ob.gatewayFor family = some gateway → canonicalAddressForFamily inet gateway family = true := by
  have generated := generatedFree free (memberDefault tableId metric ob family) rfl rfl
  have explicit : (family != afInet && family != afInet6) = false := by
    cases memFamilies.mp known with
    | inl four => simp [four]
    | inr six => simp [six]
  unfold checkCandidateRoute
  cases gateway : ob.gatewayFor family with
  | none => simp [memberDefault,defaultVia,explicit,named,gateway] at generated ⊢; exact generated
  | some address =>
    cases canonical : canonicalAddressForFamily inet address family with
    | true => simp [memberDefault,defaultVia,explicit,named,gateway,canonical] at generated ⊢; exact generated
    | false => simp [memberDefault,defaultVia,explicit,named,gateway,canonical]

theorem closingChecked {tableId : UInt32} {family : Int} (known : family ∈ families) (free : isReservedTable tableId = false) :
    checkCandidateRoute inet (unreachableDefault tableId kUnreachableRouteMetric family) = .ok () := by
  have generated := generatedFree free (unreachableDefault tableId kUnreachableRouteMetric family) rfl rfl
  have explicit : (family != afInet && family != afInet6) = false := by
    cases memFamilies.mp known with
    | inl four => simp [four]
    | inr six => simp [six]
  unfold checkCandidateRoute
  simp [unreachableDefault,explicit] at generated ⊢
  exact generated

theorem interfaceNamed {outbounds : List Outbound} {ob : Outbound} (type : ob.type = .interface)
    (clean : outboundIssues inet outbounds ob = []) : ob.interface.getD "" ≠ "" := by
  intro empty
  unfold outboundIssues at clean
  simp only [type,List.append_eq_nil_iff,beq_self_eq_true,if_true] at clean
  have own := clean.1.2
  unfold interfaceIssues at own
  simp only [List.append_eq_nil_iff] at own
  have trimmed : (trimCopy (ob.interface.getD "")).isEmpty = true := by rw [empty]; decide
  have named := own.1.1
  rw [trimmed,if_pos rfl] at named
  exact oneIssueNotNil _ _ _ _ named

end Request

theorem memConcreteRules {rules : List RuleSpec} {rule : RuleSpec} (mem : rule ∈ concreteRules rules) :
    ∃ logical ∈ rules, rule ∈ concreteRules [logical] := by
  have push : ∀ (concrete : List RuleSpec) (value : RuleSpec),
      rule ∈ (if concrete.any (fun candidate => sameRuleTuple candidate value) then concrete else concrete ++ [value]) →
        rule ∈ concrete ∨ rule = value := by
    intro concrete value mem
    split at mem
    · exact Or.inl mem
    · simpa using mem
  have fold : ∀ (rules : List RuleSpec) (concrete : List RuleSpec),
      rule ∈ rules.foldl (fun concrete logical =>
        if logical.family == 0 then
          (fun concrete value => if concrete.any (fun candidate => sameRuleTuple candidate value) then concrete
            else concrete ++ [value])
            ((fun concrete value => if concrete.any (fun candidate => sameRuleTuple candidate value) then concrete
              else concrete ++ [value]) concrete { logical with family := afInet }) { logical with family := afInet6 }
        else (fun concrete value => if concrete.any (fun candidate => sameRuleTuple candidate value) then concrete
          else concrete ++ [value]) concrete logical) concrete →
      rule ∈ concrete ∨ ∃ logical ∈ rules, rule ∈ concreteRules [logical] := by
    intro rules
    induction rules with
    | nil =>
      intro concrete mem
      exact Or.inl mem
    | cons logical rest ih =>
      intro concrete mem
      rw [List.foldl_cons] at mem
      cases ih _ mem with
      | inr later =>
        obtain ⟨other,listed,mem⟩ := later
        exact Or.inr ⟨other,List.mem_cons_of_mem logical listed,mem⟩
      | inl here =>
        have own : rule ∈ concrete ∨ rule ∈ concreteRules [logical] := by
          by_cases both : logical.family = 0
          · rw [if_pos (by simp [both])] at here
            rw [concreteBoth both,List.mem_cons,List.mem_singleton]
            cases push _ _ here with
            | inr six => exact Or.inr (Or.inr six)
            | inl before =>
              cases push _ _ before with
              | inl before => exact Or.inl before
              | inr four => exact Or.inr (Or.inl four)
          · rw [if_neg (by simp [both])] at here
            rw [concreteSingle both,List.mem_singleton]
            exact push _ _ here
        cases own with
        | inl before => exact Or.inl before
        | inr mem => exact Or.inr ⟨logical,List.mem_cons_self,mem⟩
  cases fold rules [] mem with
  | inl none => cases none
  | inr found => exact found

section Accepted
variable {inet : Inet} {input : PlanInput} {entries : List PlannedOutbound}

theorem PlannedFrom.ofOutbound (from_config : PlannedFrom inet input entries) {ob : Outbound} (listed : ob ∈ input.outbounds)
    (routable : ob.routable = true) : ∃ mask offset, plannedOutbound input mask ob offset ∈ entries := by
  apply plannedOf input from_config.planned listed
  have marked := (allocateMarks from_config.allocated).1 ob listed routable
  simp [PlanInput.tabled,routable,marked]

theorem applicableOfAccepted (from_config : PlannedFrom inet input entries) {identity : RuntimeRoutingTransactionIdentity}
    (accepted : FreshAccepted inet (planRequest input identity entries)) : Applicable input inet := by
  refine ⟨?_,?_,?_,?_⟩
  · intro ob listed type family known usable
    obtain ⟨mask,offset,mem⟩ := from_config.ofOutbound listed (by simp [Outbound.routable,type])
    have any := usableAnyOf input known usable
    have route : memberDefault (safeTableId input.cfg.tableStartValue offset) 0 ob family ∈
        (plannedOutbound input mask ob offset).routes := by
      unfold plannedOutbound planOutbound
      simp only [type,interfaceRoutes,usableReachable input any,if_true]
      apply List.mem_append_left
      exact List.mem_append_left _ ((memUsableDefaults input).mpr ⟨family,known,usable,rfl⟩)
    have named := interfaceNamed type ((acceptedConfig from_config.accepted).outbounds ob listed)
    exact (memberDefaultChecked known (safeTableIdFree _ _) named).mp (accepted.routes _ (memJoined.mpr ⟨_,mem,route⟩))
  · intro ob listed type zero
    have authority : (⟨toUint32 (ob.table.getD 0),afInet⟩ : RuntimeRoutingExternalTableAuthority) ∈ tableAuthorities input := by
      apply List.mem_flatMap.mpr
      refine ⟨ob,List.mem_filter.mpr ⟨listed,by simp [type]⟩,List.mem_map.mpr ⟨afInet,?_,rfl⟩⟩
      exact List.mem_filter.mpr ⟨by decide,ipv4Enabled input⟩
    have checked := accepted.authorities _ authority
    simp [checkAuthority,zero] at checked
  · intro ob listed type
    by_contra crowded
    obtain ⟨mask,offset,mem⟩ := from_config.ofOutbound listed (by simp [Outbound.routable,type])
    obtain ⟨route,inTable,table,default,metric⟩ := crowdedGroup input (safeTableId input.cfg.tableStartValue offset) crowded
    cases (memUrltestRoutes input).mp inTable with
    | inr closing =>
      rw [killSwitchNotUsable input closing] at default
      cases default
    | inl owned =>
      obtain ⟨member,_,own⟩ := owned
      obtain ⟨family,known,usable,rfl⟩ := (memUsableDefaults input).mp own
      have routeMem : memberDefault (safeTableId input.cfg.tableStartValue offset) member.2 member.1 family ∈
          (plannedOutbound input mask ob offset).routes := by
        unfold plannedOutbound planOutbound
        simpa only [type] using inTable
      have promised : closedOutbound input ob = true := by simp [closedOutbound,type]
      have closing := closedHolds input mask offset promised known (enabledFamily input usable)
      rw [(plannedOutboundOf input mask ob offset).2] at closing
      have metric : member.2 = kUnreachableRouteMetric := metric
      have same := accepted.slots _ (memJoined.mpr ⟨_,mem,routeMem⟩) _ (memJoined.mpr ⟨_,mem,closing⟩)
        (by simp [RouteSpec.slot,memberDefault,defaultVia,unreachableDefault,metric])
      have unreachable := congrArg RouteSpec.unreachable same
      cases unreachable
  · intro ob listed type chosen child fallback primary usable found
    cases six : input.usable fallback afInet6 with
    | false => rfl
    | true =>
      obtain ⟨mask,offset,mem⟩ := from_config.ofOutbound listed (by simp [Outbound.routable,type])
      have known : afInet6 ∈ families := by decide
      have selected : selectedInterface input ob = some child := (Option.filter_eq_some_iff.mp primary).1
      have first := primaryRouteMem input mask offset type chosen selected known usable
      have later := fallbackRouteMem input mask offset type chosen found known six
      have same := accepted.slots _ (memJoined.mpr ⟨_,mem,first⟩) _ (memJoined.mpr ⟨_,mem,later⟩) rfl
      have metric : (0 : UInt32) = 1 + UInt32.ofNat 1023 := congrArg RouteSpec.metric same
      exact absurd metric (by decide)

/- Members whose kernel metrics tell them apart and stay off the closing one. -/
structure MembersApart (input : PlanInput) (members : List (Outbound × UInt32)) : Prop where
  distinct : ∀ a ∈ members, ∀ b ∈ members, ∀ family, input.usable a.1 family = true → input.usable b.1 family = true →
    exactRouteKernelMetric a.2 family = exactRouteKernelMetric b.2 family → a = b
  below : ∀ a ∈ members, ∀ family, exactRouteKernelMetric a.2 family ≠ kUnreachableRouteMetric

theorem membersSlots {members : List (Outbound × UInt32)} (apart : MembersApart input members) {tableId : UInt32}
    {routes : List RouteSpec} (owned : ∀ route ∈ routes,
      (∃ member ∈ members, route ∈ usableDefaults input tableId member.2 member.1) ∨ route ∈ killSwitch input tableId) :
    SlotsAgree routes := by
  have closingMetric : ∀ family, exactRouteKernelMetric kUnreachableRouteMetric family = kUnreachableRouteMetric := by
    intro family
    have nonzero : (kUnreachableRouteMetric == 0) = false := rfl
    simp [exactRouteKernelMetric,nonzero]
  intro a memA b memB slot
  cases owned a memA with
  | inl ownedA =>
    obtain ⟨member,listed,default⟩ := ownedA
    obtain ⟨family,_,usable,rfl⟩ := (memUsableDefaults input).mp default
    cases owned b memB with
    | inl ownedB =>
      obtain ⟨other,otherListed,otherDefault⟩ := ownedB
      obtain ⟨otherFamily,_,otherUsable,rfl⟩ := (memUsableDefaults input).mp otherDefault
      simp only [RouteSpec.slot,memberDefault,defaultVia,Slot.mk.injEq,true_and] at slot
      obtain ⟨sameFamily,metric⟩ := slot
      subst sameFamily
      rw [apart.distinct member listed other otherListed family usable otherUsable metric]
    | inr closing =>
      obtain ⟨otherFamily,_,_,rfl⟩ := (memKillSwitch input).mp closing
      simp only [RouteSpec.slot,memberDefault,defaultVia,unreachableDefault,Slot.mk.injEq,true_and,closingMetric] at slot
      exact absurd slot.2 (apart.below member listed family)
  | inr closingA =>
    obtain ⟨family,_,_,rfl⟩ := (memKillSwitch input).mp closingA
    cases owned b memB with
    | inl ownedB =>
      obtain ⟨other,otherListed,otherDefault⟩ := ownedB
      obtain ⟨otherFamily,_,otherUsable,rfl⟩ := (memUsableDefaults input).mp otherDefault
      simp only [RouteSpec.slot,memberDefault,defaultVia,unreachableDefault,Slot.mk.injEq,true_and,closingMetric] at slot
      exact absurd slot.2.symm (apart.below other otherListed otherFamily)
    | inr closing =>
      obtain ⟨otherFamily,_,_,rfl⟩ := (memKillSwitch input).mp closing
      simp only [RouteSpec.slot,unreachableDefault,Slot.mk.injEq,true_and] at slot
      rw [slot.1]

theorem interfaceApart (ob : Outbound) : MembersApart input [(ob,0)] := by
  refine ⟨?_,?_⟩
  · intro a memA b memB _ _ _ _
    rw [List.mem_singleton.mp memA,List.mem_singleton.mp memB]
  · intro a mem family
    cases List.mem_singleton.mp mem
    unfold exactRouteKernelMetric
    split
    · exact (by decide : (1024 : UInt32) ≠ kUnreachableRouteMetric)
    · exact (by decide : (0 : UInt32) ≠ kUnreachableRouteMetric)

theorem groupNumbers {ob : Outbound} (fits : groupFits input ob) {member : Outbound × UInt32}
    (mem : member ∈ groupMembers input ob) :
    (groupPrimary input ob = some member.1 ∧ member.2 = 0) ∨
      ∃ i : Nat, (groupFallbacks input ob)[i]? = some member.1 ∧ member.2.toNat = 1 + i ∧ i < 65534 := by
  unfold groupMembers at mem
  split at mem
  · cases mem
  · rename_i chosen
    rw [List.mem_append] at mem
    cases mem with
    | inl primary =>
      obtain ⟨child,own,rfl⟩ := List.mem_map.mp primary
      exact Or.inl ⟨Option.mem_toList.mp own,rfl⟩
    | inr fallback =>
      obtain ⟨i,at_i,number⟩ := memNumbered.mp fallback
      have inside := (List.getElem?_eq_some_iff.mp at_i).1
      have bound := fits (by simpa using chosen)
      refine Or.inr ⟨i,at_i,?_,by omega⟩
      rw [number,UInt32.toNat_add,UInt32.toNat_ofNat']
      simp only [UInt32.reduceToNat]
      omega

theorem kernelMetricPositive {metric : UInt32} (positive : 0 < metric.toNat) (family : Int) :
    exactRouteKernelMetric metric family = metric := by
  have nonzero : metric ≠ 0 := by
    intro zero
    rw [zero] at positive
    exact absurd positive (by decide)
  simp [exactRouteKernelMetric,nonzero]

theorem primaryMeetsFallback {i : Nat} {metric : UInt32} (number : metric.toNat = 1 + i) {family : Int}
    (same : exactRouteKernelMetric 0 family = exactRouteKernelMetric metric family) : family = afInet6 ∧ i = 1023 := by
  have own := kernelMetricPositive (by omega : 0 < metric.toNat) family
  rw [own] at same
  have value := congrArg UInt32.toNat same
  rw [number] at value
  by_cases six : family = afInet6
  · have leading : (exactRouteKernelMetric 0 afInet6).toNat = 1024 := rfl
    rw [six,leading] at value
    exact ⟨six,by omega⟩
  · have leading : exactRouteKernelMetric 0 family = 0 := by simp [exactRouteKernelMetric,six]
    rw [leading] at value
    simp only [UInt32.reduceToNat] at value
    omega

theorem groupApart {ob : Outbound} (fits : groupFits input ob)
    (ipv6 : ∀ child fallback, groupPrimary input ob = some child → input.usable child afInet6 = true →
      (groupFallbacks input ob)[1023]? = some fallback → input.usable fallback afInet6 = false) :
    MembersApart input (groupMembers input ob) := by
  have meets : ∀ (a b : Outbound × UInt32) (i : Nat) family, groupPrimary input ob = some a.1 → a.2 = 0 →
      (groupFallbacks input ob)[i]? = some b.1 → b.2.toNat = 1 + i → input.usable a.1 family = true →
      input.usable b.1 family = true → exactRouteKernelMetric a.2 family = exactRouteKernelMetric b.2 family → False := by
    intro a b i family primary zero at_i number usableA usableB same
    rw [zero] at same
    obtain ⟨six,last⟩ := primaryMeetsFallback number same
    subst six last
    rw [ipv6 a.1 b.1 primary usableA at_i] at usableB
    cases usableB
  refine ⟨?_,?_⟩
  · intro a memA b memB family usableA usableB same
    obtain ⟨primaryA,zeroA⟩ | ⟨i,at_i,numberA,_⟩ := groupNumbers fits memA
    · obtain ⟨primaryB,zeroB⟩ | ⟨j,at_j,numberB,_⟩ := groupNumbers fits memB
      · rw [primaryA,Option.some.injEq] at primaryB
        exact Prod.ext primaryB (by rw [zeroA,zeroB])
      · exact absurd same fun same => meets a b j family primaryA zeroA at_j numberB usableA usableB same
    · obtain ⟨primaryB,zeroB⟩ | ⟨j,at_j,numberB,_⟩ := groupNumbers fits memB
      · exact absurd same fun same => meets b a i family primaryB zeroB at_i numberA usableB usableA same.symm
      · rw [kernelMetricPositive (by omega),kernelMetricPositive (by omega)] at same
        have place : i = j := by
          have value := congrArg UInt32.toNat same
          omega
        rw [place,at_j,Option.some.injEq] at at_i
        exact Prod.ext at_i.symm same
  · intro a mem family closing
    have limit : kUnreachableRouteMetric.toNat = 65535 := rfl
    have value := congrArg UInt32.toNat closing
    obtain ⟨_,zero⟩ | ⟨i,_,number,small⟩ := groupNumbers fits mem
    · rw [zero] at closing
      unfold exactRouteKernelMetric at closing
      split at closing
      · exact absurd closing (by decide)
      · exact absurd closing (by decide)
    · rw [kernelMetricPositive (by omega),limit] at value
      omega

theorem entryApart {ob : Outbound} (listed : ob ∈ input.outbounds) (applicable : Applicable input inet) :
    MembersApart input (entryMembers input ob) := by
  have none : MembersApart input [] := ⟨fun _ mem => (nomatch mem),fun _ mem => (nomatch mem)⟩
  unfold entryMembers
  cases type : ob.type with
  | interface => exact interfaceApart ob
  | urltest =>
    apply groupApart (applicable.metrics ob listed type)
    intro child fallback primary usable found
    cases chosen : (resolveUrltestSelection input.selections ob.tag).isEmpty with
    | false => exact applicable.ipv6 ob listed type chosen child fallback primary usable found
    | true =>
      have selected : selectedInterface input ob = some child := (Option.filter_eq_some_iff.mp primary).1
      unfold selectedInterface walkDepth kMaxUrltestDepth at selected
      rw [resolveSelectedInterface,if_neg (by simp [type]),if_neg (by simp [type]),followSelection] at selected
      simp [chosen] at selected
  | table => exact none
  | blackhole => exact none
  | ignore => exact none

theorem PlannedFrom.mark (from_config : PlannedFrom inet input entries) {ob : Outbound} (listed : ob ∈ input.outbounds)
    (routable : ob.routable = true) : (input.marks.lookup ob.tag).getD 0 ≠ 0 := by
  have marked := (allocateMarks from_config.allocated).1 ob listed routable
  obtain ⟨mark,found⟩ := Option.isSome_iff_exists.mp marked
  rw [found]
  exact marksNonzero from_config.allocated found

theorem PlannedFrom.entryOf (from_config : PlannedFrom inet input entries) {entry : PlannedOutbound} (mem : entry ∈ entries) :
    ∃ mask ob offset, mask ≠ 0 ∧ ob ∈ input.outbounds ∧ ob.routable = true ∧ entry = plannedOutbound input mask ob offset := by
  obtain ⟨mask,_,_,parsed,valid,_⟩ := allocateOk from_config.allocated
  have planned := from_config.planned
  unfold plannedEntries fwmarkMaskValue at planned
  simp only [parsed,valid,bind,Except.bind,pure,Except.pure] at planned
  cases planned
  obtain ⟨i,ob,at_i,rfl⟩ := (memPlanEntries input).mp mem
  obtain ⟨listed,tabled⟩ := List.mem_filter.mp (List.mem_of_getElem? at_i)
  exact ⟨mask,ob,_,(maskShape valid).1,listed,(Bool.and_eq_true_iff.mp tabled).1,rfl⟩

theorem ruleOfEntry {mask : UInt32} {ob : Outbound} {offset : UInt32} {rule : RuleSpec}
    (mem : rule ∈ (plannedOutbound input mask ob offset).rules) :
    rule.fwmark = (input.marks.lookup ob.tag).getD 0 ∧ rule.fwmask = mask ∧
      (rule.family = 0 ∨ rule.family = afInet ∨ rule.family = afInet6) := by
  have both : ruleFamily input = 0 ∨ ruleFamily input = afInet ∨ ruleFamily input = afInet6 := by
    unfold ruleFamily
    split
    · exact Or.inl rfl
    · exact Or.inr (Or.inl rfl)
  unfold plannedOutbound planOutbound at mem
  cases type : ob.type with
  | interface =>
    simp only [type,interfaceRules] at mem
    split at mem
    · cases mem
    · cases List.mem_singleton.mp mem
      refine ⟨rfl,rfl,?_⟩
      simp only [markRule]
      split
      · split
        · exact Or.inr (Or.inl rfl)
        · exact Or.inr (Or.inr rfl)
      · exact Or.inl rfl
  | table =>
    simp only [type] at mem
    cases List.mem_singleton.mp mem
    exact ⟨rfl,rfl,both⟩
  | urltest =>
    simp only [type] at mem
    cases List.mem_singleton.mp mem
    exact ⟨rfl,rfl,both⟩
  | blackhole =>
    simp only [type] at mem
    cases mem
  | ignore =>
    simp only [type] at mem
    cases mem

theorem freeNonzero {id : UInt32} (free : isReservedTable id = false) : id ≠ 0 := by
  intro zero
  rw [zero] at free
  exact absurd free (by decide)

theorem ruleChecked (from_config : PlannedFrom inet input entries) (applicable : Applicable input inet) {rule : RuleSpec}
    (mem : rule ∈ (joinEntries entries).rules) : checkDesiredRule rule = .ok () := by
  obtain ⟨entry,entryMem,ruleMem⟩ := List.mem_flatMap.mp mem
  obtain ⟨mask,ob,offset,maskNonzero,listed,routable,rfl⟩ := from_config.entryOf entryMem
  obtain ⟨mark,ownMask,family⟩ := ruleOfEntry ruleMem
  obtain ⟨table,priority⟩ := ruleInstalled input mask ob offset ruleMem
  have free := freeNonzero (safeTableIdFree input.cfg.tableStartValue offset)
  have tableNonzero : rule.table ≠ 0 := by
    rw [table,plannedInstalled]
    split
    · rename_i type
      exact applicable.tables ob listed (by simpa using type)
    · exact free
  rw [(plannedOutboundOf input mask ob offset).2] at priority
  have markNonzero := from_config.mark listed routable
  have known : (rule.family != 0 && rule.family != afInet && rule.family != afInet6) = false := by
    obtain same | same | same := family
    · simp [same]
    · simp [same]
    · simp [same]
  simp [checkDesiredRule,checkLogicalRule,known,priority,free,tableNonzero,mark,markNonzero,ownMask,maskNonzero]

theorem anchorChecked (from_config : PlannedFrom inet input entries) {identity : RuntimeRoutingTransactionIdentity}
    {rule : RuleSpec} (mem : rule ∈ concreteRules (joinEntries entries).rules) :
    checkAnchor (planRequest input identity entries) rule = .ok () := by
  obtain ⟨logical,logicalMem,concrete⟩ := memConcreteRules mem
  obtain ⟨entry,entryMem,ruleMem⟩ := List.mem_flatMap.mp logicalMem
  obtain ⟨mask,ob,offset,_,listed,routable,rfl⟩ := from_config.entryOf entryMem
  have known : desiredManagedAnchor rule (joinEntries entries).routes = true ∨
      externalTableAuthorized rule (tableAuthorities input) = true := by
    by_cases own : ob.type = .table
    · right
      unfold plannedOutbound planOutbound at ruleMem
      simp only [own] at ruleMem
      cases List.mem_singleton.mp ruleMem
      obtain ⟨table,family,enabled⟩ := groupRuleFamily input concrete
      refine List.any_eq_true.mpr ⟨⟨toUint32 (ob.table.getD 0),rule.family⟩,?_,by simp [table]⟩
      apply List.mem_flatMap.mpr
      refine ⟨ob,List.mem_filter.mpr ⟨listed,by simp [own]⟩,List.mem_map.mpr ⟨rule.family,?_,rfl⟩⟩
      exact List.mem_filter.mpr ⟨family,enabled⟩
    · left
      have rules : rule ∈ concreteRules (plannedOutbound input mask ob offset).rules := by
        cases plannedRulesShape input mask ob offset with
        | inl none =>
          rw [none] at ruleMem
          cases ruleMem
        | inr one =>
          obtain ⟨only,shape,_⟩ := one
          rw [shape] at ruleMem ⊢
          cases List.mem_singleton.mp ruleMem
          exact concrete
      obtain ⟨route,routeMem,table,family⟩ := anchoredHolds input own rules
      exact List.any_eq_true.mpr ⟨route,memJoined.mpr ⟨_,entryMem,routeMem⟩,by simp [table,family]⟩
  unfold checkAnchor
  cases known with
  | inl anchored => simp [planRequest,anchored]
  | inr authorized => simp [planRequest,authorized]

theorem selectedKnown {ob child : Outbound} (listed : ob ∈ input.outbounds)
    (selected : selectedInterface input ob = some child) : child.type = .interface ∧ child ∈ input.outbounds := by
  have walk : ∀ left (ob child : Outbound), ob ∈ input.outbounds →
      resolveSelectedInterface input.outbounds input.selections left ob = some child →
        child.type = .interface ∧ child ∈ input.outbounds := by
    intro left
    induction left with
    | zero =>
      intro ob child _ selected
      cases selected
    | succ left ih =>
      intro ob child listed selected
      rw [resolveSelectedInterface] at selected
      split at selected
      · rename_i type
        cases selected
        exact ⟨by simpa using type,listed⟩
      · split at selected
        · cases selected
        · unfold followSelection at selected
          simp only at selected
          split at selected
          · cases selected
          · split at selected
            · cases selected
            · rename_i next found
              exact ih next child (findOutboundMem found) selected
  exact walk walkDepth ob child listed selected

theorem memberKnown {ob : Outbound} (listed : ob ∈ input.outbounds)
    {member : Outbound × UInt32} (mem : member ∈ entryMembers input ob) :
    member.1.type = .interface ∧ member.1 ∈ input.outbounds := by
  unfold entryMembers at mem
  cases type : ob.type with
  | interface =>
    rw [type] at mem
    cases List.mem_singleton.mp mem
    exact ⟨type,listed⟩
  | urltest =>
    rw [type] at mem
    unfold groupMembers at mem
    simp only at mem
    split at mem
    · cases mem
    · rw [List.mem_append] at mem
      cases mem with
      | inl primary =>
        obtain ⟨child,own,rfl⟩ := List.mem_map.mp primary
        have selected := (Option.filter_eq_some_iff.mp (Option.mem_toList.mp own)).1
        exact selectedKnown listed selected
      | inr fallback =>
        obtain ⟨i,at_i,_⟩ := memNumbered.mp fallback
        exact urltestLeafOf (List.mem_filter.mp (List.mem_of_getElem? at_i)).1
  | table =>
    rw [type] at mem
    cases mem
  | blackhole =>
    rw [type] at mem
    cases mem
  | ignore =>
    rw [type] at mem
    cases mem

theorem acceptedOfApplicable (from_config : PlannedFrom inet input entries)
    (few : (routableOutbounds input.cfg.outboundList).length ≤ 31987) (applicable : Applicable input inet)
    (identity : RuntimeRoutingTransactionIdentity) : FreshAccepted inet (planRequest input identity entries) := by
  refine ⟨?_,fun rule mem => ruleChecked from_config applicable mem,fun _ mem => (nomatch mem),
    fun rule mem => anchorChecked from_config mem,?_,?_⟩
  · intro authority mem
    obtain ⟨ob,obMem,mem⟩ := List.mem_flatMap.mp mem
    obtain ⟨listed,type⟩ := List.mem_filter.mp obMem
    obtain ⟨family,known,rfl⟩ := List.mem_map.mp mem
    have nonzero := applicable.tables ob listed (by simpa using type)
    cases memFamilies.mp (List.mem_filter.mp known).1 with
    | inl four => simp [checkAuthority,nonzero,four]
    | inr six => simp [checkAuthority,nonzero,six]
  · intro route mem
    obtain ⟨entry,entryMem,routeMem⟩ := memJoined.mp mem
    obtain ⟨mask,ob,offset,_,listed,_,rfl⟩ := from_config.entryOf entryMem
    cases memPlannedRoutes input routeMem with
    | inr closing =>
      obtain ⟨family,known,_,rfl⟩ := (memKillSwitch input).mp closing
      exact closingChecked known (safeTableIdFree _ _)
    | inl owned =>
      obtain ⟨member,memberMem,default⟩ := owned
      obtain ⟨family,known,usable,rfl⟩ := (memUsableDefaults input).mp default
      obtain ⟨type,configured⟩ := memberKnown listed memberMem
      have named := interfaceNamed type ((acceptedConfig from_config.accepted).outbounds member.1 configured)
      exact (memberDefaultChecked known (safeTableIdFree _ _) named).mpr
        (applicable.gateways member.1 configured type family known usable)
  · intro a memA b memB slot
    obtain ⟨entry,entryMem,routeMem⟩ := memJoined.mp memA
    have table : b.table = entry.tableId := by
      obtain ⟨mask,ob,offset,_,_,_,rfl⟩ := from_config.entryOf entryMem
      have same : a.table = b.table := congrArg Slot.table slot
      rw [← same,plannedRouteTable input a routeMem]
    have few : (input.outbounds.filter input.tabled).length ≤ 31987 := by rw [from_config.tabled]; exact few
    have other := ownTable input from_config.planned few entryMem b memB table
    obtain ⟨mask,ob,offset,_,listed,_,rfl⟩ := from_config.entryOf entryMem
    exact membersSlots (entryApart listed applicable) (fun route mem => memPlannedRoutes input mem) a routeMem b other slot

/- The transaction takes the plan when it is applicable; that is all it asks for while table ids
do not wrap. -/
theorem planAcceptedWhen (from_config : PlannedFrom inet input entries) (identity : RuntimeRoutingTransactionIdentity) :
    ((∃ plan, buildPlan inet (planRequest input identity entries) [] [] = .ok plan) → Applicable input inet) ∧
      ((routableOutbounds input.cfg.outboundList).length ≤ 31987 → Applicable input inet →
        ∃ plan, buildPlan inet (planRequest input identity entries) [] [] = .ok plan) := by
  rw [buildPlanFresh]
  constructor
  · exact applicableOfAccepted from_config
  · intro few applicable
    exact acceptedOfApplicable from_config few applicable identity

end Accepted

/- Some addresses with the bytes inet_pton reads; inet_ntop writes the first spelling. -/
def sampleAddresses : List (Int × String × List UInt8) :=
  [(afInet,"192.0.2.1",[192,0,2,1]),
   (afInet6,"2001:db8::1",[0x20,0x01,0x0d,0xb8,0,0,0,0,0,0,0,0,0,0,0,1]),
   (afInet6,"2001:DB8::1",[0x20,0x01,0x0d,0xb8,0,0,0,0,0,0,0,0,0,0,0,1])]

def sampleInet : Inet where
  pton family address := (sampleAddresses.find? fun sample => sample.1 == family && sample.2.1 == address).map (·.2.2)
  ntop family binary := (sampleAddresses.find? fun sample => sample.1 == family && sample.2.2 == binary).map (·.2.1)

def gatewayInput (gateway6 : String) : PlanInput :=
  { cfg := { outbounds := some [{ gatewayOutbound "wan" "eth0" "192.0.2.1" with gateway6 := some gateway6 }] }
    marks := [("wan",0x10000)] }

def gatewayEntries (gateway6 : String) : List PlannedOutbound :=
  planEntries (gatewayInput gateway6) 0x00FF0000 (gatewayInput gateway6).outbounds 0

theorem gatewayAccepted : validateConfig sampleInet (gatewayInput "2001:db8::1").cfg = [] ∧
    validateConfig sampleInet (gatewayInput "2001:DB8::1").cfg = [] ∧
    allocateOutboundMarks {} (gatewayInput "2001:db8::1").outbounds = .ok [("wan",0x10000)] ∧
    allocateOutboundMarks {} (gatewayInput "2001:DB8::1").outbounds = .ok [("wan",0x10000)] := by decide

theorem lowerCaseAccepted : ∃ plan, buildPlan sampleInet
    (planRequest (gatewayInput "2001:db8::1") {} (gatewayEntries "2001:db8::1")) [] [] = .ok plan := by
  have planned : PlannedFrom sampleInet (gatewayInput "2001:db8::1") (gatewayEntries "2001:db8::1") :=
    ⟨gatewayAccepted.1,gatewayAccepted.2.2.1,rfl⟩
  refine (planAcceptedWhen planned {}).2 (by decide) ⟨?_,?_,?_,?_⟩
  · intro ob mem _ family known _ gateway own
    cases List.mem_singleton.mp mem
    cases memFamilies.mp known with
    | inl four =>
      subst four
      cases own
      decide
    | inr six =>
      subst six
      cases own
      decide
  · intro ob mem type
    cases List.mem_singleton.mp mem
    cases type
  · intro ob mem type
    cases List.mem_singleton.mp mem
    cases type
  · intro ob mem type
    cases List.mem_singleton.mp mem
    cases type

/- The validator reads the gateway; the transaction wants it in lower case. -/
theorem upperCaseRejected : PlannedFrom sampleInet (gatewayInput "2001:DB8::1") (gatewayEntries "2001:DB8::1") ∧
    ¬ ∃ plan, buildPlan sampleInet (planRequest (gatewayInput "2001:DB8::1") {} (gatewayEntries "2001:DB8::1")) [] [] =
      .ok plan := by
  have planned : PlannedFrom sampleInet (gatewayInput "2001:DB8::1") (gatewayEntries "2001:DB8::1") :=
    ⟨gatewayAccepted.2.1,gatewayAccepted.2.2.2,rfl⟩
  refine ⟨planned,fun accepted => ?_⟩
  have applicable := applicableOfAccepted planned ((buildPlanFresh _ _).mp accepted)
  have canonical := applicable.gateways _ List.mem_cons_self rfl afInet6 (by decide) (by decide) "2001:DB8::1" rfl
  exact absurd canonical (by decide)

end KeenPbr
