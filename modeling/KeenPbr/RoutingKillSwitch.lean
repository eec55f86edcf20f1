import KeenPbr.RoutingPlanView

/-! The kill switch of a plan: no marked packet of an urltest or strict interface outbound falls
through to the main table, because an unreachable default closes its table below every usable
one. Fallback metrics grow with the group, so a group can outgrow the closing metric. -/
namespace KeenPbr

theorem memNumbered {metric : UInt32} {children : List Outbound} {member : Outbound × UInt32} :
    member ∈ numbered metric children ↔ ∃ i, children[i]? = some member.1 ∧ member.2 = metric + UInt32.ofNat i := by
  induction children generalizing metric with
  | nil => simp [numbered]
  | cons child rest ih =>
    have step : ∀ i, metric + 1 + UInt32.ofNat i = metric + UInt32.ofNat (i + 1) := by
      intro i
      rw [UInt32.ofNat_add,UInt32.add_assoc,UInt32.add_comm 1]
      rfl
    rw [numbered,List.mem_cons,ih]
    constructor
    · intro mem
      obtain rfl | ⟨i,at_i,number⟩ := mem
      · exact ⟨0,rfl,(UInt32.add_zero metric).symm⟩
      · exact ⟨i + 1,at_i,by rw [number,step]⟩
    · intro mem
      obtain ⟨i,at_i,number⟩ := mem
      cases i with
      | zero =>
        left
        rw [List.getElem?_cons_zero,Option.some.injEq] at at_i
        rw [Prod.ext_iff]
        exact ⟨at_i.symm,by rw [number]; exact UInt32.add_zero metric⟩
      | succ i => exact Or.inr ⟨i,at_i,by rw [number,step]⟩

section Planner
variable (input : PlanInput)

def closedOutbound (ob : Outbound) : Bool :=
  ob.type == .urltest || ob.type == .interface && strictEnforcementEnabled input.cfg ob

def isUsableDefault (route : RouteSpec) : Bool :=
  route.destination == "default" && !route.unreachable && !route.blackhole

structure KillSwitchHolds (entries : List PlannedOutbound) : Prop where
  closed : ∀ entry ∈ entries, closedOutbound input entry.outbound = true → ∀ family ∈ families,
    input.familyEnabled family = true →
      unreachableDefault entry.tableId kUnreachableRouteMetric family ∈ (joinEntries entries).routes
  above : ∀ entry ∈ entries, closedOutbound input entry.outbound = true → ∀ route ∈ (joinEntries entries).routes,
    route.table = entry.tableId → isUsableDefault route = true → route.metric < kUnreachableRouteMetric
  anchored : ∀ entry ∈ entries, entry.outbound.type ≠ .table → ∀ rule ∈ concreteRules entry.rules,
    ∃ route ∈ (joinEntries entries).routes, route.table = rule.table ∧ route.family = rule.family

def groupFits (ob : Outbound) : Prop :=
  (resolveUrltestSelection input.selections ob.tag).isEmpty = false → (groupFallbacks input ob).length ≤ 65534

theorem unreachableNotUsable (tableId metric : UInt32) (family : Int) :
    isUsableDefault (unreachableDefault tableId metric family) = false := rfl

theorem killSwitchNotUsable {tableId : UInt32} {route : RouteSpec} (mem : route ∈ killSwitch input tableId) :
    isUsableDefault route = false := by
  obtain ⟨family,_,_,rfl⟩ := (memKillSwitch input).mp mem
  exact unreachableNotUsable tableId _ family

def entryMembers (ob : Outbound) : List (Outbound × UInt32) :=
  match ob.type with
  | .interface => [(ob,0)]
  | .urltest => groupMembers input ob
  | _ => []

theorem memPlannedRoutes {mask : UInt32} {ob : Outbound} {offset : UInt32} {route : RouteSpec}
    (mem : route ∈ (plannedOutbound input mask ob offset).routes) :
    (∃ member ∈ entryMembers input ob,
      route ∈ usableDefaults input (safeTableId input.cfg.tableStartValue offset) member.2 member.1) ∨
      route ∈ killSwitch input (safeTableId input.cfg.tableStartValue offset) := by
  unfold plannedOutbound planOutbound at mem
  unfold entryMembers
  cases type : ob.type with
  | interface =>
    simp only [type,interfaceRoutes,List.mem_append] at mem
    cases mem with
    | inl own =>
      split at own
      · rw [List.mem_append] at own
        cases own with
        | inl default => exact Or.inl ⟨(ob,0),List.mem_cons_self,default⟩
        | inr closure => exact Or.inr (memEnabledClosures input closure)
      · cases own
    | inr closing =>
      split at closing
      · exact Or.inr closing
      · cases closing
  | urltest =>
    simp only [type] at mem
    exact (memUrltestRoutes input).mp mem
  | table =>
    simp only [type] at mem
    cases mem
  | blackhole =>
    simp only [type] at mem
    cases mem
  | ignore =>
    simp only [type] at mem
    cases mem

theorem memPlannedUsable {mask : UInt32} {ob : Outbound} {offset : UInt32} {route : RouteSpec}
    (mem : route ∈ (plannedOutbound input mask ob offset).routes) (usable : isUsableDefault route = true) :
    route.metric = 0 ∨ ob.type = .urltest ∧ ∃ member ∈ groupMembers input ob, route.metric = member.2 := by
  cases memPlannedRoutes input mem with
  | inr closing =>
    rw [killSwitchNotUsable input closing] at usable
    cases usable
  | inl owned =>
    obtain ⟨member,listed,default⟩ := owned
    obtain ⟨family,_,_,rfl⟩ := (memUsableDefaults input).mp default
    unfold entryMembers at listed
    cases type : ob.type with
    | interface =>
      rw [type] at listed
      cases List.mem_singleton.mp listed
      exact Or.inl rfl
    | urltest =>
      rw [type] at listed
      exact Or.inr ⟨rfl,member,listed,rfl⟩
    | table =>
      rw [type] at listed
      cases listed
    | blackhole =>
      rw [type] at listed
      cases listed
    | ignore =>
      rw [type] at listed
      cases listed

theorem groupMetricBelow {ob : Outbound} (fits : groupFits input ob) {member : Outbound × UInt32}
    (mem : member ∈ groupMembers input ob) : member.2 < kUnreachableRouteMetric := by
  unfold groupMembers at mem
  split at mem
  · cases mem
  · rename_i chosen
    rw [List.mem_append] at mem
    cases mem with
    | inl primary =>
      obtain ⟨child,_,rfl⟩ := List.mem_map.mp primary
      exact (by decide : (0 : UInt32) < kUnreachableRouteMetric)
    | inr fallback =>
      obtain ⟨i,at_i,number⟩ := memNumbered.mp fallback
      have inside : i < (groupFallbacks input ob).length := (List.getElem?_eq_some_iff.mp at_i).1
      have bound := fits (by simpa using chosen)
      rw [number,UInt32.lt_iff_toNat_lt,UInt32.toNat_add,UInt32.toNat_ofNat']
      simp only [kUnreachableRouteMetric,UInt32.reduceToNat]
      omega

theorem fallbackUsable {skip : Option String} {leaves : List Outbound} {child : Outbound}
    (mem : child ∈ fallbackChildren input skip leaves) : input.usableAny child = true := by
  have kept := (List.mem_filter.mp mem).2
  exact (Bool.and_eq_true_iff.mp kept).2

theorem usableAnyRoute {ob : Outbound} (usable : input.usableAny ob = true) (tableId metric : UInt32) :
    ∃ family ∈ families, input.usable ob family = true ∧
      memberDefault tableId metric ob family ∈ usableDefaults input tableId metric ob := by
  obtain ⟨family,listed,family_usable⟩ := List.any_eq_true.mp usable
  exact ⟨family,listed,family_usable,(memUsableDefaults input).mpr ⟨family,listed,family_usable,rfl⟩⟩

theorem crowdedGroup (tableId : UInt32) {ob : Outbound} (crowded : ¬ groupFits input ob) :
    ∃ route ∈ urltestRoutes input tableId ob, route.table = tableId ∧ isUsableDefault route = true ∧
      route.metric = kUnreachableRouteMetric := by
  simp only [groupFits,Classical.not_imp,Nat.not_le] at crowded
  obtain ⟨chosen,many⟩ := crowded
  obtain ⟨child,at_child⟩ : ∃ child, (groupFallbacks input ob)[65534]? = some child :=
    ⟨_,List.getElem?_eq_getElem many⟩
  have usable := fallbackUsable input (List.mem_of_getElem? at_child)
  obtain ⟨family,_,_,mem⟩ := usableAnyRoute input usable tableId kUnreachableRouteMetric
  have member : (child,kUnreachableRouteMetric) ∈ groupMembers input ob := by
    simp only [groupMembers,chosen,Bool.false_eq_true,if_false]
    exact List.mem_append_right _ (memNumbered.mpr ⟨65534,at_child,rfl⟩)
  exact ⟨_,(memUrltestRoutes input).mpr (Or.inl ⟨_,member,mem⟩),rfl,rfl,rfl⟩

theorem concreteBoth {rule : RuleSpec} (both : rule.family = 0) :
    concreteRules [rule] = [{ rule with family := afInet },{ rule with family := afInet6 }] := by
  simp [concreteRules,both,sameRuleTuple,afInet,afInet6]

theorem concreteSingle {rule : RuleSpec} (single : rule.family ≠ 0) : concreteRules [rule] = [rule] := by
  simp [concreteRules,single]

theorem closedHolds (mask : UInt32) {ob : Outbound} (offset : UInt32) (promised : closedOutbound input ob = true)
    {family : Int} (listed : family ∈ families) (enabled : input.familyEnabled family = true) :
    unreachableDefault (plannedOutbound input mask ob offset).tableId kUnreachableRouteMetric family ∈
      (plannedOutbound input mask ob offset).routes := by
  have closing : unreachableDefault (safeTableId input.cfg.tableStartValue offset) kUnreachableRouteMetric family ∈
      killSwitch input (safeTableId input.cfg.tableStartValue offset) := (memKillSwitch input).mpr ⟨family,listed,enabled,rfl⟩
  rw [(plannedOutboundOf input mask ob offset).2]
  unfold plannedOutbound planOutbound
  simp only [closedOutbound,Bool.or_eq_true,Bool.and_eq_true,beq_iff_eq] at promised
  cases promised with
  | inl urltest =>
    simp only [urltest]
    exact (memUrltestRoutes input).mpr (Or.inr closing)
  | inr strict =>
    simp only [strict.1,interfaceRoutes,strict.2,if_true]
    exact List.mem_append_right _ closing

theorem plannedRouteTable {mask : UInt32} {ob : Outbound} {offset : UInt32} (route : RouteSpec)
    (mem : route ∈ (plannedOutbound input mask ob offset).routes) :
    route.table = (plannedOutbound input mask ob offset).tableId := by
  rw [(plannedOutboundOf input mask ob offset).2]
  cases memPlannedRoutes input mem with
  | inl owned =>
    obtain ⟨member,_,default⟩ := owned
    obtain ⟨family,_,_,rfl⟩ := (memUsableDefaults input).mp default
    rfl
  | inr closing =>
    obtain ⟨family,_,_,rfl⟩ := (memKillSwitch input).mp closing
    rfl

theorem interfaceRuleAnchored {mask mark tableId : UInt32} {routes : List RouteSpec}
    {rule : RuleSpec} (mem : rule ∈ concreteRules (interfaceRules mask mark tableId routes)) :
    rule.table = tableId ∧ ∃ route ∈ routes, route.family = rule.family := by
  have present : ∀ family, (routes.any fun route => route.family == family) = true →
      ∃ route ∈ routes, route.family = family := by
    intro family found
    obtain ⟨route,listed,same⟩ := List.any_eq_true.mp found
    exact ⟨route,listed,beq_iff_eq.mp same⟩
  cases four : (routes.any fun route => route.family == afInet) with
  | false =>
    cases six : (routes.any fun route => route.family == afInet6) with
    | false =>
      have rules : interfaceRules mask mark tableId routes = [] := by simp only [interfaceRules,four,six]; rfl
      rw [rules] at mem
      cases mem
    | true =>
      have rules : interfaceRules mask mark tableId routes = [markRule mask mark tableId tableId afInet6] := by
        simp only [interfaceRules,four,six]
        rfl
      rw [rules] at mem
      cases List.mem_singleton.mp mem
      exact ⟨rfl,present afInet6 six⟩
  | true =>
    cases six : (routes.any fun route => route.family == afInet6) with
    | false =>
      have rules : interfaceRules mask mark tableId routes = [markRule mask mark tableId tableId afInet] := by
        simp only [interfaceRules,four,six]
        rfl
      rw [rules] at mem
      cases List.mem_singleton.mp mem
      exact ⟨rfl,present afInet four⟩
    | true =>
      have rules : interfaceRules mask mark tableId routes = [markRule mask mark tableId tableId 0] := by
        simp only [interfaceRules,four,six]
        rfl
      rw [rules,concreteBoth rfl,List.mem_cons,List.mem_singleton] at mem
      cases mem with
      | inl same =>
        subst same
        exact ⟨rfl,present afInet four⟩
      | inr same =>
        subst same
        exact ⟨rfl,present afInet6 six⟩

theorem groupRuleFamily {mask mark tableId priority : UInt32} {rule : RuleSpec}
    (mem : rule ∈ concreteRules [markRule mask mark tableId priority (ruleFamily input)]) :
    rule.table = tableId ∧ rule.family ∈ families ∧ input.familyEnabled rule.family = true := by
  cases enabled : input.ipv6Enabled with
  | false =>
    have four : ruleFamily input = afInet := by simp [ruleFamily,enabled]
    rw [four,concreteSingle (by decide : afInet ≠ 0)] at mem
    cases List.mem_singleton.mp mem
    simp [families,PlanInput.familyEnabled,markRule,afInet,afInet6]
  | true =>
    have both : ruleFamily input = 0 := by simp [ruleFamily,enabled]
    rw [both,concreteBoth rfl,List.mem_cons,List.mem_singleton] at mem
    cases mem with
    | inl same =>
      subst same
      simp [families,PlanInput.familyEnabled,markRule,enabled]
    | inr same =>
      subst same
      simp [families,PlanInput.familyEnabled,markRule,enabled]

theorem anchoredHolds {mask : UInt32} {ob : Outbound} {offset : UInt32} (own : ob.type ≠ .table) {rule : RuleSpec}
    (mem : rule ∈ concreteRules (plannedOutbound input mask ob offset).rules) :
    ∃ route ∈ (plannedOutbound input mask ob offset).routes, route.table = rule.table ∧ route.family = rule.family := by
  have tableOf : ∀ route ∈ (plannedOutbound input mask ob offset).routes,
      route.table = safeTableId input.cfg.tableStartValue offset := by
    intro route mem
    rw [plannedRouteTable input route mem,(plannedOutboundOf input mask ob offset).2]
  cases type : ob.type with
  | interface =>
    unfold plannedOutbound planOutbound at mem tableOf ⊢
    simp only [type] at mem tableOf ⊢
    obtain ⟨table,route,listed,family⟩ := interfaceRuleAnchored mem
    exact ⟨route,listed,by rw [tableOf route listed,table],family⟩
  | urltest =>
    unfold plannedOutbound planOutbound at mem
    simp only [type] at mem
    obtain ⟨table,listed,enabled⟩ := groupRuleFamily input mem
    have promised : closedOutbound input ob = true := by simp [closedOutbound,type]
    have closing := closedHolds input mask offset promised listed enabled
    rw [(plannedOutboundOf input mask ob offset).2] at closing
    exact ⟨_,closing,table.symm,rfl⟩
  | table => exact absurd type own
  | blackhole | ignore => simp [plannedOutbound,planOutbound,type,concreteRules] at mem

theorem memJoined {entries : List PlannedOutbound} {route : RouteSpec} :
    route ∈ (joinEntries entries).routes ↔ ∃ entry ∈ entries, route ∈ entry.routes := List.mem_flatMap

theorem plannedEntriesOk {entries : List PlannedOutbound} (planned : plannedEntries input = .ok entries) :
    ∃ mask, entries = planEntries input mask input.outbounds 0 := by
  unfold plannedEntries at planned
  cases parsed : fwmarkMaskValue input.cfg.fwmark with
  | error message =>
    rw [parsed] at planned
    cases planned
  | ok mask =>
    rw [parsed] at planned
    cases planned
    exact ⟨mask,rfl⟩

theorem memPlanned {entries : List PlannedOutbound} (planned : plannedEntries input = .ok entries)
    {entry : PlannedOutbound} (mem : entry ∈ entries) :
    ∃ mask ob offset, ob ∈ input.outbounds ∧ input.tabled ob = true ∧ entry = plannedOutbound input mask ob offset := by
  obtain ⟨mask,rfl⟩ := plannedEntriesOk input planned
  obtain ⟨i,ob,at_i,rfl⟩ := (memPlanEntries input).mp mem
  obtain ⟨listed,tabled⟩ := List.mem_filter.mp (List.mem_of_getElem? at_i)
  exact ⟨mask,ob,_,listed,tabled,rfl⟩

theorem plannedOf {entries : List PlannedOutbound} (planned : plannedEntries input = .ok entries)
    {ob : Outbound} (listed : ob ∈ input.outbounds) (tabled : input.tabled ob = true) :
    ∃ mask offset, plannedOutbound input mask ob offset ∈ entries := by
  obtain ⟨mask,rfl⟩ := plannedEntriesOk input planned
  obtain ⟨i,at_i⟩ := List.mem_iff_getElem?.mp (List.mem_filter.mpr ⟨listed,tabled⟩)
  exact ⟨mask,_,(memPlanEntries input).mpr ⟨i,ob,at_i,rfl⟩⟩

theorem fitsOfKillSwitch {entries : List PlannedOutbound} (planned : plannedEntries input = .ok entries)
    (holds : KillSwitchHolds input entries) {ob : Outbound} (listed : ob ∈ input.outbounds) (type : ob.type = .urltest)
    (marked : (input.marks.lookup ob.tag).isSome = true) : groupFits input ob := by
  by_contra crowded
  have tabled : input.tabled ob = true := by simp [PlanInput.tabled,Outbound.routable,type,marked]
  obtain ⟨mask,offset,mem⟩ := plannedOf input planned listed tabled
  obtain ⟨outbound,tableId⟩ := plannedOutboundOf input mask ob offset
  obtain ⟨route,inTable,table,usable,metric⟩ := crowdedGroup input
    (safeTableId input.cfg.tableStartValue offset) crowded
  have routes : route ∈ (plannedOutbound input mask ob offset).routes := by
    unfold plannedOutbound planOutbound
    simpa only [type] using inTable
  have below := holds.above _ mem (by simp [outbound,closedOutbound,type]) route (memJoined.mpr ⟨_,mem,routes⟩)
    (by rw [table,tableId]) usable
  rw [metric] at below
  exact absurd below (UInt32.lt_irrefl _)

theorem killSwitchOfFits {entries : List PlannedOutbound} (planned : plannedEntries input = .ok entries)
    (fits : ∀ ob ∈ input.outbounds, ob.type = .urltest → (input.marks.lookup ob.tag).isSome = true → groupFits input ob) :
    KillSwitchHolds input entries := by
  refine ⟨?_,?_,?_⟩
  · intro entry mem promised family listed enabled
    obtain ⟨mask,ob,offset,_,_,rfl⟩ := memPlanned input planned mem
    rw [(plannedOutboundOf input mask ob offset).1] at promised
    exact memJoined.mpr ⟨_,mem,closedHolds input mask offset promised listed enabled⟩
  · intro entry _ _ route mem _ usable
    obtain ⟨other,otherMem,routes⟩ := memJoined.mp mem
    obtain ⟨mask,ob,offset,listed,tabled,rfl⟩ := memPlanned input planned otherMem
    cases memPlannedUsable input routes usable with
    | inl zero =>
      rw [zero]
      decide
    | inr group =>
      obtain ⟨type,member,memMember,metric⟩ := group
      rw [metric]
      exact groupMetricBelow input (fits ob listed type (Bool.and_eq_true_iff.mp tabled).2) memMember
  · intro entry mem own rule ruleMem
    obtain ⟨mask,ob,offset,_,_,rfl⟩ := memPlanned input planned mem
    rw [(plannedOutboundOf input mask ob offset).1] at own
    obtain ⟨route,routes,same⟩ := anchoredHolds input own ruleMem
    exact ⟨route,memJoined.mpr ⟨_,mem,routes⟩,same⟩

/- The kill switch holds exactly when no selected group has more usable fallbacks than metrics. -/
theorem killSwitchHoldsIff {entries : List PlannedOutbound} (planned : plannedEntries input = .ok entries) :
    KillSwitchHolds input entries ↔ ∀ ob ∈ input.outbounds, ob.type = .urltest →
      (input.marks.lookup ob.tag).isSome = true → groupFits input ob := by
  constructor
  · intro holds ob listed type marked
    exact fitsOfKillSwitch input planned holds listed type marked
  · exact killSwitchOfFits input planned

end Planner

/- Leaves of a group of groups. -/

theorem findOutboundOf {outbounds : List Outbound} (distinct : (outbounds.map (·.tag)).Nodup) {ob : Outbound}
    (listed : ob ∈ outbounds) : findOutbound outbounds ob.tag = some ob := by
  induction outbounds with
  | nil => cases listed
  | cons first rest ih =>
    rw [List.map_cons,List.nodup_cons] at distinct
    unfold findOutbound at ih ⊢
    cases List.mem_cons.mp listed with
    | inl same =>
      subst same
      simp
    | inr later =>
      have apart : first.tag ≠ ob.tag := by
        intro same
        exact distinct.1 (same ▸ List.mem_map_of_mem later)
      rw [List.find?_cons_of_neg (by simpa using apart)]
      exact ih distinct.2 later

theorem childrenOfOneGroup {outbounds children : List Outbound} (distinct : (outbounds.map (·.tag)).Nodup)
    (known : ∀ child ∈ children, child ∈ outbounds) {group : Outbound} {weight : Option Int}
    (own : group.outboundGroups = some [{ outbounds := children.map (·.tag), weight }]) :
    orderedUrltestChildren outbounds group = children := by
  have found : ∀ list : List Outbound, (∀ child ∈ list, child ∈ outbounds) →
      (list.map (·.tag)).filterMap (findOutbound outbounds) = list := by
    intro list known
    induction list with
    | nil => rfl
    | cons child rest ih =>
      rw [List.map_cons,List.filterMap_cons,findOutboundOf distinct (known child (by simp))]
      simp only [List.cons.injEq,true_and]
      exact ih fun later mem => known later (List.mem_cons_of_mem child mem)
  simp only [orderedUrltestChildren,own,Option.getD_some,List.insertionSort_cons,List.insertionSort_nil,List.orderedInsert]
  simpa using found children known

theorem collectInterfaces (outbounds : List Outbound) (left : Nat) (walk : LeafWalk) {group : Outbound}
    {leaves : List Outbound} (children : orderedUrltestChildren outbounds group = leaves)
    (interfaces : ∀ leaf ∈ leaves, leaf.type = .interface) (fresh : group.tag ∉ walk.visited) :
    collectUrltestLeafInterfaces outbounds (left + 1) group walk =
      { collected := walk.collected ++ leaves, visited := group.tag :: walk.visited } := by
  have collect : ∀ (list : List Outbound) (walk : LeafWalk), (∀ leaf ∈ list, leaf.type = .interface) →
      list.foldl (fun walk child =>
        if child.type == .interface then { walk with collected := walk.collected ++ [child] }
        else if child.type == .urltest then collectUrltestLeafInterfaces outbounds left child walk
        else walk) walk = { walk with collected := walk.collected ++ list } := by
    intro list
    induction list with
    | nil => simp
    | cons leaf rest ih =>
      intro walk interfaces
      have first := interfaces leaf (by simp)
      rw [List.foldl_cons,ih _ fun later mem => interfaces later (List.mem_cons_of_mem leaf mem)]
      simp [first]
  rw [collectUrltestLeafInterfaces,if_neg (by simpa using fresh),children,collect leaves _ interfaces]

theorem collectGroups (outbounds : List Outbound) (left : Nat) {leaves : List Outbound}
    (interfaces : ∀ leaf ∈ leaves, leaf.type = .interface) (groups : List Outbound)
    (known : ∀ group ∈ groups, group.type = .urltest ∧ orderedUrltestChildren outbounds group = leaves)
    (distinct : (groups.map (·.tag)).Nodup) (walk : LeafWalk) (fresh : ∀ group ∈ groups, group.tag ∉ walk.visited) :
    (groups.foldl (fun walk child =>
      if child.type == .interface then { walk with collected := walk.collected ++ [child] }
      else if child.type == .urltest then collectUrltestLeafInterfaces outbounds (left + 1) child walk
      else walk) walk).collected = walk.collected ++ groups.flatMap fun _ => leaves := by
  induction groups generalizing walk with
  | nil => simp
  | cons group rest ih =>
    rw [List.map_cons,List.nodup_cons] at distinct
    obtain ⟨type,children⟩ := known group (by simp)
    have first := collectInterfaces outbounds left walk children interfaces (fresh group (by simp))
    rw [List.foldl_cons]
    have notInterface : (OutboundType.urltest == OutboundType.interface) = false := rfl
    simp only [type,notInterface,Bool.false_eq_true,if_false,beq_self_eq_true,if_true,first]
    rw [ih (fun later mem => known later (List.mem_cons_of_mem group mem)) distinct.2]
    · simp
    · intro later mem
      rw [List.mem_cons]
      intro seen
      cases seen with
      | inl same => exact distinct.1 (same ▸ List.mem_map_of_mem mem)
      | inr before => exact fresh later (List.mem_cons_of_mem group mem) before

/- 256 groups over the same 256 interfaces, all in one group whose selected child is an interface
of its own. -/

def hexLetter (n : Nat) : Char := Char.ofNat (if n < 10 then 48 + n else 87 + n)

def seriesTag (kind : Char) (n : Nat) : String := String.ofList [kind,hexLetter (n / 16),hexLetter (n % 16)]

def interfaceOutbound (tag interface : String) : Outbound := { tag, type := .interface, interface := some interface }

def groupOf (tag : String) (children : List Outbound) : Outbound :=
  { tag, type := .urltest, url := some "http://host/", outboundGroups := some [{ outbounds := children.map (·.tag) }] }

def crowdLeaves : List Outbound := (List.range 256).map fun n => interfaceOutbound (seriesTag 'l' n) (seriesTag 'n' n)

def crowdGroups : List Outbound := (List.range 256).map fun n => groupOf (seriesTag 'g' n) crowdLeaves

def crowdPrimary : Outbound := interfaceOutbound "primary" "eth0"

def crowdTop : Outbound := groupOf "top" (crowdPrimary :: crowdGroups)

def crowdInput : PlanInput :=
  { cfg := { outbounds := some (crowdTop :: crowdPrimary :: (crowdGroups ++ crowdLeaves)), fwmark := { mask := some "0x0FFF0000" } }
    marks := [("top",0x10000)], selections := [("top","primary")] }

theorem hexLetterInj {m n : Nat} (hm : m < 16) (hn : n < 16) (same : hexLetter m = hexLetter n) : m = n := by
  have table : ∀ a < 16, ∀ b < 16, hexLetter a = hexLetter b → a = b := by decide
  exact table m hm n hn same

theorem seriesTagInj {kind kind' : Char} {m n : Nat} (hm : m < 256) (hn : n < 256)
    (same : seriesTag kind m = seriesTag kind' n) : kind = kind' ∧ m = n := by
  simp only [seriesTag,String.ofList_inj,List.cons.injEq,and_true] at same
  obtain ⟨kinds,high,low⟩ := same
  have high := hexLetterInj (by omega) (by omega) high
  have low := hexLetterInj (by omega) (by omega) low
  exact ⟨kinds,by omega⟩

theorem crowdTagsNodup : (crowdInput.outbounds.map (·.tag)).Nodup := by
  have series : ∀ kind, ((List.range 256).map (seriesTag kind)).Nodup := by
    intro kind
    apply List.Nodup.map_on _ List.nodup_range
    intro m hm n hn same
    exact (seriesTagInj (List.mem_range.mp hm) (List.mem_range.mp hn) same).2
  have outside : ∀ kind, ∀ tag : String, tag.toList.length ≠ 3 ∨ tag.toList.head? ≠ some kind →
      tag ∉ (List.range 256).map (seriesTag kind) := by
    intro kind tag differs mem
    obtain ⟨n,_,rfl⟩ := List.mem_map.mp mem
    simp [seriesTag] at differs
  have tags : crowdInput.outbounds.map (·.tag) =
      "top" :: "primary" :: ((List.range 256).map (seriesTag 'g') ++ (List.range 256).map (seriesTag 'l')) := by
    simp [PlanInput.outbounds,crowdInput,Config.outboundList,crowdTop,crowdPrimary,crowdGroups,crowdLeaves,groupOf,
      interfaceOutbound,Function.comp_def]
  rw [tags,List.nodup_cons,List.nodup_cons,List.nodup_append]
  refine ⟨?_,?_,series 'g',series 'l',?_⟩
  · simp only [List.mem_cons,List.mem_append,not_or]
    exact ⟨by decide,outside 'g' "top" (Or.inr (by decide)),outside 'l' "top" (Or.inr (by decide))⟩
  · simp only [List.mem_append,not_or]
    exact ⟨outside 'g' "primary" (Or.inl (by decide)),outside 'l' "primary" (Or.inl (by decide))⟩
  · intro left hleft right hright same
    obtain ⟨m,hm,rfl⟩ := List.mem_map.mp hleft
    obtain ⟨n,hn,rfl⟩ := List.mem_map.mp hright
    have kinds := (seriesTagInj (List.mem_range.mp hm) (List.mem_range.mp hn) same).1
    exact absurd kinds (by decide)

theorem crowdTagOf {ob : Outbound} (listed : ob ∈ crowdGroups ∨ ob ∈ crowdLeaves) : ob ∈ crowdInput.outbounds :=
  List.mem_cons_of_mem _ (List.mem_cons_of_mem _ (List.mem_append.mpr listed))

theorem crowdLeavesOf : urltestLeaves crowdInput.outbounds crowdTop =
    crowdPrimary :: crowdGroups.flatMap fun _ => crowdLeaves := by
  have topChildren : orderedUrltestChildren crowdInput.outbounds crowdTop = crowdPrimary :: crowdGroups := by
    apply childrenOfOneGroup crowdTagsNodup _ rfl
    intro child mem
    cases List.mem_cons.mp mem with
    | inl same =>
      subst same
      exact List.mem_cons_of_mem _ List.mem_cons_self
    | inr group => exact crowdTagOf (Or.inl group)
  have groupChildren : ∀ group ∈ crowdGroups, group.type = .urltest ∧
      orderedUrltestChildren crowdInput.outbounds group = crowdLeaves := by
    intro group mem
    obtain ⟨n,_,rfl⟩ := List.mem_map.mp mem
    exact ⟨rfl,childrenOfOneGroup crowdTagsNodup (fun leaf leafMem => crowdTagOf (Or.inr leafMem)) rfl⟩
  have interfaces : ∀ leaf ∈ crowdLeaves, leaf.type = .interface := by
    intro leaf mem
    obtain ⟨n,_,rfl⟩ := List.mem_map.mp mem
    rfl
  have groupTags : (crowdGroups.map (·.tag)).Nodup ∧ "top" ∉ crowdGroups.map (·.tag) := by
    have all := crowdTagsNodup
    rw [PlanInput.outbounds,crowdInput,Config.outboundList,Option.getD_some,List.map_cons,List.map_cons,List.map_append,
      List.nodup_cons,List.nodup_cons,List.nodup_append] at all
    exact ⟨all.2.2.1,fun mem => all.1 (List.mem_cons_of_mem _ (List.mem_append_left _ mem))⟩
  rw [urltestLeaves,walkDepth,kMaxUrltestDepth,collectUrltestLeafInterfaces,if_neg (by simp),topChildren,List.foldl_cons]
  simp only [crowdPrimary,interfaceOutbound,beq_self_eq_true,if_true]
  rw [collectGroups crowdInput.outbounds 7 interfaces crowdGroups groupChildren groupTags.1]
  · rfl
  · intro group mem seen
    have top : group.tag = "top" := by simpa [crowdTop,groupOf] using seen
    exact groupTags.2 (top ▸ List.mem_map_of_mem mem)

theorem crowdPrimaryOf : groupPrimary crowdInput crowdTop = some crowdPrimary := by
  have found : findOutbound crowdInput.outbounds "primary" = some crowdPrimary :=
    findOutboundOf crowdTagsNodup (List.mem_cons_of_mem _ List.mem_cons_self : crowdPrimary ∈ crowdInput.outbounds)
  have selected : selectedInterface crowdInput crowdTop = some crowdPrimary := by
    unfold selectedInterface walkDepth kMaxUrltestDepth
    rw [resolveSelectedInterface,if_neg (by decide),if_neg (by decide),followSelection]
    have tag : resolveUrltestSelection crowdInput.selections crowdTop.tag = "primary" := rfl
    simp only [tag,found]
    rfl
  rw [groupPrimary,selected]
  rfl

theorem crowdFallbacks : (groupFallbacks crowdInput crowdTop).length = 65536 := by
  have all : groupFallbacks crowdInput crowdTop = crowdGroups.flatMap fun _ => crowdLeaves := by
    rw [groupFallbacks,crowdPrimaryOf,crowdLeavesOf,fallbackChildren,List.filter_cons_of_neg (by simp)]
    apply List.filter_eq_self.mpr
    intro leaf mem
    obtain ⟨_,_,leafMem⟩ := List.mem_flatMap.mp mem
    obtain ⟨n,_,rfl⟩ := List.mem_map.mp leafMem
    have apart : crowdPrimary.tag ≠ seriesTag 'l' n := by
      intro same
      have lengths := congrArg (fun tag => tag.toList.length) same
      simp [crowdPrimary,interfaceOutbound,seriesTag] at lengths
    have usable : crowdInput.usableAny (interfaceOutbound (seriesTag 'l' n) (seriesTag 'n' n)) = true := rfl
    have other : (Option.map (·.tag) (some crowdPrimary) != some (seriesTag 'l' n)) = true := by simpa using apart
    exact Bool.and_eq_true_iff.mpr ⟨other,usable⟩
  have groups : crowdGroups.length = 256 := by rw [crowdGroups,List.length_map,List.length_range]
  have leaves : crowdLeaves.length = 256 := by rw [crowdLeaves,List.length_map,List.length_range]
  rw [all,List.length_flatMap,leaves,List.map_const',List.sum_replicate_nat,groups]

def pairInput : PlanInput :=
  { cfg := { outbounds := some [groupOf "top" [crowdPrimary,interfaceOutbound "second" "eth1"],crowdPrimary,
      interfaceOutbound "second" "eth1"] }
    marks := [("top",0x10000)], selections := [("top","primary")] }

theorem pairKillSwitch : ∃ entries, plannedEntries pairInput = .ok entries ∧ KillSwitchHolds pairInput entries := by
  obtain ⟨entries,planned⟩ : ∃ entries, plannedEntries pairInput = .ok entries := ⟨_,rfl⟩
  refine ⟨entries,planned,(killSwitchHoldsIff pairInput planned).mpr ?_⟩
  intro ob mem _ _ _
  have small : ∀ ob ∈ pairInput.outbounds, (groupFallbacks pairInput ob).length ≤ 65534 := by decide
  exact small ob mem

/- A usable default at the closing metric. -/
theorem crowdedGroupOutgrows :
    ∃ entries, plannedEntries crowdInput = .ok entries ∧ ¬ KillSwitchHolds crowdInput entries := by
  obtain ⟨entries,planned⟩ : ∃ entries, plannedEntries crowdInput = .ok entries := ⟨_,rfl⟩
  have crowded : ¬ groupFits crowdInput crowdTop := by
    intro fits
    have bound := fits (by decide)
    rw [crowdFallbacks] at bound
    omega
  exact ⟨entries,planned,fun holds => crowded (fitsOfKillSwitch crowdInput planned holds List.mem_cons_self rfl rfl)⟩

end KeenPbr
