import KeenPbr.RoutingKillSwitch
import KeenPbr.RoutingTables

/-! The order of the defaults in a group's table: the one the kernel follows, which turns an IPv6
metric 0 into 1024, and the one the firewall's own walk picks a member by. -/
namespace KeenPbr

theorem safeTableIdInj (tableStart : UInt32) {i j : Nat} (hi : i < 31987) (hj : j < 31987)
    (same : safeTableId tableStart (UInt32.ofNat i) = safeTableId tableStart (UInt32.ofNat j)) : i = j := by
  have offset : ∀ n < 31987, (UInt32.ofNat n).toNat = n := by
    intro n small
    rw [UInt32.toNat_ofNat']
    omega
  have ranks := congrArg tableRank same
  rw [safeTableIdEq,safeTableIdEq,tableRankNth,tableRankNth,offset i hi,offset j hj] at ranks
  omega

section Planner
variable (input : PlanInput)

theorem ownTable {entries : List PlannedOutbound} (planned : plannedEntries input = .ok entries)
    (few : (input.outbounds.filter input.tabled).length ≤ 31987) {entry : PlannedOutbound} (mem : entry ∈ entries)
    (route : RouteSpec) (routeMem : route ∈ (joinEntries entries).routes) (table : route.table = entry.tableId) :
    route ∈ entry.routes := by
  obtain ⟨mask,rfl⟩ := plannedEntriesOk input planned
  obtain ⟨other,otherMem,routes⟩ := memJoined.mp routeMem
  obtain ⟨i,ob,at_i,rfl⟩ := (memPlanEntries input).mp mem
  obtain ⟨j,ob',at_j,rfl⟩ := (memPlanEntries input).mp otherMem
  have inside_i := (List.getElem?_eq_some_iff.mp at_i).1
  have inside_j := (List.getElem?_eq_some_iff.mp at_j).1
  rw [plannedRouteTable input route routes,(plannedOutboundOf ..).2,(plannedOutboundOf ..).2,UInt32.zero_add,UInt32.zero_add] at table
  have place := safeTableIdInj _ (by omega) (by omega) table
  subst place
  rw [at_i] at at_j
  cases at_j
  exact routes

/- The selected child's default leads its table in the kernel's order. -/
def PrimaryFirst (entries : List PlannedOutbound) : Prop :=
  ∀ entry ∈ entries, entry.outbound.type = .urltest →
    (resolveUrltestSelection input.selections entry.outbound.tag).isEmpty = false →
    ∀ child, selectedInterface input entry.outbound = some child → ∀ family ∈ families, input.usable child family = true →
      memberDefault entry.tableId 0 child family ∈ (joinEntries entries).routes ∧
      ∀ route ∈ (joinEntries entries).routes, route.table = entry.tableId → route.family = family →
        isUsableDefault route = true → route ≠ memberDefault entry.tableId 0 child family →
          exactRouteKernelMetric 0 family < exactRouteKernelMetric route.metric family

def primaryAlone : Prop :=
  ∀ ob ∈ input.outbounds, ob.type = .urltest → (input.marks.lookup ob.tag).isSome = true →
    (resolveUrltestSelection input.selections ob.tag).isEmpty = false → ∀ child, selectedInterface input ob = some child →
      input.usable child afInet6 = true → ∀ i < 1024, ∀ fallback, (groupFallbacks input ob)[i]? = some fallback →
        input.usable fallback afInet6 = false

theorem usableAnyOf {ob : Outbound} {family : Int} (listed : family ∈ families) (usable : input.usable ob family = true) :
    input.usableAny ob = true := List.any_eq_true.mpr ⟨family,listed,usable⟩

theorem groupPrimaryOf {ob child : Outbound} (selected : selectedInterface input ob = some child)
    (usable : input.usableAny child = true) : groupPrimary input ob = some child := by
  simp [groupPrimary,selected,usable]

theorem groupMembersOf {ob : Outbound} (chosen : (resolveUrltestSelection input.selections ob.tag).isEmpty = false) :
    groupMembers input ob = (groupPrimary input ob).toList.map (·,0) ++ numbered 1 (groupFallbacks input ob) := by
  simp [groupMembers,chosen]

theorem memGroupRoutes {mask : UInt32} {ob : Outbound} {offset : UInt32} {route : RouteSpec} (type : ob.type = .urltest) :
    route ∈ (plannedOutbound input mask ob offset).routes ↔
      (∃ member ∈ groupMembers input ob,
        route ∈ usableDefaults input (safeTableId input.cfg.tableStartValue offset) member.2 member.1) ∨
        route ∈ killSwitch input (safeTableId input.cfg.tableStartValue offset) := by
  rw [← memUrltestRoutes]
  unfold plannedOutbound planOutbound
  simp only [type]

theorem primaryRouteMem (mask offset : UInt32) {ob child : Outbound} {family : Int} (type : ob.type = .urltest)
    (chosen : (resolveUrltestSelection input.selections ob.tag).isEmpty = false)
    (selected : selectedInterface input ob = some child) (listed : family ∈ families)
    (usable : input.usable child family = true) :
    memberDefault (safeTableId input.cfg.tableStartValue offset) 0 child family ∈
      (plannedOutbound input mask ob offset).routes := by
  have primary := groupPrimaryOf input selected (usableAnyOf input listed usable)
  apply (memGroupRoutes input type).mpr
  refine Or.inl ⟨(child,0),?_,(memUsableDefaults input).mpr ⟨family,listed,usable,rfl⟩⟩
  rw [groupMembersOf input chosen,primary]
  exact List.mem_append_left _ List.mem_cons_self

theorem fallbackRouteMem (mask offset : UInt32) {ob fallback : Outbound} {family : Int} {i : Nat}
    (type : ob.type = .urltest) (chosen : (resolveUrltestSelection input.selections ob.tag).isEmpty = false)
    (found : (groupFallbacks input ob)[i]? = some fallback) (listed : family ∈ families)
    (usable : input.usable fallback family = true) :
    memberDefault (safeTableId input.cfg.tableStartValue offset) (1 + UInt32.ofNat i) fallback family ∈
      (plannedOutbound input mask ob offset).routes := by
  apply (memGroupRoutes input type).mpr
  refine Or.inl ⟨(fallback,1 + UInt32.ofNat i),?_,(memUsableDefaults input).mpr ⟨family,listed,usable,rfl⟩⟩
  rw [groupMembersOf input chosen]
  exact List.mem_append_right _ (memNumbered.mpr ⟨i,found,rfl⟩)

theorem aloneOfFirst {entries : List PlannedOutbound} (planned : plannedEntries input = .ok entries)
    (first : PrimaryFirst input entries) : primaryAlone input := by
  intro ob listed type marked chosen child selected usable i small fallback found
  have tabled : input.tabled ob = true := by simp [PlanInput.tabled,Outbound.routable,type,marked]
  obtain ⟨mask,offset,mem⟩ := plannedOf input planned listed tabled
  obtain ⟨outbound,tableId⟩ := plannedOutboundOf input mask ob offset
  have six : afInet6 ∈ families := by decide
  have leads := (first _ mem (by rw [outbound,type]) (by rw [outbound,chosen]) child (by rw [outbound,selected]) afInet6 six
    usable).2
  rw [tableId] at leads
  cases fallbackUsable : input.usable fallback afInet6 with
  | false => rfl
  | true =>
    have route := fallbackRouteMem input mask offset type chosen found six fallbackUsable
    have metric : (1 + UInt32.ofNat i).toNat = 1 + i := by
      rw [UInt32.toNat_add,UInt32.toNat_ofNat']
      simp only [UInt32.reduceToNat]
      omega
    have apart : (1 + UInt32.ofNat i) ≠ 0 := by
      intro zero
      rw [zero] at metric
      simp only [UInt32.reduceToNat] at metric
      omega
    have less := leads _ (memJoined.mpr ⟨_,mem,route⟩) rfl rfl rfl fun same => apart (congrArg RouteSpec.metric same)
    have own : exactRouteKernelMetric (1 + UInt32.ofNat i) afInet6 = 1 + UInt32.ofNat i := by
      simp [exactRouteKernelMetric,apart]
    rw [memberDefault,own,UInt32.lt_iff_toNat_lt,metric] at less
    have leading : (exactRouteKernelMetric 0 afInet6).toNat = 1024 := rfl
    omega

theorem kernelMetricAfter {family : Int} {metric : UInt32} (positive : 0 < metric.toNat)
    (six : family = afInet6 → 1024 < metric.toNat) :
    exactRouteKernelMetric 0 family < exactRouteKernelMetric metric family := by
  have nonzero : metric ≠ 0 := by
    intro zero
    rw [zero] at positive
    exact absurd positive (by decide)
  by_cases ipv6 : family = afInet6
  · have above := six ipv6
    rw [UInt32.lt_iff_toNat_lt]
    simpa [exactRouteKernelMetric,ipv6,nonzero] using above
  · rw [UInt32.lt_iff_toNat_lt]
    simpa [exactRouteKernelMetric,ipv6] using positive

theorem firstOfAlone {entries : List PlannedOutbound} (planned : plannedEntries input = .ok entries)
    (few : (input.outbounds.filter input.tabled).length ≤ 31987)
    (short : ∀ ob ∈ input.outbounds, (groupFallbacks input ob).length < 2 ^ 32) (alone : primaryAlone input) :
    PrimaryFirst input entries := by
  intro entry mem type chosen child selected family listed usable
  have own := ownTable input planned few mem
  obtain ⟨mask,ob,offset,obListed,tabled,rfl⟩ := memPlanned input planned mem
  obtain ⟨outbound,tableId⟩ := plannedOutboundOf input mask ob offset
  rw [outbound] at type chosen selected
  rw [tableId] at own ⊢
  refine ⟨memJoined.mpr ⟨_,mem,primaryRouteMem input mask offset type chosen selected listed usable⟩,?_⟩
  intro route routeMem table sameFamily default other
  cases (memGroupRoutes input type).mp (own route routeMem table) with
  | inr closing =>
    rw [killSwitchNotUsable input closing] at default
    cases default
  | inl owned =>
    obtain ⟨member,memberMem,routeDefault⟩ := owned
    obtain ⟨routeFamily,_,memberUsable,rfl⟩ := (memUsableDefaults input).mp routeDefault
    have sameFamily : routeFamily = family := sameFamily
    subst sameFamily
    rw [groupMembersOf input chosen,groupPrimaryOf input selected (usableAnyOf input listed usable),List.mem_append] at memberMem
    cases memberMem with
    | inl primary =>
      cases List.mem_singleton.mp primary
      exact absurd rfl other
    | inr fallback =>
      obtain ⟨i,found,number⟩ := memNumbered.mp fallback
      have inside := (List.getElem?_eq_some_iff.mp found).1
      have bound := short ob obListed
      have metric : member.2.toNat = 1 + i := by
        rw [number,UInt32.toNat_add,UInt32.toNat_ofNat']
        simp only [UInt32.reduceToNat]
        omega
      apply kernelMetricAfter
      · exact (by omega : 0 < member.2.toNat)
      · intro six
        subst six
        have marked := (Bool.and_eq_true_iff.mp tabled).2
        have notEarly : ¬ i < 1024 := by
          intro early
          have unusable := alone ob obListed type marked chosen child selected usable i early member.1 found
          rw [memberUsable] at unusable
          cases unusable
        exact (by omega : 1024 < member.2.toNat)

/- With IPv6 the first fallbacks come before the selected child; nothing else goes wrong while
tables and metrics do not wrap. -/
theorem primaryFirstWhen {entries : List PlannedOutbound} (planned : plannedEntries input = .ok entries) :
    (PrimaryFirst input entries → primaryAlone input) ∧
      ((input.outbounds.filter input.tabled).length ≤ 31987 →
        (∀ ob ∈ input.outbounds, (groupFallbacks input ob).length < 2 ^ 32) →
        primaryAlone input → PrimaryFirst input entries) :=
  ⟨aloneOfFirst input planned,firstOfAlone input planned⟩

end Planner

def gatewayOutbound (tag interface gateway : String) : Outbound :=
  { tag, type := .interface, interface := some interface, gateway := some gateway }

def ipv4PairInput : PlanInput :=
  { cfg := { outbounds := some [groupOf "top" [gatewayOutbound "first" "eth0" "192.0.2.1",
      gatewayOutbound "second" "eth1" "192.0.2.2"],gatewayOutbound "first" "eth0" "192.0.2.1",
      gatewayOutbound "second" "eth1" "192.0.2.2"] }
    marks := [("top",0x10000)], selections := [("top","first")] }

theorem ipv4PairFirst : ∃ entries, plannedEntries ipv4PairInput = .ok entries ∧ PrimaryFirst ipv4PairInput entries := by
  obtain ⟨entries,planned⟩ : ∃ entries, plannedEntries ipv4PairInput = .ok entries := ⟨_,rfl⟩
  refine ⟨entries,planned,(primaryFirstWhen ipv4PairInput planned).2 (by decide) (by decide) ?_⟩
  intro ob listed _ _ _ child _ _ i _ fallback found
  have none : ∀ ob ∈ ipv4PairInput.outbounds, ∀ fallback ∈ groupFallbacks ipv4PairInput ob,
      ipv4PairInput.usable fallback afInet6 = false := by decide
  exact none ob listed fallback (List.mem_of_getElem? found)

/- The second interface's IPv6 default has metric 1, the selected one's 1024. -/
theorem secondBeforeSelected : ∃ entries, plannedEntries pairInput = .ok entries ∧ ¬ PrimaryFirst pairInput entries := by
  obtain ⟨entries,planned⟩ : ∃ entries, plannedEntries pairInput = .ok entries := ⟨_,rfl⟩
  refine ⟨entries,planned,fun first => ?_⟩
  have alone := aloneOfFirst pairInput planned first
  have unusable := alone (groupOf "top" [crowdPrimary,interfaceOutbound "second" "eth1"]) List.mem_cons_self rfl rfl
    (by decide) crowdPrimary (by decide) (by decide) 0 (by omega) (interfaceOutbound "second" "eth1")
    (by decide)
  exact absurd unusable (by decide)

end KeenPbr
