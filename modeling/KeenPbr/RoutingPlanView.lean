import KeenPbr.RoutingPlan

/-! The plan read as a table of members. A member is an interface outbound with the metric of its
defaults; an urltest table is its members' usable defaults over the unreachable ones. -/
namespace KeenPbr

def families : List Int := [afInet,afInet6]

theorem memFamilies {family : Int} : family ∈ families ↔ family = afInet ∨ family = afInet6 := by
  simp [families]

def Outbound.gatewayFor (ob : Outbound) (family : Int) : Option String :=
  if family == afInet then ob.gateway else ob.gateway6

def Outbound.hasDefault (ob : Outbound) (family : Int) : Bool :=
  ob.gateway.isNone && ob.gateway6.isNone || (ob.gatewayFor family).isSome

def memberDefault (tableId metric : UInt32) (ob : Outbound) (family : Int) : RouteSpec :=
  { defaultVia tableId ob family (ob.gatewayFor family) with metric }

theorem makeDefaultRoutesEq (tableId metric : UInt32) (ob : Outbound) :
    (makeDefaultRoutes tableId ob).map (fun route => { route with metric }) =
      (families.filter ob.hasDefault).map (memberDefault tableId metric ob) := by
  cases four : ob.gateway <;> cases six : ob.gateway6 <;>
    simp [makeDefaultRoutes,families,Outbound.hasDefault,memberDefault,defaultVia,Outbound.gatewayFor,four,six,afInet,afInet6]

section Planner
variable (input : PlanInput)

def PlanInput.familyEnabled (family : Int) : Bool := input.ipv6Enabled || family != afInet6

def PlanInput.usable (ob : Outbound) (family : Int) : Bool :=
  ob.hasDefault family && (input.reachable ob.tag).forFamily family && input.familyEnabled family

def PlanInput.usableAny (ob : Outbound) : Bool := families.any (input.usable ob)

theorem usableDefaultsEq (tableId metric : UInt32) (ob : Outbound) :
    usableDefaults input tableId metric ob = (families.filter (input.usable ob)).map (memberDefault tableId metric ob) := by
  rw [usableDefaults,makeDefaultRoutesEq,List.filter_map,List.filter_filter]
  congr 1
  apply List.filter_congr
  intro family _
  simp only [Function.comp_apply,PlanInput.usable,PlanInput.enabled,PlanInput.familyEnabled,memberDefault,defaultVia]
  rw [Bool.and_comm,Bool.and_assoc]

theorem memUsableDefaults {tableId metric : UInt32} {ob : Outbound} {route : RouteSpec} :
    route ∈ usableDefaults input tableId metric ob ↔
      ∃ family ∈ families, input.usable ob family = true ∧ memberDefault tableId metric ob family = route := by
  rw [usableDefaultsEq]
  simp only [List.mem_map,List.mem_filter,and_assoc]

theorem usableDefaultsEmpty (tableId metric : UInt32) (ob : Outbound) :
    (usableDefaults input tableId metric ob).isEmpty = !input.usableAny ob := by
  rw [usableDefaultsEq,PlanInput.usableAny,Bool.eq_iff_iff]
  simp [List.filter_eq_nil_iff]

theorem usableReachable {ob : Outbound} (usable : input.usableAny ob = true) :
    (input.reachable ob.tag).any input.ipv6Enabled = true := by
  simp only [PlanInput.usableAny,families,List.any_cons,List.any_nil,Bool.or_false,Bool.or_eq_true] at usable
  simp only [PlanInput.usable,PlanInput.familyEnabled,OutboundFamilyReachability.forFamily,Bool.and_eq_true] at usable
  simp only [OutboundFamilyReachability.any,Bool.or_eq_true,Bool.and_eq_true]
  cases usable with
  | inl four => exact Or.inl (by simpa using four.1.2)
  | inr six =>
    have reach := six.1.2
    have enabled := six.2
    exact Or.inr ⟨by simpa [afInet6] using enabled,by simpa [afInet,afInet6] using reach⟩

theorem memEnabledClosures {tableId : UInt32} {ob : Outbound} {route : RouteSpec}
    (mem : route ∈ enabledClosures input tableId ob) : route ∈ killSwitch input tableId := by
  rw [enabledClosures,List.mem_filter] at mem
  rw [killSwitch,List.mem_filter]
  obtain ⟨mem,enabled⟩ := mem
  have listed : route ∈ makeUnreachableRoutes tableId := by
    unfold makeFamilyClosureRoutes at mem
    simp only [makeUnreachableRoutes,List.mem_cons,List.not_mem_nil,or_false]
    split at mem
    · cases mem
    · rw [List.mem_append] at mem
      cases mem with
      | inl four =>
        split at four
        · exact Or.inl (List.mem_singleton.mp four)
        · cases four
      | inr six =>
        split at six
        · exact Or.inr (List.mem_singleton.mp six)
        · cases six
  exact ⟨listed,enabled⟩

theorem memKillSwitch {tableId : UInt32} {route : RouteSpec} :
    route ∈ killSwitch input tableId ↔ ∃ family ∈ families, input.familyEnabled family = true ∧
      unreachableDefault tableId kUnreachableRouteMetric family = route := by
  simp only [killSwitch,makeUnreachableRoutes,families,List.mem_filter,List.mem_cons,List.not_mem_nil,or_false]
  constructor
  · intro mem
    obtain ⟨four | six,enabled⟩ := mem
    · subst four
      exact ⟨afInet,Or.inl rfl,enabled,rfl⟩
    · subst six
      exact ⟨afInet6,Or.inr rfl,enabled,rfl⟩
  · intro mem
    obtain ⟨family,listed,enabled,rfl⟩ := mem
    cases listed with
    | inl four =>
      subst four
      exact ⟨Or.inl rfl,enabled⟩
    | inr six =>
      subst six
      exact ⟨Or.inr rfl,enabled⟩

def numbered : UInt32 → List Outbound → List (Outbound × UInt32)
  | _, [] => []
  | metric, child :: rest => (child,metric) :: numbered (metric + 1) rest

def fallbackChildren (skip : Option String) (leaves : List Outbound) : List Outbound :=
  leaves.filter fun child => skip != some child.tag && input.usableAny child

def memberRoutes (tableId : UInt32) (member : Outbound × UInt32) : List RouteSpec :=
  usableDefaults input tableId member.2 member.1 ++ enabledClosures input tableId member.1

theorem fallbackRoutesEq (tableId : UInt32) (skip : Option String) (metric : UInt32) (leaves : List Outbound) :
    fallbackRoutes input tableId skip metric leaves =
      (numbered metric (fallbackChildren input skip leaves)).flatMap (memberRoutes input tableId) := by
  induction leaves generalizing metric with
  | nil => rfl
  | cons child rest ih =>
    cases usable : input.usableAny child with
    | false =>
      have kept : fallbackChildren input skip (child :: rest) = fallbackChildren input skip rest := by
        simp [fallbackChildren,usable]
      simp [fallbackRoutes,usableDefaultsEmpty,usable,ih,kept]
    | true =>
      cases skipped : skip == some child.tag with
      | true =>
        have kept : fallbackChildren input skip (child :: rest) = fallbackChildren input skip rest := by
          simp [fallbackChildren,bne,skipped]
        simp [fallbackRoutes,skipped,ih,kept]
      | false =>
        have kept : fallbackChildren input skip (child :: rest) = child :: fallbackChildren input skip rest := by
          simp [fallbackChildren,bne,skipped,usable]
        simp [fallbackRoutes,skipped,usableDefaultsEmpty,usable,usableReachable input usable,ih,kept,numbered,
          memberRoutes]

def groupPrimary (ob : Outbound) : Option Outbound := (selectedInterface input ob).filter input.usableAny

def groupFallbacks (ob : Outbound) : List Outbound :=
  fallbackChildren input ((groupPrimary input ob).map (·.tag)) (urltestLeaves input.outbounds ob)

def groupMembers (ob : Outbound) : List (Outbound × UInt32) :=
  if (resolveUrltestSelection input.selections ob.tag).isEmpty then []
  else (groupPrimary input ob).toList.map (·,0) ++ numbered 1 (groupFallbacks input ob)

theorem plannedPrimaryEq (tableId : UInt32) (selected : Option Outbound) :
    plannedPrimary input tableId selected = (selected.filter input.usableAny).map (·.tag) := by
  cases selected with
  | none => rfl
  | some selected =>
    cases usable : input.usableAny selected with
    | false => simp [plannedPrimary,usableDefaultsEmpty,usable]
    | true => simp [plannedPrimary,usableDefaultsEmpty,usable,usableReachable input usable]

theorem memPrimaryRoutes {tableId : UInt32} {selected : Option Outbound} {route : RouteSpec} :
    route ∈ primaryRoutes input tableId selected →
      (∃ child, selected = some child ∧ route ∈ usableDefaults input tableId 0 child) ∨ route ∈ killSwitch input tableId := by
  cases selected with
  | none =>
    intro mem
    cases mem
  | some selected =>
    intro mem
    simp only [primaryRoutes] at mem
    split at mem
    · rw [List.mem_append] at mem
      cases mem with
      | inl default => exact Or.inl ⟨selected,rfl,default⟩
      | inr closure => exact Or.inr (memEnabledClosures input closure)
    · cases mem

theorem memMemberRoutes {tableId : UInt32} {member : Outbound × UInt32} {route : RouteSpec}
    (mem : route ∈ memberRoutes input tableId member) :
    route ∈ usableDefaults input tableId member.2 member.1 ∨ route ∈ killSwitch input tableId := by
  rw [memberRoutes,List.mem_append] at mem
  exact mem.imp_right (memEnabledClosures input)

theorem memDefaultUsable {tableId metric : UInt32} {ob : Outbound} {route : RouteSpec}
    (mem : route ∈ usableDefaults input tableId metric ob) : input.usableAny ob = true := by
  obtain ⟨family,listed,usable,_⟩ := (memUsableDefaults input).mp mem
  exact List.any_eq_true.mpr ⟨family,listed,usable⟩

theorem memUrltestRoutes {tableId : UInt32} {ob : Outbound} {route : RouteSpec} :
    route ∈ urltestRoutes input tableId ob ↔
      (∃ member ∈ groupMembers input ob, route ∈ usableDefaults input tableId member.2 member.1) ∨
        route ∈ killSwitch input tableId := by
  simp only [urltestRoutes,groupMembers]
  split
  · simp
  · rw [List.mem_append,List.mem_append,fallbackRoutesEq,plannedPrimaryEq,List.mem_flatMap]
    constructor
    · intro mem
      obtain (primary | fallback) | closure := mem
      · cases memPrimaryRoutes input primary with
        | inr closure => exact Or.inr closure
        | inl default =>
          obtain ⟨child,chosen,default⟩ := default
          have usable := memDefaultUsable input default
          have member : groupPrimary input ob = some child := by simp [groupPrimary,chosen,usable]
          exact Or.inl ⟨(child,0),by simp [member],default⟩
      · obtain ⟨member,listed,mem⟩ := fallback
        cases memMemberRoutes input mem with
        | inl default => exact Or.inl ⟨member,List.mem_append_right _ listed,default⟩
        | inr closure => exact Or.inr closure
      · exact Or.inr closure
    · intro mem
      obtain ⟨member,listed,default⟩ | closure := mem
      · rw [List.mem_append] at listed
        cases listed with
        | inr fallback => exact Or.inl (Or.inr ⟨member,fallback,List.mem_append_left _ default⟩)
        | inl primary =>
          cases chosen : groupPrimary input ob with
          | none => simp [chosen] at primary
          | some child =>
            rw [chosen] at primary
            cases List.mem_singleton.mp primary
            have selected : selectedInterface input ob = some child := (Option.filter_eq_some_iff.mp chosen).1
            have usable : input.usableAny child = true := (Option.filter_eq_some_iff.mp chosen).2
            left
            left
            rw [selected,primaryRoutes]
            simp only [usableReachable input usable,if_true]
            exact List.mem_append_left _ default
      · exact Or.inr closure

def PlanInput.tabled (ob : Outbound) : Bool := ob.routable && (input.marks.lookup ob.tag).isSome

def plannedOutbound (mask : UInt32) (ob : Outbound) (offset : UInt32) : PlannedOutbound :=
  planOutbound input mask ob (safeTableId input.cfg.tableStartValue offset) ((input.marks.lookup ob.tag).getD 0)

theorem planEntriesAt (mask : UInt32) (outbounds : List Outbound) (offset : UInt32) (i : Nat) :
    (planEntries input mask outbounds offset)[i]? =
      (outbounds.filter input.tabled)[i]?.map fun ob => plannedOutbound input mask ob (offset + UInt32.ofNat i) := by
  induction outbounds generalizing offset i with
  | nil => simp [planEntries]
  | cons ob rest ih =>
    cases tabled : input.tabled ob with
    | false =>
      have skipped : (if ob.routable then input.marks.lookup ob.tag else none) = none := by
        cases routable : ob.routable with
        | false => rfl
        | true => simpa [PlanInput.tabled,routable] using tabled
      rw [planEntries,skipped,List.filter_cons_of_neg (by simp [tabled]),ih]
    | true =>
      obtain ⟨routable,marked⟩ := Bool.and_eq_true_iff.mp tabled
      obtain ⟨mark,found⟩ := Option.isSome_iff_exists.mp marked
      have taken : (if ob.routable then input.marks.lookup ob.tag else none) = some mark := by rw [routable,if_pos rfl,found]
      rw [planEntries,taken,List.filter_cons_of_pos (by simp [tabled])]
      cases i with
      | zero =>
        simp [plannedOutbound,found]
      | succ i =>
        have step : offset + 1 + UInt32.ofNat i = offset + UInt32.ofNat (i + 1) := by
          rw [UInt32.ofNat_add,UInt32.add_assoc,UInt32.add_comm 1]
          rfl
        rw [List.getElem?_cons_succ,List.getElem?_cons_succ,ih,step]

theorem memPlanEntries {mask : UInt32} {outbounds : List Outbound} {offset : UInt32} {entry : PlannedOutbound} :
    entry ∈ planEntries input mask outbounds offset ↔
      ∃ i ob, (outbounds.filter input.tabled)[i]? = some ob ∧ plannedOutbound input mask ob (offset + UInt32.ofNat i) = entry := by
  rw [List.mem_iff_getElem?]
  simp only [planEntriesAt,Option.map_eq_some_iff]

theorem plannedOutboundOf (mask : UInt32) (ob : Outbound) (offset : UInt32) :
    (plannedOutbound input mask ob offset).outbound = ob ∧
      (plannedOutbound input mask ob offset).tableId = safeTableId input.cfg.tableStartValue offset := by
  unfold plannedOutbound planOutbound
  cases ob.type <;> exact ⟨rfl,rfl⟩

theorem plannedRulesShape (mask : UInt32) (ob : Outbound) (offset : UInt32) :
    (plannedOutbound input mask ob offset).rules = [] ∨ ∃ rule, (plannedOutbound input mask ob offset).rules = [rule] ∧
      rule.priority = safeTableId input.cfg.tableStartValue offset := by
  unfold plannedOutbound planOutbound
  cases ob.type with
  | interface =>
    simp only [interfaceRules]
    split
    · exact Or.inl rfl
    · exact Or.inr ⟨_,rfl,rfl⟩
  | table | urltest => exact Or.inr ⟨_,rfl,rfl⟩
  | blackhole | ignore => exact Or.inl rfl

end Planner

end KeenPbr
