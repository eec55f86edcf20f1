import KeenPbr.EffectiveOutbound

/-! config/route_failure_policy.hpp, resolve_route_action and build_fw_rule_states: one firewall state
for each route rule. A null pointer to a selection map or a health snapshot is none. -/
namespace KeenPbr

inductive RouteFailureHealth where
  | unknown
  | healthy
  | degraded
  | unavailable
  | linkUnavailable
  deriving DecidableEq, Repr

abbrev RouteFailureHealthSnapshot := List (String × RouteFailureHealth)

def routeFailureIsUnavailable (health : RouteFailureHealth) : Bool := health == .unavailable || health == .linkUnavailable

def routeFailureIsUsable (health : RouteFailureHealth) : Bool := health == .healthy || health == .degraded

def routeFailureGroupChildren (outbound : Outbound) : List String :=
  (outbound.outboundGroups.getD []).flatMap (·.outbounds)

def routeFailureHealthFor (outbounds : List Outbound) (selections : Option UrltestSelections)
    (health : Option RouteFailureHealthSnapshot) : Nat → String → RouteFailureHealth
  | 0, _ => .unknown
  | left + 1, tag =>
    match health,findOutbound outbounds tag with
    | none,_ => .unknown
    | _,none => .unknown
    | some snapshot,some outbound =>
      if outbound.type == .blackhole then .unavailable
      else if outbound.type != .interface && outbound.type != .urltest then .unknown
      else if outbound.type == .urltest then
        match selections with
        | none => .unknown
        | some map =>
          let children := routeFailureGroupChildren outbound
          let selected := resolveUrltestSelection map tag
          if !selected.isEmpty then
            if !children.contains selected then .unknown
            else
              let child := routeFailureHealthFor outbounds selections health left selected
              if child == .linkUnavailable then child
              else if ((findOutbound outbounds selected).map (·.type)) != some .interface then child
              else
                match snapshot.lookup tag with
                | some result => if result != .unknown then result else child
                | none => child
          else if snapshot.lookup tag == some .unavailable then .unavailable
          else if !children.isEmpty && children.all fun child =>
            routeFailureIsUnavailable (routeFailureHealthFor outbounds selections health left child) then .unavailable
          else .unknown
      else (snapshot.lookup tag).getD .unknown

structure RouteFailureTarget where
  outboundTag : String := ""
  drop : Bool := false
  deriving DecidableEq, Repr

def selectRouteFailureTarget (rule : RouteRule) (outbounds : List Outbound) (selections : Option UrltestSelections)
    (health : Option RouteFailureHealthSnapshot) : RouteFailureTarget :=
  let policy := rule.failurePolicy.getD .inherit
  let healthOf := routeFailureHealthFor outbounds selections health 9
  if policy == .inherit || !routeFailureIsUnavailable (healthOf rule.outbound) then { outboundTag := rule.outbound }
  else
    match rule.fallbackOutbound with
    | some fallback =>
      if policy == .fallback && routeFailureIsUsable (healthOf fallback) then { outboundTag := fallback }
      else { drop := true }
    | none => { drop := true }

/- RoutingDecision::none, passthrough and route_to; resolve_route_action never answers skip. -/
inductive RoutingDecision where
  | none
  | passthrough (outbound : Outbound)
  | routeTo (outbound : Outbound)
  deriving DecidableEq, Repr

def resolveRouteAction (outboundTag : String) (outbounds : List Outbound) : RoutingDecision :=
  match findOutbound outbounds outboundTag with
  | .none => .none
  | some ob => if ob.type == .ignore then .passthrough ob else .routeTo ob

inductive RuleActionType where
  | mark
  | drop
  | pass
  | skip
  deriving DecidableEq, Repr

structure RuleState where
  ruleIndex : Nat
  listNames : List String
  setNames : List String := []
  outboundTag : String
  actionType : RuleActionType
  fwmark : UInt32 := 0
  effectiveOutboundTag : String := ""
  fwmarkIpv6 : Option UInt32 := none
  deriving DecidableEq, Repr

def listSetNames (lists : List String) (rule : RouteRule) : List String :=
  ((routeRuleLists rule).filter fun name => lists.contains name).flatMap fun name =>
    ["kpbr4_" ++ name,"kpbr6_" ++ name,"kpbr4d_" ++ name,"kpbr6d_" ++ name]

section Builder
variable (cfg : Config) (marks : OutboundMarkMap) (selections : Option UrltestSelections)
  (health : Option RouteFailureHealthSnapshot) (familyReachability : OutboundFamilyReachabilitySnapshot)

def routedState (base : RuleState) (rule : RouteRule) (target : RouteFailureTarget) (ob : Outbound) : RuleState :=
  let leaf := fun family =>
    resolveEffectiveOutboundForFamily cfg.outboundList ob (selections.getD []) family familyReachability
  let effective := if ob.type == .urltest then leaf afInet else ob
  let setNames := listSetNames cfg.lists rule
  if effective.type == .blackhole || target.drop then
    { base with actionType := .drop, setNames, effectiveOutboundTag := if target.drop then "(blocked)" else "" }
  else
    let fwmark := (marks.lookup effective.tag).getD 0
    let fwmarkIpv6 := if ob.type == .urltest then (marks.lookup (leaf afInet6).tag).filter (· != fwmark) else none
    { base with
      actionType := .mark, setNames, fwmark, fwmarkIpv6,
      effectiveOutboundTag := if target.outboundTag != rule.outbound then effective.tag else "" }

def fwRuleState (rule : RouteRule) (index : Nat) : RuleState :=
  let base : RuleState :=
    { ruleIndex := index, listNames := routeRuleLists rule, outboundTag := rule.outbound, actionType := .skip }
  if !routeRuleEnabled rule then base
  else
    let target := selectRouteFailureTarget rule cfg.outboundList selections health
    match resolveRouteAction (if target.drop then rule.outbound else target.outboundTag) cfg.outboundList with
    | .none => base
    | .passthrough ob =>
      { base with
        actionType := .pass, setNames := listSetNames cfg.lists rule,
        effectiveOutboundTag := if target.outboundTag != rule.outbound then ob.tag else "" }
    | .routeTo ob => routedState cfg marks selections familyReachability base rule target ob

def buildFwRuleStates : List RuleState :=
  cfg.routeRules.zipIdx.map fun (rule,index) => fwRuleState cfg marks selections health familyReachability rule index

/- Every enabled rule reaches the firewall with all its lists. -/
def NoRuleDropped : Prop :=
  ∀ (index : Nat) rule, cfg.routeRules[index]? = some rule → routeRuleEnabled rule = true →
    (∃ state : RuleState, (buildFwRuleStates cfg marks selections health familyReachability)[index]? = some state ∧
      state.actionType ≠ .skip) ∧
    ∀ name ∈ routeRuleLists rule, name ∈ cfg.lists

def referencesExact : Prop :=
  ∀ rule ∈ cfg.routeRules, routeRuleEnabled rule = true →
    trimCopy rule.outbound = rule.outbound ∧ ∀ name ∈ routeRuleLists rule, trimCopy name = name

theorem stateAt (index : Nat) : (buildFwRuleStates cfg marks selections health familyReachability)[index]? =
    cfg.routeRules[index]?.map fun rule => fwRuleState cfg marks selections health familyReachability rule index := by
  rw [buildFwRuleStates,List.getElem?_map,List.getElem?_zipIdx]
  cases cfg.routeRules[index]? <;> simp

theorem routedNotSkipped (base : RuleState) (rule : RouteRule) (target : RouteFailureTarget) (ob : Outbound) :
    (routedState cfg marks selections familyReachability base rule target ob).actionType ≠ .skip := by
  intro skipped
  unfold routedState at skipped
  simp only at skipped
  cases stopped : ((if ob.type == .urltest then
      resolveEffectiveOutboundForFamily cfg.outboundList ob (selections.getD []) afInet familyReachability else ob).type ==
      .blackhole || target.drop) with
  | true =>
    rw [if_pos stopped] at skipped
    cases skipped
  | false =>
    rw [if_neg (by rw [stopped]; decide)] at skipped
    cases skipped

theorem foundByTag {outbounds : List Outbound} {tag : String} :
    (∃ ob, findOutbound outbounds tag = some ob) ↔ tag ∈ outbounds.map (·.tag) := by
  rw [findOutbound,← Option.isSome_iff_exists,List.find?_isSome]
  simp

variable {cfg} in
theorem targetFound {rule : RouteRule} (accepted : AcceptedRule cfg rule)
    (exact_tag : rule.outbound ∈ cfg.outboundList.map (·.tag)) :
    ∃ ob, findOutbound cfg.outboundList
      (if (selectRouteFailureTarget rule cfg.outboundList selections health).drop then rule.outbound
        else (selectRouteFailureTarget rule cfg.outboundList selections health).outboundTag) = some ob := by
  unfold selectRouteFailureTarget
  simp only
  split
  · exact foundByTag.mpr exact_tag
  · cases named : rule.fallbackOutbound with
    | none => exact foundByTag.mpr exact_tag
    | some fallback =>
      simp only
      split
      · rename_i usable
        obtain ⟨path,clean⟩ := accepted.policy
        have policy : rule.failurePolicy.getD .inherit = .fallback := by simpa using (Bool.and_eq_true_iff.mp usable).1
        unfold failurePolicyIssues at clean
        simp only [policy,named,Option.getD_some,List.append_eq_nil_iff,beq_self_eq_true,if_true] at clean
        have target := clean.2
        split at target
        · exact absurd target (oneIssueNotNil _ _ _ _)
        · split at target
          · exact absurd target (oneIssueNotNil _ _ _ _)
          · rename_i ob found
            exact ⟨ob,found⟩
      · exact foundByTag.mpr exact_tag

variable {cfg} in
theorem enabledSkipped {rule : RouteRule} (accepted : AcceptedRule cfg rule) (enabled : routeRuleEnabled rule = true)
    (index : Nat) : (fwRuleState cfg marks selections health familyReachability rule index).actionType ≠ .skip ↔
      rule.outbound ∈ cfg.outboundList.map (·.tag) := by
  unfold fwRuleState
  simp only [enabled,Bool.not_true,Bool.false_eq_true,if_false]
  constructor
  · intro kept
    by_contra missing
    obtain ⟨path,clean⟩ := accepted.policy
    -- a policy other than inherit needs the exact tag
    have inherit : rule.failurePolicy.getD .inherit = .inherit := by
      by_contra other
      unfold failurePolicyIssues at clean
      have absent : findOutbound cfg.outboundList rule.outbound = none := by
        cases found : findOutbound cfg.outboundList rule.outbound with
        | none => rfl
        | some ob => exact absurd (foundByTag.mp ⟨ob,found⟩) missing
      obtain ⟨trimmed,present⟩ := foundByTag.mpr accepted.outbound
      simp only [bne_iff_ne,ne_eq,other,not_false_eq_true,if_true,absent,present,Option.isSome_some,
        List.append_eq_nil_iff] at clean
      exact oneIssueNotNil _ _ _ _ clean.1
    have target : selectRouteFailureTarget rule cfg.outboundList selections health = { outboundTag := rule.outbound } := by
      simp [selectRouteFailureTarget,inherit]
    rw [target] at kept
    simp only [Bool.false_eq_true,if_false,resolveRouteAction] at kept
    split at kept
    · exact kept rfl
    · rename_i ob passed
      split at passed
      · cases passed
      · rename_i found
        exact missing (foundByTag.mp ⟨_,found⟩)
    · rename_i ob passed
      split at passed
      · cases passed
      · rename_i found
        exact missing (foundByTag.mp ⟨_,found⟩)
  · intro exact_tag
    obtain ⟨ob,found⟩ := targetFound selections health accepted exact_tag
    rw [resolveRouteAction,found]
    simp only
    split
    · rename_i impossible
      split at impossible <;> cases impossible
    · exact fun skipped => by cases skipped
    · exact routedNotSkipped cfg marks selections familyReachability _ _ _ _

variable {cfg} in
theorem exactOfKept {inet : Inet} (accepted : validateConfig inet cfg = [])
    (kept : NoRuleDropped cfg marks selections health familyReachability) : referencesExact cfg := by
  have checked := acceptedConfig accepted
  intro rule mem enabled
  obtain ⟨index,at_index⟩ := List.mem_iff_getElem?.mp mem
  obtain ⟨⟨state,stated,notSkipped⟩,lists⟩ := kept index rule at_index enabled
  rw [stateAt,at_index] at stated
  cases stated
  have tag := (enabledSkipped marks selections health familyReachability (acceptedRules checked.rules rule mem) enabled index).mp
    notSkipped
  obtain ⟨ob,listed,same⟩ := List.mem_map.mp tag
  refine ⟨?_,fun name listed => trimValidTag (checked.lists name (lists name listed))⟩
  rw [← same]
  exact trimValidTag (outboundTagValid checked listed)

variable {cfg} in
theorem keptOfExact {inet : Inet} (accepted : validateConfig inet cfg = []) (exact_refs : referencesExact cfg) :
    NoRuleDropped cfg marks selections health familyReachability := by
  have checked := acceptedConfig accepted
  intro index rule at_index enabled
  have mem := List.mem_of_getElem? at_index
  have checkedRule := acceptedRules checked.rules rule mem
  obtain ⟨outbound,lists⟩ := exact_refs rule mem enabled
  refine ⟨⟨_,by rw [stateAt,at_index]; rfl,?_⟩,?_⟩
  · rw [enabledSkipped marks selections health familyReachability checkedRule enabled index]
    have known := checkedRule.outbound
    rwa [outbound] at known
  · intro name listed
    have known := checkedRule.lists name listed
    rwa [lists name listed] at known

variable {cfg} in
/- An accepted rule is dropped exactly when a reference is written with blanks around it. -/
theorem noRuleDroppedIff {inet : Inet} (accepted : validateConfig inet cfg = []) :
    NoRuleDropped cfg marks selections health familyReachability ↔ referencesExact cfg := by
  constructor
  · exact exactOfKept marks selections health familyReachability accepted
  · exact keptOfExact marks selections health familyReachability accepted

end Builder

def oneRuleConfig (outbound list : String) : Config :=
  { outbounds := some [wanOutbound], lists := ["games"], routeRules := [{ outbound, list := some [list] }] }

theorem oneRuleAccepted : validateConfig noInet (oneRuleConfig "wan" "games") = [] ∧
    validateConfig noInet (oneRuleConfig " wan" "games") = [] := by decide

theorem exactRuleKept : NoRuleDropped (oneRuleConfig "wan" "games") [("wan",0x10000)] none none [] := by
  apply (noRuleDroppedIff [("wan",0x10000)] none none [] oneRuleAccepted.1).mpr
  unfold referencesExact
  decide

/- The blank is trimmed by the validator and looked up by the builder. -/
theorem blankedRuleSkipped : validateConfig noInet (oneRuleConfig " wan" "games") = [] ∧
    ¬ NoRuleDropped (oneRuleConfig " wan" "games") [("wan",0x10000)] none none [] := by
  refine ⟨oneRuleAccepted.2,fun kept => ?_⟩
  have exact_refs := exactOfKept [("wan",0x10000)] none none [] oneRuleAccepted.2 kept
  exact absurd (exact_refs _ List.mem_cons_self rfl).1 (by decide)

end KeenPbr
