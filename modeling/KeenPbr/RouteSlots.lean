import KeenPbr.RouteTypes

/-! A route's kernel slot and a rule's visible identity, and the matchers read through them.
A list with one occupant of a slot is the shape every exact operation asks for. -/
namespace KeenPbr

structure Slot where
  destination : String
  table : UInt32
  family : Int
  metric : UInt32
  deriving DecidableEq, Repr

def RouteSpec.slot (spec : RouteSpec) : Slot :=
  ⟨spec.destination,spec.table,spec.family,exactRouteKernelMetric spec.metric spec.family⟩

def DumpedRoute.slot (route : DumpedRoute) : Slot :=
  ⟨route.destination,route.table,route.family,exactRouteKernelMetric route.metric route.family⟩

theorem sameSlotIff (expected : RouteSpec) (actual : DumpedRoute) :
    exactRouteSameSlot expected actual = true ↔ actual.slot = expected.slot := by
  simp only [exactRouteSameSlot,RouteSpec.slot,DumpedRoute.slot,Bool.and_eq_true,beq_iff_eq,Slot.mk.injEq]
  constructor
  · rintro ⟨⟨⟨h1,h2⟩,h3⟩,h4⟩; exact ⟨h1.symm,h2.symm,h3.symm,h4.symm⟩
  · rintro ⟨h1,h2,h3,h4⟩; exact ⟨⟨⟨h1.symm,h2.symm⟩,h3.symm⟩,h4.symm⟩

theorem slotTableFamily {expected : RouteSpec} {actual : DumpedRoute} (h : actual.slot = expected.slot) :
    actual.table = expected.table ∧ actual.family = expected.family := by
  simp only [RouteSpec.slot,DumpedRoute.slot,Slot.mk.injEq] at h
  exact ⟨h.2.1,h.2.2.1⟩

theorem slotFromLive (route : DumpedRoute) : (routeSpecFromLive route).slot = route.slot := rfl

theorem slotFromSpec (spec : RouteSpec) : (dumpedRouteFromSpec spec).slot = spec.slot := rfl

theorem routeSpecsEqualIff (left right : RouteSpec) : routeSpecsEqual left right = true ↔ left = right := by
  cases left; cases right
  simp [routeSpecsEqual,and_assoc]

theorem matchesLiveIff (expected : RouteSpec) (actual : DumpedRoute) :
    exactRouteMatchesLive expected actual = true ↔
      actual.exactIdentityRepresentable = true ∧ actual.slot = expected.slot ∧
      expected.interface = actual.interface ∧ expected.gateway = actual.gateway ∧
      expected.blackhole = actual.blackhole ∧ expected.unreachable = actual.unreachable ∧
      expected.protocol = actual.protocol := by
  rw [← sameSlotIff]
  simp only [exactRouteMatchesLive,Bool.and_eq_true,beq_iff_eq,and_assoc]

theorem matchesLiveSlot {expected : RouteSpec} {actual : DumpedRoute}
    (h : exactRouteMatchesLive expected actual = true) : actual.slot = expected.slot :=
  ((matchesLiveIff _ _).mp h).2.1

theorem matchesLiveRepresentable {expected : RouteSpec} {actual : DumpedRoute}
    (h : exactRouteMatchesLive expected actual = true) : actual.exactIdentityRepresentable = true :=
  ((matchesLiveIff _ _).mp h).1

theorem matchesLiveFromLive {route : DumpedRoute} (h : route.exactIdentityRepresentable = true) :
    exactRouteMatchesLive (routeSpecFromLive route) route = true := by
  simp [exactRouteMatchesLive,exactRouteSameSlot,routeSpecFromLive,h]

theorem generatedOfMatch {expected : RouteSpec} {actual : DumpedRoute}
    (h : exactRouteMatchesLive expected actual = true) :
    isGeneratedRouteCandidate actual = isGeneratedRouteCandidate (dumpedRouteFromSpec expected) := by
  obtain ⟨_,slot,_,_,_,_,protocol⟩ := (matchesLiveIff _ _).mp h
  simp only [isGeneratedRouteCandidate,dumpedRouteFromSpec,(slotTableFamily slot).1,protocol]

def occupants (slot : Slot) (live : List DumpedRoute) : List DumpedRoute :=
  live.filter fun route => route.slot = slot

theorem filterSameSlot (expected : RouteSpec) (live : List DumpedRoute) :
    live.filter (exactRouteSameSlot expected) = occupants expected.slot live := by
  apply List.filter_congr
  intro route _
  rw [Bool.eq_iff_iff,sameSlotIff]
  simp

theorem memOccupants {slot : Slot} {live : List DumpedRoute} {route : DumpedRoute} :
    route ∈ occupants slot live ↔ route ∈ live ∧ route.slot = slot := by
  simp [occupants]

theorem slotEmptyIff (expected : RouteSpec) (live : List DumpedRoute) :
    exactSlotState expected live = .empty ↔ occupants expected.slot live = [] := by
  simp only [exactSlotState,filterSameSlot]
  split
  · rename_i h
    simp_all
  · rename_i h
    have some : occupants expected.slot live ≠ [] := by simpa using h
    simp only [some,iff_false]
    split <;> simp

theorem slotSingleIff (expected : RouteSpec) (live : List DumpedRoute) :
    exactSlotState expected live = .exactSingle ↔
      ∃ route, occupants expected.slot live = [route] ∧ exactRouteMatchesLive expected route = true := by
  simp only [exactSlotState,filterSameSlot]
  cases h : occupants expected.slot live with
  | nil => simp
  | cons head tail =>
    cases tail with
    | nil => cases hm : exactRouteMatchesLive expected head <;> simp [hm]
    | cons second rest => simp

theorem routePresentIff (expected : RouteSpec) (live : List DumpedRoute) :
    routePresent expected live = true ↔ ∃ route ∈ live, exactRouteMatchesLive expected route = true := by
  simp [routePresent]

theorem occupantsOfFamily (slot : Slot) (live : List DumpedRoute) :
    occupants slot (live.filter fun r => r.family == slot.family) = occupants slot live := by
  simp only [occupants,List.filter_filter]
  apply List.filter_congr
  intro route _
  by_cases h : route.slot = slot
  · have family : route.family = slot.family := by rw [← h]; rfl
    simp [h,family]
  · simp [h]

theorem slotMatchesPreimagesIff (candidate preimage : RouteSpec) (live : List DumpedRoute) :
    slotMatchesPreimages candidate [preimage] live = true ↔
      ∃ route, occupants candidate.slot live = [route] ∧ route.exactIdentityRepresentable = true ∧
        routeSpecFromLive route = preimage := by
  simp only [slotMatchesPreimages,filterSameSlot]
  cases h : occupants candidate.slot live with
  | nil => simp
  | cons head tail =>
    cases tail with
    | nil =>
      cases hr : head.exactIdentityRepresentable
      · simp [hr]
      · simp only [hr,List.any_cons,List.any_nil,List.map_cons,List.map_nil,List.all_cons,List.all_nil]
        simp [routeSpecsEqualIff,hr,eq_comm (a := preimage)]
    | cons second rest => simp

/- Policy rules: the five visible fields are the identity. -/

def RuleSpec.Names (spec : RuleSpec) (rule : DumpedRule) : Prop :=
  spec.fwmark = rule.fwmark ∧ spec.fwmask = rule.fwmask ∧ spec.table = rule.table ∧
    spec.priority = rule.priority ∧ spec.family = rule.family
instance (spec : RuleSpec) (rule : DumpedRule) : Decidable (spec.Names rule) := by
  unfold RuleSpec.Names; infer_instance

theorem ruleMatchesIff (spec : RuleSpec) (rule : DumpedRule) :
    ruleMatchesLive spec rule = true ↔ spec.Names rule := by
  simp only [ruleMatchesLive,RuleSpec.Names,Bool.and_eq_true,beq_iff_eq,and_assoc]

theorem ruleIdentityIff (spec : RuleSpec) (rule : DumpedRule) :
    ruleOccupiesSameIdentity spec rule = true ↔ spec.Names rule := by
  simp only [ruleOccupiesSameIdentity,RuleSpec.Names,Bool.and_eq_true,beq_iff_eq,and_assoc]

def bearers (spec : RuleSpec) (live : List DumpedRule) : List DumpedRule := live.filter fun rule => spec.Names rule

theorem filterMatches (spec : RuleSpec) (live : List DumpedRule) :
    live.filter (ruleMatchesLive spec) = bearers spec live := by
  apply List.filter_congr
  intro rule _
  rw [Bool.eq_iff_iff,ruleMatchesIff]
  simp

theorem filterIdentity (spec : RuleSpec) (live : List DumpedRule) :
    live.filter (ruleOccupiesSameIdentity spec) = bearers spec live := by
  apply List.filter_congr
  intro rule _
  rw [Bool.eq_iff_iff,ruleIdentityIff]
  simp

theorem memBearers {spec : RuleSpec} {live : List DumpedRule} {rule : DumpedRule} :
    rule ∈ bearers spec live ↔ rule ∈ live ∧ spec.Names rule := by
  simp [bearers]

theorem ruleEmptyIff (spec : RuleSpec) (live : List DumpedRule) :
    exactRuleState spec live = .empty ↔ bearers spec live = [] := by
  simp only [exactRuleState,filterIdentity]
  split
  · rename_i h
    simp_all
  · rename_i h
    have some : bearers spec live ≠ [] := by simpa using h
    simp only [some,iff_false]
    split <;> simp

theorem ruleSingleIff (spec : RuleSpec) (live : List DumpedRule) :
    exactRuleState spec live = .exactSingle ↔
      ∃ rule, bearers spec live = [rule] ∧ rule.exactIdentityRepresentable = true := by
  simp only [exactRuleState,filterIdentity]
  cases h : bearers spec live with
  | nil => simp
  | cons head tail =>
    have named : spec.Names head := (memBearers.mp (by rw [h]; exact List.mem_cons_self)).2
    cases tail with
    | nil => cases hr : head.exactIdentityRepresentable <;> simp [hr,(ruleMatchesIff _ _).mpr named]
    | cons second rest => simp

theorem bearersOfFamily (spec : RuleSpec) (live : List DumpedRule) :
    bearers spec (live.filter fun r => r.family == spec.family) = bearers spec live := by
  simp only [bearers,List.filter_filter]
  apply List.filter_congr
  intro rule _
  by_cases h : spec.Names rule
  · simp [h,h.2.2.2.2]
  · simp [h]

end KeenPbr
