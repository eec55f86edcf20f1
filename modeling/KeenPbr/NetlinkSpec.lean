import KeenPbr.Netlink
import KeenPbr.RouteSlots

/-! What each NetlinkManager call can have done to the kernel once it returned or raised.
A caller reads these and never unfolds the calls: the exact operations act on one slot and
leave the rest of the inventory as it was, also when they raise. -/
namespace KeenPbr
open Wp

@[ext] theorem Kernel.ext {j k : Kernel} (routes : j.routes = k.routes) (rules : j.rules = k.rules) : j = k := by
  cases j; cases k
  simp_all

def withoutSlot (slot : Slot) (live : List DumpedRoute) : List DumpedRoute :=
  live.filter fun route => route.slot ≠ slot

def withSlot (slot : Slot) (new : DumpedRoute) (live : List DumpedRoute) : List DumpedRoute :=
  live.map fun route => if route.slot = slot then new else route

theorem withoutSlotOfNone {slot : Slot} {live : List DumpedRoute} (h : occupants slot live = []) :
    withoutSlot slot live = live := by
  apply List.filter_eq_self.mpr
  intro route mem
  have away : route.slot ≠ slot := by
    intro same
    have : route ∈ occupants slot live := memOccupants.mpr ⟨mem,same⟩
    simp [h] at this
  simpa using away

theorem withSlotOfNone {slot : Slot} {live : List DumpedRoute} (h : occupants slot live = [])
    (new : DumpedRoute) : withSlot slot new live = live := by
  have fixed : ∀ route ∈ live, (if route.slot = slot then new else route) = route := by
    intro route mem
    rw [if_neg]
    intro same
    have : route ∈ occupants slot live := memOccupants.mpr ⟨mem,same⟩
    simp [h] at this
  simpa [withSlot] using List.map_congr_left fixed

theorem occupantsCons (slot : Slot) (head : DumpedRoute) (rest : List DumpedRoute) :
    occupants slot (head :: rest) =
      if head.slot = slot then head :: occupants slot rest else occupants slot rest := by
  simp only [occupants,List.filter_cons,decide_eq_true_eq]

theorem occupantsWithSlot {slot other : Slot} {live : List DumpedRoute} {new : DumpedRoute} (here : new.slot = slot) (away : other ≠ slot) :
    occupants other (withSlot slot new live) = occupants other live := by
  induction live with
  | nil => rfl
  | cons head rest ih =>
    rw [withSlot,List.map_cons,occupantsCons,occupantsCons]
    rw [withSlot] at ih
    rw [ih]
    by_cases same : head.slot = slot
    · simp [same,here,away.symm]
    · simp [same]

theorem occupantsWithoutSlot {slot other : Slot} {live : List DumpedRoute} (away : other ≠ slot) :
    occupants other (withoutSlot slot live) = occupants other live := by
  rw [occupants,withoutSlot,List.filter_filter]
  apply List.filter_congr
  intro route _
  by_cases same : route.slot = other
  · simp [same,away]
  · simp [same]

theorem eraseSingle {slot : Slot} {live : List DumpedRoute} {x : DumpedRoute} {p : DumpedRoute → Bool}
    (single : occupants slot live = [x]) (hit : p x = true)
    (only : ∀ route ∈ live, p route = true → route.slot = slot) :
    live.eraseP p = withoutSlot slot live := by
  induction live with
  | nil => simp [occupants] at single
  | cons head rest ih =>
    rw [occupantsCons] at single
    split at single
    · rename_i here
      obtain ⟨rfl,none⟩ := List.cons.inj single
      rw [List.eraseP_cons_of_pos hit]
      have tail := withoutSlotOfNone none
      simpa [withoutSlot,here] using tail.symm
    · rename_i away
      have miss : ¬p head = true := fun h => away (only head List.mem_cons_self h)
      rw [List.eraseP_cons_of_neg miss,
        ih single fun route mem => only route (List.mem_cons_of_mem _ mem)]
      simp [withoutSlot,away]

theorem replaceSingle {slot : Slot} {live : List DumpedRoute} {x new : DumpedRoute}
    (single : occupants slot live = [x])
    (same : ∀ route ∈ live, sameKernelSlot new route = true ↔ route.slot = slot) :
    Kernel.replaceFirst new live = withSlot slot new live := by
  induction live with
  | nil => simp [occupants] at single
  | cons head rest ih =>
    have here := same head List.mem_cons_self
    rw [occupantsCons] at single
    split at single
    · rename_i slotHere
      obtain ⟨rfl,none⟩ := List.cons.inj single
      have tail := withSlotOfNone none new
      simpa [Kernel.replaceFirst,here.mpr slotHere,withSlot,slotHere] using tail.symm
    · rename_i away
      have tail := ih single fun route mem => same route (List.mem_cons_of_mem _ mem)
      have miss : ¬sameKernelSlot new head = true := fun h => away (here.mp h)
      simp only [Kernel.replaceFirst,if_neg miss,tail]
      simp [withSlot,away]

/- The compatibility matchers and the exact ones agree on a settled inventory. -/

variable {spec : RouteSpec} {route : DumpedRoute}

theorem explicitFamily (explicit : spec.family ≠ 0) : routeFamily spec = spec.family := by
  simp [routeFamily,explicit]

theorem settledMetricIff (explicit : spec.family = route.family)
    (settled : exactRouteKernelMetric route.metric route.family = route.metric) :
    routeMetricMatchesLive spec route = true ↔
      exactRouteKernelMetric route.metric route.family = exactRouteKernelMetric spec.metric spec.family := by
  rw [settled]
  simp only [routeMetricMatchesLive,exactRouteKernelMetric] at settled ⊢
  grind

theorem settledSlotIff (explicit : spec.family ≠ 0)
    (settled : exactRouteKernelMetric route.metric route.family = route.metric) :
    routeOccupiesSameSlot spec route = true ↔ route.slot = spec.slot := by
  simp only [routeOccupiesSameSlot,Bool.and_eq_true,beq_iff_eq,Bool.or_eq_true,explicit,false_or,
    DumpedRoute.slot,RouteSpec.slot,Slot.mk.injEq,and_assoc]
  constructor
  · rintro ⟨h1,h2,h3,h4⟩
    exact ⟨h1.symm,h2.symm,h3.symm,(settledMetricIff h3 settled).mp h4⟩
  · rintro ⟨h1,h2,h3,h4⟩
    exact ⟨h1.symm,h2.symm,h3.symm,(settledMetricIff h3.symm settled).mpr h4⟩

theorem settledMatchesIff (explicit : spec.family ≠ 0)
    (settled : exactRouteKernelMetric route.metric route.family = route.metric) :
    (route.exactIdentityRepresentable && routeMatchesLive spec route) = exactRouteMatchesLive spec route := by
  have slot := settledSlotIff explicit settled
  rw [← sameSlotIff,← Bool.eq_iff_iff] at slot
  simp only [exactRouteMatchesLive,← slot,routeMatchesLive,routeOccupiesSameSlot]
  generalize routeMetricMatchesLive spec route = m
  grind

theorem kernelSlot (explicit : spec.family ≠ 0) : (kernelRoute spec).slot = spec.slot := by
  simp only [DumpedRoute.slot,kernelRoute,dumpedRouteFromSpec,explicitFamily explicit,RouteSpec.slot,kernelMetricIdem]

theorem kernelMatches (explicit : spec.family ≠ 0) : exactRouteMatchesLive spec (kernelRoute spec) = true := by
  rw [matchesLiveIff]
  exact ⟨rfl,kernelSlot explicit,rfl,rfl,rfl,rfl,rfl⟩

theorem sameKernelSlotIff (explicit : spec.family ≠ 0)
    (settled : exactRouteKernelMetric route.metric route.family = route.metric) :
    sameKernelSlot (kernelRoute spec) route = true ↔ route.slot = spec.slot := by
  simp only [sameKernelSlot,kernelRoute,dumpedRouteFromSpec,explicitFamily explicit,Bool.and_eq_true,
    beq_iff_eq,DumpedRoute.slot,RouteSpec.slot,Slot.mk.injEq,settled,and_assoc]
  constructor <;> exact fun h => ⟨h.1.symm,h.2.1.symm,h.2.2.1.symm,h.2.2.2.symm⟩

theorem kernelOfLive (explicit : route.family ≠ 0) (exact : route.exactIdentityRepresentable = true)
    (settled : exactRouteKernelMetric route.metric route.family = route.metric) :
    kernelRoute (routeSpecFromLive route) = route := by
  cases route
  simp_all [kernelRoute,routeSpecFromLive,dumpedRouteFromSpec,routeFamily]

theorem requestRule {faults : Faults} {α : Type} {effect : Kernel → α × Kernel} {Q : α → Backend → Prop}
    {E : NetlinkError → Backend → Prop} {b : Backend}
    (returned : ∀ n, Q (effect b.kernel).1 ⟨(effect b.kernel).2,n⟩)
    (before : ∀ e n, E e ⟨b.kernel,n⟩) (after : ∀ e n, E e ⟨(effect b.kernel).2,n⟩) :
    wp (request faults effect) Q E b := by
  unfold wp request
  cases faults.request b.calls with
  | none => exact returned _
  | beforeEffect e => exact before e _
  | afterEffect e => exact after e _

namespace NetlinkManager

variable {faults : Faults}

theorem dumpRoutesRule (family : Int) (b : Backend) :
    wp (dumpRoutes faults family) (fun live b' => live = b.kernel.dumpRoutes family ∧ b'.kernel = b.kernel)
      (fun _ b' => b'.kernel = b.kernel) b :=
  requestRule (fun _ => ⟨rfl,rfl⟩) (fun _ _ => rfl) (fun _ _ => rfl)

theorem dumpRulesRule (family : Int) (b : Backend) :
    wp (dumpPolicyRules faults family) (fun live b' => live = b.kernel.dumpRules family ∧ b'.kernel = b.kernel)
      (fun _ b' => b'.kernel = b.kernel) b :=
  requestRule (fun _ => ⟨rfl,rfl⟩) (fun _ _ => rfl) (fun _ _ => rfl)

theorem buildRouteRule (spec : RouteSpec) (b : Backend) :
    wp (buildRoute faults spec) (fun _ b' => b' = b) (fun _ b' => b' = b) b := by
  simp only [buildRoute,bindRule,getRule]
  split <;> simp

def AddedRoute (spec : RouteSpec) (k k' : Kernel) : Prop :=
  occupants spec.slot k.routes = [] ∧ k'.routes = k.routes ++ [kernelRoute spec] ∧ k'.rules = k.rules

def DeletedRoute (spec : RouteSpec) (k k' : Kernel) : Prop :=
  exactSlotState spec k.routes = .exactSingle ∧ k'.routes = withoutSlot spec.slot k.routes ∧ k'.rules = k.rules

def ReplacedRoute (expected replacement : RouteSpec) (k k' : Kernel) : Prop :=
  expected.slot = replacement.slot ∧ exactSlotState expected k.routes = .exactSingle ∧
    k'.routes = withSlot expected.slot (kernelRoute replacement) k.routes ∧ k'.rules = k.rules

def AddedRule (spec : RuleSpec) (k k' : Kernel) : Prop :=
  k'.routes = k.routes ∧ k'.rules = k.rules ++ [kernelRule spec spec.family]

def DeletedRule (spec : RuleSpec) (k k' : Kernel) : Prop :=
  exactRuleState spec k.rules = .exactSingle ∧ k'.routes = k.routes ∧
    k'.rules = k.rules.filter fun rule => ¬spec.Names rule

/- What a receipt says of the kernel after the call. -/

def RouteReceipt (spec : RouteSpec) (k k' : Kernel) : RouteAddResult → Prop
  | .created => AddedRoute spec k k'
  | .alreadyPresent => k' = k

def ReplaceReceipt (expected replacement : RouteSpec) (k k' : Kernel) : RouteExactReplaceResult → Prop
  | .replaced => ReplacedRoute expected replacement k k'
  | .preconditionMismatch => k' = k

def RuleReceipt (spec : RuleSpec) (k k' : Kernel) : RuleAddResult → Prop
  | .created => AddedRule spec k k'
  | .alreadyPresent => k' = k

theorem slotTakenIff {spec : RouteSpec} (explicit : spec.family ≠ 0) (k : Kernel) :
    k.routeSlotTaken spec = false ↔ occupants spec.slot k.routes = [] := by
  simp only [Kernel.routeSlotTaken,List.any_eq_false,occupants,List.filter_eq_nil_iff,decide_eq_true_eq]
  constructor <;> intro free r mem
  · exact fun h => free r mem ((sameKernelSlotIff explicit (k.settled r mem)).mpr h)
  · exact fun h => free r mem ((sameKernelSlotIff explicit (k.settled r mem)).mp h)

theorem addRouteRule {spec : RouteSpec} (explicit : spec.family ≠ 0) (b : Backend) :
    wp (addRoute faults spec)
      (fun r b' => match r with
        | .created => AddedRoute spec b.kernel b'.kernel
        | .alreadyPresent => occupants spec.slot b.kernel.routes ≠ [] ∧ b'.kernel = b.kernel)
      (fun _ b' => b'.kernel = b.kernel ∨ AddedRoute spec b.kernel b'.kernel) b := by
  simp only [addRoute,bindRule]
  refine mono (buildRouteRule spec b) ?_ fun _ b' same => .inl (by rw [same])
  rintro _ b' rfl
  cases taken : b'.kernel.routeSlotTaken spec with
  | true =>
    refine requestRule ?_ ?_ ?_ <;> simp only [taken,if_true]
    · intro n
      refine ⟨fun free => ?_,trivial⟩
      simp [(slotTakenIff explicit _).mpr free] at taken
    · exact fun _ _ => .inl trivial
    · exact fun _ _ => .inl trivial
  | false =>
    have free := (slotTakenIff explicit _).mp taken
    refine requestRule ?_ ?_ ?_ <;> simp only [taken,Bool.false_eq_true,if_false]
    · exact fun n => ⟨free,rfl,rfl⟩
    · exact fun _ _ => .inl trivial
    · exact fun _ _ => .inr ⟨free,rfl,rfl⟩

theorem dumpOccupants {slot : Slot} (family : Int) (k : Kernel) (same : family = slot.family) :
    occupants slot (k.dumpRoutes family) = occupants slot k.routes := by
  unfold Kernel.dumpRoutes
  split
  · rfl
  · rw [same]; exact occupantsOfFamily slot k.routes

theorem dumpBearers {spec : RuleSpec} (family : Int) (k : Kernel) (same : family = spec.family) :
    bearers spec (k.dumpRules family) = bearers spec k.rules := by
  unfold Kernel.dumpRules
  split
  · rfl
  · rw [same]; exact bearersOfFamily spec k.rules

theorem memDumpRoutes {family : Int} {k : Kernel} {route : DumpedRoute} (h : route ∈ k.dumpRoutes family) :
    route ∈ k.routes := by
  unfold Kernel.dumpRoutes at h
  split at h
  · exact h
  · exact (List.mem_filter.mp h).1

theorem compatibleOccupants {spec : RouteSpec} (explicit : spec.family ≠ 0) (k : Kernel) :
    (k.dumpRoutes (routeFamily spec)).filter (routeOccupiesSameSlot spec) = occupants spec.slot k.routes := by
  rw [← dumpOccupants (routeFamily spec) k (by rw [explicitFamily explicit]; rfl)]
  apply List.filter_congr
  intro route mem
  rw [Bool.eq_iff_iff,settledSlotIff explicit (k.settled route (memDumpRoutes mem))]
  simp

/- The scan of delete_route_if_exact and replace_route_if_exact finds what exact_slot_state
finds: none, one exact image, or anything else. -/
theorem slotScanState {spec : RouteSpec} (explicit : spec.family ≠ 0) (k : Kernel) :
    (occupants spec.slot k.routes = [] ∧ slotScan spec (k.dumpRoutes (routeFamily spec)) = (0,none)) ∨
    (∃ found, occupants spec.slot k.routes = [found] ∧ exactRouteMatchesLive spec found = true ∧
      slotScan spec (k.dumpRoutes (routeFamily spec)) = (1,some found)) ∨
    ((∀ n, slotScan spec (k.dumpRoutes (routeFamily spec)) ≠ (0,n)) ∧
      ∀ found, slotScan spec (k.dumpRoutes (routeFamily spec)) ≠ (1,some found)) := by
  have exact : ∀ route ∈ occupants spec.slot k.routes,
      (route.exactIdentityRepresentable && routeMatchesLive spec route) = exactRouteMatchesLive spec route :=
    fun route mem => settledMatchesIff explicit (k.settled route (memOccupants.mp mem).1)
  simp only [slotScan,compatibleOccupants explicit]
  rw [List.filter_congr exact]
  cases h : occupants spec.slot k.routes with
  | nil => left; simp
  | cons head tail =>
    right
    cases tail with
    | nil =>
      cases hm : exactRouteMatchesLive spec head with
      | true => left; exact ⟨head,by simp [hm]⟩
      | false => right; simp [hm]
    | cons second rest => right; simp

theorem deleteKernelSlot {spec : RouteSpec} {found : DumpedRoute} {k : Kernel}
    (explicit : spec.family ≠ 0) (single : occupants spec.slot k.routes = [found])
    (exact : exactRouteMatchesLive spec found = true) :
    (k.deleteRoute (routeSpecFromLive found)).routes = withoutSlot spec.slot k.routes := by
  have mem : found ∈ k.routes := (memOccupants.mp (by rw [single]; exact List.mem_singleton_self _)).1
  have slot := matchesLiveSlot exact
  have family : (routeSpecFromLive found).family ≠ 0 := by
    rw [show (routeSpecFromLive found).family = found.family from rfl,(slotTableFamily slot).2]
    exact explicit
  refine eraseSingle single ?_ ?_
  · have image := matchesLiveFromLive (matchesLiveRepresentable exact)
    rw [← settledMatchesIff family (k.settled found mem),Bool.and_eq_true] at image
    rw [Bool.and_eq_true]
    exact ⟨(sameKernelSlotIff family (k.settled found mem)).mpr rfl,image.2⟩
  · intro route inside hit
    rw [Bool.and_eq_true] at hit
    exact ((sameKernelSlotIff family (k.settled route inside)).mp hit.1).trans slot

theorem deleteRouteRule {spec : RouteSpec} {found : DumpedRoute} {b : Backend} (explicit : spec.family ≠ 0)
    (single : occupants spec.slot b.kernel.routes = [found])
    (exact : exactRouteMatchesLive spec found = true) :
    wp (deleteRoute faults (routeSpecFromLive found))
      (fun _ b' => b'.kernel = b.kernel ∨ DeletedRoute spec b.kernel b'.kernel)
      (fun _ b' => b'.kernel = b.kernel ∨ DeletedRoute spec b.kernel b'.kernel) b := by
  have gone : ∀ k' : Kernel, k' = b.kernel.deleteRoute (routeSpecFromLive found) →
      DeletedRoute spec b.kernel k' := by
    rintro k' rfl
    exact ⟨(slotSingleIff _ _).mpr ⟨found,single,exact⟩,deleteKernelSlot explicit single exact,rfl⟩
  simp only [deleteRoute,bindRule,getRule,iteRule]
  split
  · exact .inl rfl
  · exact requestRule (fun _ => .inr (gone _ rfl)) (fun _ _ => .inl rfl) (fun _ _ => .inr (gone _ rfl))

theorem deleteRouteIfExactRule {spec : RouteSpec} (explicit : spec.family ≠ 0) (b : Backend) :
    wp (deleteRouteIfExact faults spec)
      (fun r b' => match r with
        | .deleted => DeletedRoute spec b.kernel b'.kernel
        | .alreadyAbsent => occupants spec.slot b.kernel.routes = [] ∧ b'.kernel = b.kernel
        | .preconditionMismatch => b'.kernel = b.kernel)
      (fun _ b' => b'.kernel = b.kernel ∨ DeletedRoute spec b.kernel b'.kernel) b := by
  simp only [deleteRouteIfExact,bindRule]
  refine mono (dumpRoutesRule _ b) ?_ fun _ b' same => .inl same
  rintro live b₁ ⟨rfl,same⟩
  rcases slotScanState explicit b.kernel with ⟨free,scan⟩ | ⟨found,single,exact,scan⟩ | other
  · simp only [scan,pureRule]
    exact ⟨free,same⟩
  · simp only [scan,bindRule]
    rw [← same] at single ⊢
    refine mono (deleteRouteRule explicit single exact) ?_ fun _ b' h => h
    intro _ b₂ effect
    rw [bindRule]
    refine mono (dumpRoutesRule _ b₂) ?_ fun _ b' kept => by rw [kept]; exact effect
    rintro after b₃ ⟨rfl,kept⟩
    rw [iteRule]
    split
    · rw [throwRule,kept]
      exact effect
    · rename_i empty
      rw [pureRule,kept]
      refine effect.resolve_left fun unchanged => empty ?_
      have seen : found ∈ (b₂.kernel.dumpRoutes (routeFamily spec)).filter (routeOccupiesSameSlot spec) := by
        rw [unchanged,compatibleOccupants explicit,single]
        exact List.mem_singleton_self _
      exact List.any_eq_true.mpr ⟨found,(List.mem_filter.mp seen).1,(List.mem_filter.mp seen).2⟩
  · split
    · exact absurd (by assumption) (other.1 _)
    · exact absurd (by assumption) (other.2 _)
    · exact same

theorem replaceKernelSlot {expected replacement : RouteSpec} {found : DumpedRoute} {k : Kernel}
    (explicit : replacement.family ≠ 0) (slots : expected.slot = replacement.slot)
    (single : occupants expected.slot k.routes = [found]) :
    (k.replaceRoute replacement).routes = withSlot expected.slot (kernelRoute replacement) k.routes := by
  refine replaceSingle single ?_
  intro route mem
  rw [sameKernelSlotIff explicit (k.settled route mem),slots]

theorem normalizedMetricEq {spec : RouteSpec} (explicit : spec.family ≠ 0) :
    normalizedMetric spec = exactRouteKernelMetric spec.metric spec.family := by
  simp [normalizedMetric,exactRouteKernelMetric,explicitFamily explicit]

theorem replaceRouteIfExactRule {expected replacement : RouteSpec} (explicit : expected.family ≠ 0)
    (explicit' : replacement.family ≠ 0) (b : Backend) :
    wp (replaceRouteIfExact faults expected replacement)
      (fun r b' => ReplaceReceipt expected replacement b.kernel b'.kernel r)
      (fun _ b' => b'.kernel = b.kernel ∨ ReplacedRoute expected replacement b.kernel b'.kernel) b := by
  simp only [replaceRouteIfExact,iteRule]
  split
  · rfl
  rename_i fits
  have slots : expected.slot = replacement.slot := by
    simp only [Bool.or_eq_true,bne_iff_ne,ne_eq,not_or,not_not,explicitFamily explicit,explicitFamily explicit',
      normalizedMetricEq explicit,normalizedMetricEq explicit'] at fits
    obtain ⟨⟨⟨destination,table⟩,family⟩,metric⟩ := fits
    simp only [RouteSpec.slot,Slot.mk.injEq]
    exact ⟨destination,table,family,metric⟩
  rw [bindRule]
  refine mono (dumpRoutesRule _ b) ?_ fun _ b' same => .inl same
  rintro live b₁ ⟨rfl,same⟩
  rcases slotScanState explicit b.kernel with ⟨free,scan⟩ | ⟨found,single,exact,scan⟩ | other
  · simp only [scan,pureRule]
    exact same
  · have state := (slotSingleIff expected b.kernel.routes).mpr ⟨found,single,exact⟩
    have done : ∀ k' : Kernel, k' = b.kernel.replaceRoute replacement →
        ReplacedRoute expected replacement b.kernel k' := by
      rintro k' rfl
      exact ⟨slots,state,replaceKernelSlot explicit' slots single,rfl⟩
    simp only [scan,replaceRoute,bindRule]
    refine mono (buildRouteRule replacement b₁) ?_ fun _ b' kept => .inl (by rw [kept,same])
    rintro _ b₂ rfl
    refine requestRule ?_ ?_ ?_
    · intro n
      rw [bindRule]
      refine mono (dumpRoutesRule _ _) ?_ fun _ b' kept => by rw [kept]; exact .inr (done _ (by rw [same]))
      rintro after b₃ ⟨rfl,kept⟩
      split
      · rw [pureRule,kept]; exact done _ (by rw [same])
      · rw [throwRule,kept]; exact .inr (done _ (by rw [same]))
    · exact fun _ _ => .inl same
    · exact fun _ _ => .inr (done _ (by rw [same]))
  · split
    · exact absurd (by assumption) (other.2 _)
    · exact same

theorem addRuleRule (spec : RuleSpec) (b : Backend) :
    wp (addRuleForFamily faults spec spec.family)
      (fun r b' => match r with
        | .created => AddedRule spec b.kernel b'.kernel
        | .alreadyPresent => b.kernel.ruleTaken spec spec.family = true ∧ b'.kernel = b.kernel)
      (fun _ b' => b'.kernel = b.kernel ∨ AddedRule spec b.kernel b'.kernel) b := by
  unfold addRuleForFamily
  cases taken : b.kernel.ruleTaken spec spec.family with
  | true => refine requestRule ?_ ?_ ?_ <;> simp [taken]
  | false =>
    refine requestRule ?_ ?_ ?_ <;> simp only [taken,Bool.false_eq_true,if_false]
    · exact fun _ => ⟨rfl,rfl⟩
    · exact fun _ _ => .inl trivial
    · exact fun _ _ => .inr ⟨rfl,rfl⟩

theorem eraseBearer {spec : RuleSpec} {live : List DumpedRule} {x : DumpedRule}
    (single : bearers spec live = [x]) :
    live.eraseP (ruleMatchesLive spec) = live.filter fun rule => ¬spec.Names rule := by
  induction live with
  | nil => simp [bearers] at single
  | cons head rest ih =>
    by_cases named : spec.Names head
    · have none : bearers spec rest = [] := by
        simp only [bearers,List.filter_cons,named,decide_true,if_true,List.cons.injEq] at single
        exact single.2
      rw [List.eraseP_cons_of_pos ((ruleMatchesIff _ _).mpr named)]
      simp only [List.filter_cons,named,not_true_eq_false,decide_false,Bool.false_eq_true,if_false]
      symm
      apply List.filter_eq_self.mpr
      intro rule mem
      have away : ¬spec.Names rule := by
        intro h
        have : rule ∈ bearers spec rest := memBearers.mpr ⟨mem,h⟩
        simp [none] at this
      simpa using away
    · have tail := ih (by simpa [bearers,List.filter_cons,named] using single)
      rw [List.eraseP_cons_of_neg (by rw [ruleMatchesIff]; exact named),tail]
      simp [named]

theorem deleteRuleIfExactRule (spec : RuleSpec) (b : Backend) :
    wp (deleteRuleIfExact faults spec spec.family)
      (fun r b' => match r with
        | .deleted => DeletedRule spec b.kernel b'.kernel
        | .alreadyAbsent => bearers spec b.kernel.rules = [] ∧ b'.kernel = b.kernel
        | .preconditionMismatch => b'.kernel = b.kernel)
      (fun _ b' => b'.kernel = b.kernel ∨ DeletedRule spec b.kernel b'.kernel) b := by
  simp only [deleteRuleIfExact,iteRule]
  split
  · rfl
  rw [bindRule]
  refine mono (dumpRulesRule _ b) ?_ fun _ b' same => .inl same
  rintro live b₁ ⟨rfl,same⟩
  have seen : (b.kernel.dumpRules spec.family).filter (ruleMatchesLive spec) = bearers spec b.kernel.rules := by
    rw [filterMatches,dumpBearers _ _ rfl]
  simp only [seen]
  split
  · rename_i none
    exact ⟨List.length_eq_zero_iff.mp none,same⟩
  · rename_i one exact
    obtain ⟨found,single⟩ := List.length_eq_one_iff.mp one
    have representable : found.exactIdentityRepresentable = true := by simpa [single] using exact
    have state := (ruleSingleIff spec b.kernel.rules).mpr ⟨found,single,representable⟩
    have done : ∀ k' : Kernel, k' = b.kernel.deleteRule spec spec.family → DeletedRule spec b.kernel k' := by
      rintro k' rfl
      exact ⟨state,rfl,eraseBearer single⟩
    rw [bindRule]
    refine requestRule ?_ (fun _ _ => .inl same) (fun _ _ => .inr (done _ (by rw [same])))
    intro n
    rw [bindRule]
    refine mono (dumpRulesRule _ _) ?_ fun _ b' kept => by rw [kept]; exact .inr (done _ (by rw [same]))
    rintro after b₃ ⟨rfl,kept⟩
    rw [iteRule]
    split
    · rw [throwRule,kept]; exact .inr (done _ (by rw [same]))
    · rw [pureRule,kept]; exact done _ (by rw [same])
  · exact same

end NetlinkManager

end KeenPbr
