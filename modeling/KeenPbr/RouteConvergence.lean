import Mathlib.Data.List.Nodup
import KeenPbr.NetlinkSpec
import KeenPbr.RouteTable
import KeenPbr.Runs

/-! What RouteTable's reconcile leaves in the kernel and in its ledgers, over runs of calls that return. -/
namespace KeenPbr.RouteTables
open Wp

/- A kernel that does what it is asked. -/
def faithful : Faults := ⟨fun _ => .none,fun _ _ => true⟩

section Slots
variable {spec : RouteSpec} {k : Kernel} {r : DumpedRoute}

theorem kernelSettled (spec : RouteSpec) :
    exactRouteKernelMetric (kernelRoute spec).metric (kernelRoute spec).family = (kernelRoute spec).metric :=
  kernelMetricIdem _ _

theorem sameSlotKernel (settled : exactRouteKernelMetric r.metric r.family = r.metric) :
    sameKernelSlot (kernelRoute spec) r = true ↔ r.slot = (kernelRoute spec).slot := by
  simp only [sameKernelSlot,Bool.and_eq_true,beq_iff_eq,DumpedRoute.slot,Slot.mk.injEq,settled,kernelSettled spec,and_assoc]
  constructor <;> exact fun h => ⟨h.1.symm,h.2.1.symm,h.2.2.1.symm,h.2.2.2.symm⟩

theorem metricKernel (family : r.family = routeFamily spec) (settled : exactRouteKernelMetric r.metric r.family = r.metric) :
    routeMetricMatchesLive spec r = true ↔ r.metric = (kernelRoute spec).metric := by
  have six : spec.family = afInet6 → r.family = afInet6 := by
    intro named
    rw [family,explicitFamily (by rw [named]; decide),named]
  simp only [kernelRoute,routeMetricMatchesLive,exactRouteKernelMetric,← family,Bool.or_eq_true,Bool.and_eq_true,beq_iff_eq] at settled ⊢
  by_cases v6 : r.family = afInet6
  · grind
  · have other : ¬spec.family = afInet6 := fun named => v6 (six named)
    simp only [v6,other,or_self,and_false,or_false,false_and,if_false]
    exact eq_comm

theorem occupiesKernel (family : r.family = routeFamily spec) (settled : exactRouteKernelMetric r.metric r.family = r.metric) :
    routeOccupiesSameSlot spec r = true ↔ r.slot = (kernelRoute spec).slot := by
  have explicit : spec.family = 0 ∨ spec.family = r.family := by
    by_cases zero : spec.family = 0
    · exact .inl zero
    · exact .inr (by rw [family,explicitFamily zero])
  have metric := metricKernel family settled
  simp only [routeOccupiesSameSlot,Bool.and_eq_true,beq_iff_eq,Bool.or_eq_true,metric,DumpedRoute.slot,Slot.mk.injEq,settled,
    kernelSettled spec,and_assoc,explicit,true_and]
  constructor
  · rintro ⟨destination,table,same⟩
    exact ⟨destination.symm,table.symm,family,same⟩
  · rintro ⟨destination,table,_,same⟩
    exact ⟨destination.symm,table.symm,same⟩

theorem kernelMatchesOwn (spec : RouteSpec) : routeMatchesLive spec (kernelRoute spec) = true := by
  have metric : routeMetricMatchesLive spec (kernelRoute spec) = true := (metricKernel rfl (kernelSettled spec)).mpr rfl
  have family : spec.family = 0 ∨ spec.family = (kernelRoute spec).family := by
    by_cases zero : spec.family = 0
    · exact .inl zero
    · exact .inr (explicitFamily zero).symm
  simp only [routeMatchesLive,metric,Bool.and_eq_true,beq_iff_eq,Bool.or_eq_true]
  exact ⟨⟨⟨⟨⟨⟨⟨⟨rfl,rfl⟩,rfl⟩,rfl⟩,rfl⟩,rfl⟩,family⟩,trivial⟩,rfl⟩

theorem takenIff : k.routeSlotTaken spec = true ↔ ∃ r ∈ k.routes, r.slot = (kernelRoute spec).slot := by
  rw [Kernel.routeSlotTaken,List.any_eq_true]
  constructor
  · rintro ⟨r,mem,same⟩
    exact ⟨r,mem,(sameSlotKernel (k.settled r mem)).mp same⟩
  · rintro ⟨r,mem,same⟩
    exact ⟨r,mem,(sameSlotKernel (k.settled r mem)).mpr same⟩

theorem dumpFamily {family : Int} (mem : r ∈ k.routes) (same : family = 0 ∨ r.family = family) : r ∈ k.dumpRoutes family := by
  unfold Kernel.dumpRoutes
  split
  · exact mem
  · rename_i nonzero
    rw [List.mem_filter]
    refine ⟨mem,?_⟩
    rcases same with zero | same
    · rw [zero] at nonzero
      exact absurd rfl nonzero
    · rw [same]
      exact beq_self_eq_true family

theorem dumpOwn (mem : r ∈ k.routes) (slot : r.slot = (kernelRoute spec).slot) : r ∈ k.dumpRoutes spec.family := by
  refine dumpFamily mem ?_
  have family : r.family = routeFamily spec := by
    simp only [DumpedRoute.slot,Slot.mk.injEq] at slot
    exact slot.2.2.1
  by_cases zero : spec.family = 0
  · exact .inl zero
  · exact .inr (by rw [family,explicitFamily zero])

theorem dumpAll (k : Kernel) : k.dumpRoutes 0 = k.routes := rfl

end Slots

structure Inventory where
  kernel : Kernel
  routes : List RouteSpec
  owned : List RouteSpec
  pending : List PendingReplacement

def inventory (table : RouteTable) : Inventory := ⟨table.backend.kernel,table.routes,table.ownedRoutes,table.pendingReplacements⟩

abbrev Returns {α : Type} (m : Managed α) (Q : α → Inventory → Prop) (v : Inventory) : Prop :=
  seen inventory m Q (fun _ _ => True) v

section Calls
variable {α : Type} {Q : α → Inventory → Prop} {v : Inventory} {around : Surroundings} {spec : RouteSpec}

theorem returnsMono {m : Managed α} {Q' : α → Inventory → Prop} (h : Returns m Q v) (weaker : ∀ a w, Q a w → Q' a w) : Returns m Q' v :=
  seenMono h weaker fun _ _ _ => trivial

theorem raises {β : Type} (m : Managed β) (e : NetlinkError) : Returns (m >>= fun _ => throw e) Q v := by
  intro table _
  rw [bindRule]
  unfold wp
  split
  · trivial
  · trivial

theorem catchReturns {m : Managed α} {handler : NetlinkError → Managed α} (h : Returns m Q v) (caught : ∀ e w, Returns (handler e) Q w) :
    Returns (tryCatch m handler) Q v :=
  seenCatch (seenMono h (fun _ _ returned => returned) fun e w _ => caught e w)

theorem netlinkReturns {call : Netlink α} {a : α} {k : Kernel} (ok : ∀ n, ∃ n', call ⟨v.kernel,n⟩ = .ok a ⟨k,n'⟩)
    (h : Q a { v with kernel := k }) {E : NetlinkError → Inventory → Prop} : seen inventory (netlink call) Q E v := by
  rintro table rfl
  obtain ⟨n',result⟩ := ok table.backend.calls
  have called : call table.backend = .ok a ⟨k,n'⟩ := result
  unfold wp netlink
  rw [called]
  exact h

theorem requestFaithful (effect : Kernel → α × Kernel) (b : Backend) :
    request faithful effect b = .ok (effect b.kernel).1 ⟨(effect b.kernel).2,b.calls + 1⟩ := rfl

theorem dumpReturns (honest : around.faults = faithful) {family : Int} {Q : List DumpedRoute → Inventory → Prop}
    (h : Q (v.kernel.dumpRoutes family) v) {E : NetlinkError → Inventory → Prop} :
    seen inventory (netlink (NetlinkManager.dumpRoutes around.faults family)) Q E v := by
  rw [honest]
  exact netlinkReturns (fun n => ⟨n + 1,rfl⟩) h

theorem interfacesKnown (spec : RouteSpec) (b : Backend) : NetlinkManager.missingInterface faithful spec b = none := by
  unfold NetlinkManager.missingInterface
  split
  · rfl
  · cases spec.interface <;> rfl

theorem addReturns (honest : around.faults = faithful) {Q : RouteAddResult → Inventory → Prop}
    (created : v.kernel.routeSlotTaken spec = false → Q .created { v with kernel := v.kernel.insertRoute spec })
    (present : v.kernel.routeSlotTaken spec = true → Q .alreadyPresent v) :
    Returns (netlink (NetlinkManager.addRoute around.faults spec)) Q v := by
  rw [honest]
  have result : ∀ n, NetlinkManager.addRoute faithful spec ⟨v.kernel,n⟩ =
      request faithful (fun k => if k.routeSlotTaken spec then (.alreadyPresent,k) else (.created,k.insertRoute spec)) ⟨v.kernel,n⟩ := by
    intro n
    simp only [NetlinkManager.addRoute,NetlinkManager.buildRoute,bind,EStateM.bind,getOk,interfacesKnown,
      pure,EStateM.pure]
  cases taken : v.kernel.routeSlotTaken spec with
  | true =>
    refine netlinkReturns (k := v.kernel) (fun n => ⟨n + 1,?_⟩) (present taken)
    rw [result]
    simp only [requestFaithful,taken,if_true]
  | false =>
    refine netlinkReturns (fun n => ⟨n + 1,?_⟩) (created taken)
    rw [result]
    simp only [requestFaithful,taken,Bool.false_eq_true,if_false]

theorem replaceReturns (honest : around.faults = faithful) {Q : Unit → Inventory → Prop}
    (h : Q () { v with kernel := v.kernel.replaceRoute spec }) :
    Returns (netlink (NetlinkManager.replaceRoute around.faults spec)) Q v := by
  rw [honest]
  refine netlinkReturns (fun n => ⟨n + 1,?_⟩) h
  simp only [NetlinkManager.replaceRoute,NetlinkManager.buildRoute,bind,EStateM.bind,getOk,interfacesKnown,
    pure,EStateM.pure,requestFaithful]

theorem deleteOccupant {k : Kernel} {found : DumpedRoute} (mem : found ∈ k.routes) (representable : found.exactIdentityRepresentable = true)
    (single : occupants found.slot k.routes = [found]) :
    (k.deleteRoute (routeSpecFromLive found)).routes = withoutSlot found.slot k.routes := by
  have family : (routeSpecFromLive found).family ≠ 0 := k.families found mem
  exact NetlinkManager.deleteKernelSlot family single (matchesLiveFromLive representable)

theorem scanOf (k : Kernel) :
    (k.dumpRoutes (routeFamily spec)).filter (routeOccupiesSameSlot spec) = occupants (kernelRoute spec).slot k.routes := by
  rw [← NetlinkManager.dumpOccupants (routeFamily spec) k rfl]
  apply List.filter_congr
  intro r mem
  have family : r.family = routeFamily spec := by
    unfold Kernel.dumpRoutes at mem
    rw [if_neg (by rw [beq_iff_eq]; exact routeFamilyNonzero spec),List.mem_filter,beq_iff_eq] at mem
    exact mem.2
  rw [Bool.eq_iff_iff,occupiesKernel family (k.settled r (NetlinkManager.memDumpRoutes mem)),decide_eq_true_eq]

theorem emptyAfter {slot : Slot} {live : List DumpedRoute} : occupants slot (withoutSlot slot live) = [] := by
  rw [occupants,withoutSlot,List.filter_filter,List.filter_eq_nil_iff]
  intro r _
  rw [Bool.and_eq_true,decide_eq_true_eq,decide_eq_true_eq]
  exact fun both => both.2 both.1

theorem deleteReturns (honest : around.faults = faithful) {Q : RouteExactDeleteResult → Inventory → Prop}
    (own : occupants (kernelRoute spec).slot v.kernel.routes = [] ∨ occupants (kernelRoute spec).slot v.kernel.routes = [kernelRoute spec])
    (h : ∀ result k, result ≠ .preconditionMismatch → k.routes = withoutSlot (kernelRoute spec).slot v.kernel.routes →
      Q result { v with kernel := k }) {E : NetlinkError → Inventory → Prop} :
    seen inventory (netlink (NetlinkManager.deleteRouteIfExact around.faults spec)) Q E v := by
  rw [honest]
  rcases own with empty | single
  · have scan : NetlinkManager.slotScan spec (v.kernel.dumpRoutes (routeFamily spec)) = (0,none) := by
      rw [NetlinkManager.slotScan,scanOf,empty]
      rfl
    refine netlinkReturns (a := .alreadyAbsent) (k := v.kernel) (fun n => ⟨n + 1,?_⟩)
      (h _ _ (by decide) (withoutSlotOfNone empty).symm)
    simp only [NetlinkManager.deleteRouteIfExact,bind,EStateM.bind,NetlinkManager.dumpRoutes,requestFaithful,scan,pure,EStateM.pure]
  · have mem : kernelRoute spec ∈ v.kernel.routes :=
      (memOccupants.mp (by rw [single]; exact List.mem_singleton_self _)).1
    have scan : NetlinkManager.slotScan spec (v.kernel.dumpRoutes (routeFamily spec)) = (1,some (kernelRoute spec)) := by
      rw [NetlinkManager.slotScan,scanOf,single]
      have exact : ((kernelRoute spec).exactIdentityRepresentable && routeMatchesLive spec (kernelRoute spec)) = true := by
        rw [kernelMatchesOwn,Bool.and_true]
        rfl
      rw [List.filter_singleton,exact]
      rfl
    have gone := deleteOccupant mem rfl single
    have after : ((v.kernel.deleteRoute (routeSpecFromLive (kernelRoute spec))).dumpRoutes (routeFamily spec)).any
      (routeOccupiesSameSlot spec) = false := by
      rw [List.any_eq_false]
      intro r inside hit
      have occupant : r ∈ occupants (kernelRoute spec).slot (v.kernel.deleteRoute (routeSpecFromLive (kernelRoute spec))).routes := by
        rw [← scanOf]
        exact List.mem_filter.mpr ⟨inside,hit⟩
      rw [gone,emptyAfter] at occupant
      cases occupant
    refine netlinkReturns (a := .deleted) (fun n => ⟨n + 3,?_⟩) (h _ _ (by decide) gone)
    simp only [NetlinkManager.deleteRouteIfExact,bind,EStateM.bind,NetlinkManager.dumpRoutes,NetlinkManager.deleteRoute,getOk,
      interfacesKnown,Option.isSome_none,Bool.false_eq_true,if_false,requestFaithful,scan,after,pure,EStateM.pure]

end Calls

/- Clock, probe and repair records are beside the inventory. -/
section Beside
variable {v : Inventory} {around : Surroundings}

theorem nowReturns {Q : Nat → Inventory → Prop} (h : ∀ time, Q time v) : Returns (now around) Q v := by
  rintro table rfl
  exact h _

theorem readinessReturns {name : String} {Q : InterfaceAdminState → Inventory → Prop} (h : ∀ state, Q state v) :
    Returns (readiness around name) Q v := by
  rintro table rfl
  exact h _

theorem besideReturns {change : RouteTable → RouteTable} {Q : Unit → Inventory → Prop}
    (same : ∀ table, inventory (change table) = inventory table)
    (h : Q () v) : Returns (modify change) Q v :=
  seenModify (g := id) same h

theorem resetReturns {spec : RouteSpec} {Q : Unit → Inventory → Prop} (h : Q () v) : Returns (resetRepairBackoff spec) Q v := by
  refine besideReturns (fun table => ?_) h
  split
  · rfl
  · rfl

theorem dueReturns {spec : RouteSpec} {Q : Bool → Inventory → Prop} (h : ∀ due, Q due v) : Returns (repairRetryDue around spec) Q v := by
  refine seenGet fun table _ => ?_
  split
  · exact seenBind (nowReturns fun _ => seenPure (h _))
  · exact seenPure (h _)

theorem mayRepairReturns {spec : RouteSpec} {mode : RouteReconcileMode} {Q : Bool → Inventory → Prop} (h : ∀ due, Q due v) :
    Returns (mayRepair around mode spec) Q v :=
  seenIte (fun _ => dueReturns h) fun _ => seenPure (h _)

theorem lostReturns {spec : RouteSpec} {Q : Bool → Inventory → Prop} (h : ∀ lost, Q lost v) : Returns (interfaceLost around spec) Q v := by
  unfold interfaceLost
  split
  · exact seenPure (h _)
  · exact seenBind (readinessReturns fun _ => seenPure (h _))

theorem trackedIff {table : RouteTable} (at_v : inventory table = v) (spec : RouteSpec) :
    table.isTracked spec = true ↔ spec ∈ v.routes := by
  rw [← at_v,RouteTable.isTracked,List.any_eq_true]
  constructor
  · rintro ⟨other,mem,same⟩
    cases (routeSpecsEqualIff other spec).mp same
    exact mem
  · exact fun mem => ⟨spec,mem,(routeSpecsEqualIff spec spec).mpr rfl⟩

theorem anyEqualIff {specs : List RouteSpec} {spec : RouteSpec} : specs.any (routesEqual · spec) = true ↔ spec ∈ specs := by
  rw [List.any_eq_true]
  constructor
  · rintro ⟨other,mem,same⟩
    cases (routeSpecsEqualIff other spec).mp same
    exact mem
  · exact fun mem => ⟨spec,mem,(routeSpecsEqualIff spec spec).mpr rfl⟩

end Beside

def Installed (spec : RouteSpec) (v : Inventory) (outcome : RouteInstallOutcome) (w : Inventory) : Prop :=
  match outcome with
  | .created => v.kernel.routeSlotTaken spec = false ∧ w = { v with kernel := v.kernel.insertRoute spec }
  | .alreadyManaged => v.kernel.routeSlotTaken spec = true ∧ spec.protocol = keenPbrGeneratedRouteProtocol ∧ w = v ∧
      ∃ r ∈ v.kernel.routes, routeMatchesLive spec r = true
  | .replacedManaged => v.kernel.routeSlotTaken spec = true ∧ spec.protocol = keenPbrGeneratedRouteProtocol ∧
      (∀ r ∈ v.kernel.routes, r.slot = (kernelRoute spec).slot → routeMatchesLive spec r = false ∧
        r.protocol = keenPbrGeneratedRouteProtocol) ∧
      w.kernel = v.kernel.replaceRoute spec ∧ w.routes = v.routes ∧ w.owned = v.owned

section Install
variable {v : Inventory} {around : Surroundings} {spec : RouteSpec}

theorem ownOccupies {r : DumpedRoute} (mem : r ∈ v.kernel.routes) (slot : r.slot = (kernelRoute spec).slot) :
    routeOccupiesSameSlot spec r = true := by
  refine (occupiesKernel ?_ (v.kernel.settled r mem)).mpr slot
  simp only [DumpedRoute.slot,Slot.mk.injEq] at slot
  exact slot.2.2.1

theorem attemptReturns (honest : around.faults = faithful) :
    Returns (attemptInstall around spec)
      (fun outcome w => match outcome with
        | some outcome => Installed spec v outcome w
        | none => w = v) v := by
  refine seenBind (addReturns honest ?_ ?_)
  · exact fun free => seenPure ⟨free,rfl⟩
  · intro taken
    refine seenBind (dumpReturns honest ?_)
    refine seenIte (fun managed => ?_) fun unmanaged => ?_
    · rw [Bool.and_eq_true,beq_iff_eq,List.any_eq_true] at managed
      obtain ⟨⟨r,mem,matched⟩,protocol⟩ := managed
      exact seenPure ⟨taken,protocol,rfl,r,NetlinkManager.memDumpRoutes mem,matched⟩
    · refine seenIte (fun _ => seenPure rfl) fun _ => ?_
      refine seenIte (fun _ => seenThrow trivial) fun allManaged => ?_
      rw [Bool.not_eq_true,Bool.not_eq_false',Bool.and_eq_true,beq_iff_eq,List.all_eq_true] at allManaged
      obtain ⟨protocol,managed⟩ := allManaged
      have collide : ∀ r ∈ v.kernel.routes, r.slot = (kernelRoute spec).slot →
          routeMatchesLive spec r = false ∧ r.protocol = keenPbrGeneratedRouteProtocol := by
        intro r mem slot
        have dumped := dumpOwn mem slot
        refine ⟨?_,beq_iff_eq.mp (managed r (List.mem_filter.mpr ⟨dumped,ownOccupies mem slot⟩))⟩
        rw [Bool.eq_false_iff]
        intro matched
        refine unmanaged ?_
        rw [Bool.and_eq_true,beq_iff_eq,List.any_eq_true]
        exact ⟨⟨r,dumped,matched⟩,protocol⟩
      let receipt : PendingReplacement :=
        ⟨spec,((v.kernel.dumpRoutes spec.family).filter (routeOccupiesSameSlot spec)).map routeSpecFromLive⟩
      refine seenBind (seenModify (g := fun w => { w with pending := w.pending ++ [receipt] }) (fun _ => rfl) ?_)
      refine catchReturns (seenBind (replaceReturns honest ?_)) fun e w => raises _ _
      refine seenBind (dumpReturns honest ?_)
      exact seenIte (fun _ => seenPure ⟨taken,protocol,collide,rfl,rfl,rfl⟩) fun _ => seenThrow trivial

theorem installReturns (honest : around.faults = faithful) : Returns (addRouteChecked around spec) (Installed spec v) v := by
  refine seenBind (lostReturns fun lost => ?_)
  refine seenIte (fun _ => seenThrow trivial) fun _ => ?_
  refine catchReturns (seenBind (returnsMono (attemptReturns honest) ?_)) fun e w => ?_
  · intro outcome w installed
    cases outcome with
    | some outcome => exact seenPure installed
    | none =>
      cases installed
      refine seenBind (returnsMono (attemptReturns honest) ?_)
      intro outcome w installed
      cases outcome with
      | some outcome => exact seenPure installed
      | none => exact seenThrow trivial
  · split
    · exact seenThrow trivial
    · exact seenBind (lostReturns fun _ => seenIte (fun _ => seenThrow trivial) fun _ => seenThrow trivial)

end Install

def Alone (live : List DumpedRoute) (r : DumpedRoute) : Prop :=
  r.exactIdentityRepresentable = true ∧ occupants r.slot live = [r]

section Alone
variable {live : List DumpedRoute} {r other new : DumpedRoute}

theorem aloneSame (alone : Alone live r) (mem : other ∈ live) (slot : other.slot = r.slot) : other = r := by
  have inside : other ∈ occupants r.slot live := memOccupants.mpr ⟨mem,slot⟩
  rw [alone.2,List.mem_singleton] at inside
  exact inside

theorem aloneMem (alone : Alone live r) : r ∈ live :=
  (memOccupants.mp (by rw [alone.2]; exact List.mem_singleton_self r)).1

theorem aloneInsert (alone : Alone live r) (free : ∀ other ∈ live, other.slot ≠ new.slot) : Alone (live ++ [new]) r := by
  refine ⟨alone.1,?_⟩
  have away : ¬new.slot = r.slot := fun same => free r (aloneMem alone) same.symm
  have others : occupants r.slot live = [r] := alone.2
  rw [occupants] at others ⊢
  rw [List.filter_append,others]
  simp [away]

theorem aloneInserted (representable : new.exactIdentityRepresentable = true) (free : ∀ other ∈ live, other.slot ≠ new.slot) :
    Alone (live ++ [new]) new := by
  refine ⟨representable,?_⟩
  have empty : occupants new.slot live = [] := by
    rw [occupants,List.filter_eq_nil_iff]
    intro other mem
    rw [decide_eq_true_eq]
    exact free other mem
  rw [occupants] at empty ⊢
  rw [List.filter_append,empty]
  simp

theorem memWithSlot {slot : Slot} (single : occupants slot live = [r]) :
    other ∈ withSlot slot new live ↔ other = new ∨ (other ∈ live ∧ other.slot ≠ slot) := by
  rw [withSlot,List.mem_map]
  constructor
  · rintro ⟨old,mem,rfl⟩
    split
    · exact .inl rfl
    · exact .inr ⟨mem,by assumption⟩
  · rintro (rfl | ⟨mem,away⟩)
    · obtain ⟨mem,slot⟩ := memOccupants.mp (show r ∈ occupants slot live by rw [single]; exact List.mem_singleton_self r)
      exact ⟨r,mem,if_pos slot⟩
    · exact ⟨other,mem,if_neg away⟩

theorem aloneReplaced {slot : Slot} (representable : new.exactIdentityRepresentable = true) (here : new.slot = slot)
    (single : occupants slot live = [r]) : Alone (withSlot slot new live) new := by
  refine ⟨representable,?_⟩
  rw [here]
  induction live with
  | nil => cases single
  | cons head rest ih =>
    rw [occupantsCons] at single
    rw [withSlot,List.map_cons,occupantsCons]
    split at single
    · rename_i same
      have none := (List.cons.inj single).2
      have kept := withSlotOfNone none new
      rw [withSlot] at kept
      rw [if_pos same,if_pos here,kept,none]
    · rename_i away
      rw [if_neg away,if_neg away]
      exact ih single

theorem aloneBeside {slot : Slot} (alone : Alone live r) (here : new.slot = slot) (away : r.slot ≠ slot) :
    Alone (withSlot slot new live) r := by
  refine ⟨alone.1,?_⟩
  rw [occupantsWithSlot here away]
  exact alone.2

theorem aloneWithout {slot : Slot} (alone : Alone live r) (away : r.slot ≠ slot) : Alone (withoutSlot slot live) r := by
  refine ⟨alone.1,?_⟩
  rw [occupantsWithoutSlot away]
  exact alone.2

theorem memWithoutSlot {slot : Slot} : r ∈ withoutSlot slot live ↔ r ∈ live ∧ r.slot ≠ slot := by
  rw [withoutSlot,List.mem_filter,decide_eq_true_eq]

end Alone

def Own (v : Inventory) (r : DumpedRoute) : Prop := r.protocol = keenPbrGeneratedRouteProtocol ∨ ∃ t ∈ v.routes, kernelRoute t = r

/- When a call asks for nothing the table cannot carry out. A tracked route that is no longer desired
leaves its slot to no desired one, and two desired routes of one slot are one route. The last two
concern a desired route of unnamed family, which every family's route of its description matches:
such a live route is in a slot the call settles, and none hides a stale occupant of the own slot. -/
structure Separate (v : Inventory) (desired : List RouteSpec) : Prop where
  vacant : ∀ t ∈ v.routes, t ∉ desired → ∀ d ∈ desired, (kernelRoute t).slot ≠ (kernelRoute d).slot
  agreed : ∀ d ∈ desired, ∀ e ∈ desired, (kernelRoute d).slot = (kernelRoute e).slot → kernelRoute d = kernelRoute e
  swept : ∀ d ∈ desired, ∀ r ∈ v.kernel.routes, isGeneratedRouteCandidate r = true → routeMatchesLive d r = true →
    ∃ t ∈ v.routes ++ desired, r.slot = (kernelRoute t).slot
  plain : ∀ d ∈ desired, ∀ r ∈ v.kernel.routes, r.slot = (kernelRoute d).slot → r ≠ kernelRoute d →
    ∀ m ∈ v.kernel.routes ++ desired.map kernelRoute, routeMatchesLive d m = true → m = kernelRoute d

structure Tidy (v : Inventory) : Prop where
  alone : ∀ r ∈ v.kernel.routes, Own v r → Alone v.kernel.routes r
  live : ∀ t ∈ v.routes, kernelRoute t ∈ v.kernel.routes
  distinct : v.routes.Nodup

structure Adding (start : Inventory) (desired : List RouteSpec) (v : Inventory) : Prop extends Tidy v where
  owned : ∀ t ∈ v.routes, t ∈ v.owned ∨ (t ∈ desired ∧ t.protocol = keenPbrGeneratedRouteProtocol)
  old : ∀ t ∈ start.routes, t ∈ v.routes
  new : ∀ t ∈ v.routes, t ∈ start.routes ∨ t ∈ desired
  known : ∀ r ∈ v.kernel.routes, r ∈ start.kernel.routes ∨ ∃ d ∈ desired, kernelRoute d = r

def claim (w : Inventory) (spec : RouteSpec) (outcome : RouteInstallOutcome) : Inventory :=
  { w with routes := w.routes ++ [spec], owned := if outcome = .alreadyManaged then w.owned else w.owned ++ [spec] }

section Adding
variable {start v w : Inventory} {desired : List RouteSpec} {d : RouteSpec} {outcome : RouteInstallOutcome}

theorem addingGrow (adding : Adding start desired v) (wanted : d ∈ desired) (untracked : d ∉ v.routes)
    (routes : w.routes = v.routes) (owned : w.owned = v.owned)
    (managed : outcome = .alreadyManaged → d.protocol = keenPbrGeneratedRouteProtocol)
    (held : Alone w.kernel.routes (kernelRoute d))
    (rest : ∀ r ∈ w.kernel.routes, r = kernelRoute d ∨ (r ∈ v.kernel.routes ∧ (Alone v.kernel.routes r → Alone w.kernel.routes r)))
    (kept : ∀ t ∈ v.routes, kernelRoute t ∈ w.kernel.routes) : Adding start desired (claim w d outcome) where
  alone r mem own := by
    rcases rest r mem with rfl | ⟨old,carry⟩
    · exact held
    · rcases own with protocol | ⟨t,tracked,same⟩
      · exact carry (adding.alone r old (.inl protocol))
      · change t ∈ w.routes ++ [d] at tracked
        rw [routes,List.mem_append,List.mem_singleton] at tracked
        rcases tracked with before | rfl
        · exact carry (adding.alone r old (.inr ⟨t,before,same⟩))
        · rw [← same]
          exact held
  live t tracked := by
    change t ∈ w.routes ++ [d] at tracked
    rw [routes,List.mem_append,List.mem_singleton] at tracked
    rcases tracked with before | rfl
    · exact kept t before
    · exact aloneMem held
  distinct := by
    change (w.routes ++ [d]).Nodup
    rw [routes,List.nodup_append]
    refine ⟨adding.distinct,List.nodup_singleton d,?_⟩
    rintro t before u last rfl
    cases List.mem_singleton.mp last
    exact untracked before
  owned t tracked := by
    change t ∈ w.routes ++ [d] at tracked
    change t ∈ (if outcome = .alreadyManaged then w.owned else w.owned ++ [d]) ∨ _
    rw [routes,List.mem_append,List.mem_singleton] at tracked
    rw [owned]
    by_cases found : outcome = .alreadyManaged
    · rw [if_pos found]
      rcases tracked with before | rfl
      · exact adding.owned t before
      · exact .inr ⟨wanted,managed found⟩
    · rw [if_neg found,List.mem_append,List.mem_singleton]
      rcases tracked with before | rfl
      · exact (adding.owned t before).imp .inl id
      · exact .inl (.inr rfl)
  old t tracked := by
    change t ∈ w.routes ++ [d]
    rw [routes]
    exact List.mem_append_left _ (adding.old t tracked)
  new t tracked := by
    change t ∈ w.routes ++ [d] at tracked
    rw [routes,List.mem_append,List.mem_singleton] at tracked
    rcases tracked with before | rfl
    · exact adding.new t before
    · exact .inr wanted
  known r mem := by
    rcases rest r mem with rfl | ⟨old,_⟩
    · exact .inr ⟨d,wanted,rfl⟩
    · exact adding.known r old

theorem sharedSlot (separate : Separate start desired) (adding : Adding start desired v) (wanted : d ∈ desired) {t : RouteSpec}
    (tracked : t ∈ v.routes) (slot : (kernelRoute t).slot = (kernelRoute d).slot) : kernelRoute t = kernelRoute d := by
  by_cases listed : t ∈ desired
  · exact separate.agreed t listed d wanted slot
  · rcases adding.new t tracked with before | also
    · exact absurd slot (separate.vacant t before listed d wanted)
    · exact absurd also listed

theorem managedLive (separate : Separate start desired) (adding : Adding start desired v) (wanted : d ∈ desired)
    (taken : v.kernel.routeSlotTaken d = true) {m : DumpedRoute} (mem : m ∈ v.kernel.routes) (matched : routeMatchesLive d m = true) :
    kernelRoute d ∈ v.kernel.routes := by
  obtain ⟨r,occupant,slot⟩ := takenIff.mp taken
  by_cases same : r = kernelRoute d
  · rw [← same]
    exact occupant
  · rcases adding.known r occupant with first | ⟨e,listed,rfl⟩
    · have candidates : m ∈ start.kernel.routes ++ desired.map kernelRoute := by
        rw [List.mem_append,List.mem_map]
        exact adding.known m mem
      rw [← separate.plain d wanted r first slot same m candidates matched]
      exact mem
    · exact absurd (separate.agreed e listed d wanted slot) same

theorem addingStep (separate : Separate start desired) (adding : Adding start desired v) (wanted : d ∈ desired) (untracked : d ∉ v.routes)
    (installed : Installed d v outcome w) : Adding start desired (claim w d outcome) := by
  cases outcome with
  | created =>
    obtain ⟨free,rfl⟩ := installed
    have empty : ∀ r ∈ v.kernel.routes, r.slot ≠ (kernelRoute d).slot := by
      intro r mem slot
      rw [takenIff.mpr ⟨r,mem,slot⟩] at free
      cases free
    refine addingGrow adding wanted untracked rfl rfl (fun absurd => by cases absurd) (aloneInserted rfl empty) ?_ ?_
    · intro r mem
      rcases List.mem_append.mp mem with old | new
      · exact .inr ⟨old,fun alone => aloneInsert alone empty⟩
      · exact .inl (List.mem_singleton.mp new)
    · exact fun t tracked => List.mem_append_left _ (adding.live t tracked)
  | alreadyManaged =>
    obtain ⟨taken,protocol,rfl,m,mem,matched⟩ := installed
    have held := managedLive separate adding wanted taken mem matched
    exact addingGrow adding wanted untracked rfl rfl (fun _ => protocol) (adding.alone _ held (.inl protocol))
      (fun r mem => .inr ⟨mem,id⟩) adding.live
  | replacedManaged =>
    obtain ⟨taken,protocol,stale,kernel,routes,owned⟩ := installed
    obtain ⟨r,occupant,slot⟩ := takenIff.mp taken
    obtain ⟨unmatched,generated⟩ := stale r occupant slot
    have alone := adding.alone r occupant (.inl generated)
    have single : occupants (kernelRoute d).slot v.kernel.routes = [r] := by
      rw [← slot]
      exact alone.2
    have image : w.kernel.routes = withSlot (kernelRoute d).slot (kernelRoute d) v.kernel.routes := by
      rw [kernel]
      exact replaceSingle single fun other mem => sameSlotKernel (v.kernel.settled other mem)
    refine addingGrow adding wanted untracked routes owned (fun absurd => by cases absurd) ?_ ?_ ?_
    · rw [image]
      exact aloneReplaced rfl rfl single
    · intro other mem
      rw [image,memWithSlot single] at mem
      refine mem.imp id fun beside => ⟨beside.1,fun alone => ?_⟩
      rw [image]
      exact aloneBeside alone rfl beside.2
    · intro t tracked
      rw [image,memWithSlot single]
      refine .inr ⟨adding.live t tracked,fun same => ?_⟩
      have evicted : kernelRoute t = r := aloneSame alone (adding.live t tracked) (same.trans slot.symm)
      rw [← evicted,sharedSlot separate adding wanted tracked same,kernelMatchesOwn] at unmatched
      cases unmatched

theorem installNewReturns {around : Surroundings} {mode : RouteReconcileMode} (honest : around.faults = faithful)
    (separate : Separate start desired) (adding : Adding start desired v) (wanted : d ∈ desired) :
    Returns (installNew around mode d) (fun _ w => Adding start desired w ∧ d ∈ w.routes ∧ ∀ t ∈ v.routes, t ∈ w.routes) v := by
  refine seenGet fun table at_v => ?_
  refine seenIte (fun tracked => seenPure ⟨adding,(trackedIff at_v d).mp tracked,fun _ mem => mem⟩) fun untracked => ?_
  have absent : d ∉ v.routes := fun mem => untracked ((trackedIff at_v d).mpr mem)
  refine seenBind (mayRepairReturns fun due => ?_)
  refine seenIte (fun _ => seenThrow trivial) fun _ => ?_
  refine catchReturns (seenBind ?_) fun e w => ?_
  · refine seenGet fun table at_v => ?_
    refine seenIte (fun tracked => absurd ((trackedIff at_v d).mp tracked) absent) fun _ => ?_
    refine seenBind (catchReturns (returnsMono (installReturns honest) ?_) fun e w => ?_)
    · intro outcome w installed
      refine seenModify (g := fun w => claim w d outcome) (fun _ => rfl) (resetReturns ?_)
      have grown := addingStep separate adding wanted absent installed
      have kept : w.routes = v.routes := by
        cases outcome with
        | created => rw [installed.2]
        | alreadyManaged => rw [installed.2.2.1]
        | replacedManaged => exact installed.2.2.2.2.1
      refine ⟨grown,List.mem_append_right _ (List.mem_singleton_self d),fun t tracked => List.mem_append_left _ ?_⟩
      rw [kept]
      exact tracked
    · refine seenGet fun table _ => ?_
      exact seenIte (fun _ => raises _ _) fun _ => seenThrow trivial
  · split
    · exact raises _ _
    · exact seenThrow trivial

theorem installAllReturns {around : Surroundings} {mode : RouteReconcileMode} (honest : around.faults = faithful)
    (separate : Separate start desired) (adding : Adding start desired v) :
    Returns (desired.forM (installNew around mode)) (fun _ w => Adding start desired w ∧ ∀ d ∈ desired, d ∈ w.routes) v := by
  refine returnsMono (seenForM (fun todo w => Adding start desired w ∧ (∀ d ∈ todo, d ∈ desired) ∧ ∀ d ∈ desired, d ∈ todo ∨
    d ∈ w.routes) ?_
    ⟨adding,fun _ mem => mem,fun _ mem => .inl mem⟩) ?_
  · rintro d rest w ⟨adding,listed,settled⟩
    refine returnsMono (installNewReturns honest separate adding (listed d List.mem_cons_self)) ?_
    rintro _ w' ⟨adding',here,kept⟩
    refine ⟨adding',fun e mem => listed e (List.mem_cons_of_mem d mem),fun e wanted => ?_⟩
    rcases settled e wanted with todo | done
    · rcases List.mem_cons.mp todo with rfl | later
      · exact .inr here
      · exact .inl later
    · exact .inr (kept e done)
  · rintro _ w ⟨adding,_,settled⟩
    exact ⟨adding,fun d wanted => (settled d wanted).resolve_left fun mem => by cases mem⟩

theorem repairReturns {around : Surroundings} {mode : RouteReconcileMode} {missing : List RouteSpec}
    (untracked : ∀ d ∈ missing, d ∉ v.routes) :
    Returns (repairAll around mode missing) (fun _ w => w = v) v := by
  induction missing with
  | nil => exact seenPure rfl
  | cons d rest ih =>
    refine seenBind (seenGet fun table at_v => ?_)
    refine seenIte (fun _ => seenPure ?_) fun tracked => ?_
    · exact seenBind (returnsMono (ih fun e mem => untracked e (List.mem_cons_of_mem d mem)) fun _ w same => seenPure same)
    · rw [Bool.not_eq_true,Bool.not_eq_false'] at tracked
      exact absurd ((trackedIff at_v d).mp tracked) (untracked d List.mem_cons_self)

theorem observeReturns {live : List DumpedRoute} : Returns (observe live d) (fun _ w => w = v) v :=
  seenGet fun _ _ => seenIte (fun _ => resetReturns rfl) fun _ => seenPure rfl

theorem addMissingReturns {around : Surroundings} {mode : RouteReconcileMode} (honest : around.faults = faithful)
    (separate : Separate start desired) (adding : Adding start desired start) :
    Returns (addMissing around desired mode) (fun _ w => Adding start desired w ∧ ∀ d ∈ desired, d ∈ w.routes) start := by
  refine seenBind (besideReturns (fun _ => rfl) (seenBind (dumpReturns honest ?_)))
  refine seenBind (returnsMono (seenForM (fun _ w => w = start) (fun d _ w same => ?_) rfl) fun _ w same => ?_)
  · cases same
    exact observeReturns
  · cases same
    have untracked : ∀ d ∈ findMissingLiveRoutes desired (start.kernel.dumpRoutes 0), d ∉ start.routes := by
      intro d mem tracked
      rw [findMissingLiveRoutes,List.mem_filter,Bool.not_eq_true',List.any_eq_false,dumpAll] at mem
      exact mem.2 _ (adding.live d tracked) (kernelMatchesOwn d)
    refine seenBind (returnsMono (repairReturns untracked) fun _ w same => ?_)
    cases same
    exact seenBind (returnsMono (installAllReturns honest separate adding) fun _ w done => seenPure done)

theorem matchedTracked (separate : Separate start desired) (adding : Adding start desired v) (held : ∀ d ∈ desired, d ∈ v.routes)
    {r : DumpedRoute}
    (mem : r ∈ v.kernel.routes) (generated : isGeneratedRouteCandidate r = true) (wanted : d ∈ desired)
    (matched : routeMatchesLive d r = true) :
    ∃ t ∈ v.routes, kernelRoute t = r := by
  rcases adding.known r mem with first | ⟨e,listed,rfl⟩
  · obtain ⟨t,listed,slot⟩ := separate.swept d wanted r first generated matched
    have tracked : t ∈ v.routes := (List.mem_append.mp listed).elim (adding.old t) (held t)
    have alone := adding.alone _ (adding.live t tracked) (.inr ⟨t,tracked,rfl⟩)
    exact ⟨t,tracked,(aloneSame alone mem slot).symm⟩
  · exact ⟨e,held e listed,rfl⟩

end Adding

structure Sweeping (desired : List RouteSpec) (v : Inventory) : Prop extends Tidy v where
  owned : ∀ t ∈ v.routes, t ∈ v.owned ∨ (t ∈ desired ∧ t.protocol = keenPbrGeneratedRouteProtocol)
  held : ∀ d ∈ desired, d ∈ v.routes
  vacant : ∀ t ∈ v.routes, t ∉ desired → ∀ d ∈ desired, (kernelRoute t).slot ≠ (kernelRoute d).slot
  settled : v.pending = []

def adopted (v : Inventory) (orphan : RouteSpec) : Inventory :=
  { v with
    routes := if orphan ∈ v.routes then v.routes else v.routes ++ [orphan]
    owned := if orphan ∈ v.owned then v.owned else v.owned ++ [orphan] }

section Sweeping
variable {v w : Inventory} {desired : List RouteSpec} {r : DumpedRoute} {t : RouteSpec}

theorem generatedProtocol (generated : isGeneratedRouteCandidate r = true) : r.protocol = keenPbrGeneratedRouteProtocol := by
  simp only [isGeneratedRouteCandidate,Bool.and_eq_true,beq_iff_eq] at generated
  exact generated.1.1.1.1

theorem memAdopted {orphan : RouteSpec} {specs : List RouteSpec} :
    t ∈ (if orphan ∈ specs then specs else specs ++ [orphan]) ↔ t ∈ specs ∨ t = orphan := by
  by_cases listed : orphan ∈ specs
  · rw [if_pos listed]
    constructor
    · exact .inl
    · rintro (old | rfl)
      · exact old
      · exact listed
  · rw [if_neg listed,List.mem_append,List.mem_singleton]

theorem adoptedSweeping (sweeping : Sweeping desired v) (mem : r ∈ v.kernel.routes) (generated : isGeneratedRouteCandidate r = true)
    (unwanted : ∀ d ∈ desired, routeMatchesLive d r = false) :
    Sweeping desired (adopted v (routeSpecFromLive r)) ∧ kernelRoute (routeSpecFromLive r) = r := by
  have alone := sweeping.alone r mem (.inl (generatedProtocol generated))
  have image : kernelRoute (routeSpecFromLive r) = r := kernelOfLive (v.kernel.families r mem) alone.1 (v.kernel.settled r mem)
  refine ⟨{ alone := ?_, live := ?_, distinct := ?_, owned := ?_, held := ?_, vacant := ?_, settled := sweeping.settled },image⟩
  · intro other inside own
    rcases own with protocol | ⟨t,tracked,rfl⟩
    · exact sweeping.alone other inside (.inl protocol)
    · rcases memAdopted.mp tracked with old | rfl
      · exact sweeping.alone _ inside (.inr ⟨t,old,rfl⟩)
      · rw [image]
        exact alone
  · intro t tracked
    rcases memAdopted.mp tracked with old | rfl
    · exact sweeping.live t old
    · rw [image]
      exact mem
  · change (if routeSpecFromLive r ∈ v.routes then v.routes else v.routes ++ [routeSpecFromLive r]).Nodup
    split
    · exact sweeping.distinct
    · rename_i fresh
      rw [List.nodup_append]
      refine ⟨sweeping.distinct,List.nodup_singleton _,?_⟩
      rintro t old u last rfl
      cases List.mem_singleton.mp last
      exact fresh old
  · intro t tracked
    rcases memAdopted.mp tracked with old | rfl
    · exact (sweeping.owned t old).imp (fun owned => memAdopted.mpr (.inl owned)) id
    · exact .inl (memAdopted.mpr (.inr rfl))
  · exact fun d wanted => memAdopted.mpr (.inl (sweeping.held d wanted))
  · intro t tracked unlisted d wanted slot
    rcases memAdopted.mp tracked with old | rfl
    · exact sweeping.vacant t old unlisted d wanted slot
    · rw [image] at slot
      have same := aloneSame alone (sweeping.live d (sweeping.held d wanted)) slot.symm
      have matched := kernelMatchesOwn d
      rw [same,unwanted d wanted] at matched
      cases matched

theorem orphansReturns {around : Surroundings} (honest : around.faults = faithful) (sweeping : Sweeping desired v)
    (matched : ∀ r ∈ v.kernel.routes, isGeneratedRouteCandidate r = true → ∀ d ∈ desired, routeMatchesLive d r = true →
      ∃ t ∈ v.routes, kernelRoute t = r) :
    Returns (adoptGeneratedOrphans around desired)
      (fun _ w => Sweeping desired w ∧ ∀ r ∈ w.kernel.routes, isGeneratedRouteCandidate r = true →
        ∃ t ∈ w.routes, kernelRoute t = r) v := by
  refine seenBind (dumpReturns honest ?_)
  refine returnsMono (seenForM (fun todo w => Sweeping desired w ∧ w.kernel = v.kernel ∧ (∀ t ∈ v.routes, t ∈ w.routes) ∧
    (∀ r ∈ todo, r ∈ v.kernel.routes) ∧
      ∀ r ∈ v.kernel.routes, isGeneratedRouteCandidate r = true → r ∈ todo ∨ ∃ t ∈ w.routes, kernelRoute t = r) ?_
    ⟨sweeping,rfl,fun _ mem => mem,fun _ mem => mem,fun _ mem _ => .inl mem⟩) ?_
  · rintro r rest w ⟨swept,kernel,more,live,tracked⟩
    have mem := live r List.mem_cons_self
    have later : ∀ r ∈ rest, r ∈ v.kernel.routes := fun other inside => live other (List.mem_cons_of_mem r inside)
    refine seenIte (fun skip => seenPure ⟨swept,kernel,more,later,fun other inside generated => ?_⟩) fun orphan => ?_
    · rcases tracked other inside generated with todo | done
      · rcases List.mem_cons.mp todo with rfl | waits
        · rw [generated,Bool.not_true,Bool.false_or,List.any_eq_true] at skip
          obtain ⟨d,wanted,hit⟩ := skip
          obtain ⟨t,known,image⟩ := matched other inside generated d wanted hit
          exact .inr ⟨t,more t known,image⟩
        · exact .inl waits
      · exact .inr done
    · rw [Bool.or_eq_true,not_or,Bool.not_eq_true,Bool.not_eq_false',Bool.not_eq_true,List.any_eq_false] at orphan
      have inside : r ∈ w.kernel.routes := by
        rw [kernel]
        exact mem
      have adoption := adoptedSweeping swept inside orphan.1
        fun d wanted => Bool.eq_false_iff.mpr (orphan.2 d wanted)
      refine seenModify (g := fun w => adopted w (routeSpecFromLive r)) ?_ ⟨adoption.1,kernel,?_,later,?_⟩
      · intro table
        have tracked : table.isTracked (routeSpecFromLive r) = true ↔ routeSpecFromLive r ∈ table.routes := trackedIff rfl _
        have claimed : table.ownedRoutes.any (routesEqual · (routeSpecFromLive r)) = true ↔
          routeSpecFromLive r ∈ table.ownedRoutes := anyEqualIff
        have routes := if_congr tracked (Eq.refl table.routes) (Eq.refl (table.routes ++ [routeSpecFromLive r]))
        have owned := if_congr claimed (Eq.refl table.ownedRoutes) (Eq.refl (table.ownedRoutes ++ [routeSpecFromLive r]))
        dsimp only [inventory,adopted]
        rw [routes,owned]
      · exact fun t known => memAdopted.mpr (.inl (more t known))
      · intro other inside generated
        rcases tracked other inside generated with todo | ⟨t,known,image⟩
        · rcases List.mem_cons.mp todo with rfl | waits
          · exact .inr ⟨_,memAdopted.mpr (.inr rfl),adoption.2⟩
          · exact .inl waits
        · exact .inr ⟨t,memAdopted.mpr (.inl known),image⟩
  · rintro _ w ⟨swept,kernel,_,_,tracked⟩
    refine ⟨swept,fun r mem generated => ?_⟩
    rw [kernel] at mem
    exact (tracked r mem generated).resolve_left fun none => by cases none

end Sweeping

structure Removing (desired todo : List RouteSpec) (v : Inventory) : Prop where
  generated : ∀ r ∈ v.kernel.routes, r.protocol = keenPbrGeneratedRouteProtocol → Alone v.kernel.routes r
  held : ∀ d ∈ desired, d ∈ v.routes ∧ Alone v.kernel.routes (kernelRoute d)
  owned : ∀ t ∈ v.routes, t ∈ v.owned ∨ (t ∈ desired ∧ t.protocol = keenPbrGeneratedRouteProtocol)
  waits : ∀ t ∈ v.routes, t ∉ desired → t ∈ todo
  vacant : ∀ t ∈ v.routes, t ∉ desired → ∀ d ∈ desired, (kernelRoute t).slot ≠ (kernelRoute d).slot
  slots : ∀ t ∈ v.routes, ∀ r ∈ v.kernel.routes, r.slot = (kernelRoute t).slot → r = kernelRoute t ∧ Alone v.kernel.routes r
  tracked : ∀ r ∈ v.kernel.routes, isGeneratedRouteCandidate r = true → ∃ t ∈ v.routes, kernelRoute t = r
  distinct : v.routes.Nodup
  settled : v.pending = []

section Removing
variable {v w : Inventory} {desired todo : List RouteSpec} {t : RouteSpec} {around : Surroundings}

theorem Removing.skip (removing : Removing desired (t :: todo) v) (gone : t ∈ desired ∨ t ∉ v.routes) : Removing desired todo v :=
  { removing with
    waits := by
      intro other mem unlisted
      rcases List.mem_cons.mp (removing.waits other mem unlisted) with rfl | later
      · exact (gone.elim unlisted fun absent => absent mem).elim
      · exact later }

theorem slotOfOwn (removing : Removing desired todo v) (mem : t ∈ v.routes) :
    occupants (kernelRoute t).slot v.kernel.routes = [] ∨ occupants (kernelRoute t).slot v.kernel.routes = [kernelRoute t] := by
  cases inside : occupants (kernelRoute t).slot v.kernel.routes with
  | nil => exact .inl rfl
  | cons r rest =>
    obtain ⟨live,slot⟩ := memOccupants.mp (show r ∈ occupants (kernelRoute t).slot v.kernel.routes by rw [inside]; exact List.mem_cons_self)
    obtain ⟨same,alone⟩ := removing.slots t mem r live slot
    rw [same] at alone
    rw [alone.2] at inside
    exact .inr inside.symm

theorem memErased {specs : List RouteSpec} {other : RouteSpec} (away : other ≠ t) :
    other ∈ specs.eraseP (routesEqual · t) ↔ other ∈ specs := by
  have miss : ¬routesEqual other t = true := fun same => away ((routeSpecsEqualIff other t).mp same)
  exact List.mem_eraseP_of_neg miss

theorem erasedGone {specs : List RouteSpec} (distinct : specs.Nodup) : t ∉ specs.eraseP (routesEqual · t) := by
  have same : specs.eraseP (routesEqual · t) = specs.erase t := by
    rw [List.erase_eq_eraseP']
    congr 1
    funext other
    rw [Bool.eq_iff_iff,beq_iff_eq]
    exact routeSpecsEqualIff other t
  rw [same]
  exact distinct.not_mem_erase

def dropped (v : Inventory) (k : Kernel) (t : RouteSpec) : Inventory :=
  { v with kernel := k, owned := v.owned.eraseP (routesEqual · t), routes := v.routes.eraseP (routesEqual · t) }

theorem Removing.drop (removing : Removing desired (t :: todo) v) (mem : t ∈ v.routes) (unlisted : t ∉ desired) {k : Kernel}
    (kernel : k.routes = withoutSlot (kernelRoute t).slot v.kernel.routes) : Removing desired todo (dropped v k t) := by
  have left : ∀ other, other ∈ v.routes.eraseP (routesEqual · t) → other ∈ v.routes ∧ other ≠ t := by
    intro other inside
    refine ⟨List.mem_of_mem_eraseP inside,?_⟩
    rintro rfl
    exact erasedGone removing.distinct inside
  have live : ∀ r ∈ k.routes, r ∈ v.kernel.routes ∧ r.slot ≠ (kernelRoute t).slot := by
    intro r inside
    rw [kernel] at inside
    exact memWithoutSlot.mp inside
  have carry : ∀ r, r.slot ≠ (kernelRoute t).slot → Alone v.kernel.routes r → Alone k.routes r := by
    intro r away alone
    rw [kernel]
    exact aloneWithout alone away
  have apart : ∀ d ∈ desired, d ≠ t := by
    rintro d wanted rfl
    exact unlisted wanted
  refine {
    generated := ?_, held := ?_, owned := ?_, waits := ?_, vacant := ?_, slots := ?_, tracked := ?_, distinct := ?_,
    settled := removing.settled }
  · intro r inside protocol
    obtain ⟨old,away⟩ := live r inside
    exact carry r away (removing.generated r old protocol)
  · intro d wanted
    obtain ⟨listed,alone⟩ := removing.held d wanted
    exact ⟨(memErased (apart d wanted)).mpr listed,carry _ (removing.vacant t mem unlisted d wanted).symm alone⟩
  · intro other inside
    obtain ⟨old,away⟩ := left other inside
    exact (removing.owned other old).imp (memErased away).mpr id
  · intro other inside unwanted
    obtain ⟨old,away⟩ := left other inside
    exact (List.mem_cons.mp (removing.waits other old unwanted)).resolve_left away
  · exact fun other inside => removing.vacant other (left other inside).1
  · intro other inside r mem slot
    obtain ⟨old,away⟩ := live r mem
    obtain ⟨same,alone⟩ := removing.slots other (left other inside).1 r old slot
    exact ⟨same,carry r away alone⟩
  · intro r inside generated
    obtain ⟨old,away⟩ := live r inside
    obtain ⟨other,listed,rfl⟩ := removing.tracked r old generated
    refine ⟨other,(memErased ?_).mpr listed,rfl⟩
    rintro rfl
    exact away rfl
  · exact removing.distinct.sublist List.eraseP_sublist

theorem withdrawReturns (honest : around.faults = faithful) (removing : Removing desired todo v) (mem : t ∈ v.routes) :
    Returns (withdraw around t)
      (fun released w => released = true ∧ ∃ k, w = { v with kernel := k } ∧
        k.routes = withoutSlot (kernelRoute t).slot v.kernel.routes) v := by
  refine seenGet fun table at_v => ?_
  have none : table.pendingReplacements = [] := by
    have pending : (inventory table).pending = [] := by
      rw [at_v]
      exact removing.settled
    exact pending
  rw [none]
  refine seenIte (fun pending => by cases pending) fun _ => seenCatch (seenBind (deleteReturns honest (slotOfOwn removing mem) ?_))
  intro result k exact kernel
  cases result with
  | preconditionMismatch => exact absurd rfl exact
  | deleted | alreadyAbsent => exact seenPure ⟨rfl,k,rfl,kernel⟩

theorem removeReturns (honest : around.faults = faithful) (removing : Removing desired (t :: todo) v) (unlisted : t ∉ desired) :
    Returns (remove around t) (fun _ w => Removing desired todo w) v := by
  refine seenGet fun table at_v => ?_
  refine seenIte (fun untracked => seenPure (removing.skip (.inr ?_))) fun tracked => ?_
  · intro mem
    rw [(trackedIff at_v t).mpr mem] at untracked
    cases untracked
  · rw [Bool.not_eq_true,Bool.not_eq_false'] at tracked
    have mem := (trackedIff at_v t).mp tracked
    have owned := (removing.owned t mem).resolve_right fun wanted => unlisted wanted.1
    refine seenBind (seenGet fun table at_v => seenIte (fun _ => ?_) fun unowned => ?_)
    · refine returnsMono (withdrawReturns honest removing mem) ?_
      rintro released w ⟨rfl,k,rfl,kernel⟩
      refine seenIte (fun _ => ?_) fun refused => absurd rfl refused
      exact seenBind (seenModify (g := fun w => dropped w w.kernel t) (fun _ => rfl) (seenPure (removing.drop mem unlisted kernel)))
    · refine absurd (anyEqualIff.mpr ?_) unowned
      have inside : t ∈ (inventory table).owned := by
        rw [at_v]
        exact owned
      exact inside

theorem removeCurrentReturns (honest : around.faults = faithful) (removing : Removing desired todo v) :
    Returns (removeCurrent around desired [] todo) (fun _ w => Removing desired [] w) v := by
  induction todo generalizing v with
  | nil => exact seenPure removing
  | cons t rest ih =>
    refine seenBind (returnsMono (Q := fun _ w => Removing desired rest w) ?_ fun kept w removing => ?_)
    · refine seenIte (fun wanted => ?_) fun unwanted => seenIte (fun guarded => by cases guarded) fun _ => ?_
      · rw [List.any_eq_true] at wanted
        obtain ⟨d,listed,same⟩ := wanted
        cases (routeSpecsEqualIff t d).mp same
        exact seenPure (removing.skip (.inl listed))
      · have unlisted : t ∉ desired := fun listed =>
          unwanted (List.any_eq_true.mpr ⟨t,listed,(routeSpecsEqualIff t t).mpr rfl⟩)
        exact seenBind (returnsMono (removeReturns honest removing unlisted) fun _ w removing => seenPure removing)
    · exact seenBind (returnsMono (ih removing) fun _ w removing => seenPure removing)

theorem removingStart (sweeping : Sweeping desired v)
    (tracked : ∀ r ∈ v.kernel.routes, isGeneratedRouteCandidate r = true → ∃ t ∈ v.routes, kernelRoute t = r) :
    Removing desired v.routes v where
  generated r mem protocol := sweeping.alone r mem (.inl protocol)
  held d wanted :=
    ⟨sweeping.held d wanted,sweeping.alone _ (sweeping.live d (sweeping.held d wanted)) (.inr ⟨d,sweeping.held d wanted,rfl⟩)⟩
  owned := sweeping.owned
  waits _ mem _ := mem
  vacant := sweeping.vacant
  slots t mem r live slot := by
    have alone := sweeping.alone _ (sweeping.live t mem) (.inr ⟨t,mem,rfl⟩)
    have same := aloneSame alone live slot
    rw [same]
    exact ⟨rfl,alone⟩
  tracked := tracked
  distinct := sweeping.distinct
  settled := sweeping.settled

end Removing

structure Rested (v : Inventory) : Prop extends Tidy v where
  owned : ∀ t ∈ v.routes, t ∈ v.owned
  settled : v.pending = []

/- The live generated routes and the tracked ledger are the desired ones. -/
structure Converged (desired : List RouteSpec) (v : Inventory) : Prop where
  live : ∀ d ∈ desired, kernelRoute d ∈ v.kernel.routes
  generated : ∀ r ∈ v.kernel.routes, isGeneratedRouteCandidate r = true → ∃ d ∈ desired, kernelRoute d = r
  tracked : ∀ t, t ∈ v.routes ↔ t ∈ desired

section Reconcile
variable {v : Inventory} {desired : List RouteSpec} {around : Surroundings} {mode : RouteReconcileMode}

theorem committedKeeps {live : List DumpedRoute} {owned : List RouteSpec} {t : RouteSpec} (mem : t ∈ owned) :
    t ∈ committedOwned desired live owned := by
  induction desired generalizing owned with
  | nil => exact mem
  | cons d rest ih =>
    rw [committedOwned,List.foldl_cons]
    refine ih ?_
    split
    · exact mem
    · split
      · exact List.mem_append_left _ mem
      · exact mem

theorem committedAdopts {live : List DumpedRoute} {owned : List RouteSpec} {d : RouteSpec} (wanted : d ∈ desired)
    (protocol : d.protocol = keenPbrGeneratedRouteProtocol) (present : live.any (routeMatchesLive d) = true) :
    d ∈ committedOwned desired live owned := by
  induction desired generalizing owned with
  | nil => cases wanted
  | cons e rest ih =>
    rw [committedOwned,List.foldl_cons]
    rcases List.mem_cons.mp wanted with rfl | later
    · refine committedKeeps ?_
      rw [protocol,present,bne_self_eq_false,Bool.true_and]
      rw [if_neg Bool.false_ne_true]
      split
      · exact List.mem_append_right _ (List.mem_singleton_self d)
      · rename_i already
        rw [Bool.not_eq_true,Bool.not_eq_false'] at already
        exact anyEqualIff.mp already
    · exact ih later

theorem reconcileReturns (honest : around.faults = faithful) (rested : Rested v) (separate : Separate v desired) :
    Returns (reconcile around desired mode) (fun _ w => Rested w ∧ Converged desired w) v := by
  have adding : Adding v desired v :=
    { rested.toTidy with
      owned := fun t mem => .inl (rested.owned t mem)
      old := fun _ mem => mem
      new := fun _ mem => .inl mem
      known := fun _ mem => .inl mem }
  refine seenBind (returnsMono (addMissingReturns honest separate adding) ?_)
  rintro _ w ⟨added,held⟩
  refine seenBind (seenModify (g := fun w => { w with pending := [] }) (fun _ => rfl) ?_)
  have sweeping : Sweeping desired { w with pending := [] } :=
    { alone := added.alone
      live := added.live
      distinct := added.distinct
      owned := added.owned
      held := held
      vacant := by
        intro t mem unlisted d wanted
        exact separate.vacant t ((added.new t mem).resolve_right unlisted) unlisted d wanted
      settled := rfl }
  have matched : ∀ r ∈ w.kernel.routes, isGeneratedRouteCandidate r = true → ∀ d ∈ desired, routeMatchesLive d r = true →
      ∃ t ∈ w.routes, kernelRoute t = r :=
    fun r mem generated d wanted hit => matchedTracked separate added held mem generated wanted hit
  refine seenBind (seenBind (returnsMono (orphansReturns honest sweeping matched) ?_))
  rintro _ w ⟨swept,tracked⟩
  refine seenGet fun table at_w => ?_
  have routes : table.routes = w.routes := congrArg Inventory.routes at_w
  rw [routes]
  refine returnsMono (removeCurrentReturns honest (removingStart swept tracked)) ?_
  intro _ w removing
  have all : ∀ t, t ∈ w.routes ↔ t ∈ desired := by
    intro t
    constructor
    · intro mem
      by_contra unlisted
      cases removing.waits t mem unlisted
    · exact fun wanted => (removing.held t wanted).1
  refine seenCatch (seenBind (dumpReturns honest ?_))
  refine seenModify (g := fun w' => { w' with owned := committedOwned desired (w.kernel.dumpRoutes 0) w'.owned }) (fun _ => rfl) ?_
  refine ⟨{ alone := ?_, live := ?_, distinct := removing.distinct, owned := ?_, settled := removing.settled },?_⟩
  · intro r mem own
    rcases own with protocol | ⟨t,tracked,rfl⟩
    · exact removing.generated r mem protocol
    · exact (removing.held t ((all t).mp tracked)).2
  · exact fun t tracked => aloneMem (removing.held t ((all t).mp tracked)).2
  · intro t tracked
    rcases removing.owned t tracked with owned | ⟨wanted,protocol⟩
    · exact committedKeeps owned
    · refine committedAdopts wanted protocol ?_
      rw [dumpAll,List.any_eq_true]
      exact ⟨_,aloneMem (removing.held t wanted).2,kernelMatchesOwn t⟩
  · refine ⟨fun d wanted => aloneMem (removing.held d wanted).2,fun r mem generated => ?_,all⟩
    obtain ⟨t,tracked,image⟩ := removing.tracked r mem generated
    exact ⟨t,(all t).mp tracked,image⟩

end Reconcile

/- One call of a run: the desired routes and the mode. -/
structure Call where
  desired : List RouteSpec
  mode : RouteReconcileMode := .strict

def called (around : Surroundings) (table : RouteTable) (call : Call) : RouteTable :=
  match reconcile around call.desired call.mode table with
  | .ok _ after => after
  | .error _ after => after

def returned (around : Surroundings) (table : RouteTable) (call : Call) : Bool :=
  match reconcile around call.desired call.mode table with
  | .ok _ _ => true
  | .error _ _ => false

/- A call that did not throw and asked for nothing the table cannot carry out. -/
def Carried (around : Surroundings) (table : RouteTable) (call : Call) : Prop :=
  returned around table call = true ∧ Separate (inventory table) call.desired

theorem calledConverges {around : Surroundings} (honest : around.faults = faithful) {table : RouteTable} {call : Call}
    (rested : Rested (inventory table)) (carried : Carried around table call) :
    Rested (inventory (called around table call)) ∧ Converged call.desired (inventory (called around table call)) := by
  have result : wp (reconcile around call.desired call.mode) _ _ table := reconcileReturns honest rested carried.2 table rfl
  have ok := carried.1
  unfold wp at result
  unfold returned at ok
  unfold called
  split at ok
  · rename_i same
    rw [same] at result
    exact result
  · cases ok

/- A fresh table over a kernel in which every route of the program's protocol is one it can name, alone in its slot. -/
def Fresh (table : RouteTable) : Prop :=
  (∀ r ∈ table.backend.kernel.routes, r.protocol = keenPbrGeneratedRouteProtocol → Alone table.backend.kernel.routes r) ∧
    table.routes = [] ∧ table.ownedRoutes = [] ∧ table.pendingReplacements = []

theorem freshRested {table : RouteTable} (fresh : Fresh table) : Rested (inventory table) := by
  obtain ⟨alone,routes,_,pending⟩ := fresh
  have none : (inventory table).routes = [] := routes
  refine { alone := ?_, live := ?_, distinct := ?_, owned := ?_, settled := pending }
  · rintro r mem (protocol | ⟨t,tracked,_⟩)
    · exact alone r mem protocol
    · rw [none] at tracked
      cases tracked
  · intro t tracked
    rw [none] at tracked
    cases tracked
  · rw [none]
    exact List.nodup_nil
  · intro t tracked
    rw [none] at tracked
    cases tracked

/- Every run of calls that return and stay separate converges on its last desired routes. -/
theorem routesConverge (around : Surroundings) (honest : around.faults = faithful) (start : RouteTable) (fresh : Fresh start)
    (history : List Call) (last : Call) (table : RouteTable)
    (run : Runs.Run (called around) (Carried around) start (history ++ [last]) table) : Converged last.desired (inventory table) :=
  run.last (fun table => Rested (inventory table)) (fun call table => Converged call.desired (inventory table))
    (fun _ _ carried rested => calledConverges honest rested carried) (freshRested fresh)

def exitRoute (interface : String) (metric : UInt32) : RouteSpec :=
  { destination := "default", table := 150, interface := some interface, family := afInet, metric }

def calm : Surroundings := ⟨fun _ _ => .up,fun _ => 0,faithful⟩

def emptyKernel : Kernel := ⟨[],[],(fun _ mem => by cases mem),(fun _ mem => by cases mem)⟩

def emptyTable : RouteTable := { backend := ⟨emptyKernel,0⟩ }

theorem emptyFresh : Fresh emptyTable := ⟨(fun _ mem => by cases mem),rfl,rfl,rfl⟩

def firstExit : RouteTable := called calm emptyTable { desired := [exitRoute "tun0" 5] }

/- A higher metric is another slot. -/
theorem otherMetricConverges : Converged [exitRoute "tun1" 6] (inventory (called calm firstExit { desired := [exitRoute "tun1" 6] })) := by
  refine routesConverge calm rfl emptyTable emptyFresh [{ desired := [exitRoute "tun0" 5] }] { desired := [exitRoute "tun1" 6] } _ ?_
  refine .step ⟨?_,?_,?_,?_,?_⟩ (.step ⟨?_,?_,?_,?_,?_⟩ (.stop _))
  all_goals decide +kernel

def secondExit : RouteTable := called calm firstExit { desired := [exitRoute "tun1" 5] }

theorem leftTracked {table : RouteTable} {desired : List RouteSpec} {t : RouteSpec} (left : t ∈ table.routes) (unlisted : t ∉ desired) :
    ¬ Converged desired (inventory table) :=
  fun converged => unlisted ((converged.tracked t).mp left)

/- In one slot the second exit replaces the first, which stays tracked. -/
theorem replacedStaysTracked :
    Fresh emptyTable ∧ returned calm emptyTable { desired := [exitRoute "tun0" 5] } = true ∧
      returned calm firstExit { desired := [exitRoute "tun1" 5] } = true ∧
    ¬ Converged [exitRoute "tun1" 5] (inventory secondExit) := by
  refine ⟨emptyFresh,?_,?_,leftTracked (t := exitRoute "tun0" 5) ?_ ?_⟩
  all_goals decide +kernel

end KeenPbr.RouteTables
