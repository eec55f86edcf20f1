import KeenPbr.Wp
import KeenPbr.RouteTypes

/-! The kernel's route and rule inventory and routing/netlink.cpp's NetlinkManager over it.
Every request to the kernel may raise before it took effect or after; an interface may be
missing when a route object is built. Nobody else writes to the inventory. -/
namespace KeenPbr
open Wp

inductive NetlinkError where
  | routeInterfaceUnavailable (what : String)
  | netlink (what : String)
  | unknown
  deriving DecidableEq, Repr

inductive Fault where
  | none
  | beforeEffect (error : NetlinkError)
  | afterEffect (error : NetlinkError)
  deriving DecidableEq, Repr

/- What the outside decides: the fate of the n-th kernel request and whether
if_nametoindex knows an interface at that moment. -/
structure Faults where
  request : Nat → Fault
  interfaceKnown : Nat → String → Bool

/- A route in the FIB has a real address family, and Linux gives an IPv6 route without a
priority the metric 1024, so no inventory holds an IPv6 metric 0. -/
structure Kernel where
  routes : List DumpedRoute
  rules : List DumpedRule
  families : ∀ r ∈ routes, r.family ≠ 0
  settled : ∀ r ∈ routes, exactRouteKernelMetric r.metric r.family = r.metric

def detectFamily (address : String) : Int :=
  if address.toList.contains ':' then afInet6 else afInet

def routeFamily (spec : RouteSpec) : Int :=
  if spec.family != 0 then spec.family
  else if spec.destination == "default" then afInet
  else detectFamily spec.destination

def kernelRoute (spec : RouteSpec) : DumpedRoute :=
  { dumpedRouteFromSpec spec with
    family := routeFamily spec
    metric := exactRouteKernelMetric spec.metric (routeFamily spec) }

def kernelRule (spec : RuleSpec) (family : Int) : DumpedRule :=
  { priority := spec.priority, fwmark := spec.fwmark, fwmask := spec.fwmask, table := spec.table, family }

def sameKernelSlot (left right : DumpedRoute) : Bool :=
  left.destination == right.destination && left.table == right.table &&
    left.family == right.family && left.metric == right.metric

theorem kernelMetricIdem (metric : UInt32) (family : Int) :
    exactRouteKernelMetric (exactRouteKernelMetric metric family) family =
      exactRouteKernelMetric metric family := by
  unfold exactRouteKernelMetric
  split <;> simp_all

theorem routeFamilyNonzero (spec : RouteSpec) : routeFamily spec ≠ 0 := by
  unfold routeFamily
  split
  · rename_i explicit
    simpa using explicit
  · split
    · decide
    · unfold detectFamily
      split <;> decide

namespace Kernel

def routeSlotTaken (k : Kernel) (spec : RouteSpec) : Bool := k.routes.any (sameKernelSlot (kernelRoute spec))

def insertRoute (k : Kernel) (spec : RouteSpec) : Kernel where
  routes := k.routes ++ [kernelRoute spec]
  rules := k.rules
  families := by
    intro r hr
    rcases List.mem_append.mp hr with old | new
    · exact k.families r old
    · rw [List.mem_singleton.mp new]
      exact routeFamilyNonzero spec
  settled := by
    intro r hr
    rcases List.mem_append.mp hr with old | new
    · exact k.settled r old
    · rw [List.mem_singleton.mp new]
      exact kernelMetricIdem _ _

def replaceFirst (new : DumpedRoute) : List DumpedRoute → List DumpedRoute
  | [] => [new]
  | r :: rest => if sameKernelSlot new r then new :: rest else r :: replaceFirst new rest

theorem mem_replaceFirst {new r : DumpedRoute} {rs : List DumpedRoute} (h : r ∈ replaceFirst new rs) :
    r = new ∨ r ∈ rs := by
  induction rs with
  | nil => simpa [replaceFirst] using h
  | cons head rest ih =>
    simp only [replaceFirst] at h
    split at h
    · rcases List.mem_cons.mp h with h | h
      · exact .inl h
      · exact .inr (List.mem_cons_of_mem _ h)
    · rcases List.mem_cons.mp h with h | h
      · exact .inr (by simp [h])
      · exact (ih h).imp id (List.mem_cons_of_mem _)

def replaceRoute (k : Kernel) (spec : RouteSpec) : Kernel where
  routes := replaceFirst (kernelRoute spec) k.routes
  rules := k.rules
  families := by
    intro r hr
    rcases mem_replaceFirst hr with rfl | old
    · exact routeFamilyNonzero spec
    · exact k.families r old
  settled := by
    intro r hr
    rcases mem_replaceFirst hr with rfl | old
    · exact kernelMetricIdem _ _
    · exact k.settled r old

def deleteRoute (k : Kernel) (spec : RouteSpec) : Kernel where
  routes := k.routes.eraseP fun r => sameKernelSlot (kernelRoute spec) r && routeMatchesLive spec r
  rules := k.rules
  families := fun r hr => k.families r (List.mem_of_mem_eraseP hr)
  settled := fun r hr => k.settled r (List.mem_of_mem_eraseP hr)

def ruleTaken (k : Kernel) (spec : RuleSpec) (family : Int) : Bool :=
  k.rules.any fun r => r.exactIdentityRepresentable && ruleMatchesLive { spec with family } r

def insertRule (k : Kernel) (spec : RuleSpec) (family : Int) : Kernel :=
  { k with rules := k.rules ++ [kernelRule spec family] }

def deleteRule (k : Kernel) (spec : RuleSpec) (family : Int) : Kernel :=
  { k with rules := k.rules.eraseP (ruleMatchesLive { spec with family }) }

def dumpRoutes (k : Kernel) (family : Int) : List DumpedRoute :=
  if family == 0 then k.routes else k.routes.filter (fun r => r.family == family)

def dumpRules (k : Kernel) (family : Int) : List DumpedRule :=
  if family == 0 then k.rules else k.rules.filter (fun r => r.family == family)

end Kernel

structure Backend where
  kernel : Kernel
  calls : Nat := 0

abbrev Netlink := EStateM NetlinkError Backend

def request (faults : Faults) {α : Type} (effect : Kernel → α × Kernel) : Netlink α := fun b =>
  match faults.request b.calls with
  | .none => .ok (effect b.kernel).1 ⟨(effect b.kernel).2,b.calls + 1⟩
  | .beforeEffect e => .error e ⟨b.kernel,b.calls + 1⟩
  | .afterEffect e => .error e ⟨(effect b.kernel).2,b.calls + 1⟩

inductive RouteAddResult where
  | created
  | alreadyPresent
  deriving DecidableEq, Repr

inductive RouteExactDeleteResult where
  | deleted
  | alreadyAbsent
  | preconditionMismatch
  deriving DecidableEq, Repr

inductive RouteExactReplaceResult where
  | replaced
  | preconditionMismatch
  deriving DecidableEq, Repr

inductive RuleAddResult where
  | created
  | alreadyPresent
  deriving DecidableEq, Repr

inductive RuleExactDeleteResult where
  | deleted
  | alreadyAbsent
  | preconditionMismatch
  deriving DecidableEq, Repr

namespace NetlinkManager

variable (faults : Faults)

def dumpRoutes (family : Int) : Netlink (List DumpedRoute) := request faults fun k => (k.dumpRoutes family,k)

def dumpPolicyRules (family : Int) : Netlink (List DumpedRule) := request faults fun k => (k.dumpRules family,k)

/- build_route: only a unicast route with an output interface looks the interface up. -/
def missingInterface (spec : RouteSpec) (b : Backend) : Option String :=
  if spec.blackhole || spec.unreachable then none
  else spec.interface.filter fun name => !faults.interfaceKnown b.calls name

def buildRoute (spec : RouteSpec) : Netlink Unit := do
  match missingInterface faults spec (← get) with
  | some name => throw (.routeInterfaceUnavailable ("Interface not found: " ++ name))
  | none => pure ()

def addRoute (spec : RouteSpec) : Netlink RouteAddResult := do
  buildRoute faults spec
  request faults fun k =>
    if k.routeSlotTaken spec then (.alreadyPresent,k) else (.created,k.insertRoute spec)

def replaceRoute (spec : RouteSpec) : Netlink Unit := do
  buildRoute faults spec
  request faults fun k => ((),k.replaceRoute spec)

/- A missing interface means the kernel has already dropped the route. -/
def deleteRoute (spec : RouteSpec) : Netlink Unit := do
  if (missingInterface faults spec (← get)).isSome then pure ()
  else request faults fun k => ((),k.deleteRoute spec)

/- The slot scan delete_route_if_exact and replace_route_if_exact share: how many routes
occupy the slot, and the last exact one. -/
def slotScan (expected : RouteSpec) (live : List DumpedRoute) : Nat × Option DumpedRoute :=
  let slot := live.filter (routeOccupiesSameSlot expected)
  (slot.length,(slot.filter fun r => r.exactIdentityRepresentable && routeMatchesLive expected r).getLast?)

def deleteRouteIfExact (expected : RouteSpec) : Netlink RouteExactDeleteResult := do
  let live ← dumpRoutes faults (routeFamily expected)
  match slotScan expected live with
  | (0,_) => pure .alreadyAbsent
  | (1,some found) => do
    deleteRoute faults (routeSpecFromLive found)
    let after ← dumpRoutes faults (routeFamily expected)
    if after.any (routeOccupiesSameSlot expected) then
      throw (.netlink "Exact route delete did not produce an empty kernel slot")
    else pure .deleted
  | _ => pure .preconditionMismatch

def normalizedMetric (route : RouteSpec) : UInt32 :=
  if routeFamily route == afInet6 && route.metric == 0 then 1024 else route.metric

def replaceRouteIfExact (expected replacement : RouteSpec) : Netlink RouteExactReplaceResult := do
  if expected.destination != replacement.destination || expected.table != replacement.table ||
      routeFamily expected != routeFamily replacement ||
      normalizedMetric expected != normalizedMetric replacement then pure .preconditionMismatch
  else
    let live ← dumpRoutes faults (routeFamily expected)
    match slotScan expected live with
    | (1,some _) => do
      replaceRoute faults replacement
      let after ← dumpRoutes faults (routeFamily replacement)
      match slotScan replacement after with
      | (1,some _) => pure .replaced
      | _ => throw (.netlink "Exact route replacement could not be re-observed")
    | _ => pure .preconditionMismatch

def addRuleForFamily (spec : RuleSpec) (family : Int) : Netlink RuleAddResult :=
  request faults fun k =>
    if k.ruleTaken spec family then (.alreadyPresent,k) else (.created,k.insertRule spec family)

def deleteRuleForFamily (spec : RuleSpec) (family : Int) : Netlink Unit :=
  request faults fun k => ((),k.deleteRule spec family)

def deleteRuleIfExact (spec : RuleSpec) (family : Int) : Netlink RuleExactDeleteResult := do
  if family != afInet && family != afInet6 then pure .preconditionMismatch
  else
    let expected := { spec with family }
    let live ← dumpPolicyRules faults family
    let same := live.filter (ruleMatchesLive expected)
    match same.length,same.any (·.exactIdentityRepresentable) with
    | 0,_ => pure .alreadyAbsent
    | 1,true => do
      deleteRuleForFamily faults expected family
      let after ← dumpPolicyRules faults family
      if after.any (ruleMatchesLive expected) then
        throw (.netlink "Exact policy-rule delete could not be re-observed")
      else pure .deleted
    | _,_ => pure .preconditionMismatch

end NetlinkManager

end KeenPbr
