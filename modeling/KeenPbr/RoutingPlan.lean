import KeenPbr.Fwmark
import KeenPbr.TableIds
import KeenPbr.RouteTypes

/-! config/routing_state.cpp: plan_routing_state and the walks over nested urltest groups. The
source caches a reachability check by tag; a check looks at the tag only, so the cache is not
visible here. A plan is kept as one entry per routable outbound and joined at the end. -/
namespace KeenPbr

def kUnreachableRouteMetric : UInt32 := 65535

structure OutboundFamilyReachability where
  ipv4 : Bool := false
  ipv6 : Bool := false
  deriving DecidableEq, Repr

def OutboundFamilyReachability.any (reachable : OutboundFamilyReachability) (ipv6Enabled : Bool) : Bool :=
  reachable.ipv4 || ipv6Enabled && reachable.ipv6

def OutboundFamilyReachability.forFamily (reachable : OutboundFamilyReachability) (family : Int) : Bool :=
  if family == afInet then reachable.ipv4 else family == afInet6 && reachable.ipv6

abbrev OutboundReachabilitySnapshot := List (String × Bool)
abbrev OutboundFamilyReachabilitySnapshot := List (String × OutboundFamilyReachability)
abbrev UrltestSelections := List (String × String)

def resolveUrltestSelection (selections : UrltestSelections) (tag : String) : String := (selections.lookup tag).getD ""

def strictEnforcementEnabled (cfg : Config) (ob : Outbound) : Bool :=
  match ob.strictEnforcement with
  | some strict => strict
  | none =>
    match cfg.strictEnforcement with
    | some strict => strict
    | none => ob.type == .interface && ob.gateway.isNone && ob.gateway6.isNone

def defaultVia (tableId : UInt32) (ob : Outbound) (family : Int) (gateway : Option String) : RouteSpec :=
  { destination := "default", table := tableId, family, interface := some (ob.interface.getD ""), gateway }

def makeDefaultRoutes (tableId : UInt32) (ob : Outbound) : List RouteSpec :=
  if ob.gateway.isNone && ob.gateway6.isNone then
    [defaultVia tableId ob afInet none,defaultVia tableId ob afInet6 none]
  else
    (if ob.gateway.isSome then [defaultVia tableId ob afInet ob.gateway] else []) ++
      if ob.gateway6.isSome then [defaultVia tableId ob afInet6 ob.gateway6] else []

def unreachableDefault (tableId : UInt32) (metric : UInt32) (family : Int) : RouteSpec :=
  { destination := "default", table := tableId, unreachable := true, metric, family }

def makeFamilyClosureRoutes (tableId : UInt32) (ob : Outbound) (metric : UInt32 := kUnreachableRouteMetric) :
    List RouteSpec :=
  if ob.gateway.isNone && ob.gateway6.isNone then []
  else
    (if ob.gateway.isNone then [unreachableDefault tableId metric afInet] else []) ++
      if ob.gateway6.isNone then [unreachableDefault tableId metric afInet6] else []

def makeUnreachableRoutes (tableId : UInt32) (metric : UInt32 := kUnreachableRouteMetric) : List RouteSpec :=
  [unreachableDefault tableId metric afInet,unreachableDefault tableId metric afInet6]

/- std::stable_sort by weight: the groups' indexes are their order. -/
def orderedUrltestChildren (outbounds : List Outbound) (urltest : Outbound) : List Outbound :=
  let groups := (urltest.outboundGroups.getD []).insertionSort fun a b => a.weight.getD 1 ≤ b.weight.getD 1
  groups.flatMap fun group => group.outbounds.filterMap (findOutbound outbounds)

def kMaxUrltestDepth : Nat := 8

def walkDepth : Nat := kMaxUrltestDepth + 1

def followSelection {α : Type} (outbounds : List Outbound) (selections : UrltestSelections) (outbound : Outbound)
    (next : Outbound → Option α) : Option α :=
  let selectedTag := resolveUrltestSelection selections outbound.tag
  if selectedTag.isEmpty then none
  else
    match findOutbound outbounds selectedTag with
    | none => none
    | some child => next child

def resolveSelectedInterface (outbounds : List Outbound) (selections : UrltestSelections) :
    Nat → Outbound → Option Outbound
  | 0, _ => none
  | left + 1, outbound =>
    if outbound.type == .interface then some outbound
    else if outbound.type != .urltest then none
    else followSelection outbounds selections outbound (resolveSelectedInterface outbounds selections left)

def resolveEffectiveOutbound (outbounds : List Outbound) (selections : UrltestSelections) :
    Nat → Outbound → Option Outbound
  | 0, outbound => if outbound.type != .urltest then some outbound else none
  | left + 1, outbound =>
    if outbound.type != .urltest then some outbound
    else followSelection outbounds selections outbound (resolveEffectiveOutbound outbounds selections left)

structure LeafWalk where
  collected : List Outbound := []
  visited : List String := []
  deriving DecidableEq, Repr

def collectUrltestLeafInterfaces (outbounds : List Outbound) : Nat → Outbound → LeafWalk → LeafWalk
  | 0, _, walk => walk
  | left + 1, urltest, walk =>
    if walk.visited.contains urltest.tag then walk
    else
      (orderedUrltestChildren outbounds urltest).foldl (fun walk child =>
        if child.type == .interface then { walk with collected := walk.collected ++ [child] }
        else if child.type == .urltest then collectUrltestLeafInterfaces outbounds left child walk
        else walk) { walk with visited := urltest.tag :: walk.visited }

def urltestLeaves (outbounds : List Outbound) (urltest : Outbound) : List Outbound :=
  (collectUrltestLeafInterfaces outbounds walkDepth urltest {}).collected

structure PlanInput where
  cfg : Config
  marks : OutboundMarkMap
  reachability : OutboundReachabilitySnapshot := []
  familyReachability : OutboundFamilyReachabilitySnapshot := []
  selections : UrltestSelections := []
  ipv6Enabled : Bool := true
  deriving DecidableEq, Repr

section Planner
variable (input : PlanInput)

def PlanInput.outbounds : List Outbound := input.cfg.outboundList

def PlanInput.reachable (tag : String) : OutboundFamilyReachability :=
  match input.familyReachability.lookup tag with
  | some family => family
  | none =>
    let reachable := (input.reachability.lookup tag).getD true
    ⟨reachable,reachable⟩

/- add_route_if_enabled. -/
def PlanInput.enabled (route : RouteSpec) : Bool := input.ipv6Enabled || route.family != afInet6

def usableDefaults (tableId metric : UInt32) (ob : Outbound) : List RouteSpec :=
  (((makeDefaultRoutes tableId ob).map fun route => { route with metric }).filter fun route =>
    (input.reachable ob.tag).forFamily route.family && input.enabled route)

def enabledClosures (tableId : UInt32) (ob : Outbound) : List RouteSpec :=
  (makeFamilyClosureRoutes tableId ob).filter input.enabled

def killSwitch (tableId : UInt32) : List RouteSpec := (makeUnreachableRoutes tableId).filter input.enabled

def interfaceRoutes (tableId : UInt32) (ob : Outbound) : List RouteSpec :=
  (if (input.reachable ob.tag).any input.ipv6Enabled then
    usableDefaults input tableId 0 ob ++ enabledClosures input tableId ob else []) ++
  if strictEnforcementEnabled input.cfg ob then killSwitch input tableId else []

def markRule (mask mark table priority : UInt32) (family : Int) : RuleSpec :=
  { fwmark := mark, fwmask := mask, table, priority, family }

def interfaceRules (mask mark tableId : UInt32) (routes : List RouteSpec) : List RuleSpec :=
  let hasIpv4 := routes.any fun route => route.family == afInet
  let hasIpv6 := routes.any fun route => route.family == afInet6
  if !hasIpv4 && !hasIpv6 then []
  else [markRule mask mark tableId tableId (if !hasIpv4 || !hasIpv6 then (if hasIpv4 then afInet else afInet6) else 0)]

def selectedInterface (ob : Outbound) : Option Outbound :=
  resolveSelectedInterface input.outbounds input.selections walkDepth ob

def primaryRoutes (tableId : UInt32) (selected : Option Outbound) : List RouteSpec :=
  match selected with
  | some selected =>
    if (input.reachable selected.tag).any input.ipv6Enabled then
      usableDefaults input tableId 0 selected ++ enabledClosures input tableId selected else []
  | none => []

def plannedPrimary (tableId : UInt32) (selected : Option Outbound) : Option String :=
  match selected with
  | some selected =>
    if (input.reachable selected.tag).any input.ipv6Enabled && !(usableDefaults input tableId 0 selected).isEmpty then
      some selected.tag else none
  | none => none

def fallbackRoutes (tableId : UInt32) (skip : Option String) : UInt32 → List Outbound → List RouteSpec
  | _, [] => []
  | metric, child :: rest =>
    if skip == some child.tag then fallbackRoutes tableId skip metric rest
    else if !(input.reachable child.tag).any input.ipv6Enabled then fallbackRoutes tableId skip metric rest
    else if (usableDefaults input tableId metric child).isEmpty then fallbackRoutes tableId skip metric rest
    else
      usableDefaults input tableId metric child ++ enabledClosures input tableId child ++
        fallbackRoutes tableId skip (metric + 1) rest

def urltestRoutes (tableId : UInt32) (ob : Outbound) : List RouteSpec :=
  (if (resolveUrltestSelection input.selections ob.tag).isEmpty then []
   else
    let selected := selectedInterface input ob
    primaryRoutes input tableId selected ++
      fallbackRoutes input tableId (plannedPrimary input tableId selected) 1 (urltestLeaves input.outbounds ob)) ++
  killSwitch input tableId

def ruleFamily : Int := if input.ipv6Enabled then 0 else afInet

structure PlannedOutbound where
  outbound : Outbound
  tableId : UInt32
  routes : List RouteSpec := []
  rules : List RuleSpec := []
  deriving DecidableEq, Repr

def planOutbound (mask : UInt32) (ob : Outbound) (tableId mark : UInt32) : PlannedOutbound :=
  match ob.type with
  | .interface =>
    let routes := interfaceRoutes input tableId ob
    { outbound := ob, tableId, routes, rules := interfaceRules mask mark tableId routes }
  | .table =>
    { outbound := ob, tableId, rules := [markRule mask mark (toUint32 (ob.table.getD 0)) tableId (ruleFamily input)] }
  | .urltest =>
    { outbound := ob, tableId, routes := urltestRoutes input tableId ob,
      rules := [markRule mask mark tableId tableId (ruleFamily input)] }
  | .blackhole => { outbound := ob, tableId }
  | .ignore => { outbound := ob, tableId }

/- The loop over the outbounds; only routable ones with a mark take a table offset. -/
def planEntries (mask : UInt32) : List Outbound → UInt32 → List PlannedOutbound
  | [], _ => []
  | ob :: rest, offset =>
    match if ob.routable then input.marks.lookup ob.tag else none with
    | none => planEntries mask rest offset
    | some mark =>
      planOutbound input mask ob (safeTableId input.cfg.tableStartValue offset) mark ::
        planEntries mask rest (offset + 1)

structure PlannedRoutingState where
  routes : List RouteSpec := []
  rules : List RuleSpec := []
  deriving DecidableEq, Repr

def joinEntries (entries : List PlannedOutbound) : PlannedRoutingState :=
  { routes := entries.flatMap (·.routes), rules := entries.flatMap (·.rules) }

def plannedEntries : Except String (List PlannedOutbound) := do
  let mask ← fwmarkMaskValue input.cfg.fwmark
  pure (planEntries input mask input.outbounds 0)

end Planner

end KeenPbr
