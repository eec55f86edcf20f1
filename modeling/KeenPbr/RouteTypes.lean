import Mathlib.Algebra.Order.Ring.Int
import Mathlib.Data.List.Basic

/-! Routes and policy rules as routing/netlink.hpp declares them, and the matchers of
route_table.cpp, policy_rule.cpp and runtime_routing_transaction.cpp. A spec is what the
program asks for; a dumped object is what the raw rtnetlink dump reports. An address family
is the C int: 0 stands for "both" or "detect", so it is not an enumeration here. -/
namespace KeenPbr

def afInet : Int := 2
def afInet6 : Int := 10

def keenPbrGeneratedRouteProtocol : UInt8 := 186

/- inet_pton and inet_ntop belong to libc and stay parameters. -/
structure Inet where
  pton : Int → String → Option (List UInt8)
  ntop : Int → List UInt8 → Option String

structure RouteSpec where
  destination : String
  table : UInt32 := 0
  interface : Option String := none
  gateway : Option String := none
  blackhole : Bool := false
  unreachable : Bool := false
  family : Int := 0
  metric : UInt32 := 0
  protocol : UInt8 := keenPbrGeneratedRouteProtocol
  deriving DecidableEq, Repr

structure DumpedRoute where
  destination : String
  table : UInt32 := 0
  interface : Option String := none
  gateway : Option String := none
  blackhole : Bool := false
  unreachable : Bool := false
  family : Int := 0
  metric : UInt32 := 0
  protocol : UInt8 := 0
  exactIdentityRepresentable : Bool := true
  deriving DecidableEq, Repr

structure RuleSpec where
  fwmark : UInt32 := 0
  fwmask : UInt32 := 0xFFFFFFFF
  table : UInt32 := 0
  priority : UInt32 := 0
  family : Int := 0
  deriving DecidableEq, Repr

structure DumpedRule where
  priority : UInt32 := 0
  fwmark : UInt32 := 0
  fwmask : UInt32 := 0
  table : UInt32 := 0
  family : Int := 0
  exactIdentityRepresentable : Bool := true
  deriving DecidableEq, Repr

/- route_table.cpp. -/

def routeMetricMatchesLive (expected : RouteSpec) (actual : DumpedRoute) : Bool :=
  expected.metric == actual.metric ||
    (expected.metric == 0 && actual.metric == 1024 &&
      (expected.family == afInet6 || actual.family == afInet6))

def routeMatchesLive (expected : RouteSpec) (actual : DumpedRoute) : Bool :=
  expected.destination == actual.destination && expected.table == actual.table &&
    expected.interface == actual.interface && expected.gateway == actual.gateway &&
    expected.blackhole == actual.blackhole && expected.unreachable == actual.unreachable &&
    (expected.family == 0 || expected.family == actual.family) &&
    routeMetricMatchesLive expected actual && expected.protocol == actual.protocol

def routeOccupiesSameSlot (expected : RouteSpec) (actual : DumpedRoute) : Bool :=
  expected.destination == actual.destination && expected.table == actual.table &&
    (expected.family == 0 || expected.family == actual.family) && routeMetricMatchesLive expected actual

def routeSpecFromLive (route : DumpedRoute) : RouteSpec :=
  { destination := route.destination, table := route.table, interface := route.interface,
    gateway := route.gateway, blackhole := route.blackhole, unreachable := route.unreachable,
    family := route.family, metric := route.metric, protocol := route.protocol }

def isGeneratedRouteCandidate (route : DumpedRoute) : Bool :=
  route.protocol == keenPbrGeneratedRouteProtocol && route.table != 0 && route.table != 128 &&
    (route.table < 250 || route.table > 260) && route.table < 32000

/- policy_rule.cpp. -/

def ruleMatchesLive (expected : RuleSpec) (actual : DumpedRule) : Bool :=
  expected.fwmark == actual.fwmark && expected.fwmask == actual.fwmask &&
    expected.table == actual.table && expected.priority == actual.priority &&
    expected.family == actual.family

def findOrphanedGeneratedRules (desired : List RuleSpec) (live : List DumpedRule)
    (corroboratedRouteTables : List UInt32) : List RuleSpec :=
  live.filterMap fun candidate =>
    if !candidate.exactIdentityRepresentable ||
        (candidate.family != afInet && candidate.family != afInet6) ||
        candidate.priority != candidate.table ||
        !corroboratedRouteTables.contains candidate.table then none
    else
      let collidesWithCurrentMark := desired.any fun expected =>
        expected.fwmark == candidate.fwmark && expected.fwmask == candidate.fwmask
      let exactDesired := desired.any fun expected =>
        (expected.family == 0 || expected.family == candidate.family) &&
          ruleMatchesLive { expected with family := candidate.family } candidate
      if !collidesWithCurrentMark || exactDesired then none
      else some { fwmark := candidate.fwmark, fwmask := candidate.fwmask, table := candidate.table,
                  priority := candidate.priority, family := candidate.family }

/- runtime_routing_transaction.cpp. -/

def exactRouteKernelMetric (metric : UInt32) (family : Int) : UInt32 :=
  if family == afInet6 && metric == 0 then 1024 else metric

def exactRouteSameSlot (expected : RouteSpec) (actual : DumpedRoute) : Bool :=
  expected.destination == actual.destination && expected.table == actual.table &&
    expected.family == actual.family &&
    exactRouteKernelMetric expected.metric expected.family ==
      exactRouteKernelMetric actual.metric actual.family

def exactRouteMatchesLive (expected : RouteSpec) (actual : DumpedRoute) : Bool :=
  actual.exactIdentityRepresentable && exactRouteSameSlot expected actual &&
    expected.interface == actual.interface && expected.gateway == actual.gateway &&
    expected.blackhole == actual.blackhole && expected.unreachable == actual.unreachable &&
    expected.protocol == actual.protocol

def routePresent (expected : RouteSpec) (live : List DumpedRoute) : Bool :=
  live.any (exactRouteMatchesLive expected)

def routeSpecsEqual (left right : RouteSpec) : Bool :=
  left.destination == right.destination && left.table == right.table &&
    left.interface == right.interface && left.gateway == right.gateway &&
    left.blackhole == right.blackhole && left.unreachable == right.unreachable &&
    left.family == right.family && left.metric == right.metric && left.protocol == right.protocol

def dumpedRouteFromSpec (spec : RouteSpec) : DumpedRoute :=
  { destination := spec.destination, table := spec.table, interface := spec.interface,
    gateway := spec.gateway, blackhole := spec.blackhole, unreachable := spec.unreachable,
    family := spec.family, metric := spec.metric, protocol := spec.protocol }

def slotMatchesPreimages (candidate : RouteSpec) (preimages : List RouteSpec)
    (live : List DumpedRoute) : Bool :=
  let occupants := live.filter (exactRouteSameSlot candidate)
  if occupants.any (fun route => !route.exactIdentityRepresentable) then false
  else
    let current := occupants.map routeSpecFromLive
    current.length == preimages.length &&
      preimages.all fun previous => current.any (routeSpecsEqual previous)

inductive ExactSlotState where
  | empty
  | exactSingle
  | mismatch
  deriving DecidableEq, Repr

def exactSlotState (expected : RouteSpec) (live : List DumpedRoute) : ExactSlotState :=
  let occupants := live.filter (exactRouteSameSlot expected)
  let exact := occupants.any (exactRouteMatchesLive expected)
  if occupants.length == 0 then .empty
  else if occupants.length == 1 && exact then .exactSingle
  else .mismatch

def rulePresent (expected : RuleSpec) (live : List DumpedRule) : Bool :=
  live.any fun candidate => candidate.exactIdentityRepresentable && ruleMatchesLive expected candidate

def ruleOccupiesSameIdentity (expected : RuleSpec) (actual : DumpedRule) : Bool :=
  expected.fwmark == actual.fwmark && expected.fwmask == actual.fwmask &&
    expected.table == actual.table && expected.priority == actual.priority &&
    expected.family == actual.family

def exactRuleState (expected : RuleSpec) (live : List DumpedRule) : ExactSlotState :=
  let occupants := live.filter (ruleOccupiesSameIdentity expected)
  let exact := occupants.any fun rule =>
    rule.exactIdentityRepresentable && ruleMatchesLive expected rule
  if occupants.length == 0 then .empty
  else if occupants.length == 1 && exact then .exactSingle
  else .mismatch

def sameRuleTuple (left right : RuleSpec) : Bool :=
  left.fwmark == right.fwmark && left.fwmask == right.fwmask && left.table == right.table &&
    left.priority == right.priority && left.family == right.family

def concreteRules (logicalRules : List RuleSpec) : List RuleSpec :=
  let push (concrete : List RuleSpec) (value : RuleSpec) :=
    if concrete.any (fun candidate => sameRuleTuple candidate value) then concrete
    else concrete ++ [value]
  logicalRules.foldl (fun concrete logical =>
    if logical.family == 0 then
      push (push concrete { logical with family := afInet }) { logical with family := afInet6 }
    else push concrete logical) []

end KeenPbr
