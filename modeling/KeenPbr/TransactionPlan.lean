import KeenPbr.TransactionTypes
import KeenPbr.RouteSlots

/-! runtime_routing_transaction.cpp up to build_plan: the dependency helpers and the plan with
its pre-allocated journal. inet_pton and inet_ntop are the parameter of RouteTypes. -/
namespace KeenPbr

structure PlannedRouteMutation where
  candidate : RouteSpec
  preimages : List RouteSpec := []
  forwardJournal : Nat := 0
  rollbackJournals : List Nat := []
  replace : Bool := false
  createdReceipt : Bool := false
  replacementReceipt : Bool := false
  deriving DecidableEq, Repr

structure PlannedRuleMutation where
  candidate : RuleSpec
  forwardJournal : Nat := 0
  rollbackJournal : Nat := 0
  createdReceipt : Bool := false
  deriving DecidableEq, Repr

structure PlannedCleanupRule where
  stale : RuleSpec
  journal : Nat := 0
  deriving DecidableEq, Repr

structure PlannedCleanupRoute where
  stale : RouteSpec
  journal : Nat := 0
  deriving DecidableEq, Repr

structure Plan where
  routes : List PlannedRouteMutation := []
  rules : List PlannedRuleMutation := []
  staleRules : List PlannedCleanupRule := []
  staleRoutes : List PlannedCleanupRoute := []
  candidateVerifyJournal : Nat := 0
  staleAbsenceJournal : Nat := 0
  committedVerifyJournal : Nat := 0
  corroboratedTables : List UInt32 := []
  publishedJournal : RuntimeRoutingPublishedJournal := {}
  deriving DecidableEq, Repr

def routeEntry (operation : RuntimeRoutingJournalOperation) (route : RouteSpec) : RuntimeRoutingJournalEntry :=
  { operation, route := some route }

def ruleEntry (operation : RuntimeRoutingJournalOperation) (rule : RuleSpec) : RuntimeRoutingJournalEntry :=
  { operation, rule := some rule }

def markerEntry (operation : RuntimeRoutingJournalOperation) : RuntimeRoutingJournalEntry := { operation }

def Plan.journalSize (plan : Plan) : Nat := plan.publishedJournal.entries.length

def Plan.push (plan : Plan) (entries : List RuntimeRoutingJournalEntry) : Plan :=
  { plan with publishedJournal :=
      { plan.publishedJournal with entries := plan.publishedJournal.entries ++ entries } }

def canonicalAddressForFamily (inet : Inet) (address : String) (family : Int) : Bool :=
  match inet.pton family address with
  | none => false
  | some binary =>
    match inet.ntop family binary with
    | none => false
    | some canonical => address == canonical

def desiredManagedAnchor (rule : RuleSpec) (desiredRoutes : List RouteSpec) : Bool :=
  desiredRoutes.any fun route => route.table == rule.table && route.family == rule.family

def externalTableAuthorized (rule : RuleSpec)
    (authorities : List RuntimeRoutingExternalTableAuthority) : Bool :=
  authorities.any fun authority => authority.table == rule.table && authority.family == rule.family

def ruleDependencyPresent (request : RuntimeRoutingTransactionRequest) (rule : RuleSpec)
    (liveRoutes : List DumpedRoute) : Bool :=
  if desiredManagedAnchor rule request.desiredRoutes then
    request.desiredRoutes.any fun route =>
      route.table == rule.table && route.family == rule.family &&
        exactSlotState route liveRoutes == .exactSingle
  else externalTableAuthorized rule request.authorizedExternalTables

def allRuleDependenciesPresent (request : RuntimeRoutingTransactionRequest)
    (liveRoutes : List DumpedRoute) : Bool :=
  (concreteRules request.desiredRules).all fun rule => ruleDependencyPresent request rule liveRoutes

def tableHasUnaccountedRuleDependency (obsolete : RouteSpec) (request : RuntimeRoutingTransactionRequest)
    (liveRules : List DumpedRule) (liveRoutes : List DumpedRoute) : Bool :=
  liveRules.any fun live =>
    if live.table != obsolete.table || live.family != obsolete.family then false
    else
      !live.exactIdentityRepresentable || !request.desiredRules.any fun logical =>
        if logical.family != 0 && logical.family != live.family then false
        else
          let concrete := { logical with family := live.family }
          ruleMatchesLive concrete live && exactRuleState concrete liveRules == .exactSingle &&
            desiredManagedAnchor concrete request.desiredRoutes &&
            ruleDependencyPresent request concrete liveRoutes

def allDesiredExact (request : RuntimeRoutingTransactionRequest) (routes : List DumpedRoute)
    (rules : List DumpedRule) : Bool :=
  (request.desiredRoutes.all fun route => exactSlotState route routes == .exactSingle) &&
    allRuleDependenciesPresent request routes &&
    (concreteRules request.desiredRules).all fun rule => exactRuleState rule rules == .exactSingle

def expectedInventoryExact (expectedRoutes : List RouteSpec) (expectedRules : List RuleSpec)
    (liveRoutes : List DumpedRoute) (liveRules : List DumpedRule) : Bool :=
  (expectedRoutes.all fun route => exactSlotState route liveRoutes == .exactSingle) &&
    !(liveRoutes.any fun live => isGeneratedRouteCandidate live &&
      !expectedRoutes.any fun expected => exactRouteMatchesLive expected live) &&
    (concreteRules expectedRules).all fun rule => exactRuleState rule liveRules == .exactSingle

/- build_plan, in the order of its checks. -/

def checkAuthority (authority : RuntimeRoutingExternalTableAuthority) : Except String Unit :=
  if authority.table == 0 || (authority.family != afInet && authority.family != afInet6) then
    .error "external table authority is invalid"
  else .ok ()

def checkLogicalRule (unsupported wildcard : String) (logical : RuleSpec) : Except String Unit :=
  if logical.family != 0 && logical.family != afInet && logical.family != afInet6 then .error unsupported
  else if logical.priority == 0 || logical.table == 0 || logical.fwmark == 0 || logical.fwmask == 0 then
    .error wildcard
  else .ok ()

def checkDesiredRule : RuleSpec → Except String Unit :=
  checkLogicalRule "candidate rule has an unsupported address family"
    "candidate rule contains a wildcard identity field"

def checkPriorRule : RuleSpec → Except String Unit :=
  checkLogicalRule "prior owned rule has an unsupported address family"
    "prior owned rule contains a wildcard identity field"

def checkAnchor (request : RuntimeRoutingTransactionRequest) (rule : RuleSpec) : Except String Unit :=
  if !desiredManagedAnchor rule request.desiredRoutes &&
      !externalTableAuthorized rule request.authorizedExternalTables then
    .error "candidate rule has no owned route anchor or external table authority"
  else .ok ()

def checkCandidateRoute (inet : Inet) (candidate : RouteSpec) : Except String Unit :=
  if candidate.family != afInet && candidate.family != afInet6 then
    .error "candidate route must have an explicit address family"
  else if candidate.destination != "default" then
    .error "candidate route destination is not canonical default"
  else if candidate.blackhole && candidate.unreachable then
    .error "candidate route has conflicting terminal route types"
  else if (candidate.blackhole || candidate.unreachable) &&
      (candidate.interface.isSome || candidate.gateway.isSome) then
    .error "terminal candidate route cannot contain a nexthop"
  else if candidate.interface == some "" then
    .error "candidate route contains an empty interface identity"
  else if candidate.gateway.any fun gateway => !canonicalAddressForFamily inet gateway candidate.family then
    .error "candidate route gateway is not canonical for its family"
  else if !candidate.blackhole && !candidate.unreachable && candidate.interface.isNone &&
      candidate.gateway.isNone then
    .error "unicast candidate route has no nexthop identity"
  else if !isGeneratedRouteCandidate (dumpedRouteFromSpec candidate) then
    .error "candidate route is outside the keen-pbr ownership namespace"
  else .ok ()

def earlierDuplicate (candidate : RouteSpec) : List RouteSpec → Except String Bool
  | [] => .ok false
  | earlier :: rest =>
    if routeSpecsEqual candidate earlier then .ok true
    else if exactRouteSameSlot candidate (dumpedRouteFromSpec earlier) then
      .error "two candidate routes occupy the same kernel slot"
    else earlierDuplicate candidate rest

def routeCollisions (candidate : RouteSpec) (liveRoutes : List DumpedRoute) : Except String (List RouteSpec) :=
  let slot := liveRoutes.filter (exactRouteSameSlot candidate)
  if slot.any fun live => !live.exactIdentityRepresentable || !isGeneratedRouteCandidate live then
    .error "foreign route occupies a candidate kernel slot"
  else if slot.length > 1 then .error "multiple managed routes occupy a candidate kernel slot"
  else .ok (slot.map routeSpecFromLive)

def planMutation (candidate : RouteSpec) (preimages : List RouteSpec) (plan : Plan) : Plan :=
  let replace := !preimages.isEmpty
  let forward := plan.journalSize
  let rollback := if replace then preimages.map (routeEntry .restoreReplacedRoute)
    else [routeEntry .rollbackCreatedRoute candidate]
  let operation := if replace then .replaceCandidateRoute else .addCandidateRoute
  let mutation : PlannedRouteMutation :=
    { candidate, preimages, replace, forwardJournal := forward,
      rollbackJournals := (List.range rollback.length).map (forward + 1 + ·) }
  { plan.push (routeEntry operation candidate :: rollback) with routes := plan.routes ++ [mutation] }

def planRoutes (inet : Inet) (liveRoutes : List DumpedRoute) :
    List RouteSpec → List RouteSpec → Plan → Except String Plan
  | _, [], plan => .ok plan
  | earlier, candidate :: rest, plan => do
    checkCandidateRoute inet candidate
    let duplicate ← earlierDuplicate candidate earlier
    let next ←
      if duplicate then pure plan
      else if exactSlotState candidate liveRoutes == .exactSingle then pure plan
      else if exactSlotState candidate liveRoutes == .mismatch && routePresent candidate liveRoutes then
        .error "candidate route is not the only image in its kernel slot"
      else do
        let collisions ← routeCollisions candidate liveRoutes
        pure (planMutation candidate collisions plan)
    planRoutes inet liveRoutes (earlier ++ [candidate]) rest next

def recoveredAnchor (request : RuntimeRoutingTransactionRequest) (liveRoutes : List DumpedRoute)
    (candidate : RuleSpec) : Bool :=
  candidate.priority == candidate.table && request.desiredRoutes.any fun route =>
    route.table == candidate.table && route.family == candidate.family &&
      route.protocol == keenPbrGeneratedRouteProtocol && exactSlotState route liveRoutes == .exactSingle

def planRules (request : RuntimeRoutingTransactionRequest) (liveRoutes : List DumpedRoute)
    (liveRules : List DumpedRule) : List RuleSpec → Plan → Except String Plan
  | [], plan => .ok plan
  | candidate :: rest, plan =>
    match exactRuleState candidate liveRules with
    | .exactSingle =>
      let observed : RuntimeRoutingJournalEntry :=
        { ruleEntry .addCandidateRule candidate with state := .verified, receipt := .alreadyPresent }
      planRules request liveRoutes liveRules rest
        (if recoveredAnchor request liveRoutes candidate then plan.push [observed] else plan)
    | .mismatch => .error "foreign or unrepresentable rule occupies a candidate identity"
    | .empty =>
      let mutation : PlannedRuleMutation :=
        { candidate, forwardJournal := plan.journalSize, rollbackJournal := plan.journalSize + 1 }
      planRules request liveRoutes liveRules rest
        { plan.push [ruleEntry .addCandidateRule candidate,ruleEntry .rollbackCreatedRule candidate] with
          rules := plan.rules ++ [mutation] }

def staleRuleSpecs (request : RuntimeRoutingTransactionRequest) (liveRules : List DumpedRule)
    (corroboratedTables : List UInt32) : List RuleSpec :=
  let orphans := if request.allowRecoveryRuleHeuristic then
      findOrphanedGeneratedRules request.desiredRules liveRules corroboratedTables
    else []
  (concreteRules request.priorOwnedRules).foldl (fun stale prior =>
    if !rulePresent prior liveRules then stale
    else if (concreteRules request.desiredRules).any (fun desired => sameRuleTuple desired prior) then stale
    else if stale.any (fun planned => sameRuleTuple planned prior) then stale
    else stale ++ [prior]) orphans

def planStaleRule (plan : Plan) (stale : RuleSpec) : Plan :=
  { plan.push [ruleEntry .deleteStaleRule stale] with
    staleRules := plan.staleRules ++ [{ stale, journal := plan.journalSize }] }

def obsoleteRoutes (request : RuntimeRoutingTransactionRequest) (liveRoutes : List DumpedRoute) : List RouteSpec :=
  (liveRoutes.filter fun live =>
    isGeneratedRouteCandidate live &&
      !(request.desiredRoutes.any fun candidate => exactRouteMatchesLive candidate live) &&
      !(request.desiredRoutes.any fun candidate => exactRouteSameSlot candidate live)).map routeSpecFromLive

def planStaleRoute (plan : Plan) (stale : RouteSpec) : Plan :=
  { plan.push [routeEntry .deleteObsoleteRoute stale] with
    staleRoutes := plan.staleRoutes ++ [{ stale, journal := plan.journalSize }] }

def planCleanup (request : RuntimeRoutingTransactionRequest) (liveRoutes : List DumpedRoute)
    (liveRules : List DumpedRule) (plan : Plan) : Plan :=
  let verify := { plan.push [markerEntry .verifyCandidate] with candidateVerifyJournal := plan.journalSize }
  let corroborated := { verify with
    corroboratedTables := (liveRoutes.filter fun route =>
      route.exactIdentityRepresentable && isGeneratedRouteCandidate route).map (·.table) }
  let rules := (staleRuleSpecs request liveRules corroborated.corroboratedTables).foldl planStaleRule corroborated
  let absence := { rules.push [markerEntry .verifyStaleRuleAbsence] with staleAbsenceJournal := rules.journalSize }
  let routes := (obsoleteRoutes request liveRoutes).foldl planStaleRoute absence
  { routes.push [markerEntry .verifyCommittedState] with committedVerifyJournal := routes.journalSize }

def buildPlan (inet : Inet) (request : RuntimeRoutingTransactionRequest) (liveRoutes : List DumpedRoute)
    (liveRules : List DumpedRule) : Except String Plan := do
  request.authorizedExternalTables.forM checkAuthority
  request.desiredRules.forM checkDesiredRule
  request.priorOwnedRules.forM checkPriorRule
  (concreteRules request.desiredRules).forM (checkAnchor request)
  let routes ← planRoutes inet liveRoutes [] request.desiredRoutes
    { publishedJournal := { identity := request.identity } }
  let rules ← planRules request liveRoutes liveRules (concreteRules request.desiredRules) routes
  pure (planCleanup request liveRoutes liveRules rules)

end KeenPbr
