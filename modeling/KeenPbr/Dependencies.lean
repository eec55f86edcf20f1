import KeenPbr.Chaining
import KeenPbr.ListDelete

/-! config/dependency_analysis.cpp and config/outbound_delete.cpp: what deleting lists, outbounds or DNS
servers would touch, and the document without a set of outbounds. -/
namespace KeenPbr.Documents

inductive DependencyEntityKind where
  | list
  | outbound
  | dnsServer
  deriving DecidableEq, Repr

inductive DependencyRelation where
  | usesList
  | routesTo
  | detoursVia
  | containsMember
  | usesDnsServer
  | fallbackTo
  deriving DecidableEq, Repr

inductive DependencyConsequence where
  | modify
  | delete
  | disconnect
  deriving DecidableEq, Repr

inductive DependencyDependentKind where
  | routingRule
  | dnsRule
  | dnsServer
  | outboundGroup
  | list
  | listRefresh
  | dnsFallback
  deriving DecidableEq, Repr

structure DependencyTarget where
  kind : DependencyEntityKind
  id : String
  cascaded : Bool := false
  deriving DecidableEq, Repr

structure DependencyReference where
  target : DependencyTarget
  dependentKind : DependencyDependentKind
  dependentId : String
  relation : DependencyRelation
  consequence : DependencyConsequence
  path : String
  href : String
  deriving DecidableEq, Repr

structure DependencyAnalysis where
  targets : List DependencyTarget := []
  references : List DependencyReference := []
  safeToDelete : Bool := true
  deriving DecidableEq, Repr

section Targets
variable {ω : Type}

def targetExists (doc : Document ω) (target : DependencyTarget) : Bool :=
  match target.kind with
  | .list => doc.listNames.contains target.id
  | .outbound => doc.outboundList.any fun outbound => outbound.tag == target.id
  | .dnsServer => ((doc.dns.bind (·.servers)).getD []).any fun server => server.tag == target.id

def DependencyTarget.same (target other : DependencyTarget) : Bool := target.kind == other.kind && target.id == other.id

def requestTargets (doc : Document ω) : List DependencyTarget → List DependencyTarget → Except String (List DependencyTarget)
  | [], targets => .ok targets
  | requested :: others, targets =>
    if requested.id.isEmpty then .error "Dependency target id must not be empty"
    else if !targetExists doc requested then .error ("Dependency target does not exist: " ++ requested.id)
    else if targets.any requested.same then requestTargets doc others targets
    else requestTargets doc others (targets ++ [⟨requested.kind,requested.id,false⟩])

def removedIds (kind : DependencyEntityKind) (targets : List DependencyTarget) : List String :=
  (targets.filter fun target => target.kind == kind).map (·.id)

def remainingMembers (group : OutboundGroup) (removed : List String) : List String :=
  group.outbounds.filter fun tag => !removed.contains tag

def hasRemainingGroup (outbound : Outbound) (removed : List String) : Bool :=
  (outbound.outboundGroups.getD []).any fun group => !(remainingMembers group removed).isEmpty

def emptied (removed : List String) (outbound : Outbound) : Bool := outbound.type == .urltest && !hasRemainingGroup outbound removed

/- The while loop; it ends with a pass that removes nothing. -/
def removedOutbounds (outbounds : List Outbound) (requested : List String) : List String :=
  Chaining.saturate (·.tag) emptied outbounds (outbounds.length + 1) requested

def cascadedTargets (outbounds : List Outbound) (requested : List String) : List DependencyTarget :=
  ((removedOutbounds outbounds requested).drop requested.length).map fun tag => ⟨.outbound,tag,true⟩

end Targets

section References
variable {ω : Type}

def DependencyReference.sameKey (reference other : DependencyReference) : Bool :=
  reference.target.same other.target && reference.dependentKind == other.dependentKind &&
    reference.dependentId == other.dependentId && reference.relation == other.relation

def addReference (references : List DependencyReference) (reference : DependencyReference) : List DependencyReference :=
  if references.any reference.sameKey then references else references ++ [reference]

def addReferences (references : List DependencyReference) (added : List DependencyReference) : List DependencyReference :=
  added.foldl addReference references

def deleteListUser (kind : DependencyDependentKind) (id : String) (references : List DependencyReference) : List DependencyReference :=
  references.map fun reference =>
    if reference.dependentKind = kind ∧ reference.dependentId = id ∧ reference.relation = .usesList
      then { reference with consequence := .delete }
    else reference

structure Removed where
  lists : List String
  outbounds : List String
  dnsServers : List String

def ruleReference (kind : DependencyEntityKind) (target : String) (dependentKind : DependencyDependentKind)
    (section_ page : String) (index : Nat)
    (relation : DependencyRelation) (consequence : DependencyConsequence) (field : String) : DependencyReference :=
  ⟨⟨kind,target,false⟩,dependentKind,toString index,relation,consequence,section_ ++ "[" ++ toString index ++ "]." ++ field,
    page ++ toString index ++ "/edit"⟩

def routeReference (kind : DependencyEntityKind) (target : String) (index : Nat) :
    DependencyRelation → DependencyConsequence → String → DependencyReference :=
  ruleReference kind target .routingRule "route.rules" "/routing-rules/" index

def dnsReference (kind : DependencyEntityKind) (target : String) (index : Nat) :
    DependencyRelation → DependencyConsequence → String → DependencyReference :=
  ruleReference kind target .dnsRule "dns.rules" "/dns-rules/" index

def routeRuleReferences (removed : Removed) (references : List DependencyReference) (entry : RouteRule × Nat) : List DependencyReference :=
  let (rule,index) := entry
  let gone := (routeRuleLists rule).filter fun name => removed.lists.contains name
  let listed := addReferences references (gone.map fun name => routeReference .list name index .usesList .modify "list")
  let listed :=
    if 0 < gone.length && gone.length == (routeRuleLists rule).length && !routeRuleHasNonListMatchCondition rule then
      deleteListUser .routingRule (toString index) listed
    else listed
  let routed :=
    if removed.outbounds.contains rule.outbound then
      addReference listed (routeReference .outbound rule.outbound index .routesTo .delete "outbound")
    else listed
  match rule.fallbackOutbound with
  | some fallback =>
    if rule.failurePolicy == some .fallback && removed.outbounds.contains fallback then
      addReference routed (routeReference .outbound fallback index .fallbackTo .modify "fallback_outbound")
    else routed
  | none => routed

def dnsRuleReferences (removed : Removed) (references : List DependencyReference) (entry : DnsRule × Nat) : List DependencyReference :=
  let (rule,index) := entry
  let gone := rule.list.filter fun name => removed.lists.contains name
  let listed := addReferences references (gone.map fun name => dnsReference .list name index .usesList .modify "list")
  let listed := if 0 < gone.length && gone.length == rule.list.length then deleteListUser .dnsRule (toString index) listed else listed
  if removed.dnsServers.contains rule.server then
    addReference listed (dnsReference .dnsServer rule.server index .usesDnsServer .delete "server")
  else listed

def dnsServerReference (server : DnsServer) (detour : String) : DependencyReference :=
  ⟨⟨.outbound,detour,false⟩,.dnsServer,server.tag,.detoursVia,.disconnect,"dns.servers[" ++ server.tag ++ "].detour",
    "/dns-servers/" ++ server.tag ++ "/edit"⟩

def dnsServerReferences (removed : Removed) (servers : List DnsServer) : List DependencyReference :=
  servers.flatMap fun server => (server.detour.toList.filter removed.outbounds.contains).map (dnsServerReference server)

def dnsFallbackReferences (removed : Removed) (fallback : List String) : List DependencyReference :=
  (fallback.filter removed.dnsServers.contains).map fun tag =>
    ⟨⟨.dnsServer,tag,false⟩,.dnsFallback,tag,.fallbackTo,.modify,"dns.fallback","/dns-servers"⟩

def downloadReferences (removed : Removed) (kind : DependencyDependentKind) (id path href : String) (detour : Option String)
    (fallbacks : List String) :
    List DependencyReference :=
  ((detour.toList.filter removed.outbounds.contains).map fun tag =>
    ⟨⟨.outbound,tag,false⟩,kind,id,.detoursVia,.disconnect,path ++ ".detour",href⟩) ++
  ((fallbacks.zipIdx.filter fun entry => removed.outbounds.contains entry.1).map fun entry =>
    ⟨⟨.outbound,entry.1,false⟩,kind,id,.detoursVia,.modify,path ++ ".fallback_detours[" ++ toString entry.2 ++ "]",href⟩)

def listRefreshReferences (removed : Removed) (refresh : ListRefreshConfig) : List DependencyReference :=
  downloadReferences removed .listRefresh "global" "list_refresh" "/general?tab=general" refresh.detour (refresh.fallbackDetours.getD [])

def listReferences (removed : Removed) (entry : String × ListConfig) : List DependencyReference :=
  downloadReferences removed .list entry.1 ("lists." ++ entry.1) ("/lists/" ++ entry.1 ++ "/edit") entry.2.detour entry.2.fallbacks

def memberReference (target : DependencyTarget) (outbound : Outbound) (id : String) (index : Nat)
    (consequence : DependencyConsequence) : DependencyReference :=
  ⟨target,.outboundGroup,id,.containsMember,consequence,"outbounds[" ++ outbound.tag ++ "].outbound_groups[" ++ toString index ++ "]",
    "/outbounds/" ++ outbound.tag ++ "/edit"⟩

def cascadedReferences (targets : List DependencyTarget) (outbound : Outbound) : List DependencyReference :=
  if targets.any fun target => target.kind == .outbound && target.id == outbound.tag && target.cascaded then
    (outbound.outboundGroups.getD []).zipIdx.flatMap fun (group,index) =>
      group.outbounds.filterMap fun member =>
        (targets.find? fun target => target.kind == .outbound && target.id == member && !target.cascaded).map fun target =>
          memberReference target outbound outbound.tag index .delete
  else []

def modifiedReferences (removed : Removed) (outbound : Outbound) : List DependencyReference :=
  if outbound.type != .urltest || removed.outbounds.contains outbound.tag then []
  else
    (outbound.outboundGroups.getD []).zipIdx.flatMap fun (group,index) =>
      (group.outbounds.filter removed.outbounds.contains).map fun member =>
        memberReference ⟨.outbound,member,false⟩ outbound (outbound.tag ++ ":" ++ toString index) index .modify

def laterReferences (doc : Document ω) (targets : List DependencyTarget) (removed : Removed) : List DependencyReference :=
  dnsServerReferences removed ((doc.dns.bind (·.servers)).getD []) ++
  dnsFallbackReferences removed ((doc.dns.bind (·.fallback)).getD []) ++
  doc.listRefresh.toList.flatMap (listRefreshReferences removed) ++
  doc.listEntries.flatMap (listReferences removed) ++
  doc.outboundList.flatMap (cascadedReferences targets) ++
  doc.outboundList.flatMap (modifiedReferences removed)

def ruleReferences (doc : Document ω) (removed : Removed) : List DependencyReference :=
  ((doc.dns.bind (·.rules)).getD []).zipIdx.foldl (dnsRuleReferences removed) (doc.rules.zipIdx.foldl (routeRuleReferences removed) [])

def withCascade (targets : List DependencyTarget) (reference : DependencyReference) : DependencyReference :=
  match targets.find? reference.target.same with
  | some target => { reference with target := { reference.target with cascaded := target.cascaded } }
  | none => reference

def analysisOf (doc : Document ω) (requested : List DependencyTarget) : DependencyAnalysis :=
  let outbounds := removedIds .outbound requested
  let targets := requested ++ cascadedTargets doc.outboundList outbounds
  let removed := ⟨removedIds .list requested,removedOutbounds doc.outboundList outbounds,removedIds .dnsServer requested⟩
  let references := addReferences (ruleReferences doc removed) (laterReferences doc targets removed)
  ⟨targets,references.map (withCascade targets),references.isEmpty && targets.all fun target => !target.cascaded⟩

def analyzeDependencies (doc : Document ω) (requestedTargets : List DependencyTarget) : Except String DependencyAnalysis :=
  if requestedTargets.isEmpty then .error "At least one dependency target is required"
  else (requestTargets doc requestedTargets []).map (analysisOf doc)

end References

section Removal
variable {ω : Type}

def removeFallbackDetours (fallbacks : Option (List String)) (deleted : List String) : Option (List String) :=
  match fallbacks with
  | none => none
  | some tags =>
    let left := tags.filter fun tag => !deleted.contains tag
    if tags.length != left.length && left.isEmpty then none else some left

def withoutMembers (deleted : List String) (outbound : Outbound) : Outbound :=
  if outbound.type != .urltest then outbound
  else
    { outbound with
      outboundGroups := outbound.outboundGroups.map fun groups =>
        (groups.map fun group => { group with outbounds := group.outbounds.filter fun tag => !deleted.contains tag }).filter fun group =>
          !group.outbounds.isEmpty }

def withoutFallback (deleted : List String) (rule : RouteRule) : RouteRule :=
  if rule.failurePolicy == some .fallback && rule.fallbackOutbound.any deleted.contains then
    { rule with failurePolicy := some .block, fallbackOutbound := none }
  else rule

def withoutDetour (deleted : List String) (server : DnsServer) : DnsServer :=
  if server.detour.any deleted.contains then { server with detour := none } else server

def withoutListDetours (deleted : List String) (list : ListConfig) : ListConfig :=
  if list.detour.any deleted.contains then { list with detour := none, fallbackDetours := none, refreshDetourMode := none }
  else { list with fallbackDetours := removeFallbackDetours list.fallbackDetours deleted }

def withoutRefreshDetours (deleted : List String) (refresh : ListRefreshConfig) : ListRefreshConfig :=
  if refresh.detour.any deleted.contains then { refresh with detour := none, fallbackDetours := none }
  else { refresh with fallbackDetours := removeFallbackDetours refresh.fallbackDetours deleted }

def withoutOutbounds (doc : Document ω) (deleted : List String) : Document ω :=
  { doc with
    outbounds := doc.outbounds.map fun outbounds => (outbounds.filter fun outbound => !deleted.contains outbound.tag).map
      (withoutMembers deleted)
    routeRules := doc.routeRules.map fun rules => (rules.filter fun rule => !deleted.contains rule.outbound).map (withoutFallback deleted)
    dns := doc.dns.map fun dns => { dns with servers := dns.servers.map (·.map (withoutDetour deleted)) }
    lists := doc.lists.map (·.map fun entry => (entry.1,withoutListDetours deleted entry.2))
    listRefresh := doc.listRefresh.map (withoutRefreshDetours deleted) }

def deletableTargets (doc : Document ω) (requestedTags : List String) : List DependencyTarget :=
  (doc.outboundList.filter fun outbound => (outbound.type == .interface || outbound.type == .urltest) &&
    requestedTags.contains outbound.tag).map
    fun outbound => ⟨.outbound,outbound.tag,false⟩

def removeOutboundDependencies (doc : Document ω) (requestedTags : List String) : Except String (Document ω) :=
  let requested := deletableTargets doc requestedTags
  if requested.isEmpty then .ok doc
  else
    match analyzeDependencies doc requested with
    | .error message => .error message
    | .ok analysis => .ok (withoutOutbounds doc (removedIds .outbound analysis.targets))

end Removal

end KeenPbr.Documents
