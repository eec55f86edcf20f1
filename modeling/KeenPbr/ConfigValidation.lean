import KeenPbr.Fwmark
import KeenPbr.TableIds
import KeenPbr.RouteTypes

/-! validate_config on the sections of Config: list names, outbounds, urltest references, route
rules, fwmark and table_start, in the source's order. The sections this Config does not carry
(daemon limits, DNS, list sources, downloads, VPN servers, preferences) add issues of their own
and take none away. -/
namespace KeenPbr

abbrev Issues := List ConfigValidationIssue

def oneIssue (path message code : String) (params : List (String × String) := []) : Issues :=
  [{ path, message, code, params }]

/- display_name::validate(value, false) on decoded text. -/

def isUnicodeWhitespace (c : Char) : Bool :=
  let v := c.toNat
  (0x09 ≤ v && v ≤ 0x0D) || v == 0x20 || v == 0x85 || v == 0xA0 || v == 0x1680 || (0x2000 ≤ v && v ≤ 0x200A) ||
    v == 0x2028 || v == 0x2029 || v == 0x202F || v == 0x205F || v == 0x3000

def isC1OrBidirectionalControl (c : Char) : Bool :=
  let v := c.toNat
  (0x80 ≤ v && v ≤ 0x9F) || v == 0x061C || v == 0x200E || v == 0x200F || (0x202A ≤ v && v ≤ 0x202E) ||
    (0x2066 ≤ v && v ≤ 0x2069)

def validateDisplayName (path kind : String) (displayName : Option String) : Issues :=
  match displayName with
  | none => []
  | some value =>
    let points := value.toList
    if points.any fun c => c.toNat < 0x20 || c.toNat == 0x7F then
      oneIssue path (kind ++ " must not contain ASCII control characters") "config.name.controls"
    else if points.any isC1OrBidirectionalControl then
      oneIssue path (kind ++ " must not contain C1 or bidirectional control characters") "config.name.controls"
    else if points.all isUnicodeWhitespace then
      oneIssue path (kind ++ " must contain a non-whitespace character") "config.value.required"
    else if points.length > 80 then
      oneIssue path (kind ++ " must not exceed 80 Unicode code points") "config.name.too_long" [("max","80")]
    else []

def isValidTag (value : String) : Bool :=
  match value.toList with
  | [] => false
  | first :: rest =>
    value.utf8ByteSize ≤ 24 && 'a' ≤ first && first ≤ 'z' &&
      rest.all fun c => ('a' ≤ c && c ≤ 'z') || isDigit c || c == '_'

def validateTag (path kind value : String) : Issues :=
  if value.isEmpty then oneIssue path (kind ++ " must not be empty") "config.value.required"
  else
    (if value.utf8ByteSize > 24 then
      oneIssue path (kind ++ " '" ++ value ++ "' is too long: " ++ toString value.utf8ByteSize ++ " chars, maximum is 24")
        "config.tag.too_long" [("max","24")] else []) ++
    (if !isValidTag value then
      oneIssue path (kind ++ " '" ++ value ++ "' must match naming convention [a-z][a-z0-9_]*") "config.tag.invalid"
      else [])

def isControl (c : Char) : Bool := c.toNat < 0x20 || c.toNat == 0x7F

def isBlankOrBreak (c : Char) : Bool := c == ' ' || (0x09 ≤ c.toNat && c.toNat ≤ 0x0D)

def isValidIptablesInterfaceName (name : String) : Bool :=
  !name.isEmpty && !(trimCopy name).isEmpty && name.utf8ByteSize < 16 && name != "." && name != ".." &&
    name.toList.getLast? != some '+' &&
    name.toList.all fun c => !(c == '/' || c == ':' || c == '"' || c == '\\' || isBlankOrBreak c || isControl c)

def isHttpUrl (url : String) : Bool :=
  let scheme := url.toList.takeWhile (· != ':')
  match url.toList.dropWhile (· != ':') with
  | ':' :: '/' :: '/' :: _ :: _ =>
    let lower := scheme.map Char.toLower
    lower == text "http" || lower == text "https"
  | _ => false

def validateOptionalIntegerRange (path : String) (value : Option Int) (minimum maximum : Int) : Issues :=
  match value with
  | none => []
  | some v =>
    if v < minimum || v > maximum then
      oneIssue path (path ++ " must be between " ++ toString minimum ++ " and " ++ toString maximum)
        "config.value.range" [("min",toString minimum),("max",toString maximum)]
    else []

def kMaxUrltestUint32Value : Int := 4294967295
def kMaxUrltestGroupWeight : Int := 4294967295
def kMaxUrltestRetryAttempts : Int := 1000
def kMaxCircuitFailureThreshold : Int := 2147483647

/- One name per section loop; `seen` holds the tags of earlier outbounds with their index. -/
def duplicateTags : List Outbound → Nat → List (String × Nat) → Issues
  | [], _, _ => []
  | outbound :: rest, index, seen =>
    match seen.lookup outbound.tag with
    | some first =>
      let path := "outbounds[" ++ toString index ++ "].tag"
      oneIssue path (path ++ " duplicates outbound tag '" ++ outbound.tag ++ "' first declared at outbounds[" ++
        toString first ++ "].tag") "config.value.duplicate" ++ duplicateTags rest (index + 1) seen
    | none => duplicateTags rest (index + 1) (seen ++ [(outbound.tag,index)])

def interfaceIssues (inet : Inet) (ob : Outbound) : Issues :=
  let path := "outbounds." ++ ob.tag ++ ".interface"
  (if (trimCopy (ob.interface.getD "")).isEmpty then
    oneIssue path ("Interface outbound '" ++ ob.tag ++ "' requires a non-empty interface name") "config.value.required"
   else if !isValidIptablesInterfaceName (ob.interface.getD "") then
    oneIssue path (path ++ " must be a valid iptables interface name (shorter than IFNAMSIZ, without '/', ':', " ++
      "quotes, backslashes, whitespace, or control characters, and not ending in '+')") "config.interface.invalid"
   else []) ++
  (if ob.gateway.any fun gateway => (inet.pton afInet gateway).isNone then
    oneIssue ("outbounds." ++ ob.tag ++ ".gateway")
      ("Interface outbound '" ++ ob.tag ++ "' gateway must be a valid IPv4 address") "config.address.ipv4" else []) ++
  (if ob.gateway6.any fun gateway => (inet.pton afInet6 gateway).isNone then
    oneIssue ("outbounds." ++ ob.tag ++ ".gateway6")
      ("Interface outbound '" ++ ob.tag ++ "' gateway6 must be a valid IPv6 address") "config.address.ipv6" else [])

def childIssues (outbounds : List Outbound) (ob : Outbound) (groupPath : String) :
    List String → Nat → List (String × String) → Issues × List (String × String)
  | [], _, seen => ([],seen)
  | ref :: rest, index, seen =>
    let path := groupPath ++ ".outbounds[" ++ toString index ++ "]"
    let repeated := match seen.lookup ref with
      | some first => oneIssue path ("Urltest outbound '" ++ ob.tag ++ "' repeats outbound '" ++ ref ++
          "' first declared at " ++ first) "config.value.duplicate"
      | none => []
    let target := match findOutbound outbounds ref with
      | none => oneIssue path ("Urltest outbound '" ++ ob.tag ++ "' references unknown outbound tag '" ++ ref ++ "'")
          "config.reference.outbound_missing"
      | some target =>
        if target.type == .ignore then
          oneIssue path ("Urltest outbound '" ++ ob.tag ++ "' references outbound '" ++ ref ++
            "' which is not an interface, table, blackhole, or urltest outbound") "config.urltest.child_type"
        else []
    let (issues,last) := childIssues outbounds ob groupPath rest (index + 1)
      (if (seen.lookup ref).isSome then seen else seen ++ [(ref,path)])
    (repeated ++ target ++ issues,last)

def groupIssues (outbounds : List Outbound) (ob : Outbound) : List OutboundGroup → Nat → List (String × String) → Issues
  | [], _, _ => []
  | group :: rest, index, seen =>
    let path := "outbounds." ++ ob.tag ++ ".outbound_groups[" ++ toString index ++ "]"
    let (children,last) := childIssues outbounds ob path group.outbounds 0 seen
    (if group.outbounds.isEmpty then
      oneIssue (path ++ ".outbounds") ("Urltest outbound '" ++ ob.tag ++ "' outbound_group has empty 'outbounds' array")
        "config.value.non_empty_array" else []) ++
    validateOptionalIntegerRange (path ++ ".weight") group.weight 1 kMaxUrltestGroupWeight ++ children ++
    groupIssues outbounds ob rest (index + 1) last

def urltestIssues (outbounds : List Outbound) (ob : Outbound) : Issues :=
  let path := "outbounds." ++ ob.tag
  let breaker := ob.circuitBreaker.getD {}
  let retry := ob.retry.getD {}
  (if (ob.url.getD "").isEmpty then
    oneIssue (path ++ ".url") ("Urltest outbound '" ++ ob.tag ++ "' requires a URL") "config.value.required"
   else if !isHttpUrl (ob.url.getD "") then
    oneIssue (path ++ ".url") "Urltest URL must use the http or https scheme" "config.url.scheme"
   else []) ++
  validateOptionalIntegerRange (path ++ ".interval_ms") ob.intervalMs 1 kMaxUrltestUint32Value ++
  validateOptionalIntegerRange (path ++ ".probe_timeout_ms") ob.probeTimeoutMs 1 kMaxUrltestUint32Value ++
  validateOptionalIntegerRange (path ++ ".tolerance_ms") ob.toleranceMs 0 kMaxUrltestUint32Value ++
  validateOptionalIntegerRange (path ++ ".retry.attempts") retry.attempts 1 kMaxUrltestRetryAttempts ++
  validateOptionalIntegerRange (path ++ ".retry.interval_ms") retry.intervalMs 0 kMaxUrltestUint32Value ++
  validateOptionalIntegerRange (path ++ ".circuit_breaker.failure_threshold") breaker.failureThreshold 1
    kMaxCircuitFailureThreshold ++
  validateOptionalIntegerRange (path ++ ".circuit_breaker.success_threshold") breaker.successThreshold 1
    kMaxUrltestUint32Value ++
  validateOptionalIntegerRange (path ++ ".circuit_breaker.timeout_ms") breaker.timeoutMs 0 kMaxUrltestUint32Value ++
  validateOptionalIntegerRange (path ++ ".circuit_breaker.half_open_max_requests") breaker.halfOpenMaxRequests 1
    kMaxUrltestUint32Value ++
  match ob.outboundGroups.getD [] with
  | [] => oneIssue (path ++ ".outbound_groups")
      ("Urltest outbound '" ++ ob.tag ++ "' 'outbound_groups' array must not be empty") "config.value.non_empty_array"
  | groups => groupIssues outbounds ob groups 0 []

def outboundIssues (inet : Inet) (outbounds : List Outbound) (ob : Outbound) : Issues :=
  validateTag ("outbounds." ++ ob.tag ++ ".tag") "Outbound tag" ob.tag ++
  validateDisplayName ("outbounds." ++ ob.tag ++ ".display_name") "Outbound display name" ob.displayName ++
  (if ob.type != .urltest && ob.conntrackOnSwitch.isSome then
    oneIssue ("outbounds." ++ ob.tag ++ ".conntrack_on_switch")
      "conntrack_on_switch is only valid for urltest outbounds" "config.conntrack.urltest_only" else []) ++
  (if ob.type == .interface then interfaceIssues inet ob else []) ++
  if ob.type == .urltest then urltestIssues outbounds ob else []

/- validate_urltest_cycles: a depth-first walk over the urltest groups in tag order, its stack and
the visit states explicit. -/

structure UrltestReference where
  target : String
  path : String
  deriving DecidableEq, Repr

inductive VisitState where
  | unvisited
  | visiting
  | visited
  deriving DecidableEq, Repr

def groupReferences (outbounds : List Outbound) (ob : Outbound) (group : OutboundGroup) (index : Nat) :
    List UrltestReference :=
  group.outbounds.zipIdx.filterMap fun (ref,child) =>
    match findOutbound outbounds ref with
    | some target =>
      if target.type == .urltest then
        some ⟨ref,"outbounds." ++ ob.tag ++ ".outbound_groups[" ++ toString index ++ "].outbounds[" ++
          toString child ++ "]"⟩
      else none
    | none => none

def urltestReferences (outbounds : List Outbound) (ob : Outbound) : List UrltestReference :=
  (ob.outboundGroups.getD []).zipIdx.flatMap fun (group,index) => groupReferences outbounds ob group index

/- std::map by tag. Outbounds that share a tag share an entry. -/
def urltestGraph (outbounds : List Outbound) : List (String × List UrltestReference) :=
  let urltests := outbounds.filter fun ob => ob.type == .urltest
  let tags := (urltests.map (·.tag)).dedup.insertionSort (· ≤ ·)
  tags.map fun tag => (tag,(urltests.filter fun ob => ob.tag == tag).flatMap (urltestReferences outbounds))

structure CycleWalk where
  stack : List (String × Nat) := []
  states : List (String × VisitState)
  issues : Issues := []

def CycleWalk.setState (walk : CycleWalk) (tag : String) (state : VisitState) : CycleWalk :=
  { walk with states := walk.states.map fun entry => if entry.1 == tag then (tag,state) else entry }

/- One round of the inner loop; the stack's last frame is the list's head. -/
def CycleWalk.step (graph : List (String × List UrltestReference)) (walk : CycleWalk) : CycleWalk :=
  match walk.stack with
  | [] => walk
  | (tag,next) :: below =>
    match ((graph.lookup tag).getD [])[next]? with
    | none => { walk.setState tag .visited with stack := below }
    | some reference =>
      let moved := { walk with stack := (tag,next + 1) :: below }
      match walk.states.lookup reference.target with
      | none => moved
      | some .visiting =>
        let message := "Urltest outbound '" ++ tag ++ "' creates a cyclic reference to urltest outbound '" ++
          reference.target ++ "'"
        { moved with issues := moved.issues ++ oneIssue reference.path message "config.urltest.cycle" }
      | some .visited => moved
      | some .unvisited =>
        { moved.setState reference.target .visiting with stack := (reference.target,0) :: moved.stack }

def CycleWalk.run (graph : List (String × List UrltestReference)) : Nat → CycleWalk → CycleWalk
  | 0, walk => walk
  | fuel + 1, walk => CycleWalk.run graph fuel (walk.step graph)

def cycleRounds (graph : List (String × List UrltestReference)) : Nat :=
  graph.length + (graph.map fun entry => entry.2.length).sum

def validateUrltestCycles (graph : List (String × List UrltestReference)) : Issues :=
  (graph.foldl (fun walk entry =>
    if walk.states.lookup entry.1 != some .unvisited then walk
    else CycleWalk.run graph (cycleRounds graph) { walk.setState entry.1 .visiting with stack := [(entry.1,0)] })
    { states := graph.map fun entry => (entry.1,.unvisited) }).issues

/- Route rules. -/

def validateRequiredReference (known : List String) (path owner value kind code : String) : Issues :=
  let ref := trimCopy value
  if ref.isEmpty then oneIssue path (path ++ " must not be empty") "config.value.required"
  else if !known.contains ref then oneIssue path (owner ++ " references unknown " ++ kind ++ " '" ++ ref ++ "'") code
  else []

def validateRuleListReferences (knownLists : List String) (rulePath : String) (refs : List String) : Issues :=
  refs.zipIdx.flatMap fun (ref,index) =>
    validateRequiredReference knownLists (rulePath ++ ".list[" ++ toString index ++ "]") rulePath ref "list"
      "config.reference.list_missing"

def routableFailureTarget (type : OutboundType) : Bool := type == .interface || type == .urltest

def failurePolicyIssues (outbounds : List Outbound) (rulePath : String) (rule : RouteRule) : Issues :=
  let policy := rule.failurePolicy.getD .inherit
  let fallbackTag := rule.fallbackOutbound.getD ""
  let path := rulePath ++ ".fallback_outbound"
  (if policy != .inherit then
    match findOutbound outbounds rule.outbound with
    | none =>
      if (findOutbound outbounds (trimCopy rule.outbound)).isSome then
        oneIssue (rulePath ++ ".outbound") "A rule failure policy requires an exact configured primary outbound tag"
          "config.route.primary_exact"
      else []
    | some primary =>
      if !routableFailureTarget primary.type then
        oneIssue (rulePath ++ ".failure_policy")
          "A rule failure policy requires an interface or urltest primary outbound" "config.route.primary_routable"
      else []
   else []) ++
  if policy == .fallback then
    if fallbackTag.isEmpty then
      oneIssue path (path ++ " is required when failure_policy is fallback") "config.value.required"
    else
      match findOutbound outbounds fallbackTag with
      | none => oneIssue path (rulePath ++ " references unknown fallback outbound tag '" ++ fallbackTag ++ "'")
          "config.reference.outbound_missing"
      | some fallback =>
        (if fallbackTag == rule.outbound then
          oneIssue path "Fallback outbound must differ from the primary outbound" "config.route.fallback_different"
          else []) ++
        if !routableFailureTarget fallback.type then
          oneIssue path "Fallback outbound must be an interface or urltest outbound" "config.route.fallback_routable"
        else []
  else if !fallbackTag.isEmpty then
    oneIssue path "fallback_outbound is only used when failure_policy is fallback" "config.route.fallback_mode"
  else []

def routeRuleIssues (cfg : Config) : List RouteRule → Nat → List (String × Nat) → Issues
  | [], _, _ => []
  | rule :: rest, index, ids =>
    let path := "route.rules[" ++ toString index ++ "]"
    let identity := match rule.id with
      | none => []
      | some id => validateTag (path ++ ".id") "Route rule id" id ++
          match ids.lookup id with
          | some first => oneIssue (path ++ ".id") ("Route rule id '" ++ id ++ "' duplicates route.rules[" ++
              toString first ++ "].id") "config.value.duplicate"
          | none => []
    identity ++
    validateDisplayName (path ++ ".display_name") "Route rule display name" rule.displayName ++
    validateRequiredReference (cfg.outboundList.map (·.tag)) (path ++ ".outbound") path rule.outbound "outbound tag"
      "config.reference.outbound_missing" ++
    failurePolicyIssues cfg.outboundList path rule ++
    validateRuleListReferences cfg.lists path (routeRuleLists rule) ++
    routeRuleIssues cfg rest (index + 1)
      (match rule.id with
        | some id => if (ids.lookup id).isSome then ids else ids ++ [(id,index)]
        | none => ids)

def fwmarkIssues (cfg : Config) : Issues :=
  let start := parseFwmarkStartOrThrow cfg.fwmark
  let mask := do
    let mask ← parseFwmarkMaskOrThrow cfg.fwmark
    validateFwmarkMask mask
  (match start with
    | .error message => oneIssue "fwmark.start" message "config.fwmark.start_invalid"
    | .ok _ => []) ++
  (match mask with
    | .error message => oneIssue "fwmark.mask" message "config.fwmark.mask_invalid"
    | .ok _ => []) ++
  match start,mask with
  | .ok _,.ok _ =>
    match allocateOutboundMarks cfg.fwmark cfg.outboundList with
    | .error message => oneIssue "outbounds" message "config.fwmark.allocation"
    | .ok _ => []
  | _,_ => []

def tableStartIssues (cfg : Config) : Issues :=
  if isReservedTable cfg.tableStartValue then
    oneIssue "iproute.table_start" ("iproute.table_start " ++ toString cfg.tableStartValue.toNat ++
      " is reserved. Use a different value (e.g. 150).") "config.iproute.reserved"
  else []

def validateConfig (inet : Inet) (cfg : Config) : Issues :=
  cfg.lists.flatMap (fun name => validateTag (if name.isEmpty then "lists" else "lists." ++ name) "List name" name) ++
  duplicateTags cfg.outboundList 0 [] ++
  cfg.outboundList.flatMap (outboundIssues inet cfg.outboundList) ++
  validateUrltestCycles (urltestGraph cfg.outboundList) ++
  routeRuleIssues cfg cfg.routeRules 0 [] ++
  fwmarkIssues cfg ++
  tableStartIssues cfg

end KeenPbr
