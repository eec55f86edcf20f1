import KeenPbr.RuleCriteria

/-! A whole configuration document, as api/generated/api_types.hpp declares it, and validate_config on
all of it. `ω` holds the sections that neither name an outbound, a list or a rule nor are named by one:
schema version, UI preferences, VPN servers and services, daemon limits, the update schedule. Readers of
single values that live in other modules (DNS addresses, domain names, the probe server, what the build
and the system say of Keenetic DNS) are functions of the value. -/
namespace KeenPbr.Documents

inductive ListRefreshDetourMode where
  | inherit
  | override
  deriving DecidableEq, Repr

inductive Double where
  | finite (value : Rat)
  | notFinite
  deriving DecidableEq, Repr

structure ShrinkPolicy where
  minPreviousEntries : Option Int := none
  minRetainedFraction : Option Double := none
  deriving DecidableEq, Repr

structure ListConfig where
  catalogIdentity : Option String := none
  detour : Option String := none
  displayName : Option String := none
  domains : Option (List String) := none
  fallbackDetours : Option (List String) := none
  file : Option String := none
  ipCidrs : Option (List String) := none
  refreshDetourMode : Option ListRefreshDetourMode := none
  shrinkPolicy : Option ShrinkPolicy := none
  sourceFormat : Option String := none
  ttlMs : Option Int := none
  url : Option String := none
  deriving DecidableEq, Repr

structure ListRefreshConfig where
  detour : Option String := none
  fallbackDetours : Option (List String) := none
  deriving DecidableEq, Repr

inductive DnsServerType where
  | keenetic
  | static
  deriving DecidableEq, Repr

structure DnsServer where
  tag : String
  address : Option String := none
  detour : Option String := none
  displayName : Option String := none
  domains : Option (List String) := none
  type : Option DnsServerType := none
  deriving DecidableEq, Repr

structure DnsRule where
  server : String
  list : List String := []
  id : Option String := none
  displayName : Option String := none
  enabled : Option Bool := none
  allowDomainRebinding : Option Bool := none
  routeRuleIds : Option (List String) := none
  deriving DecidableEq, Repr

structure DnsTestServer where
  listen : String
  answerIpv4 : Option String := none
  deriving DecidableEq, Repr

structure DnsConfig where
  servers : Option (List DnsServer) := none
  rules : Option (List DnsRule) := none
  fallback : Option (List String) := none
  systemResolver : Option String := none
  dnsTestServer : Option DnsTestServer := none
  deriving DecidableEq, Repr

inductive FirewallBackendPreference where
  | autoDetect
  | iptables
  | nftables
  deriving DecidableEq, Repr

structure TunnelProbe where
  enabled : Option Bool := none
  list : Option String := none
  outbound : Option String := none
  deriving DecidableEq, Repr

/- `lists` is a std::map: the entries stand in the order of their names. -/
structure Document (ω : Type) where
  rest : ω
  lists : Option (List (String × ListConfig)) := none
  outbounds : Option (List Outbound) := none
  routeRules : Option (List RouteRule) := none
  dns : Option DnsConfig := none
  listRefresh : Option ListRefreshConfig := none
  reconnectOwnedFlowsOnRoutingChangeLists : Option (List String) := none
  firewallBackend : FirewallBackendPreference := .autoDetect
  tunnelProbe : Option TunnelProbe := none
  tableStart : Option Int := none
  fwmark : FwmarkConfig := {}
  strictEnforcement : Option Bool := none
  deriving DecidableEq, Repr

structure Readers (ω : Type) where
  inet : Inet
  restIssues : ω → Issues
  normalizeDomain : String → Option String
  parseDnsAddressStr : String → Except (String × String) (String × Nat)
  parseDnsProbeServerSettings : String → Option String → Option String
  keeneticTypeIssues : String → Issues

section Sections
variable {ω : Type}

def Document.listEntries (doc : Document ω) : List (String × ListConfig) := doc.lists.getD []

def Document.listNames (doc : Document ω) : List String := doc.listEntries.map (·.1)

def Document.outboundList (doc : Document ω) : List Outbound := doc.outbounds.getD []

def Document.rules (doc : Document ω) : List RouteRule := doc.routeRules.getD []

def Document.config (doc : Document ω) : Config :=
  { outbounds := doc.outbounds, lists := doc.listNames, routeRules := doc.rules, tableStart := doc.tableStart,
    fwmark := doc.fwmark, strictEnforcement := doc.strictEnforcement }

def listPath (name : String) : String := if name.isEmpty then "lists" else "lists." ++ name

def validListSourceFormat (format : String) : Bool := format == "text" || format == "json-array" || format == "yaml-payload"

def shrinkPolicyIssues (path : String) (policy : ShrinkPolicy) : Issues :=
  (match policy.minPreviousEntries with
    | some entries =>
      if entries < 0 then
        oneIssue (path ++ ".shrink_policy.min_previous_entries") (path ++ ".shrink_policy.min_previous_entries must be >= 0")
          "config.value.non_negative"
      else []
    | none => []) ++
  match policy.minRetainedFraction with
  | none => []
  | some (.finite value) =>
    if value < 0 || value > 1 then
      oneIssue (path ++ ".shrink_policy.min_retained_fraction")
        (path ++ ".shrink_policy.min_retained_fraction must be a finite number between 0 and 1") "config.value.fraction"
    else []
  | some .notFinite =>
    oneIssue (path ++ ".shrink_policy.min_retained_fraction")
      (path ++ ".shrink_policy.min_retained_fraction must be a finite number between 0 and 1") "config.value.fraction"

def validCatalogIdentity (identity : String) : Bool :=
  identity.utf8ByteSize == 64 && identity.toList.all fun c => isDigit c || ('a' ≤ c && c ≤ 'f')

def catalogIdentityIssues (path : String) (identity : Option String) (first : List (String × String)) : Issues × List (String × String) :=
  match identity with
  | none => ([],first)
  | some identity =>
    let at_ := path ++ ".catalog_identity"
    if !validCatalogIdentity identity then
      (oneIssue at_ (at_ ++ " must be a lowercase SHA-256 digest") "config.catalog_identity.invalid",first)
    else
      match first.lookup identity with
      | some earlier =>
        (oneIssue at_ (at_ ++ " duplicates catalogue provenance first declared at " ++ earlier) "config.value.duplicate",first)
      | none => ([],first ++ [(identity,at_)])

def sourceIssues (path name : String) (list : ListConfig) : Issues :=
  if list.url.isNone && list.file.isNone && (list.ipCidrs.getD []).isEmpty && (list.domains.getD []).isEmpty then
    oneIssue path ("List '" ++ name ++ "' must have at least one of: url, domains, ip_cidrs, file") "config.list.source_required"
  else []

def listIssues : List (String × ListConfig) → List (String × String) → Issues
  | [], _ => []
  | (name,list) :: others, first =>
    let path := listPath name
    let identity := catalogIdentityIssues path list.catalogIdentity first
    validateTag path "List name" name ++
    (match list.sourceFormat with
      | some format =>
        if !validListSourceFormat format then
          oneIssue (path ++ ".source_format") (path ++ ".source_format must be one of: text, json-array, yaml-payload")
            "config.list.source_format"
        else []
      | none => []) ++
    validateDisplayName (path ++ ".display_name") "List display name" list.displayName ++
    (match list.shrinkPolicy with
      | some policy => shrinkPolicyIssues path policy
      | none => []) ++
    identity.1 ++ sourceIssues path name list ++ listIssues others identity.2

def reconnectField : String := "daemon.reconnect_owned_flows_on_routing_change_lists"

def reconnectEntryIssues (known : List String) : List String → Nat → List String → Issues
  | [], _, _ => []
  | name :: others, index, seen =>
    let path := reconnectField ++ "[" ++ toString index ++ "]"
    (if seen.contains name then oneIssue path (path ++ " duplicates list '" ++ name ++ "'") "config.value.duplicate" else []) ++
    (if !known.contains name then oneIssue path
    (path ++ " references unknown list '" ++ name ++ "'") "config.reference.list_missing" else []) ++
    reconnectEntryIssues known others (index + 1) (seen ++ [name])

def reconnectIssues (known : List String) (selected : Option (List String)) : Issues :=
  match selected with
  | none => []
  | some selected =>
    (if selected.length > 128 then
      oneIssue reconnectField (reconnectField ++ " must not contain more than 128 entries") "config.value.too_many" [("max","128")]
     else []) ++
    reconnectEntryIssues known selected 0 []

/- validate_download_detour with the tags seen so far. -/
def downloadDetourIssues (outbounds : List Outbound) (path tag : String) (seen : List String) : Issues :=
  if tag.isEmpty then oneIssue path (path ++ " must not be empty") "config.value.required"
  else if seen.contains tag then oneIssue path (path ++ " repeats outbound tag '" ++ tag ++ "'") "config.value.duplicate"
  else
    match findOutbound outbounds tag with
    | none => oneIssue path (path ++ ": unknown outbound tag '" ++ tag ++ "'") "config.reference.outbound_missing"
    | some outbound =>
      if !outbound.routable then
        oneIssue path (path ++ ": outbound '" ++ tag ++ "' has no routable download table") "config.outbound.routing_table_required"
      else []

def fallbackDetourIssues (outbounds : List Outbound) (path : String) : List String → Nat → List String → Issues
  | [], _, _ => []
  | tag :: others, index, seen =>
    downloadDetourIssues outbounds (path ++ ".fallback_detours[" ++ toString index ++ "]") tag seen ++
    fallbackDetourIssues outbounds path others (index + 1) (seen ++ [tag])

def downloadChainIssues (outbounds : List Outbound) (primary : Option String) (fallbacks : List String) (path : String) : Issues :=
  (if !fallbacks.isEmpty && primary.isNone then
    oneIssue (path ++ ".fallback_detours") (path ++ ".fallback_detours requires an explicit primary detour")
      "config.download.primary_required"
   else []) ++
  (if fallbacks.length > 3 then
    oneIssue (path ++ ".fallback_detours") (path ++ ".fallback_detours supports at most 3 entries") "config.value.too_many" [("max","3")]
   else []) ++
  match primary with
  | some tag => downloadDetourIssues outbounds (path ++ ".detour") tag [] ++ fallbackDetourIssues outbounds path fallbacks 0 [tag]
  | none => fallbackDetourIssues outbounds path fallbacks 0 []

def ListConfig.fallbacks (list : ListConfig) : List String := list.fallbackDetours.getD []

def ListConfig.hasLocalChain (list : ListConfig) : Bool := list.detour.isSome || !list.fallbacks.isEmpty

def effectiveListRefreshDetourMode (list : ListConfig) : ListRefreshDetourMode :=
  match list.refreshDetourMode with
  | some mode => mode
  | none => if list.hasLocalChain then .override else .inherit

def configuredListRefreshDetours (refresh : ListRefreshConfig) : List String :=
  refresh.detour.toList ++ refresh.fallbackDetours.getD []

def effectiveListRefreshDetours (refresh : Option ListRefreshConfig) (list : ListConfig) : List String :=
  if effectiveListRefreshDetourMode list = .override then
    configuredListRefreshDetours { detour := list.detour, fallbackDetours := list.fallbackDetours }
  else configuredListRefreshDetours (refresh.getD {})

def listDetourIssues (outbounds : List Outbound) (entry : String × ListConfig) : Issues :=
  let (name,list) := entry
  let path := listPath name
  let mode := effectiveListRefreshDetourMode list
  (if list.refreshDetourMode.isSome && list.url.isNone then
    oneIssue (path ++ ".refresh_detour_mode") (path ++ ".refresh_detour_mode is only valid for URL-backed lists")
      "config.download.url_required"
   else []) ++
  (if mode == .inherit && list.hasLocalChain then
    oneIssue (path ++ ".refresh_detour_mode")
      (path ++ " cannot inherit the global download route while local detours are configured") "config.download.inherit_conflict"
   else []) ++
  (if mode == .override && list.detour.isNone then
    oneIssue (path ++ ".detour") (path ++ ".detour is required when refresh_detour_mode is override") "config.value.required"
   else []) ++
  (if list.hasLocalChain && list.url.isNone then
    oneIssue (path ++ ".detour") (path ++ " download detours are only valid for URL-backed lists") "config.download.url_required"
   else []) ++
  if list.hasLocalChain || mode == .override then downloadChainIssues outbounds list.detour list.fallbacks path else []

def listRefreshIssues (outbounds : List Outbound) (refresh : Option ListRefreshConfig) : Issues :=
  match refresh with
  | none => []
  | some refresh => downloadChainIssues outbounds refresh.detour (refresh.fallbackDetours.getD []) "list_refresh"

inductive PortSpecKind where
  | empty
  | single
  | range
  | list
  deriving DecidableEq, Repr

def portSpecKind (spec : PortSpec) : PortSpecKind :=
  match spec.ranges with
  | [] => .empty
  | [range] => if range.fromPort = range.toPort then .single else .range
  | _ => .list

def classifyOptionalPortSpec (value : Option String) : Except String (Option PortSpecKind) :=
  match value with
  | none => .ok none
  | some value =>
    match trimText value.toList with
    | [] => .ok none
    | first :: others =>
      let content := if first = '!' then trimText others else first :: others
      if content.isEmpty then .ok none
      else (fun spec => some (portSpecKind spec)) <$> parsePortSpec content

def routeRuleUsesUnsupportedIptablesMultiportCombo (rule : RouteRule) : Except String Bool := do
  let source ← classifyOptionalPortSpec rule.srcPort
  let destination ← classifyOptionalPortSpec rule.destPort
  match source,destination with
  | some source,some destination => .ok (source == .list || destination == .list)
  | _,_ => .ok false

def routeRuleUnsupportedIptablesMultiportPath (index : Nat) (rule : RouteRule) : String :=
  match classifyOptionalPortSpec rule.srcPort with
  | .ok (some .list) => "route.rules[" ++ toString index ++ "].src_port"
  | _ => "route.rules[" ++ toString index ++ "].dest_port"

def multiportRuleIssues (rule : RouteRule) (index : Nat) : Issues :=
  match routeRuleUsesUnsupportedIptablesMultiportCombo rule with
  | .error message => oneIssue "" message ""
  | .ok false => []
  | .ok true =>
    oneIssue (routeRuleUnsupportedIptablesMultiportPath index rule)
      ("When you use port lists (e.g. 444,555) you can't combine src_port and dest_port condition. This is a xt_multiport " ++
        "module limitation. Consider using nftables firewall backend or create multiple rules.") "config.route.multiport_combo"

def multiportIssues (backend : FirewallBackendPreference) (rules : List RouteRule) : Issues :=
  if backend = .iptables then rules.zipIdx.flatMap fun (rule,index) => multiportRuleIssues rule index else []

variable (read : Readers ω)

def domainIssues (server : DnsServer) : Issues :=
  (server.domains.getD []).zipIdx.flatMap fun (domain,index) =>
    if (read.normalizeDomain domain).isNone then
      oneIssue ("dns.servers." ++ server.tag ++ ".domains." ++ toString index)
        "Enter a DNS domain without a URL scheme, path or IP address" "config.dns.domain"
    else []

/- std::to_string of the enumerator. -/
def DnsServerType.code : DnsServerType → String
  | .keenetic => "0"
  | .static => "1"

def DnsServer.kind (server : DnsServer) : DnsServerType := server.type.getD .static

def serverIdentity (server : DnsServer) : String × Issues :=
  let address := server.address.getD ""
  let plain := server.kind.code ++ "|" ++ address
  if server.kind = .static && !address.isEmpty then
    match read.parseDnsAddressStr address with
    | .ok (ip,port) => (server.kind.code ++ "|" ++ ip ++ "|" ++ toString port,[])
    | .error (message,code) => (plain,oneIssue ("dns.servers." ++ server.tag ++ ".address") message code)
  else (plain,[])

def quoted (tag : String) : String := "\"" ++ tag ++ "\""

def serverTypeIssues (server : DnsServer) : Issues :=
  let path := "dns.servers." ++ server.tag
  let name := "dns.servers[" ++ quoted server.tag ++ "]"
  match server.kind with
  | .keenetic =>
    read.keeneticTypeIssues server.tag ++
    if (server.address.getD "").isEmpty then []
    else oneIssue (path ++ ".address") (name ++ ".address must not be set for type='keenetic' (resolved via RCI)")
      "config.dns.keenetic_address"
  | .static =>
    if (server.address.getD "").isEmpty then
      oneIssue (path ++ ".address") (name ++ ".address is required for type='static'") "config.value.required"
    else []

def serverDetourIssues (outbounds : List Outbound) (server : DnsServer) : Issues :=
  match server.detour with
  | none => []
  | some detour =>
    let path := "dns.servers." ++ server.tag ++ ".detour"
    let name := "dns.servers[" ++ quoted server.tag ++ "].detour"
    match findOutbound outbounds detour with
    | none => oneIssue path (name ++ ": unknown outbound tag " ++ quoted detour) "config.reference.outbound_missing"
    | some outbound =>
      if outbound.type == .blackhole || outbound.type == .ignore then
        oneIssue path (name ++ ": outbound " ++ quoted detour ++ " has no routing table") "config.outbound.routing_table_required"
      else []

def dnsServerIssues (outbounds : List Outbound) : List DnsServer → List String → List String → Issues
  | [], _, _ => []
  | server :: others, tags, identities =>
    let path := "dns.servers." ++ server.tag
    let identity := serverIdentity read server
    validateTag (path ++ ".tag") "DNS server tag" server.tag ++
    validateDisplayName (path ++ ".display_name") "DNS server display name" server.displayName ++
    domainIssues read server ++
    (if tags.contains server.tag then
      oneIssue (path ++ ".tag") ("Duplicate DNS server tag " ++ quoted server.tag) "config.value.duplicate" else []) ++
    identity.2 ++
    (if identities.contains identity.1 then
      oneIssue path ("DNS server " ++ quoted server.tag ++ " duplicates an existing DNS server definition (same type/address)")
        "config.value.duplicate" else []) ++
    serverTypeIssues read server ++
    serverDetourIssues outbounds server ++
    dnsServerIssues outbounds others (tags ++ [server.tag]) (identities ++ [identity.1])

def keeneticLimitIssues (servers : List DnsServer) : Issues :=
  if (servers.filter fun server => server.kind == .keenetic).length > 1 then
    oneIssue "dns.servers" "at most one dns.servers entry may use type='keenetic'" "config.dns.keenetic_limit"
  else []

def dnsFallbackIssues (known : List String) : List String → Nat → List String → Issues
  | [], _, _ => []
  | tag :: others, index, seen =>
    let path := "dns.fallback." ++ toString index
    let name := "dns.fallback[" ++ toString index ++ "]"
    if tag.isEmpty then
      oneIssue path (name ++ " must not be empty") "config.value.required" ++ dnsFallbackIssues known others (index + 1) seen
    else
      (if seen.contains tag then oneIssue path (name ++ " duplicates DNS server tag " ++ quoted tag) "config.value.duplicate" else []) ++
      (if !known.contains tag then
        oneIssue path (name ++ " references unknown DNS server tag " ++ quoted tag) "config.reference.dns_server_missing" else []) ++
      dnsFallbackIssues known others (index + 1) (seen ++ [tag])

def dnsRuleIssues (servers lists : List String) : List DnsRule → Nat → List (String × Nat) → Issues
  | [], _, _ => []
  | rule :: others, index, ids =>
    let path := "dns.rules[" ++ toString index ++ "]"
    let identity := match rule.id with
      | none => []
      | some id => validateTag (path ++ ".id") "DNS rule id" id ++
          match ids.lookup id with
          | some first => oneIssue (path ++ ".id") (path ++ ".id duplicates DNS rule id '" ++ id ++ "' first declared at dns.rules[" ++
              toString first ++ "].id") "config.value.duplicate"
          | none => []
    identity ++
    validateDisplayName (path ++ ".display_name") "DNS rule display name" rule.displayName ++
    validateRequiredReference servers (path ++ ".server") path rule.server "DNS server tag" "config.reference.dns_server_missing" ++
    (if rule.list.isEmpty then
      oneIssue (path ++ ".list") (path ++ ".list must include at least one list name") "config.value.non_empty_array"
     else validateRuleListReferences lists path rule.list) ++
    dnsRuleIssues servers lists others (index + 1)
      (match rule.id with
        | some id => if (ids.lookup id).isSome then ids else ids ++ [(id,index)]
        | none => ids)

def DnsConfig.serverList (dns : DnsConfig) : List DnsServer := dns.servers.getD []

def DnsConfig.serverTags (dns : DnsConfig) : List String := dns.serverList.map (·.tag)

def systemResolverIssues (resolver : Option String) : Issues :=
  match resolver with
  | none => oneIssue "dns.system_resolver" "dns.system_resolver must be present" "config.value.required"
  | some address =>
    if address.isEmpty then oneIssue "dns.system_resolver.address" "dns.system_resolver.address must not be empty" "config.value.required"
    else []

def dnsTestServerIssues (server : Option DnsTestServer) : Issues :=
  match server with
  | none => []
  | some server =>
    match read.parseDnsProbeServerSettings server.listen server.answerIpv4 with
    | some message => oneIssue "dns.dns_test_server" ("dns.dns_test_server: " ++ message) "config.dns.probe_invalid"
    | none => []

def dnsIssues (doc : Document ω) : Issues :=
  match doc.dns with
  | none => oneIssue "dns.system_resolver" "dns.system_resolver must be present" "config.value.required"
  | some dns =>
    dnsServerIssues read doc.outboundList dns.serverList [] [] ++
    keeneticLimitIssues dns.serverList ++
    dnsFallbackIssues dns.serverTags (dns.fallback.getD []) 0 [] ++
    systemResolverIssues dns.systemResolver ++
    dnsRuleIssues dns.serverTags doc.listNames (dns.rules.getD []) 0 [] ++
    dnsTestServerIssues read dns.dnsTestServer

def Outbound.children (outbound : Outbound) : List String := (outbound.outboundGroups.getD []).flatMap (·.outbounds)

def urltestParents (outbounds : List Outbound) (child : String) : List String :=
  ((outbounds.filter fun outbound => outbound.type == .urltest && (Outbound.children outbound).contains child).map (·.tag)).dedup

def directlyRoutedOutbounds (rules : List RouteRule) : List String :=
  rules.flatMap fun rule =>
    rule.outbound :: if rule.failurePolicy = some .fallback then rule.fallbackOutbound.toList.filter (!·.isEmpty) else []

def directDnsDetours (dns : Option DnsConfig) : List String :=
  match dns with
  | none => []
  | some dns => dns.serverList.filterMap (·.detour)

def directListDetours (refresh : Option ListRefreshConfig) (lists : List (String × ListConfig)) : List String :=
  (lists.filter fun entry => entry.2.url.isSome).flatMap fun entry => effectiveListRefreshDetours refresh entry.2

/- What validate_config says of one child of a group that cleans up conntrack entries. -/
def conntrackChildIssues (doc : Document ω) (outbound : Outbound) (mode : ConntrackOnSwitch) (child : String) : Issues :=
  let path := "outbounds." ++ outbound.tag ++ ".conntrack_on_switch"
  let name := if mode = .delete then "delete" else "delete_on_failure"
  let subject := "conntrack_on_switch='" ++ name ++ "'"
  (match findOutbound doc.outboundList child with
    | some target =>
      if target.type == .urltest then
        oneIssue path (subject ++ " does not support nested urltest child '" ++ child ++ "'; use 'preserve' for nested selectors")
          "config.conntrack.nested"
      else []
    | none => []) ++
  if mode ≠ .delete then []
  else
    (if (urltestParents doc.outboundList child).length > 1 then
      oneIssue path (subject ++ " requires exclusive child marks, but outbound '" ++ child ++ "' is shared by multiple urltest selectors")
        "config.conntrack.shared_child" else []) ++
    (if (directlyRoutedOutbounds doc.rules).contains child then
      oneIssue path (subject ++ " cannot use child '" ++ child ++ "' because a routing rule also references it directly")
        "config.conntrack.route_child" else []) ++
    (if (directDnsDetours doc.dns).contains child then
      oneIssue path (subject ++ " cannot use child '" ++ child ++ "' because a DNS server also references it directly")
        "config.conntrack.dns_child" else []) ++
    if (directListDetours doc.listRefresh doc.listEntries).contains child then
      oneIssue path (subject ++ " cannot use child '" ++ child ++ "' because a URL list download also references it directly")
        "config.conntrack.list_child" else []

def conntrackIssues (doc : Document ω) (outbound : Outbound) : Issues :=
  let mode := outbound.conntrackOnSwitch.getD .preserve
  if outbound.type != .urltest || mode == .preserve then []
  else (Outbound.children outbound).reverse.dedup.reverse.flatMap (conntrackChildIssues doc outbound mode)

def validateDocument (doc : Document ω) : Issues :=
  read.restIssues doc.rest ++
  listIssues doc.listEntries [] ++
  reconnectIssues doc.listNames doc.reconnectOwnedFlowsOnRoutingChangeLists ++
  duplicateTags doc.outboundList 0 [] ++
  listRefreshIssues doc.outboundList doc.listRefresh ++
  doc.listEntries.flatMap (listDetourIssues doc.outboundList) ++
  doc.outboundList.flatMap (outboundIssues read.inet doc.outboundList) ++
  validateUrltestCycles (urltestGraph doc.outboundList) ++
  routeRuleIssues doc.config doc.rules 0 [] ++
  fwmarkIssues doc.config ++
  tableStartIssues doc.config ++
  multiportIssues doc.firewallBackend doc.rules ++
  dnsIssues read doc ++
  doc.outboundList.flatMap (conntrackIssues doc)

end Sections

end KeenPbr.Documents
