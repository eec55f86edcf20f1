import KeenPbr.DnsRegistry

/-! dns/dnsmasq_gen.cpp: generate_directives writes the resolver configuration and, side by side, the
records of its hash. What it writes is a sequence of events. A line of the file is one event, without its
newline; a record is handed to the hash as the text of its fields between bars. A size is counted in
characters: the names the batches measure are ASCII. -/
namespace KeenPbr.Dnsmasq
open Dns Documents Fields

inductive ResolverType where
  | dnsmasqIpset
  | dnsmasqNftset
  deriving DecidableEq, Repr

structure ResolverIpv6Policy where
  targetsEnabled : Bool := true
  suppressAaaa : Bool := false
  deriving DecidableEq, Repr

inductive Line where
  | comment (text : Text)
  | blank
  | directive (text : Text)
  deriving DecidableEq, Repr

/- The kinds of hash records with the fields they carry. -/
inductive Record where
  | version (value : Text)
  | firefoxDohCanary (enabled : Bool)
  | ipv6Enabled (enabled : Bool)
  | filterAaaa (enabled : Bool)
  | filterRr
  | trustedInterface (interface : Text)
  | probeServer (ip : Text) (port : Nat)
  | keeneticStatic (pattern address : Text)
  | fallbackServer (index : Nat) (ip : Text) (port : Nat)
  | directFallback (index : Nat) (direct : Bool)
  | directDomainServer (row : Text)
  | domainRoute (list bare : Text)
  | domainRebind (list bare : Text)
  | domainServer (list bare : Text) (index : Nat) (ip : Text) (port : Nat)
  | keeneticScopedServer (index : Nat) (domain address : Text)
  deriving DecidableEq, Repr

/- std::to_string. -/
def decimal (value : Nat) : Text := (toString value).toList

def flag (value : Bool) : Text := if value then text "1" else text "0"

def Record.fields : Record → List Text
  | .version value => [text "version",value]
  | .firefoxDohCanary enabled => [text "firefox-doh-canary",flag enabled]
  | .ipv6Enabled enabled => [text "ipv6-enabled",flag enabled]
  | .filterAaaa enabled => [text "filter-aaaa",flag enabled]
  | .filterRr => [text "filter-rr",text "64,65"]
  | .trustedInterface interface => [text "trusted-interface",interface]
  | .probeServer ip port => [text "probe-server",ip,decimal port]
  | .keeneticStatic pattern address => [text "keenetic-static",pattern,address]
  | .fallbackServer index ip port => [text "fallback-server",decimal index,ip,decimal port]
  | .directFallback index direct => [text "direct-fallback",decimal index,if direct then text "yes" else text "no"]
  | .directDomainServer row => [text "direct-domain-server",row]
  | .domainRoute list bare => [text "domain-route",list,bare]
  | .domainRebind list bare => [text "domain-rebind",list,bare]
  | .domainServer list bare index ip port => [text "domain-server",list,bare,decimal index,ip,decimal port]
  | .keeneticScopedServer index domain address => [text "keenetic-scoped-server",decimal index,domain,address]

def Record.line (record : Record) : Text := ['|'].intercalate record.fields

inductive Event where
  | record (record : Record)
  | line (line : Line)
  deriving DecidableEq, Repr

def write (out : Bool) (lines : List Line) : List Event := if out then lines.map .line else []

def recordsOf (events : List Event) : List Record :=
  events.filterMap fun
    | .record record => some record
    | .line _ => none

def directivesOf (events : List Event) : List Text :=
  events.filterMap fun
    | .line (.directive text) => some text
    | _ => none

def textLess (left right : Text) : Bool := left.lex right fun a b => a.toNat < b.toNat

/- std::set<std::string>: each text once, in order. -/
def textSet (texts : List Text) : List Text := texts.dedup.insertionSort fun left right => textLess right left = false

section Domains

def keeneticStaticDomainPattern (domain : Text) : Text :=
  if domain.length > 2 ∧ text "*." <+: domain then '/' :: domain.drop 2 else '/' :: domain

def stripWildcard (domain : Text) : Text := if domain.length > 2 ∧ text "*." <+: domain then domain.drop 2 else domain

def asciiLower (c : Char) : Char := if 'A' ≤ c ∧ c ≤ 'Z' then Char.ofNat (c.toNat - 'A'.toNat + 'a'.toNat) else c

def canonicalDnsDomain (domain : Text) : Text :=
  (stripEnd dotChar (if text "*." <+: domain then domain.drop 2 else domain)).map asciiLower

def isSameOrSubdomain (domain suffix : Text) : Bool := domain == suffix || ('.' :: suffix).isSuffixOf domain

def behindDots : Text → List Text
  | [] => []
  | c :: rest => if c = '.' then rest :: behindDots rest else behindDots rest

def hasDirectBinding (directDomains : List Text) (domain : Text) : Bool :=
  (canonicalDnsDomain domain :: behindDots (canonicalDnsDomain domain)).any directDomains.contains

def serverAddress (ip : Text) (port : Nat) : Text := if port = 53 then ip else ip ++ '#' :: decimal port

def dnsmasqServerAddress (inet : Inet) (address : Text) : Except DnsError Text :=
  (parseDnsAddressStr inet address).map fun parsed => serverAddress parsed.ip parsed.port

def serverRow (domain address : Text) : Text := text "server=/" ++ domain ++ '/' :: address

end Domains

structure Generator where
  registry : DnsServerRegistry
  routeRules : List RouteRule
  dnsConfig : DnsConfig
  firefoxDohCanary : Option Bool := none
  -- the lines of a configured list, as the list streamer hands them to the parser
  lists : Text → Option (List Text)
  resolverType : ResolverType := .dnsmasqIpset
  hashVersion : Text
  ipv6Policy : ResolverIpv6Policy := {}
  trustedInterfaces : List Text := []

namespace Generator
variable (inet : Inet) (g : Generator)

def isSafeDnsmasqInterfaceSelector (selector : Text) : Bool :=
  let name := if selector.getLast? = some '*' then selector.dropLast else selector
  !selector.isEmpty && selector.length ≤ 16 && name.length ≠ 0 && name.length ≤ 15 && name ≠ text "." && name ≠ text ".." &&
    name.all fun c => asciiLetter c || isDigit c || c == '_' || c == '-' || c == '.' || c == '@'

def dnsmasqGenerator : Except DnsError Generator :=
  if g.trustedInterfaces.all isSafeDnsmasqInterfaceSelector then .ok { g with trustedInterfaces := textSet g.trustedInterfaces }
  else .error { message := "Invalid dnsmasq trusted interface selector" }

def keeneticStaticEntries : List KeeneticStaticDnsEntry := (g.registry.keeneticSnapshot.map (·.staticEntries)).getD []

def keeneticDnsUpstreams : List KeeneticDnsUpstreamEntry := (g.registry.keeneticSnapshot.map (·.upstreams)).getD []

def keeneticScopedDnsUpstreams : List KeeneticDnsScopedUpstreamEntry :=
  if g.registry.keeneticFallbackEnabled then (g.registry.keeneticSnapshot.map (·.scopedUpstreams)).getD [] else []

def canary : Bool := g.firefoxDohCanary.getD true

def preambleRecords : List Record :=
  [Record.version g.hashVersion,.firefoxDohCanary g.canary,.ipv6Enabled g.ipv6Policy.targetsEnabled,
    .filterAaaa g.ipv6Policy.suppressAaaa] ++
    (if g.ipv6Policy.suppressAaaa then [Record.filterRr] else []) ++ g.trustedInterfaces.map Record.trustedInterface

def resolverName : Text :=
  match g.resolverType with
  | .dnsmasqIpset => text "dnsmasq-ipset"
  | .dnsmasqNftset => text "dnsmasq-nftset"

def preambleLines : List Line :=
  [Line.comment (text "# Generated by keen-pbr (" ++ g.resolverName ++ text ") - do not edit manually"),.blank] ++
    g.trustedInterfaces.map (fun interface => Line.directive (text "interface=" ++ interface)) ++
    (if g.trustedInterfaces.isEmpty then [] else [Line.blank]) ++
    (if g.canary then [Line.directive (text "address=/use-application-dns.net/"),.blank] else []) ++
    (if g.ipv6Policy.suppressAaaa then [Line.directive (text "filter-AAAA"),.directive (text "filter-rr=64,65"),.blank] else [])

def preamble (out : Bool) : List Event := g.preambleRecords.map .record ++ write out g.preambleLines

def probeZone : Text := text "check.keen.pbr"

def probe (out : Bool) : Except DnsError (List Event) :=
  match g.dnsConfig.dnsTestServer with
  | none => .ok []
  | some server =>
    (parseDnsAddressStr inet server.listen.toList).map fun parsed =>
      .record (.probeServer parsed.ip parsed.port) ::
        write out [.directive (text "rebind-domain-ok=keen.pbr"),
          .directive (serverRow probeZone (parsed.ip ++ '#' :: decimal parsed.port)),.blank]

def staticEntries (out : Bool) : List Text → Bool → List KeeneticStaticDnsEntry → List Event
  | _, wroteHeader, [] => if wroteHeader then write out [.blank] else []
  | emitted, wroteHeader, entry :: rest =>
    let pattern := keeneticStaticDomainPattern entry.domain
    let key := pattern ++ '|' :: entry.address
    if emitted.contains key then staticEntries out emitted wroteHeader rest
    else
      .record (.keeneticStatic pattern entry.address) ::
        write out ((if wroteHeader then [] else [.comment (text "# Keenetic static DNS entries")]) ++
          [.directive (text "address=" ++ pattern ++ '/' :: entry.address)]) ++
        staticEntries out (key :: emitted) (wroteHeader || out) rest

def upstreamComment (upstream : KeeneticDnsUpstreamEntry) : Text :=
  text "# " ++ upstream.address ++ text " -> " ++ upstream.kind ++
    if upstream.target.isEmpty then [] else text " | " ++ upstream.target

def upstreamLines : List Line :=
  if g.keeneticDnsUpstreams.isEmpty then []
  else Line.comment (text "# Keenetic DNS is used:") :: g.keeneticDnsUpstreams.map
    (fun upstream => Line.comment (upstreamComment upstream)) ++ [Line.blank]

def directFallback (server : DnsServerConfig) : Bool :=
  server.detour.isNone && !(server.port == 53 && isLoopback server.resolvedIp) &&
    !(g.ipv6Policy.suppressAaaa && server.resolvedIp.contains ':')

def fallbackServer (out : Bool) (server : DnsServerConfig) (index : Nat) : List Event :=
  let row := text "server=" ++ serverAddress server.resolvedIp server.port
  [Event.record (.fallbackServer index server.resolvedIp server.port),.record (.directFallback index (g.directFallback server))] ++
    write out ((if g.directFallback server then [Line.comment (text "# keen-pbr direct-fallback " ++ row)] else []) ++ [Line.directive row])

def fallbacks (out : Bool) : List Event :=
  write out [.comment (text "# keen-pbr direct-fallback v1")] ++
    (g.registry.fallbackServers.zipIdx.flatMap fun (server,index) => g.fallbackServer out server index) ++
    (if (g.dnsConfig.fallback.getD []).isEmpty then [] else write out [.blank])

def pins : List (Text × List DnsServerConfig) :=
  (configuredServers g.dnsConfig).flatMap fun server =>
    (server.domains.getD []).map fun domain => (canonicalDnsDomain domain.toList,g.registry.getServers server.tag)

def directDomains : List Text := g.pins.map (·.1)

def directServerRecords : List Text :=
  textSet (g.pins.flatMap fun (bare,servers) => servers.map fun server => serverRow bare (serverAddress server.resolvedIp server.port))

def directs (out : Bool) : List Event :=
  let margin := fun line : Line => if g.directServerRecords.isEmpty then [] else write out [line]
  margin (.comment (text "# Direct domain DNS bindings")) ++
    (g.directServerRecords.flatMap fun row => .record (.directDomainServer row) :: write out [.directive row]) ++ margin .blank

def ipsetLists : List Text := ((g.routeRules.filter routeRuleEnabled).flatMap routeRuleLists).map String.toList

def dnsListRule (name : Text) :
    Option DnsRule := (enabledDnsRules g.dnsConfig).find? fun rule => (rule.list.map String.toList).contains name

def dnsLists : List Text := ((enabledDnsRules g.dnsConfig).flatMap (·.list)).map String.toList

def allLists : List Text := textSet (g.ipsetLists ++ g.dnsLists)

end Generator

section Batches

def batchSize : Nat := 50

def maxDnsmasqRowLength : Nat := 1024

def maxDomainNameLength : Nat := 255

structure BatchState where
  enabled : Bool
  lead : Text
  trail : Text
  count : Nat := 0
  domainPath : Text := []
  deriving DecidableEq, Repr

namespace BatchState
variable (batch : BatchState)

def row : Text := batch.lead ++ batch.domainPath ++ batch.trail

def flush : BatchState × List Line :=
  if !batch.enabled || batch.count = 0 then (batch,[])
  else ({ batch with domainPath := [], count := 0 },[.directive batch.row])

def long (path : Text) : Bool := batch.lead.length + path.length + batch.trail.length > maxDnsmasqRowLength

def push (domain : Text) : BatchState × List Line :=
  if !batch.enabled then (batch,[])
  else
    let next := batch.domainPath ++ '/' :: domain
    if batch.count ≥ batchSize || batch.long next then
      let flushed := batch.flush
      if batch.long ('/' :: domain) then flushed
      else ({ flushed.1 with domainPath := '/' :: domain, count := flushed.1.count + 1 },flushed.2)
    else ({ batch with domainPath := next, count := batch.count + 1 },[])

end BatchState

def ipsetNameV4 (list : Text) : Text := text "kpbr4d_" ++ list

def ipsetNameV6 (list : Text) : Text := text "kpbr6d_" ++ list

def ipsetBatch (enabled : Bool) (type : ResolverType) (ipv6 : Bool) (list : Text) : BatchState :=
  match type with
  | .dnsmasqIpset =>
    { enabled, lead := text "ipset="
      trail := '/' :: ipsetNameV4 list ++ if ipv6 then ',' :: ipsetNameV6 list else [] }
  | .dnsmasqNftset =>
    { enabled, lead := text "nftset="
      trail := text "/4#inet#KeenPbrTable#" ++ ipsetNameV4 list ++ if ipv6 then text ",6#inet#KeenPbrTable#" ++ ipsetNameV6 list else [] }

def rebindBatch (enabled : Bool) : BatchState := { enabled, lead := text "rebind-domain-ok=", trail := text "/" }

def serverBatch (enabled : Bool) (ip : Text) (port : Nat) : BatchState :=
  { enabled, lead := text "server=", trail := '/' :: serverAddress ip port }

structure Batches where
  ipset : BatchState
  rebind : BatchState
  servers : List BatchState
  deriving DecidableEq, Repr

def pushAll (domain : Text) : List BatchState → List BatchState × List Line
  | [] => ([],[])
  | batch :: rest =>
    let pushed := batch.push domain
    let others := pushAll domain rest
    (pushed.1 :: others.1,pushed.2 ++ others.2)

namespace Batches
variable (batches : Batches)

def pushIpset (domain : Text) : Batches × List Line :=
  let pushed := batches.ipset.push domain
  ({ batches with ipset := pushed.1 },pushed.2)

def pushRebind (domain : Text) : Batches × List Line :=
  let pushed := batches.rebind.push domain
  ({ batches with rebind := pushed.1 },pushed.2)

def pushServers (domain : Text) : Batches × List Line :=
  let pushed := pushAll domain batches.servers
  ({ batches with servers := pushed.1 },pushed.2)

def flush : List Line := batches.ipset.flush.2 ++ batches.rebind.flush.2 ++ batches.servers.flatMap fun batch => batch.flush.2

end Batches

end Batches

namespace Generator
variable (inet : Inet) (g : Generator)

structure ListPlan where
  name : Text
  needsIpset : Bool
  servers : List DnsServerConfig
  allowDomainRebinding : Bool

def listPlan (name : Text) : ListPlan where
  name := name
  needsIpset := g.ipsetLists.contains name
  servers := ((g.dnsListRule name).map fun rule => g.registry.getServers rule.server).getD []
  allowDomainRebinding := ((g.dnsListRule name).map fun rule => rule.allowDomainRebinding.getD false).getD false

def newBatches (out : Bool) (plan : ListPlan) : Batches where
  ipset := ipsetBatch (out && plan.needsIpset) g.resolverType g.ipv6Policy.targetsEnabled plan.name
  rebind := rebindBatch (out && plan.allowDomainRebinding)
  servers := plan.servers.map fun server => serverBatch out server.resolvedIp server.port

structure ListState where
  suppressed : List Bool
  wroteHeader : Bool
  batches : Batches

def suppress (suppressed : List Bool) (bare : Text) : List Bool :=
  suppressed.zipWith (fun old upstream => old || isSameOrSubdomain upstream.domain (canonicalDnsDomain bare)) g.keeneticScopedDnsUpstreams

def directlyBound (plan : ListPlan) (bare : Text) : Bool :=
  !plan.servers.isEmpty && !g.directDomains.isEmpty && hasDirectBinding g.directDomains bare

def entryRecords (plan : ListPlan) (bare : Text) : List Record :=
  (if plan.needsIpset then [Record.domainRoute plan.name bare] else []) ++
    (if plan.allowDomainRebinding then [Record.domainRebind plan.name bare] else []) ++
    if g.directlyBound plan bare then []
    else plan.servers.zipIdx.map fun (server,index) => Record.domainServer plan.name bare index server.resolvedIp server.port

def pushEntry (plan : ListPlan) (batches : Batches) (bare : Text) : Batches × List Line :=
  let routed := batches.pushIpset bare
  let rebound := routed.1.pushRebind bare
  let served := if g.directlyBound plan bare then (rebound.1,[]) else rebound.1.pushServers bare
  (served.1,routed.2 ++ rebound.2 ++ served.2)

def listHeader (plan : ListPlan) (wroteHeader : Bool) : List Line :=
  if wroteHeader then [] else [.comment (text "# List: " ++ plan.name)]

def visitEntry (out : Bool) (plan : ListPlan) (state : ListState) (entry : EntryType × Text) : ListState × List Event :=
  let bare := stripWildcard entry.2
  if entry.1 ≠ .domain || bare.isEmpty || bare.length > maxDomainNameLength then (state,[])
  else
    let suppressed := if plan.servers.isEmpty then state.suppressed else g.suppress state.suppressed bare
    let records := (g.entryRecords plan bare).map Event.record
    if !plan.needsIpset && !plan.allowDomainRebinding && plan.servers.isEmpty then ({ state with suppressed },records)
    else
      let pushed := g.pushEntry plan state.batches bare
      (⟨suppressed,state.wroteHeader || out,pushed.1⟩,records ++ write out (listHeader plan state.wroteHeader ++ pushed.2))

def visitEntries (out : Bool) (plan : ListPlan) : ListState → List (EntryType × Text) → ListState × List Event
  | state, [] => (state,[])
  | state, entry :: rest =>
    let visited := g.visitEntry out plan state entry
    let others := visitEntries out plan visited.1 rest
    (others.1,visited.2 ++ others.2)

def listSection (out : Bool) (suppressed : List Bool) (name : Text) : List Bool × List Event :=
  match g.lists name with
  | none => (suppressed,[])
  | some lines =>
    let plan := g.listPlan name
    let visited := g.visitEntries out plan ⟨suppressed,false,g.newBatches out plan⟩ (listEntries inet lines)
    (visited.1.suppressed,visited.2 ++ write out (visited.1.batches.flush ++ if visited.1.wroteHeader then [.blank] else []))

def listSections (out : Bool) : List Bool → List Text → List Bool × List Event
  | suppressed, [] => (suppressed,[])
  | suppressed, name :: rest =>
    let first := g.listSection inet out suppressed name
    let others := listSections out first.1 rest
    (others.1,first.2 ++ others.2)

def inheritedRows (out : Bool) : Bool → List ((KeeneticDnsScopedUpstreamEntry × Bool) × Nat) → Except DnsError (List Event)
  | wroteHeader, [] => .ok (if wroteHeader then write out [.blank] else [])
  | wroteHeader, ((_,true),_) :: rest => inheritedRows out wroteHeader rest
  | wroteHeader, ((upstream,false),index) :: rest =>
    match dnsmasqServerAddress inet upstream.address with
    | .error error => .error error
    | .ok address =>
      (inheritedRows out (wroteHeader || out) rest).map fun others =>
        .record (.keeneticScopedServer index upstream.domain address) ::
          write out ((if wroteHeader then [] else [.comment (text "# Keenetic domain-specific DNS policy")]) ++
            [.directive (serverRow upstream.domain address)]) ++ others

structure Written where
  body : List Event
  inherited : List Event
  deriving DecidableEq, Repr

def Written.events (written : Written) : List Event := written.body ++ written.inherited

def directlySuppressed : List Bool := g.keeneticScopedDnsUpstreams.map fun upstream => hasDirectBinding g.directDomains upstream.domain

def generateDirectives (out : Bool) : Except DnsError Written :=
  match g.probe inet out with
  | .error error => .error error
  | .ok probe =>
    let lists := g.listSections inet out g.directlySuppressed g.allLists
    (inheritedRows inet out false (g.keeneticScopedDnsUpstreams.zip lists.1).zipIdx).map fun inherited =>
      { body := g.preamble out ++ probe ++ staticEntries out [] false g.keeneticStaticEntries ++ write out g.upstreamLines ++
          g.fallbacks out ++ g.directs out ++ lists.2
        inherited }

def payload (records : List Record) : Text := records.flatMap fun record => record.line ++ ['\n']

variable (md5 : Text → Text)

def hashOf (written : Written) : Text := md5 (payload (recordsOf written.events))

def computeHash : Except DnsError Text := (g.generateDirectives inet false).map (hashOf md5)

def computeConfigHash : Except DnsError Text :=
  match dnsmasqGenerator { g with resolverType := .dnsmasqIpset } with
  | .error error => .error error
  | .ok generator => generator.computeHash inet md5

structure Generated where
  written : Written
  hash : Text
  txtRecord : Text
  deriving DecidableEq, Repr

def txtRecord (nowTs : Nat) (hash : Text) : Text := text "txt-record=config-hash.keen.pbr," ++ decimal nowTs ++ '|' :: hash

def generate (nowTs : Nat) : Except DnsError Generated :=
  match dnsmasqGenerator g with
  | .error error => .error error
  | .ok generator =>
    (generator.generateDirectives inet true).map fun written =>
      { written, hash := hashOf md5 written, txtRecord := txtRecord nowTs (hashOf md5 written) }

end Generator

end KeenPbr.Dnsmasq
