import KeenPbr.Document
import KeenPbr.ListParser
import KeenPbr.Tables

/-! dns/dns_server.cpp and dns/dns_router.cpp: the addresses of the configured DNS servers, and the
registry that names the servers of every tag. Addresses and domains are texts; tags are the strings of
the configuration. -/
namespace KeenPbr.Dns
open Documents Fields Tables

structure DnsError where
  message : String
  code : String := ""
  deriving DecidableEq, Repr

structure ParsedDnsAddress where
  ip : Text
  port : Nat := 53
  deriving DecidableEq, Repr

section Address
variable (inet : Inet) (address : Text)

def invalidAddress (what code : String) : DnsError :=
  { message := "Invalid DNS server address: '" ++ String.ofList address ++ "' (" ++ what ++ ")", code }

def parseDnsPortOrThrow (portText : Text) : Except DnsError Nat :=
  match fromCharsUnsigned portText with
  | none => .error (invalidAddress address "non-numeric port" "config.dns.port_number")
  | some port =>
    if port < 1 || port > 65535 then .error (invalidAddress address "port out of range 1-65535" "config.dns.port_range")
    else .ok port

def validOctet (part : Text) : Bool :=
  !(part.length > 1 && part.head? == some '0') && (fromCharsUnsigned part).any (· ≤ 255)

def isValidIpv4 (addr : Text) : Bool := (fields dotChar addr).length == 4 && (fields dotChar addr).all validOctet

def canonicalIpv6 (addr : Text) : Option Text :=
  if addr.isEmpty || addr.contains '%' then none
  else ((inet.pton afInet6 (cString addr)).bind (inet.ntop afInet6)).map String.toList

def splitAddress : Except DnsError (Text × Nat) :=
  match address with
  | [] => .error { message := "Invalid DNS server address: empty string", code := "config.value.required" }
  | '[' :: rest =>
    if !rest.contains ']' then .error (invalidAddress address "missing closing ']'" "config.dns.closing_bracket")
    else
      let ip := rest.takeWhile (· != ']')
      match rest.drop (ip.length + 1) with
      | [] => .ok (ip,53)
      | ':' :: port => (parseDnsPortOrThrow address port).map fun port => (ip,port)
      | _ :: _ => .error (invalidAddress address "expected ':' after ']'" "config.dns.port_separator")
  | _ =>
    if address.count ':' == 1 then
      let ip := address.takeWhile (· != ':')
      (parseDnsPortOrThrow address (address.drop (ip.length + 1))).map fun port => (ip,port)
    else .ok (address,53)

def parseDnsAddressStr : Except DnsError ParsedDnsAddress :=
  match splitAddress address with
  | .error error => .error error
  | .ok (ip,port) =>
    if isValidIpv4 ip then .ok ⟨ip,port⟩
    else
      match canonicalIpv6 inet ip with
      | some canonical => .ok ⟨canonical,port⟩
      | none => .error (invalidAddress address "not a valid IPv4 or IPv6 address" "config.dns.address")

end Address

structure DnsServerConfig where
  tag : String
  address : Text
  detour : Option String
  resolvedIp : Text
  port : Nat
  deriving DecidableEq, Repr

def parseDnsServer (inet : Inet) (tag : String) (address : Text) (detour : Option String) : Except DnsError DnsServerConfig :=
  (parseDnsAddressStr inet address).map fun parsed => ⟨tag,address,detour,parsed.ip,parsed.port⟩

/- dns/keenetic_dns.hpp: what one reading of the built-in DNS proxy tells. -/

structure KeeneticStaticDnsEntry where
  domain : Text
  address : Text
  deriving DecidableEq, Repr

structure KeeneticDnsUpstreamEntry where
  address : Text
  kind : Text
  target : Text
  deriving DecidableEq, Repr

structure KeeneticDnsScopedUpstreamEntry where
  domain : Text
  address : Text
  kind : Text
  target : Text
  deriving DecidableEq, Repr

structure KeeneticDnsSnapshot where
  addresses : List Text
  upstreams : List KeeneticDnsUpstreamEntry := []
  scopedUpstreams : List KeeneticDnsScopedUpstreamEntry := []
  staticEntries : List KeeneticStaticDnsEntry := []
  deriving DecidableEq, Repr

def isLoopback (address : Text) : Bool := (text "127.").isPrefixOf address || address == text "::1"

def appendUniqueEndpoint (endpoints : List DnsServerConfig) (endpoint : DnsServerConfig) : List DnsServerConfig :=
  if endpoints.any fun existing => existing.resolvedIp == endpoint.resolvedIp && existing.port == endpoint.port then endpoints
  else endpoints ++ [endpoint]

structure DnsServerRegistry where
  servers : Table String (List DnsServerConfig) := []
  detourServers : Table String (List DnsServerConfig) := []
  fallbackTags : List String := []
  keeneticSnapshot : Option KeeneticDnsSnapshot := none
  keeneticFallbackEnabled : Bool := false
  deriving DecidableEq, Repr

namespace DnsServerRegistry
variable (inet : Inet) (registry : DnsServerRegistry)

def serversOf (table : Table String (List DnsServerConfig)) (tag : String) : List DnsServerConfig := (find table tag).getD []

def pushServer (tag : String) (resolved : DnsServerConfig) : DnsServerRegistry :=
  { registry with servers := put registry.servers tag (serversOf registry.servers tag ++ [resolved]) }

def pushDetour (tag : String) (resolved : DnsServerConfig) : DnsServerRegistry :=
  { registry with
    detourServers := put registry.detourServers tag (appendUniqueEndpoint (serversOf registry.detourServers tag) resolved) }

def addKeeneticAddresses (server : DnsServer) : DnsServerRegistry → List Text → Except DnsError DnsServerRegistry
  | registry, [] => .ok registry
  | registry, address :: rest =>
    match parseDnsServer inet server.tag address server.detour with
    | .error error => .error error
    | .ok resolved =>
      let pushed := pushServer registry server.tag resolved
      addKeeneticAddresses server
        (if server.detour.isSome && !isLoopback resolved.resolvedIp then pushDetour pushed server.tag resolved else pushed) rest

def addScopedDetours (server : DnsServer) : DnsServerRegistry → List KeeneticDnsScopedUpstreamEntry → Except DnsError DnsServerRegistry
  | registry, [] => .ok registry
  | registry, upstream :: rest =>
    match parseDnsServer inet server.tag upstream.address server.detour with
    | .error error => .error error
    | .ok resolved =>
      addScopedDetours server (if isLoopback resolved.resolvedIp then registry else pushDetour registry server.tag resolved) rest

def addServer (snapshot : Option KeeneticDnsSnapshot) (server : DnsServer) : Except DnsError DnsServerRegistry :=
  match server.kind with
  | .keenetic =>
    match snapshot with
    | none => .error { message := "DNS server '" ++ server.tag ++ "' requires a prepared Keenetic DNS snapshot" }
    | some snapshot =>
      if snapshot.addresses.isEmpty then
        .error { message := "DNS server '" ++ server.tag ++ "' received a Keenetic DNS snapshot without upstream addresses" }
      else
        match addKeeneticAddresses inet server { registry with keeneticSnapshot := some snapshot } snapshot.addresses with
        | .error error => .error error
        | .ok added =>
          if registry.fallbackTags.contains server.tag && server.detour.isSome then
            addScopedDetours inet server added snapshot.scopedUpstreams
          else .ok added
  | .static =>
    match server.address with
    | none => .error { message := "DNS server '" ++ server.tag ++ "' is missing address" }
    | some address =>
      match parseDnsServer inet server.tag address.toList server.detour with
      | .error error => .error error
      | .ok resolved =>
        let pushed := pushServer registry server.tag resolved
        .ok (if server.detour.isSome then pushDetour pushed server.tag resolved else pushed)

def addServers (snapshot : Option KeeneticDnsSnapshot) : DnsServerRegistry → List DnsServer → Except DnsError DnsServerRegistry
  | registry, [] => .ok registry
  | registry, server :: rest =>
    match addServer inet registry snapshot server with
    | .error error => .error error
    | .ok added => addServers snapshot added rest

def getServers (tag : String) : List DnsServerConfig := serversOf registry.servers tag

def fallbackServers : List DnsServerConfig := registry.fallbackTags.flatMap registry.getServers

end DnsServerRegistry

def dnsRuleEnabled (rule : DnsRule) : Bool := rule.enabled.getD true

def configuredServers (config : DnsConfig) : List DnsServer := config.servers.getD []

def enabledDnsRules (config : DnsConfig) : List DnsRule := (config.rules.getD []).filter dnsRuleEnabled

def dnsServerRegistry (inet : Inet) (config : DnsConfig) (snapshot : Option KeeneticDnsSnapshot) : Except DnsError DnsServerRegistry :=
  let fallbackTags := config.fallback.getD []
  match DnsServerRegistry.addServers inet snapshot { fallbackTags } (configuredServers config) with
  | .error error => .error error
  | .ok registry =>
    let keeneticTags := ((configuredServers config).filter fun server => server.kind == .keenetic).map (·.tag)
    match fallbackTags.find? fun tag => (find registry.servers tag).isNone with
    | some tag => .error { message := "DNS fallback server tag not found: '" ++ tag ++ "'" }
    | none =>
      match (enabledDnsRules config).find? fun rule => (find registry.servers rule.server).isNone with
      | some rule => .error { message := "DNS rule references unknown server tag: '" ++ rule.server ++ "'" }
      | none => .ok { registry with keeneticFallbackEnabled := fallbackTags.any keeneticTags.contains }

section Guarantees
variable {inet : Inet}

theorem octetChars {part : Text} (valid : validOctet part = true) : ∀ c ∈ part, addressChar c = true := by
  intro c mem
  rw [validOctet,Bool.and_eq_true] at valid
  have digits : part.all isDigit = true := by
    by_contra odd
    have unread : fromCharsUnsigned part = none := by
      rw [fromCharsUnsigned,Bool.eq_false_iff.mpr odd]
      simp
    rw [unread] at valid
    cases valid.2
  have digit := List.all_eq_true.mp digits c mem
  rw [isDigit] at digit
  rw [addressChar,isHex,hexDigit,if_pos digit]
  rfl

theorem ipv4Chars {ip : Text} (valid : isValidIpv4 ip = true) : ∀ c ∈ ip, addressChar c = true := by
  intro c mem
  rw [isValidIpv4,Bool.and_eq_true] at valid
  rcases memFields dotChar mem with dot | ⟨part,listed,inside⟩
  · rw [dotChar,beq_iff_eq] at dot
    rw [dot]
    rfl
  · exact octetChars (List.all_eq_true.mp valid.2 part listed) c inside

theorem parsedChars (spelled : inet.Spelled) {address : Text} {parsed : ParsedDnsAddress}
    (read : parseDnsAddressStr inet address = .ok parsed) :
    ∀ c ∈ parsed.ip, addressChar c = true := by
  rw [parseDnsAddressStr] at read
  split at read
  · cases read
  · split at read
    · rename_i valid
      cases read
      exact ipv4Chars valid
    · split at read
      · rename_i canonical found
        cases read
        rw [canonicalIpv6] at found
        split at found
        · cases found
        · obtain ⟨text,written,rfl⟩ := Option.map_eq_some_iff.mp found
          obtain ⟨bytes,taken,shown⟩ := Option.bind_eq_some_iff.mp written
          have width : 8 * bytes.length = addressWidth true := by
            rw [(spelled.documented.v6 _ _ taken).1]
            rfl
          exact addressChars spelled (spelled.back true bytes text width shown)
      · cases read

namespace DnsServerRegistry
variable {registry : DnsServerRegistry} {tag : String} {resolved : DnsServerConfig}

structure Served (registry : DnsServerRegistry) : Prop where
  filled : ∀ tag servers, find registry.servers tag = some servers → servers ≠ []
  spelled : ∀ tag servers, find registry.servers tag = some servers → ∀ server ∈ servers, ∀ c ∈ server.resolvedIp, addressChar c = true

structure Grown (old grown : DnsServerRegistry) : Prop where
  served : Served old → Served grown
  known : ∀ tag, (find old.servers tag).isSome = true → (find grown.servers tag).isSome = true

theorem Grown.same {grown : DnsServerRegistry} (same : grown.servers = registry.servers) : Grown registry grown where
  served served := ⟨by rw [same]; exact served.filled,by rw [same]; exact served.spelled⟩
  known _ known := by
    rw [same]
    exact known

theorem Grown.trans {first second third : DnsServerRegistry} (left : Grown first second) (right : Grown second third) : Grown first third :=
  ⟨fun served => right.served (left.served served),fun tag known => right.known tag (left.known tag known)⟩

theorem pushGrows (chars : ∀ c ∈ resolved.resolvedIp, addressChar c = true) : Grown registry (pushServer registry tag resolved) := by
  refine ⟨fun served => ⟨?_,?_⟩,fun other known => ?_⟩
  · intro other servers found
    rw [pushServer] at found
    simp only [findPut] at found
    split at found
    · cases found
      exact List.append_ne_nil_of_right_ne_nil _ (List.cons_ne_nil _ _)
    · exact served.filled other servers found
  · intro other servers found server mem
    rw [pushServer] at found
    simp only [findPut] at found
    split at found
    · cases found
      rcases List.mem_append.mp mem with old | new
      · rw [serversOf] at old
        cases before : find registry.servers tag with
        | none =>
          rw [before] at old
          cases old
        | some listed =>
          rw [before] at old
          exact served.spelled tag listed before server old
      · cases List.mem_singleton.mp new
        exact chars
    · exact served.spelled other servers found server mem
  · rw [pushServer]
    simp only [findPut]
    split
    · rfl
    · exact known

theorem pushKnown : (find (pushServer registry tag resolved).servers tag).isSome = true := by
  rw [pushServer]
  simp only [findPut,if_true]
  rfl

theorem parsedServer (spelled : inet.Spelled) {address : Text} {detour : Option String}
    (read : parseDnsServer inet tag address detour = .ok resolved) :
    ∀ c ∈ resolved.resolvedIp, addressChar c = true := by
  rw [parseDnsServer] at read
  cases parsed : parseDnsAddressStr inet address with
  | error error =>
    rw [parsed] at read
    cases read
  | ok inner =>
    rw [parsed] at read
    cases read
    exact parsedChars spelled parsed

theorem addressesGrow (spelled : inet.Spelled) {server : DnsServer} {addresses : List Text} {grown : DnsServerRegistry}
    (run : addKeeneticAddresses inet server registry addresses = .ok grown) :
    Grown registry grown ∧ (addresses ≠ [] → (find grown.servers server.tag).isSome = true) := by
  induction addresses generalizing registry with
  | nil =>
    cases run
    exact ⟨.same rfl,fun none => absurd rfl none⟩
  | cons address rest ih =>
    rw [addKeeneticAddresses] at run
    split at run
    · cases run
    · rename_i resolved read
      simp only [] at run
      have pushed : Grown registry (pushServer registry server.tag resolved) := pushGrows (parsedServer spelled read)
      split at run
      · have later := (ih run).1
        have aside : Grown (pushServer registry server.tag resolved)
          (pushDetour (pushServer registry server.tag resolved) server.tag resolved) :=
          .same rfl
        have whole := aside.trans later
        exact ⟨pushed.trans whole,fun _ => whole.known _ pushKnown⟩
      · have later := (ih run).1
        exact ⟨pushed.trans later,fun _ => later.known _ pushKnown⟩

theorem scopedGrow {server : DnsServer} {upstreams : List KeeneticDnsScopedUpstreamEntry} {grown : DnsServerRegistry}
    (run : addScopedDetours inet server registry upstreams = .ok grown) : Grown registry grown := by
  induction upstreams generalizing registry with
  | nil =>
    cases run
    exact .same rfl
  | cons upstream rest ih =>
    rw [addScopedDetours] at run
    split at run
    · cases run
    · refine Grown.trans (.same ?_) (ih run)
      split <;> rfl

theorem serverGrows (spelled : inet.Spelled) {server : DnsServer} {snapshot : Option KeeneticDnsSnapshot} {grown : DnsServerRegistry}
    (run : addServer inet registry snapshot server = .ok grown) : Grown registry grown ∧ (find grown.servers server.tag).isSome = true := by
  unfold addServer at run
  split at run
  · split at run
    · cases run
    · split at run
      · cases run
      · rename_i snapshot filled
        have some := fun none => filled (List.isEmpty_iff.mpr none)
        split at run
        · cases run
        · rename_i added ran
          obtain ⟨grew,known⟩ := addressesGrow spelled ran
          have kept : Grown registry { registry with keeneticSnapshot := Option.some snapshot } := .same rfl
          have first := kept.trans grew
          split at run
          · have later := scopedGrow run
            exact ⟨first.trans later,later.known _ (known some)⟩
          · cases run
            exact ⟨first,known some⟩
  · split at run
    · cases run
    · split at run
      · cases run
      · rename_i resolved read
        cases run
        have pushed : Grown registry (pushServer registry server.tag resolved) := pushGrows (parsedServer spelled read)
        split
        · exact ⟨pushed.trans (.same rfl),pushKnown⟩
        · exact ⟨pushed,pushKnown⟩

theorem serversGrow (spelled : inet.Spelled) {servers : List DnsServer} {snapshot : Option KeeneticDnsSnapshot} {grown : DnsServerRegistry}
    (run : addServers inet snapshot registry servers = .ok grown) :
    Grown registry grown ∧ ∀ server ∈ servers, (find grown.servers server.tag).isSome = true := by
  induction servers generalizing registry with
  | nil =>
    cases run
    exact ⟨.same rfl,fun _ mem => by cases mem⟩
  | cons server rest ih =>
    rw [addServers] at run
    split at run
    · cases run
    · rename_i added ran
      obtain ⟨first,known⟩ := serverGrows spelled ran
      obtain ⟨later,others⟩ := ih run
      refine ⟨first.trans later,fun other mem => ?_⟩
      rcases List.mem_cons.mp mem with rfl | inside
      · exact later.known _ known
      · exact others other inside

end DnsServerRegistry

/- What a registry promises: servers for every configured tag and every rule that is on, each with an address that was read. -/
structure RegistryServes (config : DnsConfig) (registry : DnsServerRegistry) : Prop where
  configured : ∀ server ∈ configuredServers config, registry.getServers server.tag ≠ []
  ruled : ∀ rule ∈ enabledDnsRules config, registry.getServers rule.server ≠ []
  spelled : ∀ tag, ∀ server ∈ registry.getServers tag, ∀ c ∈ server.resolvedIp, addressChar c = true

theorem registryServes (spelled : inet.Spelled) {config : DnsConfig} {snapshot : Option KeeneticDnsSnapshot} {registry : DnsServerRegistry}
    (made : dnsServerRegistry inet config snapshot = .ok registry) : RegistryServes config registry := by
  rw [dnsServerRegistry] at made
  simp only [] at made
  split at made
  · cases made
  · rename_i grown ran
    obtain ⟨growth,known⟩ := DnsServerRegistry.serversGrow spelled ran
    have served : DnsServerRegistry.Served grown := growth.served
      ⟨(fun _ _ found => by cases found),fun _ _ found => by cases found⟩
    have filled (tag : String) (there : (find grown.servers tag).isSome = true) : DnsServerRegistry.serversOf grown.servers tag ≠ [] := by
      obtain ⟨servers,found⟩ := Option.isSome_iff_exists.mp there
      rw [DnsServerRegistry.serversOf,found]
      exact served.filled tag servers found
    split at made
    · cases made
    · split at made
      · cases made
      · rename_i ruled
        cases made
        refine ⟨fun server mem => filled _ (known server mem),fun rule mem => filled _ ?_,fun tag server mem => ?_⟩
        · have checked := List.find?_eq_none.mp ruled rule mem
          rw [Option.isNone_iff_eq_none] at checked
          exact Option.isSome_iff_ne_none.mpr checked
        · change server ∈ DnsServerRegistry.serversOf grown.servers tag at mem
          rw [DnsServerRegistry.serversOf] at mem
          cases found : find grown.servers tag with
          | none =>
            rw [found] at mem
            cases mem
          | some servers =>
            rw [found] at mem
            exact served.spelled tag servers found server mem

end Guarantees

end KeenPbr.Dns
