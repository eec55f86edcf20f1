import KeenPbr.DnsmasqGen
import Mathlib.Data.List.Dedup

/-! The hash of the resolver configuration covers it: the records do not depend on the output stream or
on the kind of sets, and each part of the file can be told from the records of that part. -/
namespace KeenPbr.Dnsmasq
open Dns Documents Fields

theorem mapOk {ε α β : Type} {result : Except ε α} {f : α → β} {value : β} (run : result.map f = .ok value) :
    ∃ inner, result = .ok inner ∧ f inner = value := by
  cases result with
  | error error => cases run
  | ok inner => exact ⟨inner,rfl,Except.ok.inj run⟩

section Events
variable {events more : List Event}

def directivesIn (lines : List Line) : List Text :=
  lines.filterMap fun
    | .directive text => some text
    | _ => none

theorem recordsAppend : recordsOf (events ++ more) = recordsOf events ++ recordsOf more := List.filterMap_append

theorem directivesAppend : directivesOf (events ++ more) = directivesOf events ++ directivesOf more := List.filterMap_append

theorem directivesInAppend (lines more : List Line) : directivesIn (lines ++ more) = directivesIn lines ++ directivesIn more :=
  List.filterMap_append

theorem recordsRecord (record : Record) : recordsOf (.record record :: events) = record :: recordsOf events := rfl

theorem directivesRecord (record : Record) : directivesOf (.record record :: events) = directivesOf events := rfl

theorem recordsWrite (out : Bool) (lines : List Line) : recordsOf (write out lines) = [] := by
  cases out with
  | false => rfl
  | true =>
    refine List.filterMap_eq_nil_iff.mpr ?_
    intro event mem
    obtain ⟨line,_,rfl⟩ := List.mem_map.mp mem
    rfl

theorem directivesWrite (lines : List Line) : directivesOf (write true lines) = directivesIn lines := by
  rw [write,if_pos rfl,directivesOf,directivesIn,List.filterMap_map]
  refine List.filterMap_congr fun line _ => ?_
  cases line <;> rfl

theorem recordsMap (records : List Record) : recordsOf (records.map .record) = records := by
  rw [recordsOf,List.filterMap_map]
  exact List.filterMap_some

theorem directivesMap (records : List Record) : directivesOf (records.map .record) = [] := by
  rw [directivesOf,List.filterMap_map]
  exact List.filterMap_eq_nil_iff.mpr fun _ _ => rfl

theorem recordsFlat {α : Type} (list : List α) (f : α → List Event) :
    recordsOf (list.flatMap f) = list.flatMap fun a => recordsOf (f a) := by
  induction list with
  | nil => rfl
  | cons a rest ih => rw [List.flatMap_cons,recordsAppend,ih,List.flatMap_cons]

theorem directivesFlat {α : Type} (list : List α) (f : α → List Event) :
    directivesOf (list.flatMap f) = list.flatMap fun a => directivesOf (f a) := by
  induction list with
  | nil => rfl
  | cons a rest ih => rw [List.flatMap_cons,directivesAppend,ih,List.flatMap_cons]

end Events

/- A sequence in blocks, each under a key of its own: the sequence tells the blocks. -/
section Keyed
variable {α κ : Type} (key : α → κ)

structure Keyed (names : List κ) (block : κ → List α) : Prop where
  nodup : names.Nodup
  own : ∀ name ∈ names, ∀ a ∈ block name, key a = name

variable {key} {names others : List κ} {block other : κ → List α} {name : κ}

theorem Keyed.rest (keyed : Keyed key (name :: names) block) : Keyed key names block :=
  ⟨(List.nodup_cons.mp keyed.nodup).2,fun next mem => keyed.own next (List.mem_cons_of_mem _ mem)⟩

theorem Keyed.apart (keyed : Keyed key (name :: names) block) : ∀ a ∈ names.flatMap block, key a ≠ name := by
  intro a mem same
  obtain ⟨next,listed,inside⟩ := List.mem_flatMap.mp mem
  have own := keyed.own next (List.mem_cons_of_mem _ listed) a inside
  exact (List.nodup_cons.mp keyed.nodup).1 (by rw [← same,own]; exact listed)

theorem Keyed.front [DecidableEq κ] (keyed : Keyed key (name :: names) block) :
    (block name ++ names.flatMap block).takeWhile (fun a => key a = name) = block name := by
  rw [List.takeWhile_append_of_pos fun a mem => decide_eq_true (keyed.own name List.mem_cons_self a mem)]
  have stop : (names.flatMap block).takeWhile (fun a => key a = name) = [] := by
    cases shape : names.flatMap block with
    | nil => rfl
    | cons a later =>
      have differs := keyed.apart a (by rw [shape]; exact List.mem_cons_self)
      rw [List.takeWhile_cons_of_neg (by simpa using differs)]
  rw [stop,List.append_nil]

theorem Keyed.determined [DecidableEq κ] {β : Type} (read : κ → List α → List β) (readNil : ∀ name, read name [] = [])
    (left : Keyed key names block) (right : Keyed key others other) (same : names.flatMap block = others.flatMap other) :
    names.flatMap (fun name => read name (block name)) = others.flatMap fun name => read name (other name) := by
  induction names generalizing others with
  | nil =>
    have empty := List.flatMap_eq_nil_iff.mp same.symm
    refine (List.flatMap_eq_nil_iff.mpr fun name mem => ?_).symm
    rw [empty name mem,readNil]
  | cons name rest ih =>
    rw [List.flatMap_cons] at same ⊢
    cases front : block name with
    | nil =>
      rw [front,List.nil_append] at same
      rw [readNil,List.nil_append]
      exact ih left.rest right same
    | cons a later =>
      -- the first block on the right that holds anything starts with the same element
      induction others with
      | nil =>
        rw [front] at same
        cases same
      | cons next more skip =>
        rw [List.flatMap_cons] at same ⊢
        cases behind : other next with
        | nil =>
          rw [behind,List.nil_append] at same
          rw [readNil,List.nil_append]
          exact skip right.rest same
        | cons b ending =>
          have heads : a = b := by
            rw [front,behind] at same
            exact (List.cons.inj same).1
          have keys : name = next := by
            rw [← left.own name List.mem_cons_self a (by rw [front]; exact List.mem_cons_self),heads]
            exact right.own next List.mem_cons_self b (by rw [behind]; exact List.mem_cons_self)
          subst keys
          have blocks : block name = other name := by
            rw [← left.front,same,right.front]
          rw [blocks] at same front
          rw [← front,← behind,ih left.rest right.rest (List.append_cancel_left same)]

end Keyed

namespace Generator
variable {inet : Inet} {g : Generator} {plan : ListPlan}

inductive Part where
  | preamble
  | probe
  | statics
  | fallbacks
  | directs
  | lists
  | inherited
  deriving DecidableEq

def part : Record → Part
  | .version _ | .firefoxDohCanary _ | .ipv6Enabled _ | .filterAaaa _ | .filterRr | .trustedInterface _ => .preamble
  | .probeServer _ _ => .probe
  | .keeneticStatic _ _ => .statics
  | .fallbackServer _ _ _ | .directFallback _ _ => .fallbacks
  | .directDomainServer _ => .directs
  | .domainRoute _ _ | .domainRebind _ _ | .domainServer _ _ _ _ _ => .lists
  | .keeneticScopedServer _ _ _ => .inherited

def bareOf (entry : EntryType × Text) : Option Text :=
  let bare := stripWildcard entry.2
  if entry.1 ≠ .domain || bare.isEmpty || bare.length > maxDomainNameLength then none else some bare

def bares (inet : Inet) (lines : List Text) : List Text := (listEntries inet lines).filterMap bareOf

section Records

def staticRecords : List Text → List KeeneticStaticDnsEntry → List Record
  | _, [] => []
  | emitted, entry :: rest =>
    let pattern := keeneticStaticDomainPattern entry.domain
    let key := pattern ++ '|' :: entry.address
    if emitted.contains key then staticRecords emitted rest
    else .keeneticStatic pattern entry.address :: staticRecords (key :: emitted) rest

theorem staticRecordsOf (out : Bool) (emitted : List Text) (wroteHeader : Bool) (entries : List KeeneticStaticDnsEntry) :
    recordsOf (staticEntries out emitted wroteHeader entries) = staticRecords emitted entries := by
  induction entries generalizing emitted wroteHeader with
  | nil =>
    rw [staticEntries,staticRecords]
    split
    · exact recordsWrite _ _
    · rfl
  | cons entry rest ih =>
    rw [staticEntries,staticRecords]
    split
    · exact ih _ _
    · rw [List.cons_append,recordsRecord,recordsAppend,recordsWrite,ih,List.nil_append]

def probeRecords (inet : Inet) (g : Generator) : Except DnsError (List Record) :=
  match g.dnsConfig.dnsTestServer with
  | none => .ok []
  | some server => (parseDnsAddressStr inet server.listen.toList).map fun parsed => [.probeServer parsed.ip parsed.port]

theorem probeRecordsOf (out : Bool) : (g.probe inet out).map recordsOf = probeRecords inet g := by
  rw [probe,probeRecords]
  cases g.dnsConfig.dnsTestServer with
  | none => rfl
  | some server =>
    cases read : parseDnsAddressStr inet server.listen.toList with
    | error error =>
      simp only [read]
      rfl
    | ok parsed =>
      simp only [read,Except.map]
      rw [recordsRecord,recordsWrite]

def fallbackRecords (g : Generator) : List Record :=
  g.registry.fallbackServers.zipIdx.flatMap fun (server,index) =>
    [.fallbackServer index server.resolvedIp server.port,.directFallback index (g.directFallback server)]

theorem fallbackRecordsOf (out : Bool) : recordsOf (g.fallbacks out) = g.fallbackRecords := by
  have margin : recordsOf (if (g.dnsConfig.fallback.getD []).isEmpty then [] else write out [.blank]) = [] := by
    split
    · rfl
    · exact recordsWrite _ _
  rw [fallbacks,recordsAppend,recordsAppend,recordsWrite,margin,List.nil_append,List.append_nil,recordsFlat,fallbackRecords]
  refine List.flatMap_congr fun entry mem => ?_
  obtain ⟨server,index⟩ := entry
  change recordsOf (g.fallbackServer out server index) = _
  rw [fallbackServer,recordsAppend,recordsWrite]
  rfl

theorem directRecordsOf (out : Bool) : recordsOf (g.directs out) = g.directServerRecords.map .directDomainServer := by
  have margin (line : Line) : recordsOf (if g.directServerRecords.isEmpty then [] else write out [line]) = [] := by
    split
    · rfl
    · exact recordsWrite _ _
  rw [directs]
  simp only []
  rw [recordsAppend,recordsAppend,margin,margin,List.nil_append,List.append_nil,recordsFlat,List.map_eq_flatMap]
  refine List.flatMap_congr fun row mem => ?_
  rw [recordsRecord,recordsWrite]

theorem visitSkips {out : Bool} {state : ListState} {entry : EntryType × Text} (skipped : bareOf entry = none) :
    g.visitEntry out plan state entry = (state,[]) := by
  rw [bareOf] at skipped
  rw [visitEntry]
  split
  · rfl
  · rename_i taken
    rw [if_neg taken] at skipped
    cases skipped

theorem visitTakes {out : Bool} {state : ListState} {entry : EntryType × Text} {bare : Text} (taken : bareOf entry = some bare) :
    g.visitEntry out plan state entry =
      let suppressed := if plan.servers.isEmpty then state.suppressed else g.suppress state.suppressed bare
      let records := (g.entryRecords plan bare).map Event.record
      if !plan.needsIpset && !plan.allowDomainRebinding && plan.servers.isEmpty then ({ state with suppressed },records)
      else
        let pushed := g.pushEntry plan state.batches bare
        (⟨suppressed,state.wroteHeader || out,pushed.1⟩,records ++ write out (listHeader plan state.wroteHeader ++ pushed.2)) := by
  rw [bareOf] at taken
  rw [visitEntry]
  split
  · rename_i skipped
    rw [if_pos skipped] at taken
    cases taken
  · rename_i valid
    rw [if_neg valid] at taken
    cases taken
    rfl

theorem visitRecords (out : Bool) (state : ListState) (entries : List (EntryType × Text)) :
    recordsOf (g.visitEntries out plan state entries).2 = (entries.filterMap bareOf).flatMap (g.entryRecords plan) := by
  induction entries generalizing state with
  | nil => rfl
  | cons entry rest ih =>
    rw [visitEntries]
    simp only []
    rw [recordsAppend,ih,List.filterMap_cons]
    cases taken : bareOf entry with
    | none =>
      rw [visitSkips taken]
      rfl
    | some bare =>
      rw [visitTakes taken,List.flatMap_cons]
      congr 1
      simp only []
      split
      · exact recordsMap _
      · rw [recordsAppend,recordsMap,recordsWrite,List.append_nil]

theorem visitSuppressed (out : Bool) (state : ListState) (entries : List (EntryType × Text)) :
    (g.visitEntries out plan state entries).1.suppressed =
      if plan.servers.isEmpty then state.suppressed else (entries.filterMap bareOf).foldl g.suppress state.suppressed := by
  induction entries generalizing state with
  | nil => exact (ite_self _).symm
  | cons entry rest ih =>
    rw [visitEntries]
    simp only []
    rw [ih,List.filterMap_cons]
    cases taken : bareOf entry with
    | none => rw [visitSkips taken]
    | some bare =>
      have next : (g.visitEntry out plan state entry).1.suppressed =
          if plan.servers.isEmpty then state.suppressed else g.suppress state.suppressed bare := by
        rw [visitTakes taken]
        simp only []
        split <;> rfl
      rw [next]
      cases plan.servers.isEmpty <;> rfl

def listRecords (inet : Inet) (g : Generator) (name : Text) : List Record :=
  match g.lists name with
  | none => []
  | some lines => (bares inet lines).flatMap (g.entryRecords (g.listPlan name))

def listSuppressed (inet : Inet) (g : Generator) (suppressed : List Bool) (name : Text) : List Bool :=
  match g.lists name with
  | none => suppressed
  | some lines => if (g.listPlan name).servers.isEmpty then suppressed else (bares inet lines).foldl g.suppress suppressed

theorem sectionRecords (out : Bool) (suppressed : List Bool) (name : Text) :
    recordsOf (g.listSection inet out suppressed name).2 = listRecords inet g name ∧
      (g.listSection inet out suppressed name).1 = listSuppressed inet g suppressed name := by
  rw [listSection,listRecords,listSuppressed]
  cases g.lists name with
  | none => exact ⟨rfl,rfl⟩
  | some lines =>
    simp only []
    rw [recordsAppend,recordsWrite,visitRecords,visitSuppressed,List.append_nil]
    exact ⟨rfl,rfl⟩

theorem sectionsRecords (out : Bool) (suppressed : List Bool) (names : List Text) :
    recordsOf (g.listSections inet out suppressed names).2 = names.flatMap (listRecords inet g) ∧
      (g.listSections inet out suppressed names).1 = names.foldl (listSuppressed inet g) suppressed := by
  induction names generalizing suppressed with
  | nil => exact ⟨rfl,rfl⟩
  | cons name rest ih =>
    rw [listSections]
    simp only []
    rw [recordsAppend,(sectionRecords out suppressed name).1,(sectionRecords out suppressed name).2,(ih _).1,(ih _).2]
    exact ⟨rfl,rfl⟩

def inheritedRecords (inet : Inet) : List ((KeeneticDnsScopedUpstreamEntry × Bool) × Nat) → Except DnsError (List Record)
  | [] => .ok []
  | ((_,true),_) :: rest => inheritedRecords inet rest
  | ((upstream,false),index) :: rest =>
    match dnsmasqServerAddress inet upstream.address with
    | .error error => .error error
    | .ok address => (inheritedRecords inet rest).map fun others => .keeneticScopedServer index upstream.domain address :: others

theorem inheritedRecordsOf (out wroteHeader : Bool) (rows : List ((KeeneticDnsScopedUpstreamEntry × Bool) × Nat)) :
    (inheritedRows inet out wroteHeader rows).map recordsOf = inheritedRecords inet rows := by
  induction rows generalizing wroteHeader with
  | nil =>
    rw [inheritedRows,inheritedRecords]
    split
    · exact congrArg Except.ok (recordsWrite _ _)
    · rfl
  | cons row rest ih =>
    obtain ⟨⟨upstream,marked⟩,index⟩ := row
    cases marked with
    | true =>
      rw [inheritedRows,inheritedRecords]
      exact ih wroteHeader
    | false =>
      rw [inheritedRows,inheritedRecords]
      cases dnsmasqServerAddress inet upstream.address with
      | error error => rfl
      | ok address =>
        simp only []
        rw [← ih (wroteHeader || out)]
        cases inheritedRows inet out (wroteHeader || out) rest with
        | error error => rfl
        | ok others =>
          refine congrArg Except.ok ?_
          change recordsOf (_ :: _ ++ others) = _
          rw [List.cons_append,recordsRecord,recordsAppend,recordsWrite,List.nil_append]

def suppressedRows (inet : Inet) (g : Generator) : List Bool := g.allLists.foldl (listSuppressed inet g) g.directlySuppressed

def hashRecords (inet : Inet) (g : Generator) : Except DnsError (List Record) :=
  match probeRecords inet g with
  | .error error => .error error
  | .ok probe =>
    (inheritedRecords inet (g.keeneticScopedDnsUpstreams.zip (suppressedRows inet g)).zipIdx).map fun inherited =>
      g.preambleRecords ++ probe ++ staticRecords [] g.keeneticStaticEntries ++ g.fallbackRecords ++
        g.directServerRecords.map .directDomainServer ++ g.allLists.flatMap (listRecords inet g) ++ inherited

theorem hashRecordsOf (out : Bool) :
    (g.generateDirectives inet out).map (fun written => recordsOf written.events) = hashRecords inet g := by
  rw [generateDirectives,hashRecords,← probeRecordsOf out]
  cases g.probe inet out with
  | error error => rfl
  | ok probe =>
    simp only [Except.map]
    rw [(sectionsRecords out _ _).2,suppressedRows.eq_1,← inheritedRecordsOf out false]
    cases inheritedRows inet out false
      (g.keeneticScopedDnsUpstreams.zip (g.allLists.foldl (listSuppressed inet g) g.directlySuppressed)).zipIdx with
    | error error => rfl
    | ok inherited =>
      refine congrArg Except.ok ?_
      simp only [Written.events,preamble,recordsAppend,recordsMap,recordsWrite,staticRecordsOf,fallbackRecordsOf,directRecordsOf,
        (sectionsRecords out _ _).1,List.append_nil]

end Records

section Replay

/- The batches that a list's records ask for: a record of a kind pushes its domain to the batch of that kind. -/

def pushAt (domain : Text) : Nat → List BatchState → List BatchState × List Line
  | _, [] => ([],[])
  | 0, batch :: rest =>
    let pushed := batch.push domain
    (pushed.1 :: rest,pushed.2)
  | index + 1, batch :: rest =>
    let pushed := pushAt domain index rest
    (batch :: pushed.1,pushed.2)

def replay (batches : Batches) : Record → Batches × List Line
  | .domainRoute _ bare => batches.pushIpset bare
  | .domainRebind _ bare => batches.pushRebind bare
  | .domainServer _ bare index _ _ =>
    let pushed := pushAt bare index batches.servers
    ({ batches with servers := pushed.1 },pushed.2)
  | _ => (batches,[])

def replayAll : Batches → List Record → Batches × List Line
  | batches, [] => (batches,[])
  | batches, record :: rest =>
    let first := replay batches record
    let others := replayAll first.1 rest
    (others.1,first.2 ++ others.2)

def serverIn : Record → Option (Nat × Text × Nat)
  | .domainServer _ _ index ip port => some (index,ip,port)
  | _ => none

def blockStart (type : ResolverType) (ipv6 : Bool) (name : Text) (records : List Record) : Batches where
  ipset := ipsetBatch true type ipv6 name
  rebind := rebindBatch true
  servers := (records.filterMap serverIn).dedup.map fun server => serverBatch true server.2.1 server.2.2

def blockLines (type : ResolverType) (ipv6 : Bool) (name : Text) (records : List Record) : List Line :=
  let replayed := replayAll (blockStart type ipv6 name records) records
  replayed.2 ++ replayed.1.flush

theorem replayAppend (batches : Batches) (records more : List Record) :
    replayAll batches (records ++ more) =
      let first := replayAll batches records
      let others := replayAll first.1 more
      (others.1,first.2 ++ others.2) := by
  induction records generalizing batches with
  | nil => rfl
  | cons record rest ih =>
    rw [List.cons_append,replayAll,ih,replayAll]
    simp only [List.append_assoc]

theorem pushAtBehind (domain : Text) (done : List BatchState) (batch : BatchState) (rest : List BatchState) :
    pushAt domain done.length (done ++ batch :: rest) = (done ++ (batch.push domain).1 :: rest,(batch.push domain).2) := by
  induction done with
  | nil => rfl
  | cons first more ih => rw [List.length_cons,List.cons_append,pushAt,ih,List.cons_append]

theorem replayServers (name bare : Text) (batches : Batches) (done rest : List BatchState) (servers : List DnsServerConfig)
    (fits : rest.length = servers.length) :
    replayAll { batches with servers := done ++ rest } ((servers.zipIdx done.length).map fun (server,index) =>
      .domainServer name bare index server.resolvedIp server.port) =
      ({ batches with servers := done ++ (pushAll bare rest).1 },(pushAll bare rest).2) := by
  induction servers generalizing done rest with
  | nil =>
    cases List.length_eq_zero_iff.mp fits
    rfl
  | cons server later ih =>
    cases rest with
    | nil => cases fits
    | cons batch others =>
      have tail := ih (done ++ [(batch.push bare).1]) others (Nat.succ.inj fits)
      rw [List.length_append,List.length_singleton,List.append_assoc,List.append_assoc,List.singleton_append,
        List.singleton_append] at tail
      rw [List.zipIdx_cons,List.map_cons,replayAll,replay]
      simp only [pushAtBehind]
      rw [tail,pushAll]

/- The pass and the replay hold the same rows under way, where the plan asks for them. -/
structure Follows (plan : ListPlan) (served : Bool) (own replayed : Batches) : Prop where
  ipset : if plan.needsIpset then own.ipset = replayed.ipset else own.ipset.enabled = false ∧ replayed.ipset.count = 0
  rebind : if plan.allowDomainRebinding then own.rebind = replayed.rebind else own.rebind.enabled = false ∧ replayed.rebind.count = 0
  servers : if served then own.servers = replayed.servers ∧ own.servers.length = plan.servers.length
    else replayed.servers = [] ∧ ∀ batch ∈ own.servers, batch.count = 0

variable {served : Bool} {own replayed : Batches} {bare : Text}

theorem pushDisabled {batch : BatchState} (off : batch.enabled = false) : batch.push bare = (batch,[]) := by
  rw [BatchState.push,off,Bool.not_false,if_pos rfl]

theorem pushAllLength (batches : List BatchState) : (pushAll bare batches).1.length = batches.length := by
  induction batches with
  | nil => rfl
  | cons batch rest ih => rw [pushAll,List.length_cons,ih,List.length_cons]

theorem followsIpset (bare : Text) (follows : Follows plan served own replayed) :
    let again := replayAll replayed (if plan.needsIpset then [.domainRoute plan.name bare] else [])
    Follows plan served (own.pushIpset bare).1 again.1 ∧ (own.pushIpset bare).2 = again.2 := by
  have kept := follows.ipset
  cases needs : plan.needsIpset with
  | true =>
    rw [needs,if_pos rfl] at kept
    refine ⟨⟨?_,follows.rebind,follows.servers⟩,?_⟩
    · rw [needs,if_pos rfl]
      change (own.ipset.push bare).1 = (replayed.ipset.push bare).1
      rw [kept]
    · change (own.ipset.push bare).2 = (replayed.ipset.push bare).2 ++ []
      rw [kept,List.append_nil]
  | false =>
    rw [needs] at kept
    have same : own.pushIpset bare = (own,[]) := by
      rw [Batches.pushIpset,pushDisabled kept.1]
    rw [same]
    exact ⟨follows,rfl⟩

theorem followsRebind (bare : Text) (follows : Follows plan served own replayed) :
    let again := replayAll replayed (if plan.allowDomainRebinding then [.domainRebind plan.name bare] else [])
    Follows plan served (own.pushRebind bare).1 again.1 ∧ (own.pushRebind bare).2 = again.2 := by
  have kept := follows.rebind
  cases needs : plan.allowDomainRebinding with
  | true =>
    rw [needs,if_pos rfl] at kept
    refine ⟨⟨follows.ipset,?_,follows.servers⟩,?_⟩
    · rw [needs,if_pos rfl]
      change (own.rebind.push bare).1 = (replayed.rebind.push bare).1
      rw [kept]
    · change (own.rebind.push bare).2 = (replayed.rebind.push bare).2 ++ []
      rw [kept,List.append_nil]
  | false =>
    rw [needs] at kept
    have same : own.pushRebind bare = (own,[]) := by
      rw [Batches.pushRebind,pushDisabled kept.1]
    rw [same]
    exact ⟨follows,rfl⟩

theorem followsServers (bare : Text) (follows : Follows plan true own replayed) :
    let again := replayAll replayed (plan.servers.zipIdx.map fun (server,index) =>
      .domainServer plan.name bare index server.resolvedIp server.port)
    Follows plan true (own.pushServers bare).1 again.1 ∧ (own.pushServers bare).2 = again.2 := by
  obtain ⟨same,length⟩ := follows.servers
  rw [same] at length
  have again := replayServers plan.name bare replayed [] replayed.servers plan.servers length
  rw [List.nil_append,List.nil_append] at again
  intro whole
  have replays : whole = _ := again
  rw [replays]
  refine ⟨⟨follows.ipset,follows.rebind,?_⟩,?_⟩
  · change (pushAll bare own.servers).1 = _ ∧ (pushAll bare own.servers).1.length = _
    rw [same,pushAllLength,length]
    exact ⟨rfl,rfl⟩
  · change (pushAll bare own.servers).2 = _
    rw [same]

theorem followsEntry (follows : Follows plan served own replayed) (covered : served = true ∨ g.directlyBound plan bare = true) :
    let again := replayAll replayed (g.entryRecords plan bare)
    Follows plan served (g.pushEntry plan own bare).1 again.1 ∧ (g.pushEntry plan own bare).2 = again.2 := by
  obtain ⟨routed,routedLines⟩ := followsIpset bare follows
  obtain ⟨rebound,reboundLines⟩ := followsRebind bare routed
  rw [entryRecords,replayAppend,replayAppend,pushEntry]
  simp only []
  rw [routedLines,reboundLines]
  cases bound : g.directlyBound plan bare with
  | true => exact ⟨rebound,rfl⟩
  | false =>
    rcases covered with rfl | direct
    · obtain ⟨followed,lines⟩ := followsServers bare rebound
      refine ⟨followed,?_⟩
      rw [if_neg Bool.false_ne_true,if_neg Bool.false_ne_true,lines]
    · rw [direct] at bound
      cases bound

theorem followsRun (state : ListState) (entries : List (EntryType × Text)) (follows : Follows plan served state.batches replayed)
    (covered : ∀ bare ∈ entries.filterMap bareOf, served = true ∨ g.directlyBound plan bare = true) :
    let again := replayAll replayed ((entries.filterMap bareOf).flatMap (g.entryRecords plan))
    Follows plan served (g.visitEntries true plan state entries).1.batches again.1 ∧
      directivesOf (g.visitEntries true plan state entries).2 = directivesIn again.2 := by
  induction entries generalizing state replayed with
  | nil => exact ⟨follows,rfl⟩
  | cons entry rest ih =>
    rw [visitEntries]
    simp only []
    rw [List.filterMap_cons] at covered ⊢
    cases taken : bareOf entry with
    | none =>
      rw [taken] at covered
      rw [visitSkips taken]
      exact ih state follows covered
    | some bare =>
      rw [taken] at covered
      have later := fun other mem => covered other (List.mem_cons_of_mem _ mem)
      rw [visitTakes taken]
      simp only [List.flatMap_cons]
      rw [replayAppend,directivesAppend]
      split
      · rename_i idle
        simp only [Bool.and_eq_true,Bool.not_eq_true',List.isEmpty_iff] at idle
        have empty : g.entryRecords plan bare = [] := by
          rw [entryRecords,idle.1.1,idle.1.2,idle.2]
          simp
        rw [empty]
        exact ih { state with suppressed := _ } follows later
      · obtain ⟨stepped,lines⟩ := followsEntry (g := g) follows (covered bare List.mem_cons_self)
        obtain ⟨ended,others⟩ := ih ⟨_,_,_⟩ stepped later
        refine ⟨ended,?_⟩
        have header : directivesIn (listHeader plan state.wroteHeader) = [] := by
          rw [listHeader]
          split <;> rfl
        rw [others,directivesAppend,directivesMap,directivesWrite,directivesInAppend,header,List.nil_append,List.nil_append,lines,
          directivesInAppend]

theorem followsFlush (follows : Follows plan served own replayed) : own.flush = replayed.flush := by
  have empty {batch : BatchState} (none : batch.count = 0) : batch.flush.2 = [] := by
    rw [BatchState.flush,none]
    simp
  have off {batch : BatchState} (none : batch.enabled = false) : batch.flush.2 = [] := by
    rw [BatchState.flush,none]
    rfl
  have ipset : own.ipset.flush.2 = replayed.ipset.flush.2 := by
    have kept := follows.ipset
    split at kept
    · rw [kept]
    · rw [off kept.1,empty kept.2]
  have rebind : own.rebind.flush.2 = replayed.rebind.flush.2 := by
    have kept := follows.rebind
    split at kept
    · rw [kept]
    · rw [off kept.1,empty kept.2]
  have servers : own.servers.flatMap (fun batch => batch.flush.2) = replayed.servers.flatMap fun batch => batch.flush.2 := by
    have kept := follows.servers
    split at kept
    · rw [kept.1]
    · rw [kept.1,List.flatMap_nil]
      exact List.flatMap_eq_nil_iff.mpr fun batch mem => empty (kept.2 batch mem)
  rw [Batches.flush,ipset,rebind,servers,Batches.flush]

def serverTriples (plan : ListPlan) : List (Nat × Text × Nat) :=
  plan.servers.zipIdx.map fun (server,index) => (index,server.resolvedIp,server.port)

theorem triplesNodup : (serverTriples plan).Nodup := by
  refine List.Nodup.of_map (·.1) ?_
  rw [serverTriples,List.map_map]
  change (plan.servers.zipIdx.map Prod.snd).Nodup
  rw [List.zipIdx_map_snd]
  exact List.nodup_range'

theorem entryServers (bare : Text) :
    (g.entryRecords plan bare).filterMap serverIn = if g.directlyBound plan bare then [] else serverTriples plan := by
  have route : (if plan.needsIpset then [Record.domainRoute plan.name bare] else []).filterMap serverIn = [] := by
    split <;> rfl
  have rebind : (if plan.allowDomainRebinding then [Record.domainRebind plan.name bare] else []).filterMap serverIn = [] := by
    split <;> rfl
  rw [entryRecords,List.filterMap_append,List.filterMap_append,route,rebind,List.nil_append,List.nil_append]
  split
  · rfl
  · rw [List.filterMap_map,serverTriples,← List.filterMap_eq_map]
    rfl

theorem blockServers (domains : List Text) :
    ((domains.flatMap (g.entryRecords plan)).filterMap serverIn).dedup =
      if domains.all (g.directlyBound plan) then [] else serverTriples plan := by
  induction domains with
  | nil => rfl
  | cons bare rest ih =>
    rw [List.flatMap_cons,List.filterMap_append,entryServers,List.all_cons]
    cases g.directlyBound plan bare with
    | true =>
      rw [if_pos rfl,List.nil_append,Bool.true_and]
      exact ih
    | false =>
      rw [Bool.false_and,if_neg Bool.false_ne_true]
      cases all : rest.all (g.directlyBound plan) with
      | true =>
        rw [all,if_pos rfl] at ih
        rw [(List.dedup_eq_nil _).mp ih,List.append_nil,triplesNodup.dedup]
      | false =>
        rw [all,if_neg Bool.false_ne_true] at ih
        rw [List.Subset.dedup_append_right ?_,ih]
        intro triple mem
        rw [← List.mem_dedup,ih]
        exact mem

theorem followsStart (plan : ListPlan) (domains : List Text) :
    Follows plan (plan.servers.isEmpty || !domains.all (g.directlyBound plan)) (g.newBatches true plan)
      (blockStart g.resolverType g.ipv6Policy.targetsEnabled plan.name (domains.flatMap (g.entryRecords plan))) := by
  have same : (serverTriples plan).map (fun server => serverBatch true server.2.1 server.2.2) = (g.newBatches true plan).servers := by
    rw [serverTriples,List.map_map]
    change plan.servers.zipIdx.map ((fun server => serverBatch true server.resolvedIp server.port) ∘ Prod.fst) = _
    rw [← List.map_map,List.zipIdx_map_fst]
    rfl
  refine ⟨?_,?_,?_⟩
  · rw [newBatches,Bool.true_and,blockStart]
    cases plan.needsIpset with
    | true => rfl
    | false =>
      rw [if_neg Bool.false_ne_true]
      simp only [ipsetBatch]
      cases g.resolverType <;> exact ⟨rfl,rfl⟩
  · rw [newBatches,Bool.true_and,blockStart]
    cases plan.allowDomainRebinding with
    | true => rfl
    | false => exact ⟨rfl,rfl⟩
  · rw [blockStart,blockServers]
    cases none : plan.servers.isEmpty with
    | true =>
      have empty := List.isEmpty_iff.mp none
      have triples : serverTriples plan = [] := by
        rw [serverTriples,empty]
        rfl
      rw [Bool.true_or,if_pos rfl,triples,ite_self,← same,triples,empty]
      exact ⟨rfl,rfl⟩
    | false =>
      rw [Bool.false_or]
      cases domains.all (g.directlyBound plan) with
      | true =>
        refine ⟨rfl,fun batch mem => ?_⟩
        obtain ⟨server,_,rfl⟩ := List.mem_map.mp mem
        rfl
      | false =>
        rw [if_neg Bool.false_ne_true,same]
        refine ⟨rfl,?_⟩
        exact List.length_map _

theorem blockEmpty (type : ResolverType) (ipv6 : Bool) (name : Text) : blockLines type ipv6 name [] = [] := by
  cases type <;> rfl

theorem sectionDirectives (suppressed : List Bool) (name : Text) :
    directivesOf (g.listSection inet true suppressed name).2 =
      directivesIn (blockLines g.resolverType g.ipv6Policy.targetsEnabled name (listRecords inet g name)) := by
  rw [listSection,listRecords]
  cases g.lists name with
  | none =>
    simp only []
    rw [blockEmpty]
    rfl
  | some lines =>
    have covered : ∀ bare ∈ bares inet lines,
      ((g.listPlan name).servers.isEmpty || !(bares inet lines).all (g.directlyBound (g.listPlan name))) = true ∨
        g.directlyBound (g.listPlan name) bare = true := by
      intro bare mem
      cases all : (bares inet lines).all (g.directlyBound (g.listPlan name)) with
      | true => exact .inr (List.all_eq_true.mp all bare mem)
      | false =>
        rw [Bool.not_false,Bool.or_true]
        exact .inl rfl
    obtain ⟨followed,lines⟩ := followsRun ⟨suppressed,false,g.newBatches true (g.listPlan name)⟩ (listEntries inet lines)
      (followsStart (g.listPlan name) (bares inet lines)) covered
    have margin (wrote : Bool) : directivesIn (if wrote then [Line.blank] else []) = [] := by
      cases wrote <;> rfl
    simp only []
    rw [directivesAppend,lines,directivesWrite,directivesInAppend,margin,List.append_nil,followsFlush followed,blockLines,
      directivesInAppend]
    rfl

end Replay

section Parts

structure Sections where
  preamble : List Record
  probe : List Record
  statics : List Record
  fallbacks : List Record
  directs : List Record
  lists : List Record
  inherited : List Record

def Sections.all (sections : Sections) : List Record :=
  sections.preamble ++ sections.probe ++ sections.statics ++ sections.fallbacks ++ sections.directs ++ sections.lists ++ sections.inherited

def InPart (own : Part) (records : List Record) : Prop := ∀ record ∈ records, part record = own

structure Sections.Parted (sections : Sections) : Prop where
  preamble : InPart .preamble sections.preamble
  probe : InPart .probe sections.probe
  statics : InPart .statics sections.statics
  fallbacks : InPart .fallbacks sections.fallbacks
  directs : InPart .directs sections.directs
  lists : InPart .lists sections.lists
  inherited : InPart .inherited sections.inherited

theorem filterPart {own : Part} {records : List Record} (inside : InPart own records) (asked : Part) :
    records.filter (fun record => part record = asked) = if own = asked then records else [] := by
  split
  · rename_i same
    exact List.filter_eq_self.mpr fun record mem => decide_eq_true ((inside record mem).trans same)
  · rename_i differs
    refine List.filter_eq_nil_iff.mpr fun record mem => ?_
    rw [decide_eq_true_eq,inside record mem]
    exact differs

theorem sectionsTold {first second : Sections} (left : first.Parted) (right : second.Parted) (same : first.all = second.all) :
    first = second := by
  have told (asked : Part) := congrArg (List.filter fun record => decide (part record = asked)) same
  simp only [Sections.all,List.filter_append,filterPart left.preamble,filterPart left.probe,filterPart left.statics,
    filterPart left.fallbacks,filterPart left.directs,filterPart left.lists,filterPart left.inherited,filterPart right.preamble,
    filterPart right.probe,filterPart right.statics,filterPart right.fallbacks,filterPart right.directs,filterPart right.lists,
    filterPart right.inherited] at told
  obtain ⟨_,_,_,_,_,_,_⟩ := first
  obtain ⟨_,_,_,_,_,_,_⟩ := second
  rw [Sections.mk.injEq]
  exact ⟨by simpa using told .preamble,by simpa using told .probe,by simpa using told .statics,by simpa using told .fallbacks,
    by simpa using told .directs,by simpa using told .lists,by simpa using told .inherited⟩

theorem preamblePart : InPart .preamble g.preambleRecords := by
  intro record mem
  simp only [preambleRecords,List.mem_append,List.mem_cons,List.not_mem_nil,or_false,List.mem_map] at mem
  rcases mem with ((rfl | rfl | rfl | rfl) | filter) | ⟨interface,_,rfl⟩
  · rfl
  · rfl
  · rfl
  · rfl
  · split at filter
    · cases List.mem_singleton.mp filter
      rfl
    · cases filter
  · rfl

theorem probePart {records : List Record} (read : probeRecords inet g = .ok records) : InPart .probe records := by
  rw [probeRecords] at read
  split at read
  · cases read
    intro record mem
    cases mem
  · obtain ⟨parsed,_,rfl⟩ := mapOk read
    intro record mem
    cases List.mem_singleton.mp mem
    rfl

theorem staticPart (emitted : List Text) (entries : List KeeneticStaticDnsEntry) : InPart .statics (staticRecords emitted entries) := by
  induction entries generalizing emitted with
  | nil =>
    intro record mem
    cases mem
  | cons entry rest ih =>
    rw [staticRecords]
    split
    · exact ih _
    · intro record mem
      rcases List.mem_cons.mp mem with rfl | later
      · rfl
      · exact ih _ record later

theorem fallbackPart : InPart .fallbacks g.fallbackRecords := by
  intro record mem
  obtain ⟨entry,_,inside⟩ := List.mem_flatMap.mp mem
  simp only [List.mem_cons,List.not_mem_nil,or_false] at inside
  rcases inside with rfl | rfl
  · rfl
  · rfl

theorem directPart (rows : List Text) : InPart .directs (rows.map .directDomainServer) := by
  intro record mem
  obtain ⟨row,_,rfl⟩ := List.mem_map.mp mem
  rfl

def listOf : Record → Text
  | .domainRoute list _ | .domainRebind list _ | .domainServer list _ _ _ _ => list
  | _ => []

theorem entryOwn {record : Record} {bare : Text} (mem : record ∈ g.entryRecords plan bare) :
    part record = .lists ∧ listOf record = plan.name := by
  rw [entryRecords,List.mem_append,List.mem_append] at mem
  rcases mem with (route | rebind) | server
  · split at route
    · cases List.mem_singleton.mp route
      exact ⟨rfl,rfl⟩
    · cases route
  · split at rebind
    · cases List.mem_singleton.mp rebind
      exact ⟨rfl,rfl⟩
    · cases rebind
  · split at server
    · cases server
    · obtain ⟨entry,_,rfl⟩ := List.mem_map.mp server
      exact ⟨rfl,rfl⟩

theorem listOwn {name : Text} {record : Record} (mem : record ∈ listRecords inet g name) : part record = .lists ∧ listOf record = name := by
  rw [listRecords] at mem
  split at mem
  · cases mem
  · obtain ⟨bare,_,inside⟩ := List.mem_flatMap.mp mem
    exact entryOwn inside

theorem listsPart (names : List Text) : InPart .lists (names.flatMap (listRecords inet g)) := by
  intro record mem
  obtain ⟨name,_,inside⟩ := List.mem_flatMap.mp mem
  exact (listOwn inside).1

theorem textSetNodup (texts : List Text) : (textSet texts).Nodup :=
  (List.perm_insertionSort _ _).nodup_iff.mpr (List.nodup_dedup texts)

theorem listsKeyed : Keyed listOf g.allLists (listRecords inet g) :=
  ⟨textSetNodup _,fun _ _ _ mem => (listOwn mem).2⟩

theorem inheritedPart {rows : List ((KeeneticDnsScopedUpstreamEntry × Bool) × Nat)} {records : List Record}
    (read : inheritedRecords inet rows = .ok records) : InPart .inherited records := by
  induction rows generalizing records with
  | nil =>
    cases read
    intro record mem
    cases mem
  | cons row rest ih =>
    obtain ⟨⟨upstream,marked⟩,index⟩ := row
    cases marked with
    | true => exact ih read
    | false =>
      rw [inheritedRecords] at read
      split at read
      · cases read
      · obtain ⟨others,later,rfl⟩ := mapOk read
        intro record mem
        rcases List.mem_cons.mp mem with rfl | inside
        · rfl
        · exact ih later record inside

end Parts

section Rows

def rowsOf : Record → List Text
  | .probeServer ip port => [text "rebind-domain-ok=keen.pbr",serverRow probeZone (ip ++ '#' :: decimal port)]
  | .keeneticStatic pattern address => [text "address=" ++ pattern ++ '/' :: address]
  | .fallbackServer _ ip port => [text "server=" ++ serverAddress ip port]
  | .directDomainServer row => [row]
  | .keeneticScopedServer _ domain address => [serverRow domain address]
  | _ => []

theorem preambleDirectives :
    directivesIn g.preambleLines = g.trustedInterfaces.map (text "interface=" ++ ·) ++
      (if g.canary then [text "address=/use-application-dns.net/"] else []) ++
      (if g.ipv6Policy.suppressAaaa then [text "filter-AAAA",text "filter-rr=64,65"] else []) := by
  have interfaces (list : List Text) : directivesIn (list.map fun interface => .directive (text "interface=" ++ interface)) =
      list.map (text "interface=" ++ ·) := by
    rw [directivesIn,List.filterMap_map,← List.filterMap_eq_map]
    rfl
  rw [preambleLines]
  simp only [directivesInAppend,interfaces]
  cases g.trustedInterfaces.isEmpty <;> cases g.canary <;> cases g.ipv6Policy.suppressAaaa <;>
    simp [directivesIn]

theorem probeDirectives {events : List Event} (run : g.probe inet true = .ok events) :
    directivesOf events = (recordsOf events).flatMap rowsOf := by
  rw [probe] at run
  split at run
  · cases run
    rfl
  · obtain ⟨parsed,_,rfl⟩ := mapOk run
    rfl

theorem staticDirectives (emitted : List Text) (wroteHeader : Bool) (entries : List KeeneticStaticDnsEntry) :
    directivesOf (staticEntries true emitted wroteHeader entries) = (staticRecords emitted entries).flatMap rowsOf := by
  induction entries generalizing emitted wroteHeader with
  | nil =>
    rw [staticEntries,staticRecords]
    split <;> rfl
  | cons entry rest ih =>
    rw [staticEntries,staticRecords]
    split
    · exact ih _ _
    · rw [List.cons_append,directivesRecord,directivesAppend,directivesWrite,ih,List.flatMap_cons,directivesInAppend]
      cases wroteHeader <;> rfl

theorem upstreamDirectives : directivesIn g.upstreamLines = [] := by
  rw [upstreamLines]
  split
  · rfl
  · refine List.filterMap_eq_nil_iff.mpr fun line mem => ?_
    rw [List.mem_append,List.mem_cons,List.mem_map,List.mem_singleton] at mem
    rcases mem with (rfl | ⟨upstream,_,rfl⟩) | rfl
    · rfl
    · rfl
    · rfl

theorem fallbackDirectives : directivesOf (g.fallbacks true) = g.fallbackRecords.flatMap rowsOf := by
  have margin : directivesOf (if (g.dnsConfig.fallback.getD []).isEmpty then [] else write true [.blank]) = [] := by
    split <;> rfl
  rw [fallbacks,directivesAppend,directivesAppend,directivesWrite,margin,List.append_nil,directivesFlat,fallbackRecords,List.flatMap_assoc]
  refine List.flatMap_congr fun entry mem => ?_
  obtain ⟨server,index⟩ := entry
  change directivesOf (g.fallbackServer true server index) = _
  rw [fallbackServer,directivesAppend,directivesWrite,directivesInAppend]
  split <;> rfl

theorem directDirectives : directivesOf (g.directs true) = (g.directServerRecords.map Record.directDomainServer).flatMap rowsOf := by
  have margin {line : Line} (aside : directivesIn [line] = []) :
      directivesOf (if g.directServerRecords.isEmpty then [] else write true [line]) = [] := by
    split
    · rfl
    · rw [directivesWrite,aside]
  rw [directs]
  simp only []
  rw [directivesAppend,directivesAppend,margin rfl,margin rfl,List.nil_append,List.append_nil,directivesFlat,List.flatMap_map]
  rfl

theorem inheritedDirectives {wroteHeader : Bool} {rows : List ((KeeneticDnsScopedUpstreamEntry × Bool) × Nat)} {events : List Event}
    (run : inheritedRows inet true wroteHeader rows = .ok events) : directivesOf events = (recordsOf events).flatMap rowsOf := by
  induction rows generalizing wroteHeader events with
  | nil =>
    cases run
    split <;> rfl
  | cons row rest ih =>
    obtain ⟨⟨upstream,marked⟩,index⟩ := row
    cases marked with
    | true => exact ih run
    | false =>
      rw [inheritedRows] at run
      split at run
      · cases run
      · obtain ⟨others,later,rfl⟩ := mapOk run
        rw [List.cons_append,directivesRecord,recordsRecord,directivesAppend,directivesWrite,recordsAppend,recordsWrite,
          ih later,List.flatMap_cons,List.nil_append,directivesInAppend]
        cases wroteHeader <;> rfl

theorem sectionsDirectives (suppressed : List Bool) (names : List Text) :
    directivesOf (g.listSections inet true suppressed names).2 = names.flatMap fun name =>
      directivesIn (blockLines g.resolverType g.ipv6Policy.targetsEnabled name (listRecords inet g name)) := by
  induction names generalizing suppressed with
  | nil => rfl
  | cons name rest ih =>
    rw [listSections]
    simp only []
    rw [directivesAppend,sectionDirectives,ih,List.flatMap_cons]

end Rows

section Texts

def bar (c : Char) : Bool := c == '|'

def newline (c : Char) : Bool := c == '\n'

def readRecord : List Text → Option Record
  | [tag,a] =>
    if tag = text "version" then some (.version a)
    else if tag = text "firefox-doh-canary" then some (.firefoxDohCanary (a == text "1"))
    else if tag = text "ipv6-enabled" then some (.ipv6Enabled (a == text "1"))
    else if tag = text "filter-aaaa" then some (.filterAaaa (a == text "1"))
    else if tag = text "filter-rr" then some .filterRr
    else if tag = text "trusted-interface" then some (.trustedInterface a)
    else if tag = text "direct-domain-server" then some (.directDomainServer a)
    else none
  | [tag,a,b] =>
    if tag = text "probe-server" then some (.probeServer a (Nat.ofDigitChars 10 b 0))
    else if tag = text "keenetic-static" then some (.keeneticStatic a b)
    else if tag = text "direct-fallback" then some (.directFallback (Nat.ofDigitChars 10 a 0) (b == text "yes"))
    else if tag = text "domain-route" then some (.domainRoute a b)
    else if tag = text "domain-rebind" then some (.domainRebind a b)
    else none
  | [tag,a,b,c] =>
    if tag = text "fallback-server" then some (.fallbackServer (Nat.ofDigitChars 10 a 0) b (Nat.ofDigitChars 10 c 0))
    else if tag = text "keenetic-scoped-server" then some (.keeneticScopedServer (Nat.ofDigitChars 10 a 0) b c)
    else none
  | [_,a,b,c,d,e] => some (.domainServer a b (Nat.ofDigitChars 10 c 0) d (Nat.ofDigitChars 10 e 0))
  | _ => none

theorem decimalRead (value : Nat) : Nat.ofDigitChars 10 (decimal value) 0 = value := (toStringDigits value).2.2

theorem readFields (record : Record) : readRecord record.fields = some record := by
  cases record with
  | firefoxDohCanary enabled => cases enabled <;> rfl
  | ipv6Enabled enabled => cases enabled <;> rfl
  | filterAaaa enabled => cases enabled <;> rfl
  | probeServer ip port =>
    change some (Record.probeServer ip (Nat.ofDigitChars 10 (decimal port) 0)) = _
    rw [decimalRead]
  | fallbackServer index ip port =>
    change some (Record.fallbackServer (Nat.ofDigitChars 10 (decimal index) 0) ip (Nat.ofDigitChars 10 (decimal port) 0)) = _
    rw [decimalRead,decimalRead]
  | directFallback index direct =>
    change some (Record.directFallback (Nat.ofDigitChars 10 (decimal index) 0) _) = _
    rw [decimalRead]
    cases direct <;> rfl
  | domainServer list bare index ip port =>
    change some (Record.domainServer list bare (Nat.ofDigitChars 10 (decimal index) 0) ip (Nat.ofDigitChars 10 (decimal port) 0)) = _
    rw [decimalRead,decimalRead]
  | keeneticScopedServer index domain address =>
    change some (Record.keeneticScopedServer (Nat.ofDigitChars 10 (decimal index) 0) domain address) = _
    rw [decimalRead]
  | _ => rfl

/- No field of a record holds a bar or a newline. -/
def PlainRecords (records : List Record) : Prop := ∀ record ∈ records, ∀ field ∈ record.fields, '|' ∉ field ∧ '\n' ∉ field

variable {first second : List Record}

theorem absentFree {c : Char} {part : Text} (absent : c ∉ part) : ∀ d ∈ part, (d == c) = false := by
  intro d mem
  rw [beq_eq_false_iff_ne]
  rintro rfl
  exact absent mem

theorem lineFields (plain : PlainRecords first) {record : Record} (mem : record ∈ first) : fields bar record.line = record.fields := by
  have filled : record.fields ≠ [] := by
    cases record <;> exact List.cons_ne_nil _ _
  exact fieldsJoined bar rfl filled fun field listed => absentFree (plain record mem field listed).1

theorem linesTold (plain : PlainRecords first) (other : PlainRecords second) (same : first.map Record.line = second.map Record.line) :
    first = second := by
  have readLine {records : List Record} (own : PlainRecords records) :
      (records.map Record.line).map (fun line => readRecord (fields bar line)) = records.map some := by
    rw [List.map_map]
    refine List.map_congr_left fun record mem => ?_
    change readRecord (fields bar record.line) = _
    rw [lineFields own mem,readFields]
  have read := congrArg (List.map fun line => readRecord (fields bar line)) same
  rw [readLine plain,readLine other] at read
  exact (Option.some_injective _).list_map read

theorem joinedFree {c sep : Char} (differs : c ≠ sep) {parts : List Text} (free : ∀ part ∈ parts, c ∉ part) :
    c ∉ [sep].intercalate parts := by
  induction parts with
  | nil => exact List.not_mem_nil
  | cons part rest ih =>
    cases rest with
    | nil =>
      rw [List.intercalate_singleton]
      exact free part List.mem_cons_self
    | cons next later =>
      rw [List.intercalate_cons_cons,List.mem_append,List.mem_append,List.mem_singleton]
      rintro ((inside | same) | behind)
      · exact free part List.mem_cons_self inside
      · exact differs same
      · exact ih (fun other mem => free other (List.mem_cons_of_mem _ mem)) behind

theorem payloadTold (plain : PlainRecords first) (other : PlainRecords second) (same : payload first = payload second) :
    first.map Record.line = second.map Record.line := by
  have readPayload {records : List Record} (own : PlainRecords records) :
    fields newline (payload records) = records.map Record.line ++ [[]] := by
    have free : ∀ line ∈ records.map Record.line, ∀ d ∈ line, newline d = false := by
      intro line mem
      obtain ⟨record,listed,rfl⟩ := List.mem_map.mp mem
      exact absentFree (joinedFree (by decide) fun field inside => (own record listed field inside).2)
    have cut : fields newline ((records.map Record.line).flatMap fun line => line ++ ['\n']) = records.map Record.line ++ [[]] :=
      fieldsEnded newline rfl free
    rwa [List.flatMap_map] at cut
  have read := congrArg (fields newline) same
  rw [readPayload plain,readPayload other] at read
  exact List.append_cancel_right read

end Texts

section Hash
variable {h : Generator} {first second : Written}

structure Told (inet : Inet) (g : Generator) (written : Written) (sections : Sections) : Prop where
  records : recordsOf written.events = sections.all
  parted : sections.Parted
  preamble : sections.preamble = g.preambleRecords
  lists : sections.lists = g.allLists.flatMap (listRecords inet g)
  directives : directivesOf written.events = directivesIn g.preambleLines ++ sections.probe.flatMap rowsOf ++
    sections.statics.flatMap rowsOf ++
    sections.fallbacks.flatMap rowsOf ++ sections.directs.flatMap rowsOf ++
    (g.allLists.flatMap fun name => directivesIn (blockLines g.resolverType g.ipv6Policy.targetsEnabled name (listRecords inet g name))) ++
    sections.inherited.flatMap rowsOf

theorem generatedTold (run : g.generateDirectives inet true = .ok first) : ∃ sections, Told inet g first sections := by
  rw [generateDirectives] at run
  split at run
  · cases run
  · rename_i probe probed
    simp only [] at run
    obtain ⟨inherited,rows,rfl⟩ := mapOk run
    have probeRead : probeRecords inet g = .ok (recordsOf probe) := by
      rw [← probeRecordsOf true,probed]
      rfl
    have inheritedRead : inheritedRecords inet
        (g.keeneticScopedDnsUpstreams.zip (g.listSections inet true g.directlySuppressed g.allLists).1).zipIdx = .ok
          (recordsOf inherited) := by
      rw [← inheritedRecordsOf true false,rows]
      rfl
    refine ⟨⟨g.preambleRecords,recordsOf probe,staticRecords [] g.keeneticStaticEntries,g.fallbackRecords,
      g.directServerRecords.map .directDomainServer,g.allLists.flatMap (listRecords inet g),recordsOf inherited⟩,?_,?_,rfl,rfl,?_⟩
    · simp only [Written.events,preamble,recordsAppend,recordsMap,recordsWrite,staticRecordsOf,fallbackRecordsOf,directRecordsOf,
        (sectionsRecords true _ _).1,List.append_nil,Sections.all]
    · exact ⟨preamblePart,probePart probeRead,staticPart _ _,fallbackPart,directPart _,listsPart _,inheritedPart inheritedRead⟩
    · simp only [Written.events,preamble,directivesAppend,directivesMap,directivesWrite,probeDirectives probed,staticDirectives,
        upstreamDirectives,fallbackDirectives,directDirectives,sectionsDirectives,inheritedDirectives rows,List.nil_append,List.append_nil]

theorem preambleTold (same : g.preambleRecords = h.preambleRecords) :
    directivesIn g.preambleLines = directivesIn h.preambleLines ∧ g.ipv6Policy.targetsEnabled = h.ipv6Policy.targetsEnabled := by
  simp only [preambleRecords,List.cons_append,List.nil_append,List.cons.injEq,Record.version.injEq,Record.firefoxDohCanary.injEq,
    Record.ipv6Enabled.injEq,Record.filterAaaa.injEq] at same
  obtain ⟨_,canary,ipv6,filter,rest⟩ := same
  rw [filter] at rest
  have interfaces : g.trustedInterfaces = h.trustedInterfaces :=
    List.map_injective_iff.mpr (fun a b equal => Record.trustedInterface.inj equal) (List.append_cancel_left rest)
  rw [preambleDirectives,preambleDirectives,canary,filter,interfaces]
  exact ⟨rfl,ipv6⟩

theorem directivesTold (left : g.generateDirectives inet true = .ok first) (right : h.generateDirectives inet true = .ok second)
    (type : g.resolverType = h.resolverType) (same : recordsOf first.events = recordsOf second.events) :
    directivesOf first.events = directivesOf second.events := by
  obtain ⟨own,told⟩ := generatedTold left
  obtain ⟨other,heard⟩ := generatedTold right
  have sections : own = other := sectionsTold told.parted heard.parted (by rw [← told.records,same,heard.records])
  subst sections
  have front := preambleTold (told.preamble.symm.trans heard.preamble)
  have lists := Keyed.determined (fun name records => directivesIn (blockLines h.resolverType h.ipv6Policy.targetsEnabled name records))
    (fun name => by rw [blockEmpty]; rfl) listsKeyed listsKeyed (told.lists.symm.trans heard.lists)
  rw [told.directives,heard.directives,front.1,type,front.2,lists]

def Generated.records (out : Generated) : List Record := recordsOf out.written.events

def Generated.directives (out : Generated) : List Text := directivesOf out.written.events

theorem generateRuns {md5 : Text → Text} {now : Nat} {out : Generated} (run : generate inet g md5 now = .ok out) :
    generateDirectives inet { g with trustedInterfaces := textSet g.trustedInterfaces } true = .ok out.written ∧
      out.hash = md5 (payload out.records) ∧ out.txtRecord = txtRecord now out.hash := by
  rw [generate,dnsmasqGenerator] at run
  split at run
  · cases run
  · rename_i generator made
    split at made
    · cases made
      obtain ⟨written,ran,rfl⟩ := mapOk run
      exact ⟨ran,rfl,rfl⟩
    · cases made

theorem hashTold (md5 : Text → Text) (out : Bool) : (g.generateDirectives inet out).map (hashOf md5) =
    (hashRecords inet g).map fun records => md5 (payload records) := by
  rw [← hashRecordsOf out]
  cases g.generateDirectives inet out <;> rfl

theorem constructedType (g : Generator) (type : ResolverType) :
    dnsmasqGenerator { g with resolverType := type } = (dnsmasqGenerator g).map fun made => { made with resolverType := type } := by
  rw [dnsmasqGenerator,dnsmasqGenerator]
  split <;> rfl

theorem hashRecordsType (type : ResolverType) : hashRecords inet { g with resolverType := type } = hashRecords inet g := rfl

theorem configHash (md5 : Text → Text) (type : ResolverType) (now : Nat) :
    computeConfigHash inet g md5 = (generate inet { g with resolverType := type } md5 now).map (·.hash) := by
  rw [computeConfigHash,generate,constructedType g .dnsmasqIpset,constructedType g type]
  cases dnsmasqGenerator g with
  | error error => rfl
  | ok made =>
    have hashed : (Generator.generateDirectives inet { made with resolverType := type } true).map (hashOf md5) =
        (hashRecords inet made).map fun records => md5 (payload records) := hashTold md5 true
    change (Generator.generateDirectives inet { made with resolverType := .dnsmasqIpset } false).map (hashOf md5) = _
    rw [hashTold,hashRecordsType,← hashed]
    change _ = ((Generator.generateDirectives inet { made with resolverType := type } true).map _).map _
    cases Generator.generateDirectives inet { made with resolverType := type } true <;> rfl

/- Equal records, or equal hashes where the digest does not collide, mean equal directives; and the hash in
the file is the one that compute_config_hash tells for every resolver type. -/
theorem hashCoversDirectives (inet : Inet) (md5 : Text → Text) :
    (∀ (first second : Generator) (now later : Nat) (a b : Generated), generate inet first md5 now = .ok a →
      generate inet second md5 later = .ok b → first.resolverType = second.resolverType → PlainRecords a.records → PlainRecords b.records →
        (a.records.map Record.line = b.records.map Record.line → a.directives = b.directives) ∧
          ((md5 (payload a.records) = md5 (payload b.records) → payload a.records = payload b.records) → a.hash = b.hash →
            a.directives = b.directives)) ∧
    ∀ (g : Generator) (type : ResolverType) (now : Nat),
      computeConfigHash inet g md5 = (generate inet { g with resolverType := type } md5 now).map (·.hash) ∧
        (generate inet { g with resolverType := type } md5 now).map (·.txtRecord) = (computeConfigHash inet g md5).map (txtRecord now) := by
  constructor
  · intro first second now later a b ran again type plain other
    obtain ⟨left,leftHash,_⟩ := generateRuns ran
    obtain ⟨right,rightHash,_⟩ := generateRuns again
    have covered (same : a.records.map Record.line = b.records.map Record.line) : a.directives = b.directives :=
      directivesTold left right type (linesTold plain other same)
    refine ⟨covered,fun distinct hashes => covered (payloadTold plain other (distinct ?_))⟩
    rw [← leftHash,← rightHash,hashes]
  · intro g type now
    refine ⟨configHash md5 type now,?_⟩
    rw [configHash md5 type now]
    cases run : generate inet { g with resolverType := type } md5 now with
    | error error => rfl
    | ok out => exact congrArg Except.ok (generateRuns run).2.2

instance (records : List Record) : Decidable (PlainRecords records) :=
  inferInstanceAs (Decidable (∀ record ∈ records, ∀ field ∈ record.fields, '|' ∉ field ∧ '\n' ∉ field))

/- inet_pton where no address is asked for. -/
def officeInet : Inet := ⟨fun _ _ => none,fun _ _ => none⟩

def officeConfig : DnsConfig where
  servers := some [{ tag := "office", address := some "10.8.0.1:5353", domains := some ["Intranet.example"] },
    { tag := "wan", address := some "9.9.9.9" }]
  rules := some [{ server := "office", list := ["work"] }]
  fallback := some ["wan"]

def officeGenerator (interfaces : List Text) : Generator where
  registry := (dnsServerRegistry officeInet officeConfig none).toOption.getD {}
  routeRules := [{ outbound := "vpn", list := some ["work"] }]
  dnsConfig := officeConfig
  lists := fun name => if name = text "work" then some [text "work.example",text "wiki.intranet.example"] else none
  hashVersion := text "3.2.0"
  trustedInterfaces := interfaces

def officeDigest (_ : Text) : Text := text "37913e27bceaba126ad885ff74a368b6"

def officeRun (interfaces : List Text) :
    Except DnsError Generated := generate officeInet (officeGenerator interfaces) officeDigest 1700000000

/- The same interfaces in another order. -/
theorem interfacesReordered : ∃ a b, officeRun [text "br0",text "sstp1"] = .ok a ∧ officeRun [text "sstp1",text "br0",text "br0"] = .ok b ∧
    a.directives = b.directives ∧ text "server=/intranet.example/10.8.0.1#5353" ∈ a.directives := by
  have left : (officeRun [text "br0",text "sstp1"]).map (fun a => decide (PlainRecords a.records ∧
      text "server=/intranet.example/10.8.0.1#5353" ∈ a.directives)) = .ok true := by
    decide +kernel
  have right : (officeRun [text "sstp1",text "br0",text "br0"]).map (fun b => decide (PlainRecords b.records)) = .ok true := by
    decide +kernel
  have records : (officeRun [text "br0",text "sstp1"]).map (fun a => a.records.map Record.line) =
      (officeRun [text "sstp1",text "br0",text "br0"]).map fun b => b.records.map Record.line := by
    decide +kernel
  obtain ⟨a,ran,leftPlain⟩ := mapOk left
  obtain ⟨b,again,rightPlain⟩ := mapOk right
  rw [ran,again] at records
  have plain := of_decide_eq_true leftPlain
  exact ⟨a,b,ran,again,((hashCoversDirectives officeInet officeDigest).1 _ _ _ _ a b ran again rfl plain.1
    (of_decide_eq_true rightPlain)).1 (Except.ok.inj records),plain.2⟩

end Hash

end Generator

end KeenPbr.Dnsmasq
