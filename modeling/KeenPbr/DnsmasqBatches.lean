import KeenPbr.DnsmasqPrecedence

/-! dns/dnsmasq_gen.cpp: the rows that the domains of a list are batched into. The rows of a directive
hold the domains it was given, each once and in their order, within the limits of a row. -/
namespace KeenPbr.Dnsmasq
open Generator

section Batch
variable {batch : BatchState} {fed rows : List Text}

def rowOf (lead trail : Text) (chunk : List Text) : Text := lead ++ pathOf chunk ++ trail

def fitsRow (lead trail domain : Text) : Bool := (rowOf lead trail [domain]).length ≤ maxDnsmasqRowLength

structure RowChunk (lead trail : Text) (chunk : List Text) : Prop where
  filled : chunk ≠ []
  few : chunk.length ≤ batchSize
  short : (rowOf lead trail chunk).length ≤ maxDnsmasqRowLength

/- The rows of a directive that was given these domains. -/
def RowsFor (lead trail : Text) (domains rows : List Text) : Prop :=
  ∃ chunks : List (List Text), rows = chunks.map (rowOf lead trail) ∧ chunks.flatten = domains.filter (fitsRow lead trail) ∧
    ∀ chunk ∈ chunks, RowChunk lead trail chunk

structure Filling (batch : BatchState) (fed : List Text) (chunks : List (List Text)) (pending : List Text) : Prop where
  whole : chunks.flatten ++ pending = fed.filter (fitsRow batch.lead batch.trail)
  path : batch.domainPath = pathOf pending
  count : batch.count = pending.length
  each : ∀ chunk ∈ chunks, RowChunk batch.lead batch.trail chunk
  last : pending = [] ∨ RowChunk batch.lead batch.trail pending

theorem rowLength (lead trail : Text) (chunk : List Text) :
    (rowOf lead trail chunk).length = lead.length + (pathOf chunk).length + trail.length := by
  rw [rowOf,List.length_append,List.length_append]

theorem pathSingle (domain : Text) : pathOf [domain] = '/' :: domain := by simp [pathOf]

theorem pathSnoc (chunk : List Text) (domain : Text) : pathOf (chunk ++ [domain]) = pathOf chunk ++ '/' :: domain := by simp [pathOf]

theorem longIff {path : Text} {chunk : List Text} (same : path = pathOf chunk) :
    batch.long path = !decide ((rowOf batch.lead batch.trail chunk).length ≤ maxDnsmasqRowLength) := by
  rw [BatchState.long,same,rowLength,← decide_not]
  exact decide_eq_decide.mpr Nat.not_le.symm

theorem fitsLong {domain : Text} : batch.long ('/' :: domain) = !fitsRow batch.lead batch.trail domain := longIff (pathSingle domain).symm

theorem fitsJoined {lead trail domain : Text} {chunk : List Text}
    (short : (rowOf lead trail (chunk ++ [domain])).length ≤ maxDnsmasqRowLength) :
    fitsRow lead trail domain = true := by
  rw [rowLength,pathSnoc,List.length_append] at short
  refine decide_eq_true ?_
  rw [rowLength,pathSingle]
  omega

variable {chunks : List (List Text)} {pending : List Text}

theorem Filling.flushed (filling : Filling batch fed chunks pending) (enabled : batch.enabled = true) : ∃ more : List (List Text),
    directivesIn batch.flush.2 = more.map (rowOf batch.lead batch.trail) ∧ batch.flush.1 = { batch with domainPath := [], count := 0 } ∧
      more.flatten = pending ∧ ∀ chunk ∈ more, RowChunk batch.lead batch.trail chunk := by
  unfold BatchState.flush
  rw [enabled]
  by_cases none_ : batch.count = 0
  · have empty : pending = [] := List.length_eq_zero_iff.mp (filling.count.symm.trans none_)
    refine ⟨[],?_,?_,empty.symm,nofun⟩
    · rw [decide_eq_true none_]
      rfl
    · rw [decide_eq_true none_]
      have path := filling.path
      rw [empty] at path
      cases batch
      cases none_
      cases path
      cases enabled
      rfl
  · have filled : RowChunk batch.lead batch.trail pending := by
      rcases filling.last with empty | filled
      · have count := filling.count
        rw [empty] at count
        exact absurd count none_
      · exact filled
    refine ⟨[pending],?_,?_,List.flatten_singleton,fun chunk mem => by rw [List.mem_singleton.mp mem]; exact filled⟩
    · rw [decide_eq_false none_,List.map_singleton,rowOf,← filling.path]
      rfl
    · rw [decide_eq_false none_]
      cases batch
      cases enabled
      rfl

theorem filterSnoc (fed : List Text) (p : Text → Bool) (domain : Text) : (fed ++ [domain]).filter p = fed.filter p ++ if p domain
    then [domain] else [] := by
  rw [List.filter_append,List.filter_cons]
  cases p domain <;> rfl

theorem Filling.pushed (filling : Filling batch fed chunks pending) (enabled : batch.enabled = true) (domain : Text) : ∃ more pending',
    directivesIn (batch.push domain).2 = more.map (rowOf batch.lead batch.trail) ∧ (batch.push domain).1.lead = batch.lead ∧
      (batch.push domain).1.trail = batch.trail ∧ (batch.push domain).1.enabled = true ∧
      Filling (batch.push domain).1 (fed ++ [domain]) (chunks ++ more) pending' := by
  have next : batch.domainPath ++ '/' :: domain = pathOf (pending ++ [domain]) := by rw [pathSnoc,filling.path]
  unfold BatchState.push
  rw [enabled]
  dsimp only
  rw [if_neg (by decide : ¬(!true) = true)]
  split
  · obtain ⟨more,written,after,flat,every⟩ := filling.flushed enabled
    have both : ∀ chunk ∈ chunks ++ more, RowChunk batch.lead batch.trail chunk := by
      intro chunk mem
      rcases List.mem_append.mp mem with old | new
      · exact filling.each chunk old
      · exact every chunk new
    rw [fitsLong]
    cases fits : fitsRow batch.lead batch.trail domain with
    | false =>
      rw [Bool.not_false,if_pos rfl,after]
      refine ⟨more,[],written,rfl,rfl,enabled,?_,rfl,rfl,both,.inl rfl⟩
      dsimp only
      rw [filterSnoc,fits,← filling.whole,List.flatten_append,flat]
      simp
    | true =>
      rw [Bool.not_true,if_neg Bool.false_ne_true,after]
      have single : RowChunk batch.lead batch.trail [domain] := ⟨List.cons_ne_nil _ _,Nat.le_of_ble_eq_true rfl,of_decide_eq_true fits⟩
      refine ⟨more,[domain],written,rfl,rfl,enabled,?_,(pathSingle domain).symm,rfl,both,.inr single⟩
      dsimp only
      rw [filterSnoc,fits,← filling.whole,List.flatten_append,flat]
      simp
  · rename_i room
    rw [Bool.or_eq_true,not_or,decide_eq_true_eq,ge_iff_le,Nat.not_le,longIff next,Bool.not_eq_true',Bool.not_eq_false,
      decide_eq_true_eq] at room
    have chunk : RowChunk batch.lead batch.trail (pending ++ [domain]) := by
      refine ⟨by simp,?_,room.2⟩
      rw [List.length_append,List.length_singleton,← filling.count]
      exact room.1
    refine ⟨[],pending ++ [domain],rfl,rfl,rfl,rfl,?_,next,?_,?_,.inr chunk⟩
    · dsimp only
      rw [filterSnoc,fitsJoined room.2,if_pos rfl,List.append_nil,← List.append_assoc,filling.whole]
    · dsimp only
      rw [List.length_append,List.length_singleton,← filling.count]
    · rw [List.append_nil]
      exact filling.each

end Batch

section Weaving
variable {lines : List Text} {tracks news : List (List Text)}

/- The lines are those of the tracks, which keep their order. -/
structure Woven (lines : List Text) (tracks : List (List Text)) : Prop where
  all : lines.Perm tracks.flatten
  each : ∀ track ∈ tracks, track.Sublist lines

theorem flattenZip (sizes : news.length = tracks.length) :
    (tracks.zipWith (· ++ ·) news).flatten.Perm (tracks.flatten ++ news.flatten) := by
  induction tracks generalizing news with
  | nil =>
    rw [List.length_eq_zero_iff.mp sizes]
    exact .refl _
  | cons track rest ih =>
    cases news with
    | nil => cases sizes
    | cons new more =>
      have later := ih (Nat.succ.inj sizes)
      simp only [List.zipWith_cons_cons,List.flatten_cons]
      refine (later.append_left _).trans ?_
      rw [List.append_assoc,List.append_assoc]
      refine .append_left _ ?_
      rw [← List.append_assoc,← List.append_assoc]
      exact (List.perm_append_comm).append_right _

theorem Woven.more (woven : Woven lines tracks) (sizes : news.length = tracks.length) :
    Woven (lines ++ news.flatten) (tracks.zipWith (· ++ ·) news) where
  all := (woven.all.append_right _).trans (flattenZip sizes).symm
  each track mem := by
    rw [← List.map_uncurry_zip_eq_zipWith] at mem
    obtain ⟨⟨old,new⟩,paired,rfl⟩ := List.mem_map.mp mem
    have parts := List.of_mem_zip paired
    exact (woven.each old parts.1).append (List.sublist_flatten_of_mem parts.2)

end Weaving

section Tracks
variable {template batch : BatchState} {fed rows : List Text}

structure Tracked (template batch : BatchState) (fed rows : List Text) : Prop where
  lead : batch.lead = template.lead
  trail : batch.trail = template.trail
  enabled : batch.enabled = template.enabled
  off : template.enabled = false → rows = []
  on : template.enabled = true → ∃ chunks pending, rows = chunks.map (rowOf template.lead template.trail) ∧ Filling batch fed chunks pending

theorem Tracked.start (enabled : Bool) (lead trail : Text) : Tracked { enabled, lead, trail } { enabled, lead, trail } [] [] :=
  ⟨rfl,rfl,rfl,fun _ => rfl,fun _ => ⟨[],[],rfl,rfl,rfl,rfl,nofun,.inl rfl⟩⟩

theorem Tracked.pushed (tracked : Tracked template batch fed rows) (domain : Text) :
    Tracked template (batch.push domain).1 (fed ++ [domain]) (rows ++ directivesIn (batch.push domain).2) := by
  cases enabled : template.enabled with
  | false =>
    have idle : batch.push domain = (batch,[]) := by
      unfold BatchState.push
      rw [tracked.enabled,enabled]
      rfl
    rw [idle,tracked.off enabled]
    refine ⟨tracked.lead,tracked.trail,tracked.enabled,fun _ => rfl,fun on => ?_⟩
    rw [enabled] at on
    cases on
  | true =>
    obtain ⟨chunks,pending,written,filling⟩ := tracked.on enabled
    obtain ⟨more,pending',new,lead,trail,still,after⟩ := filling.pushed (tracked.enabled.trans enabled) domain
    refine ⟨lead.trans tracked.lead,trail.trans tracked.trail,still.trans enabled.symm,fun off => ?_,fun _ =>
      ⟨chunks ++ more,pending',?_,after⟩⟩
    · rw [enabled] at off
      cases off
    · rw [new,written,List.map_append,tracked.lead,tracked.trail]

theorem Tracked.skipped (tracked : Tracked template batch fed rows) (disabled : template.enabled = false) (more : List Text) :
    Tracked template batch more rows :=
  ⟨tracked.lead,tracked.trail,tracked.enabled,tracked.off,fun on => by rw [disabled] at on; cases on⟩

theorem Tracked.flushed (tracked : Tracked template batch fed rows) : (template.enabled = false → rows ++ directivesIn batch.flush.2 = []) ∧
    (template.enabled = true → RowsFor template.lead template.trail fed (rows ++ directivesIn batch.flush.2)) := by
  refine ⟨fun disabled => ?_,fun enabled => ?_⟩
  · have idle : batch.flush = (batch,[]) := by
      unfold BatchState.flush
      rw [tracked.enabled,disabled]
      rfl
    rw [idle,tracked.off disabled]
    rfl
  · obtain ⟨chunks,pending,written,filling⟩ := tracked.on enabled
    obtain ⟨more,new,-,flat,every⟩ := filling.flushed (tracked.enabled.trans enabled)
    have whole := filling.whole
    have each := filling.each
    rw [tracked.lead,tracked.trail] at new whole every each
    refine ⟨chunks ++ more,?_,?_,fun chunk mem => ?_⟩
    · rw [new,written,List.map_append]
    · rw [List.flatten_append,flat,whole]
    · rcases List.mem_append.mp mem with old | last
      · exact each chunk old
      · exact every chunk last

inductive TrackedAll (fed : List Text) : List BatchState → List BatchState → List (List Text) → Prop where
  | nil : TrackedAll fed [] [] []
  | cons {template batch : BatchState} {rows : List Text} {templates batches : List BatchState} {tracks : List (List Text)}
      (first : Tracked template batch fed rows) (rest : TrackedAll fed templates batches tracks) :
      TrackedAll fed (template :: templates) (batch :: batches) (rows :: tracks)

theorem TrackedAll.pushed {templates batches : List BatchState} {tracks : List (List Text)}
    (tracked : TrackedAll fed templates batches tracks) (domain : Text) :
    ∃ news : List (List Text), news.length = tracks.length ∧ directivesIn (pushAll domain batches).2 = news.flatten ∧
      TrackedAll (fed ++ [domain]) templates (pushAll domain batches).1 (tracks.zipWith (· ++ ·) news) := by
  induction tracked with
  | nil => exact ⟨[],rfl,rfl,.nil⟩
  | @cons template batch rows templates batches tracks first rest ih =>
    obtain ⟨news,sizes,lines,later⟩ := ih
    refine ⟨directivesIn (batch.push domain).2 :: news,by rw [List.length_cons,List.length_cons,sizes],?_,.cons (first.pushed domain) later⟩
    rw [pushAll,List.flatten_cons,← lines]
    exact directivesInAppend _ _

theorem TrackedAll.flushed {templates batches : List BatchState} {tracks : List (List Text)}
    (tracked : TrackedAll fed templates batches tracks) :
    ∃ news : List (List Text), news.length = tracks.length ∧ directivesIn (batches.flatMap fun batch => batch.flush.2) = news.flatten ∧
      List.Forall₂ (fun template rows => (template.enabled = false → rows = []) ∧
        (template.enabled = true → RowsFor template.lead template.trail fed rows))
        templates (tracks.zipWith (· ++ ·) news) := by
  induction tracked with
  | nil => exact ⟨[],rfl,rfl,.nil⟩
  | @cons template batch rows templates batches tracks first rest ih =>
    obtain ⟨news,sizes,lines,later⟩ := ih
    refine ⟨directivesIn batch.flush.2 :: news,by rw [List.length_cons,List.length_cons,sizes],?_,.cons first.flushed later⟩
    rw [List.flatMap_cons,directivesInAppend,lines,List.flatten_cons]

end Tracks

namespace Generator
variable {inet : Inet} {g : Generator} {plan : ListPlan} {batches : Batches} {seen lines : List Text}

def unboundOf (g : Generator) (plan : ListPlan) (bares : List Text) : List Text := bares.filter fun bare => !g.directlyBound plan bare

structure ListTracks (g : Generator) (plan : ListPlan) (batches : Batches) (seen lines ipset rebind : List Text)
    (servers : List (List Text)) : Prop where
  woven : Woven lines (ipset :: rebind :: servers)
  routed : Tracked (g.newBatches true plan).ipset batches.ipset seen ipset
  rebound : Tracked (g.newBatches true plan).rebind batches.rebind seen rebind
  served : TrackedAll (g.unboundOf plan seen) (g.newBatches true plan).servers batches.servers servers

theorem startTracks : ListTracks g plan (g.newBatches true plan) [] [] [] [] (plan.servers.map fun _ => []) where
  woven := by
    refine ⟨?_,fun track mem => ?_⟩
    · simp
    · rcases List.mem_cons.mp mem with rfl | mem
      · exact .refl _
      · rcases List.mem_cons.mp mem with rfl | mem
        · exact .refl _
        · obtain ⟨server,-,rfl⟩ := List.mem_map.mp mem
          exact .refl _
  routed := by
    unfold newBatches ipsetBatch
    dsimp only
    cases g.resolverType with
    | dnsmasqIpset | dnsmasqNftset => exact .start _ _ _
  rebound := .start _ _ _
  served := by
    unfold newBatches
    dsimp only
    induction plan.servers with
    | nil => exact .nil
    | cons server rest ih => exact .cons (.start _ _ _) ih

def serverPush (g : Generator) (plan : ListPlan) (batches : List BatchState) (bare : Text) : List BatchState × List Line :=
  if g.directlyBound plan bare then (batches,[]) else pushAll bare batches

theorem pushEntryEq (bare : Text) : g.pushEntry plan batches bare =
    (⟨(batches.ipset.push bare).1,(batches.rebind.push bare).1,(g.serverPush plan batches.servers bare).1⟩,
      (batches.ipset.push bare).2 ++ (batches.rebind.push bare).2 ++ (g.serverPush plan batches.servers bare).2) := by
  unfold pushEntry serverPush
  cases g.directlyBound plan bare with
  | true | false => rfl

theorem zipEmpty (tracks : List (List Text)) : tracks.zipWith (· ++ ·) (tracks.map fun _ => ([] : List Text)) = tracks := by
  induction tracks with
  | nil => rfl
  | cons track rest ih => rw [List.map_cons,List.zipWith_cons_cons,List.append_nil,ih]

theorem serverPushTracks {templates servers : List BatchState} {tracks : List (List Text)}
    (served : TrackedAll (g.unboundOf plan seen) templates servers tracks) (bare : Text) : ∃ news : List (List Text),
      news.length = tracks.length ∧ directivesIn (g.serverPush plan servers bare).2 = news.flatten ∧
      TrackedAll (g.unboundOf plan (seen ++ [bare])) templates (g.serverPush plan servers bare).1 (tracks.zipWith (· ++ ·) news) := by
  have fed : g.unboundOf plan (seen ++ [bare]) = g.unboundOf plan seen ++ if g.directlyBound plan bare then [] else [bare] := by
    rw [unboundOf,filterSnoc]
    cases g.directlyBound plan bare <;> rfl
  rw [fed]
  unfold serverPush
  cases g.directlyBound plan bare with
  | true =>
    refine ⟨tracks.map fun _ => [],List.length_map _,?_,?_⟩
    · simp [directivesIn]
    · rw [zipEmpty,if_pos rfl,if_pos rfl,List.append_nil]
      exact served
  | false => exact served.pushed bare

theorem pushTracks {ipset rebind : List Text} {servers : List (List Text)}
    (tracks : ListTracks g plan batches seen lines ipset rebind servers) (bare : Text) :
    ∃ ipset rebind servers, ListTracks g plan (g.pushEntry plan batches bare).1 (seen ++ [bare])
      (lines ++ directivesIn (g.pushEntry plan batches bare).2) ipset rebind servers := by
  obtain ⟨news,sizes,written,served⟩ := serverPushTracks tracks.served bare
  have lengths : (directivesIn (batches.ipset.push bare).2 :: directivesIn (batches.rebind.push bare).2 :: news).length
    = (ipset :: rebind :: servers).length := by
    rw [List.length_cons,List.length_cons,List.length_cons,List.length_cons,sizes]
  have woven := tracks.woven.more lengths
  rw [pushEntryEq]
  refine ⟨ipset ++ directivesIn (batches.ipset.push bare).2,rebind ++ directivesIn (batches.rebind.push bare).2,
    servers.zipWith (· ++ ·) news,?_,
    tracks.routed.pushed bare,tracks.rebound.pushed bare,served⟩
  dsimp only
  rw [directivesInAppend,directivesInAppend,written]
  rw [List.flatten_cons,List.flatten_cons] at woven
  rw [List.append_assoc (directivesIn _)]
  exact woven

theorem skipTracks {ipset rebind : List Text} {servers : List (List Text)}
    (tracks : ListTracks g plan batches seen lines ipset rebind servers)
    (idle : (!plan.needsIpset && !plan.allowDomainRebinding && plan.servers.isEmpty) = true) (bare : Text) :
    ListTracks g plan batches (seen ++ [bare]) lines ipset rebind servers := by
  simp only [Bool.and_eq_true,Bool.not_eq_true',List.isEmpty_iff] at idle
  obtain ⟨⟨unrouted,kept⟩,unserved⟩ := idle
  have templates : (g.newBatches true plan).servers = [] := by
    unfold newBatches
    rw [unserved]
    rfl
  refine ⟨tracks.woven,tracks.routed.skipped ?_ _,tracks.rebound.skipped kept _,?_⟩
  · unfold newBatches ipsetBatch
    rw [unrouted]
    cases g.resolverType <;> rfl
  · have served := tracks.served
    rw [templates] at served ⊢
    generalize batches.servers = held at served ⊢
    cases served
    exact .nil

theorem visitTracks {ipset rebind : List Text} {servers : List (List Text)} (entries : List (EntryType × Text)) (state : ListState)
    (tracks : ListTracks g plan state.batches seen lines ipset rebind servers) : ∃ ipset rebind servers,
      ListTracks g plan (g.visitEntries true plan state entries).1.batches (seen ++ entries.filterMap bareOf)
        (lines ++ directivesOf (g.visitEntries true plan state entries).2) ipset rebind servers := by
  induction entries generalizing state seen lines ipset rebind servers with
  | nil =>
    refine ⟨ipset,rebind,servers,?_⟩
    simpa [visitEntries,directivesOf] using tracks
  | cons entry rest ih =>
    rw [visitEntries]
    dsimp only
    rw [List.filterMap_cons,directivesAppend]
    cases taken : bareOf entry with
    | none =>
      rw [visitSkips taken]
      exact ih state tracks
    | some bare =>
      rw [visitTakes taken]
      dsimp only
      rw [show seen ++ bare :: rest.filterMap bareOf = (seen ++ [bare]) ++ rest.filterMap bareOf by rw [List.append_assoc]; rfl]
      split
      · rename_i idle
        rw [directivesMap,List.nil_append]
        exact ih { state with suppressed := if plan.servers.isEmpty then state.suppressed else g.suppress state.suppressed bare }
          (skipTracks tracks idle bare)
      · obtain ⟨ipset',rebind',servers',pushed⟩ := pushTracks tracks bare
        have header : directivesIn (listHeader plan state.wroteHeader) = [] := by
          rw [listHeader]
          split <;> rfl
        rw [directivesAppend,directivesMap,List.nil_append,directivesWrite,directivesInAppend,header,List.nil_append,← List.append_assoc]
        exact ih ⟨_,_,_⟩ pushed

theorem ipsetEnabled : (g.newBatches true plan).ipset.enabled = plan.needsIpset := by
  unfold newBatches ipsetBatch
  cases g.resolverType <;> rfl

/- What the rows of one list hold: those of each directive that is asked for, the domains it is given. -/
theorem listRowsExact (g : Generator) (suppressed : List Bool) {name : Text} {content : List Text} (listed : g.lists name = some content) :
    ∃ (ipset rebind : List Text) (servers : List (List Text)),
      Woven (directivesOf (g.listSection inet true suppressed name).2) (ipset :: rebind :: servers) ∧
      (if (g.listPlan name).needsIpset then
        RowsFor (g.newBatches true (g.listPlan name)).ipset.lead (g.newBatches true (g.listPlan name)).ipset.trail
          (bares inet content) ipset
      else ipset = []) ∧
      (if (g.listPlan name).allowDomainRebinding then RowsFor (text "rebind-domain-ok=") (text "/") (bares inet content) rebind
        else rebind = []) ∧
      List.Forall₂ (fun server rows => RowsFor (text "server=") ('/' :: serverAddress server.resolvedIp server.port)
        (g.unboundOf (g.listPlan name) (bares inet content)) rows) (g.listPlan name).servers servers := by
  have begun : ListTracks g (g.listPlan name) (g.newBatches true (g.listPlan name)) [] [] [] []
    ((g.listPlan name).servers.map fun _ => []) := startTracks
  obtain ⟨ipset,rebind,servers,tracks⟩ :=
    visitTracks (listEntries inet content) ⟨suppressed,false,g.newBatches true (g.listPlan name)⟩ begun
  rw [List.nil_append,List.nil_append] at tracks
  unfold listSection
  rw [listed]
  dsimp only
  generalize g.visitEntries true (g.listPlan name) ⟨suppressed,false,g.newBatches true (g.listPlan name)⟩
    (listEntries inet content) = visited at tracks ⊢
  obtain ⟨news,sizes,written,served⟩ := tracks.served.flushed
  have lengths : (directivesIn visited.1.batches.ipset.flush.2 :: directivesIn visited.1.batches.rebind.flush.2 :: news).length =
      (ipset :: rebind :: servers).length := by
    rw [List.length_cons,List.length_cons,List.length_cons,List.length_cons,sizes]
  have margin : directivesIn (if visited.1.wroteHeader then [Line.blank] else []) = [] := by
    split <;> rfl
  refine ⟨ipset ++ directivesIn visited.1.batches.ipset.flush.2,rebind ++ directivesIn visited.1.batches.rebind.flush.2,
    servers.zipWith (· ++ ·) news,?_,?_,?_,?_⟩
  · have woven := tracks.woven.more lengths
    rw [List.flatten_cons,List.flatten_cons] at woven
    rw [directivesAppend,directivesWrite,directivesInAppend,margin,List.append_nil,Batches.flush,directivesInAppend,
      directivesInAppend,written,
      List.append_assoc (directivesIn _)]
    exact woven
  · obtain ⟨off,on⟩ := tracks.routed.flushed
    rw [ipsetEnabled] at off on
    cases needs : (g.listPlan name).needsIpset with
    | false => exact off needs
    | true => exact on needs
  · obtain ⟨off,on⟩ := tracks.rebound.flushed
    cases allows : (g.listPlan name).allowDomainRebinding with
    | false => exact off allows
    | true => exact on allows
  · exact (List.forall₂_map_left_iff.mp served).imp fun server rows both => both.2 rfl

/- The office list: the domain that a server names itself has no row of the list's server, and a domain that is listed
twice stands twice in one row. -/
theorem pinnedUnserved : directivesOf ((officeGenerator []).listSection officeInet true [] (text "work")).2 =
      [text "ipset=/work.example/wiki.intranet.example/kpbr4d_work,kpbr6d_work",text "server=/work.example/10.8.0.1#5353"] ∧
    bares officeInet [text "work.example",text "wiki.intranet.example"] = [text "work.example",text "wiki.intranet.example"] ∧
    directivesOf (({ officeGenerator [] with lists := fun _ => some [text "a.example",text "a.example"] } : Generator).listSection
      officeInet true []
      (text "work")).2 = [text "ipset=/a.example/a.example/kpbr4d_work,kpbr6d_work",text "server=/a.example/a.example/10.8.0.1#5353"] := by
  decide +kernel

theorem officeRows : ∃ ipset server : List Text,
    Woven (directivesOf ((officeGenerator []).listSection officeInet true [] (text "work")).2) [ipset,[],server] ∧
    RowsFor (text "ipset=") (text "/kpbr4d_work,kpbr6d_work") [text "work.example",text "wiki.intranet.example"] ipset ∧
    RowsFor (text "server=") (text "/10.8.0.1#5353") [text "work.example"] server := by
  obtain ⟨ipset,rebind,servers,woven,routed,rebound,served⟩ :=
    @listRowsExact officeInet (officeGenerator []) [] (text "work") [text "work.example",text "wiki.intranet.example"] rfl
  have given : bares officeInet
    [text "work.example",text "wiki.intranet.example"] = [text "work.example",text "wiki.intranet.example"] := by decide
  rw [if_pos (by decide),given] at routed
  rw [if_neg (by decide)] at rebound
  subst rebound
  rw [given] at served
  cases served with
  | cons here rest =>
    cases rest
    exact ⟨ipset,_,woven,routed,here⟩

end Generator
end KeenPbr.Dnsmasq
