import KeenPbr.SubscriptionAgain
import KeenPbr.SubscriptionStore

/-! config/subscription_refresh.cpp: which transports a fetched document updates. -/
namespace KeenPbr.SubscriptionRefresh
open SubscriptionImport SubscriptionStore

section Keys
variable (hex : Bytes → String) (plan : SubscriptionImportPlan)

def inventoryCandidate (candidate : SubscriptionCandidate) : Bool :=
  candidate.disposition != .malformed && candidate.disposition != .duplicateInDocument && candidate.disposition != .schemeNotSupported

/- A candidate with its link; the source walks over both by one index. -/
abbrev Row := SubscriptionCandidate × Bytes

def inventoryRows : List Row := (plan.candidates.zip plan.links).filter fun row => inventoryCandidate row.1

def sameName (candidate other : SubscriptionCandidate) : Bool :=
  inventoryCandidate other && other.scheme == candidate.scheme && other.remark == candidate.remark

def stableCandidate (candidate : SubscriptionCandidate) : Bool :=
  if candidate.remark.isEmpty then false else plan.candidates.countP (sameName candidate) == 1

def nameText (candidate : SubscriptionCandidate) : Bytes := candidate.scheme ++ 10 :: candidate.remark

def subscriptionCandidateKey (row : Row) : String :=
  if stableCandidate plan row.1 then "named:" ++ hex (nameText row.1) else "exact:" ++ subscriptionLinkFingerprint hex row.2

def inventory : List Candidate :=
  (inventoryRows plan).map fun row =>
    ⟨subscriptionCandidateKey hex plan row,subscriptionLinkFingerprint hex row.2,stableCandidate plan row.1⟩

def bindingOf (tag : String) (row : Row) : Binding :=
  ⟨tag,subscriptionCandidateKey hex plan row,subscriptionLinkFingerprint hex row.2,stableCandidate plan row.1⟩

/- The bindings of one source line. -/
def subscriptionImportBindings (sourceLine : Nat) (tag : String) : List Binding :=
  ((inventoryRows plan).filter fun row => row.1.sourceLine == sourceLine).map (bindingOf hex plan tag)

end Keys

section Fetching
variable (hex : Bytes → String)

structure Fetched where
  body : Bytes
  limits : Limits
  title : String

inductive Response where
  | document (fetched : Fetched)
  | invalid
  | failed

def subscriptionRefreshMetadata (fetched : Fetched) (plan : SubscriptionImportPlan) (now : Int) : Option Metadata :=
  if plan.kind ≠ .linkList ∧ plan.kind ≠ .base64LinkList ∧ plan.kind ≠ .jsonDocument then none
  else
    let counted := plan.candidates.countP fun item => item.disposition != .duplicateInDocument && item.disposition != .malformed
    let listed := plan.kind ≠ .jsonDocument
    some {
      limits := { fetched.limits with updatedAt := some now, nodeCount := if listed then some counted else none, error := none }
      checkedAt := some now
      providerName := if fetched.title = "" then none else some fetched.title
      inventory := if listed then some (inventory hex plan) else none }

structure Transport where
  tag : String
  fingerprint : String

structure Update where
  tag : String
  link : Bytes
  previousFingerprint : String
  candidateKey : String
  nextFingerprint : String

structure UpdateResult where
  appliedTags : List String
  errorCode : String

/- What a refresh meets: the response, the lease, the source as it is found under the lease, and the callbacks
(none for one that throws). -/
structure Surroundings where
  now : Int
  urlAllowed : Bool
  response : Response
  leaseRefused : Bool
  later : Option Source
  leaseLost : Bool
  reserveFails : Bool
  readTransports : Option (Option (List Transport))
  applyUpdates : Option (List Update → Option UpdateResult)

def failedMetadata (now : Int) (error : String) : Metadata := { checkedAt := some now, limits := { error := some error } }

def fetchMetadata (source : Source) (around : Surroundings) : Metadata × SubscriptionImportPlan :=
  if source.url.utf8ByteSize > 4096 || !around.urlAllowed then (failedMetadata around.now "invalid_document",{})
  else
    match around.response with
    | .invalid => (failedMetadata around.now "invalid_document",{})
    | .failed => (failedMetadata around.now "fetch_failed",{})
    | .document fetched =>
      let plan := planSubscriptionImport hex [] [] fetched.body
      match subscriptionRefreshMetadata hex fetched plan around.now with
      | none => (failedMetadata around.now "invalid_document",plan)
      | some metadata => (metadata,plan)

def responseSourceVersion (source : Source) : Source := { source with name := "", nameIsCustom := none, refreshIntervalSeconds := none }

def syncErrorCode (error : String) : String :=
  if ["apply_failed","transport_unavailable","ambiguous_binding","transport_changed","apply_unavailable"].contains error
    then error else "apply_failed"

end Fetching

section Linking
variable (hex : Bytes → String) (plan : SubscriptionImportPlan)

/- The references of a source while they are worked on. -/
structure Links where
  bindings : List Binding
  linked : List String
  bound : List String
  transports : Option (List Transport) := none
  absent : List String := []
  updates : List Binding := []
  error : String := ""

def storedLinks (source : Source) : Links :=
  let bindings := source.bindings.getD []
  { bindings, linked := (source.transportTags.getD []).dedup, bound := (bindings.map Binding.tag).dedup }

def readLinks (links : Links) (readTransports : Option (Option (List Transport))) : Links :=
  match readTransports with
  | none => links
  | some result =>
    if links.linked.isEmpty && links.bound.isEmpty then links
    else
      match result with
      | none => { links with error := "transport_unavailable" }
      | some transports =>
        let existing := transports.map Transport.tag
        { links with
          transports := some transports
          absent := (links.linked ++ links.bound).dedup.filter fun tag => !existing.contains tag
          linked := links.linked.filter fun tag => existing.contains tag
          bound := links.bound.filter fun tag => existing.contains tag
          bindings := links.bindings.filter fun binding => existing.contains binding.tag }

def unboundLeft (links : Links) : Bool := links.linked.any fun tag => !links.bound.contains tag

def bindTransport (links : Links) (transport : Transport) : Links :=
  if !links.linked.contains transport.tag || links.bound.contains transport.tag || transport.fingerprint == "" then links
  else
    match (inventoryRows plan).find? fun row => subscriptionLinkFingerprint hex row.2 == transport.fingerprint with
    | none => links
    | some row =>
      let addition := subscriptionImportBindings hex plan row.1.sourceLine transport.tag
      { links with
        bindings := links.bindings ++ addition
        updates := links.updates ++ addition
        bound := links.bound ++ [transport.tag] }

def bootstrap (links : Links) : Links :=
  if !unboundLeft links then links
  else
    match links.transports with
    | none => { links with error := "transport_unavailable" }
    | some transports =>
      let linked := transports.foldl (bindTransport hex plan) links
      if linked.error == "" && unboundLeft linked then { linked with error := "ambiguous_binding" } else linked

def candidateOf (binding : Binding) : Option Row :=
  (inventoryRows plan).find? fun row => subscriptionCandidateKey hex plan row == binding.key

def renamed (binding : Binding) : Option Binding :=
  if (candidateOf hex plan binding).isSome then none
  else
    match (inventoryRows plan).filter fun row => subscriptionLinkFingerprint hex row.2 == binding.fingerprint with
    | [row] => some ⟨binding.tag,subscriptionCandidateKey hex plan row,binding.fingerprint,stableCandidate plan row.1⟩
    | _ => none

def changedCandidate (binding : Binding) : Option Row :=
  (candidateOf hex plan binding).filter fun row => subscriptionLinkFingerprint hex row.2 != binding.fingerprint

def matched (binding : Binding) (row : Row) : Bool := binding.stable && stableCandidate plan row.1

def planUpdate (binding : Binding) : Option Update :=
  ((changedCandidate hex plan binding).filter (matched plan binding)).map fun row =>
    ⟨binding.tag,row.2,binding.fingerprint,subscriptionCandidateKey hex plan row,subscriptionLinkFingerprint hex row.2⟩

def ambiguous (binding : Binding) : Bool := (changedCandidate hex plan binding).any fun row => !matched plan binding row

end Linking

section Refreshing
variable (hex : Bytes → String)

structure Outcome where
  sent : List Update := []
  written : Option (Metadata × List String) := none

def appliedBindings (updates : List Update) (result : UpdateResult) : List Binding :=
  (updates.filter fun update => result.appliedTags.contains update.tag).map fun update =>
    ⟨update.tag,update.candidateKey,update.nextFingerprint,true⟩

def sendUpdates (around : Surroundings) (updates : List Update) (error : String) : List Update × List Binding × String :=
  if updates.isEmpty then ([],[],error)
  else
    match around.applyUpdates with
    | none => ([],[],"apply_unavailable")
    | some apply =>
      if around.reserveFails then ([],[],"apply_failed")
      else
        match apply updates with
        | none => (updates,[],"apply_failed")
        | some result =>
          let applied := appliedBindings updates result
          (updates,applied,
            if result.errorCode != "" then syncErrorCode result.errorCode
            else if applied.length < updates.length then "apply_failed"
            else error)

def updateTransports (around : Surroundings) (later : Source) (metadata : Metadata) (plan : SubscriptionImportPlan) : Outcome :=
  let links := bootstrap hex plan (readLinks (storedLinks later) around.readTransports)
  let error := if links.bindings.any (ambiguous hex plan) then "ambiguous_binding" else links.error
  let (sent,applied,error) := sendUpdates around (links.bindings.filterMap (planUpdate hex plan)) error
  let metadata := { metadata with
    bindingUpdates := some (links.updates ++ links.bindings.filterMap (renamed hex plan) ++ applied)
    lastSyncError := some error }
  { sent, written := if around.leaseLost then none else some (metadata,links.absent) }

def refresh (source : Source) (around : Surroundings) : Outcome :=
  let (metadata,plan) := fetchMetadata hex source around
  if around.leaseRefused then {}
  else
    match around.later with
    | none => {}
    | some later =>
      if responseSourceVersion later ≠ responseSourceVersion source then {}
      else if later.checkedAt.getD 0 > around.now then {}
      else if metadata.limits.error.isSome then { written := if around.leaseLost then none else some (metadata,[]) }
      else updateTransports hex around later metadata plan

end Refreshing

section Plans
variable {hex : Bytes → String} {state : PlanState} {index : Nat} {lines : List DocumentLine}

theorem planLength : (planLines hex [] [] state index lines).length = lines.length := by
  induction lines generalizing state index with
  | nil => rfl
  | cons line rest ih =>
    rw [planLines,List.length_cons,List.length_cons,ih]

theorem lineSupported (line : DocumentLine) (listed : inventoryCandidate (planLine hex [] [] state index line).1 = true) :
    subscriptionSchemeSupported (planLine hex [] [] state index line).1.scheme = true := by
  revert listed
  unfold planLine
  dsimp only
  split
  · exact nofun
  · split
    · exact nofun
    · rename_i supported
      rw [Bool.not_eq_true',Bool.not_eq_false] at supported
      split
      · exact nofun
      · split
        · exact fun _ => supported
        · split
          · exact fun _ => supported
          · split
            · exact fun _ => supported
            · exact fun _ => supported

theorem planSupported : ∀ candidate ∈ planLines hex [] [] state index lines, inventoryCandidate candidate = true →
    subscriptionSchemeSupported candidate.scheme = true := by
  induction lines generalizing state index with
  | nil => exact nofun
  | cons line rest ih =>
    intro candidate mem listed
    rw [planLines] at mem
    rcases List.mem_cons.mp mem with here | later
    · rw [here] at listed ⊢
      exact lineSupported line listed
    · exact ih candidate later listed

theorem schemePlain {scheme : Bytes} (supported : subscriptionSchemeSupported scheme = true) : 10 ∉ scheme := by
  have plain : ∀ value ∈ subscriptionSchemes, 10 ∉ ascii value := by
    decide
  obtain ⟨value,listed,same⟩ := List.any_eq_true.mp supported
  rw [beq_iff_eq.mp same]
  exact plain value listed

structure Paired (plan : SubscriptionImportPlan) : Prop where
  linked : plan.candidates.length = plan.links.length
  plain : ∀ candidate ∈ plan.candidates, inventoryCandidate candidate = true → 10 ∉ candidate.scheme

theorem planPaired (hex : Bytes → String) (body : Bytes) : Paired (planSubscriptionImport hex [] [] body) := by
  unfold planSubscriptionImport
  split
  · exact ⟨rfl,nofun⟩
  · refine ⟨?_,fun candidate mem listed => schemePlain (planSupported candidate mem listed)⟩
    rw [planLength,List.length_map]

theorem fetchPaired (hex : Bytes → String) (source : Source) (around : Surroundings) : Paired (fetchMetadata hex source around).2 := by
  unfold fetchMetadata
  split
  · exact ⟨rfl,nofun⟩
  · split
    · exact ⟨rfl,nofun⟩
    · exact ⟨rfl,nofun⟩
    · dsimp only
      split
      · exact planPaired hex _
      · exact planPaired hex _

end Plans

section Names
variable {hex : Bytes → String} {plan : SubscriptionImportPlan} {row other : Row}

theorem rowListed (mem : row ∈ inventoryRows plan) : row.1 ∈ plan.candidates ∧ inventoryCandidate row.1 = true := by
  obtain ⟨zipped,listed⟩ := List.mem_filter.mp mem
  exact ⟨(List.of_mem_zip zipped).1,listed⟩

theorem nameSplit {candidate other : SubscriptionCandidate} (plain : 10 ∉ candidate.scheme) (otherPlain : 10 ∉ other.scheme)
    (same : nameText candidate = nameText other) : candidate.scheme = other.scheme ∧ candidate.remark = other.remark := by
  have front := congrArg (List.takeWhile (· != 10)) same
  have back := congrArg (List.dropWhile (· != 10)) same
  rw [nameText,nameText,takeUntil plain,takeUntil otherPlain] at front
  rw [nameText,nameText,dropUntil plain,dropUntil otherPlain] at back
  exact ⟨front,(List.cons.inj back).2⟩

theorem stableAlone (paired : Paired plan) (mem : row ∈ inventoryRows plan) (stable : stableCandidate plan row.1 = true) :
    (inventoryRows plan).filter (fun other => sameName row.1 other.1) = [row] := by
  unfold stableCandidate at stable
  split at stable
  · cases stable
  · rw [beq_iff_eq] at stable
    have same : ∀ other : Row, (sameName row.1 other.1 && inventoryCandidate other.1) = sameName row.1 other.1 := by
      intro other
      cases listed : inventoryCandidate other.1 with
      | true => rw [Bool.and_true]
      | false => rw [Bool.and_false,sameName,listed,Bool.false_and,Bool.false_and]
    have count : ((inventoryRows plan).filter fun other => sameName row.1 other.1).length = 1 := by
      have first : (plan.candidates.zip plan.links).map Prod.fst = plan.candidates := List.map_fst_zip (Nat.le_of_eq paired.linked)
      have whole := List.countP_map (p := sameName row.1) (f := Prod.fst) (l := plan.candidates.zip plan.links)
      rw [first,stable] at whole
      rw [inventoryRows,List.filter_filter,List.filter_congr fun other _ => same other,← List.countP_eq_length_filter]
      exact whole.symm
    obtain ⟨only,alone⟩ := List.length_eq_one_iff.mp count
    have own : row ∈ (inventoryRows plan).filter fun other => sameName row.1 other.1 := by
      refine List.mem_filter.mpr ⟨mem,?_⟩
      rw [sameName,(rowListed mem).2,beq_self_eq_true,beq_self_eq_true]
      rfl
    rw [alone] at own ⊢
    rw [List.mem_singleton.mp own]

theorem namedExact (first second : String) : "named:" ++ first ≠ "exact:" ++ second := by
  intro same
  have texts := congrArg String.toList same
  rw [String.toList_append,String.toList_append] at texts
  exact absurd (List.cons.inj texts).1 (by decide)

/- No two names of the inventory have one digest. -/
def Distinguished (hex : Bytes → String) (plan : SubscriptionImportPlan) : Prop :=
  ∀ row ∈ inventoryRows plan, ∀ other ∈ inventoryRows plan, hex (nameText row.1) = hex (nameText other.1) →
    nameText row.1 = nameText other.1

theorem stableKey (paired : Paired plan) (distinguished : Distinguished hex plan) (mem : row ∈ inventoryRows plan)
    (stable : stableCandidate plan row.1 = true) (otherMem : other ∈ inventoryRows plan)
    (same : subscriptionCandidateKey hex plan other = subscriptionCandidateKey hex plan row) : other = row := by
  rw [subscriptionCandidateKey,subscriptionCandidateKey,if_pos stable] at same
  split at same
  · have digest : hex (nameText other.1) = hex (nameText row.1) := by
      have texts := congrArg String.toList same
      rw [String.toList_append,String.toList_append] at texts
      exact String.toList_inj.mp (List.append_cancel_left texts)
    obtain ⟨listed,candidate⟩ := rowListed mem
    obtain ⟨otherListed,otherCandidate⟩ := rowListed otherMem
    obtain ⟨scheme,remark⟩ := nameSplit (paired.plain _ otherListed otherCandidate) (paired.plain _ listed candidate)
      (distinguished other otherMem row mem digest)
    have own : other ∈ (inventoryRows plan).filter fun other => sameName row.1 other.1 := by
      refine List.mem_filter.mpr ⟨otherMem,?_⟩
      rw [sameName,otherCandidate,scheme,remark,beq_self_eq_true,beq_self_eq_true]
      rfl
    rw [stableAlone paired mem stable] at own
    exact List.mem_singleton.mp own
  · exact absurd same.symm (namedExact _ _)

end Names

section Bindings
variable {hex : Bytes → String} {plan : SubscriptionImportPlan} {source : Source} {links : Links}

def Rooted (hex : Bytes → String) (plan : SubscriptionImportPlan) (source : Source) (links : Links) : Prop :=
  ∀ binding ∈ links.bindings, binding ∈ source.bindings.getD [] ∨ ∃ tag, ∃ row ∈ inventoryRows plan, binding = bindingOf hex plan tag row

theorem importedRow {sourceLine : Nat} {tag : String} {binding : Binding}
    (mem : binding ∈ subscriptionImportBindings hex plan sourceLine tag) :
    ∃ row ∈ inventoryRows plan, binding = bindingOf hex plan tag row := by
  obtain ⟨row,listed,rfl⟩ := List.mem_map.mp mem
  exact ⟨row,(List.mem_filter.mp listed).1,rfl⟩

theorem bindRooted (rooted : Rooted hex plan source links) (transport : Transport) :
    Rooted hex plan source (bindTransport hex plan links transport) ∧ (bindTransport hex plan links transport).absent = links.absent := by
  unfold bindTransport
  split
  · exact ⟨rooted,rfl⟩
  · split
    · exact ⟨rooted,rfl⟩
    · refine ⟨fun binding mem => ?_,rfl⟩
      rcases List.mem_append.mp mem with old | fresh
      · exact rooted binding old
      · exact .inr ⟨transport.tag,importedRow fresh⟩

theorem bootstrapRooted (rooted : Rooted hex plan source links) :
    Rooted hex plan source (bootstrap hex plan links) ∧ (bootstrap hex plan links).absent = links.absent := by
  have walk : ∀ transports : List Transport, Rooted hex plan source (transports.foldl (bindTransport hex plan) links) ∧
      (transports.foldl (bindTransport hex plan) links).absent = links.absent := by
    intro transports
    induction transports using List.reverseRecOn with
    | nil => exact ⟨rooted,rfl⟩
    | append_singleton transports transport ih =>
      rw [List.foldl_append]
      obtain ⟨here,same⟩ := bindRooted ih.1 transport
      exact ⟨here,same.trans ih.2⟩
  unfold bootstrap
  split
  · exact ⟨rooted,rfl⟩
  · split
    · exact ⟨rooted,rfl⟩
    · rename_i transports _
      dsimp only
      split
      · exact walk transports
      · exact walk transports

theorem readRooted (source : Source) (readTransports : Option (Option (List Transport))) :
    Rooted hex plan source (readLinks (storedLinks source) readTransports) ∧
      ∀ tag ∈ (readLinks (storedLinks source) readTransports).absent,
        ∃ transports, readTransports = some (some transports) ∧ tag ∉ transports.map Transport.tag := by
  unfold readLinks
  split
  · exact ⟨fun binding mem => .inl mem,nofun⟩
  · split
    · exact ⟨fun binding mem => .inl mem,nofun⟩
    · split
      · exact ⟨fun binding mem => .inl mem,nofun⟩
      · rename_i transports
        refine ⟨fun binding mem => .inl (List.mem_filter.mp mem).1,fun tag mem => ⟨transports,rfl,fun existing => ?_⟩⟩
        have gone := (List.mem_filter.mp mem).2
        rw [List.contains_iff_mem.mpr existing] at gone
        cases gone

/- Why an update is sent: a stable binding, and one candidate of its name whose link is another now. -/
structure Justified (hex : Bytes → String) (plan : SubscriptionImportPlan) (source : Source) (update : Update)
    (binding : Binding) (row : Row) : Prop where
  bound : binding ∈ source.bindings.getD []
  tagged : binding.tag = update.tag
  stable : binding.stable = true
  key : binding.key = "named:" ++ hex (nameText row.1)
  once : (inventoryRows plan).filter (fun other => subscriptionCandidateKey hex plan other == binding.key) = [row]
  named : (inventoryRows plan).filter (fun other => sameName row.1 other.1) = [row]
  link : update.link = row.2
  differs : subscriptionLinkFingerprint hex row.2 ≠ binding.fingerprint

theorem updateJustified (paired : Paired plan) (distinguished : Distinguished hex plan) (rooted : Rooted hex plan source links)
    {update : Update}
    (sent : update ∈ links.bindings.filterMap (planUpdate hex plan)) : ∃ binding row, Justified hex plan source update binding row := by
  obtain ⟨binding,mem,planned⟩ := List.mem_filterMap.mp sent
  obtain ⟨row,chosen,rfl⟩ := Option.map_eq_some_iff.mp planned
  obtain ⟨changed,both⟩ := Option.filter_eq_some_iff.mp chosen
  obtain ⟨found,differs⟩ := Option.filter_eq_some_iff.mp changed
  rw [matched,Bool.and_eq_true] at both
  rw [bne_iff_ne] at differs
  have listed := List.mem_of_find?_eq_some found
  have equal := List.find?_some found
  have key : subscriptionCandidateKey hex plan row = binding.key := beq_iff_eq.mp equal
  have stableOf {other : Row} (otherMem : other ∈ inventoryRows plan)
    (same : subscriptionCandidateKey hex plan other = binding.key) : other = row :=
    stableKey paired distinguished listed both.2 otherMem (same.trans key.symm)
  have alone := stableAlone paired listed both.2
  refine ⟨binding,row,?_,rfl,both.1,?_,?_,alone,rfl,differs⟩
  · rcases rooted binding mem with stored | ⟨tag,own,ownMem,rfl⟩
    · exact stored
    · rw [stableOf ownMem rfl] at differs
      exact absurd rfl differs
  · rw [← key,subscriptionCandidateKey,if_pos both.2]
  · rw [← alone]
    refine List.filter_congr fun other otherMem => ?_
    rw [Bool.eq_iff_iff,beq_iff_eq]
    constructor
    · intro same
      rw [stableOf otherMem same,sameName,(rowListed listed).2,beq_self_eq_true,beq_self_eq_true]
      rfl
    · intro same
      have own : other ∈ (inventoryRows plan).filter fun other => sameName row.1 other.1 := List.mem_filter.mpr ⟨otherMem,same⟩
      rw [alone] at own
      rw [List.mem_singleton.mp own,key]

theorem sentUpdates (around : Surroundings) (updates : List Update) (error : String) :
    ∀ update ∈ (sendUpdates around updates error).1, update ∈ updates := by
  unfold sendUpdates
  split
  · exact nofun
  · split
    · exact nofun
    · split
      · exact nofun
      · split
        · exact fun _ mem => mem
        · exact fun _ mem => mem

end Bindings

section Result
variable (hex : Bytes → String) (source : Source) (around : Surroundings)

def Idle (source : Source) (around : Surroundings) (outcome : Outcome) : Prop :=
  outcome.sent = [] ∧ ∀ metadata absent, outcome.written = some (metadata,absent) →
    absent = [] ∧ ∃ later, around.later = some later ∧ responseSourceVersion later = responseSourceVersion source

theorem idleNothing : Idle source around {} := ⟨rfl,fun _ _ written => (nomatch written)⟩

theorem refreshCases : Idle source around (refresh hex source around) ∨
    ∃ later metadata, around.later = some later ∧ responseSourceVersion later = responseSourceVersion source ∧
      refresh hex source around = updateTransports hex around later metadata (fetchMetadata hex source around).2 := by
  unfold refresh
  generalize fetchMetadata hex source around = fetched
  obtain ⟨metadata,plan⟩ := fetched
  dsimp only
  split
  · exact .inl (idleNothing source around)
  · split
    · exact .inl (idleNothing source around)
    · rename_i later found
      split
      · exact .inl (idleNothing source around)
      · rename_i same
        rw [not_not] at same
        split
        · exact .inl (idleNothing source around)
        · split
          · refine .inl ⟨rfl,fun metadata absent written => ?_⟩
            dsimp only at written
            split at written
            · cases written
            · cases written
              exact ⟨rfl,later,found,same⟩
          · exact .inr ⟨later,metadata,found,same,rfl⟩

theorem updatesJustified (distinguished : Distinguished hex (fetchMetadata hex source around).2) :
    (∀ update ∈ (refresh hex source around).sent, ∃ binding row,
      Justified hex (fetchMetadata hex source around).2 source update binding row) ∧
    (∀ tag, (∀ binding ∈ source.bindings.getD [], binding.tag = tag →
        ∀ row ∈ inventoryRows (fetchMetadata hex source around).2, subscriptionCandidateKey hex
          (fetchMetadata hex source around).2 row ≠ binding.key) →
      (∀ update ∈ (refresh hex source around).sent, update.tag ≠ tag) ∧
      ∀ metadata absent, (refresh hex source around).written = some (metadata,absent) → tag ∈ absent →
        ∃ transports, around.readTransports = some (some transports) ∧ tag ∉ transports.map Transport.tag) ∧
    ((¬ ∃ later, around.later = some later ∧ responseSourceVersion later = responseSourceVersion source) →
      (refresh hex source around).sent = [] ∧ (refresh hex source around).written = none) := by
  have justified : ∀ update ∈ (refresh hex source around).sent, ∃ binding row,
    Justified hex (fetchMetadata hex source around).2 source update binding row := by
    rcases refreshCases hex source around with ⟨nothing,-⟩ | ⟨later,metadata,-,same,whole⟩
    · rw [nothing]
      exact nofun
    · intro update sent
      rw [whole] at sent
      have bindings : (responseSourceVersion later).bindings = (responseSourceVersion source).bindings := by
        rw [same]
      have rooted := (bootstrapRooted (@readRooted hex (fetchMetadata hex source around).2 later around.readTransports).1).1
      obtain ⟨binding,row,own⟩ := updateJustified (fetchPaired hex source around) distinguished rooted (sentUpdates around _ _ update sent)
      exact ⟨binding,row,{ own with bound := (show later.bindings = source.bindings from bindings) ▸ own.bound }⟩
  refine ⟨justified,fun tag unlisted => ⟨?_,?_⟩,?_⟩
  · rintro update sent rfl
    obtain ⟨binding,row,own⟩ := justified update sent
    have once : row ∈ (inventoryRows (fetchMetadata hex source around).2).filter
        fun other => subscriptionCandidateKey hex (fetchMetadata hex source around).2 other == binding.key := by
      rw [own.once]
      exact List.mem_cons_self
    obtain ⟨listed,same⟩ := List.mem_filter.mp once
    exact unlisted binding own.bound own.tagged row listed (beq_iff_eq.mp same)
  · intro metadata absent written gone
    rcases refreshCases hex source around with ⟨-,nothing⟩ | ⟨later,told,-,-,whole⟩
    · rw [(nothing metadata absent written).1] at gone
      cases gone
    · rw [whole] at written
      obtain ⟨rooted,removed⟩ := @readRooted hex (fetchMetadata hex source around).2 later around.readTransports
      refine removed tag ?_
      rw [← (bootstrapRooted rooted).2]
      unfold updateTransports at written
      dsimp only at written
      split at written
      · cases written
      · cases written
        exact gone
  · intro changed
    rcases refreshCases hex source around with ⟨nothing,unwritten⟩ | ⟨later,metadata,found,same,-⟩
    · refine ⟨nothing,?_⟩
      cases written : (refresh hex source around).written with
      | none => rfl
      | some entry => exact absurd (unwritten entry.1 entry.2 written).2 changed
    · exact absurd ⟨later,found,same⟩ changed

def plainHex (bytes : Bytes) : String := String.ofList (bytes.map fun byte => Char.ofNat byte.toNat)

theorem byteCharacter (byte : UInt8) : (Char.ofNat byte.toNat).toNat = byte.toNat := by
  have small := byte.toNat_lt
  rw [Char.ofNat,dif_pos (Or.inl (by omega))]
  exact rfl

theorem plainDistinguished (plan : SubscriptionImportPlan) : Distinguished plainHex plan := by
  intro row _ other _ same
  have chars := congrArg String.toList same
  rw [plainHex,plainHex,String.toList_ofList,String.toList_ofList] at chars
  refine List.map_injective_iff.mpr (fun first second equal => ?_) chars
  have number := congrArg Char.toNat equal
  rw [byteCharacter,byteCharacter] at number
  exact UInt8.toNat_inj.mp number

/- Of three bound servers one has changed its host under its name, one is as it was, and one is gone with its transport. -/
def movedSource : Source :=
  { id := "sub-0", url := "https://h/s",
    bindings := some [⟨"t","named:" ++ plainHex (ascii "ss\na"),"old",true⟩,
      ⟨"u","named:" ++ plainHex (ascii "ss\nb"),subscriptionLinkFingerprint plainHex (ascii "ss://y@h#b"),true⟩,
      ⟨"v","named:" ++ plainHex (ascii "ss\nc"),"lost",true⟩] }

def movedAround : Surroundings where
  now := 1
  urlAllowed := true
  response := .document ⟨ascii "ss://x@h#a\nss://y@h#b\nss://z@h#d",{},""⟩
  leaseRefused := false
  later := some movedSource
  leaseLost := false
  reserveFails := false
  readTransports := some (some [⟨"t","old"⟩,⟨"u","same"⟩])
  applyUpdates := some fun _ => none

theorem movedUpdated : (refresh plainHex movedSource movedAround).sent.map Update.link = [ascii "ss://x@h#a"] ∧
    (refresh plainHex movedSource movedAround).written.map Prod.snd = some ["v"] ∧
    ∀ update ∈ (refresh plainHex movedSource movedAround).sent,
      ∃ binding row, Justified plainHex (fetchMetadata plainHex movedSource movedAround).2 movedSource update binding row :=
  ⟨by decide +kernel,by decide +kernel,(updatesJustified plainHex movedSource movedAround (plainDistinguished _)).1⟩

end Result

end KeenPbr.SubscriptionRefresh
