import KeenPbr.ConfigValidation
import Mathlib.Data.Finset.Card

/-! config/subscription_store.cpp: what is kept of a subscription source from check to check, and which of
its servers are new. -/
namespace KeenPbr.SubscriptionStore

structure Candidate where
  key : String
  fingerprint : String
  stable : Bool
  deriving DecidableEq, Repr

structure Binding where
  tag : String
  key : String
  fingerprint : String
  stable : Bool
  deriving DecidableEq, Repr

structure Limits where
  uploadBytes : Option UInt64 := none
  downloadBytes : Option UInt64 := none
  totalBytes : Option UInt64 := none
  expiresAt : Option Int := none
  nodeCount : Option Nat := none
  updatedAt : Option Int := none
  error : Option String := none
  deriving DecidableEq

structure Metadata where
  limits : Limits := {}
  checkedAt : Option Int := none
  providerName : Option String := none
  lastSyncError : Option String := none
  inventory : Option (List Candidate) := none
  bindingUpdates : Option (List Binding) := none
  deriving DecidableEq

structure Source where
  id : String
  url : String
  name : String := ""
  nameIsCustom : Option Bool := none
  sourceHost : String := ""
  providerName : Option String := none
  refreshIntervalSeconds : Option Int := none
  limits : Limits := {}
  checkedAt : Option Int := none
  lastSyncError : Option String := none
  usageCycle : Option Int := none
  transportTags : Option (List String) := none
  bindings : Option (List Binding) := none
  inventory : Option (List Candidate) := none
  knownCandidates : Option (Finset String) := none
  pendingCandidates : Option (Finset String) := none
  pendingNewServersCount : Option Nat := none
  pendingServersRevision : Option Int := none
  deriving DecidableEq

section Sets
variable (record : Source)

def Source.current : Finset String := ((record.inventory.getD []).map Candidate.key).toFinset

def Source.known : Finset String := record.knownCandidates.getD ∅

def Source.pending : Finset String := record.pendingCandidates.getD ∅

def Source.bound : Finset String := ((record.bindings.getD []).map Binding.key).toFinset

def Source.revision : Int := record.pendingServersRevision.getD 0

end Sets

section Merging

def putBinding (addition : Binding) : List Binding → List Binding
  | [] => [addition]
  | binding :: rest => if binding.tag = addition.tag then addition :: rest else binding :: putBinding addition rest

def kMaximumBindings : Nat := 512

def mergeBindings (record : Source) (additions : List Binding) : Option Source :=
  let bindings := additions.foldl (fun bindings addition => putBinding addition bindings) (record.bindings.getD [])
  let known := additions.foldl (fun known addition => insert addition.key known) record.known
  if bindings.length > kMaximumBindings then none
  -- a legacy source stays uninitialized until its first inventory
  else some { record with
    bindings := some bindings
    knownCandidates := if record.inventory.isSome then some known else record.knownCandidates }

def detachTransportTags (record : Source) (tags : List String) : Source × Bool :=
  let detached := { record with
    transportTags := record.transportTags.map fun linked => linked.filter fun tag => !tags.contains tag
    bindings := record.bindings.map fun bindings => bindings.filter fun binding => !tags.contains binding.tag }
  (detached,(detached.transportTags.map List.length != record.transportTags.map List.length) ||
    (detached.bindings.map List.length != record.bindings.map List.length))

def reconcileInventory (record : Source) (initialized : Bool) : Option Source :=
  if (record.inventory.getD []).length > 512 then none
  else
    let known := ((if initialized then record.known else record.current) ∪ record.bound) ∩ record.current
    let pending := record.current \ known
    some { record with
      knownCandidates := some known
      pendingCandidates := some pending
      pendingNewServersCount := some pending.card
      pendingServersRevision := some (if record.pending = pending then record.revision else record.revision + 1) }

def cycleEnded (record : Source) (metadata : Metadata) : Bool :=
  metadata.limits.error.isNone &&
  match metadata.limits.uploadBytes,metadata.limits.downloadBytes,record.limits.uploadBytes,record.limits.downloadBytes with
  | some upload,some download,some previousUpload,some previousDownload => upload + download < previousUpload + previousDownload
  | _,_,_,_ => false

def Limits.over (told kept : Limits) : Limits where
  uploadBytes := told.uploadBytes.or kept.uploadBytes
  downloadBytes := told.downloadBytes.or kept.downloadBytes
  totalBytes := told.totalBytes.or kept.totalBytes
  expiresAt := told.expiresAt.or kept.expiresAt
  nodeCount := told.nodeCount.or kept.nodeCount
  updatedAt := told.updatedAt.or kept.updatedAt
  error := told.error.or kept.error

def customName (record : Source) : Bool :=
  record.nameIsCustom.getD (record.name != record.sourceHost && record.name != record.providerName.getD "")

/- Everything a check tells but the binding updates; a failed one keeps the limits of the last that succeeded. -/
def recordMetadata (record : Source) (metadata : Metadata) : Source :=
  { record with
    usageCycle := if cycleEnded record metadata then some (record.usageCycle.getD 0 + 1) else record.usageCycle
    name := if customName record then record.name else metadata.providerName.getD record.name
    limits := if metadata.limits.error.isSome then metadata.limits.over record.limits else metadata.limits
    checkedAt := metadata.checkedAt.or record.checkedAt
    providerName := metadata.providerName.or record.providerName
    lastSyncError := metadata.lastSyncError.or record.lastSyncError
    inventory := metadata.inventory.or record.inventory }

def stale (record : Source) (metadata : Metadata) : Bool :=
  match metadata.checkedAt,record.checkedAt with
  | some told,some kept => told < kept
  | _,_ => false

def mergeUpdates (record : Source) (metadata : Metadata) : Option Source :=
  match metadata.bindingUpdates with
  | none => some record
  | some additions => mergeBindings record additions

def mergeMetadata (record : Source) (metadata : Metadata) : Option Source := do
  let initialized := record.inventory.isSome
  if stale record metadata then
    let record ← mergeUpdates record metadata
    if initialized then reconcileInventory record true else some record
  else
    let record ← mergeUpdates (recordMetadata record metadata) metadata
    if record.inventory.isSome then reconcileInventory record initialized else some record

end Merging

section Store

def kMaximumSubscriptions : Nat := 64

def subscriptionDefaultRefreshInterval : Int := 21600

def validSubscriptionRefreshInterval (interval : Int) : Bool := interval == 0 || (3600 ≤ interval && interval ≤ 604800)

def refreshInterval (record : Source) : Int :=
  let value := record.refreshIntervalSeconds.getD subscriptionDefaultRefreshInterval
  if validSubscriptionRefreshInterval value then value else subscriptionDefaultRefreshInterval

def isValidName (name : String) : Bool := (validateDisplayName "" "" (some name)).isEmpty

/- What a caller is shown of a source. -/
structure PublicSubscription where
  id : String
  name : String
  sourceHost : String
  limits : Limits
  checkedAt : Option Int
  transportTags : Option (List String)
  refreshIntervalSeconds : Int
  pendingNewServersCount : Nat
  pendingServersRevision : String
  usageCycle : Int
  nextCheckAt : Option Int
  lastSyncError : Option String

def publicSubscription (record : Source) : PublicSubscription where
  id := record.id
  name := record.name
  sourceHost := record.sourceHost
  limits := record.limits
  checkedAt := record.checkedAt
  transportTags := record.transportTags
  refreshIntervalSeconds := refreshInterval record
  pendingNewServersCount := record.pendingNewServersCount.getD 0
  pendingServersRevision := toString record.revision
  usageCycle := record.usageCycle.getD 0
  nextCheckAt := if refreshInterval record > 0 then some (record.checkedAt.getD 0 + refreshInterval record) else none
  lastSyncError := record.lastSyncError.filter fun error => error != ""

def modifyFirst (wanted : Source → Bool) (change : Source → Option Source) : List Source → Option (List Source)
  | [] => none
  | record :: rest =>
    if wanted record then (change record).map (· :: rest) else (modifyFirst wanted change rest).map (record :: ·)

inductive Call where
  | save (url name : String) (metadata : Metadata) (tags : List String) (bindings : List Binding)
  | refresh (id : String) (metadata : Metadata) (confirmedAbsentTags : List String)
  | detachTransport (tag : String)
  | rename (id name : String)

def afterScheme : List Char → Option (List Char)
  | ':' :: '/' :: '/' :: rest => some rest
  | _ :: rest => afterScheme rest
  | [] => none

def subscriptionSourceHost (url : String) : String :=
  match afterScheme url.toList with
  | none => ""
  | some rest => String.ofList (rest.takeWhile fun c => !(['/','?','#'].contains c))

def linkTags (linked tags : List String) : List String :=
  tags.foldl (fun linked tag => if linked.contains tag then linked else linked ++ [tag]) linked

def Call.bindings : Call → List Binding
  | .save _ _ metadata _ bindings => bindings ++ metadata.bindingUpdates.getD []
  | .refresh _ metadata _ => metadata.bindingUpdates.getD []
  | _ => []

/- What a call makes of a source before tags are detached. -/
def Call.merged (call : Call) (record : Source) : Option Source :=
  match call with
  | .save _ name metadata tags bindings =>
    if name != "" && !isValidName name then none
    else do
      let named := if name != "" then { record with name, nameIsCustom := some true } else record
      let record ← mergeBindings { named with transportTags := some (linkTags (record.transportTags.getD []) tags) } bindings
      mergeMetadata record metadata
  | .refresh _ metadata _ => mergeMetadata record metadata
  | .detachTransport _ => some record
  | .rename _ name => some { record with name, nameIsCustom := some true }

def Call.detached : Call → List String
  | .refresh _ _ confirmedAbsentTags => confirmedAbsentTags
  | .detachTransport tag => [tag]
  | _ => []

def Call.changed (call : Call) (record : Source) : Option Source :=
  (call.merged record).map fun merged => (detachTransportTags merged call.detached).1

/- Sha256::hex -/
variable (hex : String → String)

def newSource (url : String) : Source where
  id := "sub-" ++ String.ofList ((hex url).toList.take 24)
  url := url
  name := subscriptionSourceHost url
  nameIsCustom := some false
  sourceHost := subscriptionSourceHost url
  refreshIntervalSeconds := some subscriptionDefaultRefreshInterval
  transportTags := some []

/- The records a call would write; none where it throws or writes nothing. -/
def Call.records (call : Call) (records : List Source) : Option (List Source) :=
  match call with
  | .save url _ _ _ _ =>
    if records.any fun record => record.url == url then modifyFirst (fun record => record.url == url) call.changed records
    else (call.changed (newSource hex url)).map fun record => records ++ [record]
  | .refresh id _ _ => modifyFirst (fun record => record.id == id) call.changed records
  | .detachTransport tag =>
    if tag = "" ∨ (records.all fun record => !(detachTransportTags record [tag]).2) = true then none
    else some (records.map fun record => (detachTransportTags record [tag]).1)
  | .rename id name => if isValidName name then modifyFirst (fun record => record.id == id) call.changed records else none

/- A call and whether the file it writes takes its place. -/
structure Step where
  call : Call
  lands : Bool

def next (records : List Source) (step : Step) : List Source :=
  match step.call.records hex records with
  | none => records
  | some written => if written.length > kMaximumSubscriptions || !step.lands then records else written

def recordsAfter (start : List Source) (steps : List Step) : List Source := steps.foldl (next hex) start

end Store

section Specs
variable {record middle after : Source}

def keys (additions : List Binding) : Finset String := (additions.map Binding.key).toFinset

theorem knownInserted (additions : List Binding) (known : Finset String) :
    additions.foldl (fun known addition => insert addition.key known) known = known ∪ keys additions := by
  induction additions generalizing known with
  | nil => exact (Finset.union_empty known).symm
  | cons addition rest ih =>
    rw [List.foldl_cons,ih]
    ext key
    simp only [keys,List.map_cons,List.toFinset_cons,Finset.mem_union,Finset.mem_insert]
    tauto

structure Bound (record : Source) (additions : Finset String) (after : Source) : Prop where
  inventory : after.inventory = record.inventory
  pending : after.pendingCandidates = record.pendingCandidates
  counted : after.pendingNewServersCount = record.pendingNewServersCount
  revision : after.pendingServersRevision = record.pendingServersRevision
  known : record.inventory.isSome = true → after.known = record.known ∪ additions
  unknown : record.inventory = none → after.knownCandidates = record.knownCandidates

theorem bindingsMerged {additions : List Binding} (merged : mergeBindings record additions = some after) :
    Bound record (keys additions) after := by
  unfold mergeBindings at merged
  dsimp only at merged
  split at merged
  · cases merged
  · cases merged
    refine ⟨rfl,rfl,rfl,rfl,?_,?_⟩
    · intro initialized
      rw [Source.known,if_pos initialized,Option.getD_some,knownInserted]
    · intro legacy
      exact if_neg (by rw [legacy]; decide)

theorem updatesMerged {metadata : Metadata} (merged : mergeUpdates record metadata = some after) :
    Bound record (keys (metadata.bindingUpdates.getD [])) after := by
  unfold mergeUpdates at merged
  split at merged
  · rename_i absent
    cases merged
    rw [absent]
    exact ⟨rfl,rfl,rfl,rfl,fun _ => (Finset.union_empty _).symm,fun _ => rfl⟩
  · rename_i additions given
    rw [given]
    exact bindingsMerged merged

/- What a reconciled source knows and has pending. -/
structure Reconciled (known : Finset String) (record after : Source) : Prop where
  inventory : after.inventory = record.inventory
  bindings : after.bindings = record.bindings
  known : after.known = (known ∪ after.bound) ∩ after.current
  pending : after.pending = after.current \ after.known
  counted : after.pendingNewServersCount = some after.pending.card
  revised : after.revision = if record.pending = after.pending then record.revision else record.revision + 1

theorem inventoryReconciled {initialized : Bool} (reconciled : reconcileInventory record initialized = some after) :
    Reconciled (if initialized then record.known else record.current) record after := by
  unfold reconcileInventory at reconciled
  split at reconciled
  · cases reconciled
  · cases reconciled
    exact ⟨rfl,rfl,rfl,rfl,rfl,rfl⟩

/- What is merged into a source whose updates have the keys. -/
structure Merged (record : Source) (additions : Finset String) (after : Source) : Prop where
  kept : record.inventory.isSome = true → after.inventory.isSome = true
  told : after.inventory.isSome = true →
    after.known = ((if record.inventory.isSome = true then record.known ∪ additions else after.current) ∪ after.bound) ∩ after.current ∧
    after.pending = after.current \ after.known ∧ after.pendingNewServersCount = some after.pending.card ∧
    after.revision = if record.pending = after.pending then record.revision else record.revision + 1
  untold : after.inventory = none → after.knownCandidates = record.knownCandidates ∧ after.pendingCandidates = record.pendingCandidates ∧
    after.pendingNewServersCount = record.pendingNewServersCount ∧ after.pendingServersRevision = record.pendingServersRevision

theorem merges (base : Source) {additions : Finset String} (known : base.knownCandidates = record.knownCandidates)
    (pending : base.pendingCandidates = record.pendingCandidates) (counted : base.pendingNewServersCount = record.pendingNewServersCount)
    (revision : base.pendingServersRevision = record.pendingServersRevision)
    (kept : record.inventory.isSome = true → base.inventory.isSome = true)
    (bound : Bound base additions middle)
    (reconciled : (if middle.inventory.isSome = true then reconcileInventory middle record.inventory.isSome
      else some middle) = some after) :
    Merged record additions after := by
  have samePending : middle.pending = record.pending := by
    rw [Source.pending,bound.pending,pending]
    rfl
  have sameRevision : middle.revision = record.revision := by
    rw [Source.revision,bound.revision,revision]
    rfl
  split at reconciled
  · rename_i filled
    have done := inventoryReconciled reconciled
    have given : after.inventory.isSome = true := by
      rw [done.inventory]
      exact filled
    refine ⟨fun _ => given,fun _ => ⟨?_,done.pending,done.counted,?_⟩,fun absent => ?_⟩
    · rw [done.known]
      by_cases initialized : record.inventory.isSome = true
      · rw [if_pos initialized,if_pos initialized,bound.known (kept initialized),Source.known,known]
        rfl
      · rw [if_neg initialized,if_neg initialized,Source.current,Source.current,done.inventory]
    · rw [done.revised,samePending,sameRevision]
    · rw [absent] at given
      cases given
  · rename_i empty
    cases reconciled
    refine ⟨fun filled => ?_,fun filled => absurd filled empty,fun absent => ?_⟩
    · rw [bound.inventory]
      exact kept filled
    · rw [bound.inventory] at absent
      exact ⟨(bound.unknown absent).trans known,bound.pending.trans pending,bound.counted.trans counted,bound.revision.trans revision⟩

theorem metadataMerged {metadata : Metadata} (merged : mergeMetadata record metadata = some after) :
    Merged record (keys (metadata.bindingUpdates.getD [])) after := by
  unfold mergeMetadata at merged
  dsimp only at merged
  split at merged
  · obtain ⟨middle,updates,reconciled⟩ := Option.bind_eq_some_iff.mp merged
    have bound := updatesMerged updates
    refine merges record rfl rfl rfl rfl id bound ?_
    rw [bound.inventory]
    split at reconciled
    · rename_i initialized
      rw [if_pos initialized,initialized]
      exact reconciled
    · rename_i legacy
      rw [if_neg legacy]
      exact reconciled
  · obtain ⟨middle,updates,reconciled⟩ := Option.bind_eq_some_iff.mp merged
    refine merges (recordMetadata record metadata) rfl rfl rfl rfl (fun filled => ?_) (updatesMerged updates) reconciled
    rw [recordMetadata,Option.isSome_or,filled,Bool.or_true]

end Specs

section Calls
variable {record middle after : Source} {call : Call}

/- What holds of a source between calls. -/
structure Kept (record : Source) : Prop where
  legacy : record.inventory = none → record.knownCandidates = none ∧ record.pendingCandidates = none ∧ record.pendingNewServersCount = none
  within : record.known ⊆ record.current
  bound : record.inventory.isSome = true → record.bound ∩ record.current ⊆ record.known
  pending : record.inventory.isSome = true → record.pending = record.current \ record.known
  counted : record.inventory.isSome = true → record.pendingNewServersCount = some record.pending.card

theorem Bound.merged {first second : Finset String} (bound : Bound record first middle) (merged : Merged middle second after) :
    Merged record (first ∪ second) after := by
  have samePending : middle.pending = record.pending := by
    rw [Source.pending,bound.pending]
    rfl
  have sameRevision : middle.revision = record.revision := by
    rw [Source.revision,bound.revision]
    rfl
  refine ⟨fun filled => ?_,fun filled => ?_,fun absent => ?_⟩
  · rw [← bound.inventory] at filled
    exact merged.kept filled
  · obtain ⟨known,pending,counted,revised⟩ := merged.told filled
    refine ⟨?_,pending,counted,?_⟩
    · rw [known,bound.inventory]
      by_cases initialized : record.inventory.isSome = true
      · rw [if_pos initialized,if_pos initialized,bound.known initialized,Finset.union_assoc record.known]
      · rw [if_neg initialized,if_neg initialized]
    · rw [revised,samePending,sameRevision]
  · obtain ⟨known,pending,counted,revision⟩ := merged.untold absent
    have legacy : record.inventory = none := by
      by_contra some_
      rw [← bound.inventory] at some_
      exact Option.isSome_iff_ne_none.mp (merged.kept (Option.isSome_iff_ne_none.mpr some_)) absent
    exact ⟨known.trans (bound.unknown legacy),pending.trans bound.pending,counted.trans bound.counted,revision.trans bound.revision⟩

theorem Kept.merged (kept : Kept record) (inventory : after.inventory = record.inventory) (bindings : after.bindings = record.bindings)
    (known : after.knownCandidates = record.knownCandidates) (pending : after.pendingCandidates = record.pendingCandidates)
    (counted : after.pendingNewServersCount = record.pendingNewServersCount)
    (revision : after.pendingServersRevision = record.pendingServersRevision) : Merged record ∅ after := by
  have sameKnown : after.known = record.known := by
    rw [Source.known,known]
    rfl
  have sameCurrent : after.current = record.current := by
    rw [Source.current,inventory]
    rfl
  have sameBound : after.bound = record.bound := by
    rw [Source.bound,bindings]
    rfl
  have samePending : after.pending = record.pending := by
    rw [Source.pending,pending]
    rfl
  refine ⟨fun filled => inventory ▸ filled,fun filled => ?_,fun absent => ⟨known,pending,counted,revision⟩⟩
  rw [inventory] at filled
  rw [sameKnown,sameCurrent,sameBound,samePending,counted,if_pos filled,Finset.union_empty,Finset.union_inter_distrib_right,
    Finset.inter_eq_left.mpr kept.within,Finset.union_eq_left.mpr (kept.bound filled),if_pos rfl,Source.revision,revision]
  exact ⟨rfl,kept.pending filled,kept.counted filled,rfl⟩

theorem keysAppend (first second : List Binding) : keys (first ++ second) = keys first ∪ keys second := by
  rw [keys,List.map_append,List.toFinset_append]
  rfl

theorem callMerged (kept : Kept record) (merged : call.merged record = some middle) : Merged record (keys call.bindings) middle := by
  cases call with
  | save url name metadata tags bindings =>
    simp only [Call.merged] at merged
    split at merged
    · cases merged
    · obtain ⟨bound,first,second⟩ := Option.bind_eq_some_iff.mp merged
      have own : Bound record (keys bindings) bound := by
        have given := bindingsMerged first
        split at given
        · exact ⟨given.inventory,given.pending,given.counted,given.revision,given.known,given.unknown⟩
        · exact ⟨given.inventory,given.pending,given.counted,given.revision,given.known,given.unknown⟩
      rw [Call.bindings,keysAppend]
      exact own.merged (metadataMerged second)
  | refresh id metadata confirmedAbsentTags => exact metadataMerged merged
  | detachTransport tag =>
    cases merged
    exact kept.merged rfl rfl rfl rfl rfl rfl
  | rename id name =>
    cases merged
    exact kept.merged rfl rfl rfl rfl rfl rfl

theorem detachedBound (record : Source) (tags : List String) : (detachTransportTags record tags).1.bound ⊆ record.bound := by
  intro key mem
  rw [Source.bound,List.mem_toFinset,List.mem_map] at mem ⊢
  obtain ⟨binding,listed,named⟩ := mem
  refine ⟨binding,?_,named⟩
  cases given : record.bindings with
  | none =>
    rw [detachTransportTags,given] at listed
    cases listed
  | some bindings =>
    rw [detachTransportTags,given] at listed
    exact (List.mem_filter.mp listed).1

/- What a call does to the sets of a source. -/
structure Turn (call : Call) (record after : Source) : Prop where
  revised : after.revision = if after.pending = record.pending then record.revision else record.revision + 1
  first : record.inventory = none → after.current ⊆ after.known
  keeps : record.inventory.isSome = true → record.known ∩ after.current ⊆ after.known
  binds : keys call.bindings ∩ after.current ⊆ after.known
  held : ∀ merged, call.merged record = some merged → merged.bound ∩ after.current ⊆ after.known

theorem Merged.turn (kept : Kept record) {additions : Finset String} (merged : Merged record additions after) :
    Kept after ∧ (after.revision = if after.pending = record.pending then record.revision else record.revision + 1) ∧
      (record.inventory = none → after.current ⊆ after.known) ∧
      (record.inventory.isSome = true → record.known ∩ after.current ⊆ after.known) ∧ additions ∩ after.current ⊆ after.known ∧
      after.bound ∩ after.current ⊆ after.known := by
  cases given : after.inventory with
  | none =>
    obtain ⟨known,pending,counted,revision⟩ := merged.untold given
    have legacy : record.inventory = none := by
      by_contra some_
      have filled := merged.kept (Option.isSome_iff_ne_none.mpr some_)
      rw [given] at filled
      cases filled
    have empty : after.current = ∅ := by
      rw [Source.current,given]
      rfl
    obtain ⟨noKnown,noPending,noCount⟩ := kept.legacy legacy
    have unknown : after.known = ∅ := by
      rw [Source.known,known,noKnown]
      rfl
    rw [empty,Finset.inter_empty,Finset.inter_empty,Finset.inter_empty,Source.revision,revision,Source.pending,pending]
    refine ⟨⟨fun _ => ⟨known.trans noKnown,pending.trans noPending,counted.trans noCount⟩,?_,?_,?_,?_⟩,?_,fun _ => Finset.empty_subset _,
      fun _ => Finset.empty_subset _,Finset.empty_subset _,Finset.empty_subset _⟩
    · rw [unknown]
      exact Finset.empty_subset _
    · intro filled
      rw [given] at filled
      cases filled
    · intro filled
      rw [given] at filled
      cases filled
    · intro filled
      rw [given] at filled
      cases filled
    · exact (if_pos rfl).symm
  | some inventory =>
    have filled : after.inventory.isSome = true := by
      rw [given]
      rfl
    obtain ⟨known,pending,counted,revised⟩ := merged.told filled
    have bound : after.bound ∩ after.current ⊆ after.known := by
      rw [known]
      exact Finset.inter_subset_inter_right Finset.subset_union_right
    refine ⟨⟨fun absent => ?_,?_,fun _ => bound,fun _ => pending,fun _ => counted⟩,?_,fun legacy => ?_,fun initialized => ?_,?_,bound⟩
    · rw [given] at absent
      cases absent
    · rw [known]
      exact Finset.inter_subset_right
    · rw [revised]
      by_cases same : record.pending = after.pending
      · rw [if_pos same,if_pos same.symm]
      · rw [if_neg same,if_neg (Ne.symm same)]
    · rw [known,legacy,if_neg (by decide)]
      exact Finset.subset_inter Finset.subset_union_left (Finset.Subset.refl _)
    · rw [known,if_pos initialized]
      exact Finset.inter_subset_inter_right (Finset.subset_union_left.trans Finset.subset_union_left)
    · rw [known]
      by_cases initialized : record.inventory.isSome = true
      · rw [if_pos initialized]
        exact Finset.inter_subset_inter_right (Finset.subset_union_right.trans Finset.subset_union_left)
      · rw [if_neg initialized]
        exact Finset.subset_inter (Finset.inter_subset_right.trans Finset.subset_union_left) Finset.inter_subset_right

theorem callTurned (kept : Kept record) (changed : call.changed record = some after) : Kept after ∧ Turn call record after := by
  obtain ⟨merged,made,rfl⟩ := Option.map_eq_some_iff.mp changed
  have fewer := detachedBound merged call.detached
  obtain ⟨own,revised,first,keeps,binds,held⟩ := (callMerged kept made).turn kept
  refine ⟨⟨own.legacy,own.within,fun filled => ?_,own.pending,own.counted⟩,⟨revised,first,keeps,binds,fun other same => ?_⟩⟩
  · exact (Finset.inter_subset_inter_right fewer).trans (own.bound filled)
  · rw [made] at same
    cases same
    exact held

end Calls

section Runs
variable {hex : String → String} {start : List Source} {index : Nat} {key : String}

theorem modifiedAt {wanted : Source → Bool} {change : Source → Option Source} {records written : List Source}
    (modified : modifyFirst wanted change records = some written) (index : Nat) : written[index]? = records[index]? ∨
      ∃ record after, records[index]? = some record ∧ change record = some after ∧ written[index]? = some after := by
  induction records generalizing written index with
  | nil => cases modified
  | cons record rest ih =>
    unfold modifyFirst at modified
    split at modified
    · obtain ⟨after,changed,rfl⟩ := Option.map_eq_some_iff.mp modified
      cases index with
      | zero => exact .inr ⟨record,after,rfl,changed,rfl⟩
      | succ index => exact .inl rfl
    · obtain ⟨later,changed,rfl⟩ := Option.map_eq_some_iff.mp modified
      cases index with
      | zero => exact .inl rfl
      | succ index => exact ih changed index

theorem recordsAt {call : Call} {records written : List Source} (made : call.records hex records = some written) (index : Nat) :
    written[index]? = records[index]? ∨
    (∃ record after, records[index]? = some record ∧ call.changed record = some after ∧ written[index]? = some after) ∨
    (records[index]? = none ∧ ∃ url after, call.changed (newSource hex url) = some after ∧ written[index]? = some after) := by
  cases call with
  | save url name metadata tags bindings =>
    simp only [Call.records] at made
    split at made
    · rcases modifiedAt made index with same | changed
      · exact .inl same
      · exact .inr (.inl changed)
    · obtain ⟨after,changed,rfl⟩ := Option.map_eq_some_iff.mp made
      rcases Nat.lt_trichotomy index records.length with before | here | behind
      · exact .inl (List.getElem?_append_left before)
      · refine .inr (.inr ⟨List.getElem?_eq_none (Nat.le_of_eq here.symm),url,after,changed,?_⟩)
        rw [here,List.getElem?_concat_length]
      · refine .inl ?_
        rw [List.getElem?_eq_none (Nat.le_of_lt behind),List.getElem?_eq_none]
        rw [List.length_append]
        exact behind
  | refresh id metadata confirmedAbsentTags =>
    rcases modifiedAt made index with same | changed
    · exact .inl same
    · exact .inr (.inl changed)
  | detachTransport tag =>
    simp only [Call.records] at made
    split at made
    · cases made
    · cases made
      rw [List.getElem?_map]
      cases found : records[index]? with
      | none => exact .inl rfl
      | some record => exact .inr (.inl ⟨record,_,rfl,rfl,rfl⟩)
  | rename id name =>
    simp only [Call.records] at made
    split at made
    · rcases modifiedAt made index with same | changed
      · exact .inl same
      · exact .inr (.inl changed)
    · cases made

theorem nextAt (records : List Source) (step : Step) (index : Nat) : (next hex records step)[index]? = records[index]? ∨
    (∃ record after, records[index]? = some record ∧ step.call.changed record = some after ∧ (next hex records step)[index]? = some after) ∨
    (records[index]? = none ∧ ∃ url after, step.call.changed (newSource hex url) = some after ∧
    (next hex records step)[index]? = some after) := by
  rw [next]
  split
  · exact .inl rfl
  · rename_i written made
    split
    · exact .inl rfl
    · exact recordsAt made index

theorem newKept (hex : String → String) (url : String) : Kept (newSource hex url) where
  legacy := fun _ => ⟨rfl,rfl,rfl⟩
  within := Finset.empty_subset _
  bound := fun filled => by cases filled
  pending := fun filled => by cases filled
  counted := fun filled => by cases filled

theorem afterStep (steps : List Step) (step : Step) :
    recordsAfter hex start (steps ++ [step]) = next hex (recordsAfter hex start steps) step := by
  rw [recordsAfter,List.foldl_append]
  rfl

/- A source without an inventory, as a new one or one kept by an older version is. -/
def Uninitialized (record : Source) : Prop :=
  record.inventory = none ∧ record.knownCandidates = none ∧ record.pendingCandidates = none ∧ record.pendingNewServersCount = none

variable (uninitialized : ∀ record ∈ start, Uninitialized record)
include uninitialized

theorem runKept (steps : List Step) {record : Source} (found : (recordsAfter hex start steps)[index]? = some record) : Kept record := by
  induction steps using List.reverseRecOn generalizing record with
  | nil =>
    obtain ⟨inventory,known,pending,counted⟩ := uninitialized record (List.mem_of_getElem? found)
    refine ⟨fun _ => ⟨known,pending,counted⟩,?_,?_,?_,?_⟩
    · rw [Source.known,known]
      exact Finset.empty_subset _
    · rw [inventory]
      exact nofun
    · rw [inventory]
      exact nofun
    · rw [inventory]
      exact nofun
  | append_singleton steps step ih =>
    rw [afterStep] at found
    rcases nextAt (recordsAfter hex start steps) step index with same | ⟨before,after,there,changed,now⟩ | ⟨-,url,after,changed,now⟩
    · rw [same] at found
      exact ih found
    · cases Option.some.inj (found.symm.trans now)
      exact (callTurned (ih there) changed).1
    · cases Option.some.inj (found.symm.trans now)
      exact (callTurned (newKept hex url) changed).1

theorem knownStays {earlier : List Step} {settled : Source} (found : (recordsAfter hex start earlier)[index]? = some settled)
    (known : key ∈ settled.known)
    (later : List Step)
    (every : ∀ between, between <+: later → ∀ record, (recordsAfter hex start (earlier ++ between))[index]? = some record →
      key ∈ record.current) :
    ∃ record, (recordsAfter hex start (earlier ++ later))[index]? = some record ∧ key ∈ record.known := by
  induction later using List.reverseRecOn with
  | nil =>
    rw [List.append_nil]
    exact ⟨settled,found,known⟩
  | append_singleton later step ih =>
    obtain ⟨before,there,knows⟩ := ih fun between part => every between (part.trans (List.prefix_append later [step]))
    have held := every (later ++ [step]) (List.prefix_refl _)
    rw [← List.append_assoc,afterStep] at held ⊢
    rcases nextAt (recordsAfter hex start (earlier ++ later)) step index with same | ⟨record,after,place,changed,now⟩ | ⟨absent,-⟩
    · exact ⟨before,same.trans there,knows⟩
    · cases Option.some.inj (place.symm.trans there)
      have kept := runKept uninitialized _ there
      refine ⟨after,now,(callTurned kept changed).2.keeps ?_ (Finset.mem_inter.mpr ⟨knows,held after now⟩)⟩
      by_contra empty
      rw [Option.isSome_iff_ne_none,not_not] at empty
      rw [Source.known,(kept.legacy empty).1] at knows
      cases knows
    · rw [absent] at there
      cases there

omit uninitialized in
/- A step by which a source settles a key: with its first inventory, or by binding a key that the inventory has. -/
def Settles (key : String) (call : Call) (before : Option Source) (after : Source) : Prop :=
  key ∈ after.current ∧ ((∀ record, before = some record → record.inventory = none) ∨ key ∈ after.bound ∨
    ∃ record merged, before = some record ∧ call.merged record = some merged ∧ (detachTransportTags merged call.detached).1 = after ∧
      (key ∈ merged.bound ∨ key ∈ keys call.bindings))

theorem settledKnown (earlier : List Step) (step : Step) {settled : Source}
    (found : (recordsAfter hex start (earlier ++ [step]))[index]? = some settled)
    (settles : Settles key step.call ((recordsAfter hex start earlier)[index]?) settled) : key ∈ settled.known := by
  obtain ⟨held,why⟩ := settles
  have kept := runKept uninitialized _ found
  have filled : settled.inventory.isSome = true := by
    by_contra empty
    rw [Option.isSome_iff_ne_none,not_not] at empty
    rw [Source.current,empty] at held
    cases held
  rcases why with first | bound | ⟨record,merged,before,made,rfl,bound⟩
  · rw [afterStep] at found
    rcases nextAt (recordsAfter hex start earlier) step index with same | ⟨before,after,there,changed,now⟩ | ⟨-,url,after,changed,now⟩
    · rw [first settled (same.symm.trans found)] at filled
      cases filled
    · cases Option.some.inj (found.symm.trans now)
      exact (callTurned (runKept uninitialized _ there) changed).2.first (first before there) held
    · cases Option.some.inj (found.symm.trans now)
      exact (callTurned (newKept hex url) changed).2.first rfl held
  · exact kept.bound filled (Finset.mem_inter.mpr ⟨bound,held⟩)
  · have changed : step.call.changed record = some (detachTransportTags merged step.call.detached).1 := by
      rw [Call.changed,made]
      rfl
    have turn := (callTurned (runKept uninitialized _ before) changed).2
    rcases bound with bound | bound
    · exact turn.held merged made (Finset.mem_inter.mpr ⟨bound,held⟩)
    · exact turn.binds (Finset.mem_inter.mpr ⟨bound,held⟩)

/- After every call the pending servers of a source with an inventory are those it does not know, none of them bound; the count that is
reported is theirs, a settled key stays out of them while every inventory has it, and the revision counts the calls that changed them. -/
theorem pendingServersExact (steps : List Step) (step : Step) {after : Source}
    (found : (recordsAfter hex start (steps ++ [step]))[index]? = some after) (recorded : after.inventory.isSome = true) :
    after.pending = after.current \ after.known ∧ Disjoint after.bound after.pending ∧
    (publicSubscription after).pendingNewServersCount = after.pending.card ∧
    (∀ earlier settling later key settled, steps ++ [step] = earlier ++ [settling] ++ later →
      (recordsAfter hex start (earlier ++ [settling]))[index]? = some settled →
      Settles key settling.call ((recordsAfter hex start earlier)[index]?) settled →
      (∀ between, between <+: later → ∀ record, (recordsAfter hex start (earlier ++ [settling] ++ between))[index]? = some record →
        key ∈ record.current) → key ∉ after.pending) ∧
    (∀ before, (recordsAfter hex start steps)[index]? = some before →
      after.revision = if after.pending = before.pending then before.revision else before.revision + 1) := by
  have kept := runKept uninitialized _ found
  have pending := kept.pending recorded
  refine ⟨pending,?_,?_,?_,?_⟩
  · rw [pending,Finset.disjoint_left]
    intro key bound open_
    obtain ⟨current,unknown⟩ := Finset.mem_sdiff.mp open_
    exact unknown (kept.bound recorded (Finset.mem_inter.mpr ⟨bound,current⟩))
  · rw [publicSubscription,kept.counted recorded]
    rfl
  · intro earlier settling later key settled split there settles every
    have known := settledKnown uninitialized earlier settling there settles
    obtain ⟨now,place,knows⟩ := knownStays uninitialized there known later every
    rw [← split] at place
    cases Option.some.inj (found.symm.trans place)
    rw [pending]
    exact fun open_ => (Finset.mem_sdiff.mp open_).2 knows
  · intro before there
    rw [afterStep] at found
    rcases nextAt (recordsAfter hex start steps) step index with same | ⟨record,changed,place,turned,now⟩ | ⟨absent,-⟩
    · cases Option.some.inj (there.symm.trans (same.symm.trans found))
      exact (if_pos rfl).symm
    · cases Option.some.inj (place.symm.trans there)
      cases Option.some.inj (found.symm.trans now)
      exact (callTurned (runKept uninitialized _ there) turned).2.revised
    · rw [absent] at there
      cases there

end Runs

section Example

/- A first inventory whose server is bound; a refresh that brings two more, a late answer of an older check that
binds the first of them, and the detaching of the first binding. -/
def sampleSave : Step := ⟨.save "https://h/s" "" { checkedAt := some 1, inventory := some [⟨"a","f",true⟩] } ["t"]
    [⟨"t","a","f",true⟩],true⟩

def sampleLater : List Step :=
  [⟨.refresh "sub-00" { checkedAt := some 5, inventory := some [⟨"a","f",true⟩,⟨"b","g",true⟩,⟨"c","h",true⟩] } [],true⟩,
   ⟨.refresh "sub-00" { checkedAt := some 3, inventory := some [⟨"d","i",true⟩], bindingUpdates := some [⟨"u","b","g",true⟩] } [],true⟩]

def sampleDetach : Step := ⟨.detachTransport "t",true⟩

def sampleSource : Source :=
  { newSource (fun _ => "00") "https://h/s" with
    transportTags := some []
    bindings := some [⟨"u","b","g",true⟩]
    checkedAt := some 5
    inventory := some [⟨"a","f",true⟩,⟨"b","g",true⟩,⟨"c","h",true⟩]
    knownCandidates := some {"a","b"}
    pendingCandidates := some {"c"}
    pendingNewServersCount := some 1
    pendingServersRevision := some 2 }

theorem sampleHeld : ∀ between ∈ (sampleLater ++ [sampleDetach]).inits,
    ∀ record ∈ (recordsAfter (fun _ => "00") [] ([sampleSave] ++ between))[0]?, "a" ∈ record.current := by decide

theorem sampleKnown : sampleSource.pending = sampleSource.current \ sampleSource.known ∧ "a" ∉ sampleSource.bound ∧
    "a" ∉ sampleSource.pending ∧
    (publicSubscription sampleSource).pendingNewServersCount = 1 := by
  have found : (recordsAfter (fun _ => "00") [] ([sampleSave] ++ sampleLater ++ [sampleDetach]))[0]? = some sampleSource := by decide
  have empty : ∀ record ∈ ([] : List Source), Uninitialized record := fun record mem => absurd mem List.not_mem_nil
  obtain ⟨pending,-,counted,settled,-⟩ :=
    @pendingServersExact (fun _ => "00") [] 0 empty ([sampleSave] ++ sampleLater) sampleDetach sampleSource found rfl
  obtain ⟨first,saved⟩ : ∃ first, (recordsAfter (fun _ => "00") [] [sampleSave])[0]? = some first := ⟨_,rfl⟩
  have settles : Settles "a" sampleSave.call (recordsAfter (fun _ => "00") [] [])[0]? first :=
    ⟨sampleHeld [] ((List.mem_inits _ _).mpr List.nil_prefix) first saved,.inl fun record before => by cases before⟩
  have known := settled [] sampleSave (sampleLater ++ [sampleDetach]) "a" first (List.append_assoc _ _ _) saved settles
    fun between part record now => sampleHeld between ((List.mem_inits _ _).mpr part) record now
  exact ⟨pending,by decide,known,counted.trans (by decide)⟩

end Example

end KeenPbr.SubscriptionStore
