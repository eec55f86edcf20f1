import KeenPbr.DocumentAccepted

/-! config/list_delete_planner.cpp: the document that remains when lists are deleted or replaced. -/
namespace KeenPbr.Documents

structure ListDeleteTarget where
  listId : String
  replacementListId : Option String := none
  deriving DecidableEq, Repr

abbrev ReplacementMap := List (String × Option String)

structure ListDeletePlanSummary where
  deletedLists : List String := []
  reboundReferences : Nat := 0
  removedRouteRules : Nat := 0
  updatedRouteRules : Nat := 0
  removedDnsRules : Nat := 0
  updatedDnsRules : Nat := 0
  deriving DecidableEq, Repr

structure ListDeletePlan (ω : Type) where
  config : Document ω
  summary : ListDeletePlanSummary := {}
  deriving DecidableEq, Repr

section Planner
variable {ω : Type}

def emplaceTargets (known : List String) : List ListDeleteTarget → ReplacementMap → Except String ReplacementMap
  | [], replacements => .ok replacements
  | target :: others, replacements =>
    if target.listId.isEmpty then .error "List delete target id must not be empty"
    else if !known.contains target.listId then .error ("List delete target does not exist: " ++ target.listId)
    else if (replacements.lookup target.listId).isSome then .error ("Duplicate list delete target: " ++ target.listId)
    else emplaceTargets known others (replacements ++ [(target.listId,target.replacementListId)])

def replacementError (known : List String) (replacements : ReplacementMap) (entry : String × Option String) : Option String :=
  match entry.2 with
  | none => none
  | some replacement =>
    if replacement.isEmpty then some "Replacement list id must not be empty"
    else if replacement == entry.1 then some ("A deleted list cannot replace itself: " ++ entry.1)
    else if (replacements.lookup replacement).isSome then some ("Replacement list is also selected for deletion: " ++ replacement)
    else if !known.contains replacement then some ("Replacement list does not exist: " ++ replacement)
    else none

/- The second loop runs in the order of the std::map. -/
def validateTargets (source : Document ω) (targets : List ListDeleteTarget) : Except String ReplacementMap :=
  if targets.isEmpty then .error "At least one list delete target is required"
  else if source.lists.isNone then .error "Cannot delete a list from an empty configuration"
  else
    match emplaceTargets source.listNames targets [] with
    | .error message => .error message
    | .ok replacements =>
      match (replacements.insertionSort fun left right => left.1 ≤ right.1).findSome? (replacementError source.listNames replacements) with
      | some message => .error message
      | none => .ok replacements

/- The references that stay and, once each, the replacements that are not among them; with the number of
references that were given a replacement. -/
def rewriteFrom (replacements : ReplacementMap) (retainedOriginals : List String) : List String → List String → List String × Nat
  | [], _ => ([],0)
  | listId :: others, inserted =>
    match replacements.lookup listId with
    | none =>
      let later := rewriteFrom replacements retainedOriginals others inserted
      (listId :: later.1,later.2)
    | some none => rewriteFrom replacements retainedOriginals others inserted
    | some (some replacement) =>
      if retainedOriginals.contains replacement || inserted.contains replacement then
        let later := rewriteFrom replacements retainedOriginals others inserted
        (later.1,later.2 + 1)
      else
        let later := rewriteFrom replacements retainedOriginals others (inserted ++ [replacement])
        (replacement :: later.1,later.2 + 1)

def rewriteListReferences (original : List String) (replacements : ReplacementMap) : List String × Nat :=
  rewriteFrom replacements (original.filter fun listId => (replacements.lookup listId).isNone) original []

def routeRuleHasNonListMatchCondition (rule : RouteRule) : Bool :=
  rule.dscp.isSome || rule.srcPort.isSome || rule.destPort.isSome || rule.srcAddr.isSome || rule.destAddr.isSome

def rewriteRouteRule (replacements : ReplacementMap) (rule : RouteRule) : Option RouteRule :=
  match rule.list with
  | none => some rule
  | some list =>
    let rewritten := (rewriteListReferences list replacements).1
    if rewritten == list then some rule
    else if rewritten.isEmpty && !routeRuleHasNonListMatchCondition rule then none
    else some { rule with list := if rewritten.isEmpty then none else some rewritten }

def rewriteDnsRule (replacements : ReplacementMap) (rule : DnsRule) : Option DnsRule :=
  let rewritten := (rewriteListReferences rule.list replacements).1
  if rewritten == rule.list then some rule
  else if rewritten.isEmpty then none
  else some { rule with list := rewritten }

def reboundIn (replacements : ReplacementMap) (references : List (List String)) : Nat :=
  (references.map fun list => (rewriteListReferences list replacements).2).sum

def remainingLists (lists : Option (List (String × ListConfig))) (replacements : ReplacementMap) : Option (List (String × ListConfig)) :=
  match (lists.getD []).filter fun entry => (replacements.lookup entry.1).isNone with
  | [] => none
  | remaining => some remaining

def rewrittenDns (replacements : ReplacementMap) (dns : DnsConfig) : DnsConfig :=
  { dns with rules := dns.rules.map (·.filterMap (rewriteDnsRule replacements)) }

def rewrittenConfig (source : Document ω) (replacements : ReplacementMap) : Document ω :=
  { source with
    routeRules := source.routeRules.map (·.filterMap (rewriteRouteRule replacements))
    dns := source.dns.map (rewrittenDns replacements)
    reconnectOwnedFlowsOnRoutingChangeLists :=
      source.reconnectOwnedFlowsOnRoutingChangeLists.map fun names => (rewriteListReferences names replacements).1
    lists := remainingLists source.lists replacements }

def planSummary (source : Document ω) (targets : List ListDeleteTarget) (replacements : ReplacementMap) : ListDeletePlanSummary :=
  let dnsRules := (source.dns.bind (·.rules)).getD []
  let routed := source.rules.map fun rule => (rule,rewriteRouteRule replacements rule)
  let resolved := dnsRules.map fun rule => (rule,rewriteDnsRule replacements rule)
  { deletedLists := targets.map (·.listId)
    reboundReferences := reboundIn replacements (source.rules.filterMap (·.list)) + reboundIn replacements (dnsRules.map (·.list)) +
      reboundIn replacements source.reconnectOwnedFlowsOnRoutingChangeLists.toList
    removedRouteRules := routed.countP fun pair => pair.2.isNone
    updatedRouteRules := routed.countP fun pair => pair.2.any (· != pair.1)
    removedDnsRules := resolved.countP fun pair => pair.2.isNone
    updatedDnsRules := resolved.countP fun pair => pair.2.any (· != pair.1) }

def planListDelete (source : Document ω) (targets : List ListDeleteTarget) : Except String (ListDeletePlan ω) :=
  match validateTargets source targets with
  | .error message => .error message
  | .ok replacements => .ok ⟨rewrittenConfig source replacements,planSummary source targets replacements⟩

end Planner

section Rewrite
variable {replacements : ReplacementMap} {retained originals inserted : List String} {ref : String}

theorem memRewriteFrom : ref ∈ (rewriteFrom replacements retained originals inserted).1 ↔
    (ref ∈ originals ∧ replacements.lookup ref = none) ∨
      (∃ name ∈ originals, replacements.lookup name = some (some ref)) ∧ ref ∉ retained ∧ ref ∉ inserted := by
  induction originals generalizing inserted with
  | nil => simp [rewriteFrom]
  | cons name others ih =>
    rw [rewriteFrom]
    cases target : replacements.lookup name with
    | none =>
      simp only [List.mem_cons,ih,exists_eq_or_imp]
      constructor
      · rintro (rfl | ⟨mem,kept⟩ | ⟨found,apart⟩)
        · exact .inl ⟨.inl rfl,target⟩
        · exact .inl ⟨.inr mem,kept⟩
        · exact .inr ⟨.inr found,apart⟩
      · rintro (⟨rfl | mem,kept⟩ | ⟨absent | found,apart⟩)
        · exact .inl rfl
        · exact .inr (.inl ⟨mem,kept⟩)
        · rw [target] at absent
          cases absent
        · exact .inr (.inr ⟨found,apart⟩)
    | some replacement =>
      have gone : ref = name → replacements.lookup ref ≠ none := by
        rintro rfl kept
        rw [target] at kept
        cases kept
      have rest : (ref ∈ name :: others ∧ replacements.lookup ref = none) ↔ ref ∈ others ∧ replacements.lookup ref = none := by
        rw [List.mem_cons]
        constructor
        · rintro ⟨same | mem,kept⟩
          · exact absurd kept (gone same)
          · exact ⟨mem,kept⟩
        · exact fun ⟨mem,kept⟩ => ⟨.inr mem,kept⟩
      rw [rest]
      simp only [List.mem_cons,exists_eq_or_imp,target,Option.some.injEq]
      cases replacement with
      | none => simp [ih]
      | some replacement =>
        simp only [Option.some.injEq]
        by_cases known : (retained.contains replacement || inserted.contains replacement) = true
        · rw [if_pos known]
          rw [Bool.or_eq_true,List.contains_iff_mem,List.contains_iff_mem] at known
          rw [ih]
          constructor
          · exact Or.imp id fun ⟨found,apart⟩ => ⟨.inr found,apart⟩
          · refine Or.imp id ?_
            rintro ⟨rfl | found,apart⟩
            · exact absurd known (not_or.mpr apart)
            · exact ⟨found,apart⟩
        · rw [if_neg known]
          rw [Bool.or_eq_true,List.contains_iff_mem,List.contains_iff_mem,not_or] at known
          simp only [List.mem_cons,ih,List.mem_append,not_or]
          constructor
          · rintro (rfl | kept | ⟨found,free,fresh,_⟩)
            · exact .inr ⟨.inl rfl,known⟩
            · exact .inl kept
            · exact .inr ⟨.inr found,free,fresh⟩
          · rintro (kept | ⟨rfl | found,apart⟩)
            · exact .inr (.inl kept)
            · exact .inl rfl
            · by_cases same : ref = replacement
              · exact .inl same
              · exact .inr (.inr ⟨found,apart.1,apart.2,same,fun absent => by cases absent⟩)

theorem memRewrite : ref ∈ (rewriteListReferences originals replacements).1 ↔
    (ref ∈ originals ∧ replacements.lookup ref = none) ∨ ∃ name ∈ originals, replacements.lookup name = some (some ref) := by
  rw [rewriteListReferences,memRewriteFrom,List.mem_filter,Option.isNone_iff_eq_none]
  constructor
  · exact Or.imp id And.left
  · rintro (kept | found)
    · exact .inl kept
    · by_cases kept : ref ∈ originals ∧ replacements.lookup ref = none
      · exact .inl kept
      · exact .inr ⟨found,kept,fun absent => by cases absent⟩

theorem rewriteFromNodup (distinct : originals.Nodup) (listed : ∀ name ∈ originals, replacements.lookup name = none → name ∈ retained) :
    (rewriteFrom replacements retained originals inserted).1.Nodup := by
  induction originals generalizing inserted with
  | nil => exact List.nodup_nil
  | cons name others ih =>
    obtain ⟨apart,distinct⟩ := List.nodup_cons.mp distinct
    have later : ∀ name ∈ others, replacements.lookup name = none → name ∈ retained :=
      fun other mem => listed other (List.mem_cons_of_mem name mem)
    rw [rewriteFrom]
    cases target : replacements.lookup name with
    | none =>
      refine List.nodup_cons.mpr ⟨fun mem => ?_,ih distinct later⟩
      rcases memRewriteFrom.mp mem with ⟨again,_⟩ | ⟨_,free,_⟩
      · exact apart again
      · exact free (listed name List.mem_cons_self target)
    | some replacement =>
      cases replacement with
      | none => exact ih distinct later
      | some replacement =>
        dsimp only
        split
        · exact ih distinct later
        · rename_i known
          rw [Bool.or_eq_true,List.contains_iff_mem,List.contains_iff_mem,not_or] at known
          refine List.nodup_cons.mpr ⟨fun mem => ?_,ih distinct later⟩
          rcases memRewriteFrom.mp mem with ⟨again,kept⟩ | ⟨_,_,fresh⟩
          · exact known.1 (later replacement again kept)
          · exact fresh (List.mem_append_right _ List.mem_cons_self)

theorem rewriteNodup (distinct : originals.Nodup) : (rewriteListReferences originals replacements).1.Nodup :=
  rewriteFromNodup distinct fun _ mem kept => List.mem_filter.mpr ⟨mem,Option.isNone_iff_eq_none.mpr kept⟩

theorem rewriteFromLength : (rewriteFrom replacements retained originals inserted).1.length ≤ originals.length := by
  induction originals generalizing inserted with
  | nil => exact Nat.le_refl _
  | cons name others ih =>
    rw [rewriteFrom]
    cases replacements.lookup name with
    | none => exact Nat.succ_le_succ ih
    | some replacement =>
      cases replacement with
      | none => exact Nat.le_succ_of_le ih
      | some replacement =>
        dsimp only
        split
        · exact Nat.le_succ_of_le ih
        · exact Nat.succ_le_succ ih

end Rewrite

/- What the checks of the targets leave: every target is a list, and a replacement is a list that stays. -/
structure Replacing (known : List String) (targets : List ListDeleteTarget) (replacements : ReplacementMap) : Prop where
  deleted : ∀ name, replacements.lookup name = none ↔ name ∉ targets.map (·.listId)
  listed : ∀ name ∈ targets.map (·.listId), name ∈ known
  stays : ∀ name replacement, replacements.lookup name = some (some replacement) → replacement ∈ known ∧
    replacements.lookup replacement = none

section Targets
variable {ω : Type} {known : List String} {targets : List ListDeleteTarget} {replacements : ReplacementMap}

theorem emplaced {start : ReplacementMap} (ok : emplaceTargets known targets start = .ok replacements) :
    replacements = start ++ targets.map (fun target => (target.listId,target.replacementListId)) ∧
      ∀ target ∈ targets, target.listId ∈ known := by
  induction targets generalizing start with
  | nil =>
    cases ok
    exact ⟨(List.append_nil replacements).symm,fun _ mem => by cases mem⟩
  | cons target others ih =>
    rw [emplaceTargets] at ok
    split at ok
    · cases ok
    · split at ok
      · cases ok
      · rename_i found
        split at ok
        · cases ok
        · obtain ⟨shape,listed⟩ := ih ok
          rw [List.append_assoc] at shape
          refine ⟨shape,List.forall_mem_cons.mpr ⟨?_,listed⟩⟩
          simpa using found

theorem replacing {source : Document ω} (ok : validateTargets source targets = .ok replacements) :
    Replacing source.listNames targets replacements := by
  unfold validateTargets at ok
  split at ok
  · cases ok
  · split at ok
    · cases ok
    · cases emplace : emplaceTargets source.listNames targets [] with
      | error message =>
        rw [emplace] at ok
        cases ok
      | ok entries =>
        rw [emplace] at ok
        dsimp only at ok
        split at ok
        · cases ok
        · rename_i clean
          cases ok
          obtain ⟨shape,listed⟩ := emplaced emplace
          rw [List.nil_append] at shape
          refine ⟨fun name => ?_,fun name mem => ?_,fun name replacement found => ?_⟩
          · rw [shape,List.lookup_eq_none_iff,List.mem_map]
            constructor
            · rintro apart ⟨target,inside,rfl⟩
              exact bne_iff_ne.mp (apart _ (List.mem_map_of_mem inside)) rfl
            · intro absent entry mem
              obtain ⟨target,inside,rfl⟩ := List.mem_map.mp mem
              exact bne_iff_ne.mpr fun same => absent ⟨target,inside,same.symm⟩
          · obtain ⟨target,inside,rfl⟩ := List.mem_map.mp mem
            exact listed target inside
          · have checked := List.findSome?_eq_none_iff.mp clean _ ((List.mem_insertionSort _).mpr (lookupMem found))
            simp only [replacementError] at checked
            split at checked
            · cases checked
            · split at checked
              · cases checked
              · split at checked
                · cases checked
                · rename_i free
                  split at checked
                  · cases checked
                  · rename_i present
                    exact ⟨by simpa using present,Option.not_isSome_iff_eq_none.mp free⟩

end Targets

/- The places that name a list. The validator reads a rule's reference without its outer blanks. -/
def RefersToList {ω : Type} (doc : Document ω) (name : String) : Prop :=
  (∃ rule ∈ doc.rules, ∃ ref ∈ routeRuleLists rule, trimCopy ref = name) ∨
  (∃ dns, doc.dns = some dns ∧ ∃ rule ∈ dns.rules.getD [], ∃ ref ∈ rule.list, trimCopy ref = name) ∨
  name ∈ doc.reconnectOwnedFlowsOnRoutingChangeLists.getD [] ∨
  (∃ probe, doc.tunnelProbe = some probe ∧ probe.list = some name)

/- No rule names one of the lists with blanks around it, and the tunnel probe names none of them. -/
structure NamedPlainly {ω : Type} (doc : Document ω) (names : List String) : Prop where
  routed : ∀ rule ∈ doc.rules, ∀ ref ∈ routeRuleLists rule, trimCopy ref ∈ names → ref ∈ names
  resolved : ∀ dns, doc.dns = some dns → ∀ rule ∈ dns.rules.getD [], ∀ ref ∈ rule.list, trimCopy ref ∈ names → ref ∈ names
  probed : ∀ probe, doc.tunnelProbe = some probe → ∀ name, probe.list = some name → name ∉ names

section Result
variable {ω : Type} {read : Readers ω} {doc : Document ω} {targets : List ListDeleteTarget} {replacements : ReplacementMap}

theorem remainingEntries : (rewrittenConfig doc replacements).listEntries = doc.listEntries.filter fun entry =>
    (replacements.lookup entry.1).isNone := by
  unfold Document.listEntries rewrittenConfig remainingLists
  dsimp only
  split
  · rename_i none
    exact none.symm
  · rfl

theorem remainingNames {name : String} : name ∈ (rewrittenConfig doc replacements).listNames ↔ name ∈ doc.listNames ∧
    replacements.lookup name = none := by
  unfold Document.listNames
  rw [remainingEntries,List.mem_map,List.mem_map]
  constructor
  · rintro ⟨entry,mem,rfl⟩
    obtain ⟨mem,kept⟩ := List.mem_filter.mp mem
    exact ⟨⟨entry,mem,rfl⟩,Option.isNone_iff_eq_none.mp kept⟩
  · rintro ⟨⟨entry,mem,rfl⟩,kept⟩
    exact ⟨entry,List.mem_filter.mpr ⟨mem,Option.isNone_iff_eq_none.mpr kept⟩,rfl⟩

theorem rewrittenRules : (rewrittenConfig doc replacements).rules = doc.rules.filterMap (rewriteRouteRule replacements) := by
  unfold Document.rules rewrittenConfig
  cases doc.routeRules <;> rfl

theorem rewrittenDnsRules {dns : DnsConfig} :
    (rewrittenDns replacements dns).rules.getD [] = (dns.rules.getD []).filterMap (rewriteDnsRule replacements) := by
  unfold rewrittenDns
  cases dns.rules <;> rfl

theorem routeRuleKept {rule kept : RouteRule} (stays : rewriteRouteRule replacements rule = some kept) :
    ∃ list, kept = { rule with list } ∧ routeRuleLists kept = (rewriteListReferences (routeRuleLists rule) replacements).1 := by
  unfold rewriteRouteRule at stays
  cases listed : rule.list with
  | none =>
    rw [listed] at stays
    cases stays
    refine ⟨rule.list,rfl,?_⟩
    rw [routeRuleLists,listed]
    rfl
  | some list =>
    rw [listed] at stays
    dsimp only at stays
    have old : routeRuleLists rule = list := by
      rw [routeRuleLists,listed]
      rfl
    rw [old]
    split at stays
    · rename_i same
      cases stays
      exact ⟨rule.list,rfl,old.trans (beq_iff_eq.mp same).symm⟩
    · split at stays
      · cases stays
      · cases stays
        refine ⟨_,rfl,?_⟩
        unfold routeRuleLists
        dsimp only
        split
        · rename_i empty
          exact (List.isEmpty_iff.mp empty).symm
        · rfl

theorem dnsRuleKept {rule kept : DnsRule} (stays : rewriteDnsRule replacements rule = some kept) :
    kept = { rule with list := (rewriteListReferences rule.list replacements).1 } ∧ (rule.list ≠ [] → kept.list ≠ []) := by
  unfold rewriteDnsRule at stays
  dsimp only at stays
  split at stays
  · rename_i same
    cases stays
    rw [beq_iff_eq.mp same]
    exact ⟨rfl,id⟩
  · split at stays
    · cases stays
    · rename_i filled
      cases stays
      exact ⟨rfl,fun _ empty => filled (List.isEmpty_iff.mpr empty)⟩

theorem keptIds {α : Type} {id : α → Option String} {change : α → Option α}
    (same : ∀ rule kept, change rule = some kept → id kept = id rule) (rules : List α) :
    ((rules.filterMap change).flatMap fun rule => (id rule).toList).Sublist (rules.flatMap fun rule => (id rule).toList) := by
  induction rules with
  | nil => exact .slnil
  | cons rule others ih =>
    rw [List.flatMap_cons]
    cases changed : change rule with
    | none =>
      rw [List.filterMap_cons_none changed]
      exact ih.trans (List.sublist_append_right _ _)
    | some kept =>
      rw [List.filterMap_cons_some changed,List.flatMap_cons,same rule kept changed]
      exact ih.append_left _

theorem rewrittenNames (valid : ∀ name ∈ doc.listNames, isValidTag name = true)
    (replaced : Replacing doc.listNames targets replacements) {list : List String}
    (named : ∀ ref ∈ list, Names doc.listNames ref) (plain : ∀ ref ∈ list, trimCopy ref ∈ targets.map (·.listId) →
      ref ∈ targets.map (·.listId))
    {ref : String} (mem : ref ∈ (rewriteListReferences list replacements).1) : Names (rewrittenConfig doc replacements).listNames ref := by
  rcases memRewrite.mp mem with ⟨old,kept⟩ | ⟨name,_,found⟩
  · obtain ⟨filled,known⟩ := named ref old
    refine ⟨filled,remainingNames.mpr ⟨known,(replaced.deleted _).mpr fun gone => ?_⟩⟩
    exact (replaced.deleted ref).mp kept (plain ref old gone)
  · obtain ⟨known,kept⟩ := replaced.stays name ref found
    have tag := valid ref known
    rw [Names,trimValidTag tag]
    refine ⟨?_,remainingNames.mpr ⟨known,kept⟩⟩
    rintro rfl
    cases tag

theorem ruleClean {outbounds lists lists' : List String} {known : List Outbound} {rule : RouteRule}
    (clean : RuleClean outbounds lists known rule)
    {list : Option (List String)} (named : ∀ ref ∈ routeRuleLists { rule with list }, Names lists' ref) :
    RuleClean outbounds lists' known { rule with list } :=
  ⟨clean.id,clean.display,clean.outbound,⟨clean.policy.primary,clean.policy.exact,clean.policy.fallback,clean.policy.unused⟩,named⟩

theorem listValid (accepted : Accepted read doc) : ∀ name ∈ doc.listNames, isValidTag name = true := by
  intro name mem
  obtain ⟨entry,inside,rfl⟩ := List.mem_map.mp mem
  exact (accepted.lists entry inside).tag

theorem fewerRouted : ∀ tag ∈ directlyRoutedOutbounds (rewrittenConfig doc replacements).rules,
    tag ∈ directlyRoutedOutbounds doc.rules := by
  intro tag mem
  unfold directlyRoutedOutbounds at mem ⊢
  rw [rewrittenRules] at mem
  obtain ⟨kept,inside,here⟩ := List.mem_flatMap.mp mem
  obtain ⟨rule,listed,stays⟩ := List.mem_filterMap.mp inside
  obtain ⟨list,rfl,_⟩ := routeRuleKept stays
  exact List.mem_flatMap.mpr ⟨rule,listed,here⟩

theorem fewerDetours : ∀ tag ∈ directListDetours doc.listRefresh (rewrittenConfig doc replacements).listEntries,
    tag ∈ directListDetours doc.listRefresh doc.listEntries := by
  intro tag mem
  unfold directListDetours at mem ⊢
  obtain ⟨entry,inside,here⟩ := List.mem_flatMap.mp mem
  obtain ⟨mem,url⟩ := List.mem_filter.mp inside
  rw [remainingEntries] at mem
  exact List.mem_flatMap.mpr ⟨entry,List.mem_filter.mpr ⟨(List.mem_filter.mp mem).1,url⟩,here⟩

theorem rewrittenAccepted (accepted : Accepted read doc) (replaced : Replacing doc.listNames targets replacements)
    (plain : NamedPlainly doc (targets.map (·.listId))) : Accepted read (rewrittenConfig doc replacements) := by
  have valid := listValid accepted
  refine { accepted with
    lists := ?_, identities := ?_, reconnect := ?_, detours := ?_, rules := ?_, ruleIds := ?_, multiport := ?_, dns := ?_,
    conntrack := ?_ }
  · intro entry mem
    rw [remainingEntries] at mem
    exact accepted.lists entry (List.mem_filter.mp mem).1
  · rw [remainingEntries]
    exact accepted.identities.sublist (List.filter_sublist.filterMap _)
  · intro names selected
    cases old : doc.reconnectOwnedFlowsOnRoutingChangeLists with
    | none =>
      have none : (none : Option (List String)) = some names := by
        rw [← selected]
        change none = doc.reconnectOwnedFlowsOnRoutingChangeLists.map _
        rw [old]
        rfl
      cases none
    | some originals =>
      have same : names = (rewriteListReferences originals replacements).1 := by
        have image : doc.reconnectOwnedFlowsOnRoutingChangeLists.map
          (fun names => (rewriteListReferences names replacements).1) = some names := selected
        rw [old] at image
        exact (Option.some.inj image).symm
      obtain ⟨short,distinct,known⟩ := accepted.reconnect originals old
      rw [same]
      refine ⟨rewriteFromLength.trans short,rewriteNodup distinct,fun name mem => remainingNames.mpr ?_⟩
      rcases memRewrite.mp mem with ⟨listed,kept⟩ | ⟨other,_,found⟩
      · exact ⟨known name listed,kept⟩
      · exact replaced.stays other name found
  · intro entry mem
    rw [remainingEntries] at mem
    exact accepted.detours entry (List.mem_filter.mp mem).1
  · intro kept mem
    rw [rewrittenRules] at mem
    obtain ⟨rule,listed,stays⟩ := List.mem_filterMap.mp mem
    obtain ⟨list,rfl,lists⟩ := routeRuleKept stays
    refine ruleClean (accepted.rules rule listed) fun ref inside => ?_
    rw [lists] at inside
    exact rewrittenNames valid replaced (accepted.rules rule listed).lists (plain.routed rule listed) inside
  · rw [rewrittenRules]
    refine accepted.ruleIds.sublist (keptIds (fun rule kept stays => ?_) doc.rules)
    obtain ⟨list,rfl,_⟩ := routeRuleKept stays
    rfl
  · intro iptables kept mem
    rw [rewrittenRules] at mem
    obtain ⟨rule,listed,stays⟩ := List.mem_filterMap.mp mem
    obtain ⟨list,rfl,_⟩ := routeRuleKept stays
    exact accepted.multiport iptables rule listed
  · obtain ⟨dns,stated,clean⟩ := accepted.dns
    have stays : (rewrittenConfig doc replacements).dns = some (rewrittenDns replacements dns) :=
      congrArg (Option.map (rewrittenDns replacements)) stated
    refine ⟨_,stays,{ clean with rules := ?_, ruleIds := ?_ }⟩
    · intro kept mem
      rw [rewrittenDnsRules] at mem
      obtain ⟨rule,listed,survives⟩ := List.mem_filterMap.mp mem
      obtain ⟨shape,filled⟩ := dnsRuleKept survives
      have old := clean.rules rule listed
      have lists : ∀ ref ∈ kept.list, Names (rewrittenConfig doc replacements).listNames ref := by
        rw [shape]
        exact fun ref inside => rewrittenNames valid replaced old.lists (plain.resolved dns stated rule listed) inside
      have nonempty := filled old.filled
      rw [shape] at nonempty lists ⊢
      exact ⟨old.id,old.display,old.server,nonempty,lists⟩
    · rw [rewrittenDnsRules]
      refine clean.ruleIds.sublist (keptIds (fun rule kept survives => ?_) (dns.rules.getD []))
      rw [(dnsRuleKept survives).1]
  · intro outbound mem group mode child inside
    have old := accepted.conntrack outbound mem group mode child inside
    obtain ⟨dns,stated,_⟩ := accepted.dns
    have detours : directDnsDetours (rewrittenConfig doc replacements).dns = directDnsDetours doc.dns := by
      change directDnsDetours (doc.dns.map (rewrittenDns replacements)) = directDnsDetours doc.dns
      rw [stated]
      rfl
    refine ⟨old.leaf,old.single,fun delete routed => old.unrouted delete (fewerRouted child routed),?_,
      fun delete loaded => old.unloaded delete (fewerDetours child loaded)⟩
    rw [detours]
    exact old.undetoured

theorem routeReferenceStays {rule : RouteRule} {ref : String} (mem : ref ∈ routeRuleLists rule) (kept : replacements.lookup ref = none) :
    ∃ stays, rewriteRouteRule replacements rule = some stays ∧ ref ∈ routeRuleLists stays := by
  have inside : ref ∈ (rewriteListReferences (routeRuleLists rule) replacements).1 := memRewrite.mpr (.inl ⟨mem,kept⟩)
  cases changed : rewriteRouteRule replacements rule with
  | some stays =>
    obtain ⟨_,_,lists⟩ := routeRuleKept changed
    rw [← lists] at inside
    exact ⟨stays,rfl,inside⟩
  | none =>
    unfold rewriteRouteRule at changed
    cases listed : rule.list with
    | none =>
      rw [listed] at changed
      cases changed
    | some list =>
      rw [routeRuleLists,listed] at inside
      rw [listed] at changed
      dsimp only at changed
      split at changed
      · cases changed
      · split at changed
        · rename_i gone
          rw [Bool.and_eq_true,List.isEmpty_iff] at gone
          change ref ∈ (rewriteListReferences list replacements).1 at inside
          rw [gone.1] at inside
          cases inside
        · cases changed

theorem dnsReferenceStays {rule : DnsRule} {ref : String} (mem : ref ∈ rule.list) (kept : replacements.lookup ref = none) :
    ∃ stays, rewriteDnsRule replacements rule = some stays ∧ ref ∈ stays.list := by
  have inside : ref ∈ (rewriteListReferences rule.list replacements).1 := memRewrite.mpr (.inl ⟨mem,kept⟩)
  cases changed : rewriteDnsRule replacements rule with
  | some stays =>
    rw [(dnsRuleKept changed).1]
    exact ⟨_,rfl,inside⟩
  | none =>
    unfold rewriteDnsRule at changed
    dsimp only at changed
    split at changed
    · cases changed
    · split at changed
      · rename_i gone
        rw [List.isEmpty_iff.mp gone] at inside
        cases inside
      · cases changed

theorem plannedReplacing {plan : ListDeletePlan ω} (planned : planListDelete doc targets = .ok plan) :
    ∃ replacements, Replacing doc.listNames targets replacements ∧ plan.config = rewrittenConfig doc replacements := by
  unfold planListDelete at planned
  cases checked : validateTargets doc targets with
  | error message =>
    rw [checked] at planned
    cases planned
  | ok replacements =>
    rw [checked] at planned
    cases planned
    exact ⟨replacements,replacing checked,rfl⟩

/- Deleted lists leave no reference behind and a document that is accepted, exactly when no rule names one
of them with blanks around it and the tunnel probe names none. -/
theorem deletedListsUnnamed (accepted : validateDocument read doc = []) (plan : ListDeletePlan ω)
    (planned : planListDelete doc targets = .ok plan) :
    ((∀ name ∈ targets.map (·.listId), ¬RefersToList plan.config name) ∧ validateDocument read plan.config = []) ↔
      NamedPlainly doc (targets.map (·.listId)) := by
  obtain ⟨replacements,replaced,config⟩ := plannedReplacing planned
  rw [config]
  have clean := acceptedIff.mp accepted
  constructor
  · rintro ⟨unnamed,_⟩
    refine ⟨fun rule listed ref mem gone => ?_,fun dns stated rule listed ref mem gone => ?_,fun probe stated name named gone => ?_⟩
    · by_contra other
      obtain ⟨stays,survives,inside⟩ := routeReferenceStays mem ((replaced.deleted ref).mpr other)
      refine unnamed _ gone (.inl ⟨stays,?_,ref,inside,rfl⟩)
      rw [rewrittenRules]
      exact List.mem_filterMap.mpr ⟨rule,listed,survives⟩
    · by_contra other
      obtain ⟨stays,survives,inside⟩ := dnsReferenceStays mem ((replaced.deleted ref).mpr other)
      refine unnamed _ gone (.inr (.inl
        ⟨rewrittenDns replacements dns,congrArg (Option.map (rewrittenDns replacements)) stated,stays,?_,ref,inside,rfl⟩))
      rw [rewrittenDnsRules]
      exact List.mem_filterMap.mpr ⟨rule,listed,survives⟩
    · exact unnamed name gone (.inr (.inr (.inr ⟨probe,stated,named⟩)))
  · intro plain
    have result := rewrittenAccepted clean replaced plain
    refine ⟨fun name gone => ?_,acceptedIff.mpr result⟩
    have absent : name ∉ (rewrittenConfig doc replacements).listNames := fun mem =>
      (replaced.deleted name).mp (remainingNames.mp mem).2 gone
    rintro (⟨rule,mem,ref,inside,rfl⟩ | ⟨dns,stated,rule,mem,ref,inside,rfl⟩ | selected | ⟨probe,stated,named⟩)
    · exact absent ((result.rules rule mem).lists ref inside).2
    · obtain ⟨other,same,dnsClean⟩ := result.dns
      rw [stated] at same
      cases same
      exact absent ((dnsClean.rules rule mem).lists ref inside).2
    · cases listed : (rewrittenConfig doc replacements).reconnectOwnedFlowsOnRoutingChangeLists with
      | none =>
        rw [listed] at selected
        cases selected
      | some names =>
        rw [listed] at selected
        exact absent ((result.reconnect names listed).2.2 name selected)
    · exact plain.probed probe stated name named gone

end Result

def plainReaders : Readers Unit :=
  ⟨⟨fun _ _ => none,fun _ _ => none⟩,fun _ => [],some,fun _ => .error ("",""),fun _ _ => none,fun _ => []⟩

def listedRule (list : List String) : RouteRule := { outbound := "wan", list := some list }

def twoLists (reference : String) (probe : Option TunnelProbe) : Document Unit :=
  { rest := ()
    lists := some [("ads",{ domains := some ["ads.example"] }),("video",{ domains := some ["video.example"] })]
    outbounds := some [{ tag := "wan", type := .interface, interface := some "eth0" }]
    routeRules := some [listedRule [reference,"video"]]
    dns := some { systemResolver := some "127.0.0.1" }
    tunnelProbe := probe }

def deleteAds : List ListDeleteTarget := [{ listId := "ads" }]

theorem plainlyDeleted : validateDocument plainReaders (twoLists "ads" none) = [] ∧
    ∀ plan, planListDelete (twoLists "ads" none) deleteAds = .ok plan →
      (∀ name ∈ ["ads"], ¬RefersToList plan.config name) ∧ validateDocument plainReaders plan.config = [] := by
  have accepted : validateDocument plainReaders (twoLists "ads" none) = [] := by decide
  refine ⟨accepted,fun plan planned => (deletedListsUnnamed accepted plan planned).mpr ⟨?_,?_,?_⟩⟩
  · decide
  · rintro dns stated
    cases stated
    decide
  · rintro probe stated
    cases stated

def paddedPlan : ListDeletePlan Unit :=
  ⟨rewrittenConfig (twoLists " ads " none) [("ads",none)],planSummary (twoLists " ads " none) deleteAds [("ads",none)]⟩

/- The reference " ads " is the list ads to the validator and another name to the planner. -/
theorem paddedReferenceStays : validateDocument plainReaders (twoLists " ads " none) = [] ∧
    planListDelete (twoLists " ads " none) deleteAds = .ok paddedPlan ∧
    RefersToList paddedPlan.config "ads" ∧ validateDocument plainReaders paddedPlan.config ≠ [] := by
  refine ⟨by decide,by decide,.inl ⟨listedRule [" ads ","video"],?_,?_⟩,?_⟩ <;> decide

end KeenPbr.Documents
