import Mathlib.Data.List.Dedup
import KeenPbr.Document

/-! What an accepted document is, free of the positions its issues are reported at. -/
namespace KeenPbr.Documents

section Values
variable {path path' kind kind' owner owner' code code' value : String} {known : List String}

@[simp] theorem issueNever {message : String} {params : List (String × String)} : oneIssue path message code params = [] ↔ False := by
  simp [oneIssue]

@[simp] theorem issueOr {c : Prop} [Decidable c] {message : String} {params : List (String × String)} {rest : Issues} :
    (if c then oneIssue path message code params else rest) = [] ↔ ¬c ∧ rest = [] := by
  by_cases h : c
  · simp [h]
  · simp [h]

theorem tagNil : validateTag path kind value = [] ↔ isValidTag value = true := by
  constructor
  · exact tagValid
  · intro valid
    have shape := valid
    unfold isValidTag at shape
    split at shape
    · cases shape
    · rename_i first others letters
      have filled : value.isEmpty = false := by
        rw [Bool.eq_false_iff]
        intro empty
        rw [String.isEmpty_iff.mp empty] at letters
        cases letters
      have short : ¬value.utf8ByteSize > 24 := by
        simp only [Bool.and_eq_true,decide_eq_true_eq] at shape
        omega
      unfold validateTag
      rw [filled,valid,if_neg Bool.false_ne_true,if_neg short]
      rfl

theorem displayNil {name : Option String} (clean : validateDisplayName path kind name = []) :
    validateDisplayName path' kind' name = [] := by
  cases name with
  | none => rfl
  | some value =>
    unfold validateDisplayName at clean ⊢
    simp only at clean ⊢
    split at clean
    · cases clean
    · split at clean
      · cases clean
      · split at clean
        · cases clean
        · split at clean
          · cases clean
          · rename_i controls bidirectional blank long
            rw [if_neg controls,if_neg bidirectional,if_neg blank,if_neg long]

def Names (known : List String) (value : String) : Prop := trimCopy value ≠ "" ∧ trimCopy value ∈ known

theorem referenceNil : validateRequiredReference known path owner value kind code = [] ↔ Names known value := by
  unfold validateRequiredReference Names
  simp only
  by_cases empty : trimCopy value = ""
  · simp [empty]
  · simp [empty]

theorem listReferencesNil {refs : List String} : validateRuleListReferences known path refs = [] ↔ ∀ ref ∈ refs, Names known ref := by
  unfold validateRuleListReferences
  rw [List.flatMap_eq_nil_iff]
  constructor
  · intro clean ref mem
    obtain ⟨place,at_place⟩ := List.mem_iff_getElem?.mp mem
    exact referenceNil.mp (clean (ref,place) (List.mem_zipIdx_iff_getElem?.mpr at_place))
  · rintro named ⟨ref,place⟩ mem
    have at_place := List.mem_zipIdx_iff_getElem?.mp mem
    exact referenceNil.mpr (named ref (List.mem_iff_getElem?.mpr ⟨place,at_place⟩))

/- A failure policy needs a routable primary under its exact tag; a fallback one another routable outbound. -/
structure PolicyClean (outbounds : List Outbound) (rule : RouteRule) : Prop where
  primary : rule.failurePolicy.getD .inherit ≠ .inherit → ∀ target, findOutbound outbounds rule.outbound = some target →
    routableFailureTarget target.type = true
  exact : rule.failurePolicy.getD .inherit ≠ .inherit → findOutbound outbounds rule.outbound = none →
    findOutbound outbounds (trimCopy rule.outbound) = none
  fallback : rule.failurePolicy.getD .inherit = .fallback → rule.fallbackOutbound.getD "" ≠ "" ∧
    rule.fallbackOutbound.getD "" ≠ rule.outbound ∧
    ∃ target, findOutbound outbounds (rule.fallbackOutbound.getD "") = some target ∧ routableFailureTarget target.type = true
  unused : rule.failurePolicy.getD .inherit ≠ .fallback → rule.fallbackOutbound.getD "" = ""

theorem policyParts {outbounds : List Outbound} {rule : RouteRule} : PolicyClean outbounds rule ↔
    ((rule.failurePolicy.getD .inherit ≠ .inherit → ∀ target, findOutbound outbounds rule.outbound = some target →
      routableFailureTarget target.type = true) ∧
      (rule.failurePolicy.getD .inherit ≠ .inherit → findOutbound outbounds rule.outbound = none →
        findOutbound outbounds (trimCopy rule.outbound) = none)) ∧
    ((rule.failurePolicy.getD .inherit = .fallback → rule.fallbackOutbound.getD "" ≠ "" ∧ rule.fallbackOutbound.getD "" ≠ rule.outbound ∧
        ∃ target, findOutbound outbounds (rule.fallbackOutbound.getD "") = some target ∧ routableFailureTarget target.type = true) ∧
      (rule.failurePolicy.getD .inherit ≠ .fallback → rule.fallbackOutbound.getD "" = "")) :=
  ⟨fun clean => ⟨⟨clean.primary,clean.exact⟩,clean.fallback,clean.unused⟩,
    fun parts => ⟨parts.1.1,parts.1.2,parts.2.1,parts.2.2⟩⟩

theorem policyNil {outbounds : List Outbound} {rule : RouteRule} :
    failurePolicyIssues outbounds path rule = [] ↔ PolicyClean outbounds rule := by
  unfold failurePolicyIssues
  rw [List.append_eq_nil_iff,policyParts]
  refine and_congr ?_ ?_
  · by_cases inherits : rule.failurePolicy.getD .inherit = .inherit
    · simp [inherits]
    · cases found : findOutbound outbounds rule.outbound with
      | none | some => simp [inherits]
  · by_cases fallback : rule.failurePolicy.getD .inherit = .fallback
    · cases found : findOutbound outbounds (rule.fallbackOutbound.getD "") with
      | none | some => simp [fallback]
    · simp [fallback]

theorem lookupSnoc {β : Type} {seen : List (String × β)} {key other : String} {entry : β} :
    (seen ++ [(key,entry)]).lookup other = none ↔ seen.lookup other = none ∧ other ≠ key := by
  induction seen with
  | nil =>
    by_cases same : other = key
    · simp [same]
    · simp [same,List.lookup_cons,beq_eq_false_iff_ne.mpr same]
  | cons head tail ih =>
    obtain ⟨first,stored⟩ := head
    rw [List.cons_append,List.lookup_cons,List.lookup_cons]
    by_cases same : other = first
    · simp [same]
    · rw [beq_eq_false_iff_ne.mpr same]
      exact ih

theorem lookupMem {β : Type} {entries : List (String × β)} {name : String} {entry : β} (found : entries.lookup name = some entry) :
    (name,entry) ∈ entries := by
  induction entries with
  | nil => cases found
  | cons head tail ih =>
    obtain ⟨key,stored⟩ := head
    rw [List.lookup_cons] at found
    by_cases same : name = key
    · rw [same,beq_self_eq_true] at found
      cases found
      rw [same]
      exact List.mem_cons_self
    · rw [beq_eq_false_iff_ne.mpr same] at found
      exact List.mem_cons_of_mem _ (ih found)

theorem freshNames {β : Type} {seen : List (String × β)} {key : String} {entry : β} {others : List String} :
    (seen.lookup key = none ∧ others.Nodup ∧ ∀ other ∈ others, (seen ++ [(key,entry)]).lookup other = none) ↔
      (key :: others).Nodup ∧ ∀ other ∈ key :: others, seen.lookup other = none := by
  simp only [lookupSnoc,List.nodup_cons,List.mem_cons,forall_eq_or_imp]
  constructor
  · rintro ⟨fresh,distinct,later⟩
    exact ⟨⟨fun mem => (later key mem).2 rfl,distinct⟩,fresh,fun other mem => (later other mem).1⟩
  · rintro ⟨⟨apart,distinct⟩,fresh,later⟩
    refine ⟨fresh,distinct,fun other mem => ⟨later other mem,?_⟩⟩
    rintro rfl
    exact apart mem

end Values

structure ListClean (name : String) (list : ListConfig) : Prop where
  tag : isValidTag name = true
  format : ∀ format, list.sourceFormat = some format → validListSourceFormat format = true
  display : validateDisplayName "" "" list.displayName = []
  shrink : ∀ policy, list.shrinkPolicy = some policy → shrinkPolicyIssues "" policy = []
  identity : ∀ identity, list.catalogIdentity = some identity → validCatalogIdentity identity = true
  source : (list.url.isNone && list.file.isNone && (list.ipCidrs.getD []).isEmpty && (list.domains.getD []).isEmpty) = false

section Lists
variable {path : String}

theorem shrinkNil {policy : ShrinkPolicy} : shrinkPolicyIssues path policy = [] ↔ shrinkPolicyIssues "" policy = [] := by
  unfold shrinkPolicyIssues
  cases policy.minPreviousEntries with
  | none =>
    cases policy.minRetainedFraction with
    | none => rfl
    | some fraction => cases fraction <;> simp
  | some entries =>
    cases policy.minRetainedFraction with
    | none => simp
    | some fraction => cases fraction <;> simp

theorem displayFree {kind : String} {name : Option String} :
    validateDisplayName path kind name = [] ↔ validateDisplayName "" "" name = [] :=
  ⟨displayNil,displayNil⟩

theorem identityNil {identity : Option String} {first : List (String × String)} :
    (catalogIdentityIssues path identity first).1 = [] ↔
      ∀ named, identity = some named → validCatalogIdentity named = true ∧ first.lookup named = none := by
  cases identity with
  | none => simp [catalogIdentityIssues]
  | some identity =>
    simp only [catalogIdentityIssues]
    cases valid : validCatalogIdentity identity with
    | false => simp [valid]
    | true =>
      cases seen : first.lookup identity with
      | none =>
        simp only [Bool.not_true,Bool.false_eq_true,if_false,true_iff]
        intro named same
        cases same
        exact ⟨valid,seen⟩
      | some earlier =>
        simp only [Bool.not_true,Bool.false_eq_true,if_false,issueNever,false_iff]
        intro clean
        have fresh := (clean identity rfl).2
        rw [seen] at fresh
        cases fresh

theorem identityNext {identity : String} {first : List (String × String)} (valid : validCatalogIdentity identity = true)
    (fresh : first.lookup identity = none) :
    (catalogIdentityIssues path (some identity) first).2 = first ++ [(identity,path ++ ".catalog_identity")] := by
  simp only [catalogIdentityIssues,valid,fresh,Bool.not_true,Bool.false_eq_true,if_false]

theorem sourceNil {name : String} {list : ListConfig} : sourceIssues path name list = [] ↔
    (list.url.isNone && list.file.isNone && (list.ipCidrs.getD []).isEmpty && (list.domains.getD []).isEmpty) = false := by
  unfold sourceIssues
  simp only [issueOr,and_true,Bool.not_eq_true]

theorem listNil {name : String} {list : ListConfig} {first : List (String × String)} {others : List (String × ListConfig)} :
    listIssues ((name,list) :: others) first = [] ↔ ListClean name list ∧
      (∀ named, list.catalogIdentity = some named → first.lookup named = none) ∧
      listIssues others (catalogIdentityIssues (listPath name) list.catalogIdentity first).2 = [] := by
  rw [listIssues]
  simp only [List.append_eq_nil_iff,tagNil,displayFree,identityNil,sourceNil]
  constructor
  · rintro ⟨⟨⟨⟨⟨⟨tag,format⟩,display⟩,shrink⟩,identity⟩,source⟩,later⟩
    refine ⟨⟨tag,?_,display,?_,fun named listed => (identity named listed).1,source⟩,fun named listed => (identity named listed).2,later⟩
    · intro named listed
      rw [listed] at format
      simpa using format
    · intro policy listed
      rw [listed] at shrink
      exact shrinkNil.mp shrink
  · rintro ⟨⟨tag,format,display,shrink,identity,source⟩,fresh,later⟩
    refine ⟨⟨⟨⟨⟨⟨tag,?_⟩,display⟩,?_⟩,fun named listed => ⟨identity named listed,fresh named listed⟩⟩,source⟩,later⟩
    · cases stated : list.sourceFormat with
      | none => rfl
      | some named => simp [format named stated]
    · cases stated : list.shrinkPolicy with
      | none => rfl
      | some policy => exact shrinkNil.mpr (shrink policy stated)

theorem listsNil {entries : List (String × ListConfig)} {first : List (String × String)} :
    listIssues entries first = [] ↔ (∀ entry ∈ entries, ListClean entry.1 entry.2) ∧
      (entries.filterMap (·.2.catalogIdentity)).Nodup ∧
        ∀ identity ∈ entries.filterMap (·.2.catalogIdentity), first.lookup identity = none := by
  induction entries generalizing first with
  | nil => simp [listIssues]
  | cons entry others ih =>
    obtain ⟨name,list⟩ := entry
    rw [listNil,List.forall_mem_cons,ih]
    cases stated : list.catalogIdentity with
    | none =>
      have names : ((name,list) :: others).filterMap (·.2.catalogIdentity) = others.filterMap (·.2.catalogIdentity) :=
        List.filterMap_cons_none stated
      rw [names]
      simp only [catalogIdentityIssues]
      constructor
      · rintro ⟨clean,_,lists,rest⟩
        exact ⟨⟨clean,lists⟩,rest⟩
      · rintro ⟨⟨clean,lists⟩,rest⟩
        exact ⟨clean,(fun named absent => by cases absent),lists,rest⟩
    | some identity =>
      have names : ((name,list) :: others).filterMap (·.2.catalogIdentity) = identity :: others.filterMap (·.2.catalogIdentity) :=
        List.filterMap_cons_some stated
      rw [names]
      constructor
      · rintro ⟨clean,fresh,lists,rest⟩
        have unseen := fresh identity rfl
        rw [identityNext (clean.identity identity stated) unseen] at rest
        exact ⟨⟨clean,lists⟩,freshNames.mp ⟨unseen,rest⟩⟩
      · rintro ⟨⟨clean,lists⟩,rest⟩
        obtain ⟨unseen,rest⟩ := freshNames.mpr rest
        refine ⟨clean,?_,lists,?_⟩
        · rintro named same
          cases same
          exact unseen
        · rw [identityNext (clean.identity identity stated) unseen]
          exact rest

end Lists

structure RuleClean (outbounds lists : List String) (known : List Outbound) (rule : RouteRule) : Prop where
  id : ∀ id, rule.id = some id → isValidTag id = true
  display : validateDisplayName "" "" rule.displayName = []
  outbound : Names outbounds rule.outbound
  policy : PolicyClean known rule
  lists : ∀ ref ∈ routeRuleLists rule, Names lists ref

structure DnsRuleClean (servers lists : List String) (rule : DnsRule) : Prop where
  id : ∀ id, rule.id = some id → isValidTag id = true
  display : validateDisplayName "" "" rule.displayName = []
  server : Names servers rule.server
  filled : rule.list ≠ []
  lists : ∀ ref ∈ rule.list, Names lists ref

section Rules
variable {path kind : String}

theorem ruleIdNil {id : Option String} {ids : List (String × Nat)} {first : String → Nat → String} :
    (match id with
      | none => []
      | some id => validateTag path kind id ++
          match ids.lookup id with
          | some earlier => oneIssue path (first id earlier) "config.value.duplicate"
          | none => ([] : Issues)) = [] ↔
      ∀ named, id = some named → isValidTag named = true ∧ ids.lookup named = none := by
  cases id with
  | none =>
    simp only [true_iff]
    exact fun named absent => by cases absent
  | some id =>
    simp only [List.append_eq_nil_iff,tagNil]
    cases seen : ids.lookup id with
    | none =>
      simp only [and_true]
      constructor
      · rintro valid named same
        cases same
        exact ⟨valid,seen⟩
      · exact fun clean => (clean id rfl).1
    | some earlier =>
      simp only [issueNever,and_false,false_iff]
      intro clean
      have fresh := (clean id rfl).2
      rw [seen] at fresh
      cases fresh

theorem idsNext {ids : List (String × Nat)} {id : Option String} {index : Nat} {others : List String}
    (fresh : ∀ named, id = some named → ids.lookup named = none) :
    (others.Nodup ∧ ∀ other ∈ others, (match id with
        | some id => if (ids.lookup id).isSome then ids else ids ++ [(id,index)]
        | none => ids).lookup other = none) ↔
      (id.toList ++ others).Nodup ∧ ∀ other ∈ id.toList ++ others, ids.lookup other = none := by
  cases id with
  | none => rfl
  | some id =>
    have unseen := fresh id rfl
    simp only [unseen,Option.isSome_none,Bool.false_eq_true,if_false,Option.toList_some,List.singleton_append]
    constructor
    · exact fun rest => freshNames.mp ⟨unseen,rest⟩
    · exact fun rest => (freshNames.mpr rest).2

theorem routeRulesNil {cfg : Config} {rules : List RouteRule} {index : Nat} {ids : List (String × Nat)} :
    routeRuleIssues cfg rules index ids = [] ↔
      (∀ rule ∈ rules, RuleClean (cfg.outboundList.map (·.tag)) cfg.lists cfg.outboundList rule) ∧
      (rules.flatMap (·.id.toList)).Nodup ∧ ∀ id ∈ rules.flatMap (·.id.toList), ids.lookup id = none := by
  induction rules generalizing index ids with
  | nil => simp [routeRuleIssues]
  | cons rule others ih =>
    rw [routeRuleIssues,List.flatMap_cons]
    simp only [List.append_eq_nil_iff,displayFree,referenceNil,policyNil,listReferencesNil,ih,List.forall_mem_cons]
    constructor
    · rintro ⟨⟨⟨⟨⟨id,display⟩,outbound⟩,policy⟩,lists⟩,clean,rest⟩
      have named := ruleIdNil.mp id
      exact ⟨⟨⟨fun id stated => (named id stated).1,display,outbound,policy,lists⟩,clean⟩,
        (idsNext fun id stated => (named id stated).2).mp rest⟩
    · rintro ⟨⟨⟨id,display,outbound,policy,lists⟩,clean⟩,rest⟩
      have fresh : ∀ named, rule.id = some named → ids.lookup named = none := by
        intro named stated
        refine rest.2 named (List.mem_append_left _ ?_)
        rw [stated]
        exact List.mem_singleton_self named
      exact ⟨⟨⟨⟨⟨ruleIdNil.mpr fun named stated => ⟨id named stated,fresh named stated⟩,display⟩,outbound⟩,policy⟩,lists⟩,
        clean,(idsNext fresh).mpr rest⟩

theorem dnsRulesNil {servers lists : List String} {rules : List DnsRule} {index : Nat} {ids : List (String × Nat)} :
    dnsRuleIssues servers lists rules index ids = [] ↔ (∀ rule ∈ rules, DnsRuleClean servers lists rule) ∧
      (rules.flatMap (·.id.toList)).Nodup ∧ ∀ id ∈ rules.flatMap (·.id.toList), ids.lookup id = none := by
  induction rules generalizing index ids with
  | nil => simp [dnsRuleIssues]
  | cons rule others ih =>
    rw [dnsRuleIssues,List.flatMap_cons]
    simp only [List.append_eq_nil_iff,displayFree,referenceNil,issueOr,listReferencesNil,ih,List.forall_mem_cons,List.isEmpty_iff]
    constructor
    · rintro ⟨⟨⟨⟨id,display⟩,server⟩,filled,lists⟩,clean,rest⟩
      have named := ruleIdNil.mp id
      exact ⟨⟨⟨fun id stated => (named id stated).1,display,server,filled,lists⟩,clean⟩,
        (idsNext fun id stated => (named id stated).2).mp rest⟩
    · rintro ⟨⟨⟨id,display,server,filled,lists⟩,clean⟩,rest⟩
      have fresh : ∀ named, rule.id = some named → ids.lookup named = none := by
        intro named stated
        refine rest.2 named (List.mem_append_left _ ?_)
        rw [stated]
        exact List.mem_singleton_self named
      exact ⟨⟨⟨⟨ruleIdNil.mpr fun named stated => ⟨id named stated,fresh named stated⟩,display⟩,server⟩,filled,lists⟩,
        clean,(idsNext fresh).mpr rest⟩

theorem reconnectEntriesNil {known names : List String} {index : Nat} {seen : List String} :
    reconnectEntryIssues known names index seen = [] ↔ names.Nodup ∧ (∀ name ∈ names, name ∈ known) ∧ ∀ name ∈ names, name ∉ seen := by
  induction names generalizing index seen with
  | nil => simp [reconnectEntryIssues]
  | cons name others ih =>
    rw [reconnectEntryIssues]
    simp only [List.append_eq_nil_iff,issueOr,and_true,ih,List.nodup_cons,List.forall_mem_cons,Bool.not_eq_true',Bool.not_eq_false,
      List.contains_iff_mem,List.mem_append,List.mem_singleton,not_or]
    constructor
    · rintro ⟨⟨fresh,found⟩,distinct,known,later⟩
      exact ⟨⟨fun mem => (later name mem).2 rfl,distinct⟩,⟨found,known⟩,fresh,fun other mem => (later other mem).1⟩
    · rintro ⟨⟨apart,distinct⟩,⟨found,known⟩,fresh,later⟩
      refine ⟨⟨fresh,found⟩,distinct,known,fun other mem => ⟨later other mem,?_⟩⟩
      rintro rfl
      exact apart mem

theorem reconnectNil {known : List String} {selected : Option (List String)} :
    reconnectIssues known selected = [] ↔ ∀ names, selected = some names → names.length ≤ 128 ∧ names.Nodup ∧
      ∀ name ∈ names, name ∈ known := by
  cases selected with
  | none =>
    simp only [reconnectIssues,true_iff]
    exact fun names absent => by cases absent
  | some names =>
    simp only [reconnectIssues,List.append_eq_nil_iff,issueOr,and_true,reconnectEntriesNil]
    constructor
    · rintro ⟨short,distinct,known,_⟩ names same
      cases same
      exact ⟨by omega,distinct,known⟩
    · intro clean
      obtain ⟨short,distinct,known⟩ := clean names rfl
      exact ⟨by omega,distinct,known,fun _ _ absent => by cases absent⟩

theorem multiportRuleNil {rule : RouteRule} {index : Nat} :
    multiportRuleIssues rule index = [] ↔ routeRuleUsesUnsupportedIptablesMultiportCombo rule = .ok false := by
  unfold multiportRuleIssues
  split
  · rename_i stated
    simp [stated]
  · rename_i stated
    simp [stated]
  · rename_i stated
    simp [stated]

theorem multiportNil {backend : FirewallBackendPreference} {rules : List RouteRule} :
    multiportIssues backend rules = [] ↔
      (backend = .iptables → ∀ rule ∈ rules, routeRuleUsesUnsupportedIptablesMultiportCombo rule = .ok false) := by
  unfold multiportIssues
  by_cases iptables : backend = .iptables
  · simp only [iptables,if_true,List.flatMap_eq_nil_iff,forall_const]
    constructor
    · intro clean rule mem
      obtain ⟨place,at_place⟩ := List.mem_iff_getElem?.mp mem
      exact multiportRuleNil.mp (clean (rule,place) (List.mem_zipIdx_iff_getElem?.mpr at_place))
    · rintro clean ⟨rule,place⟩ mem
      have at_place := List.mem_zipIdx_iff_getElem?.mp mem
      exact multiportRuleNil.mpr (clean rule (List.mem_iff_getElem?.mpr ⟨place,at_place⟩))
  · simp [iptables]

end Rules

section Whole
variable {ω : Type} {read : Readers ω} {doc : Document ω}

structure ChildClean (doc : Document ω) (mode : ConntrackOnSwitch) (child : String) : Prop where
  leaf : ∀ target, findOutbound doc.outboundList child = some target → target.type ≠ .urltest
  single : mode = .delete → (urltestParents doc.outboundList child).length ≤ 1
  unrouted : mode = .delete → child ∉ directlyRoutedOutbounds doc.rules
  undetoured : mode = .delete → child ∉ directDnsDetours doc.dns
  unloaded : mode = .delete → child ∉ directListDetours doc.listRefresh doc.listEntries

def ConntrackClean (doc : Document ω) (outbound : Outbound) : Prop :=
  outbound.type = .urltest → outbound.conntrackOnSwitch.getD .preserve ≠ .preserve →
    ∀ child ∈ Outbound.children outbound, ChildClean doc (outbound.conntrackOnSwitch.getD .preserve) child

theorem nestedNil {found : Option Outbound} {path message : String} :
    (match found with
      | some target => if target.type == .urltest then oneIssue path message "config.conntrack.nested" else []
      | none => []) = [] ↔ ∀ target, found = some target → target.type ≠ .urltest := by
  cases found with
  | none | some => simp

theorem childNil {outbound : Outbound} {mode : ConntrackOnSwitch} {child : String} :
    conntrackChildIssues doc outbound mode child = [] ↔ ChildClean doc mode child := by
  unfold conntrackChildIssues
  simp only [List.append_eq_nil_iff]
  by_cases delete : mode = .delete
  · simp only [delete,ne_eq,not_true_eq_false,if_false,List.append_eq_nil_iff,issueOr,and_true,List.contains_iff_mem,gt_iff_lt,not_lt]
    constructor
    · rintro ⟨nested,⟨⟨single,routed⟩,detoured⟩,loaded⟩
      exact ⟨nestedNil.mp nested,fun _ => single,fun _ => routed,fun _ => detoured,fun _ => loaded⟩
    · rintro ⟨nested,single,routed,detoured,loaded⟩
      exact ⟨nestedNil.mpr nested,⟨⟨single rfl,routed rfl⟩,detoured rfl⟩,loaded rfl⟩
  · simp only [delete,ne_eq,not_false_eq_true,if_true,and_true]
    constructor
    · exact fun nested => ⟨nestedNil.mp nested,fun is => absurd is delete,fun is => absurd is delete,fun is =>
        absurd is delete,fun is => absurd is delete⟩
    · exact fun clean => nestedNil.mpr clean.leaf

theorem conntrackNil {outbound : Outbound} : conntrackIssues doc outbound = [] ↔ ConntrackClean doc outbound := by
  unfold conntrackIssues ConntrackClean
  simp only
  by_cases group : outbound.type = .urltest
  · by_cases preserve : outbound.conntrackOnSwitch.getD .preserve = .preserve
    · simp [preserve]
    · simp only [group,preserve,bne_self_eq_false,Bool.false_or,beq_iff_eq,if_false,List.flatMap_eq_nil_iff,List.mem_reverse,
        List.mem_dedup,childNil,
        ne_eq,not_false_eq_true,forall_const]
  · simp [group]

structure DnsClean (read : Readers ω) (doc : Document ω) (dns : DnsConfig) : Prop where
  servers : dnsServerIssues read doc.outboundList dns.serverList [] [] = []
  limit : keeneticLimitIssues dns.serverList = []
  fallback : dnsFallbackIssues dns.serverTags (dns.fallback.getD []) 0 [] = []
  resolver : systemResolverIssues dns.systemResolver = []
  rules : ∀ rule ∈ dns.rules.getD [], DnsRuleClean dns.serverTags doc.listNames rule
  ruleIds : ((dns.rules.getD []).flatMap (·.id.toList)).Nodup
  probe : dnsTestServerIssues read dns.dnsTestServer = []

structure Accepted (read : Readers ω) (doc : Document ω) : Prop where
  rest : read.restIssues doc.rest = []
  lists : ∀ entry ∈ doc.listEntries, ListClean entry.1 entry.2
  identities : (doc.listEntries.filterMap (·.2.catalogIdentity)).Nodup
  reconnect : ∀ names, doc.reconnectOwnedFlowsOnRoutingChangeLists = some names →
    names.length ≤ 128 ∧ names.Nodup ∧ ∀ name ∈ names, name ∈ doc.listNames
  tags : duplicateTags doc.outboundList 0 [] = []
  refresh : listRefreshIssues doc.outboundList doc.listRefresh = []
  detours : ∀ entry ∈ doc.listEntries, listDetourIssues doc.outboundList entry = []
  outbounds : ∀ outbound ∈ doc.outboundList, outboundIssues read.inet doc.outboundList outbound = []
  cycles : validateUrltestCycles (urltestGraph doc.outboundList) = []
  rules : ∀ rule ∈ doc.rules, RuleClean (doc.outboundList.map (·.tag)) doc.listNames doc.outboundList rule
  ruleIds : (doc.rules.flatMap (·.id.toList)).Nodup
  fwmark : fwmarkIssues doc.config = []
  tableStart : tableStartIssues doc.config = []
  multiport : doc.firewallBackend = .iptables → ∀ rule ∈ doc.rules, routeRuleUsesUnsupportedIptablesMultiportCombo rule = .ok false
  dns : ∃ dns, doc.dns = some dns ∧ DnsClean read doc dns
  conntrack : ∀ outbound ∈ doc.outboundList, ConntrackClean doc outbound

theorem dnsNil : dnsIssues read doc = [] ↔ ∃ dns, doc.dns = some dns ∧ DnsClean read doc dns := by
  unfold dnsIssues
  cases stated : doc.dns with
  | none =>
    simp only [issueNever,false_iff]
    rintro ⟨dns,absent,_⟩
    cases absent
  | some dns =>
    simp only [List.append_eq_nil_iff,dnsRulesNil]
    constructor
    · rintro ⟨⟨⟨⟨⟨servers,limit⟩,fallback⟩,resolver⟩,rules,ids,_⟩,probe⟩
      exact ⟨dns,rfl,servers,limit,fallback,resolver,rules,ids,probe⟩
    · rintro ⟨_,same,servers,limit,fallback,resolver,rules,ids,probe⟩
      cases same
      exact ⟨⟨⟨⟨⟨servers,limit⟩,fallback⟩,resolver⟩,rules,ids,fun _ _ => rfl⟩,probe⟩

theorem acceptedIff : validateDocument read doc = [] ↔ Accepted read doc := by
  unfold validateDocument
  simp only [List.append_eq_nil_iff,listsNil,reconnectNil,routeRulesNil,multiportNil,dnsNil,List.flatMap_eq_nil_iff,conntrackNil]
  constructor
  · rintro ⟨⟨⟨⟨⟨⟨⟨⟨⟨⟨⟨⟨⟨rest,lists,identities,_⟩,reconnect⟩,tags⟩,refresh⟩,detours⟩,outbounds⟩,cycles⟩,rules,ruleIds,_⟩,fwmark⟩,
      start⟩,multiport⟩,dns⟩,conntrack⟩
    exact ⟨rest,lists,identities,reconnect,tags,refresh,detours,outbounds,cycles,rules,ruleIds,fwmark,start,multiport,dns,conntrack⟩
  · rintro ⟨rest,lists,identities,reconnect,tags,refresh,detours,outbounds,cycles,rules,ruleIds,fwmark,start,multiport,dns,conntrack⟩
    exact ⟨⟨⟨⟨⟨⟨⟨⟨⟨⟨⟨⟨⟨rest,lists,identities,fun _ _ => rfl⟩,reconnect⟩,tags⟩,refresh⟩,detours⟩,outbounds⟩,cycles⟩,
      rules,ruleIds,fun _ _ => rfl⟩,
      fwmark⟩,start⟩,multiport⟩,dns⟩,conntrack⟩

end Whole

end KeenPbr.Documents
