import Mathlib.Data.List.Flatten
import KeenPbr.Dependencies
import KeenPbr.OutboundAccepted

/-! remove_outbound_dependencies: which outbounds go, and that nothing in the document misses them. -/
namespace KeenPbr.Documents

section Kept
variable {ω : Type} {doc : Document ω} {deleted : List String}

theorem keptOutbounds : (withoutOutbounds doc deleted).outboundList =
    (doc.outboundList.filter fun outbound => !deleted.contains outbound.tag).map (withoutMembers deleted) := by
  unfold Document.outboundList withoutOutbounds
  cases doc.outbounds <;> rfl

theorem keptRules : (withoutOutbounds doc deleted).rules =
    (doc.rules.filter fun rule => !deleted.contains rule.outbound).map (withoutFallback deleted) := by
  unfold Document.rules withoutOutbounds
  cases doc.routeRules <;> rfl

theorem keptEntries : (withoutOutbounds doc deleted).listEntries = doc.listEntries.map fun entry =>
    (entry.1,withoutListDetours deleted entry.2) := by
  unfold Document.listEntries withoutOutbounds
  cases doc.lists <;> rfl

theorem keptNames : (withoutOutbounds doc deleted).listNames = doc.listNames := by
  unfold Document.listNames
  rw [keptEntries,List.map_map]
  rfl

variable {ob : Outbound}

@[simp] theorem withoutMembersTag : (withoutMembers deleted ob).tag = ob.tag := by
  unfold withoutMembers
  split <;> rfl

@[simp] theorem withoutMembersType : (withoutMembers deleted ob).type = ob.type := by
  unfold withoutMembers
  split <;> rfl

@[simp] theorem withoutMembersConntrack : (withoutMembers deleted ob).conntrackOnSwitch = ob.conntrackOnSwitch := by
  unfold withoutMembers
  split <;> rfl

@[simp] theorem withoutMembersRoutable : (withoutMembers deleted ob).routable = ob.routable := by
  unfold Outbound.routable
  rw [withoutMembersType]

def keptGroups (deleted : List String) (groups : List OutboundGroup) : List OutboundGroup :=
  (groups.map fun group => { group with outbounds := group.outbounds.filter fun tag => !deleted.contains tag }).filter fun group =>
    !group.outbounds.isEmpty

theorem keptChildren (groups : List OutboundGroup) :
    (keptGroups deleted groups).flatMap (·.outbounds) = (groups.flatMap (·.outbounds)).filter fun tag => !deleted.contains tag := by
  unfold keptGroups
  induction groups with
  | nil => rfl
  | cons group rest ih =>
    rw [List.map_cons,List.filter_cons,List.flatMap_cons,List.filter_append,← ih]
    split
    · rfl
    · rename_i empty
      rw [Bool.not_eq_true,Bool.not_eq_false',List.isEmpty_iff] at empty
      dsimp only at empty
      rw [empty]
      rfl

theorem withoutMembersGroup (group : ob.type = .urltest) :
    withoutMembers deleted ob = { ob with outboundGroups := ob.outboundGroups.map (keptGroups deleted) } := by
  unfold withoutMembers
  rw [group]
  rfl

theorem childrenKept (group : ob.type = .urltest) :
    Outbound.children (withoutMembers deleted ob) = (Outbound.children ob).filter fun tag => !deleted.contains tag := by
  rw [withoutMembersGroup group]
  unfold Outbound.children
  cases ob.outboundGroups with
  | none => rfl
  | some groups => exact keptChildren groups

theorem memKept {kept : Outbound} : kept ∈ (withoutOutbounds doc deleted).outboundList ↔
    ∃ ob ∈ doc.outboundList, ob.tag ∉ deleted ∧ kept = withoutMembers deleted ob := by
  rw [keptOutbounds,List.mem_map]
  constructor
  · rintro ⟨ob,mem,rfl⟩
    obtain ⟨mem,stays⟩ := List.mem_filter.mp mem
    exact ⟨ob,mem,by simpa using stays,rfl⟩
  · rintro ⟨ob,mem,stays,rfl⟩
    exact ⟨ob,List.mem_filter.mpr ⟨mem,by simpa using stays⟩,rfl⟩

theorem keptTags : (withoutOutbounds doc deleted).outboundList.map (·.tag) = (doc.outboundList.map (·.tag)).filter fun tag =>
    !deleted.contains tag := by
  rw [keptOutbounds,List.map_map,List.filter_map]
  refine congrArg₂ List.map (funext fun ob => ?_) rfl
  exact withoutMembersTag

theorem findKept {tag : String} (stays : tag ∉ deleted) :
    findOutbound (withoutOutbounds doc deleted).outboundList tag = (findOutbound doc.outboundList tag).map (withoutMembers deleted) := by
  rw [keptOutbounds]
  unfold findOutbound
  induction doc.outboundList with
  | nil => rfl
  | cons ob rest ih =>
    rw [List.filter_cons,List.find?_cons]
    by_cases here : ob.tag = tag
    · have kept : (!deleted.contains ob.tag) = true := by simpa [here] using stays
      rw [if_pos kept,List.map_cons,List.find?_cons,withoutMembersTag,beq_iff_eq.mpr here]
      rfl
    · rw [beq_eq_false_iff_ne.mpr here]
      split
      · rw [List.map_cons,List.find?_cons,withoutMembersTag,beq_eq_false_iff_ne.mpr here]
        exact ih
      · exact ih

theorem findKeptSome {tag : String} {target : Outbound} (stays : tag ∉ deleted) (found : findOutbound doc.outboundList tag = some target) :
    findOutbound (withoutOutbounds doc deleted).outboundList tag = some (withoutMembers deleted target) := by
  rw [findKept stays,found]
  rfl

theorem downloadableKept {tag : String} (stays : tag ∉ deleted) (before : Downloadable doc.outboundList tag) :
    Downloadable (withoutOutbounds doc deleted).outboundList tag := by
  obtain ⟨filled,target,found,routable⟩ := before
  exact ⟨filled,_,findKeptSome stays found,withoutMembersRoutable.trans routable⟩

end Kept

section Parts
variable {ω : Type} {read : Readers ω} {doc : Document ω} {deleted : List String}

theorem childableKept {child : String} (stays : child ∉ deleted) (before : Childable doc.outboundList child) :
    Childable (withoutOutbounds doc deleted).outboundList child := by
  obtain ⟨target,found,leaf⟩ := before
  exact ⟨_,findKeptSome stays found,by rwa [withoutMembersType]⟩

theorem groupsKept {groups : List OutboundGroup} (clean : GroupsClean doc.outboundList groups)
    (stays : ∃ child ∈ groups.flatMap (·.outbounds), child ∉ deleted) :
    GroupsClean (withoutOutbounds doc deleted).outboundList (keptGroups deleted groups) := by
  have member : ∀ child, child ∈ (keptGroups deleted groups).flatMap (·.outbounds) ↔ child ∈ groups.flatMap (·.outbounds) ∧
    child ∉ deleted := by
    intro child
    rw [keptChildren,List.mem_filter]
    simp
  refine ⟨?_,fun group mem => ?_,?_,fun child mem => ?_⟩
  · obtain ⟨child,mem,kept⟩ := stays
    intro none
    have inside := (member child).mpr ⟨mem,kept⟩
    rw [none] at inside
    cases inside
  · obtain ⟨mem,filled⟩ := List.mem_filter.mp mem
    obtain ⟨old,listed,rfl⟩ := List.mem_map.mp mem
    refine ⟨?_,(clean.each old listed).2⟩
    simpa using filled
  · rw [keptChildren]
    exact clean.distinct.filter _
  · obtain ⟨mem,kept⟩ := (member child).mp mem
    exact childableKept kept (clean.children child mem)

theorem outboundKept {ob : Outbound} (clean : outboundIssues read.inet doc.outboundList ob = [])
    (stays : ob.type = .urltest → ∃ child ∈ Outbound.children ob, child ∉ deleted) :
    outboundIssues read.inet (withoutOutbounds doc deleted).outboundList (withoutMembers deleted ob) = [] := by
  by_cases group : ob.type = .urltest
  · have groups := groupsKept (urltestGroups clean group) (stays group)
    rw [withoutMembersGroup group]
    cases listed : ob.outboundGroups with
    | none =>
      obtain ⟨child,mem,_⟩ := stays group
      rw [Outbound.children,listed] at mem
      cases mem
    | some all =>
      rw [listed] at groups
      exact regrouped clean group groups
  · have same : withoutMembers deleted ob = ob := by
      unfold withoutMembers
      rw [if_pos (by simpa using group)]
    rw [same]
    exact ungrouped clean group

theorem cyclesKept (clean : validateUrltestCycles (urltestGraph doc.outboundList) = []) :
    validateUrltestCycles (urltestGraph (withoutOutbounds doc deleted).outboundList) = [] := by
  obtain ⟨rank,ranked⟩ := cyclesNil.mp clean
  refine cyclesNil.mpr ⟨rank,fun kept mem group child inside nested => ?_⟩
  obtain ⟨ob,listed,_,rfl⟩ := memKept.mp mem
  rw [withoutMembersType] at group
  rw [childrenKept group,List.mem_filter] at inside
  have stays : child ∉ deleted := by simpa using inside.2
  obtain ⟨target,found,type⟩ := nested
  rw [findKept stays,Option.map_eq_some_iff] at found
  obtain ⟨before,found,rfl⟩ := found
  rw [withoutMembersTag]
  exact ranked ob listed group child inside.1 ⟨before,found,withoutMembersType.symm.trans type⟩

theorem removedFallbacks (fallbacks : Option (List String)) :
    (removeFallbackDetours fallbacks deleted).getD [] = (fallbacks.getD []).filter fun tag => !deleted.contains tag := by
  unfold removeFallbackDetours
  cases fallbacks with
  | none => rfl
  | some tags =>
    dsimp only
    split
    · rename_i gone
      rw [Bool.and_eq_true,List.isEmpty_iff] at gone
      exact gone.2.symm
    · rfl

theorem chainKept {primary : Option String} {fallbacks : List String} (clean : ChainClean doc.outboundList primary fallbacks)
    (stays : ∀ tag, primary = some tag → tag ∉ deleted) :
    ChainClean (withoutOutbounds doc deleted).outboundList primary (fallbacks.filter fun tag => !deleted.contains tag) := by
  have fewer : (primary.toList ++ fallbacks.filter fun tag => !deleted.contains tag).Sublist (primary.toList ++ fallbacks) :=
    List.filter_sublist.append_left _
  refine ⟨fun some => clean.led fun none => some ?_,(List.length_filter_le _ _).trans clean.few,clean.distinct.sublist fewer,
    fun tag mem => ?_⟩
  · rw [none]
    rfl
  · refine downloadableKept ?_ (clean.targets tag (fewer.subset mem))
    rcases List.mem_append.mp mem with first | later
    · exact stays tag (Option.mem_toList.mp first)
    · simpa using (List.mem_filter.mp later).2

theorem refreshKept (clean : listRefreshIssues doc.outboundList doc.listRefresh = []) :
    listRefreshIssues (withoutOutbounds doc deleted).outboundList (withoutOutbounds doc deleted).listRefresh = [] := by
  change listRefreshIssues _ (doc.listRefresh.map (withoutRefreshDetours deleted)) = []
  cases stated : doc.listRefresh with
  | none => rfl
  | some refresh =>
    rw [stated] at clean
    have before := downloadChainNil.mp clean
    refine downloadChainNil.mpr ?_
    unfold withoutRefreshDetours
    split
    · exact ⟨fun some => absurd rfl some,Nat.zero_le _,List.nodup_nil,fun _ absent => by cases absent⟩
    · rename_i stays
      dsimp only
      rw [removedFallbacks]
      refine chainKept before fun tag named => ?_
      simpa [named] using stays

structure RouteClean (outbounds : List Outbound) (list : ListConfig) : Prop where
  moded : list.refreshDetourMode.isSome = true → list.url.isSome = true
  inherits : effectiveListRefreshDetourMode list = .inherit → list.hasLocalChain = false
  overrides : effectiveListRefreshDetourMode list = .override → list.detour.isSome = true
  loaded : list.hasLocalChain = true → list.url.isSome = true
  chain : list.hasLocalChain = true ∨ effectiveListRefreshDetourMode list = .override → ChainClean outbounds list.detour list.fallbacks

theorem listDetourNil {outbounds : List Outbound} {name : String} {list : ListConfig} :
    listDetourIssues outbounds (name,list) = [] ↔ RouteClean outbounds list := by
  have parts : RouteClean outbounds list ↔ ((((list.refreshDetourMode.isSome = true → list.url.isSome = true) ∧
      (effectiveListRefreshDetourMode list = .inherit → list.hasLocalChain = false)) ∧
      (effectiveListRefreshDetourMode list = .override →
        list.detour.isSome = true)) ∧ (list.hasLocalChain = true → list.url.isSome = true)) ∧
      (list.hasLocalChain = true ∨ effectiveListRefreshDetourMode list = .override → ChainClean outbounds list.detour list.fallbacks) :=
    ⟨fun clean => ⟨⟨⟨⟨clean.moded,clean.inherits⟩,clean.overrides⟩,clean.loaded⟩,clean.chain⟩,
      fun ⟨⟨⟨⟨moded,inherits⟩,overrides⟩,loaded⟩,chain⟩ => ⟨moded,inherits,overrides,loaded,chain⟩⟩
  rw [parts]
  unfold listDetourIssues
  simp only [List.append_eq_nil_iff]
  refine and_congr (and_congr (and_congr (and_congr ?_ ?_) ?_) ?_) ?_
  · cases list.url <;> simp
  · simp
  · cases list.detour <;> simp
  · cases list.url <;> simp
  · by_cases route : (list.hasLocalChain || effectiveListRefreshDetourMode list == .override) = true
    · rw [if_pos route,downloadChainNil]
      simp only [Bool.or_eq_true,beq_iff_eq] at route
      exact ⟨fun clean _ => clean,fun clean => clean route⟩
    · rw [if_neg route]
      simp only [Bool.or_eq_true,beq_iff_eq] at route
      exact ⟨fun _ local_ => absurd local_ route,fun _ => rfl⟩

theorem routeSame {outbounds : List Outbound} {list : ListConfig} (clean : RouteClean outbounds list)
    (stays : list.detour.any deleted.contains = false) :
    (withoutListDetours deleted list).hasLocalChain = list.hasLocalChain ∧
      effectiveListRefreshDetourMode (withoutListDetours deleted list) = effectiveListRefreshDetourMode list ∧
      (withoutListDetours deleted list).fallbacks = list.fallbacks.filter fun tag => !deleted.contains tag := by
  have shape : withoutListDetours deleted list = { list with fallbackDetours := removeFallbackDetours list.fallbackDetours deleted } := by
    unfold withoutListDetours
    rw [stays,if_neg Bool.false_ne_true]
  have fewer : (withoutListDetours deleted list).fallbacks = list.fallbacks.filter fun tag => !deleted.contains tag := by
    rw [shape]
    exact removedFallbacks list.fallbackDetours
  have chain : (withoutListDetours deleted list).hasLocalChain = list.hasLocalChain := by
    unfold ListConfig.hasLocalChain
    rw [fewer,shape]
    dsimp only
    cases detour : list.detour with
    | some tag => rfl
    | none =>
      have none : list.fallbacks = [] := by
        by_contra some
        have local_ : list.hasLocalChain = true := by simp [ListConfig.hasLocalChain,some]
        have primary := (clean.chain (.inl local_)).led some
        rw [detour] at primary
        cases primary
      rw [none]
      rfl
  refine ⟨chain,?_,fewer⟩
  unfold effectiveListRefreshDetourMode
  rw [chain,shape]

theorem listRouteKept {list : ListConfig} (clean : RouteClean doc.outboundList list) :
    RouteClean (withoutOutbounds doc deleted).outboundList (withoutListDetours deleted list) := by
  cases gone : list.detour.any deleted.contains with
  | true =>
    have shape : withoutListDetours deleted list = { list with detour := none, fallbackDetours := none, refreshDetourMode := none } := by
      unfold withoutListDetours
      rw [gone,if_pos rfl]
    rw [shape]
    refine ⟨nofun,fun _ => rfl,nofun,nofun,?_⟩
    rintro (local_ | override)
    · cases local_
    · cases override
  | false =>
    obtain ⟨chain,mode,fewer⟩ := routeSame clean gone
    have shape : withoutListDetours deleted list = { list with fallbackDetours := removeFallbackDetours list.fallbackDetours deleted } := by
      unfold withoutListDetours
      rw [gone,if_neg Bool.false_ne_true]
    have url : (withoutListDetours deleted list).url = list.url := by rw [shape]
    have detour : (withoutListDetours deleted list).detour = list.detour := by rw [shape]
    have moded : (withoutListDetours deleted list).refreshDetourMode = list.refreshDetourMode := by rw [shape]
    refine ⟨?_,?_,?_,?_,?_⟩
    · rw [url,moded]
      exact clean.moded
    · rw [chain,mode]
      exact clean.inherits
    · rw [mode,detour]
      exact clean.overrides
    · rw [chain,url]
      exact clean.loaded
    · rw [chain,mode,fewer,detour]
      intro route
      refine chainKept (clean.chain route) fun tag named => ?_
      simpa [named] using gone

end Parts

/- What the code's own conditions leave out: a rule that names a deleted outbound with blanks around it, a
tunnel probe over a deleted outbound, and a list that loses its own download route and inherits one through
a member of a group that cleans up conntrack entries. -/
structure LosesCleanly {ω : Type} (doc : Document ω) (gone : Set String) : Prop where
  routed : ∀ rule ∈ doc.rules, trimCopy rule.outbound ∈ gone → rule.outbound ∈ gone
  probed : ∀ probe, doc.tunnelProbe = some probe → ∀ tag, probe.outbound = some tag → tag ∉ gone
  inherited : ∀ entry ∈ doc.listEntries, entry.2.url.isSome = true → (∃ tag ∈ gone, entry.2.detour = some tag) →
    ∀ refresh, doc.listRefresh = some refresh → (∀ tag, refresh.detour = some tag → tag ∉ gone) →
      ∀ ob ∈ doc.outboundList, ob.type = .urltest → ob.conntrackOnSwitch = some .delete → ob.tag ∉ gone →
        ∀ child ∈ Outbound.children ob, child ∉ gone → child ∉ configuredListRefreshDetours refresh

section Rules
variable {ω : Type} {doc : Document ω} {deleted : List String}

theorem fallbackKept (rule : RouteRule) :
    withoutFallback deleted rule = rule ∧ (rule.failurePolicy = some .fallback → ∀ tag, rule.fallbackOutbound = some tag → tag ∉ deleted) ∨
    withoutFallback deleted rule = { rule with failurePolicy := some .block, fallbackOutbound := none } ∧
      rule.failurePolicy = some .fallback := by
  unfold withoutFallback
  split
  · rename_i gone
    rw [Bool.and_eq_true,beq_iff_eq] at gone
    exact .inr ⟨rfl,gone.1⟩
  · rename_i stays
    refine .inl ⟨rfl,fun policy tag named mem => stays ?_⟩
    rw [policy,named]
    simpa using mem

theorem primaryKept {rule : RouteRule} (clean : PolicyClean doc.outboundList rule) (stays : rule.outbound ∉ deleted)
    (plain : trimCopy rule.outbound ∉ deleted)
    (policy : rule.failurePolicy.getD .inherit ≠ .inherit) :
    (∀ target, findOutbound (withoutOutbounds doc deleted).outboundList rule.outbound = some target →
      routableFailureTarget target.type = true) ∧
      (findOutbound (withoutOutbounds doc deleted).outboundList rule.outbound = none →
        findOutbound (withoutOutbounds doc deleted).outboundList (trimCopy rule.outbound) = none) := by
  rw [findKept stays,findKept plain]
  constructor
  · intro target found
    obtain ⟨before,known,rfl⟩ := Option.map_eq_some_iff.mp found
    rw [withoutMembersType]
    exact clean.primary policy before known
  · intro absent
    rw [clean.exact policy (Option.map_eq_none_iff.mp absent)]
    rfl

theorem policyKept {rule : RouteRule} (clean : PolicyClean doc.outboundList rule) (stays : rule.outbound ∉ deleted)
    (plain : trimCopy rule.outbound ∉ deleted) :
    PolicyClean (withoutOutbounds doc deleted).outboundList (withoutFallback deleted rule) := by
  rcases fallbackKept rule with ⟨same,present⟩ | ⟨changed,policy⟩
  · rw [same]
    refine ⟨fun policy => (primaryKept clean stays plain policy).1,fun policy =>
      (primaryKept clean stays plain policy).2,fun policy => ?_,clean.unused⟩
    obtain ⟨filled,apart,target,found,routable⟩ := clean.fallback policy
    refine ⟨filled,apart,_,findKeptSome ?_ found,by rwa [withoutMembersType]⟩
    cases stated : rule.failurePolicy with
    | none =>
      rw [stated] at policy
      cases policy
    | some given =>
      rw [stated] at policy
      cases named : rule.fallbackOutbound with
      | none =>
        rw [named] at filled
        exact absurd rfl filled
      | some tag => exact present (stated.trans (congrArg some policy)) tag named
  · have before : rule.failurePolicy.getD .inherit ≠ .inherit := by
      rw [policy]
      exact nofun
    rw [changed]
    exact ⟨fun _ => (primaryKept clean stays plain before).1,fun _ => (primaryKept clean stays plain before).2,nofun,fun _ => rfl⟩

theorem ruleKept {rule : RouteRule} (clean : RuleClean (doc.outboundList.map (·.tag)) doc.listNames doc.outboundList rule)
    (stays : rule.outbound ∉ deleted) (plain : trimCopy rule.outbound ∉ deleted) :
    RuleClean ((withoutOutbounds doc deleted).outboundList.map (·.tag)) (withoutOutbounds doc deleted).listNames
      (withoutOutbounds doc deleted).outboundList (withoutFallback deleted rule) := by
  have policy := policyKept clean.policy stays plain
  have named : Names ((withoutOutbounds doc deleted).outboundList.map (·.tag)) rule.outbound := by
    refine ⟨clean.outbound.1,?_⟩
    rw [keptTags,List.mem_filter]
    exact ⟨clean.outbound.2,by simpa using plain⟩
  rw [keptNames]
  rcases fallbackKept rule with ⟨same,_⟩ | ⟨changed,_⟩
  · rw [same] at policy ⊢
    exact ⟨clean.id,clean.display,named,policy,clean.lists⟩
  · rw [changed] at policy ⊢
    exact ⟨clean.id,clean.display,named,policy,clean.lists⟩

theorem withoutFallbackId (rule : RouteRule) : (withoutFallback deleted rule).id = rule.id := by
  unfold withoutFallback
  split <;> rfl

theorem withoutFallbackPorts (rule : RouteRule) :
    routeRuleUsesUnsupportedIptablesMultiportCombo
      (withoutFallback deleted rule) = routeRuleUsesUnsupportedIptablesMultiportCombo rule := by
  unfold withoutFallback
  split <;> rfl

theorem memKeptRules {kept : RouteRule} : kept ∈ (withoutOutbounds doc deleted).rules ↔
    ∃ rule ∈ doc.rules, rule.outbound ∉ deleted ∧ kept = withoutFallback deleted rule := by
  rw [keptRules,List.mem_map]
  constructor
  · rintro ⟨rule,mem,rfl⟩
    obtain ⟨mem,stays⟩ := List.mem_filter.mp mem
    exact ⟨rule,mem,by simpa using stays,rfl⟩
  · rintro ⟨rule,mem,stays,rfl⟩
    exact ⟨rule,List.mem_filter.mpr ⟨mem,by simpa using stays⟩,rfl⟩

theorem routedKept : ∀ tag ∈ directlyRoutedOutbounds (withoutOutbounds doc deleted).rules, tag ∈ directlyRoutedOutbounds doc.rules := by
  intro tag mem
  unfold directlyRoutedOutbounds at mem ⊢
  obtain ⟨kept,inside,here⟩ := List.mem_flatMap.mp mem
  obtain ⟨rule,listed,_,rfl⟩ := memKeptRules.mp inside
  refine List.mem_flatMap.mpr ⟨rule,listed,?_⟩
  rcases fallbackKept rule with ⟨same,_⟩ | ⟨changed,_⟩
  · rw [same] at here
    exact here
  · rw [changed] at here
    rcases List.mem_cons.mp here with first | absent
    · rw [first]
      exact List.mem_cons_self
    · cases absent

end Rules

section Whole
variable {ω : Type} {read : Readers ω} {doc : Document ω} {deleted : List String}

theorem withoutDetourShape (deleted : List String) (server : DnsServer) :
    ∃ detour, withoutDetour deleted server = { server with detour } ∧ ∀ tag, detour = some tag → server.detour = some tag ∧
    tag ∉ deleted := by
  unfold withoutDetour
  split
  · exact ⟨none,rfl,nofun⟩
  · rename_i stays
    refine ⟨server.detour,rfl,fun tag named => ⟨named,fun mem => stays ?_⟩⟩
    rw [named]
    simpa using mem

theorem serverKept (server : DnsServer) (clean : serverDetourIssues doc.outboundList server = []) :
    serverDetourIssues (withoutOutbounds doc deleted).outboundList (withoutDetour deleted server) = [] := by
  obtain ⟨detour,shape,named⟩ := withoutDetourShape deleted server
  rw [shape]
  unfold serverDetourIssues at clean ⊢
  cases detour with
  | none => rfl
  | some tag =>
    obtain ⟨old,stays⟩ := named tag rfl
    rw [old] at clean
    dsimp only at clean ⊢
    rw [findKept stays]
    cases found : findOutbound doc.outboundList tag with
    | none =>
      rw [found] at clean
      exact absurd clean (oneIssueNotNil _ _ _ _)
    | some target =>
      rw [found] at clean
      simp only [Option.map_some,withoutMembersType]
      simpa using clean

theorem keptServers (dns : DnsConfig) : ({ dns with servers := dns.servers.map (·.map (withoutDetour deleted)) } : DnsConfig).serverList =
    dns.serverList.map (withoutDetour deleted) := by
  unfold DnsConfig.serverList
  cases dns.servers <;> rfl

theorem dnsKept {dns : DnsConfig} (clean : DnsClean read doc dns) :
    DnsClean read (withoutOutbounds doc deleted) { dns with servers := dns.servers.map (·.map (withoutDetour deleted)) } := by
  have tags : ({ dns with servers := dns.servers.map (·.map (withoutDetour deleted)) } : DnsConfig).serverTags = dns.serverTags := by
    unfold DnsConfig.serverTags
    rw [keptServers,List.map_map]
    refine List.map_congr_left fun server _ => ?_
    obtain ⟨detour,shape,_⟩ := withoutDetourShape deleted server
    rw [Function.comp_apply,shape]
  refine ⟨?_,?_,?_,clean.resolver,?_,clean.ruleIds,clean.probe⟩
  · rw [keptServers]
    refine detoursChanged (fun server => ?_) (fun server _ => serverKept server) clean.servers
    obtain ⟨detour,shape,_⟩ := withoutDetourShape deleted server
    exact ⟨detour,shape⟩
  · have kinds : ((dns.serverList.map (withoutDetour deleted)).filter fun server => server.kind == .keenetic).length =
        (dns.serverList.filter fun server => server.kind == .keenetic).length := by
      rw [List.filter_map,List.length_map]
      congr 1
      refine List.filter_congr fun server _ => ?_
      obtain ⟨detour,shape,_⟩ := withoutDetourShape deleted server
      rw [Function.comp_apply,shape]
      rfl
    have limit := clean.limit
    unfold keeneticLimitIssues at limit ⊢
    rw [keptServers,kinds]
    exact limit
  · rw [tags]
    exact clean.fallback
  · rw [tags,keptNames]
    exact clean.rules

theorem listCleanKept {name : String} {list : ListConfig} (clean : ListClean name list) :
    ListClean name (withoutListDetours deleted list) := by
  unfold withoutListDetours
  split
  · exact ⟨clean.tag,clean.format,clean.display,clean.shrink,clean.identity,clean.source⟩
  · exact ⟨clean.tag,clean.format,clean.display,clean.shrink,clean.identity,clean.source⟩

theorem withoutListIdentity (list : ListConfig) : (withoutListDetours deleted list).catalogIdentity = list.catalogIdentity := by
  unfold withoutListDetours
  split <;> rfl

theorem withoutListUrl (list : ListConfig) : (withoutListDetours deleted list).url = list.url := by
  unfold withoutListDetours
  split <;> rfl

theorem configuredKept {refresh : Option ListRefreshConfig} {tag : String}
    (mem : tag ∈ configuredListRefreshDetours ((refresh.map (withoutRefreshDetours deleted)).getD {})) :
    ∃ before, refresh = some before ∧ tag ∈ configuredListRefreshDetours before ∧ ∀ primary, before.detour = some primary →
      primary ∉ deleted := by
  cases refresh with
  | none => cases mem
  | some before =>
    simp only [Option.map_some,Option.getD_some] at mem
    unfold withoutRefreshDetours at mem
    split at mem
    · cases mem
    · rename_i stays
      refine ⟨before,rfl,?_,fun primary named inside => stays ?_⟩
      · unfold configuredListRefreshDetours at mem ⊢
        dsimp only at mem
        rw [removedFallbacks] at mem
        exact (List.filter_sublist.append_left _).subset mem
      · rw [named]
        simpa using inside

theorem loadedKept {tag : String} (clean : ∀ entry ∈ doc.listEntries, RouteClean doc.outboundList entry.2)
    (mem : tag ∈ directListDetours (withoutOutbounds doc deleted).listRefresh (withoutOutbounds doc deleted).listEntries) :
    tag ∈ directListDetours doc.listRefresh doc.listEntries ∨
      ∃ entry ∈ doc.listEntries, entry.2.url.isSome = true ∧ (∃ gone ∈ deleted, entry.2.detour = some gone) ∧
        ∃ refresh, doc.listRefresh = some refresh ∧ tag ∈ configuredListRefreshDetours refresh ∧
          ∀ primary, refresh.detour = some primary → primary ∉ deleted := by
  unfold directListDetours at mem ⊢
  obtain ⟨kept,inside,here⟩ := List.mem_flatMap.mp mem
  obtain ⟨inside,url⟩ := List.mem_filter.mp inside
  rw [keptEntries] at inside
  obtain ⟨entry,listed,rfl⟩ := List.mem_map.mp inside
  dsimp only at url here
  rw [withoutListUrl] at url
  change tag ∈ effectiveListRefreshDetours (doc.listRefresh.map (withoutRefreshDetours deleted)) _ at here
  unfold effectiveListRefreshDetours at here
  cases gone : entry.2.detour.any deleted.contains with
  | true =>
    right
    have shape : withoutListDetours deleted
      entry.2 = { entry.2 with detour := none, fallbackDetours := none, refreshDetourMode := none } := by
      unfold withoutListDetours
      rw [gone,if_pos rfl]
    have inherits : effectiveListRefreshDetourMode (withoutListDetours deleted entry.2) = .inherit := by
      rw [shape]
      rfl
    rw [inherits,if_neg nofun] at here
    refine ⟨entry,listed,url,?_,configuredKept here⟩
    cases named : entry.2.detour with
    | none =>
      rw [named] at gone
      cases gone
    | some primary =>
      rw [named] at gone
      exact ⟨primary,by simpa using gone,rfl⟩
  | false =>
    left
    refine List.mem_flatMap.mpr ⟨entry,List.mem_filter.mpr ⟨listed,url⟩,?_⟩
    obtain ⟨_,mode,fewer⟩ := routeSame (clean entry listed) gone
    have detour : (withoutListDetours deleted entry.2).detour = entry.2.detour := by
      unfold withoutListDetours
      rw [gone,if_neg Bool.false_ne_true]
    rw [mode] at here
    unfold effectiveListRefreshDetours
    split at here
    · rename_i override
      rw [if_pos override]
      unfold configuredListRefreshDetours at here ⊢
      change tag ∈ (withoutListDetours deleted entry.2).detour.toList ++ (withoutListDetours deleted entry.2).fallbacks at here
      rw [detour,fewer] at here
      exact (List.filter_sublist.append_left _).subset here
    · rename_i inherit
      rw [if_neg inherit]
      obtain ⟨before,stated,inside,_⟩ := configuredKept here
      rw [stated]
      exact inside

theorem parentsKept (child : String) :
    (urltestParents (withoutOutbounds doc deleted).outboundList child).length ≤ (urltestParents doc.outboundList child).length := by
  refine (List.subperm_of_subset (List.nodup_dedup _) fun tag mem => ?_).length_le
  unfold urltestParents at mem ⊢
  rw [List.mem_dedup,List.mem_map] at mem ⊢
  obtain ⟨kept,inside,rfl⟩ := mem
  obtain ⟨inside,parent⟩ := List.mem_filter.mp inside
  obtain ⟨ob,listed,_,rfl⟩ := memKept.mp inside
  rw [Bool.and_eq_true,withoutMembersType,beq_iff_eq,List.contains_iff_mem] at parent
  obtain ⟨group,member⟩ := parent
  rw [childrenKept group] at member
  refine ⟨ob,List.mem_filter.mpr ⟨listed,?_⟩,withoutMembersTag.symm⟩
  rw [group,List.contains_iff_mem.mpr (List.mem_filter.mp member).1]
  rfl

theorem conntrackKept (accepted : Accepted read doc) (clean : LosesCleanly doc { tag | tag ∈ deleted }) :
    ∀ kept ∈ (withoutOutbounds doc deleted).outboundList, ConntrackClean (withoutOutbounds doc deleted) kept := by
  intro kept mem group mode child inside
  obtain ⟨ob,listed,stays,rfl⟩ := memKept.mp mem
  rw [withoutMembersType] at group
  rw [withoutMembersConntrack] at mode ⊢
  rw [childrenKept group,List.mem_filter] at inside
  have remains : child ∉ deleted := by simpa using inside.2
  have before := accepted.conntrack ob listed group mode child inside.1
  refine ⟨fun target found => ?_,fun delete => (parentsKept child).trans (before.single delete),fun delete routed =>
    before.unrouted delete (routedKept child routed),
    fun delete detoured => before.undetoured delete ?_,fun delete loaded => ?_⟩
  · rw [findKept remains] at found
    obtain ⟨old,known,rfl⟩ := Option.map_eq_some_iff.mp found
    rw [withoutMembersType]
    exact before.leaf old known
  · obtain ⟨dns,stated,_⟩ := accepted.dns
    have changed : (withoutOutbounds doc deleted).dns = some { dns with servers := dns.servers.map (·.map (withoutDetour deleted)) } := by
      change doc.dns.map _ = _
      rw [stated]
      rfl
    rw [changed] at detoured
    rw [stated]
    unfold directDnsDetours at detoured ⊢
    dsimp only at detoured ⊢
    rw [keptServers,List.filterMap_map] at detoured
    obtain ⟨server,mem,named⟩ := List.mem_filterMap.mp detoured
    obtain ⟨detour,shape,old⟩ := withoutDetourShape deleted server
    rw [Function.comp_apply,shape] at named
    exact List.mem_filterMap.mpr ⟨server,mem,(old child named).1⟩
  · rcases loadedKept (fun entry mem => listDetourNil.mp (accepted.detours entry mem)) loaded
      with old | ⟨entry,mem,url,gone,refresh,stated,named,primary⟩
    · exact before.unloaded delete old
    · have mode : ob.conntrackOnSwitch = some .delete := by
        cases given : ob.conntrackOnSwitch with
        | none =>
          rw [given] at delete
          cases delete
        | some mode =>
          rw [given] at delete
          exact congrArg some delete
      exact clean.inherited entry mem url gone refresh stated primary ob listed group mode stays child inside.1 remains named

theorem withoutAccepted (accepted : Accepted read doc) (clean : LosesCleanly doc { tag | tag ∈ deleted })
    (closed : ∀ ob ∈ doc.outboundList, ob.type = .urltest → (∀ child ∈ Outbound.children ob, child ∈ deleted) → ob.tag ∈ deleted) :
    Accepted read (withoutOutbounds doc deleted) := by
  have distinct := (duplicateTagsNil.mp accepted.tags).1
  obtain ⟨dns,stated,dnsClean⟩ := accepted.dns
  refine ⟨accepted.rest,?_,?_,?_,?_,refreshKept accepted.refresh,?_,?_,cyclesKept accepted.cycles,?_,?_,?_,accepted.tableStart,
    ?_,?_,conntrackKept accepted clean⟩
  · intro kept mem
    rw [keptEntries] at mem
    obtain ⟨entry,listed,rfl⟩ := List.mem_map.mp mem
    exact listCleanKept (accepted.lists entry listed)
  · rw [keptEntries,List.filterMap_map]
    have same : (fun entry : String × ListConfig => (withoutListDetours deleted entry.2).catalogIdentity) = fun entry =>
      entry.2.catalogIdentity :=
      funext fun entry => withoutListIdentity entry.2
    change (doc.listEntries.filterMap fun entry => (withoutListDetours deleted entry.2).catalogIdentity).Nodup
    rw [same]
    exact accepted.identities
  · rw [keptNames]
    exact accepted.reconnect
  · refine duplicateTagsNil.mpr ⟨?_,fun _ _ => rfl⟩
    rw [keptTags]
    exact distinct.filter _
  · intro kept mem
    rw [keptEntries] at mem
    obtain ⟨entry,listed,rfl⟩ := List.mem_map.mp mem
    exact listDetourNil.mpr (listRouteKept (listDetourNil.mp (accepted.detours entry listed)))
  · intro kept mem
    obtain ⟨ob,listed,stays,rfl⟩ := memKept.mp mem
    refine outboundKept (accepted.outbounds ob listed) fun group => ?_
    by_contra none
    refine stays (closed ob listed group fun child inside => ?_)
    by_contra remains
    exact none ⟨child,inside,remains⟩
  · intro kept mem
    obtain ⟨rule,listed,stays,rfl⟩ := memKeptRules.mp mem
    exact ruleKept (accepted.rules rule listed) stays fun gone => stays (clean.routed rule listed gone)
  · rw [keptRules,List.flatMap_map]
    have same : (fun rule => (withoutFallback deleted rule).id.toList) = fun rule : RouteRule => rule.id.toList :=
      funext fun rule => congrArg Option.toList (withoutFallbackId rule)
    rw [same]
    exact accepted.ruleIds.sublist (List.filter_sublist.flatMap _)
  · refine fewerMarks accepted.fwmark rfl ?_
    change (routableOutbounds (withoutOutbounds doc deleted).outboundList).length ≤ (routableOutbounds doc.outboundList).length
    unfold routableOutbounds
    rw [keptOutbounds,List.filter_map,List.length_map]
    have same : (fun ob : Outbound => ob.routable) ∘ withoutMembers deleted = fun ob => ob.routable := funext fun ob =>
      withoutMembersRoutable
    rw [same]
    exact (List.filter_sublist.filter _).length_le
  · intro iptables kept mem
    obtain ⟨rule,listed,_,rfl⟩ := memKeptRules.mp mem
    rw [withoutFallbackPorts]
    exact accepted.multiport iptables rule listed
  · refine ⟨_,?_,dnsKept dnsClean⟩
    change doc.dns.map _ = _
    rw [stated]
    rfl

end Whole

/- The places that name an outbound. Only urltest outbounds have members. -/
def RefersToOutbound {ω : Type} (doc : Document ω) (tag : String) : Prop :=
  (∃ rule ∈ doc.rules, trimCopy rule.outbound = tag ∨ rule.fallbackOutbound = some tag) ∨
  (∃ ob ∈ doc.outboundList, ob.type = .urltest ∧ tag ∈ Outbound.children ob) ∨
  (∃ dns, doc.dns = some dns ∧ ∃ server ∈ dns.serverList, server.detour = some tag) ∨
  (∃ entry ∈ doc.listEntries, entry.2.detour = some tag ∨ tag ∈ entry.2.fallbacks) ∨
  (∃ refresh, doc.listRefresh = some refresh ∧ tag ∈ configuredListRefreshDetours refresh) ∨
  (∃ probe, doc.tunnelProbe = some probe ∧ probe.outbound = some tag)

section References
variable {ω : Type} {read : Readers ω} {doc : Document ω} {tag : String}

theorem foundTag {outbounds : List Outbound} {target : Outbound} (found : findOutbound outbounds tag = some target) :
    tag ∈ outbounds.map (·.tag) := by
  obtain ⟨mem,named⟩ := foundOutbound found
  exact List.mem_map.mpr ⟨target,mem,named⟩

theorem serverDetours {outbounds : List Outbound} {servers : List DnsServer} {tags identities : List String}
    (clean : dnsServerIssues read outbounds servers tags identities = []) :
    ∀ server ∈ servers, serverDetourIssues outbounds server = [] := by
  induction servers generalizing tags identities with
  | nil => exact fun _ absent => by cases absent
  | cons server rest ih =>
    rw [dnsServerIssues] at clean
    simp only [List.append_eq_nil_iff] at clean
    exact List.forall_mem_cons.mpr ⟨clean.1.2,ih clean.2⟩

theorem ruleNames {rule : RouteRule} (clean : RuleClean (doc.outboundList.map (·.tag)) doc.listNames doc.outboundList rule)
    (filled : tag ≠ "")
    (named : trimCopy rule.outbound = tag ∨ rule.fallbackOutbound = some tag) : tag ∈ doc.outboundList.map (·.tag) := by
  rcases named with rfl | fallback
  · exact clean.outbound.2
  · by_cases policy : rule.failurePolicy.getD .inherit = .fallback
    · obtain ⟨_,_,target,found,_⟩ := clean.policy.fallback policy
      rw [fallback] at found
      exact foundTag found
    · have unused := clean.policy.unused policy
      rw [fallback] at unused
      exact absurd unused filled

theorem referenceListed (accepted : Accepted read doc) (filled : tag ≠ "") (refers : RefersToOutbound doc tag) :
    tag ∈ doc.outboundList.map (·.tag) ∨ ∃ probe, doc.tunnelProbe = some probe ∧ probe.outbound = some tag := by
  rcases refers with ⟨rule,mem,named⟩ | ⟨ob,mem,group,member⟩ | ⟨dns,stated,server,mem,named⟩ | ⟨entry,mem,named⟩ | ⟨refresh,
    stated,named⟩ | probe
  · exact .inl (ruleNames (accepted.rules rule mem) filled named)
  · obtain ⟨target,found,_⟩ := (urltestGroups (accepted.outbounds ob mem) group).children tag member
    exact .inl (foundTag found)
  · obtain ⟨other,same,clean⟩ := accepted.dns
    rw [stated] at same
    cases same
    have detour := serverDetours clean.servers server mem
    unfold serverDetourIssues at detour
    rw [named] at detour
    dsimp only at detour
    cases found : findOutbound doc.outboundList tag with
    | none =>
      rw [found] at detour
      exact absurd detour (oneIssueNotNil _ _ _ _)
    | some target => exact .inl (foundTag found)
  · have clean := listDetourNil.mp (accepted.detours entry mem)
    have listed : tag ∈ entry.2.detour.toList ++ entry.2.fallbacks := by
      rcases named with primary | fallback
      · rw [primary]
        exact List.mem_cons_self
      · exact List.mem_append_right _ fallback
    have chained : entry.2.hasLocalChain = true := by
      unfold ListConfig.hasLocalChain
      rcases named with primary | fallback
      · rw [primary]
        rfl
      · cases given : entry.2.fallbacks with
        | nil =>
          rw [given] at fallback
          cases fallback
        | cons first rest => exact Bool.or_true _
    obtain ⟨_,target,found,_⟩ := (clean.chain (.inl chained)).targets tag listed
    exact .inl (foundTag found)
  · have clean := accepted.refresh
    rw [stated] at clean
    obtain ⟨_,target,found,_⟩ := (downloadChainNil.mp clean).targets tag named
    exact .inl (foundTag found)
  · exact .inr probe

end References

section Closure
variable {ω : Type} {read : Readers ω} {doc : Document ω}

def outboundTarget (tag : String) : DependencyTarget := ⟨.outbound,tag,false⟩

def deletableTags (doc : Document ω) (requestedTags : List String) : List String :=
  (doc.outboundList.filter fun outbound => (outbound.type == .interface || outbound.type == .urltest) &&
    requestedTags.contains outbound.tag).map (·.tag)

theorem deletableShape (requested : List String) : deletableTargets doc requested = (deletableTags doc requested).map outboundTarget := by
  unfold deletableTargets deletableTags
  rw [List.map_map]
  rfl

theorem requestFresh {tags seen : List String} (good : ∀ tag ∈ tags, tag ≠ "" ∧ tag ∈ doc.outboundList.map (·.tag))
    (distinct : (seen ++ tags).Nodup) :
    requestTargets doc (tags.map outboundTarget) (seen.map outboundTarget) = .ok ((seen ++ tags).map outboundTarget) := by
  induction tags generalizing seen with
  | nil => rw [List.append_nil,List.map_nil,requestTargets]
  | cons tag rest ih =>
    obtain ⟨⟨filled,listed⟩,later⟩ := List.forall_mem_cons.mp good
    have exists_ : targetExists doc (outboundTarget tag) = true := by
      obtain ⟨ob,mem,named⟩ := List.mem_map.mp listed
      exact List.any_eq_true.mpr ⟨ob,mem,beq_iff_eq.mpr named⟩
    have fresh : ((seen.map outboundTarget).any (outboundTarget tag).same) = false := by
      rw [List.any_eq_false]
      intro target mem same
      obtain ⟨other,inside,rfl⟩ := List.mem_map.mp mem
      rw [DependencyTarget.same,Bool.and_eq_true,beq_iff_eq,beq_iff_eq] at same
      have apart := (List.nodup_append.mp distinct).2.2 other inside tag List.mem_cons_self
      exact apart same.2.symm
    rw [List.map_cons,requestTargets,exists_,fresh]
    have filled' : (outboundTarget tag).id.isEmpty = false := by simpa [outboundTarget] using filled
    rw [filled']
    simp only [Bool.false_eq_true,if_false,Bool.not_true]
    have more : seen.map outboundTarget ++
      [⟨(outboundTarget tag).kind,(outboundTarget tag).id,false⟩] = (seen ++ [tag]).map outboundTarget := by
      rw [List.map_append]
      rfl
    rw [more,ih later (by simpa using distinct)]
    simp

theorem outboundIds (tags : List String) : removedIds .outbound (tags.map outboundTarget) = tags := by
  unfold removedIds
  rw [List.filter_eq_self.mpr,List.map_map]
  · exact List.map_id tags
  · intro target mem
    obtain ⟨tag,_,rfl⟩ := List.mem_map.mp mem
    rfl

theorem cascadedIds (outbounds : List Outbound) (tags : List String) :
    removedIds .outbound (tags.map outboundTarget ++ cascadedTargets outbounds tags) = removedOutbounds outbounds tags := by
  have split : removedIds .outbound (tags.map outboundTarget ++ cascadedTargets outbounds tags) =
      removedIds .outbound (tags.map outboundTarget) ++ removedIds .outbound (cascadedTargets outbounds tags) := by
    unfold removedIds
    rw [List.filter_append,List.map_append]
  have later : removedIds .outbound (cascadedTargets outbounds tags) = (removedOutbounds outbounds tags).drop tags.length := by
    unfold removedIds cascadedTargets
    rw [List.filter_eq_self.mpr,List.map_map]
    · exact List.map_id _
    · intro target mem
      obtain ⟨tag,_,rfl⟩ := List.mem_map.mp mem
      rfl
  obtain ⟨taken,shape⟩ := Chaining.saturateGrows (·.tag) emptied outbounds (outbounds.length + 1) tags
  rw [split,later,outboundIds,removedOutbounds,shape,List.drop_left]

theorem emptiedIff {held : List String} {ob : Outbound} :
    emptied held ob = true ↔ ob.type = .urltest ∧ ∀ child ∈ Outbound.children ob, child ∈ held := by
  unfold emptied hasRemainingGroup remainingMembers Outbound.children
  rw [Bool.and_eq_true,beq_iff_eq,Bool.not_eq_true',List.any_eq_false]
  refine and_congr_right fun _ => ?_
  constructor
  · intro none child mem
    obtain ⟨group,listed,inside⟩ := List.mem_flatMap.mp mem
    have empty := none group listed
    rw [Bool.not_eq_true,Bool.not_eq_false',List.isEmpty_iff,List.filter_eq_nil_iff] at empty
    simpa using empty child inside
  · intro all group listed
    rw [Bool.not_eq_true,Bool.not_eq_false',List.isEmpty_iff,List.filter_eq_nil_iff]
    intro child inside
    simpa using all child (List.mem_flatMap.mpr ⟨group,listed,inside⟩)

/- The sets that hold the requested interfaces and groups and every group all of whose members they hold. -/
def DeletionClosed (doc : Document ω) (requested : List String) : Set (Set String) :=
  { gone | (∀ ob ∈ doc.outboundList, ob.type = .interface ∨ ob.type = .urltest → ob.tag ∈ requested → ob.tag ∈ gone) ∧
    ∀ ob ∈ doc.outboundList, ob.type = .urltest → (∀ child ∈ Outbound.children ob, child ∈ gone) → ob.tag ∈ gone }

theorem memDeletable {requested : List String} {tag : String} : tag ∈ deletableTags doc requested ↔
    ∃ ob ∈ doc.outboundList, (ob.type = .interface ∨ ob.type = .urltest) ∧ ob.tag ∈ requested ∧ ob.tag = tag := by
  unfold deletableTags
  simp only [List.mem_map,List.mem_filter,Bool.and_eq_true,Bool.or_eq_true,beq_iff_eq,List.contains_iff_mem]
  constructor
  · rintro ⟨ob,⟨mem,type,named⟩,same⟩
    exact ⟨ob,mem,type,named,same⟩
  · rintro ⟨ob,mem,type,named,same⟩
    exact ⟨ob,⟨mem,type,named⟩,same⟩

theorem closedSets (requested : List String) :
    Chaining.Closed (·.tag) (fun gone ob => ob.type = .urltest ∧ ∀ child ∈ Outbound.children ob, child ∈ gone) doc.outboundList
      (deletableTags doc requested) =
      DeletionClosed doc requested := by
  ext gone
  constructor
  · rintro ⟨start,step⟩
    exact ⟨fun ob mem type named => start ob.tag (memDeletable.mpr ⟨ob,mem,type,named,rfl⟩),fun ob mem group all => step ob mem ⟨group,all⟩⟩
  · rintro ⟨start,step⟩
    refine ⟨fun tag mem => ?_,fun ob mem ready => step ob mem ready.1 ready.2⟩
    obtain ⟨ob,listed,type,named,rfl⟩ := memDeletable.mp mem
    exact start ob listed type named

theorem deletableWithin (requested : List String) : ∀ tag ∈ deletableTags doc requested, tag ∈ doc.outboundList.map (·.tag) := by
  intro tag mem
  obtain ⟨ob,listed,_,_,rfl⟩ := memDeletable.mp mem
  exact List.mem_map_of_mem listed

theorem deletableNodup (distinct : (doc.outboundList.map (·.tag)).Nodup) (requested : List String) : (deletableTags doc requested).Nodup :=
  distinct.sublist (List.filter_sublist.map _)

theorem closureLeast {start : List String} (distinct : start.Nodup) (within : ∀ tag ∈ start, tag ∈ doc.outboundList.map (·.tag)) :
    IsLeast (Chaining.Closed (·.tag) (fun gone ob => ob.type = .urltest ∧ ∀ child ∈ Outbound.children ob, child ∈ gone)
      doc.outboundList start)
      { tag | tag ∈ removedOutbounds doc.outboundList start } := by
  refine Chaining.saturateLeast (fun held ob _ => emptiedIff)
    (fun small large ob more ready => ⟨ready.1,fun child mem => more child (ready.2 child mem)⟩)
    (fun ob mem => List.mem_map_of_mem mem) distinct within ?_
  rw [List.length_map]
  omega

theorem removedLeast (distinct : (doc.outboundList.map (·.tag)).Nodup) (requested : List String) :
    IsLeast (DeletionClosed doc requested) { tag | tag ∈ removedOutbounds doc.outboundList (deletableTags doc requested) } := by
  rw [← closedSets]
  exact closureLeast (deletableNodup distinct requested) (deletableWithin requested)

theorem removedWithin (requested : List String) :
    ∀ tag ∈ removedOutbounds doc.outboundList (deletableTags doc requested), tag ∈ doc.outboundList.map (·.tag) :=
  Chaining.saturateInduction (deletableWithin requested) fun _ _ _ mem _ => List.mem_map_of_mem mem

theorem nothingRemoved (accepted : Accepted read doc) : removedOutbounds doc.outboundList [] = [] := by
  refine List.eq_nil_iff_forall_not_mem.mpr (Chaining.saturateInduction (fun _ absent => by cases absent) fun held none ob mem ready => ?_)
  obtain ⟨group,all⟩ := emptiedIff.mp ready
  have groups := urltestGroups (accepted.outbounds ob mem) group
  obtain ⟨first,rest,listed⟩ := List.exists_cons_of_ne_nil groups.some
  have inside : first ∈ ob.outboundGroups.getD [] := by
    rw [listed]
    exact List.mem_cons_self
  obtain ⟨child,others,members⟩ := List.exists_cons_of_ne_nil (groups.each first inside).1
  refine none child (all child (List.mem_flatMap.mpr ⟨first,inside,?_⟩))
  rw [members]
  exact List.mem_cons_self

theorem tagFilled {tag : String} (accepted : Accepted read doc) (mem : tag ∈ doc.outboundList.map (·.tag)) : tag ≠ "" := by
  obtain ⟨ob,listed,rfl⟩ := List.mem_map.mp mem
  have valid := outboundTag (accepted.outbounds ob listed)
  intro empty
  rw [empty] at valid
  cases valid

theorem analyzed (accepted : Accepted read doc) {tags : List String} (within : ∀ tag ∈ tags, tag ∈ doc.outboundList.map (·.tag))
    (distinct : tags.Nodup)
    (some : tags ≠ []) : analyzeDependencies doc (tags.map outboundTarget) = .ok (analysisOf doc (tags.map outboundTarget)) := by
  have targets : requestTargets doc (tags.map outboundTarget) (List.map outboundTarget []) = .ok (([] ++ tags).map outboundTarget) :=
    requestFresh (fun tag mem => ⟨tagFilled accepted (within tag mem),within tag mem⟩) distinct
  have filled : (tags.map outboundTarget).isEmpty = false := by simpa using some
  unfold analyzeDependencies
  rw [filled,if_neg Bool.false_ne_true]
  exact congrArg (Except.map (analysisOf doc)) targets

theorem analyzedIds (tags : List String) :
    removedIds .outbound (analysisOf doc (tags.map outboundTarget)).targets = removedOutbounds doc.outboundList tags := by
  unfold analysisOf
  dsimp only
  rw [outboundIds,cascadedIds]

theorem removedResult (accepted : Accepted read doc) (requested : List String) : removeOutboundDependencies doc requested =
    .ok (if deletableTags doc requested = [] then doc
      else withoutOutbounds doc (removedOutbounds doc.outboundList (deletableTags doc requested))) := by
  unfold removeOutboundDependencies
  dsimp only
  rw [deletableShape]
  by_cases none : deletableTags doc requested = []
  · rw [none,if_pos rfl]
    rfl
  · have some : ((deletableTags doc requested).map outboundTarget).isEmpty = false := by simpa using none
    have distinct := (duplicateTagsNil.mp accepted.tags).1
    rw [some,if_neg Bool.false_ne_true,if_neg none,analyzed accepted (deletableWithin requested) (deletableNodup distinct requested) none]
    dsimp only
    rw [analyzedIds]

/- The outbounds of a document that another one lacks. -/
def Deleted (doc result : Document ω) : Set String := { tag | tag ∈ doc.outboundList.map (·.tag) ∧ tag ∉ result.outboundList.map (·.tag) }

theorem deletedSet {removed : List String} (within : ∀ tag ∈ removed, tag ∈ doc.outboundList.map (·.tag)) :
    Deleted doc (withoutOutbounds doc removed) = { tag | tag ∈ removed } := by
  ext tag
  unfold Deleted
  rw [Set.mem_ofPred_eq,Set.mem_ofPred_eq,keptTags,List.mem_filter]
  constructor
  · rintro ⟨listed,gone⟩
    by_contra stays
    exact gone ⟨listed,by simpa using stays⟩
  · intro mem
    exact ⟨within tag mem,fun stays => by simpa [mem] using stays.2⟩

/- Removal deletes exactly the least set with the requested interfaces and groups and every group left without
members; when no blanks, no tunnel probe and no inherited download are in the way, no name of a deleted
outbound is left and the document is accepted. -/
theorem outboundsRemoved (accepted : validateDocument read doc = []) (requested : List String) :
    ∃ result, removeOutboundDependencies doc requested = .ok result ∧ IsLeast (DeletionClosed doc requested) (Deleted doc result) ∧
      (LosesCleanly doc (Deleted doc result) → (∀ tag ∈ Deleted doc result, ¬RefersToOutbound result tag) ∧
        validateDocument read result = []) := by
  have clean := acceptedIff.mp accepted
  have least := removedLeast (duplicateTagsNil.mp clean.tags).1 requested
  refine ⟨_,removedResult clean requested,?_⟩
  by_cases none : deletableTags doc requested = []
  · rw [if_pos none]
    have same : Deleted doc doc = { tag | tag ∈ removedOutbounds doc.outboundList (deletableTags doc requested) } := by
      rw [none,nothingRemoved clean]
      ext tag
      exact ⟨fun both => absurd both.1 both.2,fun absent => by cases absent⟩
    refine ⟨same ▸ least,fun _ => ⟨fun tag gone => absurd gone.1 gone.2,accepted⟩⟩
  · rw [if_neg none,deletedSet (removedWithin requested)]
    refine ⟨least,fun loses => ?_⟩
    have result := withoutAccepted clean loses fun ob mem group all => least.1.2 ob mem group all
    refine ⟨fun tag gone refers => ?_,acceptedIff.mpr result⟩
    have filled := tagFilled clean (removedWithin requested tag gone)
    rcases referenceListed result filled refers with listed | ⟨probe,stated,named⟩
    · rw [keptTags,List.mem_filter] at listed
      have stays : tag ∉ removedOutbounds doc.outboundList (deletableTags doc requested) := by simpa using listed.2
      exact stays gone
    · exact loses.probed probe stated tag named gone

end Closure

def groupOf (tag child : String) : Outbound :=
  { tag, type := .urltest, url := some "http://probe.example/", outboundGroups := some [{ outbounds := [child] }] }

def nestedGroups : Document Unit :=
  { rest := ()
    outbounds := some [{ tag := "wan", type := .interface, interface := some "eth0" },
      { tag := "vpn", type := .interface, interface := some "wg0" },
      groupOf "inner" "vpn",groupOf "outer" "inner",{ tag := "main", type := .table, table := some 254 }]
    routeRules := some [listedRule []]
    dns := some { systemResolver := some "127.0.0.1" } }

theorem nestedRemoved : validateDocument plainReaders nestedGroups = [] ∧
    ∃ result, removeOutboundDependencies nestedGroups ["vpn"] = .ok result ∧
      IsLeast (DeletionClosed nestedGroups ["vpn"]) (Deleted nestedGroups result) ∧
      (∀ tag ∈ Deleted nestedGroups result, ¬RefersToOutbound result tag) ∧ validateDocument plainReaders result = [] := by
  have accepted : validateDocument plainReaders nestedGroups = [] := by decide
  obtain ⟨result,removed,least,clean⟩ := outboundsRemoved accepted ["vpn"]
  refine ⟨accepted,result,removed,least,
    clean ⟨fun rule mem gone => ?_,(fun probe stated => by cases stated),(fun _ _ _ _ refresh stated => by cases stated)⟩⟩
  have plain : ∀ rule ∈ nestedGroups.rules, trimCopy rule.outbound = rule.outbound := by decide
  rw [plain rule mem] at gone
  exact gone

/- A system outbound is not deleted, requested or not. -/
theorem tableStays : validateDocument plainReaders nestedGroups = [] ∧ removeOutboundDependencies nestedGroups ["main"] = .ok nestedGroups ∧
    "main" ∈ nestedGroups.outboundList.map (·.tag) ∧ "main" ∉ Deleted nestedGroups nestedGroups := by
  refine ⟨by decide,by decide,by decide,fun gone => absurd gone.1 gone.2⟩

end KeenPbr.Documents
