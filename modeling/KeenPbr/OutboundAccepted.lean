import KeenPbr.UrltestCycles

/-! What an accepted document says of its outbounds and of the tags that name them. -/
namespace KeenPbr.Documents

section Tags
variable {outbounds : List Outbound}

theorem duplicateTagsNil {index : Nat} {seen : List (String × Nat)} :
    duplicateTags outbounds index seen = [] ↔ (outbounds.map (·.tag)).Nodup ∧ ∀ tag ∈ outbounds.map (·.tag), seen.lookup tag = none := by
  induction outbounds generalizing index seen with
  | nil => simp [duplicateTags]
  | cons ob rest ih =>
    rw [duplicateTags,List.map_cons]
    cases known : seen.lookup ob.tag with
    | some first =>
      simp only [List.append_eq_nil_iff,issueNever,false_and,false_iff]
      intro clean
      have fresh := clean.2 ob.tag List.mem_cons_self
      rw [known] at fresh
      cases fresh
    | none =>
      rw [ih]
      constructor
      · exact fun later => freshNames.mp ⟨known,later⟩
      · exact fun all => (freshNames.mpr all).2

def Downloadable (outbounds : List Outbound) (tag : String) : Prop :=
  tag ≠ "" ∧ ∃ target, findOutbound outbounds tag = some target ∧ target.routable = true

theorem downloadDetourNil {path tag : String} {seen : List String} :
    downloadDetourIssues outbounds path tag seen = [] ↔ tag ∉ seen ∧ Downloadable outbounds tag := by
  unfold downloadDetourIssues Downloadable
  rw [issueOr,issueOr,List.contains_iff_mem,String.isEmpty_iff]
  cases found : findOutbound outbounds tag with
  | none => simp
  | some target =>
    simp only [issueOr,Option.some.injEq,exists_eq_left',and_true,Bool.not_eq_true',Bool.not_eq_false]
    constructor
    · rintro ⟨filled,fresh,routable⟩
      exact ⟨fresh,filled,routable⟩
    · rintro ⟨fresh,filled,routable⟩
      exact ⟨filled,fresh,routable⟩

theorem fallbackDetoursNil {path : String} {tags : List String} {index : Nat} {seen : List String} :
    fallbackDetourIssues outbounds path tags index seen = [] ↔
      tags.Nodup ∧ (∀ tag ∈ tags, tag ∉ seen) ∧ ∀ tag ∈ tags, Downloadable outbounds tag := by
  induction tags generalizing index seen with
  | nil => simp [fallbackDetourIssues]
  | cons tag others ih =>
    rw [fallbackDetourIssues]
    simp only [List.append_eq_nil_iff,downloadDetourNil,ih,List.nodup_cons,List.forall_mem_cons,List.mem_append,List.mem_singleton,not_or]
    constructor
    · rintro ⟨⟨fresh,good⟩,distinct,later,rest⟩
      exact ⟨⟨fun mem => (later tag mem).2 rfl,distinct⟩,⟨fresh,fun other mem => (later other mem).1⟩,good,rest⟩
    · rintro ⟨⟨apart,distinct⟩,⟨fresh,later⟩,good,rest⟩
      refine ⟨⟨fresh,good⟩,distinct,fun other mem => ⟨later other mem,?_⟩,rest⟩
      rintro rfl
      exact apart mem

structure ChainClean (outbounds : List Outbound) (primary : Option String) (fallbacks : List String) : Prop where
  led : fallbacks ≠ [] → primary.isSome = true
  few : fallbacks.length ≤ 3
  distinct : (primary.toList ++ fallbacks).Nodup
  targets : ∀ tag ∈ primary.toList ++ fallbacks, Downloadable outbounds tag

theorem downloadChainNil {primary : Option String} {fallbacks : List String} {path : String} :
    downloadChainIssues outbounds primary fallbacks path = [] ↔ ChainClean outbounds primary fallbacks := by
  unfold downloadChainIssues
  have shape : ChainClean outbounds primary fallbacks ↔ ((fallbacks ≠ [] → primary.isSome = true) ∧ fallbacks.length ≤ 3) ∧
      (primary.toList ++ fallbacks).Nodup ∧ ∀ tag ∈ primary.toList ++ fallbacks, Downloadable outbounds tag :=
    ⟨fun clean => ⟨⟨clean.led,clean.few⟩,clean.distinct,clean.targets⟩,fun parts => ⟨parts.1.1,parts.1.2,parts.2.1,parts.2.2⟩⟩
  rw [shape,List.append_eq_nil_iff,List.append_eq_nil_iff]
  refine and_congr (and_congr ?_ ?_) ?_
  · rw [issueOr]
    cases fallbacks with
    | nil => simp
    | cons tag others => cases primary <;> simp
  · rw [issueOr]
    simp
  · cases primary with
    | none => simp [fallbackDetoursNil]
    | some tag =>
      simp only [List.append_eq_nil_iff,downloadDetourNil,fallbackDetoursNil,Option.toList_some,List.singleton_append,
        List.nodup_cons,List.forall_mem_cons,
        List.mem_singleton]
      constructor
      · rintro ⟨⟨_,good⟩,distinct,apart,rest⟩
        exact ⟨⟨fun mem => apart tag mem rfl,distinct⟩,good,rest⟩
      · rintro ⟨⟨apart,distinct⟩,good,rest⟩
        refine ⟨⟨(fun absent => by cases absent),good⟩,distinct,?_,rest⟩
        rintro other mem rfl
        exact apart mem

end Tags

section Groups
variable {outbounds : List Outbound} {ob : Outbound}

def Childable (outbounds : List Outbound) (child : String) :
    Prop := ∃ target, findOutbound outbounds child = some target ∧ target.type ≠ .ignore

theorem targetNil {found : Option Outbound} {path message message' : String} :
    (match found with
      | none => oneIssue path message "config.reference.outbound_missing"
      | some target => if target.type == .ignore then oneIssue path message' "config.urltest.child_type" else []) = [] ↔
    ∃ target, found = some target ∧ target.type ≠ .ignore := by
  cases found with
  | none => simp
  | some target => simp

theorem childrenNil {path : String} {children : List String} {index : Nat} {seen : List (String × String)} :
    (childIssues outbounds ob path children index seen).1 = [] ↔
      children.Nodup ∧ (∀ child ∈ children, seen.lookup child = none) ∧ ∀ child ∈ children, Childable outbounds child := by
  induction children generalizing index seen with
  | nil => simp [childIssues]
  | cons ref rest ih =>
    rw [childIssues]
    simp only [List.append_eq_nil_iff,ih]
    constructor
    · rintro ⟨⟨repeated,good⟩,distinct,fresh,later⟩
      cases known : seen.lookup ref with
      | some first =>
        rw [known] at repeated
        exact absurd repeated (oneIssueNotNil _ _ _ _)
      | none =>
        rw [known,Option.isSome_none,if_neg Bool.false_ne_true] at fresh
        obtain ⟨distinct,fresh⟩ := freshNames.mp ⟨known,distinct,fresh⟩
        exact ⟨distinct,fresh,List.forall_mem_cons.mpr ⟨targetNil.mp good,later⟩⟩
    · rintro ⟨distinct,fresh,good⟩
      obtain ⟨good,later⟩ := List.forall_mem_cons.mp good
      obtain ⟨known,distinct,fresh⟩ := freshNames.mpr ⟨distinct,fresh⟩
      rw [known,Option.isSome_none,if_neg Bool.false_ne_true]
      exact ⟨⟨rfl,targetNil.mpr good⟩,distinct,fresh,later⟩

theorem childrenSeen {path : String} {children : List String} {index : Nat} {seen : List (String × String)}
    (clean : (childIssues outbounds ob path children index seen).1 = []) (tag : String) :
    (childIssues outbounds ob path children index seen).2.lookup tag = none ↔ seen.lookup tag = none ∧ tag ∉ children := by
  have known := (childrenDistinct clean).2.2 tag
  rw [← Option.not_isSome_iff_eq_none,known,not_or,Option.not_isSome_iff_eq_none]

theorem weightFree {path : String} {weight : Option Int} {minimum maximum : Int} :
    validateOptionalIntegerRange path weight minimum maximum = [] ↔ validateOptionalIntegerRange "" weight minimum maximum = [] := by
  cases weight with
  | none => rfl
  | some value => simp only [validateOptionalIntegerRange,issueOr]

theorem groupsNil {groups : List OutboundGroup} {index : Nat} {seen : List (String × String)} :
    groupIssues outbounds ob groups index seen = [] ↔
      (∀ group ∈ groups, group.outbounds ≠ [] ∧ validateOptionalIntegerRange "" group.weight 1 kMaxUrltestGroupWeight = []) ∧
      (groups.flatMap (·.outbounds)).Nodup ∧ (∀ child ∈ groups.flatMap (·.outbounds), seen.lookup child = none) ∧
      ∀ child ∈ groups.flatMap (·.outbounds), Childable outbounds child := by
  induction groups generalizing index seen with
  | nil => simp [groupIssues]
  | cons group rest ih =>
    rw [groupIssues]
    simp only [List.append_eq_nil_iff,issueOr,and_true,childrenNil,List.isEmpty_iff,List.flatMap_cons,List.forall_mem_cons]
    rw [weightFree,ih,List.nodup_append,List.forall_mem_append,List.forall_mem_append]
    constructor
    · rintro ⟨⟨⟨filled,weight⟩,distinct,fresh,good⟩,groups,others,later,more⟩
      have clean : ∀ {path index}, (childIssues outbounds ob path group.outbounds index seen).1 = [] :=
        childrenNil.mpr ⟨distinct,fresh,good⟩
      refine ⟨⟨⟨filled,weight⟩,groups⟩,⟨distinct,others,?_⟩,
        ⟨fresh,fun child mem => ((childrenSeen clean child).mp (later child mem)).1⟩,good,more⟩
      rintro child mem other otherMem rfl
      exact ((childrenSeen clean child).mp (later child otherMem)).2 mem
    · rintro ⟨⟨⟨filled,weight⟩,groups⟩,⟨distinct,others,apart⟩,⟨fresh,later⟩,good,more⟩
      have clean : ∀ {path index}, (childIssues outbounds ob path group.outbounds index seen).1 = [] :=
        childrenNil.mpr ⟨distinct,fresh,good⟩
      refine ⟨⟨⟨filled,weight⟩,distinct,fresh,good⟩,groups,others,fun child mem =>
        (childrenSeen clean child).mpr ⟨later child mem,fun inside => ?_⟩,more⟩
      exact apart child inside child mem rfl

structure GroupsClean (outbounds : List Outbound) (groups : List OutboundGroup) : Prop where
  some : groups ≠ []
  each : ∀ group ∈ groups, group.outbounds ≠ [] ∧ validateOptionalIntegerRange "" group.weight 1 kMaxUrltestGroupWeight = []
  distinct : (groups.flatMap (·.outbounds)).Nodup
  children : ∀ child ∈ groups.flatMap (·.outbounds), Childable outbounds child

theorem groupListNil {groups : List OutboundGroup} {path message : String} :
    (match groups with
      | [] => oneIssue path message "config.value.non_empty_array"
      | groups => groupIssues outbounds ob groups 0 []) = [] ↔ GroupsClean outbounds groups := by
  cases groups with
  | nil =>
    simp only [issueNever,false_iff]
    exact fun clean => clean.some rfl
  | cons group rest =>
    simp only [groupsNil]
    constructor
    · rintro ⟨each,distinct,_,children⟩
      exact ⟨List.cons_ne_nil group rest,each,distinct,children⟩
    · exact fun clean => ⟨clean.each,clean.distinct,fun _ _ => rfl,clean.children⟩

variable {inet : Inet}

theorem urltestOwn (clean : outboundIssues inet outbounds ob = []) (group : ob.type = .urltest) : urltestIssues outbounds ob = [] := by
  unfold outboundIssues at clean
  have own := (List.append_eq_nil_iff.mp clean).2
  rw [group,if_pos (by decide)] at own
  exact own

theorem urltestGroups (clean : outboundIssues inet outbounds ob = []) (group : ob.type = .urltest) :
    GroupsClean outbounds (ob.outboundGroups.getD []) := by
  have own := urltestOwn clean group
  unfold urltestIssues at own
  exact groupListNil.mp (List.append_eq_nil_iff.mp own).2

theorem regrouped {others : List Outbound} {groups : List OutboundGroup} (clean : outboundIssues inet outbounds ob = [])
    (group : ob.type = .urltest)
    (groupsClean : GroupsClean others groups) : outboundIssues inet others { ob with outboundGroups := some groups } = [] := by
  have own := urltestOwn clean group
  unfold urltestIssues at own
  have regroup : urltestIssues others { ob with outboundGroups := some groups } = [] := by
    unfold urltestIssues
    exact List.append_eq_nil_iff.mpr ⟨(List.append_eq_nil_iff.mp own).1,groupListNil.mpr groupsClean⟩
  unfold outboundIssues at clean ⊢
  refine List.append_eq_nil_iff.mpr ⟨(List.append_eq_nil_iff.mp clean).1,?_⟩
  rw [regroup]
  exact ite_self _

theorem ungrouped {others : List Outbound} (clean : outboundIssues inet outbounds ob = []) (leaf : ob.type ≠ .urltest) :
    outboundIssues inet others ob = [] := by
  unfold outboundIssues at clean ⊢
  rw [List.append_eq_nil_iff] at clean ⊢
  refine ⟨clean.1,?_⟩
  rw [if_neg (by simpa using leaf)]

theorem outboundTag (clean : outboundIssues inet outbounds ob = []) : isValidTag ob.tag = true := by
  unfold outboundIssues at clean
  simp only [List.append_eq_nil_iff,tagNil] at clean
  exact clean.1.1.1.1

end Groups

section Marks

theorem assignFewer {maxMarks step : UInt32} {outbounds fewer : List Outbound} {current current' count : UInt32}
    {marks marks' assigned : OutboundMarkMap}
    (ok : assignMarks maxMarks step outbounds current count marks = .ok assigned) (few : fewer.length ≤ outbounds.length) :
    ∃ assigned', assignMarks maxMarks step fewer current' count marks' = .ok assigned' := by
  induction fewer generalizing outbounds current current' count marks marks' with
  | nil => exact ⟨marks',rfl⟩
  | cons ob rest ih =>
    cases outbounds with
    | nil => simp at few
    | cons head tail =>
      rw [assignMarks] at ok ⊢
      split at ok
      · cases ok
      · rename_i room
        rw [if_neg room]
        exact ih ok (by simpa using few)

theorem sortedRoutableLength (outbounds : List Outbound) : (sortedRoutable outbounds).length = (routableOutbounds outbounds).length :=
  List.length_insertionSort ..

theorem fewerMarks {cfg fewer : Config} (clean : fwmarkIssues cfg = []) (same : fewer.fwmark = cfg.fwmark)
    (few : (routableOutbounds fewer.outboundList).length ≤ (routableOutbounds cfg.outboundList).length) : fwmarkIssues fewer = [] := by
  obtain ⟨marks,ok⟩ := allocated clean
  obtain ⟨mask,start,maxMarks,parsedMask,valid,parsedStart,capacity,assigned⟩ := allocateOk ok
  rw [← sortedRoutableLength,← sortedRoutableLength] at few
  obtain ⟨marks',assigned'⟩ : ∃ assigned', assignMarks maxMarks (lowestBit mask) (sortedRoutable fewer.outboundList) start 0
    [] = .ok assigned' :=
    assignFewer assigned few
  have enough : allocateOutboundMarks cfg.fwmark fewer.outboundList = .ok marks' := by
    unfold allocateOutboundMarks
    simp only [parsedMask,parsedStart,valid,capacity,bind,Except.bind]
    exact assigned'
  unfold fwmarkIssues
  rw [same,parsedMask,parsedStart,enough]
  simp only [bind,Except.bind,valid,List.append_nil]

end Marks

section Servers
variable {ω : Type} {read : Readers ω} {outbounds others : List Outbound}

theorem detoursChanged {change : DnsServer → DnsServer} (shape : ∀ server, ∃ detour, change server = { server with detour })
    {servers : List DnsServer}
    (detours : ∀ server ∈ servers, serverDetourIssues outbounds server = [] → serverDetourIssues others (change server) = [])
    {tags identities : List String} (clean : dnsServerIssues read outbounds servers tags identities = []) :
    dnsServerIssues read others (servers.map change) tags identities = [] := by
  induction servers generalizing tags identities with
  | nil => rfl
  | cons server rest ih =>
    obtain ⟨here,later⟩ := List.forall_mem_cons.mp detours
    obtain ⟨detour,same⟩ := shape server
    rw [List.map_cons,dnsServerIssues]
    rw [dnsServerIssues] at clean
    simp only [List.append_eq_nil_iff] at clean ⊢
    obtain ⟨⟨own,detoured⟩,rest⟩ := clean
    have changed := here detoured
    rw [same] at changed ⊢
    exact ⟨⟨own,changed⟩,ih later rest⟩

end Servers

end KeenPbr.Documents
