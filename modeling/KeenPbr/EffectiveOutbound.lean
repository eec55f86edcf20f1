import KeenPbr.RoutingGroups

/-! resolve_effective_outbound_for_family, by which the firewall chooses the mark of a group, beside
the group's table. Both flatten the group the same way; they follow the selections by walks that
end at different depths. -/
namespace KeenPbr

/- resolve_effective_outbound_for_family: an interface the family can use, by gateways and snapshot. -/
def childUsable (family : Int) (familyReachability : OutboundFamilyReachabilitySnapshot) (child : Outbound) : Bool :=
  let hasGateways := child.gateway.isSome || child.gateway6.isSome
  if hasGateways && !(if family == afInet6 then child.gateway6.isSome else child.gateway.isSome) then false
  else
    match familyReachability.lookup child.tag with
    | some reachable => reachable.forFamily family
    | none => true

def resolveEffectiveOutboundForFamily (outbounds : List Outbound) (outbound : Outbound) (selections : UrltestSelections)
    (family : Int) (familyReachability : OutboundFamilyReachabilitySnapshot) : Outbound :=
  if outbound.type != .urltest then outbound
  else if (resolveUrltestSelection selections outbound.tag).isEmpty then outbound
  else
    let usable := childUsable family familyReachability
    let firstUsable := ((urltestLeaves outbounds outbound).find? usable).getD outbound
    match resolveEffectiveOutbound outbounds selections walkDepth outbound with
    | some selected => if selected.type != .interface || usable selected then selected else firstUsable
    | none => firstUsable

theorem findOutboundMem {outbounds : List Outbound} {tag : String} {ob : Outbound}
    (found : findOutbound outbounds tag = some ob) : ob ∈ outbounds := List.mem_of_find?_eq_some found

theorem childMem {outbounds : List Outbound} {urltest child : Outbound}
    (mem : child ∈ orderedUrltestChildren outbounds urltest) : child ∈ outbounds := by
  obtain ⟨group,_,mem⟩ := List.mem_flatMap.mp mem
  obtain ⟨tag,_,found⟩ := List.mem_filterMap.mp mem
  exact findOutboundMem found

theorem collectedLeaves (outbounds : List Outbound) (left : Nat) (urltest : Outbound) (walk : LeafWalk)
    (known : ∀ leaf ∈ walk.collected, leaf.type = .interface ∧ leaf ∈ outbounds) :
    ∀ leaf ∈ (collectUrltestLeafInterfaces outbounds left urltest walk).collected, leaf.type = .interface ∧ leaf ∈ outbounds := by
  induction left generalizing urltest walk with
  | zero => exact known
  | succ left ih =>
    rw [collectUrltestLeafInterfaces]
    split
    · exact known
    · have fold : ∀ (children : List Outbound) (walk : LeafWalk), (∀ child ∈ children, child ∈ outbounds) →
          (∀ leaf ∈ walk.collected, leaf.type = .interface ∧ leaf ∈ outbounds) →
          ∀ leaf ∈ (children.foldl (fun walk child =>
            if child.type == .interface then { walk with collected := walk.collected ++ [child] }
            else if child.type == .urltest then collectUrltestLeafInterfaces outbounds left child walk
            else walk) walk).collected, leaf.type = .interface ∧ leaf ∈ outbounds := by
        intro children
        induction children with
        | nil =>
          intro walk _ known
          exact known
        | cons child rest ihRest =>
          intro walk configured known
          have later : ∀ other ∈ rest, other ∈ outbounds := fun other mem => configured other (List.mem_cons_of_mem child mem)
          rw [List.foldl_cons]
          apply ihRest _ later
          split
          · rename_i type
            intro leaf mem
            cases List.mem_append.mp mem with
            | inl before => exact known leaf before
            | inr here =>
              cases List.mem_singleton.mp here
              exact ⟨by simpa using type,configured child List.mem_cons_self⟩
          · split
            · exact ih child walk known
            · exact known
      exact fold _ _ (fun child mem => childMem mem) known

theorem urltestLeafOf {outbounds : List Outbound} {urltest leaf : Outbound} (mem : leaf ∈ urltestLeaves outbounds urltest) :
    leaf.type = .interface ∧ leaf ∈ outbounds := by
  apply collectedLeaves outbounds walkDepth urltest {} _ leaf mem
  intro leaf mem
  cases mem

theorem selectedEffective {outbounds : List Outbound} {selections : UrltestSelections} {left : Nat} {ob leaf : Outbound}
    (effective : resolveEffectiveOutbound outbounds selections left ob = some leaf) (type : leaf.type = .interface) :
    resolveSelectedInterface outbounds selections left ob = some leaf ∨
      resolveSelectedInterface outbounds selections left ob = none := by
  induction left generalizing ob with
  | zero => exact Or.inr rfl
  | succ left ih =>
    rw [resolveEffectiveOutbound] at effective
    rw [resolveSelectedInterface]
    split at effective
    · cases effective
      left
      simp [type]
    · rename_i group
      have group : ob.type = .urltest := by simpa using group
      rw [if_neg (by simp [group]),if_neg (by simp [group])]
      unfold followSelection at effective ⊢
      simp only at effective ⊢
      split at effective
      · cases effective
      · rename_i chosen
        rw [if_neg chosen]
        split at effective
        · cases effective
        · rename_i child found
          exact ih effective

theorem effectiveMem {outbounds : List Outbound} {selections : UrltestSelections} {left : Nat} {ob leaf : Outbound}
    (effective : resolveEffectiveOutbound outbounds selections left ob = some leaf) : leaf = ob ∨ leaf ∈ outbounds := by
  induction left generalizing ob with
  | zero =>
    rw [resolveEffectiveOutbound] at effective
    split at effective
    · cases effective
      exact Or.inl rfl
    · cases effective
  | succ left ih =>
    rw [resolveEffectiveOutbound] at effective
    split at effective
    · cases effective
      exact Or.inl rfl
    · unfold followSelection at effective
      simp only at effective
      split at effective
      · cases effective
      · split at effective
        · cases effective
        · rename_i child found
          cases ih effective with
          | inl same => exact Or.inr (same ▸ findOutboundMem found)
          | inr mem => exact Or.inr mem

section Families
variable (input : PlanInput)

def snapshotCovers : Prop :=
  ∀ ob ∈ input.outbounds, ob.type = .interface → (input.familyReachability.lookup ob.tag).isSome = true

theorem usableChild (covered : snapshotCovers input) {ob : Outbound} (type : ob.type = .interface) (listed : ob ∈ input.outbounds)
    {family : Int} (known : family ∈ families) :
    input.usable ob family = (childUsable family input.familyReachability ob && input.familyEnabled family) := by
  obtain ⟨reachable,found⟩ := Option.isSome_iff_exists.mp (covered ob listed type)
  have reach : input.reachable ob.tag = reachable := by simp [PlanInput.reachable,found]
  rw [PlanInput.usable,reach]
  congr 1
  simp only [childUsable,found]
  cases memFamilies.mp known with
  | inl four =>
    subst four
    cases gateway : ob.gateway <;> cases gateway6 : ob.gateway6 <;>
      simp [Outbound.hasDefault,Outbound.gatewayFor,gateway,gateway6,afInet,afInet6]
  | inr six =>
    subst six
    cases gateway : ob.gateway <;> cases gateway6 : ob.gateway6 <;>
      simp [Outbound.hasDefault,Outbound.gatewayFor,gateway,gateway6,afInet,afInet6]

theorem numberedNat {children : List Outbound} (short : children.length < 2 ^ 32) {i : Nat} (inside : i < children.length) :
    (1 + UInt32.ofNat i).toNat = 1 + i := by
  rw [UInt32.toNat_add,UInt32.toNat_ofNat']
  simp only [UInt32.reduceToNat]
  omega

theorem firstNumbered {children : List Outbound} (short : children.length < 2 ^ 32) (p : Outbound → Bool) (child : Outbound) :
    children.find? p = some child ↔ p child = true ∧ ∃ metric, (child,metric) ∈ numbered 1 children ∧
      ∀ other ∈ numbered 1 children, p other.1 = true → metric ≤ other.2 := by
  have least : children.find? p = some child → p child = true ∧ ∃ i : Nat, children[i]? = some child ∧
      ∀ (j : Nat) other, children[j]? = some other → p other = true → i ≤ j := by
    intro found
    obtain ⟨holds,i,inside,value,before⟩ := List.find?_eq_some_iff_getElem.mp found
    refine ⟨holds,i,by rw [List.getElem?_eq_getElem inside,value],?_⟩
    intro j other at_j otherHolds
    by_contra early
    have fails := before j (by omega)
    rw [(List.getElem?_eq_some_iff.mp at_j).2,otherHolds] at fails
    cases fails
  constructor
  · intro found
    obtain ⟨holds,i,at_i,minimal⟩ := least found
    refine ⟨holds,1 + UInt32.ofNat i,memNumbered.mpr ⟨i,at_i,rfl⟩,?_⟩
    intro other mem otherHolds
    obtain ⟨j,at_j,number⟩ := memNumbered.mp mem
    have order := minimal j other.1 at_j otherHolds
    rw [number,UInt32.le_iff_toNat_le,numberedNat short (List.getElem?_eq_some_iff.mp at_i).1,
      numberedNat short (List.getElem?_eq_some_iff.mp at_j).1]
    omega
  · intro least_member
    obtain ⟨holds,metric,mem,minimal⟩ := least_member
    obtain ⟨i,at_i,number⟩ := memNumbered.mp mem
    have number : metric = 1 + UInt32.ofNat i := number
    cases found : children.find? p with
    | none =>
      have fails := List.find?_eq_none.mp found child (List.mem_of_getElem? at_i)
      exact absurd holds fails
    | some first =>
      obtain ⟨firstHolds,j,inside,value,before⟩ := List.find?_eq_some_iff_getElem.mp found
      have at_j : children[j]? = some first := by rw [List.getElem?_eq_getElem inside,value]
      have order := minimal (first,1 + UInt32.ofNat j) (memNumbered.mpr ⟨j,at_j,rfl⟩) firstHolds
      rw [number,UInt32.le_iff_toNat_le,numberedNat short (List.getElem?_eq_some_iff.mp at_i).1,
        numberedNat short inside] at order
      have notBefore : ¬ i < j := by
        intro early
        have fails := before i early
        rw [(List.getElem?_eq_some_iff.mp at_i).2,holds] at fails
        cases fails
      have same : i = j := by omega
      subst same
      rw [at_i] at at_j
      exact at_j.symm

/- What the firewall returns for the group and family owns the table's lowest usable default. -/
def EffectiveMatches (ob : Outbound) (tableId : UInt32) (family : Int) : Prop :=
  let effective := resolveEffectiveOutboundForFamily input.outbounds ob input.selections family input.familyReachability
  (∃ metric, (effective,metric) ∈ groupMembers input ob ∧ input.usable effective family = true ∧
    ∀ route ∈ urltestRoutes input tableId ob, isUsableDefault route = true → route.family = family → metric ≤ route.metric) ∨
  (effective = ob ∧ ∀ route ∈ urltestRoutes input tableId ob, isUsableDefault route = true → route.family ≠ family)

theorem groupFamilyRoutes {ob : Outbound} {tableId : UInt32} {family : Int} (known : family ∈ families)
    (p : UInt32 → Prop) :
    (∀ route ∈ urltestRoutes input tableId ob, isUsableDefault route = true → route.family = family → p route.metric) ↔
      ∀ member ∈ groupMembers input ob, input.usable member.1 family = true → p member.2 := by
  constructor
  · intro routes member mem usable
    have listed : memberDefault tableId member.2 member.1 family ∈ urltestRoutes input tableId ob :=
      (memUrltestRoutes input).mpr (Or.inl ⟨member,mem,(memUsableDefaults input).mpr ⟨family,known,usable,rfl⟩⟩)
    exact routes _ listed rfl rfl
  · intro members route mem default same
    cases (memUrltestRoutes input).mp mem with
    | inr closing =>
      rw [killSwitchNotUsable input closing] at default
      cases default
    | inl owned =>
      obtain ⟨member,memberMem,routeMem⟩ := owned
      obtain ⟨routeFamily,_,usable,rfl⟩ := (memUsableDefaults input).mp routeMem
      have same : routeFamily = family := same
      subst same
      exact members member memberMem usable

section Group
variable {ob leaf : Outbound} {family : Int} {tableId : UInt32}

def effectiveAgrees (ob leaf : Outbound) (family : Int) : Prop :=
  let usable := childUsable family input.familyReachability
  (input.familyEnabled family = true ∨
    usable leaf = false ∧ ∀ other ∈ urltestLeaves input.outbounds ob, usable other = false) ∧
  (selectedInterface input ob = none → usable leaf = true → (urltestLeaves input.outbounds ob).find? usable = some leaf)

theorem effectiveForFamilyEq (family : Int) (type : ob.type = .urltest)
    (chosen : (resolveUrltestSelection input.selections ob.tag).isEmpty = false)
    (effective : resolveEffectiveOutbound input.outbounds input.selections walkDepth ob = some leaf)
    (leafType : leaf.type = .interface) :
    resolveEffectiveOutboundForFamily input.outbounds ob input.selections family input.familyReachability =
      if childUsable family input.familyReachability leaf then leaf
      else ((urltestLeaves input.outbounds ob).find? (childUsable family input.familyReachability)).getD ob := by
  simp [resolveEffectiveOutboundForFamily,type,chosen,effective,leafType]

theorem leafNotGroup (type : ob.type = .urltest) (leafType : leaf.type = .interface) : leaf ≠ ob := by
  intro same
  rw [same,type] at leafType
  cases leafType

theorem firstUsableIsGroup (type : ob.type = .urltest) {p : Outbound → Bool}
    (same : ((urltestLeaves input.outbounds ob).find? p).getD ob = ob) :
    ∀ other ∈ urltestLeaves input.outbounds ob, p other = false := by
  cases found : (urltestLeaves input.outbounds ob).find? p with
  | none =>
    intro other mem
    simpa using List.find?_eq_none.mp found other mem
  | some first =>
    rw [found] at same
    exact absurd same (leafNotGroup type (urltestLeafOf (List.mem_of_find?_eq_some found)).1)

theorem fallbackFind {skip : Option String} {leaves : List Outbound}
    (apart : ∀ other ∈ leaves, input.usable other family = true → skip ≠ some other.tag) (known : family ∈ families) :
    (fallbackChildren input skip leaves).find? (input.usable · family) = leaves.find? (input.usable · family) := by
  rw [fallbackChildren,List.find?_filter]
  induction leaves with
  | nil => rfl
  | cons other rest ih =>
    have later := ih fun next mem => apart next (List.mem_cons_of_mem other mem)
    cases usable : input.usable other family with
    | false => simpa [List.find?_cons,usable] using later
    | true =>
      have differs := apart other List.mem_cons_self usable
      have any := usableAnyOf input known usable
      simp [usable,any,differs]

theorem findCongr {leaves : List Outbound} {p q : Outbound → Bool} (same : ∀ leaf ∈ leaves, p leaf = q leaf) :
    leaves.find? p = leaves.find? q := by
  induction leaves with
  | nil => rfl
  | cons leaf rest ih =>
    rw [List.find?_cons,List.find?_cons,same leaf List.mem_cons_self,
      ih fun other mem => same other (List.mem_cons_of_mem leaf mem)]

theorem matchesDisabled (off : input.familyEnabled family = false) : EffectiveMatches input ob tableId family ↔
    resolveEffectiveOutboundForFamily input.outbounds ob input.selections family input.familyReachability = ob := by
  have unusable : ∀ child, input.usable child family = false := by simp [PlanInput.usable,off]
  constructor
  · intro matched
    cases matched with
    | inl member =>
      obtain ⟨metric,_,usable,_⟩ := member
      rw [unusable] at usable
      cases usable
    | inr group => exact group.1
  · intro same
    refine Or.inr ⟨same,?_⟩
    intro route mem default sameFamily
    cases (memUrltestRoutes input).mp mem with
    | inr closing =>
      rw [killSwitchNotUsable input closing] at default
      cases default
    | inl owned =>
      obtain ⟨member,_,routeMem⟩ := owned
      obtain ⟨routeFamily,_,usable,rfl⟩ := (memUsableDefaults input).mp routeMem
      have sameFamily : routeFamily = family := sameFamily
      rw [sameFamily,unusable] at usable
      cases usable

theorem matchesLeast (known : family ∈ families) {effective : Outbound}
    (result : resolveEffectiveOutboundForFamily input.outbounds ob input.selections family input.familyReachability = effective)
    {metric : UInt32} (mem : (effective,metric) ∈ groupMembers input ob) (usable : input.usable effective family = true)
    (least : ∀ other ∈ groupMembers input ob, input.usable other.1 family = true → metric ≤ other.2) :
    EffectiveMatches input ob tableId family := by
  left
  rw [result]
  exact ⟨metric,mem,usable,(groupFamilyRoutes input known _).mpr least⟩

variable (distinct : (input.outbounds.map (·.tag)).Nodup) (covered : snapshotCovers input) (type : ob.type = .urltest)
  (chosen : (resolveUrltestSelection input.selections ob.tag).isEmpty = false)
  (effective : resolveEffectiveOutbound input.outbounds input.selections walkDepth ob = some leaf)
  (leafType : leaf.type = .interface) (known : family ∈ families)
  (short : (groupFallbacks input ob).length < 2 ^ 32)

include type effective leafType in
theorem effectiveLeafMem : leaf ∈ input.outbounds := by
  cases effectiveMem effective with
  | inl same => exact absurd same (leafNotGroup type leafType)
  | inr mem => exact mem

include effective leafType in
theorem primaryIsLeaf {primary : Outbound} (own : groupPrimary input ob = some primary) :
    primary = leaf ∧ selectedInterface input ob = some leaf := by
  have selected : selectedInterface input ob = some primary := (Option.filter_eq_some_iff.mp own).1
  cases selectedEffective effective leafType with
  | inl same =>
    have same : selectedInterface input ob = some leaf := same
    rw [selected] at same
    cases same
    exact ⟨rfl,selected⟩
  | inr none =>
    have none : selectedInterface input ob = .none := none
    rw [selected] at none
    cases none

include covered known in
theorem leavesUsable (on : input.familyEnabled family = true) : ∀ other ∈ urltestLeaves input.outbounds ob,
    input.usable other family = childUsable family input.familyReachability other := by
  intro other mem
  obtain ⟨otherType,listed⟩ := urltestLeafOf mem
  rw [usableChild input covered otherType listed known,on,Bool.and_true]

include covered type chosen effective leafType known short in
theorem matchesUsableLeaf (on : input.familyEnabled family = true)
    (usable : childUsable family input.familyReachability leaf = true) :
    EffectiveMatches input ob tableId family ↔ (selectedInterface input ob = none →
      (urltestLeaves input.outbounds ob).find? (childUsable family input.familyReachability) = some leaf) := by
  have result := effectiveForFamilyEq input family type chosen effective leafType
  rw [usable,if_pos rfl] at result
  have leafUsable : input.usable leaf family = true := by
    rw [usableChild input covered leafType (effectiveLeafMem input type effective leafType) known,usable,on]
    rfl
  have same : ∀ other ∈ urltestLeaves input.outbounds ob, _ := leavesUsable input covered known on
  cases selected : selectedInterface input ob with
  | some other =>
    have own := groupPrimaryOf input selected
    cases selectedEffective effective leafType with
    | inr none =>
      have none : selectedInterface input ob = .none := none
      rw [selected] at none
      cases none
    | inl sameLeaf =>
      have sameLeaf : selectedInterface input ob = some leaf := sameLeaf
      rw [selected] at sameLeaf
      cases sameLeaf
      simp only [reduceCtorEq,false_implies,iff_true]
      have mem : (leaf,(0 : UInt32)) ∈ groupMembers input ob := by
        rw [groupMembersOf input chosen,own (usableAnyOf input known leafUsable)]
        exact List.mem_append_left _ List.mem_cons_self
      exact matchesLeast input known result mem leafUsable fun _ _ _ => UInt32.zero_le
  | none =>
    have noPrimary : groupPrimary input ob = .none := by simp [groupPrimary,selected]
    have members : groupMembers input ob = numbered 1 (groupFallbacks input ob) := by
      rw [groupMembersOf input chosen,noPrimary]
      rfl
    have first : (groupFallbacks input ob).find? (input.usable · family) =
        (urltestLeaves input.outbounds ob).find? (childUsable family input.familyReachability) := by
      rw [groupFallbacks,noPrimary,fallbackFind input (fun _ _ _ => by simp) known]
      exact findCongr same
    rw [← first,firstNumbered short]
    constructor
    · intro matched _
      cases matched with
      | inr group =>
        rw [result] at group
        exact absurd group.1 (leafNotGroup type leafType)
      | inl member =>
        rw [result,members] at member
        obtain ⟨metric,mem,_,least⟩ := member
        have least := (groupFamilyRoutes input known _).mp least
        rw [members] at least
        exact ⟨leafUsable,metric,mem,least⟩
    · intro least
      obtain ⟨_,metric,mem,least⟩ := least rfl
      rw [← members] at mem least
      exact matchesLeast input known result mem leafUsable least

include distinct covered type chosen effective leafType known short in
theorem matchesOtherLeaf (on : input.familyEnabled family = true)
    (unusable : childUsable family input.familyReachability leaf = false) : EffectiveMatches input ob tableId family := by
  have result := effectiveForFamilyEq input family type chosen effective leafType
  rw [unusable] at result
  simp only [Bool.false_eq_true,if_false] at result
  have leafListed := effectiveLeafMem input type effective leafType
  have leafUnusable : input.usable leaf family = false := by
    rw [usableChild input covered leafType leafListed known,unusable]
    rfl
  have same : ∀ other ∈ urltestLeaves input.outbounds ob, _ := leavesUsable input covered known on
  have first : (groupFallbacks input ob).find? (input.usable · family) =
      (urltestLeaves input.outbounds ob).find? (childUsable family input.familyReachability) := by
    rw [groupFallbacks,fallbackFind input _ known]
    · exact findCongr same
    · intro other mem otherUsable skipped
      obtain ⟨primary,own,tag⟩ := Option.map_eq_some_iff.mp skipped
      have isLeaf := (primaryIsLeaf input effective leafType own).1
      subst isLeaf
      have equal := List.inj_on_of_nodup_map distinct (urltestLeafOf mem).2 leafListed tag.symm
      rw [equal,leafUnusable] at otherUsable
      cases otherUsable
  have fromFallbacks : ∀ member ∈ groupMembers input ob, input.usable member.1 family = true →
      member ∈ numbered 1 (groupFallbacks input ob) := by
    intro member mem usable
    rw [groupMembersOf input chosen,List.mem_append] at mem
    cases mem with
    | inr fallback => exact fallback
    | inl primary =>
      cases own : groupPrimary input ob with
      | none =>
        rw [own] at primary
        cases primary
      | some child =>
        rw [own] at primary
        cases List.mem_singleton.mp primary
        rw [(primaryIsLeaf input effective leafType own).1,leafUnusable] at usable
        cases usable
  cases found : (groupFallbacks input ob).find? (input.usable · family) with
  | some child =>
    rw [← first,found] at result
    obtain ⟨usable,metric,mem,least⟩ := (firstNumbered short _ child).mp found
    apply matchesLeast input known result _ usable (fun other mem usable => least other (fromFallbacks other mem usable) usable)
    rw [groupMembersOf input chosen]
    exact List.mem_append_right _ mem
  | none =>
    rw [← first,found] at result
    refine Or.inr ⟨result,?_⟩
    intro route routeMem default sameFamily
    have none := List.find?_eq_none.mp found
    apply (groupFamilyRoutes input known (fun _ => False)).mpr _ route routeMem default sameFamily
    intro member mem usable
    obtain ⟨i,at_i,_⟩ := memNumbered.mp (fromFallbacks member mem usable)
    exact none member.1 (List.mem_of_getElem? at_i) usable

include distinct covered type chosen effective leafType known short in
theorem matchesIffAgrees : EffectiveMatches input ob tableId family ↔ effectiveAgrees input ob leaf family := by
  have result := effectiveForFamilyEq input family type chosen effective leafType
  cases usable : childUsable family input.familyReachability leaf with
  | true =>
    cases on : input.familyEnabled family with
    | true =>
      rw [matchesUsableLeaf input covered type chosen effective leafType known short on usable]
      simp [effectiveAgrees,usable,on]
    | false =>
      rw [usable,if_pos rfl] at result
      rw [matchesDisabled input on,result]
      simp [effectiveAgrees,usable,on,leafNotGroup type leafType]
  | false =>
    cases on : input.familyEnabled family with
    | true =>
      have matched : EffectiveMatches input ob tableId family :=
        matchesOtherLeaf input distinct covered type chosen effective leafType known short on usable
      simp [effectiveAgrees,usable,on,matched]
    | false =>
      rw [usable] at result
      simp only [Bool.false_eq_true,if_false] at result
      rw [matchesDisabled input on,result]
      simp only [effectiveAgrees,usable,on,Bool.false_eq_true,false_or,true_and,false_implies,implies_true,and_true]
      constructor
      · exact firstUsableIsGroup input type
      · intro none
        rw [List.find?_eq_none.mpr (by simpa using none)]
        rfl

end Group

/- The firewall's walk and the group's table choose one member unless the selections go nine groups
deep, or the family is off. -/
theorem effectiveMatchesIff {inet : Inet} (accepted : validateConfig inet input.cfg = []) (covered : snapshotCovers input)
    {ob leaf : Outbound} (type : ob.type = .urltest)
    (chosen : (resolveUrltestSelection input.selections ob.tag).isEmpty = false)
    (effective : resolveEffectiveOutbound input.outbounds input.selections walkDepth ob = some leaf)
    (leafType : leaf.type = .interface) {family : Int} (known : family ∈ families)
    (short : (groupFallbacks input ob).length < 2 ^ 32) (tableId : UInt32) :
    EffectiveMatches input ob tableId family ↔ effectiveAgrees input ob leaf family :=
  matchesIffAgrees input (acceptedConfig accepted).distinct covered type chosen effective leafType known short

end Families

def depthTag (depth : Nat) : String := String.ofList ['g',hexLetter depth]

def chainGroups : Nat → Nat → List Outbound
  | _, 0 => []
  | depth, 1 => [groupOf (depthTag depth) [interfaceOutbound "first" "eth0",interfaceOutbound "second" "eth1"]]
  | depth, left + 2 =>
    { groupOf (depthTag depth) [] with outboundGroups := some [{ outbounds := [depthTag (depth + 1)] }] } ::
      chainGroups (depth + 1) (left + 1)

def chainSelections : Nat → Nat → UrltestSelections
  | _, 0 => []
  | depth, 1 => [(depthTag depth,"second")]
  | depth, left + 2 => (depthTag depth,depthTag (depth + 1)) :: chainSelections (depth + 1) (left + 1)

def chainInput (groups : Nat) : PlanInput :=
  { cfg := { outbounds := some (chainGroups 0 groups ++ [interfaceOutbound "first" "eth0",interfaceOutbound "second" "eth1"]) }
    marks := [], familyReachability := [("first",⟨true,true⟩),("second",⟨true,true⟩)]
    selections := chainSelections 0 groups }

def chainTop (groups : Nat) : Outbound := ((chainGroups 0 groups).head?).getD (groupOf "g0" [])

theorem chainAccepted : validateConfig noInet (chainInput 8).cfg = [] ∧ validateConfig noInet (chainInput 9).cfg = [] := by
  decide +kernel

theorem chainCovers : snapshotCovers (chainInput 8) ∧ snapshotCovers (chainInput 9) := by
  unfold snapshotCovers
  decide

theorem eightGroupsMatch : EffectiveMatches (chainInput 8) (chainTop 8) 150 afInet := by
  have effective : resolveEffectiveOutbound (chainInput 8).outbounds (chainInput 8).selections walkDepth (chainTop 8) =
      some (interfaceOutbound "second" "eth1") := by decide
  refine (effectiveMatchesIff (chainInput 8) chainAccepted.1 chainCovers.1 rfl (by decide) effective rfl (by decide)
    (by decide) 150).mpr ⟨Or.inl rfl,?_⟩
  intro none
  have selected : selectedInterface (chainInput 8) (chainTop 8) = some (interfaceOutbound "second" "eth1") := by decide
  rw [selected] at none
  cases none

/- The selected interface is returned; the table's lowest default is the first one's. -/
theorem nineGroupsDiffer : validateConfig noInet (chainInput 9).cfg = [] ∧ snapshotCovers (chainInput 9) ∧
    resolveEffectiveOutbound (chainInput 9).outbounds (chainInput 9).selections walkDepth (chainTop 9) =
      some (interfaceOutbound "second" "eth1") ∧
    ¬ EffectiveMatches (chainInput 9) (chainTop 9) 150 afInet := by
  have effective : resolveEffectiveOutbound (chainInput 9).outbounds (chainInput 9).selections walkDepth (chainTop 9) =
      some (interfaceOutbound "second" "eth1") := by decide
  refine ⟨chainAccepted.2,chainCovers.2,effective,?_⟩
  rw [matchesIffAgrees (chainInput 9) (acceptedConfig chainAccepted.2).distinct chainCovers.2 rfl (by decide) effective
    rfl (by decide) (by decide)]
  intro agrees
  have first := agrees.2 (by decide) (by decide)
  exact absurd first (by decide)

end KeenPbr
