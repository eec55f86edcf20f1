import Mathlib.Data.List.Pairwise
import KeenPbr.Stable
import KeenPbr.UrltestCursor

/-! Which child select_outbound_from_state gives: the rule it follows, and the one latency at which it
does not. -/
namespace KeenPbr.UrltestState
variable (state : UrltestState)

def weightOf (group : OutboundGroup) : UInt32 := toUint32 (group.weight.getD 1)

def tolerance : UInt32 := toUint32 (state.config.toleranceMs.getD 100)

def healthy (child : String) : Bool := (state.healthyResult child).isSome

def hasHealthy (group : OutboundGroup) : Bool := group.outbounds.any state.healthy

def groups : List OutboundGroup := state.config.outboundGroups.getD []

def NotHeavier (lhs rhs : OutboundGroup) : Prop := weightOf lhs ≤ weightOf rhs

instance : DecidableRel NotHeavier := fun lhs rhs => inferInstanceAs (Decidable (weightOf lhs ≤ weightOf rhs))

instance : IsTrans OutboundGroup NotHeavier := ⟨fun _ _ _ => UInt32.le_trans⟩

instance : Std.Total NotHeavier := ⟨fun lhs rhs => UInt32.le_total (weightOf lhs) (weightOf rhs)⟩

/- The lowest-weight group with a healthy child; of equal weights the one declared first. -/
def LeadingGroup (group : OutboundGroup) : Prop := Stable.Leads NotHeavier state.hasHealthy state.groups group

def Tolerated (group : OutboundGroup) (child : String) : Prop :=
  ∃ result, state.healthyResult child = some result ∧ ∀ other ∈ group.outbounds, ∀ best, state.healthyResult other = some best →
    result.latencyMs.toNat ≤ best.latencyMs.toNat + state.tolerance.toNat

def FirstHealthy (group : OutboundGroup) (child : String) : Prop :=
  state.healthy child = true ∧ ∃ before after, group.outbounds = before ++ child :: after ∧ ∀ other ∈ before, state.healthy other = false

def SuitableIn (group : OutboundGroup) (child : String) : Prop :=
  child ∈ group.outbounds ∧ if state.priorityMode then state.FirstHealthy group child else state.Tolerated group child

def Suitable (child : String) : Prop := ∃ group, state.LeadingGroup group ∧ state.SuitableIn group child

structure Selects : Prop where
  empty : state.selectOutboundFromState = "" ↔ ∀ child ∈ state.children, state.healthy child = false
  suitable : (∃ child ∈ state.children, state.healthy child = true) → state.Suitable state.selectOutboundFromState
  kept : state.Suitable state.selectedOutbound → state.selectOutboundFromState = state.selectedOutbound
  settled : { state with selectedOutbound := state.selectOutboundFromState }.selectOutboundFromState = state.selectOutboundFromState

/- In the leading group some healthy child has a latency below the largest the type holds. -/
def Measured : Prop :=
  state.priorityMode = true ∨ ∀ group, state.LeadingGroup group →
    ∃ child ∈ group.outbounds, ∃ result, state.healthyResult child = some result ∧ result.latencyMs < 0xFFFFFFFF

section Minimum
variable {state} {group : OutboundGroup}

variable (state) in
def lower (low : UInt32) (child : String) : UInt32 :=
  match state.healthyResult child with
  | none => low
  | some result => if result.latencyMs < low then result.latencyMs else low

variable (state) in
theorem lowerFrom (children : List String) (start : UInt32) :
    children.foldl state.lower start = start ∨
      ∃ child ∈ children, ∃ result, state.healthyResult child = some result ∧ result.latencyMs = children.foldl state.lower start := by
  induction children generalizing start with
  | nil => exact .inl rfl
  | cons head rest ih =>
    rw [List.foldl_cons]
    rcases ih (state.lower start head) with same | ⟨child,mem,taken⟩
    · rw [same]
      unfold lower
      split
      · exact .inl rfl
      · rename_i result found
        split
        · exact .inr ⟨head,List.mem_cons_self,result,found,rfl⟩
        · exact .inl rfl
    · exact .inr ⟨child,List.mem_cons_of_mem head mem,taken⟩

variable (state) in
theorem lowerLe (low : UInt32) (child : String) :
    (state.lower low child).toNat ≤ low.toNat ∧
      ∀ result, state.healthyResult child = some result → (state.lower low child).toNat ≤ result.latencyMs.toNat := by
  unfold lower
  cases state.healthyResult child with
  | none => exact ⟨Nat.le_refl _,fun _ absent => by cases absent⟩
  | some found =>
    dsimp only
    split
    · rename_i less
      refine ⟨Nat.le_of_lt (UInt32.lt_iff_toNat_lt.mp less),fun result own => ?_⟩
      rw [Option.some.inj own]
    · rename_i more
      refine ⟨Nat.le_refl _,fun result own => ?_⟩
      rw [← Option.some.inj own]
      exact Nat.le_of_not_lt fun less => more (UInt32.lt_iff_toNat_lt.mpr less)

variable (state) in
theorem lowerFoldLe (children : List String) (start : UInt32) :
    (children.foldl state.lower start).toNat ≤ start.toNat ∧
      ∀ child ∈ children, ∀ result, state.healthyResult child = some result →
        (children.foldl state.lower start).toNat ≤ result.latencyMs.toNat := by
  induction children generalizing start with
  | nil => exact ⟨Nat.le_refl _,fun _ absent => by cases absent⟩
  | cons head rest ih =>
    obtain ⟨below,each⟩ := ih (state.lower start head)
    obtain ⟨one,own⟩ := state.lowerLe start head
    refine ⟨Nat.le_trans below one,List.forall_mem_cons.mpr ⟨fun result found => ?_,each⟩⟩
    exact Nat.le_trans below (own result found)

theorem minLatencyLe {child : String} (mem : child ∈ group.outbounds) {result : URLTestResult}
    (found : state.healthyResult child = some result) :
    (state.minLatency group).toNat ≤ result.latencyMs.toNat :=
  (state.lowerFoldLe group.outbounds 0xFFFFFFFF).2 child mem result found

theorem minLatencyMax : state.minLatency group = 0xFFFFFFFF ↔
    ∀ child ∈ group.outbounds, ∀ result, state.healthyResult child = some result → ¬ result.latencyMs < 0xFFFFFFFF := by
  constructor
  · intro top child mem result found less
    have low := minLatencyLe mem found
    rw [top] at low
    exact Nat.not_lt.mpr low (UInt32.lt_iff_toNat_lt.mp less)
  · intro all
    rcases state.lowerFrom group.outbounds 0xFFFFFFFF with top | ⟨child,mem,result,found,taken⟩
    · exact top
    · have high := all child mem result found
      change result.latencyMs = state.minLatency group at taken
      rw [taken,UInt32.lt_iff_toNat_lt] at high
      have bound := (state.minLatency group).toNat_lt
      have most : (0xFFFFFFFF : UInt32).toNat = 4294967295 := rfl
      exact UInt32.toNat.inj (by omega)

theorem minLatencyTaken (below : state.minLatency group ≠ 0xFFFFFFFF) :
    ∃ child ∈ group.outbounds, ∃ result, state.healthyResult child = some result ∧ result.latencyMs = state.minLatency group :=
  (state.lowerFrom group.outbounds 0xFFFFFFFF).resolve_left below

variable (state group) in
/- The source's test of one child against the tolerated latency. -/
def withinTolerance (child : String) : Bool :=
  (state.healthyResult child).any fun result => result.latencyMs.toNat ≤ (state.minLatency group).toNat + state.tolerance.toNat

theorem withinToleranceIff (below : state.minLatency group ≠ 0xFFFFFFFF) {child : String} :
    state.withinTolerance group child = true ↔ state.Tolerated group child := by
  unfold withinTolerance Tolerated
  rw [Option.any_eq_true]
  refine exists_congr fun result => and_congr_right fun _ => ?_
  rw [decide_eq_true_iff]
  constructor
  · intro within other mem best found
    have low := minLatencyLe mem found
    omega
  · intro all
    obtain ⟨child,mem,best,found,taken⟩ := minLatencyTaken below
    rw [← taken]
    exact all child mem best found

end Minimum

section Groups
variable {state} {group : OutboundGroup}

theorem notHealthy {child : String} (off : state.healthy child = false) : state.healthyResult child = none := by
  unfold healthy at off
  exact Option.not_isSome_iff_eq_none.mp (by rw [off]; decide)

theorem hasHealthyFalse : state.hasHealthy group = false ↔ ∀ child ∈ group.outbounds, state.healthy child = false := by
  rw [hasHealthy,List.any_eq_false]
  exact forall₂_congr fun _ _ => Iff.of_eq (Bool.not_eq_true _)

variable (state) in
theorem selectUnhealthy (group : OutboundGroup) (off : state.hasHealthy group = false) : state.selectFromGroup group = none := by
  have each := hasHealthyFalse.mp off
  unfold selectFromGroup
  split
  · refine List.find?_eq_none.mpr fun child mem => ?_
    have none_ := each child mem
    unfold healthy at none_
    rw [none_]
    decide
  · have top : state.minLatency group = 0xFFFFFFFF := by
      refine minLatencyMax.mpr fun child mem result found => ?_
      rw [notHealthy (each child mem)] at found
      cases found
    rw [top,if_pos (beq_self_eq_true _)]

theorem findSuitable {p : String → Bool} {children : List String} {child : String} (mem : child ∈ children) (holds : p child = true) :
    ∃ found, children.find? p = some found := by
  cases found : children.find? p with
  | none => exact absurd holds (List.find?_eq_none.mp found child mem)
  | some first => exact ⟨first,rfl⟩

theorem selectLeading (some_ : state.hasHealthy group = true) (named : ∀ child ∈ group.outbounds, child ≠ "")
    (measured : state.priorityMode = true ∨ state.minLatency group ≠ 0xFFFFFFFF) :
    ∃ child, state.selectFromGroup group = some child ∧ state.SuitableIn group child ∧
      (state.SuitableIn group state.selectedOutbound → child = state.selectedOutbound) := by
  unfold SuitableIn
  cases mode : state.priorityMode with
  | true =>
    simp only [selectFromGroup,mode,if_true]
    obtain ⟨child,mem,holds⟩ := List.any_eq_true.mp some_
    obtain ⟨first,found⟩ := findSuitable mem holds
    obtain ⟨own,before,after,split,early⟩ := List.find?_eq_some_iff_append.mp found
    refine ⟨first,found,⟨List.mem_of_find?_eq_some found,own,before,after,split,fun other early_ => by simpa using early other early_⟩,?_⟩
    rintro ⟨_,suits,before',after',split',early'⟩
    have again : group.outbounds.find? state.healthy = some state.selectedOutbound :=
      List.find?_eq_some_iff_append.mpr ⟨suits,before',after',split',fun other early_ => by rw [early' other early_]; rfl⟩
    exact Option.some.inj (found.symm.trans again)
  | false =>
    have below := measured.resolve_left (by rw [mode]; decide)
    have shape : state.selectFromGroup group =
        if !state.selectedOutbound.isEmpty && group.outbounds.contains state.selectedOutbound &&
          state.withinTolerance group state.selectedOutbound then
          some state.selectedOutbound
        else group.outbounds.find? (state.withinTolerance group) := by
      unfold selectFromGroup
      rw [mode,if_neg (by decide),if_neg (by rw [beq_iff_eq]; exact below)]
      rfl
    rw [shape]
    simp only [if_neg Bool.false_ne_true]
    by_cases keeps : (!state.selectedOutbound.isEmpty && group.outbounds.contains state.selectedOutbound &&
        state.withinTolerance group state.selectedOutbound) = true
    · rw [if_pos keeps]
      rw [Bool.and_eq_true,Bool.and_eq_true,List.contains_iff_mem] at keeps
      exact ⟨_,rfl,⟨keeps.1.2,(withinToleranceIff below).mp keeps.2⟩,fun _ => rfl⟩
    · rw [if_neg keeps]
      obtain ⟨best,bestMem,result,healthy_,taken⟩ := minLatencyTaken below
      have within : state.withinTolerance group best = true := by
        rw [withinTolerance,healthy_,Option.any_some,taken,decide_eq_true_iff]
        exact Nat.le_add_right _ _
      obtain ⟨first,found⟩ := findSuitable bestMem within
      refine ⟨first,found,⟨List.mem_of_find?_eq_some found,(withinToleranceIff below).mp (List.find?_some found)⟩,?_⟩
      rintro ⟨mem,suits⟩
      refine absurd ?_ keeps
      have filled : state.selectedOutbound.isEmpty = false := by
        rw [← Bool.not_eq_true,String.isEmpty_iff]
        exact named _ mem
      rw [filled,List.contains_iff_mem.mpr mem,(withinToleranceIff below).mpr suits]
      rfl

end Groups

section Selection
variable {state} {group : OutboundGroup} {child : String}

variable (state) in
theorem selectEq : state.selectOutboundFromState = (((state.groups.insertionSort NotHeavier).findSome? state.selectFromGroup)).getD "" := by
  unfold selectOutboundFromState groups
  cases state.config.outboundGroups with
  | none => rfl
  | some groups => rfl

theorem selectFrom (leads : state.LeadingGroup group) (chosen : state.selectFromGroup group = some child) :
    state.selectOutboundFromState = child := by
  rw [selectEq,Stable.findSomeFirst state.selectUnhealthy ((Stable.leadsIff _ _).mp leads) chosen,Option.getD_some]

theorem memChildrenOf : child ∈ state.children ↔ ∃ group ∈ state.groups, child ∈ group.outbounds := List.mem_flatMap

theorem leadingMem (leads : state.LeadingGroup group) : group ∈ state.groups := by
  obtain ⟨_,before,after,split,_⟩ := leads
  rw [split]
  exact List.mem_append_right before List.mem_cons_self

theorem leadingExists (mem : child ∈ state.children) (healthy_ : state.healthy child = true) : ∃ group, state.LeadingGroup group := by
  obtain ⟨group,listed,inside⟩ := memChildrenOf.mp mem
  exact Stable.leadsExists _ _ listed (List.any_eq_true.mpr ⟨child,inside,healthy_⟩)

theorem leadingChild (leads : state.LeadingGroup group) : ∃ child ∈ state.children, state.healthy child = true := by
  obtain ⟨child,inside,healthy_⟩ := List.any_eq_true.mp leads.1
  exact ⟨child,memChildrenOf.mpr ⟨group,leadingMem leads,inside⟩,healthy_⟩

theorem selectsUnhealthy (none_ : ∀ child ∈ state.children, state.healthy child = false) : state.selectOutboundFromState = "" := by
  have idle : (state.groups.insertionSort NotHeavier).findSome? state.selectFromGroup = none := by
    refine List.findSome?_eq_none_iff.mpr fun group mem => state.selectUnhealthy group (hasHealthyFalse.mpr fun child inside => ?_)
    exact none_ child (memChildrenOf.mpr ⟨group,(List.mem_insertionSort _).mp mem,inside⟩)
  rw [selectEq,idle,Option.getD_none]

theorem selectsLeading (named : ∀ child ∈ state.children, child ≠ "") (leads : state.LeadingGroup group)
    (measured : state.priorityMode = true ∨ state.minLatency group ≠ 0xFFFFFFFF) :
    state.SuitableIn group state.selectOutboundFromState ∧
      (state.SuitableIn group state.selectedOutbound → state.selectOutboundFromState = state.selectedOutbound) := by
  have own : ∀ child ∈ group.outbounds, child ≠ "" := fun child inside => named child (memChildrenOf.mpr ⟨group,leadingMem leads,inside⟩)
  obtain ⟨child,chosen,suits,keeps⟩ := selectLeading leads.1 own measured
  rw [selectFrom leads chosen]
  exact ⟨suits,keeps⟩

theorem selectsMeasured (named : ∀ child ∈ state.children, child ≠ "") (measured : state.Measured) : state.Selects := by
  by_cases some_ : ∃ child ∈ state.children, state.healthy child = true
  · obtain ⟨child,mem,healthy_⟩ := some_
    obtain ⟨group,leads⟩ := leadingExists mem healthy_
    have below : state.priorityMode = true ∨ state.minLatency group ≠ 0xFFFFFFFF := by
      refine measured.imp id fun all top => ?_
      obtain ⟨child,inside,result,found,less⟩ := all group leads
      exact minLatencyMax.mp top child inside result found less
    obtain ⟨suits,keeps⟩ := selectsLeading named leads below
    refine ⟨⟨fun empty => ?_,fun none_ => ?_⟩,fun _ => ⟨group,leads,suits⟩,?_,?_⟩
    · exact absurd empty (named _ (memChildrenOf.mpr ⟨group,leadingMem leads,suits.1⟩))
    · rw [none_ child mem] at healthy_
      cases healthy_
    · rintro ⟨other,otherLeads,otherSuits⟩
      rw [Stable.leadsUnique _ _ otherLeads leads] at otherSuits
      exact keeps otherSuits
    · -- The state with the new selection has the same groups and health.
      let next : UrltestState := { state with selectedOutbound := state.selectOutboundFromState }
      have nextLeads : next.LeadingGroup group := leads
      have nextBelow : next.priorityMode = true ∨ next.minLatency group ≠ 0xFFFFFFFF := below
      have nextNamed : ∀ child ∈ next.children, child ≠ "" := named
      exact (selectsLeading nextNamed nextLeads nextBelow).2 suits
  · have none_ : ∀ child ∈ state.children, state.healthy child = false := by
      intro child mem
      exact Bool.eq_false_iff.mpr fun on => some_ ⟨child,mem,on⟩
    refine ⟨⟨fun _ => none_,fun _ => selectsUnhealthy none_⟩,fun exists_ => absurd exists_ some_,?_,?_⟩
    · rintro ⟨group,leads,_⟩
      exact absurd (leadingChild leads) some_
    · let next : UrltestState := { state with selectedOutbound := state.selectOutboundFromState }
      have nextNone : ∀ child ∈ next.children, next.healthy child = false := none_
      exact (selectsUnhealthy nextNone).trans (selectsUnhealthy none_).symm

theorem selectsOnlyMeasured (distinct : state.children.Nodup) (selects : state.Selects) : state.Measured := by
  cases mode : state.priorityMode with
  | true => exact .inl mode
  | false =>
    refine .inr fun group leads => ?_
    by_contra unmeasured
    push Not at unmeasured
    have top : state.minLatency group = 0xFFFFFFFF := by
      refine minLatencyMax.mpr fun child mem result found less => ?_
      exact unmeasured child mem result found less
    have skipped : state.selectFromGroup group = none := by
      unfold selectFromGroup
      rw [mode,if_neg (by decide),top,if_pos (beq_self_eq_true _)]
    obtain ⟨child,mem,healthy_⟩ := leadingChild leads
    obtain ⟨own,ownLeads,inside,_⟩ := selects.suitable ⟨child,mem,healthy_⟩
    rw [Stable.leadsUnique _ _ ownLeads leads] at inside
    have filled : state.selectOutboundFromState ≠ "" := by
      intro empty
      rw [selects.empty.mp empty child mem] at healthy_
      cases healthy_
    cases found : (state.groups.insertionSort NotHeavier).findSome? state.selectFromGroup with
    | none =>
      rw [selectEq,found] at filled
      exact filled rfl
    | some other =>
      have same : state.selectOutboundFromState = other := by rw [selectEq,found,Option.getD_some]
      obtain ⟨taken,takenMem,chosen⟩ := List.exists_of_findSome?_eq_some found
      have different : taken ≠ group := by
        rintro rfl
        rw [skipped] at chosen
        cases chosen
      have symmetric : Std.Symm (Function.onFun List.Disjoint fun group : OutboundGroup => group.outbounds) :=
        ⟨fun _ _ disjoint _ right left => disjoint left right⟩
      have apart := (List.nodup_flatMap.mp distinct).2.forall ((List.mem_insertionSort _).mp takenMem) (leadingMem leads) different
      rw [same] at inside
      exact apart (selectedFromGroup state chosen) inside

end Selection

/- The config checks refuse a group with an empty or repeated child. -/
theorem selectsIff (state : UrltestState) (named : ∀ child ∈ state.children, child ≠ "") (distinct : state.children.Nodup) :
    state.Selects ↔ state.Measured :=
  ⟨selectsOnlyMeasured distinct,selectsMeasured named⟩

def probedPair (first second : UInt32) : UrltestState where
  config := { tag := "group", type := .urltest, outboundGroups := some [⟨["wan"],some 2⟩,⟨["lte"],some 1⟩] }
  lastResults := fun child => if child = "wan" then some ⟨true,first,""⟩ else some ⟨true,second,""⟩
  circuitBreakers := fun _ => some {}
  selectedOutbound := "wan"

theorem lighterLeads (first second : UInt32) : (probedPair first second).LeadingGroup ⟨["lte"],some 1⟩ := by
  refine ⟨rfl,[⟨["wan"],some 2⟩],[],rfl,?_,fun _ absent => by cases absent⟩
  intro other mem _
  rw [List.mem_singleton.mp mem]
  decide

theorem probedPairSelects : (probedPair 20 300).Selects ∧ (probedPair 20 300).selectOutboundFromState = "lte" := by
  have named : ∀ child ∈ (probedPair 20 300).children, child ≠ "" := by decide
  have distinct : (probedPair 20 300).children.Nodup := by decide
  refine ⟨(selectsIff (probedPair 20 300) named distinct).mpr (.inr fun group leads => ?_),by decide⟩
  rw [Stable.leadsUnique _ _ leads (lighterLeads 20 300)]
  exact ⟨"lte",List.mem_singleton.mpr rfl,⟨true,300,""⟩,rfl,by decide⟩

/- The lighter group's only child is healthy and took the largest latency there is. -/
theorem longestLatencySkipped : (probedPair 20 4294967295).healthy "lte" = true ∧
    (probedPair 20 4294967295).LeadingGroup ⟨["lte"],some 1⟩ ∧
    (probedPair 20 4294967295).selectOutboundFromState = "wan" ∧ ¬ (probedPair 20 4294967295).Selects := by
  have leads := lighterLeads 20 4294967295
  have chosen : (probedPair 20 4294967295).selectOutboundFromState = "wan" := by decide
  refine ⟨by decide,leads,chosen,fun selects => ?_⟩
  obtain ⟨group,own,inside,_⟩ := selects.suitable (leadingChild leads)
  rw [Stable.leadsUnique _ _ own leads,chosen] at inside
  revert inside
  decide

end KeenPbr.UrltestState
