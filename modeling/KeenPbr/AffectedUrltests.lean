import KeenPbr.Chaining
import KeenPbr.Config

/-! The url tests that a changed outbound concerns: the closure find_affected_urltests computes is
reachability along the groups' memberships. -/
namespace KeenPbr.AffectedUrltests

/- The two sets of the source and the flag of its while loop. -/
structure Discovery where
  affectedTags : List String
  affectedUrltests : List String
  discoveredParent : Bool

def containsAffectedChild (affectedTags : List String) (groups : List OutboundGroup) : Bool :=
  groups.any fun group => group.outbounds.any fun childTag => affectedTags.contains childTag

def discoverParent (found : Discovery) (outbound : Outbound) : Discovery :=
  if outbound.type != .urltest || found.affectedUrltests.contains outbound.tag then found
  else match outbound.outboundGroups with
    | none => found
    | some groups =>
      if containsAffectedChild found.affectedTags groups then
        { affectedTags := found.affectedTags.insert outbound.tag
          affectedUrltests := found.affectedUrltests ++ [outbound.tag]
          discoveredParent := true }
      else found

/- The body of the while loop: one pass over the configuration. -/
def discoverPass (outbounds : List Outbound) (found : Discovery) : Discovery :=
  outbounds.foldl discoverParent { found with discoveredParent := false }

/- The while loop; nothing is returned when the rounds run out. -/
def discover (outbounds : List Outbound) : Nat → Discovery → Option Discovery
  | 0, _ => none
  | rounds + 1, found => if found.discoveredParent then discover outbounds rounds (discoverPass outbounds found) else some found

def findAffectedUrltests (rounds : Nat) (outbounds : List Outbound) (changedOutboundTags : List String) : Option (List String) :=
  (discover outbounds rounds ⟨changedOutboundTags,[],true⟩).map fun found =>
    (outbounds.filter fun outbound => found.affectedUrltests.contains outbound.tag).map (·.tag)

section Meaning
variable (outbounds : List Outbound) (changed : List String)

def HasMember (outbound : Outbound) (child : String) : Prop :=
  outbound.type = .urltest ∧ ∃ groups, outbound.outboundGroups = some groups ∧ ∃ group ∈ groups, child ∈ group.outbounds

def Member (parent child : String) : Prop := ∃ outbound ∈ outbounds, outbound.tag = parent ∧ HasMember outbound child

/- A changed tag is reached from the url test through one membership or more. -/
def Affected (outbound : Outbound) : Prop :=
  ∃ child, HasMember outbound child ∧ ∃ tag ∈ changed, Relation.ReflTransGen (Member outbounds) child tag

def AffectedTag (tag : String) : Prop := ∃ outbound ∈ outbounds, outbound.tag = tag ∧ Affected outbounds changed outbound

end Meaning

section Closure
variable {outbounds : List Outbound} {changed : List String}

/- One pass as forward chaining: the url test counts as soon as one of its members is changed or counts. -/
def fires (changed held : List String) (outbound : Outbound) : Bool :=
  outbound.type == .urltest &&
    (outbound.outboundGroups.getD []).any fun group => group.outbounds.any fun child => changed.contains child || held.contains child

def Fires (changed : List String) (held : Set String) (outbound : Outbound) : Prop :=
  ∃ child, HasMember outbound child ∧ (child ∈ changed ∨ child ∈ held)

theorem firesIff {held : List String} {outbound : Outbound} :
    fires changed held outbound = true ↔ Fires changed { tag | tag ∈ held } outbound := by
  unfold fires Fires HasMember
  rw [Bool.and_eq_true,beq_iff_eq,List.any_eq_true]
  constructor
  · rintro ⟨urltest,group,mem,some_⟩
    obtain ⟨child,inside,counts⟩ := List.any_eq_true.mp some_
    rw [Bool.or_eq_true,List.contains_iff_mem,List.contains_iff_mem] at counts
    cases stated : outbound.outboundGroups with
    | none =>
      rw [stated] at mem
      cases mem
    | some groups =>
      rw [stated] at mem
      exact ⟨child,⟨urltest,groups,rfl,group,mem,inside⟩,counts⟩
  · rintro ⟨child,⟨urltest,groups,stated,group,mem,inside⟩,counts⟩
    refine ⟨urltest,group,?_,List.any_eq_true.mpr ⟨child,inside,?_⟩⟩
    · rw [stated]
      exact mem
    · rw [Bool.or_eq_true,List.contains_iff_mem,List.contains_iff_mem]
      exact counts

def Tracks (changed : List String) (found : Discovery) : Prop :=
  ∀ tag, tag ∈ found.affectedTags ↔ tag ∈ changed ∨ tag ∈ found.affectedUrltests

theorem childFires {found : Discovery} (tracks : Tracks changed found) {outbound : Outbound} {groups : List OutboundGroup}
    (stated : outbound.outboundGroups = some groups) (urltest : outbound.type = .urltest) :
    containsAffectedChild found.affectedTags groups = fires changed found.affectedUrltests outbound := by
  have same : ∀ child, found.affectedTags.contains child = (changed.contains child || found.affectedUrltests.contains child) := by
    intro child
    rw [Bool.eq_iff_iff,Bool.or_eq_true,List.contains_iff_mem,List.contains_iff_mem,List.contains_iff_mem]
    exact tracks child
  simp only [containsAffectedChild,fires,stated,urltest,same,Option.getD_some,beq_self_eq_true,Bool.true_and]

theorem discoverParentCases {found : Discovery} (tracks : Tracks changed found) (outbound : Outbound) :
    ((found.affectedUrltests.contains outbound.tag || !fires changed found.affectedUrltests outbound) = true ∧
      discoverParent found outbound = found) ∨
    ((found.affectedUrltests.contains outbound.tag || !fires changed found.affectedUrltests outbound) = false ∧
      discoverParent found outbound =
        ⟨found.affectedTags.insert outbound.tag,found.affectedUrltests ++ [outbound.tag],true⟩) := by
  unfold discoverParent
  by_cases skipped : (outbound.type != .urltest || found.affectedUrltests.contains outbound.tag) = true
  · left
    rw [if_pos skipped]
    refine ⟨?_,rfl⟩
    rcases Bool.or_eq_true_iff.mp skipped with other | known
    · have idle : fires changed found.affectedUrltests outbound = false := by
        rw [fires,Bool.and_eq_false_iff]
        exact .inl (by simpa using other)
      rw [idle,Bool.not_false,Bool.or_true]
    · rw [known,Bool.true_or]
  · rw [if_neg skipped]
    rw [Bool.or_eq_true,not_or,bne_iff_ne,not_not,Bool.not_eq_true] at skipped
    obtain ⟨urltest,fresh⟩ := skipped
    rw [fresh,Bool.false_or]
    cases stated : outbound.outboundGroups with
    | none =>
      left
      have idle : fires changed found.affectedUrltests outbound = false := by
        simp only [fires,stated,Option.getD_none,List.any_nil,Bool.and_false]
      rw [idle]
      exact ⟨rfl,rfl⟩
    | some groups =>
      dsimp only
      rw [childFires tracks stated urltest]
      cases fires changed found.affectedUrltests outbound with
      | false => exact .inl ⟨rfl,rfl⟩
      | true => exact .inr ⟨rfl,rfl⟩

theorem discoverParentTracks {found : Discovery} (tracks : Tracks changed found) (outbound : Outbound) :
    Tracks changed (discoverParent found outbound) := by
  rcases discoverParentCases tracks outbound with ⟨_,same⟩ | ⟨_,taken⟩
  · rw [same]
    exact tracks
  · rw [taken]
    intro tag
    dsimp only
    rw [List.mem_insert_iff,tracks tag,List.mem_append,List.mem_singleton]
    tauto

theorem foldDiscovers (outbounds : List Outbound) {found : Discovery} (tracks : Tracks changed found) :
    Tracks changed (outbounds.foldl discoverParent found) ∧
      (outbounds.foldl discoverParent found).affectedUrltests =
        Chaining.pass (·.tag) (fires changed) outbounds found.affectedUrltests ∧
      (outbounds.foldl discoverParent found).discoveredParent =
        (found.discoveredParent ||
          decide ((Chaining.pass (·.tag) (fires changed) outbounds found.affectedUrltests).length ≠ found.affectedUrltests.length)) := by
  induction outbounds generalizing found with
  | nil => simp [tracks,Chaining.pass]
  | cons outbound rest ih =>
    rw [List.foldl_cons,Chaining.pass]
    have next := ih (discoverParentTracks tracks outbound)
    rcases discoverParentCases tracks outbound with ⟨skipped,same⟩ | ⟨ready,taken⟩
    · rw [same] at next ⊢
      rw [if_pos skipped]
      exact next
    · rw [taken] at next ⊢
      rw [if_neg (by rw [ready]; decide)]
      refine ⟨next.1,next.2.1,?_⟩
      rw [next.2.2,Bool.true_or]
      obtain ⟨later,grown⟩ := Chaining.passGrows (fun outbound : Outbound => outbound.tag) (fires changed) rest
        (found.affectedUrltests ++ [outbound.tag])
      have longer : (found.affectedUrltests ++ [outbound.tag] ++ later).length ≠ found.affectedUrltests.length := by
        simp only [List.length_append,List.length_singleton]
        omega
      rw [grown,decide_eq_true longer,Bool.or_true]

theorem passDiscovers (outbounds : List Outbound) {found : Discovery} (tracks : Tracks changed found) :
    Tracks changed (discoverPass outbounds found) ∧
      (discoverPass outbounds found).affectedUrltests =
        Chaining.pass (·.tag) (fires changed) outbounds found.affectedUrltests ∧
      ((discoverPass outbounds found).discoveredParent = true ↔
        (Chaining.pass (·.tag) (fires changed) outbounds found.affectedUrltests).length ≠ found.affectedUrltests.length) := by
  have cleared : Tracks changed { found with discoveredParent := false } := tracks
  obtain ⟨kept,urltests,flag⟩ := foldDiscovers outbounds cleared
  refine ⟨kept,urltests,?_⟩
  rw [discoverPass,flag,Bool.false_or,decide_eq_true_iff]

theorem discoverEnds {rounds : Nat} {found : Discovery} (tracks : Tracks changed found) (begun : found.discoveredParent = true)
    (distinct : found.affectedUrltests.Nodup) (named : ∀ tag ∈ found.affectedUrltests, tag ∈ outbounds.map (·.tag))
    (enough : outbounds.length < rounds + found.affectedUrltests.length) :
    ∃ last, discover outbounds (rounds + 1) found = some last ∧
      last.affectedUrltests = Chaining.saturate (·.tag) (fires changed) outbounds rounds found.affectedUrltests := by
  induction rounds generalizing found with
  | zero =>
    have few := (List.subperm_of_subset distinct named).length_le
    rw [List.length_map] at few
    omega
  | succ rounds ih =>
    obtain ⟨kept,urltests,flag⟩ := passDiscovers outbounds tracks
    obtain ⟨taken,grown⟩ := Chaining.passGrows (fun outbound : Outbound => outbound.tag) (fires changed) outbounds found.affectedUrltests
    rw [discover,if_pos begun,Chaining.saturate]
    by_cases idle : (Chaining.pass (fun outbound : Outbound => outbound.tag) (fires changed) outbounds found.affectedUrltests).length =
        found.affectedUrltests.length
    · have stopped : ¬ (discoverPass outbounds found).discoveredParent = true := fun on => flag.mp on idle
      rw [discover,if_neg stopped,if_pos idle]
      refine ⟨_,rfl,?_⟩
      rw [urltests,grown]
      rw [grown,List.length_append] at idle
      rw [List.length_eq_zero_iff.mp (by omega : taken.length = 0),List.append_nil]
    · rw [if_neg idle,← urltests]
      refine ih kept (flag.mpr idle) ?_ ?_ ?_
      · rw [urltests]
        exact Chaining.passNodup distinct
      · rw [urltests]
        exact Chaining.passInduction named fun _ _ outbound mem _ => List.mem_map_of_mem mem
      · rw [urltests]
        rw [grown,List.length_append] at idle ⊢
        omega

theorem affectedLeast : IsLeast (Chaining.Closed (·.tag) (Fires changed) outbounds []) { tag | AffectedTag outbounds changed tag } := by
  refine ⟨⟨fun _ absent => by (cases absent),?_⟩,?_⟩
  · rintro outbound mem ⟨child,member,counts⟩
    refine ⟨outbound,mem,rfl,child,member,?_⟩
    rcases counts with touched | ⟨inner,innerMem,rfl,next,nextMember,tag,touched,path⟩
    · exact ⟨child,touched,.refl⟩
    · exact ⟨tag,touched,.head ⟨inner,innerMem,rfl,nextMember⟩ path⟩
  · rintro held ⟨_,closed⟩ _ ⟨outbound,mem,rfl,child,member,tag,touched,path⟩
    -- Back along the path: its last tag is changed, every tag before it is held.
    have counts : child ∈ changed ∨ child ∈ held := by
      clear member
      induction path using Relation.ReflTransGen.head_induction_on with
      | refl => exact .inl touched
      | head step _ ih =>
        obtain ⟨inner,innerMem,rfl,innerMember⟩ := step
        exact .inr (closed inner innerMem ⟨_,innerMember,ih⟩)
    exact closed outbound mem ⟨child,member,counts⟩

theorem discoverExact (changed : List String) {rounds : Nat} (enough : outbounds.length + 1 < rounds) :
    ∃ last, discover outbounds rounds ⟨changed,[],true⟩ = some last ∧
      ∀ tag, tag ∈ last.affectedUrltests ↔ AffectedTag outbounds changed tag := by
  obtain ⟨fewer,rfl⟩ : ∃ fewer, rounds = fewer + 1 := ⟨rounds - 1,by omega⟩
  have tracks : Tracks changed ⟨changed,[],true⟩ := fun tag => by simp
  have named : ∀ outbound ∈ outbounds, outbound.tag ∈ outbounds.map (·.tag) := fun _ mem => List.mem_map_of_mem mem
  have rest : (outbounds.map (·.tag)).length < fewer + ([] : List String).length := by
    rw [List.length_map,List.length_nil]
    omega
  obtain ⟨last,ended,urltests⟩ := discoverEnds tracks rfl List.nodup_nil (fun _ absent => by cases absent) (by simpa using rest)
  refine ⟨last,ended,fun tag => ?_⟩
  have least : IsLeast (Chaining.Closed (·.tag) (Fires changed) outbounds [])
      { tag | tag ∈ Chaining.saturate (·.tag) (fires changed) outbounds fewer [] } :=
    Chaining.saturateLeast (fun _ _ _ => firesIff) (fun _ _ _ more ⟨child,member,counts⟩ => ⟨child,member,counts.imp id (more child)⟩)
      named List.nodup_nil (fun _ absent => by cases absent) rest
  rw [urltests]
  exact Set.ext_iff.mp (least.unique affectedLeast) tag

end Closure

section Result
open Classical

/- The tags a caller gets, once the loop is given the rounds it needs. -/
theorem affectedUrltestsListed (outbounds : List Outbound) (changed : List String) :
    ∃ result, (∀ rounds > outbounds.length + 1, findAffectedUrltests rounds outbounds changed = some result) ∧
      result = (outbounds.filter fun outbound => AffectedTag outbounds changed outbound.tag).map (·.tag) ∧
      ((outbounds.map (·.tag)).Nodup →
        result = (outbounds.filter fun outbound => Affected outbounds changed outbound).map (·.tag) ∧ result.Nodup) := by
  refine ⟨_,fun rounds enough => ?_,rfl,fun distinct => ⟨?_,?_⟩⟩
  · obtain ⟨last,ended,affected⟩ := discoverExact changed enough
    rw [findAffectedUrltests,ended,Option.map_some]
    refine congrArg (fun kept : List Outbound => some (kept.map (·.tag))) (List.filter_congr fun outbound _ => ?_)
    rw [Bool.eq_iff_iff,List.contains_iff_mem,decide_eq_true_iff]
    exact affected outbound.tag
  · refine congrArg _ (List.filter_congr fun outbound mem => ?_)
    rw [Bool.eq_iff_iff,decide_eq_true_iff,decide_eq_true_iff]
    constructor
    · rintro ⟨other,otherMem,tag,affected⟩
      rwa [List.inj_on_of_nodup_map distinct otherMem mem tag] at affected
    · exact fun affected => ⟨outbound,mem,rfl,affected⟩
  · exact distinct.sublist (List.filter_sublist.map _)

def cyclicGroups : List Outbound :=
  [{ tag := "outer", type := .urltest, outboundGroups := some [⟨["inner"],none⟩] },
    { tag := "wan", type := .interface },
    { tag := "inner", type := .urltest, outboundGroups := some [⟨["outer"],none⟩,⟨["wan"],none⟩] }]

theorem cyclicGroupsAffected :
    ∃ result, (∀ rounds > 4, findAffectedUrltests rounds cyclicGroups ["wan"] = some result) ∧ result = ["outer","inner"] ∧
      result = (cyclicGroups.filter fun outbound => Affected cyclicGroups ["wan"] outbound).map (·.tag) ∧ result.Nodup := by
  obtain ⟨result,ends,_,once⟩ := affectedUrltestsListed cyclicGroups ["wan"]
  refine ⟨result,ends,?_,once (by decide)⟩
  have found := ends 5 (by decide)
  rw [show findAffectedUrltests 5 cyclicGroups ["wan"] = some ["outer","inner"] from by decide] at found
  exact (Option.some.inj found).symm

def sharedTag : List Outbound :=
  [{ tag := "group", type := .urltest, outboundGroups := some [⟨["wan"],none⟩] },{ tag := "group", type := .interface }]

theorem sharedTagTwice : findAffectedUrltests 4 sharedTag ["wan"] = some ["group","group"] ∧
    (sharedTag.filter fun outbound => Affected sharedTag ["wan"] outbound).length ≤ 1 ∧ ¬ ["group","group"].Nodup := by
  refine ⟨rfl,?_,by decide⟩
  have interface : ¬ Affected sharedTag ["wan"] { tag := "group", type := .interface } := by
    rintro ⟨child,⟨urltest,_⟩,_⟩
    cases urltest
  change (List.filter (fun outbound => decide (Affected sharedTag ["wan"] outbound)) [_,_]).length ≤ 1
  rw [List.filter_cons,List.filter_cons,decide_eq_false interface]
  split
  · decide
  · decide

end Result

section Batches
variable {outbounds : List Outbound} {changed other : List String} {tag : String}

theorem foundExact (changed : List String) {rounds : Nat} (enough : outbounds.length + 1 < rounds) :
    ∃ found, findAffectedUrltests rounds outbounds changed = some found ∧ ∀ tag, tag ∈ found ↔ AffectedTag outbounds changed tag := by
  obtain ⟨last,ended,exact⟩ := discoverExact changed enough
  refine ⟨_,by rw [findAffectedUrltests,ended]; rfl,fun tag => ?_⟩
  simp only [List.mem_map,List.mem_filter,List.contains_iff_mem,exact]
  constructor
  · rintro ⟨outbound,⟨_,affected⟩,rfl⟩
    exact affected
  · intro affected
    obtain ⟨outbound,mem,same,_⟩ := id affected
    exact ⟨outbound,⟨mem,same.symm ▸ affected⟩,same⟩

theorem affectedEither : AffectedTag outbounds (changed ++ other) tag ↔ AffectedTag outbounds changed tag ∨
    AffectedTag outbounds other tag := by
  simp only [AffectedTag,Affected,List.mem_append,or_and_right,exists_or,and_or_left]

theorem affectedAgain (known : ∀ tag ∈ other, AffectedTag outbounds changed tag) (affected : AffectedTag outbounds other tag) :
    AffectedTag outbounds changed tag := by
  obtain ⟨outbound,mem,same,child,member,last,found,path⟩ := affected
  obtain ⟨inner,innerMem,rfl,next,nextMember,first,touched,later⟩ := known last found
  exact ⟨outbound,mem,same,child,member,first,touched,path.trans (.head ⟨inner,innerMem,rfl,nextMember⟩ later)⟩

/- Changes told one after the other, the url tests found first among them, affect what they affect together. -/
theorem affectedBatches (outbounds : List Outbound) (changed other : List String) {rounds : Nat} (enough : outbounds.length + 1 < rounds) :
    ∃ first second both, findAffectedUrltests rounds outbounds changed = some first ∧
      findAffectedUrltests rounds outbounds (first ++ other) = some second ∧
      findAffectedUrltests rounds outbounds (changed ++ other) = some both ∧ ∀ tag, tag ∈ both ↔ tag ∈ first ∨ tag ∈ second := by
  obtain ⟨first,one,firstExact⟩ := foundExact changed enough
  obtain ⟨second,two,secondExact⟩ := foundExact (first ++ other) enough
  obtain ⟨both,three,bothExact⟩ := foundExact (changed ++ other) enough
  refine ⟨first,second,both,one,two,three,fun tag => ?_⟩
  rw [bothExact,secondExact,firstExact,affectedEither,affectedEither]
  have again : AffectedTag outbounds first tag → AffectedTag outbounds changed tag := affectedAgain fun tag => (firstExact tag).mp
  tauto

def twoLinks : List Outbound :=
  cyclicGroups ++ [{ tag := "lte", type := .interface },{ tag := "backup", type := .urltest, outboundGroups := some [⟨["lte"],none⟩] }]

theorem cyclicBatches : ∃ second both, findAffectedUrltests 7 twoLinks ["lte"] = some ["backup"] ∧
    findAffectedUrltests 7 twoLinks ["backup","wan"] = some second ∧ findAffectedUrltests 7 twoLinks ["lte","wan"] = some both ∧
    second = ["outer","inner"] ∧ ∀ tag, tag ∈ both ↔ tag ∈ ["backup"] ∨ tag ∈ second := by
  obtain ⟨first,second,both,one,two,three,exact_⟩ := @affectedBatches twoLinks ["lte"] ["wan"] 7 (by decide)
  have found : findAffectedUrltests 7 twoLinks ["lte"] = some ["backup"] := by decide
  cases Option.some.inj (one.symm.trans found)
  have later : findAffectedUrltests 7 twoLinks ["backup","wan"] = some ["outer","inner"] := by decide
  exact ⟨second,both,found,two,three,Option.some.inj (two.symm.trans later),exact_⟩

end Batches
end KeenPbr.AffectedUrltests
