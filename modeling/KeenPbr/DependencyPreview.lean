import KeenPbr.OutboundDelete

/-! What the dependency analysis announces is what the deletion does. -/
namespace KeenPbr.Documents

theorem toStringInj {a b : Nat} (same : toString a = toString b) : a = b := by
  have digits : ∀ n : Nat, Nat.ofDigitChars 10 (toString n).toList 0 = n := fun n => by simp
  rw [← digits a,← digits b,same]

section Adding
variable {references added : List DependencyReference} {reference : DependencyReference} {kind : DependencyDependentKind} {id : String}

theorem memAddReference {other : DependencyReference} : other ∈ addReference references reference ↔
    other ∈ references ∨ other = reference ∧ references.any reference.sameKey = false := by
  unfold addReference
  cases known : references.any reference.sameKey with
  | true => simp
  | false => simp

def DependencyReference.About (reference : DependencyReference) (kind : DependencyDependentKind) (id : String) : Prop :=
  reference.dependentKind = kind ∧ reference.dependentId = id

theorem sameKeyAbout {other : DependencyReference} (same : reference.sameKey other = true) :
    other.About kind id ↔ reference.About kind id := by
  unfold DependencyReference.sameKey at same
  simp only [Bool.and_eq_true,beq_iff_eq] at same
  unfold DependencyReference.About
  rw [same.1.1.2,same.1.2]

theorem aboutAdded : (∃ other ∈ addReferences references added, other.About kind id) ↔
    (∃ other ∈ references, other.About kind id) ∨ ∃ other ∈ added, other.About kind id := by
  unfold addReferences
  induction added generalizing references with
  | nil => simp
  | cons first rest ih =>
    rw [List.foldl_cons,ih]
    have one : (∃ other ∈ addReference references first, other.About kind id) ↔ (∃ other ∈ references, other.About kind id) ∨
      first.About kind id := by
      constructor
      · rintro ⟨other,mem,about⟩
        rcases memAddReference.mp mem with old | ⟨rfl,_⟩
        · exact .inl ⟨other,old,about⟩
        · exact .inr about
      · rintro (⟨other,old,about⟩ | about)
        · exact ⟨other,memAddReference.mpr (.inl old),about⟩
        · cases known : references.any first.sameKey with
          | true =>
            obtain ⟨other,old,same⟩ := List.any_eq_true.mp known
            exact ⟨other,memAddReference.mpr (.inl old),(sameKeyAbout same).mpr about⟩
          | false => exact ⟨first,memAddReference.mpr (.inr ⟨rfl,known⟩),about⟩
    rw [one,or_assoc]
    simp

theorem addedMem {other : DependencyReference} (mem : other ∈ addReferences references added) : other ∈ references ∨ other ∈ added := by
  unfold addReferences at mem
  induction added generalizing references with
  | nil => exact .inl mem
  | cons first rest ih =>
    rw [List.foldl_cons] at mem
    rcases ih mem with old | new
    · rcases memAddReference.mp old with old | ⟨rfl,_⟩
      · exact .inl old
      · exact .inr List.mem_cons_self
    · exact .inr (List.mem_cons_of_mem _ new)

theorem addedKeeps {other : DependencyReference} (mem : other ∈ references) : other ∈ addReferences references added := by
  unfold addReferences
  induction added generalizing references with
  | nil => exact mem
  | cons first rest ih => exact ih (memAddReference.mpr (.inl mem))

theorem addedNil : addReferences references added = [] ↔ references = [] ∧ added = [] := by
  constructor
  · intro none
    have empty : references = [] := by
      refine List.eq_nil_iff_forall_not_mem.mpr fun other mem => ?_
      have kept : other ∈ addReferences references added := addedKeeps mem
      rw [none] at kept
      cases kept
    refine ⟨empty,List.eq_nil_iff_forall_not_mem.mpr fun other mem => ?_⟩
    obtain ⟨found,inside,_⟩ := aboutAdded.mpr (.inr ⟨other,mem,rfl,rfl⟩)
    rw [none] at inside
    cases inside
  · rintro ⟨rfl,rfl⟩
    rfl

end Adding

def Marked (references : List DependencyReference) (kind : DependencyDependentKind) (id : String)
    (consequence : DependencyConsequence) : Prop :=
  ∃ reference ∈ references, reference.About kind id ∧ reference.consequence = consequence

section Marks
variable {references added : List DependencyReference} {kind other : DependencyDependentKind} {id name : String}
    {consequence : DependencyConsequence}

theorem markedElsewhere (elsewhere : ∀ reference ∈ added, ¬reference.About kind id) :
    Marked (addReferences references added) kind id consequence ↔ Marked references kind id consequence := by
  constructor
  · rintro ⟨reference,mem,about,is⟩
    exact ⟨reference,(addedMem mem).resolve_right fun new => elsewhere reference new about,about,is⟩
  · rintro ⟨reference,mem,about,is⟩
    exact ⟨reference,addedKeeps mem,about,is⟩

theorem markedFirst (none : ∀ reference ∈ references, ¬reference.About kind id)
    (uniform : ∀ reference ∈ added, reference.About kind id ∧ reference.consequence = consequence) {result : DependencyConsequence} :
    Marked (addReferences references added) kind id result ↔ added ≠ [] ∧ result = consequence := by
  constructor
  · rintro ⟨reference,mem,about,rfl⟩
    have new := (addedMem mem).resolve_left fun old => none reference old about
    exact ⟨List.ne_nil_of_mem new,(uniform reference new).2⟩
  · rintro ⟨some,rfl⟩
    obtain ⟨first,rest,shape⟩ := List.exists_cons_of_ne_nil some
    have inside : first ∈ added := by
      rw [shape]
      exact List.mem_cons_self
    obtain ⟨reference,mem,about⟩ := aboutAdded.mpr (.inr ⟨first,inside,(uniform first inside).1⟩)
    have new := (addedMem mem).resolve_left fun old => none reference old about
    exact ⟨reference,mem,about,(uniform reference new).2⟩

theorem deletedAbout {reference : DependencyReference} : (∃ before ∈ references, reference =
      if before.dependentKind = other ∧ before.dependentId = name ∧ before.relation = .usesList
        then { before with consequence := .delete } else before) ↔
    reference ∈ deleteListUser other name references := by
  unfold deleteListUser
  rw [List.mem_map]
  exact ⟨fun ⟨before,mem,same⟩ => ⟨before,mem,same.symm⟩,fun ⟨before,mem,same⟩ => ⟨before,mem,same.symm⟩⟩

theorem deletedElsewhere (elsewhere : ¬(kind = other ∧ id = name)) :
    Marked (deleteListUser other name references) kind id consequence ↔ Marked references kind id consequence := by
  constructor
  · rintro ⟨reference,mem,about,is⟩
    obtain ⟨before,old,rfl⟩ := deletedAbout.mpr mem
    split at about
    · rename_i here
      exact absurd ⟨about.1.symm.trans here.1,about.2.symm.trans here.2.1⟩ elsewhere
    · rename_i here
      rw [if_neg here] at is
      exact ⟨before,old,about,is⟩
  · rintro ⟨reference,mem,about,is⟩
    refine ⟨reference,deletedAbout.mp ⟨reference,mem,?_⟩,about,is⟩
    rw [if_neg fun here => elsewhere ⟨about.1.symm.trans here.1,about.2.symm.trans here.2.1⟩]

theorem deletedHere (users : ∀ reference ∈ references, reference.About kind id → reference.relation = .usesList) :
    Marked (deleteListUser kind id references) kind id consequence ↔ (∃ reference ∈ references, reference.About kind id) ∧
      consequence = .delete := by
  constructor
  · rintro ⟨reference,mem,about,rfl⟩
    obtain ⟨before,old,rfl⟩ := deletedAbout.mpr mem
    split at about
    · rename_i here
      rw [if_pos here]
      exact ⟨⟨before,old,here.1,here.2.1⟩,rfl⟩
    · rename_i here
      exact absurd ⟨about.1,about.2,users before old about⟩ here
  · rintro ⟨⟨reference,mem,about⟩,rfl⟩
    refine ⟨{ reference with consequence := .delete },deletedAbout.mp ⟨reference,mem,?_⟩,about,rfl⟩
    rw [if_pos ⟨about.1,about.2,users reference mem about⟩]

end Marks

section Steps
variable {kind other : DependencyDependentKind} {id name : String} {consequence : DependencyConsequence}
    {references : List DependencyReference}

def listStep (kind : DependencyDependentKind) (id : String) (uses : List DependencyReference) (whole : Bool)
    (references : List DependencyReference) :
    List DependencyReference :=
  let listed := addReferences references uses
  if whole then deleteListUser kind id listed else listed

structure Uses (kind : DependencyDependentKind) (id : String) (uses : List DependencyReference) : Prop where
  about : ∀ reference ∈ uses, reference.About kind id
  modify : ∀ reference ∈ uses, reference.consequence = .modify
  relation : ∀ reference ∈ uses, reference.relation = .usesList

theorem stepMarks {uses : List DependencyReference} {whole : Bool} (made : Uses kind id uses)
    (fresh : ∀ reference ∈ references, ¬reference.About kind id) :
    Marked (listStep kind id uses whole references) kind id consequence ↔ uses ≠ [] ∧ consequence = if whole then .delete else .modify := by
  unfold listStep
  have first : ∀ {result}, Marked (addReferences references uses) kind id result ↔ uses ≠ [] ∧ result = .modify :=
    markedFirst fresh fun reference mem => ⟨made.about reference mem,made.modify reference mem⟩
  cases whole with
  | false => exact first
  | true =>
    rw [if_pos rfl,deletedHere]
    · refine and_congr_left fun _ => ?_
      constructor
      · rintro ⟨reference,mem,about⟩
        exact List.ne_nil_of_mem ((addedMem mem).resolve_left fun old => fresh reference old about)
      · intro some
        obtain ⟨reference,mem,about,_⟩ := first.mpr ⟨some,rfl⟩
        exact ⟨reference,mem,about⟩
    · exact fun reference mem about => made.relation reference ((addedMem mem).resolve_left fun old => fresh reference old about)

theorem stepElsewhere {uses : List DependencyReference} {whole : Bool} (made : Uses kind id uses)
    (elsewhere : ¬(other = kind ∧ name = id)) :
    Marked (listStep kind id uses whole references) other name consequence ↔ Marked references other name consequence := by
  have added : Marked (addReferences references uses) other name consequence ↔ Marked references other name consequence := by
    refine markedElsewhere fun reference mem about => elsewhere ?_
    have here := made.about reference mem
    exact ⟨about.1.symm.trans here.1,about.2.symm.trans here.2⟩
  unfold listStep
  cases whole with
  | false => exact added
  | true =>
    rw [if_pos rfl,deletedElsewhere elsewhere]
    exact added

theorem aboutMarked : (∃ reference ∈ references, reference.About kind id) ↔ ∃ consequence, Marked references kind id consequence :=
  ⟨fun ⟨reference,mem,about⟩ => ⟨_,reference,mem,about,rfl⟩,fun ⟨_,reference,mem,about,_⟩ => ⟨reference,mem,about⟩⟩

variable {ρ : Type} {uses : ρ → Nat → List DependencyReference}

theorem otherKind (apart : other ≠ kind) (start : Nat) : ∀ index, start ≤ index → ¬(other = kind ∧ name = toString index) :=
  fun _ _ same => apart same.1

theorem foldElsewhere (whole : ρ → Bool) (made : ∀ rule index, Uses kind (toString index) (uses rule index)) (rules : List ρ) (start : Nat)
    (elsewhere : ∀ index, start ≤ index → ¬(other = kind ∧ name = toString index)) :
    Marked ((rules.zipIdx start).foldl
      (fun references entry => listStep kind (toString entry.2) (uses entry.1 entry.2) (whole entry.1) references) references)
      other name consequence ↔ Marked references other name consequence := by
  induction rules generalizing start references with
  | nil => rfl
  | cons rule rest ih =>
    rw [List.zipIdx_cons,List.foldl_cons,ih (start + 1) fun index later => elsewhere index (by omega)]
    exact stepElsewhere (made rule start) (elsewhere start (Nat.le_refl start))

theorem foldMarks (whole : ρ → Bool) (made : ∀ rule index, Uses kind (toString index) (uses rule index)) (rules : List ρ) (start : Nat)
    (fresh : ∀ index, start ≤ index → ∀ reference ∈ references, ¬reference.About kind (toString index)) (index : Nat)
    (consequence : DependencyConsequence) :
    Marked ((rules.zipIdx start).foldl
      (fun references entry => listStep kind (toString entry.2) (uses entry.1 entry.2) (whole entry.1) references) references)
        kind (toString (start + index)) consequence ↔
      ∃ rule, rules[index]? = some rule ∧ uses rule (start + index) ≠ [] ∧ consequence = if whole rule then .delete else .modify := by
  induction rules generalizing start references index with
  | nil =>
    rw [List.zipIdx_nil,List.foldl_nil]
    constructor
    · rintro ⟨reference,mem,about,_⟩
      exact absurd about (fresh _ (Nat.le_add_right start index) reference mem)
    · rintro ⟨rule,absent,_⟩
      cases absent
  | cons rule rest ih =>
    rw [List.zipIdx_cons,List.foldl_cons]
    dsimp only
    have apart : ∀ later, start + 1 ≤ later → ¬(kind = kind ∧ toString start = toString later) := by
      rintro later after ⟨_,same⟩
      have equal := toStringInj same
      omega
    cases index with
    | zero =>
      simp only [Nat.add_zero]
      refine (foldElsewhere whole made rest (start + 1) apart).trans
        ((stepMarks (made rule start) (fresh start (Nat.le_refl start))).trans ?_)
      simp
    | succ index =>
      have place : start + (index + 1) = start + 1 + index := by omega
      rw [place]
      refine (ih (start + 1) (fun later after reference mem about => ?_) index).trans ?_
      · obtain ⟨_,marked⟩ := aboutMarked.mp ⟨reference,mem,about⟩
        rw [stepElsewhere (made rule start) (fun same => apart later after ⟨rfl,same.2.symm⟩)] at marked
        obtain ⟨before,old,about,_⟩ := marked
        exact fresh later (by omega) before old about
      · simp

end Steps

section Lists
variable {ω : Type} {read : Readers ω} {doc : Document ω}

def goneLists (names list : List String) : List String := list.filter fun name => names.contains name

def routeUses (names : List String) (rule : RouteRule) (index : Nat) : List DependencyReference :=
  (goneLists names (routeRuleLists rule)).map fun name => routeReference .list name index .usesList .modify "list"

def routeWhole (names : List String) (rule : RouteRule) : Bool :=
  0 < (goneLists names (routeRuleLists rule)).length && (goneLists names (routeRuleLists rule)).length == (routeRuleLists rule).length &&
    !routeRuleHasNonListMatchCondition rule

def dnsUses (names : List String) (rule : DnsRule) (index : Nat) : List DependencyReference :=
  (goneLists names rule.list).map fun name => dnsReference .list name index .usesList .modify "list"

def dnsWhole (names : List String) (rule : DnsRule) : Bool :=
  0 < (goneLists names rule.list).length && (goneLists names rule.list).length == rule.list.length

theorem routeUsesMade (names : List String) (rule : RouteRule) (index : Nat) :
    Uses .routingRule (toString index) (routeUses names rule index) := by
  refine ⟨fun reference mem => ?_,fun reference mem => ?_,fun reference mem => ?_⟩
  all_goals
    obtain ⟨name,_,rfl⟩ := List.mem_map.mp mem
  · exact ⟨rfl,rfl⟩
  · rfl
  · rfl

theorem dnsUsesMade (names : List String) (rule : DnsRule) (index : Nat) : Uses .dnsRule (toString index) (dnsUses names rule index) := by
  refine ⟨fun reference mem => ?_,fun reference mem => ?_,fun reference mem => ?_⟩
  all_goals
    obtain ⟨name,_,rfl⟩ := List.mem_map.mp mem
  · exact ⟨rfl,rfl⟩
  · rfl
  · rfl

def listsOnly (names : List String) : Removed := ⟨names,[],[]⟩

theorem routeListStep (names : List String) (references : List DependencyReference) (entry : RouteRule × Nat) :
    routeRuleReferences (listsOnly names) references entry =
      listStep .routingRule (toString entry.2) (routeUses names entry.1 entry.2) (routeWhole names entry.1) references := by
  obtain ⟨rule,index⟩ := entry
  unfold routeRuleReferences
  dsimp only
  cases rule.fallbackOutbound with
  | none => rfl
  | some fallback =>
    dsimp only
    have kept : (rule.failurePolicy == some .fallback && (listsOnly names).outbounds.contains fallback) = false := Bool.and_false _
    rw [kept]
    rfl

def Document.dnsRules (doc : Document ω) : List DnsRule := (doc.dns.bind (·.rules)).getD []

theorem listRuleReferences (names : List String) : ruleReferences doc (listsOnly names) =
    doc.dnsRules.zipIdx.foldl (fun references entry => listStep .dnsRule (toString entry.2) (dnsUses names entry.1 entry.2)
      (dnsWhole names entry.1) references)
      (doc.rules.zipIdx.foldl (fun references entry => listStep .routingRule (toString entry.2) (routeUses names entry.1 entry.2)
        (routeWhole names entry.1) references) []) := by
  have routes : routeRuleReferences (listsOnly names) = fun references entry =>
    listStep .routingRule (toString entry.2) (routeUses names entry.1 entry.2) (routeWhole names entry.1) references :=
    funext fun references => funext fun entry => routeListStep names references entry
  unfold ruleReferences
  rw [routes]
  rfl

theorem routeMarks (names : List String) (index : Nat) (consequence : DependencyConsequence) :
    Marked (ruleReferences doc (listsOnly names)) .routingRule (toString index) consequence ↔
      ∃ rule, doc.rules[index]? = some rule ∧ goneLists names (routeRuleLists rule) ≠ [] ∧ consequence = if routeWhole names rule
        then .delete else .modify := by
  rw [listRuleReferences]
  have apart : DependencyDependentKind.routingRule ≠ .dnsRule := nofun
  refine (foldElsewhere (dnsWhole names) (dnsUsesMade names) doc.dnsRules 0 (otherKind apart 0)).trans ?_
  have fresh : ∀ later, 0 ≤ later → ∀ reference ∈ ([] : List DependencyReference), ¬reference.About .routingRule (toString later) :=
    fun _ _ _ absent => by cases absent
  have marks := foldMarks (routeWhole names) (routeUsesMade names) doc.rules 0 fresh index consequence
  simp only [Nat.zero_add] at marks
  refine marks.trans ?_
  simp [routeUses]

theorem dnsMarks (names : List String) (index : Nat) (consequence : DependencyConsequence) :
    Marked (ruleReferences doc (listsOnly names)) .dnsRule (toString index) consequence ↔
      ∃ rule, doc.dnsRules[index]? = some rule ∧ goneLists names rule.list ≠ [] ∧ consequence = if dnsWhole names rule
        then .delete else .modify := by
  rw [listRuleReferences]
  have fresh : ∀ later, 0 ≤ later → ∀ reference ∈ (doc.rules.zipIdx.foldl (fun references entry =>
    listStep .routingRule (toString entry.2) (routeUses names entry.1 entry.2) (routeWhole names entry.1) references) []),
    ¬reference.About .dnsRule (toString later) := by
    intro later _ reference mem about
    obtain ⟨_,marked⟩ := aboutMarked.mp ⟨reference,mem,about⟩
    have apart : DependencyDependentKind.dnsRule ≠ .routingRule := nofun
    obtain ⟨_,absent,_⟩ := (foldElsewhere (routeWhole names) (routeUsesMade names) doc.rules 0 (otherKind apart 0)).mp marked
    cases absent
  have marks := foldMarks (dnsWhole names) (dnsUsesMade names) doc.dnsRules 0 fresh index consequence
  simp only [Nat.zero_add] at marks
  refine marks.trans ?_
  simp [dnsUses]

def plainTargets (names : List String) : List ListDeleteTarget := names.map fun name => { listId := name }

def deletions (names : List String) : ReplacementMap := names.map fun name => (name,none)

theorem lookupDeletions {names : List String} {name : String} : (deletions names).lookup name = if name ∈ names
    then some none else none := by
  unfold deletions
  induction names with
  | nil => rfl
  | cons first rest ih =>
    rw [List.map_cons,List.lookup_cons]
    by_cases same : name = first
    · simp [same]
    · rw [beq_eq_false_iff_ne.mpr same]
      simpa [same] using ih

theorem rewriteDeletions (names list : List String) :
    (rewriteListReferences list (deletions names)).1 = list.filter fun name => !names.contains name := by
  unfold rewriteListReferences
  generalize list.filter (fun name => ((deletions names).lookup name).isNone) = retained
  have steps : ∀ (list inserted : List String), (rewriteFrom (deletions names) retained list inserted).1 = list.filter fun name =>
    !names.contains name := by
    intro list
    induction list with
    | nil => exact fun _ => rfl
    | cons name rest ih =>
      intro inserted
      rw [rewriteFrom,lookupDeletions]
      by_cases gone : name ∈ names
      · simp [gone,ih]
      · simp [gone,ih]
  exact steps list []

theorem goneAll {names list : List String} :
    (goneLists names list).length = list.length ↔ list.filter (fun name => !names.contains name) = [] := by
  unfold goneLists
  rw [List.length_filter_eq_length_iff,List.filter_eq_nil_iff]
  simp

theorem goneNone {names list : List String} : goneLists names list = [] ↔ list.filter (fun name => !names.contains name) = list := by
  unfold goneLists
  rw [List.filter_eq_nil_iff,List.filter_eq_self]
  simp

theorem routeFate (names : List String) (rule : RouteRule) :
    (rewriteRouteRule (deletions names) rule = none ↔ goneLists names (routeRuleLists rule) ≠ [] ∧ routeWhole names rule = true) ∧
      ((∃ kept, rewriteRouteRule (deletions names) rule = some kept ∧ kept ≠ rule) ↔ goneLists names (routeRuleLists rule) ≠ [] ∧
        routeWhole names rule = false) := by
  unfold rewriteRouteRule routeWhole
  cases listed : rule.list with
  | none =>
    have empty : routeRuleLists rule = [] := by
      rw [routeRuleLists,listed]
      rfl
    rw [empty]
    simp [goneLists]
  | some list =>
    have same : routeRuleLists rule = list := by
      rw [routeRuleLists,listed]
      rfl
    simp only [same,rewriteDeletions]
    by_cases none : goneLists names list = []
    · rw [goneNone.mp none,if_pos (beq_self_eq_true _)]
      simp [none]
    · have changed : list.filter (fun name => !names.contains name) ≠ list := fun equal => none (goneNone.mpr equal)
      have some : 0 < (goneLists names list).length := List.length_pos_iff.mpr none
      rw [if_neg (by simpa using changed)]
      by_cases whole : (goneLists names list).length = list.length
      · rw [goneAll.mp whole]
        cases routeRuleHasNonListMatchCondition rule with
        | false =>
          rw [whole] at some
          simp [none,whole,some]
        | true =>
          simp only [List.isEmpty_nil,Bool.not_true,Bool.and_false,Bool.false_eq_true,if_false,if_true]
          refine ⟨by simp,⟨fun _ => ⟨none,trivial⟩,fun _ => ⟨_,rfl,fun equal => ?_⟩⟩⟩
          have lists := congrArg RouteRule.list equal
          rw [listed] at lists
          cases lists
      · have left : list.filter (fun name => !names.contains name) ≠ [] := fun empty => whole (goneAll.mpr empty)
        have filled : (list.filter fun name => !names.contains name).isEmpty = false := by
          rw [Bool.eq_false_iff]
          exact fun empty => left (List.isEmpty_iff.mp empty)
        have part : ((goneLists names list).length == list.length) = false := beq_eq_false_iff_ne.mpr whole
        rw [filled,part]
        simp only [Bool.false_and,Bool.and_false,Bool.false_eq_true,if_false]
        refine ⟨by simp,⟨fun _ => ⟨none,trivial⟩,fun _ => ⟨_,rfl,fun equal => changed ?_⟩⟩⟩
        have lists := congrArg RouteRule.list equal
        rw [listed] at lists
        exact Option.some.inj lists

theorem dnsFate (names : List String) (rule : DnsRule) :
    (rewriteDnsRule (deletions names) rule = none ↔ goneLists names rule.list ≠ [] ∧ dnsWhole names rule = true) ∧
      ((∃ kept, rewriteDnsRule (deletions names) rule = some kept ∧ kept ≠ rule) ↔ goneLists names rule.list ≠ [] ∧
        dnsWhole names rule = false) := by
  unfold rewriteDnsRule dnsWhole
  simp only [rewriteDeletions]
  by_cases none : goneLists names rule.list = []
  · rw [goneNone.mp none,if_pos (beq_self_eq_true _)]
    simp [none]
  · have changed : rule.list.filter (fun name => !names.contains name) ≠ rule.list := fun equal => none (goneNone.mpr equal)
    have some : 0 < (goneLists names rule.list).length := List.length_pos_iff.mpr none
    rw [if_neg (by simpa using changed)]
    by_cases whole : (goneLists names rule.list).length = rule.list.length
    · rw [goneAll.mp whole]
      rw [whole] at some
      simp [none,whole,some]
    · have filled : (rule.list.filter fun name => !names.contains name).isEmpty = false := by
        rw [Bool.eq_false_iff]
        exact fun empty => whole (goneAll.mpr (List.isEmpty_iff.mp empty))
      have part : ((goneLists names rule.list).length == rule.list.length) = false := beq_eq_false_iff_ne.mpr whole
      rw [filled,part]
      simp only [Bool.and_false,Bool.false_eq_true,if_false]
      refine ⟨by simp,⟨fun _ => ⟨none,trivial⟩,fun _ => ⟨_,rfl,fun equal => changed (congrArg DnsRule.list equal)⟩⟩⟩

theorem plannedDeletions {names : List String} {plan : ListDeletePlan ω} (planned : planListDelete doc (plainTargets names) = .ok plan) :
    plan.config = rewrittenConfig doc (deletions names) := by
  unfold planListDelete at planned
  cases checked : validateTargets doc (plainTargets names) with
  | error message =>
    rw [checked] at planned
    cases planned
  | ok replacements =>
    have same : replacements = deletions names := by
      unfold validateTargets at checked
      split at checked
      · cases checked
      · split at checked
        · cases checked
        · cases emplace : emplaceTargets doc.listNames (plainTargets names) [] with
          | error message =>
            rw [emplace] at checked
            cases checked
          | ok entries =>
            rw [emplace] at checked
            dsimp only at checked
            split at checked
            · cases checked
            · cases checked
              rw [(emplaced emplace).1,List.nil_append,plainTargets,List.map_map]
              rfl
    rw [checked] at planned
    cases planned
    rw [same]

theorem rewrittenDocumentDns (replacements : ReplacementMap) :
    (rewrittenConfig doc replacements).dnsRules = doc.dnsRules.filterMap (rewriteDnsRule replacements) := by
  unfold Document.dnsRules rewrittenConfig rewrittenDns
  cases doc.dns with
  | none => rfl
  | some dns =>
    dsimp only [Option.map_some,Option.bind_some]
    cases dns.rules <;> rfl

def targetOf (kind : DependencyEntityKind) (id : String) : DependencyTarget := ⟨kind,id,false⟩

theorem requestedOk {kind : DependencyEntityKind} {ids seen : List String} {targets : List DependencyTarget}
    (ok : requestTargets doc (ids.map (targetOf kind)) (seen.map (targetOf kind)) = .ok targets) (distinct : seen.Nodup) :
    ∃ all : List String, targets = all.map (targetOf kind) ∧ all.Nodup ∧ ∀ id, id ∈ all ↔ id ∈ seen ∨ id ∈ ids := by
  induction ids generalizing seen with
  | nil =>
    rw [List.map_nil,requestTargets] at ok
    cases ok
    exact ⟨seen,rfl,distinct,fun id => by simp⟩
  | cons first rest ih =>
    rw [List.map_cons,requestTargets] at ok
    split at ok
    · cases ok
    · split at ok
      · cases ok
      · split at ok
        · rename_i known
          obtain ⟨all,shape,single,members⟩ := ih ok distinct
          refine ⟨all,shape,single,fun name => ?_⟩
          obtain ⟨target,mem,same⟩ := List.any_eq_true.mp known
          obtain ⟨other,inside,rfl⟩ := List.mem_map.mp mem
          rw [DependencyTarget.same,Bool.and_eq_true,beq_iff_eq,beq_iff_eq] at same
          have listed : first ∈ seen := by
            have equal : first = other := same.2
            rw [equal]
            exact inside
          rw [members,List.mem_cons]
          constructor
          · exact Or.imp id fun later => .inr later
          · rintro (old | rfl | later)
            · exact .inl old
            · exact .inl listed
            · exact .inr later
        · rename_i fresh
          have more : seen.map (targetOf kind) ++
            [⟨(targetOf kind first).kind,(targetOf kind first).id,false⟩] = (seen ++ [first]).map (targetOf kind) := by
            rw [List.map_append]
            rfl
          rw [more] at ok
          have apart : first ∉ seen := by
            intro mem
            refine fresh (List.any_eq_true.mpr ⟨targetOf kind first,List.mem_map_of_mem mem,?_⟩)
            rw [DependencyTarget.same,beq_self_eq_true,beq_self_eq_true]
            rfl
          obtain ⟨all,shape,single,members⟩ := ih ok (List.nodup_append.mpr ⟨distinct,List.nodup_singleton first,by
            rintro id mem other again rfl
            rw [List.mem_singleton.mp again] at mem
            exact apart mem⟩)
          refine ⟨all,shape,single,fun id => ?_⟩
          rw [members,List.mem_append,List.mem_singleton,List.mem_cons,or_assoc]

theorem analysisShape {kind : DependencyEntityKind} {ids : List String} {analysis : DependencyAnalysis}
    (analysed : analyzeDependencies doc (ids.map (targetOf kind)) = .ok analysis) :
    ∃ all : List String, analysis = analysisOf doc (all.map (targetOf kind)) ∧ all.Nodup ∧ ∀ id, id ∈ all ↔ id ∈ ids := by
  unfold analyzeDependencies at analysed
  split at analysed
  · cases analysed
  · cases requested : requestTargets doc (ids.map (targetOf kind)) [] with
    | error message =>
      rw [requested] at analysed
      cases analysed
    | ok targets =>
      have start : requestTargets doc (ids.map (targetOf kind)) (List.map (targetOf kind) []) = .ok targets := requested
      obtain ⟨all,shape,single,members⟩ := requestedOk start List.nodup_nil
      rw [requested,shape] at analysed
      cases analysed
      refine ⟨all,rfl,single,fun id => ?_⟩
      rw [members]
      simp

theorem idsOf (kind : DependencyEntityKind) (ids : List String) : removedIds kind (ids.map (targetOf kind)) = ids := by
  unfold removedIds
  rw [List.filter_eq_self.mpr,List.map_map]
  · exact List.map_id ids
  · intro target mem
    obtain ⟨id,_,rfl⟩ := List.mem_map.mp mem
    exact beq_self_eq_true kind

theorem idsOther {kind other : DependencyEntityKind} (apart : other ≠ kind) (ids : List String) :
    removedIds kind (ids.map (targetOf other)) = [] := by
  unfold removedIds
  rw [List.filter_eq_nil_iff.mpr,List.map_nil]
  intro target mem
  obtain ⟨id,_,rfl⟩ := List.mem_map.mp mem
  simpa [targetOf] using apart

theorem cascadeMarks (targets : List DependencyTarget) (references : List DependencyReference) {kind : DependencyDependentKind}
    {id : String}
    {consequence : DependencyConsequence} : Marked (references.map (withCascade targets)) kind id consequence ↔
      Marked references kind id consequence := by
  have same : ∀ reference : DependencyReference, (withCascade targets reference).dependentKind = reference.dependentKind ∧
      (withCascade targets reference).dependentId = reference.dependentId ∧
        (withCascade targets reference).consequence = reference.consequence := by
    intro reference
    unfold withCascade
    split
    · exact ⟨rfl,rfl,rfl⟩
    · exact ⟨rfl,rfl,rfl⟩
  unfold Marked DependencyReference.About
  constructor
  · rintro ⟨changed,mem,about,is⟩
    obtain ⟨reference,inside,rfl⟩ := List.mem_map.mp mem
    rw [(same reference).1,(same reference).2.1] at about
    rw [(same reference).2.2] at is
    exact ⟨reference,inside,about,is⟩
  · rintro ⟨reference,mem,about,is⟩
    refine ⟨_,List.mem_map_of_mem mem,?_,?_⟩
    · rw [(same reference).1,(same reference).2.1]
      exact about
    · rw [(same reference).2.2]
      exact is

theorem laterKinds (targets : List DependencyTarget) (removed : Removed) :
    ∀ reference ∈ laterReferences doc targets removed, reference.dependentKind ≠ .routingRule ∧ reference.dependentKind ≠ .dnsRule := by
  intro reference mem
  have download : ∀ {kind id path href detour fallbacks}, kind ≠ .routingRule ∧ kind ≠ .dnsRule →
      reference ∈ downloadReferences removed kind id path href detour fallbacks → reference.dependentKind ≠ .routingRule ∧
        reference.dependentKind ≠ .dnsRule := by
    intro kind id path href detour fallbacks apart inside
    rcases List.mem_append.mp inside with first | later
    · obtain ⟨_,_,rfl⟩ := List.mem_map.mp first
      exact apart
    · obtain ⟨_,_,rfl⟩ := List.mem_map.mp later
      exact apart
  unfold laterReferences at mem
  simp only [List.mem_append] at mem
  rcases mem with ((((server | fallback) | refresh) | list) | cascaded) | modified
  · obtain ⟨_,_,inside⟩ := List.mem_flatMap.mp server
    obtain ⟨_,_,rfl⟩ := List.mem_map.mp inside
    exact ⟨nofun,nofun⟩
  · obtain ⟨_,_,rfl⟩ := List.mem_map.mp fallback
    exact ⟨nofun,nofun⟩
  · obtain ⟨_,_,inside⟩ := List.mem_flatMap.mp refresh
    exact download (by decide) inside
  · obtain ⟨_,_,inside⟩ := List.mem_flatMap.mp list
    exact download (by decide) inside
  · obtain ⟨_,_,inside⟩ := List.mem_flatMap.mp cascaded
    unfold cascadedReferences at inside
    split at inside
    · obtain ⟨_,_,inside⟩ := List.mem_flatMap.mp inside
      obtain ⟨_,_,made⟩ := List.mem_filterMap.mp inside
      obtain ⟨_,_,rfl⟩ := Option.map_eq_some_iff.mp made
      exact ⟨nofun,nofun⟩
    · cases inside
  · obtain ⟨_,_,inside⟩ := List.mem_flatMap.mp modified
    unfold modifiedReferences at inside
    split at inside
    · cases inside
    · obtain ⟨_,_,inside⟩ := List.mem_flatMap.mp inside
      obtain ⟨_,_,rfl⟩ := List.mem_map.mp inside
      exact ⟨nofun,nofun⟩

theorem listAnalysisMarks (accepted : Accepted read doc) {names : List String} {kind : DependencyDependentKind}
    {id : String} {consequence : DependencyConsequence}
    (rules : kind = .routingRule ∨ kind = .dnsRule) : Marked (analysisOf doc (names.map (targetOf .list))).references kind id consequence ↔
      Marked (ruleReferences doc (listsOnly names)) kind id consequence := by
  have outbounds : removedIds .outbound (names.map (targetOf .list)) = [] := idsOther (by decide) names
  have servers : removedIds .dnsServer (names.map (targetOf .list)) = [] := idsOther (by decide) names
  unfold analysisOf
  dsimp only
  rw [cascadeMarks,outbounds,servers,idsOf,nothingRemoved accepted]
  refine markedElsewhere fun reference mem about => ?_
  have apart := laterKinds _ _ reference mem
  rcases rules with rfl | rfl
  · exact apart.1 about.1
  · exact apart.2 about.1

/- One rule, announced and done: deleted, or kept with a change. -/
def Announced {ρ : Type} (references : List DependencyReference) (kind : DependencyDependentKind) (rules : List ρ)
    (fate : ρ → Option ρ) : Prop :=
  ∀ (index : Nat) (rule : ρ), rules[index]? = some rule →
    (Marked references kind (toString index) .delete ↔ fate rule = none) ∧
    (Marked references kind (toString index) .modify ↔ ∃ kept, fate rule = some kept ∧ kept ≠ rule)

theorem announced {ρ : Type} {references : List DependencyReference} {kind : DependencyDependentKind} {rules : List ρ}
    {fate : ρ → Option ρ} {gone : ρ → Prop}
    {whole : ρ → Bool} (marks : ∀ (index : Nat) (consequence : DependencyConsequence), Marked references kind (toString index) consequence ↔
      ∃ rule, rules[index]? = some rule ∧ gone rule ∧ consequence = if whole rule then .delete else .modify)
    (fates : ∀ rule, (fate rule = none ↔ gone rule ∧ whole rule = true) ∧
    ((∃ kept, fate rule = some kept ∧ kept ≠ rule) ↔ gone rule ∧ whole rule = false)) :
    Announced references kind rules fate := by
  intro index rule here
  rw [marks,marks,(fates rule).1,(fates rule).2,here]
  simp only [Option.some.injEq,exists_eq_left']
  cases whole rule <;> simp

theorem listPreview (accepted : Accepted read doc) {names : List String} {plan : ListDeletePlan ω} {analysis : DependencyAnalysis}
    (planned : planListDelete doc (plainTargets names) = .ok plan)
    (analysed : analyzeDependencies doc (names.map (targetOf .list)) = .ok analysis) :
    (plan.config.rules = doc.rules.filterMap (rewriteRouteRule (deletions names)) ∧
        Announced analysis.references .routingRule doc.rules (rewriteRouteRule (deletions names))) ∧
      plan.config.dnsRules = doc.dnsRules.filterMap (rewriteDnsRule (deletions names)) ∧
        Announced analysis.references .dnsRule doc.dnsRules (rewriteDnsRule (deletions names)) := by
  obtain ⟨all,rfl,_,members⟩ := analysisShape analysed
  have same : ∀ list, goneLists all list = goneLists names list := by
    intro list
    refine List.filter_congr fun name _ => ?_
    rw [Bool.eq_iff_iff,List.contains_iff_mem,List.contains_iff_mem]
    exact members name
  have config := plannedDeletions planned
  refine ⟨⟨?_,?_⟩,?_,?_⟩
  · rw [config,rewrittenRules]
  · refine announced (fun index consequence => (listAnalysisMarks accepted (.inl rfl)).trans (routeMarks all index consequence))
      fun rule => ?_
    have fate := routeFate names rule
    unfold routeWhole at fate ⊢
    rw [same]
    exact fate
  · rw [config,rewrittenDocumentDns]
  · refine announced (fun index consequence => (listAnalysisMarks accepted (.inr rfl)).trans (dnsMarks all index consequence))
      fun rule => ?_
    have fate := dnsFate names rule
    unfold dnsWhole at fate ⊢
    rw [same]
    exact fate

end Lists

def Document.dnsServers {ω : Type} (doc : Document ω) : List DnsServer := (doc.dns.bind (·.servers)).getD []

structure Untouched {ω : Type} (doc : Document ω) (gone : List String) : Prop where
  rules : ∀ rule ∈ doc.rules, rule.outbound ∉ gone ∧
    (rule.failurePolicy = some .fallback → ∀ tag, rule.fallbackOutbound = some tag → tag ∉ gone)
  servers : ∀ server ∈ doc.dnsServers, ∀ tag, server.detour = some tag → tag ∉ gone
  lists : ∀ entry ∈ doc.listEntries, ∀ tag ∈ entry.2.detour.toList ++ entry.2.fallbacks, tag ∉ gone
  refresh : ∀ refresh, doc.listRefresh = some refresh → ∀ tag ∈ configuredListRefreshDetours refresh, tag ∉ gone
  groups : ∀ ob ∈ doc.outboundList, ob.type = .urltest → ob.tag ∉ gone → ∀ child ∈ Outbound.children ob, child ∉ gone

section Safe
variable {ω : Type} {read : Readers ω} {doc : Document ω} {gone : List String}

theorem Untouched.same {other : List String} (same : ∀ tag, tag ∈ other ↔ tag ∈ gone) (untouched : Untouched doc gone) :
    Untouched doc other := by
  refine ⟨fun rule mem => ?_,fun server mem tag named => ?_,fun entry mem tag named => ?_,fun refresh stated tag named =>
    ?_,fun ob mem group stays child named => ?_⟩
  · have before := untouched.rules rule mem
    refine ⟨fun inside => before.1 ((same _).mp inside),fun policy tag named inside => before.2 policy tag named ((same tag).mp inside)⟩
  · exact fun inside => untouched.servers server mem tag named ((same tag).mp inside)
  · exact fun inside => untouched.lists entry mem tag named ((same tag).mp inside)
  · exact fun inside => untouched.refresh refresh stated tag named ((same tag).mp inside)
  · exact fun inside => untouched.groups ob mem group (fun old => stays ((same _).mpr old)) child named ((same child).mp inside)

theorem addReferenceSome (references : List DependencyReference) (reference : DependencyReference) :
    addReference references reference ≠ [] := by
  intro none
  have empty := addedNil.mp (show addReferences references [reference] = [] from none)
  cases empty.2

def outboundsOnly (gone : List String) : Removed := ⟨[],gone,[]⟩

theorem routeStepNil {references : List DependencyReference} {rule : RouteRule} {index : Nat} :
    routeRuleReferences (outboundsOnly gone) references (rule,index) = [] ↔
      references = [] ∧ rule.outbound ∉ gone ∧
        (rule.failurePolicy = some .fallback → ∀ tag, rule.fallbackOutbound = some tag → tag ∉ gone) := by
  have none : (routeRuleLists rule).filter (fun name => (outboundsOnly gone).lists.contains name) = [] :=
    List.filter_eq_nil_iff.mpr fun _ _ absent => by cases absent
  unfold routeRuleReferences
  dsimp only
  rw [none]
  have base : (if (decide (0 < ([] : List String).length) && ([] : List String).length == (routeRuleLists rule).length &&
    !routeRuleHasNonListMatchCondition rule) = true then
      deleteListUser .routingRule (toString index) (addReferences references []) else addReferences references []) = references := rfl
  rw [List.map_nil,base]
  have contains : ∀ tag, (outboundsOnly gone).outbounds.contains tag = true ↔ tag ∈ gone := fun tag => List.contains_iff_mem
  have routed : (if (outboundsOnly gone).outbounds.contains rule.outbound = true then
      addReference references (routeReference .outbound rule.outbound index .routesTo .delete "outbound") else references) = [] ↔
      references = [] ∧ rule.outbound ∉ gone := by
    by_cases inside : rule.outbound ∈ gone
    · rw [if_pos ((contains _).mpr inside)]
      simp [inside,addReferenceSome]
    · rw [if_neg (mt (contains _).mp inside)]
      simp [inside]
  cases named : rule.fallbackOutbound with
  | none =>
    rw [← and_assoc,← routed]
    simp
  | some fallback =>
    dsimp only
    by_cases taken : (rule.failurePolicy == some .fallback && (outboundsOnly gone).outbounds.contains fallback) = true
    · rw [if_pos taken]
      rw [Bool.and_eq_true,beq_iff_eq,contains] at taken
      constructor
      · exact fun empty => absurd empty (addReferenceSome _ _)
      · exact fun ⟨_,_,clean⟩ => absurd taken.2 (clean taken.1 fallback rfl)
    · rw [if_neg taken,routed,← and_assoc]
      rw [Bool.and_eq_true,beq_iff_eq,contains] at taken
      refine ⟨fun both => ⟨both,fun policy tag same => ?_⟩,And.left⟩
      cases same
      exact fun inside => taken ⟨policy,inside⟩

theorem dnsStepSame (references : List DependencyReference) (entry : DnsRule × Nat) :
    dnsRuleReferences (outboundsOnly gone) references entry = references := by
  have none : entry.1.list.filter (fun name => (outboundsOnly gone).lists.contains name) = [] :=
    List.filter_eq_nil_iff.mpr fun _ _ absent => by cases absent
  unfold dnsRuleReferences
  dsimp only
  rw [none]
  rfl

theorem routesNil (rules : List RouteRule) (start : Nat) (references : List DependencyReference) :
    (rules.zipIdx start).foldl (routeRuleReferences (outboundsOnly gone)) references = [] ↔ references = [] ∧
      ∀ rule ∈ rules, rule.outbound ∉ gone ∧
        (rule.failurePolicy = some .fallback → ∀ tag, rule.fallbackOutbound = some tag → tag ∉ gone) := by
  induction rules generalizing start references with
  | nil => simp
  | cons rule rest ih => rw [List.zipIdx_cons,List.foldl_cons,ih,routeStepNil,List.forall_mem_cons,and_assoc]

theorem ruleReferencesNil : ruleReferences doc (outboundsOnly gone) = [] ↔
    ∀ rule ∈ doc.rules, rule.outbound ∉ gone ∧
      (rule.failurePolicy = some .fallback → ∀ tag, rule.fallbackOutbound = some tag → tag ∉ gone) := by
  unfold ruleReferences
  have still : ∀ (entries : List (DnsRule × Nat)) (references : List DependencyReference),
      entries.foldl (dnsRuleReferences (outboundsOnly gone)) references = references := by
    intro entries
    induction entries with
    | nil => exact fun _ => rfl
    | cons entry rest ih =>
      intro references
      rw [List.foldl_cons,dnsStepSame,ih]
  rw [still,routesNil]
  simp

theorem serverReferencesNil {servers : List DnsServer} :
    dnsServerReferences (outboundsOnly gone) servers = [] ↔ ∀ server ∈ servers, ∀ tag, server.detour = some tag → tag ∉ gone := by
  unfold dnsServerReferences outboundsOnly
  rw [List.flatMap_eq_nil_iff]
  refine forall_congr' fun server => forall_congr' fun _ => ?_
  rw [List.map_eq_nil_iff,List.filter_eq_nil_iff]
  simp

theorem downloadReferencesNil {kind : DependencyDependentKind} {id path href : String} {detour : Option String} {fallbacks : List String} :
    downloadReferences (outboundsOnly gone) kind id path href detour fallbacks = [] ↔ ∀ tag ∈ detour.toList ++ fallbacks, tag ∉ gone := by
  unfold downloadReferences outboundsOnly
  rw [List.append_eq_nil_iff,List.map_eq_nil_iff,List.map_eq_nil_iff,List.filter_eq_nil_iff,List.filter_eq_nil_iff,List.forall_mem_append]
  refine and_congr (by simp) ?_
  constructor
  · intro clean tag mem inside
    obtain ⟨place,at_place⟩ := List.mem_iff_getElem?.mp mem
    exact clean (tag,place) (List.mem_zipIdx_iff_getElem?.mpr at_place) (List.contains_iff_mem.mpr inside)
  · rintro clean ⟨tag,place⟩ mem inside
    exact clean tag (List.mem_iff_getElem?.mpr ⟨place,List.mem_zipIdx_iff_getElem?.mp mem⟩) (List.contains_iff_mem.mp inside)

theorem modifiedReferencesNil {ob : Outbound} : modifiedReferences (outboundsOnly gone) ob = [] ↔
    (ob.type = .urltest → ob.tag ∉ gone → ∀ child ∈ Outbound.children ob, child ∉ gone) := by
  have contains : ∀ tag, (outboundsOnly gone).outbounds.contains tag = true ↔ tag ∈ gone := fun tag => List.contains_iff_mem
  unfold modifiedReferences
  by_cases skipped : (ob.type != .urltest || (outboundsOnly gone).outbounds.contains ob.tag) = true
  · rw [if_pos skipped]
    rw [Bool.or_eq_true,bne_iff_ne,contains] at skipped
    simp only [true_iff]
    intro group stays
    rcases skipped with other | inside
    · exact absurd group other
    · exact absurd inside stays
  · rw [if_neg skipped]
    rw [Bool.or_eq_true,bne_iff_ne,contains,not_or,not_not] at skipped
    rw [List.flatMap_eq_nil_iff]
    simp only [skipped.1,skipped.2,not_false_eq_true,forall_const]
    unfold Outbound.children
    constructor
    · intro clean child mem inside
      obtain ⟨group,listed,member⟩ := List.mem_flatMap.mp mem
      obtain ⟨place,at_place⟩ := List.mem_iff_getElem?.mp listed
      have none := clean (group,place) (List.mem_zipIdx_iff_getElem?.mpr at_place)
      rw [List.map_eq_nil_iff,List.filter_eq_nil_iff] at none
      exact none child member ((contains child).mpr inside)
    · rintro clean ⟨group,place⟩ mem
      rw [List.map_eq_nil_iff,List.filter_eq_nil_iff]
      intro child member inside
      have listed := List.mem_iff_getElem?.mpr ⟨place,List.mem_zipIdx_iff_getElem?.mp mem⟩
      exact clean child (List.mem_flatMap.mpr ⟨group,listed,member⟩) ((contains child).mp inside)

theorem uncascaded {targets : List DependencyTarget} (none : ∀ target ∈ targets, target.cascaded = false) (ob : Outbound) :
    cascadedReferences targets ob = [] := by
  unfold cascadedReferences
  split
  · rename_i found
    obtain ⟨target,mem,is⟩ := List.any_eq_true.mp found
    rw [Bool.and_eq_true,none target mem] at is
    cases is.2
  · rfl

theorem laterReferencesNil {targets : List DependencyTarget} (none : ∀ target ∈ targets, target.cascaded = false) :
    laterReferences doc targets (outboundsOnly gone) = [] ↔
      (∀ server ∈ doc.dnsServers, ∀ tag, server.detour = some tag → tag ∉ gone) ∧
      (∀ refresh, doc.listRefresh = some refresh → ∀ tag ∈ configuredListRefreshDetours refresh, tag ∉ gone) ∧
      (∀ entry ∈ doc.listEntries, ∀ tag ∈ entry.2.detour.toList ++ entry.2.fallbacks, tag ∉ gone) ∧
      ∀ ob ∈ doc.outboundList, ob.type = .urltest → ob.tag ∉ gone → ∀ child ∈ Outbound.children ob, child ∉ gone := by
  have fallback : ∀ tags, dnsFallbackReferences (outboundsOnly gone) tags = [] := by
    intro tags
    unfold dnsFallbackReferences outboundsOnly
    rw [List.map_eq_nil_iff,List.filter_eq_nil_iff]
    exact fun _ _ absent => by cases absent
  have cascade : doc.outboundList.flatMap (cascadedReferences targets) = [] := List.flatMap_eq_nil_iff.mpr fun ob _ => uncascaded none ob
  unfold laterReferences listReferences listRefreshReferences
  rw [fallback,cascade]
  simp only [List.append_nil,List.append_eq_nil_iff,List.flatMap_eq_nil_iff,downloadReferencesNil,modifiedReferencesNil,
    Option.mem_toList,and_assoc]
  refine and_congr serverReferencesNil ?_
  rfl

theorem untouchedIff {targets : List DependencyTarget} (none : ∀ target ∈ targets, target.cascaded = false) :
    addReferences (ruleReferences doc (outboundsOnly gone)) (laterReferences doc targets (outboundsOnly gone)) = [] ↔
      Untouched doc gone := by
  rw [addedNil,ruleReferencesNil,laterReferencesNil none]
  exact ⟨fun ⟨rules,servers,refresh,lists,groups⟩ => ⟨rules,servers,lists,refresh,groups⟩,
    fun clean => ⟨clean.rules,clean.servers,clean.refresh,clean.lists,clean.groups⟩⟩

theorem removedStarts (doc : Document ω) (tags : List String) : ∃ taken, removedOutbounds doc.outboundList tags = tags ++ taken :=
  Chaining.saturateGrows (·.tag) emptied doc.outboundList (doc.outboundList.length + 1) tags

/- A deletion of outbounds is announced as safe exactly when no group goes with them and nothing names them. -/
theorem safeIff {tags : List String} (distinct : tags.Nodup) : (analysisOf doc (tags.map (targetOf .outbound))).safeToDelete = true ↔
    (∀ tag ∈ removedOutbounds doc.outboundList tags, tag ∈ tags) ∧ Untouched doc (removedOutbounds doc.outboundList tags) := by
  have lists : removedIds .list (tags.map (targetOf .outbound)) = [] := idsOther (by decide) tags
  have servers : removedIds .dnsServer (tags.map (targetOf .outbound)) = [] := idsOther (by decide) tags
  obtain ⟨taken,shape⟩ := removedStarts doc tags
  have single : (tags ++ taken).Nodup := shape ▸ Chaining.saturateNodup distinct
  have cascade : cascadedTargets doc.outboundList tags = taken.map fun tag => ⟨.outbound,tag,true⟩ := by
    unfold cascadedTargets
    rw [shape,List.drop_left]
  have more : (∀ tag ∈ removedOutbounds doc.outboundList tags, tag ∈ tags) ↔ taken = [] := by
    rw [shape]
    constructor
    · intro all
      refine List.eq_nil_iff_forall_not_mem.mpr fun tag mem => ?_
      exact (List.nodup_append.mp single).2.2 tag (all tag (List.mem_append_right _ mem)) tag mem rfl
    · rintro rfl tag mem
      simpa using mem
  unfold analysisOf
  dsimp only
  rw [idsOf,lists,servers,Bool.and_eq_true,List.isEmpty_iff,more,cascade]
  have plain : ∀ target ∈ tags.map (targetOf .outbound), target.cascaded = false := by
    intro target mem
    obtain ⟨tag,_,rfl⟩ := List.mem_map.mp mem
    rfl
  constructor
  · rintro ⟨none,all⟩
    have empty : taken = [] := by
      refine List.eq_nil_iff_forall_not_mem.mpr fun tag mem => ?_
      have bad := List.all_eq_true.mp all _ (List.mem_append_right _ (List.mem_map_of_mem mem))
      cases bad
    rw [empty,List.map_nil,List.append_nil] at none
    exact ⟨empty,(untouchedIff plain).mp none⟩
  · rintro ⟨empty,untouched⟩
    rw [empty,List.map_nil,List.append_nil]
    refine ⟨(untouchedIff plain).mpr untouched,List.all_eq_true.mpr fun target mem => ?_⟩
    rw [plain target mem]
    rfl

end Safe

section Unchanged
variable {ω : Type} {read : Readers ω} {doc : Document ω} {gone : List String}

theorem keptAllIff {α : Type} {keep : α → Bool} {change : α → α} {items : List α} :
    (items.filter keep).map change = items ↔ ∀ item ∈ items, keep item = true ∧ change item = item := by
  induction items with
  | nil => simp
  | cons item rest ih =>
    rw [List.filter_cons,List.forall_mem_cons]
    cases kept : keep item with
    | true =>
      rw [if_pos rfl,List.map_cons,List.cons.injEq,ih]
      simp
    | false =>
      rw [if_neg Bool.false_ne_true]
      constructor
      · intro same
        have long := congrArg List.length same
        rw [List.length_map,List.length_cons] at long
        have short := List.length_filter_le keep rest
        omega
      · exact fun ⟨⟨absent,_⟩,_⟩ => by cases absent

theorem changedNoneIff {α : Type} {change : α → α} {items : List α} : items.map change = items ↔ ∀ item ∈ items, change item = item := by
  have all : (items.filter fun _ => true).map change = items ↔ ∀ item ∈ items, true = true ∧ change item = item := keptAllIff
  simpa using all

theorem mapSame {α : Type} {stored : Option (List α)} {change : List α → List α} (none : change [] = []) :
    stored.map change = stored ↔ change (stored.getD []) = stored.getD [] := by
  cases stored with
  | none => simp [none]
  | some items => simp

theorem fallbackSame {rule : RouteRule} : withoutFallback gone rule = rule ↔
    (rule.failurePolicy = some .fallback → ∀ tag, rule.fallbackOutbound = some tag → tag ∉ gone) := by
  constructor
  · intro same
    rcases fallbackKept rule with ⟨_,clean⟩ | ⟨changed,policy⟩
    · exact clean
    · have block := congrArg RouteRule.failurePolicy (changed.symm.trans same)
      rw [policy] at block
      cases block
  · intro clean
    unfold withoutFallback
    rw [if_neg]
    intro taken
    rw [Bool.and_eq_true,beq_iff_eq] at taken
    cases named : rule.fallbackOutbound with
    | none =>
      rw [named] at taken
      cases taken.2
    | some tag =>
      rw [named] at taken
      exact clean taken.1 tag named (by simpa using taken.2)

theorem detourGone {detour : Option String} : detour.any gone.contains = true ↔ ∃ tag, detour = some tag ∧ tag ∈ gone := by
  cases detour <;> simp

theorem detourSame {server : DnsServer} : withoutDetour gone server = server ↔ ∀ tag, server.detour = some tag → tag ∉ gone := by
  unfold withoutDetour
  constructor
  · intro same tag named inside
    rw [if_pos (detourGone.mpr ⟨tag,named,inside⟩)] at same
    have none := congrArg DnsServer.detour same
    rw [named] at none
    cases none
  · intro clean
    rw [if_neg]
    intro taken
    obtain ⟨tag,named,inside⟩ := detourGone.mp taken
    exact clean tag named inside

theorem fallbacksSame {fallbacks : Option (List String)} :
    removeFallbackDetours fallbacks gone = fallbacks ↔ ∀ tag ∈ fallbacks.getD [], tag ∉ gone := by
  have kept : ∀ tags : List String, (tags.filter fun tag => !gone.contains tag) = tags ↔ ∀ tag ∈ tags, tag ∉ gone := by
    intro tags
    rw [List.filter_eq_self]
    simp
  constructor
  · intro same
    rw [← kept,← removedFallbacks,same]
  · intro clean
    cases fallbacks with
    | none => rfl
    | some tags =>
      unfold removeFallbackDetours
      dsimp only
      rw [(kept tags).mpr clean]
      simp

theorem listSame {list : ListConfig} : withoutListDetours gone list = list ↔ ∀ tag ∈ list.detour.toList ++ list.fallbacks, tag ∉ gone := by
  rw [List.forall_mem_append]
  unfold withoutListDetours
  by_cases taken : list.detour.any gone.contains = true
  · obtain ⟨tag,named,inside⟩ := detourGone.mp taken
    rw [if_pos taken]
    constructor
    · intro same
      have none := congrArg ListConfig.detour same
      rw [named] at none
      cases none
    · exact fun clean => absurd inside (clean.1 tag (by rw [named]; exact List.mem_cons_self))
  · rw [if_neg taken]
    have clean : ∀ tag ∈ list.detour.toList, tag ∉ gone := fun tag named inside =>
      taken (detourGone.mpr ⟨tag,Option.mem_toList.mp named,inside⟩)
    constructor
    · exact fun same => ⟨clean,fallbacksSame.mp (congrArg ListConfig.fallbackDetours same)⟩
    · exact fun both => by rw [fallbacksSame.mpr both.2]

theorem refreshSame {refresh : ListRefreshConfig} :
    withoutRefreshDetours gone refresh = refresh ↔ ∀ tag ∈ configuredListRefreshDetours refresh, tag ∉ gone := by
  unfold configuredListRefreshDetours
  rw [List.forall_mem_append]
  unfold withoutRefreshDetours
  by_cases taken : refresh.detour.any gone.contains = true
  · obtain ⟨tag,named,inside⟩ := detourGone.mp taken
    rw [if_pos taken]
    constructor
    · intro same
      have none := congrArg ListRefreshConfig.detour same
      rw [named] at none
      cases none
    · exact fun clean => absurd inside (clean.1 tag (by rw [named]; exact List.mem_cons_self))
  · rw [if_neg taken]
    have clean : ∀ tag ∈ refresh.detour.toList, tag ∉ gone := fun tag named inside =>
      taken (detourGone.mpr ⟨tag,Option.mem_toList.mp named,inside⟩)
    constructor
    · exact fun same => ⟨clean,fallbacksSame.mp (congrArg ListRefreshConfig.fallbackDetours same)⟩
    · exact fun both => by rw [fallbacksSame.mpr both.2]

theorem membersSame {ob : Outbound} (filled : ob.type = .urltest → ∀ group ∈ ob.outboundGroups.getD [], group.outbounds ≠ []) :
    withoutMembers gone ob = ob ↔ (ob.type = .urltest → ∀ child ∈ Outbound.children ob, child ∉ gone) := by
  by_cases group : ob.type = .urltest
  · simp only [group,forall_const] at filled ⊢
    constructor
    · intro same child mem inside
      have kept : Outbound.children (withoutMembers gone ob) = (Outbound.children ob).filter fun tag => !gone.contains tag :=
        childrenKept group
      rw [same] at kept
      rw [kept] at mem
      simpa [inside] using (List.mem_filter.mp mem).2
    · intro clean
      rw [withoutMembersGroup group]
      cases listed : ob.outboundGroups with
      | none =>
        rw [Option.map_none,← listed]
      | some groups =>
        rw [listed] at filled
        have same : keptGroups gone groups = groups := by
          unfold keptGroups
          have each : (groups.map fun group => { group with outbounds := group.outbounds.filter fun tag => !gone.contains tag })
            = groups := by
            refine changedNoneIff.mpr fun group mem => ?_
            have members : (group.outbounds.filter fun tag => !gone.contains tag) = group.outbounds := by
              refine List.filter_eq_self.mpr fun tag inside => ?_
              have stays := clean tag (List.mem_flatMap.mpr ⟨group,by rw [listed]; exact mem,inside⟩)
              simpa using stays
            rw [members]
          rw [each,List.filter_eq_self]
          intro group mem
          simpa using filled group mem
        rw [Option.map_some,same,← listed]
  · simp only [group,false_implies,iff_true]
    unfold withoutMembers
    rw [if_pos (by simpa using group)]

def withoutRequested (doc : Document ω) (tags : List String) : Document ω :=
  { doc with outbounds := doc.outbounds.map (·.filter fun ob => !tags.contains ob.tag) }

theorem rulesSame : (withoutOutbounds doc gone).routeRules = doc.routeRules ↔
    ∀ rule ∈ doc.rules, rule.outbound ∉ gone ∧
      (rule.failurePolicy = some .fallback → ∀ tag, rule.fallbackOutbound = some tag → tag ∉ gone) := by
  change doc.routeRules.map _ = _ ↔ _
  rw [mapSame rfl,keptAllIff]
  refine forall_congr' fun rule => forall_congr' fun _ => ?_
  rw [fallbackSame]
  simp

theorem dnsSame : (withoutOutbounds doc gone).dns = doc.dns ↔ ∀ server ∈ doc.dnsServers, ∀ tag, server.detour = some tag → tag ∉ gone := by
  change doc.dns.map _ = _ ↔ _
  unfold Document.dnsServers
  cases doc.dns with
  | none => simp
  | some dns =>
    have servers : dns.servers.map (·.map (withoutDetour gone)) = dns.servers ↔
      ∀ server ∈ dns.servers.getD [], ∀ tag, server.detour = some tag → tag ∉ gone := by
      rw [mapSame rfl,changedNoneIff]
      exact forall_congr' fun server => forall_congr' fun _ => detourSame
    rw [Option.bind_some,← servers,Option.map_some,Option.some.injEq]
    exact ⟨congrArg DnsConfig.servers,fun same => by rw [same]⟩

theorem listsSame : (withoutOutbounds doc gone).lists = doc.lists ↔
    ∀ entry ∈ doc.listEntries, ∀ tag ∈ entry.2.detour.toList ++ entry.2.fallbacks, tag ∉ gone := by
  change doc.lists.map _ = _ ↔ _
  rw [mapSame rfl,changedNoneIff]
  refine forall_congr' fun entry => forall_congr' fun _ => ?_
  rw [← listSame]
  exact ⟨congrArg Prod.snd,fun same => by rw [same]⟩

theorem refreshDocumentSame : (withoutOutbounds doc gone).listRefresh = doc.listRefresh ↔
    ∀ refresh, doc.listRefresh = some refresh → ∀ tag ∈ configuredListRefreshDetours refresh, tag ∉ gone := by
  change doc.listRefresh.map _ = _ ↔ _
  cases doc.listRefresh with
  | none => simp
  | some refresh => simpa using refreshSame

theorem outboundsSame (accepted : Accepted read doc) {tags : List String} (starts : ∀ tag ∈ tags, tag ∈ gone)
    (within : ∀ tag ∈ gone, tag ∈ doc.outboundList.map (·.tag)) :
    (withoutOutbounds doc gone).outbounds = (withoutRequested doc tags).outbounds ↔ (∀ tag ∈ gone, tag ∈ tags) ∧
      ∀ ob ∈ doc.outboundList, ob.type = .urltest → ob.tag ∉ gone → ∀ child ∈ Outbound.children ob, child ∉ gone := by
  have filled : ∀ ob ∈ doc.outboundList, ob.type = .urltest → ∀ group ∈ ob.outboundGroups.getD [], group.outbounds ≠ [] :=
    fun ob mem type group inside => ((urltestGroups (accepted.outbounds ob mem) type).each group inside).1
  have lists : (withoutOutbounds doc gone).outbounds = (withoutRequested doc tags).outbounds ↔
      (doc.outboundList.filter fun ob => !gone.contains ob.tag).map (withoutMembers gone) = doc.outboundList.filter fun ob =>
        !tags.contains ob.tag := by
    unfold withoutOutbounds withoutRequested Document.outboundList
    cases doc.outbounds with
    | none => simp
    | some outbounds => simp
  rw [lists]
  constructor
  · intro same
    have only : ∀ tag ∈ gone, tag ∈ tags := by
      intro tag inside
      by_contra other
      have names := congrArg (List.map (·.tag)) same
      rw [← keptOutbounds,keptTags] at names
      obtain ⟨ob,mem,rfl⟩ := List.mem_map.mp (within tag inside)
      have stays : ob.tag ∈ (doc.outboundList.filter fun ob => !tags.contains ob.tag).map (·.tag) :=
        List.mem_map.mpr ⟨ob,List.mem_filter.mpr ⟨mem,by simpa using other⟩,rfl⟩
      rw [← names,List.mem_filter] at stays
      simpa [inside] using stays.2
    have equal : (doc.outboundList.filter fun ob => !tags.contains ob.tag) = doc.outboundList.filter fun ob => !gone.contains ob.tag := by
      refine List.filter_congr fun ob _ => ?_
      have mem : ob.tag ∈ tags ↔ ob.tag ∈ gone := ⟨starts ob.tag,only ob.tag⟩
      simp [mem]
    rw [equal] at same
    refine ⟨only,fun ob mem group stays => ?_⟩
    have unchanged := changedNoneIff.mp same ob (List.mem_filter.mpr ⟨mem,by simpa using stays⟩)
    exact (membersSame (filled ob mem)).mp unchanged group
  · rintro ⟨only,clean⟩
    have equal : (doc.outboundList.filter fun ob => !tags.contains ob.tag) = doc.outboundList.filter fun ob => !gone.contains ob.tag := by
      refine List.filter_congr fun ob _ => ?_
      have mem : ob.tag ∈ tags ↔ ob.tag ∈ gone := ⟨starts ob.tag,only ob.tag⟩
      simp [mem]
    rw [equal]
    refine changedNoneIff.mpr fun ob mem => ?_
    obtain ⟨listed,stays⟩ := List.mem_filter.mp mem
    exact (membersSame (filled ob listed)).mpr fun group => clean ob listed group (by simpa using stays)

theorem unchangedIff (accepted : Accepted read doc) {tags : List String} (starts : ∀ tag ∈ tags, tag ∈ gone)
    (within : ∀ tag ∈ gone, tag ∈ doc.outboundList.map (·.tag)) :
    withoutOutbounds doc gone = withoutRequested doc tags ↔ (∀ tag ∈ gone, tag ∈ tags) ∧ Untouched doc gone := by
  constructor
  · intro same
    obtain ⟨only,groups⟩ := (outboundsSame accepted starts within).mp (congrArg Document.outbounds same)
    have rules : (withoutOutbounds doc gone).routeRules = doc.routeRules := by
      rw [same]
      rfl
    have dns : (withoutOutbounds doc gone).dns = doc.dns := by
      rw [same]
      rfl
    have lists : (withoutOutbounds doc gone).lists = doc.lists := by
      rw [same]
      rfl
    have refresh : (withoutOutbounds doc gone).listRefresh = doc.listRefresh := by
      rw [same]
      rfl
    exact ⟨only,rulesSame.mp rules,dnsSame.mp dns,listsSame.mp lists,refreshDocumentSame.mp refresh,groups⟩
  · rintro ⟨only,untouched⟩
    have outbounds := (outboundsSame accepted starts within).mpr ⟨only,untouched.groups⟩
    have rules := rulesSame.mpr untouched.rules
    have dns := dnsSame.mpr untouched.servers
    have lists := listsSame.mpr untouched.lists
    have refresh := refreshDocumentSame.mpr untouched.refresh
    unfold withoutOutbounds at outbounds rules dns lists refresh ⊢
    dsimp only at outbounds rules dns lists refresh
    rw [outbounds,rules,dns,lists,refresh]
    rfl

theorem removedSame {tags others : List String} (single : tags.Nodup) (singles : others.Nodup)
    (within : ∀ tag ∈ tags, tag ∈ doc.outboundList.map (·.tag)) (same : ∀ tag, tag ∈ others ↔ tag ∈ tags) :
    ∀ tag, tag ∈ removedOutbounds doc.outboundList others ↔ tag ∈ removedOutbounds doc.outboundList tags := by
  have least := closureLeast single within
  have other := closureLeast singles fun tag mem => within tag ((same tag).mp mem)
  have sets : Chaining.Closed (·.tag) (fun gone ob => ob.type = .urltest ∧ ∀ child ∈ Outbound.children ob, child ∈ gone)
    doc.outboundList others =
      Chaining.Closed (·.tag) (fun gone ob => ob.type = .urltest ∧ ∀ child ∈ Outbound.children ob, child ∈ gone) doc.outboundList tags := by
    ext gone
    exact and_congr_left fun _ => forall_congr' fun tag => imp_congr_left (same tag)
  rw [sets] at other
  intro tag
  exact Set.ext_iff.mp (other.unique least) tag

theorem outboundPreview (accepted : Accepted read doc) {tags : List String} {analysis : DependencyAnalysis} {result : Document ω}
    (deletable : ∀ tag ∈ tags, ∃ ob ∈ doc.outboundList, (ob.type = .interface ∨ ob.type = .urltest) ∧ ob.tag = tag)
    (analysed : analyzeDependencies doc (tags.map (targetOf .outbound)) = .ok analysis)
    (removed : removeOutboundDependencies doc tags = .ok result) :
    analysis.safeToDelete = true ↔ result = withoutRequested doc tags := by
  obtain ⟨all,rfl,single,members⟩ := analysisShape analysed
  have distinct := (duplicateTagsNil.mp accepted.tags).1
  have asked : ∀ tag, tag ∈ deletableTags doc tags ↔ tag ∈ tags := by
    intro tag
    rw [memDeletable]
    constructor
    · rintro ⟨ob,_,_,mem,rfl⟩
      exact mem
    · intro mem
      obtain ⟨ob,listed,type,rfl⟩ := deletable tag mem
      exact ⟨ob,listed,type,mem,rfl⟩
  have some : deletableTags doc tags ≠ [] := by
    intro none
    have empty : tags = [] := List.eq_nil_iff_forall_not_mem.mpr fun tag mem => by
      have inside := (asked tag).mpr mem
      rw [none] at inside
      cases inside
    rw [empty] at analysed
    cases analysed
  have same := removedSame (deletableNodup distinct tags) single (deletableWithin tags) fun tag => (members tag).trans (asked tag).symm
  rw [removedResult accepted,if_neg some] at removed
  cases removed
  rw [safeIff single,unchangedIff accepted (fun tag mem => ?_) (removedWithin tags)]
  · refine and_congr ?_ ⟨Untouched.same fun tag => (same tag).symm,Untouched.same same⟩
    exact forall_congr' fun tag => imp_congr (same tag) (members tag)
  · obtain ⟨taken,shape⟩ := removedStarts doc (deletableTags doc tags)
    rw [shape]
    exact List.mem_append_left _ ((asked tag).mpr mem)

theorem requestedTotal {kind : DependencyEntityKind} {ids : List String}
    (known : ∀ id ∈ ids, id ≠ "" ∧ targetExists doc (targetOf kind id) = true)
    (seen : List DependencyTarget) : ∃ targets, requestTargets doc (ids.map (targetOf kind)) seen = .ok targets := by
  induction ids generalizing seen with
  | nil => exact ⟨seen,rfl⟩
  | cons first rest ih =>
    obtain ⟨⟨filled,present⟩,later⟩ := List.forall_mem_cons.mp known
    have named : (targetOf kind first).id.isEmpty = false := by simpa [targetOf] using filled
    rw [List.map_cons,requestTargets,named,present]
    simp only [Bool.false_eq_true,if_false,Bool.not_true]
    split
    · exact ih later seen
    · exact ih later _

theorem analysisTotal {kind : DependencyEntityKind} {ids : List String} (some : ids ≠ [])
    (known : ∀ id ∈ ids, id ≠ "" ∧ targetExists doc (targetOf kind id) = true) :
    ∃ analysis, analyzeDependencies doc (ids.map (targetOf kind)) = .ok analysis := by
  obtain ⟨targets,ok⟩ := requestedTotal known []
  have filled : (ids.map (targetOf kind)).isEmpty = false := by simpa using some
  refine ⟨analysisOf doc targets,?_⟩
  unfold analyzeDependencies
  rw [filled,if_neg Bool.false_ne_true,ok]
  rfl

theorem plannedTargets {targets : List ListDeleteTarget} {plan : ListDeletePlan ω} (planned : planListDelete doc targets = .ok plan) :
    targets ≠ [] ∧ ∀ target ∈ targets, target.listId ∈ doc.listNames := by
  obtain ⟨replacements,replaced,_⟩ := plannedReplacing planned
  refine ⟨?_,fun target mem => replaced.listed _ (List.mem_map_of_mem mem)⟩
  rintro rfl
  cases planned

/- The preview of a deletion of lists names the rules that go and the rules that change; the preview of a deletion
of interfaces and groups is safe exactly when nothing else of the document changes. -/
theorem previewAgrees (accepted : validateDocument read doc = []) :
    (∀ names plan, planListDelete doc (plainTargets names) = .ok plan →
      ∃ analysis, analyzeDependencies doc (names.map (targetOf .list)) = .ok analysis ∧
      (plan.config.rules = doc.rules.filterMap (rewriteRouteRule (deletions names)) ∧
        Announced analysis.references .routingRule doc.rules (rewriteRouteRule (deletions names))) ∧
      plan.config.dnsRules = doc.dnsRules.filterMap (rewriteDnsRule (deletions names)) ∧
        Announced analysis.references .dnsRule doc.dnsRules (rewriteDnsRule (deletions names))) ∧
    ∀ tags, tags ≠ [] → (∀ tag ∈ tags, ∃ ob ∈ doc.outboundList, (ob.type = .interface ∨ ob.type = .urltest) ∧ ob.tag = tag) →
      ∃ analysis result, analyzeDependencies doc (tags.map (targetOf .outbound)) = .ok analysis ∧
        removeOutboundDependencies doc tags = .ok result ∧
        (analysis.safeToDelete = true ↔ result = withoutRequested doc tags) := by
  have clean := acceptedIff.mp accepted
  constructor
  · intro names plan planned
    obtain ⟨some,listed⟩ := plannedTargets planned
    have known : ∀ name ∈ names, name ≠ "" ∧ targetExists doc (targetOf .list name) = true := by
      intro name mem
      have inside := listed { listId := name } (List.mem_map_of_mem mem)
      refine ⟨?_,List.contains_iff_mem.mpr inside⟩
      rintro rfl
      cases listValid clean "" inside
    obtain ⟨analysis,analysed⟩ := analysisTotal (fun empty => some (by rw [empty]; rfl)) known
    exact ⟨analysis,analysed,listPreview clean planned analysed⟩
  · intro tags some deletable
    have known : ∀ tag ∈ tags, tag ≠ "" ∧ targetExists doc (targetOf .outbound tag) = true := by
      intro tag mem
      obtain ⟨ob,listed,_,rfl⟩ := deletable tag mem
      exact ⟨tagFilled clean (List.mem_map_of_mem listed),List.any_eq_true.mpr ⟨ob,listed,beq_self_eq_true _⟩⟩
    obtain ⟨analysis,analysed⟩ := analysisTotal some known
    have removed := removedResult clean tags
    exact ⟨analysis,_,analysed,removed,outboundPreview clean deletable analysed removed⟩

end Unchanged

/- A list of its own and a rule on two. -/
theorem twoListsPreview : validateDocument plainReaders (twoLists "ads" none) = [] ∧
    ∃ plan analysis, planListDelete (twoLists "ads" none) (plainTargets ["ads"]) = .ok plan ∧
      analyzeDependencies (twoLists "ads" none) (["ads"].map (targetOf .list)) = .ok analysis ∧
      Announced analysis.references .routingRule (twoLists "ads" none).rules (rewriteRouteRule (deletions ["ads"])) := by
  have accepted : validateDocument plainReaders (twoLists "ads" none) = [] := by decide
  have planned : planListDelete (twoLists "ads" none) (plainTargets ["ads"]) =
      .ok ⟨rewrittenConfig (twoLists "ads" none) [("ads",none)],planSummary (twoLists "ads" none) deleteAds [("ads",none)]⟩ := by decide
  obtain ⟨analysis,analysed,⟨_,marks⟩,_⟩ := (previewAgrees accepted).1 ["ads"] _ planned
  exact ⟨accepted,_,analysis,planned,analysed,marks⟩

def tableRouted : Document Unit := { nestedGroups with routeRules := some [{ outbound := "main" }] }

/- The preview of deleting a system outbound in use is not safe, and its removal changes nothing. -/
theorem tableUnsafe : validateDocument plainReaders tableRouted = [] ∧
    (∃ analysis, analyzeDependencies tableRouted [targetOf .outbound "main"] = .ok analysis ∧ analysis.safeToDelete = false) ∧
    removeOutboundDependencies tableRouted ["main"] = .ok tableRouted := by
  refine ⟨by decide,⟨analysisOf tableRouted [targetOf .outbound "main"],by decide,by decide⟩,by decide⟩

end KeenPbr.Documents
