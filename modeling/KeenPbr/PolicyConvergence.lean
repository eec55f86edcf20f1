import Mathlib.Data.List.Nodup
import KeenPbr.PolicyRules
import KeenPbr.Runs

/-! What reconcile leaves in the kernel and in the ledgers, over runs of it. A rule the manager found
present stays foreign; one it created is live as long as some tracked rule covers it. -/
namespace KeenPbr.PolicyRules

/- RuleSpec::family: AF_INET or AF_INET6 for a live rule, 0 for both. -/
def Single (rule : RuleSpec) : Prop := rule.family = afInet ∨ rule.family = afInet6

def Known (rule : RuleSpec) : Prop := rule.family = 0 ∨ Single rule

section Covers
variable {rule live : RuleSpec}

theorem concreteSelf (rule : RuleSpec) : concrete rule rule.family = rule := rfl

theorem sameLogicalIff : sameLogicalRule rule live = true ↔ concrete rule live.family = live := by
  cases rule
  cases live
  simp [sameLogicalRule,concrete,and_assoc]

theorem sameLogicalSymm : sameLogicalRule rule live = sameLogicalRule live rule := by
  unfold sameLogicalRule
  simp only [Bool.beq_comm]

theorem coversIff : ruleCoversFamily rule live = true ↔ concrete rule live.family = live ∧
    (rule.family = 0 ∨ rule.family = live.family) := by
  rw [ruleCoversFamily,Bool.and_eq_true,sameLogicalIff,Bool.or_eq_true,beq_iff_eq,beq_iff_eq]

theorem singleNonzero (single : Single rule) : rule.family ≠ 0 := by
  rcases single with four | six
  · rw [four]
    decide
  · rw [six]
    decide

theorem concretesBoth (both : rule.family = 0) : concretes rule = [concrete rule afInet,concrete rule afInet6] := by
  rw [concretes,families,if_pos both]
  rfl

theorem concretesSingle (single : rule.family ≠ 0) : concretes rule = [rule] := by
  rw [concretes,families,if_neg single]
  rfl

theorem coversMem (single : Single live) : ruleCoversFamily rule live = true ↔ live ∈ concretes rule := by
  rw [coversIff]
  by_cases both : rule.family = 0
  · rw [concretesBoth both,List.mem_cons,List.mem_singleton]
    constructor
    · rintro ⟨same,_⟩
      rcases single with four | six
      · exact .inl (by rw [← four,same])
      · exact .inr (by rw [← six,same])
    · rintro (four | six)
      · rw [four]
        exact ⟨rfl,.inl both⟩
      · rw [six]
        exact ⟨rfl,.inl both⟩
  · rw [concretesSingle both,List.mem_singleton]
    constructor
    · rintro ⟨same,zero | family⟩
      · exact absurd zero both
      · rw [← same,← family]
        exact concreteSelf rule
    · rintro rfl
      exact ⟨rfl,.inr rfl⟩

theorem coversSelf (rule : RuleSpec) : ruleCoversFamily rule rule = true := coversIff.mpr ⟨rfl,.inr rfl⟩

theorem concretesSingles (known : Known rule) : ∀ r ∈ concretes rule, Single r := by
  intro r mem
  rcases known with both | single
  · rw [concretesBoth both] at mem
    rcases List.mem_cons.mp mem with rfl | second
    · exact .inl rfl
    · cases List.mem_singleton.mp second
      exact .inr rfl
  · rw [concretesSingle (singleNonzero single)] at mem
    cases List.mem_singleton.mp mem
    exact single

theorem coversTwice {other : RuleSpec} (first : ruleCoversFamily rule live = true) (second : ruleCoversFamily other live = true)
    (bothFirst : rule.family = 0) (bothSecond : other.family = 0) : rule = other := by
  obtain ⟨same,_⟩ := coversIff.mp first
  obtain ⟨also,_⟩ := coversIff.mp second
  have left : concrete live 0 = rule := by
    rw [← same,← bothFirst]
    rfl
  have right : concrete live 0 = other := by
    rw [← also,← bothSecond]
    rfl
  exact left.symm.trans right

theorem coversOwn (covers : ruleCoversFamily rule live = true) (single : rule.family ≠ 0) : rule = live := by
  obtain ⟨same,zero | family⟩ := coversIff.mp covers
  · exact absurd zero single
  · rw [← same,← family]
    exact (concreteSelf rule).symm

end Covers

open PolicyRuleManager

/- What the kernel and the ledgers are to each other, beside rules of other owners. -/
structure Ledger (foreign : List RuleSpec) (m : PolicyRuleManager) : Prop where
  live : ∀ r, r ∈ m.live ↔ r ∈ foreign ∨ r ∈ m.owned
  apart : ∀ r ∈ m.owned, r ∉ foreign
  single : ∀ r ∈ m.live, Single r
  known : ∀ t ∈ m.rules, Known t
  distinct : m.rules.Nodup
  covered : ∀ r ∈ m.owned, ∃ t ∈ m.rules, ruleCoversFamily t r = true
  present : ∀ t ∈ m.rules, t.family ≠ 0 → t ∈ m.live

section Grow
variable {foreign : List RuleSpec} {m : PolicyRuleManager}

theorem Ledger.ownedLive (ledger : Ledger foreign m) {r : RuleSpec} (mem : r ∈ m.owned) : r ∈ m.live := (ledger.live r).mpr (.inr mem)

theorem Ledger.grow (ledger : Ledger foreign m) {extra rules : List RuleSpec} (fresh : ∀ r ∈ extra, r ∉ m.live)
    (single : ∀ r ∈ extra, Single r)
    (more : ∀ t ∈ m.rules, t ∈ rules) (known : ∀ t ∈ rules, Known t) (distinct : rules.Nodup)
    (covered : ∀ r ∈ extra, ∃ t ∈ rules, ruleCoversFamily t r = true)
    (present : ∀ t ∈ rules, t.family ≠ 0 → t ∈ m.live ++ extra) :
    Ledger foreign { live := m.live ++ extra, rules, owned := m.owned ++ extra } where
  live r := by
    rw [List.mem_append,List.mem_append,ledger.live r,or_assoc]
  apart r mem := by
    rcases List.mem_append.mp mem with old | new
    · exact ledger.apart r old
    · exact fun alien => fresh r new ((ledger.live r).mpr (.inl alien))
  single r mem := by
    rcases List.mem_append.mp mem with old | new
    · exact ledger.single r old
    · exact single r new
  known := known
  distinct := distinct
  covered r mem := by
    rcases List.mem_append.mp mem with old | new
    · obtain ⟨t,tracked,covers⟩ := ledger.covered r old
      exact ⟨t,more t tracked,covers⟩
    · exact covered r new
  present := present

def tracksMissing (m : PolicyRuleManager) (missing : RuleSpec) : Bool := m.isTracked (concrete missing 0) || m.isTracked missing

theorem restoreFresh (ledger : Ledger foreign m) {missing : RuleSpec} (fresh : missing ∉ m.live)
    (tracked : tracksMissing m missing = true) :
    m.restore missing = { m with live := m.live ++ [missing], owned := m.owned ++ [missing] } := by
  have unowned : missing ∉ m.owned := fun mem => fresh (ledger.ownedLive mem)
  have kept : m.owned.filter (· != missing) = m.owned := by
    rw [List.filter_eq_self]
    intro r mem
    rw [bne_iff_ne]
    rintro rfl
    exact unowned mem
  have listed : (!m.isTracked (concrete missing 0) && !m.isTracked missing) = false := by
    rw [← Bool.not_or]
    exact congrArg not tracked
  have absent : m.live.contains (concrete missing missing.family) = false := by
    rw [concreteSelf,Bool.eq_false_iff,ne_eq,List.contains_iff_mem]
    exact fresh
  have unclaimed : m.owned.contains missing = false := by
    rw [Bool.eq_false_iff,ne_eq,List.contains_iff_mem]
    exact unowned
  unfold PolicyRuleManager.restore
  rw [listed,if_neg Bool.false_ne_true,kept]
  dsimp only
  rw [addRuleForFamily,absent,if_neg Bool.false_ne_true]
  dsimp only
  rw [unclaimed,if_neg Bool.false_ne_true,concreteSelf]

theorem restoreUntracked {missing : RuleSpec} (untracked : tracksMissing m missing = false) : m.restore missing = m := by
  have listed : (!m.isTracked (concrete missing 0) && !m.isTracked missing) = true := by
    rw [← Bool.not_or]
    exact congrArg not untracked
  unfold PolicyRuleManager.restore
  rw [listed,if_pos rfl]

theorem restoreLedger (ledger : Ledger foreign m) {missing : RuleSpec} (fresh : missing ∉ m.live) (single : Single missing)
    (tracked : tracksMissing m missing = true) : Ledger foreign (m.restore missing) := by
  rw [restoreFresh ledger fresh tracked]
  refine ledger.grow ?_ ?_ (fun _ mem => mem) ledger.known ledger.distinct ?_ fun t mem nonzero =>
    List.mem_append_left _ (ledger.present t mem nonzero)
  · intro r mem
    cases List.mem_singleton.mp mem
    exact fresh
  · intro r mem
    cases List.mem_singleton.mp mem
    exact single
  · intro r mem
    cases List.mem_singleton.mp mem
    rw [tracksMissing,Bool.or_eq_true,isTracked,isTracked,List.contains_iff_mem,List.contains_iff_mem] at tracked
    rcases tracked with both | own
    · exact ⟨_,both,coversIff.mpr ⟨rfl,.inl rfl⟩⟩
    · exact ⟨_,own,coversSelf _⟩

theorem restoresLedger {missing : List RuleSpec} (ledger : Ledger foreign m) (single : ∀ r ∈ missing, Single r)
    (fresh : ∀ r ∈ missing.filter (tracksMissing m), r ∉ m.live) (once : (missing.filter (tracksMissing m)).Nodup) :
    Ledger foreign (missing.foldl restore m) ∧ (missing.foldl restore m).rules = m.rules ∧
      (∀ r ∈ m.live, r ∈ (missing.foldl restore m).live) ∧
      ∀ r ∈ missing, tracksMissing m r = true → r ∈ (missing.foldl restore m).live := by
  induction missing generalizing m with
  | nil => exact ⟨ledger,rfl,fun _ mem => mem,fun _ mem => by cases mem⟩
  | cons rule rest ih =>
    have singles : ∀ r ∈ rest, Single r := fun r mem => single r (List.mem_cons_of_mem rule mem)
    rw [List.foldl_cons]
    cases tracked : tracksMissing m rule with
    | false =>
      rw [List.filter_cons,tracked,if_neg Bool.false_ne_true] at fresh once
      rw [restoreUntracked tracked]
      obtain ⟨kept,rules,more,restored⟩ := ih ledger singles fresh once
      refine ⟨kept,rules,more,fun r mem listed => ?_⟩
      rcases List.mem_cons.mp mem with rfl | later
      · rw [tracked] at listed
        cases listed
      · exact restored r later listed
    | true =>
      rw [List.filter_cons,tracked,if_pos rfl] at fresh once
      obtain ⟨apart,distinct⟩ := List.nodup_cons.mp once
      have absent := fresh rule List.mem_cons_self
      have shape := restoreFresh ledger absent tracked
      have same : tracksMissing (m.restore rule) = tracksMissing m := by
        rw [shape]
        rfl
      have later : ∀ r ∈ rest.filter (tracksMissing (m.restore rule)), r ∉ (m.restore rule).live := by
        rw [same]
        intro r mem
        rw [shape]
        intro found
        rcases List.mem_append.mp found with old | new
        · exact fresh r (List.mem_cons_of_mem rule mem) old
        · cases List.mem_singleton.mp new
          exact apart mem
      obtain ⟨kept,rules,more,restored⟩ := ih (restoreLedger ledger absent (single rule List.mem_cons_self) tracked) singles later
        (by rw [same]; exact distinct)
      have grown : ∀ r ∈ m.live ++ [rule], r ∈ (m.restore rule).live := by
        rw [shape]
        exact fun _ mem => mem
      refine ⟨kept,?_,fun r mem => more r (grown r (List.mem_append_left _ mem)),fun r mem listed => ?_⟩
      · rw [rules,shape]
      · rcases List.mem_cons.mp mem with rfl | inRest
        · exact more r (grown r (List.mem_append_right _ List.mem_cons_self))
        · refine restored r inRest ?_
          rw [same]
          exact listed

theorem addFamiliesShape (spec : RuleSpec) (fams : List Int) (m : PolicyRuleManager) (newly : List RuleSpec) :
    ∃ extra, addFamilies spec fams (m,newly) = ({ m with live := m.live ++ extra },newly ++ extra) ∧
      (∀ family ∈ fams, concrete spec family ∈ m.live ++ extra) ∧ ∀ r ∈ extra, r ∉ m.live ∧ ∃ family ∈ fams, r = concrete spec family := by
  induction fams generalizing m newly with
  | nil =>
    refine ⟨[],?_,(fun _ mem => by cases mem),(fun _ mem => by cases mem)⟩
    rw [List.append_nil,List.append_nil]
    rfl
  | cons family rest ih =>
    rw [addFamilies]
    cases present : m.live.contains (concrete spec family) with
    | true =>
      obtain ⟨extra,shape,created,fresh⟩ := ih m newly
      rw [addRuleForFamily,present,if_pos rfl]
      refine ⟨extra,shape,fun other mem => ?_,fun r mem => ?_⟩
      · rcases List.mem_cons.mp mem with rfl | later
        · exact List.mem_append_left _ (List.contains_iff_mem.mp present)
        · exact created other later
      · obtain ⟨absent,other,later,same⟩ := fresh r mem
        exact ⟨absent,other,List.mem_cons_of_mem _ later,same⟩
    | false =>
      obtain ⟨extra,shape,created,fresh⟩ := ih { m with live := m.live ++ [concrete spec family] } (newly ++ [concrete spec family])
      rw [addRuleForFamily,present,if_neg Bool.false_ne_true]
      refine ⟨concrete spec family :: extra,?_,fun other mem => ?_,fun r mem => ?_⟩
      · dsimp only
        rw [shape,List.append_assoc,List.append_assoc]
        rfl
      · rcases List.mem_cons.mp mem with rfl | later
        · exact List.mem_append_right _ List.mem_cons_self
        · have found := created other later
          rw [List.append_assoc] at found
          exact found
      · rcases List.mem_cons.mp mem with rfl | later
        · refine ⟨fun mem => ?_,family,List.mem_cons_self,rfl⟩
          rw [List.contains_iff_mem.mpr mem] at present
          cases present
        · obtain ⟨absent,other,inRest,same⟩ := fresh r later
          exact ⟨fun mem => absent (List.mem_append_left _ mem),other,List.mem_cons_of_mem _ inRest,same⟩

theorem addTracked {spec : RuleSpec} (tracked : spec ∈ m.rules) : m.add spec = m := by
  rw [PolicyRuleManager.add,isTracked,List.contains_iff_mem.mpr tracked,if_pos rfl]

theorem addLedger (ledger : Ledger foreign m) {spec : RuleSpec} (known : Known spec) (untracked : spec ∉ m.rules) :
    Ledger foreign (m.add spec) ∧ (m.add spec).rules = m.rules ++ [spec] ∧ (∀ r ∈ m.live, r ∈ (m.add spec).live) ∧
      ∀ r ∈ concretes spec, r ∈ (m.add spec).live := by
  obtain ⟨extra,shape,created,fresh⟩ := addFamiliesShape spec (families spec) m []
  have unlisted : m.isTracked spec = false := by
    rw [isTracked,Bool.eq_false_iff,ne_eq,List.contains_iff_mem]
    exact untracked
  have added : m.add spec = { live := m.live ++ extra, rules := m.rules ++ [spec], owned := m.owned ++ extra } := by
    rw [PolicyRuleManager.add,unlisted,if_neg Bool.false_ne_true,shape]
    rfl
  have listed : ∀ r ∈ concretes spec, r ∈ m.live ++ extra := by
    intro r mem
    obtain ⟨family,inFamilies,rfl⟩ := List.mem_map.mp mem
    exact created family inFamilies
  have own : ∀ r ∈ extra, r ∈ concretes spec := by
    intro r mem
    obtain ⟨_,family,inFamilies,rfl⟩ := fresh r mem
    exact List.mem_map_of_mem inFamilies
  have singles : ∀ r ∈ extra, Single r := fun r mem => concretesSingles known r (own r mem)
  rw [added]
  refine ⟨ledger.grow (fun r mem => (fresh r mem).1) singles (fun t mem => List.mem_append_left _ mem) ?_ ?_ ?_ ?_,rfl,
    fun r mem => List.mem_append_left _ mem,listed⟩
  · intro t mem
    rcases List.mem_append.mp mem with old | new
    · exact ledger.known t old
    · cases List.mem_singleton.mp new
      exact known
  · rw [List.nodup_append]
    refine ⟨ledger.distinct,List.nodup_singleton spec,?_⟩
    rintro t old u new rfl
    cases List.mem_singleton.mp new
    exact untracked old
  · intro r mem
    exact ⟨spec,List.mem_append_right _ List.mem_cons_self,(coversMem (singles r mem)).mpr (own r mem)⟩
  · intro t mem nonzero
    rcases List.mem_append.mp mem with old | new
    · exact List.mem_append_left _ (ledger.present t old nonzero)
    · rw [List.mem_singleton] at new
      subst new
      refine listed t ?_
      rw [concretesSingle nonzero]
      exact List.mem_cons_self

theorem addsLedger {desired : List RuleSpec} (ledger : Ledger foreign m) (known : ∀ d ∈ desired, Known d)
    (whole : ∀ d ∈ desired, d ∈ m.rules → ∀ r ∈ concretes d, r ∈ m.live) :
    Ledger foreign (desired.foldl PolicyRuleManager.add m) ∧
      (∃ new, (desired.foldl PolicyRuleManager.add m).rules = m.rules ++ new ∧ ∀ d ∈ new, d ∈ desired) ∧
      (∀ r ∈ m.live, r ∈ (desired.foldl PolicyRuleManager.add m).live) ∧
      ∀ d ∈ desired, d ∈ (desired.foldl PolicyRuleManager.add m).rules ∧
        ∀ r ∈ concretes d, r ∈ (desired.foldl PolicyRuleManager.add m).live := by
  induction desired generalizing m with
  | nil => exact ⟨ledger,⟨[],(List.append_nil _).symm,fun _ mem => by cases mem⟩,fun _ mem => mem,fun _ mem => by cases mem⟩
  | cons spec rest ih =>
    have later : ∀ d ∈ rest, Known d := fun d mem => known d (List.mem_cons_of_mem spec mem)
    rw [List.foldl_cons]
    by_cases tracked : spec ∈ m.rules
    · rw [addTracked tracked]
      obtain ⟨kept,⟨new,rules,own⟩,more,held⟩ := ih ledger later fun d mem => whole d (List.mem_cons_of_mem spec mem)
      refine ⟨kept,⟨new,rules,fun d mem => List.mem_cons_of_mem spec (own d mem)⟩,more,fun d mem => ?_⟩
      rcases List.mem_cons.mp mem with rfl | inRest
      · refine ⟨?_,fun r inside => more r (whole d List.mem_cons_self tracked r inside)⟩
        rw [rules]
        exact List.mem_append_left _ tracked
      · exact held d inRest
    · obtain ⟨grown,rulesAdded,moreAdded,complete⟩ := addLedger ledger (known spec List.mem_cons_self) tracked
      have whole' : ∀ d ∈ rest, d ∈ (m.add spec).rules → ∀ r ∈ concretes d, r ∈ (m.add spec).live := by
        intro d mem listed r inside
        rw [rulesAdded] at listed
        rcases List.mem_append.mp listed with old | same
        · exact moreAdded r (whole d (List.mem_cons_of_mem spec mem) old r inside)
        · cases List.mem_singleton.mp same
          exact complete r inside
      obtain ⟨kept,⟨new,rules,own⟩,more,held⟩ := ih grown later whole'
      refine ⟨kept,⟨spec :: new,?_,fun d mem => ?_⟩,fun r mem => more r (moreAdded r mem),fun d mem => ?_⟩
      · rw [rules,rulesAdded,List.append_assoc]
        rfl
      · rcases List.mem_cons.mp mem with rfl | inNew
        · exact List.mem_cons_self
        · exact List.mem_cons_of_mem spec (own d inNew)
      · rcases List.mem_cons.mp mem with rfl | inRest
        · refine ⟨?_,fun r inside => more r (complete r inside)⟩
          rw [rules,rulesAdded]
          exact List.mem_append_left _ (List.mem_append_right _ List.mem_cons_self)
        · exact held d inRest

end Grow

/- A rule in both-families form stands before a single-family form of it, neither is desired, the
manager owns that family and another owner the other one: each form then keeps the other alive. -/
def shadowed (m : PolicyRuleManager) (desired : List RuleSpec) : List RuleSpec → Bool
  | [] => false
  | rule :: later =>
    (rule.family == 0 && !desired.contains rule &&
      (concretes rule).any fun held => later.contains held && !desired.contains held && m.owned.contains held &&
        (concretes rule).any fun found => m.live.contains found && !m.owned.contains found && !later.contains found &&
          !desired.contains found) ||
    shadowed m desired later

def doubled (m : PolicyRuleManager) (desired : List RuleSpec) :
    Bool := !decide ((m.missingLiveRules desired).filter (tracksMissing m)).Nodup

theorem shadowedAt {m : PolicyRuleManager} {desired before later : List RuleSpec} {rule held found : RuleSpec} (both : rule.family = 0)
    (obsolete : rule ∉ desired) (heldOwn : held ∈ concretes rule) (heldLater : held ∈ later) (heldObsolete : held ∉ desired)
    (owned : held ∈ m.owned)
    (foundOwn : found ∈ concretes rule) (live : found ∈ m.live) (alien : found ∉ m.owned) (untracked : found ∉ later)
    (unwanted : found ∉ desired) :
    shadowed m desired (before ++ rule :: later) = true := by
  induction before with
  | nil =>
    have inner : (concretes rule).any
      (fun found => m.live.contains found && !m.owned.contains found && !later.contains found && !desired.contains found) = true := by
      rw [List.any_eq_true]
      refine ⟨found,foundOwn,?_⟩
      simp [live,alien,untracked,unwanted]
    have outer : (concretes rule).any (fun held => later.contains held && !desired.contains held && m.owned.contains held &&
        (concretes rule).any fun found => m.live.contains found && !m.owned.contains found && !later.contains found &&
          !desired.contains found) = true := by
      rw [List.any_eq_true]
      refine ⟨held,heldOwn,?_⟩
      rw [inner]
      simp [heldLater,heldObsolete,owned]
    rw [List.nil_append,shadowed,outer]
    simp [both,obsolete]
  | cons first rest ih =>
    rw [List.cons_append,shadowed,ih,Bool.or_true]

section Remove
variable {foreign desired : List RuleSpec} {m : PolicyRuleManager} {rule : RuleSpec}

theorem othersIff (ledger : Ledger foreign m) {t : RuleSpec} : t ∈ m.others rule ↔ t ≠ rule ∧ t ∈ m.rules := ledger.distinct.mem_erase_iff

theorem surplusIff {r : RuleSpec} :
    m.surplus rule r = true ↔ ruleCoversFamily rule r = true ∧ ∀ t ∈ m.others rule, ruleCoversFamily t r = false := by
  have covers : (sameLogicalRule r rule && (rule.family == 0 || rule.family == r.family)) = ruleCoversFamily rule r := by
    rw [ruleCoversFamily,sameLogicalSymm]
  rw [surplus,covers,Bool.and_eq_true,Bool.not_eq_true',List.any_eq_false]
  simp only [Bool.not_eq_true]

theorem deletedOwned {r : RuleSpec} : r ∈ (m.deleteOwned rule).owned ↔ r ∈ m.owned ∧ m.surplus rule r = false := by
  change r ∈ m.owned.filter _ ↔ _
  rw [List.mem_filter,Bool.not_eq_true']

theorem deletedLive {r : RuleSpec} : r ∈ (m.deleteOwned rule).live ↔ r ∈ m.live ∧ ¬ (r ∈ m.owned ∧ m.surplus rule r = true) := by
  change r ∈ m.live.filter _ ↔ _
  rw [List.mem_filter,Bool.not_eq_true',Bool.eq_false_iff,ne_eq,Bool.and_eq_true,List.contains_iff_mem]

theorem keptLive {r t : RuleSpec} (live : r ∈ m.live) (other : t ∈ m.others rule) (covers : ruleCoversFamily t r = true) :
    r ∈ (m.deleteOwned rule).live := by
  refine deletedLive.mpr ⟨live,fun both => ?_⟩
  have uncovered := (surplusIff.mp both.2).2 t other
  rw [covers] at uncovered
  cases uncovered

theorem remainsIff {tracked : List RuleSpec} :
    m.logicalRuleHasUncoveredLiveFamily rule tracked = true ↔
      ∃ actual ∈ m.live, ruleCoversFamily rule actual = true ∧ ∀ t ∈ tracked, ruleCoversFamily t actual = false := by
  unfold logicalRuleHasUncoveredLiveFamily
  rw [List.any_eq_true]
  refine exists_congr fun actual => and_congr_right fun _ => ?_
  rw [Bool.and_eq_true,Bool.and_eq_true,beq_iff_eq,Bool.not_eq_true',Bool.not_eq_true',coversIff]
  constructor
  · rintro ⟨family,same,uncovered⟩
    rw [same,List.any_eq_false] at uncovered
    refine ⟨⟨same,?_⟩,fun t mem => Bool.eq_false_iff.mpr (uncovered t mem)⟩
    by_cases both : rule.family = 0
    · exact .inl both
    · refine .inr ?_
      simpa [both] using family
  · rintro ⟨⟨same,family⟩,uncovered⟩
    refine ⟨?_,same,?_⟩
    · rcases family with both | own
      · simp [both]
      · simp [own]
    · rw [same,List.any_eq_false]
      exact fun t mem => Bool.eq_false_iff.mp (uncovered t mem)

theorem removeCases (tracked : rule ∈ m.rules) :
    ((m.remove rule).2 = m.deleteOwned rule ∧ ∃ actual ∈ (m.deleteOwned rule).live, ruleCoversFamily rule actual = true ∧
        ∀ t ∈ m.others rule, ruleCoversFamily t actual = false) ∨
    ((m.remove rule).2 = { m.deleteOwned rule with rules := m.others rule }) := by
  unfold PolicyRuleManager.remove
  have listed : (!m.isTracked rule) = false := by
    rw [isTracked,List.contains_iff_mem.mpr tracked]
    rfl
  rw [listed,if_neg Bool.false_ne_true]
  dsimp only
  cases remains : (m.deleteOwned rule).logicalRuleHasUncoveredLiveFamily rule (m.others rule) with
  | true => exact .inl ⟨rfl,remainsIff.mp remains⟩
  | false => exact .inr rfl

theorem remainsForeign (ledger : Ledger foreign m) {actual : RuleSpec} (live : actual ∈ (m.deleteOwned rule).live)
    (covers : ruleCoversFamily rule actual = true) (uncovered : ∀ t ∈ m.others rule, ruleCoversFamily t actual = false) :
    actual ∈ foreign := by
  obtain ⟨before,kept⟩ := deletedLive.mp live
  rcases (ledger.live actual).mp before with alien | owned
  · exact alien
  · exact absurd ⟨owned,surplusIff.mpr ⟨covers,uncovered⟩⟩ kept

theorem removeLedger (ledger : Ledger foreign m) (tracked : rule ∈ m.rules) : Ledger foreign (m.remove rule).2 := by
  have live : ∀ r, r ∈ (m.deleteOwned rule).live ↔ r ∈ foreign ∨ r ∈ (m.deleteOwned rule).owned := by
    intro r
    rw [deletedLive,deletedOwned,ledger.live r]
    constructor
    · rintro ⟨alien | owned,kept⟩
      · exact .inl alien
      · exact .inr ⟨owned,Bool.eq_false_iff.mpr fun gone => kept ⟨owned,gone⟩⟩
    · rintro (alien | ⟨owned,kept⟩)
      · exact ⟨.inl alien,fun both => ledger.apart r both.1 alien⟩
      · refine ⟨.inr owned,fun both => ?_⟩
        rw [kept] at both
        cases both.2
  have apart : ∀ r ∈ (m.deleteOwned rule).owned, r ∉ foreign := fun r mem => ledger.apart r (deletedOwned.mp mem).1
  have single : ∀ r ∈ (m.deleteOwned rule).live, Single r := fun r mem => ledger.single r (deletedLive.mp mem).1
  have present : ∀ t ∈ m.others rule, t.family ≠ 0 → t ∈ (m.deleteOwned rule).live :=
    fun t mem nonzero => keptLive (ledger.present t ((othersIff ledger).mp mem).2 nonzero) mem (coversSelf t)
  rcases removeCases tracked with ⟨result,actual,remains,covers,uncovered⟩ | result
  · rw [result]
    refine ⟨live,apart,single,ledger.known,ledger.distinct,fun r mem => ledger.covered r (deletedOwned.mp mem).1,fun t mem nonzero => ?_⟩
    by_cases same : t = rule
    · subst same
      have own := coversOwn covers nonzero
      rw [← own] at remains
      exact remains
    · exact present t ((othersIff ledger).mpr ⟨same,mem⟩) nonzero
  · rw [result]
    refine ⟨live,apart,single,fun t mem => ledger.known t ((othersIff ledger).mp mem).2,ledger.distinct.erase rule,fun r mem => ?_,present⟩
    obtain ⟨owned,kept⟩ := deletedOwned.mp mem
    obtain ⟨t,listed,covers⟩ := ledger.covered r owned
    by_cases same : t = rule
    · subst same
      by_contra uncovered
      have gone : m.surplus t r = true := surplusIff.mpr
        ⟨covers,fun u other => Bool.eq_false_iff.mpr fun also => uncovered ⟨u,other,also⟩⟩
      rw [gone] at kept
      cases kept
    · exact ⟨t,(othersIff ledger).mpr ⟨same,listed⟩,covers⟩

end Remove

section Obsolete
variable {foreign desired : List RuleSpec} {start m : PolicyRuleManager}

/- The removal loop with its rest to come. A rule whose removal failed stays behind: alone for a live
foreign rule, in both families only where no owned rule waits for it. -/
structure Removing (foreign desired : List RuleSpec) (rest : List RuleSpec) (m : PolicyRuleManager) : Prop where
  ledger : Ledger foreign m
  kept : ∀ d ∈ desired, d ∈ m.rules ∧ ∀ r ∈ concretes d, r ∈ m.live
  pending : ∀ t ∈ rest, t ∈ m.rules
  failedSingle : ∀ t ∈ m.rules, t ∉ desired → t ∉ rest → t.family ≠ 0 → t ∈ foreign
  failedBoth : ∀ t ∈ m.rules, t ∉ desired → t ∉ rest → t.family = 0 → ∀ r ∈ rest, r ∉ desired → r ∈ m.owned → ruleCoversFamily t r = false
  waits : ∀ r ∈ m.owned, r ∉ expansion desired → ∃ t ∈ rest, t ∉ desired ∧ ruleCoversFamily t r = true

theorem desiredCovers (ledger : Ledger foreign m) {t r : RuleSpec} (wanted : t ∈ desired) (owned : r ∈ m.owned)
    (covers : ruleCoversFamily t r = true) : r ∈ expansion desired :=
  List.mem_flatMap.mpr ⟨t,wanted,(coversMem (ledger.single r (ledger.ownedLive owned))).mp covers⟩

theorem Removing.skip {rule : RuleSpec} {rest : List RuleSpec} (removing : Removing foreign desired (rule :: rest) m)
    (wanted : rule ∈ desired) :
    Removing foreign desired rest m := by
  have apart {t : RuleSpec} (obsolete : t ∉ desired) (gone : t ∉ rest) : t ∉ rule :: rest := by
    intro mem
    rcases List.mem_cons.mp mem with rfl | inRest
    · exact obsolete wanted
    · exact gone inRest
  refine ⟨removing.ledger,removing.kept,fun t mem => removing.pending t (List.mem_cons_of_mem rule mem),?_,?_,?_⟩
  · exact fun t mem obsolete gone => removing.failedSingle t mem obsolete (apart obsolete gone)
  · exact fun t mem obsolete gone both r inRest => removing.failedBoth t mem obsolete (apart obsolete gone) both r
      (List.mem_cons_of_mem rule inRest)
  · intro r owned unwanted
    obtain ⟨t,mem,obsolete,covers⟩ := removing.waits r owned unwanted
    rcases List.mem_cons.mp mem with rfl | inRest
    · exact absurd wanted obsolete
    · exact ⟨t,inRest,obsolete,covers⟩

theorem failedAlone {rule : RuleSpec} {rest : List RuleSpec} (removing : Removing foreign desired (rule :: rest) m) (distinct : rule ∉ rest)
    (both : rule.family = 0) {actual : RuleSpec} (uncovered : ∀ t ∈ m.others rule, ruleCoversFamily t actual = false)
    (single : Single actual) :
    actual ∉ rest ∧ actual ∉ desired := by
  have other {t : RuleSpec} (listed : t ∈ m.rules) (apart : t ≠ rule) : t ≠ actual := by
    rintro rfl
    have covers := uncovered t ((othersIff removing.ledger).mpr ⟨apart,listed⟩)
    rw [coversSelf] at covers
    cases covers
  have differs : actual ≠ rule := by
    rintro rfl
    exact singleNonzero single both
  refine ⟨fun mem => ?_,fun wanted => other (removing.kept actual wanted).1 differs rfl⟩
  exact other (removing.pending actual (List.mem_cons_of_mem rule mem)) differs rfl

theorem Removing.remove {rule : RuleSpec} {rest : List RuleSpec} (removing : Removing foreign desired (rule :: rest) m)
    (distinct : rule ∉ rest)
    (obsolete : rule ∉ desired)
    (clear : rule.family = 0 → ∀ held ∈ rest, held ∉ desired → held ∈ m.owned → ruleCoversFamily rule held = true →
      ∀ found ∈ foreign, ruleCoversFamily rule found = true → found ∉ rest → found ∉ desired → False) :
    Removing foreign desired rest (m.remove rule).2 := by
  have ledger := removing.ledger
  have tracked := removing.pending rule List.mem_cons_self
  have next := removeLedger ledger tracked
  have owned : ∀ r ∈ (m.remove rule).2.owned, r ∈ m.owned ∧ m.surplus rule r = false := by
    intro r mem
    rcases removeCases tracked with ⟨result,_⟩ | result
    · rw [result] at mem
      exact deletedOwned.mp mem
    · rw [result] at mem
      exact deletedOwned.mp mem
  have others : ∀ t ∈ m.rules, t ≠ rule → t ∈ (m.remove rule).2.rules := by
    intro t mem apart
    rcases removeCases tracked with ⟨result,_⟩ | result
    · rw [result]
      exact mem
    · rw [result]
      exact (othersIff ledger).mpr ⟨apart,mem⟩
  have fewer : ∀ t ∈ (m.remove rule).2.rules, t ∈ m.rules := by
    intro t mem
    rcases removeCases tracked with ⟨result,_⟩ | result
    · rw [result] at mem
      exact mem
    · rw [result] at mem
      exact ((othersIff ledger).mp mem).2
  -- the removed rule stays only where the removal failed
  have stays : rule ∈ (m.remove rule).2.rules → ∃ actual ∈ foreign, ruleCoversFamily rule actual = true ∧
      (∀ t ∈ m.others rule, ruleCoversFamily t actual = false) ∧ Single actual := by
    intro mem
    rcases removeCases tracked with ⟨_,actual,remains,covers,uncovered⟩ | result
    · exact ⟨actual,remainsForeign ledger remains covers uncovered,covers,uncovered,ledger.single actual (deletedLive.mp remains).1⟩
    · rw [result] at mem
      exact absurd rfl ((othersIff ledger).mp mem).1
  have live : ∀ r ∈ (m.deleteOwned rule).live, r ∈ (m.remove rule).2.live := by
    intro r mem
    rcases removeCases tracked with ⟨result,_⟩ | result
    · rw [result]
      exact mem
    · rw [result]
      exact mem
  refine ⟨next,?_,?_,?_,?_,?_⟩
  · intro d wanted
    obtain ⟨listed,whole⟩ := removing.kept d wanted
    have apart : d ≠ rule := by
      rintro rfl
      exact obsolete wanted
    refine ⟨others d listed apart,fun r mem => live r ?_⟩
    have before := whole r mem
    exact keptLive before ((othersIff ledger).mpr ⟨apart,listed⟩) ((coversMem (ledger.single r before)).mpr mem)
  · intro t mem
    refine others t (removing.pending t (List.mem_cons_of_mem rule mem)) ?_
    rintro rfl
    exact distinct mem
  · intro t mem unwanted gone nonzero
    by_cases same : t = rule
    · subst same
      obtain ⟨actual,alien,covers,_⟩ := stays mem
      rw [coversOwn covers nonzero]
      exact alien
    · exact removing.failedSingle t (fewer t mem) unwanted (fun before => (List.mem_cons.mp before).elim same gone) nonzero
  · intro t mem unwanted gone both r inRest unwantedRest held
    by_cases same : t = rule
    · subst same
      obtain ⟨actual,alien,covers,uncovered,single⟩ := stays mem
      obtain ⟨untracked,undesired⟩ := failedAlone removing distinct both uncovered single
      rw [Bool.eq_false_iff]
      exact fun covered => clear both r inRest unwantedRest (owned r held).1 covered actual alien covers untracked undesired
    · exact removing.failedBoth t (fewer t mem) unwanted (fun before => (List.mem_cons.mp before).elim same gone) both r
        (List.mem_cons_of_mem rule inRest) unwantedRest (owned r held).1
  · intro r held unwanted
    obtain ⟨before,kept⟩ := owned r held
    obtain ⟨t,mem,unwantedRule,covers⟩ := removing.waits r before unwanted
    rcases List.mem_cons.mp mem with rfl | inRest
    · -- the rule outlived the delete, so another tracked rule covers it
      have rescued : ∃ u ∈ m.others t, ruleCoversFamily u r = true := by
        by_contra none
        have gone : m.surplus t r = true :=
          surplusIff.mpr ⟨covers,fun u other => Bool.eq_false_iff.mpr fun also => none ⟨u,other,also⟩⟩
        rw [gone] at kept
        cases kept
      obtain ⟨u,other,also⟩ := rescued
      obtain ⟨apart,listed⟩ := (othersIff ledger).mp other
      have obsoleteToo : u ∉ desired := fun wanted => unwanted (desiredCovers ledger wanted before also)
      by_cases inRest : u ∈ rest
      · exact ⟨u,inRest,obsoleteToo,also⟩
      · have done : u ∉ t :: rest := fun mem => (List.mem_cons.mp mem).elim apart inRest
        by_cases both : u.family = 0
        · have single : t.family ≠ 0 := fun zero => apart (coversTwice also covers both zero)
          have own := coversOwn covers single
          have failed := removing.failedBoth u listed obsoleteToo done both t List.mem_cons_self unwantedRule (own ▸ before)
          rw [own,also] at failed
          cases failed
        · have alien := removing.failedSingle u listed obsoleteToo done both
          rw [coversOwn also both] at alien
          exact absurd alien (ledger.apart r before)
    · exact ⟨t,inRest,unwantedRule,covers⟩

theorem splitRules {rules new done rest : List RuleSpec} {rule : RuleSpec} (whole : rules ++ new = done ++ rule :: rest)
    (apart : rule ∉ new) :
    ∃ later, rules = done ++ rule :: later ∧ rest = later ++ new := by
  rcases List.append_eq_append_iff.mp whole with ⟨middle,rfl,tail⟩ | ⟨middle,rfl,tail⟩
  · exact absurd (tail ▸ List.mem_append_right middle List.mem_cons_self) apart
  · cases middle with
    | nil =>
      rw [List.nil_append] at tail
      exact absurd (tail ▸ List.mem_cons_self) apart
    | cons first later =>
      rw [List.cons_append,List.cons.injEq] at tail
      obtain ⟨rfl,rfl⟩ := tail
      exact ⟨later,rfl,rfl⟩

theorem removingRun {new done rest : List RuleSpec} (before : Ledger foreign start) (free : shadowed start desired start.rules = false)
    (wanted : ∀ d ∈ new, d ∈ desired) (whole : start.rules ++ new = done ++ rest) (distinct : rest.Nodup)
    (removing : Removing foreign desired rest m) :
    Removing foreign desired [] (rest.foldl (removeObsoleteOne desired) m) := by
  induction rest generalizing done m with
  | nil => exact removing
  | cons rule rest ih =>
    obtain ⟨apart,later⟩ := List.nodup_cons.mp distinct
    have shifted : start.rules ++ new = (done ++ [rule]) ++ rest := by
      rw [whole,List.append_assoc]
      rfl
    rw [List.foldl_cons,removeObsoleteOne]
    split
    · rename_i listed
      exact ih shifted later (removing.skip (List.contains_iff_mem.mp listed))
    · rename_i unlisted
      have obsolete : rule ∉ desired := fun mem => unlisted (List.contains_iff_mem.mpr mem)
      refine ih shifted later (removing.remove apart obsolete ?_)
      intro both held inRest unwanted owned covers found alien alsoCovers untracked undesired
      obtain ⟨following,rules,rfl⟩ := splitRules whole fun inNew => obsolete (wanted rule inNew)
      have heldSingle := removing.ledger.single held (removing.ledger.ownedLive owned)
      have foundLive : found ∈ start.live := (before.live found).mpr (.inl alien)
      have heldLater : held ∈ following := (List.mem_append.mp inRest).resolve_right fun inNew => unwanted (wanted held inNew)
      have heldLive : held ∈ start.live := by
        refine before.present held ?_ (singleNonzero heldSingle)
        rw [rules]
        exact List.mem_append_right _ (List.mem_cons_of_mem rule heldLater)
      have heldOwned : held ∈ start.owned := ((before.live held).mp heldLive).resolve_left (removing.ledger.apart held owned)
      have stuck : shadowed start desired (done ++ rule :: following) = true :=
        shadowedAt both obsolete ((coversMem heldSingle).mp covers) heldLater unwanted heldOwned
        ((coversMem (before.single found foundLive)).mp alsoCovers) foundLive (fun mem => before.apart found mem alien)
        (fun mem => untracked (List.mem_append_left _ mem)) undesired
      rw [← rules,free] at stuck
      cases stuck

end Obsolete

/- What holds of one state: beside the rules of other owners the kernel holds the expansion of the
desired list, and the owned ledger only live rules the manager created. -/
structure Converged (foreign desired : List RuleSpec) (m : PolicyRuleManager) : Prop where
  untouched : ∀ r ∈ foreign, r ∈ m.live
  exact : ∀ r, r ∉ foreign → (r ∈ m.live ↔ r ∈ expansion desired)
  owned : ∀ r ∈ m.owned, r ∈ m.live ∧ r ∉ foreign

/- The steps the two slips of reconcile do not show in. -/
def Separate (m : PolicyRuleManager) (desired : List RuleSpec) : Prop :=
  (∀ d ∈ desired, Known d) ∧ shadowed m desired m.rules = false ∧ doubled m desired = false

section Reconcile
variable {foreign : List RuleSpec} {m : PolicyRuleManager}

theorem expansionSingles {desired : List RuleSpec} (known : ∀ d ∈ desired, Known d) : ∀ r ∈ expansion desired, Single r := by
  intro r mem
  obtain ⟨d,wanted,inside⟩ := List.mem_flatMap.mp mem
  exact concretesSingles (known d wanted) r inside

theorem tracksConcrete {d r : RuleSpec} (tracked : d ∈ m.rules) (inside : r ∈ concretes d) : tracksMissing m r = true := by
  rw [tracksMissing,Bool.or_eq_true,isTracked,isTracked,List.contains_iff_mem,List.contains_iff_mem]
  by_cases both : d.family = 0
  · refine .inl ?_
    obtain ⟨family,_,rfl⟩ := List.mem_map.mp inside
    have same : concrete (concrete d family) 0 = d := by
      rw [← both]
      rfl
    rw [same]
    exact tracked
  · rw [concretesSingle both,List.mem_singleton] at inside
    rw [inside]
    exact .inr tracked

theorem reconcileStep (ledger : Ledger foreign m) {desired : List RuleSpec} (separate : Separate m desired) :
    Ledger foreign (m.reconcile desired) ∧ Converged foreign desired (m.reconcile desired) := by
  obtain ⟨known,free,once⟩ := separate
  have missingOwn : ∀ r ∈ m.missingLiveRules desired, r ∈ expansion desired ∧ r ∉ m.live := by
    intro r mem
    rw [missingLiveRules,List.mem_filter,Bool.not_eq_true',Bool.eq_false_iff,ne_eq,List.contains_iff_mem] at mem
    exact mem
  have nodup : ((m.missingLiveRules desired).filter (tracksMissing m)).Nodup := by
    rw [doubled,Bool.not_eq_false',decide_eq_true_eq] at once
    exact once
  obtain ⟨restored,restoredRules,more,refilled⟩ := restoresLedger ledger (fun r mem => expansionSingles known r (missingOwn r mem).1)
    (fun r mem => (missingOwn r (List.mem_filter.mp mem).1).2) nodup
  have whole : ∀ d ∈ desired, d ∈ ((m.missingLiveRules desired).foldl restore m).rules → ∀ r ∈ concretes d,
      r ∈ ((m.missingLiveRules desired).foldl restore m).live := by
    intro d wanted tracked r inside
    rw [restoredRules] at tracked
    by_cases live : r ∈ m.live
    · exact more r live
    · refine refilled r ?_ (tracksConcrete tracked inside)
      rw [missingLiveRules,List.mem_filter,Bool.not_eq_true',Bool.eq_false_iff,ne_eq,List.contains_iff_mem]
      exact ⟨List.mem_flatMap.mpr ⟨d,wanted,inside⟩,live⟩
  obtain ⟨added,⟨new,rules,own⟩,_,held⟩ := addsLedger restored known whole
  rw [restoredRules] at rules
  have start : Removing foreign desired (m.addMissing desired).rules (m.addMissing desired) := by
    refine ⟨added,held,fun _ mem => mem,fun t mem _ gone => absurd mem gone,fun t mem _ gone => absurd mem gone,fun r owned unwanted => ?_⟩
    obtain ⟨t,tracked,covers⟩ := added.covered r owned
    exact ⟨t,tracked,fun wanted => unwanted (desiredCovers added wanted owned covers),covers⟩
  have split : m.rules ++ new = [] ++ (m.addMissing desired).rules := rules.symm
  have finished : Removing foreign desired [] (m.reconcile desired) := removingRun ledger free own split added.distinct start
  have final := finished.ledger
  refine ⟨final,fun r alien => (final.live r).mpr (.inl alien),fun r native => ⟨fun live => ?_,fun wanted => ?_⟩,
    fun r owned => ⟨final.ownedLive owned,final.apart r owned⟩⟩
  · have owned := ((final.live r).mp live).resolve_left native
    by_contra unwanted
    obtain ⟨t,mem,_⟩ := finished.waits r owned unwanted
    cases mem
  · obtain ⟨d,listed,inside⟩ := List.mem_flatMap.mp wanted
    exact (finished.kept d listed).2 r inside

theorem startLedger (single : ∀ r ∈ foreign, Single r) : Ledger foreign { live := foreign } where
  live r := by
    constructor
    · exact .inl
    · rintro (alien | owned)
      · exact alien
      · cases owned
  apart _ mem := by cases mem
  single := single
  known _ mem := by cases mem
  distinct := List.nodup_nil
  covered _ mem := by cases mem
  present _ mem := by cases mem

end Reconcile

/- Every run of reconcile calls that stay separate converges on its last desired list. -/
theorem reconcileConverges (foreign : List RuleSpec) (single : ∀ r ∈ foreign, Single r) (history : List (List RuleSpec))
    (desired : List RuleSpec)
    (m : PolicyRuleManager) (run : Runs.Run PolicyRuleManager.reconcile Separate { live := foreign } (history ++ [desired]) m) :
    Converged foreign desired m :=
  run.last (Ledger foreign) (Converged foreign) (fun _ _ separate ledger => reconcileStep ledger separate) (startLedger single)

def markRule : RuleSpec := { fwmark := 0x10000, fwmask := 0xff0000, table := 100, priority := 100 }

def markRule4 : RuleSpec := concrete markRule afInet

def markRule6 : RuleSpec := concrete markRule afInet6

theorem markForeign : ∀ r ∈ [markRule4], Single r := by
  intro r mem
  cases List.mem_singleton.mp mem
  exact .inl rfl

def markStart : PolicyRuleManager := { live := [markRule4] }

theorem switchedConverges : Converged [markRule4] [markRule6] ((markStart.reconcile [markRule]).reconcile [markRule6]) := by
  refine reconcileConverges [markRule4] markForeign [[markRule]] [markRule6] _ ?_
  refine .step ⟨?_,?_,?_⟩ (.step ⟨?_,?_,?_⟩ (.stop _))
  · intro d mem
    cases List.mem_singleton.mp mem
    exact .inl rfl
  · decide
  · decide
  · intro d mem
    cases List.mem_singleton.mp mem
    exact .inr (.inr rfl)
  · decide
  · decide

theorem leftLive {m : PolicyRuleManager} (left : markRule6 ∈ m.live) : ¬ Converged [markRule4] [] m := by
  intro converged
  have wanted := (converged.exact markRule6 (by decide)).mp left
  cases wanted

/- When nothing is desired any more, each form keeps the IPv6 rule for the other; and a rule restored
twice is owned by nobody. -/
theorem switchedLeaks :
    ¬ Converged [markRule4] [] (((markStart.reconcile [markRule]).reconcile [markRule6]).reconcile []) ∧
    ¬ Converged [markRule4] [] ((((markStart.reconcile [markRule]).reconcile []).reconcile [markRule,markRule]).reconcile []) := by
  refine ⟨leftLive ?_,leftLive ?_⟩
  · decide
  · decide

section Foreign

/- What happens to the manager and to the kernel's rules; the last two are the doing of others. -/
inductive Event where
  | reconcile (desired : List RuleSpec)
  | removeOrphanedGenerated (desired : List RuleSpec) (tables : List UInt32) (ends : RuleSpec → Deletion) (inventory : Bool)
  | adoptLiveGeneratedDesired (desired : List RuleSpec) (tables : List UInt32)
  | clear (ends : RuleSpec → Deletion) (inventory : Bool)
  | arrives (rule : RuleSpec)
  | vanishes (rule : RuleSpec)

def happen (m : PolicyRuleManager) : Event → PolicyRuleManager
  | .reconcile desired => m.reconcile desired
  | .removeOrphanedGenerated desired tables ends inventory => (m.removeOrphanedGenerated desired tables ends inventory).1
  | .adoptLiveGeneratedDesired desired tables => m.adoptLiveGeneratedDesired desired tables
  | .clear ends inventory => (m.clear ends inventory).1
  | .arrives rule => { m with live := m.live ++ [rule] }
  | .vanishes rule => { m with live := m.live.filter (· != rule) }

def Event.Spares (rule : RuleSpec) : Event → Prop
  | .removeOrphanedGenerated _ tables _ _ => rule.table ∉ tables
  | .adoptLiveGeneratedDesired _ tables => rule.table ∉ tables
  | .vanishes other => other ≠ rule
  | _ => True

/- A live rule that the manager did not create; a tracked rule may cover it. -/
def Foreign (rule : RuleSpec) (m : PolicyRuleManager) : Prop := rule ∈ m.live ∧ rule ∉ m.owned

def Covered (rule : RuleSpec) (m : PolicyRuleManager) : Prop := ∃ t ∈ m.rules, ruleCoversFamily t rule = true

def Keeps (rule : RuleSpec) (m after : PolicyRuleManager) : Prop :=
  Foreign rule m → Foreign rule after ∧ (Covered rule m → Covered rule after)

variable {rule : RuleSpec} {m : PolicyRuleManager}

theorem foldKeeps {α : Type} {act : PolicyRuleManager → α → PolicyRuleManager} (step : ∀ m a, Keeps rule m (act m a)) (all : List α) :
    Keeps rule m (all.foldl act m) := by
  induction all generalizing m with
  | nil => exact fun foreign => ⟨foreign,id⟩
  | cons a rest ih =>
    intro foreign
    obtain ⟨kept,covered⟩ := step m a foreign
    obtain ⟨last,still⟩ := ih kept
    exact ⟨last,still ∘ covered⟩

theorem restoreKeeps (m : PolicyRuleManager) (missing : RuleSpec) : Keeps rule m (m.restore missing) := by
  intro foreign
  have dropped : rule ∉ m.owned.filter (· != missing) := fun mem => foreign.2 (List.mem_of_mem_filter mem)
  have live : rule ∈ m.live ++ [missing] := List.mem_append_left _ foreign.1
  unfold restore
  split
  · exact ⟨foreign,id⟩
  · dsimp only [addRuleForFamily]
    rw [concreteSelf]
    by_cases present : m.live.contains missing = true
    · rw [if_pos present]
      exact ⟨⟨foreign.1,dropped⟩,id⟩
    · have apart : rule ∉ [missing] := fun same => present (List.contains_iff_mem.mpr (List.mem_singleton.mp same ▸ foreign.1))
      rw [if_neg present]
      dsimp only
      split
      · exact ⟨⟨live,dropped⟩,id⟩
      · exact ⟨⟨live,fun mem => (List.mem_append.mp mem).elim dropped apart⟩,id⟩

theorem addKeeps (m : PolicyRuleManager) (spec : RuleSpec) : Keeps rule m (m.add spec) := by
  intro foreign
  obtain ⟨extra,shape,-,fresh⟩ := addFamiliesShape spec (families spec) m []
  unfold PolicyRuleManager.add
  split
  · exact ⟨foreign,id⟩
  · simp only [shape]
    refine ⟨⟨List.mem_append_left _ foreign.1,fun mem => ?_⟩,fun ⟨t,tracked,covers⟩ => ⟨t,List.mem_append_left _ tracked,covers⟩⟩
    exact (List.mem_append.mp mem).elim foreign.2 fun new => (fresh rule new).1 foreign.1

theorem removeKeeps (m : PolicyRuleManager) (old : RuleSpec) : Keeps rule m (m.remove old).2 := by
  intro foreign
  have live : rule ∈ (m.deleteOwned old).live := deletedLive.mpr ⟨foreign.1,fun both => foreign.2 both.1⟩
  have unowned : rule ∉ (m.deleteOwned old).owned := fun mem => foreign.2 (deletedOwned.mp mem).1
  unfold PolicyRuleManager.remove
  split
  · exact ⟨foreign,id⟩
  · dsimp only
    split
    · exact ⟨⟨live,unowned⟩,id⟩
    · rename_i gone
      refine ⟨⟨live,unowned⟩,fun ⟨t,tracked,covers⟩ => ?_⟩
      by_contra uncovered
      have alone : ∀ other ∈ m.others old, ruleCoversFamily other rule = false :=
        fun other mem => Bool.eq_false_iff.mpr fun covers => uncovered ⟨other,mem,covers⟩
      by_cases same : t = old
      · exact gone (remainsIff.mpr ⟨rule,live,same ▸ covers,alone⟩)
      · exact uncovered ⟨t,(List.mem_erase_of_ne same).mpr tracked,covers⟩

theorem obsoleteKeeps (desired : List RuleSpec) (m : PolicyRuleManager) (old : RuleSpec) :
    Keeps rule m (removeObsoleteOne desired m old) := by
  unfold removeObsoleteOne
  split
  · exact fun foreign => ⟨foreign,id⟩
  · exact removeKeeps m old

theorem reconcileKeeps (desired : List RuleSpec) : Keeps rule m (m.reconcile desired) := by
  intro foreign
  obtain ⟨restored,first⟩ := foldKeeps restoreKeeps (m.missingLiveRules desired) foreign
  obtain ⟨added,second⟩ := foldKeeps addKeeps desired restored
  obtain ⟨removed,third⟩ := foldKeeps (obsoleteKeeps desired) (m.addMissing desired).rules added
  exact ⟨removed,third ∘ second ∘ first⟩

theorem orphanTable {desired : List RuleSpec} {live : List DumpedRule} {tables : List UInt32}
    (found : rule ∈ findOrphanedGeneratedRules desired live tables) : rule.table ∈ tables := by
  obtain ⟨candidate,-,chosen⟩ := List.mem_filterMap.mp found
  split at chosen
  · cases chosen
  · rename_i passed
    dsimp only at chosen
    split at chosen
    · cases chosen
    · cases Option.some.inj chosen
      simp only [Bool.or_eq_true,not_or,Bool.not_eq_true',Bool.not_eq_false] at passed
      exact List.contains_iff_mem.mp passed.2

theorem orphanedKeeps (desired : List RuleSpec) {tables : List UInt32} (ends : RuleSpec → Deletion) (inventory : Bool)
    (outside : rule.table ∉ tables) : Keeps rule m (m.removeOrphanedGenerated desired tables ends inventory).1 := by
  intro foreign
  unfold removeOrphanedGenerated
  split
  · exact ⟨foreign,id⟩
  · refine ⟨⟨List.mem_filter.mpr ⟨foreign.1,?_⟩,foreign.2⟩,id⟩
    rw [Bool.not_eq_true',Bool.and_eq_false_iff]
    refine .inl (Bool.eq_false_iff.mpr fun listed => outside ?_)
    exact orphanTable (List.mem_of_mem_filter (List.contains_iff_mem.mp listed))

theorem adoptedFrom {live : List RuleSpec} (all : List RuleSpec) (owned : List RuleSpec)
    (mem : rule ∈ all.foldl (fun committed rule => if live.contains rule && !committed.contains rule then committed ++ [rule]
      else committed) owned) :
    rule ∈ owned ∨ rule ∈ all := by
  induction all generalizing owned with
  | nil => exact .inl mem
  | cons first rest ih =>
    rcases ih _ mem with before | after
    · dsimp only at before
      split at before
      · rcases List.mem_append.mp before with old | new
        · exact .inl old
        · cases List.mem_singleton.mp new
          exact .inr List.mem_cons_self
      · exact .inl before
    · exact .inr (List.mem_cons_of_mem _ after)

theorem adoptKeeps (desired : List RuleSpec) {tables : List UInt32} (outside : rule.table ∉ tables) :
    Keeps rule m (m.adoptLiveGeneratedDesired desired tables) := by
  intro foreign
  refine ⟨⟨foreign.1,fun mem => ?_⟩,id⟩
  rcases adoptedFrom _ _ mem with old | new
  · exact foreign.2 old
  · obtain ⟨logical,chosen,inside⟩ := List.mem_flatMap.mp new
    obtain ⟨family,-,rfl⟩ := List.mem_map.mp inside
    exact outside (List.contains_iff_mem.mp (List.mem_filter.mp chosen).2)

theorem clearKeeps (ends : RuleSpec → Deletion) (inventory : Bool) : Keeps rule m (m.clear ends inventory).1 := by
  intro foreign
  have live : rule ∈ m.live.filter fun held => !(m.owned.contains held && ends held != .failed) := by
    refine List.mem_filter.mpr ⟨foreign.1,?_⟩
    rw [Bool.not_eq_true',Bool.and_eq_false_iff]
    exact .inl (Bool.eq_false_iff.mpr fun held => foreign.2 (List.contains_iff_mem.mp held))
  refine ⟨⟨live,fun mem => foreign.2 (List.mem_of_mem_filter mem)⟩,fun ⟨t,tracked,covers⟩ => ⟨t,List.mem_filter.mpr ⟨tracked,?_⟩,covers⟩⟩
  cases inventory with
  | false => exact Bool.or_true _
  | true =>
    have seen := List.any_eq_true.mpr ⟨rule,live,covers⟩
    simp only [seen,Bool.and_self,Bool.or_true,Bool.true_or]

theorem happenKeeps (event : Event) (spares : event.Spares rule) : Keeps rule m (happen m event) := by
  cases event with
  | reconcile desired => exact reconcileKeeps desired
  | removeOrphanedGenerated desired tables ends inventory => exact orphanedKeeps desired ends inventory spares
  | adoptLiveGeneratedDesired desired tables => exact adoptKeeps desired spares
  | clear ends inventory => exact clearKeeps ends inventory
  | arrives other => exact fun foreign => ⟨⟨List.mem_append_left _ foreign.1,foreign.2⟩,id⟩
  | vanishes other =>
    refine fun foreign => ⟨⟨List.mem_filter.mpr ⟨foreign.1,?_⟩,foreign.2⟩,id⟩
    exact bne_iff_ne.mpr (Ne.symm spares)

theorem clearTold (ends : RuleSpec → Deletion) (inventory : Bool) (covered : Covered rule (m.clear ends inventory).1) :
    rule.table ∈ (m.clear ends inventory).2 := by
  obtain ⟨t,tracked,covers⟩ := covered
  rw [← (coversIff.mp covers).1]
  exact List.mem_map.mpr ⟨t,List.mem_append_right _ tracked,rfl⟩

end Foreign

/- A rule of somebody else outlives every run that spares it; once a tracked rule covers it, every later
clear tells its table, whose routes the rule still needs. -/
theorem foreignStays (rule : RuleSpec) (m after : PolicyRuleManager) (events : List Event) (ends : RuleSpec → Deletion) (inventory : Bool)
    (foreign : Foreign rule m) (run : Runs.Run happen (fun _ event => event.Spares rule) m events after) :
    Foreign rule (after.clear ends inventory).1 ∧
      (Covered rule m → Covered rule (after.clear ends inventory).1 ∧ rule.table ∈ (after.clear ends inventory).2) := by
  have kept : Foreign rule after ∧ (Covered rule m → Covered rule after) := by
    refine run.keeps (fun s event spares (before : Foreign rule s ∧ (Covered rule m → Covered rule s)) => ?_) ⟨foreign,id⟩
    obtain ⟨still,covered⟩ := happenKeeps event spares before.1
    exact ⟨still,covered ∘ before.2⟩
  obtain ⟨last,covered⟩ := clearKeeps ends inventory kept.1
  exact ⟨last,fun start => ⟨covered (kept.2 start),clearTold ends inventory (covered (kept.2 start))⟩⟩

/- The foreign IPv4 rule under a desired mark: a recovery in another table, then a clear whose deletes fail. -/
def markEvents : List Event :=
  [.removeOrphanedGenerated [markRule6] [7] (fun _ => .deleted) true,.clear (fun _ => .failed) false,.reconcile []]

def markAfter : PolicyRuleManager := markEvents.foldl happen (markStart.reconcile [markRule])

theorem markStays : Foreign markRule4 (markAfter.clear (fun _ => .lost) true).1 ∧ 100 ∈ (markAfter.clear (fun _ => .lost) true).2 := by
  have present : Foreign markRule4 (markStart.reconcile [markRule]) := ⟨by decide,by decide⟩
  have outside : markRule4.table ∉ [7] := by decide
  have stays := foreignStays markRule4 (markStart.reconcile [markRule]) markAfter markEvents (fun _ => .lost) true present
    (.step outside (.step trivial (.step trivial (.stop _))))
  exact ⟨stays.1,(stays.2 ⟨markRule,by decide,by decide⟩).2⟩

end KeenPbr.PolicyRules
