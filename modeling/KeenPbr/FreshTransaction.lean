import KeenPbr.TransactionPlanned

/-! build_plan on an empty live inventory: nothing live can be in the way, so a request is accepted
by its own routes, rules and authorities alone. -/
namespace KeenPbr

theorem forMOk {α : Type} {check : α → Except String Unit} {list : List α} :
    list.forM check = .ok () ↔ ∀ x ∈ list, check x = .ok () := by
  induction list with
  | nil => simp [List.forM,pure,Except.pure]
  | cons first rest ih =>
    rw [List.forM_eq_forM,List.forM_cons,List.forall_mem_cons]
    constructor
    · intro ok
      obtain ⟨_,here,later⟩ := bindOk ok
      exact ⟨here,ih.mp later⟩
    · intro ok
      rw [ok.1]
      exact ih.mpr ok.2

/- Two routes in one kernel slot are one route. -/
def SlotsAgree (routes : List RouteSpec) : Prop := ∀ a ∈ routes, ∀ b ∈ routes, a.slot = b.slot → a = b

theorem earlierDuplicateOk {candidate : RouteSpec} {earlier : List RouteSpec} (agree : SlotsAgree earlier) :
    (∃ duplicate, earlierDuplicate candidate earlier = .ok duplicate) ↔
      ∀ e ∈ earlier, candidate.slot = e.slot → candidate = e := by
  induction earlier with
  | nil => simp [earlierDuplicate]
  | cons head rest ih =>
    have later : SlotsAgree rest := fun a ha b hb => agree a (List.mem_cons_of_mem head ha) b (List.mem_cons_of_mem head hb)
    rw [earlierDuplicate,List.forall_mem_cons]
    split
    · rename_i same
      have same := (routeSpecsEqualIff candidate head).mp same
      subst same
      constructor
      · intro _
        refine ⟨fun _ => rfl,?_⟩
        intro e mem slot
        exact agree candidate List.mem_cons_self e (List.mem_cons_of_mem _ mem) slot
      · intro _
        exact ⟨true,rfl⟩
    · rename_i differs
      have differs : candidate ≠ head := fun same => differs ((routeSpecsEqualIff candidate head).mpr same)
      split
      · rename_i slot
        have slot : candidate.slot = head.slot := by
          rw [sameSlotIff,slotFromSpec] at slot
          exact slot.symm
        constructor
        · intro ok
          obtain ⟨_,ok⟩ := ok
          cases ok
        · intro all
          exact absurd (all.1 slot) differs
      · rename_i apart
        have apart : candidate.slot ≠ head.slot := by
          intro same
          apply apart
          rw [sameSlotIff,slotFromSpec]
          exact same.symm
        rw [ih later]
        constructor
        · intro all
          exact ⟨fun slot => absurd slot apart,all⟩
        · exact fun all => all.2

theorem slotsAgreeSnoc {earlier rest : List RouteSpec} {candidate : RouteSpec} :
    SlotsAgree (earlier ++ candidate :: rest) ↔ SlotsAgree ((earlier ++ [candidate]) ++ rest) := by
  rw [List.append_assoc]
  rfl

theorem slotsAgreeOne {earlier : List RouteSpec} {candidate : RouteSpec} (agree : SlotsAgree earlier) :
    SlotsAgree (earlier ++ [candidate]) ↔ ∀ e ∈ earlier, candidate.slot = e.slot → candidate = e := by
  constructor
  · intro all e mem slot
    exact all candidate (by simp) e (List.mem_append_left _ mem) slot
  · intro all a ha b hb slot
    rw [List.mem_append,List.mem_singleton] at ha hb
    obtain ha | rfl := ha
    · obtain hb | rfl := hb
      · exact agree a ha b hb slot
      · exact (all a ha slot.symm).symm
    · obtain hb | rfl := hb
      · exact all b hb slot
      · rfl

theorem planRoutesFresh (inet : Inet) {todo earlier : List RouteSpec} (plan : Plan) (agree : SlotsAgree earlier) :
    (∃ out, planRoutes inet [] earlier todo plan = .ok out) ↔
      (∀ route ∈ todo, checkCandidateRoute inet route = .ok ()) ∧ SlotsAgree (earlier ++ todo) := by
  induction todo generalizing earlier plan with
  | nil => simp [planRoutes,agree]
  | cons candidate rest ih =>
    rw [slotsAgreeSnoc,List.forall_mem_cons]
    constructor
    · intro ok
      obtain ⟨out,ok⟩ := ok
      obtain ⟨_,checked,ok⟩ := bindOk ok
      obtain ⟨duplicate,found,ok⟩ := bindOk ok
      have own := (slotsAgreeOne agree).mpr ((earlierDuplicateOk agree).mp ⟨duplicate,found⟩)
      obtain ⟨next,ok⟩ : ∃ next, planRoutes inet [] (earlier ++ [candidate]) rest next = .ok out := by
        cases duplicate with
        | true => exact ⟨plan,ok⟩
        | false => exact ⟨planMutation candidate [] plan,ok⟩
      obtain ⟨later,all⟩ := (ih next own).mp ⟨out,ok⟩
      exact ⟨⟨checked,later⟩,all⟩
    · intro ok
      obtain ⟨⟨checked,later⟩,all⟩ := ok
      have own : SlotsAgree (earlier ++ [candidate]) :=
        fun a ha b hb => all a (List.mem_append_left _ ha) b (List.mem_append_left _ hb)
      obtain ⟨duplicate,found⟩ := (earlierDuplicateOk agree).mpr ((slotsAgreeOne agree).mp own)
      rw [planRoutes,checked]
      simp only [bind,Except.bind,found]
      cases duplicate with
      | true => exact (ih plan own).mpr ⟨later,all⟩
      | false => exact (ih (planMutation candidate [] plan) own).mpr ⟨later,all⟩

theorem planRulesFresh (request : RuntimeRoutingTransactionRequest) (liveRoutes : List DumpedRoute) (rules : List RuleSpec)
    (plan : Plan) : ∃ out, planRules request liveRoutes [] rules plan = .ok out := by
  induction rules generalizing plan with
  | nil => exact ⟨plan,rfl⟩
  | cons candidate rest ih =>
    have empty : exactRuleState candidate [] = .empty := rfl
    rw [planRules,empty]
    exact ih _

structure FreshAccepted (inet : Inet) (request : RuntimeRoutingTransactionRequest) : Prop where
  authorities : ∀ authority ∈ request.authorizedExternalTables, checkAuthority authority = .ok ()
  rules : ∀ rule ∈ request.desiredRules, checkDesiredRule rule = .ok ()
  priors : ∀ rule ∈ request.priorOwnedRules, checkPriorRule rule = .ok ()
  anchors : ∀ rule ∈ concreteRules request.desiredRules, checkAnchor request rule = .ok ()
  routes : ∀ route ∈ request.desiredRoutes, checkCandidateRoute inet route = .ok ()
  slots : SlotsAgree request.desiredRoutes

theorem buildPlanFresh (inet : Inet) (request : RuntimeRoutingTransactionRequest) :
    (∃ plan, buildPlan inet request [] [] = .ok plan) ↔ FreshAccepted inet request := by
  have noEarlier : SlotsAgree [] := by
    intro a mem
    cases mem
  constructor
  · intro ok
    obtain ⟨plan,ok⟩ := ok
    obtain ⟨_,authorities,ok⟩ := bindOk ok
    obtain ⟨_,rules,ok⟩ := bindOk ok
    obtain ⟨_,priors,ok⟩ := bindOk ok
    obtain ⟨_,anchors,ok⟩ := bindOk ok
    obtain ⟨routes,planned,_⟩ := bindOk ok
    obtain ⟨checked,slots⟩ := (planRoutesFresh inet _ noEarlier).mp ⟨routes,planned⟩
    exact ⟨forMOk.mp authorities,forMOk.mp rules,forMOk.mp priors,forMOk.mp anchors,checked,slots⟩
  · intro accepted
    obtain ⟨routes,planned⟩ := (planRoutesFresh inet { publishedJournal := { identity := request.identity } } noEarlier).mpr
      ⟨accepted.routes,accepted.slots⟩
    obtain ⟨rules,ruled⟩ := planRulesFresh request [] (concreteRules request.desiredRules) routes
    refine ⟨planCleanup request [] [] rules,?_⟩
    unfold buildPlan
    rw [forMOk.mpr accepted.authorities,forMOk.mpr accepted.rules,forMOk.mpr accepted.priors,forMOk.mpr accepted.anchors]
    simp only [bind,Except.bind,planned,ruled]
    rfl

end KeenPbr
