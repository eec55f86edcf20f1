import KeenPbr.TransactionPlan
import KeenPbr.NetlinkSpec

/-! What build_plan promises the run: every planned route candidate owns a slot that was empty
or held one representable generated route, no two candidates share a slot, every planned rule
was absent, and cleanup lists only what a prior owner or the recovery heuristic names. -/
namespace KeenPbr

structure RouteFits (request : RuntimeRoutingTransactionRequest) (init : List DumpedRoute)
    (m : PlannedRouteMutation) : Prop where
  desired : m.candidate ∈ request.desiredRoutes
  explicit : m.candidate.family ≠ 0
  generated : isGeneratedRouteCandidate (dumpedRouteFromSpec m.candidate) = true
  absent : routePresent m.candidate init = false
  slot : (m.replace = false ∧ m.preimages = [] ∧ occupants m.candidate.slot init = []) ∨
    (m.replace = true ∧ ∃ live, occupants m.candidate.slot init = [live] ∧
      live.exactIdentityRepresentable = true ∧ isGeneratedRouteCandidate live = true ∧
      m.preimages = [routeSpecFromLive live])
  created : m.createdReceipt = true → m.replace = false
  replaced : m.replacementReceipt = true → m.replace = true

def PlannedRouteMutation.idle (m : PlannedRouteMutation) : Prop :=
  m.createdReceipt = false ∧ m.replacementReceipt = false

structure RuleFits (request : RuntimeRoutingTransactionRequest) (init : List DumpedRule)
    (m : PlannedRuleMutation) : Prop where
  desired : m.candidate ∈ concreteRules request.desiredRules
  fresh : bearers m.candidate init = []

def DistinctSlots (routes : List PlannedRouteMutation) : Prop :=
  routes.Pairwise fun a b => a.candidate.slot ≠ b.candidate.slot

section Routes
variable {inet : Inet} {request : RuntimeRoutingTransactionRequest} {live : List DumpedRoute}

theorem candidateExplicit {candidate : RouteSpec} (h : checkCandidateRoute inet candidate = .ok ()) :
    candidate.family ≠ 0 := by
  unfold checkCandidateRoute at h
  split at h
  · cases h
  · rename_i family
    intro zero
    simp [zero,afInet,afInet6] at family

theorem candidateGenerated {candidate : RouteSpec} (h : checkCandidateRoute inet candidate = .ok ()) :
    isGeneratedRouteCandidate (dumpedRouteFromSpec candidate) = true := by
  unfold checkCandidateRoute at h
  repeat' split at h
  all_goals cases h
  rename_i owned
  simpa using owned

theorem notDuplicate {candidate : RouteSpec} {earlier : List RouteSpec}
    (h : earlierDuplicate candidate earlier = .ok false) : ∀ e ∈ earlier, candidate.slot ≠ e.slot := by
  induction earlier with
  | nil => simp
  | cons head rest ih =>
    simp only [earlierDuplicate] at h
    split at h
    · cases h
    · split at h
      · cases h
      · rename_i differs
        rw [sameSlotIff,slotFromSpec] at differs
        intro e mem
        rcases List.mem_cons.mp mem with rfl | later
        · exact fun same => differs same.symm
        · exact ih h e later

theorem collisionShape {candidate : RouteSpec} {preimages : List RouteSpec}
    (h : routeCollisions candidate live = .ok preimages) :
    (preimages = [] ∧ occupants candidate.slot live = []) ∨
      ∃ r, occupants candidate.slot live = [r] ∧ r.exactIdentityRepresentable = true ∧
        isGeneratedRouteCandidate r = true ∧ preimages = [routeSpecFromLive r] := by
  simp only [routeCollisions,filterSameSlot] at h
  split at h
  · cases h
  · rename_i owned
    split at h
    · cases h
    · cases Except.ok.inj h
      cases slot : occupants candidate.slot live with
      | nil => left; simp
      | cons r rest =>
        right
        rename_i short
        rw [slot] at owned short
        cases rest with
        | nil =>
          have both : r.exactIdentityRepresentable = true ∧ isGeneratedRouteCandidate r = true := by
            simpa using owned
          exact ⟨r,rfl,both.1,both.2,rfl⟩
        | cons s more => simp at short

theorem planMutationFits {candidate : RouteSpec} {preimages : List RouteSpec} (plan : Plan)
    (desired : candidate ∈ request.desiredRoutes) (checked : checkCandidateRoute inet candidate = .ok ())
    (absent : routePresent candidate live = false) (shape : routeCollisions candidate live = .ok preimages) :
    ∃ m, (planMutation candidate preimages plan).routes = plan.routes ++ [m] ∧ m.candidate = candidate ∧
      m.idle ∧ RouteFits request live m := by
  refine ⟨_,rfl,rfl,⟨rfl,rfl⟩,desired,candidateExplicit checked,candidateGenerated checked,absent,?_,nofun,nofun⟩
  rcases collisionShape shape with ⟨rfl,free⟩ | ⟨r,single,exact,owned,rfl⟩
  · exact .inl ⟨rfl,rfl,free⟩
  · exact .inr ⟨rfl,r,single,exact,owned,rfl⟩

structure PlannedRoutes (request : RuntimeRoutingTransactionRequest) (live : List DumpedRoute)
    (routes : List PlannedRouteMutation) : Prop where
  fits : ∀ m ∈ routes, RouteFits request live m
  idle : ∀ m ∈ routes, m.idle
  distinct : DistinctSlots routes

theorem plannedSnoc {routes : List PlannedRouteMutation} {m : PlannedRouteMutation} {earlier : List RouteSpec}
    (h : PlannedRoutes request live routes) (origin : ∀ m ∈ routes, m.candidate ∈ earlier)
    (fits : RouteFits request live m) (idle : m.idle) (fresh : ∀ e ∈ earlier, m.candidate.slot ≠ e.slot) :
    PlannedRoutes request live (routes ++ [m]) where
  fits := by
    intro x mem
    rcases List.mem_append.mp mem with old | new
    · exact h.fits x old
    · rw [List.mem_singleton.mp new]; exact fits
  idle := by
    intro x mem
    rcases List.mem_append.mp mem with old | new
    · exact h.idle x old
    · rw [List.mem_singleton.mp new]; exact idle
  distinct := by
    refine List.pairwise_append.mpr ⟨h.distinct,List.pairwise_singleton _ _,?_⟩
    intro x mem y last
    rw [List.mem_singleton.mp last]
    exact fun same => fresh x.candidate (origin x mem) same.symm

theorem planRoutesStep {candidate : RouteSpec} {earlier rest : List RouteSpec} {plan out : Plan}
    (h : planRoutes inet live earlier (candidate :: rest) plan = .ok out) :
    checkCandidateRoute inet candidate = .ok () ∧ ∃ next,
      planRoutes inet live (earlier ++ [candidate]) rest next = .ok out ∧
      (next = plan ∨ earlierDuplicate candidate earlier = .ok false ∧ routePresent candidate live = false ∧
        ∃ preimages, routeCollisions candidate live = .ok preimages ∧ next = planMutation candidate preimages plan) := by
  simp only [planRoutes] at h
  obtain ⟨_,checked,h⟩ := bindOk h
  obtain ⟨duplicate,earlierOk,h⟩ := bindOk h
  refine ⟨checked,?_⟩
  split at h
  · exact ⟨plan,h,.inl rfl⟩
  · rename_i unique
    split at h
    · exact ⟨plan,h,.inl rfl⟩
    · rename_i notSingle
      split at h
      · cases h
      · rename_i blocked
        obtain ⟨preimages,shape,h⟩ := bindOk h
        refine ⟨_,h,.inr ⟨?_,?_,preimages,shape,rfl⟩⟩
        · rw [earlierOk,Bool.eq_false_iff.mpr unique]
        · cases state : exactSlotState candidate live with
          | exactSingle => simp [state] at notSingle
          | mismatch => simpa [state] using blocked
          | empty =>
            rw [Bool.eq_false_iff,ne_eq,routePresentIff]
            rintro ⟨r,mem,exact⟩
            have inside := memOccupants.mpr ⟨mem,matchesLiveSlot exact⟩
            rw [(slotEmptyIff _ _).mp state] at inside
            cases inside

theorem planRoutesPlanned {earlier todo : List RouteSpec} {plan out : Plan}
    (h : planRoutes inet live earlier todo plan = .ok out) (desired : ∀ c ∈ todo, c ∈ request.desiredRoutes)
    (inv : PlannedRoutes request live plan.routes) (origin : ∀ m ∈ plan.routes, m.candidate ∈ earlier) :
    PlannedRoutes request live out.routes ∧ out.rules = plan.rules ∧ out.staleRules = plan.staleRules ∧
      out.staleRoutes = plan.staleRoutes := by
  induction todo generalizing earlier plan with
  | nil =>
    cases Except.ok.inj h
    exact ⟨inv,rfl,rfl,rfl⟩
  | cons candidate rest ih =>
    obtain ⟨checked,next,tail,chosen⟩ := planRoutesStep h
    have later : ∀ c ∈ rest, c ∈ request.desiredRoutes := fun c mem => desired c (List.mem_cons_of_mem _ mem)
    rcases chosen with rfl | ⟨unique,absent,preimages,shape,rfl⟩
    · exact ih tail later inv fun m mem => List.mem_append_left _ (origin m mem)
    · obtain ⟨m,routes,same,idle,fits⟩ :=
        planMutationFits plan (desired candidate List.mem_cons_self) checked absent shape
      have grown : PlannedRoutes request live (planMutation candidate preimages plan).routes := by
        rw [routes]
        exact plannedSnoc inv origin fits idle (by rw [same]; exact notDuplicate unique)
      have known : ∀ x ∈ (planMutation candidate preimages plan).routes, x.candidate ∈ earlier ++ [candidate] := by
        rw [routes]
        intro x mem
        rcases List.mem_append.mp mem with old | new
        · exact List.mem_append_left _ (origin x old)
        · rw [List.mem_singleton.mp new,same]
          exact List.mem_append_right _ (List.mem_singleton_self _)
      obtain ⟨planned,rules,staleRules,staleRoutes⟩ := ih tail later grown known
      exact ⟨planned,rules,staleRules,staleRoutes⟩

end Routes

theorem planRulesPlanned {request : RuntimeRoutingTransactionRequest} {liveRoutes : List DumpedRoute}
    {live : List DumpedRule} {todo : List RuleSpec} {plan out : Plan}
    (h : planRules request liveRoutes live todo plan = .ok out)
    (desired : ∀ c ∈ todo, c ∈ concreteRules request.desiredRules)
    (inv : ∀ m ∈ plan.rules, RuleFits request live m ∧ m.createdReceipt = false) :
    (∀ m ∈ out.rules, RuleFits request live m ∧ m.createdReceipt = false) ∧ out.routes = plan.routes ∧
      out.staleRules = plan.staleRules ∧ out.staleRoutes = plan.staleRoutes := by
  induction todo generalizing plan with
  | nil =>
    cases Except.ok.inj h
    exact ⟨inv,rfl,rfl,rfl⟩
  | cons candidate rest ih =>
    have later : ∀ c ∈ rest, c ∈ concreteRules request.desiredRules :=
      fun c mem => desired c (List.mem_cons_of_mem _ mem)
    simp only [planRules] at h
    cases state : exactRuleState candidate live with
    | mismatch => simp only [state] at h; cases h
    | exactSingle =>
      simp only [state] at h
      split at h
      · have done := ih h later inv
        exact done
      · exact ih h later inv
    | empty =>
      simp only [state] at h
      have done := ih h later (by
        intro m mem
        rcases List.mem_append.mp mem with old | new
        · exact inv m old
        · rw [List.mem_singleton.mp new]
          exact ⟨⟨desired candidate List.mem_cons_self,(ruleEmptyIff _ _).mp state⟩,rfl⟩)
      exact done

def corroboratedTables (live : List DumpedRoute) : List UInt32 :=
  (live.filter fun route => route.exactIdentityRepresentable && isGeneratedRouteCandidate route).map (·.table)

def recoveryOrphans (request : RuntimeRoutingTransactionRequest) (init : Kernel) : List RuleSpec :=
  if request.allowRecoveryRuleHeuristic then
    findOrphanedGeneratedRules request.desiredRules init.rules (corroboratedTables init.routes)
  else []

theorem staleRuleKnown {request : RuntimeRoutingTransactionRequest} {init : Kernel} {spec : RuleSpec}
    (h : spec ∈ staleRuleSpecs request init.rules (corroboratedTables init.routes)) :
    spec ∈ recoveryOrphans request init ∨ spec ∈ concreteRules request.priorOwnedRules := by
  have grow : ∀ priors stale : List RuleSpec,
      spec ∈ priors.foldl (fun stale prior =>
        if !rulePresent prior init.rules then stale
        else if (concreteRules request.desiredRules).any (fun desired => sameRuleTuple desired prior) then stale
        else if stale.any (fun planned => sameRuleTuple planned prior) then stale
        else stale ++ [prior]) stale → spec ∈ stale ∨ spec ∈ priors := by
    intro priors
    induction priors with
    | nil => intro stale mem; exact .inl mem
    | cons prior rest ih =>
      intro stale mem
      rcases ih _ mem with kept | later
      · simp only at kept
        repeat' split at kept
        all_goals first
          | exact .inl kept
          | exact (List.mem_append.mp kept).imp id fun last => by
              rw [List.mem_singleton.mp last]; exact List.mem_cons_self
      · exact .inr (List.mem_cons_of_mem _ later)
  exact grow _ _ h

theorem foldStaleRules (specs : List RuleSpec) (plan : Plan) :
    (specs.foldl planStaleRule plan).routes = plan.routes ∧ (specs.foldl planStaleRule plan).rules = plan.rules ∧
      (specs.foldl planStaleRule plan).staleRoutes = plan.staleRoutes ∧
      (specs.foldl planStaleRule plan).staleRules.map (·.stale) = plan.staleRules.map (·.stale) ++ specs := by
  induction specs generalizing plan with
  | nil => simp
  | cons spec rest ih =>
    obtain ⟨routes,rules,staleRoutes,staleRules⟩ := ih (planStaleRule plan spec)
    refine ⟨routes,rules,staleRoutes,?_⟩
    rw [List.foldl_cons,staleRules]
    simp [planStaleRule]

theorem foldStaleRoutes (specs : List RouteSpec) (plan : Plan) :
    (specs.foldl planStaleRoute plan).routes = plan.routes ∧ (specs.foldl planStaleRoute plan).rules = plan.rules ∧
      (specs.foldl planStaleRoute plan).staleRules = plan.staleRules ∧
      (specs.foldl planStaleRoute plan).staleRoutes.map (·.stale) = plan.staleRoutes.map (·.stale) ++ specs := by
  induction specs generalizing plan with
  | nil => simp
  | cons spec rest ih =>
    obtain ⟨routes,rules,staleRules,staleRoutes⟩ := ih (planStaleRoute plan spec)
    refine ⟨routes,rules,staleRules,?_⟩
    rw [List.foldl_cons,staleRoutes]
    simp [planStaleRoute]

theorem planCleanupShape (request : RuntimeRoutingTransactionRequest) (init : Kernel) {plan : Plan}
    (noRules : plan.staleRules = []) (noRoutes : plan.staleRoutes = []) :
    (planCleanup request init.routes init.rules plan).routes = plan.routes ∧
      (planCleanup request init.routes init.rules plan).rules = plan.rules ∧
      (planCleanup request init.routes init.rules plan).staleRules.map (·.stale) =
        staleRuleSpecs request init.rules (corroboratedTables init.routes) ∧
      (planCleanup request init.routes init.rules plan).staleRoutes.map (·.stale) =
        obsoleteRoutes request init.routes := by
  simp only [planCleanup,Plan.push,foldStaleRoutes,foldStaleRules,noRules,noRoutes,List.map_nil,List.nil_append,
    true_and,and_true]
  rfl

structure Planned (request : RuntimeRoutingTransactionRequest) (init : Kernel) (plan : Plan) : Prop where
  routes : PlannedRoutes request init.routes plan.routes
  rules : ∀ m ∈ plan.rules, RuleFits request init.rules m ∧ m.createdReceipt = false
  staleRules : ∀ c ∈ plan.staleRules,
    c.stale ∈ recoveryOrphans request init ∨ c.stale ∈ concreteRules request.priorOwnedRules
  staleRoutes : ∀ c ∈ plan.staleRoutes, c.stale ∈ obsoleteRoutes request init.routes

theorem buildPlanPlanned {inet : Inet} {request : RuntimeRoutingTransactionRequest} {init : Kernel} {plan : Plan}
    (h : buildPlan inet request init.routes init.rules = .ok plan) : Planned request init plan := by
  simp only [buildPlan] at h
  obtain ⟨_,_,h⟩ := bindOk h
  obtain ⟨_,_,h⟩ := bindOk h
  obtain ⟨_,_,h⟩ := bindOk h
  obtain ⟨_,_,h⟩ := bindOk h
  obtain ⟨routed,routesOk,h⟩ := bindOk h
  obtain ⟨ruled,rulesOk,h⟩ := bindOk h
  cases Except.ok.inj h
  have start : PlannedRoutes request init.routes [] := ⟨by simp,by simp,List.Pairwise.nil⟩
  obtain ⟨routes,noRules,none1,none2⟩ := planRoutesPlanned routesOk (fun _ mem => mem) start (by simp)
  obtain ⟨rules,same,keep1,keep2⟩ := planRulesPlanned rulesOk (fun _ mem => mem) (by simp [noRules])
  obtain ⟨sameRoutes,sameRules,staleRules,staleRoutes⟩ :=
    planCleanupShape request init (keep1.trans none1) (keep2.trans none2)
  refine ⟨?_,?_,?_,?_⟩
  · rw [sameRoutes,same]; exact routes
  · rw [sameRules]; exact rules
  · intro c mem
    have listed := List.mem_map_of_mem (f := (·.stale)) mem
    rw [staleRules] at listed
    exact staleRuleKnown listed
  · intro c mem
    have listed := List.mem_map_of_mem (f := (·.stale)) mem
    rwa [staleRoutes] at listed

end KeenPbr
