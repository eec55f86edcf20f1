import KeenPbr.TransactionForward

/-! The cleanup phase and the whole run. Cleanup deletes only what the plan lists, and a route
only while every live rule of its table is a desired rule with another live anchor; the run's
last observation decides whether it ends committed. -/
namespace KeenPbr
open Wp Trace NetlinkManager

section Cleanup
variable {out : Outside} {request : RuntimeRoutingTransactionRequest} {init : Kernel} {v : View}

structure Cleaning (request : RuntimeRoutingTransactionRequest) (init : Kernel) (flags : CleanupFlags) (v : View) :
    Prop where
  inv : Inv request init v.kernel v.trace
  phase : v.phase = .cleanup
  current : flags.superseded = false → AllCurrent v.trace

theorem cleaningFenced {flags : CleanupFlags} {state : FenceProbeState} (h : Cleaning request init flags v) :
    Cleaning request init { flags.fail .fence with superseded := true } (v.fenced state) :=
  ⟨invFenced h.inv,h.phase,nofun⟩

theorem cleaningFail {flags : CleanupFlags} {stage : RuntimeRoutingFailureStage} (h : Cleaning request init flags v) :
    Cleaning request init (flags.fail stage) v :=
  ⟨h.inv,h.phase,h.current⟩

theorem cleaningEntered {flags : CleanupFlags} {mutation : Mutation} {k : Kernel} (h : Cleaning request init flags v)
    (live : flags.superseded = false) (effect : Harmless request init .cleanup v.kernel k) :
    Cleaning request init flags (v.entered mutation k) :=
  ⟨calledInv h.inv (h.current live) h.phase effect,h.phase,fun _ => currentCalled (currentFenced (h.current live))⟩

theorem cleanupRuleSeen {flags : CleanupFlags} {c : PlannedCleanupRule} (h : Cleaning request init flags v)
    (known : c.stale ∈ concreteRules request.desiredRules ++ concreteRules request.priorOwnedRules ++
      recoveryOrphans request init) :
    shows (cleanupRule out request flags c) (Cleaning request init) (fun _ _ => False) v := by
  unfold cleanupRule
  refine seenIte (fun _ => seenBind (onEntrySeen (seenPure h))) fun goes => ?_
  have live : flags.superseded = false := by simpa using goes
  have unknown : ∀ {w : View}, Cleaning request init flags w → shows (do
      onEntry c.journal (setBoth .effectUnknown .unknown)
      pure (flags.fail .cleanupRule)) (Cleaning request init) (fun _ _ => False) w :=
    fun clean => seenBind (onEntrySeen (seenPure (cleaningFail clean)))
  refine seenCatch (seenBind (readRulesSeen ?_ fun _ => unknown h))
  split
  · exact seenBind (onEntrySeen (seenPure h))
  · exact seenBind (onEntrySeen (seenPure (cleaningFail h)))
  refine seenBind (observeFenceSeen fun state => ?_)
  refine seenIte (fun _ => seenBind (onEntrySeen (seenPure (cleaningFenced h)))) fun ok => ?_
  obtain rfl : state = .current := by simpa using ok
  have clean : ∀ k, k = v.kernel ∨ DeletedRule c.stale v.kernel k →
      Cleaning request init flags (v.entered (.deleteRuleIfExact c.stale) k) := by
    intro k effect
    refine cleaningEntered h live ?_
    rcases effect with rfl | effect
    · exact harmlessNone
    · exact deletedRuleHarmless known effect
  refine seenBind (enterMutationSeen (seenBind (mutatingSeen
    (P := fun _ k => k = v.kernel ∨ DeletedRule c.stale v.kernel k)
    (F := fun k => k = v.kernel ∨ DeletedRule c.stale v.kernel k) ?_ ?_ fun _ k effect => unknown (clean k effect))))
  · intro b same
    have here : b.kernel = v.kernel := same
    rw [← here]
    refine mono (deleteRuleIfExactRule c.stale b) ?_ fun _ _ effect => effect
    intro r b' effect
    cases r with
    | deleted => exact .inr effect
    | alreadyAbsent => exact .inl effect.2
    | preconditionMismatch => exact .inl effect
  · intro r k effect
    refine seenIte (fun _ => seenBind (onEntrySeen (seenPure (cleaningFail (clean k effect))))) fun _ => ?_
    refine seenBind (onEntrySeen (seenBind (readRulesSeen ?_ fun _ => unknown (clean k effect))))
    refine seenIte (fun _ => ?_) fun _ => seenBind (onEntrySeen (seenPure (clean k effect)))
    exact seenBind (onEntrySeen (seenPure (cleaningFail (clean k effect))))

theorem cleanupRulesSeen {flags : CleanupFlags} {todo : List PlannedCleanupRule} (h : Cleaning request init flags v)
    (known : ∀ c ∈ todo, c.stale ∈ recoveryOrphans request init ∨ c.stale ∈ concreteRules request.priorOwnedRules) :
    shows (cleanupRules out request flags todo) (Cleaning request init) (fun _ _ => False) v := by
  induction todo generalizing flags v with
  | nil => exact seenPure h
  | cons c rest ih =>
    have listed : c.stale ∈ concreteRules request.desiredRules ++ concreteRules request.priorOwnedRules ++
        recoveryOrphans request init := by
      rcases known c List.mem_cons_self with orphan | prior
      · exact List.mem_append_right _ orphan
      · exact List.mem_append_left _ (List.mem_append_right _ prior)
    refine seenBind (seenMono (cleanupRuleSeen h listed) ?_ fun _ _ no => no)
    exact fun next w clean => ih clean fun x later => known x (List.mem_cons_of_mem _ later)

theorem proveStaleRuleAbsenceSeen {plan : Plan} {flags : CleanupFlags} (h : Cleaning request init flags v) :
    shows (proveStaleRuleAbsence out plan) (fun _ w => Cleaning request init flags w) (fun _ _ => False) v := by
  unfold proveStaleRuleAbsence
  refine seenCatch (seenBind (readRulesSeen ?_ fun _ => ?_))
  · exact seenBind (onResultSeen (seenBind (onEntrySeen (seenPure h))))
  · exact seenBind (onEntrySeen (seenBind (onResultSeen (seenPure h))))

structure Obsolete (request : RuntimeRoutingTransactionRequest) (stale : RouteSpec) : Prop where
  explicit : stale.family ≠ 0
  generated : isGeneratedRouteCandidate (dumpedRouteFromSpec stale) = true
  apart : ∀ spec ∈ request.desiredRoutes, spec.slot ≠ stale.slot

theorem obsoleteOf {stale : RouteSpec} (h : stale ∈ obsoleteRoutes request init.routes) : Obsolete request stale := by
  obtain ⟨live,mem,rfl⟩ := List.mem_map.mp h
  obtain ⟨inside,chosen⟩ := List.mem_filter.mp mem
  simp only [Bool.and_eq_true,Bool.not_eq_true',List.any_eq_false] at chosen
  refine ⟨init.families live inside,chosen.1.1,fun spec desired same => ?_⟩
  refine chosen.2 spec desired ((sameSlotIff _ _).mpr ?_)
  rw [← slotFromLive,same]

theorem accountedDrops {stale : RouteSpec} {k k' : Kernel} (obsolete : Obsolete request stale)
    (accounted : tableHasUnaccountedRuleDependency stale request k.rules (k.dumpRoutes stale.family) = false)
    (effect : DeletedRoute stale k k') : DropsAnchored request k k' (Excused request init .cleanup) := by
  intro route mem gone rule inside _ table family
  have here : route.slot = stale.slot := by
    by_contra away
    apply gone
    rw [effect.2.1]
    exact List.mem_filter.mpr ⟨mem,by simpa using away⟩
  have place := slotTableFamily here
  rw [effect.2.2] at inside
  simp only [tableHasUnaccountedRuleDependency,List.any_eq_false] at accounted
  have this := accounted rule inside
  rw [if_neg (by simp [table,family,place.1,place.2])] at this
  simp only [Bool.or_eq_true,Bool.not_eq_true',not_or,Bool.not_eq_false,List.any_eq_true] at this
  obtain ⟨_,logical,_,concrete⟩ := this
  split at concrete
  · cases concrete
  simp only [Bool.and_eq_true] at concrete
  obtain ⟨⟨⟨named,_⟩,managed⟩,present⟩ := concrete
  rw [ruleDependencyPresent,if_pos managed] at present
  simp only [List.any_eq_true,Bool.and_eq_true,beq_iff_eq] at present
  obtain ⟨spec,desired,⟨specTable,specFamily⟩,single⟩ := present
  obtain ⟨anchor,slot,exact⟩ := (slotSingleIff _ _).mp single
  have kept := memOccupants.mp (show anchor ∈ occupants spec.slot (k.dumpRoutes _) by rw [slot]; simp)
  have anchorPlace := slotTableFamily kept.2
  have sameTable := ((ruleMatchesIff _ _).mp named).2.2.1
  refine .inl ⟨spec,List.mem_append_left _ desired,anchor,?_,exact,?_,?_⟩
  · rw [effect.2.1]
    refine List.mem_filter.mpr ⟨memDumpRoutes kept.1,?_⟩
    simpa [kept.2] using obsolete.apart spec desired
  · exact anchorPlace.1.trans (specTable.trans sameTable)
  · exact anchorPlace.2.trans specFamily

theorem cleanupRouteSeen {flags : CleanupFlags} {c : PlannedCleanupRoute} (h : Cleaning request init flags v)
    (obsolete : Obsolete request c.stale) :
    shows (cleanupRoute out request flags c) (Cleaning request init) (fun _ _ => False) v := by
  unfold cleanupRoute
  refine seenIte (fun _ => seenBind (onEntrySeen (seenPure ⟨h.inv,h.phase,h.current⟩))) fun goes => ?_
  have live : flags.superseded = false := by simpa using goes
  have unknown : ∀ {w : View}, Cleaning request init flags w → shows (do
      onEntry c.journal (setBoth .effectUnknown .unknown)
      pure (flags.fail .cleanupRoute)) (Cleaning request init) (fun _ _ => False) w :=
    fun clean => seenBind (onEntrySeen (seenPure (cleaningFail clean)))
  refine seenCatch (seenBind (readRulesSeen (seenBind (readRoutesSeen ?_ fun _ => unknown h)) fun _ => unknown h))
  refine seenIte (fun _ => ?_) fun accounted => ?_
  · exact seenBind (onEntrySeen (seenBind (onResultSeen (seenPure (cleaningFail h)))))
  split
  · exact seenBind (onEntrySeen (seenPure h))
  · exact seenBind (onEntrySeen (seenPure (cleaningFail h)))
  refine seenBind (observeFenceSeen fun state => ?_)
  refine seenIte (fun _ => seenBind (onEntrySeen (seenPure (cleaningFenced h)))) fun ok => ?_
  obtain rfl : state = .current := by simpa using ok
  have clean : ∀ k, k = v.kernel ∨ DeletedRoute c.stale v.kernel k →
      Cleaning request init flags (v.entered (.deleteRouteIfExact c.stale) k) := by
    intro k effect
    refine cleaningEntered h live ?_
    rcases effect with rfl | effect
    · exact harmlessNone
    · refine deletedRouteHarmless obsolete.generated effect (accountedDrops obsolete ?_ effect)
      simpa [Kernel.dumpRules] using accounted
  refine seenBind (onResultSeen (seenBind (enterMutationSeen (seenBind (mutatingSeen
    (P := fun _ k => k = v.kernel ∨ DeletedRoute c.stale v.kernel k)
    (F := fun k => k = v.kernel ∨ DeletedRoute c.stale v.kernel k) ?_ ?_ fun _ k effect => unknown (clean k effect))))))
  · intro b same
    have here : b.kernel = v.kernel := same
    rw [← here]
    refine mono (deleteRouteIfExactRule obsolete.explicit b) ?_ fun _ _ effect => effect
    intro r b' effect
    cases r with
    | deleted => exact .inr effect
    | alreadyAbsent => exact .inl effect.2
    | preconditionMismatch => exact .inl effect
  · intro r k effect
    refine seenIte (fun _ => seenBind (onEntrySeen (seenPure (cleaningFail (clean k effect))))) fun _ => ?_
    refine seenBind (onEntrySeen (seenBind (readRoutesSeen ?_ fun _ => unknown (clean k effect))))
    refine seenIte (fun _ => ?_) fun _ => seenBind (onEntrySeen (seenPure (clean k effect)))
    exact seenBind (onEntrySeen (seenPure (cleaningFail (clean k effect))))

theorem cleanupRoutesSeen {flags : CleanupFlags} {todo : List PlannedCleanupRoute} (h : Cleaning request init flags v)
    (obsolete : ∀ c ∈ todo, Obsolete request c.stale) :
    shows (cleanupRoutes out request flags todo) (Cleaning request init) (fun _ _ => False) v := by
  induction todo generalizing flags v with
  | nil => exact seenPure h
  | cons c rest ih =>
    refine seenBind (seenMono (cleanupRouteSeen h (obsolete c List.mem_cons_self)) ?_ fun _ _ no => no)
    exact fun next w clean => ih clean fun x later => obsolete x (List.mem_cons_of_mem _ later)

theorem cleanupObsoleteRoutesSeen {plan : Plan} {flags : CleanupFlags} {proven : Bool}
    (h : Cleaning request init flags v) (obsolete : ∀ c ∈ plan.staleRoutes, Obsolete request c.stale) :
    shows (cleanupObsoleteRoutes out request plan flags proven) (Cleaning request init) (fun _ _ => False) v := by
  unfold cleanupObsoleteRoutes
  refine seenIte (fun _ => ?_) fun _ => cleanupRoutesSeen h obsolete
  exact seenBind (onEntriesSeen (seenPure ⟨h.inv,h.phase,h.current⟩))

/- What candidate_committed says about the inventory. -/
structure Committed (request : RuntimeRoutingTransactionRequest) (plan : Plan) (k : Kernel) : Prop where
  routes : ∀ route ∈ request.desiredRoutes, ∃ live, occupants route.slot k.routes = [live] ∧
    exactRouteMatchesLive route live = true
  rules : ∀ rule ∈ concreteRules request.desiredRules, ∃ live, bearers rule k.rules = [live] ∧
    live.exactIdentityRepresentable = true
  staleRules : ∀ c ∈ plan.staleRules, bearers c.stale k.rules = []
  staleRoutes : ∀ c ∈ plan.staleRoutes, occupants c.stale.slot k.routes = []

theorem committedOf {plan : Plan} {k : Kernel} (exact : allDesiredExact request k.routes k.rules = true)
    (clean : cleanupRemains request plan k.routes k.rules = false) : Committed request plan k := by
  simp only [allDesiredExact,Bool.and_eq_true,List.all_eq_true,beq_iff_eq] at exact
  simp only [cleanupRemains,Bool.or_eq_false_iff,List.any_eq_false,bne_iff_ne,ne_eq,not_not] at clean
  obtain ⟨⟨routes,_⟩,rules⟩ := exact
  obtain ⟨⟨staleRoutes,staleRules⟩,_⟩ := clean
  exact ⟨fun r mem => (slotSingleIff _ _).mp (routes r mem),fun r mem => (ruleSingleIff _ _).mp (rules r mem),
    fun c mem => (ruleEmptyIff _ _).mp (staleRules c mem),fun c mem => (slotEmptyIff _ _).mp (staleRoutes c mem)⟩

structure Verified (request : RuntimeRoutingTransactionRequest) (init : Kernel) (plan : Plan) (w : View) : Prop where
  inv : Inv request init w.kernel w.trace
  notRolledBack : w.terminal ≠ .candidateRolledBack
  committed : w.terminal = .candidateCommitted → Committed request plan w.kernel

theorem committedUnobservedSeen {plan : Plan} (inv : Inv request init v.kernel v.trace) :
    shows (committedUnobserved plan) (fun _ w => Verified request init plan w) (fun _ _ => False) v :=
  seenBind (onEntrySeen (seenBind (endsSeen .committedCleanupPending (onJournalSeen ⟨inv,nofun,nofun⟩))))

theorem judgeCommittedSeen {plan : Plan} {flags : CleanupFlags} {E : NetlinkError → View → Prop}
    (inv : Inv request init v.kernel v.trace) :
    shows (judgeCommitted request plan flags (v.kernel.dumpRoutes 0) (v.kernel.dumpRules 0))
      (fun _ w => Verified request init plan w) E v := by
  unfold judgeCommitted
  refine seenIte (fun _ => ?_) fun exact => seenBind (onEntrySeen ?_)
  · exact seenBind (onEntrySeen (seenBind (endsSeen .partialUnknown (onJournalSeen ⟨inv,nofun,nofun⟩))))
  cases remains : flags.pending || cleanupRemains request plan (v.kernel.dumpRoutes 0) (v.kernel.dumpRules 0) with
  | true => exact seenBind (endsSeen .committedCleanupPending (onJournalSeen ⟨inv,nofun,nofun⟩))
  | false =>
    refine seenBind (endsSeen .candidateCommitted (onJournalSeen ⟨inv,nofun,fun _ => ?_⟩))
    rw [Bool.or_eq_false_iff] at remains
    refine committedOf ?_ ?_
    · simpa [Kernel.dumpRoutes,Kernel.dumpRules] using exact
    · simpa [Kernel.dumpRoutes,Kernel.dumpRules] using remains.2

theorem verifyCommittedSeen {plan : Plan} {flags : CleanupFlags} (inv : Inv request init v.kernel v.trace) :
    shows (verifyCommitted out request plan flags) (fun _ w => Verified request init plan w) (fun _ _ => False) v := by
  have unknown : shows (committedUnobserved plan) (fun _ w => Verified request init plan w) (fun _ _ => False) v :=
    committedUnobservedSeen inv
  unfold verifyCommitted
  refine seenCatch (seenBind (readRoutesSeen (seenBind (readRulesSeen ?_ fun _ => unknown)) fun _ => unknown))
  refine seenBind (observeFenceSeen fun state => seenIte (fun _ => ?_) fun _ => ?_)
  · exact seenBind (onResultSeen (judgeCommittedSeen (v := v.fenced state) (invFenced inv)))
  · exact judgeCommittedSeen (v := v.fenced state) (invFenced inv)

theorem endCommittedSeen {plan : Plan} (h : Verified request init plan v) :
    shows endCommitted (Ended request init (Committed request plan)) (fun _ _ => False) v := by
  have returns : ∀ {terminal}, shows (do
      onJournal fun j => { j with terminal }
      retainResultJournal
      returnResult) (Ended request init (Committed request plan)) (fun _ _ => False) v := by
    intro terminal
    refine seenBind (onJournalSeen (seenBind (retainSeen (returnResultSeen fun r same => ?_))))
    exact ⟨h.inv,fun back => absurd (same.symm.trans back) h.notRolledBack,fun done => h.committed (same.symm.trans done)⟩
  unfold endCommitted
  refine seenGet fun s _ => ?_
  split
  · exact seenBind (onResultSeen returns)
  · exact returns

theorem cleanupSeen {plan : Plan} (h : Forward request init v) (planned : Planned request init plan) :
    shows (cleanup out request plan) (Ended request init (Committed request plan)) (fun _ _ => False) v := by
  have obsolete : ∀ c ∈ plan.staleRoutes, Obsolete request c.stale :=
    fun c mem => obsoleteOf (planned.staleRoutes c mem)
  have clean : Cleaning request init {} { v with phase := .cleanup } := ⟨h.inv,rfl,fun _ => h.current⟩
  unfold cleanup markUnusedRollbacksSkipped
  refine seenBind (seenGet fun s _ => seenBind (onEntriesSeen (onEntriesSeen ?_)))
  refine seenBind (enterPhaseSeen (seenBind ?_))
  refine seenMono (cleanupRulesSeen clean planned.staleRules) ?_ fun _ _ no => no
  intro afterRules w clean
  refine seenBind (seenMono (proveStaleRuleAbsenceSeen clean) ?_ fun _ _ no => no)
  intro proven w clean
  refine seenBind (seenMono (cleanupObsoleteRoutesSeen clean obsolete) ?_ fun _ _ no => no)
  intro afterRoutes w clean
  refine seenBind (seenMono (verifyCommittedSeen clean.inv) ?_ fun _ _ no => no)
  exact fun _ w verified => endCommittedSeen verified

end Cleanup

section Run
variable {out : Outside} {request : RuntimeRoutingTransactionRequest} {init : Kernel} {v : View}

theorem runPlanSeen {plan : Plan} (planned : Planned request init plan) (h : Forward request init v)
    (routes : v.routes = plan.routes) (rules : v.rules = plan.rules) :
    shows (runPlan out request plan) (Ended request init (Committed request plan)) (fun _ _ => False) v := by
  have start : RoutesTodo request init 0 v.routes v :=
    { h with
      position := ⟨[],rfl,rfl⟩
      idle := by rw [routes]; exact planned.routes.idle
      rulesIdle := by rw [rules]; exact fun m mem => (planned.rules m mem).2 }
  unfold runPlan
  refine seenGet fun s at_v => seenBind ?_
  have listed : s.core.routes = v.routes := congrArg View.routes at_v
  rw [listed]
  refine seenMono (seenForEach (R := Ended request init (Committed request plan))
    (fun i todo w => RoutesTodo request init i todo w) ?_ start) ?_ fun _ _ no => no
  · intro i m rest w todo
    refine seenMono (Q := Returned request init (Committed request plan) (RoutesTodo request init (i + 1) rest))
      (forwardRouteSeen todo) ?_ fun _ _ no => no
    intro r w' next
    cases r <;> exact next
  intro r w next
  cases r with
  | some r => exact seenPure next
  | none =>
    refine seenGet fun t at_w => seenBind ?_
    have ruled : t.core.rules = w.rules := congrArg View.rules at_w
    rw [ruled]
    refine seenMono (seenForEach (R := Ended request init (Committed request plan))
      (fun i todo w => RulesTodo request init i todo w) ?_ (rulesStart next.toForward next.rulesIdle)) ?_
      fun _ _ no => no
    · intro i m rest w todo
      refine seenMono (Q := Returned request init (Committed request plan) (RulesTodo request init (i + 1) rest))
        (forwardRuleSeen todo) ?_ fun _ _ no => no
      intro r w' next
      cases r <;> exact next
    intro r w next
    cases r with
    | some r => exact seenPure next
    | none =>
      refine seenBind (seenMono (Q := Returned request init (Committed request plan) (Forward request init))
        (verifyCandidateSeen next.toForward) ?_ fun _ _ no => no)
      intro r w next
      cases r with
      | some r => exact seenPure next
      | none => exact cleanupSeen next planned

theorem endedUntouched {committed : Kernel → Prop} {r : RuntimeRoutingTransactionResult}
    (inv : Inv request init v.kernel v.trace) (notRolledBack : r.terminal ≠ .candidateRolledBack)
    (notCommitted : r.terminal ≠ .candidateCommitted) : Ended request init committed r v :=
  ⟨inv,fun back => absurd back notRolledBack,fun done => absurd done notCommitted⟩

theorem refused {committed : Kernel → Prop} {terminal : RuntimeRoutingTerminal} {detail : String}
    (inv : Inv request init v.kernel v.trace) (notRolledBack : terminal ≠ .candidateRolledBack)
    (notCommitted : terminal ≠ .candidateCommitted) :
    shows (refuse terminal detail) (Ended request init committed) (fun _ _ => False) v := by
  refine refuseSeen fun r same => endedUntouched inv ?_ ?_
  · rw [same]; exact notRolledBack
  · rw [same]; exact notCommitted

theorem runPublishedSeen {plan : Plan} (planned : Planned request init plan) (h : Forward request init v)
    (routes : v.routes = plan.routes) (rules : v.rules = plan.rules) :
    shows (runPublished out request plan) (Ended request init (Committed request plan)) (fun _ _ => False) v := by
  have inv : ∀ state, Inv request init (v.fenced state).kernel (v.fenced state).trace := fun _ => invFenced h.inv
  unfold runPublished
  refine seenIte (fun _ => ?_) fun _ => seenBind (observeFenceSeen fun state => ?_)
  · refine seenBind (publishEndSeen (seenBind (onResultSeen (seenBind (retainSeen (returnResultSeen fun r same => ?_))))))
    exact endedUntouched h.inv (by rw [same]; nofun) (by rw [same]; nofun)
  cases state with
  | unavailable =>
    refine seenBind (publishEndSeen (seenBind (onResultSeen (returnResultSeen fun r same => ?_))))
    exact endedUntouched (inv _) (by rw [same]; nofun) (by rw [same]; nofun)
  | stale =>
    refine seenBind (publishEndSeen (seenBind (onResultSeen (returnResultSeen fun r same => ?_))))
    exact endedUntouched (inv _) (by rw [same]; nofun) (by rw [same]; nofun)
  | current => exact runPlanSeen planned (forwardFenced h) routes rules

/- Nothing was planned yet: no receipts, the initial inventory, current fences only. -/
structure Fresh (init : Kernel) (v : View) : Prop where
  kernel : v.kernel = init
  phase : v.phase = .forward
  trace : ∃ state, v.trace = [.fence .forward state]
  started : v.mutationStarted = false

theorem freshInv (h : Fresh init v) : Inv request init v.kernel v.trace := by
  obtain ⟨state,trace⟩ := h.trace
  have first : Inv request init init ([] ++ [.fence .forward state]) := invFenced invStart
  rw [h.kernel,trace]
  exact first

theorem freshForward {plan : Plan} (h : Fresh init v) (current : AllCurrent v.trace)
    (planned : Planned request init plan) :
    Forward request init { v with routes := plan.routes, rules := plan.rules } where
  inv := by
    have inv : Inv request init v.kernel v.trace := freshInv h
    exact inv
  stale := staleOfCurrent current
  routeFits := planned.routes.fits
  distinct := planned.routes.distinct
  ruleFits := fun m mem => (planned.rules m mem).1
  routes := by
    show v.kernel.routes = _
    rw [h.kernel,appliedIdle planned.routes.idle]
  rules := ⟨[],by show v.kernel.rules = _; rw [h.kernel,List.append_nil],by simp⟩
  phase := h.phase
  current := current
  started := by
    intro flag
    have off : v.mutationStarted = true := flag
    rw [h.started] at off
    cases off

abbrev CommittedPlan (out : Outside) (request : RuntimeRoutingTransactionRequest) (init k : Kernel) : Prop :=
  ∃ plan, buildPlan out.inet request init.routes init.rules = .ok plan ∧ Committed request plan k

theorem notePreimageSeen {liveRoutes liveRules} {Q : Unit → View → Prop} {E : NetlinkError → View → Prop}
    (h : Q () v) : shows (notePreimage request liveRoutes liveRules) Q E v := by
  unfold notePreimage
  exact seenIte (fun _ => onResultSeen h) fun _ => seenPure h

theorem runPlannedSeen (h : Fresh init v) (current : AllCurrent v.trace) :
    shows (runPlanned out request init.routes init.rules) (Ended request init (CommittedPlan out request init))
      (fun _ _ => False) v := by
  unfold runPlanned
  refine seenBind (notePreimageSeen ?_)
  split
  · exact refused (freshInv h) nofun nofun
  · rename_i plan built
    refine seenBind (seenModify (g := fun w => { w with routes := plan.routes, rules := plan.rules })
      (fun _ => rfl) ?_)
    have planned := buildPlanPlanned built
    refine seenMono (runPublishedSeen planned (freshForward h current planned) rfl rfl) ?_ fun _ _ no => no
    intro r w ended
    exact ⟨ended.inv,ended.restored,fun done => ⟨plan,built,ended.committed done⟩⟩

theorem runLeasedSeen (h : Fresh init v) (current : AllCurrent v.trace) :
    shows (runLeased out request) (Ended request init (CommittedPlan out request init)) (fun _ _ => False) v := by
  have unavailable : ∀ {e : NetlinkError}, shows (refuse .preconditionFailed
      (exceptionDetail "initial exact inventory unavailable" e))
      (Ended request init (CommittedPlan out request init)) (fun _ _ => False) v :=
    refused (freshInv h) nofun nofun
  unfold runLeased
  refine seenBind (seenCatch (seenBind (readRoutesSeen (seenBind (readRulesSeen (seenPure ?_)
    fun _ => seenPure unavailable)) fun _ => seenPure unavailable)))
  have whole : v.kernel.dumpRoutes 0 = init.routes ∧ v.kernel.dumpRules 0 = init.rules := by
    rw [h.kernel]
    exact ⟨rfl,rfl⟩
  rw [whole.1,whole.2]
  exact runPlannedSeen h current

theorem executeSeen (out : Outside) (request : RuntimeRoutingTransactionRequest) (init : Kernel) :
    shows (execute out request) (Ended request init (CommittedPlan out request init)) (fun _ _ => False)
      (initialState init).view := by
  have fresh : ∀ state, Fresh init ((initialState init).view.fenced state) := fun state => ⟨rfl,rfl,⟨state,rfl⟩,rfl⟩
  have stops : ∀ {state terminal detail}, terminal ≠ RuntimeRoutingTerminal.candidateRolledBack →
      terminal ≠ .candidateCommitted → shows (refuse terminal detail)
        (Ended request init (CommittedPlan out request init)) (fun _ _ => False)
        ((initialState init).view.fenced state) :=
    fun back done => refused (freshInv (fresh _)) back done
  unfold execute
  refine seenBind (onResultSeen ?_)
  split
  · exact seenBind (logFenceSeen (stops nofun nofun))
  refine seenGet fun s _ => ?_
  split
  · exact seenBind (logFenceSeen (stops nofun nofun))
  refine seenBind (onResultSeen (seenIte (fun _ => ?_) fun _ => seenBind (logFenceSeen ?_)))
  · exact seenBind (logFenceSeen (stops nofun nofun))
  refine seenIte (fun _ => stops nofun nofun) fun _ => ?_
  split
  · exact stops nofun nofun
  · exact stops nofun nofun
  · refine runLeasedSeen (fresh _) ?_
    intro phase state mem
    obtain ⟨_,rfl⟩ : phase = .forward ∧ state = .current := by simpa [View.fenced,initialState,State.view] using mem
    rfl

theorem executeReturns (out : Outside) (request : RuntimeRoutingTransactionRequest) (init : Kernel) :
    ∃ r s, executeRuntimeRoutingTransaction out request init = .ok r s ∧
      Ended request init (CommittedPlan out request init) r s.view := by
  have spec := executeSeen out request init (initialState init) rfl
  unfold wp at spec
  unfold executeRuntimeRoutingTransaction
  cases run : execute out request (initialState init) with
  | ok r s =>
    rw [run] at spec
    exact ⟨r,s,rfl,spec⟩
  | error e s =>
    rw [run] at spec
    exact spec.elim

end Run

end KeenPbr
