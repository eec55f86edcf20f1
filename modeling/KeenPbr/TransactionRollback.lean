import KeenPbr.TransactionInvariant

/-! rollback_candidate and fail_candidate. While a run can still be undone its routes are the
initial ones with the receipted candidates applied in plan order, and its rules are the initial
ones followed by receipted candidates; undoing in reverse order gives the initial inventory. -/
namespace KeenPbr
open Wp Trace NetlinkManager

def PlannedRouteMutation.apply (m : PlannedRouteMutation) (live : List DumpedRoute) : List DumpedRoute :=
  if m.createdReceipt then live ++ [kernelRoute m.candidate]
  else if m.replacementReceipt then withSlot m.candidate.slot (kernelRoute m.candidate) live
  else live

def applied (routes : List PlannedRouteMutation) (init : List DumpedRoute) : List DumpedRoute :=
  routes.foldl (fun live m => m.apply live) init

structure Undoable (request : RuntimeRoutingTransactionRequest) (init : Kernel) (v : View) : Prop where
  inv : Inv request init v.kernel v.trace
  stale : StaleAfterCall v.trace
  routeFits : ∀ m ∈ v.routes, RouteFits request init.routes m
  distinct : DistinctSlots v.routes
  ruleFits : ∀ m ∈ v.rules, RuleFits request init.rules m
  routes : v.kernel.routes = applied v.routes init.routes
  rules : ∃ extra, v.kernel.rules = init.rules ++ extra ∧
    ∀ rule ∈ extra, ∃ m ∈ v.rules, m.createdReceipt = true ∧ m.candidate.Names rule

section Applied
variable {request : RuntimeRoutingTransactionRequest} {init live : List DumpedRoute} {m : PlannedRouteMutation}

theorem appliedSnoc (routes : List PlannedRouteMutation) :
    applied (routes ++ [m]) init = m.apply (applied routes init) := by
  simp [applied]

theorem occupantsApply (fits : RouteFits request init m) {slot : Slot} (away : slot ≠ m.candidate.slot) :
    occupants slot (m.apply live) = occupants slot live := by
  have here := kernelSlot fits.explicit
  unfold PlannedRouteMutation.apply
  split
  · simp [occupants,List.filter_append,here,away.symm]
  · split
    · exact occupantsWithSlot here away
    · rfl

theorem occupantsApplied {routes : List PlannedRouteMutation} {slot : Slot}
    (fits : ∀ x ∈ routes, RouteFits request init x) (away : ∀ x ∈ routes, slot ≠ x.candidate.slot) :
    occupants slot (applied routes live) = occupants slot live := by
  induction routes generalizing live with
  | nil => rfl
  | cons head rest ih =>
    have tail : occupants slot (applied rest (head.apply live)) = occupants slot (head.apply live) :=
      ih (fun x mem => fits x (List.mem_cons_of_mem _ mem)) fun x mem => away x (List.mem_cons_of_mem _ mem)
    have first : occupants slot (head.apply live) = occupants slot live :=
      occupantsApply (fits head List.mem_cons_self) (away head List.mem_cons_self)
    exact tail.trans first

theorem anchoredApply (fits : RouteFits request init m) {table : UInt32} {family : Int}
    (h : Anchored request live table family) : Anchored request (m.apply live) table family := by
  obtain ⟨spec,known,route,mem,exact,hTable,hFamily⟩ := h
  unfold PlannedRouteMutation.apply
  split
  · exact ⟨spec,known,route,List.mem_append_left _ mem,exact,hTable,hFamily⟩
  · split
    · by_cases here : route.slot = m.candidate.slot
      · have place := slotTableFamily (kernelSlot fits.explicit)
        have old := slotTableFamily here
        refine ⟨m.candidate,List.mem_append_left _ fits.desired,kernelRoute m.candidate,?_,
          kernelMatches fits.explicit,?_,?_⟩
        · exact List.mem_map.mpr ⟨route,mem,by rw [if_pos here]⟩
        · rw [place.1,← old.1,hTable]
        · rw [place.2,← old.2,hFamily]
      · exact ⟨spec,known,route,List.mem_map.mpr ⟨route,mem,by rw [if_neg here]⟩,exact,hTable,hFamily⟩
    · exact ⟨spec,known,route,mem,exact,hTable,hFamily⟩

theorem anchoredApplied {routes : List PlannedRouteMutation} (fits : ∀ x ∈ routes, RouteFits request init x)
    {table : UInt32} {family : Int} (h : Anchored request live table family) :
    Anchored request (applied routes live) table family := by
  induction routes generalizing live with
  | nil => exact h
  | cons head rest ih =>
    have first := anchoredApply (fits head List.mem_cons_self) h
    exact ih (fun x mem => fits x (List.mem_cons_of_mem _ mem)) first

/- Undoing one candidate. -/

theorem undoCreated {slot : Slot} {new : DumpedRoute} (here : new.slot = slot) (free : occupants slot live = []) :
    withoutSlot slot (live ++ [new]) = live := by
  have kept := withoutSlotOfNone free
  unfold withoutSlot at kept ⊢
  rw [List.filter_append,kept]
  simp [here]

theorem undoReplaced {slot : Slot} {new old : DumpedRoute} (here : new.slot = slot)
    (single : occupants slot live = [old]) : withSlot slot old (withSlot slot new live) = live := by
  have fixed : ∀ r ∈ live, (if r.slot = slot then old else r) = r := by
    intro r mem
    by_cases same : r.slot = slot
    · have inside := memOccupants.mpr ⟨mem,same⟩
      rw [single] at inside
      rw [if_pos same,List.mem_singleton.mp inside]
    · rw [if_neg same]
  rw [withSlot,withSlot,List.map_map]
  have point : ∀ r ∈ live, ((fun r => if r.slot = slot then old else r) ∘ fun r => if r.slot = slot then new else r) r = r := by
    intro r mem
    by_cases same : r.slot = slot
    · have back := fixed r mem
      rw [if_pos same] at back
      simp [same,here,back]
    · simp [same]
  simpa using List.map_congr_left point

end Applied

section Rules
variable {out : Outside} {request : RuntimeRoutingTransactionRequest} {init : Kernel} {v : View}

structure RollingBack (request : RuntimeRoutingTransactionRequest) (init : Kernel) (v : View) : Prop
    extends Undoable request init v where
  phase : v.phase = .rollback

theorem staleCalled {mutation : Mutation} {k : Kernel} (h : StaleAfterCall v.trace) :
    StaleAfterCall (v.called mutation k).trace :=
  staleSnoc h fun _ _ call => by cases call

theorem rollbackInv {mutation : Mutation} {k : Kernel} (inv : Inv request init v.kernel v.trace)
    (stale : StaleAfterCall v.trace) (phase : v.phase = .rollback)
    (effect : Harmless request init .rollback v.kernel k) :
    Inv request init (v.called mutation k).kernel (v.called mutation k).trace := by
  rw [← phase] at effect
  exact invCalled inv effect stale fun notRollback => absurd phase notRollback

theorem deletedRuleUndoable {m : PlannedRuleMutation} {k : Kernel} (h : RollingBack request init v)
    (mem : m ∈ v.rules) (effect : k = v.kernel ∨ DeletedRule m.candidate v.kernel k) :
    RollingBack request init (v.called (.deleteRuleIfExact m.candidate) k) := by
  have fits := h.ruleFits m mem
  have harmless : Harmless request init .rollback v.kernel k := by
    rcases effect with rfl | effect
    · exact harmlessNone
    · exact deletedRuleHarmless (List.mem_append_left _ (List.mem_append_left _ fits.desired)) effect
  refine ⟨⟨rollbackInv h.inv h.stale h.phase harmless,staleCalled h.stale,h.routeFits,h.distinct,h.ruleFits,?_,?_⟩,
    h.phase⟩
  · rcases effect with rfl | effect
    · exact h.routes
    · exact effect.2.1.trans h.routes
  · obtain ⟨extra,rules,receipted⟩ := h.rules
    rcases effect with rfl | effect
    · exact ⟨extra,rules,receipted⟩
    · refine ⟨extra.filter fun rule => ¬m.candidate.Names rule,?_,?_⟩
      · have untouched : (init.rules.filter fun rule => ¬m.candidate.Names rule) = init.rules := by
          apply List.filter_eq_self.mpr
          intro rule inside
          have away : ¬m.candidate.Names rule := by
            intro named
            have bearer := memBearers.mpr ⟨inside,named⟩
            rw [fits.fresh] at bearer
            cases bearer
          simpa using away
        show k.rules = _
        rw [effect.2.2,rules,List.filter_append,untouched]
      · exact fun rule inside => receipted rule (List.mem_filter.mp inside).1

theorem rollbackRuleSeen {stage : RuntimeRoutingFailureStage} {m : PlannedRuleMutation}
    (h : RollingBack request init v) (mem : m ∈ v.rules) :
    shows (rollbackRule out stage m)
      (fun _ w => RollingBack request init w ∧ w.rules = v.rules ∧ w.routes = v.routes) (fun _ _ => False) v := by
  have undone : ∀ k, k = v.kernel ∨ DeletedRule m.candidate v.kernel k →
      RollingBack request init (v.called (.deleteRuleIfExact m.candidate) k) :=
    fun k effect => deletedRuleUndoable h mem effect
  unfold rollbackRule
  refine seenIte (fun _ => ?_) fun _ => ?_
  · exact seenBind (onEntrySeen (seenPure ⟨h,rfl,rfl⟩))
  refine seenCatch (seenBind (mutatingSeen (P := fun _ k => k = v.kernel ∨ DeletedRule m.candidate v.kernel k)
    (F := fun k => k = v.kernel ∨ DeletedRule m.candidate v.kernel k) ?_ ?_ ?_))
  · intro b same
    rw [← same]
    refine mono (deleteRuleIfExactRule m.candidate b) ?_ fun _ _ effect => effect
    intro r b' effect
    cases r with
    | deleted => exact .inr effect
    | alreadyAbsent => exact .inl effect.2
    | preconditionMismatch => exact .inl effect
  · intro r k effect
    refine seenIte (fun _ => ?_) fun _ => ?_
    · exact seenBind (onEntrySeen (seenPure ⟨undone k effect,rfl,rfl⟩))
    · exact seenBind (onEntrySeen (seenPure ⟨undone k effect,rfl,rfl⟩))
  · intro e k effect
    exact seenBind (onEntrySeen (seenPure ⟨undone k effect,rfl,rfl⟩))

theorem rollbackRulesSeen {stage : RuntimeRoutingFailureStage} {todo : List PlannedRuleMutation}
    (h : RollingBack request init v) (mem : ∀ m ∈ todo, m ∈ v.rules) :
    shows (rollbackRules out stage todo)
      (fun _ w => RollingBack request init w ∧ w.rules = v.rules ∧ w.routes = v.routes) (fun _ _ => False) v := by
  induction todo generalizing stage v with
  | nil => exact seenPure ⟨h,rfl,rfl⟩
  | cons m rest ih =>
    refine seenBind (seenMono (rollbackRuleSeen h (mem m List.mem_cons_self)) ?_ fun _ _ no => no)
    intro next w step
    obtain ⟨inv,rules,routes⟩ := step
    refine seenMono (ih inv fun x later => ?_) ?_ fun _ _ no => no
    · rw [rules]; exact mem x (List.mem_cons_of_mem _ later)
    · intro _ u last
      obtain ⟨inv',rules',routes'⟩ := last
      exact ⟨inv',rules'.trans rules,routes'.trans routes⟩

theorem rulesRestored (h : RollingBack request init v) (absent : createdRulesAbsent v.rules v.kernel.rules = true) :
    v.kernel.rules = init.rules := by
  obtain ⟨extra,rules,receipted⟩ := h.rules
  have none : extra = [] := by
    rw [List.eq_nil_iff_forall_not_mem]
    intro rule mem
    obtain ⟨m,inside,created,named⟩ := receipted rule mem
    have empty : exactRuleState m.candidate v.kernel.rules = .empty := by
      simp only [createdRulesAbsent,Bool.not_eq_true',List.any_eq_false,Bool.and_eq_true] at absent
      simpa [created] using absent m inside
    have bearer : rule ∈ bearers m.candidate v.kernel.rules :=
      memBearers.mpr ⟨by rw [rules]; exact List.mem_append_right _ mem,named⟩
    rw [(ruleEmptyIff _ _).mp empty] at bearer
    cases bearer
  rw [rules,none,List.append_nil]

end Rules

section Routes
variable {out : Outside} {request : RuntimeRoutingTransactionRequest} {init : Kernel} {v : View}
variable {m : PlannedRouteMutation} {rest : List PlannedRouteMutation}

structure UndoingRoutes (request : RuntimeRoutingTransactionRequest) (init : Kernel)
    (todo : List PlannedRouteMutation) (v : View) : Prop where
  inv : Inv request init v.kernel v.trace
  stale : StaleAfterCall v.trace
  phase : v.phase = .rollback
  fits : ∀ m ∈ todo, RouteFits request init.routes m
  distinct : DistinctSlots todo.reverse
  routes : v.kernel.routes = applied todo.reverse init.routes
  rules : v.kernel.rules = init.rules

theorem undoStart (h : RollingBack request init v) (rules : v.kernel.rules = init.rules) :
    UndoingRoutes request init v.routes.reverse v where
  inv := h.inv
  stale := h.stale
  phase := h.phase
  fits := fun m mem => h.routeFits m (List.mem_reverse.mp mem)
  distinct := by rw [List.reverse_reverse]; exact h.distinct
  routes := by rw [List.reverse_reverse]; exact h.routes
  rules := rules

theorem undoEnd (h : UndoingRoutes request init [] v) : v.kernel = init := Kernel.ext h.routes h.rules

theorem undoBase (h : UndoingRoutes request init (m :: rest) v) :
    v.kernel.routes = m.apply (applied rest.reverse init.routes) ∧
      occupants m.candidate.slot (applied rest.reverse init.routes) = occupants m.candidate.slot init.routes := by
  have shape := h.routes
  rw [List.reverse_cons,appliedSnoc] at shape
  have distinct := h.distinct
  rw [List.reverse_cons] at distinct
  have apart := (List.pairwise_append.mp distinct).2.2
  refine ⟨shape,occupantsApplied (fun x mem => h.fits x (List.mem_cons_of_mem _ (List.mem_reverse.mp mem))) ?_⟩
  exact fun x mem same => apart x mem m (List.mem_singleton_self _) same.symm

theorem undoneRoutes {mutation : Mutation} {k : Kernel} (h : UndoingRoutes request init (m :: rest) v)
    (inv : Inv request init (v.called mutation k).kernel (v.called mutation k).trace)
    (routes : k.routes = applied rest.reverse init.routes) (rules : k.rules = v.kernel.rules) :
    UndoingRoutes request init rest (v.called mutation k) where
  inv := inv
  stale := staleCalled h.stale
  phase := h.phase
  fits := fun x mem => h.fits x (List.mem_cons_of_mem _ mem)
  distinct := by
    have distinct := h.distinct
    rw [List.reverse_cons] at distinct
    exact (List.pairwise_append.mp distinct).1
  routes := routes
  rules := rules.trans h.rules

theorem undoneInPlace (h : UndoingRoutes request init (m :: rest) v)
    (routes : v.kernel.routes = applied rest.reverse init.routes) : UndoingRoutes request init rest v where
  inv := h.inv
  stale := h.stale
  phase := h.phase
  fits := fun x mem => h.fits x (List.mem_cons_of_mem _ mem)
  distinct := by
    have distinct := h.distinct
    rw [List.reverse_cons] at distinct
    exact (List.pairwise_append.mp distinct).1
  routes := routes
  rules := h.rules

/- Whatever a rollback step drops, it goes back towards the initial inventory: a table that
was anchored there still is. -/
theorem dropsUndone {k : Kernel} (h : UndoingRoutes request init (m :: rest) v)
    (routes : k.routes = applied rest.reverse init.routes) :
    DropsAnchored request v.kernel k (Excused request init .rollback) := by
  intro route _ _ rule _ _ _ _
  by_cases anchored : Anchored request init.routes rule.table rule.family
  · left
    rw [routes]
    exact anchoredApplied (fun x mem => h.fits x (List.mem_cons_of_mem _ (List.mem_reverse.mp mem))) anchored
  · exact .inr ⟨rfl,anchored⟩

abbrev UndoStep (request : RuntimeRoutingTransactionRequest) (init : Kernel) (rest : List PlannedRouteMutation) :
    Option Unit → View → Prop
  | some _, w => Inv request init w.kernel w.trace
  | none, w => UndoingRoutes request init rest w

theorem rollbackMismatchSeen (inv : Inv request init v.kernel v.trace) {E : NetlinkError → View → Prop} :
    shows (rollbackMismatch m) (UndoStep request init rest) E v :=
  seenBind (onEntriesSeen (seenPure inv))

theorem createdShape (h : UndoingRoutes request init (m :: rest) v) (created : m.createdReceipt = true) :
    v.kernel.routes = applied rest.reverse init.routes ++ [kernelRoute m.candidate] ∧
      occupants m.candidate.slot (applied rest.reverse init.routes) = [] := by
  have fits := h.fits m List.mem_cons_self
  obtain ⟨shape,slot⟩ := undoBase h
  rcases fits.slot with ⟨_,_,free⟩ | ⟨replace,_⟩
  · exact ⟨by rw [shape,PlannedRouteMutation.apply,if_pos created],slot.trans free⟩
  · rw [fits.created created] at replace
    cases replace

theorem createdStillThere (h : UndoingRoutes request init (m :: rest) v) (created : m.createdReceipt = true) :
    exactSlotState m.candidate (v.kernel.dumpRoutes m.candidate.family) ≠ .empty := by
  have fits := h.fits m List.mem_cons_self
  intro empty
  have none := (slotEmptyIff _ _).mp empty
  rw [dumpOccupants m.candidate.family v.kernel rfl,(createdShape h created).1] at none
  have inside : kernelRoute m.candidate ∈ occupants m.candidate.slot
      (applied rest.reverse init.routes ++ [kernelRoute m.candidate]) :=
    memOccupants.mpr ⟨by simp,kernelSlot fits.explicit⟩
  rw [none] at inside
  cases inside

theorem rollbackCreatedRouteSeen (h : UndoingRoutes request init (m :: rest) v) (created : m.createdReceipt = true) :
    shows (rollbackCreatedRoute out m) (UndoStep request init rest)
      (fun _ w => Inv request init w.kernel w.trace) v := by
  have fits := h.fits m List.mem_cons_self
  obtain ⟨shape,free⟩ := createdShape h created
  have undone : ∀ k, DeletedRoute m.candidate v.kernel k → k.routes = applied rest.reverse init.routes := by
    intro k effect
    rw [effect.2.1,shape]
    exact undoCreated (kernelSlot fits.explicit) free
  have invAfter : ∀ k, k = v.kernel ∨ DeletedRoute m.candidate v.kernel k →
      Inv request init (v.called (.deleteRouteIfExact m.candidate) k).kernel
        (v.called (.deleteRouteIfExact m.candidate) k).trace := by
    intro k effect
    refine rollbackInv h.inv h.stale h.phase ?_
    rcases effect with rfl | effect
    · exact harmlessNone
    · exact deletedRouteHarmless fits.generated effect (dropsUndone h (undone k effect))
  unfold rollbackCreatedRoute
  refine seenBind (readRoutesSeen ?_ fun _ => h.inv)
  split
  · rename_i empty
    exact absurd empty (createdStillThere h created)
  · exact rollbackMismatchSeen h.inv
  refine seenBind (mutatingSeen (P := fun _ k => k = v.kernel ∨ DeletedRoute m.candidate v.kernel k)
    (F := fun k => k = v.kernel ∨ DeletedRoute m.candidate v.kernel k) ?_ ?_ fun _ k effect => invAfter k effect)
  · intro b same
    rw [← same]
    refine mono (deleteRouteIfExactRule fits.explicit b) ?_ fun _ _ effect => effect
    intro r b' effect
    cases r with
    | deleted => exact .inr effect
    | alreadyAbsent => exact .inl effect.2
    | preconditionMismatch => exact .inl effect
  · intro r k effect
    refine seenIte (fun _ => rollbackMismatchSeen (invAfter k effect)) fun _ => ?_
    refine seenBind (onEntriesSeen (seenBind (readRoutesSeen ?_ fun _ => invAfter k effect)))
    refine seenIte (fun _ => seenBind (onEntriesSeen (seenPure (invAfter k effect)))) fun gone => ?_
    refine seenBind (onEntriesSeen (seenPure ?_))
    rcases effect with rfl | effect
    · exact absurd (by simpa [View.called] using gone) (createdStillThere h created)
    · exact undoneRoutes h (invAfter k (.inr effect)) (undone k effect) effect.2.2

theorem replacedShape (h : UndoingRoutes request init (m :: rest) v) (fresh : m.createdReceipt = false)
    (replaced : m.replacementReceipt = true) :
    v.kernel.routes = withSlot m.candidate.slot (kernelRoute m.candidate) (applied rest.reverse init.routes) ∧
      ∃ live, m.preimages = [routeSpecFromLive live] ∧
        occupants m.candidate.slot (applied rest.reverse init.routes) = [live] ∧ live ∈ init.routes ∧
        live.slot = m.candidate.slot ∧ live.exactIdentityRepresentable = true ∧ isGeneratedRouteCandidate live = true := by
  have fits := h.fits m List.mem_cons_self
  obtain ⟨shape,slot⟩ := undoBase h
  rcases fits.slot with ⟨replace,_⟩ | ⟨_,live,single,exact,generated,preimages⟩
  · rw [fits.replaced replaced] at replace
    cases replace
  · have inside := memOccupants.mp (show live ∈ occupants m.candidate.slot init.routes by rw [single]; simp)
    refine ⟨by rw [shape,PlannedRouteMutation.apply,fresh,replaced]; rfl,live,preimages,slot.trans single,
      inside.1,inside.2,exact,generated⟩

theorem replacedStillThere (h : UndoingRoutes request init (m :: rest) v) (fresh : m.createdReceipt = false)
    (replaced : m.replacementReceipt = true) :
    slotMatchesPreimages m.candidate m.preimages (v.kernel.dumpRoutes m.candidate.family) = false := by
  have fits := h.fits m List.mem_cons_self
  obtain ⟨shape,live,preimages,single,mem,slot,exact,_⟩ := replacedShape h fresh replaced
  rw [Bool.eq_false_iff,preimages]
  intro back
  obtain ⟨route,occupied,representable,image⟩ := (slotMatchesPreimagesIff _ _ _).mp back
  rw [dumpOccupants m.candidate.family v.kernel rfl,shape] at occupied
  have below : live ∈ applied rest.reverse init.routes := (memOccupants.mp (by rw [single]; simp)).1
  have candidateThere : kernelRoute m.candidate ∈ occupants m.candidate.slot
      (withSlot m.candidate.slot (kernelRoute m.candidate) (applied rest.reverse init.routes)) :=
    memOccupants.mpr ⟨List.mem_map.mpr ⟨live,below,by rw [if_pos slot]⟩,kernelSlot fits.explicit⟩
  rw [occupied] at candidateThere
  have same : routeSpecFromLive (kernelRoute m.candidate) = routeSpecFromLive live := by
    rw [List.mem_singleton.mp candidateThere,image]
  have matching : exactRouteMatchesLive m.candidate live = true := by
    have target := kernelMatches fits.explicit
    rw [matchesLiveIff] at target ⊢
    simp only [routeSpecFromLive,RouteSpec.mk.injEq] at same
    obtain ⟨_,_,interface,gateway,blackhole,unreachable,_,_,protocol⟩ := same
    rw [← interface,← gateway,← blackhole,← unreachable,← protocol]
    exact ⟨exact,slot,target.2.2⟩
  have present := (routePresentIff m.candidate init.routes).mpr ⟨live,mem,matching⟩
  rw [fits.absent] at present
  cases present

theorem rollbackReplacedRouteSeen (h : UndoingRoutes request init (m :: rest) v) (fresh : m.createdReceipt = false)
    (replaced : m.replacementReceipt = true) :
    shows (rollbackReplacedRoute out m) (UndoStep request init rest)
      (fun _ w => Inv request init w.kernel w.trace) v := by
  have fits := h.fits m List.mem_cons_self
  obtain ⟨shape,live,preimages,single,mem,slot,exact,generated⟩ := replacedShape h fresh replaced
  have family : live.family ≠ 0 := init.families live mem
  have owned : isGeneratedRouteCandidate (dumpedRouteFromSpec (routeSpecFromLive live)) = true := generated
  have undone : ∀ k, ReplacedRoute m.candidate (routeSpecFromLive live) v.kernel k →
      k.routes = applied rest.reverse init.routes := by
    intro k effect
    rw [effect.2.2.1,shape,kernelOfLive family exact (init.settled live mem)]
    exact undoReplaced (kernelSlot fits.explicit) single
  have invAfter : ∀ k, k = v.kernel ∨ ReplacedRoute m.candidate (routeSpecFromLive live) v.kernel k →
      Inv request init (v.called (.replaceRouteIfExact m.candidate (routeSpecFromLive live)) k).kernel
        (v.called (.replaceRouteIfExact m.candidate (routeSpecFromLive live)) k).trace := by
    intro k effect
    refine rollbackInv h.inv h.stale h.phase ?_
    rcases effect with rfl | effect
    · exact harmlessNone
    · exact replacedRouteHarmless family fits.generated owned effect (dropsUndone h (undone k effect))
  unfold rollbackReplacedRoute
  refine seenBind (readRoutesSeen ?_ fun _ => h.inv)
  rw [replacedStillThere h fresh replaced]
  refine seenIte (fun is => by cases is) fun _ => seenIte (fun _ => rollbackMismatchSeen h.inv) fun _ => ?_
  rw [preimages]
  refine seenBind (mutatingSeen
    (P := fun r k => ReplaceReceipt m.candidate (routeSpecFromLive live) v.kernel k r)
    (F := fun k => k = v.kernel ∨ ReplacedRoute m.candidate (routeSpecFromLive live) v.kernel k) ?_ ?_
    fun _ k effect => invAfter k effect)
  · intro b same
    rw [← same]
    exact replaceRouteIfExactRule fits.explicit family b
  · intro r k effect
    cases r with
    | preconditionMismatch =>
      exact seenIte (fun _ => rollbackMismatchSeen (invAfter k (.inl effect))) fun no => absurd rfl no
    | replaced =>
      have after := invAfter k (.inr effect)
      refine seenIte (fun is => by cases is) fun _ => seenBind (onEntriesSeen (seenBind (seenPure (seenBind ?_))))
      refine readRoutesSeen ?_ fun _ => after
      refine seenIte (fun _ => seenBind (onEntriesSeen (seenPure after))) fun _ => ?_
      exact seenBind (onEntriesSeen (seenPure (undoneRoutes h after (undone k effect) effect.2.2.2)))

theorem rollbackRouteSeen (h : UndoingRoutes request init (m :: rest) v) :
    shows (rollbackRoute out m) (UndoStep request init rest) (fun _ _ => False) v := by
  have unknown : ∀ w : View, Inv request init w.kernel w.trace → ∀ e : NetlinkError,
      shows (do onEntries m.rollbackJournals (setBoth .effectUnknown .unknown); pure (some ()))
        (UndoStep request init rest) (fun _ _ => False) w :=
    fun w inv _ => seenBind (onEntriesSeen (seenPure inv))
  unfold rollbackRoute
  refine seenIte (fun created => ?_) fun fresh => seenIte (fun replaced => ?_) fun idle => ?_
  · exact seenCatch (seenMono (rollbackCreatedRouteSeen h created) (fun _ _ q => q) fun e w inv => unknown w inv e)
  · exact seenCatch (seenMono (rollbackReplacedRouteSeen h (by simpa using fresh) replaced) (fun _ _ q => q)
      fun e w inv => unknown w inv e)
  · refine seenBind (onEntriesSeen (seenPure (undoneInPlace h ?_)))
    rw [(undoBase h).1,PlannedRouteMutation.apply,if_neg fresh,if_neg idle]

end Routes

section Fail
variable {out : Outside} {request : RuntimeRoutingTransactionRequest} {init : Kernel} {v : View}

theorem rollbackCandidateSeen {stage : RuntimeRoutingFailureStage} (h : Undoable request init v) :
    shows (rollbackCandidate out stage)
      (fun r w => Inv request init w.kernel w.trace ∧ (r.1 = true → w.kernel = init)) (fun _ _ => False) v := by
  unfold rollbackCandidate
  have rolling : RollingBack request init { v with phase := .rollback } :=
    ⟨⟨h.inv,h.stale,h.routeFits,h.distinct,h.ruleFits,h.routes,h.rules⟩,rfl⟩
  refine seenBind (enterPhaseSeen (seenGet fun s at_v => seenBind ?_))
  have listed : s.core.rules = v.rules := congrArg View.rules at_v
  rw [listed]
  refine seenMono (rollbackRulesSeen rolling fun m mem => List.mem_reverse.mp mem) ?_ fun _ _ no => no
  intro reached w step
  obtain ⟨inv,rules,routes⟩ := step
  refine seenGet fun t at_w => seenBind (seenCatch (seenBind (readRulesSeen (seenPure ?_) fun _ => seenPure ?_)))
  · refine seenIte (fun _ => seenPure ⟨inv.inv,nofun⟩) fun absent => ?_
    have receipts : t.core.rules = w.rules := congrArg View.rules at_w
    have restored : w.kernel.rules = init.rules := by
      refine rulesRestored inv ?_
      rw [receipts] at absent
      simpa [Kernel.dumpRules] using absent
    refine seenGet fun u at_w' => seenBind ?_
    have planned : u.core.routes = w.routes := congrArg View.routes at_w'
    rw [planned]
    refine seenMono (seenForEach (R := fun _ w => Inv request init w.kernel w.trace)
      (fun _ todo w => UndoingRoutes request init todo w) ?_ (undoStart inv restored)) ?_ fun _ _ no => no
    · intro i m rest w' undoing
      refine seenMono (rollbackRouteSeen undoing) ?_ fun _ _ no => no
      intro r w'' done
      cases r <;> exact done
    · intro r w' done
      cases r with
      | some _ => exact seenPure ⟨done,nofun⟩
      | none => exact seenPure ⟨done.inv,fun _ => undoEnd done⟩
  · exact seenIte (fun _ => seenPure ⟨inv.inv,nofun⟩) fun no => absurd rfl no

structure Ended (request : RuntimeRoutingTransactionRequest) (init : Kernel) (committed : Kernel → Prop)
    (r : RuntimeRoutingTransactionResult) (w : View) : Prop where
  inv : Inv request init w.kernel w.trace
  restored : r.terminal = .candidateRolledBack → w.kernel = init
  committed : r.terminal = .candidateCommitted → committed w.kernel

theorem endedOther {committed : Kernel → Prop} {terminal : RuntimeRoutingTerminal} {stage detail}
    {E : NetlinkError → View → Prop} (inv : Inv request init v.kernel v.trace)
    (notRolledBack : terminal ≠ .candidateRolledBack) (notCommitted : terminal ≠ .candidateCommitted) :
    shows (endCandidate terminal stage detail) (Ended request init committed) E v := by
  refine endCandidateSeen fun r ends => ⟨inv,fun back => ?_,fun done => ?_⟩
  · exact absurd (ends.symm.trans back) notRolledBack
  · exact absurd (ends.symm.trans done) notCommitted

theorem priorPreimageRestoredSeen {Q : Bool → View → Prop} {E : NetlinkError → View → Prop}
    (h : ∀ answer, Q answer v) : shows (priorPreimageRestored out request) Q E v := by
  unfold priorPreimageRestored
  refine seenIte (fun _ => seenPure (h _)) fun _ => seenCatch ?_
  refine seenBind (readRoutesSeen (seenBind (readRulesSeen ?_ ?_)) ?_)
  · exact seenBind (onResultSeen (seenPure (h _)))
  · exact fun _ => seenBind (onResultSeen (seenPure (h _)))
  · exact fun _ => seenBind (onResultSeen (seenPure (h _)))

theorem failCandidateSeen {committed : Kernel → Prop} {stage : RuntimeRoutingFailureStage} {ambiguous : Bool}
    {detail : String} (inv : Inv request init v.kernel v.trace) (undo : ambiguous = false → Undoable request init v) :
    shows (failCandidate out request stage ambiguous detail) (Ended request init committed) (fun _ _ => False) v := by
  unfold failCandidate
  refine seenIte (fun _ => endedOther inv nofun nofun) fun settled => seenBind ?_
  refine seenMono (rollbackCandidateSeen (undo (by simpa using settled))) ?_ fun _ _ no => no
  intro answer w rolled
  obtain ⟨inv',back⟩ := rolled
  refine seenIte (fun _ => endedOther inv' nofun nofun) fun rolledBack => seenBind ?_
  refine priorPreimageRestoredSeen fun restored => ?_
  refine seenIte (fun _ => ?_) fun _ => endedOther inv' nofun nofun
  refine endCandidateSeen fun r ends => ⟨inv',fun _ => back (by simpa using rolledBack),fun done => ?_⟩
  rw [ends] at done
  cases done

theorem failForwardFenceSeen {committed : Kernel → Prop} {entry : Nat} {detail : String}
    (inv : Inv request init v.kernel v.trace) (undo : v.mutationStarted = true → Undoable request init v) :
    shows (failForwardFence out request entry detail) (Ended request init committed) (fun _ _ => False) v := by
  unfold failForwardFence
  refine seenGet fun s at_v => seenBind (onEntrySeen ?_)
  have flag : s.core.mutationStarted = v.mutationStarted := congrArg View.mutationStarted at_v
  refine seenIte (fun started => failCandidateSeen inv fun _ => undo (flag.symm.trans started)) fun _ => ?_
  refine endedOther inv ?_ ?_
  · split <;> nofun
  · split <;> nofun

end Fail

end KeenPbr
