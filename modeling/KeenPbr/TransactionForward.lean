import KeenPbr.TransactionRollback

/-! The forward phase. Before each step the run can be undone, every fence observation was
current, and an entered mutation shows in the trace; a step that fails leaves a state that can
still be undone unless its own effect is in doubt, and then nothing more is called. -/
namespace KeenPbr
open Wp Trace NetlinkManager

structure Forward (request : RuntimeRoutingTransactionRequest) (init : Kernel) (v : View) : Prop
    extends Undoable request init v where
  phase : v.phase = .forward
  current : AllCurrent v.trace
  started : v.mutationStarted = true → ∃ e ∈ v.trace, e.isCall = true

section Steps
variable {out : Outside} {request : RuntimeRoutingTransactionRequest} {init : Kernel} {v : View}

theorem undoableSame {w : View} (h : Undoable request init v) (inv : Inv request init w.kernel w.trace)
    (stale : StaleAfterCall w.trace) (kernel : w.kernel = v.kernel) (routes : w.routes = v.routes)
    (rules : w.rules = v.rules) : Undoable request init w where
  inv := inv
  stale := stale
  routeFits := by rw [routes]; exact h.routeFits
  distinct := by rw [routes]; exact h.distinct
  ruleFits := by rw [rules]; exact h.ruleFits
  routes := by rw [kernel,routes]; exact h.routes
  rules := by rw [kernel,rules]; exact h.rules

theorem forwardFenced (h : Forward request init v) : Forward request init (v.fenced .current) where
  toUndoable := undoableSame h.toUndoable (invFenced h.inv) (staleOfCurrent (currentFenced h.current)) rfl rfl rfl
  phase := h.phase
  current := currentFenced h.current
  started := by
    intro flag
    obtain ⟨e,mem,call⟩ := h.started flag
    exact ⟨e,List.mem_append_left _ mem,call⟩

theorem leaveFails {C : Kernel → Prop} {stage : RuntimeRoutingFailureStage} {ambiguous : Bool}
    {detail : String} {Q : Option RuntimeRoutingTransactionResult → View → Prop} {E : NetlinkError → View → Prop}
    (inv : Inv request init v.kernel v.trace) (undo : ambiguous = false → Undoable request init v)
    (next : ∀ r w, Ended request init C r w → Q (some r) w) :
    shows (leave (failCandidate out request stage ambiguous detail)) Q E v :=
  leaveSeen (seenMono (failCandidateSeen inv undo) next fun _ _ no => no.elim)

theorem leaveFenced {committed : Kernel → Prop} {state : FenceProbeState} {entry : Nat} {detail : String}
    {Q : Option RuntimeRoutingTransactionResult → View → Prop} {E : NetlinkError → View → Prop}
    (h : Forward request init v) (next : ∀ r w, Ended request init committed r w → Q (some r) w) :
    shows (leave (failForwardFence out request entry detail)) Q E (v.fenced state) := by
  refine leaveSeen (seenMono (failForwardFenceSeen (invFenced h.inv) fun flag => ?_) next fun _ _ no => no.elim)
  refine undoableSame h.toUndoable (invFenced h.inv) (staleSnoc h.stale ?_) rfl rfl rfl
  exact fun _ _ _ _ => h.started flag

def View.entered (v : View) (mutation : Mutation) (k : Kernel) : View :=
  ({ v.fenced .current with mutationStarted := true } : View).called mutation k

theorem calledInv {mutation : Mutation} {k : Kernel} {phase : Phase} (inv : Inv request init v.kernel v.trace)
    (all : AllCurrent v.trace) (here : v.phase = phase) (effect : Harmless request init phase v.kernel k) :
    Inv request init (v.entered mutation k).kernel (v.entered mutation k).trace := by
  have current : AllCurrent (v.trace ++ [.fence v.phase .current]) := currentFenced all
  rw [← here] at effect
  exact invCalled (invFenced inv) effect (staleOfCurrent current) fun _ => ⟨freshFenced _ _,current⟩

theorem enteredInv {mutation : Mutation} {k : Kernel} (h : Forward request init v)
    (effect : Harmless request init .forward v.kernel k) :
    Inv request init (v.entered mutation k).kernel (v.entered mutation k).trace :=
  calledInv h.inv h.current h.phase effect

theorem enteredCurrent {mutation : Mutation} {k : Kernel} (h : Forward request init v) :
    AllCurrent (v.entered mutation k).trace := currentCalled (currentFenced h.current)

theorem enteredStarted {mutation : Mutation} {k : Kernel} : ∃ e ∈ (v.entered mutation k).trace, e.isCall = true :=
  ⟨_,List.mem_append_right _ (List.mem_singleton_self _),rfl⟩

theorem enteredUnchanged {mutation : Mutation} (h : Forward request init v) :
    Undoable request init (v.entered mutation v.kernel) :=
  undoableSame h.toUndoable (enteredInv h harmlessNone) (staleOfCurrent (enteredCurrent h)) rfl rfl rfl

end Steps

section Routes
variable {out : Outside} {request : RuntimeRoutingTransactionRequest} {init : Kernel} {v : View}
variable {done rest : List PlannedRouteMutation} {m m' : PlannedRouteMutation}

theorem modifyHere {α : Type} (done rest : List α) (x : α) (f : α → α) :
    (done ++ x :: rest).modify done.length f = done ++ f x :: rest := by
  induction done with
  | nil => rfl
  | cons head tail ih => simp [List.modify_succ_cons,ih]

theorem appliedIdle {routes : List PlannedRouteMutation} (idle : ∀ x ∈ routes, x.idle) (live : List DumpedRoute) :
    applied routes live = live := by
  induction routes generalizing live with
  | nil => rfl
  | cons head tail ih =>
    obtain ⟨created,replaced⟩ := idle head List.mem_cons_self
    have first : head.apply live = live := by
      rw [PlannedRouteMutation.apply,created,replaced]; rfl
    have later := ih (fun x mem => idle x (List.mem_cons_of_mem _ mem)) live
    show applied tail (head.apply live) = live
    rw [first,later]

theorem receiptApplied (idle : ∀ x ∈ m :: rest, x.idle) (live : List DumpedRoute) :
    applied (done ++ m' :: rest) live = m'.apply (applied (done ++ m :: rest) live) := by
  have later : ∀ x ∈ rest, x.idle := fun x mem => idle x (List.mem_cons_of_mem _ mem)
  have below : applied (done ++ m :: rest) live = applied done live := by
    rw [applied,List.foldl_append]
    exact appliedIdle idle _
  rw [below,applied,List.foldl_append]
  exact appliedIdle later _

theorem receiptUndoable {w : View} (h : Undoable request init v) (split : v.routes = done ++ m :: rest)
    (idle : ∀ x ∈ m :: rest, x.idle) (same : m'.candidate = m.candidate) (fits : RouteFits request init.routes m')
    (inv : Inv request init w.kernel w.trace) (stale : StaleAfterCall w.trace)
    (split' : w.routes = done ++ m' :: rest) (rules : w.rules = v.rules)
    (kernelRoutes : w.kernel.routes = m'.apply v.kernel.routes) (kernelRules : w.kernel.rules = v.kernel.rules) :
    Undoable request init w where
  inv := inv
  stale := stale
  routeFits := by
    have old := h.routeFits
    rw [split] at old
    rw [split']
    intro x mem
    rcases List.mem_append.mp mem with before | after
    · exact old x (List.mem_append_left _ before)
    · rcases List.mem_cons.mp after with rfl | later
      · exact fits
      · exact old x (List.mem_append_right _ (List.mem_cons_of_mem _ later))
  distinct := by
    have old := h.distinct
    rw [split] at old
    rw [split']
    unfold DistinctSlots at old ⊢
    simp only [List.pairwise_append,List.pairwise_cons,List.forall_mem_cons,same] at old ⊢
    exact old
  ruleFits := by rw [rules]; exact h.ruleFits
  routes := by rw [kernelRoutes,split',receiptApplied idle,← split,h.routes]
  rules := by rw [kernelRules,rules]; exact h.rules

theorem dumpPresent (k : Kernel) (spec : RouteSpec) :
    routePresent spec (k.dumpRoutes spec.family) = routePresent spec k.routes := by
  rw [Bool.eq_iff_iff,routePresentIff,routePresentIff]
  constructor
  · intro h
    obtain ⟨route,mem,exact⟩ := h
    exact ⟨route,memDumpRoutes mem,exact⟩
  · intro h
    obtain ⟨route,mem,exact⟩ := h
    have family := (slotTableFamily (matchesLiveSlot exact)).2
    refine ⟨route,?_,exact⟩
    unfold Kernel.dumpRoutes
    split
    · exact mem
    · exact List.mem_filter.mpr ⟨mem,by simp [family]⟩

abbrev RouteInDoubt (request : RuntimeRoutingTransactionRequest) (init : Kernel) (m : PlannedRouteMutation)
    (w : View) : Prop :=
  Inv request init w.kernel w.trace ∧ (routePresent m.candidate w.kernel.routes = false → Undoable request init w)

abbrev Returned (request : RuntimeRoutingTransactionRequest) (init : Kernel) (committed : Kernel → Prop)
    (goesOn : View → Prop) : Option RuntimeRoutingTransactionResult → View → Prop
  | some r, w => Ended request init committed r w
  | none, w => goesOn w

theorem settleRouteSeen {committed : Kernel → Prop} {goesOn : View → Prop} {absent unknown : String}
    (h : RouteInDoubt request init m v) :
    shows (settleRoute out request m absent unknown) (Returned request init committed goesOn) (fun _ _ => False) v := by
  unfold settleRoute
  refine seenBind (onEntrySeen (seenBind (seenCatch (seenBind (readRoutesSeen ?_ fun _ => seenPure ?_)))))
  · refine seenIte (fun absent => seenBind (onEntrySeen ?_)) fun _ => seenPure ?_
    · rw [dumpPresent] at absent
      refine leaveFails (C := committed) h.1 (fun _ => h.2 (by simpa using absent)) ?_
      exact fun r w ended => seenPure ended
    · exact leaveFails h.1 nofun fun _ _ ended => ended
  · exact leaveFails h.1 nofun fun _ _ ended => ended

theorem forwardRouteFailedSeen {committed : Kernel → Prop} {goesOn : View → Prop} {e : NetlinkError}
    (h : RouteInDoubt request init m v) :
    shows (forwardRouteFailed out request m e) (Returned request init committed goesOn) (fun _ _ => False) v := by
  cases e with
  | routeInterfaceUnavailable what => exact seenBind (onResultSeen (settleRouteSeen h))
  | netlink | unknown => exact settleRouteSeen h

structure RoutesTodo (request : RuntimeRoutingTransactionRequest) (init : Kernel) (i : Nat)
    (todo : List PlannedRouteMutation) (v : View) : Prop extends Forward request init v where
  position : ∃ done, v.routes = done ++ todo ∧ done.length = i
  idle : ∀ m ∈ todo, m.idle
  rulesIdle : ∀ m ∈ v.rules, m.createdReceipt = false

theorem addedPresent {k k' : Kernel} (fits : RouteFits request init.routes m) (effect : AddedRoute m.candidate k k') :
    routePresent m.candidate k'.routes = true := by
  rw [routePresentIff,effect.2.1]
  exact ⟨kernelRoute m.candidate,by simp,kernelMatches fits.explicit⟩

theorem replacedPresent {k k' : Kernel} {expected : RouteSpec} (fits : RouteFits request init.routes m)
    (effect : ReplacedRoute expected m.candidate k k') : kernelRoute m.candidate ∈ k'.routes ∧
      routePresent m.candidate k'.routes = true := by
  obtain ⟨old,slot,_⟩ := (slotSingleIff _ _).mp effect.2.1
  have inside := memOccupants.mp (show old ∈ occupants expected.slot k.routes by rw [slot]; simp)
  have there : kernelRoute m.candidate ∈ k'.routes := by
    rw [effect.2.2.1]
    exact List.mem_map.mpr ⟨old,inside.1,by rw [if_pos inside.2]⟩
  exact ⟨there,(routePresentIff _ _).mpr ⟨_,there,kernelMatches fits.explicit⟩⟩

theorem replacedDrops {k k' : Kernel} {expected : RouteSpec} {phase : Phase} (fits : RouteFits request init.routes m)
    (effect : ReplacedRoute expected m.candidate k k') :
    DropsAnchored request k k' (Excused request init phase) := by
  intro route mem gone rule _ _ table family
  have here : route.slot = m.candidate.slot := by
    by_contra away
    apply gone
    rw [effect.2.2.1]
    exact List.mem_map.mpr ⟨route,mem,by rw [if_neg (by rw [effect.1]; exact away)]⟩
  have old := slotTableFamily here
  have place := slotTableFamily (kernelSlot fits.explicit)
  refine .inl ⟨m.candidate,List.mem_append_left _ fits.desired,_,(replacedPresent fits effect).1,
    kernelMatches fits.explicit,?_,?_⟩
  · rw [place.1,← old.1,table]
  · rw [place.2,← old.2,family]

theorem routesStep {i : Nat} {w : View} (h : RoutesTodo request init i (m :: rest) v) (undo : Undoable request init w)
    (current : AllCurrent w.trace) (call : ∃ e ∈ w.trace, e.isCall = true) (phase : w.phase = v.phase)
    (routes : ∀ done, v.routes = done ++ m :: rest → done.length = i → ∃ m', w.routes = done ++ m' :: rest)
    (rules : w.rules = v.rules) : RoutesTodo request init (i + 1) rest w where
  toUndoable := undo
  phase := phase.trans h.phase
  current := current
  started := fun _ => call
  position := by
    obtain ⟨done,split,length⟩ := h.position
    obtain ⟨m',split'⟩ := routes done split length
    exact ⟨done ++ [m'],by simpa using split',by simp [length]⟩
  idle := fun x mem => h.idle x (List.mem_cons_of_mem _ mem)
  rulesIdle := by rw [rules]; exact h.rulesIdle

theorem enteredReceipt {i : Nat} {mutation : Mutation} {k : Kernel} {f : PlannedRouteMutation → PlannedRouteMutation}
    (h : RoutesTodo request init i (m :: rest) v) (same : (f m).candidate = m.candidate)
    (fits : RouteFits request init.routes (f m)) (harmless : Harmless request init .forward v.kernel k)
    (routes : k.routes = (f m).apply v.kernel.routes) (rules : k.rules = v.kernel.rules) :
    RoutesTodo request init (i + 1) rest
      { v.entered mutation k with routes := (v.entered mutation k).routes.modify i f } := by
  have modified : ∀ done, v.routes = done ++ m :: rest → done.length = i →
      (v.entered mutation k).routes.modify i f = done ++ f m :: rest := by
    intro done split length
    show v.routes.modify i f = _
    rw [split,← length]
    exact modifyHere done rest m f
  obtain ⟨done,split,length⟩ := h.position
  have undo := receiptUndoable (w := { v.entered mutation k with routes := (v.entered mutation k).routes.modify i f })
    h.toUndoable split h.idle same fits (enteredInv h.toForward harmless)
    (staleOfCurrent (enteredCurrent h.toForward)) (modified done split length) rfl routes rules
  refine routesStep h undo (enteredCurrent h.toForward) enteredStarted rfl ?_ rfl
  exact fun done split length => ⟨f m,modified done split length⟩

theorem fitsHere {i : Nat} (h : RoutesTodo request init i (m :: rest) v) : RouteFits request init.routes m := by
  obtain ⟨done,split,_⟩ := h.position
  exact h.routeFits m (by rw [split]; simp)

theorem addForwardSeen {committed : Kernel → Prop} {i : Nat} (h : RoutesTodo request init i (m :: rest) v)
    (adds : m.replace = false) :
    shows (addForward out request i m) (Returned request init committed (RoutesTodo request init (i + 1) rest))
      (fun _ w => RouteInDoubt request init m w) v := by
  have fits := fitsHere h
  have idle := h.idle m List.mem_cons_self
  have harmless : ∀ k, AddedRoute m.candidate v.kernel k → Harmless request init .forward v.kernel k :=
    fun k effect => addedRouteHarmless fits.explicit fits.generated effect
  unfold addForward
  refine seenBind (observeFenceSeen fun state => ?_)
  refine seenIte (fun _ => leaveFenced h.toForward fun _ _ ended => ended)
    fun ok => seenBind (enterMutationSeen (seenBind ?_))
  obtain rfl : state = .current := by simpa using ok
  refine mutatingSeen
    (P := fun r k => RouteReceipt m.candidate v.kernel k r)
    (F := fun k => k = v.kernel ∨ AddedRoute m.candidate v.kernel k) ?_ ?_ ?_
  · intro b same
    have here : b.kernel = v.kernel := same
    rw [← here]
    refine mono (addRouteRule fits.explicit b) ?_ fun _ _ effect => effect
    intro r b' effect
    cases r with
    | created => exact effect
    | alreadyPresent => exact effect.2
  · intro r k effect
    refine seenBind (onRouteSeen (seenBind (onEntrySeen (seenPure ?_))))
    cases r with
    | created =>
      refine enteredReceipt h rfl ?_ (harmless k effect) ?_ effect.2.2
      · exact { fits with created := fun _ => adds, replaced := fits.replaced }
      · rw [effect.2.1]; rfl
    | alreadyPresent =>
      obtain rfl := effect
      refine enteredReceipt h rfl ?_ harmlessNone ?_ rfl
      · exact { fits with created := (fun is => by cases is), replaced := fits.replaced }
      · simp [PlannedRouteMutation.apply,idle.2]
  · intro e k effect
    rcases effect with rfl | effect
    · exact ⟨enteredInv h.toForward harmlessNone,fun _ => enteredUnchanged h.toForward⟩
    · refine ⟨enteredInv h.toForward (harmless k effect),fun absent => ?_⟩
      have present := addedPresent fits effect
      exact absurd (absent.symm.trans present) (by decide)

theorem replaceForwardSeen {committed : Kernel → Prop} {i : Nat} (h : RoutesTodo request init i (m :: rest) v)
    (replaces : m.replace = true) :
    shows (replaceForward out request i m) (Returned request init committed (RoutesTodo request init (i + 1) rest))
      (fun _ w => RouteInDoubt request init m w) v := by
  have fits := fitsHere h
  have idle := h.idle m List.mem_cons_self
  have undoable : RouteInDoubt request init m v := ⟨h.inv,fun _ => h.toUndoable⟩
  obtain ⟨live,single,exact,generated,preimages⟩ : ∃ live, occupants m.candidate.slot init.routes = [live] ∧
      live.exactIdentityRepresentable = true ∧ isGeneratedRouteCandidate live = true ∧
      m.preimages = [routeSpecFromLive live] := by
    rcases fits.slot with ⟨no,_⟩ | ⟨_,shape⟩
    · rw [replaces] at no; cases no
    · exact shape
  have mem := memOccupants.mp (show live ∈ occupants m.candidate.slot init.routes by rw [single]; simp)
  have family : (routeSpecFromLive live).family ≠ 0 := init.families live mem.1
  have owned : isGeneratedRouteCandidate (dumpedRouteFromSpec (routeSpecFromLive live)) = true := generated
  have harmless : ∀ k, ReplacedRoute (routeSpecFromLive live) m.candidate v.kernel k →
      Harmless request init .forward v.kernel k :=
    fun k effect => replacedRouteHarmless fits.explicit owned fits.generated effect (replacedDrops fits effect)
  unfold replaceForward
  refine seenBind (readRoutesSeen ?_ fun _ => undoable)
  refine seenIte (fun _ => seenBind (onEntrySeen ?_)) fun _ => seenBind (observeFenceSeen fun state => ?_)
  · exact leaveFails h.inv (fun _ => h.toUndoable) fun _ _ ended => ended
  refine seenIte (fun _ => leaveFenced h.toForward fun _ _ ended => ended)
    fun ok => seenBind (enterMutationSeen ?_)
  obtain rfl : state = .current := by simpa using ok
  rw [preimages]
  refine seenBind (mutatingSeen
    (P := fun r k => ReplaceReceipt (routeSpecFromLive live) m.candidate v.kernel k r)
    (F := fun k => k = v.kernel ∨ ReplacedRoute (routeSpecFromLive live) m.candidate v.kernel k) ?_ ?_ ?_)
  · intro b same
    have here : b.kernel = v.kernel := same
    rw [← here]
    exact replaceRouteIfExactRule family fits.explicit b
  · intro r k effect
    cases r with
    | preconditionMismatch =>
      obtain rfl := effect
      refine seenIte (fun _ => seenBind (onEntrySeen ?_)) fun no => absurd rfl no
      refine leaveFails (enteredInv h.toForward harmlessNone) (fun _ => ?_) fun _ _ ended => ended
      exact enteredUnchanged h.toForward
    | replaced =>
      refine seenIte (fun is => by cases is) fun _ => seenBind (onRouteSeen (seenBind (onEntrySeen (seenPure ?_))))
      refine enteredReceipt h rfl ?_ (harmless k effect) ?_ effect.2.2.2
      · exact { fits with created := fits.created, replaced := fun _ => replaces }
      · rw [effect.2.2.1,effect.1]
        simp [PlannedRouteMutation.apply,idle.1]
  · intro e k effect
    rcases effect with rfl | effect
    · exact ⟨enteredInv h.toForward harmlessNone,fun _ => enteredUnchanged h.toForward⟩
    · refine ⟨enteredInv h.toForward (harmless k effect),fun absent => ?_⟩
      have present := (replacedPresent fits effect).2
      exact absurd (absent.symm.trans present) (by decide)

theorem forwardRouteSeen {committed : Kernel → Prop} {i : Nat} (h : RoutesTodo request init i (m :: rest) v) :
    shows (forwardRoute out request i m) (Returned request init committed (RoutesTodo request init (i + 1) rest))
      (fun _ _ => False) v := by
  unfold forwardRoute
  refine seenCatch (seenMono (Q := Returned request init committed (RoutesTodo request init (i + 1) rest))
    (E := fun _ w => RouteInDoubt request init m w) ?_ (fun _ _ q => q) fun _ _ doubt => forwardRouteFailedSeen doubt)
  exact seenIte (replaceForwardSeen h) fun no => addForwardSeen h (by simpa using no)

end Routes

section Rules
variable {out : Outside} {request : RuntimeRoutingTransactionRequest} {init : Kernel} {v : View}
variable {rest : List PlannedRuleMutation} {m : PlannedRuleMutation}

structure RulesTodo (request : RuntimeRoutingTransactionRequest) (init : Kernel) (i : Nat)
    (todo : List PlannedRuleMutation) (v : View) : Prop extends Forward request init v where
  position : ∃ done, v.rules = done ++ todo ∧ done.length = i
  idle : ∀ m ∈ todo, m.createdReceipt = false

theorem rulesStart (h : Forward request init v) (idle : ∀ m ∈ v.rules, m.createdReceipt = false) :
    RulesTodo request init 0 v.rules v :=
  { h with position := ⟨[],rfl,rfl⟩, idle }

theorem ruleFitsHere {i : Nat} (h : RulesTodo request init i (m :: rest) v) : RuleFits request init.rules m := by
  obtain ⟨done,split,_⟩ := h.position
  exact h.ruleFits m (by rw [split]; simp)

theorem dependencySupports {rule : RuleSpec} {k : Kernel} {family : Int}
    (present : ruleDependencyPresent request rule (k.dumpRoutes family) = true) :
    Supported request k.routes (kernelRule rule rule.family) := by
  unfold ruleDependencyPresent at present
  split at present
  · simp only [List.any_eq_true,Bool.and_eq_true,beq_iff_eq] at present
    obtain ⟨spec,desired,⟨table,family⟩,single⟩ := present
    obtain ⟨route,slot,exact⟩ := (slotSingleIff _ _).mp single
    have inside := memOccupants.mp (show route ∈ occupants spec.slot (k.dumpRoutes _) by rw [slot]; simp)
    have place := slotTableFamily inside.2
    exact .inl ⟨spec,desired,route,memDumpRoutes inside.1,exact,place.1.trans table,place.2.trans family⟩
  · simp only [externalTableAuthorized,List.any_eq_true,Bool.and_eq_true,beq_iff_eq] at present
    exact .inr present

theorem ruleReceiptUndoable {i : Nat} (mutation : Mutation) {k : Kernel} {created : Bool}
    (h : RulesTodo request init i (m :: rest) v) (harmless : Harmless request init .forward v.kernel k)
    (effect : k = v.kernel ∨ created = true ∧ AddedRule m.candidate v.kernel k) :
    Undoable request init { v.entered mutation k with
      rules := (v.entered mutation k).rules.modify i fun m => { m with createdReceipt := created } } := by
  obtain ⟨done,split,length⟩ := h.position
  have modified : v.rules.modify i (fun m => { m with createdReceipt := created }) =
      done ++ { m with createdReceipt := created } :: rest := by
    rw [split,← length]
    exact modifyHere done rest m _
  obtain ⟨extra,rules,receipted⟩ := h.rules
  have still : ∀ rule ∈ extra, ∃ x ∈ done ++ { m with createdReceipt := created } :: rest,
      x.createdReceipt = true ∧ x.candidate.Names rule := by
    intro rule mem
    obtain ⟨x,inside,receipt,named⟩ := receipted rule mem
    rw [split] at inside
    rcases List.mem_append.mp inside with before | after
    · exact ⟨x,List.mem_append_left _ before,receipt,named⟩
    · rw [h.idle x after] at receipt
      cases receipt
  refine ⟨enteredInv h.toForward harmless,staleOfCurrent (enteredCurrent h.toForward),h.routeFits,h.distinct,?_,?_,?_⟩
  · show ∀ x ∈ v.rules.modify i _, RuleFits request init.rules x
    rw [modified]
    intro x mem
    rcases List.mem_append.mp mem with before | after
    · exact h.ruleFits x (by rw [split]; exact List.mem_append_left _ before)
    · rcases List.mem_cons.mp after with rfl | later
      · exact ⟨(ruleFitsHere h).desired,(ruleFitsHere h).fresh⟩
      · exact h.ruleFits x (by rw [split]; exact List.mem_append_right _ (List.mem_cons_of_mem _ later))
  · rcases effect with rfl | ⟨_,effect⟩
    · exact h.routes
    · exact effect.1.trans h.routes
  · show ∃ extra, k.rules = init.rules ++ extra ∧ ∀ rule ∈ extra, ∃ x ∈ v.rules.modify i _, _
    rw [modified]
    rcases effect with rfl | ⟨rfl,effect⟩
    · exact ⟨extra,rules,still⟩
    · refine ⟨extra ++ [kernelRule m.candidate m.candidate.family],by rw [effect.2,rules,List.append_assoc],?_⟩
      intro rule mem
      rcases List.mem_append.mp mem with old | new
      · exact still rule old
      · rw [List.mem_singleton.mp new]
        exact ⟨{ m with createdReceipt := true },by simp,rfl,rfl,rfl,rfl,rfl,rfl⟩

/- What forwardRuleFailed needs: without a bearer nothing happened; with the receipt set the
run can be undone. -/
structure RuleInDoubt (request : RuntimeRoutingTransactionRequest) (init : Kernel) (addStarted : Bool) (i : Nat)
    (m : PlannedRuleMutation) (w : View) : Prop where
  inv : Inv request init w.kernel w.trace
  absent : bearers m.candidate w.kernel.rules = [] → Undoable request init w
  receipted : addStarted = true →
    Undoable request init { w with rules := w.rules.modify i fun m => { m with createdReceipt := true } }

theorem forwardRuleFailedSeen {committed : Kernel → Prop} {goesOn : View → Prop} {addStarted : Bool} {i : Nat}
    (h : RuleInDoubt request init addStarted i m v) :
    shows (forwardRuleFailed out request addStarted i m) (Returned request init committed goesOn)
      (fun _ _ => False) v := by
  unfold forwardRuleFailed
  refine seenBind (onEntrySeen (seenBind (seenCatch (seenBind (readRulesSeen ?_ fun _ => seenPure ?_)))))
  · refine seenIte (fun empty => seenBind (onEntrySeen ?_)) fun _ => seenIte (fun own => seenBind (onRuleSeen ?_))
      fun _ => seenPure ?_
    · have none := (ruleEmptyIff _ _).mp (by simpa using empty)
      rw [dumpBearers m.candidate.family v.kernel rfl] at none
      refine leaveFails (C := committed) h.inv (fun _ => h.absent none) ?_
      exact fun r w ended => seenPure ended
    · have receipted := h.receipted (by simp at own; exact own.1)
      refine seenBind (onEntrySeen (leaveFails (C := committed) receipted.inv (fun _ => receipted) ?_))
      exact fun r w ended => seenPure ended
    · exact leaveFails h.inv nofun fun _ _ ended => ended
  · exact leaveFails h.inv nofun fun _ _ ended => ended

theorem ruleNext {i : Nat} {w : View} (h : RulesTodo request init i (m :: rest) v) (forward : Forward request init w)
    (rules : ∀ done, v.rules = done ++ m :: rest → done.length = i → ∃ m', w.rules = done ++ m' :: rest) :
    RulesTodo request init (i + 1) rest w :=
  { forward with
    position := by
      obtain ⟨done,split,length⟩ := h.position
      obtain ⟨m',split'⟩ := rules done split length
      exact ⟨done ++ [m'],by simpa using split',by simp [length]⟩
    idle := fun x mem => h.idle x (List.mem_cons_of_mem _ mem) }

theorem addRuleForwardSeen {committed : Kernel → Prop} {i : Nat} (h : RulesTodo request init i (m :: rest) v)
    (supported : Supported request v.kernel.routes (kernelRule m.candidate m.candidate.family)) :
    shows (tryCatch (addRuleForward out i m) fun _ => forwardRuleFailed out request true i m)
      (Returned request init committed (RulesTodo request init (i + 1) rest)) (fun _ _ => False)
      { v.fenced .current with mutationStarted := true } := by
  have fits := ruleFitsHere h
  have harmless : ∀ k, k = v.kernel ∨ AddedRule m.candidate v.kernel k →
      Harmless request init .forward v.kernel k := by
    intro k effect
    rcases effect with rfl | effect
    · exact harmlessNone
    · exact addedRuleHarmless fits.desired supported effect
  unfold addRuleForward
  refine seenCatch (seenBind (mutatingSeen
    (P := fun r k => RuleReceipt m.candidate v.kernel k r)
    (F := fun k => k = v.kernel ∨ AddedRule m.candidate v.kernel k) ?_ ?_ ?_))
  · intro b same
    have here : b.kernel = v.kernel := same
    rw [← here]
    refine mono (addRuleRule m.candidate b) ?_ fun _ _ effect => effect
    intro r b' effect
    cases r with
    | created => exact effect
    | alreadyPresent => exact effect.2
  · intro r k effect
    have either : k = v.kernel ∨ (r == .created) = true ∧ AddedRule m.candidate v.kernel k := by
      cases r with
      | created => exact .inr ⟨rfl,effect⟩
      | alreadyPresent => exact .inl effect
    have undo := ruleReceiptUndoable (Mutation.addRuleForFamily m.candidate) h
      (harmless k (either.imp id And.right)) either
    refine seenBind (onRuleSeen (seenBind (onEntrySeen (seenPure (ruleNext h ?_ ?_)))))
    · exact { undo with phase := h.phase, current := enteredCurrent h.toForward, started := fun _ => enteredStarted }
    · intro done split length
      refine ⟨{ m with createdReceipt := r == .created },?_⟩
      show v.rules.modify i _ = _
      rw [split,← length]
      exact modifyHere done rest m _
  · intro e k effect
    refine forwardRuleFailedSeen ⟨enteredInv h.toForward (harmless k effect),fun none => ?_,fun _ => ?_⟩
    · rcases effect with rfl | effect
      · exact enteredUnchanged h.toForward
      · have bearer : kernelRule m.candidate m.candidate.family ∈ bearers m.candidate k.rules :=
          memBearers.mpr ⟨by rw [effect.2]; simp,rfl,rfl,rfl,rfl,rfl⟩
        have none : bearers m.candidate k.rules = [] := none
        rw [none] at bearer
        cases bearer
    · exact ruleReceiptUndoable _ h (harmless k effect) (effect.imp id fun added => ⟨rfl,added⟩)

theorem forwardRuleSeen {committed : Kernel → Prop} {i : Nat} (h : RulesTodo request init i (m :: rest) v) :
    shows (forwardRule out request i m) (Returned request init committed (RulesTodo request init (i + 1) rest))
      (fun _ _ => False) v := by
  have doubt : RuleInDoubt request init false i m v := ⟨h.inv,fun _ => h.toUndoable,nofun⟩
  have fails : ∀ {stage detail E}, shows (leave (failCandidate out request stage false detail))
      (Returned request init committed (RulesTodo request init (i + 1) rest)) E v :=
    leaveFails h.inv (fun _ => h.toUndoable) fun _ _ ended => ended
  unfold forwardRule
  refine seenCatch (seenBind (readRoutesSeen ?_ fun _ => forwardRuleFailedSeen doubt))
  refine seenIte (fun _ => seenBind (onEntrySeen fails)) fun present => ?_
  refine seenBind (readRulesSeen ?_ fun _ => forwardRuleFailedSeen doubt)
  split
  · exact seenBind (onEntrySeen fails)
  · refine seenBind (onEntrySeen (seenPure (ruleNext h h.toForward ?_)))
    exact fun done split _ => ⟨m,split⟩
  · refine seenBind (observeFenceSeen fun state => ?_)
    refine seenIte (fun _ => leaveFenced h.toForward fun _ _ ended => ended)
      fun ok => seenBind (enterMutationSeen ?_)
    obtain rfl : state = .current := by simpa using ok
    exact seenMono (addRuleForwardSeen h (dependencySupports (by simpa using present))) (fun _ _ q => q)
      fun _ _ no => no.elim

theorem verifyCandidateSeen {committed : Kernel → Prop} {plan : Plan} (h : Forward request init v) :
    shows (verifyCandidate out request plan) (Returned request init committed (Forward request init))
      (fun _ _ => False) v := by
  have unavailable : ∀ {stage detail}, shows (do
      onEntry plan.candidateVerifyJournal (setState .unknown)
      leave (failCandidate out request stage true detail))
      (Returned request init committed (Forward request init)) (fun _ _ => False) v :=
    seenBind (onEntrySeen (leaveFails h.inv nofun fun _ _ ended => ended))
  unfold verifyCandidate
  refine seenCatch (seenBind (readRoutesSeen (seenBind (readRulesSeen ?_ fun _ => unavailable)) fun _ => unavailable))
  refine seenIte (fun _ => seenBind (onEntrySeen ?_)) fun _ => seenBind (observeFenceSeen fun state => ?_)
  · exact leaveFails h.inv (fun _ => h.toUndoable) fun _ _ ended => ended
  refine seenIte (fun _ => leaveFenced h fun _ _ ended => ended) fun ok => ?_
  obtain rfl : state = .current := by simpa using ok
  exact seenBind (onEntrySeen (seenBind (onResultSeen (seenBind (onJournalSeen (seenPure (forwardFenced h)))))))

end Rules

end KeenPbr
