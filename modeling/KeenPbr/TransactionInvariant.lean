import KeenPbr.TransactionView
import KeenPbr.TransactionPlanned

/-! The invariant of a run: the inventory keeps every foreign object, the trace accounts for
every change, and every mutating call of the trace was allowed by the fence observations before
it and left no owned rule without an anchor. One lemma per kernel effect says when the effect
keeps it. -/
namespace KeenPbr
open Wp Trace

/- Fence observations and calls. -/

def Event.isCall : Event → Bool
  | .fence .. => false
  | .call .. => true

def AllCurrent (trace : List Event) : Prop := ∀ phase state, Event.fence phase state ∈ trace → state = .current

def FreshFence (trace : List Event) : Prop :=
  ∃ earlier phase later, trace = earlier ++ .fence phase .current :: later ∧ ∀ e ∈ later, e.isCall = false

def StaleAfterCall (trace : List Event) : Prop :=
  ∀ earlier phase state later, trace = earlier ++ .fence phase state :: later → state ≠ .current →
    ∃ e ∈ earlier, e.isCall = true

def lastKernel (init : Kernel) (trace : List Event) : Kernel :=
  trace.foldl (fun k e => match e with
    | .fence .. => k
    | .call _ _ _ after => after) init

theorem staleOfCurrent {trace : List Event} (h : AllCurrent trace) : StaleAfterCall trace := by
  intro earlier phase state later split stale
  exact absurd (h phase state (by rw [split]; simp)) stale

theorem currentFenced {trace : List Event} {phase : Phase} (h : AllCurrent trace) :
    AllCurrent (trace ++ [.fence phase .current]) := by
  intro p state mem
  rcases List.mem_append.mp mem with old | new
  · exact h p state old
  · simp at new
    exact new.2

theorem currentCalled {trace : List Event} {phase mutation before after} (h : AllCurrent trace) :
    AllCurrent (trace ++ [.call phase mutation before after]) := by
  intro p state mem
  rcases List.mem_append.mp mem with old | new
  · exact h p state old
  · simp at new

theorem freshFenced (trace : List Event) (phase : Phase) : FreshFence (trace ++ [.fence phase .current]) :=
  ⟨trace,phase,[],rfl,by simp⟩

theorem staleSnoc {trace : List Event} {e : Event} (h : StaleAfterCall trace)
    (last : ∀ phase state, e = .fence phase state → state ≠ .current → ∃ c ∈ trace, c.isCall = true) :
    StaleAfterCall (trace ++ [e]) := by
  intro earlier phase state later split stale
  rcases splitSnoc split with ⟨rfl,fence,_⟩ | ⟨rest,_,old⟩
  · exact last phase state fence.symm stale
  · exact h earlier phase state rest old stale

/- Owned objects and their anchors. -/

section Owned
variable (request : RuntimeRoutingTransactionRequest)

def Anchored (live : List DumpedRoute) (table : UInt32) (family : Int) : Prop :=
  ∃ spec ∈ request.desiredRoutes ++ request.priorRoutes, ∃ route ∈ live,
    exactRouteMatchesLive spec route = true ∧ route.table = table ∧ route.family = family

def OwnedRule (rule : DumpedRule) : Prop :=
  ∃ spec ∈ concreteRules request.desiredRules ++ concreteRules request.priorOwnedRules, spec.Names rule

def Supported (live : List DumpedRoute) (rule : DumpedRule) : Prop :=
  (∃ spec ∈ request.desiredRoutes, ∃ route ∈ live,
    exactRouteMatchesLive spec route = true ∧ route.table = rule.table ∧ route.family = rule.family) ∨
  ∃ authority ∈ request.authorizedExternalTables, authority.table = rule.table ∧ authority.family = rule.family

def AddsSupported (before after : Kernel) : Prop :=
  ∀ rule ∈ after.rules, rule ∉ before.rules → Supported request before.routes rule

/- The rules a dropped route can strand. -/
def DropsAnchored (before after : Kernel) (excused : UInt32 → Int → Prop) : Prop :=
  ∀ route ∈ before.routes, route ∉ after.routes → ∀ rule ∈ after.rules, OwnedRule request rule →
    rule.table = route.table → rule.family = route.family →
      Anchored request after.routes rule.table rule.family ∨ excused rule.table rule.family

def Excused (init : Kernel) (phase : Phase) (table : UInt32) (family : Int) : Prop :=
  phase = .rollback ∧ ¬Anchored request init.routes table family

def Foreign (init : Kernel) (rule : DumpedRule) : Prop :=
  ∀ spec ∈ concreteRules request.desiredRules ++ concreteRules request.priorOwnedRules ++ recoveryOrphans request init,
    ¬spec.Names rule
instance (init : Kernel) (rule : DumpedRule) : Decidable (Foreign request init rule) := by
  unfold Foreign; infer_instance

structure Kept (init k : Kernel) : Prop where
  routes : k.routes.filter (fun r => !isGeneratedRouteCandidate r) =
    init.routes.filter (fun r => !isGeneratedRouteCandidate r)
  rules : k.rules.filter (fun r => Foreign request init r) = init.rules.filter (fun r => Foreign request init r)

def Step (init : Kernel) (earlier : List Event) : Event → Prop
  | .fence .. => True
  | .call phase _ before after =>
    before = lastKernel init earlier ∧ StaleAfterCall earlier ∧
      (phase ≠ .rollback → FreshFence earlier ∧ AllCurrent earlier) ∧
      AddsSupported request before after ∧
      DropsAnchored request before after (Excused request init phase)

structure Inv (init k : Kernel) (trace : List Event) : Prop where
  kept : Kept request init k
  now : k = lastKernel init trace
  steps : EveryStep (Step request init) trace

end Owned

section Preserved
variable {request : RuntimeRoutingTransactionRequest} {init k k' : Kernel} {trace : List Event} {phase : Phase}

theorem invStart : Inv request init init [] := ⟨⟨rfl,rfl⟩,rfl,everyNil⟩

theorem invFenced {state : FenceProbeState} (h : Inv request init k trace) :
    Inv request init k (trace ++ [.fence phase state]) where
  kept := h.kept
  now := by
    rw [lastKernel,List.foldl_append]
    exact h.now
  steps := everySnoc h.steps trivial

structure Harmless (request : RuntimeRoutingTransactionRequest) (init : Kernel) (phase : Phase) (k k' : Kernel) :
    Prop where
  kept : Kept request init k → Kept request init k'
  adds : AddsSupported request k k'
  drops : DropsAnchored request k k' (Excused request init phase)

theorem invCalled {mutation : Mutation} (h : Inv request init k trace) (effect : Harmless request init phase k k')
    (stale : StaleAfterCall trace) (fresh : phase ≠ .rollback → FreshFence trace ∧ AllCurrent trace) :
    Inv request init k' (trace ++ [.call phase mutation k k']) where
  kept := effect.kept h.kept
  now := by
    rw [lastKernel,List.foldl_append]
    rfl
  steps := everySnoc h.steps ⟨h.now,stale,fresh,effect.adds,effect.drops⟩

theorem harmlessNone : Harmless request init phase k k where
  kept := id
  adds := fun _ mem away => absurd mem away
  drops := fun _ mem away => absurd mem away

theorem addsOfNone (same : k'.rules = k.rules) : AddsSupported request k k' := by
  intro rule mem away
  rw [same] at mem
  exact absurd mem away

theorem dropsOfNone {excused : UInt32 → Int → Prop} (same : ∀ r ∈ k.routes, r ∈ k'.routes) :
    DropsAnchored request k k' excused :=
  fun route mem away => absurd (same route mem) away

theorem notForeign {spec : RuleSpec} {rule : DumpedRule}
    (known : spec ∈ concreteRules request.desiredRules ++ concreteRules request.priorOwnedRules ++
      recoveryOrphans request init) (named : spec.Names rule) : ¬Foreign request init rule :=
  fun foreign => foreign spec known named

open NetlinkManager

theorem kernelGenerated {spec : RouteSpec} (explicit : spec.family ≠ 0)
    (generated : isGeneratedRouteCandidate (dumpedRouteFromSpec spec) = true) :
    isGeneratedRouteCandidate (kernelRoute spec) = true := by
  rw [generatedOfMatch (kernelMatches explicit)]
  exact generated

theorem addedRouteHarmless {spec : RouteSpec} (explicit : spec.family ≠ 0)
    (generated : isGeneratedRouteCandidate (dumpedRouteFromSpec spec) = true)
    (effect : AddedRoute spec k k') : Harmless request init phase k k' where
  kept := by
    intro h
    refine ⟨?_,?_⟩
    · rw [effect.2.1,List.filter_append,h.routes]
      simp [kernelGenerated explicit generated]
    · rw [effect.2.2,h.rules]
  adds := addsOfNone effect.2.2
  drops := dropsOfNone fun r mem => by rw [effect.2.1]; exact List.mem_append_left _ mem

theorem keptWithoutSlot {slot : Slot} {live : List DumpedRoute}
    (owned : ∀ r ∈ live, r.slot = slot → isGeneratedRouteCandidate r = true) :
    (withoutSlot slot live).filter (fun r => !isGeneratedRouteCandidate r) =
      live.filter (fun r => !isGeneratedRouteCandidate r) := by
  rw [withoutSlot,List.filter_filter]
  apply List.filter_congr
  intro r mem
  by_cases here : r.slot = slot
  · simp [owned r mem here]
  · simp [here]

theorem keptWithSlot {slot : Slot} {new : DumpedRoute} {live : List DumpedRoute}
    (fresh : isGeneratedRouteCandidate new = true)
    (owned : ∀ r ∈ live, r.slot = slot → isGeneratedRouteCandidate r = true) :
    (withSlot slot new live).filter (fun r => !isGeneratedRouteCandidate r) =
      live.filter (fun r => !isGeneratedRouteCandidate r) := by
  induction live with
  | nil => rfl
  | cons head rest ih =>
    have tail := ih fun r mem => owned r (List.mem_cons_of_mem _ mem)
    have first := owned head List.mem_cons_self
    unfold withSlot at tail ⊢
    rw [List.map_cons]
    by_cases here : head.slot = slot
    · simp only [here,if_true,List.filter_cons,fresh,first here,Bool.not_true,Bool.false_eq_true,if_false]
      exact tail
    · simp only [here,if_false,List.filter_cons,tail]

theorem occupantGenerated {spec : RouteSpec} {live : List DumpedRoute}
    (generated : isGeneratedRouteCandidate (dumpedRouteFromSpec spec) = true)
    (single : exactSlotState spec live = .exactSingle) :
    ∀ r ∈ live, r.slot = spec.slot → isGeneratedRouteCandidate r = true := by
  intro r mem here
  obtain ⟨only,slot,exact⟩ := (slotSingleIff _ _).mp single
  have inside := memOccupants.mpr ⟨mem,here⟩
  rw [slot] at inside
  rw [List.mem_singleton.mp inside,generatedOfMatch exact]
  exact generated

theorem deletedRouteHarmless {spec : RouteSpec}
    (generated : isGeneratedRouteCandidate (dumpedRouteFromSpec spec) = true) (effect : DeletedRoute spec k k')
    (drops : DropsAnchored request k k' (Excused request init phase)) : Harmless request init phase k k' where
  kept := by
    intro h
    refine ⟨?_,?_⟩
    · rw [effect.2.1,keptWithoutSlot (occupantGenerated generated effect.1),h.routes]
    · rw [effect.2.2,h.rules]
  adds := addsOfNone effect.2.2
  drops := drops

theorem replacedRouteHarmless {expected replacement : RouteSpec} (explicit : replacement.family ≠ 0)
    (generated : isGeneratedRouteCandidate (dumpedRouteFromSpec expected) = true)
    (fresh : isGeneratedRouteCandidate (dumpedRouteFromSpec replacement) = true)
    (effect : ReplacedRoute expected replacement k k')
    (drops : DropsAnchored request k k' (Excused request init phase)) : Harmless request init phase k k' where
  kept := by
    intro h
    refine ⟨?_,?_⟩
    · rw [effect.2.2.1,keptWithSlot (kernelGenerated explicit fresh) (occupantGenerated generated effect.2.1),h.routes]
    · rw [effect.2.2.2,h.rules]
  adds := addsOfNone effect.2.2.2
  drops := drops

theorem addedRuleHarmless {spec : RuleSpec} (desired : spec ∈ concreteRules request.desiredRules)
    (supported : Supported request k.routes (kernelRule spec spec.family)) (effect : AddedRule spec k k') :
    Harmless request init phase k k' where
  kept := by
    intro h
    have owned : ¬Foreign request init (kernelRule spec spec.family) :=
      notForeign (List.mem_append_left _ (List.mem_append_left _ desired)) ⟨rfl,rfl,rfl,rfl,rfl⟩
    refine ⟨?_,?_⟩
    · rw [effect.1,h.routes]
    · rw [effect.2,List.filter_append,h.rules]
      simp [owned]
  adds := by
    intro rule mem away
    rw [effect.2] at mem
    rcases List.mem_append.mp mem with old | new
    · exact absurd old away
    · rw [List.mem_singleton.mp new]; exact supported
  drops := dropsOfNone fun r mem => by rw [effect.1]; exact mem

theorem deletedRuleHarmless {spec : RuleSpec}
    (known : spec ∈ concreteRules request.desiredRules ++ concreteRules request.priorOwnedRules ++
      recoveryOrphans request init) (effect : DeletedRule spec k k') : Harmless request init phase k k' where
  kept := by
    intro h
    refine ⟨?_,?_⟩
    · rw [effect.2.1,h.routes]
    · rw [effect.2.2,List.filter_filter,← h.rules]
      apply List.filter_congr
      intro rule _
      by_cases named : spec.Names rule
      · simp [notForeign known named]
      · simp [named]
  adds := by
    intro rule mem away
    rw [effect.2.2] at mem
    exact absurd (List.mem_filter.mp mem).1 away
  drops := dropsOfNone fun r mem => by rw [effect.2.1]; exact mem

end Preserved

end KeenPbr
