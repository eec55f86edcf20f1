import KeenPbr.TransactionCleanup

/-! What a run of execute_runtime_routing_transaction guarantees, for every request, inventory,
fault schedule and sequence of fence answers. -/
namespace KeenPbr
open Trace

section Runs
variable {out : Outside} {request : RuntimeRoutingTransactionRequest} {init : Kernel}
variable {r : RuntimeRoutingTransactionResult} {s : State}

theorem endedOf (run : executeRuntimeRoutingTransaction out request init = .ok r s) :
    Ended request init (CommittedPlan out request init) r s.view := by
  obtain ⟨r',s',run',ended⟩ := executeReturns out request init
  rw [run] at run'
  cases run'
  exact ended

/- Rules and their anchors. A rollback undoes the run's own candidates, so it strands a rule
only where the run found it stranded. -/
theorem callsKeepAnchors (out : Outside) (request : RuntimeRoutingTransactionRequest) (init : Kernel) :
    ∃ r s, executeRuntimeRoutingTransaction out request init = .ok r s ∧
      s.core.backend.kernel = lastKernel init s.core.trace ∧
      ∀ earlier phase mutation before after later,
        s.core.trace = earlier ++ Event.call phase mutation before after :: later →
          before = lastKernel init earlier ∧ AddsSupported request before after ∧
            DropsAnchored request before after (Excused request init phase) := by
  obtain ⟨r,s,run,ended⟩ := executeReturns out request init
  refine ⟨r,s,run,ended.inv.now,?_⟩
  intro earlier phase mutation before after later split
  obtain ⟨now,_,_,adds,drops⟩ := ended.inv.steps earlier _ later split
  exact ⟨now,adds,drops⟩

def Strands (request : RuntimeRoutingTransactionRequest) (before after : Kernel) : Prop :=
  ∃ route ∈ before.routes, route ∉ after.routes ∧ ∃ rule ∈ after.rules, OwnedRule request rule ∧
    rule.table = route.table ∧ rule.family = route.family ∧ ¬Anchored request after.routes rule.table rule.family
instance (request : RuntimeRoutingTransactionRequest) (before after : Kernel) :
    Decidable (Strands request before after) := by
  unfold Strands OwnedRule Anchored; infer_instance

def Event.Stranding (request : RuntimeRoutingTransactionRequest) : Event → Prop
  | .fence .. => False
  | .call _ _ before after => Strands request before after
instance (request : RuntimeRoutingTransactionRequest) (e : Event) : Decidable (e.Stranding request) := by
  cases e <;> unfold Event.Stranding <;> infer_instance

/- A desired rule is live in a table without a route; the run creates the route, meets a stale
fence at the commit check and takes the route back. -/

def strandRoute : RouteSpec := { destination := "default", table := 1000, interface := some "wan0", family := afInet }

def strandRule : RuleSpec := { fwmark := 1, fwmask := 255, table := 1000, priority := 1000, family := afInet }

def strandRequest : RuntimeRoutingTransactionRequest :=
  { identity := ⟨1,1,1,1,1⟩, desiredRoutes := [strandRoute], desiredRules := [strandRule] }

theorem noFamilies : ∀ r ∈ ([] : List DumpedRoute), r.family ≠ 0 := List.forall_mem_nil _

theorem noMetrics : ∀ r ∈ ([] : List DumpedRoute), exactRouteKernelMetric r.metric r.family = r.metric := List.forall_mem_nil _

def strandKernel : Kernel where
  routes := []
  rules := [kernelRule strandRule afInet]
  families := noFamilies
  settled := noMetrics

def strandOut : Outside where
  inet := ⟨fun _ _ => none,fun _ _ => none⟩
  faults := ⟨fun _ => .none,fun _ _ => true⟩
  currentFence := some fun n => .ok ⟨0,1,1,1,if n < 3 then 1 else 2⟩
  publishJournal := some fun _ => .ok true

def strandingRun : EStateM.Result NetlinkError State RuntimeRoutingTransactionResult → Bool
  | .ok r s => r.terminal == .candidateRolledBack && s.core.trace.any fun e => decide (e.Stranding strandRequest)
  | .error .. => false

theorem strandRunEnds : strandingRun (executeRuntimeRoutingTransaction strandOut strandRequest strandKernel) = true := by
  decide +kernel

theorem strandingRunOk {run : EStateM.Result NetlinkError State RuntimeRoutingTransactionResult}
    (ends : strandingRun run = true) : ∃ r s, run = .ok r s ∧ r.terminal = .candidateRolledBack ∧
      ∃ phase mutation before after, Event.call phase mutation before after ∈ s.core.trace ∧
        Strands strandRequest before after := by
  cases run with
  | error e s => cases ends
  | ok r s =>
    simp only [strandingRun,Bool.and_eq_true,beq_iff_eq,List.any_eq_true,decide_eq_true_eq] at ends
    obtain ⟨back,e,mem,strands⟩ := ends
    cases e with
    | fence _ _ => exact strands.elim
    | call phase mutation before after => exact ⟨r,s,rfl,back,phase,mutation,before,after,mem,strands⟩

theorem rollbackStrandsRule : ∃ r s, executeRuntimeRoutingTransaction strandOut strandRequest strandKernel = .ok r s ∧
    r.terminal = .candidateRolledBack ∧
      ∃ phase mutation before after, Event.call phase mutation before after ∈ s.core.trace ∧
        Strands strandRequest before after :=
  strandingRunOk strandRunEnds

/- Rollback. -/

theorem rolledBackRestores (run : executeRuntimeRoutingTransaction out request init = .ok r s)
    (back : r.terminal = .candidateRolledBack) :
    s.core.backend.kernel.routes = init.routes ∧ s.core.backend.kernel.rules = init.rules := by
  have restored : s.core.backend.kernel = init := (endedOf run).restored back
  rw [restored]
  exact ⟨rfl,rfl⟩

theorem strandRunRestores : ∃ r s, executeRuntimeRoutingTransaction strandOut strandRequest strandKernel = .ok r s ∧
    r.terminal = .candidateRolledBack ∧
      s.core.backend.kernel.routes = strandKernel.routes ∧ s.core.backend.kernel.rules = strandKernel.rules :=
  match strandingRunOk strandRunEnds with
  | ⟨r,s,run,back,_⟩ => ⟨r,s,run,back,rolledBackRestores run back⟩

/- The frame, and what a commit adds. -/
theorem foreignKept (out : Outside) (request : RuntimeRoutingTransactionRequest) (init : Kernel) :
    ∃ r s, executeRuntimeRoutingTransaction out request init = .ok r s ∧
      (∀ route ∈ init.routes, isGeneratedRouteCandidate route = false → route ∈ s.core.backend.kernel.routes) ∧
      (∀ rule ∈ init.rules, Foreign request init rule → rule ∈ s.core.backend.kernel.rules) ∧
      Kept request init s.core.backend.kernel ∧
      (r.terminal = .candidateCommitted → ∃ plan, buildPlan out.inet request init.routes init.rules = .ok plan ∧
        Committed request plan s.core.backend.kernel) := by
  obtain ⟨r,s,run,ended⟩ := executeReturns out request init
  have kept : Kept request init s.core.backend.kernel := ended.inv.kept
  refine ⟨r,s,run,?_,?_,kept,ended.committed⟩
  · intro route mem foreign
    have old : route ∈ init.routes.filter (fun r => !isGeneratedRouteCandidate r) :=
      List.mem_filter.mpr ⟨mem,by simp [foreign]⟩
    rw [← kept.routes] at old
    exact (List.mem_filter.mp old).1
  · intro rule mem foreign
    have old : rule ∈ init.rules.filter (fun r => Foreign request init r) :=
      List.mem_filter.mpr ⟨mem,by simpa using foreign⟩
    rw [← kept.rules] at old
    exact (List.mem_filter.mp old).1

/- The fence. -/
theorem callsFollowFence (out : Outside) (request : RuntimeRoutingTransactionRequest) (init : Kernel) :
    ∃ r s, executeRuntimeRoutingTransaction out request init = .ok r s ∧
      (∀ earlier phase state later, s.core.trace = earlier ++ Event.fence phase state :: later → state ≠ .current →
        (∀ e ∈ earlier, e.isCall = false) → ∀ e ∈ s.core.trace, e.isCall = false) ∧
      (∀ earlier phase mutation before after later,
        s.core.trace = earlier ++ Event.call phase mutation before after :: later → phase ≠ .rollback →
          FreshFence earlier) ∧
      (∀ earlier state between mutation before after later,
        s.core.trace = earlier ++ Event.fence .cleanup state :: (between ++ Event.call .cleanup mutation before after :: later) →
          state = .current) := by
  obtain ⟨r,s,run,ended⟩ := executeReturns out request init
  have steps : EveryStep (Step request init) s.core.trace := ended.inv.steps
  refine ⟨r,s,run,?_,?_,?_⟩
  · intro earlier phase state later split stale quiet e mem
    by_contra call
    have there := mem
    rw [split] at there
    rcases List.mem_append.mp there with old | new
    · exact call (quiet e old)
    rcases List.mem_cons.mp new with rfl | after
    · exact call rfl
    -- the call comes later, so its prefix holds the stale observation
    obtain ⟨between,rest,rfl⟩ := List.append_of_mem after
    have step := steps (earlier ++ .fence phase state :: between) e rest (by rw [split]; simp)
    cases e with
    | fence _ _ => exact call rfl
    | call _ _ _ _ =>
      obtain ⟨x,inside,isCall⟩ := step.2.1 earlier phase state between rfl stale
      rw [quiet x inside] at isCall
      cases isCall
  · intro earlier phase mutation before after later split notRollback
    exact ((steps earlier _ later split).2.2.1 notRollback).1
  · intro earlier state between mutation before after later split
    have step := steps (earlier ++ .fence .cleanup state :: between) (.call .cleanup mutation before after) later
      (by rw [split]; simp)
    exact (step.2.2.1 nofun).2 .cleanup state (by simp)

end Runs

section Sequences

def transact (k : Kernel) (call : Outside × RuntimeRoutingTransactionRequest) : Kernel :=
  match executeRuntimeRoutingTransaction call.1 call.2 k with
  | .ok _ s => s.core.backend.kernel
  | .error _ s => s.core.backend.kernel

def foreignRoutes (k : Kernel) : List DumpedRoute := k.routes.filter fun r => !isGeneratedRouteCandidate r

theorem transactRoutes (k : Kernel) (call : Outside × RuntimeRoutingTransactionRequest) :
    foreignRoutes (transact k call) = foreignRoutes k := by
  obtain ⟨r,s,ran,ended⟩ := executeReturns call.1 call.2 k
  have here : Kept call.2 k s.core.backend.kernel := ended.inv.kept
  rw [transact,ran]
  exact here.routes

theorem transactRule {k : Kernel} {call : Outside × RuntimeRoutingTransactionRequest} {rule : DumpedRule}
    (foreign : Foreign call.2 k rule) :
    (transact k call).rules.count rule = k.rules.count rule := by
  obtain ⟨r,s,ran,ended⟩ := executeReturns call.1 call.2 k
  have here : Kept call.2 k s.core.backend.kernel := ended.inv.kept
  have counted := congrArg (List.count rule) here.rules
  have holds (l : List DumpedRule) := List.count_filter (p := fun r => decide (Foreign call.2 k r)) (l := l) (decide_eq_true foreign)
  rw [holds,holds] at counted
  rw [transact,ran]
  exact counted

/- What is not generated stays in place however many transactions run and fail; so does a rule that each of them, when it
starts, neither wants nor owns nor takes for an orphan. -/
theorem sequencesKeepForeign (init : Kernel) (calls : List (Outside × RuntimeRoutingTransactionRequest)) :
    foreignRoutes (calls.foldl transact init) = foreignRoutes init ∧
    ∀ rule, (∀ earlier call later, calls = earlier ++ call :: later → Foreign call.2 (earlier.foldl transact init) rule) →
      (calls.foldl transact init).rules.count rule = init.rules.count rule := by
  induction calls generalizing init with
  | nil => exact ⟨rfl,fun _ _ => rfl⟩
  | cons first rest ih =>
    obtain ⟨routes,rules⟩ := ih (transact init first)
    refine ⟨routes.trans (transactRoutes init first),fun rule foreign => ?_⟩
    have here : Foreign first.2 init rule := foreign [] first rest rfl
    refine (rules rule fun earlier call later cut => ?_).trans (transactRule here)
    exact foreign (first :: earlier) call later (congrArg (first :: ·) cut)

def firmwareRule : DumpedRule := kernelRule { fwmark := 9, fwmask := 255, table := 254, priority := 32766 } afInet

def sharedKernel : Kernel where
  routes := [{ destination := "default", table := 254, interface := some "eth3", family := afInet, protocol := 3 }]
  rules := [firmwareRule,kernelRule strandRule afInet]
  families := by decide
  settled := by decide

def calmOut : Outside := { strandOut with currentFence := some fun _ => .ok ⟨0,1,1,1,1⟩ }

theorem sharedSequence :
    foreignRoutes ([(strandOut,strandRequest),(calmOut,strandRequest)].foldl transact sharedKernel) = sharedKernel.routes ∧
    ([(strandOut,strandRequest),(calmOut,strandRequest)].foldl transact sharedKernel).rules.count firmwareRule = 1 ∧
    ([(strandOut,strandRequest),(calmOut,strandRequest)].foldl transact sharedKernel).routes.length = 2 := by
  obtain ⟨routes,rules⟩ := sequencesKeepForeign sharedKernel [(strandOut,strandRequest),(calmOut,strandRequest)]
  refine ⟨routes.trans (by decide),(rules firmwareRule fun earlier call later cut => ?_).trans (by decide),by decide +kernel⟩
  cases earlier with
  | nil =>
    cases cut
    decide +kernel
  | cons first others =>
    cases others with
    | nil =>
      cases cut
      decide +kernel
    | cons second more =>
      have short := congrArg List.length cut
      simp only [List.length_append,List.length_cons,List.length_nil] at short
      omega

end Sequences
end KeenPbr
