import KeenPbr.Transaction
import KeenPbr.NetlinkSpec
import KeenPbr.Trace

/-! What a transaction step can do, read through the view that the safety results speak of:
the inventory, the phase, the trace, the receipts and the terminal. The rest of the result and
the journal is written and never read back before the end, so a step that only writes there
leaves the view alone. -/
namespace KeenPbr
open Wp

structure View where
  kernel : Kernel
  phase : Phase
  trace : List Event
  mutationStarted : Bool
  routes : List PlannedRouteMutation
  rules : List PlannedRuleMutation
  terminal : RuntimeRoutingTerminal

def State.view (s : State) : View :=
  ⟨s.core.backend.kernel,s.core.phase,s.core.trace,s.core.mutationStarted,s.core.routes,s.core.rules,
    s.book.result.terminal⟩

def View.fenced (v : View) (state : FenceProbeState) : View := { v with trace := v.trace ++ [.fence v.phase state] }

def View.called (v : View) (mutation : Mutation) (after : Kernel) : View :=
  { v with kernel := after, trace := v.trace ++ [.call v.phase mutation v.kernel after] }

abbrev shows {α : Type} (m : Exec α) (Q : α → View → Prop) (E : NetlinkError → View → Prop) (v : View) : Prop :=
  seen State.view m Q E v

section Steps
variable {out : Outside} {request : RuntimeRoutingTransactionRequest} {v : View} {E : NetlinkError → View → Prop}

theorem onResultSeen {f} {Q : Unit → View → Prop} (h : Q () v)
    (keeps : ∀ r, (f r).terminal = r.terminal := by intro r; rfl) : shows (onResult f) Q E v := by
  refine seenModify (g := id) ?_ h
  intro s
  simp only [State.view,keeps,id]

theorem endsSeen {f} (terminal : RuntimeRoutingTerminal) {Q : Unit → View → Prop} (h : Q () { v with terminal })
    (ends : ∀ r, (f r).terminal = terminal := by intro r; rfl) : shows (onResult f) Q E v := by
  refine seenModify (g := fun v => { v with terminal }) ?_ h
  intro s
  simp only [State.view,ends]

theorem onJournalSeen {f} {Q : Unit → View → Prop} (h : Q () v) : shows (onJournal f) Q E v :=
  seenModify (g := id) (fun _ => rfl) h

theorem onEntrySeen {i f} {Q : Unit → View → Prop} (h : Q () v) : shows (onEntry i f) Q E v := onJournalSeen h

theorem onEntriesSeen {is f} {Q : Unit → View → Prop} (h : Q () v) : shows (onEntries is f) Q E v := onJournalSeen h

theorem retainSeen {Q : Unit → View → Prop} (h : Q () v) : shows retainResultJournal Q E v :=
  seenModify (g := id) (fun _ => rfl) h

theorem publishEndSeen {terminal stage} {Q : Unit → View → Prop} (h : Q () { v with terminal }) :
    shows (publishEnd terminal stage) Q E v :=
  seenBind (endsSeen terminal (onJournalSeen h))

theorem onRouteSeen {i f} {Q : Unit → View → Prop} (h : Q () { v with routes := v.routes.modify i f }) :
    shows (onRoute i f) Q E v :=
  seenModify (g := fun v => { v with routes := v.routes.modify i f }) (fun _ => rfl) h

theorem onRuleSeen {i f} {Q : Unit → View → Prop} (h : Q () { v with rules := v.rules.modify i f }) :
    shows (onRule i f) Q E v :=
  seenModify (g := fun v => { v with rules := v.rules.modify i f }) (fun _ => rfl) h

theorem enterPhaseSeen {phase} {Q : Unit → View → Prop} (h : Q () { v with phase }) :
    shows (enterPhase phase) Q E v :=
  seenModify (g := fun v => { v with phase }) (fun _ => rfl) h

theorem enterMutationSeen {Q : Unit → View → Prop} (h : Q () { v with mutationStarted := true }) :
    shows enterMutation Q E v :=
  seenBind (seenModify (g := fun v => { v with mutationStarted := true }) (fun _ => rfl) (onJournalSeen h))

theorem logFenceSeen {state} {Q : Unit → View → Prop} (h : Q () (v.fenced state)) : shows (logFence state) Q E v :=
  seenModify (g := fun v => v.fenced state) (fun _ => rfl) h

theorem observeFenceSeen {Q : FenceProbeState → View → Prop} (h : ∀ state, Q state (v.fenced state)) :
    shows (observeFence out request) Q E v := by
  unfold observeFence
  split
  · exact seenBind (logFenceSeen (seenPure (h _)))
  · refine seenGet fun s _ => ?_
    split
    · exact seenBind (onResultSeen (seenBind (logFenceSeen (seenPure (h _)))))
    · exact seenBind (onResultSeen (seenBind (logFenceSeen (seenPure (h _)))))

theorem onBackendSeen {α : Type} {m : Netlink α} {Q : α → View → Prop}
    {P : α → Kernel → Prop} {F : Kernel → Prop}
    (spec : ∀ b : Backend, b.kernel = v.kernel → wp m (fun a b' => P a b'.kernel) (fun _ b' => F b'.kernel) b)
    (ok : ∀ a k, P a k → Q a { v with kernel := k }) (raised : ∀ e k, F k → E e { v with kernel := k }) :
    shows (onBackend m) Q E v := by
  intro s at_v
  have effect := spec s.core.backend (by rw [← at_v]; rfl)
  unfold wp at effect
  unfold wp onBackend
  cases run : m s.core.backend with
  | ok a b =>
    rw [run] at effect
    have next := ok a b.kernel effect
    rw [← at_v] at next
    exact next
  | error e b =>
    rw [run] at effect
    have next := raised e b.kernel effect
    rw [← at_v] at next
    exact next

theorem readRoutesSeen {family} {Q : List DumpedRoute → View → Prop} (ok : Q (v.kernel.dumpRoutes family) v)
    (raised : ∀ e, E e v) : shows (onBackend (NetlinkManager.dumpRoutes out.faults family)) Q E v := by
  refine onBackendSeen (P := fun live k => live = v.kernel.dumpRoutes family ∧ k = v.kernel)
    (F := fun k => k = v.kernel) ?_ ?_ ?_
  · intro b same
    rw [← same]
    exact NetlinkManager.dumpRoutesRule family b
  · rintro live k ⟨rfl,rfl⟩
    exact ok
  · rintro e k rfl
    exact raised e

theorem readRulesSeen {family} {Q : List DumpedRule → View → Prop} (ok : Q (v.kernel.dumpRules family) v)
    (raised : ∀ e, E e v) : shows (onBackend (NetlinkManager.dumpPolicyRules out.faults family)) Q E v := by
  refine onBackendSeen (P := fun live k => live = v.kernel.dumpRules family ∧ k = v.kernel)
    (F := fun k => k = v.kernel) ?_ ?_ ?_
  · intro b same
    rw [← same]
    exact NetlinkManager.dumpRulesRule family b
  · rintro live k ⟨rfl,rfl⟩
    exact ok
  · rintro e k rfl
    exact raised e

theorem mutatingSeen {α : Type} {mutation : Mutation} {m : Netlink α} {Q : α → View → Prop}
    {P : α → Kernel → Prop} {F : Kernel → Prop}
    (spec : ∀ b : Backend, b.kernel = v.kernel → wp m (fun a b' => P a b'.kernel) (fun _ b' => F b'.kernel) b)
    (ok : ∀ a k, P a k → Q a (v.called mutation k)) (raised : ∀ e k, F k → E e (v.called mutation k)) :
    shows (mutating mutation m) Q E v := by
  unfold mutating
  refine seenGet fun s at_v => ?_
  have logged : ∀ {k : Kernel} {Q : Unit → View → Prop}, Q () (v.called mutation k) →
      shows (logCall mutation s.core.backend.kernel) Q E { v with kernel := k } := by
    intro k Q h
    refine seenModify (g := fun w => { w with trace := w.trace ++ [.call w.phase mutation v.kernel w.kernel] }) ?_ h
    intro t
    rw [← at_v]
    rfl
  refine seenBind (seenCatch (onBackendSeen spec ?_ ?_))
  · intro a k effect
    exact seenBind (logged (seenPure (ok a k effect)))
  · intro e k effect
    exact seenBind (logged (seenThrow (raised e k effect)))

theorem returnResultSeen {Q : RuntimeRoutingTransactionResult → View → Prop}
    (h : ∀ r : RuntimeRoutingTransactionResult, r.terminal = v.terminal → Q r v) :
    shows returnResult Q E v := by
  refine seenGet fun s at_v => seenPure (h _ ?_)
  rw [← at_v]
  rfl

theorem endCandidateSeen {terminal stage detail} {Q : RuntimeRoutingTransactionResult → View → Prop}
    (h : ∀ r : RuntimeRoutingTransactionResult, r.terminal = terminal → Q r { v with terminal }) :
    shows (endCandidate terminal stage detail) Q E v :=
  seenBind (publishEndSeen (seenBind (onResultSeen (seenBind (retainSeen (returnResultSeen h))))))

theorem refuseSeen {terminal detail} {Q : RuntimeRoutingTransactionResult → View → Prop}
    (h : ∀ r : RuntimeRoutingTransactionResult, r.terminal = terminal → Q r { v with terminal }) :
    shows (refuse terminal detail) Q E v := by
  refine seenBind (endsSeen terminal (seenGet fun s at_v => seenPure (h _ ?_)))
  have seen := congrArg View.terminal at_v
  exact seen

theorem leaveSeen {m : Exec RuntimeRoutingTransactionResult}
    {Q : Option RuntimeRoutingTransactionResult → View → Prop} (h : shows m (fun r w => Q (some r) w) E v) :
    shows (leave m) Q E v :=
  seenBind (seenMono h (fun _ _ hq => seenPure hq) fun _ _ he => he)

end Steps

end KeenPbr
