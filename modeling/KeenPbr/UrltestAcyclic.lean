import Mathlib.Data.Finset.Card
import KeenPbr.UrltestCycles

/-! validate_urltest_cycles against the directed cycles of the reference graph. -/
namespace KeenPbr
open CycleWalk

section Cycles
variable {outbounds : List Outbound}

/- An edge of the urltest reference graph: a group of this tag has the other group for a child. A child that is
unknown or no group is no edge. -/
def UrltestRefers (outbounds : List Outbound) (tag child : String) : Prop :=
  ∃ ob ∈ outbounds, ob.type = .urltest ∧ ob.tag = tag ∧ child ∈ Documents.Outbound.children ob ∧
    ∃ target, findOutbound outbounds child = some target ∧ target.type = .urltest

def UrltestCyclic (outbounds : List Outbound) : Prop := ∃ tag, Relation.TransGen (UrltestRefers outbounds) tag tag

theorem refersKnown {tag child : String} (edge : UrltestRefers outbounds tag child) : child ∈ (urltestGraph outbounds).map (·.1) := by
  obtain ⟨_,_,_,_,_,target,found,group⟩ := edge
  obtain ⟨listed,named⟩ := foundOutbound found
  exact graphKnown.mpr ⟨target,listed,group,named⟩

theorem rankedPath {rank : String → Nat} (down : ∀ tag child, UrltestRefers outbounds tag child → rank child < rank tag)
    {tag other : String}
    (path : Relation.TransGen (UrltestRefers outbounds) tag other) : rank other < rank tag := by
  induction path with
  | single edge => exact down _ _ edge
  | tail _ edge ih => exact (down _ _ edge).trans ih

noncomputable def reached (outbounds : List Outbound) (tag : String) : Finset String := by
  classical exact ((urltestGraph outbounds).map (·.1)).toFinset.filter fun other => Relation.TransGen (UrltestRefers outbounds) tag other

theorem memReached {tag other : String} : other ∈ reached outbounds tag ↔ Relation.TransGen (UrltestRefers outbounds) tag other := by
  classical
  rw [reached,Finset.mem_filter,List.mem_toFinset]
  refine ⟨fun both => both.2,fun path => ⟨?_,path⟩⟩
  cases path with
  | single edge => exact refersKnown edge
  | tail _ edge => exact refersKnown edge

theorem reachedShrinks (acyclic : ¬UrltestCyclic outbounds) {tag child : String} (edge : UrltestRefers outbounds tag child) :
    (reached outbounds child).card < (reached outbounds tag).card := by
  refine Finset.card_lt_card (Finset.ssubset_iff_subset_ne.mpr ⟨fun other mem => ?_,fun same => ?_⟩)
  · exact memReached.mpr (.head edge (memReached.mp mem))
  · have own : child ∈ reached outbounds tag := memReached.mpr (.single edge)
    rw [← same,memReached] at own
    exact acyclic ⟨child,own⟩

theorem silentIff : validateUrltestCycles (urltestGraph outbounds) = [] ↔ ¬UrltestCyclic outbounds := by
  rw [cyclesNil]
  constructor
  · rintro ⟨rank,ranked⟩ ⟨tag,cycle⟩
    have down : ∀ tag child, UrltestRefers outbounds tag child → rank child < rank tag := by
      rintro tag child ⟨ob,mem,group,rfl,inside,nested⟩
      exact ranked ob mem group child inside nested
    exact Nat.lt_irrefl _ (rankedPath down cycle)
  · intro acyclic
    exact ⟨fun tag => (reached outbounds tag).card,fun ob mem group child inside nested =>
      reachedShrinks acyclic ⟨ob,mem,group,rfl,inside,nested⟩⟩

/- Every while loop of the walk has ended when the next group's turn comes, whatever the references are. -/
theorem visitsEnd {graph : UrltestGraph} (distinct : (graph.map (·.1)).Nodup) (entries : List (String × List UrltestReference)) :
    (entries.foldl (visit graph) (start graph)).stack = [] :=
  (visitsKeep (P := fun _ => True) (fun _ _ _ => trivial) (fun _ _ _ _ _ => trivial) entries (startBetween distinct) trivial).1.rest

theorem cyclesReportedIff (outbounds : List Outbound) :
    (validateUrltestCycles (urltestGraph outbounds) ≠ [] ↔ UrltestCyclic outbounds) ∧
      ∀ entries, entries <+: urltestGraph outbounds →
        (entries.foldl (visit (urltestGraph outbounds)) (start (urltestGraph outbounds))).stack = [] :=
  ⟨silentIff.not.trans not_not,fun entries _ => visitsEnd graphKeysNodup entries⟩

end Cycles

end KeenPbr
