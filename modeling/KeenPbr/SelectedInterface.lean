import KeenPbr.EffectiveOutbound

/-! config/routing_state.cpp: the two walks along the selections of nested groups. Each has a guard of its own, and
the guards differ by one group. -/
namespace KeenPbr

section Walks
variable (outbounds : List Outbound) (selections : UrltestSelections)

def selectionChain : Nat → Outbound → Option Outbound
  | 0, ob => some ob
  | hops + 1, ob => if ob.type = .urltest then followSelection outbounds selections ob (selectionChain hops) else none

def WalksAgree (left : Nat) (ob : Outbound) : Prop :=
  ∀ leaf, resolveSelectedInterface outbounds selections left ob = some leaf ↔
    resolveEffectiveOutbound outbounds selections left ob = some leaf ∧ leaf.type = .interface

variable {outbounds selections}

theorem walksAtLeaf {left : Nat} {ob : Outbound} (leaf : ob.type ≠ .urltest) : WalksAgree outbounds selections (left + 1) ob := by
  intro end_
  rw [resolveSelectedInterface,resolveEffectiveOutbound,if_pos (bne_iff_ne.mpr leaf),if_pos (bne_iff_ne.mpr leaf)]
  split
  · rename_i interface
    refine ⟨fun named => ⟨named,?_⟩,fun both => both.1⟩
    cases named
    exact beq_iff_eq.mp interface
  · rename_i other
    refine ⟨fun named => (by cases named),fun both => ?_⟩
    obtain ⟨named,interface⟩ := both
    cases named
    exact absurd (beq_iff_eq.mpr interface) other

theorem walksAtGroup {left : Nat} {ob : Outbound} (group : ob.type = .urltest) :
    WalksAgree outbounds selections (left + 1) ob ↔
      ∀ leaf, followSelection outbounds selections ob (resolveSelectedInterface outbounds selections left) = some leaf ↔
        followSelection outbounds selections ob (resolveEffectiveOutbound outbounds selections left) = some leaf ∧
          leaf.type = .interface := by
  unfold WalksAgree
  rw [resolveSelectedInterface.eq_2,resolveEffectiveOutbound.eq_2]
  simp [group]

theorem walksAgreeIff (left : Nat) (ob : Outbound) : WalksAgree outbounds selections left ob ↔
    ∀ leaf, selectionChain outbounds selections left ob = some leaf → leaf.type ≠ .interface := by
  -- each selection takes one off the guard of both walks
  induction left generalizing ob with
  | zero =>
    constructor
    · intro agree leaf reached interface
      cases reached
      have effective : resolveEffectiveOutbound outbounds selections 0 ob = some ob := by
        rw [resolveEffectiveOutbound,interface]
        rfl
      cases (agree ob).mpr ⟨effective,interface⟩
    · intro deep leaf
      refine ⟨fun named => (by cases named),fun both => ?_⟩
      obtain ⟨effective,interface⟩ := both
      rw [resolveEffectiveOutbound] at effective
      split at effective
      · cases effective
        exact absurd interface (deep ob rfl)
      · cases effective
  | succ left ih =>
    by_cases group : ob.type = .urltest
    · rw [walksAtGroup group,selectionChain,if_pos group]
      unfold followSelection
      by_cases unset : (resolveUrltestSelection selections ob.tag).isEmpty = true
      · simp [unset]
      · simp only [unset]
        cases found : findOutbound outbounds (resolveUrltestSelection selections ob.tag) with
        | none => simp
        | some child => exact ih child
    · refine ⟨fun _ leaf reached => ?_,fun _ => walksAtLeaf group⟩
      rw [selectionChain,if_neg group] at reached
      cases reached

end Walks

/- From a call of the two walks: they agree unless the ninth selection in a row is an interface. -/
theorem resolversAgreeIff (outbounds : List Outbound) (selections : UrltestSelections) (ob : Outbound) :
    (∀ leaf, resolveSelectedInterface outbounds selections walkDepth ob = some leaf ↔
      resolveEffectiveOutbound outbounds selections walkDepth ob = some leaf ∧ leaf.type = .interface) ↔
      ∀ leaf, selectionChain outbounds selections (kMaxUrltestDepth + 1) ob = some leaf → leaf.type ≠ .interface :=
  walksAgreeIff walkDepth ob

theorem nineSelectionsDiffer : validateConfig noInet (chainInput 9).cfg = [] ∧
    resolveEffectiveOutbound (chainInput 9).outbounds (chainInput 9).selections walkDepth (chainTop 9) = some
      (interfaceOutbound "second" "eth1") ∧
    (interfaceOutbound "second" "eth1").type = .interface ∧
    resolveSelectedInterface (chainInput 9).outbounds (chainInput 9).selections walkDepth (chainTop 9) = none := by
  decide +kernel

end KeenPbr
