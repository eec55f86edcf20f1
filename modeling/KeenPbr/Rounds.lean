import Mathlib.Algebra.Order.Ring.Int
import Mathlib.Data.List.Basic

/-! A loop that does one round after another until a round ends it. -/
namespace KeenPbr.Rounds
variable {σ β : Type} {round : σ → σ ⊕ β}

/- Nothing where the fuel is spent and the loop still goes. -/
def loop (round : σ → σ ⊕ β) : Nat → σ → Option β
  | 0, _ => none
  | fuel + 1, state =>
    match round state with
    | .inl next => loop round fuel next
    | .inr result => some result

theorem settles (size : σ → Nat) (shrinks : ∀ state next, round state = .inl next → size next < size state) (state : σ) :
    ∃ result, ∀ fuel, size state < fuel → loop round fuel state = some result := by
  induction bound : size state using Nat.strongRecOn generalizing state with
  | ind n ih =>
    cases went : round state with
    | inl next =>
      obtain ⟨result,later⟩ := ih (size next) (bound ▸ shrinks state next went) next rfl
      refine ⟨result,fun fuel enough => ?_⟩
      cases fuel with
      | zero => cases enough
      | succ fuel =>
        have smaller := shrinks state next went
        rw [loop,went]
        exact later fuel (by omega)
    | inr result =>
      refine ⟨result,fun fuel enough => ?_⟩
      cases fuel with
      | zero => cases enough
      | succ fuel => rw [loop,went]

theorem yields (inv : σ → Prop) (goal : β → Prop) (keeps : ∀ state next, inv state → round state = .inl next → inv next)
    (ends : ∀ state result, inv state → round state = .inr result → goal result) {fuel : Nat} {state : σ} {result : β} (start : inv state)
    (done : loop round fuel state = some result) : goal result := by
  induction fuel generalizing state with
  | zero => cases done
  | succ fuel ih =>
    rw [loop] at done
    split at done
    · rename_i next went
      exact ih (keeps state next start went) done
    · rename_i last went
      cases done
      exact ends state _ start went

end KeenPbr.Rounds
