import Mathlib.Algebra.Order.Ring.Int
import Mathlib.Data.List.Basic

/-! Properties of a growing trace that judge every step by what came before it. -/
namespace KeenPbr.Trace

variable {α : Type}

def EveryStep (P : List α → α → Prop) (trace : List α) : Prop :=
  ∀ before e after, trace = before ++ e :: after → P before e

variable {P Q : List α → α → Prop} {trace : List α} {e : α}

theorem everyNil : EveryStep P [] := by
  intro before e after h
  simp at h

theorem splitSnoc {before after : List α} {x : α} (split : trace ++ [e] = before ++ x :: after) :
    (before = trace ∧ x = e ∧ after = []) ∨ ∃ rest, after = rest ++ [e] ∧ trace = before ++ x :: rest := by
  rcases List.eq_nil_or_concat after with rfl | ⟨rest,y,rfl⟩
  · obtain ⟨same,tail⟩ := List.append_inj' split rfl
    exact .inl ⟨same.symm,(List.cons.inj tail).1.symm,rfl⟩
  · have shape : before ++ x :: (rest ++ [y]) = (before ++ x :: rest) ++ [y] := by simp
    rw [List.concat_eq_append,shape] at split
    obtain ⟨same,tail⟩ := List.append_inj' split rfl
    exact .inr ⟨rest,by rw [List.concat_eq_append,(List.cons.inj tail).1],same⟩

theorem everySnoc (h : EveryStep P trace) (last : P trace e) : EveryStep P (trace ++ [e]) := by
  intro before x after split
  rcases splitSnoc split with ⟨rfl,rfl,_⟩ | ⟨rest,_,old⟩
  · exact last
  · exact h before x rest old

end KeenPbr.Trace
