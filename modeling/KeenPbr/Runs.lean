import Mathlib.Algebra.Order.Ring.Int
import Mathlib.Data.List.Basic

/-! Runs of a deterministic system under a choice of actions: what one permitted step keeps, a run keeps. -/
namespace KeenPbr.Runs
variable {σ α : Type} {act : σ → α → σ} {may : σ → α → Prop}

inductive Run (act : σ → α → σ) (may : σ → α → Prop) : σ → List α → σ → Prop where
  | stop (s : σ) : Run act may s [] s
  | step {s t : σ} {a : α} {rest : List α} (allowed : may s a) (later : Run act may (act s a) rest t) :
      Run act may s (a :: rest) t

theorem Run.keeps {inv : σ → Prop} (stepKeeps : ∀ s a, may s a → inv s → inv (act s a)) {s t : σ} {actions : List α}
    (run : Run act may s actions t) (start : inv s) : inv t := by
  induction run with
  | stop => exact start
  | step allowed later ih => exact ih (stepKeeps _ _ allowed start)

theorem Run.traced {inv : List α → σ → Prop} (stepKeeps : ∀ done s a, may s a → inv done s → inv (done ++ [a]) (act s a))
    {done : List α} {s t : σ}
    {actions : List α} (run : Run act may s actions t) (start : inv done s) : inv (done ++ actions) t := by
  induction run generalizing done with
  | stop =>
    rw [List.append_nil]
    exact start
  | step allowed later ih =>
    rw [List.append_cons]
    exact ih (stepKeeps _ _ _ allowed start)

theorem Run.last (inv : σ → Prop) (goal : α → σ → Prop) (stepKeeps : ∀ s a, may s a → inv s → inv (act s a) ∧ goal a (act s a)) {s t : σ}
    {history : List α} {a : α} (run : Run act may s (history ++ [a]) t) (start : inv s) : goal a t := by
  induction history generalizing s with
  | nil =>
    cases run with
    | step allowed later =>
      cases later
      exact (stepKeeps s a allowed start).2
  | cons first rest ih =>
    cases run with
    | step allowed later => exact ih later (stepKeeps s first allowed start).1

theorem Run.append {s t u : σ} {first second : List α} (run : Run act may s first t) (more : Run act may t second u) :
    Run act may s (first ++ second) u := by
  induction run with
  | stop => exact more
  | step allowed later ih => exact .step allowed (ih more)

theorem Run.rounds {stage : Nat → σ → Prop} {limit : Nat}
    (round : ∀ n, n < limit → ∀ s, stage n s → ∃ actions t, Run act may s actions t ∧ stage (n + 1) t) {s : σ}
    (start : stage 0 s) {n : Nat} (within : n ≤ limit) : ∃ actions t, Run act may s actions t ∧ stage n t := by
  induction n with
  | zero => exact ⟨[],s,.stop s,start⟩
  | succ n ih =>
    obtain ⟨before,t,run,reached⟩ := ih (by omega)
    obtain ⟨actions,u,more,next⟩ := round n (by omega) t reached
    exact ⟨before ++ actions,u,run.append more,next⟩

end KeenPbr.Runs
