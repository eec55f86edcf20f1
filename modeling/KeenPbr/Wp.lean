import Mathlib.Algebra.Order.Ring.Int
import Mathlib.Data.List.Basic

/-! Weakest preconditions for programs that keep a state and may raise.
The state survives a raise: a handler continues from the state the failing call left,
which is how C++ code sees an object after an exception. Nothing here names a program. -/
namespace KeenPbr.Wp

variable {ε σ α β ρ : Type}

def wp (m : EStateM ε σ α) (Q : α → σ → Prop) (E : ε → σ → Prop) (s : σ) : Prop :=
  match m s with
  | .ok a s' => Q a s'
  | .error e s' => E e s'

theorem mono {m : EStateM ε σ α} {Q Q' : α → σ → Prop} {E E' : ε → σ → Prop} {s : σ}
    (h : wp m Q E s) (hq : ∀ a s', Q a s' → Q' a s') (he : ∀ e s', E e s' → E' e s') :
    wp m Q' E' s := by
  unfold wp at h ⊢
  split at h
  · exact hq _ _ h
  · exact he _ _ h

@[simp] theorem pureRule (a : α) (Q : α → σ → Prop) (E : ε → σ → Prop) (s : σ) :
    wp (pure a) Q E s = Q a s := rfl

@[simp] theorem bindRule (m : EStateM ε σ α) (f : α → EStateM ε σ β) (Q : β → σ → Prop)
    (E : ε → σ → Prop) (s : σ) : wp (m >>= f) Q E s = wp m (fun a => wp (f a) Q E) E s := by
  simp only [wp,bind,EStateM.bind]
  cases m s <;> rfl

@[simp] theorem throwRule (e : ε) (Q : α → σ → Prop) (E : ε → σ → Prop) (s : σ) :
    wp (throw e) Q E s = E e s := rfl

@[simp] theorem catchRule (m : EStateM ε σ α) (f : ε → EStateM ε σ α) (Q : α → σ → Prop)
    (E : ε → σ → Prop) (s : σ) : wp (tryCatch m f) Q E s = wp m Q (fun e => wp (f e) Q E) s := by
  simp only [wp,tryCatch,tryCatchThe,MonadExceptOf.tryCatch,EStateM.tryCatch]
  cases m s <;> rfl

@[simp] theorem getRule (Q : σ → σ → Prop) (E : ε → σ → Prop) (s : σ) : wp get Q E s = Q s s := rfl

theorem getOk (s : σ) : (get : EStateM ε σ σ) s = .ok s s := rfl

@[simp] theorem modifyRule (f : σ → σ) (Q : PUnit → σ → Prop) (E : ε → σ → Prop) (s : σ) :
    wp (modify f) Q E s = Q ⟨⟩ (f s) := rfl

theorem modifyOk (f : σ → σ) (s : σ) : (modify f : EStateM ε σ PUnit) s = .ok ⟨⟩ (f s) := rfl

@[simp] theorem iteRule (c : Prop) [Decidable c] (m n : EStateM ε σ α) (Q : α → σ → Prop)
    (E : ε → σ → Prop) (s : σ) :
    wp (if c then m else n) Q E s = if c then wp m Q E s else wp n Q E s := by
  split <;> rfl

/- The source's loops leave early by returning a result. `some` is that return; the
index is the position in the vector. -/
def forEach (f : Nat → β → EStateM ε σ (Option ρ)) : Nat → List β → EStateM ε σ (Option ρ)
  | _, [] => pure none
  | i, x :: rest => do
    match ← f i x with
    | some r => pure (some r)
    | none => forEach f (i + 1) rest

theorem forEachRule {f : Nat → β → EStateM ε σ (Option ρ)} {E : ε → σ → Prop} {R : ρ → σ → Prop}
    (I : Nat → List β → σ → Prop)
    (step : ∀ i x rest s, I i (x :: rest) s →
      wp (f i x) (fun r s' => match r with
        | some out => R out s'
        | none => I (i + 1) rest s') E s)
    {i : Nat} {todo : List β} {s : σ} (h : I i todo s) :
    wp (forEach f i todo) (fun r s' => match r with
      | some out => R out s'
      | none => I (i + todo.length) [] s') E s := by
  induction todo generalizing i s with
  | nil => simpa [forEach] using h
  | cons x rest ih =>
    simp only [forEach,bindRule]
    refine mono (step i x rest s h) ?_ fun _ _ he => he
    intro r s' hr
    cases r with
    | some out => simpa using hr
    | none =>
      have tail := ih hr
      rwa [show i + 1 + rest.length = i + (x :: rest).length by simp; omega] at tail

def answer : EStateM.Result ε σ α → Option α
  | .ok a _ => some a
  | .error _ _ => none

theorem answerRun {run : EStateM.Result ε σ α} {a : α} (returned : answer run = some a) : ∃ s', run = .ok a s' := by
  cases run with
  | ok b s' =>
    cases returned
    exact ⟨s',rfl⟩
  | error => cases returned

/- Most of a program's state is of no interest to a proof. `seen` reads the state through a
view: what the program does to the view is all its rules speak of. -/

variable {ν : Type} {view : σ → ν}

def seen (view : σ → ν) (m : EStateM ε σ α) (Q : α → ν → Prop) (E : ε → ν → Prop) (v : ν) : Prop :=
  ∀ s, view s = v → wp m (fun a s' => Q a (view s')) (fun e s' => E e (view s')) s

variable {m : EStateM ε σ α} {Q Q' : α → ν → Prop} {E E' : ε → ν → Prop} {v : ν}

theorem seenMono (h : seen view m Q E v) (hq : ∀ a w, Q a w → Q' a w) (he : ∀ e w, E e w → E' e w) :
    seen view m Q' E' v :=
  fun s at_v => mono (h s at_v) (fun a s' => hq a (view s')) (fun e s' => he e (view s'))

theorem seenPure {a : α} (h : Q a v) : seen view (pure a : EStateM ε σ α) Q E v := by
  intro s at_v
  rw [pureRule,at_v]
  exact h

theorem seenThrow {e : ε} (h : E e v) : seen view (throw e : EStateM ε σ α) Q E v := by
  intro s at_v
  rw [throwRule,at_v]
  exact h

theorem seenBind {f : α → EStateM ε σ β} {R : β → ν → Prop}
    (h : seen view m (fun a w => seen view (f a) R E w) E v) : seen view (m >>= f) R E v := by
  intro s at_v
  rw [bindRule]
  exact mono (h s at_v) (fun _ s' rest => rest s' rfl) fun _ _ he => he

theorem seenCatch {f : ε → EStateM ε σ α} (h : seen view m Q (fun e w => seen view (f e) Q E w) v) :
    seen view (tryCatch m f) Q E v := by
  intro s at_v
  rw [catchRule]
  exact mono (h s at_v) (fun _ _ hq => hq) fun _ s' rest => rest s' rfl

theorem seenIte {c : Prop} [Decidable c] {n : EStateM ε σ α} (yes : c → seen view m Q E v)
    (no : ¬c → seen view n Q E v) : seen view (if c then m else n) Q E v := by
  split
  · exact yes ‹_›
  · exact no ‹_›

theorem seenGet {f : σ → EStateM ε σ α} (h : ∀ s, view s = v → seen view (f s) Q E v) :
    seen view (get >>= f) Q E v := by
  intro s at_v
  rw [bindRule,getRule]
  exact h s at_v s at_v

theorem seenModify {f : σ → σ} {g : ν → ν} {Q : PUnit → ν → Prop} (image : ∀ s, view (f s) = g (view s))
    (h : Q ⟨⟩ (g v)) : seen view (modify f : EStateM ε σ PUnit) Q E v := by
  intro s at_v
  rw [modifyRule,image,at_v]
  exact h

theorem seenForEach {f : Nat → β → EStateM ε σ (Option ρ)} {R : ρ → ν → Prop}
    (I : Nat → List β → ν → Prop)
    (step : ∀ i x rest w, I i (x :: rest) w →
      seen view (f i x) (fun r w' => match r with
        | some out => R out w'
        | none => I (i + 1) rest w') E w)
    {i : Nat} {todo : List β} (h : I i todo v) :
    seen view (forEach f i todo) (fun r w => match r with
      | some out => R out w
      | none => I (i + todo.length) [] w) E v := by
  intro s at_v
  refine mono (forEachRule (R := fun out s' => R out (view s')) (fun j rest s' => I j rest (view s')) ?_
    (by rw [at_v]; exact h)) ?_ fun _ _ he => he
  · intro j x rest s' inv
    refine mono (step j x rest (view s') inv s' rfl) ?_ fun _ _ he => he
    intro r s'' hr
    cases r <;> exact hr
  · intro r s' hr
    cases r <;> exact hr

theorem seenForM {f : β → EStateM ε σ PUnit} (I : List β → ν → Prop)
    (step : ∀ x rest w, I (x :: rest) w → seen view (f x) (fun _ w' => I rest w') E w) {todo : List β} (h : I todo v) :
    seen view (todo.forM f) (fun _ w => I [] w) E v := by
  induction todo generalizing v with
  | nil => exact seenPure h
  | cons x rest ih =>
    change seen view (f x >>= fun _ => rest.forM f) _ E v
    exact seenBind (seenMono (step x rest v h) (fun _ _ kept => ih kept) fun _ _ he => he)

def Passes (view : σ → ν) (m : EStateM ε σ α) (P : α → Prop) : Prop :=
  ∀ v, seen view m (fun a w => P a ∧ w = v) (fun _ _ => True) v

theorem passesPure {a : α} {P : α → Prop} (h : P a) : Passes view (pure a : EStateM ε σ α) P :=
  fun _ => seenPure ⟨h,rfl⟩

theorem passesThrow {e : ε} {P : α → Prop} : Passes view (throw e : EStateM ε σ α) P := fun _ => seenThrow trivial

theorem passesMono {P P' : α → Prop} (h : Passes view m P) (weaker : ∀ a, P a → P' a) : Passes view m P' :=
  fun v => seenMono (h v) (fun a _ kept => ⟨weaker a kept.1,kept.2⟩) fun _ _ _ => trivial

theorem passesBind {f : α → EStateM ε σ β} {P : α → Prop} {P' : β → Prop} (h : Passes view m P)
    (next : ∀ a, P a → Passes view (f a) P') : Passes view (m >>= f) P' := by
  intro v
  refine seenBind (seenMono (h v) ?_ fun _ _ _ => trivial)
  rintro a w ⟨kind,rfl⟩
  exact next a kind w

theorem passesIte {c : Prop} [Decidable c] {n : EStateM ε σ α} {P : α → Prop} (yes : c → Passes view m P)
    (no : ¬c → Passes view n P) : Passes view (if c then m else n) P :=
  fun v => seenIte (fun holds => yes holds v) fun fails => no fails v

theorem passesGet {f : σ → EStateM ε σ α} {P : α → Prop} (h : ∀ s, Passes view (f s) P) : Passes view (get >>= f) P :=
  fun v => seenGet fun s _ => h s v

theorem passesModify {f : σ → σ} (kept : ∀ s, view (f s) = view s) :
    Passes view (modify f : EStateM ε σ PUnit) (fun _ => True) := by
  intro v s at_v
  rw [modifyRule]
  exact ⟨trivial,(kept s).trans at_v⟩

theorem passesThrough {μ : Type} (g : ν → μ) {P : α → Prop} (h : Passes view m P) : Passes (fun s => g (view s)) m P := by
  intro v s at_v
  refine mono (h (view s) s rfl) ?_ fun _ _ _ => trivial
  rintro a s' ⟨kind,same⟩
  exact ⟨kind,(congrArg g same).trans at_v⟩

theorem passesSeen {Q : ν → α → ν → Prop} {P : α → Prop} (h : ∀ v, seen view m (Q v) E v) (kind : ∀ v a w, Q v a w → P a) :
    Passes (fun _ : σ => ()) m P := by
  intro v s _
  exact mono (h (view s) s rfl) (fun a s' kept => ⟨kind _ a _ kept,rfl⟩) fun _ _ _ => trivial

theorem passesRun {P : α → Prop} (h : Passes view m P) {s s' : σ} {a : α} (run : m s = .ok a s') : P a ∧ view s' = view s := by
  have result := h (view s) s rfl
  unfold wp at result
  rwa [run] at result

/- Every state that a computation writes satisfies the invariant: a derivation has one leaf for each write. -/
inductive Always (I : σ → Prop) : {α : Type} → (σ → Prop) → EStateM ε σ α → (α → σ → Prop) → Prop
  | pure {α : Type} {P : σ → Prop} {Q : α → σ → Prop} {a : α} (h : ∀ s, P s → Q a s) : Always I P (pure a) Q
  | throw {α : Type} {P : σ → Prop} {Q : α → σ → Prop} {e : ε} : Always I P (throw e) Q
  | get {P : σ → Prop} {Q : σ → σ → Prop} (h : ∀ s, P s → Q s s) : Always I P get Q
  | modify {P : σ → Prop} {Q : PUnit → σ → Prop} {f : σ → σ} (h : ∀ s, P s → I (f s) ∧ Q ⟨⟩ (f s)) : Always I P (modify f) Q
  | bind {α β : Type} {P : σ → Prop} {R : α → σ → Prop} {Q : β → σ → Prop} {m : EStateM ε σ α} {f : α → EStateM ε σ β}
      (first : Always I P m R) (rest : ∀ a, Always I (R a) (f a) Q) : Always I P (m >>= f) Q
  | never {α : Type} {P : σ → Prop} {Q : α → σ → Prop} {m : EStateM ε σ α} (h : ∀ s, ¬P s) : Always I P m Q

section Always
variable {I : σ → Prop} {P : σ → Prop} {Q : α → σ → Prop} {m n : EStateM ε σ α}

theorem Always.ends (always : Always I P m Q) {s : σ} (before : P s) (start : I s) :
    wp m (fun a t => Q a t ∧ I t) (fun _ t => I t) s := by
  induction always generalizing s with
  | pure h => exact ⟨h s before,start⟩
  | throw => exact start
  | get h => exact ⟨h s before,start⟩
  | modify h => exact (h s before).symm
  | bind first rest ih ihRest =>
    rw [bindRule]
    exact mono (ih before start) (fun a t reached => ihRest a reached.1 reached.2) fun _ _ raised => raised
  | never h => exact absurd before (h s)

theorem Always.strengthen {P' : σ → Prop} (always : Always I P m Q) (pre : ∀ s, P' s → P s) : Always I P' m Q := by
  induction always with
  | pure h => exact .pure fun s before => h s (pre s before)
  | throw => exact .throw
  | get h => exact .get fun s before => h s (pre s before)
  | modify h => exact .modify fun s before => h s (pre s before)
  | bind first rest ih => exact .bind (ih pre) rest
  | never h => exact .never fun s before => h s (pre s before)

theorem Always.weaken {Q' : α → σ → Prop} (always : Always I P m Q) (post : ∀ a s, Q a s → Q' a s) : Always I P m Q' := by
  induction always with
  | pure h => exact .pure fun s before => post _ s (h s before)
  | throw => exact .throw
  | get h => exact .get fun s before => post _ s (h s before)
  | modify h => exact .modify fun s before => ⟨(h s before).1,post _ _ (h s before).2⟩
  | bind first rest _ ihRest => exact .bind first fun a => ihRest a post
  | never h => exact .never h

theorem alwaysIte {c : Prop} [Decidable c] (yes : c → Always I P m Q) (no : ¬c → Always I P n Q) : Always I P (if c then m else n) Q := by
  split
  · exact yes ‹_›
  · exact no ‹_›

theorem alwaysRead {f : σ → EStateM ε σ α} (h : ∀ at_, Always I (fun s => s = at_ ∧ P s) (f at_) Q) : Always I P (get >>= f) Q :=
  .bind (R := fun a s => s = a ∧ P s) (.get fun _ before => ⟨rfl,before⟩) h

end Always

end KeenPbr.Wp

namespace KeenPbr

theorem bindOk {ε α β : Type} {x : Except ε α} {f : α → Except ε β} {b : β} (h : (x >>= f) = .ok b) :
    ∃ a, x = .ok a ∧ f a = .ok b := by
  cases x with
  | error e => cases h
  | ok a => exact ⟨a,rfl,h⟩

end KeenPbr
