import Mathlib.Algebra.Order.Ring.Int
import Mathlib.Data.List.Nodup
import Mathlib.Data.List.Perm.Subperm
import Mathlib.Order.Bounds.Basic

/-! Forward chaining: passes over all items, each item taken as soon as its condition holds of what is
held, until a pass takes nothing more. -/
namespace KeenPbr.Chaining

variable {α κ : Type} [DecidableEq κ]

def pass (key : α → κ) (fires : List κ → α → Bool) : List α → List κ → List κ
  | [], held => held
  | item :: rest, held =>
    if held.contains (key item) || !fires held item then pass key fires rest held
    else pass key fires rest (held ++ [key item])

def saturate (key : α → κ) (fires : List κ → α → Bool) (items : List α) : Nat → List κ → List κ
  | 0, held => held
  | rounds + 1, held =>
    let next := pass key fires items held
    if next.length = held.length then held else saturate key fires items rounds next

section Passes
variable {key : α → κ} {fires : List κ → α → Bool} {items : List α} {held : List κ}

theorem passGrows (key : α → κ) (fires : List κ → α → Bool) (items : List α) (held : List κ) :
    ∃ taken, pass key fires items held = held ++ taken := by
  induction items generalizing held with
  | nil => exact ⟨[],(List.append_nil held).symm⟩
  | cons item rest ih =>
    rw [pass]
    split
    · exact ih held
    · obtain ⟨taken,shape⟩ := ih (held ++ [key item])
      exact ⟨key item :: taken,by rw [shape,List.append_assoc,List.singleton_append]⟩

theorem saturateGrows (key : α → κ) (fires : List κ → α → Bool) (items : List α) (rounds : Nat) (held : List κ) :
    ∃ taken, saturate key fires items rounds held = held ++ taken := by
  induction rounds generalizing held with
  | zero => exact ⟨[],(List.append_nil held).symm⟩
  | succ rounds ih =>
    rw [saturate]
    split
    · exact ⟨[],(List.append_nil held).symm⟩
    · obtain ⟨first,one⟩ := passGrows key fires items held
      obtain ⟨later,more⟩ := ih (pass key fires items held)
      exact ⟨first ++ later,by rw [more,one,List.append_assoc]⟩

/- What holds of everything held and of every item whose condition holds among such, holds of what a
pass holds. -/
theorem passInduction {P : κ → Prop} (start : ∀ k ∈ held, P k)
    (step : ∀ held : List κ, (∀ k ∈ held, P k) → ∀ item ∈ items, fires held item = true → P (key item)) :
    ∀ k ∈ pass key fires items held, P k := by
  induction items generalizing held with
  | nil => exact start
  | cons item rest ih =>
    have later : ∀ held : List κ, (∀ k ∈ held, P k) → ∀ item ∈ rest, fires held item = true → P (key item) :=
      fun held all other mem => step held all other (List.mem_cons_of_mem item mem)
    rw [pass]
    split
    · exact ih start later
    · rename_i taken
      rw [Bool.or_eq_true,not_or,Bool.not_eq_true',Bool.not_eq_false] at taken
      refine ih (fun k mem => ?_) later
      rcases List.mem_append.mp mem with old | new
      · exact start k old
      · rw [List.mem_singleton.mp new]
        exact step held start item List.mem_cons_self taken.2

theorem saturateInduction {P : κ → Prop} {rounds : Nat} (start : ∀ k ∈ held, P k)
    (step : ∀ held : List κ, (∀ k ∈ held, P k) → ∀ item ∈ items, fires held item = true → P (key item)) :
    ∀ k ∈ saturate key fires items rounds held, P k := by
  induction rounds generalizing held with
  | zero => exact start
  | succ rounds ih =>
    rw [saturate]
    split
    · exact start
    · exact ih (passInduction start step)

theorem passIdle (idle : (pass key fires items held).length = held.length) :
    ∀ item ∈ items, fires held item = true → key item ∈ held := by
  induction items with
  | nil => exact fun _ absent => by cases absent
  | cons item rest ih =>
    rw [pass] at idle
    split at idle
    · rename_i skipped
      refine List.forall_mem_cons.mpr ⟨fun ready => ?_,ih idle⟩
      rw [ready,Bool.not_true,Bool.or_false,List.contains_iff_mem] at skipped
      exact skipped
    · obtain ⟨taken,shape⟩ := passGrows key fires rest (held ++ [key item])
      rw [shape,List.length_append,List.length_append,List.length_singleton] at idle
      omega

theorem passNodup (distinct : held.Nodup) : (pass key fires items held).Nodup := by
  induction items generalizing held with
  | nil => exact distinct
  | cons item rest ih =>
    rw [pass]
    split
    · exact ih distinct
    · rename_i taken
      rw [Bool.or_eq_true,not_or,List.contains_iff_mem] at taken
      refine ih (List.nodup_append.mpr ⟨distinct,List.nodup_singleton _,?_⟩)
      rintro k old other new rfl
      rw [List.mem_singleton.mp new] at old
      exact taken.1 old

theorem saturateNodup {rounds : Nat} (distinct : held.Nodup) : (saturate key fires items rounds held).Nodup := by
  induction rounds generalizing held with
  | zero => exact distinct
  | succ rounds ih =>
    rw [saturate]
    split
    · exact distinct
    · exact ih (passNodup distinct)

theorem saturateIdle {stock : List κ} {rounds : Nat} (named : ∀ item ∈ items, key item ∈ stock)
    (distinct : held.Nodup) (within : ∀ k ∈ held, k ∈ stock) (enough : stock.length < rounds + held.length) :
    ∀ item ∈ items, fires (saturate key fires items rounds held) item = true → key item ∈ saturate key fires items rounds held := by
  induction rounds generalizing held with
  | zero =>
    have few := (List.subperm_of_subset distinct within).length_le
    omega
  | succ rounds ih =>
    rw [saturate]
    split
    · rename_i idle
      exact passIdle idle
    · rename_i busy
      obtain ⟨taken,shape⟩ := passGrows key fires items held
      refine ih (passNodup distinct) (passInduction within fun _ _ item mem _ => named item mem) ?_
      rw [shape,List.length_append] at busy ⊢
      omega

end Passes

def Closed (key : α → κ) (Fires : Set κ → α → Prop) (items : List α) (start : List κ) : Set (Set κ) :=
  { S | (∀ k ∈ start, k ∈ S) ∧ ∀ item ∈ items, Fires S item → key item ∈ S }

/- For a condition that only asks for more names to be held, what is held in the end is the least such set. -/
theorem saturateLeast {key : α → κ} {fires : List κ → α → Bool} {Fires : Set κ → α → Prop} {items : List α}
    {start stock : List κ} {rounds : Nat}
    (reads : ∀ held item, item ∈ items → (fires held item = true ↔ Fires { k | k ∈ held } item))
    (grows : ∀ (small large : Set κ) item, (∀ k ∈ small, k ∈ large) → Fires small item → Fires large item)
    (named : ∀ item ∈ items, key item ∈ stock) (distinct : start.Nodup) (within : ∀ k ∈ start, k ∈ stock)
    (enough : stock.length < rounds + start.length) :
    IsLeast (Closed key Fires items start) { k | k ∈ saturate key fires items rounds start } := by
  refine ⟨⟨fun k mem => ?_,fun item mem ready => ?_⟩,?_⟩
  · obtain ⟨taken,shape⟩ := saturateGrows key fires items rounds start
    rw [Set.mem_ofPred_eq,shape]
    exact List.mem_append_left taken mem
  · exact saturateIdle named distinct within enough item mem ((reads _ item mem).mpr ready)
  · rintro S ⟨begun,taken⟩
    refine saturateInduction begun fun held all item mem ready => taken item mem ?_
    exact grows _ S item all ((reads held item mem).mp ready)

end KeenPbr.Chaining
