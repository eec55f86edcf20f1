import Mathlib.Algebra.Order.Ring.Int
import Mathlib.Data.List.Perm.Basic
import Mathlib.Data.List.Range
import Mathlib.Data.Nat.Find

/-! Trees whose nodes are numbered level by level, so that the children of consecutive nodes are
consecutive again and one number per node, its first child, says everything. A depth-first walk of the
part below the root meets the same nodes as the walk by levels: an initial segment of the numbers. -/
namespace LevelOrder

section Traversal
variable {α β : Type} (next : α → List α)

def preorder : Nat → α → List α
  | 0, _ => []
  | depth + 1, a => a :: (next a).flatMap (preorder depth)

theorem preorderLevels (depth : Nat) (roots : List α) :
    (roots.flatMap (preorder next (depth + 1))).Perm (roots ++ (roots.flatMap next).flatMap (preorder next depth)) := by
  induction roots with
  | nil => exact List.Perm.nil
  | cons a rest ih =>
    simp only [List.flatMap_cons,List.flatMap_append,preorder,List.cons_append]
    refine List.Perm.cons a ?_
    refine (List.Perm.append_left _ ih).trans ?_
    rw [← List.append_assoc,← List.append_assoc]
    exact List.Perm.append_right _ List.perm_append_comm

theorem preorderMap {next} {other : β → List β} (f : α → β) (commutes : ∀ a, (next a).map f = other (f a)) (depth : Nat) (a : α) :
    (preorder next depth a).map f = preorder other depth (f a) := by
  induction depth generalizing a with
  | zero => rfl
  | succ depth ih =>
    rw [preorder,preorder,List.map_cons,List.map_flatMap,← commutes,List.flatMap_map]
    simp only [ih]

end Traversal

structure Numbering where
  size : Nat
  first : Nat → Nat
  root : first 0 = 1
  grows : ∀ n, first n ≤ first (n + 1)
  total : first size = size

namespace Numbering
variable (numbering : Numbering)

def children (n : Nat) : List Nat := List.range' (numbering.first n) (numbering.first (n + 1) - numbering.first n)

theorem memChildren {parent n : Nat} :
    n ∈ numbering.children parent ↔ numbering.first parent ≤ n ∧ n < numbering.first (parent + 1) := by
  have := numbering.grows parent
  rw [children,List.mem_range'_1]
  omega

theorem firstMono {a b : Nat} (le : a ≤ b) : numbering.first a ≤ numbering.first b := monotone_nat_of_le_succ numbering.grows le

theorem childrenRange (a count : Nat) : (List.range' a count).flatMap numbering.children =
    List.range' (numbering.first a) (numbering.first (a + count) - numbering.first a) := by
  induction count generalizing a with
  | zero => simp
  | succ count ih =>
    have one := numbering.grows a
    have rest := numbering.firstMono (Nat.le_add_right (a + 1) count)
    have place : a + (count + 1) = a + 1 + count := by omega
    rw [List.range'_succ,List.flatMap_cons,ih,children,place]
    have meet : numbering.first (a + 1) = numbering.first a + 1 * (numbering.first (a + 1) - numbering.first a) := by omega
    have lengths : numbering.first (a + 1 + count) - numbering.first a =
        (numbering.first (a + 1) - numbering.first a) + (numbering.first (a + 1 + count) - numbering.first (a + 1)) := by omega
    rw [lengths,← List.range'_append,← meet]

def bound : Nat := Nat.find (p := fun n => numbering.first n ≤ n) ⟨numbering.size,numbering.total.le⟩

theorem below {n : Nat} (inside : n < numbering.bound) : n < numbering.first n := by
  apply Nat.lt_of_not_le
  exact Nat.find_min (p := fun n => numbering.first n ≤ n) ⟨numbering.size,numbering.total.le⟩ inside

theorem boundLe : numbering.bound ≤ numbering.size := Nat.find_min' _ numbering.total.le

theorem boundPositive : 0 < numbering.bound := by
  apply Nat.pos_of_ne_zero
  intro zero
  have closes : numbering.first numbering.bound ≤ numbering.bound :=
    Nat.find_spec (p := fun n => numbering.first n ≤ n) ⟨numbering.size,numbering.total.le⟩
  rw [zero,numbering.root] at closes
  cases closes

theorem firstBound : numbering.first numbering.bound = numbering.bound := by
  have closes : numbering.first numbering.bound ≤ numbering.bound :=
    Nat.find_spec (p := fun n => numbering.first n ≤ n) ⟨numbering.size,numbering.total.le⟩
  obtain ⟨n,last⟩ : ∃ n, numbering.bound = n + 1 := ⟨numbering.bound - 1,by have := numbering.boundPositive; omega⟩
  have before := numbering.below (n := n) (by omega)
  have step := numbering.grows n
  rw [last] at closes ⊢
  omega

theorem childBelow {parent n : Nat} (inside : parent < numbering.bound) (listed : n ∈ numbering.children parent) :
    parent < n ∧ n < numbering.bound := by
  obtain ⟨low,high⟩ := numbering.memChildren.mp listed
  have up := numbering.below inside
  have top : numbering.first (parent + 1) ≤ numbering.first numbering.bound := numbering.firstMono inside
  rw [numbering.firstBound] at top
  exact ⟨by omega,by omega⟩

theorem parentUnique {n p q : Nat} (ofP : n ∈ numbering.children p) (ofQ : n ∈ numbering.children q) : p = q := by
  rw [memChildren] at ofP ofQ
  rcases Nat.lt_trichotomy p q with less | equal | more
  · have : numbering.first (p + 1) ≤ numbering.first q := numbering.firstMono less
    omega
  · exact equal
  · have : numbering.first (q + 1) ≤ numbering.first p := numbering.firstMono more
    omega

theorem levelsPerm {depth a : Nat} (inside : a ≤ numbering.bound) (deep : numbering.bound - a ≤ depth) :
    ((List.range' a (numbering.first a - a)).flatMap (preorder numbering.children depth)).Perm
      (List.range' a (numbering.bound - a)) := by
  induction depth generalizing a with
  | zero =>
    have last : a = numbering.bound := by omega
    rw [last,numbering.firstBound,Nat.sub_self]
    exact List.Perm.nil
  | succ depth ih =>
    by_cases last : a = numbering.bound
    · rw [last,numbering.firstBound,Nat.sub_self]
      exact List.Perm.nil
    · have less : a < numbering.bound := by omega
      have up := numbering.below less
      have top := numbering.firstMono inside
      rw [numbering.firstBound] at top
      refine (preorderLevels _ depth _).trans ?_
      have place : a + (numbering.first a - a) = numbering.first a := by omega
      rw [childrenRange,place]
      refine (List.Perm.append_left _ (ih top (by omega))).trans ?_
      have meet : numbering.first a = a + 1 * (numbering.first a - a) := by omega
      have lengths : numbering.bound - a = (numbering.first a - a) + (numbering.bound - numbering.first a) := by omega
      rw [lengths,← List.range'_append,← meet]

theorem preorderRoot {depth : Nat} (deep : numbering.bound ≤ depth) :
    (preorder numbering.children depth 0).Perm (List.range numbering.bound) := by
  have levels := numbering.levelsPerm (Nat.zero_le _) deep
  have single : (List.range' 0 (1 - 0)).flatMap (preorder numbering.children depth) = preorder numbering.children depth 0 := by
    simp
  rw [numbering.root,single,Nat.sub_zero,← List.range_eq_range'] at levels
  exact levels

end Numbering

end LevelOrder
