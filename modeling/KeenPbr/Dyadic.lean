import Mathlib.Algebra.Order.Ring.Int
import Mathlib.Algebra.Order.Ring.Nat
import Mathlib.Data.List.Basic

/-! Dyadic blocks of natural numbers: 2^k numbers from a multiple of 2^k on. Two blocks that meet are
nested, so the largest block at the left end of a range is met by its own parts only, and taking it
each time covers a range with the fewest blocks. -/
namespace Dyadic

structure Block where
  start : Nat
  order : Nat
  aligned : 2 ^ order ∣ start
  deriving DecidableEq, Repr

def Block.stop (block : Block) : Nat := block.start + 2 ^ block.order

def Block.Covers (block : Block) (x : Nat) : Prop := block.start ≤ x ∧ x < block.stop

theorem Block.startBelow (block : Block) : block.start < block.stop := Nat.lt_add_of_pos_right (Nat.two_pow_pos _)

theorem Block.coversStart (block : Block) : block.Covers block.start := ⟨Nat.le_refl _,block.startBelow⟩

theorem Block.nested {inner outer : Block} {x y : Nat} (smaller : inner.order ≤ outer.order)
    (both : inner.Covers x ∧ outer.Covers x) (covered : inner.Covers y) : outer.Covers y := by
  obtain ⟨⟨innerLow,innerHigh⟩,outerLow,outerHigh⟩ := both
  obtain ⟨low,high⟩ := covered
  have step : 2 ^ inner.order ∣ 2 ^ outer.order := Nat.pow_dvd_pow 2 smaller
  obtain ⟨q,innerStart⟩ := inner.aligned
  obtain ⟨p,outerStart⟩ := step.trans outer.aligned
  obtain ⟨r,outerStop⟩ : 2 ^ inner.order ∣ outer.stop := Nat.dvd_add (step.trans outer.aligned) step
  have positive := Nat.two_pow_pos inner.order
  unfold stop at innerHigh high
  have first : p ≤ q := by
    apply Nat.lt_succ_iff.mp
    apply Nat.lt_of_mul_lt_mul_left (a := 2 ^ inner.order)
    rw [Nat.mul_succ]
    omega
  have last : q + 1 ≤ r := by
    apply Nat.succ_le_of_lt
    apply Nat.lt_of_mul_lt_mul_left (a := 2 ^ inner.order)
    omega
  have left := Nat.mul_le_mul_left (2 ^ inner.order) first
  have right := Nat.mul_le_mul_left (2 ^ inner.order) last
  rw [Nat.mul_add,Nat.mul_one] at right
  exact ⟨by omega,by omega⟩

structure Largest (left right : Nat) (block : Block) : Prop where
  start : block.start = left
  fits : block.stop ≤ right + 1
  largest : ∀ other : Block, other.start = left → other.stop ≤ right + 1 → other.order ≤ block.order

inductive Greedy : Nat → Nat → List Block → Prop where
  | last {left right block} (first : Largest left right block) (ends : block.stop = right + 1) : Greedy left right [block]
  | more {left right block rest} (first : Largest left right block) (goes : block.stop ≤ right)
      (tail : Greedy block.stop right rest) : Greedy left right (block :: rest)

def CoversRange (blocks : List Block) (left right : Nat) : Prop :=
  ∀ x, (∃ block ∈ blocks, block.Covers x) ↔ left ≤ x ∧ x ≤ right

variable {left right : Nat} {blocks cover : List Block}

theorem Greedy.covers (greedy : Greedy left right blocks) : CoversRange blocks left right := by
  induction greedy with
  | last first ends =>
    intro x
    simp only [List.mem_singleton,exists_eq_left,Block.Covers,ends,first.start]
    omega
  | more first goes tail ih =>
    intro x
    rw [List.exists_mem_cons_iff,ih x]
    simp only [Block.Covers,first.start]
    have begins := first.start ▸ Block.startBelow _
    omega

theorem Greedy.disjoint (greedy : Greedy left right blocks) :
    blocks.Pairwise fun earlier later => ∀ x, earlier.Covers x → ¬later.Covers x := by
  induction greedy with
  | last => exact List.pairwise_singleton ..
  | more first goes tail ih =>
    refine List.pairwise_cons.mpr ⟨?_,ih⟩
    intro later listed x inFirst inLater
    have beyond := ((tail.covers x).mp ⟨later,listed,inLater⟩).1
    exact Nat.not_lt_of_le beyond inFirst.2

theorem Largest.absorbs {block other : Block} (first : Largest left right block) (covers : CoversRange cover left right)
    (listed : other ∈ cover) (begins : other.start < block.stop) {x : Nat} (covered : other.Covers x) : block.Covers x := by
  have inside := (covers other.start).mp ⟨other,listed,other.coversStart⟩
  have met : block.Covers other.start := ⟨by rw [first.start]; exact inside.1,begins⟩
  have smaller : other.order ≤ block.order := by
    by_contra larger
    -- a larger block that meets the first one would begin with it and still stay in the range
    have holds : other.Covers left :=
      Block.nested (Nat.le_of_not_le larger) ⟨met,other.coversStart⟩ (first.start ▸ block.coversStart)
    have start : other.start = left := Nat.le_antisymm holds.1 inside.1
    have last : other.Covers (other.stop - 1) := ⟨by have := other.startBelow; omega,by have := other.startBelow; omega⟩
    have fits := ((covers _).mp ⟨other,listed,last⟩).2
    exact larger (first.largest other start (by omega))
  exact Block.nested smaller ⟨other.coversStart,met⟩ covered

theorem Greedy.fewest (greedy : Greedy left right blocks) (covers : CoversRange cover left right) :
    blocks.length ≤ cover.length := by
  induction greedy generalizing cover with
  | last first ends =>
    obtain ⟨block,listed,_⟩ := (covers _).mpr ⟨Nat.le_refl _,by have := first.start ▸ Block.startBelow _; omega⟩
    exact List.length_pos_of_mem listed
  | @more left right block rest first goes tail ih =>
    have begins := block.startBelow
    rw [first.start] at begins
    have later : CoversRange (cover.filter fun other => !decide (other.start < block.stop)) block.stop right := by
      intro x
      simp only [List.mem_filter,Bool.not_eq_true',decide_eq_false_iff_not]
      constructor
      · rintro ⟨other,⟨listed,beyond⟩,covered⟩
        have inside := (covers x).mp ⟨other,listed,covered⟩
        exact ⟨Nat.le_trans (Nat.le_of_not_lt beyond) covered.1,inside.2⟩
      · rintro ⟨beyond,inside⟩
        obtain ⟨other,listed,covered⟩ := (covers x).mpr ⟨by omega,inside⟩
        refine ⟨other,⟨listed,fun early => ?_⟩,covered⟩
        exact Nat.not_lt_of_le beyond (first.absorbs covers listed early covered).2
    obtain ⟨opening,listed,covered⟩ := (covers left).mpr ⟨Nat.le_refl _,by omega⟩
    have taken : 0 < (cover.filter fun other => decide (other.start < block.stop)).length := by
      refine List.length_pos_of_mem (List.mem_filter.mpr ⟨listed,decide_eq_true ?_⟩)
      exact Nat.lt_of_le_of_lt covered.1 begins
    have parts := List.length_eq_length_filter_add (l := cover) fun other => decide (other.start < block.stop)
    have rest_few := ih later
    rw [List.length_cons]
    omega

end Dyadic
