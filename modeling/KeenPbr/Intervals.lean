import Mathlib.Algebra.Order.Ring.Int
import Mathlib.Data.List.Sort

/-! Sorted lists of disjoint, non-adjacent intervals of numbers: the canonical form of a finite union, and the
algorithms that keep it. -/
namespace KeenPbr

structure Interval where
  first : Nat
  last : Nat
  deriving DecidableEq, Repr

namespace Interval

section Sets

def Holds (range : Interval) (n : Nat) : Prop := range.first ≤ n ∧ n ≤ range.last

/- The numbers a list of intervals denotes. -/
def Covered (ranges : List Interval) (n : Nat) : Prop := ∃ range ∈ ranges, range.Holds n

theorem coveredNil {n : Nat} : ¬Covered [] n := fun ⟨_,mem,_⟩ => List.not_mem_nil mem

theorem coveredCons {range : Interval} {ranges : List Interval} {n : Nat} :
    Covered (range :: ranges) n ↔ range.Holds n ∨ Covered ranges n := by
  simp [Covered]

theorem coveredAppend {front back : List Interval} {n : Nat} : Covered (front ++ back) n ↔ Covered front n ∨ Covered back n := by
  simp only [Covered,List.mem_append]
  constructor
  · rintro ⟨range,left | right,holds⟩
    · exact Or.inl ⟨range,left,holds⟩
    · exact Or.inr ⟨range,right,holds⟩
  · rintro (⟨range,mem,holds⟩ | ⟨range,mem,holds⟩)
    · exact ⟨range,Or.inl mem,holds⟩
    · exact ⟨range,Or.inr mem,holds⟩

theorem coveredPerm {xs ys : List Interval} (same : xs.Perm ys) {n : Nat} : Covered xs n ↔ Covered ys n :=
  exists_congr fun _ => and_congr_left fun _ => same.mem_iff

def Proper (ranges : List Interval) : Prop := ∀ range ∈ ranges, range.first ≤ range.last

/- Sorted, disjoint and non-adjacent. -/
structure Canonical (ranges : List Interval) : Prop where
  proper : Proper ranges
  apart : ranges.Pairwise fun a b => a.last + 1 < b.first

theorem Canonical.nil : Canonical [] := ⟨nofun,List.Pairwise.nil⟩

end Sets

section Merging

/- The loop that coalesces a sorted list; `back` is the interval it may still extend. -/
def mergeFrom (back : Interval) : List Interval → List Interval
  | [] => [back]
  | range :: rest =>
    if back.last + 1 < range.first then back :: mergeFrom range rest
    else if back.last < range.last then mergeFrom { back with last := range.last } rest
    else mergeFrom back rest

def merged : List Interval → List Interval
  | [] => []
  | range :: rest => mergeFrom range rest

def Before (a b : Interval) : Prop := if a.first = b.first then a.last ≤ b.last else a.first ≤ b.first

instance (a b : Interval) : Decidable (Before a b) := inferInstanceAs (Decidable (ite _ _ _))

def canonical (ranges : List Interval) : List Interval := merged (ranges.insertionSort Before)

def Ascending (ranges : List Interval) : Prop := ranges.Pairwise fun a b => a.first ≤ b.first

theorem Ascending.extended {back range : Interval} {rest : List Interval} (ascending : Ascending (back :: range :: rest)) (last : Nat) :
    Ascending ({ back with last } :: rest) := by
  obtain ⟨starts,later⟩ := List.pairwise_cons.mp ascending
  exact List.pairwise_cons.mpr ⟨fun other mem => starts other (List.mem_cons_of_mem _ mem),later.of_cons⟩

theorem Proper.extended {back range : Interval} {rest : List Interval} {last : Nat} (proper : Proper (back :: range :: rest))
    (more : back.last ≤ last) : Proper ({ back with last } :: rest) := by
  intro other mem
  rcases List.mem_cons.mp mem with rfl | behind
  · exact Nat.le_trans (proper back List.mem_cons_self) more
  · exact proper other (List.mem_cons_of_mem _ (List.mem_cons_of_mem _ behind))

theorem mergeFromCovered {back : Interval} {rest : List Interval} (proper : Proper (back :: rest))
    (ascending : Ascending (back :: rest)) {n : Nat} :
    Covered (mergeFrom back rest) n ↔ Covered (back :: rest) n := by
  induction rest generalizing back with
  | nil => exact Iff.rfl
  | cons range rest ih =>
    have later : Proper (range :: rest) := fun other mem => proper other (List.mem_cons_of_mem _ mem)
    have here := proper back List.mem_cons_self
    have start := (List.pairwise_cons.mp ascending).1 range List.mem_cons_self
    rw [mergeFrom]
    split
    · exact coveredCons.trans ((or_congr_right (ih later ascending.of_cons)).trans coveredCons.symm)
    · rename_i near
      split
      · rename_i longer
        rw [ih (proper.extended (Nat.le_of_lt longer)) (ascending.extended range.last),coveredCons,coveredCons,coveredCons,← or_assoc]
        refine or_congr_left ?_
        simp only [Holds]
        omega
      · rename_i inside
        rw [ih (proper.extended (Nat.le_refl _)) (ascending.extended back.last),coveredCons,coveredCons,coveredCons,← or_assoc]
        refine or_congr_left ?_
        simp only [Holds]
        omega

theorem mergeFromCanonical {back : Interval} {rest : List Interval} (proper : Proper (back :: rest))
    (ascending : Ascending (back :: rest)) :
    Canonical (mergeFrom back rest) ∧ ∀ range ∈ mergeFrom back rest, back.first ≤ range.first := by
  induction rest generalizing back with
  | nil => exact ⟨⟨proper,List.pairwise_singleton _ _⟩,fun range mem => (List.mem_singleton.mp mem) ▸ Nat.le_refl _⟩
  | cons range rest ih =>
    have later : Proper (range :: rest) := fun other mem => proper other (List.mem_cons_of_mem _ mem)
    have here := proper back List.mem_cons_self
    have start := (List.pairwise_cons.mp ascending).1 range List.mem_cons_self
    rw [mergeFrom]
    split
    · rename_i gap
      obtain ⟨canonical,starts⟩ := ih later ascending.of_cons
      refine ⟨⟨?_,?_⟩,?_⟩
      · intro other mem
        rcases List.mem_cons.mp mem with rfl | behind
        · exact here
        · exact canonical.proper other behind
      · exact List.pairwise_cons.mpr ⟨fun other mem => Nat.lt_of_lt_of_le gap (starts other mem),canonical.apart⟩
      · intro other mem
        rcases List.mem_cons.mp mem with rfl | behind
        · exact Nat.le_refl _
        · exact Nat.le_trans start (starts other behind)
    · split
      · rename_i longer
        exact ih (proper.extended (Nat.le_of_lt longer)) (ascending.extended range.last)
      · exact ih (proper.extended (Nat.le_refl _)) (ascending.extended back.last)

instance : Std.Total Before := ⟨fun a b => by
  simp only [Before]
  split <;> split <;> omega⟩

instance : IsTrans Interval Before := ⟨fun a b c ab bc => by
  simp only [Before] at *
  split at ab <;> split at bc <;> split <;> omega⟩

theorem sortedAscending (ranges : List Interval) : Ascending (ranges.insertionSort Before) := by
  refine (List.pairwise_insertionSort Before ranges).imp fun {a b} ordered => ?_
  simp only [Before] at ordered
  split at ordered <;> omega

theorem sortedProper {ranges : List Interval} (proper : Proper ranges) : Proper (ranges.insertionSort Before) :=
  fun range mem => proper range ((List.mem_insertionSort Before).mp mem)

theorem canonicalCovered {ranges : List Interval} (proper : Proper ranges) {n : Nat} : Covered (canonical ranges) n ↔ Covered ranges n := by
  have sorted := sortedAscending ranges
  have kept := sortedProper proper
  rw [← coveredPerm (List.perm_insertionSort Before ranges),canonical]
  cases shape : ranges.insertionSort Before with
  | nil => exact Iff.rfl
  | cons range rest =>
    rw [shape] at sorted kept
    exact mergeFromCovered kept sorted

theorem canonicalCanonical {ranges : List Interval} (proper : Proper ranges) : Canonical (canonical ranges) := by
  have sorted := sortedAscending ranges
  have kept := sortedProper proper
  rw [canonical]
  cases shape : ranges.insertionSort Before with
  | nil => exact Canonical.nil
  | cons range rest =>
    rw [shape] at sorted kept
    exact (mergeFromCanonical kept sorted).1

theorem canonicalUnion {front back : List Interval} (left : Proper front) (right : Proper back) :
    Canonical (canonical (front ++ back)) ∧ ∀ n, Covered (canonical (front ++ back)) n ↔ Covered front n ∨ Covered back n := by
  have proper : Proper (front ++ back) := by
    intro range mem
    rcases List.mem_append.mp mem with first | second
    · exact left range first
    · exact right range second
  exact ⟨canonicalCanonical proper,fun n => (canonicalCovered proper).trans coveredAppend⟩

end Merging

section Sweep

def covers : List Interval → List Interval → Bool
  | _,[] => true
  | declared,range :: active =>
    match declared.dropWhile fun other => other.last < range.first with
    | [] => false
    | covering :: rest => if range.first < covering.first ∨ covering.last < range.last then false else covers (covering :: rest) active

theorem coversSound {declared active : List Interval} (covered : covers declared active = true) {n : Nat} (mem : Covered active n) :
    Covered declared n := by
  induction active generalizing declared with
  | nil => exact absurd mem coveredNil
  | cons range active ih =>
    rw [covers] at covered
    cases shape : declared.dropWhile fun other => other.last < range.first with
    | nil =>
      rw [shape] at covered
      cases covered
    | cons covering rest =>
      rw [shape] at covered
      simp only at covered
      split at covered
      · cases covered
      · rename_i within
        have kept : ∀ other ∈ covering :: rest, other ∈ declared := fun other inside =>
          (List.dropWhile_sublist _).subset (shape ▸ inside)
        rcases coveredCons.mp mem with here | later
        · refine ⟨covering,kept covering List.mem_cons_self,?_⟩
          simp only [Holds] at here ⊢
          omega
        · obtain ⟨other,inside,holds⟩ := ih covered later
          exact ⟨other,kept other inside,holds⟩

end Sweep

section Packing

def slotCost (range : Interval) : Nat := if range.first = range.last then 1 else 2

def slots (ranges : List Interval) : Nat := (ranges.map slotCost).sum

/- Fills chunks of at most `limit` slots one after the other, `most` chunks at most; `used` counts the last one. -/
def packFrom (limit most : Nat) (chunks : List (List Interval)) (used : Nat) : List Interval → Option (List (List Interval))
  | [] => some chunks
  | range :: rest =>
    if chunks.isEmpty ∨ limit < used + slotCost range then
      if most ≤ chunks.length then none else packFrom limit most (chunks ++ [[range]]) (slotCost range) rest
    else packFrom limit most (chunks.dropLast ++ [chunks.getLastD [] ++ [range]]) (used + slotCost range) rest

def pack (limit most : Nat) (ranges : List Interval) : Option (List (List Interval)) := packFrom limit most [] 0 ranges

theorem slotCostFew (range : Interval) : slotCost range ≤ 2 := by
  unfold slotCost
  split <;> omega

theorem slotsSnoc (ranges : List Interval) (range : Interval) : slots (ranges ++ [range]) = slots ranges + slotCost range := by
  simp [slots]

structure Packed (limit : Nat) (chunks : List (List Interval)) (used : Nat) : Prop where
  counted : ∀ chunk ∈ chunks.getLast?, slots chunk = used
  fits : ∀ chunk ∈ chunks, slots chunk ≤ limit

theorem Packed.opened {limit : Nat} {chunks : List (List Interval)} {used : Nat} (packed : Packed limit chunks used) (room : 2 ≤ limit)
    (range : Interval) : Packed limit (chunks ++ [[range]]) (slotCost range) := by
  have alone : slots [range] = slotCost range := by simp [slots]
  refine ⟨fun chunk last => ?_,fun chunk mem => ?_⟩
  · rw [List.getLast?_concat] at last
    obtain rfl := Option.some.inj last
    exact alone
  · rcases List.mem_append.mp mem with old | new
    · exact packed.fits chunk old
    · rw [List.mem_singleton.mp new,alone]
      exact Nat.le_trans (slotCostFew range) room

theorem lastChunk {chunks : List (List Interval)} (some : chunks ≠ []) : chunks.getLastD [] = chunks.getLast some := by
  rw [List.getLastD_eq_getLast?,List.getLast?_eq_some_getLast some]
  rfl

theorem Packed.filled {limit : Nat} {chunks : List (List Interval)} {used : Nat} (packed : Packed limit chunks used) (some : chunks ≠ [])
    {range : Interval} (room : used + slotCost range ≤ limit) :
    Packed limit (chunks.dropLast ++ [chunks.getLastD [] ++ [range]]) (used + slotCost range) := by
  have last := packed.counted (chunks.getLast some) (List.getLast?_eq_some_getLast some)
  have total : slots (chunks.getLastD [] ++ [range]) = used + slotCost range := by rw [slotsSnoc,lastChunk some,last]
  refine ⟨fun chunk final => ?_,fun chunk mem => ?_⟩
  · rw [List.getLast?_concat] at final
    obtain rfl := Option.some.inj final
    exact total
  · rcases List.mem_append.mp mem with old | new
    · exact packed.fits chunk ((List.dropLast_sublist chunks).subset old)
    · rw [List.mem_singleton.mp new,total]
      exact room

theorem packFromPacks {limit most used : Nat} {chunks result : List (List Interval)} {ranges : List Interval} (room : 2 ≤ limit)
    (packed : Packed limit chunks used) (done : packFrom limit most chunks used ranges = some result) :
    result.flatten = chunks.flatten ++ ranges ∧ ∀ chunk ∈ result, slots chunk ≤ limit := by
  induction ranges generalizing chunks used with
  | nil =>
    obtain rfl := Option.some.inj done
    exact ⟨(List.append_nil _).symm,packed.fits⟩
  | cons range rest ih =>
    rw [packFrom] at done
    split at done
    · split at done
      · cases done
      · obtain ⟨joined,fits⟩ := ih (packed.opened room range) done
        refine ⟨?_,fits⟩
        rw [joined,List.flatten_append,List.append_assoc]
        rfl
    · rename_i within
      have some : chunks ≠ [] := fun empty => within (Or.inl (by rw [empty]; rfl))
      obtain ⟨joined,fits⟩ := ih (packed.filled some (Nat.le_of_not_lt fun more => within (Or.inr more))) done
      refine ⟨?_,fits⟩
      have whole := congrArg List.flatten (List.dropLast_append_getLast some)
      rw [List.flatten_append] at whole
      rw [joined,List.flatten_append,lastChunk some,← whole]
      simp

theorem packPacks {limit most : Nat} {ranges : List Interval} {chunks : List (List Interval)} (room : 2 ≤ limit)
    (done : pack limit most ranges = some chunks) : chunks.flatten = ranges ∧ ∀ chunk ∈ chunks, slots chunk ≤ limit :=
  packFromPacks room ⟨fun _ last => absurd last (by simp),fun _ mem => absurd mem List.not_mem_nil⟩ done

end Packing

end Interval

end KeenPbr
