import Mathlib.Algebra.Order.Ring.Int
import Mathlib.Data.List.Sort

/-! The first match in a stably sorted list, told by the list as it was declared. -/
namespace Stable
variable {α β : Type} (r : α → α → Prop) [DecidableRel r] [IsTrans α r] [Std.Total r] (p : α → Bool)

def Leads (items : List α) (lead : α) : Prop :=
  p lead = true ∧ ∃ before after, items = before ++ lead :: after ∧
    (∀ other ∈ before, p other = true → ¬ r other lead) ∧ ∀ other ∈ after, p other = true → r lead other

omit [Std.Total r] in
theorem findInserted (item : α) {items : List α} (sorted : items.Pairwise r) :
    (items.orderedInsert r item).find? p =
      if p item then
        match items.find? p with
        | none => some item
        | some first => if r item first then some item else some first
      else items.find? p := by
  induction items with
  | nil =>
    rw [List.orderedInsert_nil,List.find?_singleton,List.find?_nil]
  | cons head rest ih =>
    obtain ⟨low,later⟩ := List.pairwise_cons.mp sorted
    by_cases goes : r item head
    · rw [List.orderedInsert_cons_of_le _ _ goes,List.find?_cons]
      cases p item with
      | false => rfl
      | true =>
        rw [if_pos rfl]
        cases found : (head :: rest).find? p with
        | none => rfl
        | some first =>
          have after : r item first := by
            rcases List.mem_cons.mp (List.mem_of_find?_eq_some found) with rfl | mem
            · exact goes
            · exact trans_of r goes (low first mem)
          exact (if_pos after).symm
    · rw [List.orderedInsert_of_not_le _ _ goes,List.find?_cons,List.find?_cons,ih later]
      cases p head with
      | false => rfl
      | true =>
        dsimp only
        rw [if_neg goes,ite_self]

theorem findSorted (items : List α) :
    match (items.insertionSort r).find? p with
    | none => ∀ item ∈ items, p item = false
    | some lead => Leads r p items lead := by
  induction items with
  | nil => exact fun _ absent => by cases absent
  | cons item rest ih =>
    rw [List.insertionSort_cons,findInserted r p item (List.pairwise_insertionSort r rest)]
    cases own : p item with
    | false =>
      rw [if_neg (by decide)]
      cases found : (rest.insertionSort r).find? p with
      | none =>
        rw [found] at ih
        exact List.forall_mem_cons.mpr ⟨own,ih⟩
      | some lead =>
        rw [found] at ih
        obtain ⟨holds,before,after,rfl,early,late⟩ := ih
        refine ⟨holds,item :: before,after,rfl,List.forall_mem_cons.mpr ⟨fun matched => ?_,early⟩,late⟩
        rw [own] at matched
        cases matched
    | true =>
      rw [if_pos rfl]
      cases found : (rest.insertionSort r).find? p with
      | none =>
        rw [found] at ih
        refine ⟨own,[],rest,rfl,fun _ absent => (by cases absent),fun other mem matched => ?_⟩
        rw [ih other mem] at matched
        cases matched
      | some lead =>
        rw [found] at ih
        obtain ⟨holds,before,after,rfl,early,late⟩ := ih
        dsimp only
        by_cases first : r item lead
        · rw [if_pos first]
          refine ⟨own,[],_,rfl,fun _ absent => (by cases absent),fun other mem matched => ?_⟩
          refine trans_of r first ?_
          rcases List.mem_append.mp mem with old | new
          · exact (Std.Total.total (r := r) lead other).resolve_right (early other old matched)
          · rcases List.mem_cons.mp new with rfl | new
            · exact (Std.Total.total (r := r) other other).elim id id
            · exact late other new matched
        · rw [if_neg first]
          exact ⟨holds,item :: before,after,rfl,List.forall_mem_cons.mpr ⟨fun _ => first,early⟩,late⟩

omit [DecidableRel r] [IsTrans α r] [Std.Total r] in
theorem leadsUnique {items : List α} {lead other : α} (leads : Leads r p items lead) (same : Leads r p items other) : lead = other := by
  obtain ⟨holds,before,after,rfl,early,late⟩ := leads
  obtain ⟨holds',before',after',split,early',late'⟩ := same
  rcases List.append_eq_append_iff.mp split with ⟨gap,rfl,tail⟩ | ⟨gap,rfl,tail⟩
  · cases gap with
    | nil => exact (List.cons.inj tail).1
    | cons head gap =>
      obtain ⟨rfl,rest⟩ := List.cons.inj tail
      have mem : other ∈ after := by
        rw [rest]
        exact List.mem_append_right gap List.mem_cons_self
      exact absurd (late other mem holds') (early' lead (List.mem_append_right before List.mem_cons_self) holds)
  · cases gap with
    | nil => exact (List.cons.inj tail).1.symm
    | cons head gap =>
      obtain ⟨rfl,rest⟩ := List.cons.inj tail
      have mem : lead ∈ after' := by
        rw [rest]
        exact List.mem_append_right gap List.mem_cons_self
      exact absurd (late' lead mem holds) (early other (List.mem_append_right before' List.mem_cons_self) holds')

theorem leadsIff {items : List α} {lead : α} : Leads r p items lead ↔ (items.insertionSort r).find? p = some lead := by
  have sorted := findSorted r p items
  constructor
  · intro leads
    cases found : (items.insertionSort r).find? p with
    | none =>
      rw [found] at sorted
      obtain ⟨holds,before,after,rfl,_⟩ := leads
      rw [sorted lead (List.mem_append_right before List.mem_cons_self)] at holds
      cases holds
    | some first =>
      rw [found] at sorted
      rw [leadsUnique r p leads sorted]
  · intro found
    rw [found] at sorted
    exact sorted

theorem leadsExists {items : List α} {item : α} (mem : item ∈ items) (matched : p item = true) : ∃ lead, Leads r p items lead := by
  have sorted := findSorted r p items
  cases found : (items.insertionSort r).find? p with
  | none =>
    rw [found] at sorted
    rw [sorted item mem] at matched
    cases matched
  | some lead =>
    rw [found] at sorted
    exact ⟨lead,sorted⟩

variable {p}

/- A search that finds nothing in what does not match stops at the first match, where it finds something. -/
theorem findSomeFirst {items : List α} {f : α → Option β} (only : ∀ item, p item = false → f item = none) {lead : α}
    (first : items.find? p = some lead)
    {found : β} (there : f lead = some found) : items.findSome? f = some found := by
  obtain ⟨holds,before,after,rfl,none_⟩ := List.find?_eq_some_iff_append.mp first
  have idle : before.findSome? f = none := by
    refine List.findSome?_eq_none_iff.mpr fun item mem => only item ?_
    simpa using none_ item mem
  rw [List.findSome?_append,idle,Option.none_or,List.findSome?_cons,there]

end Stable
