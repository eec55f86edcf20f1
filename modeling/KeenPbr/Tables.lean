import Mathlib.Algebra.Order.Ring.Int
import Mathlib.Data.List.Basic

/-! A finite map as the list of its entries. An entry that is put or dropped takes the old ones of its
key away, so a key stands once. -/
namespace Tables
variable {κ ν : Type} [DecidableEq κ]

abbrev Table (κ ν : Type) := List (κ × ν)

variable (table : Table κ ν) (key : κ) (value : ν)

def find : Option ν := (table.find? fun entry => entry.1 = key).map (·.2)

def drop : Table κ ν := table.filter fun entry => entry.1 ≠ key

def put : Table κ ν := (key,value) :: drop table key

def emplace : Table κ ν := if (find table key).isSome then table else put table key value

variable {table key value} {other : κ} {entry : κ × ν}

theorem memDrop : entry ∈ drop table key ↔ entry ∈ table ∧ entry.1 ≠ key := by
  rw [drop,List.mem_filter,decide_eq_true_eq]

theorem memPut (mem : entry ∈ put table key value) : entry = (key,value) ∨ entry ∈ table := by
  rcases List.mem_cons.mp mem with new | old
  · exact .inl new
  · exact .inr (memDrop.mp old).1

theorem findDrop (differs : other ≠ key) : find (drop table key) other = find table other := by
  rw [find,find,drop]
  congr 1
  induction table with
  | nil => rfl
  | cons entry rest ih =>
    rw [List.filter_cons]
    by_cases same : entry.1 = key
    · have skipped : entry.1 ≠ other := fun found => differs (found.symm.trans same)
      rw [List.find?_cons_of_neg (by simpa using skipped)]
      simpa [same] using ih
    · simp only [ne_eq,same,not_false_eq_true,decide_true,if_true,List.find?_cons]
      rw [ih]

theorem findDropped : find (drop table key) key = none := by
  rw [find,Option.map_eq_none_iff,List.find?_eq_none]
  intro entry mem same
  exact (memDrop.mp mem).2 (of_decide_eq_true same)

theorem findPut : find (put table key value) other = if other = key then some value else find table other := by
  split
  · rename_i same
    rw [same,find,put,List.find?_cons_of_pos (by simp)]
    rfl
  · rename_i differs
    rw [find,put,List.find?_cons_of_neg (by simpa using Ne.symm differs)]
    exact findDrop differs

end Tables
