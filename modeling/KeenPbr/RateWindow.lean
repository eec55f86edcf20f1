import KeenPbr.Tables
import Mathlib.Data.List.Perm.Subperm

/-! A limit on the events of any stretch of time of one width, kept as a table of the time of each key's
event. An event may be taken back. -/
namespace RateWindow
open Tables
variable {κ : Type}

def inside (width start : Int) (event : κ × Int) : Bool := start ≤ event.2 && event.2 < start + width

def recent (width now : Int) (event : κ × Int) : Bool := now - event.2 < width

variable [DecidableEq κ]

def takeBack (events : List (κ × Int)) (key : κ) : List (κ × Int) := events.eraseP fun event => event.1 = key

section Finding
variable {ν : Type} {table : Table κ ν} {key : κ} {value : ν} {keep : κ × ν → Bool}

theorem findMem (found : find table key = some value) : (key,value) ∈ table := by
  rw [find,Option.map_eq_some_iff] at found
  obtain ⟨entry,first,rfl⟩ := found
  have same := List.find?_some first
  rw [decide_eq_true_eq] at same
  rw [← same]
  exact List.mem_of_find?_eq_some first

theorem findFilter (found : find table key = some value) (kept : keep (key,value) = true) : find (table.filter keep) key = some value := by
  induction table with
  | nil => cases found
  | cons entry rest ih =>
    unfold find at found ih ⊢
    by_cases same : entry.1 = key
    · rw [List.find?_cons_of_pos (by simpa using same)] at found
      have whole : entry = (key,value) := Prod.ext same (Option.some.inj found)
      rw [List.filter_cons,whole,kept,if_pos rfl,List.find?_cons_of_pos (by simp)]
      rfl
    · rw [List.find?_cons_of_neg (by simpa using same)] at found
      rw [List.filter_cons]
      split
      · rw [List.find?_cons_of_neg (by simpa using same)]
        exact ih found
      · exact ih found

theorem putLength : (put table key value).length ≤ table.length + 1 := by
  rw [put,List.length_cons]
  exact Nat.succ_le_succ (List.length_filter_le _ _)

end Finding

structure Counts (width : Int) (limit : Nat) (now : Int) (table : Table κ Int) (events : List (κ × Int)) : Prop where
  past : ∀ event ∈ events, event.2 ≤ now
  sorted : events.Pairwise fun new old => old.2 ≤ new.2
  held : ∀ event ∈ events, recent width now event = true → find table event.1 = some event.2
  distinct : ((events.filter (recent width now)).map (·.1)).Nodup
  few : table.length ≤ limit
  bounded : ∀ start, (events.filter (inside width start)).length ≤ limit

namespace Counts
variable {width now later : Int} {limit : Nat} {table : Table κ Int} {events : List (κ × Int)} {key : κ}

theorem empty : Counts width limit now ([] : Table κ Int) [] where
  past := nofun
  sorted := .nil
  held := nofun
  distinct := .nil
  few := Nat.zero_le _
  bounded _ := Nat.zero_le _

theorem recentLength (held : ∀ event ∈ events, recent width now event = true → find table event.1 = some event.2)
    (distinct : ((events.filter (recent width now)).map (·.1)).Nodup) : (events.filter (recent width now)).length ≤ table.length := by
  have among : (events.filter (recent width now)).map (·.1) ⊆ table.map (·.1) := by
    intro key mem
    obtain ⟨event,listed,rfl⟩ := List.mem_map.mp mem
    obtain ⟨old,young⟩ := List.mem_filter.mp listed
    exact List.mem_map.mpr ⟨_,findMem (held event old young),rfl⟩
  simpa using (distinct.subperm among).length_le

omit [DecidableEq κ] in
theorem recentBefore {event : κ × Int} (passed : now ≤ later) (young : recent width later event = true) :
    recent width now event = true := by
  unfold recent at young ⊢
  simp only [decide_eq_true_eq] at young ⊢
  omega

theorem waited (counts : Counts width limit now table events) (passed : now ≤ later) : Counts width limit later table events where
  past event mem := Int.le_trans (counts.past event mem) passed
  sorted := counts.sorted
  held event mem young := counts.held event mem (recentBefore passed young)
  distinct := counts.distinct.sublist ((List.monotone_filter_right events fun _ young => recentBefore passed young).map _)
  few := counts.few
  bounded := counts.bounded

theorem passed (counts : Counts width limit now table events) (passed : now ≤ later) :
    Counts width limit later (table.filter (recent width later)) events :=
  { waited counts passed with
    held := fun event mem young => findFilter ((waited counts passed).held event mem young) young
    few := Nat.le_trans (List.length_filter_le _ _) counts.few }

theorem issued (counts : Counts width limit now table events) (fresh : find table key = none) (room : table.length < limit) :
    Counts width limit now (put table key now) ((key,now) :: events) := by
  have held : ∀ event ∈ (key,now) :: events, recent width now event = true → find (put table key now) event.1 = some event.2 := by
    intro event mem young
    rw [findPut]
    rcases List.mem_cons.mp mem with rfl | old
    · rw [if_pos rfl]
    · have there := counts.held event old young
      have other : event.1 ≠ key := by
        intro same
        rw [same,fresh] at there
        cases there
      rw [if_neg other,there]
  have distinct : ((((key,now) :: events).filter (recent width now)).map (·.1)).Nodup := by
    rw [List.filter_cons]
    split
    · refine List.nodup_cons.mpr ⟨fun mem => ?_,counts.distinct⟩
      obtain ⟨event,listed,same⟩ := List.mem_map.mp mem
      obtain ⟨old,young⟩ := List.mem_filter.mp listed
      have there := counts.held event old young
      rw [show event.1 = key from same,fresh] at there
      cases there
    · exact counts.distinct
  have few : (put table key now).length ≤ limit := Nat.le_trans putLength room
  refine ⟨?_,List.pairwise_cons.mpr ⟨counts.past,counts.sorted⟩,held,distinct,few,fun start => ?_⟩
  · intro event mem
    rcases List.mem_cons.mp mem with rfl | old
    · exact Int.le_refl _
    · exact counts.past event old
  · by_cases covers : inside width start (key,now) = true
    · -- the stretch reaches the present, so what it holds is recent
      have young : ∀ event : κ × Int, inside width start event = true → recent width now event = true := by
        intro event within
        unfold inside at covers within
        unfold recent
        simp only [Bool.and_eq_true,decide_eq_true_eq] at covers within ⊢
        omega
      exact Nat.le_trans (List.monotone_filter_right _ young).length_le (Nat.le_trans (recentLength held distinct) few)
    · rw [List.filter_cons_of_neg covers]
      exact counts.bounded start

theorem released (counts : Counts width limit now table events) (key : κ) :
    Counts width limit now (drop table key) (takeBack events key) := by
  have fewer : (takeBack events key).Sublist events := List.eraseP_sublist
  refine ⟨fun event mem => counts.past event (fewer.subset mem),counts.sorted.sublist fewer,?_,counts.distinct.sublist
    ((fewer.filter _).map _),
    Nat.le_trans (List.length_filter_le _ _) counts.few,fun start => Nat.le_trans (fewer.filter _).length_le (counts.bounded start)⟩
  intro event mem young
  have there := counts.held event (fewer.subset mem) young
  by_cases other : event.1 = key
  · -- a recent event of the key is its newest, which went
    exfalso
    obtain ⟨newest,front,back,before,own,shape,left⟩ := List.exists_of_eraseP (p := fun event => decide (event.1 = key))
      (fewer.subset mem) (decide_eq_true other)
    rw [takeBack,left] at mem
    have behind : event ∈ back := by
      rcases List.mem_append.mp mem with early | late
      · exact absurd (decide_eq_true other) (before event early)
      · exact late
    have sorted := counts.sorted
    rw [shape,List.pairwise_append,List.pairwise_cons] at sorted
    have younger : recent width now newest = true := by
      have order := sorted.2.1.1 event behind
      unfold recent at young ⊢
      simp only [decide_eq_true_eq] at young ⊢
      omega
    have distinct := counts.distinct
    rw [shape,List.filter_append,List.filter_cons_of_pos younger,List.map_append,List.map_cons] at distinct
    refine (List.nodup_cons.mp (List.nodup_append.mp distinct).2.1).1 (List.mem_map.mpr ⟨event,List.mem_filter.mpr ⟨behind,young⟩,?_⟩)
    exact other.trans (of_decide_eq_true own).symm
  · rw [findDrop other,there]

end Counts
end RateWindow
