import KeenPbr.Fields
import Mathlib.Data.List.Induction

/-! Fields of a text that was put together from two parts, over any alphabet. -/
namespace KeenPbr.Fields
variable {α : Type} {sep : α → Bool}

theorem fieldsAppend (front back : List α) : ∃ before last first after, fields sep front = before ++ [last] ∧
    fields sep back = first :: after ∧
    fields sep (front ++ back) = before ++ (last ++ first) :: after := by
  obtain ⟨first,after,cut⟩ := fieldsCons sep back
  induction front with
  | nil => exact ⟨[],[],first,after,rfl,cut,cut⟩
  | cons c rest ih =>
    obtain ⟨before,last,first',after',own,cut',whole⟩ := ih
    rw [cut] at cut'
    cases cut'
    rw [List.cons_append,fields,fields,own,whole]
    by_cases separates : sep c = true
    · rw [if_pos separates,if_pos separates]
      exact ⟨[] :: before,last,first,after,rfl,cut,rfl⟩
    · rw [if_neg separates,if_neg separates]
      cases before with
      | nil => exact ⟨[],c :: last,first,after,rfl,cut,rfl⟩
      | cons field more => exact ⟨(c :: field) :: more,last,first,after,rfl,cut,rfl⟩

theorem linesFields (text : List α) : fields sep text = lines sep text ∨ fields sep text = lines sep text ++ [[]] := by
  unfold lines
  split
  · rename_i last
    obtain ⟨init,shape⟩ := List.getLast?_eq_some_iff.mp last
    rw [shape,List.dropLast_concat]
    exact .inr rfl
  · exact .inl rfl

theorem fieldsText {c : α} (only : ∀ d, sep d = true → d = c) (text : List α) :
    (fields sep text).flatMap (fun field => field ++ [c]) = text ++ [c] := by
  induction text with
  | nil => rfl
  | cons d rest ih =>
    obtain ⟨field,later,cut⟩ := fieldsCons sep rest
    rw [cut,List.flatMap_cons] at ih
    rw [fields,cut]
    split
    · rename_i separates
      rw [List.flatMap_cons,List.flatMap_cons,ih,only d separates]
      exact rfl
    · rw [List.flatMap_cons,List.cons_append,List.cons_append,ih,List.cons_append]

theorem linesJoined {c : α} (only : ∀ d, sep d = true → d = c) (text : List α) :
    (lines sep text).flatMap (fun line => line ++ [c]) = text ∨ (lines sep text).flatMap (fun line => line ++ [c]) = text ++ [c] := by
  have whole := fieldsText only text
  rcases linesFields text with same | ended
  · rw [same] at whole
    exact .inr whole
  · rw [ended,List.flatMap_append,List.flatMap_singleton,List.nil_append] at whole
    exact .inl (List.append_cancel_right whole)

structure Framed (cut : List (List α)) (first : List α) (middle : List (List α)) (last : List α) : Prop where
  shape : cut = first :: middle ++ [last] ∨ cut = first :: middle ++ [last] ++ [[]]
  filled : last ≠ []

theorem Framed.place {before after : List (List α)} {field first last : List α} {middle : List (List α)}
    (framed : Framed (before ++ field :: after) first middle last) :
    (after = [] ∧ field = [] ∧ before = first :: middle ++ [last]) ∨
    ((after = [] ∨ after = [[]]) ∧ field = last ∧ before = first :: middle) ∨
    ∃ more, (after = more ++ [last] ∨ after = more ++ [last] ++ [[]]) ∧ before ++ field :: more = first :: middle := by
  rcases framed.shape with shape | shape
  · rcases List.eq_nil_or_concat after with rfl | ⟨more,end_,rfl⟩
    · obtain ⟨same,tail⟩ := List.append_inj' shape rfl
      exact .inr (.inl ⟨.inl rfl,List.singleton_inj.mp tail,same⟩)
    · rw [List.concat_eq_append,← List.cons_append,← List.append_assoc] at shape
      obtain ⟨same,tail⟩ := List.append_inj' shape rfl
      refine .inr (.inr ⟨more,.inl ?_,same⟩)
      rw [List.concat_eq_append,List.singleton_inj.mp tail]
  · rcases List.eq_nil_or_concat after with rfl | ⟨more,end_,rfl⟩
    · obtain ⟨same,tail⟩ := List.append_inj' shape rfl
      exact .inl ⟨rfl,List.singleton_inj.mp tail,same⟩
    · rw [List.concat_eq_append,← List.cons_append,← List.append_assoc] at shape
      obtain ⟨same,tail⟩ := List.append_inj' shape rfl
      have empty : end_ = [] := List.singleton_inj.mp tail
      subst empty
      rcases List.eq_nil_or_concat more with rfl | ⟨others,final,rfl⟩
      · obtain ⟨own,ended⟩ := List.append_inj' same rfl
        exact .inr (.inl ⟨.inr rfl,List.singleton_inj.mp ended,own⟩)
      · rw [List.concat_eq_append,← List.cons_append,← List.append_assoc] at same
        obtain ⟨own,ended⟩ := List.append_inj' same rfl
        refine .inr (.inr ⟨others,.inr ?_,own⟩)
        rw [List.concat_eq_append,List.concat_eq_append,List.singleton_inj.mp ended]

theorem sameEnd {after more more' : List (List α)} {last last' : List α} (mine : after = more ++ [last] ∨ after = more ++ [last] ++ [[]])
    (theirs : after = more' ++ [last'] ∨ after = more' ++ [last'] ++ [[]]) (filled : last ≠ []) (filled' : last' ≠ []) :
    more = more' ∧ last = last' := by
  rcases mine with mine | mine <;> rcases theirs with theirs | theirs <;> rw [mine] at theirs <;>
    obtain ⟨same,tail⟩ := List.append_inj' theirs rfl
  · exact ⟨same,List.singleton_inj.mp tail⟩
  · exact absurd (List.singleton_inj.mp tail) filled
  · exact absurd (List.singleton_inj.mp tail).symm filled'
  · obtain ⟨own,ended⟩ := List.append_inj' same rfl
    exact ⟨own,List.singleton_inj.mp ended⟩

theorem Framed.placeBefore {before after more : List (List α)} {field first last end_ : List α} {middle : List (List α)}
    (framed : Framed (before ++ field :: after) first middle last) (tail : after = more ++ [end_] ∨ after = more ++ [end_] ++ [[]])
    (filled : end_ ≠ []) : end_ = last ∧ before ++ field :: more = first :: middle := by
  rcases framed.place with ⟨none,_,_⟩ | ⟨none,_,_⟩ | ⟨more',tail',whole⟩
  · rcases tail with tail | tail <;> simp [none] at tail
  · rcases tail with tail | tail <;> rcases none with none | none <;> rw [none] at tail
    · simp at tail
    · obtain ⟨_,ended⟩ := List.append_inj' (show [] ++ [[]] = more ++ [end_] from tail) rfl
      exact absurd (List.singleton_inj.mp ended).symm filled
    · simp at tail
    · have size := congrArg List.length tail
      simp at size
  · obtain ⟨rfl,rfl⟩ := sameEnd tail tail' filled framed.filled
    exact ⟨rfl,whole⟩

end KeenPbr.Fields
