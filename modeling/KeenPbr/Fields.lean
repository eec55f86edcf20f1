import Mathlib.Algebra.Order.Ring.Int
import Mathlib.Data.List.Basic
import Mathlib.Data.List.TakeWhile

/-! Fields of a separated line over any alphabet: cutting at a separator, stripping both ends, and
what a margin around the line does to its fields. -/
namespace KeenPbr.Fields
variable {α : Type} (sep blank : α → Bool)

def fields : List α → List (List α)
  | [] => [[]]
  | c :: rest =>
    if sep c then [] :: fields rest
    else
      match fields rest with
      | [] => [[c]]
      | field :: later => (c :: field) :: later

/- std::getline: a separator at the end opens no further field. -/
def lines (text : List α) : List (List α) :=
  match (fields sep text).getLast? with
  | some [] => (fields sep text).dropLast
  | _ => fields sep text

def strip (text : List α) : List α := ((text.dropWhile blank).reverse.dropWhile blank).reverse

def stripEnd (text : List α) : List α := (text.reverse.dropWhile blank).reverse

def entries (text : List α) : List (List α) := ((fields sep text).map (strip blank)).filter fun field => !field.isEmpty

def size (list : List (List α)) : Nat := (list.map List.length).sum

theorem fieldsCons (text : List α) : ∃ field later, fields sep text = field :: later := by
  cases text with
  | nil => exact ⟨[],[],rfl⟩
  | cons c rest =>
    rw [fields]
    split
    · exact ⟨[],_,rfl⟩
    · split
      · exact ⟨[c],[],rfl⟩
      · exact ⟨_,_,rfl⟩

theorem fieldsLead {lead : List α} (free : ∀ c ∈ lead, sep c = false) {text : List α} {field : List α} {later : List (List α)}
    (cut : fields sep text = field :: later) : fields sep (lead ++ text) = (lead ++ field) :: later := by
  induction lead with
  | nil => exact cut
  | cons c rest ih =>
    have own := ih fun d mem => free d (List.mem_cons_of_mem c mem)
    rw [List.cons_append,fields,free c List.mem_cons_self,own]
    rfl

theorem fieldsTrail {trail : List α} (free : ∀ c ∈ trail, sep c = false) (text : List α) :
    ∃ before field, fields sep text = before ++ [field] ∧ fields sep (text ++ trail) = before ++ [field ++ trail] := by
  induction text with
  | nil =>
    have own := fieldsLead sep free (rfl : fields sep [] = [] :: [])
    rw [List.append_nil] at own
    exact ⟨[],[],rfl,own⟩
  | cons c rest ih =>
    obtain ⟨before,field,cut,longer⟩ := ih
    rw [List.cons_append,fields,fields,cut,longer]
    cases separated : sep c with
    | true => exact ⟨[] :: before,field,rfl,rfl⟩
    | false =>
      cases before with
      | nil => exact ⟨[],c :: field,rfl,rfl⟩
      | cons first more => exact ⟨(c :: first) :: more,field,rfl,rfl⟩

theorem fieldsWhole {text : List α} (free : ∀ c ∈ text, sep c = false) : fields sep text = [text] := by
  have own := fieldsLead sep free (rfl : fields sep [] = [] :: [])
  rwa [List.append_nil] at own

theorem fieldsNext {lead : List α} (free : ∀ c ∈ lead, sep c = false) {c : α} (cut : sep c = true) (text : List α) :
    fields sep (lead ++ c :: text) = lead :: fields sep text := by
  have here : fields sep (c :: text) = [] :: fields sep text := by
    rw [fields,cut,if_pos rfl]
  have own := fieldsLead sep free here
  rwa [List.append_nil] at own

theorem fieldsJoined {c : α} (cut : sep c = true) {parts : List (List α)} (some : parts ≠ [])
    (free : ∀ part ∈ parts, ∀ d ∈ part, sep d = false) : fields sep ([c].intercalate parts) = parts := by
  induction parts with
  | nil => exact absurd rfl some
  | cons part rest ih =>
    cases rest with
    | nil =>
      rw [List.intercalate_singleton]
      exact fieldsWhole sep (free part List.mem_cons_self)
    | cons next later =>
      rw [List.intercalate_cons_cons,List.append_assoc,List.singleton_append,
        fieldsNext sep (free part List.mem_cons_self) cut,
        ih (List.cons_ne_nil _ _) fun other mem => free other (List.mem_cons_of_mem _ mem)]

theorem fieldsEnded {c : α} (cut : sep c = true) {parts : List (List α)} (free : ∀ part ∈ parts, ∀ d ∈ part, sep d = false) :
    fields sep (parts.flatMap fun part => part ++ [c]) = parts ++ [[]] := by
  induction parts with
  | nil => rfl
  | cons part rest ih =>
    rw [List.flatMap_cons,List.append_assoc,List.singleton_append,fieldsNext sep (free part List.mem_cons_self) cut,
      ih fun other mem => free other (List.mem_cons_of_mem _ mem),List.cons_append]

theorem memFields {text : List α} {c : α} (mem : c ∈ text) : sep c = true ∨ ∃ field ∈ fields sep text, c ∈ field := by
  induction text with
  | nil => cases mem
  | cons d rest ih =>
    obtain ⟨field,later,cut⟩ := fieldsCons sep rest
    rw [fields,cut]
    cases separated : sep d with
    | true =>
      cases List.mem_cons.mp mem with
      | inl same => exact Or.inl (same ▸ separated)
      | inr inside =>
        cases ih inside with
        | inl isSep => exact Or.inl isSep
        | inr held =>
          obtain ⟨field,listed,inField⟩ := held
          rw [cut] at listed
          exact Or.inr ⟨field,List.mem_cons_of_mem _ listed,inField⟩
    | false =>
      simp only [Bool.false_eq_true,if_false]
      cases List.mem_cons.mp mem with
      | inl same => exact Or.inr ⟨d :: field,List.mem_cons_self,same ▸ List.mem_cons_self⟩
      | inr inside =>
        cases ih inside with
        | inl isSep => exact Or.inl isSep
        | inr held =>
          obtain ⟨other,listed,inField⟩ := held
          rw [cut] at listed
          cases List.mem_cons.mp listed with
          | inl same =>
            subst same
            exact Or.inr ⟨d :: other,List.mem_cons_self,List.mem_cons_of_mem d inField⟩
          | inr more => exact Or.inr ⟨other,List.mem_cons_of_mem _ more,inField⟩

theorem fieldsMem {text field : List α} (listed : field ∈ fields sep text) {c : α} (mem : c ∈ field) :
    c ∈ text ∧ sep c = false := by
  induction text generalizing field with
  | nil =>
    cases List.mem_singleton.mp listed
    cases mem
  | cons d rest ih =>
    obtain ⟨first,later,cut⟩ := fieldsCons sep rest
    rw [fields,cut] at listed
    rw [cut] at ih
    cases separated : sep d with
    | true =>
      rw [separated,if_pos rfl] at listed
      cases List.mem_cons.mp listed with
      | inl same =>
        rw [same] at mem
        cases mem
      | inr more =>
        obtain ⟨inside,apart⟩ := ih more mem
        exact ⟨List.mem_cons_of_mem d inside,apart⟩
    | false =>
      rw [separated] at listed
      simp only [Bool.false_eq_true,if_false] at listed
      cases List.mem_cons.mp listed with
      | inl same =>
        rw [same] at mem
        cases List.mem_cons.mp mem with
        | inl here =>
          subst here
          exact ⟨List.mem_cons_self,separated⟩
        | inr inFirst =>
          obtain ⟨inside,apart⟩ := ih List.mem_cons_self inFirst
          exact ⟨List.mem_cons_of_mem d inside,apart⟩
      | inr more =>
        obtain ⟨inside,apart⟩ := ih (List.mem_cons_of_mem first more) mem
        exact ⟨List.mem_cons_of_mem d inside,apart⟩

variable {sep blank}

theorem keepFront {text : List α} {c : α} (front : text.head? = some c) (solid : blank c = false) :
    text.dropWhile blank = text := by
  cases text with
  | nil => cases front
  | cons d rest =>
    cases front
    exact List.dropWhile_cons_of_neg (by simp [solid])

theorem dropLead {lead text : List α} {c : α} (front : text.head? = some c) (solid : blank c = false) :
    (lead ++ text).dropWhile blank = lead.dropWhile blank ++ text := by
  rw [List.dropWhile_append,keepFront front solid]
  split
  · rename_i empty
    rw [List.isEmpty_iff.mp empty,List.nil_append]
  · rfl

theorem stripEndLead {lead text : List α} {c : α} (mem : c ∈ text) (solid : blank c = false) :
    stripEnd blank (lead ++ text) = lead ++ stripEnd blank text := by
  have kept : (text.reverse.dropWhile blank).isEmpty = false := by
    rw [List.isEmpty_eq_false_iff]
    intro none
    have every := List.dropWhile_eq_nil_iff.mp none c (List.mem_reverse.mpr mem)
    rw [solid] at every
    cases every
  rw [stripEnd,List.reverse_append,List.dropWhile_append,kept]
  simp [stripEnd]

theorem stripEndTrail {text trail : List α} {c : α} (back : text.getLast? = some c) (solid : blank c = false) :
    stripEnd blank (text ++ trail) = text ++ stripEnd blank trail := by
  have front : text.reverse.head? = some c := by rw [List.head?_reverse,back]
  rw [stripEnd,List.reverse_append,dropLead front solid,List.reverse_append,List.reverse_reverse]
  rfl

theorem stripEq (text : List α) : strip blank text = stripEnd blank (text.dropWhile blank) := rfl

theorem stripLead {lead text : List α} {c : α} (front : text.head? = some c) (solid : blank c = false) :
    strip blank (lead ++ text) = lead.dropWhile blank ++ strip blank text := by
  rw [stripEq,stripEq,dropLead front solid,stripEndLead (List.mem_of_head? front) solid,keepFront front solid]

theorem stripTrail {text trail : List α} {c : α} (back : text.getLast? = some c) (solid : blank c = false) :
    strip blank (text ++ trail) = strip blank text ++ stripEnd blank trail := by
  have kept : (text.dropWhile blank).getLast? = some c := by
    have cut : text.takeWhile blank ++ text.dropWhile blank = text := List.takeWhile_append_dropWhile
    have some_left : text.dropWhile blank ≠ [] := by
      intro none
      have every := List.dropWhile_eq_nil_iff.mp none c (List.mem_of_getLast? back)
      rw [solid] at every
      cases every
    have last : (text.takeWhile blank ++ text.dropWhile blank).getLast? = _ := List.getLast?_append
    rw [cut,back] at last
    cases ending : (text.dropWhile blank).getLast? with
    | none => exact absurd (List.getLast?_eq_none_iff.mp ending) some_left
    | some d =>
      rw [ending] at last
      exact last.symm
  have nonempty : (text.dropWhile blank).isEmpty = false := by
    rw [List.isEmpty_eq_false_iff]
    intro none
    rw [none] at kept
    cases kept
  have own : stripEnd blank (text.dropWhile blank) = text.dropWhile blank := by
    have same : stripEnd blank (text.dropWhile blank ++ []) = text.dropWhile blank ++ stripEnd blank [] := stripEndTrail kept solid
    simpa [stripEnd] using same
  rw [stripEq,List.dropWhile_append,nonempty]
  simp only [Bool.false_eq_true,if_false]
  rw [stripEndTrail kept solid,stripEq,own]

theorem firstField {text : List α} {c : α} (front : text.head? = some c) (apart : sep c = false) :
    ∃ field later, fields sep text = field :: later ∧ field.head? = some c := by
  cases text with
  | nil => cases front
  | cons d rest =>
    cases front
    obtain ⟨field,later,cut⟩ := fieldsCons sep rest
    rw [fields,cut,apart]
    exact ⟨c :: field,later,rfl,rfl⟩

theorem lastField {text : List α} {c : α} (back : text.getLast? = some c) (apart : sep c = false) :
    ∃ before field, fields sep text = before ++ [field] ∧ field.getLast? = some c := by
  obtain ⟨start,rfl⟩ : ∃ start, text = start ++ [c] := by
    obtain ⟨nonempty,last⟩ := List.getLast?_eq_some_iff.mp back
    exact ⟨nonempty,last⟩
  have free : ∀ d ∈ [c], sep d = false := by
    intro d mem
    rw [List.mem_singleton.mp mem,apart]
  obtain ⟨before,field,_,longer⟩ := fieldsTrail sep free start
  exact ⟨before,field ++ [c],longer,by simp⟩

theorem stripNonempty {text : List α} {c : α} (mem : c ∈ text) (solid : blank c = false) : (strip blank text).isEmpty = false := by
  have front : c ∈ text.dropWhile blank := by
    have cut : text.takeWhile blank ++ text.dropWhile blank = text := List.takeWhile_append_dropWhile
    rw [← cut,List.mem_append] at mem
    cases mem with
    | inr kept => exact kept
    | inl dropped =>
      have isBlank := List.mem_takeWhile_imp dropped
      rw [solid] at isBlank
      cases isBlank
  rw [List.isEmpty_eq_false_iff,stripEq,stripEnd]
  intro none
  have every := List.dropWhile_eq_nil_iff.mp (List.reverse_eq_nil_iff.mp none) c (List.mem_reverse.mpr front)
  rw [solid] at every
  cases every

theorem entriesLead {lead text : List α} {c : α} (free : ∀ d ∈ lead, sep d = false) (front : text.head? = some c)
    (apart : sep c = false) (solid : blank c = false) : ∃ entry later, entries sep blank text = entry :: later ∧
      entries sep blank (lead ++ text) = (lead.dropWhile blank ++ entry) :: later := by
  obtain ⟨field,later,cut,start⟩ := firstField front apart
  have kept := stripNonempty (List.mem_of_head? start) solid
  have own : (strip blank (lead ++ field)).isEmpty = false :=
    stripNonempty (List.mem_append_right _ (List.mem_of_head? start)) solid
  refine ⟨strip blank field,((later.map (strip blank)).filter fun field => !field.isEmpty),?_,?_⟩
  · simp [entries,cut,kept]
  · rw [entries,fieldsLead sep free cut,List.map_cons,List.filter_cons_of_pos (by simp [own]),stripLead start solid]

theorem entriesTrail {text trail : List α} {c : α} (free : ∀ d ∈ trail, sep d = false) (back : text.getLast? = some c)
    (apart : sep c = false) (solid : blank c = false) : ∃ before entry, entries sep blank text = before ++ [entry] ∧
      entries sep blank (text ++ trail) = before ++ [entry ++ stripEnd blank trail] := by
  obtain ⟨before,field,cut,ends⟩ := lastField back apart
  obtain ⟨before',field',cut',longer⟩ := fieldsTrail sep free text
  rw [cut] at cut'
  obtain ⟨sameBefore,sameField⟩ := List.append_inj' cut' rfl
  cases sameField
  subst sameBefore
  have kept := stripNonempty (List.mem_of_getLast? ends) solid
  have own : (strip blank (field ++ trail)).isEmpty = false :=
    stripNonempty (List.mem_append_left _ (List.mem_of_getLast? ends)) solid
  refine ⟨((before.map (strip blank)).filter fun field => !field.isEmpty),strip blank field,?_,?_⟩
  · simp [entries,cut,kept]
  · rw [← stripTrail ends solid]
    simp [entries,longer,own]

theorem sizeAppend (list more : List (List α)) : size (list ++ more) = size list + size more := by
  simp [size]

theorem stripEndNil {text : List α} : stripEnd blank text = [] ↔ ∀ c ∈ text, blank c = true := by
  rw [stripEnd,List.reverse_eq_nil_iff,List.dropWhile_eq_nil_iff]
  simp only [List.mem_reverse]

theorem entriesMargin {text trail : List α} {c : α} (free : ∀ d ∈ trail, sep d = false) (back : text.getLast? = some c)
    (apart : sep c = false) (solid : blank c = false) :
    entries sep blank (text ++ trail) = entries sep blank text ↔ ∀ e ∈ trail, blank e = true := by
  obtain ⟨before,last,cut,trailed⟩ := entriesTrail free back apart solid
  rw [trailed,cut,← stripEndNil]
  constructor
  · intro same
    have total := congrArg size same
    simp only [sizeAppend] at total
    simp only [size,List.map_cons,List.sum_cons,List.map_nil,List.sum_nil,List.length_append] at total
    exact List.eq_nil_of_length_eq_zero (by omega)
  · intro none
    rw [none,List.append_nil]

theorem entriesMargins {lead text trail : List α} {c d : α} (leadFree : ∀ e ∈ lead, sep e = false)
    (trailFree : ∀ e ∈ trail, sep e = false) (front : text.head? = some c) (back : text.getLast? = some d)
    (apart : sep c = false ∧ sep d = false) (solid : blank c = false ∧ blank d = false) :
    entries sep blank (lead ++ (text ++ trail)) = entries sep blank text ↔
      (∀ e ∈ lead, blank e = true) ∧ ∀ e ∈ trail, blank e = true := by
  have longFront : (text ++ trail).head? = some c := by rw [List.head?_append,front,Option.some_or]
  obtain ⟨before,last,cut,trailed⟩ := entriesTrail trailFree back apart.2 solid.2
  obtain ⟨first,later,split,led⟩ := entriesLead leadFree longFront apart.1 solid.1
  rw [trailed] at split
  rw [led,cut]
  constructor
  · intro same
    -- the two margins can only add to the total length
    have total := congrArg size same
    have parts := congrArg size split
    simp only [size,List.map_cons,List.sum_cons,List.map_append,List.sum_append,List.map_nil,List.sum_nil,List.length_append]
      at total parts
    have leadNil : lead.dropWhile blank = [] := List.eq_nil_of_length_eq_zero (by omega)
    have trailNil : stripEnd blank trail = [] := List.eq_nil_of_length_eq_zero (by omega)
    exact ⟨List.dropWhile_eq_nil_iff.mp leadNil,stripEndNil.mp trailNil⟩
  · rintro ⟨leadBlank,trailBlank⟩
    rw [List.dropWhile_eq_nil_iff.mpr leadBlank,List.nil_append,← split,stripEndNil.mpr trailBlank,List.append_nil]

theorem entriesLines (text : List α) :
    ((lines sep text).map (strip blank)).filter (fun field => !field.isEmpty) = entries sep blank text := by
  unfold lines
  split
  · rename_i last
    have cut : (fields sep text).dropLast ++ [[]] = fields sep text := List.dropLast_append_getLast? [] last
    rw [entries]
    conv => rhs; rw [← cut]
    simp [strip]
  · rfl

theorem stripBack {text : List α} {c : α} (back : (strip blank text).getLast? = some c) : blank c = false := by
  rw [strip,List.getLast?_reverse] at back
  have stopped := List.head?_dropWhile_not blank (text.dropWhile blank).reverse
  rw [back] at stopped
  exact stopped

theorem stripFront {text : List α} {c : α} (front : (strip blank text).head? = some c) : blank c = false := by
  have cut : ((text.dropWhile blank).reverse.takeWhile blank ++ (text.dropWhile blank).reverse.dropWhile blank) =
      (text.dropWhile blank).reverse := List.takeWhile_append_dropWhile
  have whole : text.dropWhile blank = strip blank text ++ ((text.dropWhile blank).reverse.takeWhile blank).reverse := by
    rw [strip,← List.reverse_append,cut,List.reverse_reverse]
  have stopped := List.head?_dropWhile_not blank text
  rw [whole,List.head?_append,front] at stopped
  exact stopped

theorem stripNil {text : List α} : strip blank text = [] ↔ ∀ c ∈ text, blank c = true := by
  rw [stripEq,stripEndNil]
  constructor
  · intro every c mem
    have cut : text.takeWhile blank ++ text.dropWhile blank = text := List.takeWhile_append_dropWhile
    rw [← cut,List.mem_append] at mem
    cases mem with
    | inl front => exact List.mem_takeWhile_imp front
    | inr back => exact every c back
  · intro every c mem
    exact every c (List.dropWhile_subset _ mem)

theorem stripMargins {text : List α} (nonempty : strip blank text ≠ []) :
    text = text.takeWhile blank ++ (strip blank text ++ (text.reverse.takeWhile blank).reverse) := by
  have cut : text.takeWhile blank ++ text.dropWhile blank = text := List.takeWhile_append_dropWhile
  have reversed : text.reverse = (text.dropWhile blank).reverse ++ (text.takeWhile blank).reverse := by
    rw [← List.reverse_append,cut]
  have short : (((text.dropWhile blank).reverse).takeWhile blank).length ≠ ((text.dropWhile blank).reverse).length := by
    intro all
    have whole : ((text.dropWhile blank).reverse).takeWhile blank = (text.dropWhile blank).reverse :=
      (List.takeWhile_prefix blank).eq_of_length all
    have every := List.takeWhile_eq_self_iff.mp whole
    exact nonempty (stripEndNil.mpr fun c mem => every c (List.mem_reverse.mpr mem))
  have same : text.reverse.takeWhile blank = (text.dropWhile blank).reverse.takeWhile blank := by
    rw [reversed,List.takeWhile_append,if_neg short]
  have back : (text.dropWhile blank).reverse.takeWhile blank ++ (text.dropWhile blank).reverse.dropWhile blank =
      (text.dropWhile blank).reverse := List.takeWhile_append_dropWhile
  rw [same,strip,← List.reverse_append,back,List.reverse_reverse,cut]

section Cut
variable [DecidableEq α] {c : α} {text front back : List α}

theorem cutPassed (absent : c ∉ text) : ∀ d ∈ text, (d != c) = true :=
  fun _ mem => bne_iff_ne.mpr fun same => absent (same ▸ mem)

theorem cutFront (absent : c ∉ front) : (front ++ c :: back).takeWhile (· != c) = front := by
  rw [List.takeWhile_append_of_pos (cutPassed absent)]
  simp

theorem cutRest (absent : c ∉ front) : (front ++ c :: back).dropWhile (· != c) = c :: back := by
  rw [List.dropWhile_append_of_pos (cutPassed absent)]
  simp

theorem cutNone (absent : c ∉ text) : text.takeWhile (· != c) = text ∧ text.dropWhile (· != c) = [] :=
  ⟨List.takeWhile_eq_self_iff.mpr (cutPassed absent),List.dropWhile_eq_nil_iff.mpr (cutPassed absent)⟩

theorem cutFree : c ∉ text.takeWhile (· != c) := fun inside => absurd (List.mem_takeWhile_imp inside) (by simp)

theorem cutTail {d : α} (rest : text.dropWhile (· != c) = d :: back) : d = c ∧ text = text.takeWhile (· != c) ++ c :: back := by
  have stops := List.head?_dropWhile_not (· != c) text
  have whole : text.takeWhile (· != c) ++ text.dropWhile (· != c) = text := List.takeWhile_append_dropWhile
  rw [rest] at stops whole
  have same : d = c := by simpa using stops
  exact ⟨same,(same ▸ whole).symm⟩

theorem cutCases (c : α) (text : List α) : (c ∉ text ∧ text.dropWhile (· != c) = []) ∨
    ∃ back, text.dropWhile (· != c) = c :: back ∧ text = text.takeWhile (· != c) ++ c :: back := by
  cases rest : text.dropWhile (· != c) with
  | nil => exact .inl ⟨fun mem => absurd (List.dropWhile_eq_nil_iff.mp rest c mem) (by simp),rfl⟩
  | cons d back =>
    obtain ⟨rfl,whole⟩ := cutTail rest
    exact .inr ⟨back,rfl,whole⟩

end Cut

end KeenPbr.Fields
