import Mathlib.Algebra.Order.Ring.Int
import Mathlib.Data.List.Basic

/-! Straight programs over named files that may stop after any step. A step that fails either is
passed over, as a removal whose error is ignored, or ends the program, so it has no outcome here.
What is known of some files before a program is carried through its steps. -/
namespace FileSteps
variable {φ ω : Type} [DecidableEq φ]

inductive Node (ω : Type) where
  | file (content : ω)
  | directory
  | special
  deriving DecidableEq, Repr

abbrev Files (φ ω : Type) := φ → Option (Node ω)

inductive Step (φ ω : Type) where
  | remove (name : φ)
  | link (source target : φ)
  | rename (source target : φ)
  | write (name : φ) (content : ω)
  | sync
  deriving DecidableEq, Repr

def place (files : Files φ ω) (name : φ) (node : Option (Node ω)) : Files φ ω := fun other => if other = name then node else files other

/- One step. A removal may fail unnoticed; content is written beside the file and renamed onto it, so a
link and the file it was made from never change together. -/
def Does : Step φ ω → Files φ ω → Files φ ω → Prop
  | .remove name,files,next => next = files ∨ next = place files name none
  | .link source target,files,next => ∃ node, files source = some node ∧ node ≠ .directory ∧ files target = none ∧
    next = place files target (some node)
  | .rename source target,files,next =>
    ∃ node, files source = some node ∧ source ≠ target ∧ files target ≠ some .directory ∧
      next = place (place files source none) target (some node)
  | .write name content,files,next => files name ≠ some .directory ∧ next = place files name (some (.file content))
  | .sync,files,next => next = files

inductive Stops : List (Step φ ω) → Files φ ω → Files φ ω → Prop where
  | here {program : List (Step φ ω)} {files : Files φ ω} : Stops program files files
  | later {step : Step φ ω} {rest : List (Step φ ω)} {files next last : Files φ ω} (does : Does step files next)
    (stops : Stops rest next last) :
      Stops (step :: rest) files last

inductive Ends : List (Step φ ω) → Files φ ω → Files φ ω → Prop where
  | done {files : Files φ ω} : Ends [] files files
  | step {step : Step φ ω} {rest : List (Step φ ω)} {files next last : Files φ ω} (does : Does step files next)
    (ends : Ends rest next last) :
      Ends (step :: rest) files last

section Invariants
variable {program : List (Step φ ω)} {files last : Files φ ω} {inv : Files φ ω → Prop}

theorem Stops.keeps (each : ∀ step ∈ program, ∀ files next, Does step files next → inv files → inv next) (stops : Stops program files last)
    (start : inv files) : inv last := by
  induction stops with
  | here => exact start
  | later does stops ih =>
    exact ih (fun step mem => each step (List.mem_cons_of_mem _ mem)) (each _ List.mem_cons_self _ _ does start)

theorem stopsAppend {first second : List (Step φ ω)} (stops : Stops (first ++ second) files last) :
    Stops first files last ∨ ∃ middle, Ends first files middle ∧ Stops second middle last := by
  induction first generalizing files with
  | nil => exact .inr ⟨files,.done,stops⟩
  | cons step rest ih =>
    cases stops with
    | here => exact .inl .here
    | later does stops =>
      rcases ih stops with inside | ⟨middle,ends,beyond⟩
      · exact .inl (.later does inside)
      · exact .inr ⟨middle,.step does ends,beyond⟩

theorem endsAppend {first second : List (Step φ ω)} (ends : Ends (first ++ second) files last) :
    ∃ middle, Ends first files middle ∧ Ends second middle last := by
  induction first generalizing files with
  | nil => exact ⟨files,.done,ends⟩
  | cons step rest ih =>
    cases ends with
    | step does ends =>
      obtain ⟨middle,inside,beyond⟩ := ih ends
      exact ⟨middle,.step does inside,beyond⟩

end Invariants

section Facts

abbrev Facts (φ ω : Type) := φ → Option (Option (Node ω))

def Holds (facts : Facts φ ω) (files : Files φ ω) : Prop := ∀ name node, facts name = some node → files name = node

def learn (facts : Facts φ ω) (name : φ) (known : Option (Option (Node ω))) : Facts φ ω := fun other => if other = name
    then known else facts other

def after (facts : Facts φ ω) : Step φ ω → Facts φ ω
  | .remove name => learn facts name (if (facts name).any Option.isNone then some none else none)
  | .link source target => learn facts target (facts source)
  | .rename source target => learn (learn facts source (some none)) target (facts source)
  | .write name content => learn facts name (some (some (.file content)))
  | .sync => facts

variable {facts : Facts φ ω} {files next : Files φ ω}

theorem holdsSet {name : φ} {known : Option (Option (Node ω))} {node : Option (Node ω)} (holds : Holds facts files)
    (own : ∀ given, known = some given → node = given) : Holds (learn facts name known) (place files name node) := by
  intro other given told
  unfold learn at told
  unfold place
  split at told
  · rename_i same
    rw [if_pos same]
    exact own given told
  · rename_i different
    rw [if_neg different]
    exact holds other given told

theorem holdsForget {name : φ} (holds : Holds facts files) : Holds (learn facts name none) files := by
  intro other given told
  unfold learn at told
  split at told
  · cases told
  · exact holds other given told

theorem holdsRemove {name : φ} (holds : Holds facts files) (gone : next = files ∨ next = place files name none) :
    Holds (after facts (.remove name)) next := by
  change Holds (learn facts name (if (facts name).any Option.isNone then some none else none)) next
  by_cases empty : (facts name).any Option.isNone = true
  · rw [if_pos empty]
    have absent : files name = none := by
      cases known : facts name with
      | none =>
        rw [known] at empty
        cases empty
      | some node =>
        rw [known] at empty
        rw [holds name node known]
        exact Option.isNone_iff_eq_none.mp empty
    have same : place files name none = files := by
      funext other
      unfold place
      split
      · rename_i own
        rw [own,absent]
      · rfl
    have kept : next = place files name none := gone.elim (fun unchanged => unchanged.trans same.symm) id
    rw [kept]
    exact holdsSet holds fun given told => Option.some.inj told
  · rw [if_neg empty]
    rcases gone with rfl | rfl
    · exact holdsForget holds
    · exact holdsSet holds fun given told => by cases told

theorem holdsAfter {step : Step φ ω} (does : Does step files next) (holds : Holds facts files) : Holds (after facts step) next := by
  cases step with
  | remove name => exact holdsRemove holds does
  | link source target =>
    obtain ⟨node,found,_,_,rfl⟩ := does
    exact holdsSet holds fun given told => found ▸ holds source given told
  | rename source target =>
    obtain ⟨node,found,_,_,rfl⟩ := does
    refine holdsSet (holdsSet holds fun given told => Option.some.inj told) fun given told => ?_
    rw [← found]
    exact holds source given told
  | write name content =>
    obtain ⟨_,rfl⟩ := does
    exact holdsSet holds fun given told => Option.some.inj told
  | sync =>
    cases does
    exact holds

theorem holdsEnd {program : List (Step φ ω)} {last : Files φ ω} (ends : Ends program files last) (holds : Holds facts files) :
    Holds (program.foldl after facts) last := by
  induction ends generalizing facts with
  | done => exact holds
  | step does ends ih => exact ih (holdsAfter does holds)

def Outline (inv : Files φ ω → Prop) (facts : Facts φ ω) : List (Step φ ω) → Prop
  | [] => ∀ files, Holds facts files → inv files
  | step :: rest => (∀ files, Holds facts files → inv files) ∧ Outline inv (after facts step) rest

theorem outlineStops {inv : Files φ ω → Prop} {program : List (Step φ ω)} {last : Files φ ω} (outline : Outline inv facts program)
    (stops : Stops program files last) (holds : Holds facts files) : inv last := by
  induction stops generalizing facts with
  | @here program files =>
    cases program with
    | nil => exact outline files holds
    | cons step rest => exact outline.1 files holds
  | later does stops ih => exact ih outline.2 (holdsAfter does holds)

omit [DecidableEq φ] in
theorem holdsWeaker {weak : Facts φ ω} (weaker : ∀ name, weak name = none ∨ weak name = facts name) (holds : Holds facts files) :
    Holds weak files := by
  intro name node told
  rcases weaker name with unknown | same
  · rw [unknown] at told
    cases told
  · exact holds name node (same ▸ told)

end Facts

end FileSteps
