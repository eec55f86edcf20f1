import KeenPbr.Tables

/-! A directory whose changes reach the disk only when it is synced. Until then the loss of power keeps
any of them and drops the others, whatever their order was. -/
namespace Durable
open Tables
variable {ν ω : Type} [DecidableEq ν]

inductive Change (ν ω : Type) where
  | put (name : ν) (file : ω)
  | drop (name : ν)
  | move (source target : ν) (file : ω)
  deriving DecidableEq, Repr

def Change.on (name : ν) : Change ν ω → Option (Option ω)
  | .put target file => if name = target then some (some file) else none
  | .drop target => if name = target then some none else none
  | .move source target file => if name = target then some (some file) else if name = source then some none else none

def Change.apply (directory : Table ν ω) : Change ν ω → Table ν ω
  | .put name file => Tables.put directory name file
  | .drop name => Tables.drop directory name
  | .move source target file => Tables.put (Tables.drop directory source) target file

structure Disk (ν ω : Type) where
  durable : Table ν ω := []
  unsynced : List (Change ν ω) := []

variable (disk : Disk ν ω)

def Disk.visible : Table ν ω := disk.unsynced.foldl Change.apply disk.durable

def Disk.change (change : Change ν ω) : Disk ν ω := { disk with unsynced := disk.unsynced ++ [change] }

def Disk.sync : Disk ν ω := ⟨disk.visible,[]⟩

def Disk.lose (keep : List Bool) : Disk ν ω := ⟨(((disk.unsynced.zip keep).filter (·.2)).map (·.1)).foldl Change.apply disk.durable,[]⟩

def Disk.Possible (name : ν) (file : Option ω) : Prop :=
  file = find disk.durable name ∨ ∃ change ∈ disk.unsynced, change.on name = some file

variable {disk} {name : ν} {file : Option ω} {change : Change ν ω}

theorem findApply (directory : Table ν ω) : find (change.apply directory) name = (change.on name).getD (find directory name) := by
  cases change with
  | put target other =>
    rw [Change.apply,findPut,Change.on]
    split <;> rfl
  | drop target =>
    rw [Change.apply,Change.on]
    split
    · rename_i same
      rw [same,findDropped]
      rfl
    · rename_i differs
      rw [findDrop differs]
      rfl
  | move source target other =>
    rw [Change.apply,findPut,Change.on]
    split
    · rfl
    · split
      · rename_i same
        rw [same,findDropped]
        rfl
      · rename_i differs
        rw [findDrop differs]
        rfl

theorem findChanges (directory : Table ν ω) (changes : List (Change ν ω)) :
    find (changes.foldl Change.apply directory) name = find directory name ∨
      ∃ change ∈ changes, change.on name = some (find (changes.foldl Change.apply directory) name) := by
  induction changes generalizing directory with
  | nil => exact .inl rfl
  | cons change rest ih =>
    rw [List.foldl_cons]
    rcases ih (change.apply directory) with same | ⟨later,mem,made⟩
    · cases effect : change.on name with
      | none =>
        refine .inl (same.trans ?_)
        rw [findApply,effect]
        rfl
      | some file =>
        refine .inr ⟨change,List.mem_cons_self ..,?_⟩
        rw [same,findApply,effect]
        rfl
    · exact .inr ⟨later,List.mem_cons_of_mem _ mem,made⟩

theorem possibleVisible : disk.Possible name (find disk.visible name) := findChanges disk.durable disk.unsynced

theorem visibleChange : find (disk.change change).visible name = (change.on name).getD (find disk.visible name) := by
  rw [Disk.visible,Disk.change]
  simp only [List.foldl_append,List.foldl_cons,List.foldl_nil]
  exact findApply _

theorem possibleChange (possible : (disk.change change).Possible name file) : disk.Possible name file ∨ change.on name = some file := by
  rcases possible with durable | ⟨other,mem,made⟩
  · exact .inl (.inl durable)
  · rcases List.mem_append.mp mem with old | new
    · exact .inl (.inr ⟨other,old,made⟩)
    · cases List.mem_singleton.mp new
      exact .inr made

theorem possibleSync (possible : disk.sync.Possible name file) : file = find disk.visible name := by
  rcases possible with durable | ⟨change,mem,-⟩
  · exact durable
  · cases mem

theorem possibleLose {keep : List Bool} (possible : (disk.lose keep).Possible name file) : disk.Possible name file := by
  rcases possible with durable | ⟨change,mem,-⟩
  · rw [durable]
    rcases findChanges disk.durable (((disk.unsynced.zip keep).filter (·.2)).map (·.1)) with same | ⟨change,mem,made⟩
    · exact .inl same
    · obtain ⟨⟨kept,mark⟩,marked,rfl⟩ := List.mem_map.mp mem
      exact .inr ⟨kept,(List.of_mem_zip (List.mem_filter.mp marked).1).1,made⟩
  · cases mem

theorem possibleSettled (settled : disk.unsynced = []) (possible : disk.Possible name file) : file = find disk.visible name := by
  rw [Disk.visible,settled]
  rcases possible with durable | ⟨change,mem,-⟩
  · exact durable
  · rw [settled] at mem
    cases mem

end Durable
