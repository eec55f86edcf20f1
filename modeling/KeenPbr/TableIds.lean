import KeenPbr.Config

/-! The routing table ids of routing_state.hpp and safe_table_id. The loop counts free ids from
table_start upwards in 32-bit arithmetic, so past the last free id it goes on from the first. -/
namespace KeenPbr

def isReservedTable (id : UInt32) : Bool :=
  id == 0 || id == 128 || (250 ≤ id && id ≤ 260) || 32000 ≤ id

theorem oneIsFree : isReservedTable 1 = false := by decide

def stepsToOne (id : UInt32) : Nat := (1 - id).toNat

theorem stepsToOneReserved {id : UInt32} (reserved : isReservedTable id = true) : stepsToOne (id + 1) < stepsToOne id := by
  have differs : id ≠ 1 := by
    intro same
    rw [same,oneIsFree] at reserved
    cases reserved
  have apart : id.toNat ≠ 1 := fun same => differs (UInt32.toNat_inj.mp same)
  have bound := id.toNat_lt
  simp only [stepsToOne,UInt32.toNat_sub,UInt32.toNat_add,UInt32.reduceToNat]
  omega

theorem countLeft {offset count : UInt32} (more : count ≠ offset) : (offset - (count + 1)).toNat < (offset - count).toNat := by
  have apart : count.toNat ≠ offset.toNat := fun same => more (UInt32.toNat_inj.mp same)
  have bound := count.toNat_lt
  have bound' := offset.toNat_lt
  simp only [UInt32.toNat_sub,UInt32.toNat_add,UInt32.reduceToNat]
  omega

/- The loop of safe_table_id. -/
def safeTableIdFrom (offset id count : UInt32) : UInt32 :=
  if reserved : isReservedTable id = true then safeTableIdFrom offset (id + 1) count
  else if found : count = offset then id
  else safeTableIdFrom offset (id + 1) (count + 1)
termination_by ((offset - count).toNat,stepsToOne id)
decreasing_by
  · exact Prod.Lex.right _ (stepsToOneReserved reserved)
  · exact Prod.Lex.left _ _ (countLeft found)

def safeTableId (tableStart offset : UInt32) : UInt32 := safeTableIdFrom offset tableStart 0

def nextFree (id : UInt32) : UInt32 :=
  if id = 0 ∨ 32000 ≤ id then 1 else if id = 128 then 129 else if 250 ≤ id ∧ id ≤ 260 then 261 else id

theorem reservedIff (id : UInt32) : isReservedTable id = true ↔
    id.toNat = 0 ∨ id.toNat = 128 ∨ 250 ≤ id.toNat ∧ id.toNat ≤ 260 ∨ 32000 ≤ id.toNat := by
  simp only [isReservedTable,Bool.or_eq_true,Bool.and_eq_true,beq_iff_eq,decide_eq_true_eq,← UInt32.toNat_inj,
    UInt32.le_iff_toNat_le,UInt32.reduceToNat,or_assoc]

theorem freeIff (id : UInt32) : isReservedTable id = false ↔
    1 ≤ id.toNat ∧ id.toNat < 32000 ∧ id.toNat ≠ 128 ∧ (id.toNat < 250 ∨ 260 < id.toNat) := by
  rw [← Bool.not_eq_true,reservedIff]
  omega

theorem nextFreeNat (id : UInt32) : (nextFree id).toNat =
    if id.toNat = 0 ∨ 32000 ≤ id.toNat then 1 else if id.toNat = 128 then 129
    else if 250 ≤ id.toNat ∧ id.toNat ≤ 260 then 261 else id.toNat := by
  simp only [nextFree,← UInt32.toNat_inj,UInt32.le_iff_toNat_le,UInt32.reduceToNat]
  split
  · rfl
  · split
    · rfl
    · split <;> rfl

theorem nextFreeFree (id : UInt32) : isReservedTable (nextFree id) = false := by
  rw [freeIff,nextFreeNat]
  split_ifs <;> omega

theorem nextFreeOfFree {id : UInt32} (free : isReservedTable id = false) : nextFree id = id := by
  rw [freeIff] at free
  rw [← UInt32.toNat_inj,nextFreeNat,if_neg (by omega),if_neg (by omega),if_neg (by omega)]

theorem nextFreeReserved {id : UInt32} (reserved : isReservedTable id = true) : nextFree (id + 1) = nextFree id := by
  rw [reservedIff] at reserved
  have bound := id.toNat_lt
  have after : (id + 1).toNat = (id.toNat + 1) % 2 ^ 32 := UInt32.toNat_add id 1
  rw [← UInt32.toNat_inj,nextFreeNat,nextFreeNat,after]
  split_ifs <;> omega

def nthFree (id : UInt32) : Nat → UInt32
  | 0 => nextFree id
  | n + 1 => nextFree (nthFree id n + 1)

theorem nthFreeFree (id : UInt32) (n : Nat) : isReservedTable (nthFree id n) = false := by
  cases n with
  | zero => exact nextFreeFree id
  | succ n => exact nextFreeFree _

theorem nthFreeShift (id : UInt32) (n : Nat) : nthFree (nextFree id + 1) n = nthFree id (n + 1) := by
  induction n with
  | zero => rfl
  | succ n ih =>
    rw [nthFree,ih]
    rfl

theorem safeTableIdFromEq (offset id count : UInt32) :
    safeTableIdFrom offset id count = nthFree id (offset - count).toNat := by
  fun_induction safeTableIdFrom offset id count with
  | case1 id count reserved ih =>
    have start : ∀ n, nthFree (id + 1) n = nthFree id n := by
      intro n
      induction n with
      | zero => exact nextFreeReserved reserved
      | succ n ih => rw [nthFree,nthFree,ih]
    rw [ih,start]
  | case2 id reserved =>
    have free : isReservedTable id = false := by simpa using reserved
    rw [UInt32.sub_self]
    exact (nextFreeOfFree free).symm
  | case3 id count reserved more ih =>
    have free : isReservedTable id = false := by simpa using reserved
    have left : (offset - count).toNat = (offset - (count + 1)).toNat + 1 := by
      have apart : count.toNat ≠ offset.toNat := fun same => more (UInt32.toNat_inj.mp same)
      have bound := count.toNat_lt
      have bound' := offset.toNat_lt
      simp only [UInt32.toNat_sub,UInt32.toNat_add,UInt32.reduceToNat]
      omega
    rw [ih,left,← nthFreeShift,nextFreeOfFree free]

theorem safeTableIdEq (tableStart offset : UInt32) : safeTableId tableStart offset = nthFree tableStart offset.toNat := by
  rw [safeTableId,safeTableIdFromEq,UInt32.sub_zero]

theorem safeTableIdFree (tableStart offset : UInt32) : isReservedTable (safeTableId tableStart offset) = false := by
  rw [safeTableIdEq]
  exact nthFreeFree tableStart _

def tableRank (id : UInt32) : Nat :=
  id.toNat - 1 - (if 128 < id.toNat then 1 else 0) - (if 260 < id.toNat then 11 else 0)

theorem tableRankLt {id : UInt32} (free : isReservedTable id = false) : tableRank id < 31987 := by
  rw [freeIff] at free
  unfold tableRank
  split_ifs <;> omega

theorem tableRankLtIff {x y : UInt32} (freeX : isReservedTable x = false) (freeY : isReservedTable y = false) :
    tableRank x < tableRank y ↔ x < y := by
  rw [freeIff] at freeX freeY
  rw [UInt32.lt_iff_toNat_lt]
  unfold tableRank
  split_ifs <;> omega

theorem tableRankNext {id : UInt32} (free : isReservedTable id = false) :
    tableRank (nextFree (id + 1)) = (tableRank id + 1) % 31987 := by
  rw [freeIff] at free
  have after : (id + 1).toNat = id.toNat + 1 := by
    rw [UInt32.toNat_add]
    simp only [UInt32.reduceToNat]
    omega
  by_cases last : id.toNat = 31999
  · -- the id after the last free one is the first
    simp [tableRank,nextFreeNat,after,last]
  · have small : tableRank id + 1 < 31987 := by
      unfold tableRank
      split_ifs <;> omega
    rw [Nat.mod_eq_of_lt small]
    unfold tableRank
    rw [nextFreeNat,after,if_neg (by omega : ¬(id.toNat + 1 = 0 ∨ 32000 ≤ id.toNat + 1))]
    split_ifs <;> omega

theorem tableRankNth (id : UInt32) (n : Nat) : tableRank (nthFree id n) = (tableRank (nextFree id) + n) % 31987 := by
  induction n with
  | zero =>
    have bound := tableRankLt (nextFreeFree id)
    rw [nthFree]
    omega
  | succ n ih =>
    rw [nthFree,tableRankNext (nthFreeFree id n),ih]
    omega

end KeenPbr
