import Mathlib.Data.Nat.Factorization.Basic
import KeenPbr.Fwmark

/-! The values behind the mask's checks: the lowest bit is a power of two, the mask a row of full
nibbles over it, and the marks a run of multiples that stays inside. -/
namespace KeenPbr

theorem andComplement {k n : Nat} (small : k < 2 ^ n) : k &&& (2 ^ n - (k + 1)) = 0 := by
  apply Nat.eq_of_testBit_eq
  intro i
  rw [Nat.testBit_and,Nat.testBit_two_pow_sub_succ small,Nat.zero_testBit]
  cases k.testBit i <;> simp

theorem andOdd (p q : Nat) : (2 * p + 1) &&& (2 * q + 1) = 2 * (p &&& q) + 1 := by
  have half : ((2 * p + 1) &&& (2 * q + 1)) / 2 = p &&& q := by
    rw [Nat.and_div_two]
    congr 1 <;> omega
  have odd : ((2 * p + 1) &&& (2 * q + 1)) % 2 = 1 := by
    have first := Nat.testBit_and (2 * p + 1) (2 * q + 1) 0
    simp only [Nat.testBit_zero,Nat.mul_add_mod,Nat.reduceMod,decide_true,Bool.and_self,decide_eq_true_eq] at first
    exact first
  omega

theorem lowestBitPower {mask : UInt32} (nonzero : mask ≠ 0) :
    ∃ a ≤ 31, (lowestBit mask).toNat = 2 ^ a ∧ 2 ^ a ∣ mask.toNat := by
  have positive : mask.toNat ≠ 0 := fun zero => nonzero (UInt32.toNat_inj.mp zero)
  obtain ⟨a,m,odd,value⟩ := Nat.exists_eq_two_pow_mul_odd positive
  obtain ⟨k,rfl⟩ := odd
  have bound := mask.toNat_lt
  have small : a ≤ 31 := by
    by_contra large
    have pow : 2 ^ 32 ≤ 2 ^ a := Nat.pow_le_pow_right (by omega) (by omega)
    have : 2 ^ a * 1 ≤ 2 ^ a * (2 * k + 1) := Nat.mul_le_mul_left _ (by omega)
    omega
  refine ⟨a,small,?_,⟨_,value⟩⟩
  obtain ⟨b,rest⟩ : ∃ b, a + b = 31 := ⟨31 - a,by omega⟩
  have whole : 2 ^ 32 = 2 ^ a * (2 * 2 ^ b) := by
    rw [← Nat.pow_succ',← Nat.pow_add]
    congr 1
    omega
  have inside : k < 2 ^ b := by
    have : 2 ^ a * (2 * k + 1) < 2 ^ a * (2 * 2 ^ b) := by omega
    have := Nat.lt_of_mul_lt_mul_left this
    omega
  have complement : (~~~mask + 1).toNat = 2 ^ a * (2 * (2 ^ b - (k + 1)) + 1) := by
    have negated : (~~~mask + 1).toNat = 2 ^ 32 - mask.toNat := by
      rw [UInt32.toNat_add,UInt32.toNat_not]
      simp only [UInt32.reduceToNat,UInt32.size]
      omega
    have parts : 2 * 2 ^ b - (2 * k + 1) = 2 * (2 ^ b - (k + 1)) + 1 := by omega
    rw [negated,value,whole,← Nat.mul_sub,parts]
  rw [lowestBit,UInt32.toNat_and,complement,value,Nat.mul_comm (2 ^ a),Nat.mul_comm (2 ^ a),← Nat.shiftLeft_eq,
    ← Nat.shiftLeft_eq,← Nat.shiftLeft_and_distrib,andOdd,andComplement inside,Nat.shiftLeft_eq]
  omega

theorem fullNibblesValue {fuel mask : Nat} (full : fullNibbles fuel mask = true) : ∃ m ≤ fuel, mask + 1 = 16 ^ m := by
  induction fuel generalizing mask with
  | zero =>
    have zero : mask = 0 := by simpa [fullNibbles] using full
    exact ⟨0,Nat.le_refl 0,by omega⟩
  | succ fuel ih =>
    simp only [fullNibbles,Bool.or_eq_true,Bool.and_eq_true,beq_iff_eq] at full
    cases full with
    | inl zero => exact ⟨0,by omega,by omega⟩
    | inr more =>
      obtain ⟨m,small,value⟩ := ih more.2
      exact ⟨m + 1,by omega,by rw [Nat.pow_succ]; omega⟩

theorem maskShape {mask : UInt32} (valid : validateFwmarkMask mask = .ok ()) :
    mask ≠ 0 ∧ ∃ a m, (lowestBit mask).toNat = 2 ^ a ∧ mask.toNat = 2 ^ a * (2 ^ m - 1) ∧ a + m ≤ 32 ∧
      (normalizedFwmarkMask mask).toNat = 2 ^ m - 1 := by
  unfold validateFwmarkMask at valid
  split at valid
  · cases valid
  · rename_i nonzero
    have nonzero : mask ≠ 0 := by simpa using nonzero
    split at valid
    · cases valid
    · split at valid
      · cases valid
      · rename_i full
        have full : hasConsecutiveFullFNibbles (normalizedFwmarkMask mask) = true := by simpa using full
        obtain ⟨a,_,lowest,divides⟩ := lowestBitPower nonzero
        obtain ⟨n,_,value⟩ := fullNibblesValue (Bool.and_eq_true_iff.mp full).2
        have normal : (normalizedFwmarkMask mask).toNat = mask.toNat / 2 ^ a := by
          rw [normalizedFwmarkMask,UInt32.toNat_div,lowest]
        have pow : 16 ^ n = 2 ^ (4 * n) := by rw [Nat.pow_mul]
        have normalValue : (normalizedFwmarkMask mask).toNat = 2 ^ (4 * n) - 1 := by omega
        have product : mask.toNat = 2 ^ a * (2 ^ (4 * n) - 1) := by
          rw [← normalValue,normal,Nat.mul_div_cancel' divides]
        refine ⟨nonzero,a,4 * n,lowest,product,?_,normalValue⟩
        by_contra large
        have bound := mask.toNat_lt
        have power : 2 ^ 33 ≤ 2 ^ (a + 4 * n) := Nat.pow_le_pow_right (by omega) (by omega)
        have split : 2 ^ a * (2 ^ (4 * n) - 1) = 2 ^ (a + 4 * n) - 2 ^ a := by
          rw [Nat.mul_sub,← Nat.pow_add,Nat.mul_one]
        have some_bit : (normalizedFwmarkMask mask).toNat ≠ 0 := by
          intro zero
          have isZero : mask.toNat = 0 := by rw [product,← normalValue,zero,Nat.mul_zero]
          exact nonzero (UInt32.toNat_inj.mp isZero)
        have half : 2 * 2 ^ a ≤ 2 ^ (a + 4 * n) := by
          rw [← Nat.pow_succ']
          apply Nat.pow_le_pow_right (by omega)
          have : n ≠ 0 := by
            intro zero
            rw [normalValue,zero] at some_bit
            exact some_bit rfl
          omega
        omega

theorem capacityShape {mask start maxMarks : UInt32} (valid : validateFwmarkMask mask = .ok ())
    (capacity : fwmarkMaskMarkCapacity mask start = .ok maxMarks) :
    ∃ a m, (lowestBit mask).toNat = 2 ^ a ∧ mask.toNat = 2 ^ a * (2 ^ m - 1) ∧ a + m ≤ 32 ∧
      start.toNat / 2 ^ a % 2 ^ m ≠ 0 ∧ maxMarks.toNat + start.toNat / 2 ^ a % 2 ^ m = 2 ^ m := by
  obtain ⟨nonzero,a,m,lowest,product,width,normal⟩ := maskShape valid
  have firstValue : ((start &&& mask) / lowestBit mask).toNat = start.toNat / 2 ^ a % 2 ^ m := by
    rw [UInt32.toNat_div,UInt32.toNat_and,lowest,Nat.and_div_two_pow,product,Nat.mul_div_cancel_left _ (Nat.two_pow_pos a),
      Nat.and_two_pow_sub_one_eq_mod]
  have power : 2 ^ m ≤ 2 ^ 32 := Nat.pow_le_pow_right (by omega) (by omega)
  have below : start.toNat / 2 ^ a % 2 ^ m < 2 ^ m := Nat.mod_lt _ (Nat.two_pow_pos m)
  refine ⟨a,m,lowest,product,width,?_⟩
  unfold fwmarkMaskMarkCapacity at capacity
  simp only at capacity
  split at capacity
  · cases capacity
  · rename_i notZero
    have notZero : (start &&& mask) / lowestBit mask ≠ 0 := by simpa using notZero
    have positive : start.toNat / 2 ^ a % 2 ^ m ≠ 0 := by
      rw [← firstValue]
      exact fun zero => notZero (UInt32.toNat_inj.mp zero)
    cases capacity
    refine ⟨positive,?_⟩
    rw [UInt32.toNat_add,UInt32.toNat_sub,firstValue,normal]
    simp only [UInt32.reduceToNat]
    omega

theorem markPlace {a m i start : Nat} (width : a + m ≤ 32) (word : start < 2 ^ 32)
    (small : i + start / 2 ^ a % 2 ^ m < 2 ^ m) :
    start + i * 2 ^ a < 2 ^ 32 ∧ (start + i * 2 ^ a) % 2 ^ a = start % 2 ^ a ∧
      (start + i * 2 ^ a) / 2 ^ a % 2 ^ m = start / 2 ^ a % 2 ^ m + i ∧
      (start + i * 2 ^ a) / 2 ^ a / 2 ^ m = start / 2 ^ a / 2 ^ m := by
  have quotient : (start + i * 2 ^ a) / 2 ^ a = start / 2 ^ a + i := Nat.add_mul_div_right _ _ (Nat.two_pow_pos a)
  have parts := Nat.div_add_mod (start / 2 ^ a) (2 ^ m)
  have shifted : start / 2 ^ a + i = 2 ^ m * (start / 2 ^ a / 2 ^ m) + (start / 2 ^ a % 2 ^ m + i) := by omega
  have upper : (start / 2 ^ a + i) / 2 ^ m = start / 2 ^ a / 2 ^ m := by
    have low : (start / 2 ^ a % 2 ^ m + i) / 2 ^ m = 0 := Nat.div_eq_of_lt (by omega)
    rw [shifted,Nat.mul_add_div (Nat.two_pow_pos m),low,Nat.add_zero]
  refine ⟨?_,Nat.add_mul_mod_self_right ..,?_,by rw [quotient,upper]⟩
  · obtain ⟨b,rest⟩ : ∃ b, a + m + b = 32 := ⟨32 - a - m,by omega⟩
    have whole : 2 ^ 32 = 2 ^ a * 2 ^ m * 2 ^ b := by rw [← Nat.pow_add,← Nat.pow_add,rest]
    have bound : start / (2 ^ a * 2 ^ m) < 2 ^ b := Nat.div_lt_of_lt_mul (by omega)
    have same : (start + i * 2 ^ a) / (2 ^ a * 2 ^ m) = start / (2 ^ a * 2 ^ m) := by
      rw [← Nat.div_div_eq_div_mul,quotient,upper,Nat.div_div_eq_div_mul]
    rw [whole,Nat.mul_comm (2 ^ a * 2 ^ m)]
    apply (Nat.div_lt_iff_lt_mul (Nat.mul_pos (Nat.two_pow_pos a) (Nat.two_pow_pos m))).mp
    omega
  · rw [quotient,shifted,Nat.mul_add_mod,Nat.mod_eq_of_lt (by omega)]

theorem marksPlaced {fwmark : FwmarkConfig} {outbounds : List Outbound} {marks : OutboundMarkMap}
    (ok : allocateOutboundMarks fwmark outbounds = .ok marks) {mask start : UInt32}
    (parsedMask : parseFwmarkMaskOrThrow fwmark = .ok mask) (parsedStart : parseFwmarkStartOrThrow fwmark = .ok start) :
    ∃ a m, (lowestBit mask).toNat = 2 ^ a ∧ mask.toNat = 2 ^ a * (2 ^ m - 1) ∧ a + m ≤ 32 ∧
      start.toNat / 2 ^ a % 2 ^ m ≠ 0 ∧ ∀ tag mark, marks.lookup tag = some mark →
        ∃ i ob, (sortedRoutable outbounds)[i]? = some ob ∧ ob.tag = tag ∧ i + start.toNat / 2 ^ a % 2 ^ m < 2 ^ m ∧
          mark.toNat = start.toNat + i * 2 ^ a := by
  obtain ⟨mask',start',maxMarks,parsedMask',valid,parsedStart',capacity,assigned⟩ := allocateOk ok
  cases parsedMask.symm.trans parsedMask'
  cases parsedStart.symm.trans parsedStart'
  obtain ⟨enough,_,values⟩ := assignMarksOk assigned UInt32.zero_le
  obtain ⟨a,m,lowest,product,width,positive,room⟩ := capacityShape valid capacity
  refine ⟨a,m,lowest,product,width,positive,fun tag mark found => ?_⟩
  cases values tag mark found with
  | inl none => cases none
  | inr later =>
    obtain ⟨i,ob,at_place,same,value⟩ := later
    have inside : i < (sortedRoutable outbounds).length := (List.getElem?_eq_some_iff.mp at_place).1
    have count : (0 : UInt32).toNat = 0 := rfl
    have small : i + start.toNat / 2 ^ a % 2 ^ m < 2 ^ m := by omega
    refine ⟨i,ob,at_place,same,small,?_⟩
    have total := (markPlace width start.toNat_lt small).1
    rw [value]
    simp only [UInt32.toNat_add,UInt32.toNat_mul,UInt32.toNat_ofNat',lowest]
    have product : i % 2 ^ 32 * 2 ^ a % 2 ^ 32 = i * 2 ^ a % 2 ^ 32 := Nat.mod_mul_mod ..
    rw [product,Nat.add_mod_mod,Nat.mod_eq_of_lt total]

theorem marksNonzero {fwmark : FwmarkConfig} {outbounds : List Outbound} {marks : OutboundMarkMap}
    (ok : allocateOutboundMarks fwmark outbounds = .ok marks) {tag : String} {mark : UInt32}
    (found : marks.lookup tag = some mark) : mark ≠ 0 := by
  obtain ⟨_,_,_,parsedMask,_,parsedStart,_⟩ := allocateOk ok
  obtain ⟨a,m,_,_,_,positive,placed⟩ := marksPlaced ok parsedMask parsedStart
  obtain ⟨i,_,_,_,_,value⟩ := placed tag mark found
  intro zero
  apply positive
  have start : _ = 0 := Nat.eq_zero_of_add_eq_zero_right (value.symm.trans (congrArg UInt32.toNat zero))
  rw [start]
  simp

end KeenPbr
