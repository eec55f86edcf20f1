import KeenPbr.FwmarkMasks

/-! allocate_outbound_marks over the accepted configurations: when it throws, what its marks are, and
that the order of the outbounds does not matter. -/
namespace KeenPbr

/- The checks of the fwmark section that do not depend on the outbounds. -/
structure FwmarkAccepted (fwmark : FwmarkConfig) (mask start : UInt32) : Prop where
  parsedMask : parseFwmarkMaskOrThrow fwmark = .ok mask
  parsedStart : parseFwmarkStartOrThrow fwmark = .ok start
  valid : validateFwmarkMask mask = .ok ()
  selects : ∃ maxMarks, fwmarkMaskMarkCapacity mask start = .ok maxMarks

/- The values under the mask that are left from the start's own value on; a zero value is unmarked
traffic and never one of them. -/
def freeValues (mask start : UInt32) : Finset Nat :=
  (Finset.range (2 ^ 32)).filter fun value =>
    value &&& mask.toNat = value ∧ value ≠ 0 ∧ (start &&& mask).toNat ≤ value

theorem maskedValue (a m value : Nat) : value &&& (2 ^ a * (2 ^ m - 1)) = 2 ^ a * (value / 2 ^ a % 2 ^ m) := by
  apply Nat.eq_of_testBit_eq
  intro i
  rw [Nat.testBit_and,Nat.testBit_two_pow_mul,Nat.testBit_two_pow_mul,Nat.testBit_two_pow_sub_one,
    Nat.testBit_mod_two_pow,Nat.testBit_div_two_pow]
  by_cases above : a ≤ i
  · rw [Nat.sub_add_cancel above,decide_eq_true above]
    cases value.testBit i <;> simp
  · simp [above]

theorem freeValuesCount {mask start maxMarks : UInt32} (valid : validateFwmarkMask mask = .ok ())
    (capacity : fwmarkMaskMarkCapacity mask start = .ok maxMarks) :
    (freeValues mask start).card = maxMarks.toNat := by
  obtain ⟨a,m,_,product,width,positive,room⟩ := capacityShape valid capacity
  have shape : freeValues mask start = (Finset.Ico (start.toNat / 2 ^ a % 2 ^ m) (2 ^ m)).image (2 ^ a * ·) := by
    ext value
    rw [freeValues,Finset.mem_filter,Finset.mem_image,UInt32.toNat_and,product,maskedValue,maskedValue,Finset.mem_range]
    constructor
    · rintro ⟨_,inside,_,from_start⟩
      refine ⟨value / 2 ^ a % 2 ^ m,Finset.mem_Ico.mpr ⟨?_,Nat.mod_lt _ (Nat.two_pow_pos m)⟩,inside⟩
      rw [← inside] at from_start
      exact Nat.le_of_mul_le_mul_left from_start (Nat.two_pow_pos a)
    · rintro ⟨k,range,rfl⟩
      obtain ⟨low,high⟩ := Finset.mem_Ico.mp range
      have pow : 2 ^ a * 2 ^ m ≤ 2 ^ 32 := by
        rw [← Nat.pow_add]
        exact Nat.pow_le_pow_right (by omega) width
      have word : 2 ^ a * k < 2 ^ a * 2 ^ m := Nat.mul_lt_mul_of_pos_left high (Nat.two_pow_pos a)
      refine ⟨by omega,?_,?_,Nat.mul_le_mul_left _ low⟩
      · rw [Nat.mul_div_cancel_left _ (Nat.two_pow_pos a),Nat.mod_eq_of_lt high]
      · exact Nat.mul_ne_zero (Nat.two_pow_pos a).ne' (by omega)
  have injective : Function.Injective (2 ^ a * · : Nat → Nat) := fun _ _ equal => Nat.eq_of_mul_eq_mul_left (Nat.two_pow_pos a) equal
  rw [shape,Finset.card_image_of_injective _ injective,Nat.card_Ico]
  omega

theorem outsideMask {mask left right : UInt32} {a m : Nat} (product : mask.toNat = 2 ^ a * (2 ^ m - 1))
    (below : left.toNat % 2 ^ a = right.toNat % 2 ^ a)
    (above : left.toNat / 2 ^ a / 2 ^ m = right.toNat / 2 ^ a / 2 ^ m) : left &&& ~~~mask = right &&& ~~~mask := by
  apply UInt32.toNat_inj.mp
  have complement : (~~~mask).toNat = 2 ^ 32 - (mask.toNat + 1) := by
    rw [UInt32.toNat_not,UInt32.size]
    omega
  rw [UInt32.toNat_and,UInt32.toNat_and,complement]
  apply Nat.eq_of_testBit_eq
  intro i
  rw [Nat.testBit_and,Nat.testBit_and,Nat.testBit_two_pow_sub_succ mask.toNat_lt,product,Nat.testBit_two_pow_mul,
    Nat.testBit_two_pow_sub_one]
  by_cases low : i < a
  · have bit := congrArg (Nat.testBit · i) below
    simp only [Nat.testBit_mod_two_pow,low,decide_true,Bool.true_and] at bit
    rw [bit]
  · by_cases inside : i - a < m
    · simp [inside,Nat.le_of_not_lt low]
    · have bit := congrArg (Nat.testBit · (i - a - m)) above
      simp only [Nat.testBit_div_two_pow] at bit
      have place : i - a - m + m + a = i := by omega
      rw [place] at bit
      rw [bit]

theorem assignMarksRoom {maxMarks step : UInt32} {outbounds : List Outbound} {current count : UInt32}
    (marks : OutboundMarkMap) (room : count.toNat + outbounds.length ≤ maxMarks.toNat) :
    ∃ assigned, assignMarks maxMarks step outbounds current count marks = .ok assigned := by
  induction outbounds generalizing current count marks with
  | nil => exact ⟨marks,rfl⟩
  | cons ob rest ih =>
    rw [List.length_cons] at room
    have bound := maxMarks.toNat_lt
    have free : ¬count ≥ maxMarks := by
      rw [ge_iff_le,UInt32.le_iff_toNat_le]
      omega
    have next : (count + 1).toNat = count.toNat + 1 := by
      rw [UInt32.toNat_add]
      simp only [UInt32.reduceToNat]
      omega
    rw [assignMarks,if_neg free]
    exact ih _ (by omega)

theorem sortedLength (outbounds : List Outbound) :
    (sortedRoutable outbounds).length = (routableOutbounds outbounds).length := List.length_insertionSort ..

theorem sortedPerm {outbounds others : List Outbound} (unique : (outbounds.map (·.tag)).Nodup)
    (same : outbounds.Perm others) : sortedRoutable others = sortedRoutable outbounds := by
  have listed {ob : Outbound} (mem : ob ∈ sortedRoutable outbounds) : ob ∈ outbounds := (memSortedRoutable.mp mem).1
  have perm : (sortedRoutable others).Perm (sortedRoutable outbounds) :=
    (List.perm_insertionSort _ _).trans ((same.symm.filter _).trans (List.perm_insertionSort _ _).symm)
  refine List.Perm.eq_of_pairwise ?_ (List.pairwise_insertionSort _ _) (List.pairwise_insertionSort _ _) perm
  intro left right memLeft memRight le ge
  exact List.inj_on_of_nodup_map unique (listed (perm.mem_iff.mp memLeft)) (listed memRight) (String.le_antisymm le ge)

theorem allocatePerm {fwmark : FwmarkConfig} {outbounds others : List Outbound}
    (unique : (outbounds.map (·.tag)).Nodup) (same : outbounds.Perm others) :
    allocateOutboundMarks fwmark others = allocateOutboundMarks fwmark outbounds := by
  unfold allocateOutboundMarks
  rw [sortedPerm unique same]

theorem allocateFails {fwmark : FwmarkConfig} {mask start : UInt32} (accepted : FwmarkAccepted fwmark mask start)
    (outbounds : List Outbound) :
    (∃ message, allocateOutboundMarks fwmark outbounds = .error message) ↔
      (freeValues mask start).card < (routableOutbounds outbounds).length := by
  obtain ⟨maxMarks,capacity⟩ := accepted.selects
  have run : allocateOutboundMarks fwmark outbounds =
      assignMarks maxMarks (lowestBit mask) (sortedRoutable outbounds) start 0 [] := by
    unfold allocateOutboundMarks
    simp only [accepted.parsedMask,accepted.parsedStart,accepted.valid,capacity,bind,Except.bind]
  rw [freeValuesCount accepted.valid capacity,← sortedLength,run]
  have count : (0 : UInt32).toNat = 0 := rfl
  constructor
  · rintro ⟨message,failed⟩
    by_contra few
    obtain ⟨assigned,ok⟩ : ∃ assigned, assignMarks maxMarks (lowestBit mask) (sortedRoutable outbounds) start 0 [] = .ok assigned :=
      assignMarksRoom [] (by omega)
    rw [ok] at failed
    cases failed
  · intro many
    cases outcome : assignMarks maxMarks (lowestBit mask) (sortedRoutable outbounds) start 0 [] with
    | error message => exact ⟨message,rfl⟩
    | ok assigned =>
      have enough := (assignMarksOk outcome UInt32.zero_le).1
      omega

/- A mark of the allocation: inside the mask the start's value plus its place, outside the start itself. -/
theorem markBits {mask start mark : UInt32} {a m i : Nat} (product : mask.toNat = 2 ^ a * (2 ^ m - 1))
    (width : a + m ≤ 32) (small : i + start.toNat / 2 ^ a % 2 ^ m < 2 ^ m)
    (value : mark.toNat = start.toNat + i * 2 ^ a) :
    (mark &&& mask).toNat = 2 ^ a * (start.toNat / 2 ^ a % 2 ^ m + i) ∧ mark &&& ~~~mask = start &&& ~~~mask := by
  obtain ⟨_,below,inside,above⟩ := markPlace width start.toNat_lt small
  constructor
  · rw [UInt32.toNat_and,product,maskedValue,value,inside]
  · exact outsideMask product (by rw [value,below]) (by rw [value,above])

theorem outboundMarksAllocated {fwmark : FwmarkConfig} {mask start : UInt32}
    (accepted : FwmarkAccepted fwmark mask start) {outbounds : List Outbound}
    (unique : (outbounds.map (·.tag)).Nodup) :
    ((∃ message, allocateOutboundMarks fwmark outbounds = .error message) ↔
      (freeValues mask start).card < (routableOutbounds outbounds).length) ∧
    (∀ marks, allocateOutboundMarks fwmark outbounds = .ok marks →
      (∀ tag, (marks.lookup tag).isSome = true ↔ ∃ ob ∈ outbounds, ob.routable = true ∧ ob.tag = tag) ∧
      (∀ tag mark, marks.lookup tag = some mark → mark &&& mask ≠ 0 ∧ mark &&& ~~~mask = start &&& ~~~mask ∧
        ∃ i < (routableOutbounds outbounds).length, mark.toNat = start.toNat + i * (lowestBit mask).toNat) ∧
      (∀ tag other mark otherMark, tag ≠ other → marks.lookup tag = some mark → marks.lookup other = some otherMark →
        mark &&& mask ≠ otherMark &&& mask)) ∧
    ∀ others, outbounds.Perm others → allocateOutboundMarks fwmark others = allocateOutboundMarks fwmark outbounds := by
  refine ⟨allocateFails accepted outbounds,?_,fun others same => allocatePerm unique same⟩
  intro marks ok
  obtain ⟨a,m,lowest,product,width,positive,placed⟩ := marksPlaced ok accepted.parsedMask accepted.parsedStart
  refine ⟨fun tag => ⟨fun found => ?_,?_⟩,?_,?_⟩
  · obtain ⟨mark,found⟩ := Option.isSome_iff_exists.mp found
    obtain ⟨i,ob,at_place,same,_⟩ := placed tag mark found
    obtain ⟨listed,routable⟩ := memSortedRoutable.mp (List.mem_of_getElem? at_place)
    exact ⟨ob,listed,routable,same⟩
  · rintro ⟨ob,listed,routable,rfl⟩
    exact (allocateMarks ok).1 ob listed routable
  · intro tag mark found
    obtain ⟨i,ob,at_place,_,small,value⟩ := placed tag mark found
    obtain ⟨inside,outside⟩ := markBits product width small value
    refine ⟨fun zero => ?_,outside,i,?_,by rw [lowest,value]⟩
    · rw [zero,UInt32.toNat_zero] at inside
      cases Nat.mul_eq_zero.mp inside.symm with
      | inl pow => exact (Nat.two_pow_pos a).ne' pow
      | inr sum => exact positive (Nat.add_eq_zero_iff.mp sum).1
    · rw [← sortedLength]
      exact (List.getElem?_eq_some_iff.mp at_place).1
  · intro tag other mark otherMark differ found otherFound equal
    obtain ⟨i,ob,at_place,same,small,value⟩ := placed tag mark found
    obtain ⟨j,ob',at_other,same',small',value'⟩ := placed other otherMark otherFound
    have inside := (markBits product width small value).1
    have inside' := (markBits product width small' value').1
    rw [equal,inside'] at inside
    have place : j = i := by
      have := Nat.eq_of_mul_eq_mul_left (Nat.two_pow_pos a) inside
      omega
    rw [place,at_place] at at_other
    cases at_other
    exact differ (same.symm.trans same')

def edgeFwmark : FwmarkConfig := { start := some "0x1000D005", mask := some "0x0000F000" }

def edgeOutbounds : List Outbound :=
  [{ tag := "wan", type := .interface },{ tag := "drop", type := .blackhole },{ tag := "auto", type := .urltest }]

theorem edgeMarks :
    allocateOutboundMarks edgeFwmark edgeOutbounds.reverse = .ok [("wan",0x1000E005),("auto",0x1000D005)] ∧
      (freeValues 0xF000 0x1000D005).card ≥ 2 := by
  have accepted : FwmarkAccepted edgeFwmark 0xF000 0x1000D005 :=
    ⟨by decide,by decide,by decide,3,by decide⟩
  have edgeUnique : (edgeOutbounds.map (·.tag)).Nodup := by decide
  obtain ⟨fails,_,order⟩ := outboundMarksAllocated accepted edgeUnique
  have ok : allocateOutboundMarks edgeFwmark edgeOutbounds = .ok [("wan",0x1000E005),("auto",0x1000D005)] := by
    decide
  refine ⟨(order _ (List.reverse_perm _).symm).trans ok,?_⟩
  by_contra few
  have routables : (routableOutbounds edgeOutbounds).length = 2 := by decide
  obtain ⟨message,failed⟩ := fails.mpr (by omega)
  rw [ok] at failed
  cases failed

end KeenPbr
