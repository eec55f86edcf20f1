import Mathlib.Data.List.Sort
import KeenPbr.Config

/-! The fwmark part of config.cpp: the hexadecimal texts, the mask's shape and
allocate_outbound_marks. `unsigned long` is 64 bits wide; on a 32-bit target the first of the two
range messages covers both. -/
namespace KeenPbr

/- std::map<std::string, uint32_t>. -/
abbrev OutboundMarkMap := List (String × UInt32)

def OutboundMarkMap.set (marks : OutboundMarkMap) (tag : String) (mark : UInt32) : OutboundMarkMap :=
  (tag,mark) :: marks.filter fun entry => entry.1 != tag

def hexDigit (c : Char) : Option Nat :=
  if '0' ≤ c && c ≤ '9' then some (c.toNat - '0'.toNat)
  else if 'a' ≤ c && c ≤ 'f' then some (c.toNat - 'a'.toNat + 10)
  else if 'A' ≤ c && c ≤ 'F' then some (c.toNat - 'A'.toNat + 10)
  else none

def hexNumber (digits : Text) : Nat := digits.foldl (fun value c => value * 16 + (hexDigit c).getD 0) 0

def parseFwmarkHexOrThrow (raw : Option String) (defaultValue : UInt32) (path : String) : Except String UInt32 :=
  match raw with
  | none => .ok defaultValue
  | some value =>
    match trimText value.toList with
    | [] => .error (path ++ " must not be empty")
    | '0' :: x :: digits =>
      if (x == 'x' || x == 'X') && !digits.isEmpty then
        if !digits.all fun c => (hexDigit c).isSome then
          .error (path ++ " must contain only hexadecimal digits")
        else if hexNumber digits ≥ 2 ^ 64 then .error (path ++ " must be a valid 32-bit hexadecimal value")
        else if hexNumber digits ≥ 2 ^ 32 then .error (path ++ " must fit into 32 bits (max 0xFFFFFFFF)")
        else .ok (UInt32.ofNat (hexNumber digits))
      else .error (path ++ " must be a hexadecimal string with 0x prefix")
    | _ => .error (path ++ " must be a hexadecimal string with 0x prefix")

def parseFwmarkStartOrThrow (fwmark : FwmarkConfig) : Except String UInt32 :=
  parseFwmarkHexOrThrow fwmark.start 0x00010000 "fwmark.start"

def parseFwmarkMaskOrThrow (fwmark : FwmarkConfig) : Except String UInt32 :=
  parseFwmarkHexOrThrow fwmark.mask 0x00FF0000 "fwmark.mask"

def lowestBit (mask : UInt32) : UInt32 := mask &&& (~~~mask + 1)

def normalizedFwmarkMask (mask : UInt32) : UInt32 := mask / lowestBit mask

def fullNibbles : Nat → Nat → Bool
  | 0, mask => mask == 0
  | fuel + 1, mask => mask == 0 || mask % 16 == 15 && fullNibbles fuel (mask / 16)

def hasConsecutiveFullFNibbles (mask : UInt32) : Bool := mask != 0 && fullNibbles 8 mask.toNat

/- std::hex with setw(8) and setfill('0'). -/
def hexWord (value : UInt32) : String :=
  let digits := Nat.toDigits 16 value.toNat
  String.ofList (List.replicate (8 - digits.length) '0' ++ digits)

def validateFwmarkMask (mask : UInt32) : Except String Unit :=
  if mask == 0 then .error "fwmark.mask must not be zero"
  else if Nat.log2 (lowestBit mask).toNat % 4 != 0 then
    .error ("fwmark.mask must be aligned to nibble boundaries (e.g. 0x000F0000, 0x00FF0000), got 0x" ++ hexWord mask)
  else if !hasConsecutiveFullFNibbles (normalizedFwmarkMask mask) then
    .error ("fwmark.mask must have one or more consecutive hex nibbles set to F " ++
      "(e.g. 0x000F0000, 0x00FF0000, 0x0FFF0000), got 0x" ++ hexWord mask)
  else .ok ()

def fwmarkMaskMarkCapacity (mask start : UInt32) : Except String UInt32 :=
  let firstValue := (start &&& mask) / lowestBit mask
  if firstValue == 0 then .error "fwmark.start must select a non-zero value within fwmark.mask"
  else .ok (normalizedFwmarkMask mask - firstValue + 1)

def fwmarkMaskValue (fwmark : FwmarkConfig) : Except String UInt32 := do
  let mask ← parseFwmarkMaskOrThrow fwmark
  validateFwmarkMask mask
  pure mask

/- The loop over the routable outbounds in tag order. -/
def assignMarks (maxMarks step : UInt32) :
    List Outbound → UInt32 → UInt32 → OutboundMarkMap → Except String OutboundMarkMap
  | [], _, _, marks => .ok marks
  | outbound :: rest, current, count, marks =>
    if count ≥ maxMarks then
      .error ("Too many routable outbounds: maximum " ++ toString maxMarks.toNat ++
        " supported with current fwmark.mask")
    else assignMarks maxMarks step rest (current + step) (count + 1) (marks.set outbound.tag current)

def routableOutbounds (outbounds : List Outbound) : List Outbound := outbounds.filter (·.routable)

def sortedRoutable (outbounds : List Outbound) : List Outbound :=
  (routableOutbounds outbounds).insertionSort fun lhs rhs => lhs.tag ≤ rhs.tag

def allocateOutboundMarks (fwmark : FwmarkConfig) (outbounds : List Outbound) : Except String OutboundMarkMap := do
  let mask ← parseFwmarkMaskOrThrow fwmark
  let start ← parseFwmarkStartOrThrow fwmark
  validateFwmarkMask mask
  let maxMarks ← fwmarkMaskMarkCapacity mask start
  assignMarks maxMarks (lowestBit mask) (sortedRoutable outbounds) start 0 []

@[simp] theorem marksLookupSet (marks : OutboundMarkMap) (tag other : String) (mark : UInt32) :
    (marks.set tag mark).lookup other = if other = tag then some mark else marks.lookup other := by
  have rest : other ≠ tag → (marks.filter fun entry => entry.1 != tag).lookup other = marks.lookup other := by
    intro differs
    induction marks with
    | nil => rfl
    | cons entry later ih =>
      by_cases same : entry.1 = tag
      · have skipped : (other == entry.1) = false := by simpa [same] using differs
        rw [List.filter_cons_of_neg (by simp [same]),ih,List.lookup_cons,skipped]
      · rw [List.filter_cons_of_pos (by simp [same]),List.lookup_cons,List.lookup_cons,ih]
  by_cases same : other = tag
  · simp [OutboundMarkMap.set,same]
  · have differs : (other == tag) = false := by simpa using same
    rw [OutboundMarkMap.set,List.lookup_cons,differs,rest same,if_neg same]

theorem assignMarksOk {maxMarks step : UInt32} {outbounds : List Outbound} {current count : UInt32}
    {marks assigned : OutboundMarkMap} (ok : assignMarks maxMarks step outbounds current count marks = .ok assigned)
    (room : count ≤ maxMarks) :
    count.toNat + outbounds.length ≤ maxMarks.toNat ∧
      (∀ tag, (marks.lookup tag).isSome = true ∨ (∃ ob ∈ outbounds, ob.tag = tag) → (assigned.lookup tag).isSome = true) ∧
      ∀ tag mark, assigned.lookup tag = some mark → marks.lookup tag = some mark ∨
        ∃ i ob, outbounds[i]? = some ob ∧ ob.tag = tag ∧ mark = current + UInt32.ofNat i * step := by
  induction outbounds generalizing current count marks with
  | nil =>
    cases ok
    refine ⟨UInt32.le_iff_toNat_le.mp room,?_,fun tag mark found => Or.inl found⟩
    intro tag found
    cases found with
    | inl before => exact before
    | inr listed =>
      obtain ⟨ob,mem,_⟩ := listed
      cases mem
  | cons ob rest ih =>
    rw [assignMarks] at ok
    split at ok
    · cases ok
    · rename_i more
      have below : count.toNat < maxMarks.toNat := by
        rw [ge_iff_le,UInt32.le_iff_toNat_le] at more
        omega
      have bound := maxMarks.toNat_lt
      have next : (count + 1).toNat = count.toNat + 1 := by
        rw [UInt32.toNat_add]
        simp only [UInt32.reduceToNat]
        omega
      obtain ⟨enough,found,values⟩ := ih ok (UInt32.le_iff_toNat_le.mpr (by omega))
      refine ⟨by rw [List.length_cons]; omega,?_,?_⟩
      · intro tag known
        apply found
        by_cases same : tag = ob.tag
        · left
          simp [same]
        · cases known with
          | inl before => exact Or.inl (by simpa [same] using before)
          | inr listed =>
            obtain ⟨other,mem,rfl⟩ := listed
            cases List.mem_cons.mp mem with
            | inl first => exact absurd (congrArg (·.tag) first) same
            | inr later => exact Or.inr ⟨other,later,rfl⟩
      · intro tag mark assignedMark
        cases values tag mark assignedMark with
        | inl before =>
          rw [marksLookupSet] at before
          split at before
          · rename_i same
            cases before
            exact Or.inr ⟨0,ob,rfl,same.symm,by simp⟩
          · exact Or.inl before
        | inr later =>
          obtain ⟨i,other,at_place,same,value⟩ := later
          refine Or.inr ⟨i + 1,other,by rw [List.getElem?_cons_succ]; exact at_place,same,?_⟩
          rw [value,UInt32.ofNat_add,UInt32.add_mul,UInt32.add_assoc,UInt32.add_comm step]
          simp

theorem memSortedRoutable {outbounds : List Outbound} {ob : Outbound} :
    ob ∈ sortedRoutable outbounds ↔ ob ∈ outbounds ∧ ob.routable = true := by
  rw [sortedRoutable,List.mem_insertionSort,routableOutbounds,List.mem_filter]

theorem allocateOk {fwmark : FwmarkConfig} {outbounds : List Outbound} {marks : OutboundMarkMap}
    (ok : allocateOutboundMarks fwmark outbounds = .ok marks) :
    ∃ mask start maxMarks, parseFwmarkMaskOrThrow fwmark = .ok mask ∧ validateFwmarkMask mask = .ok () ∧
      parseFwmarkStartOrThrow fwmark = .ok start ∧ fwmarkMaskMarkCapacity mask start = .ok maxMarks ∧
      assignMarks maxMarks (lowestBit mask) (sortedRoutable outbounds) start 0 [] = .ok marks := by
  unfold allocateOutboundMarks at ok
  simp only [bind,Except.bind] at ok
  split at ok
  · cases ok
  · rename_i mask parsedMask
    split at ok
    · cases ok
    · rename_i start parsedStart
      split at ok
      · cases ok
      · rename_i _ valid
        split at ok
        · cases ok
        · rename_i maxMarks capacity
          exact ⟨mask,start,maxMarks,parsedMask,valid,parsedStart,capacity,ok⟩

theorem allocateMarks {fwmark : FwmarkConfig} {outbounds : List Outbound} {marks : OutboundMarkMap}
    (ok : allocateOutboundMarks fwmark outbounds = .ok marks) :
    (∀ ob ∈ outbounds, ob.routable = true → (marks.lookup ob.tag).isSome = true) ∧
      (routableOutbounds outbounds).length < 2 ^ 32 := by
  obtain ⟨mask,start,maxMarks,_,_,_,_,assigned⟩ := allocateOk ok
  obtain ⟨enough,found,_⟩ := assignMarksOk assigned (UInt32.zero_le)
  constructor
  · intro ob listed routable
    exact found ob.tag (Or.inr ⟨ob,memSortedRoutable.mpr ⟨listed,routable⟩,rfl⟩)
  · have same : (sortedRoutable outbounds).length = (routableOutbounds outbounds).length := List.length_insertionSort ..
    have bound := maxMarks.toNat_lt
    omega

end KeenPbr
