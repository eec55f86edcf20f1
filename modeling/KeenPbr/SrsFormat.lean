import KeenPbr.IpTrieRuns
import KeenPbr.SrsAddress
import KeenPbr.ListParser

/-! lists/srs_decoder.cpp writes addresses and lists/ipset.cpp reads them: what the two formatters write is a text of
RFC 4291 for the address, so that the two readers give it back. -/
namespace KeenPbr.Srs

section Runs

def RunIn (groups : List Nat) (best : Nat × Nat) : Prop :=
  best = (groups.length,0) ∨
    2 ≤ best.2 ∧ ∃ left right, groups = left ++ List.replicate best.2 0 ++ right ∧ left.length = best.1

theorem zerosTaken (groups : List Nat) : groups.takeWhile (· == 0) = List.replicate (groups.takeWhile (· == 0)).length 0 := by
  refine List.eq_replicate_iff.mpr ⟨rfl,fun group mem => ?_⟩
  have zero := List.mem_takeWhile_imp (p := fun value => value == 0) mem
  exact beq_iff_eq.mp zero

theorem bestRunIn (fuel : Nat) {groups : List Nat} (seen rest : List Nat) (best : Nat × Nat) (shape : groups = seen ++ rest)
    (found : RunIn groups best) :
    RunIn groups (bestRun fuel seen.length rest best) := by
  -- the groups behind the scan are `seen`
  induction fuel generalizing seen rest best with
  | zero => exact found
  | succ fuel ih =>
    cases rest with
    | nil => exact found
    | cons group rest =>
      rw [bestRun]
      split
      · have next := ih (seen ++ [group]) rest best (by rw [shape,List.append_assoc]; rfl) found
        rwa [List.length_append,List.length_singleton] at next
      · have split_ : (group :: rest) = List.replicate ((group :: rest).takeWhile (· == 0)).length 0 ++
            (group :: rest).drop ((group :: rest).takeWhile (· == 0)).length := by
          rw [← zerosTaken]
          exact (List.prefix_iff_eq_append.mp (List.takeWhile_prefix _)).symm
        have next := fun best (found : RunIn groups best) => ih
          (seen ++ List.replicate ((group :: rest).takeWhile (· == 0)).length 0)
          ((group :: rest).drop ((group :: rest).takeWhile (· == 0)).length) best
          (by rw [shape,List.append_assoc,← split_]) found
        simp only [List.length_append,List.length_replicate] at next
        refine next _ ?_
        split
        · rename_i longer
          exact .inr ⟨longer.2,seen,_,by rw [shape,List.append_assoc,← split_],rfl⟩
        · exact found

end Runs

section Writing
variable {best : Nat × Nat}

def groupTexts (groups : List Nat) : List Text := groups.map hexText

theorem writeColons {index : Nat} {groups more : List Nat} (apart : ∀ i, index ≤ i → i < index + groups.length → i ≠ 0 ∧
    i ≠ best.1 + best.2)
    (outside : ∀ i, index ≤ i → i < index + groups.length → i < best.1 ∨ best.1 + best.2 < i) :
    writeGroups best index (groups ++ more) = colonText (groupTexts groups) ++ writeGroups best (index + groups.length) more := by
  induction groups generalizing index with
  | nil => rfl
  | cons group rest ih =>
    rw [List.length_cons] at apart outside
    have here := outside index (Nat.le_refl _) (by omega)
    have first : ¬index = best.1 := by omega
    have beyond : ¬(best.1 < index ∧ index < best.1 + best.2) := by omega
    rw [List.cons_append,writeGroups,if_neg first,if_neg beyond,if_pos (apart index (Nat.le_refl _) (by omega)),
      ih (fun i low high => apart i (by omega) (by omega)) (fun i low high => outside i (by omega) (by omega)),List.length_cons]
    have same : index + 1 + rest.length = index + (rest.length + 1) := by omega
    rw [same]
    simp [groupTexts,colonText]

theorem writeJoined (best : Nat × Nat) (index : Nat) (groups more : List Nat)
    (start : index = 0 ∧ groups.length ≤ best.1 ∨ index = best.1 + best.2 ∧ 2 ≤ best.2) :
    writeGroups best index (groups ++ more) = joined (groupTexts groups) ++ writeGroups best (index + groups.length) more := by
  cases groups with
  | nil => rfl
  | cons group rest =>
    rw [List.length_cons] at start
    have first : ¬index = best.1 := by omega
    have beyond : ¬(best.1 < index ∧ index < best.1 + best.2) := by omega
    have plain : ¬(index ≠ 0 ∧ index ≠ best.1 + best.2) := by omega
    rw [List.cons_append,writeGroups,if_neg first,if_neg beyond,if_neg plain,
      writeColons (fun i low high => by omega) (fun i low high => by omega),List.length_cons]
    have same : index + 1 + rest.length = index + (rest.length + 1) := by omega
    rw [same]
    simp [groupTexts,joined]

theorem writeInside (index count : Nat) (more : List Nat) (after : best.1 < index) (fits : index + count = best.1 + best.2) :
    writeGroups best index (List.replicate count 0 ++ more) = writeGroups best (best.1 + best.2) more := by
  induction count generalizing index with
  | zero =>
    have here : index = best.1 + best.2 := by omega
    rw [here]
    rfl
  | succ count ih =>
    have first : ¬index = best.1 := by omega
    have inside : best.1 < index ∧ index < best.1 + best.2 := by omega
    rw [List.replicate_succ,List.cons_append,writeGroups,if_neg first,if_pos inside,List.nil_append,ih (index + 1) (by omega) (by omega)]

theorem writeRun {more : List Nat} (two : 2 ≤ best.2) :
    writeGroups best best.1 (List.replicate best.2 0 ++ more) = ':' :: ':' :: writeGroups best (best.1 + best.2) more := by
  obtain ⟨count,size⟩ : ∃ count, best.2 = count + 1 := ⟨best.2 - 1,by omega⟩
  have rest := writeInside (best.1 + 1) count more (Nat.lt_succ_self best.1) (by omega)
  rw [size,List.replicate_succ,List.cons_append,writeGroups,if_pos rfl,rest,size]
  rfl

end Writing

section Texts
variable {groups : List Nat}

theorem textsHex (words : ∀ group ∈ groups, group < 65536) : ∀ part ∈ groupTexts groups, HexGroup part := by
  intro part mem
  obtain ⟨group,listed,rfl⟩ := List.mem_map.mp mem
  exact hexTextGroup (words group listed)

theorem textsValues (groups : List Nat) : groupValues (groupTexts groups) = groups := by
  rw [groupValues,groupTexts,List.map_map]
  have same : hexNumber ∘ hexText = id := funext fun value => (hexTextDigits value).2
  rw [same,List.map_id]

theorem writtenSpelled {best : Nat × Nat} (eight : groups.length = 8) (words : ∀ group ∈ groups, group < 65536)
    (found : RunIn groups best) :
    Ipv6Text (writeGroups best 0 groups) (groupBytes groups) := by
  rcases found with rfl | ⟨two,left,right,shape,start⟩
  · have written := writeJoined (groups.length,0) 0 groups []
      (.inl ⟨rfl,Nat.le_refl _⟩)
    rw [List.append_nil] at written
    have full := Ipv6Text.full (textsHex words) (by rw [groupTexts,List.length_map,eight])
    rw [textsValues] at full
    rw [written,writeGroups,List.append_nil]
    exact full
  · subst shape
    have sizes : left.length + best.2 + right.length = 8 := by
      rw [← eight]
      simp only [List.length_append,List.length_replicate]
    have front := writeJoined best 0 left (List.replicate best.2 0 ++ right)
      (.inl ⟨rfl,Nat.le_of_eq start⟩)
    have back := writeJoined best (best.1 + best.2) right [] (.inr ⟨rfl,two⟩)
    rw [List.append_nil] at back
    rw [Nat.zero_add,start,writeRun two,back,writeGroups,List.append_nil,← List.append_assoc] at front
    have hex : ∀ part ∈ groupTexts left ++ groupTexts right, HexGroup part := by
      rw [groupTexts,groupTexts,← List.map_append]
      refine textsHex fun group mem => words group ?_
      rcases List.mem_append.mp mem with inLeft | inRight
      · exact List.mem_append_left _ (List.mem_append_left _ inLeft)
      · exact List.mem_append_right _ inRight
    have short := Ipv6Text.short hex (by simp only [groupTexts,List.length_map]; omega)
    simp only [textsValues] at short
    have zeros : 8 - ((groupTexts left).length + (groupTexts right).length) = best.2 := by
      simp only [groupTexts,List.length_map]
      omega
    rw [front]
    rw [zeros] at short
    exact short

end Texts

section Addresses
variable {address : IpAddress}

theorem groupsBack (address : IpAddress) (count : Nat) (size : address.length = 2 * count) : groupBytes (addressGroups address) = address ∧
    (addressGroups address).length = count ∧ ∀ group ∈ addressGroups address, group < 65536 := by
  induction count generalizing address with
  | zero =>
    cases List.eq_nil_of_length_eq_zero size
    exact ⟨rfl,rfl,fun _ mem => by cases mem⟩
  | succ count ih =>
    match address,size with
    | high :: low :: rest,size =>
      simp only [List.length_cons] at size
      obtain ⟨bytes,length,words⟩ := ih rest (by omega)
      have small := low.toNat_lt
      have large := high.toNat_lt
      refine ⟨?_,?_,?_⟩
      · have first : UInt8.ofNat ((high.toNat * 256 + low.toNat) / 256) = high := by
          rw [show (high.toNat * 256 + low.toNat) / 256 = high.toNat by omega,UInt8.ofNat_toNat]
        have second : UInt8.ofNat ((high.toNat * 256 + low.toNat) % 256) = low := by
          rw [show (high.toNat * 256 + low.toNat) % 256 = low.toNat by omega,UInt8.ofNat_toNat]
        rw [groupBytes] at bytes
        rw [addressGroups,groupBytes,List.flatMap_cons,first,second,bytes]
        rfl
      · rw [addressGroups,List.length_cons,length]
      · intro group mem
        rcases List.mem_cons.mp mem with rfl | later
        · omega
        · exact words group later

theorem ipv6Spelled (size : address.length = 16) : Ipv6Text (formatIpv6 address) address := by
  obtain ⟨bytes,eight,words⟩ := groupsBack address 8 size
  have spelled := writtenSpelled eight words
    (bestRunIn ((addressGroups address).length + 1) [] (addressGroups address) _ rfl (.inl rfl))
  rwa [bytes] at spelled

theorem decimalByte (byte : UInt8) : DecimalByte (decimalText byte.toNat) ∧ UInt8.ofNat (decimal (decimalText byte.toNat)) = byte := by
  have number : decimal (decimalText byte.toNat) = byte.toNat := Nat.ofDigitChars_ten_toDigits
  refine ⟨⟨fun c mem => ?_,Nat.toDigits_ne_nil,?_⟩,?_⟩
  · rw [← charDigit]
    exact Nat.isDigit_of_mem_toDigits (by decide) (by decide) mem
  · have small := byte.toNat_lt
    rw [number]
    omega
  · rw [number,UInt8.ofNat_toNat]

theorem ipv4Spelled (size : address.length = 4) : DottedQuad (formatIpv4 address) address := by
  match address,size with
  | [a,b,c,d],_ =>
    have quad := DottedQuad.quad (decimalByte a).1 (decimalByte b).1 (decimalByte c).1 (decimalByte d).1
    simp only [List.map_cons,List.map_nil,(decimalByte _).2] at quad
    simpa [formatIpv4] using quad

theorem formatReads {other : IpAddress} (size : address.length = 4 ∨ address.length = 16) (otherSize : other.length = 4 ∨ other.length = 16)
    (alike : formatAddress address = formatAddress other) : address = other := by
  have read (address : IpAddress) (size : address.length = 4 ∨ address.length = 16) :
      (parseIpv4 (formatAddress address)).or (parseIpv6 (formatAddress address)) = some address := by
    rcases size with four | sixteen
    · rw [formatAddress,if_pos four,quadParsed (ipv4Spelled four)]
      rfl
    · have wide : ¬address.length = 4 := by omega
      have spelled := ipv6Spelled sixteen
      rw [formatAddress,if_neg wide,ipv6Parsed spelled]
      cases dotted : parseIpv4 (formatIpv6 address) with
      | none => rfl
      | some bytes => exact absurd (ipv6Colon spelled) (ipv4Colon dotted)
  have own := read address size
  rw [alike,read other otherSize] at own
  exact (Option.some.inj own).symm

end Addresses

theorem formatsReadBack :
    (∀ address : AddressBytes 16, parseIpv6 (formatIpv6 address.val) = some address.val) ∧
    (∀ address : AddressBytes 4, parseIpv4 (formatIpv4 address.val) = some address.val) ∧
    ∀ address other : IpAddress, address.length = 4 ∨ address.length = 16 → other.length = 4 ∨ other.length = 16 →
      formatAddress address = formatAddress other → address = other :=
  ⟨fun address => ipv6Parsed (ipv6Spelled address.property),fun address => quadParsed (ipv4Spelled address.property),
    fun _ _ size otherSize alike => formatReads size otherSize alike⟩

example : formatIpv6 [32,1,13,184,0,0,0,0,0,0,0,0,0,0,0,1] = "2001:db8::1".toList := by decide

end KeenPbr.Srs
