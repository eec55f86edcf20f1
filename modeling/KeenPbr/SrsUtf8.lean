import Mathlib.Tactic.Linarith
import KeenPbr.DisplayableLabel
import KeenPbr.SrsDomains

/-! reverse_utf8_codepoints accepts exactly the encodings of scalar values, and reverses their order. -/
namespace KeenPbr.Srs
open SubscriptionImport (sequenceStart continued ruledOut encoded Sequenced sequenced decodedChar sequenceStartIff continuedCons ruledOutIff
  codePointContinued digitOf)

theorem startAgrees {first : UInt8} {length value : Nat} :
    codepointStart first = .ok (length,value) ↔ ∃ bits, sequenceStart first = some (length,bits) ∧ bits.toNat = value := by
  unfold codepointStart sequenceStart
  simp only [Bool.and_eq_true,decide_eq_true_eq]
  split
  · simp
  split
  · simp
  split
  · simp
  split
  · simp
  · simp

theorem continueAgrees {rest : Bytes} : ∀ {bits : UInt32} {value : Nat}, (bits.toNat + 1) * 64 ^ rest.length ≤ 2 ^ 26 →
    (continueCodepoint bits.toNat rest = .ok value ↔ ∃ final, continued bits rest = some final ∧ final.toNat = value) := by
  induction rest with
  | nil =>
    intro bits value room
    simp [continueCodepoint,continued]
  | cons continuation rest ih =>
    intro bits value room
    rw [continueCodepoint,continued]
    split
    · simp
    · rename_i byte
      obtain ⟨low,same,small⟩ := digitOf ((SubscriptionImport.continuationByte continuation).mp (not_not.mp byte))
      rw [List.length_cons,Nat.pow_succ] at room
      have one := Nat.pow_pos (n := rest.length) (show 0 < 64 by decide)
      have below : bits.toNat < 2 ^ 20 := by nlinarith
      have next := codePointContinued rfl same small below
      have masked : (continuation &&& 0x3f).toNat = low := by
        rw [← UInt8.toNat_toUInt32,@SubscriptionImport.maskedByte continuation 0x3f 6 rfl,same]
        omega
      rw [masked,Nat.mul_comm,← next]
      exact ih (by rw [next]; nlinarith)

theorem canonicalAgrees {first : UInt8} {rest : Bytes} {length : Nat} {bits final : UInt32}
    (start : sequenceStart first = some (length,bits))
    (fits : length ≤ rest.length + 1) (read : continued bits (rest.take (length - 1)) = some final) :
    ((length = 3 ∧ final.toNat < 0x800) ∨ (length = 4 ∧ final.toNat < 0x10000) ∨ (0xd800 ≤ final.toNat ∧ final.toNat ≤ 0xdfff) ∨
      final.toNat > 0x10ffff) ↔ ¬ ruledOut length first (rest.headD 0) = false := by
  rw [ruledOutIff]
  rcases sequenceStartIff.mp start with ⟨rfl,low,value⟩ | ⟨rfl,low,high,value⟩ | ⟨rfl,low,high,value⟩ | ⟨rfl,low,high,value⟩
  · cases Option.some.inj read
    omega
  · match rest,fits,read with
    | second :: tail,_,read =>
      obtain ⟨byte,read⟩ := continuedCons.mp read
      obtain ⟨m,isSecond,small⟩ := digitOf byte
      have total := codePointContinued value isSecond small (by omega)
      cases Option.some.inj read
      rw [total]
      clear total value byte
      omega
  · match rest,fits,read with
    | second :: third :: tail,_,read =>
      obtain ⟨byte,read⟩ := continuedCons.mp read
      obtain ⟨m,isSecond,small⟩ := digitOf byte
      obtain ⟨last,read⟩ := continuedCons.mp read
      obtain ⟨k,isThird,few⟩ := digitOf last
      have total := codePointContinued (codePointContinued value isSecond small (by omega)) isThird few (by omega)
      cases Option.some.inj read
      rw [total,List.headD_cons,isSecond]
      clear total value byte last isThird isSecond
      omega
  · match rest,fits,read with
    | second :: third :: fourth :: tail,_,read =>
      obtain ⟨byte,read⟩ := continuedCons.mp read
      obtain ⟨m,isSecond,small⟩ := digitOf byte
      obtain ⟨next,read⟩ := continuedCons.mp read
      obtain ⟨k,isThird,few⟩ := digitOf next
      obtain ⟨last,read⟩ := continuedCons.mp read
      obtain ⟨j,isFourth,less⟩ := digitOf last
      have total := codePointContinued
        (codePointContinued (codePointContinued value isSecond small (by omega)) isThird few (by omega)) isFourth less (by omega)
      cases Option.some.inj read
      rw [total,List.headD_cons,isSecond]
      clear total value byte last next isThird isSecond isFourth
      omega

theorem lengthAgrees {first : UInt8} {rest : Bytes} {length : Nat} :
    codepointLength first rest = .ok length ↔ ∃ bits final, sequenceStart first = some (length,bits) ∧ length ≤ rest.length + 1 ∧
      continued bits (rest.take (length - 1)) = some final ∧ ruledOut length first (rest.headD 0) = false := by
  unfold codepointLength
  cases begins : codepointStart first with
  | error message =>
    refine iff_of_false nofun ?_
    rintro ⟨bits,final,start,-⟩
    have found := startAgrees.mpr ⟨bits,start,rfl⟩
    rw [begins] at found
    cases found
  | ok found =>
    obtain ⟨wanted,value⟩ := found
    obtain ⟨bits,start,rfl⟩ := startAgrees.mp begins
    have same : ∀ {other length}, sequenceStart first = some (length,other) → length = wanted ∧ other = bits := by
      intro other length again
      cases start.symm.trans again
      exact ⟨rfl,rfl⟩
    simp only [bind,Except.bind]
    split
    · rename_i short
      refine iff_of_false nofun ?_
      rintro ⟨other,final,again,fits,-⟩
      obtain ⟨rfl,rfl⟩ := same again
      omega
    · rename_i long
      have fits : wanted ≤ rest.length + 1 := by omega
      have room : (bits.toNat + 1) * 64 ^ (rest.take (wanted - 1)).length ≤ 2 ^ 26 := by
        have kinds := sequenceStartIff.mp start
        rw [List.length_take,Nat.min_eq_left (by omega)]
        rcases kinds with ⟨rfl,few,value⟩ | ⟨rfl,few,more,value⟩ | ⟨rfl,few,more,value⟩ | ⟨rfl,few,more,value⟩
        all_goals
          simp only [Nat.reduceSub,Nat.reducePow,Nat.pow_zero]
          omega
      cases goesOn : continueCodepoint bits.toNat (rest.take (wanted - 1)) with
      | error message =>
        refine iff_of_false nofun ?_
        rintro ⟨other,final,again,-,read,-⟩
        obtain ⟨rfl,rfl⟩ := same again
        rw [(continueAgrees room).mpr ⟨final,read,rfl⟩] at goesOn
        cases goesOn
      | ok value =>
        obtain ⟨final,read,rfl⟩ := (continueAgrees room).mp goesOn
        have agrees := canonicalAgrees start fits read
        simp only
        split
        · rename_i ruled
          refine iff_of_false nofun ?_
          rintro ⟨other,_,again,-,-,allowed⟩
          obtain ⟨rfl,rfl⟩ := same again
          exact agrees.mp ruled allowed
        · rename_i allowed
          constructor
          · intro wants
            cases wants
            exact ⟨bits,final,start,fits,read,not_not.mp (mt agrees.mpr allowed)⟩
          · rintro ⟨other,_,again,-⟩
            rw [(same again).1]

theorem lengthEncoded {first : UInt8} {rest : Bytes} {length : Nat} (read : codepointLength first rest = .ok length) :
    ∃ c : Char, (first :: rest).take length = String.utf8EncodeChar c := by
  obtain ⟨bits,final,start,fits,goesOn,allowed⟩ := lengthAgrees.mp read
  obtain ⟨c,-,bytes⟩ := decodedChar start fits goesOn allowed
  exact ⟨c,bytes⟩

theorem encodedLength {c : Char} {first : UInt8} {more : Bytes} (sequence : Sequenced c first more) (tail : Bytes) :
    codepointLength first (more ++ tail) = .ok (more.length + 1) := by
  obtain ⟨bits,start,read⟩ := sequence.start
  refine lengthAgrees.mpr ⟨bits,c.val,start,?_,?_,sequence.allowed tail⟩
  · rw [List.length_append]
    omega
  · rw [Nat.add_sub_cancel,List.take_left]
    exact read

theorem codepointsEncoded : ∀ {fuel : Nat} {input : Bytes} {parts : List Bytes}, input.length ≤ fuel → codepoints fuel input = .ok parts →
    ∃ chars : List Char, input = encoded chars ∧ parts = chars.map String.utf8EncodeChar
  | fuel,[],parts,_,read => by
    rw [codepoints] at read
    cases read
    exact ⟨[],rfl,rfl⟩
  | fuel + 1,first :: rest,parts,enough,read => by
    rw [codepoints] at read
    obtain ⟨length,one,read⟩ := bindOk read
    obtain ⟨later,others,read⟩ := bindOk read
    cases read
    obtain ⟨c,bytes⟩ := lengthEncoded one
    have some_ : 0 < length := by
      obtain ⟨bits,final,start,-⟩ := lengthAgrees.mp one
      have kinds := sequenceStartIff.mp start
      omega
    have fewer : ((first :: rest).drop length).length ≤ fuel := by
      rw [List.length_drop,List.length_cons] at *
      omega
    obtain ⟨chars,same,parts⟩ := codepointsEncoded fewer others
    refine ⟨c :: chars,?_,?_⟩
    · rw [encoded,List.flatMap_cons,← bytes]
      exact (List.take_append_drop length (first :: rest)).symm.trans (congrArg _ same)
    · rw [bytes,parts,List.map_cons]

theorem encodedCodepoints (chars : List Char) : ∀ fuel, (encoded chars).length ≤ fuel →
    codepoints fuel (encoded chars) = .ok (chars.map String.utf8EncodeChar) := by
  induction chars with
  | nil => exact fun fuel _ => by cases fuel <;> rfl
  | cons c chars ih =>
    intro fuel enough
    obtain ⟨first,more,sequence⟩ := sequenced c
    have bytes : encoded (c :: chars) = first :: (more ++ encoded chars) := by
      rw [encoded,List.flatMap_cons,sequence.bytes]
      rfl
    rw [bytes,List.length_cons,List.length_append] at enough
    cases fuel with
    | zero => omega
    | succ fuel =>
      have whole : (first :: (more ++ encoded chars)).take (more.length + 1) = first :: more := by simp
      have after : (first :: (more ++ encoded chars)).drop (more.length + 1) = encoded chars := by simp
      rw [bytes,codepoints,encodedLength sequence]
      simp only [bind,Except.bind]
      rw [after,ih fuel (by omega),whole,← sequence.bytes]
      rfl

theorem encodedReversed (chars : List Char) : reverseUtf8Codepoints (encoded chars) = .ok (encoded chars.reverse) := by
  rw [reverseUtf8Codepoints,encodedCodepoints chars _ (Nat.le_refl _)]
  simp only [bind,Except.bind,encoded,List.flatMap_def,List.map_reverse]

theorem reversedEncoded {input output : Bytes} (read : reverseUtf8Codepoints input = .ok output) :
    ∃ chars : List Char, input = encoded chars := by
  obtain ⟨parts,split,-⟩ := bindOk read
  obtain ⟨chars,same,-⟩ := codepointsEncoded (Nat.le_refl _) split
  exact ⟨chars,same⟩

/- Accepted are the encodings of scalar values, whose order is reversed; twice gives the text back. -/
theorem utf8Reversed (input : Bytes) :
    ((∃ output, reverseUtf8Codepoints input = .ok output) ↔ ∃ chars : List Char, input = encoded chars) ∧
    (∀ chars : List Char, input = encoded chars → reverseUtf8Codepoints input = .ok (encoded chars.reverse)) ∧
    ∀ output, reverseUtf8Codepoints input = .ok output → reverseUtf8Codepoints output = .ok input := by
  refine ⟨⟨fun ⟨_,read⟩ => reversedEncoded read,?_⟩,?_,?_⟩
  · rintro ⟨chars,rfl⟩
    exact ⟨_,encodedReversed chars⟩
  · rintro chars rfl
    exact encodedReversed chars
  · intro output read
    obtain ⟨chars,rfl⟩ := reversedEncoded read
    cases (encodedReversed chars).symm.trans read
    rw [encodedReversed,List.reverse_reverse]

theorem accentReversed : reverseUtf8Codepoints [0xc3,0xa9,0x62] = .ok [0x62,0xc3,0xa9] :=
  (utf8Reversed [0xc3,0xa9,0x62]).2.1 ['é','b'] (by decide)

end KeenPbr.Srs
