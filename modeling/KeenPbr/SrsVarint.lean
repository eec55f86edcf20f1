import KeenPbr.SrsReader

/-! read_uvarint and the shortest LEB128 encoding. -/
namespace KeenPbr.Srs
open Wp (getOk modifyOk)

section Encoding

def leb128 (value : Nat) : Bytes :=
  if value < 128 then [UInt8.ofNat value] else UInt8.ofNat (value % 128 + 128) :: leb128 (value / 128)

def lebNumber : Bytes → Nat
  | [] => 0
  | byte :: rest => byte.toNat % 128 + 128 * lebNumber rest

theorem lebShort {value : Nat} (short : value < 128) : leb128 value = [UInt8.ofNat value] := by
  rw [leb128,if_pos short]

theorem lebLong {value : Nat} (long : ¬ value < 128) : leb128 value = UInt8.ofNat (value % 128 + 128) :: leb128 (value / 128) := by
  rw [leb128,if_neg long]

theorem byteNumber {n : Nat} (small : n < 256) : (UInt8.ofNat n).toNat = n := UInt8.toNat_ofNat_of_lt' small

theorem lebNumberOf (value : Nat) : lebNumber (leb128 value) = value := by
  induction value using Nat.strongRecOn with
  | _ value ih =>
    by_cases short : value < 128
    · rw [lebShort short,lebNumber,lebNumber,byteNumber (by omega)]
      omega
    · rw [lebLong short,lebNumber,ih (value / 128) (by omega),byteNumber (by omega)]
      omega

end Encoding

section Reading
variable {zlib : Zlib} {limits : SrsDecodeLimits} {what : String} {d d' : Decoder zlib}

/- The bytes are the next ones of the decompressed payload, and the reader stands behind them afterwards. -/
def Consumes (limits : SrsDecodeLimits) (what : String) (d : Decoder zlib) (bytes : Bytes) (d' : Decoder zlib) : Prop :=
  readExact limits what bytes.length d = .ok bytes d'

theorem consumesNil : Consumes limits what d [] d' ↔ d = d' := by
  constructor
  · intro read
    cases read
    rfl
  · rintro rfl
    rfl

theorem consumesCons {byte : UInt8} {rest : Bytes} :
    Consumes limits what d (byte :: rest) d' ↔ ∃ next, readByte limits what d = .ok byte next ∧ Consumes limits what next rest d' := by
  unfold Consumes
  simp only [List.length_cons,readExact,bind,EStateM.bind]
  cases read : readByte limits what d with
  | error => exact iff_of_false nofun (by rintro ⟨next,found,-⟩; cases found)
  | ok found next =>
    cases later : readExact limits what rest.length next with
    | error =>
      simp only [later]
      refine iff_of_false nofun ?_
      rintro ⟨other,same,others⟩
      cases same
      rw [later] at others
      cases others
    | ok others last =>
      simp only [later]
      constructor
      · intro same
        cases same
        exact ⟨next,rfl,later⟩
      · rintro ⟨other,same,again⟩
        cases same
        rw [later] at again
        cases again
        rfl

theorem moreFollow (byte : UInt8) : byte &&& 0x80 = 0 ↔ byte.toNat < 128 := by
  have table : ∀ n < 256, (n &&& 0x80 = 0 ↔ n < 128) := by
    set_option maxRecDepth 4000 in decide
  rw [← table byte.toNat byte.toNat_lt,← UInt8.toNat_inj,UInt8.toNat_and]
  rfl

theorem sevenBits (byte : UInt8) : (byte &&& 0x7f).toNat = byte.toNat % 128 := by
  rw [UInt8.toNat_and]
  exact Nat.and_two_pow_sub_one_eq_mod _ 7

theorem placed {value : UInt64} {byte : UInt8} {index : Nat} (free : value.toNat < 2 ^ (7 * index)) (few : index ≤ 9)
    (fits : byte.toNat % 128 * 2 ^ (7 * index) < 2 ^ 64) :
    (value ||| ((byte &&& 0x7f).toUInt64 <<< UInt64.ofNat (index * 7))).toNat = value.toNat + byte.toNat % 128 * 2 ^ (7 * index) := by
  have shift : (UInt64.ofNat (index * 7)).toNat % 64 = 7 * index := by
    rw [UInt64.toNat_ofNat_of_lt' (by omega : index * 7 < 2 ^ 64)]
    omega
  rw [UInt64.toNat_or,UInt64.toNat_shiftLeft,shift,UInt8.toNat_toUInt64,sevenBits,Nat.shiftLeft_eq,Nat.mod_eq_of_lt fits,Nat.or_comm,
    ← Nat.shiftLeft_eq,← Nat.shiftLeft_add_eq_or_of_lt free,Nat.add_comm]

theorem lebRead {byte : UInt8} {next : Decoder zlib} {number : Nat} (read : readByte limits what d = .ok byte next) :
    Consumes limits what d (leb128 number) d' ↔ (number = byte.toNat ∧ byte.toNat < 128 ∧ next = d') ∨
      (128 ≤ number ∧ number % 128 + 128 = byte.toNat ∧ Consumes limits what next (leb128 (number / 128)) d') := by
  by_cases short : number < 128
  · rw [lebShort short,consumesCons,read]
    constructor
    · rintro ⟨other,same,rest⟩
      cases same
      have own := @byteNumber number (by omega)
      exact .inl ⟨own.symm,by omega,consumesNil.mp rest⟩
    · rintro (⟨same,-,rfl⟩ | ⟨long,-⟩)
      · rw [same,UInt8.ofNat_toNat]
        exact ⟨next,rfl,consumesNil.mpr rfl⟩
      · omega
  · rw [lebLong short,consumesCons,read]
    constructor
    · rintro ⟨other,same,rest⟩
      cases same
      exact .inr ⟨by omega,(byteNumber (by omega)).symm,rest⟩
    · rintro (⟨same,few,-⟩ | ⟨-,same,rest⟩)
      · omega
      · rw [same,UInt8.ofNat_toNat]
        exact ⟨next,rfl,rest⟩

theorem uvarintFrom (left : Nat) : ∀ {index : Nat} {value out : UInt64} {d d' : Decoder zlib}, left + index = 10 →
    value.toNat < 2 ^ (7 * index) →
    (readUvarintFrom limits what left index value d = .ok out d' ↔
      ∃ number, out.toNat = value.toNat + number * 2 ^ (7 * index) ∧ (index ≠ 0 → number ≠ 0) ∧
        Consumes limits what d (leb128 number) d') := by
  induction left with
  | zero =>
    intro index value out d d' ten free
    refine iff_of_false nofun ?_
    rintro ⟨number,same,used,-⟩
    have last := out.toNat_lt
    have wide : 1 * 2 ^ 70 ≤ number * 2 ^ (7 * index) := Nat.mul_le_mul (by omega) (Nat.pow_le_pow_right (by decide) (by omega))
    omega
  | succ left ih =>
    intro index value out d d' ten free
    have few : index ≤ 9 := by omega
    have last := out.toNat_lt
    have place : 0 < 2 ^ (7 * index) := Nat.pow_pos (by decide)
    rw [readUvarintFrom]
    simp only [bind,EStateM.bind]
    cases read : readByte limits what d with
    | error =>
      refine iff_of_false nofun ?_
      rintro ⟨number,-,-,consumed⟩
      by_cases short : number < 128
      · rw [lebShort short,consumesCons,read] at consumed
        obtain ⟨_,found,-⟩ := consumed
        cases found
      · rw [lebLong short,consumesCons,read] at consumed
        obtain ⟨_,found,-⟩ := consumed
        cases found
    | ok byte next =>
      have small := byte.toNat_lt
      simp only [lebRead read,failIf]
      by_cases overflow : index = 9 ∧ byte > 1
      · rw [if_pos overflow]
        refine iff_of_false nofun ?_
        obtain ⟨rfl,two⟩ := overflow
        rw [gt_iff_lt,UInt8.lt_iff_toNat_lt] at two
        simp only [UInt8.reduceToNat,Nat.reduceMul,Nat.reducePow] at two free last ⊢
        rintro ⟨number,same,-,⟨rfl,-⟩ | ⟨long,-⟩⟩
        · omega
        · omega
      · rw [if_neg overflow]
        have one : index = 9 → byte.toNat ≤ 1 := by
          intro nine
          by_contra more
          exact overflow ⟨nine,UInt8.lt_iff_toNat_lt.mpr (Nat.lt_of_not_le more)⟩
        have fits : byte.toNat % 128 * 2 ^ (7 * index) < 2 ^ 64 := by
          by_cases nine : index = 9
          · subst nine
            have := one rfl
            omega
          · calc byte.toNat % 128 * 2 ^ (7 * index)
              _ < 2 ^ 7 * 2 ^ (7 * index) := Nat.mul_lt_mul_of_pos_right (Nat.mod_lt _ (by decide)) place
              _ = 2 ^ (7 + 7 * index) := (Nat.pow_add 2 7 _).symm
              _ ≤ 2 ^ 64 := Nat.pow_le_pow_right (by decide) (by omega)
        have sum := placed free few fits
        simp only [pure,EStateM.pure]
        by_cases short : byte.toNat < 128
        · have low : byte.toNat % 128 = byte.toNat := Nat.mod_eq_of_lt short
          have zero : byte &&& 0x7f = 0 ↔ byte.toNat = 0 := by
            rw [← UInt8.toNat_inj,sevenBits,low]
            rfl
          rw [if_pos ((moreFollow byte).mpr short)]
          rw [low] at sum
          by_cases padded : index ≠ 0 ∧ byte &&& 0x7f = 0
          · rw [if_pos padded]
            refine iff_of_false nofun ?_
            rintro ⟨number,-,used,⟨rfl,-⟩ | ⟨long,same,-⟩⟩
            · exact used padded.1 (zero.mp padded.2)
            · omega
          · rw [if_neg padded]
            constructor
            · intro same
              cases same
              exact ⟨byte.toNat,sum,fun later none => padded ⟨later,zero.mpr none⟩,.inl ⟨rfl,short,rfl⟩⟩
            · rintro ⟨number,same,-,⟨rfl,-,rfl⟩ | ⟨long,same',-⟩⟩
              · exact congrArg (fun read : UInt64 => EStateM.Result.ok read next) (UInt64.toNat_inj.mp (sum.trans same.symm))
              · omega
        · rw [if_neg (fun single => short ((moreFollow byte).mp single))]
          have next_ : 2 ^ (7 * (index + 1)) = 128 * 2 ^ (7 * index) := by
            rw [Nat.mul_add,Nat.mul_one,Nat.pow_add,Nat.mul_comm]
          have below : byte.toNat % 128 * 2 ^ (7 * index) + 2 ^ (7 * index) ≤ 128 * 2 ^ (7 * index) := by
            rw [← Nat.succ_mul]
            exact Nat.mul_le_mul_right _ (Nat.mod_lt _ (by decide))
          rw [ih (by omega) (by rw [sum,next_]; omega),sum]
          constructor
          · rintro ⟨number,same,used,consumed⟩
            have some_ := used (Nat.succ_ne_zero index)
            refine ⟨number * 128 + byte.toNat % 128,?_,fun _ => by omega,.inr ⟨by omega,by omega,?_⟩⟩
            · rw [same,next_,Nat.add_mul,Nat.mul_assoc]
              omega
            · rw [show (number * 128 + byte.toNat % 128) / 128 = number by omega]
              exact consumed
          · rintro ⟨number,same,used,⟨rfl,few',-⟩ | ⟨long,own,consumed⟩⟩
            · exact absurd few' short
            · refine ⟨number / 128,?_,fun _ => by omega,consumed⟩
              have parts : number * 2 ^ (7 * index) = number / 128 * (128 * 2 ^ (7 * index)) + byte.toNat % 128 * 2 ^ (7 * index) := by
                rw [← Nat.mul_assoc,← Nat.add_mul]
                congr 1
                omega
              rw [same,next_,parts]
              omega

def handedOut (reader : InflateReader zlib) : Int := (reader.decompressedBytes : Int) - reader.output.length

theorem roundHanded {reader next : InflateReader zlib} {outcome : Option Bool} (round : inflateRound limits reader = .ok (next,outcome)) :
    handedOut next = reader.decompressedBytes ∧ (outcome = none → next.decompressedBytes = reader.decompressedBytes) := by
  unfold inflateRound at round
  dsimp only at round
  split at round
  · cases round
  · split at round
    · cases round
    · cases round
      exact ⟨by simp [handedOut],nofun⟩
    · cases round
      refine ⟨by simp [handedOut],fun again => ?_⟩
      split at again
      · rename_i nothing
        rw [List.isEmpty_iff] at nothing
        simp [nothing]
      · cases again

theorem loopHanded (fuel : Nat) {reader next : InflateReader zlib} {answer : Bool}
    (loop : fillLoop limits fuel reader = .ok (next,answer)) :
    handedOut next = reader.decompressedBytes := by
  refine @fillLoopRule zlib limits (fun at_ => at_.decompressedBytes = reader.decompressedBytes)
    (fun at_ => handedOut at_ = reader.decompressedBytes) ?_ ?_ fuel reader next answer rfl loop
  · intro loading loaded more kept load
    rw [← kept]
    unfold loadInput at load
    dsimp only at load
    repeat' split at load
    all_goals cases load
    all_goals rfl
  · intro before after outcome kept round
    obtain ⟨handed,unchanged⟩ := roundHanded round
    split
    · exact (unchanged ‹_›).trans kept
    · rw [handed,kept]

theorem takeEmpty (stored : d.reader.output = []) : takeOutput d = .ok none d := by
  simp [takeOutput,bind,EStateM.bind,getOk,stored,pure,EStateM.pure]

theorem takeHanded {byte : UInt8} {next : Decoder zlib} (took : takeOutput d = .ok (some byte) next) :
    handedOut next.reader = handedOut d.reader + 1 := by
  cases stored : d.reader.output with
  | nil =>
    rw [takeEmpty stored] at took
    cases took
  | cons first rest =>
    simp [takeOutput,getOk,stored,pure,EStateM.pure,modifyOk,bind,EStateM.bind] at took
    obtain ⟨-,rfl⟩ := took
    simp only [handedOut,stored,List.length_cons]
    omega

theorem fillHanded {reader : InflateReader zlib} {more : Bool} (stored : d.reader.output = [])
    (fill : fillOutput limits d.reader = .ok (reader,more)) :
    handedOut reader = handedOut d.reader := by
  unfold fillOutput at fill
  split at fill
  · cases fill
    rfl
  · rw [loopHanded _ fill]
    simp [handedOut,stored]

theorem byteHanded {byte : UInt8} {next : Decoder zlib} (read : readByte limits what d = .ok byte next) :
    handedOut next.reader = handedOut d.reader + 1 := by
  have tried : tryReadByte limits d = .ok (some byte) next := by
    simp only [readByte,bind,EStateM.bind] at read
    cases tried : tryReadByte limits d with
    | error =>
      rw [tried] at read
      cases read
    | ok found after =>
      rw [tried] at read
      cases found with
      | none => cases read
      | some found =>
        cases read
        rfl
  simp only [tryReadByte,bind,EStateM.bind] at tried
  cases stored : d.reader.output with
  | cons first rest =>
    cases took : takeOutput d with
    | error =>
      rw [took] at tried
      cases tried
    | ok found after =>
      rw [took] at tried
      cases found with
      | none =>
        simp [takeOutput,getOk,stored,pure,EStateM.pure,modifyOk,bind,EStateM.bind] at took
      | some found =>
        cases tried
        exact takeHanded took
  | nil =>
    rw [takeEmpty stored] at tried
    simp only [fillReader,bind,EStateM.bind,getOk] at tried
    cases fill : fillOutput limits d.reader with
    | error =>
      simp only [fill] at tried
      cases tried
    | ok filled =>
      obtain ⟨reader,more⟩ := filled
      simp only [fill] at tried
      rw [← fillHanded stored fill]
      cases more with
      | true => exact @takeHanded zlib { d with reader } byte next tried
      | false => cases tried

theorem consumesHanded {bytes : Bytes} : ∀ {d : Decoder zlib}, Consumes limits what d bytes d' →
    handedOut d'.reader = handedOut d.reader + bytes.length := by
  induction bytes with
  | nil =>
    intro d consumed
    cases consumesNil.mp consumed
    simp
  | cons byte rest ih =>
    intro d consumed
    obtain ⟨next,read,later⟩ := consumesCons.mp consumed
    rw [ih later,byteHanded read,List.length_cons]
    omega

theorem uvarintExact (d d' : Decoder zlib) (value : UInt64) :
    (readUvarint limits what d = .ok value d' ↔ Consumes limits what d (leb128 value.toNat) d') ∧
    (∀ bytes, readUvarint limits what d = .ok value d' → Consumes limits what d bytes d' → bytes = leb128 value.toNat) ∧
    lebNumber (leb128 value.toNat) = value.toNat := by
  have exact_ : readUvarint limits what d = .ok value d' ↔ Consumes limits what d (leb128 value.toNat) d' := by
    rw [readUvarint,uvarintFrom 10 (by decide) (by decide)]
    constructor
    · rintro ⟨number,same,-,consumed⟩
      rw [same]
      simpa using consumed
    · intro consumed
      exact ⟨value.toNat,by simp,fun more => absurd rfl more,consumed⟩
  refine ⟨exact_,?_,lebNumberOf _⟩
  intro bytes read consumed
  have own := exact_.mp read
  have long : bytes.length = (leb128 value.toNat).length := by
    have one := consumesHanded consumed
    have two := consumesHanded own
    omega
  unfold Consumes at consumed own
  rw [long,own] at consumed
  cases consumed
  rfl

/- Three hundred in two bytes; the byte behind them stays. -/
theorem threeHundredRead : readUvarint {} "count" (buffered [0xac,0x02,0x07]) = .ok 300
    { buffered [0xac,0x02,0x07] with reader.output := [0x07] } := by
  refine (uvarintExact _ _ 300).1.mpr ?_
  have encoded : leb128 (300 : UInt64).toNat = [0xac,0x02] := by
    rw [lebLong (by decide),lebShort (by decide)]
    rfl
  rw [encoded]
  rfl

end Reading

end KeenPbr.Srs
