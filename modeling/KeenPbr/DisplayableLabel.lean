import KeenPbr.SubscriptionImport

/-! displayable_label: what it shows is UTF-8 without control characters, and what of the readable bytes it keeps. -/
namespace KeenPbr.SubscriptionImport

section Bytes

theorem continuationByte (ch : UInt8) : ch &&& 0xc0 = 0x80 ↔ 0x80 ≤ ch.toNat ∧ ch.toNat < 0xc0 := by
  have table : ∀ n < 256, (n &&& 0xc0 = 0x80 ↔ 0x80 ≤ n ∧ n < 0xc0) := by
    set_option maxRecDepth 4000 in decide
  rw [← table ch.toNat ch.toNat_lt,← UInt8.toNat_inj,UInt8.toNat_and]
  rfl

theorem maskedByte (ch : UInt8) {mask : UInt8} {bits : Nat} (full : mask.toNat = 2 ^ bits - 1) :
    ((ch &&& mask).toUInt32).toNat = ch.toNat % 2 ^ bits := by
  rw [UInt8.toNat_toUInt32,UInt8.toNat_and,full,Nat.and_two_pow_sub_one_eq_mod]

theorem codePointContinued {codePoint : UInt32} {ch : UInt8} {n m : Nat} (value : codePoint.toNat = n) (byte : ch.toNat = 0x80 + m)
    (last : m < 64) (small : n < 2 ^ 20) : (codePoint <<< 6 ||| (ch &&& 0x3f).toUInt32).toNat = 64 * n + m := by
  subst value
  have low : ch.toNat % 2 ^ 6 < 2 ^ 6 := Nat.mod_lt _ (by decide)
  have shifted : (codePoint <<< 6).toNat = codePoint.toNat <<< 6 := by
    rw [UInt32.toNat_shiftLeft]
    refine Nat.mod_eq_of_lt ?_
    rw [Nat.shiftLeft_eq]
    exact show codePoint.toNat * 2 ^ 6 < 2 ^ 32 by omega
  rw [UInt32.toNat_or,shifted,@maskedByte ch 0x3f 6 rfl,← Nat.shiftLeft_add_eq_or_of_lt low,Nat.shiftLeft_eq]
  clear shifted small
  omega

theorem sequenceStartIff {first : UInt8} {length : Nat} {bits : UInt32} :
    sequenceStart first = some (length,bits) ↔
      (length = 1 ∧ first.toNat < 0x80 ∧ bits.toNat = first.toNat) ∨
      (length = 2 ∧ 0xc2 ≤ first.toNat ∧ first.toNat ≤ 0xdf ∧ bits.toNat = first.toNat % 32) ∨
      (length = 3 ∧ 0xe0 ≤ first.toNat ∧ first.toNat ≤ 0xef ∧ bits.toNat = first.toNat % 16) ∨
      (length = 4 ∧ 0xf0 ≤ first.toNat ∧ first.toNat ≤ 0xf4 ∧ bits.toNat = first.toNat % 8) := by
  have five := @maskedByte first 0x1f 5 rfl
  have four := @maskedByte first 0x0f 4 rfl
  have three := @maskedByte first 0x07 3 rfl
  unfold sequenceStart
  simp only [Bool.and_eq_true,decide_eq_true_eq,UInt8.le_iff_toNat_le,UInt8.reduceToNat]
  split
  · simp only [Option.some.injEq,Prod.mk.injEq,← UInt32.toNat_inj,UInt8.toNat_toUInt32]
    omega
  · split
    · simp only [Option.some.injEq,Prod.mk.injEq,← UInt32.toNat_inj,five]
      omega
    · split
      · simp only [Option.some.injEq,Prod.mk.injEq,← UInt32.toNat_inj,four]
        omega
      · split
        · simp only [Option.some.injEq,Prod.mk.injEq,← UInt32.toNat_inj,three]
          omega
        · simp only [reduceCtorEq,false_iff]
          omega

theorem continuedCons {codePoint final : UInt32} {ch : UInt8} {rest : Bytes} :
    continued codePoint (ch :: rest) = some final ↔
      (0x80 ≤ ch.toNat ∧ ch.toNat < 0xc0) ∧ continued (codePoint <<< 6 ||| (ch &&& 0x3f).toUInt32) rest = some final := by
  rw [continued,← continuationByte]
  split
  · rename_i other
    exact ⟨nofun,fun both => absurd both.1 other⟩
  · rename_i same
    exact ⟨fun read => ⟨not_not.mp same,read⟩,fun both => both.2⟩

theorem continuedBytes {codePoint final : UInt32} {rest : Bytes} (read : continued codePoint rest = some final) :
    ∀ ch ∈ rest, 0x80 ≤ ch.toNat ∧ ch.toNat < 0xc0 := by
  induction rest generalizing codePoint with
  | nil => exact fun ch mem => absurd mem List.not_mem_nil
  | cons first rest ih =>
    intro ch mem
    obtain ⟨byte,after⟩ := continuedCons.mp read
    rcases List.mem_cons.mp mem with rfl | later
    · exact byte
    · exact ih after ch later

theorem ruledOutIff {length : Nat} {first second : UInt8} :
    ruledOut length first second = false ↔
      (length = 3 → (first.toNat = 0xe0 → 0xa0 ≤ second.toNat) ∧ (first.toNat = 0xed → second.toNat ≤ 0x9f)) ∧
      (length = 4 → (first.toNat = 0xf0 → 0x90 ≤ second.toNat) ∧ (first.toNat = 0xf4 → second.toNat ≤ 0x8f)) := by
  simp only [ruledOut,Bool.or_eq_false_iff,Bool.and_eq_false_iff,beq_eq_false_iff_ne,decide_eq_false_iff_not,ne_eq,
    ← UInt8.toNat_inj,UInt8.lt_iff_toNat_lt,UInt8.reduceToNat]
  omega

end Bytes

section Characters

def encoded (chars : List Char) : Bytes := chars.flatMap String.utf8EncodeChar

def displayableChar (c : Char) : Bool := 0x20 ≤ c.val && c.val != 0x7f && !isC1OrBidirectionalControl c.val

theorem digitOf {n : Nat} (byte : 0x80 ≤ n ∧ n < 0xc0) : ∃ m, n = 0x80 + m ∧ m < 64 := ⟨n - 0x80,by omega,by omega⟩

theorem digitHigh {high low : Nat} (small : low < 64) : (64 * high + low) / 64 = high := by omega

theorem digitLow {high low : Nat} (small : low < 64) : (64 * high + low) % 64 = low := by omega

theorem ofNatByte {ch : UInt8} {n : Nat} (same : n = ch.toNat) : UInt8.ofNat n = ch := by
  rw [same]
  exact UInt8.ofNat_toNat

theorem charOf {codePoint : UInt32} (scalar : codePoint.toNat < 0xd800 ∨ 0xdfff < codePoint.toNat ∧ codePoint.toNat < 0x110000) :
    ∃ c : Char, c.val = codePoint :=
  ⟨⟨codePoint,scalar⟩,rfl⟩

theorem decodedChar {first : UInt8} {rest : Bytes} {length : Nat} {bits codePoint : UInt32}
    (start : sequenceStart first = some (length,bits)) (fits : length ≤ rest.length + 1)
    (read : continued bits (rest.take (length - 1)) = some codePoint) (allowed : ruledOut length first (rest.headD 0) = false) :
    ∃ c : Char, c.val = codePoint ∧ (first :: rest).take length = String.utf8EncodeChar c := by
  obtain ⟨three,four⟩ := ruledOutIff.mp allowed
  rcases sequenceStartIff.mp start with ⟨rfl,low,value⟩ | ⟨rfl,low,high,value⟩ | ⟨rfl,low,high,value⟩ | ⟨rfl,low,high,value⟩
  · clear three four
    have same : bits = codePoint := Option.some.inj read
    obtain ⟨c,rfl⟩ := charOf (Or.inl (show bits.toNat < 0xd800 by omega))
    refine ⟨c,same,?_⟩
    rw [String.utf8EncodeChar,if_pos (show c.val.toNat ≤ 0x7f by omega),ofNatByte value]
    rfl
  · clear three four
    match rest,fits,read with
    | second :: rest,_,read =>
      obtain ⟨byte,read⟩ := continuedCons.mp (show continued bits [second] = some codePoint from read)
      have same := Option.some.inj read
      have lead : first.toNat = bits.toNat + 0xc0 := by omega
      clear value
      obtain ⟨s,is,small⟩ := digitOf byte
      have total := @codePointContinued bits second _ s rfl is small (by omega)
      rw [same] at total
      obtain ⟨c,rfl⟩ := charOf (Or.inl (show codePoint.toNat < 0xd800 by omega))
      refine ⟨c,rfl,?_⟩
      rw [String.utf8EncodeChar,if_neg (show ¬c.val.toNat ≤ 0x7f by omega),if_pos (show c.val.toNat ≤ 0x7ff by omega),total,
        digitHigh small,digitLow small,@ofNatByte first _ (by omega),@ofNatByte second _ (by omega)]
      rfl
  · clear four
    match rest,fits,read,three rfl with
    | second :: third :: rest,_,read,bounds =>
      obtain ⟨byte,read⟩ := continuedCons.mp (show continued bits [second,third] = some codePoint from read)
      obtain ⟨byte',read⟩ := continuedCons.mp read
      have same := Option.some.inj read
      have lead : first.toNat = bits.toNat + 0xe0 := by omega
      clear value three
      obtain ⟨s,is,small⟩ := digitOf byte
      obtain ⟨t,is',small'⟩ := digitOf byte'
      have total := @codePointContinued bits second _ s rfl is small (by omega)
      have final := codePointContinued total is' small' (by omega)
      rw [same] at final
      simp only [List.headD_cons] at bounds
      have above : 0x7ff < codePoint.toNat ∧ codePoint.toNat ≤ 0xffff := by omega
      obtain ⟨c,rfl⟩ := charOf (show codePoint.toNat < 0xd800 ∨ 0xdfff < codePoint.toNat ∧ codePoint.toNat < 0x110000 by omega)
      clear bounds
      refine ⟨c,rfl,?_⟩
      rw [String.utf8EncodeChar,if_neg (show ¬c.val.toNat ≤ 0x7f by omega),if_neg (Nat.not_le_of_lt above.1),if_pos above.2,final,
        show 4096 = 64 * 64 from rfl,← Nat.div_div_eq_div_mul,digitHigh small',digitLow small',digitHigh small,digitLow small,
        @ofNatByte first _ (by omega),@ofNatByte second _ (by omega),@ofNatByte third _ (by omega)]
      rfl
  · clear three
    match rest,fits,read,four rfl with
    | second :: third :: fourth :: rest,_,read,bounds =>
      obtain ⟨byte,read⟩ := continuedCons.mp (show continued bits [second,third,fourth] = some codePoint from read)
      obtain ⟨byte',read⟩ := continuedCons.mp read
      obtain ⟨byte'',read⟩ := continuedCons.mp read
      have same := Option.some.inj read
      have lead : first.toNat = bits.toNat + 0xf0 := by omega
      clear value four
      obtain ⟨s,is,small⟩ := digitOf byte
      obtain ⟨t,is',small'⟩ := digitOf byte'
      obtain ⟨u,is'',small''⟩ := digitOf byte''
      have total := @codePointContinued bits second _ s rfl is small (by omega)
      have next := codePointContinued total is' small' (by omega)
      have final := codePointContinued next is'' small'' (by omega)
      rw [same] at final
      simp only [List.headD_cons] at bounds
      have above : 0xffff < codePoint.toNat ∧ codePoint.toNat < 0x110000 := by omega
      clear bounds
      obtain ⟨c,rfl⟩ := charOf (Or.inr (show 0xdfff < codePoint.toNat ∧ codePoint.toNat < 0x110000 by omega))
      refine ⟨c,rfl,?_⟩
      rw [String.utf8EncodeChar,if_neg (show ¬c.val.toNat ≤ 0x7f by omega),if_neg (show ¬c.val.toNat ≤ 0x7ff by omega),
        if_neg (Nat.not_le_of_lt above.1),final,show 262144 = 64 * 64 * 64 from rfl,show 4096 = 64 * 64 from rfl,
        ← Nat.div_div_eq_div_mul,← Nat.div_div_eq_div_mul,digitHigh small'',digitLow small'',digitHigh small',digitLow small',
        digitHigh small,digitLow small,
        @ofNatByte first _ (by omega),@ofNatByte second _ (by omega),@ofNatByte third _ (by omega),@ofNatByte fourth _ (by omega)]
      rfl

theorem byteOf {n : Nat} (small : n < 256) : (UInt8.ofNat n).toNat = n := UInt8.toNat_ofNat_of_lt' small

theorem scalarBits (n : Nat) (small : n < 2 ^ 32) : ∃ bits : UInt32, bits.toNat = n := ⟨UInt32.ofNat n,UInt32.toNat_ofNat_of_lt' small⟩

structure Sequenced (c : Char) (first : UInt8) (more : Bytes) : Prop where
  bytes : String.utf8EncodeChar c = first :: more
  start : ∃ bits, sequenceStart first = some (more.length + 1,bits) ∧ continued bits more = some c.val
  allowed : ∀ tail, ruledOut (more.length + 1) first ((more ++ tail).headD 0) = false

theorem sixBits (v : Nat) : ∃ high low, v = 64 * high + low ∧ low < 64 := ⟨v / 64,v % 64,by omega,by omega⟩

theorem sequenced (c : Char) : ∃ first more, Sequenced c first more := by
  have scalar : c.val.toNat < 0xd800 ∨ 0xdfff < c.val.toNat ∧ c.val.toNat < 0x110000 := c.valid
  generalize size : c.val.toNat = v at scalar
  by_cases one : v ≤ 0x7f
  · have byte := @byteOf v (by omega)
    refine ⟨UInt8.ofNat v,[],⟨?_,⟨c.val,?_,rfl⟩,?_⟩⟩
    · rw [String.utf8EncodeChar,size,if_pos one]
    · exact sequenceStartIff.mpr (Or.inl ⟨rfl,by omega,by omega⟩)
    · exact fun tail => ruledOutIff.mpr ⟨nofun,nofun⟩
  obtain ⟨n,u,rfl,small⟩ := sixBits v
  have last := @byteOf (u + 0x80) (by omega)
  have isLast : (UInt8.ofNat (u + 0x80)).toNat = 0x80 + u := last.trans (Nat.add_comm _ _)
  by_cases two : 64 * n + u ≤ 0x7ff
  · clear scalar
    have below : n < 32 := by omega
    have lead := @byteOf (n + 0xc0) (by omega)
    obtain ⟨bits,value⟩ := scalarBits n (by omega)
    have total := codePointContinued value isLast small (by omega)
    refine ⟨UInt8.ofNat (n + 0xc0),[UInt8.ofNat (u + 0x80)],⟨?_,⟨bits,?_,?_⟩,?_⟩⟩
    · rw [String.utf8EncodeChar,size,if_neg one,if_pos two,digitHigh small,digitLow small,Nat.mod_eq_of_lt below]
    · refine sequenceStartIff.mpr (Or.inr (Or.inl ⟨rfl,?_⟩))
      rw [lead,value]
      omega
    · exact continuedCons.mpr ⟨by omega,congrArg some (UInt32.toNat_inj.mp (total.trans size.symm))⟩
    · exact fun tail => ruledOutIff.mpr ⟨nofun,nofun⟩
  obtain ⟨m,s,rfl,small'⟩ := sixBits n
  have isThird : (UInt8.ofNat (s + 0x80)).toNat = 0x80 + s := (byteOf (by omega)).trans (Nat.add_comm _ _)
  by_cases three : 64 * (64 * m + s) + u ≤ 0xffff
  · have below : m < 16 := by omega
    have lead := @byteOf (m + 0xe0) (by omega)
    obtain ⟨bits,value⟩ := scalarBits m (by omega)
    have total := codePointContinued value isThird small' (by omega)
    have final := codePointContinued total isLast small (by omega)
    refine ⟨UInt8.ofNat (m + 0xe0),[UInt8.ofNat (s + 0x80),UInt8.ofNat (u + 0x80)],⟨?_,⟨bits,?_,?_⟩,?_⟩⟩
    · rw [String.utf8EncodeChar,size,if_neg one,if_neg two,if_pos three,show 4096 = 64 * 64 from rfl,← Nat.div_div_eq_div_mul,
        digitHigh small,digitLow small,digitHigh small',digitLow small',Nat.mod_eq_of_lt below]
    · clear scalar
      refine sequenceStartIff.mpr (Or.inr (Or.inr (Or.inl ⟨rfl,?_⟩)))
      rw [lead,value]
      omega
    · clear scalar
      exact continuedCons.mpr ⟨by omega,continuedCons.mpr ⟨by omega,congrArg some (UInt32.toNat_inj.mp (final.trans size.symm))⟩⟩
    · intro tail
      refine ruledOutIff.mpr ⟨fun _ => ?_,nofun⟩
      rw [List.cons_append,List.headD_cons,lead,isThird]
      clear total final value last isLast isThird
      omega
  obtain ⟨l,r,rfl,small''⟩ := sixBits m
  have isSecond : (UInt8.ofNat (r + 0x80)).toNat = 0x80 + r := (byteOf (by omega)).trans (Nat.add_comm _ _)
  have bound : 64 * (64 * (64 * l + r) + s) + u < 0x110000 := by omega
  clear scalar
  have below : l < 8 := by omega
  have lead := @byteOf (l + 0xf0) (by omega)
  obtain ⟨bits,value⟩ := scalarBits l (by omega)
  have total := codePointContinued value isSecond small'' (by omega)
  have next := codePointContinued total isThird small' (by omega)
  have final := codePointContinued next isLast small (by omega)
  refine ⟨UInt8.ofNat (l + 0xf0),[UInt8.ofNat (r + 0x80),UInt8.ofNat (s + 0x80),UInt8.ofNat (u + 0x80)],⟨?_,⟨bits,?_,?_⟩,?_⟩⟩
  · rw [String.utf8EncodeChar,size,if_neg one,if_neg two,if_neg three,show 262144 = 64 * 64 * 64 from rfl,show 4096 = 64 * 64 from rfl,
      ← Nat.div_div_eq_div_mul,← Nat.div_div_eq_div_mul,digitHigh small,digitLow small,digitHigh small',digitLow small',
      digitHigh small'',digitLow small'',Nat.mod_eq_of_lt below]
  · refine sequenceStartIff.mpr (Or.inr (Or.inr (Or.inr ⟨rfl,?_⟩)))
    rw [lead,value]
    omega
  · exact continuedCons.mpr ⟨by omega,continuedCons.mpr ⟨by omega,continuedCons.mpr ⟨by omega,
      congrArg some (UInt32.toNat_inj.mp (final.trans size.symm))⟩⟩⟩
  · intro tail
    refine ruledOutIff.mpr ⟨nofun,fun _ => ?_⟩
    rw [List.cons_append,List.headD_cons,lead,isSecond]
    clear total next final value last isLast isThird isSecond
    omega

end Characters

section Rounds
variable {first : UInt8} {rest value : Bytes} {fuel : Nat}

def Truncated (first : UInt8) (rest : Bytes) : Prop := ∃ length bits, sequenceStart first = some (length,bits) ∧ rest.length + 1 < length

def shown (c : Char) : Bytes := if displayableChar c then String.utf8EncodeChar c else []

theorem Sequenced.round {c : Char} {more tail : Bytes} (sequence : Sequenced c first more) :
    displayableFrom (fuel + 1) (first :: (more ++ tail)) = shown c ++ displayableFrom fuel tail := by
  obtain ⟨bits,start,read⟩ := sequence.start
  have whole : (first :: (more ++ tail)).take (more.length + 1) = first :: more := by simp
  have after : (first :: (more ++ tail)).drop (more.length + 1) = tail := by simp
  have taken : (more ++ tail).take (more.length + 1 - 1) = more := by simp
  have fits : ¬(first :: (more ++ tail)).length < more.length + 1 := by simp
  rw [displayableFrom,start]
  simp only
  rw [if_neg fits,taken,read]
  simp only
  rw [if_neg (Bool.eq_false_iff.mp (sequence.allowed tail)),whole,after,← sequence.bytes,shown]
  unfold displayableChar
  split
  · rfl
  · rfl

/- What one round does: it skips a byte that starts no character, stops at a truncated one, or takes a character. -/
theorem rounds (fuel : Nat) (first : UInt8) (rest : Bytes) :
    (0x80 ≤ first.toNat ∧ ¬Truncated first rest ∧ displayableFrom (fuel + 1) (first :: rest) = displayableFrom fuel rest) ∨
    (Truncated first rest ∧ displayableFrom (fuel + 1) (first :: rest) = []) ∨
    ∃ c more tail, Sequenced c first more ∧ rest = more ++ tail := by
  cases start : sequenceStart first with
  | none =>
    refine Or.inl ⟨?_,fun ⟨_,_,found,_⟩ => by simp [start] at found,?_⟩
    · refine Nat.le_of_not_lt fun small => ?_
      have one := sequenceStartIff.mpr (Or.inl ⟨rfl,small,@UInt8.toNat_toUInt32 first⟩)
      rw [start] at one
      cases one
    · rw [displayableFrom,start]
  | some found =>
    obtain ⟨length,bits⟩ := found
    by_cases short : rest.length + 1 < length
    · refine Or.inr (Or.inl ⟨⟨length,bits,start,short⟩,?_⟩)
      rw [displayableFrom,start]
      exact if_pos short
    · have whole : ¬Truncated first rest := fun ⟨_,_,found,less⟩ => by
        rw [start] at found
        cases found
        exact short less
      -- a length of one is always decoded, so that a byte skipped here is no ASCII byte
      have lead (other : length ≠ 1) : 0x80 ≤ first.toNat := by
        have kinds := sequenceStartIff.mp start
        omega
      have step := @displayableFrom.eq_3 fuel first rest
      rw [start] at step
      simp only at step
      rw [if_neg (show ¬(first :: rest).length < length from short)] at step
      cases read : continued bits (rest.take (length - 1)) with
      | none =>
        rw [read] at step
        refine Or.inl ⟨lead ?_,whole,step⟩
        rintro rfl
        cases read
      | some codePoint =>
        cases allowed : ruledOut length first (rest.headD 0) with
        | true =>
          rw [read] at step
          simp only [allowed,if_true] at step
          refine Or.inl ⟨lead ?_,whole,step⟩
          rintro rfl
          cases allowed
        | false =>
          obtain ⟨c,-,same⟩ := decodedChar start (Nat.le_of_not_lt short) read allowed
          obtain ⟨head,more,sequence⟩ := sequenced c
          have split := List.take_append_drop length (first :: rest)
          rw [same,sequence.bytes,List.cons_append] at split
          obtain ⟨rfl,tail⟩ := List.cons.inj split
          exact Or.inr (Or.inr ⟨c,more,_,sequence,tail.symm⟩)

end Rounds

section Kept
variable {value : Bytes}

def printable (ch : UInt8) : Bool := 0x20 ≤ ch && ch ≤ 0x7e

theorem printableIff {ch : UInt8} : printable ch = true ↔ 0x20 ≤ ch.toNat ∧ ch.toNat ≤ 0x7e := by
  rw [printable,Bool.and_eq_true,decide_eq_true_eq,decide_eq_true_eq]
  rfl

theorem highUnprintable {bytes : Bytes} (high : ∀ ch ∈ bytes, 0x80 ≤ ch.toNat) : bytes.filter printable = [] := by
  refine List.filter_eq_nil_iff.mpr fun ch mem shown => ?_
  have large := high ch mem
  have small := printableIff.mp shown
  omega

/- The one byte of an ASCII character is shown exactly when it can be read; the bytes of any other are not ASCII. -/
theorem shownPrintable {c : Char} {first : UInt8} {more : Bytes} (sequence : Sequenced c first more) :
    (shown c).filter printable = (first :: more).filter printable := by
  unfold shown
  split
  · rw [sequence.bytes]
  · rename_i hidden
    obtain ⟨bits,start,read⟩ := sequence.start
    have kinds := sequenceStartIff.mp start
    symm
    cases more with
    | nil =>
      have same : bits = c.val := Option.some.inj read
      refine List.filter_eq_nil_iff.mpr fun ch mem shown => hidden ?_
      obtain rfl := List.mem_singleton.mp mem
      have bounds := printableIff.mp shown
      have value : c.val.toNat = ch.toNat := by
        rw [← same]
        simp only [List.length_nil] at kinds
        omega
      simp only [displayableChar,isC1OrBidirectionalControl,Bool.and_eq_true,Bool.not_eq_true',Bool.or_eq_false_iff,
        Bool.and_eq_false_iff,decide_eq_true_eq,decide_eq_false_iff_not,bne_iff_ne,ne_eq,beq_eq_false_iff_ne,
        UInt32.le_iff_toNat_le,← UInt32.toNat_inj,UInt32.reduceToNat,value]
      omega
    | cons second more =>
      refine highUnprintable fun ch mem => ?_
      rcases List.mem_cons.mp mem with rfl | later
      · simp only [List.length_cons] at kinds
        omega
      · exact (continuedBytes read ch later).1

/- A readable byte stands behind a lead that announces more bytes than the text has left. -/
def CutShort (value : Bytes) : Prop := ∃ front lead rest, value = front ++ lead :: rest ∧ Truncated lead rest ∧
    ∃ ch ∈ rest, printable ch = true

theorem cutShortCons {first : UInt8} {rest : Bytes} :
    CutShort (first :: rest) ↔ (Truncated first rest ∧ ∃ ch ∈ rest, printable ch = true) ∨ CutShort rest := by
  constructor
  · rintro ⟨front,lead,behind,same,cut⟩
    cases front with
    | nil =>
      obtain ⟨rfl,rfl⟩ := List.cons.inj same
      exact Or.inl cut
    | cons head front =>
      exact Or.inr ⟨front,lead,behind,(List.cons.inj same).2,cut⟩
  · rintro (cut | ⟨front,lead,behind,rfl,cut⟩)
    · exact ⟨[],first,rest,rfl,cut⟩
    · exact ⟨first :: front,lead,behind,rfl,cut⟩

theorem notTruncated {first : UInt8} {rest : Bytes} (inner : 0x80 ≤ first.toNat ∧ first.toNat < 0xc0) : ¬Truncated first rest := by
  rintro ⟨length,bits,start,-⟩
  have kinds := sequenceStartIff.mp start
  omega

theorem cutShortInner {more tail : Bytes} (inner : ∀ ch ∈ more, 0x80 ≤ ch.toNat ∧ ch.toNat < 0xc0) :
    CutShort (more ++ tail) ↔ CutShort tail := by
  induction more with
  | nil => exact Iff.rfl
  | cons ch more ih =>
    rw [List.cons_append,cutShortCons,ih fun other mem => inner other (List.mem_cons_of_mem _ mem)]
    exact or_iff_right fun cut => notTruncated (inner ch List.mem_cons_self) cut.1

theorem Sequenced.cutShort {c : Char} {first : UInt8} {more tail : Bytes} (sequence : Sequenced c first more) :
    CutShort (first :: (more ++ tail)) ↔ CutShort tail := by
  obtain ⟨bits,start,read⟩ := sequence.start
  rw [cutShortCons,cutShortInner (continuedBytes read)]
  refine or_iff_right fun ⟨⟨length,other,found,short⟩,_⟩ => ?_
  rw [start] at found
  cases found
  rw [List.length_append] at short
  omega

theorem printableKept {fuel : Nat} (enough : value.length ≤ fuel) :
    (displayableFrom fuel value).filter printable = value.filter printable ↔ ¬CutShort value := by
  induction fuel generalizing value with
  | zero =>
    rw [List.eq_nil_of_length_eq_zero (Nat.le_zero.mp enough)]
    exact ⟨fun _ ⟨front,_,_,same,_⟩ => by simp at same,fun _ => rfl⟩
  | succ fuel ih =>
    cases value with
    | nil => exact ⟨fun _ ⟨front,_,_,same,_⟩ => by simp at same,fun _ => rfl⟩
    | cons first rest =>
      have bound : rest.length ≤ fuel := Nat.le_of_succ_le_succ enough
      rcases rounds fuel first rest with ⟨high,whole,next⟩ | ⟨short,next⟩ | ⟨c,more,tail,sequence,rfl⟩
      · have plain : ¬printable first = true := fun shown => by
          have small := printableIff.mp shown
          omega
        rw [next,List.filter_cons_of_neg plain,ih bound,cutShortCons]
        exact not_congr (or_iff_right fun cut => whole cut.1).symm
      · have plain : ¬printable first = true := fun shown => by
          have small := printableIff.mp shown
          obtain ⟨length,bits,start,less⟩ := short
          have kinds := sequenceStartIff.mp start
          omega
        rw [next,List.filter_cons_of_neg plain,List.filter_nil]
        -- nothing of the rest is shown, so that the two agree when the rest holds nothing readable
        refine ⟨fun none => ?_,fun none => ?_⟩
        · rintro ⟨front,lead,behind,same,-,ch,mem,shown⟩
          refine List.filter_eq_nil_iff.mp none.symm ch ?_ shown
          cases front with
          | nil => exact (List.cons.inj same).2 ▸ mem
          | cons head front =>
            rw [(List.cons.inj same).2]
            exact List.mem_append_right _ (List.mem_cons_of_mem _ mem)
        · exact (List.filter_eq_nil_iff.mpr fun ch mem shown => none (cutShortCons.mpr (Or.inl ⟨short,ch,mem,shown⟩))).symm
      · have tailBound : tail.length ≤ fuel := by
          rw [List.length_append] at bound
          omega
        rw [sequence.round,sequence.cutShort,← ih tailBound,List.filter_append,shownPrintable sequence,
          show first :: (more ++ tail) = (first :: more) ++ tail from rfl,List.filter_append]
        exact List.append_right_inj _

end Kept

section Labels
variable {value : Bytes} {fuel : Nat}

theorem shownEncoded {c : Char} {chars : List Char} (visible : ∀ c ∈ chars, displayableChar c = true) :
    ∃ all, shown c ++ encoded chars = encoded all ∧ ∀ c ∈ all, displayableChar c = true := by
  unfold shown
  split
  · rename_i here
    refine ⟨c :: chars,rfl,fun other mem => ?_⟩
    rcases List.mem_cons.mp mem with rfl | later
    · exact here
    · exact visible other later
  · exact ⟨chars,rfl,visible⟩

theorem labelEncoded : ∃ chars, displayableFrom fuel value = encoded chars ∧ ∀ c ∈ chars, displayableChar c = true := by
  have none : ∃ chars, ([] : Bytes) = encoded chars ∧ ∀ c ∈ chars, displayableChar c = true := ⟨[],rfl,nofun⟩
  induction fuel generalizing value with
  | zero => exact none
  | succ fuel ih =>
    cases value with
    | nil => exact none
    | cons first rest =>
      rcases rounds fuel first rest with ⟨-,-,next⟩ | ⟨-,next⟩ | ⟨c,more,tail,sequence,rfl⟩
      · rw [next]
        exact ih
      · rw [next]
        exact none
      · obtain ⟨chars,same,visible⟩ := @ih tail
        rw [sequence.round,same]
        exact shownEncoded visible

theorem labelSublist : (displayableFrom fuel value).Sublist value := by
  induction fuel generalizing value with
  | zero => exact List.nil_sublist _
  | succ fuel ih =>
    cases value with
    | nil => exact List.Sublist.refl _
    | cons first rest =>
      rcases rounds fuel first rest with ⟨-,-,next⟩ | ⟨-,next⟩ | ⟨c,more,tail,sequence,rfl⟩
      · rw [next]
        exact ih.cons first
      · rw [next]
        exact List.nil_sublist _
      · have here : (shown c).Sublist (first :: more) := by
          unfold shown
          split
          · exact sequence.bytes ▸ List.Sublist.refl _
          · exact List.nil_sublist _
        rw [sequence.round]
        exact here.append ih

theorem encodedUnchanged {chars : List Char} (visible : ∀ c ∈ chars, displayableChar c = true) (enough : (encoded chars).length ≤ fuel) :
    displayableFrom fuel (encoded chars) = encoded chars := by
  induction chars generalizing fuel with
  | nil =>
    cases fuel with
    | zero => rfl
    | succ fuel => rfl
  | cons c chars ih =>
    obtain ⟨first,more,sequence⟩ := sequenced c
    have bytes : encoded (c :: chars) = first :: (more ++ encoded chars) := by
      rw [encoded,List.flatMap_cons,sequence.bytes]
      rfl
    rw [bytes,List.length_cons,List.length_append] at enough
    cases fuel with
    | zero => omega
    | succ fuel =>
      have rest := ih (fun other mem => visible other (List.mem_cons_of_mem _ mem)) (show (encoded chars).length ≤ fuel by omega)
      have here : shown c = first :: more := by
        rw [shown,if_pos (visible c List.mem_cons_self),sequence.bytes]
      rw [bytes,sequence.round,rest,here]
      rfl

/- What a label promises: UTF-8 without control characters, a displayable text as it is, and of any other text
a subsequence with every readable byte. -/
structure Faithful (value : Bytes) : Prop where
  wellFormed : ∃ chars, displayableLabel value = encoded chars ∧ ∀ c ∈ chars, displayableChar c = true
  unchanged : ∀ chars, (∀ c ∈ chars, displayableChar c = true) → value = encoded chars → displayableLabel value = value
  part : (displayableLabel value).Sublist value
  readable : (displayableLabel value).filter printable = value.filter printable

/- A truncated character at the end takes the readable bytes behind its lead with it; nothing else does. -/
theorem labelFaithful (value : Bytes) : Faithful value ↔ ¬CutShort value := by
  refine ⟨fun faithful => (printableKept (Nat.le_refl _)).mp faithful.readable,fun whole => ⟨labelEncoded,?_,labelSublist,?_⟩⟩
  · rintro chars visible rfl
    exact encodedUnchanged visible (Nat.le_refl _)
  · exact (printableKept (Nat.le_refl _)).mpr whole

theorem labelUnreadable : ¬Faithful [0xf0,97,98] := by
  intro faithful
  have cut : CutShort [0xf0,97,98] := ⟨[],0xf0,[97,98],rfl,⟨4,0,rfl,by decide⟩,97,List.mem_cons_self,rfl⟩
  exact (printableKept (Nat.le_refl _)).mp faithful.readable cut

end Labels

end KeenPbr.SubscriptionImport
