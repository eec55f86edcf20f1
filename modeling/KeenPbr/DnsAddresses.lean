import KeenPbr.DnsRegistry
import KeenPbr.NormalEntries

/-! dns/dns_server.cpp: a parsed address stands for its bytes and its port, whatever spelling it was
read from, and each of its own spellings is read as the same value. -/
namespace KeenPbr.Dns
open Fields

section Numerals
variable {left right : Text}

theorem digitBounds {c : Char} (digit : isDigit c = true) : 48 ≤ c.toNat ∧ c.toNat ≤ 57 := by
  rw [isDigit,Bool.and_eq_true,decide_eq_true_eq,decide_eq_true_eq] at digit
  exact digit

theorem numeralSnoc (text : Text) (c : Char) : Nat.ofDigitChars 10 (text ++ [c]) 0 = 10 * Nat.ofDigitChars 10 text 0 + (c.toNat - 48) := by
  rw [Nat.ofDigitChars_append,Nat.ofDigitChars_cons,Nat.ofDigitChars_nil]
  rfl

theorem numeralPositive {text : Text} (digits : ∀ c ∈ text, isDigit c = true) (nonempty : text ≠ []) (front : text.head? ≠ some '0') :
    0 < Nat.ofDigitChars 10 text 0 := by
  cases text with
  | nil => exact absurd rfl nonempty
  | cons c rest =>
    have bounds := digitBounds (digits c List.mem_cons_self)
    have other : c.toNat ≠ 48 := fun same => front (congrArg some (Char.toNat_inj.mp same))
    rw [Nat.ofDigitChars_cons,Nat.ofDigitChars_eq_ofDigitChars_zero]
    have high : 0 < 10 * 0 + (c.toNat - '0'.toNat) := by
      change 0 < 10 * 0 + (c.toNat - 48)
      omega
    exact Nat.add_pos_left (Nat.mul_pos (Nat.pow_pos (by decide)) high) _

/- Digits that start with no zero are determined by their number; the induction takes the last digit off both. -/
theorem numeralInjective (leftDigits : ∀ c ∈ left, isDigit c = true) (rightDigits : ∀ c ∈ right, isDigit c = true)
    (leftFront : left.head? ≠ some '0')
    (rightFront : right.head? ≠ some '0') (same : Nat.ofDigitChars 10 left 0 = Nat.ofDigitChars 10 right 0) : left = right := by
  induction left using List.reverseRecOn generalizing right with
  | nil =>
    by_contra apart
    have positive := numeralPositive rightDigits (Ne.symm apart) rightFront
    rw [← same] at positive
    exact absurd positive (Nat.lt_irrefl 0)
  | append_singleton front last ih =>
    rcases List.eq_nil_or_concat right with rfl | ⟨other,final,rfl⟩
    · have positive := numeralPositive leftDigits (by simp) leftFront
      rw [same] at positive
      exact absurd positive (Nat.lt_irrefl 0)
    · rw [List.concat_eq_append] at same rightDigits rightFront ⊢
      rw [numeralSnoc,numeralSnoc] at same
      have lastBounds := digitBounds (leftDigits last (List.mem_append_right _ (List.mem_singleton_self _)))
      have finalBounds := digitBounds (rightDigits final (List.mem_append_right _ (List.mem_singleton_self _)))
      have lead {text : Text} {c : Char} (start : (text ++ [c]).head? ≠ some '0') : text.head? ≠ some '0' := by
        cases text with
        | nil => exact fun none_ => by cases none_
        | cons d rest => exact start
      have fronts := ih (fun c mem => leftDigits c (List.mem_append_left _ mem)) (fun c mem => rightDigits c (List.mem_append_left _ mem))
        (lead leftFront) (lead rightFront) (by omega)
      have lasts : last = final := Char.toNat_inj.mp (by omega)
      rw [fronts,lasts]

end Numerals

section Octets
variable {left right : Text}

theorem octetDigits {part : Text} (valid : validOctet part = true) :
    (∀ c ∈ part, isDigit c = true) ∧ part ≠ [] ∧ Nat.ofDigitChars 10 part 0 ≤ 255 ∧ (part.head? = some '0' → part = ['0']) := by
  rw [validOctet,Bool.and_eq_true,Bool.not_eq_true',Bool.and_eq_false_imp] at valid
  obtain ⟨plain,small⟩ := valid
  have front : part.head? = some '0' → part = ['0'] := by
    intro zero
    have single : ¬1 < part.length := by
      intro long
      rw [zero] at plain
      exact absurd (plain (decide_eq_true long)) (by decide)
    cases part with
    | nil => cases zero
    | cons c rest =>
      rw [List.length_cons] at single
      rw [List.length_eq_zero_iff.mp (by omega : rest.length = 0)]
      exact congrArg (· :: []) (Option.some.inj zero)
  unfold fromCharsUnsigned at small
  split at small
  · cases small
  · rename_i fine
    simp only [Bool.or_eq_true,Bool.not_eq_true',not_or,Bool.not_eq_true,Bool.not_eq_false,List.isEmpty_eq_false_iff] at fine
    exact ⟨fun c mem => List.all_eq_true.mp fine.1.2 c mem,fine.1.1,by simpa using small,front⟩

theorem octetInjective (leftValid : validOctet left = true) (rightValid : validOctet right = true)
    (same : UInt8.ofNat (decimal left) = UInt8.ofNat (decimal right)) : left = right := by
  obtain ⟨leftDigits,leftSome,leftSmall,leftZero⟩ := octetDigits leftValid
  obtain ⟨rightDigits,rightSome,rightSmall,rightZero⟩ := octetDigits rightValid
  have numbers : Nat.ofDigitChars 10 left 0 = Nat.ofDigitChars 10 right 0 := by
    have both := congrArg UInt8.toNat same
    unfold decimal at both
    rw [UInt8.toNat_ofNat',UInt8.toNat_ofNat'] at both
    omega
  have zero {text other : Text} (front : text.head? = some '0') (only : text.head? = some '0' → text = ['0'])
    (digits : ∀ c ∈ other, isDigit c = true)
      (nonempty : other ≠ []) (alone : other.head? = some '0' → other = ['0'])
        (same : Nat.ofDigitChars 10 text 0 = Nat.ofDigitChars 10 other 0) : text = other := by
    by_cases otherFront : other.head? = some '0'
    · rw [only front,alone otherFront]
    · have positive := numeralPositive digits nonempty otherFront
      rw [← same,only front] at positive
      exact absurd positive (by decide)
  by_cases leftFront : left.head? = some '0'
  · exact zero leftFront leftZero rightDigits rightSome rightZero numbers
  · by_cases rightFront : right.head? = some '0'
    · exact (zero rightFront rightZero leftDigits leftSome leftZero numbers.symm).symm
    · exact numeralInjective leftDigits rightDigits leftFront rightFront numbers

end Octets

section Splitting
variable {address host digits : Text} {port : Nat}

structure PortText (digits : Text) (port : Nat) : Prop where
  filled : digits ≠ []
  plain : ∀ c ∈ digits, isDigit c = true
  value : Nat.ofDigitChars 10 digits 0 = port
  low : 1 ≤ port
  high : port ≤ 65535

/- How an address is spelled: the host in brackets or bare, and behind a colon the port, which is 53 when it is left out. A bare host
with one colon would be read as a host with a port. -/
inductive Spelling : Text → Text → Nat → Prop where
  | bracketed {host : Text} (inside : ']' ∉ host) : Spelling ('[' :: (host ++ [']'])) host 53
  | bracketedPort {host digits : Text} {port : Nat} (inside : ']' ∉ host) (told : PortText digits port) :
      Spelling ('[' :: (host ++ ']' :: ':' :: digits)) host port
  | bare {host : Text} (filled : host ≠ []) (front : host.head? ≠ some '[') (colons : host.count ':' ≠ 1) : Spelling host host 53
  | barePort {host digits : Text} {port : Nat} (front : host.head? ≠ some '[') (single : ':' ∉ host) (told : PortText digits port) :
      Spelling (host ++ ':' :: digits) host port

theorem portReads : parseDnsPortOrThrow address digits = .ok port ↔ PortText digits port := by
  have number : fromCharsUnsigned digits = some port ↔ digits ≠ [] ∧ (∀ c ∈ digits, isDigit c = true) ∧
      Nat.ofDigitChars 10 digits 0 = port ∧ port < 2 ^ 32 := by
    rw [fromCharsUnsigned]
    split
    · rename_i odd
      simp only [Bool.or_eq_true,List.isEmpty_iff,Bool.not_eq_true',decide_eq_true_eq] at odd
      refine iff_of_false (Option.some_ne_none port).symm ?_
      rintro ⟨filled,plain,value,small⟩
      rcases odd with (empty | other) | large
      · exact absurd empty filled
      · rw [List.all_eq_true.mpr plain] at other
        cases other
      · omega
    · rename_i plain
      simp only [Bool.or_eq_true,List.isEmpty_iff,Bool.not_eq_true',decide_eq_true_eq,not_or,Bool.not_eq_false,List.all_eq_true] at plain
      rw [Option.some.injEq]
      exact ⟨fun same => ⟨plain.1.1,plain.1.2,same,by omega⟩,fun all => all.2.2.1⟩
  unfold parseDnsPortOrThrow
  constructor
  · intro read
    split at read
    · cases read
    · rename_i value found
      split at read
      · cases read
      · rename_i range
        cases read
        simp only [Bool.or_eq_true,decide_eq_true_eq,not_or] at range
        obtain ⟨filled,plain,told,-⟩ := number.mp found
        exact ⟨filled,plain,told,by omega,by omega⟩
  · intro told
    have fits : ¬(decide (port < 1) || decide (port > 65535)) = true := by
      rw [decide_eq_false (Nat.not_lt.mpr told.low),decide_eq_false (Nat.not_lt.mpr told.high)]
      exact Bool.false_ne_true
    rw [number.mpr ⟨told.filled,told.plain,told.value,told.high.trans_lt (by decide)⟩]
    exact if_neg fits

theorem cutBack {c : Char} {front back : Text} : (front ++ c :: back).drop (front.length + 1) = back := by
  rw [List.drop_append,List.drop_of_length_le (Nat.le_succ _),List.nil_append,Nat.add_sub_cancel_left]
  rfl

theorem textCut {c : Char} {text : Text} (mem : c ∈ text) :
    text.takeWhile (· != c) ++ c :: text.drop ((text.takeWhile (· != c)).length + 1) = text := by
  rcases cutCases c text with ⟨absent,_⟩ | ⟨back,_,whole⟩
  · exact absurd mem absent
  · have behind : text.drop ((text.takeWhile (· != c)).length + 1) = back := (congrArg (List.drop _) whole).trans cutBack
    rw [behind]
    exact whole.symm

theorem portTaken {ip : Text} (read : (parseDnsPortOrThrow address digits).map (fun port => (ip,port)) = .ok (host,port)) :
    ip = host ∧ PortText digits port := by
  cases number : parseDnsPortOrThrow address digits with
  | error _ =>
    rw [number] at read
    cases read
  | ok value =>
    rw [number] at read
    cases read
    exact ⟨rfl,portReads.mp number⟩

theorem splitSpelled (read : splitAddress address = .ok (host,port)) : Spelling address host port := by
  unfold splitAddress at read
  split at read
  · cases read
  · rename_i rest
    split at read
    · cases read
    · rename_i closed
      rw [Bool.not_eq_true',Bool.not_eq_false,List.contains_iff_mem] at closed
      have inside := @cutFree _ _ ']' rest
      have whole := textCut closed
      dsimp only at read
      generalize rest.takeWhile (· != ']') = ip at read inside whole
      generalize rest.drop (ip.length + 1) = tail at read whole
      subst whole
      split at read
      · cases read
        exact .bracketed inside
      · obtain ⟨rfl,told⟩ := portTaken read
        exact .bracketedPort inside told
      · cases read
  · rename_i filled front
    have unbracketed : address.head? ≠ some '[' := by
      intro first
      obtain ⟨rest,rfl⟩ := List.head?_eq_some_iff.mp first
      exact front rest rfl
    split at read
    · rename_i one
      have colon : ':' ∈ address := List.count_pos_iff.mp (by rw [beq_iff_eq.mp one]; decide)
      have inside := @cutFree _ _ ':' address
      have whole := textCut colon
      dsimp only at read
      obtain ⟨rfl,told⟩ := portTaken read
      generalize address.takeWhile (· != ':') = ip at inside whole told ⊢
      generalize address.drop (ip.length + 1) = tail at whole told
      subst whole
      refine .barePort (fun first => unbracketed ?_) inside told
      rw [List.head?_append,first]
      rfl
    · rename_i several
      cases read
      exact .bare filled unbracketed fun one => several (beq_iff_eq.mpr one)

theorem splitBare (filled : address ≠ []) (front : address.head? ≠ some '[') : splitAddress address =
    if address.count ':' == 1 then
      (parseDnsPortOrThrow address (address.drop ((address.takeWhile (· != ':')).length + 1))).map fun port =>
        (address.takeWhile (· != ':'),port)
    else .ok (address,53) := by
  unfold splitAddress
  split
  · exact absurd rfl filled
  · exact absurd rfl front
  · rfl

theorem spelledSplit (spelling : Spelling address host port) : splitAddress address = .ok (host,port) := by
  have taken {whole digits ip : Text} {port : Nat} (told : PortText digits port) :
      (parseDnsPortOrThrow whole digits).map (fun port => (ip,port)) = .ok (ip,port) := by
    rw [portReads.mpr told]
    rfl
  have bracket {ip tail : Text} (inside : ']' ∉ ip) : splitAddress ('[' :: (ip ++ ']' :: tail)) =
      match tail with
      | [] => .ok (ip,53)
      | ':' :: port => (parseDnsPortOrThrow ('[' :: (ip ++ ']' :: tail)) port).map fun port => (ip,port)
      | _ :: _ => .error (invalidAddress ('[' :: (ip ++ ']' :: tail)) "expected ':' after ']'" "config.dns.port_separator") := by
    have closed : (ip ++ ']' :: tail).contains ']' = true := List.contains_iff_mem.mpr (List.mem_append_right _ List.mem_cons_self)
    change (if (!(ip ++ ']' :: tail).contains ']') = true then _ else _) = _
    rw [closed,Bool.not_true,if_neg Bool.false_ne_true,cutFront inside,cutBack]
    rfl
  cases spelling with
  | bracketed inside => exact bracket inside
  | bracketedPort inside told => exact (bracket inside).trans (taken told)
  | bare filled front colons => rw [splitBare filled front,if_neg fun one => colons (beq_iff_eq.mp one)]
  | @barePort host digits port front single told =>
    have free : ':' ∉ digits := fun mem => absurd (told.plain _ mem) (by decide)
    have one : (host ++ ':' :: digits).count ':' = 1 := by
      rw [List.count_append,List.count_cons_self,List.count_eq_zero.mpr single,List.count_eq_zero.mpr free]
    have first : (host ++ ':' :: digits).head? ≠ some '[' := by
      cases host with
      | nil => exact (show some ':' ≠ some '[' by decide)
      | cons c rest => exact front
    rw [splitBare (List.append_ne_nil_of_right_ne_nil _ (List.cons_ne_nil _ _)) first,if_pos (beq_iff_eq.mpr one),cutFront single,cutBack]
    exact taken told

theorem Spelling.unique {ip : Text} {number : Nat} (spelling : Spelling address host port) (other : Spelling address ip number) :
    host = ip ∧ port = number :=
  Prod.mk.inj (Except.ok.inj ((spelledSplit spelling).symm.trans (spelledSplit other)))

theorem Spelling.range (spelling : Spelling address host port) : 1 ≤ port ∧ port ≤ 65535 := by
  cases spelling with
  | bracketed | bare => decide
  | bracketedPort _ told | barePort _ _ told => exact ⟨told.low,told.high⟩

end Splitting

section Hosts
variable {inet : Inet} {host other : Text} {bytes : List UInt8}

theorem dotsJoined (text : Text) : ['.'].intercalate (fields dotChar text) = text := by
  induction text with
  | nil => rfl
  | cons c rest ih =>
    obtain ⟨field,later,cut⟩ := fieldsCons dotChar rest
    rw [cut] at ih
    rw [fields]
    split
    · rename_i dot
      rw [cut,List.intercalate_cons_cons,ih,beq_iff_eq.mp dot]
      rfl
    · rw [cut]
      dsimp only
      cases later with
      | nil => rw [← ih]; rfl
      | cons next more =>
        rw [List.intercalate_cons_cons] at ih ⊢
        exact congrArg (c :: ·) ih

theorem validQuad (valid : isValidIpv4 host = true) : ∃ a b c d, host = a ++ '.' :: (b ++ '.' :: (c ++ '.' :: d)) ∧
    validOctet a = true ∧ validOctet b = true ∧ validOctet c = true ∧ validOctet d = true := by
  rw [isValidIpv4,Bool.and_eq_true,beq_iff_eq] at valid
  have whole := dotsJoined host
  obtain ⟨a,b,c,d,parts⟩ := List.length_eq_four.mp valid.1
  have octets := valid.2
  rw [parts] at octets
  simp only [List.all_cons,List.all_nil,Bool.and_true,Bool.and_eq_true] at octets
  refine ⟨a,b,c,d,?_,octets⟩
  rw [← whole,parts]
  simp [List.intercalate]

theorem octetByte {part : Text} (valid : validOctet part = true) : DecimalByte part := by
  obtain ⟨digits,nonempty,small,-⟩ := octetDigits valid
  exact ⟨digits,nonempty,small⟩

theorem validDotted (valid : isValidIpv4 host = true) : ∃ bytes, DottedQuad host bytes := by
  obtain ⟨a,b,c,d,rfl,first,second,third,fourth⟩ := validQuad valid
  exact ⟨_,.quad (octetByte first) (octetByte second) (octetByte third) (octetByte fourth)⟩

theorem quadBytes {a b c d : Text} (first : DecimalByte a) (second : DecimalByte b) (third : DecimalByte c) (fourth : DecimalByte d)
    (quad : DottedQuad (a ++ '.' :: (b ++ '.' :: (c ++ '.' :: d))) bytes) :
    bytes = [a,b,c,d].map fun part => UInt8.ofNat (decimal part) := by
  have own := quadParsed (.quad first second third fourth)
  rw [quadParsed quad] at own
  exact Option.some.inj own

theorem quadInjective (valid : isValidIpv4 host = true) (otherValid : isValidIpv4 other = true) (quad : DottedQuad host bytes)
    (otherQuad : DottedQuad other bytes) : host = other := by
  obtain ⟨a,b,c,d,rfl,first,second,third,fourth⟩ := validQuad valid
  obtain ⟨a',b',c',d',rfl,first',second',third',fourth'⟩ := validQuad otherValid
  have same := quadBytes (octetByte first) (octetByte second) (octetByte third) (octetByte fourth) quad
  rw [quadBytes (octetByte first') (octetByte second') (octetByte third') (octetByte fourth') otherQuad] at same
  simp only [List.map_cons,List.map_nil,List.cons.injEq,and_true] at same
  obtain ⟨one,two,three,four⟩ := same
  rw [octetInjective first' first one,octetInjective second' second two,octetInjective third' third three,
    octetInjective fourth' fourth four]

/- The bytes a host stands for: those of its dotted numbers, or what inet_pton reads. -/
inductive HostBytes (inet : Inet) (host : Text) : List UInt8 → Prop where
  | v4 {bytes : List UInt8} (quad : DottedQuad host bytes) : HostBytes inet host bytes
  | v6 {bytes : List UInt8} (read : inet.pton afInet6 (cString host) = some bytes) : HostBytes inet host bytes

/- The bytes and the port an address stands for. -/
def Denotes (inet : Inet) (address : Text) (bytes : List UInt8) (port : Nat) : Prop :=
  ∃ host, Spelling address host port ∧ HostBytes inet host bytes

inductive Taken (inet : Inet) (host : Text) : Text → List UInt8 → Prop where
  | v4 {bytes : List UInt8} (valid : isValidIpv4 host = true) (quad : DottedQuad host bytes) : Taken inet host host bytes
  | v6 {bytes : List UInt8} {shown : String} (dotted : isValidIpv4 host = false) (read : inet.pton afInet6 (cString host) = some bytes)
      (written : inet.ntop afInet6 bytes = some shown) : Taken inet host shown.toList bytes

theorem parsedTaken {address : Text} {parsed : ParsedDnsAddress} (read : parseDnsAddressStr inet address = .ok parsed) :
    ∃ host bytes, Spelling address host parsed.port ∧ Taken inet host parsed.ip bytes := by
  unfold parseDnsAddressStr at read
  split at read
  · cases read
  · rename_i host port split_
    split at read
    · rename_i valid
      cases read
      obtain ⟨bytes,quad⟩ := validDotted valid
      exact ⟨host,bytes,splitSpelled split_,.v4 valid quad⟩
    · rename_i dotted
      split at read
      · rename_i canonical found
        cases read
        unfold canonicalIpv6 at found
        split at found
        · cases found
        · obtain ⟨shown,bound,rfl⟩ := Option.map_eq_some_iff.mp found
          obtain ⟨bytes,taken,written⟩ := Option.bind_eq_some_iff.mp bound
          exact ⟨host,bytes,splitSpelled split_,.v6 (Bool.eq_false_iff.mpr dotted) taken written⟩
      · cases read

theorem v6Colon (spelled : inet.Spelled) (read : inet.pton afInet6 (cString host) = some bytes) : ':' ∈ host ∧ bytes.length = 16 := by
  obtain ⟨size,colon⟩ := spelled.documented.v6 _ _ read
  rw [cString,String.toList_ofList] at colon
  exact ⟨(List.takeWhile_sublist _).subset colon,size⟩

theorem Taken.bytes_ {ip : Text} (taken : Taken inet host ip bytes) : HostBytes inet host bytes := by
  cases taken with
  | v4 _ quad => exact .v4 quad
  | v6 _ read _ => exact .v6 read

theorem Taken.unique (spelled : inet.Spelled) {ip : Text} {others : List UInt8} (taken : Taken inet host ip bytes)
    (stands : HostBytes inet host others) :
    others = bytes := by
  cases taken with
  | v4 _ quad =>
    cases stands with
    | v4 quad' => exact Option.some.inj ((quadParsed quad').symm.trans (quadParsed quad))
    | v6 read => exact absurd (v6Colon spelled read).1 (quadShape quad).1
  | v6 _ read _ =>
    cases stands with
    | v4 quad => exact absurd (v6Colon spelled read).1 (quadShape quad).1
    | v6 read' => exact Option.some.inj (read'.symm.trans read)

theorem shownBack (spelled : inet.Spelled) {shown : String} (read : inet.pton afInet6 (cString host) = some bytes)
    (written : inet.ntop afInet6 bytes = some shown) : inet.pton afInet6 shown = some bytes := by
  refine spelled.back true bytes shown ?_ written
  rw [(v6Colon spelled read).2]
  rfl

theorem shownColon (spelled : inet.Spelled) {shown : String} (read : inet.pton afInet6 (cString host) = some bytes)
    (written : inet.ntop afInet6 bytes = some shown) : ':' ∈ shown.toList :=
  (spelled.documented.v6 _ _ (shownBack spelled read written)).2

theorem takenIff (spelled : inet.Spelled) {ip otherIp : Text} {others : List UInt8} (taken : Taken inet host ip bytes)
    (otherTaken : Taken inet other otherIp others) : ip = otherIp ↔ bytes = others := by
  cases taken with
  | v4 valid quad =>
    cases otherTaken with
    | v4 valid' quad' =>
      constructor
      · rintro rfl
        exact Option.some.inj ((quadParsed quad).symm.trans (quadParsed quad'))
      · rintro rfl
        exact quadInjective valid valid' quad quad'
    | v6 _ read written =>
      constructor
      · rintro rfl
        exact absurd (shownColon spelled read written) (quadShape quad).1
      · rintro rfl
        exact absurd ((quadShape quad).2.2.symm.trans (v6Colon spelled read).2) (by decide)
  | v6 _ read written =>
    cases otherTaken with
    | v4 _ quad =>
      constructor
      · rintro rfl
        exact absurd (shownColon spelled read written) (quadShape quad).1
      · rintro rfl
        exact absurd ((quadShape quad).2.2.symm.trans (v6Colon spelled read).2) (by decide)
    | v6 _ read' written' =>
      constructor
      · intro same
        have back := shownBack spelled read written
        rw [String.toList_inj.mp same,shownBack spelled read' written'] at back
        exact (Option.some.inj back).symm
      · rintro rfl
        rw [written] at written'
        rw [Option.some.inj written']

end Hosts

section Spellings
variable {inet : Inet} {address : Text} {parsed : ParsedDnsAddress}

theorem colonTextCount (groups : List Text) : groups.length ≤ (colonText groups).count ':' := by
  induction groups with
  | nil => exact Nat.zero_le _
  | cons group rest ih =>
    rw [colonText,List.flatMap_cons,List.count_append,List.count_cons_self,List.length_cons,← colonText]
    omega

theorem joinedCount (groups : List Text) : groups.length ≤ (joined groups).count ':' + 1 := by
  cases groups with
  | nil => exact Nat.zero_le _
  | cons group rest =>
    have more := colonTextCount rest
    rw [joined,List.count_append,List.length_cons]
    omega

theorem ipv6Colons {text : Text} {bytes : List UInt8} (shape : Ipv6Text text bytes) : 2 ≤ text.count ':' := by
  cases shape with
  | @full groups _ eight =>
    have many := joinedCount groups
    omega
  | short _ _ =>
    rw [List.count_append,List.count_cons_self,List.count_cons_self]
    omega
  | @fullQuad groups quad bytes _ six _ =>
    have many := joinedCount groups
    rw [List.count_append]
    omega
  | shortQuad _ _ _ =>
    rw [List.count_append,List.count_cons_self,List.count_append,List.count_cons_self]
    omega

theorem portSpelled {port : Nat} (low : 1 ≤ port) (high : port ≤ 65535) : PortText (toString port).toList port := by
  obtain ⟨digits,nonempty,number⟩ := toStringDigits port
  exact ⟨List.isEmpty_eq_false_iff.mp nonempty,List.all_eq_true.mp digits,number,low,high⟩

theorem takenAgain (spelled : inet.Spelled) {host ip : Text} {bytes : List UInt8} (taken : Taken inet host ip bytes)
    {text : Text} {port : Nat}
    (spelling : Spelling text ip port) : parseDnsAddressStr inet text = .ok ⟨ip,port⟩ := by
  unfold parseDnsAddressStr
  rw [spelledSplit spelling]
  dsimp only
  cases taken with
  | v4 valid quad => rw [if_pos valid]
  | @v6 _ shown dotted first written =>
    have back := shownBack spelled first written
    have colon := shownColon spelled first written
    have chars := addressChars spelled (spelled.back true bytes shown (by rw [(v6Colon spelled first).2]; rfl) written)
    have undotted : ¬isValidIpv4 shown.toList = true := by
      intro valid
      obtain ⟨others,quad⟩ := validDotted valid
      exact (quadShape quad).1 colon
    have absent {c : Char} (odd : addressChar c = false) : c ∉ shown.toList := by
      intro mem
      rw [chars c mem] at odd
      cases odd
    have plain : (shown.toList.isEmpty || shown.toList.contains '%') = false := by
      rw [Bool.or_eq_false_iff,List.isEmpty_eq_false_iff]
      exact ⟨List.ne_nil_of_mem colon,Bool.eq_false_iff.mpr fun mem => absent (by decide) (List.contains_iff_mem.mp mem)⟩
    have whole : cString shown.toList = shown := by
      rw [cString,List.takeWhile_eq_self_iff.mpr,String.ofList_toList]
      intro c mem
      rw [bne_iff_ne]
      rintro rfl
      exact absent (by decide) mem
    have canonical : canonicalIpv6 inet shown.toList = some shown.toList := by
      unfold canonicalIpv6
      rw [plain,if_neg Bool.false_ne_true,whole,back,Option.bind_some,written,Option.map_some]
    rw [if_neg undotted,canonical]

theorem takenSolid {host ip : Text} {bytes : List UInt8} (spelled : inet.Spelled) (taken : Taken inet host ip bytes) :
    ip ≠ [] ∧ (':' ∈ ip → 2 ≤ ip.count ':') := by
  cases taken with
  | v4 _ quad => exact ⟨List.ne_nil_of_mem (quadShape quad).2.1,fun colon => absurd colon (quadShape quad).1⟩
  | v6 _ read written => exact ⟨List.ne_nil_of_mem (shownColon spelled read written),fun _ =>
    ipv6Colons (spelled.v6 _ _ (shownBack spelled read written))⟩

theorem parsedIdentity (spelled : inet.Spelled) {other : Text} {otherParsed : ParsedDnsAddress}
    (read : parseDnsAddressStr inet address = .ok parsed)
    (otherRead : parseDnsAddressStr inet other = .ok otherParsed) :
    parsed = otherParsed ↔ ∃ bytes port, Denotes inet address bytes port ∧ Denotes inet other bytes port := by
  obtain ⟨host,bytes,spelling,taken⟩ := parsedTaken read
  obtain ⟨host',bytes',spelling',taken'⟩ := parsedTaken otherRead
  constructor
  · rintro rfl
    have same := (takenIff spelled taken taken').mp rfl
    subst same
    exact ⟨bytes,parsed.port,⟨host,spelling,taken.bytes_⟩,⟨host',spelling',taken'.bytes_⟩⟩
  · rintro ⟨shared,port,⟨found,cut,stands⟩,⟨found',cut',stands'⟩⟩
    obtain ⟨rfl,rfl⟩ := spelling.unique cut
    obtain ⟨rfl,ports⟩ := spelling'.unique cut'
    rw [taken.unique spelled stands] at stands'
    have ips := (takenIff spelled taken taken').mpr (taken'.unique spelled stands')
    cases parsed
    cases otherParsed
    simp only at ips ports
    rw [ips,ports]

theorem parsedRendered (spelled : inet.Spelled) (read : parseDnsAddressStr inet address = .ok parsed) :
    parseDnsAddressStr inet ('[' :: (parsed.ip ++ ']' :: ':' :: (toString parsed.port).toList)) = .ok parsed ∧
    (':' ∉ parsed.ip → parseDnsAddressStr inet (parsed.ip ++ ':' :: (toString parsed.port).toList) = .ok parsed) ∧
    (parsed.port = 53 → parseDnsAddressStr inet ('[' :: (parsed.ip ++ [']'])) = .ok parsed ∧
      parseDnsAddressStr inet parsed.ip = .ok parsed) := by
  obtain ⟨host,bytes,spelling,taken⟩ := parsedTaken read
  obtain ⟨nonempty,colons⟩ := takenSolid spelled taken
  have told : PortText (toString parsed.port).toList parsed.port := portSpelled spelling.range.1 spelling.range.2
  have inside : ']' ∉ parsed.ip := fun mem => absurd (parsedChars spelled read _ mem) (by decide)
  have front : parsed.ip.head? ≠ some '[' := fun first => absurd (parsedChars spelled read _ (List.mem_of_mem_head? first)) (by decide)
  refine ⟨takenAgain spelled taken (.bracketedPort inside told),fun single =>
    takenAgain spelled taken (.barePort front single told),fun standard => ⟨?_,?_⟩⟩
  · rw [takenAgain spelled taken (.bracketed inside),← standard]
  · have several : parsed.ip.count ':' ≠ 1 := by
      intro one
      have more := colons (List.count_pos_iff.mp (by omega))
      omega
    rw [takenAgain spelled taken (.bare nonempty front several),← standard]

/- A parsed address is the identity of its endpoint, and each of its spellings is read as the same value. -/
theorem addressIdentity (spelled : inet.Spelled) :
    (∀ address other parsed otherParsed, parseDnsAddressStr inet address = .ok parsed → parseDnsAddressStr inet other = .ok otherParsed →
      (parsed = otherParsed ↔ ∃ bytes port, Denotes inet address bytes port ∧ Denotes inet other bytes port)) ∧
    ∀ address parsed, parseDnsAddressStr inet address = .ok parsed →
      parseDnsAddressStr inet ('[' :: (parsed.ip ++ ']' :: ':' :: (toString parsed.port).toList)) = .ok parsed ∧
      (':' ∉ parsed.ip → parseDnsAddressStr inet (parsed.ip ++ ':' :: (toString parsed.port).toList) = .ok parsed) ∧
      (parsed.port = 53 → parseDnsAddressStr inet ('[' :: (parsed.ip ++ [']'])) = .ok parsed ∧
        parseDnsAddressStr inet parsed.ip = .ok parsed) :=
  ⟨fun _ _ _ _ read otherRead => parsedIdentity spelled read otherRead,fun _ _ read => parsedRendered spelled read⟩

theorem bracketedIdentity : parseDnsAddressStr plainInet (text "[9.9.9.9]") = .ok ⟨text "9.9.9.9",53⟩ ∧
    (∃ bytes port, Denotes plainInet (text "[9.9.9.9]") bytes port ∧ Denotes plainInet (text "9.9.9.9:53") bytes port) ∧
    parseDnsAddressStr plainInet (text "[9.9.9.9]:53") = .ok ⟨text "9.9.9.9",53⟩ := by
  have bracketed : parseDnsAddressStr plainInet (text "[9.9.9.9]") = .ok ⟨text "9.9.9.9",53⟩ := by decide
  have numbered : parseDnsAddressStr plainInet (text "9.9.9.9:53") = .ok ⟨text "9.9.9.9",53⟩ := by decide
  obtain ⟨identity,rendered⟩ := addressIdentity plainCanonical.toSpelled
  exact ⟨bracketed,(identity _ _ _ _ bracketed numbered).mp rfl,(rendered _ _ bracketed).1⟩

end Spellings
end KeenPbr.Dns
