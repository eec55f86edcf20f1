import KeenPbr.DnsAddresses
import KeenPbr.DnsmasqPrecedence
import KeenPbr.ListSourceDecoder

/-! The counters of the decoder agree with each other, and the text of a complete source decodes to the entries it was made of. -/
namespace KeenPbr.ListSource
open Fields ListNormalization DecodeContext
open Dnsmasq (asciiLower domainChar PlainDomain lowerChar lowerPlain lowerAgain starless normalizedPlain normalizedTrimmed)

section Lengths
variable {s : Text} {bytes : List UInt8}

def zeroLed (part : Text) : Bool := part.length > 1 && part.head? == some '0' && part.all isDigit

theorem decimalShort {part : Text} (byte : DecimalByte part) (plain : zeroLed part = false) : part.length ≤ 3 := by
  by_contra long
  have all : part.all isDigit = true := List.all_eq_true.mpr byte.digits
  have front : part.head? ≠ some '0' := by
    intro zero
    rw [zeroLed,all,zero,decide_eq_true (show part.length > 1 by omega)] at plain
    cases plain
  cases part with
  | nil => exact absurd rfl byte.nonempty
  | cons c rest =>
    have bounds := Dns.digitBounds (byte.digits c List.mem_cons_self)
    have other : c.toNat ≠ 48 := fun same => front (congrArg some (Char.toNat_inj.mp same))
    have value := byte.byte
    rw [decimal,Nat.ofDigitChars_cons,Nat.ofDigitChars_eq_ofDigitChars_zero] at value
    have high : 1 ≤ 10 * 0 + (c.toNat - '0'.toNat) := by
      change 1 ≤ 10 * 0 + (c.toNat - 48)
      omega
    have grown : 10 ^ 3 ≤ 10 ^ rest.length := Nat.pow_le_pow_right (by decide) (by rw [List.length_cons] at long; omega)
    have product : 10 ^ rest.length * 1 ≤ 10 ^ rest.length * (10 * 0 + (c.toNat - '0'.toNat)) := Nat.mul_le_mul_left _ high
    omega

theorem quadShort (quad : DottedQuad s bytes) (plain : (fields dotChar s).any zeroLed = false) : s.length ≤ 15 := by
  obtain ⟨first,second,third,fourth⟩ := quad
  have free {part : Text} (byte : DecimalByte part) : ∀ c ∈ part, dotChar c = false := by
    intro c mem
    rw [Bool.eq_false_iff]
    intro dot
    have digit := byte.digits c mem
    rw [beq_iff_eq.mp dot] at digit
    exact absurd digit (by decide)
  rw [fieldsNext dotChar (free first) rfl,fieldsNext dotChar (free second) rfl,fieldsNext dotChar (free third) rfl,
    fieldsWhole dotChar (free fourth)] at plain
  simp only [List.any_cons,List.any_nil,Bool.or_false,Bool.or_eq_false_iff] at plain
  have a := decimalShort first plain.1
  have b := decimalShort second plain.2.1
  have c := decimalShort third plain.2.2.1
  have d := decimalShort fourth plain.2.2.2
  simp only [List.length_append,List.length_cons]
  omega

theorem colonShort {groups : List Text} (hex : ∀ group ∈ groups, HexGroup group) : (colonText groups).length ≤ 5 * groups.length := by
  induction groups with
  | nil => exact Nat.le_refl 0
  | cons group rest ih =>
    have own := (hex group List.mem_cons_self).short
    have later := ih fun other mem => hex other (List.mem_cons_of_mem _ mem)
    have shape : colonText (group :: rest) = ':' :: group ++ colonText rest := rfl
    rw [shape,List.length_append,List.length_cons,List.length_cons]
    omega

theorem joinedShort {groups : List Text} (hex : ∀ group ∈ groups, HexGroup group) : (joined groups).length ≤ 5 * groups.length := by
  cases groups with
  | nil => exact Nat.le_refl 0
  | cons group rest =>
    have whole := colonShort hex
    have shape : colonText (group :: rest) = ':' :: joined (group :: rest) := rfl
    rw [shape,List.length_cons] at whole
    omega

theorem tailPlain {front quad : Text} (dotted : DottedQuad quad bytes) (plain : leadingZeros (front ++ ':' :: quad) = false) :
    (fields dotChar quad).any zeroLed = false := by
  obtain ⟨colon,dot,_⟩ := quadShape dotted
  have dots : (front ++ ':' :: quad).contains '.' = true :=
    List.contains_iff_mem.mpr (List.mem_append_right _ (List.mem_cons_of_mem _ dot))
  rw [leadingZeros,dots,tailAfter front colon] at plain
  exact plain

theorem quadPlain (dotted : DottedQuad s bytes) (plain : leadingZeros s = false) : (fields dotChar s).any zeroLed = false := by
  obtain ⟨colon,dot,_⟩ := quadShape dotted
  have tail : afterLastColon s = s := by
    rw [afterLastColon,List.takeWhile_eq_self_iff.mpr,List.reverse_reverse]
    intro x mem
    rw [bne_iff_ne]
    rintro rfl
    exact colon (List.mem_reverse.mp mem)
  rw [leadingZeros,List.contains_iff_mem.mpr dot,tail] at plain
  exact plain

theorem ipv6Short (spelled : Ipv6Text s bytes) (plain : leadingZeros s = false) : s.length ≤ 64 := by
  cases spelled with
  | full hex eight =>
    have size := joinedShort hex
    omega
  | @short left right hex fewer =>
    have front := joinedShort fun group mem => hex group (List.mem_append_left _ mem)
    have back := joinedShort fun group mem => hex group (List.mem_append_right _ mem)
    simp only [List.length_append,List.length_cons]
    omega
  | fullQuad hex six dotted =>
    have front := joinedShort hex
    have last := quadShort dotted (tailPlain dotted plain)
    simp only [List.length_append,List.length_cons]
    omega
  | @shortQuad left right quad last hex fewer dotted =>
    have front := joinedShort fun group mem => hex group (List.mem_append_left _ mem)
    have middle := colonShort fun group mem => hex group (List.mem_append_right _ mem)
    rw [← List.cons_append,← List.append_assoc] at plain
    have last := quadShort dotted (tailPlain dotted plain)
    simp only [List.length_append,List.length_cons]
    omega

theorem shownShort {inet : Inet} (canonical : inet.Canonical) {ipv6 : Bool} {shown : String} (size : 8 * bytes.length = addressWidth ipv6)
    (written : inet.ntop (familyOf ipv6) bytes = some shown) : shown.toList.length ≤ 64 := by
  have back := canonical.back ipv6 bytes shown size written
  have plain := canonical.zeros ipv6 bytes shown size written
  cases ipv6 with
  | true => exact ipv6Short (canonical.v6 shown bytes back) plain
  | false =>
    have quad := canonical.v4 shown bytes back
    exact Nat.le_trans (quadShort quad (quadPlain quad plain)) (by decide)

end Lengths

section Values
variable {inet : Inet} {value name : Text}

/- A value that the decoder reads as itself. -/
structure Settled (inet : Inet) (value : Text) (type : Family) : Prop where
  again : ∃ found, classifyEntry inet value = some found ∧ canonicalEntry found = (value,type)
  solid : ∀ c ∈ value, 0x20 < c.toNat ∧ c.toNat < 0x7f ∧ c ≠ '#'
  filled : value ≠ []
  short : value.length ≤ 253

theorem addressSolid {c : Char} (inside : addressChar c = true) : 0x20 < c.toNat ∧ c.toNat < 0x7f ∧ c ≠ '#' := by
  have bounds : 46 ≤ c.toNat ∧ c.toNat ≤ 102 := by
    rw [addressChar,isHex,hexDigit] at inside
    split at inside
    · rename_i digit
      rw [Bool.and_eq_true,decide_eq_true_eq,decide_eq_true_eq] at digit
      exact ⟨Nat.le_trans (by decide) (show 48 ≤ c.toNat from digit.1),Nat.le_trans (show c.toNat ≤ 57 from digit.2) (by decide)⟩
    · split at inside
      · rename_i digit
        rw [Bool.and_eq_true,decide_eq_true_eq,decide_eq_true_eq] at digit
        exact ⟨Nat.le_trans (by decide) (show 97 ≤ c.toNat from digit.1),show c.toNat ≤ 102 from digit.2⟩
      · split at inside
        · rename_i digit
          rw [Bool.and_eq_true,decide_eq_true_eq,decide_eq_true_eq] at digit
          exact ⟨Nat.le_trans (by decide) (show 65 ≤ c.toNat from digit.1),Nat.le_trans (show c.toNat ≤ 70 from digit.2) (by decide)⟩
        · rw [Option.isSome_none,Bool.false_or,Bool.or_eq_true,beq_iff_eq,beq_iff_eq] at inside
          rcases inside with rfl | rfl <;> decide
  refine ⟨by omega,by omega,?_⟩
  rintro rfl
  exact absurd bounds.1 (by decide)

theorem domainSolid {c : Char} (inside : domainChar c = true) : 0x20 < c.toNat ∧ c.toNat < 0x7f ∧ c ≠ '#' := by
  have bounds : 45 ≤ c.toNat ∧ c.toNat ≤ 122 := by
    simp only [domainChar,asciiLetter,isDigit,Bool.or_eq_true,Bool.and_eq_true,decide_eq_true_eq,beq_iff_eq] at inside
    rcases inside with ((((⟨low,high⟩ | ⟨low,high⟩) | ⟨low,high⟩) | rfl) | rfl) | rfl
    · exact ⟨Nat.le_trans (by decide) (show 97 ≤ c.toNat from low),show c.toNat ≤ 122 from high⟩
    · exact ⟨Nat.le_trans (by decide) (show 65 ≤ c.toNat from low),Nat.le_trans (show c.toNat ≤ 90 from high) (by decide)⟩
    · exact ⟨Nat.le_trans (by decide) (show 48 ≤ c.toNat from low),Nat.le_trans (show c.toNat ≤ 57 from high) (by decide)⟩
    · decide
    · decide
    · decide
  refine ⟨by omega,by omega,?_⟩
  rintro rfl
  exact absurd bounds.1 (by decide)

theorem solidUnblank {c : Char} (solid : 0x20 < c.toNat) : listBlank c = false := by
  rw [Bool.eq_false_iff]
  intro blank
  simp only [listBlank,Bool.or_eq_true,beq_iff_eq] at blank
  rcases blank with (rfl | rfl) | rfl <;> exact absurd solid (by decide)

theorem addressSettled (canonical : inet.Canonical) {line : Text} (normal : normalizeIpOrCidr inet line = some value) :
    Settled inet value (if value.contains ':' then .ipv6 else .ipv4) := by
  obtain ⟨ipv6,bytes,length,shown,accepted⟩ := acceptedOf normal
  have again := accepted.again canonical
  obtain ⟨plain,_⟩ := accepted.plain canonical
  have size := accepted.size canonical.toSpelled
  have back := accepted.back canonical.toSpelled
  have chars := (validateHost canonical.toSpelled back).1
  have few := shownShort canonical (by rw [maskLength]; exact size) accepted.written
  have fits : length ≤ 128 := accepted.fits.trans (by cases ipv6 <;> decide)
  have digits := toStringDigits length
  refine ⟨⟨(if value.contains '/' then .cidr else .ip,value),?_,?_⟩,fun c mem => ?_,plain.nonempty,?_⟩
  · rw [classifyEntry,again]
  · unfold canonicalEntry
    by_cases slash : value.contains '/' = true
    · rw [if_pos slash]
    · rw [if_neg slash]
  · rw [accepted.result] at mem
    split at mem
    · rcases List.mem_append.mp mem with inHost | rest
      · exact addressSolid (chars c inHost)
      · rcases List.mem_cons.mp rest with rfl | digit
        · decide
        · have number := List.all_eq_true.mp digits.1 c digit
          exact domainSolid (by rw [domainChar,number]; simp)
    · exact addressSolid (chars c mem)
  · have three : (toString length).toList.length ≤ 3 := by
      rw [Nat.toString_eq_ofList_toDigits,String.toList_ofList]
      exact (Nat.length_toDigits_le_iff (by decide) (by decide)).mpr (Nat.lt_of_le_of_lt fits (by decide))
    rw [accepted.result]
    split
    · rw [List.length_append,List.length_cons]
      omega
    · omega

theorem lowerDot (c : Char) : dotChar (asciiLower c) = dotChar c := by
  rcases lowerChar c with same | ⟨upper,_,low,_⟩
  · rw [same]
  · have large : 97 ≤ (asciiLower c).toNat := low
    have big : 65 ≤ c.toNat := upper
    have one : dotChar (asciiLower c) = false := beq_eq_false_iff_ne.mpr fun dot => by
      rw [dot] at large
      exact absurd large (by decide)
    have two : dotChar c = false := beq_eq_false_iff_ne.mpr fun dot => by
      rw [dot] at big
      exact absurd big (by decide)
    rw [one,two]

theorem lowerLetter (c : Char) : asciiLetter (asciiLower c) = asciiLetter c ∧ (asciiLetter c = false → asciiLower c = c) := by
  rcases lowerChar c with same | ⟨low,high,low',high'⟩
  · rw [same]
    exact ⟨rfl,fun _ => rfl⟩
  · have one : asciiLetter (asciiLower c) = true := by
      rw [asciiLetter,decide_eq_true low',decide_eq_true high']
      rfl
    have two : asciiLetter c = true := by
      rw [asciiLetter,decide_eq_true low,decide_eq_true high]
      simp
    exact ⟨one.trans two.symm,fun no => by rw [two] at no; cases no⟩

theorem lowerFields (name : Text) : fields dotChar (name.map asciiLower) = (fields dotChar name).map (List.map asciiLower) := by
  induction name with
  | nil => rfl
  | cons c rest ih =>
    obtain ⟨field,later,cut⟩ := fieldsCons dotChar rest
    rw [List.map_cons,fields,lowerDot,ih,fields,cut]
    by_cases dot : dotChar c = true
    · rw [if_pos dot,if_pos dot]
      rfl
    · rw [if_neg dot,if_neg dot]
      rfl

theorem lowerLabel {label : Text} (valid : domainLabel label = true) : domainLabel (label.map asciiLower) = true := by
  have dash {c : Char} (lower : asciiLower c = '-') : c = '-' := by
    by_cases letter : asciiLetter c = true
    · rw [← (lowerLetter c).1,lower] at letter
      cases letter
    · rw [← lower]
      exact ((lowerLetter c).2 (Bool.eq_false_iff.mpr letter)).symm
  simp only [domainLabel,Bool.and_eq_true,bne_iff_ne,List.all_eq_true,Bool.not_eq_true',List.isEmpty_eq_false_iff,
    decide_eq_true_eq] at valid ⊢
  obtain ⟨⟨⟨⟨filled,short⟩,front⟩,back⟩,chars⟩ := valid
  refine ⟨⟨⟨⟨fun none => filled (List.map_eq_nil_iff.mp none),by rw [List.length_map]; exact short⟩,fun first => ?_⟩,fun last => ?_⟩,
    fun d mem => ?_⟩
  · rw [List.head?_map] at first
    obtain ⟨c,found,lower⟩ := Option.map_eq_some_iff.mp first
    rw [dash lower] at found
    exact front found
  · rw [List.getLast?_map] at last
    obtain ⟨c,found,lower⟩ := Option.map_eq_some_iff.mp last
    rw [dash lower] at found
    exact back found
  · obtain ⟨c,inside,rfl⟩ := List.mem_map.mp mem
    have own := chars c inside
    by_cases letter : asciiLetter c = true
    · rw [(lowerLetter c).1,letter]
      rfl
    · rw [(lowerLetter c).2 (Bool.eq_false_iff.mpr letter)]
      exact own

theorem normalizedLetter {raw : Text} (normal : normalizeDomain raw = some name) : ∃ c ∈ name, asciiLetter c = true := by
  unfold normalizeDomain at normal
  dsimp only at normal
  generalize (if text "*." <+: raw then raw.drop 2 else raw) = bare at normal
  generalize (if bare.getLast? = some '.' then bare.dropLast else bare) = trimmed at normal
  split at normal
  · cases normal
  · split at normal
    · cases normal
    · split at normal
      · cases normal
      · rename_i letter
        cases normal
        rw [Bool.not_eq_true',Bool.not_eq_false,List.any_eq_true] at letter
        exact letter

theorem lowerNormalized {raw : Text} (normal : normalizeDomain raw = some name) :
    normalizeDomain (name.map asciiLower) = some (name.map asciiLower) := by
  have plain := lowerPlain (normalizedPlain normal)
  have labels := (normalizedTrimmed normal).2.2
  obtain ⟨c,inside,letter⟩ := normalizedLetter normal
  have whole : ((name.map asciiLower).isEmpty || (name.map asciiLower).getLast? == some '.' ||
    decide ((name.map asciiLower).length > 253)) = false := by
    simp only [Bool.or_eq_false_iff,List.isEmpty_eq_false_iff,beq_eq_false_iff_ne,decide_eq_false_iff_not,not_lt]
    exact ⟨⟨plain.filled,plain.undotted⟩,plain.short⟩
  have all : (fields dotChar (name.map asciiLower)).all domainLabel = true := by
    rw [lowerFields,List.all_map,List.all_eq_true]
    intro label mem
    exact lowerLabel (List.all_eq_true.mp labels label mem)
  have some_ : (name.map asciiLower).any asciiLetter = true := by
    rw [List.any_map,List.any_eq_true]
    exact ⟨c,inside,(lowerLetter c).1.trans letter⟩
  unfold normalizeDomain
  rw [if_neg (starless plain)]
  dsimp only
  rw [if_neg plain.undotted,whole,all,some_]
  rfl

theorem domainNoAddress (plain : PlainDomain name) (letter : ∃ c ∈ name, asciiLetter c = true) : normalizeIpOrCidr inet name = none := by
  obtain ⟨c,inside,alpha⟩ := letter
  have trimmed : strip listBlank name = name := stripSolid fun d mem => solidUnblank (domainSolid (plain.chars d mem)).1
  have bare : hostPart name = name := (hostBare (plain.without (by decide))).1
  have colonless : name.contains ':' = false := by
    rw [Bool.eq_false_iff]
    exact fun colon => plain.without (by decide) (List.contains_iff_mem.mp colon)
  have odd : name.any (fun c => !isDigit c && c != '.') = true := by
    refine List.any_eq_true.mpr ⟨c,inside,?_⟩
    have digit : isDigit c = false := by
      rw [Bool.eq_false_iff]
      intro digit
      have bounds := Dns.digitBounds digit
      simp only [asciiLetter,Bool.or_eq_true,Bool.and_eq_true,decide_eq_true_eq] at alpha
      rcases alpha with ⟨low,_⟩ | ⟨low,_⟩
      · have large : 97 ≤ c.toNat := low
        omega
      · have large : 65 ≤ c.toNat := low
        omega
    have dot : c ≠ '.' := by
      rintro rfl
      cases alpha
    rw [digit,Bool.not_false,Bool.true_and,bne_iff_ne]
    exact dot
  unfold normalizeIpOrCidr
  simp only [trimmed,bare,colonless,odd]
  split <;> rfl

theorem domainSettled {raw : Text} (normal : normalizeDomain raw = some name) : Settled inet (name.map asciiLower) .domain := by
  have plain := lowerPlain (normalizedPlain normal)
  obtain ⟨c,inside,letter⟩ := normalizedLetter normal
  have none : normalizeIpOrCidr inet (name.map asciiLower) = none :=
    domainNoAddress plain ⟨asciiLower c,List.mem_map_of_mem inside,(lowerLetter c).1.trans letter⟩
  refine ⟨⟨(.domain,name.map asciiLower),?_,?_⟩,fun d mem => domainSolid (plain.chars d mem),plain.filled,plain.short⟩
  · rw [classifyEntry,none]
    dsimp only
    rw [lowerNormalized normal]
    rfl
  · rw [canonicalEntry]
    dsimp only
    rw [lowerAgain]

theorem classifiedSettled (canonical : inet.Canonical) {found : EntryType × Text} (classified : classifyEntry inet value = some found) :
    Settled inet (canonicalEntry found).1 (canonicalEntry found).2 := by
  unfold classifyEntry at classified
  split at classified
  · rename_i normal read
    cases classified
    have settled := addressSettled canonical read
    unfold canonicalEntry
    by_cases slash : normal.contains '/' = true
    · rw [if_pos slash]
      exact settled
    · rw [if_neg slash]
      exact settled
  · obtain ⟨domain,normal,rfl⟩ := Option.map_eq_some_iff.mp classified
    exact domainSettled normal

end Values

section Tally
variable {inet : Inet} {context : DecodeContext}

def textOf (entries : List ListSourceEntry) : Text := (entries.map ListSourceEntry.value).flatMap fun value => value ++ ['\n']

def countOf (entries : List ListSourceEntry) (family : Family) : Nat := entries.countP fun entry => entry.type = family

/- The counters of a result agree with each other and with its entries; one valid entry may have met the output limit. -/
structure Agrees (inet : Inet) (result : ListSourceDecodeResult) : Prop where
  input : result.inputEntries = result.validEntries + result.invalidEntries
  valid : result.validEntries = result.duplicates + (result.domains + result.ipv4 + result.ipv6) + if result.limitReason
    = "output_limit" then 1 else 0
  domains : result.domains = countOf result.entries .domain
  ipv4 : result.ipv4 = countOf result.entries .ipv4
  ipv6 : result.ipv6 = countOf result.entries .ipv6
  bounded : result.inputEntries ≤ kListSourceMaxEntries
  distinct : (result.entries.map ListSourceEntry.value).Nodup
  settled : ∀ entry ∈ result.entries, Settled inet entry.value entry.type

structure Tally (inet : Inet) (context : DecodeContext) : Prop where
  agrees : Agrees inet context.result
  going : context.stopped = false → context.result.limitReason ≠ "output_limit"
  failed : context.stopped = true → context.result.complete = false
  seen : ∀ entry ∈ context.result.entries, entry.value ∈ context.seen
  wrote : context.result.text = textOf context.result.entries
  fits : context.result.text.length ≤ kListSourceMaxBytes

theorem errorResult (context : DecodeContext) (line : Nat) (code : String) (value : Text) : ∃ errors limited,
    context.error line code value =
      { context with result := { context.result with complete := false, errors := errors, errorsLimited := limited } } := by
  unfold DecodeContext.error
  dsimp only
  split
  · exact ⟨_,_,rfl⟩
  · exact ⟨_,_,rfl⟩

theorem errorStopped (context : DecodeContext) (line : Nat) (code : String) (value : Text) :
    (context.error line code value).stopped = context.stopped := by
  obtain ⟨errors,limited,same⟩ := errorResult context line code value
  rw [same]

theorem Tally.error (tally : Tally inet context) (line : Nat) (code : String) (value : Text) :
    Tally inet (context.error line code value) := by
  obtain ⟨errors,limited,same⟩ := errorResult context line code value
  rw [same]
  exact ⟨⟨tally.agrees.input,tally.agrees.valid,tally.agrees.domains,tally.agrees.ipv4,tally.agrees.ipv6,tally.agrees.bounded,
    tally.agrees.distinct,
    tally.agrees.settled⟩,tally.going,fun _ => rfl,tally.seen,tally.wrote,tally.fits⟩

theorem Tally.limit (tally : Tally inet context) (going : context.stopped = false) (line : Nat) {code reason : String}
    (other : reason ≠ "output_limit")
    (value : Text) : Tally inet (context.limit line code reason value) := by
  obtain ⟨errors,limited,same⟩ := errorResult context line code value
  have valid := tally.agrees.valid
  rw [if_neg (tally.going going)] at valid
  unfold DecodeContext.limit
  rw [same]
  refine ⟨⟨tally.agrees.input,?_,tally.agrees.domains,tally.agrees.ipv4,tally.agrees.ipv6,tally.agrees.bounded,
    tally.agrees.distinct,tally.agrees.settled⟩,?_,
    fun _ => rfl,tally.seen,tally.wrote,tally.fits⟩
  · dsimp only
    rw [if_neg other]
    exact valid
  · rintro ⟨⟩

theorem countSnoc (entries : List ListSourceEntry) (entry : ListSourceEntry) (family : Family) :
    countOf (entries ++ [entry]) family = countOf entries family + if entry.type = family then 1 else 0 := by
  simp only [countOf,List.countP_append,List.countP_singleton,decide_eq_true_eq]

theorem countedResult (result : ListSourceDecodeResult) (family : Family) : count result family = { result with
    domains := result.domains + (if family = .domain then 1 else 0), ipv4 := result.ipv4 + (if family = .ipv4 then 1 else 0),
    ipv6 := result.ipv6 + if family = .ipv6 then 1 else 0 } := by
  cases family <;> rfl

theorem acceptedNew {line : Nat} {found : EntryType × Text} (tally : Tally inet context) (going : context.stopped = false)
    (room : context.result.inputEntries < kListSourceMaxEntries) (settled : Settled inet (canonicalEntry found).1 (canonicalEntry found).2)
    (fresh : (canonicalEntry found).1 ∉ context.seen)
    (fits : (canonicalEntry found).1.length + 1 ≤ kListSourceMaxBytes - context.result.text.length) :
    Tally inet { context with seen := context.seen ++ [(canonicalEntry found).1], result := { count { context.result with
      inputEntries := context.result.inputEntries + 1, validEntries := context.result.validEntries + 1,
      text := context.result.text ++ (canonicalEntry found).1 ++ ['\n'] } (canonicalEntry found).2 with
      entries := context.result.entries ++ [⟨line,(canonicalEntry found).1,(canonicalEntry found).2⟩] } } := by
  have input := tally.agrees.input
  have valid := tally.agrees.valid
  have bytes := tally.fits
  rw [if_neg (tally.going going)] at valid
  rw [countedResult]
  refine ⟨⟨?_,?_,?_,?_,?_,room,?_,?_⟩,tally.going,fun stopped => absurd (going.symm.trans stopped) Bool.false_ne_true,?_,?_,?_⟩
    <;> dsimp only
  · omega
  · rw [if_neg (tally.going going)]
    cases (canonicalEntry found).2 <;> simp <;> omega
  · rw [countSnoc,tally.agrees.domains]
  · rw [countSnoc,tally.agrees.ipv4]
  · rw [countSnoc,tally.agrees.ipv6]
  · rw [List.map_append,List.nodup_append]
    refine ⟨tally.agrees.distinct,List.nodup_singleton _,fun value held other last same => ?_⟩
    obtain ⟨entry,mem,rfl⟩ := List.mem_map.mp held
    rw [List.mem_singleton.mp last] at same
    have own := tally.seen entry mem
    rw [same] at own
    exact fresh own
  · intro entry mem
    rcases List.mem_append.mp mem with old | new
    · exact tally.agrees.settled entry old
    · rw [List.mem_singleton.mp new]
      exact settled
  · intro entry mem
    rcases List.mem_append.mp mem with old | new
    · exact List.mem_append_left _ (tally.seen entry old)
    · rw [List.mem_singleton.mp new]
      exact List.mem_append_right _ List.mem_cons_self
  · rw [tally.wrote,textOf,textOf,List.map_append,List.flatMap_append,List.append_assoc]
    simp
  · rw [List.length_append,List.length_append,List.length_singleton]
    omega

theorem Tally.accept (tally : Tally inet context) (going : context.stopped = false)
    (room : context.result.inputEntries < kListSourceMaxEntries) (line : Nat)
    {found : EntryType × Text} (settled : Settled inet (canonicalEntry found).1 (canonicalEntry found).2) :
    let entered := DecodeContext.accept
      { context with result := { context.result with inputEntries := context.result.inputEntries + 1 } } line found
    Tally inet entered.1 ∧ (entered.2 = true → entered.1.stopped = false) := by
  have input := tally.agrees.input
  have valid := tally.agrees.valid
  rw [if_neg (tally.going going)] at valid
  dsimp only [DecodeContext.accept]
  split
  · refine ⟨⟨⟨?_,?_,tally.agrees.domains,tally.agrees.ipv4,tally.agrees.ipv6,room,tally.agrees.distinct,tally.agrees.settled⟩,
      tally.going,tally.failed,tally.seen,
      tally.wrote,tally.fits⟩,fun _ => going⟩
    · dsimp only
      omega
    · dsimp only
      rw [if_neg (tally.going going)]
      omega
  · rename_i fresh
    split
    · refine ⟨?_,by rintro ⟨⟩⟩
      unfold DecodeContext.limit
      obtain ⟨errors,limited,same⟩ := errorResult { context with
        result := { context.result with inputEntries := context.result.inputEntries + 1, validEntries := context.result.validEntries + 1 },
        seen := context.seen ++ [(canonicalEntry found).1] } line "output_limit" []
      rw [same]
      refine ⟨⟨?_,?_,tally.agrees.domains,tally.agrees.ipv4,tally.agrees.ipv6,room,tally.agrees.distinct,tally.agrees.settled⟩,
        by rintro ⟨⟩,fun _ => rfl,
        fun entry mem => List.mem_append_left _ (tally.seen entry mem),tally.wrote,tally.fits⟩
      · dsimp only
        omega
      · dsimp only
        rw [if_pos rfl]
        omega
    · rename_i fits
      have absent : (canonicalEntry found).1 ∉ context.seen := fun mem => fresh (List.contains_iff_mem.mpr mem)
      have new := @acceptedNew inet context line found tally going room settled absent (Nat.le_of_not_gt fits)
      rw [countedResult] at new ⊢
      exact ⟨new,fun _ => going⟩

def refused (context : DecodeContext) : DecodeContext :=
  let result := { context.result with inputEntries := context.result.inputEntries + 1, invalidEntries := context.result.invalidEntries + 1 }
  { context with result }

theorem Tally.refused (tally : Tally inet context) (room : ¬ context.result.inputEntries ≥ kListSourceMaxEntries) :
    Tally inet (refused context) := by
  have input := tally.agrees.input
  refine ⟨⟨?_,tally.agrees.valid,tally.agrees.domains,tally.agrees.ipv4,tally.agrees.ipv6,Nat.lt_of_not_ge room,
    tally.agrees.distinct,tally.agrees.settled⟩,tally.going,
    tally.failed,tally.seen,tally.wrote,tally.fits⟩
  show context.result.inputEntries + 1 = context.result.validEntries + (context.result.invalidEntries + 1)
  omega

theorem Tally.entry (canonical : inet.Canonical) (tally : Tally inet context) (going : context.stopped = false) (raw : Text) (line : Nat) :
    Tally inet (context.entry inet raw line).1 ∧
      ((context.entry inet raw line).2 = true → (context.entry inet raw line).1.stopped = false) := by
  unfold DecodeContext.entry
  split
  · exact ⟨tally.limit going line (by decide) [],by rintro ⟨⟩⟩
  · rename_i room
    have refused := tally.refused room
    dsimp only
    split
    · exact ⟨refused.limit going line (by decide) raw,by rintro ⟨⟩⟩
    · split
      · rename_i found classified
        exact tally.accept going (Nat.lt_of_not_ge room) line (classifiedSettled canonical classified)
      · refine ⟨refused.error line _ _,fun _ => ?_⟩
        exact (errorStopped (ListSource.refused context) _ _ _).trans going

end Tally

section Readers
variable {inet : Inet} {json : JsonLibrary}

theorem Tally.wrongType {reader : JsonArrayReader} (tally : Tally inet reader.context) (going : reader.context.stopped = false) :
    Tally inet reader.wrongType.1.context ∧ reader.wrongType.2 = false := by
  unfold JsonArrayReader.wrongType
  dsimp only [JsonArrayReader.skipSeparators]
  split
  · split
    · exact ⟨tally.limit going _ (by decide) [],rfl⟩
    · rename_i room
      exact ⟨(tally.refused room).error _ _ _,rfl⟩
  · exact ⟨tally.error _ _ _,rfl⟩

theorem Tally.handle (canonical : inet.Canonical) (body : Text) {reader : JsonArrayReader} (tally : Tally inet reader.context)
    (going : reader.context.stopped = false) (event : SaxEvent) : Tally inet (JsonArrayReader.handle inet body reader event).1.context ∧
      ((JsonArrayReader.handle inet body reader event).2 = true →
        (JsonArrayReader.handle inet body reader event).1.context.stopped = false) := by
  have refused := tally.wrongType going
  have wrong : Tally inet reader.wrongType.1.context ∧ (reader.wrongType.2 = true → reader.wrongType.1.context.stopped = false) :=
    ⟨refused.1,fun goes => absurd (refused.2.symm.trans goes) Bool.false_ne_true⟩
  cases event with
  | other => exact wrong
  | startArray =>
    rw [JsonArrayReader.handle]
    split
    · exact wrong
    · exact ⟨tally,fun _ => going⟩
  | endArray => exact ⟨tally,fun _ => going⟩
  | string value =>
    rw [JsonArrayReader.handle]
    split
    · exact wrong
    · exact tally.entry canonical going value _
  | parseError position => exact ⟨tally.error _ _ _,by rintro ⟨⟩⟩

theorem Tally.handleAll (canonical : inet.Canonical) (body : Text) {reader : JsonArrayReader} (tally : Tally inet reader.context)
    (going : reader.context.stopped = false) (events : List SaxEvent) :
    Tally inet (JsonArrayReader.handleAll inet body reader events).context := by
  induction events generalizing reader with
  | nil => exact tally
  | cons event rest ih =>
    obtain ⟨kept,goes⟩ := tally.handle canonical body going event
    rw [JsonArrayReader.handleAll]
    split
    · rename_i on
      exact ih kept (goes on)
    · exact kept

theorem Tally.decodeLine (canonical : inet.Canonical) (yaml : Bool) {state : LineState} (tally : Tally inet state.context)
    (going : state.context.stopped = false) (physical : Text) :
    Tally inet (ListSource.decodeLine inet json yaml state physical).1.context := by
  unfold ListSource.decodeLine
  dsimp only
  split
  · exact tally.limit going _ (by decide) _
  · generalize (if (yaml && state.line + 1 == 1 && bom.isPrefixOf physical) = true then physical.drop 3 else physical) = raw
    split
    · exact ⟨⟨tally.agrees.input,tally.agrees.valid,tally.agrees.domains,tally.agrees.ipv4,tally.agrees.ipv6,
        tally.agrees.bounded,tally.agrees.distinct,
        tally.agrees.settled⟩,tally.going,tally.failed,tally.seen,tally.wrote,tally.fits⟩
    · split
      · exact (tally.entry canonical going _ _).1
      · unfold yamlLine
        dsimp only
        split
        · exact tally.error _ _ _
        · split
          · exact tally.error _ _ _
          · split
            · split
              · exact tally.error _ _ _
              · exact tally
            · unfold yamlItem
              split
              · split
                · exact tally.error _ _ _
                · dsimp only
                  split
                  · exact tally.error _ _ _
                  · exact (tally.entry canonical going _ _).1
              · exact tally.error _ _ _

theorem Tally.decodeLoop (canonical : inet.Canonical) (yaml : Bool) {state : LineState} (tally : Tally inet state.context)
    (lines : List Text) :
    Tally inet (ListSource.decodeLoop inet json yaml state lines).1.context := by
  induction lines generalizing state with
  | nil => exact tally
  | cons raw rest ih =>
    rw [ListSource.decodeLoop]
    split
    · exact tally
    · rename_i going
      have kept : Tally inet (ListSource.decodeLine inet json yaml state raw).1.context :=
        tally.decodeLine canonical yaml (Bool.eq_false_iff.mpr going) raw
      split
      · rename_i next read
        rw [read] at kept
        exact ih kept
      · exact kept

theorem Tally.decodeLines (canonical : inet.Canonical) (body : Text) (yaml : Bool) {context : DecodeContext} (tally : Tally inet context) :
    Tally inet (ListSource.decodeLines inet json body yaml context) := by
  have looped : Tally inet (ListSource.decodeLoop inet json yaml { context } (lines newlineChar body)).1.context :=
    Tally.decodeLoop canonical yaml tally _
  unfold ListSource.decodeLines
  dsimp only
  split
  · exact looped
  · split
    · split
      · exact looped.error _ _ _
      · split
        · exact looped.error _ _ _
        · exact looped
    · exact looped

theorem startTally (count : Nat) : Tally inet { result := { lines := count } } := by
  refine ⟨⟨rfl,rfl,rfl,rfl,rfl,Nat.zero_le _,List.nodup_nil,?_⟩,fun _ => ?_,?_,?_,rfl,Nat.zero_le _⟩
  · intro entry mem
    cases mem
  · exact (by decide : ("" : String) ≠ "output_limit")
  · rintro ⟨⟩
  · intro entry mem
    cases mem

theorem tallied (canonical : inet.Canonical) (body : Text) (format : String) : Tally inet (decodeBody inet json body format) := by
  unfold decodeBody
  dsimp only
  split
  · exact (startTally 0).error _ _ _
  · split
    · exact (startTally 0).limit rfl _ (by decide) _
    · split
      · exact (startTally 0).error _ _ _
      · split
        · exact Tally.handleAll canonical body (startTally _) rfl _
        · exact Tally.decodeLines canonical body _ (startTally _)

end Readers

section Again
variable {inet : Inet} {json : JsonLibrary}

def known (entry : ListSourceEntry) : Text × Family := (entry.value,entry.type)

/- A source whose lines so far were these values, each new. -/
structure Echoed (values : List (Text × Family)) (context : DecodeContext) : Prop where
  complete : context.result.complete = true
  going : context.stopped = false
  duplicates : context.result.duplicates = 0
  invalid : context.result.invalidEntries = 0
  input : context.result.inputEntries = values.length
  seen : context.seen = values.map Prod.fst
  wrote : context.result.text = (values.map Prod.fst).flatMap fun value => value ++ ['\n']
  entries : context.result.entries.map known = values

theorem Settled.stripped {value : Text} {type : Family} (settled : Settled inet value type) : strip listBlank value = value :=
  stripSolid fun c mem => solidUnblank (settled.solid c mem).1

theorem Echoed.entry {values : List (Text × Family)} {context : DecodeContext} {value : Text} {type : Family}
    (echoed : Echoed values context)
    (settled : Settled inet value type) (fresh : value ∉ values.map Prod.fst) (few : values.length < kListSourceMaxEntries)
    (fits : context.result.text.length + value.length + 1 ≤ kListSourceMaxBytes) (line : Nat) :
    Echoed (values ++ [(value,type)]) (context.entry inet value line).1 := by
  obtain ⟨found,classified,canonical⟩ := settled.again
  have room : ¬ context.result.inputEntries ≥ kListSourceMaxEntries := by
    rw [echoed.input]
    omega
  have short : ¬ value.length > kListSourceMaxLineBytes := by
    have bound := settled.short
    unfold kListSourceMaxLineBytes
    omega
  have new : context.seen.contains value = false := by
    rw [echoed.seen,Bool.eq_false_iff]
    exact fun mem => fresh (List.contains_iff_mem.mp mem)
  have space : ¬ value.length + 1 > kListSourceMaxBytes - context.result.text.length := by omega
  unfold DecodeContext.entry
  rw [if_neg room]
  dsimp only
  rw [if_neg short,settled.stripped,classified]
  dsimp only [DecodeContext.accept]
  rw [canonical]
  dsimp only
  rw [new,if_neg Bool.false_ne_true,if_neg space,countedResult]
  refine ⟨echoed.complete,echoed.going,echoed.duplicates,echoed.invalid,?_,?_,?_,?_⟩ <;> dsimp only
  · rw [echoed.input,List.length_append,List.length_singleton]
  · rw [echoed.seen,List.map_append]
    rfl
  · rw [echoed.wrote,List.map_append,List.flatMap_append,List.append_assoc]
    simp
  · rw [List.map_append,echoed.entries]
    rfl

theorem plainLine {state : LineState} {value : Text} {type : Family} (settled : Settled inet value type) :
    decodeLine inet json false state value =
      ({ state with line := state.line + 1, context := (state.context.entry inet value (state.line + 1)).1 },.goes) := by
  have short : ¬ value.length > kListSourceMaxLineBytes := by
    have bound := settled.short
    unfold kListSourceMaxLineBytes
    omega
  have shown : (value.isEmpty || value.head? == some '#') = false := by
    rw [Bool.or_eq_false_iff,List.isEmpty_eq_false_iff,beq_eq_false_iff_ne]
    exact ⟨settled.filled,fun hash => (settled.solid '#' (List.mem_of_mem_head? hash)).2.2 rfl⟩
  unfold decodeLine
  dsimp only
  rw [if_neg short]
  simp only [Bool.false_and]
  rw [if_neg Bool.false_ne_true,settled.stripped,shown,if_neg Bool.false_ne_true,if_pos (show (!false) = true from rfl)]

theorem Echoed.loop {values rest : List (Text × Family)} {state : LineState} (echoed : Echoed values state.context)
    (settled : ∀ entry ∈ rest, Settled inet entry.1 entry.2) (distinct : ((values ++ rest).map Prod.fst).Nodup)
    (few : (values ++ rest).length ≤ kListSourceMaxEntries)
    (fits : (((values ++ rest).map Prod.fst).flatMap fun value => value ++ ['\n']).length ≤ kListSourceMaxBytes) :
    ∃ last, decodeLoop inet json false state (rest.map Prod.fst) = (last,.goes) ∧ Echoed (values ++ rest) last.context := by
  induction rest generalizing values state with
  | nil =>
    rw [List.append_nil]
    exact ⟨state,rfl,echoed⟩
  | cons entry rest ih =>
    obtain ⟨value,type⟩ := entry
    have own := settled (value,type) List.mem_cons_self
    have shape : values ++ (value,type) :: rest = (values ++ [(value,type)]) ++ rest := List.append_cons ..
    have fresh : value ∉ values.map Prod.fst := by
      rw [List.map_append,List.map_cons] at distinct
      exact fun mem => (List.nodup_append.mp distinct).2.2 value mem value List.mem_cons_self rfl
    have fewer : values.length < kListSourceMaxEntries := by
      rw [List.length_append,List.length_cons] at few
      omega
    have room : state.context.result.text.length + value.length + 1 ≤ kListSourceMaxBytes := by
      rw [List.map_append,List.flatMap_append,← echoed.wrote,List.map_cons,List.flatMap_cons] at fits
      simp only [List.length_append,List.length_singleton] at fits
      omega
    have next := echoed.entry own fresh fewer room (state.line + 1)
    rw [shape] at distinct few fits ⊢
    rw [List.map_cons,decodeLoop,if_neg (by rw [echoed.going]; exact Bool.false_ne_true),plainLine own]
    exact ih next (fun other mem => settled other (List.mem_cons_of_mem _ mem)) distinct few fits

theorem printableValid (index : Nat) {body : Text} (printable : ∀ c ∈ body, c = '\n' ∨ 0x20 < c.toNat ∧ c.toNat < 0x7f) :
    invalidFrom body.length index body = none := by
  induction body generalizing index with
  | nil => rfl
  | cons c rest ih =>
    have later := ih (index + 1) fun d mem => printable d (List.mem_cons_of_mem _ mem)
    rcases printable c List.mem_cons_self with rfl | ⟨low,high⟩
    · exact later
    · have ascii : c.toNat < 0x80 := by omega
      have shown : ¬ ((decide (c.toNat < 0x20) && c != '\t' && c != '\r' && c != '\n') || c.toNat == 0x7f) = true := by
        rw [decide_eq_false (by omega : ¬ c.toNat < 0x20),beq_eq_false_iff_ne.mpr (by omega : c.toNat ≠ 0x7f)]
        simp
      rw [List.length_cons,invalidFrom,if_pos ascii,if_neg shown]
      exact later

theorem decodedAgain {entries : List ListSourceEntry} (settled : ∀ entry ∈ entries, Settled inet entry.value entry.type)
    (distinct : (entries.map ListSourceEntry.value).Nodup) (few : entries.length ≤ kListSourceMaxEntries)
    (fits : (textOf entries).length ≤ kListSourceMaxBytes) :
    Echoed (entries.map known) (decodeBody inet json (textOf entries) "text") := by
  have values : (entries.map known).map Prod.fst = entries.map ListSourceEntry.value := by rw [List.map_map]; rfl
  have free : ∀ value ∈ entries.map ListSourceEntry.value, ∀ c ∈ value, newlineChar c = false := by
    intro value mem c inside
    obtain ⟨entry,listed,rfl⟩ := List.mem_map.mp mem
    rw [newlineChar,beq_eq_false_iff_ne]
    rintro rfl
    exact absurd ((settled entry listed).solid _ inside).1 (by decide)
  have cut : lines newlineChar (textOf entries) = entries.map ListSourceEntry.value := by
    rw [lines,textOf,fieldsEnded newlineChar rfl free,List.getLast?_concat]
    exact List.dropLast_concat
  have valid : invalidOffset (textOf entries) = none := by
    refine printableValid 0 fun c mem => ?_
    obtain ⟨value,listed,inside⟩ := List.mem_flatMap.mp mem
    obtain ⟨entry,own,rfl⟩ := List.mem_map.mp listed
    rcases List.mem_append.mp inside with solid | last
    · have bounds := (settled entry own).solid c solid
      exact .inr ⟨bounds.1,bounds.2.1⟩
    · exact .inl (List.mem_singleton.mp last)
  have start (count : Nat) : Echoed [] ({ result := { lines := count } } : DecodeContext) := ⟨rfl,rfl,rfl,rfl,rfl,rfl,rfl,rfl⟩
  unfold decodeBody
  rw [if_neg (by decide : ¬ (!validListSourceFormat "text") = true),if_neg (Nat.not_lt.mpr fits),valid]
  dsimp only
  generalize ((textOf entries).count '\n' + if (!(textOf entries).isEmpty && (textOf entries).getLast? != some '\n') = true
    then 1 else 0) = count
  have all : ∀ entry ∈ entries.map known, Settled inet entry.1 entry.2 := by
    intro entry mem
    obtain ⟨own,listed,rfl⟩ := List.mem_map.mp mem
    exact settled own listed
  obtain ⟨last,looped,echoed⟩ := @Echoed.loop inet json [] (entries.map known) { context := { result := { lines := count } } }
    (start count) all
    (by rw [List.nil_append,values]; exact distinct) (by rw [List.nil_append,List.length_map]; exact few)
    (by rw [List.nil_append,values]; exact fits)
  rw [if_neg (by decide : ¬ ("text" == "json-array") = true),(by decide : ("text" == "yaml-payload") = false),decodeLines,
    cut,← values,looped]
  exact echoed

theorem countAll (entries : List ListSourceEntry) :
    entries.length = countOf entries .domain + countOf entries .ipv4 + countOf entries .ipv6 := by
  induction entries using List.reverseRecOn with
  | nil => rfl
  | append_singleton rest entry ih =>
    rw [List.length_append,List.length_singleton,countSnoc,countSnoc,countSnoc,ih]
    cases entry.type <;> simp <;> omega

/- The counters agree, text stands only for a complete source, and its text decodes to the same entries, each once and valid. -/
theorem decodedAgrees (canonical : inet.Canonical) (json : JsonLibrary) (body : Text) (format : String) :
    Agrees inet (decodeListSource inet json body format) ∧
    ((decodeListSource inet json body format).text ≠ [] → (decodeListSource inet json body format).complete = true) ∧
    ((decodeListSource inet json body format).complete = true →
      let again := decodeListSource inet json (decodeListSource inet json body format).text "text"
      again.complete = true ∧ again.entries.map known = (decodeListSource inet json body format).entries.map known ∧ again.duplicates = 0 ∧
        again.invalidEntries = 0) := by
  have tally : Tally inet (decodeBody inet json body format) := tallied canonical body format
  unfold decodeListSource
  dsimp only
  by_cases complete : (decodeBody inet json body format).result.complete = true
  · rw [if_pos complete]
    refine ⟨tally.agrees,fun _ => complete,fun _ => ?_⟩
    have few : (decodeBody inet json body format).result.entries.length ≤ kListSourceMaxEntries := by
      have parts := countAll (decodeBody inet json body format).result.entries
      rw [← tally.agrees.domains,← tally.agrees.ipv4,← tally.agrees.ipv6] at parts
      have input := tally.agrees.input
      have valid := tally.agrees.valid
      have bounded := tally.agrees.bounded
      omega
    have echoed : Echoed _ (decodeBody inet json (textOf (decodeBody inet json body format).result.entries) "text") :=
      decodedAgain tally.agrees.settled tally.agrees.distinct few (by rw [← tally.wrote]; exact tally.fits)
    rw [tally.wrote,if_pos echoed.complete]
    exact ⟨echoed.complete,echoed.entries,echoed.duplicates,echoed.invalid⟩
  · rw [if_neg complete]
    exact ⟨⟨tally.agrees.input,tally.agrees.valid,tally.agrees.domains,tally.agrees.ipv4,tally.agrees.ipv6,tally.agrees.bounded,
      tally.agrees.distinct,
      tally.agrees.settled⟩,fun text => absurd rfl text,fun whole => absurd whole complete⟩

def noJson : JsonLibrary := ⟨fun _ => [],fun _ => false,fun _ => none⟩

/- One domain in two spellings. -/
theorem domainDecodedAgain : (decodeListSource plainInet noJson (text "Keen.ORG\nkeen.org") "text").duplicates = 1 ∧
    (decodeListSource plainInet noJson (decodeListSource plainInet noJson (text "Keen.ORG\nkeen.org") "text").text
      "text").entries.map known =
      [(text "keen.org",.domain)] := by
  obtain ⟨-,-,again⟩ := decodedAgrees plainCanonical noJson (text "Keen.ORG\nkeen.org") "text"
  have complete : (decodeListSource plainInet noJson (text "Keen.ORG\nkeen.org") "text").complete = true := by decide
  have entries : (decodeListSource plainInet noJson (text "Keen.ORG\nkeen.org") "text").entries.map
    known = [(text "keen.org",.domain)] := by decide
  exact ⟨by decide,(again complete).2.1.trans entries⟩

end Again
end KeenPbr.ListSource
