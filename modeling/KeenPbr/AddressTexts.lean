import KeenPbr.IpSet

/-! The spellings inet_pton documents for the two families, and that the readers of IpSet read each
of them as the same bytes. -/
namespace KeenPbr

def decimal (part : Text) : Nat := Nat.ofDigitChars 10 part 0

structure DecimalByte (part : Text) : Prop where
  digits : ∀ c ∈ part, isDigit c = true
  nonempty : part ≠ []
  byte : decimal part ≤ 255

structure HexGroup (part : Text) : Prop where
  digits : ∀ c ∈ part, isHex c = true
  nonempty : part ≠ []
  short : part.length ≤ 4

inductive DottedQuad : Text → List UInt8 → Prop where
  | quad {a b c d : Text} : DecimalByte a → DecimalByte b → DecimalByte c → DecimalByte d →
      DottedQuad (a ++ '.' :: (b ++ '.' :: (c ++ '.' :: d))) ([a,b,c,d].map fun part => UInt8.ofNat (decimal part))

def colonText (groups : List Text) : Text := groups.flatMap fun group => ':' :: group

def joined : List Text → Text
  | [] => []
  | group :: rest => group ++ colonText rest

def groupValues (groups : List Text) : List Nat := groups.map hexNumber

/- Eight groups; two colons for one or more groups of zeros; a dotted quad for the last two. -/
inductive Ipv6Text : Text → List UInt8 → Prop where
  | full {groups : List Text} : (∀ group ∈ groups, HexGroup group) → groups.length = 8 →
      Ipv6Text (joined groups) (groupBytes (groupValues groups))
  | short {left right : List Text} : (∀ group ∈ left ++ right, HexGroup group) → left.length + right.length < 8 →
      Ipv6Text (joined left ++ ':' :: ':' :: joined right)
        (groupBytes (groupValues left ++ List.replicate (8 - (left.length + right.length)) 0 ++ groupValues right))
  | fullQuad {groups : List Text} {quad : Text} {bytes : List UInt8} : (∀ group ∈ groups, HexGroup group) →
      groups.length = 6 → DottedQuad quad bytes →
      Ipv6Text (joined groups ++ ':' :: quad) (groupBytes (groupValues groups) ++ bytes)
  | shortQuad {left right : List Text} {quad : Text} {bytes : List UInt8} : (∀ group ∈ left ++ right, HexGroup group) →
      left.length + right.length < 6 → DottedQuad quad bytes →
      Ipv6Text (joined left ++ ':' :: (colonText right ++ ':' :: quad))
        (groupBytes (groupValues left ++ List.replicate (6 - (left.length + right.length)) 0 ++ groupValues right) ++ bytes)

/- What the two functions document of the texts they read and write. -/
structure Inet.Spelled (inet : Inet) : Prop where
  v4 : ∀ text bytes, inet.pton afInet text = some bytes → DottedQuad text.toList bytes
  v6 : ∀ text bytes, inet.pton afInet6 text = some bytes → Ipv6Text text.toList bytes
  back : ∀ (ipv6 : Bool) bytes text, 8 * bytes.length = addressWidth ipv6 → inet.ntop (familyOf ipv6) bytes = some text →
    inet.pton (familyOf ipv6) text = some bytes

section Runs
variable {p : Char → Bool} {part rest : Text}

theorem takeRun (inside : ∀ c ∈ part, p c = true) (stop : rest.head?.all (fun c => !p c) = true) :
    (part ++ rest).takeWhile p = part := by
  rw [List.takeWhile_append_of_pos inside]
  cases rest with
  | nil => rw [List.takeWhile_nil,List.append_nil]
  | cons c later =>
    have out : ¬ p c = true := by simpa using stop
    rw [List.takeWhile_cons_of_neg out,List.append_nil]

theorem dropRun (inside : ∀ c ∈ part, p c = true) (stop : rest.head?.all (fun c => !p c) = true) :
    (part ++ rest).dropWhile p = rest := by
  rw [List.dropWhile_append_of_pos inside]
  cases rest with
  | nil => rfl
  | cons c later =>
    have out : ¬ p c = true := by simpa using stop
    rw [List.dropWhile_cons_of_neg out]

end Runs

section Dotted
variable {part rest text : Text} {bytes : List UInt8}

theorem parsedOctet (byte : DecimalByte part) (stop : rest.head?.all (fun c => !isDigit c) = true) :
    parseOctet (part ++ rest) = some (UInt8.ofNat (decimal part),rest) := by
  have named : part.isEmpty = false := List.isEmpty_eq_false_iff.mpr byte.nonempty
  have small : ¬ Nat.ofDigitChars 10 part 0 > 255 := Nat.not_lt.mpr byte.byte
  unfold parseOctet
  simp only [takeRun byte.digits stop,dropRun byte.digits stop]
  rw [named,if_neg Bool.false_ne_true,if_neg small]
  rfl

theorem quadParsed (quad : DottedQuad text bytes) : parseIpv4 text = some bytes := by
  obtain ⟨a,b,c,d⟩ := quad
  have last := parsedOctet d (rfl : ([] : Text).head?.all (fun c => !isDigit c) = true)
  rw [List.append_nil] at last
  unfold parseIpv4
  rw [parsedOctet a (by rfl)]
  simp only [Option.bind_eq_bind,Option.bind_some,parseOctets]
  rw [parsedOctet b (by rfl)]
  simp only [Option.bind_some]
  rw [parsedOctet c (by rfl)]
  simp only [Option.bind_some]
  rw [last]
  rfl

theorem octetShape {octet : UInt8} (read : parseOctet text = some (octet,rest)) : ∃ digits, text = digits ++ rest ∧ ':' ∉ digits := by
  unfold parseOctet at read
  simp only at read
  split at read
  · cases read
  · split at read
    · cases read
    · cases read
      refine ⟨text.takeWhile isDigit,List.takeWhile_append_dropWhile.symm,fun colon => ?_⟩
      exact absurd (List.mem_takeWhile_imp colon) (by decide)

theorem octetsColon {left : Nat} (read : parseOctets left text = some bytes) : ':' ∉ text := by
  induction left generalizing text bytes with
  | zero =>
    unfold parseOctets at read
    split at read
    · rename_i empty
      rw [List.isEmpty_iff.mp empty]
      exact List.not_mem_nil
    · cases read
  | succ left ih =>
    unfold parseOctets at read
    split at read
    · rename_i tail
      simp only [Option.bind_eq_bind,Option.bind_eq_some_iff] at read
      obtain ⟨⟨octet,after⟩,first,octets,more,_⟩ := read
      obtain ⟨digits,rfl,free⟩ := octetShape first
      have later := ih more
      rw [List.mem_cons,List.mem_append,not_or,not_or]
      exact ⟨by decide,free,later⟩
    · cases read

theorem ipv4Colon (read : parseIpv4 text = some bytes) : ':' ∉ text := by
  unfold parseIpv4 at read
  simp only [Option.bind_eq_bind,Option.bind_eq_some_iff] at read
  obtain ⟨⟨octet,after⟩,first,octets,more,_⟩ := read
  obtain ⟨digits,rfl,free⟩ := octetShape first
  rw [List.mem_append,not_or]
  exact ⟨free,octetsColon more⟩

end Dotted

section Groups
variable {fuel : Nat} {group tail : Text} {groups : List Text} {pos : Option Nat} {seen : List Nat}

theorem hexNotColon {c : Char} (hex : isHex c = true) : c ≠ ':' := by
  rintro rfl
  exact absurd hex (by decide)

theorem groupHead (hex : HexGroup group) : ∃ c rest, group = c :: rest ∧ c ≠ ':' := by
  cases group with
  | nil => exact absurd rfl hex.nonempty
  | cons c rest => exact ⟨c,rest,rfl,hexNotColon (hex.digits c List.mem_cons_self)⟩

theorem parsedGroup (hex : HexGroup group) (stop : tail.head?.all (· == ':') = true) :
    parseHexGroup (group ++ tail) = some (hexNumber group,tail) := by
  have run : ((group ++ tail).take 4).takeWhile isHex = group := by
    rw [List.take_append,List.take_of_length_le hex.short]
    refine takeRun hex.digits ?_
    cases tail with
    | nil => rw [List.take_nil]; rfl
    | cons c rest =>
      have colon : c = ':' := by simpa using stop
      rw [colon]
      cases 4 - group.length <;> rfl
  have named : group.isEmpty = false := List.isEmpty_eq_false_iff.mpr hex.nonempty
  unfold parseHexGroup
  simp only [run]
  rw [named,if_neg Bool.false_ne_true,List.drop_left]

theorem scanGroup (hex : HexGroup group) (stop : tail.head?.all (· == ':') = true) :
    scanGroups (fuel + 1) (group ++ tail) pos seen = scanGroups fuel tail pos (seen ++ [hexNumber group]) := by
  have next : ¬ tail.head?.any (· != ':') = true := by
    cases tail with
    | nil => exact Bool.false_ne_true
    | cons c rest =>
      have colon : c = ':' := by simpa using stop
      rw [colon]
      exact Bool.false_ne_true
  have parsed := parsedGroup hex stop
  obtain ⟨c,rest,rfl,digit⟩ := groupHead hex
  rw [List.cons_append] at parsed ⊢
  conv_lhs => unfold scanGroups
  split
  · rename_i empty
    cases empty
  · rename_i later shape
    exact absurd (List.cons.inj shape).1 digit
  · rename_i later shape
    exact absurd (List.cons.inj shape).1 digit
  · simp only [parsed]
    rw [if_neg next]

theorem scanColonGroup (hex : HexGroup group) (stop : tail.head?.all (· == ':') = true) :
    scanGroups (fuel + 1) (':' :: (group ++ tail)) pos seen = scanGroups fuel tail pos (seen ++ [hexNumber group]) := by
  rw [← scanGroup hex stop]
  obtain ⟨c,rest,rfl,digit⟩ := groupHead hex
  rw [List.cons_append]
  conv_lhs => unfold scanGroups
  conv_rhs => unfold scanGroups
  split
  · rename_i empty
    cases empty
  · rename_i later shape
    cases shape
    exact absurd rfl digit
  · rename_i later other shape
    cases shape
    split
    · rename_i empty
      cases empty
    · rename_i later shape
      exact absurd (List.cons.inj shape).1 digit
    · rename_i later _ shape
      exact absurd (List.cons.inj shape).1 digit
    · rfl
  · rename_i whole none _ solo
    exact absurd rfl (solo _)

theorem colonHead (groups : List Text) (stop : tail.head?.all (· == ':') = true) :
    (colonText groups ++ tail).head?.all (· == ':') = true := by
  cases groups with
  | nil => exact stop
  | cons group rest => rfl

theorem scanColons (hex : ∀ group ∈ groups, HexGroup group) (stop : tail.head?.all (· == ':') = true) :
    scanGroups (fuel + groups.length) (colonText groups ++ tail) pos seen = scanGroups fuel tail pos (seen ++ groupValues groups) := by
  induction groups generalizing seen with
  | nil =>
    rw [groupValues,List.map_nil,List.append_nil]
    rfl
  | cons group rest ih =>
    have shape : colonText (group :: rest) ++ tail = ':' :: (group ++ (colonText rest ++ tail)) := by
      rw [colonText,List.flatMap_cons]
      simp [colonText]
    rw [shape,List.length_cons,← Nat.add_assoc,scanColonGroup (hex group List.mem_cons_self) (colonHead rest stop),
      ih fun other mem => hex other (List.mem_cons_of_mem _ mem)]
    rw [groupValues,groupValues,List.map_cons,List.append_assoc]
    rfl

theorem scanJoined (hex : ∀ group ∈ groups, HexGroup group) (nonempty : groups ≠ []) (stop : tail.head?.all (· == ':') = true) :
    scanGroups (fuel + groups.length) (joined groups ++ tail) pos seen = scanGroups fuel tail pos (seen ++ groupValues groups) := by
  cases groups with
  | nil => exact absurd rfl nonempty
  | cons group rest =>
    rw [joined,List.append_assoc,List.length_cons,← Nat.add_assoc,
      scanGroup (hex group List.mem_cons_self) (colonHead rest stop),
      scanColons (fun other mem => hex other (List.mem_cons_of_mem _ mem)) stop]
    rw [groupValues,groupValues,List.map_cons,List.append_assoc]
    rfl

theorem scanEnd : scanGroups (fuel + 1) [] pos seen = some (pos,seen) := rfl

end Groups

section Whole
variable {text : Text} {left right groups : List Text} {bytes : List UInt8}

theorem joinedLength (hex : ∀ group ∈ groups, HexGroup group) : groups.length ≤ (joined groups).length := by
  have colons (rest : List Text) : rest.length ≤ (colonText rest).length := by
    induction rest with
    | nil => exact Nat.zero_le _
    | cons group later ih =>
      rw [colonText,List.flatMap_cons,List.length_append,List.length_cons,List.length_cons]
      rw [colonText] at ih
      omega
  cases groups with
  | nil => exact Nat.zero_le _
  | cons group rest =>
    have digits : 0 < group.length := List.length_pos_of_ne_nil (hex group List.mem_cons_self).nonempty
    have more := colons rest
    rw [joined,List.length_append,List.length_cons]
    omega

theorem joinedHead (hex : ∀ group ∈ groups, HexGroup group) (nonempty : groups ≠ []) (tail : Text) :
    ∃ c rest, joined groups ++ tail = c :: rest ∧ c ≠ ':' := by
  cases groups with
  | nil => exact absurd rfl nonempty
  | cons group later =>
    obtain ⟨c,rest,rfl,digit⟩ := groupHead (hex group List.mem_cons_self)
    exact ⟨c,_,rfl,digit⟩

theorem groupsFrom {c : Char} {rest : Text} (shape : text = c :: rest) (digit : c ≠ ':') :
    parseIpv6Groups text = (scanGroups (text.length + 1) text none []).bind fun scan => expandGroups scan.1 scan.2 := by
  subst shape
  unfold parseIpv6Groups
  split
  · rename_i colon
    exact absurd (List.cons.inj colon).1 digit
  · rename_i later _ colon
    exact absurd (List.cons.inj colon).1 digit
  · rfl

theorem fullParsed (hex : ∀ group ∈ groups, HexGroup group) (eight : groups.length = 8) :
    parseIpv6Groups (joined groups) = some (groupBytes (groupValues groups)) := by
  have nonempty : groups ≠ [] := by
    rintro rfl
    cases eight
  obtain ⟨c,rest,shape,digit⟩ := joinedHead hex nonempty []
  rw [List.append_nil] at shape
  have room := joinedLength hex
  have scan : scanGroups ((joined groups).length - groups.length + 1 + groups.length) (joined groups ++ []) none [] = _ :=
    scanJoined hex nonempty rfl
  rw [List.append_nil,scanEnd,List.nil_append] at scan
  have fuel : (joined groups).length - groups.length + 1 + groups.length = (joined groups).length + 1 := by omega
  rw [groupsFrom shape digit,← fuel,scan,Option.bind_some,expandGroups,if_pos (by rw [groupValues,List.length_map,eight])]

theorem scanRight {fuel : Nat} {pos : Option Nat} {seen : List Nat} (hex : ∀ group ∈ right, HexGroup group)
    (nonempty : right ≠ []) (room : right.length ≤ fuel) :
    scanGroups (fuel + 1) (joined right) pos seen = some (pos,seen ++ groupValues right) := by
  have scan : scanGroups (fuel - right.length + 1 + right.length) (joined right ++ []) pos seen = _ :=
    scanJoined hex nonempty rfl
  have enough : fuel - right.length + 1 + right.length = fuel + 1 := by omega
  rw [List.append_nil,enough,scanEnd] at scan
  exact scan

theorem expanded (fewer : left.length + right.length < 8) :
    expandGroups (some left.length) (groupValues left ++ groupValues right) =
      some (groupBytes (groupValues left ++ List.replicate (8 - (left.length + right.length)) 0 ++ groupValues right)) := by
  have size : (groupValues left ++ groupValues right).length = left.length + right.length := by
    rw [List.length_append,groupValues,groupValues,List.length_map,List.length_map]
  have cut : (groupValues left).length = left.length := List.length_map _
  rw [expandGroups,size,if_neg (by omega),List.take_left' cut,List.drop_left' cut]

theorem shortParsed (hex : ∀ group ∈ left ++ right, HexGroup group) (fewer : left.length + right.length < 8) :
    parseIpv6Groups (joined left ++ ':' :: ':' :: joined right) =
      some (groupBytes (groupValues left ++ List.replicate (8 - (left.length + right.length)) 0 ++ groupValues right)) := by
  have hexLeft : ∀ group ∈ left, HexGroup group := fun group mem => hex group (List.mem_append_left _ mem)
  have hexRight : ∀ group ∈ right, HexGroup group := fun group mem => hex group (List.mem_append_right _ mem)
  have rightRoom := joinedLength hexRight
  have leftRoom := joinedLength hexLeft
  by_cases front : left = []
  · subst front
    by_cases back : right = []
    · subst back
      rfl
    · obtain ⟨c,rest,shape,digit⟩ := joinedHead hexRight back []
      rw [List.append_nil] at shape
      change parseIpv6Groups (':' :: ':' :: joined right) = _
      rw [shape]
      change (scanGroups _ (c :: rest) (some 0) []).bind (fun scan => expandGroups scan.1 scan.2) = _
      have room : right.length ≤ (joined right).length + 2 := Nat.le_add_right_of_le rightRoom
      rw [← shape]
      change (scanGroups ((joined right).length + 2 + 1) (joined right) (some 0) []).bind _ = _
      rw [scanRight hexRight back room]
      exact expanded fewer
  · obtain ⟨c,rest,shape,digit⟩ := joinedHead hexLeft front (':' :: ':' :: joined right)
    have size : (joined left ++ ':' :: ':' :: joined right).length = (joined left).length + (joined right).length + 2 := by
      rw [List.length_append,List.length_cons,List.length_cons]
      omega
    have scan : scanGroups ((joined left).length - left.length + (joined right).length + 3 + left.length)
        (joined left ++ ':' :: ':' :: joined right) none [] = _ := scanJoined hexLeft front rfl
    have fuel : (joined left).length - left.length + (joined right).length + 3 + left.length =
        (joined left).length + (joined right).length + 2 + 1 := by omega
    have cut : (groupValues left).length = left.length := List.length_map _
    rw [groupsFrom shape digit,size,← fuel,scan,List.nil_append]
    have double : scanGroups ((joined left).length - left.length + (joined right).length + 3) (':' :: ':' :: joined right) none
        (groupValues left) = some (some (groupValues left).length,groupValues left ++ groupValues right) := by
      by_cases back : right = []
      · subst back
        exact congrArg (fun seen => some (some (groupValues left).length,seen)) (List.append_nil _).symm
      · obtain ⟨d,later,started,_⟩ := joinedHead hexRight back []
        rw [List.append_nil] at started
        change (if (joined right).isEmpty then _ else scanGroups ((joined left).length - left.length + (joined right).length + 2)
          (joined right) (some (groupValues left).length) (groupValues left)) = _
        rw [started,List.isEmpty_cons,if_neg Bool.false_ne_true,← started,scanRight hexRight back (by omega)]
    rw [double,cut]
    exact expanded fewer

end Whole

section Quads
variable {text : Text} {bytes : List UInt8}

theorem hexChar : ∀ {digit : Nat}, digit < 16 → hexDigit (Nat.digitChar digit) = some digit := by
  decide

theorem hexTextDigits (value : Nat) : (∀ c ∈ hexText value, isHex c = true) ∧ hexNumber (hexText value) = value := by
  induction value using Nat.strongRecOn with
  | ind value ih =>
    rw [hexText,Nat.toDigits_eq_if (by decide)]
    split
    · rename_i small
      have digit := hexChar small
      constructor
      · intro c mem
        rw [List.mem_singleton] at mem
        rw [mem,isHex,digit]
        rfl
      · change 0 * 16 + (hexDigit (Nat.digitChar value)).getD 0 = value
        rw [digit]
        simp
    · rename_i large
      obtain ⟨digits,number⟩ := ih (value / 16) (by omega)
      have digit := hexChar (Nat.mod_lt value (by decide : 0 < 16))
      constructor
      · intro c mem
        rcases List.mem_append.mp mem with front | back
        · exact digits c front
        · rw [List.mem_singleton] at back
          rw [back,isHex,digit]
          rfl
      · have step : hexNumber (Nat.toDigits 16 (value / 16) ++ [Nat.digitChar (value % 16)]) =
            hexNumber (Nat.toDigits 16 (value / 16)) * 16 + (hexDigit (Nat.digitChar (value % 16))).getD 0 := by
          rw [hexNumber,List.foldl_append]
          rfl
        rw [hexText] at number
        rw [step,number,digit,Option.getD_some]
        omega

theorem hexTextGroup {value : Nat} (word : value < 65536) : HexGroup (hexText value) where
  digits := (hexTextDigits value).1
  nonempty := Nat.toDigits_ne_nil
  short := (Nat.length_toDigits_le_iff (by decide) (by decide)).mpr word

theorem quadShape (quad : DottedQuad text bytes) : ':' ∉ text ∧ '.' ∈ text ∧ bytes.length = 4 := by
  refine ⟨ipv4Colon (quadParsed quad),?_,?_⟩
  · obtain ⟨a,b,c,d⟩ := quad
    exact List.mem_append_right _ List.mem_cons_self
  · obtain ⟨a,b,c,d⟩ := quad
    rfl

theorem tailAfter (front : Text) {quad : Text} (plain : ':' ∉ quad) : afterLastColon (front ++ ':' :: quad) = quad := by
  have turned : (front ++ ':' :: quad).reverse = quad.reverse ++ ':' :: front.reverse := by simp
  have solid : ∀ c ∈ quad.reverse, (c != ':') = true := by
    intro c mem
    rw [bne_iff_ne]
    rintro rfl
    exact plain (List.mem_reverse.mp mem)
  rw [afterLastColon,turned,takeRun solid (by rfl),List.reverse_reverse]

def quadGroups : List UInt8 → List Text
  | [a,b,c,d] => [hexText (a.toNat * 256 + b.toNat),hexText (c.toNat * 256 + d.toNat)]
  | _ => []

theorem quadTail (front : Text) {quad : Text} (dotted : DottedQuad quad bytes) :
    parseIpv6 (front ++ ':' :: quad) = parseIpv6Groups (front ++ ':' :: joined (quadGroups bytes)) := by
  obtain ⟨plain,dot,four⟩ := quadShape dotted
  have parsed := quadParsed dotted
  have tail := tailAfter front plain
  have colon : (front ++ ':' :: quad).contains ':' = true := by
    rw [List.contains_iff_mem]
    exact List.mem_append_right _ List.mem_cons_self
  have dots : quad.contains '.' = true := List.contains_iff_mem.mpr dot
  have head : (front ++ ':' :: quad).take ((front ++ ':' :: quad).length - quad.length) = front ++ [':'] := by
    rw [List.append_cons,List.length_append,Nat.add_sub_cancel,List.take_left]
  match bytes,four with
  | [a,b,c,d],_ =>
    unfold parseIpv6
    simp only [tail,colon,dots,Bool.and_self,if_true,parsed,head]
    simp [quadGroups,joined,colonText]

theorem quadValues (four : bytes.length = 4) : groupBytes (groupValues (quadGroups bytes)) = bytes := by
  match bytes,four with
  | [a,b,c,d],_ =>
    have high (x y : UInt8) : UInt8.ofNat ((x.toNat * 256 + y.toNat) / 256) = x := by
      have small := y.toNat_lt
      rw [show (x.toNat * 256 + y.toNat) / 256 = x.toNat by omega,UInt8.ofNat_toNat]
    simp only [quadGroups,groupValues,List.map_cons,List.map_nil,(hexTextDigits _).2]
    simp [groupBytes,high]

theorem quadHex (four : bytes.length = 4) : (∀ group ∈ quadGroups bytes, HexGroup group) ∧ (quadGroups bytes).length = 2 := by
  match bytes,four with
  | [a,b,c,d],_ =>
    have word (x y : UInt8) : HexGroup (hexText (x.toNat * 256 + y.toNat)) := by
      apply hexTextGroup
      have high := x.toNat_lt
      have low := y.toNat_lt
      omega
    refine ⟨?_,rfl⟩
    intro group mem
    simp only [quadGroups,List.mem_cons,List.not_mem_nil,or_false] at mem
    rcases mem with rfl | rfl
    · exact word a b
    · exact word c d

theorem joinedAppend {groups : List Text} (nonempty : groups ≠ []) (more : List Text) :
    joined (groups ++ more) = joined groups ++ colonText more := by
  cases groups with
  | nil => exact absurd rfl nonempty
  | cons group rest => simp [joined,colonText]

theorem colonJoined {groups : List Text} (nonempty : groups ≠ []) : colonText groups = ':' :: joined groups := by
  cases groups with
  | nil => exact absurd rfl nonempty
  | cons group rest => rfl

theorem joinedPlain {groups : List Text} (hex : ∀ group ∈ groups, HexGroup group) : '.' ∉ joined groups := by
  have dot {group : Text} (hexGroup : HexGroup group) : '.' ∉ group := fun mem =>
    absurd (hexGroup.digits '.' mem) (by decide)
  cases groups with
  | nil => exact List.not_mem_nil
  | cons group rest =>
    rw [joined,List.mem_append,not_or]
    refine ⟨dot (hex group List.mem_cons_self),fun mem => ?_⟩
    obtain ⟨other,listed,inside⟩ := List.mem_flatMap.mp mem
    rcases List.mem_cons.mp inside with colon | digit
    · cases colon
    · exact dot (hex other (List.mem_cons_of_mem _ listed)) digit

theorem plainTail (plain : '.' ∉ text) : parseIpv6 text = parseIpv6Groups text := by
  have free : ¬ (text.contains ':' && (afterLastColon text).contains '.') = true := by
    rw [Bool.and_eq_true,List.contains_iff_mem,List.contains_iff_mem]
    rintro ⟨_,dotted⟩
    exact plain (List.mem_reverse.mp ((List.takeWhile_sublist _).mem (List.mem_reverse.mp dotted)))
  unfold parseIpv6
  exact if_neg free

theorem ipv6Parsed (spelled : Ipv6Text text bytes) : parseIpv6 text = some bytes := by
  cases spelled with
  | full hex eight => rw [plainTail (joinedPlain hex),fullParsed hex eight]
  | @short left right hex fewer =>
    have plain : '.' ∉ joined left ++ ':' :: ':' :: joined right := by
      simp only [List.mem_append,List.mem_cons,not_or]
      exact ⟨joinedPlain fun group mem => hex group (List.mem_append_left _ mem),by decide,by decide,
        joinedPlain fun group mem => hex group (List.mem_append_right _ mem)⟩
    rw [plainTail plain,shortParsed hex fewer]
  | @fullQuad groups quad last hex six dotted =>
    obtain ⟨hexLast,two⟩ := quadHex (quadShape dotted).2.2
    have some_groups : groups ≠ [] := by
      rintro rfl
      cases six
    have some_last : quadGroups last ≠ [] := by
      intro empty
      rw [empty] at two
      cases two
    have every : ∀ group ∈ groups ++ quadGroups last, HexGroup group := fun group mem =>
      (List.mem_append.mp mem).elim (hex group) (hexLast group)
    rw [quadTail _ dotted,← colonJoined some_last,← joinedAppend some_groups,
      fullParsed every (by rw [List.length_append,six,two]),groupValues,List.map_append,groupBytes,List.flatMap_append]
    exact congrArg (fun tail => some (groupBytes (groupValues groups) ++ tail)) (quadValues (quadShape dotted).2.2)
  | @shortQuad left right quad last hex fewer dotted =>
    obtain ⟨hexLast,two⟩ := quadHex (quadShape dotted).2.2
    have some_last : quadGroups last ≠ [] := by
      intro empty
      rw [empty] at two
      cases two
    have some_right : right ++ quadGroups last ≠ [] := by
      intro empty
      exact some_last (List.append_eq_nil_iff.mp empty).2
    have every : ∀ group ∈ left ++ (right ++ quadGroups last), HexGroup group := by
      rw [← List.append_assoc]
      exact fun group mem => (List.mem_append.mp mem).elim (hex group) (hexLast group)
    have size : left.length + (right ++ quadGroups last).length = left.length + right.length + 2 := by
      rw [List.length_append,two,Nat.add_assoc]
    have shape : joined left ++ ':' :: (colonText right ++ ':' :: quad) = (joined left ++ ':' :: colonText right) ++ ':' :: quad := by
      rw [List.append_assoc,List.cons_append]
    have rewritten : (joined left ++ ':' :: colonText right) ++ ':' :: joined (quadGroups last) =
        joined left ++ ':' :: ':' :: joined (right ++ quadGroups last) := by
      rw [← colonJoined some_last,← colonJoined some_right,List.append_assoc,List.cons_append]
      simp [colonText]
    rw [shape,quadTail _ dotted,rewritten,shortParsed every (by omega),size]
    have zeros : 8 - (left.length + right.length + 2) = 6 - (left.length + right.length) := by omega
    rw [zeros,groupValues,groupValues,List.map_append,← List.append_assoc,groupBytes,List.flatMap_append]
    exact congrArg (fun tail => some (groupBytes (groupValues left ++ _ ++ groupValues right) ++ tail)) (quadValues (quadShape dotted).2.2)

theorem ipv6Colon (spelled : Ipv6Text text bytes) : ':' ∈ text := by
  cases spelled with
  | @full groups hex eight =>
    match groups,eight with
    | a :: b :: rest,_ => exact List.mem_append_right _ (List.mem_cons_self)
  | short | fullQuad | shortQuad => exact List.mem_append_right _ List.mem_cons_self

theorem groupBytesLength (values : List Nat) : (groupBytes values).length = 2 * values.length := by
  induction values with
  | nil => rfl
  | cons value rest ih =>
    rw [groupBytes,List.flatMap_cons,List.length_append,List.length_cons]
    rw [groupBytes] at ih
    rw [ih]
    simp only [List.length_cons,List.length_nil]
    omega

theorem ipv6Length (spelled : Ipv6Text text bytes) : bytes.length = 16 := by
  cases spelled with
  | full hex eight => rw [groupBytesLength,groupValues,List.length_map,eight]
  | short hex fewer =>
    rw [groupBytesLength]
    simp only [groupValues,List.length_append,List.length_map,List.length_replicate]
    omega
  | fullQuad hex six dotted =>
    rw [List.length_append,groupBytesLength,groupValues,List.length_map,six,(quadShape dotted).2.2]
  | shortQuad hex fewer dotted =>
    rw [List.length_append,groupBytesLength,(quadShape dotted).2.2]
    simp only [groupValues,List.length_append,List.length_map,List.length_replicate]
    omega

theorem Inet.Spelled.documented {inet : Inet} (spelled : inet.Spelled) : inet.Documented where
  v4 := fun text bytes read => ⟨(quadShape (spelled.v4 text bytes read)).2.2,(quadShape (spelled.v4 text bytes read)).1⟩
  v6 := fun text bytes read => ⟨ipv6Length (spelled.v6 text bytes read),ipv6Colon (spelled.v6 text bytes read)⟩

theorem readsV4 {inet : Inet} (spelled : inet.Spelled) {address : String} {value : List UInt8}
    (read : inet.pton afInet address = some value) : parseIpv4 address.toList = some value :=
  quadParsed (spelled.v4 address value read)

theorem readsV6 {inet : Inet} (spelled : inet.Spelled) {address : String} {value : List UInt8}
    (read : inet.pton afInet6 address = some value) : parseIpv4 address.toList = none ∧ parseIpv6 address.toList = some value := by
  have shape := spelled.v6 address value read
  refine ⟨?_,ipv6Parsed shape⟩
  cases dotted : parseIpv4 address.toList with
  | none => rfl
  | some bytes => exact absurd (ipv6Colon shape) (ipv4Colon dotted)

end Quads

end KeenPbr
