import KeenPbr.DnsmasqHash
import Mathlib.Data.List.MinMax

/-! What the rows of the resolver configuration mean for a name: dnsmasq takes the rows of the longest
suffix. Pinned domains win over lists, and both over the rows inherited from Keenetic. -/
namespace KeenPbr.Dnsmasq
open Dns Documents Fields

def under (name domain : Text) : Bool := isSameOrSubdomain (name.map asciiLower) (domain.map asciiLower)

def slash (c : Char) : Bool := c == '/'

def rowsIn (directive : Text) : List (Text × Text) :=
  if text "server=/" <+: directive then
    let parts := fields slash (directive.drop 8)
    parts.dropLast.map fun domain => (domain,parts.getLastD [])
  else []

def serverRows (directives : List Text) : List (Text × Text) := directives.flatMap rowsIn

def mostSpecific (rows : List (Text × Text)) (name : Text) : List (Text × Text) :=
  rows.filter fun row => under name row.1 && rows.all fun other => !under name other.1 || other.1.length ≤ row.1.length

section Suffixes
variable {name domain other : Text}

theorem sameOrSubdomainIff : isSameOrSubdomain name domain = true ↔ name = domain ∨ '.' :: domain <:+ name := by
  rw [isSameOrSubdomain,Bool.or_eq_true,beq_iff_eq,List.isSuffixOf_iff_suffix]

theorem subdomainLonger (left : isSameOrSubdomain name domain = true) (right : isSameOrSubdomain name other = true)
    (longer : other.length ≤ domain.length) : isSameOrSubdomain domain other = true := by
  rw [sameOrSubdomainIff] at left right ⊢
  rcases right with rfl | below
  · rcases left with rfl | deeper
    · exact .inl rfl
    · have shorter := deeper.length_le
      rw [List.length_cons] at shorter
      omega
  · have inside : domain <:+ name := by
      rcases left with rfl | deeper
      · exact List.suffix_rfl
      · exact (List.suffix_cons _ _).trans deeper
    by_cases equal : other.length = domain.length
    · have suffix : other <:+ domain := List.suffix_of_suffix_length_le ((List.suffix_cons _ _).trans below) inside longer
      exact .inl (suffix.eq_of_length equal).symm
    · refine .inr (List.suffix_of_suffix_length_le below inside ?_)
      rw [List.length_cons]
      omega

theorem underLength : (domain.map asciiLower).length = domain.length := List.length_map _

variable {rows pins : List (Text × Text)} {row : Text × Text}

theorem mostSpecificIff : row ∈ mostSpecific rows name ↔
    row ∈ rows ∧ under name row.1 = true ∧ ∀ other ∈ rows, under name other.1 = true → other.1.length ≤ row.1.length := by
  rw [mostSpecific,List.mem_filter,Bool.and_eq_true,List.all_eq_true]
  refine and_congr_right fun _ => and_congr_right fun _ => forall_congr' fun other => imp_congr_right fun _ => ?_
  rw [Bool.or_eq_true,Bool.not_eq_true',decide_eq_true_eq]
  cases under name other.1 <;> simp

theorem pinsDecide (present : ∀ pin ∈ pins, pin ∈ rows)
    (apart : ∀ row ∈ rows, under name row.1 = true → row ∈ pins ∨ ∀ pin ∈ pins, under row.1 pin.1 = false) {pin : Text × Text}
    (listed : pin ∈ pins) (reached : under name pin.1 = true) : row ∈ mostSpecific rows name ↔ row ∈ mostSpecific pins name := by
  -- a row that is no pin is shorter than every pin on the way
  have shorter : ∀ row ∈ rows, under name row.1 = true → row ∉ pins → ∀ pin ∈ pins, under name pin.1 = true →
    row.1.length < pin.1.length := by
    intro row inRows matched notPin pin inPins hit
    rcases apart row inRows matched with isPin | above
    · exact absurd isPin notPin
    · by_contra long
      have below := subdomainLonger matched hit (by rw [underLength,underLength]; omega)
      have outside := above pin inPins
      rw [under,below] at outside
      cases outside
  rw [mostSpecificIff,mostSpecificIff]
  constructor
  · rintro ⟨inRows,matched,longest⟩
    have isPin : row ∈ pins := by
      by_contra notPin
      have less := shorter row inRows matched notPin pin listed reached
      have more := longest pin (present pin listed) reached
      omega
    exact ⟨isPin,matched,fun other mem hit => longest other (present other mem) hit⟩
  · rintro ⟨isPin,matched,longest⟩
    refine ⟨present row isPin,matched,fun other mem hit => ?_⟩
    by_cases otherPin : other ∈ pins
    · exact longest other otherPin hit
    · exact le_of_lt (shorter other mem hit otherPin row isPin matched)

theorem mostSpecificExists {pin : Text × Text} (listed : pin ∈ pins) (reached : under name pin.1 = true) : mostSpecific pins name ≠ [] := by
  have filled : pins.filter (fun row => under name row.1) ≠ [] := List.ne_nil_of_mem (List.mem_filter.mpr ⟨listed,reached⟩)
  have found : (pins.filter fun row => under name row.1).argmax (fun row => row.1.length) ≠ none := fun none =>
    filled (List.argmax_eq_none.mp none)
  obtain ⟨longest,top⟩ := Option.ne_none_iff_exists'.mp found
  obtain ⟨inPins,hit⟩ := List.mem_filter.mp (List.argmax_mem top)
  have longer : ∀ other ∈ pins.filter fun row => under name row.1, other.1.length ≤ longest.1.length := fun other mem =>
    List.le_of_mem_argmax (f := fun row : Text × Text => row.1.length) mem top
  exact List.ne_nil_of_mem (mostSpecificIff.mpr ⟨inPins,hit,fun other there matched => longer other (List.mem_filter.mpr ⟨there,matched⟩)⟩)

end Suffixes

section Names

def domainChar (c : Char) : Bool := asciiLetter c || isDigit c || c == '-' || c == '_' || c == '.'

structure PlainDomain (name : Text) : Prop where
  chars : ∀ c ∈ name, domainChar c = true
  filled : name ≠ []
  undotted : name.getLast? ≠ some '.'
  short : name.length ≤ 253

variable {raw name : Text}

theorem PlainDomain.without (plain : PlainDomain name) {c : Char} (odd : domainChar c = false) : c ∉ name := by
  intro mem
  rw [plain.chars c mem] at odd
  cases odd

def trimmedDomain (raw : Text) : Text :=
  let bare := if text "*." <+: raw then raw.drop 2 else raw
  if bare.getLast? = some '.' then bare.dropLast else bare

theorem normalizedTrimmed (normal : normalizeDomain raw = some name) :
    trimmedDomain raw = name ∧ (name.isEmpty || name.getLast? == some '.' || name.length > 253) = false ∧
      (fields dotChar name).all domainLabel = true := by
  change (if ((trimmedDomain raw).isEmpty || (trimmedDomain raw).getLast? == some '.' || (trimmedDomain raw).length > 253) = true then none
    else if (!(fields dotChar (trimmedDomain raw)).all domainLabel) = true then none
    else if (!(trimmedDomain raw).any asciiLetter) = true then none else some (trimmedDomain raw)) = some name at normal
  generalize trimmedDomain raw = trimmed at normal
  split at normal
  · cases normal
  · rename_i shaped
    split at normal
    · cases normal
    · rename_i labels
      split at normal
      · cases normal
      · cases normal
        exact ⟨rfl,Bool.eq_false_iff.mpr shaped,by simpa using labels⟩

theorem normalizedPlain (normal : normalizeDomain raw = some name) : PlainDomain name := by
  obtain ⟨_,shaped,labels⟩ := normalizedTrimmed normal
  simp only [Bool.or_eq_false_iff,List.isEmpty_eq_false_iff,beq_eq_false_iff_ne,decide_eq_false_iff_not,not_lt] at shaped
  refine ⟨fun c mem => ?_,shaped.1.1,shaped.1.2,shaped.2⟩
  rcases memFields dotChar mem with dot | ⟨label,listed,inside⟩
  · rw [dotChar,beq_iff_eq] at dot
    rw [dot]
    rfl
  · have valid := List.all_eq_true.mp labels label listed
    simp only [domainLabel,Bool.and_eq_true] at valid
    have own := List.all_eq_true.mp valid.2 c inside
    rw [domainChar,own,Bool.true_or]

theorem stripEndPlain (plain : PlainDomain name) (trail : Text) : stripEnd dotChar (name ++ trail) = name ++ stripEnd dotChar trail := by
  obtain ⟨c,back⟩ := Option.ne_none_iff_exists'.mp fun none => plain.filled (List.getLast?_eq_none_iff.mp none)
  refine stripEndTrail back ?_
  rw [dotChar,beq_eq_false_iff_ne]
  rintro rfl
  exact plain.undotted back

theorem starless (plain : PlainDomain name) : ¬ text "*." <+: name := by
  intro star
  exact plain.without (c := '*') (by decide) (star.subset (by decide))

theorem canonicalPlain (plain : PlainDomain name) : canonicalDnsDomain name = name.map asciiLower := by
  have whole := stripEndPlain plain []
  rw [List.append_nil] at whole
  rw [canonicalDnsDomain,if_neg (starless plain),whole]
  exact congrArg (List.map asciiLower) (List.append_nil name)

theorem canonicalNormalized (normal : normalizeDomain raw = some name) : canonicalDnsDomain raw = name.map asciiLower := by
  have plain := normalizedPlain normal
  have shape := (normalizedTrimmed normal).1
  rw [trimmedDomain] at shape
  rw [canonicalDnsDomain]
  congr 1
  generalize (if text "*." <+: raw then raw.drop 2 else raw) = bare at shape ⊢
  have cut (trail : Text) (dots : stripEnd dotChar trail = []) : stripEnd dotChar (name ++ trail) = name := by
    rw [stripEndPlain plain,dots,List.append_nil]
  split at shape
  · rename_i dotted
    have whole : bare = name ++ ['.'] := by
      rw [← shape]
      exact (List.dropLast_append_getLast? '.' dotted).symm
    rw [whole]
    exact cut _ rfl
  · have own := cut [] rfl
    rw [List.append_nil] at own
    rw [shape,own]

theorem lowerChar (c : Char) : asciiLower c = c ∨ ('A' ≤ c ∧ c ≤ 'Z' ∧ 'a' ≤ asciiLower c ∧ asciiLower c ≤ 'z') := by
  by_cases upper : 'A' ≤ c ∧ c ≤ 'Z'
  · refine .inr ⟨upper.1,upper.2,?_⟩
    rw [asciiLower,if_pos upper]
    have low : 65 ≤ c.toNat := upper.1
    have high : c.toNat ≤ 90 := upper.2
    have value : (Char.ofNat (c.toNat - 'A'.toNat + 'a'.toNat)).toNat = c.toNat + 32 := by
      rw [Char.ofNat,dif_pos (Or.inl (by simp only [Char.reduceToNat]; omega))]
      change c.toNat - 65 + 97 = c.toNat + 32
      omega
    constructor
    · change 97 ≤ (Char.ofNat (c.toNat - 'A'.toNat + 'a'.toNat)).toNat
      omega
    · change (Char.ofNat (c.toNat - 'A'.toNat + 'a'.toNat)).toNat ≤ 122
      omega
  · exact .inl (if_neg upper)

theorem lowerTwice (c : Char) : asciiLower (asciiLower c) = asciiLower c := by
  rcases lowerChar c with same | ⟨_,_,low,_⟩
  · rw [same,same]
  · refine if_neg fun upper => ?_
    have small : (asciiLower c).toNat ≤ 90 := upper.2
    have large : 97 ≤ (asciiLower c).toNat := low
    omega

theorem lowerDomain {c : Char} (valid : domainChar c = true) : domainChar (asciiLower c) = true := by
  rcases lowerChar c with same | ⟨_,_,low,high⟩
  · rw [same]
    exact valid
  · have letter : asciiLetter (asciiLower c) = true := by
      rw [asciiLetter,decide_eq_true low,decide_eq_true high]
      rfl
    rw [domainChar,letter]
    rfl

theorem lowerPlain (plain : PlainDomain name) : PlainDomain (name.map asciiLower) where
  chars := by
    intro c mem
    obtain ⟨d,inside,rfl⟩ := List.mem_map.mp mem
    exact lowerDomain (plain.chars d inside)
  filled := fun none => plain.filled (List.map_eq_nil_iff.mp none)
  undotted := by
    intro dotted
    rw [List.getLast?_map] at dotted
    obtain ⟨c,back,lower⟩ := Option.map_eq_some_iff.mp dotted
    rcases lowerChar c with same | ⟨_,_,low,_⟩
    · rw [same] at lower
      rw [lower] at back
      exact plain.undotted back
    · rw [lower] at low
      exact absurd low (by decide)
  short := by
    rw [List.length_map]
    exact plain.short

theorem lowerAgain (name : Text) : (name.map asciiLower).map asciiLower = name.map asciiLower := by
  rw [List.map_map]
  exact List.map_congr_left fun c _ => lowerTwice c

theorem barePlain (plain : PlainDomain name) : Generator.bareOf (.domain,name) = some name := by
  have strip : stripWildcard name = name := if_neg fun star => starless plain star.2
  have filled := List.isEmpty_eq_false_iff.mpr plain.filled
  have fits : ¬ name.length > maxDomainNameLength := not_lt.mpr (plain.short.trans (by decide))
  rw [Generator.bareOf]
  simp only [strip,filled,decide_eq_false fits]
  rfl

theorem entryPlain {inet : Inet} {lines : List Text} (mem : (EntryType.domain,name) ∈ listEntries inet lines) : PlainDomain name := by
  rw [listEntries,List.mem_filterMap] at mem
  obtain ⟨line,_,parsed⟩ := mem
  unfold parseLine at parsed
  simp only [] at parsed
  split at parsed
  · cases parsed
  · unfold classifyEntry at parsed
    split at parsed
    · split at parsed <;> cases parsed
    · obtain ⟨domain,normal,same⟩ := Option.map_eq_some_iff.mp parsed
      cases same
      exact normalizedPlain normal

theorem baresIff {inet : Inet} {lines : List Text} :
    name ∈ Generator.bares inet lines ↔ (EntryType.domain,name) ∈ listEntries inet lines := by
  rw [Generator.bares,List.mem_filterMap]
  constructor
  · rintro ⟨⟨type,entry⟩,mem,taken⟩
    have domain : type = .domain := by
      by_contra other
      rw [Generator.bareOf] at taken
      simp only [ne_eq,other,not_false_eq_true,decide_true,Bool.true_or,if_true] at taken
      cases taken
    subst domain
    rw [barePlain (entryPlain mem)] at taken
    cases taken
    exact mem
  · exact fun mem => ⟨_,mem,barePlain (entryPlain mem)⟩

end Names

section Rows
variable {domain address : Text}

theorem rowsHead {c : Char} (other : c ≠ 's') (rest : Text) : rowsIn (c :: rest) = [] := by
  refine if_neg fun front => ?_
  obtain ⟨later,shape⟩ := front
  exact other (List.cons.inj shape).1.symm

def pathOf (domains : List Text) : Text := domains.flatMap fun domain => '/' :: domain

theorem pathJoined (domains : List Text) (address : Text) :
    pathOf domains ++ '/' :: address = '/' :: ['/'].intercalate (domains ++ [address]) := by
  induction domains with
  | nil => rw [pathOf,List.flatMap_nil,List.nil_append,List.nil_append,List.intercalate_singleton]
  | cons domain rest ih =>
    rw [pathOf] at ih ⊢
    rw [List.flatMap_cons,List.append_assoc,ih,List.cons_append,List.cons_append]
    cases shape : rest ++ [address] with
    | nil => exact absurd shape (List.append_ne_nil_of_right_ne_nil _ (List.cons_ne_nil _ _))
    | cons next later => rw [List.intercalate_cons_cons,List.append_assoc,List.singleton_append]

theorem rowsPath {domains : List Text} (free : ∀ domain ∈ domains, '/' ∉ domain) (plain : '/' ∉ address) :
    rowsIn (text "server=" ++ pathOf domains ++ '/' :: address) = domains.map fun domain => (domain,address) := by
  have parts : fields slash (['/'].intercalate (domains ++ [address])) = domains ++ [address] := by
    refine fieldsJoined slash rfl (List.append_ne_nil_of_right_ne_nil _ (List.cons_ne_nil _ _)) fun part mem => ?_
    rcases List.mem_append.mp mem with inside | last
    · exact Generator.absentFree (free part inside)
    · cases List.mem_singleton.mp last
      exact Generator.absentFree plain
  rw [List.append_assoc,pathJoined]
  change (if text "server=/" <+: text "server=/" ++ ['/'].intercalate (domains ++ [address]) then _ else _) = _
  rw [if_pos (List.prefix_append _ _)]
  change (fields slash (['/'].intercalate (domains ++ [address]))).dropLast.map
    (fun domain => (domain,(fields slash (['/'].intercalate (domains ++ [address]))).getLastD [])) = _
  rw [parts,List.dropLast_concat,List.getLastD_concat]

theorem rowsServer (free : '/' ∉ domain) (plain : '/' ∉ address) : rowsIn (serverRow domain address) = [(domain,address)] := by
  have own : ∀ other ∈ [domain], '/' ∉ other := by
    intro other mem
    cases List.mem_singleton.mp mem
    exact free
  have path := rowsPath own plain
  rw [pathOf,List.flatMap_singleton] at path
  exact path

theorem rowsBare (plain : '/' ∉ address) : rowsIn (text "server=" ++ address) = [] := by
  refine if_neg fun front => ?_
  obtain ⟨later,shape⟩ := front
  have split : text "server=" ++ '/' :: later = text "server=" ++ address := shape
  have rest := List.append_cancel_left split
  exact plain (by rw [← rest]; exact List.mem_cons_self)

theorem serverAddressPlain {ip : Text} (chars : ∀ c ∈ ip, addressChar c = true) (port : Nat) : '/' ∉ serverAddress ip port := by
  have ipPlain : '/' ∉ ip := fun mem => absurd (chars '/' mem) (by decide)
  rw [serverAddress]
  split
  · exact ipPlain
  · rw [List.mem_append,List.mem_cons]
    rintro (inside | same | digit)
    · exact ipPlain inside
    · cases same
    · exact absurd (List.all_eq_true.mp (toStringDigits port).1 '/' digit) (by decide)

theorem behindDotsIff (domain other : Text) : other ∈ behindDots domain ↔ '.' :: other <:+ domain := by
  induction domain with
  | nil =>
    rw [behindDots,List.suffix_nil]
    exact ⟨nofun,nofun⟩
  | cons c rest ih =>
    rw [behindDots,List.suffix_cons_iff]
    split
    · rename_i dot
      subst dot
      rw [List.mem_cons,ih,List.cons.injEq]
      simp
    · rename_i differs
      rw [ih,List.cons.injEq]
      exact ⟨.inr,fun either => either.resolve_left fun same => differs same.1.symm⟩

theorem bindingIff (direct : List Text) (domain : Text) :
    hasDirectBinding direct domain = true ↔ ∃ pin ∈ direct, isSameOrSubdomain (canonicalDnsDomain domain) pin = true := by
  rw [hasDirectBinding,List.any_eq_true]
  constructor
  · rintro ⟨other,mem,listed⟩
    refine ⟨other,List.contains_iff_mem.mp listed,sameOrSubdomainIff.mpr ?_⟩
    rcases List.mem_cons.mp mem with same | behind
    · exact .inl same.symm
    · exact .inr ((behindDotsIff _ _).mp behind)
  · rintro ⟨pin,listed,below⟩
    refine ⟨pin,?_,List.contains_iff_mem.mpr listed⟩
    rcases sameOrSubdomainIff.mp below with same | behind
    · rw [same]
      exact List.mem_cons_self
    · exact List.mem_cons_of_mem _ ((behindDotsIff _ _).mpr behind)

end Rows

section Batches
variable {P : Text → Prop} {batch : BatchState} {domain : Text} {lines more : List Line}

def RowsTo (P : Text → Prop) (lines : List Line) : Prop := ∀ directive ∈ directivesIn lines, ∀ row ∈ rowsIn directive, P row.1

theorem RowsTo.append (left : RowsTo P lines) (right : RowsTo P more) : RowsTo P (lines ++ more) := by
  intro directive mem
  rw [directivesInAppend] at mem
  rcases List.mem_append.mp mem with front | back
  · exact left directive front
  · exact right directive back

theorem RowsTo.nil : RowsTo P [] := fun _ mem => by cases mem

def BatchRows (P : Text → Prop) (batch : BatchState) : Prop :=
  (∃ c rest, batch.lead = c :: rest ∧ c ≠ 's') ∨
    batch.lead = text "server=" ∧ ∃ (domains : List Text) (address : Text), batch.trail = '/' :: address ∧ '/' ∉ address ∧
      batch.domainPath = pathOf domains ∧ ∀ domain ∈ domains, '/' ∉ domain ∧ P domain

theorem otherBatch {c : Char} (rest : Text) (lead : batch.lead = c :: rest) (other : c ≠ 's') :
    BatchRows P batch ∧ batch.lead ≠ text "server=" := by
  refine ⟨.inl ⟨c,rest,lead,other⟩,fun same => ?_⟩
  rw [lead] at same
  exact other (List.cons.inj same).1

theorem rowOfBatch (rows : BatchRows P batch) : RowsTo P [.directive batch.row] := by
  intro directive mem row listed
  cases List.mem_singleton.mp mem
  rcases rows with ⟨c,rest,lead,other⟩ | ⟨lead,domains,address,trail,plain,path,own⟩
  · rw [BatchState.row,lead,List.cons_append,List.cons_append,rowsHead other] at listed
    cases listed
  · rw [BatchState.row,lead,trail,path,rowsPath (fun domain mem => (own domain mem).1) plain] at listed
    obtain ⟨domain,inside,rfl⟩ := List.mem_map.mp listed
    exact (own domain inside).2

theorem BatchRows.restart (rows : BatchRows P batch) {next : BatchState} (lead : next.lead = batch.lead) (trail : next.trail = batch.trail)
    (path : ∀ domains : List Text, batch.domainPath = pathOf domains → (∀ domain ∈ domains, '/' ∉ domain ∧ P domain) →
      batch.lead = text "server=" →
      ∃ others : List Text, next.domainPath = pathOf others ∧ ∀ domain ∈ others, '/' ∉ domain ∧ P domain) : BatchRows P next := by
  rcases rows with ⟨c,rest,own,other⟩ | ⟨own,domains,address,behind,plain,held,good⟩
  · exact .inl ⟨c,rest,lead.trans own,other⟩
  · obtain ⟨others,shape,fine⟩ := path domains held good own
    exact .inr ⟨lead.trans own,others,address,trail.trans behind,plain,shape,fine⟩

theorem flushRows (rows : BatchRows P batch) : BatchRows P batch.flush.1 ∧ RowsTo P batch.flush.2 := by
  rw [BatchState.flush]
  split
  · exact ⟨rows,.nil⟩
  · refine ⟨rows.restart rfl rfl fun _ _ _ _ => ⟨[],rfl,List.forall_mem_nil _⟩,rowOfBatch rows⟩

theorem flushLead : batch.flush.1.lead = batch.lead ∧ batch.flush.1.trail = batch.trail := by
  rw [BatchState.flush]
  split <;> exact ⟨rfl,rfl⟩

theorem pushRows (domain : Text) (rows : BatchRows P batch) (fine : batch.lead = text "server=" → '/' ∉ domain ∧ P domain) :
    BatchRows P (batch.push domain).1 ∧ RowsTo P (batch.push domain).2 := by
  have alone (own : batch.lead = text "server=") : ∀ other ∈ [domain], '/' ∉ other ∧ P other := by
    intro other mem
    cases List.mem_singleton.mp mem
    exact fine own
  rw [BatchState.push]
  split
  · exact ⟨rows,.nil⟩
  · simp only []
    split
    · obtain ⟨flushed,written⟩ := flushRows rows
      split
      · exact ⟨flushed,written⟩
      · refine ⟨rows.restart flushLead.1 flushLead.2 fun _ _ _ own => ⟨[domain],?_,alone own⟩,written⟩
        rw [pathOf,List.flatMap_singleton]
    · refine ⟨rows.restart rfl rfl fun domains held good own => ⟨domains ++ [domain],?_,fun other mem => ?_⟩,.nil⟩
      · rw [pathOf,List.flatMap_append,List.flatMap_singleton,held,pathOf]
      · rcases List.mem_append.mp mem with old | new
        · exact good other old
        · exact alone own other new

theorem pushAllRows {batches : List BatchState} (rows : ∀ batch ∈ batches, BatchRows P batch)
    (fine : batches ≠ [] → '/' ∉ domain ∧ P domain) :
    (∀ batch ∈ (pushAll domain batches).1, BatchRows P batch) ∧ RowsTo P (pushAll domain batches).2 := by
  induction batches with
  | nil => exact ⟨nofun,.nil⟩
  | cons batch rest ih =>
    have valid := fine (List.cons_ne_nil _ _)
    obtain ⟨pushed,written⟩ := pushRows domain (rows batch List.mem_cons_self) fun _ => valid
    obtain ⟨others,later⟩ := ih (fun other mem => rows other (List.mem_cons_of_mem _ mem)) fun _ => valid
    rw [pushAll]
    refine ⟨fun other mem => ?_,written.append later⟩
    rcases List.mem_cons.mp mem with rfl | inside
    · exact pushed
    · exact others other inside

end Batches

theorem pushLead {batch : BatchState} (domain : Text) : (batch.push domain).1.lead = batch.lead := by
  rw [BatchState.push]
  split
  · rfl
  · simp only []
    split
    · split <;> exact flushLead.1
    · rfl

namespace Generator
variable {inet : Inet} {g : Generator} {plan : ListPlan}

def Unpinned (g : Generator) (domain : Text) : Prop := PlainDomain domain ∧ hasDirectBinding g.directDomains domain = false

section Lists

structure ListRows (g : Generator) (plan : ListPlan) (batches : Batches) : Prop where
  ipset : BatchRows g.Unpinned batches.ipset ∧ batches.ipset.lead ≠ text "server="
  rebind : BatchRows g.Unpinned batches.rebind ∧ batches.rebind.lead ≠ text "server="
  servers : ∀ batch ∈ batches.servers, BatchRows g.Unpinned batch
  count : batches.servers.length = plan.servers.length

theorem startRows (spelled : ∀ server ∈ plan.servers, ∀ c ∈ server.resolvedIp, addressChar c = true) :
    ListRows g plan (g.newBatches true plan) where
  ipset := by
    rw [newBatches]
    cases g.resolverType with
    | dnsmasqIpset => exact otherBatch (text "pset=") rfl (by decide)
    | dnsmasqNftset => exact otherBatch (text "ftset=") rfl (by decide)
  rebind := otherBatch (text "ebind-domain-ok=") rfl (by decide)
  servers := by
    intro batch mem
    obtain ⟨server,listed,rfl⟩ := List.mem_map.mp mem
    exact .inr ⟨rfl,[],_,rfl,serverAddressPlain (spelled server listed) server.port,rfl,List.forall_mem_nil _⟩
  count := List.length_map _

theorem pushEntryRows {batches : Batches} {bare : Text} (rows : ListRows g plan batches) (plain : PlainDomain bare) :
    ListRows g plan (g.pushEntry plan batches bare).1 ∧ RowsTo g.Unpinned (g.pushEntry plan batches bare).2 := by
  have free : '/' ∉ bare := plain.without (by decide)
  obtain ⟨ipset,ipsetLines⟩ := pushRows bare rows.ipset.1 fun own => absurd own rows.ipset.2
  obtain ⟨rebind,rebindLines⟩ := pushRows bare rows.rebind.1 fun own => absurd own rows.rebind.2
  have ipsetLead : (batches.ipset.push bare).1.lead ≠ text "server=" := by
    rw [pushLead]
    exact rows.ipset.2
  have rebindLead : (batches.rebind.push bare).1.lead ≠ text "server=" := by
    rw [pushLead]
    exact rows.rebind.2
  rw [pushEntry]
  simp only []
  split
  · exact ⟨⟨⟨ipset,ipsetLead⟩,⟨rebind,rebindLead⟩,rows.servers,rows.count⟩,(ipsetLines.append rebindLines).append .nil⟩
  · rename_i unbound
    have fine : batches.servers ≠ [] → '/' ∉ bare ∧ g.Unpinned bare := by
      intro filled
      refine ⟨free,plain,?_⟩
      have served : plan.servers.isEmpty = false := by
        rw [List.isEmpty_eq_false_iff]
        intro none
        have count := rows.count
        rw [none] at count
        exact filled (List.length_eq_zero_iff.mp count)
      by_contra bound
      rw [Bool.not_eq_false] at bound
      obtain ⟨pin,listed,_⟩ := (bindingIff _ _).mp bound
      have direct : g.directDomains.isEmpty = false := List.isEmpty_eq_false_iff.mpr (List.ne_nil_of_mem listed)
      rw [directlyBound,served,direct,bound] at unbound
      exact unbound rfl
    obtain ⟨servers,serverLines⟩ := pushAllRows rows.servers fine
    refine ⟨⟨⟨ipset,ipsetLead⟩,⟨rebind,rebindLead⟩,servers,?_⟩,(ipsetLines.append rebindLines).append serverLines⟩
    exact (pushAllLength batches.servers).trans rows.count

theorem flushAllRows {batches : Batches} (rows : ListRows g plan batches) : RowsTo g.Unpinned batches.flush := by
  refine ((flushRows rows.ipset.1).2.append (flushRows rows.rebind.1).2).append ?_
  have servers := rows.servers
  generalize batches.servers = list at servers
  induction list with
  | nil => exact .nil
  | cons batch rest ih =>
    rw [List.flatMap_cons]
    exact (flushRows (servers batch List.mem_cons_self)).2.append (ih fun other mem => servers other (List.mem_cons_of_mem _ mem))

def RowsOf (P : Text → Prop) (events : List Event) : Prop := ∀ directive ∈ directivesOf events, ∀ row ∈ rowsIn directive, P row.1

theorem RowsOf.append {P : Text → Prop} {events more : List Event} (left : RowsOf P events) (right : RowsOf P more) :
    RowsOf P (events ++ more) := by
  intro directive mem
  rw [directivesAppend] at mem
  rcases List.mem_append.mp mem with front | back
  · exact left directive front
  · exact right directive back

theorem RowsOf.write {P : Text → Prop} {lines : List Line} (rows : RowsTo P lines) : RowsOf P (write true lines) := by
  rw [RowsOf,directivesWrite]
  exact rows

theorem RowsOf.records {P : Text → Prop} (records : List Record) : RowsOf P (records.map .record) := by
  rw [RowsOf,directivesMap]
  nofun

theorem visitRows (state : ListState) (entries : List (EntryType × Text)) (rows : ListRows g plan state.batches)
    (plain : ∀ bare ∈ entries.filterMap bareOf, PlainDomain bare) :
    ListRows g plan (g.visitEntries true plan state entries).1.batches ∧ RowsOf g.Unpinned (g.visitEntries true plan state entries).2 := by
  induction entries generalizing state with
  | nil => exact ⟨rows,List.forall_mem_nil _⟩
  | cons entry rest ih =>
    rw [visitEntries]
    simp only []
    rw [List.filterMap_cons] at plain
    cases taken : bareOf entry with
    | none =>
      rw [taken] at plain
      rw [visitSkips taken]
      exact ih state rows plain
    | some bare =>
      rw [taken] at plain
      have later := fun other mem => plain other (List.mem_cons_of_mem _ mem)
      rw [visitTakes taken]
      simp only []
      split
      · obtain ⟨ended,others⟩ :=
          ih { state with suppressed := if plan.servers.isEmpty then state.suppressed else g.suppress state.suppressed bare } rows later
        exact ⟨ended,(RowsOf.records _).append others⟩
      · obtain ⟨pushed,written⟩ := pushEntryRows rows (plain bare List.mem_cons_self)
        obtain ⟨ended,others⟩ := ih ⟨_,_,_⟩ pushed later
        have header : RowsTo g.Unpinned (listHeader plan state.wroteHeader) := by
          rw [listHeader]
          split <;> exact List.forall_mem_nil _
        exact ⟨ended,((RowsOf.records _).append (.write (header.append written))).append others⟩

variable (spelled : ∀ tag, ∀ server ∈ g.registry.getServers tag, ∀ c ∈ server.resolvedIp, addressChar c = true)
include spelled

theorem sectionRows (suppressed : List Bool) (name : Text) : RowsOf g.Unpinned (g.listSection inet true suppressed name).2 := by
  rw [listSection]
  split
  · exact List.forall_mem_nil _
  · rename_i lines listed
    have planned : ∀ server ∈ (g.listPlan name).servers, ∀ c ∈ server.resolvedIp, addressChar c = true := by
      intro server mem
      rw [listPlan] at mem
      cases ruled : g.dnsListRule name with
      | none =>
        rw [ruled] at mem
        cases mem
      | some rule =>
        rw [ruled] at mem
        exact spelled rule.server server mem
    obtain ⟨ended,rows⟩ := visitRows ⟨suppressed,false,g.newBatches true (g.listPlan name)⟩ (listEntries inet lines) (startRows planned)
      fun bare mem => entryPlain (baresIff.mp mem)
    refine rows.append (.write ((flushAllRows ended).append ?_))
    split <;> exact List.forall_mem_nil _

theorem sectionsRows (suppressed : List Bool) (names : List Text) : RowsOf g.Unpinned (g.listSections inet true suppressed names).2 := by
  induction names generalizing suppressed with
  | nil => nofun
  | cons name rest ih =>
    rw [listSections]
    exact (sectionRows spelled suppressed name).append (ih _)

end Lists

section Intent

/- keenetic_dns.cpp: the domain of an inherited row, as a line of the proxy configuration names it. -/
def scopedDomain (raw : Text) : Option Text := (normalizeDomain raw).map fun name => name.map asciiLower

def pinnedNames (server : DnsServer) : List Text := (server.domains.getD []).filterMap fun domain => normalizeDomain domain.toList

def pinnedRows (config : DnsConfig) (registry : DnsServerRegistry) : List (Text × Text) :=
  (configuredServers config).flatMap fun server => (pinnedNames server).flatMap fun name =>
    (registry.getServers server.tag).map fun resolved => (name.map asciiLower,serverAddress resolved.resolvedIp resolved.port)

def atPin (config : DnsConfig) (registry : DnsServerRegistry) (name : Text) : Bool :=
  (configuredServers config).any fun server => !(registry.getServers server.tag).isEmpty && (pinnedNames server).any (under name)

def atManaged (inet : Inet) (g : Generator) (name : Text) : Bool :=
  (enabledDnsRules g.dnsConfig).any fun rule => !(g.registry.getServers rule.server).isEmpty && rule.list.any fun list =>
    (g.lists list.toList).any fun lines => (listEntries inet lines).any fun entry => entry.1 == .domain && under name entry.2

variable (validated : ∀ server ∈ configuredServers g.dnsConfig, ∀ domain ∈ server.domains.getD [],
    (normalizeDomain domain.toList).isSome = true)

include validated in
theorem pinsRead : g.pins = (configuredServers g.dnsConfig).flatMap fun server => (pinnedNames server).map fun name =>
  (name.map asciiLower,g.registry.getServers server.tag) := by
  refine List.flatMap_congr fun server listed => ?_
  have domains := validated server listed
  rw [pinnedNames]
  generalize server.domains.getD [] = list at domains
  induction list with
  | nil => rfl
  | cons domain rest ih =>
    obtain ⟨name,normal⟩ := Option.isSome_iff_exists.mp (domains domain List.mem_cons_self)
    rw [List.map_cons,List.filterMap_cons,normal,List.map_cons,canonicalNormalized normal,
      ih fun other mem => domains other (List.mem_cons_of_mem _ mem)]

def pinRows (g : Generator) : List (Text × Text) :=
  g.pins.flatMap fun (bare,servers) => servers.map fun server => (bare,serverAddress server.resolvedIp server.port)

include validated in
theorem pinRowsRead : g.pinRows = pinnedRows g.dnsConfig g.registry := by
  rw [pinRows,pinsRead validated,pinnedRows,List.flatMap_assoc]
  refine List.flatMap_congr fun server _ => ?_
  rw [List.flatMap_map]

include validated in
theorem pinPlain {pin : Text × List DnsServerConfig} (mem : pin ∈ g.pins) : PlainDomain pin.1 ∧ pin.1.map asciiLower = pin.1 := by
  rw [pinsRead validated] at mem
  obtain ⟨server,_,inside⟩ := List.mem_flatMap.mp mem
  obtain ⟨name,named,rfl⟩ := List.mem_map.mp inside
  obtain ⟨domain,_,normal⟩ := List.mem_filterMap.mp named
  exact ⟨lowerPlain (normalizedPlain normal),lowerAgain name⟩

include validated in
theorem boundIff (serves : RegistryServes g.dnsConfig g.registry) {domain : Text} (plain : PlainDomain domain) :
    hasDirectBinding g.directDomains domain = atPin g.dnsConfig g.registry domain := by
  rw [Bool.eq_iff_iff,bindingIff,canonicalPlain plain,directDomains,pinsRead validated,atPin,List.any_eq_true]
  constructor
  · rintro ⟨pin,mem,below⟩
    obtain ⟨entry,listed,rfl⟩ := List.mem_map.mp mem
    obtain ⟨server,configured,inside⟩ := List.mem_flatMap.mp listed
    obtain ⟨name,named,rfl⟩ := List.mem_map.mp inside
    refine ⟨server,configured,?_⟩
    rw [Bool.and_eq_true,Bool.not_eq_true',List.isEmpty_eq_false_iff,List.any_eq_true]
    exact ⟨serves.configured server configured,name,named,below⟩
  · rintro ⟨server,configured,both⟩
    rw [Bool.and_eq_true,List.any_eq_true] at both
    obtain ⟨_,name,named,below⟩ := both
    exact ⟨_,List.mem_map.mpr ⟨_,List.mem_flatMap.mpr ⟨server,configured,List.mem_map.mpr ⟨name,named,rfl⟩⟩,rfl⟩,below⟩

end Intent

section Inherited

def listCovers (inet : Inet) (g : Generator) (upstream : KeeneticDnsScopedUpstreamEntry) (name : Text) : Bool :=
  (g.lists name).any fun lines => !(g.listPlan name).servers.isEmpty &&
    (bares inet lines).any fun bare => isSameOrSubdomain upstream.domain (canonicalDnsDomain bare)

theorem suppressMap (covers : KeeneticDnsScopedUpstreamEntry → Bool) (bare : Text) :
    g.suppress (g.keeneticScopedDnsUpstreams.map covers) bare =
      g.keeneticScopedDnsUpstreams.map fun upstream => covers upstream || isSameOrSubdomain upstream.domain (canonicalDnsDomain bare) := by
  rw [suppress,List.zipWith_map_left,List.zipWith_self]

theorem suppressedMap (covers : KeeneticDnsScopedUpstreamEntry → Bool) (domains : List Text) :
    domains.foldl g.suppress (g.keeneticScopedDnsUpstreams.map covers) =
      g.keeneticScopedDnsUpstreams.map fun upstream =>
        covers upstream || domains.any fun bare => isSameOrSubdomain upstream.domain (canonicalDnsDomain bare) := by
  induction domains generalizing covers with
  | nil => simp
  | cons bare rest ih =>
    rw [List.foldl_cons,suppressMap,ih]
    simp only [List.any_cons,Bool.or_assoc]

theorem listSuppressedMap (covers : KeeneticDnsScopedUpstreamEntry → Bool) (name : Text) :
    listSuppressed inet g (g.keeneticScopedDnsUpstreams.map covers) name =
      g.keeneticScopedDnsUpstreams.map fun upstream => covers upstream || listCovers inet g upstream name := by
  rw [listSuppressed]
  simp only [listCovers]
  cases g.lists name with
  | none => simp
  | some lines =>
    simp only [Option.any_some]
    cases (g.listPlan name).servers.isEmpty with
    | true => simp
    | false => simpa using suppressedMap covers (bares inet lines)

theorem suppressedRowsMap :
    suppressedRows inet g = g.keeneticScopedDnsUpstreams.map fun upstream =>
      hasDirectBinding g.directDomains upstream.domain || g.allLists.any (listCovers inet g upstream) := by
  have run (covers : KeeneticDnsScopedUpstreamEntry → Bool) (names : List Text) :
      names.foldl (listSuppressed inet g) (g.keeneticScopedDnsUpstreams.map covers) =
        g.keeneticScopedDnsUpstreams.map fun upstream => covers upstream || names.any (listCovers inet g upstream) := by
    induction names generalizing covers with
    | nil => simp
    | cons name rest ih =>
      rw [List.foldl_cons,listSuppressedMap,ih]
      simp only [List.any_cons,Bool.or_assoc]
  exact run _ _

theorem listCoversIff (serves : RegistryServes g.dnsConfig g.registry) {upstream : KeeneticDnsScopedUpstreamEntry}
    (lowered : upstream.domain.map asciiLower = upstream.domain) :
    g.allLists.any (listCovers inet g upstream) = atManaged inet g upstream.domain := by
  rw [Bool.eq_iff_iff,List.any_eq_true,atManaged,List.any_eq_true]
  constructor
  · rintro ⟨list,_,covers⟩
    rw [listCovers,Option.any_eq_true] at covers
    obtain ⟨lines,configured,both⟩ := covers
    rw [Bool.and_eq_true,Bool.not_eq_true',List.isEmpty_eq_false_iff,List.any_eq_true] at both
    obtain ⟨servers,bare,mem,below⟩ := both
    cases ruled : g.dnsListRule list with
    | none =>
      rw [listPlan,ruled] at servers
      exact absurd rfl servers
    | some rule =>
      rw [listPlan,ruled] at servers
      have names := List.find?_some ruled
      obtain ⟨own,there,same⟩ := List.mem_map.mp (List.contains_iff_mem.mp names)
      refine ⟨rule,List.mem_of_find?_eq_some ruled,?_⟩
      rw [Bool.and_eq_true,Bool.not_eq_true',List.isEmpty_eq_false_iff,List.any_eq_true]
      refine ⟨servers,own,there,?_⟩
      have entry := baresIff.mp mem
      rw [same,configured,Option.any_some,List.any_eq_true]
      refine ⟨_,entry,?_⟩
      rw [canonicalPlain (entryPlain entry)] at below
      rw [under,lowered,below]
      rfl
  · rintro ⟨rule,enabled,both⟩
    rw [Bool.and_eq_true,List.any_eq_true] at both
    obtain ⟨_,list,named,covers⟩ := both
    rw [Option.any_eq_true] at covers
    obtain ⟨lines,configured,covers⟩ := covers
    rw [List.any_eq_true] at covers
    obtain ⟨⟨type,domain⟩,entry,hit⟩ := covers
    rw [Bool.and_eq_true,beq_iff_eq] at hit
    obtain ⟨rfl,below⟩ := hit
    have listed : list.toList ∈ g.allLists := by
      rw [allLists,textSet,List.mem_insertionSort,List.mem_dedup,List.mem_append,dnsLists,List.mem_map]
      exact .inr ⟨list,List.mem_flatMap.mpr ⟨rule,enabled,named⟩,rfl⟩
    refine ⟨list.toList,listed,?_⟩
    rw [listCovers,configured,Option.any_some,Bool.and_eq_true,Bool.not_eq_true',List.isEmpty_eq_false_iff,List.any_eq_true]
    -- the first rule that names the list binds it, and that rule has servers too
    obtain ⟨first,ruled⟩ : ∃ first, g.dnsListRule list.toList = some first := by
      rw [← Option.isSome_iff_exists,dnsListRule,List.find?_isSome]
      exact ⟨rule,enabled,List.contains_iff_mem.mpr (List.mem_map.mpr ⟨list,named,rfl⟩)⟩
    refine ⟨?_,domain,baresIff.mpr entry,?_⟩
    · rw [listPlan,ruled]
      exact serves.ruled first (List.mem_of_find?_eq_some ruled)
    · rw [canonicalPlain (entryPlain entry)]
      rw [under,lowered] at below
      exact below

theorem inheritedKept (marked : KeeneticDnsScopedUpstreamEntry → Bool) (upstreams : List KeeneticDnsScopedUpstreamEntry) (start : Nat)
    {wroteHeader : Bool} {events : List Event}
    (run : inheritedRows inet true wroteHeader ((upstreams.zip (upstreams.map marked)).zipIdx start) = .ok events) :
    List.Forall₂ (fun upstream row => ∃ address, dnsmasqServerAddress inet upstream.address = .ok address ∧
      row = serverRow upstream.domain address)
      (upstreams.filter fun upstream => !marked upstream) (directivesOf events) := by
  induction upstreams generalizing start wroteHeader events with
  | nil =>
    cases run
    split <;> exact .nil
  | cons upstream rest ih =>
    rw [List.map_cons,List.zip_cons_cons,List.zipIdx_cons] at run
    rw [List.filter_cons]
    cases mark : marked upstream with
    | true =>
      rw [mark,inheritedRows] at run
      exact ih _ run
    | false =>
      rw [mark,inheritedRows] at run
      split at run
      · cases run
      · rename_i address read
        obtain ⟨others,later,rfl⟩ := mapOk run
        have header : directivesIn (if wroteHeader then [] else [Line.comment (text "# Keenetic domain-specific DNS policy")]) = [] := by
          split <;> rfl
        rw [List.cons_append,directivesRecord,directivesAppend,directivesWrite,directivesInAppend,header]
        exact .cons ⟨address,read,rfl⟩ (ih _ later)

end Inherited

section Whole
variable {written : Written}

theorem writtenParts (run : g.generateDirectives inet true = .ok written) :
    (∃ probe, g.probe inet true = .ok probe ∧
      directivesOf written.body = directivesIn g.preambleLines ++ (recordsOf probe).flatMap rowsOf ++
      (staticRecords [] g.keeneticStaticEntries).flatMap rowsOf ++ g.fallbackRecords.flatMap rowsOf ++ g.directServerRecords ++
      directivesOf (g.listSections inet true g.directlySuppressed g.allLists).2) ∧
    inheritedRows inet true false (g.keeneticScopedDnsUpstreams.zip (suppressedRows inet g)).zipIdx = .ok written.inherited := by
  rw [generateDirectives] at run
  split at run
  · cases run
  · rename_i probe probed
    obtain ⟨inherited,rows,rfl⟩ := mapOk run
    rw [(sectionsRecords true _ _).2] at rows
    have direct : (g.directServerRecords.map Record.directDomainServer).flatMap rowsOf = g.directServerRecords := by
      rw [List.flatMap_map]
      exact List.flatMap_singleton' _
    refine ⟨⟨probe,probed,?_⟩,rows⟩
    simp only [preamble,directivesAppend,directivesMap,directivesWrite,probeDirectives probed,staticDirectives,upstreamDirectives,
      fallbackDirectives,directDirectives,direct,List.nil_append,List.append_nil]

theorem serverRowsAppend (directives more : List Text) : serverRows (directives ++ more) = serverRows directives ++ serverRows more :=
  List.flatMap_append

variable (serves : RegistryServes g.dnsConfig g.registry)
  (validated : ∀ server ∈ configuredServers g.dnsConfig, ∀ domain ∈ server.domains.getD [], (normalizeDomain domain.toList).isSome = true)

theorem preambleRows : serverRows (directivesIn g.preambleLines) = [] := by
  rw [preambleDirectives]
  refine List.flatMap_eq_nil_iff.mpr fun directive mem => ?_
  rw [List.mem_append,List.mem_append,List.mem_map] at mem
  rcases mem with (⟨interface,_,rfl⟩ | canary) | filter
  · exact rowsHead (by decide) _
  · split at canary
    · cases List.mem_singleton.mp canary
      exact rowsHead (by decide) _
    · cases canary
  · split at filter
    · rcases List.mem_cons.mp filter with rfl | last
      · exact rowsHead (by decide) _
      · cases List.mem_singleton.mp last
        exact rowsHead (by decide) _
    · cases filter

theorem probeRows (spelled : inet.Spelled) {probe : List Event} (probed : g.probe inet true = .ok probe) :
    ∀ row ∈ serverRows ((recordsOf probe).flatMap rowsOf), row.1 = probeZone := by
  rw [Generator.probe] at probed
  split at probed
  · cases probed
    exact List.forall_mem_nil _
  · obtain ⟨parsed,read,rfl⟩ := mapOk probed
    have plain : '/' ∉ parsed.ip ++ '#' :: decimal parsed.port := by
      have chars := parsedChars spelled read
      rw [List.mem_append,List.mem_cons]
      rintro (inside | same | digit)
      · exact absurd (chars '/' inside) (by decide)
      · cases same
      · exact absurd (List.all_eq_true.mp (toStringDigits parsed.port).1 '/' digit) (by decide)
    intro row mem
    change row ∈ rowsIn (text "rebind-domain-ok=keen.pbr") ++
      (rowsIn (serverRow probeZone (parsed.ip ++ '#' :: decimal parsed.port)) ++ []) at mem
    rw [show rowsIn (text "rebind-domain-ok=keen.pbr") = [] from rowsHead (by decide) _,rowsServer (by decide) plain] at mem
    cases List.mem_singleton.mp mem
    rfl

theorem staticRows (emitted : List Text) (entries : List KeeneticStaticDnsEntry) :
    serverRows ((staticRecords emitted entries).flatMap rowsOf) = [] := by
  refine List.flatMap_eq_nil_iff.mpr fun directive mem => ?_
  obtain ⟨record,listed,inside⟩ := List.mem_flatMap.mp mem
  have own := staticPart emitted entries record listed
  cases record with
  | keeneticStatic pattern address =>
    cases List.mem_singleton.mp inside
    exact rowsHead (by decide) _
  | _ => cases own

include serves in
theorem fallbackRows : serverRows (g.fallbackRecords.flatMap rowsOf) = [] := by
  refine List.flatMap_eq_nil_iff.mpr fun directive mem => ?_
  obtain ⟨record,listed,inside⟩ := List.mem_flatMap.mp mem
  obtain ⟨⟨server,index⟩,indexed,two⟩ := List.mem_flatMap.mp listed
  simp only [List.mem_cons,List.not_mem_nil,or_false] at two
  rcases two with rfl | rfl
  · cases List.mem_singleton.mp inside
    have there : server ∈ g.registry.fallbackServers := (List.mem_zipIdx' indexed).2 ▸ List.getElem_mem _
    obtain ⟨tag,_,served⟩ := List.mem_flatMap.mp there
    exact rowsBare (serverAddressPlain (serves.spelled tag server served) server.port)
  · cases inside

include serves validated in
theorem directRows {row : Text × Text} : row ∈ serverRows g.directServerRecords ↔ row ∈ g.pinRows := by
  have each {pin : Text × List DnsServerConfig} (listed : pin ∈ g.pins) {server : DnsServerConfig} (served : server ∈ pin.2) :
      rowsIn (serverRow pin.1 (serverAddress server.resolvedIp server.port)) = [(pin.1,serverAddress server.resolvedIp server.port)] := by
    obtain ⟨config,_,inside⟩ := List.mem_flatMap.mp listed
    obtain ⟨domain,_,rfl⟩ := List.mem_map.mp inside
    exact rowsServer ((pinPlain validated listed).1.without (by decide))
      (serverAddressPlain (serves.spelled config.tag server served) server.port)
  rw [serverRows,List.mem_flatMap,pinRows,List.mem_flatMap]
  constructor
  · rintro ⟨directive,mem,inside⟩
    rw [directServerRecords,textSet,List.mem_insertionSort,List.mem_dedup,List.mem_flatMap] at mem
    obtain ⟨pin,listed,there⟩ := mem
    obtain ⟨server,served,rfl⟩ := List.mem_map.mp there
    rw [each listed served] at inside
    exact ⟨pin,listed,List.mem_map.mpr ⟨server,served,(List.mem_singleton.mp inside).symm⟩⟩
  · rintro ⟨pin,listed,there⟩
    obtain ⟨server,served,rfl⟩ := List.mem_map.mp there
    refine ⟨serverRow pin.1 (serverAddress server.resolvedIp server.port),?_,?_⟩
    · rw [directServerRecords,textSet,List.mem_insertionSort,List.mem_dedup,List.mem_flatMap]
      exact ⟨pin,listed,List.mem_map.mpr ⟨server,served,rfl⟩⟩
    · rw [each listed served]
      exact List.mem_singleton_self _

variable (scopes : ∀ upstream ∈ g.keeneticScopedDnsUpstreams, ∃ raw, scopedDomain raw = some upstream.domain)

theorem scopedPlain {upstream : KeeneticDnsScopedUpstreamEntry} {raw : Text} (read : scopedDomain raw = some upstream.domain) :
    PlainDomain upstream.domain ∧ upstream.domain.map asciiLower = upstream.domain := by
  obtain ⟨name,normal,same⟩ := Option.map_eq_some_iff.mp read
  rw [← same]
  exact ⟨lowerPlain (normalizedPlain normal),lowerAgain name⟩

include serves validated scopes in
theorem inheritedIff (run : g.generateDirectives inet true = .ok written) :
    List.Forall₂ (fun upstream row => ∃ address, dnsmasqServerAddress inet upstream.address = .ok address ∧
      row = serverRow upstream.domain address)
      (g.keeneticScopedDnsUpstreams.filter fun upstream =>
        !atPin g.dnsConfig g.registry upstream.domain && !atManaged inet g upstream.domain) (directivesOf written.inherited) := by
  have rows := (writtenParts run).2
  rw [suppressedRowsMap] at rows
  have kept := inheritedKept _ _ _ rows
  have same : (g.keeneticScopedDnsUpstreams.filter fun upstream =>
    !(hasDirectBinding g.directDomains upstream.domain || g.allLists.any (listCovers inet g upstream))) =
    g.keeneticScopedDnsUpstreams.filter fun upstream =>
      !atPin g.dnsConfig g.registry upstream.domain && !atManaged inet g upstream.domain := by
    refine List.filter_congr fun upstream mem => ?_
    obtain ⟨raw,read⟩ := scopes upstream mem
    obtain ⟨plain,lowered⟩ := scopedPlain read
    rw [boundIff validated serves plain,listCoversIff serves lowered,Bool.not_or]
  rw [same] at kept
  exact kept

theorem pairedMem {α β : Type} {R : α → β → Prop} {left : List α} {right : List β} (paired : List.Forall₂ R left right) {b : β}
    (mem : b ∈ right) : ∃ a ∈ left, R a b := by
  induction paired with
  | nil => cases mem
  | cons related _ ih =>
    rcases List.mem_cons.mp mem with rfl | inside
    · exact ⟨_,List.mem_cons_self,related⟩
    · obtain ⟨a,there,own⟩ := ih inside
      exact ⟨a,List.mem_cons_of_mem _ there,own⟩

include serves validated scopes in
theorem fileRows (spelled : inet.Spelled) (run : g.generateDirectives inet true = .ok written) :
    (∀ row ∈ serverRows (directivesOf written.events), row.1 = probeZone ∨ row ∈ g.pinRows ∨ g.Unpinned row.1) ∧
      ∀ row ∈ g.pinRows, row ∈ serverRows (directivesOf written.events) := by
  obtain ⟨probe,probed,body⟩ := (writtenParts run).1
  have whole : serverRows (directivesOf written.events) = serverRows ((recordsOf probe).flatMap rowsOf) ++
    serverRows g.directServerRecords ++
      serverRows (directivesOf (g.listSections inet true g.directlySuppressed g.allLists).2) ++
        serverRows (directivesOf written.inherited) := by
    simp only [Written.events,directivesAppend,body,serverRowsAppend,preambleRows,staticRows,fallbackRows serves,
      List.nil_append,List.append_nil]
  rw [whole]
  constructor
  · intro row mem
    rw [List.mem_append,List.mem_append,List.mem_append] at mem
    rcases mem with ((first | direct) | listed) | inherited
    · exact .inl (probeRows spelled probed row first)
    · exact .inr (.inl ((directRows serves validated).mp direct))
    · obtain ⟨directive,there,inside⟩ := List.mem_flatMap.mp listed
      exact .inr (.inr (sectionsRows serves.spelled _ _ directive there row inside))
    · obtain ⟨directive,there,inside⟩ := List.mem_flatMap.mp inherited
      obtain ⟨upstream,kept,address,read,rfl⟩ := pairedMem (inheritedIff serves validated scopes run) there
      obtain ⟨mem,uncovered⟩ := List.mem_filter.mp kept
      obtain ⟨raw,named⟩ := scopes upstream mem
      have plain := (scopedPlain named).1
      rw [dnsmasqServerAddress] at read
      obtain ⟨parsed,parsing,rfl⟩ := mapOk read
      rw [rowsServer (plain.without (by decide)) (serverAddressPlain (parsedChars spelled parsing) parsed.port)] at inside
      cases List.mem_singleton.mp inside
      refine .inr (.inr ⟨plain,?_⟩)
      rw [boundIff validated serves plain]
      rw [Bool.and_eq_true,Bool.not_eq_true'] at uncovered
      exact uncovered.1
  · intro row mem
    exact List.mem_append_left _ (List.mem_append_left _ (List.mem_append_right _ ((directRows serves validated).mpr mem)))

/- For a name at or below a pin, outside the probe zone, the pins decide; and an inherited row is written iff
neither a pin nor a list with servers covers its domain. -/
theorem pinsPrecede (spelled : inet.Spelled) {snapshot : Option KeeneticDnsSnapshot}
    (made : dnsServerRegistry inet g.dnsConfig snapshot = .ok g.registry)
    (validated : ∀ server ∈ configuredServers g.dnsConfig, ∀ domain ∈ server.domains.getD [], (normalizeDomain domain.toList).isSome = true)
    (scopes : ∀ upstream ∈ g.keeneticScopedDnsUpstreams, ∃ raw, scopedDomain raw = some upstream.domain)
    (run : g.generateDirectives inet true = .ok written) :
    (∀ name, under name probeZone = false → atPin g.dnsConfig g.registry name = true →
      mostSpecific (pinnedRows g.dnsConfig g.registry) name ≠ [] ∧
        ∀ row, row ∈ mostSpecific (serverRows (directivesOf written.events)) name ↔
          row ∈ mostSpecific (pinnedRows g.dnsConfig g.registry) name) ∧
    List.Forall₂ (fun upstream row => ∃ address, dnsmasqServerAddress inet upstream.address = .ok address ∧
      row = serverRow upstream.domain address)
      (g.keeneticScopedDnsUpstreams.filter fun upstream =>
        !atPin g.dnsConfig g.registry upstream.domain && !atManaged inet g upstream.domain) (directivesOf written.inherited) := by
  have serves := registryServes spelled made
  obtain ⟨rows,present⟩ := fileRows serves validated scopes spelled run
  refine ⟨fun name outside pinned => ?_,inheritedIff serves validated scopes run⟩
  obtain ⟨server,configured,both⟩ := List.any_eq_true.mp pinned
  rw [Bool.and_eq_true,Bool.not_eq_true',List.isEmpty_eq_false_iff,List.any_eq_true] at both
  obtain ⟨servers,pin,named,below⟩ := both
  obtain ⟨resolved,served⟩ := List.exists_mem_of_ne_nil _ servers
  have listed : (pin.map asciiLower,serverAddress resolved.resolvedIp resolved.port) ∈ pinnedRows g.dnsConfig g.registry :=
    List.mem_flatMap.mpr ⟨server,configured,List.mem_flatMap.mpr ⟨pin,named,List.mem_map.mpr ⟨resolved,served,rfl⟩⟩⟩
  have reached : under name (pin.map asciiLower) = true := by
    rw [under,lowerAgain]
    exact below
  have apart : ∀ row ∈ serverRows (directivesOf written.events), under name row.1 = true → row ∈ pinnedRows g.dnsConfig g.registry ∨
      ∀ pin ∈ pinnedRows g.dnsConfig g.registry, under row.1 pin.1 = false := by
    intro row mem hit
    rcases rows row mem with probe | isPin | ⟨plain,unbound⟩
    · rw [probe,outside] at hit
      cases hit
    · rw [pinRowsRead validated] at isPin
      exact .inl isPin
    · refine .inr fun pin inPins => ?_
      rw [← pinRowsRead validated] at inPins
      obtain ⟨entry,listed,there⟩ := List.mem_flatMap.mp inPins
      obtain ⟨_,_,rfl⟩ := List.mem_map.mp there
      by_contra below
      rw [Bool.not_eq_false,under,(pinPlain validated listed).2,← canonicalPlain plain] at below
      have bound := (bindingIff g.directDomains row.1).mpr ⟨entry.1,List.mem_map.mpr ⟨entry,listed,rfl⟩,below⟩
      rw [unbound] at bound
      cases bound
  rw [pinRowsRead validated] at present
  exact ⟨mostSpecificExists listed reached,fun row => pinsDecide present apart listed reached⟩

theorem officeSpelled : officeInet.Spelled where
  v4 _ _ read := by cases read
  v6 _ _ read := by cases read
  back _ _ _ _ shown := by cases shown

/- The office with a Keenetic fallback that knows resolvers for three domains: one below the pin, one below the
list and one of its own. -/
def scopedConfig : DnsConfig :=
  { officeConfig with servers := some (officeConfig.servers.getD [] ++
    [{ tag := "keenetic", type := some .keenetic }]), fallback := some ["keenetic"] }

def scopedSnapshot : KeeneticDnsSnapshot where
  addresses := [text "192.168.1.1"]
  scopedUpstreams := [⟨text "wiki.intranet.example",text "10.0.0.53",text "Plain",[]⟩,
    ⟨text "mail.work.example",text "10.0.0.53",text "Plain",[]⟩,
    ⟨text "corp.example",text "10.0.0.53",text "Plain",[]⟩]

def scopedGenerator : Generator :=
  { officeGenerator [] with
    registry := (dnsServerRegistry officeInet scopedConfig (some scopedSnapshot)).toOption.getD {}
    dnsConfig := scopedConfig }

theorem wikiPinned : ∃ written, scopedGenerator.generateDirectives officeInet true = .ok written ∧
    text "server=/corp.example/10.0.0.53" ∈ directivesOf written.inherited ∧
    ∀ row, row ∈ mostSpecific (serverRows (directivesOf written.events)) (text "Wiki.Intranet.example") ↔
      row = (text "intranet.example",text "10.8.0.1#5353") := by
  have made : dnsServerRegistry officeInet scopedGenerator.dnsConfig (some scopedSnapshot) = .ok scopedGenerator.registry := by
    decide
  have validated : ∀ server ∈ configuredServers scopedGenerator.dnsConfig, ∀ domain ∈ server.domains.getD [],
      (normalizeDomain domain.toList).isSome = true := by
    decide
  have scopes : ∀ upstream ∈ scopedGenerator.keeneticScopedDnsUpstreams, ∃ raw, scopedDomain raw = some upstream.domain := by
    have same : ∀ upstream ∈ scopedGenerator.keeneticScopedDnsUpstreams, scopedDomain upstream.domain = some upstream.domain := by
      decide
    exact fun upstream mem => ⟨_,same upstream mem⟩
  have runs : (scopedGenerator.generateDirectives officeInet true).map (fun written =>
    decide (text "server=/corp.example/10.0.0.53" ∈ directivesOf written.inherited)) = .ok true := by
    decide
  obtain ⟨written,run,kept⟩ := mapOk runs
  refine ⟨written,run,of_decide_eq_true kept,fun row => ?_⟩
  have decided := ((pinsPrecede officeSpelled made validated scopes run).1 (text "Wiki.Intranet.example") (by decide) (by decide)).2 row
  have pins : mostSpecific (pinnedRows scopedGenerator.dnsConfig scopedGenerator.registry) (text "Wiki.Intranet.example") =
      [(text "intranet.example",text "10.8.0.1#5353")] := by
    decide
  rw [decided,pins]
  exact List.mem_singleton

end Whole

end Generator

end KeenPbr.Dnsmasq
