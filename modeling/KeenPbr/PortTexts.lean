import KeenPbr.IptablesChain

/-! firewall/port_spec_util.cpp: a port specification is written in two ways, for the configuration and for iptables,
and either text is read as the specification again. The fragments that iptables gets for a pair of specifications stay
within xt_multiport's slots and select the pairs of ports that the two of them stand for. -/
namespace KeenPbr
open Fields Iptables

section Texts

/- std::to_string of a port. -/
def portText (port : UInt16) : Text := Nat.toDigits 10 port.toNat

def rangeText (rangeSep : Char) (range : PortRange) : Text :=
  if range.fromPort = range.toPort then portText range.fromPort else portText range.fromPort ++ rangeSep :: portText range.toPort

def rangesToString (ranges : List PortRange) (rangeSep : Char) : Text := [','].intercalate (ranges.map (rangeText rangeSep))

def PortSpec.toConfigString (spec : PortSpec) : Text := rangesToString spec.ranges '-'

def PortSpec.toIptablesString (spec : PortSpec) : Text := rangesToString spec.ranges ':'

def normalizePortSpecForIptables (spec : Text) : Except String Text := (parsePortSpec spec).map PortSpec.toIptablesString

end Texts

section Numbers

theorem digitsGrow (digits : Text) (value : Nat) : value ≤ Nat.ofDigitChars 10 digits value := by
  induction digits generalizing value with
  | nil => exact Nat.le_of_eq Nat.ofDigitChars_nil.symm
  | cons c rest ih =>
    rw [Nat.ofDigitChars_cons]
    refine Nat.le_trans ?_ (ih _)
    omega

theorem runningDigitsValue {digits : Text} {value : Nat} (all : ∀ c ∈ digits, c.isDigit = true)
    (small : Nat.ofDigitChars 10 digits value ≤ 2147483647) :
    runningValue value digits = some (Nat.ofDigitChars 10 digits value) := by
  induction digits generalizing value with
  | nil => rw [runningValue,Nat.ofDigitChars_nil]
  | cons c rest ih =>
    have grown := digitsGrow rest (10 * value + (c.toNat - '0'.toNat))
    rw [Nat.ofDigitChars_cons] at small
    have next : value * 10 + (c.toNat - '0'.toNat) = 10 * value + (c.toNat - '0'.toNat) := by omega
    have fits : ¬value * 10 + (c.toNat - '0'.toNat) > 2147483647 := by omega
    rw [runningValue,all c List.mem_cons_self,Nat.ofDigitChars_cons]
    simp only [Bool.not_true,Bool.false_eq_true,if_false]
    rw [if_neg fits,next]
    exact ih (fun d mem => all d (List.mem_cons_of_mem _ mem)) small

theorem portDigits (port : UInt16) :
    ∀ c ∈ portText port, c.isDigit = true := fun _ mem => Nat.isDigit_of_mem_toDigits (by decide) (by decide) mem

theorem portRead {port : UInt16} (positive : 1 ≤ port.toNat) : parsePortValue (portText port) = some port.toNat := by
  have number : Nat.ofDigitChars 10 (portText port) 0 = port.toNat := Nat.ofDigitChars_ten_toDigits
  have bound := port.toNat_lt
  have nonempty : (portText port).isEmpty = false := List.isEmpty_eq_false_iff.mpr Nat.toDigits_ne_nil
  have running : runningValue 0 (portText port) = some port.toNat := by
    rw [runningDigitsValue (portDigits port) (by rw [number]; omega),number]
  have inRange : ¬(decide (port.toNat < 1) || decide (port.toNat > 65535)) = true := by
    rw [Bool.or_eq_true,decide_eq_true_eq,decide_eq_true_eq]
    omega
  rw [parsePortValue,parseUintInRange,nonempty,running]
  exact if_neg inRange

end Numbers

section Reading
variable {range : PortRange}

structure PortRange.Valid (range : PortRange) : Prop where
  positive : 1 ≤ range.fromPort.toNat
  ordered : range.fromPort.toNat ≤ range.toPort.toNat

theorem rangeBack (range : PortRange) : portRange (range.fromPort.toNat,range.toPort.toNat) = range := by
  rw [portRange,UInt16.ofNat_toNat,UInt16.ofNat_toNat]

theorem sepDigits {rangeSep : Char} (sep : rangeSep.isDigit = false) (port : UInt16) : ∀ c ∈ portText port, (c != rangeSep) = true := by
  intro c mem
  rw [bne_iff_ne]
  rintro rfl
  rw [portDigits port c mem] at sep
  cases sep

theorem rangeRead {rangeSep : Char} (sep : rangeSep.isDigit = false) (valid : range.Valid) :
    parsePortRangeToken (rangeText rangeSep range) rangeSep = some (range.fromPort.toNat,range.toPort.toNat) := by
  have low := valid.positive
  have order := valid.ordered
  by_cases single : range.fromPort = range.toPort
  · have whole : (portText range.fromPort).dropWhile (· != rangeSep) = [] := List.dropWhile_eq_nil_iff.mpr (sepDigits sep range.fromPort)
    rw [rangeText,if_pos single,parsePortRangeToken,whole,← single]
    simp only [portRead low,Option.map_some]
  · have front : (portText range.fromPort ++ rangeSep :: portText range.toPort).takeWhile (· != rangeSep) = portText range.fromPort := by
      rw [List.takeWhile_append_of_pos (sepDigits sep range.fromPort)]
      simp
    have back : (portText range.fromPort ++ rangeSep :: portText range.toPort).dropWhile
      (· != rangeSep) = rangeSep :: portText range.toPort := by
      rw [List.dropWhile_append_of_pos (sepDigits sep range.fromPort)]
      simp
    have once_ : (portText range.toPort).contains rangeSep = false := by
      rw [Bool.eq_false_iff,ne_eq,List.contains_iff_mem]
      exact fun mem => absurd rfl (bne_iff_ne.mp (sepDigits sep range.toPort rangeSep mem))
    rw [rangeText,if_neg single,parsePortRangeToken,back]
    simp only [once_,front,portRead low,portRead (Nat.le_trans low order)]
    exact if_pos order

/- A token is read as a range with a dash first. At a colon that attempt fails, and a single port is read alike with either. -/
theorem tokenRead {rangeSep : Char} (sep : rangeSep = '-' ∨ rangeSep = ':') (valid : range.Valid) :
    (parsePortRangeToken (rangeText rangeSep range) '-').or (parsePortRangeToken (rangeText rangeSep range) ':') =
      some (range.fromPort.toNat,range.toPort.toNat) := by
  have dashed := rangeRead (by decide : '-'.isDigit = false) valid
  cases sep with
  | inl dash => rw [dash,dashed,Option.some_or]
  | inr colon =>
    have own := rangeRead (by decide : ':'.isDigit = false) valid
    rw [colon,own]
    by_cases single : range.fromPort = range.toPort
    · have alike : rangeText ':' range = rangeText '-' range := by
        rw [rangeText,rangeText,if_pos single,if_pos single]
      rw [alike,dashed,Option.some_or]
    · cases read : parsePortRangeToken (rangeText ':' range) '-' with
      | none => rfl
      | some bounds =>
        have mem : ':' ∈ rangeText ':' range := by
          rw [rangeText,if_neg single]
          exact List.mem_append_right _ List.mem_cons_self
        have shape := (parsedRange read).1 ':' mem
        exact absurd shape (by decide)

end Reading

section Lists
variable {ranges : List PortRange}

theorem portFree (port : UInt16) : ∀ c ∈ portText port, comma c = false := by
  intro c mem
  have digit := portDigits port c mem
  rw [comma,beq_eq_false_iff_ne]
  rintro rfl
  cases digit

theorem rangeFree {rangeSep : Char} (sep : comma rangeSep = false) (range : PortRange) :
    ∀ c ∈ rangeText rangeSep range, comma c = false := by
  intro c mem
  rw [rangeText] at mem
  split at mem
  · exact portFree _ c mem
  · cases List.mem_append.mp mem with
    | inl first => exact portFree _ c first
    | inr later =>
      cases List.mem_cons.mp later with
      | inl same => rw [same,sep]
      | inr last => exact portFree _ c last

theorem rangeFilled (rangeSep : Char) (range : PortRange) : (rangeText rangeSep range).isEmpty = false := by
  rw [List.isEmpty_eq_false_iff,rangeText]
  split
  · exact Nat.toDigits_ne_nil
  · exact List.append_ne_nil_of_left_ne_nil Nat.toDigits_ne_nil _

theorem tokensRead {rangeSep : Char} (sep : rangeSep = '-' ∨ rangeSep = ':') (input : Text) (valid : ∀ range ∈ ranges, range.Valid) :
    parsePortTokens input (ranges.map (rangeText rangeSep)) = .ok ranges := by
  induction ranges with
  | nil => rfl
  | cons range rest ih =>
    have later := ih fun other mem => valid other (List.mem_cons_of_mem range mem)
    rw [List.map_cons,parsePortTokens,tokenRead sep (valid range List.mem_cons_self),later]
    dsimp only
    rw [rangeBack]

theorem renderedRead {rangeSep : Char} (sep : rangeSep = '-' ∨ rangeSep = ':') (valid : ∀ range ∈ ranges, range.Valid) :
    parsePortSpec (rangesToString ranges rangeSep) = .ok { ranges := normalizeRanges ranges } := by
  cases ranges with
  | nil => rfl
  | cons range rest =>
    have plain : comma rangeSep = false := by
      cases sep with
      | inl dash => rw [dash]; rfl
      | inr colon => rw [colon]; rfl
    have cut : fields comma (rangesToString (range :: rest) rangeSep) = (range :: rest).map (rangeText rangeSep) := by
      refine fieldsJoined comma rfl (List.cons_ne_nil _ _) fun part mem => ?_
      obtain ⟨other,_,rfl⟩ := List.mem_map.mp mem
      exact rangeFree plain other
    have filled : (rangesToString (range :: rest) rangeSep).isEmpty = false := by
      rw [List.isEmpty_eq_false_iff]
      intro empty
      rw [empty] at cut
      have first := congrArg List.head? cut
      rw [List.map_cons,List.head?_cons] at first
      have blank := rangeFilled rangeSep range
      rw [← Option.some.inj first] at blank
      cases blank
    have kept : ((range :: rest).map (rangeText rangeSep)).any (·.isEmpty) = false := by
      rw [List.any_eq_false]
      intro part mem
      obtain ⟨other,_,rfl⟩ := List.mem_map.mp mem
      rw [rangeFilled]
      exact Bool.false_ne_true
    have split : splitPortSpecTokens (rangesToString (range :: rest) rangeSep) = .ok ((range :: rest).map (rangeText rangeSep)) := by
      rw [splitPortSpecTokens,filled,cut,kept]
      rfl
    rw [parsePortSpec,filled,split]
    simp only [tokensRead sep _ valid]
    rfl

end Lists

section Order
variable {ranges : List PortRange}

instance : Std.Total rangeBefore where
  total lhs rhs := by
    unfold rangeBefore
    by_cases same : lhs.fromPort = rhs.fromPort
    · exact (UInt16.le_total lhs.toPort rhs.toPort).imp (fun le => .inr ⟨same,le⟩) (fun le => .inr ⟨same.symm,le⟩)
    · exact (UInt16.lt_or_lt_of_ne same).imp .inl .inl

instance : IsTrans PortRange rangeBefore where
  trans := by
    rintro first second third (less | ⟨same,le⟩) (less' | ⟨same',le'⟩)
    · exact .inl (UInt16.lt_trans less less')
    · exact .inl (same' ▸ less)
    · exact .inl (same ▸ less')
    · exact .inr ⟨same.trans same',UInt16.le_trans le le'⟩

theorem normalizedOrdered (ranges : List PortRange) :
    (normalizeRanges ranges).Pairwise rangeBefore := List.pairwise_insertionSort rangeBefore ranges

theorem orderedNormal (ordered : ranges.Pairwise rangeBefore) : normalizeRanges ranges = ranges := ordered.insertionSort_eq

theorem normalizeTwice (ranges : List PortRange) : normalizeRanges (normalizeRanges ranges) = normalizeRanges ranges :=
  orderedNormal (normalizedOrdered ranges)

theorem normalizedSame (ranges : List PortRange) :
    ({ ranges := normalizeRanges ranges } : PortSpec).ports = ({ ranges } : PortSpec).ports := by
  ext port
  simp only [PortSpec.ports,Set.mem_ofPred_eq,normalizeRanges,List.mem_insertionSort]

end Order

section Parsed
variable {text input : Text} {spec : PortSpec} {ranges : List PortRange}

theorem boundsValid {token : Text} {rangeSep : Char} {bounds : Nat × Nat} (parsed : parsePortRangeToken token rangeSep = some bounds) :
    1 ≤ bounds.1 ∧ bounds.1 ≤ bounds.2 ∧ bounds.2 ≤ 65535 := by
  unfold parsePortRangeToken at parsed
  split at parsed
  · obtain ⟨port,single,rfl⟩ := Option.map_eq_some_iff.mp parsed
    obtain ⟨_,low,high⟩ := parsedPort single
    exact ⟨low,Nat.le_refl _,high⟩
  · split at parsed
    · cases parsed
    · split at parsed
      · rename_i lo hi first second
        split at parsed
        · rename_i ordered
          cases parsed
          exact ⟨(parsedPort first).2.1,ordered,(parsedPort second).2.2⟩
        · cases parsed
      · cases parsed

theorem tokensValid {tokens : List Text} (parsed : parsePortTokens input tokens = .ok ranges) : ∀ range ∈ ranges, range.Valid := by
  induction tokens generalizing ranges with
  | nil =>
    cases parsed
    nofun
  | cons first rest ih =>
    rw [parsePortTokens] at parsed
    split at parsed
    · cases parsed
    · rename_i bounds found
      split at parsed
      · cases parsed
      · rename_i later restParsed
        cases parsed
        obtain ⟨low,ordered,high⟩ : 1 ≤ bounds.1 ∧ bounds.1 ≤ bounds.2 ∧ bounds.2 ≤ 65535 := by
          cases Option.or_eq_some_iff.mp found with
          | inl dash => exact boundsValid dash
          | inr colon => exact boundsValid colon.2
        intro range mem
        cases List.mem_cons.mp mem with
        | inr more => exact ih restParsed range more
        | inl same =>
          have start : (portRange bounds).fromPort.toNat = bounds.1 := by
            rw [portRange,UInt16.toNat_ofNat']
            omega
          have stop : (portRange bounds).toPort.toNat = bounds.2 := by
            rw [portRange,UInt16.toNat_ofNat']
            omega
          rw [same]
          exact ⟨start ▸ low,by rw [start,stop]; exact ordered⟩

structure PortSpec.Parsed (spec : PortSpec) : Prop where
  valid : ∀ range ∈ spec.ranges, range.Valid
  sorted : normalizeRanges spec.ranges = spec.ranges

theorem specParsed (parsed : parsePortSpec text = .ok spec) : spec.Parsed := by
  unfold parsePortSpec at parsed
  split at parsed
  · cases parsed
    exact ⟨nofun,rfl⟩
  · split at parsed
    · cases parsed
    · split at parsed
      · cases parsed
      · rename_i ranges read
        cases parsed
        exact ⟨fun range mem => tokensValid read range ((List.mem_insertionSort rangeBefore).mp mem),normalizeTwice ranges⟩

theorem parsedRendered (parsed : spec.Parsed) {rangeSep : Char} (sep : rangeSep = '-' ∨ rangeSep = ':') :
    parsePortSpec (rangesToString spec.ranges rangeSep) = .ok spec := by
  rw [renderedRead sep parsed.valid,parsed.sorted]

/- A port specification that was parsed is read again from either of its texts. Normalising a second time changes neither
the ranges nor the text for iptables, and normalising any ranges keeps their ports. -/
theorem portSpecReadBack {text : Text} {spec : PortSpec} (parsed : parsePortSpec text = .ok spec) :
    parsePortSpec spec.toConfigString = .ok spec ∧ parsePortSpec spec.toIptablesString = .ok spec ∧
    normalizePortSpecForIptables text = .ok spec.toIptablesString ∧
    normalizePortSpecForIptables spec.toIptablesString = .ok spec.toIptablesString ∧
    ∀ ranges, normalizeRanges (normalizeRanges ranges) = normalizeRanges ranges ∧
      ({ ranges := normalizeRanges ranges } : PortSpec).ports = ({ ranges } : PortSpec).ports := by
  have own := specParsed parsed
  have config : parsePortSpec spec.toConfigString = .ok spec := parsedRendered own (.inl rfl)
  have iptables : parsePortSpec spec.toIptablesString = .ok spec := parsedRendered own (.inr rfl)
  refine ⟨config,iptables,?_,?_,fun ranges => ⟨normalizeTwice ranges,normalizedSame ranges⟩⟩
  · rw [normalizePortSpecForIptables,parsed]
    rfl
  · rw [normalizePortSpecForIptables,iptables]
    rfl

/- Listed out of order, with both separators. -/
theorem portListReadBack :
    parsePortSpec "8000:9000,443,80-90".toList = .ok
      { ranges := [{ fromPort := 80, toPort := 90 },{ fromPort := 443, toPort := 443 },{ fromPort := 8000, toPort := 9000 }] } ∧
    parsePortSpec "80-90,443,8000-9000".toList = .ok
      { ranges := [{ fromPort := 80, toPort := 90 },{ fromPort := 443, toPort := 443 },{ fromPort := 8000, toPort := 9000 }] } := by
  have parsed : parsePortSpec "8000:9000,443,80-90".toList =
      .ok { ranges := [{ fromPort := 80, toPort := 90 },{ fromPort := 443, toPort := 443 },
        { fromPort := 8000, toPort := 9000 }] } := by decide
  exact ⟨parsed,(portSpecReadBack parsed).1⟩

end Parsed

namespace Iptables

section Slots
variable {ranges chunk : List PortRange} {slots : Nat}

def multiportSlots (spec : PortSpec) : Nat := (spec.ranges.map rangeSlots).sum

theorem slotsFew (range : PortRange) : rangeSlots range ≤ 2 := by
  unfold rangeSlots
  split <;> omega

theorem chunkLoopSlots (counted : (chunk.map rangeSlots).sum = slots) (few : slots ≤ 15) :
    ∀ part ∈ chunkLoop chunk slots ranges, multiportSlots part ≤ 15 := by
  induction ranges generalizing chunk slots with
  | nil =>
    rw [chunkLoop]
    split
    · exact List.forall_mem_nil _
    · intro part mem
      rw [List.mem_singleton.mp mem]
      exact Nat.le_trans (Nat.le_of_eq counted) few
  | cons range rest ih =>
    have own := slotsFew range
    rw [chunkLoop]
    split
    · intro part mem
      cases List.mem_cons.mp mem with
      | inl closed =>
        rw [closed]
        exact Nat.le_trans (Nat.le_of_eq counted) few
      | inr later => exact ih (by rw [List.map_singleton,List.sum_singleton]) (by omega) part later
    · rename_i open_
      have sum : ((chunk ++ [range]).map rangeSlots).sum = slots + rangeSlots range := by
        rw [List.map_append,List.sum_append,counted]
        rfl
      refine ih sum ?_
      cases chunk with
      | nil =>
        -- the first range of a chunk is taken whatever it needs
        have zero : slots = 0 := counted.symm
        omega
      | cons first others =>
        simp only [List.isEmpty_cons,Bool.not_false,Bool.true_and,decide_eq_true_eq] at open_
        omega

theorem chunksSlots (spec : PortSpec) : ∀ part ∈ chunkMultiportSpec spec, multiportSlots part ≤ 15 := chunkLoopSlots rfl (Nat.zero_le _)

theorem sideSlots {spec part : PortSpec} {source negated ofSource inverted : Bool} {fragment : List Match}
    (built : fragment ∈ buildSideFragments spec source negated) (mem : .multiport ofSource inverted part ∈ fragment) :
    multiportSlots part ≤ 15 := by
  unfold buildSideFragments at built
  split at built
  · rw [List.mem_singleton.mp built] at mem
    cases mem
  · rw [List.mem_singleton.mp built] at mem
    cases List.mem_singleton.mp mem
  · split at built
    · rw [List.mem_singleton.mp built] at mem
      obtain ⟨taken,listed,same⟩ := List.mem_map.mp mem
      cases same
      exact chunksSlots spec part listed
    · obtain ⟨taken,listed,rfl⟩ := List.mem_map.mp built
      cases List.mem_singleton.mp mem
      exact chunksSlots spec part listed

theorem protoPlain {proto : L4Proto} {ofSource inverted : Bool} {part : PortSpec} :
    .multiport ofSource inverted part ∉ protoFragment proto := by
  unfold protoFragment
  split
  · nofun
  · intro mem
    cases List.mem_singleton.mp mem

theorem fragmentSlots {proto : L4Proto} {srcPort dstPort part : PortSpec} {negateSrcPort negateDstPort ofSource inverted : Bool}
    {fragment : List Match}
    (built : fragment ∈ buildProtoPortFragments proto srcPort dstPort negateSrcPort negateDstPort)
    (mem : .multiport ofSource inverted part ∈ fragment) : multiportSlots part ≤ 15 := by
  unfold buildProtoPortFragments at built
  split at built
  · rw [List.mem_singleton.mp built] at mem
    cases mem
  · obtain ⟨src,srcBuilt,inner⟩ := List.mem_flatMap.mp built
    obtain ⟨dst,dstBuilt,rfl⟩ := List.mem_map.mp inner
    cases List.mem_append.mp mem with
    | inr right => exact sideSlots dstBuilt right
    | inl left =>
      cases List.mem_append.mp left with
      | inl front => exact absurd front protoPlain
      | inr middle => exact sideSlots srcBuilt middle

end Slots

section Pairs

def sidePorts (spec : PortSpec) (negated : Bool) : Set UInt16 :=
  if spec.empty then Set.univ else if negated then {port | port.toNat ∈ spec.ports}ᶜ else {port | port.toNat ∈ spec.ports}

theorem coversPorts (spec : PortSpec) (port : UInt16) : spec.covers port = true ↔ port.toNat ∈ spec.ports := by
  rw [PortSpec.covers,List.any_eq_true]
  simp only [PortRange.holds,decide_eq_true_eq,PortSpec.ports,Set.mem_ofPred_eq,UInt16.le_iff_toNat_le]

theorem sideSelected {header : Header} {ofSource negated : Bool} {spec : PortSpec} {port : UInt16}
    (read : header.port ofSource = some port) :
    header.portSelected ofSource negated spec = true ↔ port ∈ sidePorts spec negated := by
  have covered := coversPorts spec port
  rw [Header.portSelected,Header.portMatches,read,Option.any_some,sidePorts]
  cases spec.empty with
  | true => simp
  | false =>
    cases negated with
    | true => simp [← covered]
    | false => simp [← covered]

/- For any two specifications, negated or not: every multiport match stays within the fifteen slots, and a packet of the
protocol passes one of the fragments exactly when its ports are in the product of the two sides. -/
theorem fragmentsSelectPairs (proto : L4Proto) (srcPort dstPort : PortSpec) (negateSrcPort negateDstPort : Bool) :
    (∀ fragment ∈ buildProtoPortFragments proto srcPort dstPort negateSrcPort negateDstPort,
      ∀ ofSource negated spec, .multiport ofSource negated spec ∈ fragment → multiportSlots spec ≤ 15) ∧
    ∀ (inet : Inet) (sets : KernelSets) (s : Skb) (sport dport : UInt16), s.header.ports = some (sport,dport) →
      proto.admits s.header.l4proto = true →
      ((∃ fragment ∈ buildProtoPortFragments proto srcPort dstPort negateSrcPort negateDstPort, hold inet sets s fragment = true) ↔
        (sport,dport) ∈ sidePorts srcPort negateSrcPort ×ˢ sidePorts dstPort negateDstPort) := by
  refine ⟨fun fragment built ofSource negated spec mem => fragmentSlots built mem,fun inet sets s sport dport ports admitted => ?_⟩
  have source : s.header.port true = some sport := by
    rw [Header.port,ports]
    rfl
  have dest : s.header.port false = some dport := by
    rw [Header.port,ports]
    rfl
  rw [← List.any_eq_true,protoPortSelects,admitted,Bool.true_and,Bool.and_eq_true,sideSelected source,sideSelected dest,Set.mem_prod]

end Pairs

end Iptables

end KeenPbr
