import KeenPbr.NfqwsPpe
import KeenPbr.TransactionPlanned

/-! The contract of a configuration: its ranges are the canonical form of the ports that its active profiles filter,
and its chunks fit xt_multiport. -/
namespace KeenPbr.NfqwsPpe
open KeenPbr.Interval (Canonical Covered Proper)

section Texts

theorem portDigits {port : Text} {n : Nat} (parsed : parsePort port = some n) : port ≠ [] ∧ ∀ c ∈ port, isDigit c = true := by
  have digits : ∀ (body : Text) (sign : Int) (m : Int), (if body.isEmpty || body.any (fun c => !isDigit c) then none else
      if sign * digitsValue body < -2147483648 || sign * digitsValue body > 2147483647 then none
        else some (sign * digitsValue body)) = some m →
      body ≠ [] ∧ (∀ c ∈ body, isDigit c = true) ∧ m = sign * digitsValue body := by
    intro body sign m read
    split at read
    · cases read
    · rename_i plain
      split at read
      · cases read
      · simp only [Bool.or_eq_true,List.isEmpty_iff,List.any_eq_true,not_or,not_exists,not_and,Bool.not_eq_true',Bool.not_eq_false] at plain
        exact ⟨plain.1,plain.2,(Option.some.inj read).symm⟩
  unfold parsePort at parsed
  split at parsed
  · rename_i m read
    split at parsed
    · rename_i range
      unfold fromChars at read
      simp only at read
      split at read
      · -- a minus sign leaves no positive number
        obtain ⟨-,-,value⟩ := digits _ _ _ read
        omega
      · obtain ⟨nonempty,all,-⟩ := digits _ _ _ read
        exact ⟨nonempty,all⟩
    · cases parsed
  · cases parsed

theorem digitsPart {low low' high high' : Text} {a b : Char} (digits : ∀ c ∈ low, isDigit c = true) (digits' : ∀ c ∈ low', isDigit c = true)
    (left : isDigit a = false) (right : isDigit b = false) (same : low ++ a :: high = low' ++ b :: high') :
    low = low' ∧ a = b ∧ high = high' := by
  induction low generalizing low' with
  | nil =>
    cases low' with
    | nil => exact ⟨rfl,List.cons.inj same⟩
    | cons c low' =>
      have first := (List.cons.inj same).1
      have digit := digits' c List.mem_cons_self
      rw [← first,left] at digit
      cases digit
  | cons c low ih =>
    cases low' with
    | nil =>
      have first := (List.cons.inj same).1
      have digit := digits c List.mem_cons_self
      rw [first,right] at digit
      cases digit
    | cons d low' =>
      obtain ⟨first,rest⟩ := List.cons.inj same
      obtain ⟨lows,parts⟩ := ih (fun x mem => digits x (List.mem_cons_of_mem _ mem))
        (fun x mem => digits' x (List.mem_cons_of_mem _ mem)) rest
      exact ⟨by rw [first,lows],parts⟩

end Texts

section Specifications
variable {allowColon : Bool} {item spec : Text} {range : NfqwsPpePortRange}

def separates (allowColon : Bool) (c : Char) : Bool := c == '-' || (allowColon && c == ':')

theorem separatesPlain {c : Char} (separator : separates allowColon c = true) : isDigit c = false := by
  rw [separates,Bool.or_eq_true,Bool.and_eq_true] at separator
  rcases separator with dash | ⟨-,colon⟩
  · rw [eq_of_beq dash]
    decide
  · rw [eq_of_beq colon]
    decide

def Names (allowColon : Bool) (item : Text) (port : Nat) : Prop :=
  parsePort item = some port ∨ ∃ low separator high first last, item = low ++ separator :: high ∧ separates allowColon separator = true ∧
    parsePort low = some first ∧ parsePort high = some last ∧ first ≤ port ∧ port ≤ last

/- The ports of a list of items. -/
def SpecPorts (allowColon : Bool) (spec : Text) (port : Nat) : Prop := ∃ item ∈ spec.splitOn ',', Names allowColon item port

theorem separated {c : Char} {separator : Nat} (found : item.findIdx? (· == c) = some separator) :
    item = item.take separator ++ c :: item.drop (separator + 1) := by
  obtain ⟨bound,here,-⟩ := List.findIdx?_eq_some_iff_getElem.mp found
  have whole := (List.take_append_drop separator item).symm
  rwa [List.drop_eq_getElem_cons bound,eq_of_beq here] at whole

theorem rangeNames {low high : Text} {separator : Char} {first last : Nat} (parts : item = low ++ separator :: high)
    (splits : separates allowColon separator = true) (lower : parsePort low = some first) (upper : parsePort high = some last)
    (port : Nat) :
    (first ≤ port ∧ port ≤ last) ↔ Names allowColon item port := by
  refine ⟨fun inside => Or.inr ⟨low,separator,high,first,last,parts,splits,lower,upper,inside⟩,?_⟩
  rintro (alone | ⟨low',separator',high',first',last',parts',splits',lower',upper',inside⟩)
  · have digit := (portDigits alone).2 separator (by rw [parts]; exact List.mem_append_right _ List.mem_cons_self)
    rw [separatesPlain splits] at digit
    cases digit
  · obtain ⟨rfl,-,rfl⟩ := digitsPart (portDigits lower).2 (portDigits lower').2 (separatesPlain splits) (separatesPlain splits')
      (parts.symm.trans parts')
    rw [lower] at lower'
    rw [upper] at upper'
    obtain rfl := Option.some.inj lower'
    obtain rfl := Option.some.inj upper'
    exact inside

theorem itemNames (parsed : parseItem allowColon item = some range) :
    range.first ≤ range.last ∧ ∀ port, range.Holds port ↔ Names allowColon item port := by
  simp only [parseItem] at parsed
  generalize colonAt : (if allowColon = true then item.findIdx? (· == ':') else none) = colon at parsed
  split at parsed
  · cases parsed
  · cases where_ : (item.findIdx? (· == '-')).or colon with
    | none =>
      rw [where_] at parsed
      simp only at parsed
      obtain ⟨port,read,rfl⟩ := Option.map_eq_some_iff.mp parsed
      refine ⟨Nat.le_refl _,fun other => ⟨fun inside => Or.inl ?_,?_⟩⟩
      · exact read.trans (congrArg some (Nat.le_antisymm inside.1 inside.2))
      · rintro (alone | ⟨low,separator,high,-,-,parts,splits,-⟩)
        · rw [read] at alone
          obtain rfl := Option.some.inj alone
          exact ⟨Nat.le_refl _,Nat.le_refl _⟩
        · have digit := (portDigits read).2 separator (by rw [parts]; exact List.mem_append_right _ List.mem_cons_self)
          rw [separatesPlain splits] at digit
          cases digit
    | some separator =>
      have parts : ∃ c, separates allowColon c = true ∧ item = item.take separator ++ c :: item.drop (separator + 1) := by
        rcases Option.or_eq_some_iff.mp where_ with dash | ⟨-,colon⟩
        · exact ⟨'-',rfl,separated dash⟩
        · rw [colon] at colonAt
          split at colonAt
          · rename_i allowed
            exact ⟨':',by rw [allowed]; rfl,separated colonAt⟩
          · cases colonAt
      obtain ⟨c,splits,parts⟩ := parts
      rw [where_] at parsed
      simp only at parsed
      split at parsed
      · cases parsed
      · split at parsed
        · rename_i first last lower upper
          split at parsed
          · cases parsed
          · rename_i ordered
            obtain rfl := Option.some.inj parsed
            exact ⟨Nat.le_of_not_lt ordered,rangeNames parts splits lower upper⟩
        · cases parsed

theorem itemsNames {items : List Text} {ranges : Ranges} (parsed : items.mapM (parseItem allowColon) = some ranges) :
    Proper ranges ∧ ∀ port, Covered ranges port ↔ ∃ item ∈ items, Names allowColon item port := by
  induction items generalizing ranges with
  | nil =>
    obtain rfl := Option.some.inj parsed
    exact ⟨nofun,fun port => ⟨fun covered => absurd covered Interval.coveredNil,nofun⟩⟩
  | cons item items ih =>
    rw [List.mapM_cons] at parsed
    obtain ⟨range,here,parsed⟩ := Option.bind_eq_some_iff.mp parsed
    obtain ⟨rest,later,parsed⟩ := Option.bind_eq_some_iff.mp parsed
    obtain rfl := Option.some.inj parsed
    obtain ⟨ordered,names⟩ := itemNames here
    obtain ⟨proper,covered⟩ := ih later
    refine ⟨fun other mem => ?_,fun port => ?_⟩
    · rcases List.mem_cons.mp mem with rfl | behind
      · exact ordered
      · exact proper other behind
    · rw [Interval.coveredCons,names,covered]
      simp

theorem specRanges {ranges : Ranges} (parsed : parsePpePortRanges spec allowColon = some ranges) :
    Canonical ranges ∧ ∀ port, Covered ranges port ↔ SpecPorts allowColon spec port := by
  unfold parsePpePortRanges at parsed
  split at parsed
  · cases parsed
  · obtain ⟨plain,read,rfl⟩ := Option.map_eq_some_iff.mp parsed
    obtain ⟨proper,names⟩ := itemsNames read
    exact ⟨Interval.canonicalCanonical proper,fun port => (Interval.canonicalCovered proper).trans (names port)⟩

end Specifications

section Profiles
variable {tokens : List Text} {output result active : Ranges}

def FilterPorts (flag : String) (tokens : List Text) (port : Nat) : Prop :=
  ∃ token ∈ tokens, startsWith token flag = true ∧ SpecPorts false (token.drop flag.length) port

theorem filterSpecsPorts {flag : String} {port : Nat} :
    (∃ spec ∈ filterSpecs flag tokens, SpecPorts false spec port) ↔ FilterPorts flag tokens port := by
  simp only [filterSpecs,List.mem_map,List.mem_filter,FilterPorts]
  constructor
  · rintro ⟨_,⟨token,⟨mem,starts⟩,rfl⟩,names⟩
    exact ⟨token,mem,starts,names⟩
  · rintro ⟨token,mem,starts,names⟩
    exact ⟨_,⟨token,⟨mem,starts⟩,rfl⟩,names⟩

theorem appendFiltersRanges {specs : List Text} (canonical : Canonical output) (appended : appendFilters specs output = some result) :
    Canonical result ∧ ∀ port, Covered result port ↔ Covered output port ∨ ∃ spec ∈ specs, SpecPorts false spec port := by
  induction specs generalizing output with
  | nil =>
    obtain rfl := Option.some.inj appended
    exact ⟨canonical,fun port => ⟨Or.inl,fun either => either.resolve_right nofun⟩⟩
  | cons spec specs ih =>
    rw [appendFilters,List.foldlM_cons] at appended
    obtain ⟨next,here,later⟩ := Option.bind_eq_some_iff.mp appended
    obtain ⟨ranges,parsed,rfl⟩ := Option.map_eq_some_iff.mp here
    obtain ⟨fresh,names⟩ := specRanges parsed
    obtain ⟨joined,union⟩ := Interval.canonicalUnion canonical.proper fresh.proper
    obtain ⟨final,covered⟩ := ih joined later
    refine ⟨final,fun port => ?_⟩
    rw [covered,union,names,or_assoc]
    simp

theorem filterNone {flag : String} (none : hasFilter flag tokens = false) (port : Nat) : ¬FilterPorts flag tokens port := by
  rintro ⟨token,mem,starts,-⟩
  rw [hasFilter,List.any_eq_false] at none
  exact none token mem starts

def Bears (tokens : List Text) (port : Nat) : Prop := containsStrategyAction tokens = true ∧ FilterPorts "--filter-tcp=" tokens port

theorem collectedRanges {source : String} (canonical : Canonical active)
    (collected : collectActionSegment source tokens active = .ok result) :
    Canonical result ∧ ∀ port, Covered result port ↔ Covered active port ∨ Bears tokens port := by
  have same (idle : ∀ port, ¬Bears tokens port) : ∀ port, Covered active port ↔ Covered active port ∨ Bears tokens port :=
    fun port => (or_iff_left (idle port)).symm
  unfold collectActionSegment at collected
  split at collected
  · rename_i idle
    obtain rfl := Except.ok.inj collected
    refine ⟨canonical,same fun port bears => ?_⟩
    rw [bears.1] at idle
    cases idle
  · rename_i bearing
    split at collected
    · cases collected
    · split at collected
      · cases appended : appendTcpFilters tokens active with
        | none =>
          rw [appended] at collected
          cases collected
        | some ranges =>
          rw [appended] at collected
          obtain rfl := Except.ok.inj collected
          unfold appendTcpFilters at appended
          split at appended
          · cases appended
          · obtain ⟨final,covered⟩ := appendFiltersRanges canonical appended
            refine ⟨final,fun port => (covered port).trans (or_congr_right (filterSpecsPorts.trans ?_))⟩
            exact ⟨fun names => ⟨by simpa using bearing,names⟩,fun bears => bears.2⟩
      · rename_i none
        obtain rfl := Except.ok.inj collected
        exact ⟨canonical,same fun port bears => filterNone (Bool.eq_false_iff.mpr none) port bears.2⟩

theorem customSegmentRanges {number : Nat} (canonical : Canonical active)
    (collected : collectCustomSegment tokens number active = .ok result) :
    Canonical result ∧ ∀ port, Covered result port ↔ Covered active port ∨ Bears tokens port := by
  unfold collectCustomSegment at collected
  split at collected
  · rename_i empty
    obtain rfl := Except.ok.inj collected
    refine ⟨canonical,fun port => (or_iff_left ?_).symm⟩
    rw [List.isEmpty_iff.mp empty]
    exact fun bears => by simp [Bears,containsStrategyAction] at bears
  · exact collectedRanges canonical collected

def profilesFrom (segment tokens : List Text) : List (List Text) := (tokens.splitOnP isNewBoundary).modifyHead (segment ++ ·)

theorem profilesBoundary {segment : List Text} {token : Text} (boundary : isNewBoundary token = true) :
    profilesFrom segment (token :: tokens) = segment :: profilesFrom [] tokens := by
  rw [profilesFrom,List.splitOnP_cons_eq_if_modifyHead,if_pos boundary,List.modifyHead_cons,List.append_nil,profilesFrom]
  congr 1
  cases tokens.splitOnP isNewBoundary with
  | nil | cons => rfl

theorem profilesPlain {segment : List Text} {token : Text} (plain : isNewBoundary token = false) :
    profilesFrom segment (token :: tokens) = profilesFrom (segment ++ [token]) tokens := by
  rw [profilesFrom,List.splitOnP_cons_eq_if_modifyHead,if_neg (Bool.eq_false_iff.mp plain),profilesFrom]
  cases tokens.splitOnP isNewBoundary with
  | nil => rfl
  | cons head rest => simp

theorem customRanges {segment : List Text} {number : Nat} (canonical : Canonical active)
    (collected : collectCustom tokens segment number active = .ok result) :
    Canonical result ∧ ∀ port, Covered result port ↔ Covered active port ∨ ∃ profile ∈ profilesFrom segment tokens, Bears profile port := by
  induction tokens generalizing segment number active with
  | nil =>
    obtain ⟨final,covered⟩ := customSegmentRanges canonical collected
    exact ⟨final,fun port => (covered port).trans (by simp [profilesFrom])⟩
  | cons token tokens ih =>
    rw [collectCustom] at collected
    split at collected
    · rename_i boundary
      obtain ⟨next,here,later⟩ := bindOk collected
      obtain ⟨joined,union⟩ := customSegmentRanges canonical here
      obtain ⟨final,covered⟩ := ih joined later
      refine ⟨final,fun port => ?_⟩
      rw [covered,union,profilesBoundary boundary,or_assoc]
      simp
    · rename_i plain
      obtain ⟨final,covered⟩ := ih canonical collected
      exact ⟨final,fun port => (covered port).trans (by rw [profilesPlain (Bool.eq_false_iff.mpr plain)])⟩

end Profiles

section Contracts
variable {value : String → Text} {queueNumber : Int} {contract : NfqwsPpePortContract}

structure Extracted (value : String → Text) (queueNumber : Int) (contract : NfqwsPpePortContract) : Prop where
  main : ∃ active, collectMain (splitFields (value "NFQWS_ARGS")) = .ok active ∧
    collectCustom (splitFields (value "NFQWS_ARGS_CUSTOM")) [] 1 active = .ok contract.tcpRanges
  nonempty : contract.tcpRanges ≠ []
  declared : ∃ declared, parsePpePortRanges (value "TCP_PORTS") true = some declared ∧ rangeSetCovers declared contract.tcpRanges = true
  chunks : chunkPpeTcpRanges contract.tcpRanges = some contract.tcpChunks
  quic : quicContract (splitFields (value "NFQWS_ARGS_QUIC")) (value "UDP_PORTS") = .ok contract.quicUdp443
  available : contract.available = true
  queue : contract.queueNumber = queueNumber

theorem requireOk {holds : Bool} {reason : String} {u : Unit} (ok : require holds reason = .ok u) : holds = true := by
  unfold require at ok
  split at ok
  · assumption
  · cases ok

theorem presentOk {α : Type} {found : Option α} {reason : String} {a : α} (ok : present found reason = .ok a) : found = some a := by
  cases found with
  | none => cases ok
  | some b => exact congrArg some (Except.ok.inj ok)

theorem contractExtracted (ok : contractFrom value queueNumber = .ok contract) : Extracted value queueNumber contract := by
  unfold contractFrom at ok
  obtain ⟨first,main,ok⟩ := bindOk ok
  obtain ⟨active,custom,ok⟩ := bindOk ok
  obtain ⟨_,some,ok⟩ := bindOk ok
  obtain ⟨declared,ports,ok⟩ := bindOk ok
  obtain ⟨_,covers,ok⟩ := bindOk ok
  obtain ⟨chunks,packed,ok⟩ := bindOk ok
  obtain ⟨quic,udp,ok⟩ := bindOk ok
  obtain rfl := Except.ok.inj ok
  exact ⟨⟨first,main,custom⟩,by simpa using requireOk some,⟨declared,presentOk ports,requireOk covers⟩,presentOk packed,udp,rfl,rfl⟩

/- The action-bearing profiles of NFQWS_ARGS and NFQWS_ARGS_CUSTOM. -/
def ActivePorts (value : String → Text) (port : Nat) : Prop :=
  ∃ profile ∈ splitFields (value "NFQWS_ARGS") :: (splitFields (value "NFQWS_ARGS_CUSTOM")).splitOnP isNewBoundary, Bears profile port

theorem Extracted.ranges (extracted : Extracted value queueNumber contract) :
    Canonical contract.tcpRanges ∧ ∀ port, Covered contract.tcpRanges port ↔ ActivePorts value port := by
  obtain ⟨active,main,custom⟩ := extracted.main
  have first : Canonical active ∧ ∀ port, Covered active port ↔ Bears (splitFields (value "NFQWS_ARGS")) port := by
    unfold collectMain at main
    split at main
    · rename_i empty
      obtain rfl := Except.ok.inj main
      refine ⟨Canonical.nil,fun port => ⟨fun covered => absurd covered Interval.coveredNil,fun bears => ?_⟩⟩
      rw [List.isEmpty_iff.mp empty] at bears
      simp [Bears,containsStrategyAction] at bears
    · obtain ⟨canonical,covered⟩ := collectedRanges Canonical.nil main
      exact ⟨canonical,fun port => (covered port).trans (or_iff_right Interval.coveredNil)⟩
  obtain ⟨final,covered⟩ := customRanges first.1 custom
  refine ⟨final,fun port => (covered port).trans ?_⟩
  have whole : profilesFrom [] (splitFields (value "NFQWS_ARGS_CUSTOM")) = (splitFields (value "NFQWS_ARGS_CUSTOM")).splitOnP
    isNewBoundary := by
    rw [profilesFrom]
    cases (splitFields (value "NFQWS_ARGS_CUSTOM")).splitOnP isNewBoundary with
    | nil | cons => rfl
  rw [first.2,whole,ActivePorts]
  simp

theorem availableExtracted {content : Text} {resolvePath : NfqwsPathResolver}
    (available : (extractNfqwsPpePortContract content resolvePath).available = true) :
    validateParsedCandidate (parseCandidate content) resolvePath = [] ∧ valueOf (parseCandidate content) "NFQUEUE_NUM" ≠ [] ∧
      Extracted (valueOf (parseCandidate content)) (parsedQueueNumber (valueOf (parseCandidate content) "NFQUEUE_NUM") 300)
        (extractNfqwsPpePortContract content resolvePath) := by
  unfold extractNfqwsPpePortContract at available ⊢
  simp only at available ⊢
  cases issues : validateParsedCandidate (parseCandidate content) resolvePath with
  | cons issue rest =>
    rw [issues] at available
    cases available
  | nil =>
    rw [issues] at available
    simp only at available ⊢
    split at available
    · cases available
    · rename_i queue
      rw [if_neg queue]
      refine ⟨trivial,by simpa using queue,?_⟩
      cases ok : contractFrom (valueOf (parseCandidate content))
        (parsedQueueNumber (valueOf (parseCandidate content) "NFQUEUE_NUM") 300) with
      | error reason =>
        rw [ok] at available
        cases available
      | ok contract => exact contractExtracted ok

/- The ranges of an available contract are the canonical form of the ports that the active profiles filter, TCP_PORTS
declares them all, and the chunks are the ranges in order, each within the slots of a multiport match. -/
theorem contractRanges (content : Text) (resolvePath : NfqwsPathResolver)
    (available : (extractNfqwsPpePortContract content resolvePath).available = true) :
    Canonical (extractNfqwsPpePortContract content resolvePath).tcpRanges ∧
    (∀ port, Covered (extractNfqwsPpePortContract content resolvePath).tcpRanges port ↔
      ActivePorts (valueOf (parseCandidate content)) port) ∧
    (∀ port, Covered (extractNfqwsPpePortContract content resolvePath).tcpRanges port →
      SpecPorts true (valueOf (parseCandidate content) "TCP_PORTS") port) ∧
    (extractNfqwsPpePortContract content resolvePath).tcpChunks.flatten = (extractNfqwsPpePortContract content resolvePath).tcpRanges ∧
    ∀ chunk ∈ (extractNfqwsPpePortContract content resolvePath).tcpChunks, Interval.slots chunk ≤ kNfqwsPpeMultiportSlotsPerChunk := by
  obtain ⟨-,-,extracted⟩ := availableExtracted available
  obtain ⟨canonical,ports⟩ := extracted.ranges
  obtain ⟨declared,parsed,covers⟩ := extracted.declared
  obtain ⟨joined,fits⟩ := Interval.packPacks (show 2 ≤ kNfqwsPpeMultiportSlotsPerChunk by decide) extracted.chunks
  exact ⟨canonical,ports,fun port covered => ((specRanges parsed).2 port).mp (Interval.coversSound covers covered),joined,fits⟩

def mixedText : Text :=
  text "NFQUEUE_NUM=3\n" ++ text "TCP_PORTS=" ++ text "80:90,443" ++ text "\nNFQWS_ARGS=" ++ text "'--filter-tcp=" ++
  text "85-88,80-84" ++ text " --dpi-desync=x" ++ text "'\nNFQWS_ARGS" ++ text "_CUSTOM=" ++ text "'--filter-tcp=" ++ text "86-90" ++
  text " --dpi-desync=y" ++ text " --new" ++ text " --filter-tcp=" ++ text "443" ++ text " --dpi-desync=z" ++ text "'"

def mixedParsed : ParsedCandidate :=
  { values := [(text "NFQUEUE_NUM",text "3"),(text "TCP_PORTS",text "80:90,443"),
      (text "NFQWS_ARGS",text "--filter-tcp=" ++ text "85-88,80-84" ++ text " --dpi-desync=x"),
      (text "NFQWS_ARGS" ++ text "_CUSTOM",text "--filter-tcp=" ++ text "86-90" ++ text " --dpi-desync=y" ++ text " --new" ++
        text " --filter-tcp=" ++ text "443" ++ text " --dpi-desync=z")],
    assignments := [⟨text "NFQUEUE_NUM",0,13⟩,⟨text "TCP_PORTS",14,33⟩,⟨text "NFQWS_ARGS",34,86⟩,
      ⟨text "NFQWS_ARGS" ++ text "_CUSTOM",87,178⟩] }

set_option maxRecDepth 8000 in
theorem mixedTextParsed : parseCandidate mixedText = mixedParsed := by decide +kernel

def mixedContract : NfqwsPpePortContract :=
  { available := true, queueNumber := 3, tcpRanges := [⟨80,90⟩,⟨443,443⟩], tcpChunks := [[⟨80,90⟩,⟨443,443⟩]], quicUdp443 := false }

theorem mixedTextExtracted : extractNfqwsPpePortContract mixedText none = mixedContract := by
  rw [extractNfqwsPpePortContract,mixedTextParsed]
  rfl

theorem mixedTextRanges : Canonical mixedContract.tcpRanges ∧
    (∀ port, Covered mixedContract.tcpRanges port ↔ ActivePorts (valueOf mixedParsed) port) ∧
    mixedContract.tcpChunks.flatten = mixedContract.tcpRanges := by
  have ranges := contractRanges mixedText none (by rw [mixedTextExtracted]; rfl)
  rw [mixedTextExtracted,mixedTextParsed] at ranges
  exact ⟨ranges.1,ranges.2.1,ranges.2.2.2.1⟩

end Contracts

end KeenPbr.NfqwsPpe
