import KeenPbr.IpSet
import KeenPbr.Splices

/-! util/nfqws_rotator_state.cpp: the snapshot that the rotator writes, a header, a line for each pool and
a footer. Bytes are characters. A torn file, or one put together from two, is never read as a third state. -/
namespace KeenPbr.Rotator
open Fields

def kMaxSlot : Nat := 4096
def kMaxPendingFailures : Nat := 65535
def kMaxPoolKeyBytes : Nat := 128
def kMaxNfqwsRotatorSnapshotSize : Nat := 128 * 1024
def kMaxNfqwsRotatorPools : Nat := 64
def kMaxNfqwsRotatorTargets : Nat := 4096

structure NfqwsProcessGeneration where
  pid : Nat := 0
  startTicks : Nat := 0
  deriving DecidableEq, Repr

structure NfqwsRotatorPoolState where
  key : Text
  trackedTargets : Nat
  slotHistogram : List (Nat × Nat)
  slotCountHistogram : List (Nat × Nat)
  pendingFailureHistogram : List (Nat × Nat)
  deriving DecidableEq, Repr

structure NfqwsRotatorSnapshot where
  sequence : Nat
  generation : NfqwsProcessGeneration
  observedAtUnix : Nat
  truncated : Bool
  pools : List NfqwsRotatorPoolState := []
  deriving DecidableEq, Repr

section Parser

def splitExact (delimiter : Char) (input : Text) : List Text := fields (· == delimiter) input

def parseInteger (value : Text) (minimum maximum : Nat) : Option Nat :=
  if value.isEmpty || !value.all isDigit then none
  else
    let parsed := Nat.ofDigitChars 10 value 0
    if parsed < minimum || parsed > maximum then none else some parsed

def decodeHexBytes : Text → Option Text
  | [] => some []
  | high :: low :: rest =>
    match hexDigit high,hexDigit low with
    | some upper,some lower =>
      let byte := 16 * upper + lower
      if byte < 0x21 || byte > 0x7e then none else (decodeHexBytes rest).map (Char.ofNat byte :: ·)
    | _,_ => none
  | [_] => none

def decodeHexKey (encoded : Text) : Option Text :=
  if encoded.isEmpty || encoded.length > kMaxPoolKeyBytes * 2 || encoded.length % 2 ≠ 0 then none else decodeHexBytes encoded

def histogramEntry (maximumValue : Nat) (entry : Text) : Option (Nat × Nat) :=
  match splitExact '=' entry with
  | [value,count] =>
    match parseInteger value 0 maximumValue,parseInteger count 1 kMaxNfqwsRotatorTargets with
    | some value,some count => some (value,count)
    | _,_ => none
  | _ => none

def histogramEntries (maximumValue : Nat) : List (Nat × Nat) → List Text → Option (List (Nat × Nat))
  | histogram, [] => some histogram
  | histogram, entry :: rest =>
    match histogramEntry maximumValue entry with
    | none => none
    | some found =>
      if (histogram.lookup found.1).isSome || (histogram.map (·.2)).sum + found.2 > kMaxNfqwsRotatorTargets then none
      else histogramEntries maximumValue (histogram ++ [found]) rest

def parseHistogram (text : Text) (maximumValue : Nat) : Option (List (Nat × Nat) × Nat) :=
  if text.isEmpty || (splitExact ',' text).length > kMaxNfqwsRotatorTargets then none
  else
    (histogramEntries maximumValue [] (splitExact ',' text)).map fun histogram =>
      (histogram.insertionSort fun left right => left.1 ≤ right.1,(histogram.map (·.2)).sum)

structure Header where
  sequence : Nat
  generation : NfqwsProcessGeneration
  observedAtUnix : Nat
  truncated : Bool
  deriving DecidableEq, Repr

def readHeader (line : Text) : Except String Header :=
  match splitExact '\t' line with
  | [tag,sequence,pid,ticks,observed,truncated] =>
    if tag ≠ text "V1" then .error "snapshot header is invalid"
    else
      match parseInteger sequence 1 (2 ^ 64 - 1),parseInteger pid 1 (2 ^ 31 - 1),parseInteger ticks 1 9007199254740991,
        parseInteger observed 1 (2 ^ 63 - 1),parseInteger truncated 0 1 with
      | some sequence,some pid,some startTicks,some observedAtUnix,some truncated =>
        .ok ⟨sequence,⟨pid,startTicks⟩,observedAtUnix,truncated != 0⟩
      | _,_,_,_,_ => .error "snapshot header values are invalid"
  | _ => .error "snapshot header is invalid"

def readPool (keys : List Text) (trackedTotal : Nat) (line : Text) : Except String NfqwsRotatorPoolState :=
  match splitExact '\t' line with
  | [tag,key,tracked,slots,slotCounts,failures] =>
    if tag ≠ text "P" then .error "snapshot pool line is invalid"
    else
      match decodeHexKey key,parseInteger tracked 1 kMaxNfqwsRotatorTargets with
      | some key,some tracked =>
        if keys.contains key then .error "snapshot pool identity is invalid"
        else
          match parseHistogram slots kMaxSlot,parseHistogram slotCounts kMaxSlot,parseHistogram failures kMaxPendingFailures with
          | some slots,some slotCounts,some failures =>
            if (slots.1.head?.any (·.1 == 0)) || (slotCounts.1.head?.any (·.1 == 0)) || slots.2 ≠ tracked || slotCounts.2 ≠ tracked ||
                failures.2 ≠ tracked || trackedTotal + tracked > kMaxNfqwsRotatorTargets then .error "snapshot pool histograms are invalid"
            else .ok ⟨key,tracked,slots.1,slotCounts.1,failures.1⟩
          | _,_,_ => .error "snapshot pool histograms are invalid"
      | _,_ => .error "snapshot pool identity is invalid"
  | _ => .error "snapshot pool line is invalid"

def readPools : List NfqwsRotatorPoolState → List Text → Except String (List NfqwsRotatorPoolState)
  | pools, [] => .ok pools
  | pools, line :: rest =>
    match readPool (pools.map (·.key)) (pools.map (·.trackedTargets)).sum line with
    | .error error => .error error
    | .ok pool => readPools (pools ++ [pool]) rest

def readFooter (line : Text) : Except String (Nat × Nat × Nat) :=
  match splitExact '\t' line with
  | [tag,sequence,pools,targets] =>
    if tag ≠ text "END" then .error "snapshot footer is invalid"
    else
      match parseInteger sequence 1 (2 ^ 64 - 1),parseInteger pools 0 kMaxNfqwsRotatorPools,parseInteger targets 0
        kMaxNfqwsRotatorTargets with
      | some sequence,some pools,some targets => .ok (sequence,pools,targets)
      | _,_,_ => .error "snapshot footer is invalid"
  | _ => .error "snapshot footer is invalid"

def dropReturn (line : Text) : Text := if line.getLast? = some '\r' then line.dropLast else line

def newline (c : Char) : Bool := c == '\n'

def readLines : List Text → Except String NfqwsRotatorSnapshot
  | first :: second :: rest =>
    if (second :: rest).length > kMaxNfqwsRotatorPools + 1 then .error "snapshot has an invalid line count"
    else
      match readHeader first with
      | .error error => .error error
      | .ok header =>
        match readPools [] (second :: rest).dropLast with
        | .error error => .error error
        | .ok pools =>
          match readFooter ((second :: rest).getLastD []) with
          | .error error => .error error
          | .ok footer =>
            if footer ≠ (header.sequence,pools.length,(pools.map (·.trackedTargets)).sum) then .error "snapshot footer is invalid"
            else .ok ⟨header.sequence,header.generation,header.observedAtUnix,header.truncated,pools⟩
  | _ => .error "snapshot has an invalid line count"

def parseNfqwsRotatorSnapshot (content : Text) : Except String NfqwsRotatorSnapshot :=
  if content.isEmpty || content.length > kMaxNfqwsRotatorSnapshotSize then .error "snapshot is empty or too large"
  else if ((lines newline content).map dropReturn).any List.isEmpty then .error "snapshot contains an empty line"
  else readLines ((lines newline content).map dropReturn)

end Parser

section Reading
variable {content first last : Text} {middle : List Text} {snapshot : NfqwsRotatorSnapshot}

structure Reading (first : Text) (middle : List Text) (last : Text) (snapshot : NfqwsRotatorSnapshot) : Prop where
  header : readHeader (dropReturn first) = .ok ⟨snapshot.sequence,snapshot.generation,snapshot.observedAtUnix,snapshot.truncated⟩
  pools : readPools [] (middle.map dropReturn) = .ok snapshot.pools
  footer : ∃ counts, readFooter (dropReturn last) = .ok (snapshot.sequence,counts)

theorem readLinesReading (read : readLines ((first :: middle ++ [last]).map dropReturn) = .ok snapshot) :
    Reading first middle last snapshot := by
  have shape : (first :: middle ++ [last]).map dropReturn = dropReturn first :: (middle.map dropReturn ++ [dropReturn last]) := by simp
  have cut : ∃ second rest, middle.map dropReturn ++ [dropReturn last] = second :: rest := List.exists_cons_of_ne_nil (by simp)
  obtain ⟨second,rest,tail⟩ := cut
  rw [shape,tail,readLines,← tail,List.dropLast_concat] at read
  split at read
  · cases read
  · split at read
    · cases read
    · rename_i header headed
      split at read
      · cases read
      · rename_i pools pooled
        split at read
        · cases read
        · rename_i footer footed
          split at read
          · cases read
          · rename_i agrees
            rw [ne_eq,not_not] at agrees
            cases read
            refine ⟨headed,pooled,(pools.length,(pools.map (·.trackedTargets)).sum),?_⟩
            rw [← agrees,← footed]
            congr 1
            simp

theorem parsedReading (read : parseNfqwsRotatorSnapshot content = .ok snapshot) : ∃ first middle last,
    Framed (fields newline content) first middle last ∧ Reading first middle last snapshot := by
  unfold parseNfqwsRotatorSnapshot at read
  split at read
  · cases read
  · split at read
    · cases read
    · rename_i full
      have whole : fields newline content = lines newline content ∨ fields newline content = lines newline content ++ [[]] :=
        linesFields content
      cases cut : lines newline content with
      | nil =>
        rw [cut] at read
        cases read
      | cons first tail =>
        rcases List.eq_nil_or_concat tail with rfl | ⟨middle,last,rfl⟩
        · rw [cut] at read
          cases read
        · rw [List.concat_eq_append] at cut
          rw [cut] at read whole full
          refine ⟨first,middle,last,⟨whole,fun empty => full ?_⟩,readLinesReading read⟩
          rw [empty]
          simp [dropReturn]

end Reading

section Fields
variable {line last : Text} {before : List Text}

def tab (c : Char) : Bool := c == '\t'

theorem tabSeam (front back : Text) : ∃ before last first after, fields tab front = before ++ [last] ∧ fields tab back = first :: after ∧
    fields tab (front ++ back) = before ++ (last ++ first) :: after := fieldsAppend front back

theorem fieldsHead {sep : Char → Bool} {field : Text} {later : List Text} {c : Char} (cut : fields sep line = field :: later)
    (front : field.head? = some c) : line.head? = some c := by
  cases line with
  | nil =>
    cases cut
    cases front
  | cons d rest =>
    obtain ⟨first,more,shape⟩ := fieldsCons sep rest
    rw [fields,shape] at cut
    split at cut
    · cases cut
      cases front
    · cases cut
      exact front

theorem returnFields (cut : fields tab line = before ++ [last]) : fields tab (dropReturn line) = before ++ [dropReturn last] := by
  rcases List.eq_nil_or_concat line with rfl | ⟨init,c,rfl⟩
  · obtain ⟨rfl,ended⟩ := List.append_inj' (show [] ++ [[]] = before ++ [last] from cut) rfl
    rw [← List.singleton_inj.mp ended]
    rfl
  · rw [List.concat_eq_append] at cut ⊢
    obtain ⟨front,end_,first,after,own,tail,whole⟩ := tabSeam init [c]
    rw [cut] at whole
    by_cases back : c = '\r'
    · subst back
      have single : [['\r']] = first :: after := tail
      cases single
      obtain ⟨rfl,ended⟩ := List.append_inj' whole rfl
      rw [List.singleton_inj.mp ended]
      simp [dropReturn,own]
    · have kept : dropReturn (init ++ [c]) = init ++ [c] := by simp [dropReturn,back]
      rw [kept,cut]
      by_cases separates : tab c = true
      · have pair : fields tab [c] = [[],[]] := by simp [fields,separates]
        rw [pair] at tail
        cases tail
        obtain ⟨-,ended⟩ := List.append_inj' (show before ++ [last] = (front ++ [end_ ++ []]) ++ [[]] by rw [whole]; simp) rfl
        rw [List.singleton_inj.mp ended]
        rfl
      · have single : fields tab [c] = [[c]] := by simp [fields,separates]
        rw [single] at tail
        cases tail
        obtain ⟨-,ended⟩ := List.append_inj' whole rfl
        rw [List.singleton_inj.mp ended]
        simp [dropReturn,back]

theorem fieldsReturn {shown : Text} (cut : fields tab (dropReturn line) = before ++ [shown]) :
    ∃ last, fields tab line = before ++ [last] ∧ shown = dropReturn last := by
  obtain ⟨field,later,some⟩ := fieldsCons tab line
  rcases List.eq_nil_or_concat (fields tab line) with empty | ⟨front,last,whole⟩
  · rw [some] at empty
    cases empty
  · rw [List.concat_eq_append] at whole
    have trimmed := returnFields whole
    rw [cut] at trimmed
    obtain ⟨rfl,ended⟩ := List.append_inj' trimmed rfl
    exact ⟨last,whole,List.singleton_inj.mp ended⟩

end Fields

section Kinds
variable {line other : Text} {header otherHeader : Header}

structure HeaderLine (line : Text) (header : Header) (sequence pid ticks observed truncated : Text) : Prop where
  cut : fields tab line = [text "V1",sequence,pid,ticks,observed,truncated]
  sequence : parseInteger sequence 1 (2 ^ 64 - 1) = some header.sequence
  pid : parseInteger pid 1 (2 ^ 31 - 1) = some header.generation.pid
  ticks : parseInteger ticks 1 9007199254740991 = some header.generation.startTicks
  observed : parseInteger observed 1 (2 ^ 63 - 1) = some header.observedAtUnix
  truncated : (parseInteger (dropReturn truncated) 0 1).map (· != 0) = some header.truncated

theorem headerFields (read : readHeader (dropReturn line) = .ok header) : ∃ sequence pid ticks observed truncated,
    HeaderLine line header sequence pid ticks observed truncated := by
  unfold readHeader at read
  split at read
  · rename_i tag sequence pid ticks observed shown cut
    split at read
    · cases read
    · rename_i tagged
      rw [ne_eq,not_not] at tagged
      subst tagged
      split at read
      · rename_i s p t o r seq pidRead tickRead obsRead cutOff
        cases read
        obtain ⟨truncated,whole,rfl⟩ :=
          fieldsReturn (show fields tab (dropReturn line) = [text "V1",sequence,pid,ticks,observed] ++ [shown] from cut)
        exact ⟨sequence,pid,ticks,observed,truncated,whole,seq,pidRead,tickRead,obsRead,by rw [cutOff]; rfl⟩
      · cases read
  · cases read

theorem headerSame {lead otherLead rest : List Text} (read : readHeader (dropReturn line) = .ok header)
    (otherRead : readHeader (dropReturn other) = .ok otherHeader) (cut : fields tab line = lead ++ rest)
    (otherCut : fields tab other = otherLead ++ rest)
    (long : 4 ≤ rest.length) (same : header.sequence = otherHeader.sequence) : header = otherHeader := by
  obtain ⟨sequence,pid,ticks,observed,truncated,mine⟩ := headerFields read
  obtain ⟨sequence',pid',ticks',observed',truncated',theirs⟩ := headerFields otherRead
  have tail : [pid,ticks,observed,truncated] <:+ fields tab line := ⟨[text "V1",sequence],mine.cut.symm⟩
  have otherTail : [pid',ticks',observed',truncated'] <:+ fields tab other := ⟨[text "V1",sequence'],theirs.cut.symm⟩
  have inner : [pid,ticks,observed,truncated] <:+ rest := List.suffix_of_suffix_length_le tail ⟨lead,cut.symm⟩ long
  have outer : [pid,ticks,observed,truncated] <:+ fields tab other := inner.trans ⟨otherLead,otherCut.symm⟩
  have equal := (List.suffix_of_suffix_length_le outer otherTail (Nat.le_refl 4)).eq_of_length rfl
  cases equal
  have pids := Option.some.inj (mine.pid.symm.trans theirs.pid)
  have ticked := Option.some.inj (mine.ticks.symm.trans theirs.ticks)
  have seen := Option.some.inj (mine.observed.symm.trans theirs.observed)
  have cutOff := Option.some.inj (mine.truncated.symm.trans theirs.truncated)
  obtain ⟨_,⟨_,_⟩,_,_⟩ := header
  obtain ⟨_,⟨_,_⟩,_,_⟩ := otherHeader
  cases same
  cases pids
  cases ticked
  cases seen
  cases cutOff
  rfl

theorem footerFields {sequence : Nat} {counts : Nat × Nat} (read : readFooter (dropReturn line) = .ok (sequence,counts)) :
    ∃ shown pools targets, fields tab line = [text "END",shown,pools,targets] ∧ parseInteger shown 1 (2 ^ 64 - 1) = some sequence := by
  unfold readFooter at read
  split at read
  · rename_i tag shown pools targets cut
    split at read
    · cases read
    · rename_i tagged
      rw [ne_eq,not_not] at tagged
      subst tagged
      split at read
      · rename_i seq _ _
        cases read
        obtain ⟨last,whole,-⟩ := fieldsReturn (show fields tab (dropReturn line) = [text "END",shown,pools] ++ [targets] from cut)
        exact ⟨shown,pools,last,whole,seq⟩
      · cases read
  · cases read

theorem footerHead {sequence : Nat} {counts : Nat × Nat} (read : readFooter (dropReturn line) = .ok (sequence,counts)) :
    line.head? = some 'E' := by
  obtain ⟨_,_,_,cut,_⟩ := footerFields read
  exact fieldsHead cut rfl

theorem integerDigits {value : Text} {minimum maximum found : Nat} (read : parseInteger value minimum maximum = some found) :
    ∀ c ∈ value, isDigit c = true := by
  unfold parseInteger at read
  split at read
  · cases read
  · rename_i digits
    intro c mem
    rw [Bool.or_eq_true,not_or] at digits
    have all : value.all isDigit = true := by simpa only [Bool.not_eq_true',Bool.not_eq_false] using digits.2
    exact List.all_eq_true.mp all c mem

theorem entryEquals {maximum : Nat} {entry : Text} {found : Nat × Nat} (read : histogramEntry maximum entry = some found) :
    '=' ∈ entry := by
  by_contra absent
  have whole : splitExact '=' entry = [entry] := fieldsWhole (· == '=') fun c mem => by
    rw [beq_eq_false_iff_ne]
    rintro rfl
    exact absent mem
  unfold histogramEntry at read
  rw [whole] at read
  cases read

theorem histogramEquals {maximum : Nat} {shown : Text} (read : (parseHistogram shown maximum).isSome = true) : '=' ∈ shown := by
  unfold parseHistogram at read
  split at read
  · cases read
  · rw [Option.isSome_map] at read
    obtain ⟨entry,rest,cut⟩ := fieldsCons (· == ',') shown
    have split : splitExact ',' shown = entry :: rest := cut
    rw [split,histogramEntries] at read
    split at read
    · cases read
    · rename_i found entered
      exact (fieldsMem (· == ',') (by rw [cut]; exact List.mem_cons_self) (entryEquals entered)).1

theorem poolFields {keys : List Text} {total : Nat} {pool : NfqwsRotatorPoolState}
    (read : readPool keys total (dropReturn line) = .ok pool) :
    ∃ key tracked slots slotCounts failures, fields tab line = [text "P",key,tracked,slots,slotCounts,failures] ∧
      '=' ∈ dropReturn failures := by
  unfold readPool at read
  split at read
  · rename_i tag key tracked slots slotCounts shown cut
    split at read
    · cases read
    · rename_i tagged
      rw [ne_eq,not_not] at tagged
      subst tagged
      split at read
      · split at read
        · cases read
        · split at read
          · rename_i failed
            obtain ⟨last,whole,rfl⟩ := fieldsReturn
              (show fields tab (dropReturn line) = [text "P",key,tracked,slots,slotCounts] ++ [shown] from cut)
            exact ⟨key,tracked,slots,slotCounts,last,whole,histogramEquals (by rw [failed]; rfl)⟩
          · cases read
      · cases read
  · cases read

theorem poolsRead {lines : List Text} {pools found : List NfqwsRotatorPoolState} (read : readPools pools lines = .ok found) :
    ∀ line ∈ lines, ∃ keys total pool, readPool keys total line = .ok pool := by
  induction lines generalizing pools with
  | nil =>
    intro line mem
    cases mem
  | cons first rest ih =>
    intro line mem
    rw [readPools] at read
    split at read
    · cases read
    · rename_i pool pooled
      cases mem with
      | head => exact ⟨_,_,pool,pooled⟩
      | tail _ later => exact ih read line later

theorem poolHead {lines : List Text} {found : List NfqwsRotatorPoolState} (read : readPools [] (lines.map dropReturn) = .ok found)
    (mem : line ∈ lines) : line.head? = some 'P' := by
  obtain ⟨keys,total,pool,pooled⟩ := poolsRead read _ (List.mem_map_of_mem mem)
  obtain ⟨_,_,_,_,_,cut,_⟩ := poolFields pooled
  exact fieldsHead cut rfl

end Kinds

section Splice
variable {first last first' last' : Text} {middle middle' : List Text} {snapshot snapshot' : NfqwsRotatorSnapshot}

theorem Reading.same (mine : Reading first middle last snapshot) (theirs : Reading first middle last' snapshot') :
    snapshot = snapshot' := by
  have headers := mine.header.symm.trans theirs.header
  have pools := mine.pools.symm.trans theirs.pools
  obtain ⟨_,_,_,_,_⟩ := snapshot
  obtain ⟨_,_,_,_,_⟩ := snapshot'
  cases headers
  cases pools
  rfl

theorem Reading.sequenceHeader (mine : Reading first middle last snapshot) (theirs : Reading first middle' last' snapshot') :
    snapshot.sequence = snapshot'.sequence :=
  congrArg Header.sequence (Except.ok.inj (mine.header.symm.trans theirs.header))

theorem Reading.sequenceFooter (mine : Reading first middle last snapshot) (theirs : Reading first' middle' last snapshot') :
    snapshot.sequence = snapshot'.sequence := by
  obtain ⟨_,read⟩ := mine.footer
  obtain ⟨_,read'⟩ := theirs.footer
  exact (Prod.mk.inj (Except.ok.inj (read.symm.trans read'))).1

theorem Reading.sequenceLead {lead : List Text} {rest rest' : List Text} (mine : Reading first middle last snapshot)
    (theirs : Reading first' middle' last' snapshot') (cut : fields tab first = lead ++ rest) (cut' : fields tab first' = lead ++ rest')
    (long : 2 ≤ lead.length) : snapshot.sequence = snapshot'.sequence := by
  obtain ⟨sequence,_,_,_,_,own⟩ := headerFields mine.header
  obtain ⟨sequence',_,_,_,_,their⟩ := headerFields theirs.header
  rw [own.cut] at cut
  rw [their.cut] at cut'
  match lead,long with
  | _ :: _ :: _,_ =>
    obtain ⟨rfl,_⟩ := List.cons.inj (List.cons.inj cut).2
    obtain ⟨rfl,_⟩ := List.cons.inj (List.cons.inj cut').2
    exact Option.some.inj (own.sequence.symm.trans their.sequence)

theorem Reading.sequenceTail {lead : Text} (mine : Reading first middle last snapshot)
    (theirs : Reading first' middle' (lead ++ last) snapshot') :
    snapshot.sequence = snapshot'.sequence := by
  obtain ⟨_,read⟩ := mine.footer
  obtain ⟨_,read'⟩ := theirs.footer
  obtain ⟨shown,pools,targets,cut,parsed⟩ := footerFields read
  obtain ⟨shown',pools',targets',cut',parsed'⟩ := footerFields read'
  obtain ⟨before,end_,field,after,-,tail,whole⟩ := tabSeam lead last
  rw [cut] at tail
  cases tail
  rw [cut'] at whole
  have size := congrArg List.length whole
  rw [List.length_append] at size
  have none : before = [] := List.eq_nil_of_length_eq_zero (by simpa using size)
  subst none
  obtain ⟨rfl,_⟩ := List.cons.inj (List.cons.inj whole).2
  exact Option.some.inj (parsed.symm.trans parsed')

theorem spliceBehind {before after : List Text} {field : Text} (framed : Framed (before ++ field :: after) first' middle' last')
    (mine : Reading first middle last snapshot) (theirs : Reading first' middle' last' snapshot')
    (whole : before = first :: middle ++ [last]) :
    snapshot = snapshot' := by
  -- a footer stands in no place of a pool
  have outside : last ∉ middle' := by
    intro mem
    obtain ⟨_,footed⟩ := mine.footer
    have pooled := poolHead theirs.pools mem
    rw [footerHead footed] at pooled
    exact absurd pooled (by decide)
  subst whole
  rcases framed.place with ⟨_,_,same⟩ | ⟨_,_,same⟩ | ⟨more,_,same⟩
  · obtain ⟨same,_⟩ := List.append_inj' same rfl
    obtain ⟨rfl,rfl⟩ := List.cons.inj same
    exact mine.same theirs
  · obtain ⟨rfl,rfl⟩ := List.cons.inj same
    exact absurd (List.mem_append_right _ List.mem_cons_self) outside
  · obtain ⟨rfl,rfl⟩ := List.cons.inj same
    exact absurd (List.mem_append_left _ (List.mem_append_right _ List.mem_cons_self)) outside

theorem spliceFooter {before after : List Text} {lead trail trail' : Text}
    (framed : Framed (before ++ (lead ++ trail') :: after) first' middle' last')
    (mine : Reading first middle last snapshot) (theirs : Reading first' middle' last' snapshot') (whole : before = first :: middle)
    (footer : lead ++ trail = last) (some : lead ≠ []) : snapshot = snapshot' := by
  obtain ⟨_,footed⟩ := mine.footer
  have front := footerHead footed
  obtain ⟨c,rest,rfl⟩ := List.exists_cons_of_ne_nil some
  rw [← footer] at front
  subst whole
  rcases framed.place with ⟨_,none,_⟩ | ⟨_,_,same⟩ | ⟨more,_,same⟩
  · cases none
  · obtain ⟨rfl,rfl⟩ := List.cons.inj same
    exact mine.same theirs
  · obtain ⟨rfl,rfl⟩ := List.cons.inj same
    have pooled := poolHead theirs.pools (List.mem_append_right _ List.mem_cons_self)
    cases front
    cases pooled

/- The seam lies in the header: behind its second tab the sequence is that of the one text, before it everything
else is from the other. -/
theorem spliceHeader {lead trail lead' trail' otherFirst otherLast : Text} {before more otherMiddle : List Text}
    {other : NfqwsRotatorSnapshot}
    (mine : Reading (lead ++ trail) more last snapshot) (theirs : Reading (lead ++ trail') middle' last' snapshot')
    (others : Reading otherFirst otherMiddle otherLast other) (ended : last = otherLast)
    (whole : before ++ (lead' ++ trail) :: more = otherFirst :: otherMiddle) (differ : snapshot'.sequence ≠ other.sequence) :
    snapshot = other := by
  subst ended
  have sequence := mine.sequenceFooter others
  obtain ⟨front,end_,field,after,own,tail,cut⟩ := tabSeam lead trail
  obtain ⟨front₂,end₂,field₂,after₂,own₂,_,cut₂⟩ := tabSeam lead trail'
  obtain ⟨front₃,end₃,field₃,after₃,_,tail₃,cut₃⟩ := tabSeam lead' trail
  rw [own] at own₂
  rw [tail] at tail₃
  obtain ⟨rfl,_⟩ := List.append_inj' own₂ rfl
  obtain ⟨rfl,rfl⟩ := List.cons.inj tail₃
  -- the sequence of the first text would stand beside the footer of the second
  have short : front.length < 2 := by
    by_contra long
    exact differ ((mine.sequenceLead theirs cut cut₂ (by omega)).symm.trans sequence)
  obtain ⟨s,p,t,o,r,header⟩ := headerFields mine.header
  have size := congrArg List.length cut
  rw [header.cut,List.length_append,List.length_cons] at size
  have long : 4 ≤ after.length := by
    simp only [List.length_cons,List.length_nil] at size
    omega
  cases before with
  | nil =>
    obtain ⟨rfl,rfl⟩ := List.cons.inj whole
    have headers := headerSame mine.header others.header (cut.trans (List.append_cons ..)) (cut₃.trans (List.append_cons ..)) long sequence
    have pools := mine.pools.symm.trans others.pools
    obtain ⟨_,_,_,_,_⟩ := snapshot
    obtain ⟨_,_,_,_,_⟩ := other
    cases headers
    cases pools
    rfl
  | cons line rest =>
    -- the flag of the header would be the last histogram of a pool
    obtain ⟨rfl,rfl⟩ := List.cons.inj whole
    obtain ⟨keys,total,pool,pooled⟩ := poolsRead others.pools _ (List.mem_map_of_mem (List.mem_append_right _ List.mem_cons_self))
    obtain ⟨_,_,_,_,failures,cut₄,equals⟩ := poolFields pooled
    obtain ⟨init,flag,rfl⟩ : ∃ init flag, after = init ++ [flag] := by
      rcases List.eq_nil_or_concat after with rfl | ⟨init,flag,shape⟩
      · cases long
      · exact ⟨init,flag,shape.trans (List.concat_eq_append ..)⟩
    rw [header.cut,← List.cons_append,← List.append_assoc] at cut
    rw [cut₄,← List.cons_append,← List.append_assoc] at cut₃
    obtain ⟨_,flagged⟩ := List.append_inj' (show [text "V1",s,p,t,o] ++ [r] = _ from cut) rfl
    obtain ⟨_,failed⟩ := List.append_inj' (show [_,_,_,_,_] ++ [failures] = _ from cut₃) rfl
    cases (List.singleton_inj.mp flagged).trans (List.singleton_inj.mp failed).symm
    obtain ⟨value,parsed,_⟩ := Option.map_eq_some_iff.mp header.truncated
    exact absurd (integerDigits parsed _ equals) (by decide)

theorem spliceRead {front back frontRest backLead : Text} {left right whole : NfqwsRotatorSnapshot}
    (leftRead : parseNfqwsRotatorSnapshot (front ++ frontRest) = .ok left)
    (rightRead : parseNfqwsRotatorSnapshot (backLead ++ back) = .ok right)
    (differ : left.sequence ≠ right.sequence) (read : parseNfqwsRotatorSnapshot (front ++ back) = .ok whole) :
    whole = left ∨ whole = right := by
  obtain ⟨first,middle,last,framed,mine⟩ := parsedReading read
  obtain ⟨first₁,middle₁,last₁,framed₁,lefts⟩ := parsedReading leftRead
  obtain ⟨first₂,middle₂,last₂,framed₂,rights⟩ := parsedReading rightRead
  obtain ⟨before,lead,trail,after,own,tail,cut⟩ : ∃ before lead trail after, fields newline front = before ++ [lead] ∧
    fields newline back = trail :: after ∧ fields newline (front ++ back) = before ++ (lead ++ trail) :: after := fieldsAppend front back
  obtain ⟨before₁,lead₁,trail₁,after₁,own₁,_,cut₁⟩ : ∃ before lead trail after, fields newline front = before ++ [lead] ∧
    fields newline frontRest = trail :: after ∧ fields newline (front ++ frontRest) = before ++ (lead ++ trail) :: after :=
      fieldsAppend front frontRest
  obtain ⟨before₂,lead₂,trail₂,after₂,_,tail₂,cut₂⟩ : ∃ before lead trail after, fields newline backLead = before ++ [lead] ∧
    fields newline back = trail :: after ∧ fields newline (backLead ++ back) = before ++ (lead ++ trail) :: after :=
      fieldsAppend backLead back
  rw [own] at own₁
  rw [tail] at tail₂
  obtain ⟨rfl,same⟩ := List.append_inj' own₁ rfl
  cases List.singleton_inj.mp same
  obtain ⟨rfl,rfl⟩ := List.cons.inj tail₂
  rw [cut] at framed
  rw [cut₁] at framed₁
  rw [cut₂] at framed₂
  have filled := framed.filled
  rcases framed.place with ⟨_,_,all⟩ | ⟨short,footer,all⟩ | ⟨more,ended,all⟩
  · exact .inl (spliceBehind framed₁ mine lefts all)
  · by_cases cutOff : lead = []
    · -- the header is that of the left text and the footer ends that of the right
      subst cutOff
      subst all
      have headed : first = first₁ := by
        rcases framed₁.shape with shape | shape <;> exact (List.cons.inj shape).1
      subst headed
      subst footer
      have footed : lead₂ ++ trail = last₂ := by
        rcases framed₂.place with ⟨_,none,_⟩ | ⟨_,same,_⟩ | ⟨more,ended,_⟩
        · exact absurd (List.append_eq_nil_iff.mp none).2 filled
        · exact same
        · have size : after.length ≤ 1 := by rcases short with rfl | rfl <;> decide
          rcases ended with ended | ended <;> rw [ended] at size short
          · rcases short with short | short
            · simp at short
            · obtain ⟨_,empty⟩ := List.append_inj' (show more ++ [last₂] = [] ++ [[]] from short) rfl
              exact absurd (List.singleton_inj.mp empty) framed₂.filled
          · simp at size
      subst footed
      exact absurd ((mine.sequenceHeader lefts).symm.trans (mine.sequenceTail rights)) differ
    · exact .inl (spliceFooter framed₁ mine lefts all footer cutOff)
  · obtain ⟨footed,others⟩ := framed₂.placeBefore ended filled
    cases before with
    | nil =>
      obtain ⟨rfl,rfl⟩ := List.cons.inj all
      have headed : lead ++ trail₁ = first₁ := by
        rcases framed₁.shape with shape | shape <;> exact (List.cons.inj shape).1
      subst headed
      exact .inr (spliceHeader mine lefts rights footed others differ)
    | cons line rest =>
      have headed : line = first := (List.cons.inj all).1
      have headed₁ : line = first₁ := by
        rcases framed₁.shape with shape | shape <;> exact (List.cons.inj shape).1
      subst headed
      subst headed₁
      subst footed
      exact absurd ((mine.sequenceHeader lefts).symm.trans (mine.sequenceFooter rights)) differ

/- A file that was torn, or put together from the front of one snapshot and the back of another, is read as one of the two or refused. -/
theorem tornNeverThird {left right torn : Text} {leftSnapshot rightSnapshot snapshot : NfqwsRotatorSnapshot}
    (leftRead : parseNfqwsRotatorSnapshot left = .ok leftSnapshot) (rightRead : parseNfqwsRotatorSnapshot right = .ok rightSnapshot)
    (differ : leftSnapshot.sequence ≠ rightSnapshot.sequence)
    (made : (torn <+: left ∧ torn ≠ left) ∨ ∃ front back, front <+: left ∧ back <:+ right ∧ torn = front ++ back)
    (read : parseNfqwsRotatorSnapshot torn = .ok snapshot) : snapshot = leftSnapshot ∨ snapshot = rightSnapshot := by
  rcases made with ⟨⟨rest,rfl⟩,_⟩ | ⟨front,back,⟨rest,rfl⟩,⟨lead,rfl⟩,rfl⟩
  · have whole : torn ++ [] = torn := List.append_nil torn
    have rightWhole : right ++ [] = right := List.append_nil right
    exact spliceRead leftRead (rightWhole.symm ▸ rightRead) differ (whole.symm ▸ read)
  · exact spliceRead leftRead rightRead differ read

def earlierText : Text := text "V1\t1\t5\t9\t7\t0\nP\t6161\t2\t1=2\t3=2\t0=2\nEND\t1\t1\t2\n"

def earlierSnapshot : NfqwsRotatorSnapshot := ⟨1,⟨5,9⟩,7,false,[⟨text "aa",2,[(1,2)],[(3,2)],[(0,2)]⟩]⟩

def laterText : Text := text "V1\t2\t5\t9\t8\t0\nP\t6161\t2\t1=1,2=1\t3=2\t0=1,1=1\nEND\t2\t1\t2\n"

def laterSnapshot : NfqwsRotatorSnapshot := ⟨2,⟨5,9⟩,8,false,[⟨text "aa",2,[(1,1),(2,1)],[(3,2)],[(0,1),(1,1)]⟩]⟩

/- The tag of the earlier header with the rest of the later file; its header and pool with the later footer; and the
earlier file without its last line end. -/
theorem tornNeverThirdCut :
    (∃ snapshot, parseNfqwsRotatorSnapshot (earlierText.take 3 ++ laterText.drop 3) = .ok snapshot ∧
      (snapshot = earlierSnapshot ∨ snapshot = laterSnapshot)) ∧
    parseNfqwsRotatorSnapshot (earlierText.take 34 ++ laterText.drop 42) = .error "snapshot footer is invalid" ∧
    ∃ snapshot, parseNfqwsRotatorSnapshot earlierText.dropLast = .ok snapshot ∧
      (snapshot = earlierSnapshot ∨ snapshot = laterSnapshot) := by
  have left : parseNfqwsRotatorSnapshot earlierText = .ok earlierSnapshot := by decide
  have right : parseNfqwsRotatorSnapshot laterText = .ok laterSnapshot := by decide
  have spliced : parseNfqwsRotatorSnapshot (earlierText.take 3 ++ laterText.drop 3) = .ok laterSnapshot := by decide
  have cut : parseNfqwsRotatorSnapshot earlierText.dropLast = .ok earlierSnapshot := by decide
  refine ⟨⟨_,spliced,tornNeverThird left right (by decide) (.inr ?_) spliced⟩,by decide,_,cut,tornNeverThird left right
    (by decide) (.inl ?_) cut⟩
  · exact ⟨_,_,List.take_prefix 3 earlierText,List.drop_suffix 3 laterText,rfl⟩
  · exact ⟨List.dropLast_prefix earlierText,by decide⟩

end Splice
end KeenPbr.Rotator
