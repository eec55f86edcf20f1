import KeenPbr.RtnetlinkCodec

/-! Blocks of a dump: the parser ends, a failure carries no object, and whole messages compose. -/
namespace KeenPbr.Rtnetlink

/- The longest block for which NLMSG_ALIGN of a length inside it does not wrap. A caller receives 65536 bytes at most. -/
def blockLimit : Nat := 4294967292

theorem alignFits {length : UInt32} (fits : length.toNat ≤ blockLimit) : (nlmsgAlign length).toNat = (length.toNat + 3) / 4 * 4 := by
  unfold blockLimit at fits
  have three : (3 : UInt32).toNat = 3 := rfl
  have four : (4 : UInt32).toNat = 4 := rfl
  rw [nlmsgAlign,UInt32.toNat_mul,UInt32.toNat_div,UInt32.toNat_add,three,four]
  omega

theorem nextWithin {length : UInt32} {remaining next : Nat} (inside : length.toNat ≤ remaining) (fits : remaining ≤ blockLimit)
    (found : nextOffset length remaining = some next) :
    length.toNat ≤ next ∧ next ≤ remaining ∧ (4 ∣ remaining → next = (length.toNat + 3) / 4 * 4) := by
  unfold nextOffset at found
  rw [alignFits (Nat.le_trans inside fits)] at found
  split at found
  · rename_i whole
    cases found
    exact ⟨by omega,whole,fun _ => rfl⟩
  · rename_i cut
    split at found
    · cases found
      exact ⟨inside,Nat.le_refl _,fun aligned => by omega⟩
    · cases found

section Messages
variable {platform : Platform} {options : RawRtnetlinkDumpOptions} {α : Type} {expectedType : UInt16}
    {decode : List UInt8 → Option (Option α)}
  {rest : List UInt8}

theorem payloadGoes {type : UInt16} {payload : List UInt8} {next remaining length : Nat} {item : Option α}
    (goes : readPayload platform expectedType decode type payload next remaining = .goes length item) :
    length = next ∧ ∀ other more, readPayload platform expectedType decode type payload other more = .goes other item := by
  unfold readPayload at *
  split at goes
  · rename_i error
    split at goes
    · cases goes
    · rename_i whole
      split at goes
      · cases goes
      · rename_i clean
        cases goes
        refine ⟨rfl,fun other more => ?_⟩
        rw [if_pos error,if_neg whole,if_neg clean]
  · rename_i error
    split at goes
    · split at goes
      · cases goes
      · split at goes
        · cases goes
        · split at goes
          · cases goes
          · cases goes
    · rename_i done
      split at goes
      · cases goes
      · rename_i overrun
        split at goes
        · rename_i noop
          cases goes
          refine ⟨rfl,fun other more => ?_⟩
          rw [if_neg error,if_neg done,if_neg overrun,if_pos noop]
        · rename_i noop
          split at goes
          · cases goes
          · rename_i expected
            split at goes
            · cases goes
            · rename_i item decoded
              cases goes
              refine ⟨rfl,fun other more => ?_⟩
              rw [if_neg error,if_neg done,if_neg overrun,if_neg noop,if_neg expected]

theorem payloadFails {type : UInt16} {payload : List UInt8} {next remaining : Nat} {state : RawRtnetlinkDumpState} {error : Int}
    (fails : readPayload platform expectedType decode type payload next remaining = .fails state error) :
    state ≠ .more ∧ state ≠ .done := by
  unfold readPayload at fails
  repeat' split at fails
  all_goals cases fails
  all_goals exact ⟨by decide,by decide⟩

theorem messageFails {state : RawRtnetlinkDumpState} {error : Int}
    (fails : readMessage platform options expectedType decode rest = .fails state error) : state ≠ .more ∧ state ≠ .done := by
  unfold readMessage at fails
  dsimp only at fails
  split at fails
  · cases fails
    exact ⟨by decide,by decide⟩
  · split at fails
    · cases fails
      exact ⟨by decide,by decide⟩
    · split at fails
      · cases fails
        exact ⟨by decide,by decide⟩
      · split at fails
        · cases fails
          exact ⟨by decide,by decide⟩
        · split at fails
          · cases fails
            exact ⟨by decide,by decide⟩
          · split at fails
            · cases fails
              exact ⟨by decide,by decide⟩
            · exact payloadFails fails

theorem frontSame (later : List UInt8) {offset size : Nat} (inside : offset + size ≤ rest.length) :
    ((rest ++ later).drop offset).take size = (rest.drop offset).take size := by
  rw [List.drop_append_of_le_length (by omega),List.take_append_of_le_length (by rw [List.length_drop]; omega)]

variable (platform) in
theorem headerSame (later : List UInt8) (whole : 16 ≤ rest.length) :
    platform.u32 (rest ++ later) 0 = platform.u32 rest 0 ∧ platform.u16 (rest ++ later) 4 = platform.u16 rest 4 ∧
      platform.u16 (rest ++ later) 6 = platform.u16 rest 6 ∧ platform.u32 (rest ++ later) 8 = platform.u32 rest 8 ∧
      platform.u32 (rest ++ later) 12 = platform.u32 rest 12 := by
  unfold Platform.u32 Platform.u16
  refine ⟨?_,?_,?_,?_,?_⟩
  all_goals rw [frontSame later (by omega)]

/- A message that is passed over lies in the block, and what follows a block of whole messages leaves it alone. -/
theorem messageGoes {length : Nat} {item : Option α} (fits : rest.length ≤ blockLimit)
    (goes : readMessage platform options expectedType decode rest = .goes length item) :
    16 ≤ length ∧ length ≤ rest.length ∧ (4 ∣ rest.length → 4 ∣ length ∧
      ∀ later, readMessage platform options expectedType decode (rest ++ later) = .goes length item) := by
  unfold readMessage at goes
  dsimp only at goes
  split at goes
  · cases goes
  · rename_i whole
    split at goes
    · cases goes
    · rename_i framed
      split at goes
      · cases goes
      · rename_i sequence
        split at goes
        · cases goes
        · rename_i port
          split at goes
          · cases goes
          · rename_i uninterrupted
            split at goes
            · cases goes
            · rename_i next found
              obtain ⟨same,again⟩ := payloadGoes goes
              obtain ⟨long,short⟩ := not_or.mp framed
              obtain ⟨after,within,place⟩ := nextWithin (Nat.le_of_not_lt short) fits found
              subst same
              refine ⟨by omega,within,fun aligned => ⟨?_,fun later => ?_⟩⟩
              · rw [place aligned]
                exact Nat.dvd_mul_left 4 _
              · obtain ⟨size,kind,flags,number,owner⟩ := headerSame platform later (Nat.le_of_not_lt whole)
                have total : (rest ++ later).length = rest.length + later.length := List.length_append
                have behind : nextOffset (platform.u32 rest 0) (rest ++ later).length = some length := by
                  have wide := alignFits (Nat.le_trans (Nat.le_of_not_lt short) fits)
                  unfold nextOffset
                  rw [wide,← place aligned,if_pos (by omega)]
                unfold readMessage
                dsimp only
                rw [size,kind,flags,number,owner,if_neg (by omega),if_neg (by omega),if_neg sequence,if_neg port,
                  if_neg uninterrupted,behind]
                dsimp only
                rw [frontSame later (by omega)]
                exact again length _

end Messages

section Loop
variable {platform : Platform} {options : RawRtnetlinkDumpOptions} {α : Type} {expectedType : UInt16}
    {decode : List UInt8 → Option (Option α)}

theorem parseStep (rounds : Nat) {rest : List UInt8} (items : List α) (filled : rest ≠ []) :
    parseFrom platform options expectedType decode (rounds + 1) rest items =
      match readMessage platform options expectedType decode rest with
      | .fails state kernelError => some ⟨state,kernelError,[]⟩
      | .done => some ⟨.done,0,items⟩
      | .goes length item => parseFrom platform options expectedType decode rounds (rest.drop length) (items ++ item.toList) := by
  have some_ : rest.isEmpty = false := List.isEmpty_eq_false_iff.mpr filled
  rw [parseFrom,some_]
  exact if_neg Bool.false_ne_true

theorem parseEnds (rest : List UInt8) (items : List α) (fits : rest.length ≤ blockLimit) :
    ∃ block, ∀ rounds > rest.length, parseFrom platform options expectedType decode rounds rest items = some block := by
  induction size : rest.length using Nat.strongRecOn generalizing rest items with
  | ind size ih =>
    by_cases filled : rest = []
    · refine ⟨⟨.more,0,items⟩,fun rounds enough => ?_⟩
      obtain ⟨rounds,rfl⟩ := Nat.exists_eq_succ_of_ne_zero (by omega : rounds ≠ 0)
      rw [filled]
      rfl
    · cases read : readMessage platform options expectedType decode rest with
      | fails state error =>
        refine ⟨⟨state,error,[]⟩,fun rounds enough => ?_⟩
        obtain ⟨rounds,rfl⟩ := Nat.exists_eq_succ_of_ne_zero (by omega : rounds ≠ 0)
        rw [parseStep rounds items filled,read]
      | done =>
        refine ⟨⟨.done,0,items⟩,fun rounds enough => ?_⟩
        obtain ⟨rounds,rfl⟩ := Nat.exists_eq_succ_of_ne_zero (by omega : rounds ≠ 0)
        rw [parseStep rounds items filled,read]
      | goes length item =>
        obtain ⟨long,within,_⟩ := messageGoes fits read
        have shorter : (rest.drop length).length = rest.length - length := List.length_drop
        obtain ⟨block,ends⟩ := ih (rest.drop length).length (by omega) (rest.drop length) (items ++ item.toList) (by omega) rfl
        refine ⟨block,fun rounds enough => ?_⟩
        obtain ⟨rounds,rfl⟩ := Nat.exists_eq_succ_of_ne_zero (by omega : rounds ≠ 0)
        rw [parseStep rounds items filled,read]
        exact ends rounds (by omega)

theorem failureEmpty {rounds : Nat} {rest : List UInt8} {items : List α} {block : DumpBlock α}
    (parsed : parseFrom platform options expectedType decode rounds rest items = some block) (open_ : block.state ≠ .more)
    (over_ : block.state ≠ .done) :
    block.items = [] := by
  induction rounds generalizing rest items with
  | zero => cases parsed
  | succ rounds ih =>
    by_cases filled : rest = []
    · rw [filled] at parsed
      cases parsed
      exact absurd rfl open_
    · rw [parseStep rounds items filled] at parsed
      split at parsed
      · cases parsed
        rfl
      · cases parsed
        exact absurd rfl over_
      · exact ih parsed

def DumpBlock.after (items : List α) (block : DumpBlock α) : DumpBlock α :=
  if block.state = .more ∨ block.state = .done then { block with items := items ++ block.items } else block

theorem parseAfter (rounds : Nat) (rest : List UInt8) (items early : List α) :
    parseFrom platform options expectedType decode rounds rest (early ++ items) =
      (parseFrom platform options expectedType decode rounds rest items).map (DumpBlock.after early) := by
  induction rounds generalizing rest items with
  | zero => rfl
  | succ rounds ih =>
    by_cases filled : rest = []
    · rw [filled]
      rfl
    · rw [parseStep rounds _ filled,parseStep rounds items filled]
      cases read : readMessage platform options expectedType decode rest with
      | fails state error =>
        obtain ⟨open_,over_⟩ := messageFails read
        simp [DumpBlock.after,open_,over_]
      | done => rfl
      | goes length item =>
        dsimp only
        rw [List.append_assoc]
        exact ih _ _

theorem parseThrough (rest later : List UInt8) (items : List α) (fits : rest.length ≤ blockLimit) (aligned : 4 ∣ rest.length)
    {rounds : Nat} {block : DumpBlock α}
    (parsed : parseFrom platform options expectedType decode rounds rest items = some block) (open_ : block.state = .more) :
    ∃ spent ≤ rest.length, ∀ left, parseFrom platform options expectedType decode (left + spent) (rest ++ later) items =
      parseFrom platform options expectedType decode left later block.items := by
  induction rounds generalizing rest items with
  | zero => cases parsed
  | succ rounds ih =>
    by_cases filled : rest = []
    · rw [filled] at parsed ⊢
      cases parsed
      exact ⟨0,Nat.le_refl 0,fun left => rfl⟩
    · rw [parseStep rounds items filled] at parsed
      cases read : readMessage platform options expectedType decode rest with
      | fails state error =>
        rw [read] at parsed
        cases parsed
        exact absurd open_ (messageFails read).1
      | done =>
        rw [read] at parsed
        cases parsed
        cases open_
      | goes length item =>
        rw [read] at parsed
        obtain ⟨long,within,whole⟩ := messageGoes fits read
        obtain ⟨step,again⟩ := whole aligned
        have shorter : (rest.drop length).length = rest.length - length := List.length_drop
        obtain ⟨spent,few,rest_⟩ := ih (rest.drop length) (items ++ item.toList) (by omega) (by omega) parsed
        refine ⟨spent + 1,by omega,fun left => ?_⟩
        have joined : rest ++ later ≠ [] := fun none_ => filled (List.append_eq_nil_iff.mp none_).1
        rw [← Nat.add_assoc,parseStep _ items joined,again later]
        dsimp only
        rw [List.drop_append_of_le_length within]
        exact rest_ left

end Loop

section Laws

/- The result of a block, once the loop has the rounds it needs. -/
def Parsed {α : Type} (parse : Nat → List UInt8 → Option (DumpBlock α)) (bytes : List UInt8) (block : DumpBlock α) : Prop :=
  ∀ rounds > bytes.length, parse rounds bytes = some block

structure Trustworthy {α : Type} (parse : Nat → List UInt8 → Option (DumpBlock α)) : Prop where
  ends : ∀ bytes, bytes.length ≤ blockLimit → ∃ block, Parsed parse bytes block
  failure : ∀ rounds bytes block, parse rounds bytes = some block → block.state ≠ .more → block.state ≠ .done → block.items = []
  composed : ∀ first second one two, (first ++ second).length ≤ blockLimit → 4 ∣ first.length → second ≠ [] →
    Parsed parse first one → one.state = .more → Parsed parse second two → Parsed parse (first ++ second) (two.after one.items)

variable (platform : Platform) (options : RawRtnetlinkDumpOptions) {α : Type} (expectedType : UInt16)
    (decode : List UInt8 → Option (Option α))

theorem blockLoop {bytes : List UInt8} (filled : bytes ≠ []) {rounds : Nat} (some_ : 0 < rounds) :
    parseDumpBlock platform options expectedType decode rounds bytes = parseFrom platform options expectedType decode rounds bytes [] := by
  unfold parseDumpBlock
  split
  · rename_i short
    obtain ⟨rounds,rfl⟩ := Nat.exists_eq_succ_of_ne_zero (by omega : rounds ≠ 0)
    rw [parseStep rounds [] filled,readMessage,if_pos short]
  · rfl

theorem blockTrustworthy : Trustworthy (parseDumpBlock platform options expectedType decode) := by
  refine ⟨fun bytes fits => ?_,fun rounds bytes block parsed open_ over_ => ?_,?_⟩
  · by_cases short : bytes.length < 16
    · exact ⟨⟨.malformed,0,[]⟩,fun rounds _ => if_pos short⟩
    · obtain ⟨block,ends⟩ := @parseEnds platform options α expectedType decode bytes [] fits
      exact ⟨block,fun rounds enough => (if_neg short).trans (ends rounds enough)⟩
  · unfold parseDumpBlock at parsed
    split at parsed
    · cases parsed
      rfl
    · exact failureEmpty parsed open_ over_
  · intro first second one two fits aligned filled parsedFirst open_ parsedSecond rounds enough
    rw [List.length_append] at fits enough
    have own := parsedFirst (first.length + 1) (by omega)
    have present : first ≠ [] := by
      rintro rfl
      cases own
      cases open_
    have joined : first ++ second ≠ [] := fun none_ => present (List.append_eq_nil_iff.mp none_).1
    rw [blockLoop platform options expectedType decode present (by omega)] at own
    obtain ⟨spent,few,through⟩ := parseThrough first second [] (by omega) aligned own open_
    have rest := parsedSecond (rounds - spent) (by omega)
    rw [blockLoop platform options expectedType decode filled (by omega)] at rest
    have behind := @parseAfter platform options α expectedType decode (rounds - spent) second [] one.items
    rw [List.append_nil,rest,Option.map_some] at behind
    rw [blockLoop platform options expectedType decode joined (by omega),← Nat.sub_add_cancel (by omega : spent ≤ rounds),through]
    exact behind

end Laws

/- Both inventories. -/
theorem dumpBlocksCompose (platform : Platform) (inet : Inet) (options : RawRtnetlinkDumpOptions) :
    Trustworthy (parseRawRtnetlinkRouteDumpBlock platform inet options) ∧ Trustworthy (parseRawRtnetlinkRuleDumpBlock platform options) :=
  ⟨blockTrustworthy platform options rtmNewroute (decodeDumpedRoute platform inet options),
    blockTrustworthy platform options rtmNewrule fun payload => (decodeRule platform payload).map some⟩

section Exceptions

def littleEndian : Platform := ⟨.little,105⟩

def header (length : List UInt8) (type : UInt8) : List UInt8 := length ++ [type,0,0,0,0,0,0,0,0,0,0,0]

def unpaddedNoop : List UInt8 := header [17,0,0,0] 1 ++ [0]

def done : List UInt8 := header [16,0,0,0] 3

def overrun : List UInt8 := header [16,0,0,0] 4

def mainRule : List UInt8 := header [28,0,0,0] 32 ++ [2,0,0,0,254,0,0,1,0,0,0,0]

/- A message whose length wraps to nothing when it is aligned. -/
def wrapping : List UInt8 := header [253,255,255,255] 1 ++ List.replicate 4294967277 0

theorem wrappingGoes : readMessage littleEndian {} rtmNewrule
    (fun payload => (decodeRule littleEndian payload).map some) wrapping = .goes 0 none := by
  have total : wrapping.length = 4294967293 := by
    rw [wrapping,List.length_append,List.length_replicate]
    rfl
  obtain ⟨size,kind,flags,number,owner⟩ := headerSame littleEndian (List.replicate 4294967277 0)
    (Nat.le_refl (header [253,255,255,255] 1).length)
  change littleEndian.u32 wrapping 0 = _ at size
  change littleEndian.u16 wrapping 4 = _ at kind
  change littleEndian.u16 wrapping 6 = _ at flags
  change littleEndian.u32 wrapping 8 = _ at number
  change littleEndian.u32 wrapping 12 = _ at owner
  have length : littleEndian.u32 (header [253,255,255,255] 1) 0 = 4294967293 := by decide
  have next : nextOffset 4294967293 4294967293 = some 0 := by decide
  unfold readMessage
  dsimp only
  rw [size,kind,flags,number,owner,length,total,next]
  rfl

theorem wrappingLoops (rounds : Nat) : parseRawRtnetlinkRuleDumpBlock littleEndian {} rounds wrapping = none := by
  have filled : wrapping ≠ [] := List.cons_ne_nil _ _
  have turns : ∀ rounds items, parseFrom littleEndian {} rtmNewrule
    (fun payload => (decodeRule littleEndian payload).map some) rounds wrapping items = none := by
    intro rounds
    induction rounds with
    | zero => exact fun _ => rfl
    | succ rounds ih =>
      intro items
      rw [parseStep rounds items filled,wrappingGoes]
      exact ih _
  have long : ¬ wrapping.length < 16 := by
    rw [wrapping,List.length_append,List.length_replicate]
    omega
  unfold parseRawRtnetlinkRuleDumpBlock parseDumpBlock
  rw [if_neg long]
  exact turns rounds []

/- A last message without its alignment bytes, a failure behind a whole block, and the length that wraps. -/
theorem blocksDoNotAlwaysCompose :
    (parseRawRtnetlinkRuleDumpBlock littleEndian {} 40 unpaddedNoop = some ⟨.more,0,[]⟩ ∧
      parseRawRtnetlinkRuleDumpBlock littleEndian {} 40 done = some ⟨.done,0,[]⟩ ∧
      parseRawRtnetlinkRuleDumpBlock littleEndian {} 40 (unpaddedNoop ++ done) = some ⟨.malformed,0,[]⟩) ∧
    (parseRawRtnetlinkRuleDumpBlock littleEndian {} 60 mainRule = some ⟨.more,0,[{ family := afInet, table := 254 }]⟩ ∧
      parseRawRtnetlinkRuleDumpBlock littleEndian {} 60 overrun = some ⟨.kernelError,-105,[]⟩ ∧
      parseRawRtnetlinkRuleDumpBlock littleEndian {} 60 (mainRule ++ overrun) = some ⟨.kernelError,-105,[]⟩) ∧
    ∀ rounds, parseRawRtnetlinkRuleDumpBlock littleEndian {} rounds wrapping = none :=
  ⟨⟨by decide,by decide,by decide⟩,⟨by decide,by decide,by decide⟩,wrappingLoops⟩

end Exceptions

end KeenPbr.Rtnetlink
