import KeenPbr.DnsAddresses
import KeenPbr.Rounds

/-! dns/dns_probe_server.cpp: the parser of a query, the builder of its response and the length in front of a
response over TCP. Times, sockets and the log are left out. -/
namespace KeenPbr.DnsProbe
open Rounds

def dnsHeaderSize : Nat := 12
def dnsTypeOpt : UInt16 := 41
def dnsFlagQr : UInt16 := 0x8000
def dnsFlagRd : UInt16 := 0x0100
def dnsEdnsOptionEcs : UInt16 := 8
def kMaxTcpBufferSize : Nat := 16384

structure DnsProbeQuestion where
  id : UInt16 := 0
  flags : UInt16 := 0
  name : List UInt8
  ecs : Option String := none
  questionWire : List UInt8
  deriving DecidableEq, Repr

section Bytes

def byteAt (packet : List UInt8) (pos : Nat) : UInt8 := packet.getD pos 0

def slice (packet : List UInt8) (pos length : Nat) : List UInt8 := (packet.drop pos).take length

def readU16 (packet : List UInt8) (offset : Nat) :
    UInt16 := .ofNat (256 * (byteAt packet offset).toNat + (byteAt packet (offset + 1)).toNat)

def appendU16 (value : UInt16) : List UInt8 := [.ofNat (value.toNat / 256),.ofNat (value.toNat % 256)]

def appendU32 (value : UInt32) : List UInt8 :=
  [.ofNat (value.toNat / 16777216),.ofNat (value.toNat / 65536 % 256),.ofNat (value.toNat / 256 % 256),.ofNat (value.toNat % 256)]

end Bytes

section Parser
variable (inet : Inet) (packet : List UInt8)

def normalizeDnsName (labels : List (List UInt8)) : List UInt8 :=
  let name := [46].intercalate labels
  if name.isEmpty then [46] else name

def nameLengthFrom (pos : Nat) : Nat → Nat → Except String Nat
  | left, cursor =>
    if cursor ≥ packet.length then .error "DNS name truncated"
    else
      let len := byteAt packet cursor
      if len = 0 then .ok (cursor - pos + 1)
      else if len &&& 0xC0 = 0xC0 then
        if cursor + 1 ≥ packet.length then .error "DNS compression pointer truncated" else .ok (cursor - pos + 2)
      else if len &&& 0xC0 ≠ 0 then .error "DNS name label invalid"
      else
        match left with
        | 0 => .error "DNS name parse exceeded limit"
        | left + 1 => nameLengthFrom pos left (cursor + 1 + len.toNat)

def readNameLength (pos : Nat) : Except String Nat := nameLengthFrom packet pos 128 pos

def subnetText (family : Int) (width : Nat) (address : List UInt8) (sourcePrefix : Nat) : Option String :=
  (inet.ntop family (address ++ List.replicate (width - address.length) 0)).map fun shown => shown ++ "/" ++ toString sourcePrefix

def parseEcsOption (optionData : List UInt8) : Option String :=
  if optionData.length < 4 then none
  else
    let family := readU16 optionData 0
    let sourcePrefix := (byteAt optionData 2).toNat
    let address := optionData.drop 4
    if family = 1 then
      if sourcePrefix > 32 || address.length > 4 then none else subnetText inet afInet 4 address sourcePrefix
    else if family = 2 then
      if sourcePrefix > 128 || address.length > 16 then none else subnetText inet afInet6 16 address sourcePrefix
    else none

def optionRound (optEnd optPos : Nat) : Nat ⊕ Option String :=
  if optPos + 4 ≤ optEnd then
    let optionLen := (readU16 packet (optPos + 2)).toNat
    if optPos + 4 + optionLen > optEnd then .inr none
    else
      match if readU16 packet optPos = dnsEdnsOptionEcs then parseEcsOption inet (slice packet (optPos + 4) optionLen) else none with
      | some ecs => .inr (some ecs)
      | none => .inl (optPos + 4 + optionLen)
  else .inr none

def readOptions (fuel pos rdlen : Nat) : Option (Option String) :=
  if readU16 packet pos = dnsTypeOpt then loop (optionRound inet packet (pos + 10 + rdlen)) fuel (pos + 10) else some none

def ednsRound (fuel : Nat) (arcount : UInt16) (state : UInt16 × Nat) : UInt16 × Nat ⊕ Option (Except String (Option String)) :=
  if state.1 < arcount then
    match readNameLength packet state.2 with
    | .error error => .inr (some (.error error))
    | .ok nameLen =>
      let pos := state.2 + nameLen
      if pos + 10 > packet.length then .inr (some (.error "DNS additional record truncated"))
      else
        let rdlen := (readU16 packet (pos + 8)).toNat
        if pos + 10 + rdlen > packet.length then .inr (some (.error "DNS additional record payload truncated"))
        else
          match readOptions inet packet fuel pos rdlen with
          | none => .inr none
          | some (some ecs) => .inr (some (.ok (some ecs)))
          | some none => .inl (state.1 + 1,pos + 10 + rdlen)
  else .inr (some (.ok none))

def parseEdnsClientSubnet (fuel pos : Nat) (arcount : UInt16) : Option (Except String (Option String)) :=
  (loop (ednsRound inet packet fuel arcount) fuel (0,pos)).join

structure Qname where
  labels : List (List UInt8) := []
  wire : List UInt8 := []
  pos : Nat := dnsHeaderSize

def qnameRound (state : Qname) : Qname ⊕ Except String Qname :=
  if state.pos ≥ packet.length then .inr (.error "DNS probe qname truncated")
  else
    let len := byteAt packet state.pos
    if len = 0 then .inr (.ok ⟨state.labels,state.wire ++ [len],state.pos + 1⟩)
    else if len &&& 0xC0 ≠ 0 then .inr (.error "DNS probe does not accept compressed questions")
    else if state.pos + 1 + len.toNat > packet.length then .inr (.error "DNS probe qname label truncated")
    else
      let label := slice packet (state.pos + 1) len.toNat
      .inl ⟨state.labels ++ [label],state.wire ++ len :: label,state.pos + 1 + len.toNat⟩

/- One record of the answers and authorities. The counter has 16 bits and the two counts together may have 17. -/
def recordRound (count : Nat) (state : UInt16 × Nat) : UInt16 × Nat ⊕ Except String Nat :=
  if state.1.toNat < count then
    match readNameLength packet state.2 with
    | .error error => .inr (.error error)
    | .ok nameLen =>
      let pos := state.2 + nameLen
      if pos + 10 > packet.length then .inr (.error "DNS record truncated")
      else
        let rdlen := (readU16 packet (pos + 8)).toNat
        if pos + 10 + rdlen > packet.length then .inr (.error "DNS record payload truncated")
        else .inl (state.1 + 1,pos + 10 + rdlen)
  else .inr (.ok state.2)

def readRecords (fuel pos : Nat) : Option (Except String (Option String)) :=
  match loop (recordRound packet ((readU16 packet 6).toNat + (readU16 packet 8).toNat)) fuel (0,pos) with
  | none => none
  | some (.error error) => some (.error error)
  | some (.ok pos) => parseEdnsClientSubnet inet packet fuel pos (readU16 packet 10)

def parseDnsProbeQuery (fuel : Nat) : Option (Except String DnsProbeQuestion) :=
  if packet.length < dnsHeaderSize then some (.error "DNS probe packet too short")
  else if readU16 packet 4 ≠ 1 then some (.error "DNS probe expects exactly one question")
  else
    match loop (qnameRound packet) fuel {} with
    | none => none
    | some (.error error) => some (.error error)
    | some (.ok qname) =>
      if qname.pos + 4 > packet.length then some (.error "DNS probe question footer truncated")
      else
        match readRecords inet packet fuel (qname.pos + 4) with
        | none => none
        | some (.error error) => some (.error error)
        | some (.ok ecs) =>
          some (.ok ⟨readU16 packet 0,readU16 packet 2,normalizeDnsName qname.labels,ecs,qname.wire ++ slice packet qname.pos 4⟩)

end Parser

section Response
variable (inet : Inet)

def isValidIpv4 (ip : Text) : Bool := (inet.pton afInet (cString ip)).isSome

def buildDnsProbeResponse (question : DnsProbeQuestion) (answerIpv4 : Text) : Except String (List UInt8) :=
  if !isValidIpv4 inet answerIpv4 then .error ("Invalid DNS probe answer IPv4: " ++ String.ofList answerIpv4)
  else
    .ok (appendU16 question.id ++ appendU16 (dnsFlagQr ||| (question.flags &&& dnsFlagRd)) ++ appendU16 1 ++ appendU16 1 ++ appendU16 0 ++
      appendU16 0 ++ question.questionWire ++
      -- the name points at the question; type A, class IN, no time to live, four bytes
      (appendU16 0xC00C ++ appendU16 1 ++ appendU16 1 ++ appendU32 0 ++ appendU16 4 ++
        (inet.pton afInet (cString answerIpv4)).getD [0,0,0,0]))

end Response

section Tcp

structure TcpClientState where
  buffer : List UInt8 := []
  haveSize : Bool := false
  expectedSize : UInt16 := 0

inductive TcpRead where
  | waits (state : TcpClientState)
  | closed
  | packet (packet : List UInt8)

def takeSize (state : TcpClientState) (buffer : List UInt8) : TcpClientState :=
  if !state.haveSize && buffer.length ≥ 2 then ⟨buffer,true,readU16 buffer 0⟩ else ⟨buffer,state.haveSize,state.expectedSize⟩

def handleTcpClientReadable (state : TcpClientState) (chunk : List UInt8) : TcpRead :=
  let buffer := state.buffer ++ chunk
  if buffer.length > kMaxTcpBufferSize then .closed
  else
    let known := takeSize state buffer
    if known.haveSize && buffer.length ≥ known.expectedSize.toNat + 2 then .packet (slice buffer 2 known.expectedSize.toNat)
    else .waits known

def tcpPacket : TcpClientState → List (List UInt8) → Option (List UInt8)
  | _, [] => none
  | state, chunk :: rest =>
    match handleTcpClientReadable state chunk with
    | .waits next => tcpPacket next rest
    | .closed => none
    | .packet packet => some packet

def framed (response : List UInt8) : List UInt8 := appendU16 (.ofNat response.length) ++ response

def handleTcpPacket (inet : Inet) (answerIpv4 : Text) (fuel : Nat) (packet : List UInt8) : Option (Except String (List UInt8)) :=
  (parseDnsProbeQuery inet packet fuel).map fun parsed =>
    match parsed with
    | .error error => .error error
    | .ok question => (buildDnsProbeResponse inet question answerIpv4).map framed

end Tcp

section Ends
variable {packet : List UInt8}

theorem qnameShrinks (packet : List UInt8) (state next : Qname) (went : qnameRound packet state = .inl next) :
    packet.length - next.pos < packet.length - state.pos := by
  unfold qnameRound at went
  split at went
  · cases went
  · rename_i inside
    dsimp only at went
    split at went
    · cases went
    · split at went
      · cases went
      · split at went
        · cases went
        · cases went
          dsimp only
          omega

theorem recordShrinks (packet : List UInt8) (count : Nat) (state next : UInt16 × Nat) (went : recordRound packet count state = .inl next) :
    packet.length - next.2 < packet.length - state.2 := by
  unfold recordRound at went
  split at went
  · split at went
    · cases went
    · dsimp only at went
      split at went
      · cases went
      · split at went
        · cases went
        · cases went
          dsimp only
          omega
  · cases went

theorem optionShrinks (inet : Inet) {optEnd : Nat} (inside : optEnd ≤ packet.length) (optPos next : Nat)
    (went : optionRound inet packet optEnd optPos = .inl next) :
    packet.length - next < packet.length - optPos := by
  unfold optionRound at went
  split at went
  · dsimp only at went
    split at went
    · cases went
    · split at went
      · cases went
      · cases went
        omega
  · cases went

theorem ednsShrinks (inet : Inet) (packet : List UInt8) (fuel : Nat) (arcount : UInt16) (state next : UInt16 × Nat)
    (went : ednsRound inet packet fuel arcount state = .inl next) :
    packet.length - next.2 < packet.length - state.2 := by
  unfold ednsRound at went
  split at went
  · split at went
    · cases went
    · dsimp only at went
      split at went
      · cases went
      · split at went
        · cases went
        · split at went
          · cases went
          · cases went
          · cases went
            dsimp only
            omega
  · cases went

theorem optionsSettled (inet : Inet) {pos rdlen : Nat} (inside : pos + 10 + rdlen ≤ packet.length) :
    ∃ result, ∀ fuel, packet.length < fuel → readOptions inet packet fuel pos rdlen = some result := by
  unfold readOptions
  split
  · obtain ⟨result,settled⟩ := settles (packet.length - ·) (optionShrinks inet inside) (pos + 10)
    exact ⟨result,fun fuel enough => settled fuel (by omega)⟩
  · exact ⟨none,fun _ _ => rfl⟩

theorem ednsSettled (inet : Inet) (packet : List UInt8) (arcount : UInt16) (state : UInt16 × Nat) :
    ∃ outcome, (∀ fuel, packet.length < fuel → ednsRound inet packet fuel arcount state = outcome) ∧ outcome ≠ .inr none := by
  unfold ednsRound
  split
  · split
    · exact ⟨_,fun _ _ => rfl,by simp⟩
    · rename_i nameLen _
      dsimp only
      split
      · exact ⟨_,fun _ _ => rfl,by simp⟩
      · split
        · exact ⟨_,fun _ _ => rfl,by simp⟩
        · rename_i whole
          obtain ⟨result,settled⟩ := optionsSettled inet (Nat.le_of_not_gt whole)
          cases result with
          | none => exact ⟨.inl _,fun fuel enough => by rw [settled fuel enough],by simp⟩
          | some ecs => exact ⟨.inr (some (.ok (some ecs))),fun fuel enough => by rw [settled fuel enough],by simp⟩
  · exact ⟨_,fun _ _ => rfl,by simp⟩

theorem ednsEnds (inet : Inet) (packet : List UInt8) (pos : Nat) (arcount : UInt16) :
    ∃ result, ∀ fuel, packet.length < fuel → parseEdnsClientSubnet inet packet fuel pos arcount = some result := by
  have alike : ∀ fuel, packet.length < fuel → ednsRound inet packet fuel arcount = ednsRound inet packet (packet.length + 1) arcount := by
    intro fuel enough
    funext state
    obtain ⟨outcome,settled,_⟩ := ednsSettled inet packet arcount state
    rw [settled fuel enough,settled _ (Nat.lt_succ_self _)]
  obtain ⟨result,settled⟩ := settles (fun state => packet.length - state.2) (ednsShrinks inet packet (packet.length + 1) arcount) (0,pos)
  have last : result ≠ none := by
    refine yields (fun _ => True) (· ≠ none) (fun _ _ _ _ => trivial) ?_ trivial (settled (packet.length + 1) (by omega))
    rintro state result - ended rfl
    obtain ⟨outcome,outer,ends⟩ := ednsSettled inet packet arcount state
    exact ends ((outer _ (Nat.lt_succ_self _)).symm.trans ended)
  obtain ⟨found,rfl⟩ := Option.ne_none_iff_exists'.mp last
  refine ⟨found,fun fuel enough => ?_⟩
  rw [parseEdnsClientSubnet,alike fuel enough,settled fuel (by omega)]
  rfl

theorem recordsEnd (inet : Inet) (packet : List UInt8) (pos : Nat) :
    ∃ result, ∀ fuel, packet.length < fuel → readRecords inet packet fuel pos = some result := by
  obtain ⟨result,settled⟩ := settles (fun state => packet.length - state.2)
    (recordShrinks packet ((readU16 packet 6).toNat + (readU16 packet 8).toNat)) (0,pos)
  unfold readRecords
  cases result with
  | error error => exact ⟨.error error,fun fuel enough => by rw [settled fuel (by omega)]⟩
  | ok pos =>
    obtain ⟨found,ended⟩ := ednsEnds inet packet pos (readU16 packet 10)
    refine ⟨found,fun fuel enough => ?_⟩
    rw [settled fuel (by omega)]
    exact ended fuel enough

theorem parseEnds (inet : Inet) (packet : List UInt8) :
    ∃ result, ∀ fuel, packet.length < fuel → parseDnsProbeQuery inet packet fuel = some result := by
  unfold parseDnsProbeQuery
  split
  · exact ⟨_,fun _ _ => rfl⟩
  · split
    · exact ⟨_,fun _ _ => rfl⟩
    · obtain ⟨result,settled⟩ := settles (fun state : Qname => packet.length - state.pos) (qnameShrinks packet) {}
      have asked : ∀ fuel, packet.length < fuel → loop (qnameRound packet) fuel {} = some result := fun fuel enough =>
        settled fuel (Nat.lt_of_le_of_lt (Nat.sub_le ..) enough)
      cases result with
      | error error => exact ⟨.error error,fun fuel enough => by rw [asked fuel enough]⟩
      | ok qname =>
        by_cases short : qname.pos + 4 > packet.length
        · exact ⟨.error "DNS probe question footer truncated",fun fuel enough => by rw [asked fuel enough]; exact if_pos short⟩
        · obtain ⟨found,ended⟩ := recordsEnd inet packet (qname.pos + 4)
          cases found with
          | error error =>
            refine ⟨.error error,fun fuel enough => ?_⟩
            rw [asked fuel enough]
            dsimp only
            rw [if_neg short,ended fuel enough]
          | ok ecs =>
            refine ⟨.ok ⟨readU16 packet 0,readU16 packet 2,normalizeDnsName qname.labels,ecs,qname.wire ++ slice packet qname.pos 4⟩,
              fun fuel enough => ?_⟩
            rw [asked fuel enough]
            dsimp only
            rw [if_neg short,ended fuel enough]

end Ends

section Question
variable {packet : List UInt8} {labels : List (List UInt8)}

def encodeLabels (labels : List (List UInt8)) : List UInt8 := labels.flatMap fun label => .ofNat label.length :: label

/- A packet whose question has a name of these labels and ends with the four bytes of its type and class. -/
structure Asks (packet : List UInt8) (labels : List (List UInt8)) (footer rest : List UInt8) : Prop where
  cut : packet.drop dnsHeaderSize = encodeLabels labels ++ 0 :: footer ++ rest
  short : ∀ label ∈ labels, 1 ≤ label.length ∧ label.length < 64
  four : footer.length = 4

theorem labelsLength (labels : List (List UInt8)) : labels.length ≤ (encodeLabels labels).length := by
  induction labels with
  | nil => exact Nat.le_refl 0
  | cons label rest ih =>
    have head : encodeLabels (label :: rest) = .ofNat label.length :: label ++ encodeLabels rest := rfl
    rw [head,List.length_append,List.length_cons,List.length_cons]
    omega

theorem byteCut {pos : Nat} (inside : pos < packet.length) : packet.drop pos = byteAt packet pos :: packet.drop (pos + 1) := by
  rw [List.drop_eq_getElem_cons inside]
  simp [byteAt,List.getD_eq_getElem?_getD,inside]

theorem sliceCut (packet : List UInt8) (pos length : Nat) : packet.drop pos = slice packet pos length ++ packet.drop (pos + length) := by
  rw [slice,← List.drop_drop,List.take_append_drop]

theorem byteBehind {front back : List UInt8} (pos : Nat) (cut : packet.drop pos = front ++ back) (place : Nat)
    (inside : place < front.length) :
    byteAt packet (pos + place) = front.getD place 0 := by
  have found : packet[pos + place]? = (front ++ back)[place]? := by rw [← cut,List.getElem?_drop]
  rw [byteAt,List.getD_eq_getElem?_getD,List.getD_eq_getElem?_getD,found,List.getElem?_append_left inside]

set_option maxRecDepth 4000 in
theorem labelByte (len : UInt8) : len &&& 0xC0 = 0 ↔ len.toNat < 64 := by
  have all : ∀ n < 256, n &&& 192 = 0 ↔ n < 64 := by decide
  rw [← UInt8.toNat_inj,UInt8.toNat_and]
  exact all len.toNat len.toNat_lt

theorem qnameInversion {fuel : Nat} {qname : Qname} (done : loop (qnameRound packet) fuel {} = some (.ok qname)) :
    packet.drop dnsHeaderSize = qname.wire ++ packet.drop qname.pos ∧ qname.wire = encodeLabels qname.labels ++ [0] ∧
      ∀ label ∈ qname.labels, 1 ≤ label.length ∧ label.length < 64 := by
  refine yields (fun state : Qname => packet.drop dnsHeaderSize = state.wire ++ packet.drop state.pos ∧
    state.wire = encodeLabels state.labels ∧
      ∀ label ∈ state.labels, 1 ≤ label.length ∧ label.length < 64)
    (fun result => ∀ qname, result = .ok qname → packet.drop dnsHeaderSize = qname.wire ++ packet.drop qname.pos ∧
      qname.wire = encodeLabels qname.labels ++ [0] ∧ ∀ label ∈ qname.labels, 1 ≤ label.length ∧ label.length < 64) ?_ ?_
    ⟨rfl,rfl,by simp⟩ done qname rfl
  · rintro ⟨labels,wire,pos⟩ next ⟨cut,wired,short⟩ went
    dsimp only at cut wired short
    unfold qnameRound at went
    dsimp only at went
    split at went
    · cases went
    · rename_i inside
      split at went
      · cases went
      · rename_i some
        split at went
        · cases went
        · rename_i plain
          rw [not_not,labelByte] at plain
          split at went
          · cases went
          · rename_i whole
            cases went
            have size : (slice packet (pos + 1) (byteAt packet pos).toNat).length = (byteAt packet pos).toNat := by
              rw [slice,List.length_take,List.length_drop]
              omega
            have positive : (byteAt packet pos).toNat ≠ 0 := fun zero => some (UInt8.toNat_inj.mp zero)
            refine ⟨?_,?_,?_⟩
            · rw [cut,byteCut (Nat.lt_of_not_ge inside),sliceCut packet (pos + 1) (byteAt packet pos).toNat]
              simp
            · simp only [wired,encodeLabels,List.flatMap_append,List.flatMap_cons,List.flatMap_nil,List.append_nil,size,UInt8.ofNat_toNat]
            · intro label mem
              rcases List.mem_append.mp mem with mem | mem
              · exact short label mem
              · rw [List.mem_singleton.mp mem,size]
                omega
  · rintro ⟨labels,wire,pos⟩ result ⟨cut,wired,short⟩ ended qname rfl
    dsimp only at cut wired short
    unfold qnameRound at ended
    dsimp only at ended
    split at ended
    · cases ended
    · rename_i inside
      split at ended
      · rename_i zero
        cases ended
        refine ⟨?_,?_,short⟩
        · rw [cut,byteCut (Nat.lt_of_not_ge inside)]
          simp
        · rw [wired,zero]
      · split at ended
        · cases ended
        · split at ended <;> cases ended

theorem qnameForward {wire rest : List UInt8} {pos fuel : Nat} {before : List (List UInt8)}
    (short : ∀ label ∈ labels, 1 ≤ label.length ∧ label.length < 64)
    (cut : packet.drop pos = encodeLabels labels ++ 0 :: rest) (enough : labels.length < fuel) :
    loop (qnameRound packet) fuel ⟨before,wire,pos⟩ =
      some (.ok ⟨before ++ labels,wire ++ (encodeLabels labels ++ [0]),pos + (encodeLabels labels ++ [0]).length⟩) := by
  induction labels generalizing before wire pos fuel with
  | nil =>
    cases fuel with
    | zero => cases enough
    | succ fuel =>
      have inside : ¬ pos ≥ packet.length := fun past => by
        rw [List.drop_eq_nil_of_le past] at cut
        cases cut
      have zero : byteAt packet pos = 0 := byteBehind pos (show packet.drop pos = [0] ++ rest from cut) 0 (by decide)
      rw [loop,qnameRound,if_neg inside]
      dsimp only
      rw [if_pos zero,zero]
      simp [encodeLabels]
  | cons label labels ih =>
    cases fuel with
    | zero => cases enough
    | succ fuel =>
      obtain ⟨⟨positive,few⟩,later⟩ := List.forall_mem_cons.mp short
      have shape : packet.drop pos = (.ofNat label.length :: label) ++ (encodeLabels labels ++ 0 :: rest) := by
        rw [cut,encodeLabels,List.flatMap_cons,List.append_assoc]
        rfl
      have size : packet.length - pos = (label.length + 1) + (encodeLabels labels ++ 0 :: rest).length := by
        rw [← List.length_drop,shape,List.length_append,List.length_cons]
      have len : byteAt packet pos = .ofNat label.length := byteBehind pos shape 0 (Nat.succ_pos _)
      have value : (byteAt packet pos).toNat = label.length := by
        rw [len,UInt8.toNat_ofNat']
        omega
      have some : byteAt packet pos ≠ 0 := fun zero => by
        rw [zero] at value
        exact absurd value.symm (Nat.ne_of_gt positive)
      have plain : ¬ (byteAt packet pos &&& 0xC0 ≠ 0) := by
        rw [not_not,labelByte,value]
        exact few
      have own : slice packet (pos + 1) label.length = label := by
        rw [slice,← List.drop_drop,shape]
        simp
      have next : packet.drop (pos + 1 + label.length) = encodeLabels labels ++ 0 :: rest := by
        rw [← List.drop_drop,← List.drop_drop,shape]
        simp
      have inside : ¬ pos ≥ packet.length := by omega
      rw [loop,qnameRound,if_neg inside]
      dsimp only
      rw [if_neg some,if_neg plain,value,if_neg (by omega),own]
      dsimp only
      rw [ih later next (Nat.lt_of_succ_lt_succ enough),len]
      simp [encodeLabels]
      omega

theorem parseAsks {inet : Inet} {fuel : Nat} {question : DnsProbeQuestion}
    (parsed : parseDnsProbeQuery inet packet fuel = some (.ok question)) :
    ∃ labels footer rest, Asks packet labels footer rest ∧ question.id = readU16 packet 0 ∧ question.name = normalizeDnsName labels ∧
      question.questionWire = encodeLabels labels ++ 0 :: footer := by
  unfold parseDnsProbeQuery at parsed
  split at parsed
  · cases parsed
  · split at parsed
    · cases parsed
    · split at parsed
      · cases parsed
      · cases parsed
      · rename_i qname done
        obtain ⟨cut,wired,short⟩ := qnameInversion done
        split at parsed
        · cases parsed
        · rename_i whole
          split at parsed
          · cases parsed
          · cases parsed
          · cases parsed
            refine ⟨qname.labels,slice packet qname.pos 4,packet.drop (qname.pos + 4),⟨?_,short,?_⟩,rfl,rfl,?_⟩
            · rw [cut,wired,sliceCut packet qname.pos 4]
              simp
            · rw [slice,List.length_take,List.length_drop]
              omega
            · rw [wired]
              simp

theorem asksParsed {inet : Inet} {fuel : Nat} {footer rest : List UInt8} {ecs : Option String} (asks : Asks packet labels footer rest)
    (header : dnsHeaderSize ≤ packet.length) (single : readU16 packet 4 = 1) (enough : labels.length < fuel)
    (records : readRecords inet packet fuel (dnsHeaderSize + (encodeLabels labels ++ 0 :: footer).length) = some (.ok ecs)) :
    parseDnsProbeQuery inet packet fuel =
      some (.ok ⟨readU16 packet 0,readU16 packet 2,normalizeDnsName labels,ecs,encodeLabels labels ++ 0 :: footer⟩) := by
  have cut : packet.drop dnsHeaderSize = encodeLabels labels ++ 0 :: (footer ++ rest) := by
    rw [asks.cut]
    simp
  have total : packet.length - dnsHeaderSize = (encodeLabels labels ++ 0 :: footer ++ rest).length := by rw [← List.length_drop,asks.cut]
  have four := asks.four
  simp only [List.length_append,List.length_cons,four] at total records
  have named := @qnameForward packet labels [] (footer ++ rest) dnsHeaderSize fuel [] asks.short cut enough
  have inside : ¬ dnsHeaderSize + (encodeLabels labels ++ [0]).length + 4 > packet.length := by
    rw [List.length_append,List.length_singleton]
    omega
  have behind : packet.drop (dnsHeaderSize + (encodeLabels labels ++ [0]).length) = footer ++ rest := by
    rw [← List.drop_drop,cut.trans (List.append_cons ..),List.drop_left]
  have shown : slice packet (dnsHeaderSize + (encodeLabels labels ++ [0]).length) 4 = footer := by
    rw [slice,behind,← four,List.take_left]
  unfold parseDnsProbeQuery
  rw [if_neg (Nat.not_lt.mpr header),if_neg (not_not.mpr single)]
  rw [show ({} : Qname) = ⟨[],[],dnsHeaderSize⟩ from rfl,named]
  dsimp only
  rw [if_neg inside,shown,List.length_append,List.length_singleton,Nat.add_assoc,Nat.add_assoc]
  rw [show (encodeLabels labels).length + (1 + 4) = (encodeLabels labels).length + (4 + 1) from rfl,records]
  simp

end Question

section Echo
variable {inet : Inet} {packet : List UInt8}

theorem readAppended (value : UInt16) (rest : List UInt8) : readU16 (appendU16 value ++ rest) 0 = value := by
  have low : value.toNat % 256 < 256 := Nat.mod_lt _ (by decide)
  have bound := value.toNat_lt
  have high : value.toNat / 256 < 256 := by omega
  apply UInt16.toNat_inj.mp
  simp only [readU16,appendU16,byteAt,List.cons_append,List.getD_cons_zero,Nat.zero_add,List.getD_cons_succ,UInt8.toNat_ofNat',
    UInt16.toNat_ofNat']
  omega

def answerHead : List UInt8 := [192,12,0,1,0,1,0,0,0,0,0,4]

theorem builtShape {question : DnsProbeQuestion} {answer : Text} {address : List UInt8}
    (read : inet.pton afInet (cString answer) = some address) :
    buildDnsProbeResponse inet question answer = .ok (appendU16 question.id ++ (appendU16 (dnsFlagQr ||| (question.flags &&& dnsFlagRd)) ++
      ([0,1,0,1,0,0,0,0] ++ (question.questionWire ++ (answerHead ++ address))))) := by
  have valid : ¬ (!isValidIpv4 inet answer) = true := by simp [isValidIpv4,read]
  rw [buildDnsProbeResponse,if_neg valid,read]
  simp only [List.append_assoc]
  rfl

theorem answerSkipped {address : List UInt8} {pos fuel : Nat} (cut : packet.drop pos = answerHead ++ address) (four : address.length = 4)
    (answers : readU16 packet 6 = 1) (authorities : readU16 packet 8 = 0) (additional : readU16 packet 10 = 0) (enough : 1 < fuel) :
    readRecords inet packet fuel pos = some (.ok none) := by
  have size : packet.length - pos = 16 := by rw [← List.length_drop,cut,List.length_append,four]; rfl
  have bytes (place : Nat) (inside : place < 12) : byteAt packet (pos + place) = answerHead.getD place 0 := byteBehind pos cut place inside
  have points : readNameLength packet pos = .ok 2 := by
    have first : byteAt packet pos = 192 := bytes 0 (by decide)
    unfold readNameLength nameLengthFrom
    rw [if_neg (by omega),first,if_neg (by decide),if_pos (by decide),if_neg (by omega),Nat.sub_self]
  have length : (readU16 packet (pos + 2 + 8)).toNat = 4 := by
    rw [readU16,bytes 10 (by decide),bytes 11 (by decide)]
    rfl
  have first : recordRound packet 1 (0,pos) = .inl (1,pos + 2 + 10 + 4) := by
    unfold recordRound
    rw [if_pos (show (0 : UInt16).toNat < 1 by decide),points]
    dsimp only
    rw [if_neg (by omega),length,if_neg (by omega)]
    rfl
  have last (place : Nat) : recordRound packet 1 (1,place) = .inr (.ok place) := rfl
  obtain ⟨fuel,rfl⟩ : ∃ less, fuel = less + 2 := ⟨fuel - 2,by omega⟩
  have skipped : loop (recordRound packet 1) (fuel + 2) (0,pos) = some (.ok (pos + 2 + 10 + 4)) := by
    rw [loop,first]
    dsimp only
    rw [loop,last]
  have none : ednsRound inet packet (fuel + 2) 0 (0,pos + 2 + 10 + 4) = .inr (some (.ok none)) := rfl
  rw [readRecords,answers,authorities,additional]
  rw [show (1 : UInt16).toNat + (0 : UInt16).toNat = 1 from rfl,skipped]
  dsimp only
  rw [parseEdnsClientSubnet,loop,none]
  rfl

theorem responseShape {fuel : Nat} {question : DnsProbeQuestion} {answer : Text} {address : List UInt8}
    (parsed : parseDnsProbeQuery inet packet fuel = some (.ok question)) (read : inet.pton afInet (cString answer) = some address)
    (four : address.length = 4) : ∃ labels footer rest response, Asks packet labels footer rest ∧
      Asks response labels footer (answerHead ++ address) ∧
      question.questionWire = encodeLabels labels ++ 0 :: footer ∧ question.name = normalizeDnsName labels ∧
      buildDnsProbeResponse inet question answer = .ok response ∧ readU16 response 0 = readU16 packet 0 ∧
      response.length = 28 + question.questionWire.length ∧ ∀ fuel, response.length < fuel →
        parseDnsProbeQuery inet response fuel = some (.ok ⟨question.id,readU16 response 2,question.name,none,question.questionWire⟩) := by
  obtain ⟨labels,footer,rest,asks,same,named,wire⟩ := parseAsks parsed
  refine ⟨labels,footer,rest,_,asks,⟨?_,asks.short,asks.four⟩,wire,named,builtShape read,?_,?_,?_⟩
  · rw [wire]
    simp [appendU16,dnsHeaderSize]
  · rw [readAppended,same]
  · simp [appendU16,answerHead,four]
    omega
  · intro fuel enough
    generalize made : appendU16 question.id ++ (appendU16 (dnsFlagQr ||| (question.flags &&& dnsFlagRd)) ++
      ([0,1,0,1,0,0,0,0] ++ (question.questionWire ++ (answerHead ++ address)))) = response at enough ⊢
    have cut : response.drop dnsHeaderSize = question.questionWire ++ (answerHead ++ address) := by rw [← made]; rfl
    have total : response.length = 28 + question.questionWire.length := by
      rw [← made]
      simp [appendU16,answerHead,four]
      omega
    have answers : readU16 response 6 = 1 := by rw [← made]; rfl
    have authorities : readU16 response 8 = 0 := by rw [← made]; rfl
    have additional : readU16 response 10 = 0 := by rw [← made]; rfl
    have single : readU16 response 4 = 1 := by rw [← made]; rfl
    have own : readU16 response 0 = question.id := by rw [← made,readAppended]
    have behind : response.drop (dnsHeaderSize + question.questionWire.length) = answerHead ++
      address := by rw [← List.drop_drop,cut,List.drop_left]
    have skipped : readRecords inet response fuel (dnsHeaderSize + question.questionWire.length) = some (.ok none) :=
      answerSkipped behind four answers authorities additional (by omega)
    rw [wire] at skipped cut
    have few : labels.length ≤ question.questionWire.length := by
      rw [wire,List.length_append]
      exact Nat.le_add_right_of_le (labelsLength labels)
    have again := asksParsed ⟨cut,asks.short,asks.four⟩ (by unfold dnsHeaderSize; omega) single (show labels.length < fuel by omega) skipped
    rw [own,← wire,← named] at again
    exact again

end Echo

section Framing
variable {state : TcpClientState} {chunks : List (List UInt8)} {packet : List UInt8}

theorem tcpPacketBounded (handed : tcpPacket state chunks = some packet) : packet.length + 2 ≤ kMaxTcpBufferSize := by
  induction chunks generalizing state with
  | nil => cases handed
  | cons chunk rest ih =>
    rw [tcpPacket] at handed
    split at handed
    · exact ih handed
    · cases handed
    · rename_i own
      cases handed
      unfold handleTcpClientReadable at own
      dsimp only at own
      split at own
      · cases own
      · rename_i fits
        split at own
        · rename_i ready
          cases own
          rw [Bool.and_eq_true,decide_eq_true_iff] at ready
          rw [slice,List.length_take,List.length_drop]
          unfold kMaxTcpBufferSize at fits ⊢
          omega
        · cases own

theorem framedRead {response : List UInt8} (fits : response.length < 65536) : (readU16 (framed response) 0).toNat = response.length ∧
    (framed response).drop 2 = response := by
  refine ⟨?_,rfl⟩
  rw [framed,readAppended,UInt16.toNat_ofNat']
  omega

def streamPacket (stream : List UInt8) : Option (List UInt8) :=
  if 2 ≤ stream.length ∧ (readU16 stream 0).toNat + 2 ≤ stream.length then some (slice stream 2 (readU16 stream 0).toNat) else none

theorem sizeFront {front : List UInt8} (known : 2 ≤ front.length) (back : List UInt8) : readU16 (front ++ back) 0 = readU16 front 0 := by
  rcases front with _ | ⟨a,_ | ⟨b,rest⟩⟩
  · cases known
  · simp at known
  · rfl

theorem packetFront {front : List UInt8} (whole : streamPacket front = some packet) (back : List UInt8) :
    streamPacket (front ++ back) = some packet := by
  unfold streamPacket at whole ⊢
  split at whole
  · rename_i held
    cases whole
    rw [sizeFront held.1,if_pos (by rw [List.length_append]; omega),slice,slice,List.drop_append_of_le_length held.1,
      List.take_append_of_le_length (by rw [List.length_drop]; omega)]
  · cases whole

def gathered (buffer : List UInt8) : TcpClientState := takeSize {} buffer

theorem chunkGathered (buffer chunk : List UInt8) : handleTcpClientReadable (gathered buffer) chunk =
    if (buffer ++ chunk).length > kMaxTcpBufferSize then .closed
    else (streamPacket (buffer ++ chunk)).elim (.waits (gathered (buffer ++ chunk))) .packet := by
  have own : (gathered buffer).buffer = buffer := by
    rw [gathered,takeSize]
    split <;> rfl
  have more : takeSize (gathered buffer) (buffer ++ chunk) = gathered (buffer ++ chunk) := by
    by_cases known : 2 ≤ buffer.length
    · simp [gathered,takeSize,known,sizeFront known,Nat.le_add_right_of_le known]
    · simp [gathered,takeSize,known]
  rw [handleTcpClientReadable,own,more,streamPacket]
  generalize buffer ++ chunk = whole
  by_cases known : 2 ≤ whole.length
  · by_cases held : (readU16 whole 0).toNat + 2 ≤ whole.length <;> simp [gathered,takeSize,known,held]
  · simp [gathered,takeSize,known]

def Gathers (buffer : List UInt8) (chunks : List (List UInt8)) (packet : List UInt8) : Prop :=
  ∃ early, early <+: chunks ∧ (buffer ++ early.flatten).length ≤ kMaxTcpBufferSize ∧ streamPacket (buffer ++ early.flatten) = some packet

theorem chunksGathered {buffer : List UInt8} (short : streamPacket buffer = none) :
    tcpPacket (gathered buffer) chunks = some packet ↔ Gathers buffer chunks packet := by
  induction chunks generalizing buffer with
  | nil => simp [tcpPacket,Gathers,short]
  | cons chunk rest ih =>
    have later : Gathers buffer (chunk :: rest) packet ↔ Gathers (buffer ++ chunk) rest packet := by
      simp [Gathers,List.prefix_cons_iff,or_and_right,exists_or,short]
    rw [later,tcpPacket,chunkGathered]
    by_cases full : (buffer ++ chunk).length > kMaxTcpBufferSize
    · rw [if_pos full]
      refine ⟨(fun took => by cases took),?_⟩
      rintro ⟨early,-,room,-⟩
      rw [List.length_append] at room
      omega
    · rw [if_neg full]
      cases found : streamPacket (buffer ++ chunk) with
      | none => exact ih found
      | some first =>
        constructor
        · rintro ⟨⟩
          exact ⟨[],List.nil_prefix,by simpa using full,by simpa using found⟩
        · rintro ⟨early,-,-,whole⟩
          rw [packetFront found] at whole
          exact whole

/- However the network cuts a stream, the packet is the one that reading the stream at once gives. -/
theorem segmentsGathered : tcpPacket {} chunks = some packet ↔
    ∃ early, early <+: chunks ∧ early.flatten.length ≤ kMaxTcpBufferSize ∧ streamPacket early.flatten = some packet :=
  chunksGathered (show streamPacket [] = none from rfl)

end Framing

section Laws
variable {inet : Inet} {answer : Text}

/- The parser ends. The response to what it accepts repeats the id and the question, reads back as the same question and fits its
length where the question has less than 65508 bytes, as every question that comes over TCP has. -/
theorem responseEchoes (documented : inet.Documented) (valid : isValidIpv4 inet answer = true) (packet : List UInt8) :
    ∃ result, (∀ fuel, packet.length < fuel → parseDnsProbeQuery inet packet fuel = some result) ∧ ∀ question, result = .ok question →
      ∃ response, buildDnsProbeResponse inet question answer = .ok response ∧ readU16 response 0 = readU16 packet 0 ∧
        (∃ labels footer rest tail, Asks packet labels footer rest ∧ Asks response labels footer tail ∧
          question.questionWire = encodeLabels labels ++ 0 :: footer) ∧
        (∃ again, (∀ fuel, response.length < fuel → parseDnsProbeQuery inet response fuel = some (.ok again)) ∧ again.id = question.id ∧
          again.name = question.name ∧ again.questionWire = question.questionWire) ∧
        (response.length < 65536 ↔ question.questionWire.length < 65508) ∧
        ∀ chunks fuel, tcpPacket {} chunks = some packet → packet.length < fuel →
          handleTcpPacket inet answer fuel packet = some (.ok (framed response)) ∧
          (readU16 (framed response) 0).toNat = response.length ∧ (framed response).drop 2 = response := by
  obtain ⟨address,read⟩ := Option.isSome_iff_exists.mp valid
  obtain ⟨result,ended⟩ := parseEnds inet packet
  refine ⟨result,ended,?_⟩
  rintro question rfl
  obtain ⟨labels,footer,rest,response,asks,echoes,wire,named,built,sameId,size,again⟩ :=
    responseShape (ended (packet.length + 1) (Nat.lt_succ_self _)) read (documented.v4 _ _ read).1
  refine ⟨response,built,sameId,⟨labels,footer,rest,_,asks,echoes,wire⟩,⟨_,again,rfl,rfl,rfl⟩,?_,fun chunks fuel handed enough => ⟨?_,?_⟩⟩
  · omega
  · rw [handleTcpPacket,ended fuel enough,Option.map_some]
    dsimp only
    rw [built]
    rfl
  · have bound := tcpPacketBounded handed
    have part := congrArg List.length asks.cut
    rw [List.length_drop,List.length_append,← wire] at part
    unfold kMaxTcpBufferSize dnsHeaderSize at *
    exact framedRead (by omega)

def comQuery : List UInt8 := [18,52,1,0,0,1,0,0,0,0,0,0,3,119,119,119,3,99,111,109,0,0,1,0,1]

theorem responseEchoesCom : ∃ question response, parseDnsProbeQuery plainInet comQuery 26 = some (.ok question) ∧
    buildDnsProbeResponse plainInet question (text "127.0.0.88") = .ok response ∧ readU16 response 0 = 0x1234 ∧
    ∃ again, parseDnsProbeQuery plainInet response (response.length + 1) = some (.ok again) ∧ again.questionWire = comQuery.drop 12 := by
  have valid : isValidIpv4 plainInet (text "127.0.0.88") = true := by decide
  obtain ⟨question,accepted,wire⟩ : ∃ question, parseDnsProbeQuery plainInet comQuery 26 = some (.ok question) ∧
      question.questionWire = comQuery.drop 12 := ⟨_,rfl,rfl⟩
  obtain ⟨result,ended,echoes⟩ := responseEchoes plainCanonical.toSpelled.documented valid comQuery
  have same := Option.some.inj ((ended 26 (by decide)).symm.trans accepted)
  obtain ⟨response,built,sameId,-,⟨again,parsed,-,-,sameWire⟩,-⟩ := echoes question same
  exact ⟨question,response,accepted,built,sameId,again,parsed _ (Nat.lt_succ_self _),sameWire.trans wire⟩

def queryOf (labels : List (List UInt8)) : List UInt8 := [0,7,1,0,0,1,0,0,0,0,0,0] ++ (encodeLabels labels ++ 0 :: [0,1,0,1] ++ [])

theorem queryParsed {labels : List (List UInt8)} {fuel : Nat} (short : ∀ label ∈ labels, 1 ≤ label.length ∧ label.length < 64)
    (enough : (queryOf labels).length < fuel) : parseDnsProbeQuery plainInet (queryOf labels) fuel =
      some (.ok ⟨7,256,normalizeDnsName labels,none,encodeLabels labels ++ 0 :: [0,1,0,1]⟩) := by
  have size : (queryOf labels).length = 17 + (encodeLabels labels).length := by
    simp [queryOf]
    omega
  have few := labelsLength labels
  obtain ⟨fuel,rfl⟩ : ∃ less, fuel = less + 1 := ⟨fuel - 1,by omega⟩
  have records (pos : Nat) : readRecords plainInet (queryOf labels) (fuel + 1) pos = some (.ok none) := rfl
  exact asksParsed ⟨rfl,short,rfl⟩ (by rw [size,dnsHeaderSize]; omega) rfl (by omega) (records _)

theorem labelsReplicated (count : Nat) (label : List UInt8) :
    (encodeLabels (List.replicate count label)).length = count * (label.length + 1) := by
  induction count with
  | zero => rw [Nat.zero_mul]; rfl
  | succ count ih =>
    have head : encodeLabels (List.replicate (count + 1) label) = .ofNat label.length :: label ++
      encodeLabels (List.replicate count label) := rfl
    rw [head,List.length_append,List.length_cons,ih,Nat.succ_mul]
    omega

theorem longResponse {labels : List (List UInt8)} (short : ∀ label ∈ labels, 1 ≤ label.length ∧ label.length < 64)
    (size : (encodeLabels labels).length = 65536) : ∃ question response,
      (∀ fuel, (queryOf labels).length < fuel → parseDnsProbeQuery plainInet (queryOf labels) fuel = some (.ok question)) ∧
      buildDnsProbeResponse plainInet question (text "127.0.0.1") = .ok response ∧ response.length = 65569 := by
  have read : plainInet.pton afInet (cString (text "127.0.0.1")) = some [127,0,0,1] := by decide
  obtain ⟨_,_,_,response,_,_,_,_,built,_,long,_⟩ := responseShape (queryParsed short (Nat.lt_succ_self _)) read rfl
  rw [List.length_append,size] at long
  exact ⟨_,response,fun fuel enough => queryParsed short enough,built,long⟩

def longName : List (List UInt8) := List.replicate 1024 (List.replicate 63 97)

/- A question of 1024 labels is accepted and its response is longer than a length of 16 bits tells. -/
theorem longQuestionTruncated : ∃ question response,
      (∀ fuel, (queryOf longName).length < fuel → parseDnsProbeQuery plainInet (queryOf longName) fuel = some (.ok question)) ∧
      buildDnsProbeResponse plainInet question (text "127.0.0.1") = .ok response ∧ response.length = 65569 ∧
      (readU16 (framed response) 0).toNat = 33 := by
  have short : ∀ label ∈ longName, 1 ≤ label.length ∧ label.length < 64 := by
    intro label mem
    rw [List.eq_of_mem_replicate mem,List.length_replicate]
    decide
  have size : (encodeLabels longName).length = 1024 * (63 + 1) := by rw [longName,labelsReplicated,List.length_replicate]
  obtain ⟨question,response,parsed,built,long⟩ := longResponse short size
  refine ⟨question,response,parsed,built,long,?_⟩
  rw [framed,readAppended,long]
  rfl

end Laws
end KeenPbr.DnsProbe
