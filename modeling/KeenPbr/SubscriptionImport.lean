import Mathlib.Algebra.Order.Ring.Int
import Mathlib.Data.List.TakeWhile

/-! config/subscription_import_plan.cpp: the preview of a subscription body. Strings are the bytes the
source reads; the character classes are those of the C locale. Sha256::hex is a parameter. -/
namespace KeenPbr.SubscriptionImport

abbrev Bytes := List UInt8

def ascii (text : String) : Bytes := text.toList.map fun c => UInt8.ofNat c.toNat

section Texts

def isLower (ch : UInt8) : Bool := 97 ≤ ch && ch ≤ 122
def isUpper (ch : UInt8) : Bool := 65 ≤ ch && ch ≤ 90
def isNumber (ch : UInt8) : Bool := 48 ≤ ch && ch ≤ 57
def isAlpha (ch : UInt8) : Bool := isLower ch || isUpper ch
def isAlnum (ch : UInt8) : Bool := isAlpha ch || isNumber ch
def toLower (ch : UInt8) : UInt8 := if isUpper ch then ch + 32 else ch

def lowercased (value : Bytes) : Bytes := value.map toLower

def blank (ch : UInt8) : Bool := (ascii " \t\r\n").contains ch || ch == 12 || ch == 11

def trimmedCopy (value : Bytes) : Bytes := ((value.dropWhile blank).reverse.dropWhile blank).reverse

def base64Digit (ch : UInt8) : Option UInt32 :=
  if isUpper ch then some (ch.toUInt32 - 65)
  else if isLower ch then some (ch.toUInt32 - 97 + 26)
  else if isNumber ch then some (ch.toUInt32 - 48 + 52)
  else if ch == 43 || ch == 45 then some 62
  else if ch == 47 || ch == 95 then some 63
  else none

/- The loop of base64_decode: accumulator, bits, symbols and what is decoded so far. -/
def base64From (accumulator : UInt32) (bits symbols : Nat) (decoded : Bytes) : Bytes → Option Bytes
  | [] => if symbols = 0 ∨ symbols % 4 ≠ 1 then some decoded else none
  | ch :: rest =>
    if (ascii " \t\r\n=").contains ch then base64From accumulator bits symbols decoded rest
    else
      match base64Digit ch with
      | none => none
      | some digit =>
        let accumulator := accumulator <<< 6 ||| digit
        if bits + 6 ≥ 8 then
          base64From accumulator (bits + 6 - 8) (symbols + 1)
            (decoded ++ [(accumulator >>> UInt32.ofNat (bits + 6 - 8) &&& 0xff).toUInt8]) rest
        else base64From accumulator (bits + 6) (symbols + 1) decoded rest

def base64Decode (value : Bytes) : Option Bytes := base64From 0 0 0 [] value

def schemeCharacter (ch : UInt8) : Bool := isAlnum ch || (ascii "+-.").contains ch

def lineScheme (line : Bytes) : Bytes :=
  let scheme := line.takeWhile (· != 58)
  let rest := line.dropWhile (· != 58)
  if rest.isEmpty || scheme.isEmpty then []
  else if !line.head?.any isAlpha then []
  else if !scheme.all schemeCharacter then []
  else if rest.take 3 ≠ ascii "://" then []
  else lowercased scheme

structure DocumentLine where
  text : Bytes
  number : Nat
  deriving DecidableEq, Repr

def candidateLines (text : Bytes) : List DocumentLine :=
  ((text.splitOn 10).zipIdx 1).filterMap fun (line,number) =>
    let line := trimmedCopy line
    if !line.isEmpty && line.head? != some 35 then some { text := line, number } else none

def looksLikeLinkList (lines : List DocumentLine) : Bool := lines.any fun line => !(lineScheme line.text).isEmpty

def hexValue (ch : UInt8) : Option UInt8 :=
  if isNumber ch then some (ch - 48)
  else if 97 ≤ ch && ch ≤ 102 then some (ch - 97 + 10)
  else if 65 ≤ ch && ch ≤ 70 then some (ch - 65 + 10)
  else none

def percentDecoded : Bytes → Bytes
  | ch :: a :: b :: rest =>
    if ch == 37 then
      match hexValue a,hexValue b with
      | some high,some low => (high <<< 4 ||| low) :: percentDecoded rest
      | _,_ => ch :: percentDecoded (a :: b :: rest)
    else ch :: percentDecoded (a :: b :: rest)
  | short => short

def isC1OrBidirectionalControl (codePoint : UInt32) : Bool :=
  (0x80 ≤ codePoint && codePoint ≤ 0x9f) || codePoint == 0x061c || codePoint == 0x200e || codePoint == 0x200f ||
    (0x202a ≤ codePoint && codePoint ≤ 0x202e) || (0x2066 ≤ codePoint && codePoint ≤ 0x2069)

def sequenceStart (first : UInt8) : Option (Nat × UInt32) :=
  if first ≤ 0x7f then some (1,first.toUInt32)
  else if 0xc2 ≤ first && first ≤ 0xdf then some (2,(first &&& 0x1f).toUInt32)
  else if 0xe0 ≤ first && first ≤ 0xef then some (3,(first &&& 0x0f).toUInt32)
  else if 0xf0 ≤ first && first ≤ 0xf4 then some (4,(first &&& 0x07).toUInt32)
  else none

def continued (codePoint : UInt32) : Bytes → Option UInt32
  | [] => some codePoint
  | continuation :: rest =>
    if continuation &&& 0xc0 ≠ 0x80 then none else continued (codePoint <<< 6 ||| (continuation &&& 0x3f).toUInt32) rest

def ruledOut (length : Nat) (first second : UInt8) : Bool :=
  (length == 3 && ((first == 0xe0 && second < 0xa0) || (first == 0xed && 0x9f < second))) ||
    (length == 4 && ((first == 0xf0 && second < 0x90) || (first == 0xf4 && 0x8f < second)))

/- The loop of displayable_label; every round takes one byte at least. -/
def displayableFrom : Nat → Bytes → Bytes
  | 0,_ => []
  | _,[] => []
  | fuel + 1,first :: rest =>
    match sequenceStart first with
    | none => displayableFrom fuel rest
    | some (length,lead) =>
      if (first :: rest).length < length then []
      else
        match continued lead (rest.take (length - 1)) with
        | none => displayableFrom fuel rest
        | some codePoint =>
          if ruledOut length first (rest.headD 0) then displayableFrom fuel rest
          else if 0x20 ≤ codePoint && codePoint != 0x7f && !isC1OrBidirectionalControl codePoint then
            (first :: rest).take length ++ displayableFrom fuel ((first :: rest).drop length)
          else displayableFrom fuel ((first :: rest).drop length)

def displayableLabel (value : Bytes) : Bytes := displayableFrom value.length value

end Texts

section Links

def subscriptionSchemes : List String :=
  ["vless","vmess","trojan","ss","hysteria2","hy2","tuic","anytls","naive","naive+https","naive+quic","socks","socks5","http","https"]

def subscriptionSchemeSupported (scheme : Bytes) : Bool := subscriptionSchemes.any fun value => scheme == ascii value

structure LinkParts where
  scheme : Bytes := []
  endpoint : Bytes := []
  remark : Bytes := []
  identity : Bytes := []
  deriving DecidableEq, Repr

def afterLast (mark : UInt8) (value : Bytes) : Bytes := (value.reverse.takeWhile (· != mark)).reverse

def splitLink (link : Bytes) : LinkParts :=
  let scheme := lineScheme link
  if scheme.isEmpty then {}
  else
    let identity := link.takeWhile (· != 35)
    let remark := if link.contains 35 then displayableLabel (percentDecoded ((link.dropWhile (· != 35)).drop 1)) else []
    let authority := (identity.drop (scheme.length + 3)).takeWhile fun ch => ch != 47 && ch != 63
    let hidden : LinkParts := { scheme, remark, identity }
    if scheme = ascii "vmess" then hidden
    else if scheme = ascii "ss" ∧ authority.contains 64 = false then hidden
    else if !subscriptionSchemeSupported scheme then hidden
    else if authority.contains 64 = false ∧ scheme ∉ [ascii "socks",ascii "socks5",ascii "http",ascii "https"] then hidden
    else { hidden with endpoint := displayableLabel (if authority.contains 64 then afterLast 64 authority else authority) }

end Links

section Tags

def kSubscriptionMaximumBytes : Nat := 1024 * 1024
def kSubscriptionMaximumEntries : Nat := 512
def kSubscriptionMaximumTagLength : Nat := 24

def dropUnderscores (tag : Bytes) : Bytes := (tag.reverse.dropWhile (· == 95)).reverse

def uniquifiedFrom (base : Bytes) (taken : List Bytes) : Nat → Nat → Bytes
  | 0,_ => []
  | left + 1,suffix =>
    let tail := ascii ("_" ++ toString suffix)
    let head := if base.length + tail.length > kSubscriptionMaximumTagLength
      then base.take (kSubscriptionMaximumTagLength - tail.length) else base
    let head := dropUnderscores head
    let head := if head.isEmpty then ascii "sub" else head
    if taken.contains (head ++ tail) then uniquifiedFrom base taken left (suffix + 1) else head ++ tail

def uniquifiedTag (base : Bytes) (taken : List Bytes) : Bytes :=
  if taken.contains base then uniquifiedFrom base taken kSubscriptionMaximumEntries 2 else base

def tagCharacters (tag : Bytes) : Bytes → Bytes
  | [] => tag
  | ch :: rest =>
    if isAlnum ch then tagCharacters (tag ++ [toLower ch]) rest
    else if tag.isEmpty || tag.getLast? == some 95 then tagCharacters tag rest
    else tagCharacters (tag ++ [95]) rest

def numberedTag (position : Nat) : Bytes := ascii ("sub_" ++ toString position)

def deriveSubscriptionTag (remark : Bytes) (position : Nat) : Bytes :=
  let tag := (tagCharacters [] remark).dropWhile fun ch => !isLower ch
  if tag.isEmpty then numberedTag position
  else
    let tag := dropUnderscores (tag.take kSubscriptionMaximumTagLength)
    if tag.isEmpty then numberedTag position else tag

end Tags

section Plan

inductive SubscriptionDocumentKind where
  | linkList
  | base64LinkList
  | jsonDocument
  | empty
  | unrecognized
  | tooLarge
  deriving DecidableEq, Repr

inductive SubscriptionCandidateDisposition where
  | importable
  | duplicateInDocument
  | alreadyConfigured
  | tagConflict
  | schemeNotSupported
  | malformed
  deriving DecidableEq, Repr

structure SubscriptionCandidate where
  scheme : Bytes := []
  endpoint : Bytes := []
  remark : Bytes := []
  suggestedTag : Bytes := []
  disposition : SubscriptionCandidateDisposition := .malformed
  duplicateOf : Nat := 0
  sourceLine : Nat := 0
  deriving DecidableEq, Repr

structure SubscriptionImportPlan where
  kind : SubscriptionDocumentKind := .unrecognized
  candidates : List SubscriptionCandidate := []
  links : List Bytes := []
  deriving DecidableEq, Repr

def documentLines (body : Bytes) : Except SubscriptionDocumentKind (SubscriptionDocumentKind × List DocumentLine) :=
  if body.length > kSubscriptionMaximumBytes then .error .tooLarge
  else
    let head := trimmedCopy body
    if head.isEmpty then .error .empty
    else if head.head? = some 123 ∨ head.head? = some 91 then .error .jsonDocument
    else
      let read : Except SubscriptionDocumentKind (SubscriptionDocumentKind × List DocumentLine) :=
        if looksLikeLinkList (candidateLines body) then .ok (.linkList,candidateLines body)
        else
          match base64Decode body with
          | none => .error .unrecognized
          | some decoded =>
            if looksLikeLinkList (candidateLines decoded) then .ok (.base64LinkList,candidateLines decoded)
            else if (trimmedCopy decoded).isEmpty then .error .empty
            else .error .unrecognized
      match read with
      | .error kind => .error kind
      | .ok (kind,lines) =>
        if lines.isEmpty then .error .empty
        else if lines.length > kSubscriptionMaximumEntries then .error .tooLarge
        else .ok (kind,lines)

structure PlanState where
  assignedTags : List Bytes
  firstOccurrence : List (Bytes × Nat) := []
  deriving DecidableEq, Repr

variable (hex : Bytes → String) (existingTags : List Bytes) (existingLinkFingerprints : List String)

def planLine (state : PlanState) (index : Nat) (line : DocumentLine) : SubscriptionCandidate × PlanState :=
  let parts := splitLink line.text
  let candidate : SubscriptionCandidate :=
    { scheme := parts.scheme, endpoint := parts.endpoint, remark := parts.remark, sourceLine := line.number }
  if parts.scheme.isEmpty then ({ candidate with disposition := .malformed },state)
  else if !subscriptionSchemeSupported parts.scheme then ({ candidate with disposition := .schemeNotSupported },state)
  else
    match state.firstOccurrence.lookup parts.identity with
    | some seen => ({ candidate with disposition := .duplicateInDocument, duplicateOf := seen },state)
    | none =>
      let state := { state with firstOccurrence := (parts.identity,index) :: state.firstOccurrence }
      if existingLinkFingerprints.contains (hex parts.identity) then ({ candidate with disposition := .alreadyConfigured },state)
      else
        let base := deriveSubscriptionTag parts.remark line.number
        if existingTags.contains base then ({ candidate with disposition := .tagConflict, suggestedTag := base },state)
        else
          let unique := uniquifiedTag base state.assignedTags
          if unique.isEmpty then ({ candidate with disposition := .tagConflict, suggestedTag := base },state)
          else
            ({ candidate with disposition := .importable, suggestedTag := unique },
              { state with assignedTags := unique :: state.assignedTags })

def planLines : PlanState → Nat → List DocumentLine → List SubscriptionCandidate
  | _,_,[] => []
  | state,index,line :: rest =>
    let (candidate,next) := planLine hex existingTags existingLinkFingerprints state index line
    candidate :: planLines next (index + 1) rest

def planSubscriptionImport (body : Bytes) : SubscriptionImportPlan :=
  match documentLines body with
  | .error kind => { kind }
  | .ok (kind,lines) =>
    { kind, candidates := planLines hex existingTags existingLinkFingerprints { assignedTags := existingTags } 0 lines,
      links := lines.map (·.text) }

end Plan

section Credential

def shareLink (scheme u h r : Bytes) : Bytes := scheme ++ ascii "://" ++ u ++ ascii "@" ++ h ++ ascii "#" ++ r

def withoutFragment (scheme u h : Bytes) : Bytes := scheme ++ ascii "://" ++ u ++ ascii "@" ++ h

variable {scheme u h r : Bytes}

theorem takeUntil {mark : UInt8} {front rest : Bytes} (clean : mark ∉ front) : (front ++ mark :: rest).takeWhile (· != mark) = front := by
  rw [List.takeWhile_append_of_pos (fun ch mem => by simpa using fun same : ch = mark => clean (same ▸ mem))]
  simp

theorem dropUntil {mark : UInt8} {front rest : Bytes} (clean : mark ∉ front) :
    (front ++ mark :: rest).dropWhile (· != mark) = mark :: rest := by
  rw [List.dropWhile_append_of_pos (fun ch mem => by simpa using fun same : ch = mark => clean (same ▸ mem))]
  simp

def linkScheme (scheme : Bytes) : Bytes :=
  if scheme.isEmpty || !scheme.head?.any isAlpha || !scheme.all schemeCharacter then [] else lowercased scheme

theorem lineSchemeOf (clean : 58 ∉ scheme) (rest : Bytes) : lineScheme (scheme ++ 58 :: 47 :: 47 :: rest) = linkScheme scheme := by
  unfold lineScheme linkScheme
  simp only [takeUntil clean,dropUntil clean]
  cases scheme with
  | nil => rfl
  | cons first more =>
    have start : (58 :: 47 :: 47 :: rest).take 3 = ascii "://" := rfl
    have front : (first :: more ++ 58 :: 47 :: 47 :: rest).head? = some first := rfl
    simp only [start,front]
    cases isAlpha first <;> cases all : (first :: more).all schemeCharacter <;> simp

theorem schemeClean (letters : ∀ ch ∈ scheme, schemeCharacter ch = true) : 58 ∉ scheme ∧ 35 ∉ scheme :=
  ⟨fun mem => absurd (letters 58 mem) (by decide),fun mem => absurd (letters 35 mem) (by decide)⟩

def linkEndpoint (scheme h : Bytes) : Bytes :=
  if scheme = ascii "vmess" ∨ subscriptionSchemeSupported scheme = false then [] else displayableLabel h

/- What the delimiters leave of a credential and a host. -/
structure Delimited (u h : Bytes) : Prop where
  fragment : 35 ∉ u ∧ 35 ∉ h
  path : 47 ∉ u ∧ 47 ∉ h
  query : 63 ∉ u ∧ 63 ∉ h
  host : 64 ∉ h

theorem afterLastOf {mark : UInt8} {front rest : Bytes} (clean : mark ∉ rest) : afterLast mark (front ++ mark :: rest) = rest := by
  unfold afterLast
  rw [List.reverse_append,List.reverse_cons,List.append_assoc,List.singleton_append,takeUntil (by rwa [List.mem_reverse]),
    List.reverse_reverse]

theorem splitShareLink (letters : ∀ ch ∈ scheme, schemeCharacter ch = true) (delimited : Delimited u h) :
    splitLink (shareLink scheme u h r) =
      if (linkScheme scheme).isEmpty then {}
      else { scheme := linkScheme scheme, endpoint := linkEndpoint (linkScheme scheme) h, remark := displayableLabel (percentDecoded r),
             identity := withoutFragment scheme u h } := by
  obtain ⟨noColon,noHash⟩ := schemeClean letters
  have shape : shareLink scheme u h r = scheme ++ 58 :: 47 :: 47 :: (u ++ 64 :: (h ++ 35 :: r)) := by simp [shareLink,ascii]
  have identityShape : withoutFragment scheme u h = scheme ++ 58 :: 47 :: 47 :: (u ++ 64 :: h) := by simp [withoutFragment,ascii]
  have cut : shareLink scheme u h r = withoutFragment scheme u h ++ 35 :: r := by simp [shareLink,withoutFragment,ascii]
  have whole : 35 ∉ withoutFragment scheme u h := by
    rw [identityShape]
    simp [noHash,delimited.fragment.1,delimited.fragment.2]
  unfold splitLink
  rw [show lineScheme (shareLink scheme u h r) = linkScheme scheme by rw [shape,lineSchemeOf noColon]]
  dsimp only
  cases named : (linkScheme scheme).isEmpty with
  | true => rw [if_pos rfl,if_pos rfl]
  | false =>
    have length : (linkScheme scheme).length = scheme.length := by
      unfold linkScheme at named ⊢
      split at named
      · cases named
      · rename_i other
        rw [if_neg other,lowercased,List.length_map]
    have authority : ((withoutFragment scheme u h).drop ((linkScheme scheme).length + 3)).takeWhile (fun ch => ch != 47 && ch != 63) =
        u ++ 64 :: h := by
      have split : withoutFragment scheme u h = (scheme ++ [58,47,47]) ++ (u ++ 64 :: h) := by simp [withoutFragment,ascii]
      rw [split,List.drop_left' (by simp [length]),List.takeWhile_eq_self_iff]
      intro ch mem
      rw [List.mem_append,List.mem_cons] at mem
      have away : ch ≠ 47 ∧ ch ≠ 63 := by
        rcases mem with left | rfl | right
        · exact ⟨fun same => delimited.path.1 (same ▸ left),fun same => delimited.query.1 (same ▸ left)⟩
        · decide
        · exact ⟨fun same => delimited.path.2 (same ▸ right),fun same => delimited.query.2 (same ▸ right)⟩
      simpa using away
    have identity : (shareLink scheme u h r).takeWhile (· != 35) = withoutFragment scheme u h := by rw [cut,takeUntil whole]
    have remark : ((shareLink scheme u h r).dropWhile (· != 35)).drop 1 = r := by rw [cut,dropUntil whole]; rfl
    have hashed : (shareLink scheme u h r).contains 35 = true := by
      rw [cut,List.contains_iff_mem]
      simp
    have at_sign : (u ++ 64 :: h).contains 64 = true := by
      rw [List.contains_iff_mem]
      simp
    rw [if_neg Bool.false_ne_true,if_neg Bool.false_ne_true,identity,authority,remark,hashed,if_pos rfl,at_sign]
    simp only [Bool.true_eq_false,and_false,false_and,if_false,if_true,afterLastOf delimited.host]
    unfold linkEndpoint
    by_cases vmess : linkScheme scheme = ascii "vmess"
    · rw [if_pos vmess,if_pos (.inl vmess)]
    · rw [if_neg vmess]
      cases supported : subscriptionSchemeSupported (linkScheme scheme) with
      | false => simp
      | true => simp [vmess]

end Credential

section Published
variable {hex : Bytes → String} {existingTags : List Bytes} {existingLinkFingerprints : List String}

theorem numberedNonempty (position : Nat) : numberedTag position ≠ [] := by
  intro empty
  have length := congrArg List.length empty
  simp [numberedTag,ascii] at length

theorem derivedNonempty (remark : Bytes) (position : Nat) : deriveSubscriptionTag remark position ≠ [] := by
  unfold deriveSubscriptionTag
  dsimp only
  split
  · exact numberedNonempty position
  · split
    · exact numberedNonempty position
    · rename_i filled
      simpa using filled

/- The plan knows the link: an earlier line of the document is the same link, or a transport has it. -/
def Known (hex : Bytes → String) (existingLinkFingerprints : List String) (before : List DocumentLine) (identity : Bytes) : Prop :=
  (∃ earlier ∈ before, subscriptionSchemeSupported (splitLink earlier.text).scheme = true ∧ (splitLink earlier.text).identity = identity) ∨
    hex identity ∈ existingLinkFingerprints

/- The state the loop is in after the lines. -/
def stateAfter (hex : Bytes → String) (existingTags : List Bytes) (existingLinkFingerprints : List String) :
    PlanState → Nat → List DocumentLine → PlanState
  | state,_,[] => state
  | state,index,line :: rest =>
    stateAfter hex existingTags existingLinkFingerprints (planLine hex existingTags existingLinkFingerprints state index line).2
      (index + 1) rest

theorem candidateAt (state : PlanState) (index : Nat) (before : List DocumentLine) (line : DocumentLine) (after : List DocumentLine) :
    (planLines hex existingTags existingLinkFingerprints state index (before ++ line :: after))[before.length]? =
      some (planLine hex existingTags existingLinkFingerprints (stateAfter hex existingTags existingLinkFingerprints state index before)
        (index + before.length) line).1 := by
  induction before generalizing state index with
  | nil => rfl
  | cons first rest ih =>
    rw [List.cons_append,planLines,List.length_cons,List.getElem?_cons_succ,ih]
    rw [stateAfter,Nat.add_assoc,Nat.add_comm 1]

theorem occurrenceStep (state : PlanState) (index : Nat) (line : DocumentLine) (identity : Bytes) :
    ((planLine hex existingTags existingLinkFingerprints state index line).2.firstOccurrence.lookup identity).isSome = true ↔
      (state.firstOccurrence.lookup identity).isSome = true ∨
        subscriptionSchemeSupported (splitLink line.text).scheme = true ∧ (splitLink line.text).identity = identity := by
  unfold planLine
  dsimp only
  cases empty : (splitLink line.text).scheme.isEmpty with
  | true =>
    have unsupported : subscriptionSchemeSupported (splitLink line.text).scheme = false := by
      rw [List.isEmpty_iff.mp empty]
      decide
    simp [unsupported]
  | false =>
    rw [if_neg Bool.false_ne_true]
    cases supported : subscriptionSchemeSupported (splitLink line.text).scheme with
    | false => simp
    | true =>
      simp only [Bool.not_true,Bool.false_eq_true,if_false,true_and]
      cases found : state.firstOccurrence.lookup (splitLink line.text).identity with
      | some seen =>
        refine ⟨.inl,?_⟩
        rintro (known | rfl)
        · exact known
        · rw [found]
          rfl
      | none =>
        have added : (((splitLink line.text).identity,index) :: state.firstOccurrence).lookup identity =
            if identity = (splitLink line.text).identity then some index else state.firstOccurrence.lookup identity := by
          rw [List.lookup_cons]
          by_cases same : identity = (splitLink line.text).identity
          · rw [beq_iff_eq.mpr same,if_pos same]
          · rw [beq_eq_false_iff_ne.mpr same,if_neg same]
        have grown : ((((splitLink line.text).identity,index) :: state.firstOccurrence).lookup identity).isSome = true ↔
            (state.firstOccurrence.lookup identity).isSome = true ∨ (splitLink line.text).identity = identity := by
          rw [added]
          by_cases same : identity = (splitLink line.text).identity
          · rw [if_pos same]
            exact ⟨fun _ => .inr same.symm,fun _ => rfl⟩
          · rw [if_neg same]
            exact ⟨.inl,fun held => held.resolve_right fun other => same other.symm⟩
        rw [← grown]
        dsimp only
        split
        · rfl
        · split
          · rfl
          · split <;> rfl

theorem occurrencesAfter (state : PlanState) (index : Nat) (before : List DocumentLine) (identity : Bytes) :
    ((stateAfter hex existingTags existingLinkFingerprints state index before).firstOccurrence.lookup identity).isSome = true ↔
      (state.firstOccurrence.lookup identity).isSome = true ∨ ∃ earlier ∈ before,
        subscriptionSchemeSupported (splitLink earlier.text).scheme = true ∧ (splitLink earlier.text).identity = identity := by
  induction before generalizing state index with
  | nil => simp [stateAfter]
  | cons first rest ih =>
    rw [stateAfter,ih,occurrenceStep]
    simp only [List.mem_cons,exists_eq_or_imp,or_assoc]

def freshTag (existingTags : List Bytes) (state : PlanState) (base : Bytes) : Bytes :=
  if existingTags.contains base ∨ uniquifiedTag base state.assignedTags = [] then base else uniquifiedTag base state.assignedTags

theorem freshNonempty (state : PlanState) (remark : Bytes) (position : Nat) :
    freshTag existingTags state (deriveSubscriptionTag remark position) ≠ [] := by
  unfold freshTag
  split
  · exact derivedNonempty remark position
  · rename_i other
    exact (not_or.mp other).2

theorem publishedOf (state : PlanState) (index : Nat) (line : DocumentLine) :
    let candidate := (planLine hex existingTags existingLinkFingerprints state index line).1
    candidate.endpoint = (splitLink line.text).endpoint ∧ candidate.remark = (splitLink line.text).remark ∧
      candidate.suggestedTag =
        if subscriptionSchemeSupported (splitLink line.text).scheme = false ∨
          (state.firstOccurrence.lookup (splitLink line.text).identity).isSome = true ∨
          hex (splitLink line.text).identity ∈ existingLinkFingerprints then []
        else freshTag existingTags state (deriveSubscriptionTag (splitLink line.text).remark line.number) := by
  unfold planLine
  dsimp only
  cases empty : (splitLink line.text).scheme.isEmpty with
  | true =>
    have unsupported : subscriptionSchemeSupported (splitLink line.text).scheme = false := by
      rw [List.isEmpty_iff.mp empty]
      decide
    rw [if_pos rfl,if_pos (.inl unsupported)]
    exact ⟨rfl,rfl,rfl⟩
  | false =>
    rw [if_neg Bool.false_ne_true]
    cases supported : subscriptionSchemeSupported (splitLink line.text).scheme with
    | false => simp
    | true =>
      simp only [Bool.not_true,Bool.false_eq_true,if_false,Bool.true_eq_false,false_or]
      cases found : state.firstOccurrence.lookup (splitLink line.text).identity with
      | some seen => simp
      | none =>
        dsimp only [Option.isSome_none]
        by_cases configured : hex (splitLink line.text).identity ∈ existingLinkFingerprints
        · simp [configured]
        · simp only [List.contains_iff_mem,configured,if_false,Bool.false_eq_true,false_or]
          unfold freshTag
          by_cases taken : deriveSubscriptionTag (splitLink line.text).remark line.number ∈ existingTags
          · simp [taken]
          · by_cases none_left : uniquifiedTag (deriveSubscriptionTag (splitLink line.text).remark line.number) state.assignedTags = []
            · simp [taken,none_left]
            · simp [taken,none_left]

variable {scheme u v h r : Bytes} {before after : List DocumentLine} {number : Nat} {body other : Bytes}
    {kind otherKind : SubscriptionDocumentKind}

variable (hex existingTags existingLinkFingerprints) in
theorem publishedLink (letters : ∀ ch ∈ scheme, schemeCharacter ch = true) (delimited : Delimited u h) (state : PlanState) (index : Nat) :
    let candidate := (planLine hex existingTags existingLinkFingerprints state index ⟨shareLink scheme u h r,number⟩).1
    let remark := if (linkScheme scheme).isEmpty then [] else displayableLabel (percentDecoded r)
    candidate.endpoint = linkEndpoint (linkScheme scheme) h ∧ candidate.remark = remark ∧
      candidate.suggestedTag =
        if subscriptionSchemeSupported (linkScheme scheme) = false ∨
          (state.firstOccurrence.lookup (withoutFragment scheme u h)).isSome = true ∨
            hex (withoutFragment scheme u h) ∈ existingLinkFingerprints then []
        else freshTag existingTags state (deriveSubscriptionTag remark number) := by
  have published : let candidate := (planLine hex existingTags existingLinkFingerprints state index ⟨shareLink scheme u h r,number⟩).1
      candidate.endpoint = _ ∧ candidate.remark = _ ∧ candidate.suggestedTag = _ := publishedOf state index ⟨shareLink scheme u h r,number⟩
  dsimp only at published ⊢
  rw [published.1,published.2.1,published.2.2,splitShareLink letters delimited]
  cases named : (linkScheme scheme).isEmpty with
  | true =>
    have unsupported : subscriptionSchemeSupported ([] : Bytes) = false := by decide
    rw [List.isEmpty_iff.mp named]
    simp [unsupported,linkEndpoint]
  | false => exact ⟨rfl,rfl,rfl⟩

/- Endpoint and remark of a line do not depend on its credential, and neither does the suggested
tag but for whether the plan knows the link. -/
theorem credentialHidden (letters : ∀ ch ∈ scheme, schemeCharacter ch = true) (first : Delimited u h) (second : Delimited v h)
    (document : documentLines body = .ok (kind,before ++ ⟨shareLink scheme u h r,number⟩ :: after))
    (changed : documentLines other = .ok (otherKind,before ++ ⟨shareLink scheme v h r,number⟩ :: after)) :
    ∃ one two, (planSubscriptionImport hex existingTags existingLinkFingerprints body).candidates[before.length]? = some one ∧
      (planSubscriptionImport hex existingTags existingLinkFingerprints other).candidates[before.length]? = some two ∧
      one.endpoint = two.endpoint ∧ one.remark = two.remark ∧
      (one.suggestedTag = two.suggestedTag ↔ subscriptionSchemeSupported (linkScheme scheme) = false ∨
        (Known hex existingLinkFingerprints before (withoutFragment scheme u h) ↔
          Known hex existingLinkFingerprints before (withoutFragment scheme v h))) := by
  unfold planSubscriptionImport
  rw [document,changed]
  dsimp only
  rw [candidateAt,candidateAt,Nat.zero_add]
  refine ⟨_,_,rfl,rfl,?_⟩
  generalize reached : stateAfter hex existingTags existingLinkFingerprints { assignedTags := existingTags } 0 before = state
  have known (identity : Bytes) : (state.firstOccurrence.lookup identity).isSome = true ∨ hex identity ∈ existingLinkFingerprints ↔
      Known hex existingLinkFingerprints before identity := by
    rw [← reached,occurrencesAfter]
    simp [Known]
  obtain ⟨endpointOne,remarkOne,tagOne⟩ := publishedLink hex existingTags existingLinkFingerprints letters first state before.length
  obtain ⟨endpointTwo,remarkTwo,tagTwo⟩ := publishedLink hex existingTags existingLinkFingerprints letters second state before.length
  rw [endpointOne,endpointTwo,remarkOne,remarkTwo,tagOne,tagTwo,← known,← known]
  refine ⟨rfl,rfl,?_⟩
  have filled : freshTag existingTags state (deriveSubscriptionTag
      (if (linkScheme scheme).isEmpty then [] else displayableLabel (percentDecoded r)) number) ≠ [] := freshNonempty state _ number
  generalize freshTag existingTags state _ = fresh at filled ⊢
  cases subscriptionSchemeSupported (linkScheme scheme) with
  | false => simp
  | true =>
    simp only [Bool.true_eq_false,false_or]
    split
    · rename_i one
      split
      · rename_i two
        exact ⟨fun _ => ⟨fun _ => two,fun _ => one⟩,fun _ => rfl⟩
      · rename_i two
        exact ⟨fun same => absurd same.symm filled,fun same => absurd (same.mp one) two⟩
    · rename_i one
      split
      · rename_i two
        exact ⟨fun same => absurd same filled,fun same => absurd (same.mpr two) one⟩
      · rename_i two
        exact ⟨fun _ => ⟨fun held => absurd held one,fun held => absurd held two⟩,fun _ => rfl⟩

def twoServers (u : String) : Bytes := ascii ("vless://a@host:443#first\nvless://" ++ u ++ "@host:443#second")

def serverLines (u : String) : List DocumentLine :=
  [⟨ascii "vless://a@host:443#first",1⟩] ++ [⟨shareLink (ascii "vless") (ascii u) (ascii "host:443") (ascii "second"),2⟩]

theorem newLinkSame : ∃ one two : SubscriptionCandidate,
    (planSubscriptionImport (fun _ => "") [] [] (twoServers "b")).candidates[1]? = some one ∧
    (planSubscriptionImport (fun _ => "") [] [] (twoServers "c")).candidates[1]? = some two ∧
    one.endpoint = two.endpoint ∧ one.remark = two.remark ∧ one.suggestedTag = two.suggestedTag := by
  have first : documentLines (twoServers "b") = .ok (.linkList,serverLines "b") := by decide +kernel
  have second : documentLines (twoServers "c") = .ok (.linkList,serverLines "c") := by decide +kernel
  have letters : ∀ ch ∈ ascii "vless", schemeCharacter ch = true := List.all_eq_true.mp (by decide)
  have plainB : Delimited (ascii "b") (ascii "host:443") := ⟨by decide,by decide,by decide,by decide⟩
  have plainC : Delimited (ascii "c") (ascii "host:443") := ⟨by decide,by decide,by decide,by decide⟩
  have hidden : ∃ one two, (planSubscriptionImport (fun _ => "") [] [] (twoServers "b")).candidates[1]? = some one ∧ _ :=
    credentialHidden letters plainB plainC first second
  obtain ⟨one,two,atFirst,atSecond,endpoint,remark,tag⟩ := hidden
  refine ⟨one,two,atFirst,atSecond,endpoint,remark,tag.mpr (.inr (iff_of_false ?_ ?_))⟩
  · unfold Known
    decide
  · unfold Known
    decide

/- The second line repeats the first link; with another credential it is offered under its own tag.
A slash ends the authority within the credential, which is then shown as the endpoint. -/
theorem repeatedUntagged :
    (planSubscriptionImport (fun _ => "") [] [] (twoServers "a")).candidates[1]?.map
    (fun candidate : SubscriptionCandidate => candidate.suggestedTag) = some [] ∧
    (planSubscriptionImport (fun _ => "") [] [] (twoServers "b")).candidates[1]?.map
    (fun candidate : SubscriptionCandidate => candidate.suggestedTag) = some (ascii "second") ∧
    (planSubscriptionImport (fun _ => "") [] [] (ascii "http://user:se/cret@host#x")).candidates[0]?.map
    (fun candidate : SubscriptionCandidate => candidate.endpoint) = some (ascii "user:se") ∧
    (planSubscriptionImport (fun _ => "") [] [] (ascii "http://user@host#x")).candidates[0]?.map
    (fun candidate : SubscriptionCandidate => candidate.endpoint) = some (ascii "host") := by
  decide +kernel

end Published

end KeenPbr.SubscriptionImport
