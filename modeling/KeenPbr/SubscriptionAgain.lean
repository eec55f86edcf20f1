import KeenPbr.Fields
import KeenPbr.SubscriptionImport

/-! The tags of a plan are new, valid and distinct, and a body that was imported offers nothing again. -/
namespace KeenPbr.SubscriptionImport

section Tags
variable {tag base : Bytes}

def tagByte (ch : UInt8) : Bool := isLower ch || isNumber ch || ch == 95

/- The pattern ^[a-z][a-z0-9_]{0,23}$ of a transport's tag. -/
structure TagPattern (tag : Bytes) : Prop where
  first : ∃ ch, tag.head? = some ch ∧ isLower ch = true
  bytes : ∀ ch ∈ tag, tagByte ch = true
  short : tag.length ≤ kSubscriptionMaximumTagLength

theorem loweredByte {ch : UInt8} (alnum : isAlnum ch = true) : tagByte (toLower ch) = true := by
  unfold toLower
  split
  · rename_i upper
    have bounds : 65 ≤ ch.toNat ∧ ch.toNat ≤ 90 := by
      rw [isUpper,Bool.and_eq_true,decide_eq_true_eq,decide_eq_true_eq] at upper
      exact upper
    have value : (ch + 32).toNat = ch.toNat + 32 := by
      rw [UInt8.toNat_add]
      exact Nat.mod_eq_of_lt (show ch.toNat + 32 < 256 by omega)
    have lower : isLower (ch + 32) = true := by
      rw [isLower,Bool.and_eq_true,decide_eq_true_eq,decide_eq_true_eq,UInt8.le_iff_toNat_le,UInt8.le_iff_toNat_le,value]
      exact ⟨show 97 ≤ ch.toNat + 32 by omega,show ch.toNat + 32 ≤ 122 by omega⟩
    rw [tagByte,lower]
    rfl
  · rename_i other
    simp only [isAlnum,isAlpha,Bool.or_eq_true] at alnum
    rcases alnum with (lower | upper) | number
    · rw [tagByte,lower]
      rfl
    · exact absurd upper other
    · rw [tagByte,number]
      simp

theorem charactersBytes {remark : Bytes} (start : ∀ ch ∈ tag, tagByte ch = true) : ∀ ch ∈ tagCharacters tag remark, tagByte ch = true := by
  induction remark generalizing tag with
  | nil => exact start
  | cons ch rest ih =>
    rw [tagCharacters]
    split
    · rename_i alnum
      refine ih fun other mem => ?_
      rcases List.mem_append.mp mem with old | new
      · exact start other old
      · rw [List.mem_singleton.mp new]
        exact loweredByte alnum
    · split
      · exact ih start
      · refine ih fun other mem => ?_
        rcases List.mem_append.mp mem with old | new
        · exact start other old
        · rw [List.mem_singleton.mp new]
          rfl

theorem underscoresPrefix (tag : Bytes) : dropUnderscores tag <+: tag := by
  have tail := List.reverse_prefix.mpr (List.dropWhile_suffix (l := tag.reverse) (· == 95))
  rw [List.reverse_reverse] at tail
  exact tail

theorem prefixHead {front whole : Bytes} (part : front <+: whole) (filled : front ≠ []) : whole.head? = front.head? := by
  obtain ⟨rest,rfl⟩ := part
  obtain ⟨ch,more,rfl⟩ := List.exists_cons_of_ne_nil filled
  rfl

theorem decimalBytes (value : Nat) : ∀ ch ∈ ascii (toString value), isNumber ch = true := by
  intro ch mem
  obtain ⟨c,listed,rfl⟩ := List.mem_map.mp mem
  rw [Nat.toString_eq_ofList_toDigits,String.toList_ofList] at listed
  have digit : c.isDigit = true := Nat.isDigit_of_mem_toDigits (by decide) (by decide) listed
  rw [Char.isDigit,Bool.and_eq_true,decide_eq_true_eq,decide_eq_true_eq] at digit
  have low : 48 ≤ c.toNat := digit.1
  have high : c.toNat ≤ 57 := digit.2
  have value : (UInt8.ofNat c.toNat).toNat = c.toNat := by
    rw [UInt8.toNat_ofNat']
    exact Nat.mod_eq_of_lt (by omega)
  rw [isNumber,Bool.and_eq_true,decide_eq_true_eq,decide_eq_true_eq,UInt8.le_iff_toNat_le,UInt8.le_iff_toNat_le,value]
  exact ⟨low,high⟩

theorem decimalLength {value digits : Nat} (small : value < 10 ^ digits) (some : 0 < digits) :
    (ascii (toString value)).length ≤ digits := by
  rw [ascii,List.length_map,Nat.toString_eq_ofList_toDigits,String.toList_ofList]
  exact (Nat.length_toDigits_le_iff (by decide) some).mpr small

theorem asciiAppend (front back : String) : ascii (front ++ back) = ascii front ++ ascii back := by
  rw [ascii,String.toList_append,List.map_append]
  rfl

theorem suffixBytes (front : String) (plain : ∀ ch ∈ ascii front, tagByte ch = true) (value : Nat) :
    ∀ ch ∈ ascii (front ++ toString value), tagByte ch = true := by
  intro ch mem
  rw [asciiAppend] at mem
  rcases List.mem_append.mp mem with own | digit
  · exact plain ch own
  · rw [tagByte,decimalBytes value ch digit]
    simp

theorem numberedPattern {position : Nat} (small : position < 10 ^ 20) : TagPattern (numberedTag position) := by
  refine ⟨⟨115,?_,by decide⟩,suffixBytes "sub_" ?_ position,?_⟩
  · rw [numberedTag,asciiAppend]
    rfl
  · exact fun ch mem => List.all_eq_true.mp (show (ascii "sub_").all tagByte = true by decide) ch mem
  · have digits := decimalLength small (by decide)
    rw [numberedTag,asciiAppend,List.length_append]
    have front : (ascii "sub_").length = 4 := rfl
    unfold kSubscriptionMaximumTagLength
    omega

theorem derivedPattern (remark : Bytes) {position : Nat} (small : position < 10 ^ 20) :
    TagPattern (deriveSubscriptionTag remark position) := by
  unfold deriveSubscriptionTag
  dsimp only
  split
  · exact numberedPattern small
  · rename_i some
    split
    · exact numberedPattern small
    · rename_i filled
      have part : dropUnderscores (((tagCharacters [] remark).dropWhile fun ch => !isLower ch).take kSubscriptionMaximumTagLength) <+:
        (tagCharacters [] remark).dropWhile fun ch => !isLower ch := (underscoresPrefix _).trans (List.take_prefix ..)
      refine ⟨?_,fun ch mem => ?_,?_⟩
      · have lead : ∀ ch, ((tagCharacters [] remark).dropWhile fun ch => !isLower ch).head? = Option.some ch → isLower ch = true := by
          intro ch front
          have stop := List.head?_dropWhile_not (fun ch => !isLower ch) (tagCharacters [] remark)
          rw [front] at stop
          simpa using stop
        obtain ⟨ch,rest,shape⟩ := List.exists_cons_of_ne_nil (fun none => filled (List.isEmpty_iff.mpr none))
        rw [shape]
        refine ⟨ch,rfl,lead ch ?_⟩
        rw [prefixHead part (by rw [shape]; exact List.cons_ne_nil _ _),shape]
        rfl
      · exact charactersBytes (by simp) ch ((List.dropWhile_suffix _).subset (part.subset mem))
      · exact (underscoresPrefix _).length_le.trans (List.length_take_le ..)

def cutBase (base tail : Bytes) : Bytes :=
  if base.length + tail.length > kSubscriptionMaximumTagLength then base.take (kSubscriptionMaximumTagLength - tail.length) else base

def numberedCandidate (base tail : Bytes) : Bytes :=
  (if (dropUnderscores (cutBase base tail)).isEmpty then ascii "sub" else dropUnderscores (cutBase base tail)) ++ tail

theorem uniquifiedStep (base : Bytes) (taken : List Bytes) (left suffix : Nat) : uniquifiedFrom base taken (left + 1) suffix =
    if taken.contains (numberedCandidate base (ascii ("_" ++ toString suffix))) then uniquifiedFrom base taken left (suffix + 1)
    else numberedCandidate base (ascii ("_" ++ toString suffix)) := rfl

theorem cutFits (base : Bytes) {tail : Bytes} (four : tail.length ≤ 4) : cutBase base tail <+: base ∧
    (cutBase base tail).length + tail.length ≤ kSubscriptionMaximumTagLength := by
  unfold cutBase
  split
  · refine ⟨List.take_prefix ..,?_⟩
    rw [List.length_take]
    unfold kSubscriptionMaximumTagLength at *
    omega
  · rename_i fits
    exact ⟨List.prefix_refl base,Nat.le_of_not_gt fits⟩

theorem numberedHead (pattern : TagPattern base) {numbered : Bytes} (tail : ∀ ch ∈ numbered, tagByte ch = true)
    (four : numbered.length ≤ 4) :
    TagPattern (numberedCandidate base numbered) := by
  obtain ⟨part,fits⟩ := cutFits base four
  have trimmed := underscoresPrefix (cutBase base numbered)
  unfold numberedCandidate
  split
  · refine ⟨⟨115,rfl,by decide⟩,fun ch mem => ?_,?_⟩
    · rcases List.mem_append.mp mem with own | digit
      · exact List.all_eq_true.mp (show (ascii "sub").all tagByte = true by decide) ch own
      · exact tail ch digit
    · rw [List.length_append]
      have front : (ascii "sub").length = 3 := rfl
      unfold kSubscriptionMaximumTagLength
      omega
  · rename_i filled
    have some : dropUnderscores (cutBase base numbered) ≠ [] := fun none => filled (List.isEmpty_iff.mpr none)
    obtain ⟨ch,front,lower⟩ := pattern.first
    refine ⟨⟨ch,?_,lower⟩,fun ch mem => ?_,?_⟩
    · rw [prefixHead (List.prefix_append _ _) some,← prefixHead (trimmed.trans part) some]
      exact front
    · rcases List.mem_append.mp mem with own | digit
      · exact pattern.bytes ch ((trimmed.trans part).subset own)
      · exact tail ch digit
    · rw [List.length_append]
      have shorter := trimmed.length_le
      omega

theorem suffixPattern (pattern : TagPattern base) {suffix : Nat} (small : suffix < 1000) :
    TagPattern (numberedCandidate base (ascii ("_" ++ toString suffix))) := by
  refine numberedHead pattern (suffixBytes "_" ?_ suffix) ?_
  · exact fun ch mem => List.all_eq_true.mp (show (ascii "_").all tagByte = true by decide) ch mem
  · have digits := @decimalLength suffix 3 small (by decide)
    rw [asciiAppend,List.length_append]
    have front : (ascii "_").length = 1 := rfl
    omega

theorem uniquifiedPattern (pattern : TagPattern base) {taken : List Bytes} {left suffix : Nat} (small : left + suffix ≤ 1000)
    {unique : Bytes}
    (found : uniquifiedFrom base taken left suffix = unique) (filled : unique ≠ []) : TagPattern unique ∧ unique ∉ taken := by
  induction left generalizing suffix with
  | zero => exact absurd found.symm filled
  | succ left ih =>
    rw [uniquifiedStep] at found
    split at found
    · exact ih (by omega) found
    · rename_i fresh
      subst found
      exact ⟨suffixPattern pattern (by omega),fun mem => fresh (List.contains_iff_mem.mpr mem)⟩

theorem freshTagOf (pattern : TagPattern base) (taken : List Bytes) :
    (uniquifiedTag base taken ≠ [] → TagPattern (uniquifiedTag base taken) ∧ uniquifiedTag base taken ∉ taken) ∧
    (uniquifiedTag base taken = [] → base ∈ taken) := by
  unfold uniquifiedTag
  split
  · rename_i used
    exact ⟨fun filled => uniquifiedPattern pattern (by decide) rfl filled,fun _ => List.contains_iff_mem.mp used⟩
  · rename_i free
    refine ⟨fun _ => ⟨pattern,fun mem => free (List.contains_iff_mem.mpr mem)⟩,fun none => ?_⟩
    obtain ⟨ch,front,_⟩ := pattern.first
    rw [none] at front
    cases front

end Tags

section Lines
variable {body : Bytes}

theorem solidFront {text : Bytes} (front : ∀ ch, text.head? = some ch → blank ch = false) : text.dropWhile blank = text := by
  cases text with
  | nil => rfl
  | cons ch rest => rw [List.dropWhile_cons,front ch rfl]; rfl

theorem trimmedAgain (text : Bytes) : trimmedCopy (trimmedCopy text) = trimmedCopy text := by
  have front : (trimmedCopy text).dropWhile blank = trimmedCopy text :=
    solidFront fun ch found => Fields.stripFront (show (Fields.strip blank text).head? = some ch from found)
  have back : (trimmedCopy text).reverse.dropWhile blank = (trimmedCopy text).reverse := by
    refine solidFront fun ch found => ?_
    rw [List.head?_reverse] at found
    exact Fields.stripBack (show (Fields.strip blank text).getLast? = some ch from found)
  conv => lhs; rw [trimmedCopy]
  rw [front,back,List.reverse_reverse]

theorem splitLength (text : Bytes) : (text.splitOn 10).length ≤ text.length + 1 := by
  induction text with
  | nil => exact Nat.le_refl 1
  | cons ch rest ih =>
    rw [List.splitOn_cons_eq_if_modifyHead]
    split
    · rw [List.length_cons,List.length_cons]
      omega
    · rw [List.length_modifyHead,List.length_cons]
      omega

theorem candidateLine {text : Bytes} {line : DocumentLine} (mem : line ∈ candidateLines text) :
    trimmedCopy line.text = line.text ∧ line.number ≤ text.length + 1 := by
  obtain ⟨⟨raw,number⟩,listed,found⟩ := List.mem_filterMap.mp mem
  have bound := List.snd_lt_of_mem_zipIdx listed
  have pieces := splitLength text
  dsimp only at found bound
  split at found
  · cases found
    exact ⟨trimmedAgain raw,by dsimp only; omega⟩
  · cases found

theorem decodedLength {accumulator : UInt32} {bits symbols : Nat} {seen text decoded : Bytes}
    (read : base64From accumulator bits symbols seen text = some decoded) : decoded.length ≤ seen.length + text.length := by
  induction text generalizing accumulator bits symbols seen with
  | nil =>
    rw [base64From] at read
    split at read
    · cases read
      exact Nat.le_refl _
    · cases read
  | cons ch rest ih =>
    rw [base64From] at read
    rw [List.length_cons]
    split at read
    · have shorter := ih read
      omega
    · split at read
      · cases read
      · dsimp only at read
        split at read
        · have shorter := ih read
          rw [List.length_append,List.length_singleton] at shorter
          omega
        · have shorter := ih read
          omega

theorem documentLine {kind : SubscriptionDocumentKind} {lines : List DocumentLine} (read : documentLines body = .ok (kind,lines)) :
    ∀ line ∈ lines, trimmedCopy line.text = line.text ∧ line.number < 10 ^ 20 := by
  unfold documentLines at read
  split at read
  · cases read
  · rename_i small
    unfold kSubscriptionMaximumBytes at small
    dsimp only at read
    split at read
    · cases read
    · split at read
      · cases read
      · have bounded {text : Bytes} (fits : text.length ≤ body.length) :
          ∀ line ∈ candidateLines text, trimmedCopy line.text = line.text ∧ line.number < 10 ^ 20 := by
          intro line mem
          obtain ⟨trimmed,number⟩ := candidateLine mem
          exact ⟨trimmed,by omega⟩
        split at read
        · cases read
        · rename_i found chosen
          split at read
          · cases read
          · split at read
            · cases read
            · cases read
              split at chosen
              · cases chosen
                exact bounded (Nat.le_refl _)
              · split at chosen
                · cases chosen
                · rename_i decoded base64
                  split at chosen
                  · cases chosen
                    have fits := decodedLength base64
                    exact bounded (by simpa using fits)
                  · split at chosen <;> cases chosen

end Lines

section Plans
variable {hex : Bytes → String} {existingTags : List Bytes} {existingLinkFingerprints : List String}

def subscriptionLinkFingerprint (hex : Bytes → String) (link : Bytes) : String :=
  let trimmed := trimmedCopy link
  if trimmed.isEmpty then ""
  else
    let identity := trimmed.takeWhile (· != 35)
    if identity.isEmpty then "" else hex identity

def importable (candidate : SubscriptionCandidate) : Bool := candidate.disposition = .importable

def importedTags (plan : SubscriptionImportPlan) : List Bytes := (plan.candidates.filter importable).map (·.suggestedTag)

def importedLinks (plan : SubscriptionImportPlan) : List Bytes :=
  ((plan.candidates.zip plan.links).filter fun offered => importable offered.1).map (·.2)

def lineTag (line : DocumentLine) : Bytes := deriveSubscriptionTag (splitLink line.text).remark line.number

def Offered (state : PlanState) (line : DocumentLine) : Prop :=
  (splitLink line.text).scheme.isEmpty = false ∧ subscriptionSchemeSupported (splitLink line.text).scheme = true ∧
    state.firstOccurrence.lookup (splitLink line.text).identity = none

theorem planLineCases (hex : Bytes → String) (existingTags : List Bytes) (existingLinkFingerprints : List String)
    (state : PlanState) (index : Nat)
    (line : DocumentLine) : ∃ candidate next, planLine hex existingTags existingLinkFingerprints state index line = (candidate,next) ∧
    ((importable candidate = false ∧ next = state ∧ ¬Offered state line) ∨
      (Offered state line ∧ next.firstOccurrence = ((splitLink line.text).identity,index) :: state.firstOccurrence ∧
        ((importable candidate = false ∧ next.assignedTags = state.assignedTags ∧
          (hex (splitLink line.text).identity ∈ existingLinkFingerprints ∨
            lineTag line ∈ existingTags ∨ uniquifiedTag (lineTag line) state.assignedTags = [])) ∨
          (importable candidate = true ∧ hex (splitLink line.text).identity ∉ existingLinkFingerprints ∧ lineTag line ∉ existingTags ∧
            uniquifiedTag (lineTag line) state.assignedTags ≠ [] ∧
              candidate.suggestedTag = uniquifiedTag (lineTag line) state.assignedTags ∧
            next.assignedTags = uniquifiedTag (lineTag line) state.assignedTags :: state.assignedTags)))) := by
  unfold planLine
  dsimp only
  split
  · rename_i empty
    exact ⟨_,_,rfl,.inl ⟨rfl,rfl,fun offered => by rw [offered.1] at empty; cases empty⟩⟩
  · rename_i some
    split
    · rename_i foreign
      exact ⟨_,_,rfl,.inl ⟨rfl,rfl,fun offered => by rw [offered.2.1] at foreign; cases foreign⟩⟩
    · rename_i supported
      split
      · rename_i seen found
        exact ⟨_,_,rfl,.inl ⟨rfl,rfl,fun offered => by rw [offered.2.2] at found; cases found⟩⟩
      · rename_i none
        have offered : Offered state line := ⟨Bool.eq_false_iff.mpr some,by simpa using supported,none⟩
        split
        · rename_i known
          exact ⟨_,_,rfl,.inr ⟨offered,rfl,.inl ⟨rfl,rfl,.inl (List.contains_iff_mem.mp known)⟩⟩⟩
        · rename_i unknown
          split
          · rename_i owned
            exact ⟨_,_,rfl,.inr ⟨offered,rfl,.inl ⟨rfl,rfl,.inr (.inl (List.contains_iff_mem.mp owned))⟩⟩⟩
          · rename_i free
            split
            · rename_i full
              exact ⟨_,_,rfl,.inr ⟨offered,rfl,.inl ⟨rfl,rfl,.inr (.inr (List.isEmpty_iff.mp full))⟩⟩⟩
            · rename_i fresh
              exact ⟨_,_,rfl,.inr ⟨offered,rfl,
                .inr ⟨rfl,fun mem => unknown (List.contains_iff_mem.mpr mem),fun mem => free (List.contains_iff_mem.mpr mem),
                fun none => fresh (List.isEmpty_iff.mpr none),rfl,rfl⟩⟩⟩

theorem planTags {state : PlanState} {index : Nat} {lines : List DocumentLine} (bounded : ∀ line ∈ lines, line.number < 10 ^ 20) :
    (((planLines hex existingTags existingLinkFingerprints state index lines).filter importable).map (·.suggestedTag)).Nodup ∧
      ∀ tag ∈ ((planLines hex existingTags existingLinkFingerprints state index lines).filter importable).map (·.suggestedTag),
        tag ∉ state.assignedTags ∧ TagPattern tag := by
  induction lines generalizing state index with
  | nil => exact ⟨List.nodup_nil,by simp [planLines]⟩
  | cons line rest ih =>
    obtain ⟨small,later⟩ := List.forall_mem_cons.mp bounded
    obtain ⟨candidate,next,planned,cases_⟩ := planLineCases hex existingTags existingLinkFingerprints state index line
    obtain ⟨distinct,fresh⟩ := @ih next (index + 1) later
    rw [planLines,planned]
    dsimp only
    rcases cases_ with ⟨passed,same,_⟩ | ⟨_,_,⟨passed,same,_⟩ | ⟨taken,_,_,filled,tag,grown⟩⟩
    · rw [List.filter_cons_of_neg (by rw [passed]; exact Bool.false_ne_true)]
      subst same
      exact ⟨distinct,fresh⟩
    · rw [List.filter_cons_of_neg (by rw [passed]; exact Bool.false_ne_true)]
      rw [same] at fresh
      exact ⟨distinct,fresh⟩
    · have pattern := (freshTagOf (derivedPattern (splitLink line.text).remark small) state.assignedTags).1 filled
      rw [List.filter_cons_of_pos taken,List.map_cons,tag]
      rw [grown] at fresh
      refine ⟨List.nodup_cons.mpr ⟨fun mem => (fresh _ mem).1 List.mem_cons_self,distinct⟩,fun other mem => ?_⟩
      rcases List.mem_cons.mp mem with rfl | more
      · exact ⟨pattern.2,pattern.1⟩
      · exact ⟨fun held => (fresh other more).1 (List.mem_cons_of_mem _ held),(fresh other more).2⟩

theorem offeredAlike {state other : PlanState}
    (seen : ∀ identity, (other.firstOccurrence.lookup identity).isSome = (state.firstOccurrence.lookup identity).isSome)
    (line : DocumentLine) : Offered other line ↔ Offered state line := by
  have same := seen (splitLink line.text).identity
  unfold Offered
  rw [← Option.isNone_iff_eq_none,← Option.isNone_iff_eq_none,← Option.not_isSome,← Option.not_isSome,same]

/- A second run over the lines, where the transports have every tag and every link that the first run imports. -/
theorem planAgain {state other : PlanState} {index : Nat} {lines : List DocumentLine} {tags : List Bytes} {prints : List String}
    (seen : ∀ identity, (other.firstOccurrence.lookup identity).isSome = (state.firstOccurrence.lookup identity).isSome)
    (wider : existingTags ⊆ tags)
    (more : existingLinkFingerprints ⊆ prints) (held : state.assignedTags ⊆ tags) (bounded : ∀ line ∈ lines, line.number < 10 ^ 20)
    (imported : ∀ offered ∈ (planLines hex existingTags existingLinkFingerprints state index lines).zip lines, importable offered.1 = true →
      offered.1.suggestedTag ∈ tags ∧ hex (splitLink offered.2.text).identity ∈ prints) :
    ∀ candidate ∈ planLines hex tags prints other index lines, importable candidate = false := by
  induction lines generalizing state other index with
  | nil =>
    intro candidate mem
    cases mem
  | cons line rest ih =>
    obtain ⟨small,later⟩ := List.forall_mem_cons.mp bounded
    obtain ⟨first,next,planned,cases_⟩ := planLineCases hex existingTags existingLinkFingerprints state index line
    obtain ⟨second,next',planned',cases'⟩ := planLineCases hex tags prints other index line
    rw [planLines,planned,List.zip_cons_cons] at imported
    obtain ⟨own,others⟩ := List.forall_mem_cons.mp imported
    rw [planLines,planned']
    dsimp only at own others ⊢
    rcases cases_ with ⟨_,same,passed⟩ | ⟨offered,opened,outcome⟩
    · rcases cases' with ⟨quiet,same',_⟩ | ⟨offered',_⟩
      · subst same
        subst same'
        exact List.forall_mem_cons.mpr ⟨quiet,ih seen held later others⟩
      · exact absurd ((offeredAlike seen line).mp offered') passed
    · rcases cases' with ⟨_,_,passed'⟩ | ⟨_,opened',outcome'⟩
      · exact absurd ((offeredAlike seen line).mpr offered) passed'
      · have kept : next.assignedTags ⊆ tags := by
          rcases outcome with ⟨_,same,_⟩ | ⟨taken,_,_,_,tag,grown⟩
          · rw [same]
            exact held
          · rw [grown,← tag]
            exact List.cons_subset.mpr ⟨(own taken).1,held⟩
        have alike : ∀ identity, (next'.firstOccurrence.lookup identity).isSome = (next.firstOccurrence.lookup identity).isSome := by
          intro identity
          rw [opened,opened',List.lookup_cons,List.lookup_cons]
          cases identity == (splitLink line.text).identity with
          | true => rfl
          | false => exact seen identity
        have quiet : importable second = false := by
          rcases outcome' with ⟨no,_⟩ | ⟨_,unknown,free,_⟩
          · exact no
          · rcases outcome with ⟨_,_,known | owned | full⟩ | ⟨taken,_⟩
            · exact absurd (more known) unknown
            · exact absurd (wider owned) free
            · exact absurd (held ((freshTagOf (derivedPattern (splitLink line.text).remark small) state.assignedTags).2 full)) free
            · exact absurd (own taken).2 unknown
        exact List.forall_mem_cons.mpr ⟨quiet,ih alike kept later others⟩

theorem splitIdentity {link : Bytes} (scheme : (splitLink link).scheme.isEmpty = false) :
    (lineScheme link).isEmpty = false ∧ (splitLink link).identity = link.takeWhile (· != 35) := by
  unfold splitLink at scheme ⊢
  dsimp only at scheme ⊢
  split at scheme
  · cases scheme
  · rename_i some
    rw [if_neg some]
    refine ⟨Bool.eq_false_iff.mpr some,?_⟩
    split
    · rfl
    · split
      · rfl
      · split
        · rfl
        · split <;> rfl

theorem lineFingerprint (hex : Bytes → String) {link : Bytes} (trimmed : trimmedCopy link = link)
    (scheme : (splitLink link).scheme.isEmpty = false) :
    subscriptionLinkFingerprint hex link = hex (splitLink link).identity := by
  obtain ⟨uri,identity⟩ := splitIdentity scheme
  have lead : link.head?.any isAlpha = true := by
    unfold lineScheme at uri
    dsimp only at uri
    split at uri
    · cases uri
    · split at uri
      · cases uri
      · rename_i letter
        simpa using letter
  cases link with
  | nil => cases lead
  | cons ch rest =>
    have own : (ch != 35) = true := by
      rw [bne_iff_ne]
      rintro rfl
      cases lead
    rw [subscriptionLinkFingerprint]
    dsimp only
    have shown : (ch :: rest).takeWhile (· != 35) = ch :: rest.takeWhile (· != 35) := List.takeWhile_cons_of_pos (p := (· != 35)) own
    rw [trimmed,identity,shown]
    rfl

theorem importedOffered {state : PlanState} {index : Nat} {lines : List DocumentLine} :
    ∀ offered ∈ (planLines hex existingTags existingLinkFingerprints state index lines).zip lines, importable offered.1 = true →
      (splitLink offered.2.text).scheme.isEmpty = false := by
  induction lines generalizing state index with
  | nil =>
    intro offered mem
    rw [planLines] at mem
    cases mem
  | cons line rest ih =>
    obtain ⟨candidate,next,planned,cases_⟩ := planLineCases hex existingTags existingLinkFingerprints state index line
    rw [planLines,planned]
    refine List.forall_mem_cons.mpr ⟨fun taken => ?_,ih⟩
    rcases cases_ with ⟨passed,_,_⟩ | ⟨offered,_,_⟩
    · exact absurd (passed.symm.trans taken) Bool.false_ne_true
    · exact offered.1

/- Every tag of a plan is new, valid and its own, and behind an import the body offers nothing. -/
theorem importedOnce (hex : Bytes → String) (existingTags : List Bytes) (existingLinkFingerprints : List String) (body : Bytes) :
    (importedTags (planSubscriptionImport hex existingTags existingLinkFingerprints body)).Nodup ∧
    (∀ tag ∈ importedTags (planSubscriptionImport hex existingTags existingLinkFingerprints body), tag ∉ existingTags ∧ TagPattern tag) ∧
    ∀ candidate ∈ (planSubscriptionImport hex
      (existingTags ++ importedTags (planSubscriptionImport hex existingTags existingLinkFingerprints body))
      (existingLinkFingerprints ++ (importedLinks (planSubscriptionImport hex existingTags existingLinkFingerprints body)).map
        (subscriptionLinkFingerprint hex))
      body).candidates, candidate.disposition ≠ .importable := by
  unfold planSubscriptionImport
  cases read : documentLines body with
  | error kind => exact ⟨List.nodup_nil,by simp [importedTags],by simp⟩
  | ok found =>
    obtain ⟨kind,lines⟩ := found
    have valid := documentLine read
    have bounded : ∀ line ∈ lines, line.number < 10 ^ 20 := fun line mem => (valid line mem).2
    dsimp only [importedTags,importedLinks]
    obtain ⟨distinct,fresh⟩ := @planTags hex existingTags existingLinkFingerprints { assignedTags := existingTags } 0 lines bounded
    refine ⟨distinct,fresh,fun candidate mem again => ?_⟩
    have quiet := @planAgain hex existingTags existingLinkFingerprints { assignedTags := existingTags } _ 0 lines _ _ ?_
      (List.subset_append_left ..) (List.subset_append_left ..) (List.subset_append_left ..) bounded ?_ candidate mem
    · rw [importable,again] at quiet
      cases quiet
    · exact fun _ => rfl
    · rintro ⟨first,line⟩ listed taken
      have inPlan : first ∈ planLines hex existingTags existingLinkFingerprints { assignedTags := existingTags } 0 lines :=
        (List.of_mem_zip listed).1
      refine ⟨List.mem_append_right _ (List.mem_map.mpr ⟨first,List.mem_filter.mpr ⟨inPlan,taken⟩,rfl⟩),List.mem_append_right _ ?_⟩
      have print := lineFingerprint hex (valid line (List.of_mem_zip listed).2).1 (importedOffered (first,line) listed taken)
      rw [← print,List.map_map]
      refine List.mem_map.mpr ⟨(first,line.text),List.mem_filter.mpr ⟨?_,taken⟩,rfl⟩
      rw [List.zip_map_right]
      exact List.mem_map.mpr ⟨(first,line),listed,rfl⟩

end Plans
end KeenPbr.SubscriptionImport
