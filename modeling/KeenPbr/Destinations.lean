import KeenPbr.Fields
import KeenPbr.ListParser

/-! What an IpSet holds after it took validated entries, and which of them it refuses: its own
readers know neither the zero character inet_pton stops at nor the sign std::from_chars takes. -/
namespace KeenPbr
open Blocks

section Refused
variable {text : Text} {bytes : List UInt8}

theorem octetChars {rest : Text} {octet : UInt8} (read : parseOctet text = some (octet,rest)) :
    ∃ digits, text = digits ++ rest ∧ ∀ c ∈ digits, isDigit c = true := by
  unfold parseOctet at read
  simp only at read
  split at read
  · cases read
  · split at read
    · cases read
    · cases read
      exact ⟨text.takeWhile isDigit,List.takeWhile_append_dropWhile.symm,fun c mem => List.mem_takeWhile_imp mem⟩

theorem digitChar {c : Char} (digit : isDigit c = true) : addressChar c = true := by
  rw [isDigit] at digit
  rw [addressChar,isHex,hexDigit,if_pos digit]
  rfl

theorem octetsChars {left : Nat} (read : parseOctets left text = some bytes) : ∀ c ∈ text, addressChar c = true := by
  induction left generalizing text bytes with
  | zero =>
    unfold parseOctets at read
    split at read
    · rename_i empty
      rw [List.isEmpty_iff.mp empty]
      exact List.forall_mem_nil _
    · cases read
  | succ left ih =>
    unfold parseOctets at read
    split at read
    · rename_i tail
      simp only [Option.bind_eq_bind,Option.bind_eq_some_iff] at read
      obtain ⟨⟨octet,after⟩,first,octets,more,_⟩ := read
      obtain ⟨digits,rfl,every⟩ := octetChars first
      intro c mem
      simp only [List.mem_cons,List.mem_append] at mem
      rcases mem with rfl | front | back
      · rfl
      · exact digitChar (every c front)
      · exact ih more c back
    · cases read

theorem ipv4Chars (read : parseIpv4 text = some bytes) : ∀ c ∈ text, addressChar c = true := by
  unfold parseIpv4 at read
  simp only [Option.bind_eq_bind,Option.bind_eq_some_iff] at read
  obtain ⟨⟨octet,after⟩,first,octets,more,_⟩ := read
  obtain ⟨digits,rfl,every⟩ := octetChars first
  intro c mem
  rcases List.mem_append.mp mem with front | back
  · exact digitChar (every c front)
  · exact octetsChars more c back

theorem groupChars {value : Nat} {after : Text} (read : parseHexGroup text = some (value,after)) :
    ∃ digits, text = digits ++ after ∧ ∀ c ∈ digits, addressChar c = true := by
  unfold parseHexGroup at read
  simp only at read
  split at read
  · cases read
  · cases read
    refine ⟨(text.take 4).takeWhile isHex,?_,?_⟩
    · have front : (text.take 4).takeWhile isHex <+: text := (List.takeWhile_prefix _).trans (List.take_prefix _ _)
      exact (List.prefix_iff_eq_append.mp front).symm
    · intro c mem
      rw [addressChar,List.mem_takeWhile_imp mem]
      rfl

theorem groupScanChars {scan : Option Nat × List Nat} {next : Nat → Text → Option (Option Nat × List Nat)}
    (ih : ∀ value {after}, next value after = some scan → ∀ c ∈ after, addressChar c = true)
    (read : (match parseHexGroup text with
      | none => none
      | some (value,after) => if after.head?.any (· != ':') then none else next value after) = some scan) :
    ∀ c ∈ text, addressChar c = true := by
  split at read
  · cases read
  · rename_i value after group
    split at read
    · cases read
    · obtain ⟨digits,rfl,every⟩ := groupChars group
      intro c mem
      rcases List.mem_append.mp mem with front | back
      · exact every c front
      · exact ih value read c back

theorem scanChars {fuel : Nat} {pos : Option Nat} {seen : List Nat} {scan : Option Nat × List Nat}
    (read : scanGroups fuel text pos seen = some scan) : ∀ c ∈ text, addressChar c = true := by
  induction fuel generalizing text pos seen with
  | zero => cases read
  | succ fuel ih =>
    unfold scanGroups at read
    split at read
    · exact List.forall_mem_nil _
    · rename_i rest
      intro c mem
      simp only [List.mem_cons] at mem
      rcases mem with rfl | rfl | inside
      · rfl
      · rfl
      · split at read
        · cases read
        · split at read
          · rename_i empty
            rw [List.isEmpty_iff.mp empty] at inside
            cases inside
          · exact ih read c inside
    · rename_i rest _
      intro c mem
      rcases List.mem_cons.mp mem with rfl | inside
      · rfl
      · exact groupScanChars (fun _ => ih) read c inside
    · exact groupScanChars (fun _ => ih) read

theorem ipv6GroupsChars (read : parseIpv6Groups text = some bytes) : ∀ c ∈ text, addressChar c = true := by
  unfold parseIpv6Groups at read
  split at read
  · exact List.all_eq_true.mp (by decide)
  · rename_i rest _
    simp only [Option.bind_eq_bind,Option.bind_eq_some_iff] at read
    obtain ⟨scan,scanned,_⟩ := read
    intro c mem
    simp only [List.mem_cons] at mem
    rcases mem with rfl | rfl | inside
    · rfl
    · rfl
    · exact scanChars scanned c inside
  · simp only [Option.bind_eq_bind,Option.bind_eq_some_iff] at read
    obtain ⟨scan,scanned,_⟩ := read
    exact scanChars scanned

theorem ipv6ReadChars (read : parseIpv6 text = some bytes) : ∀ c ∈ text, addressChar c = true := by
  unfold parseIpv6 at read
  simp only at read
  split at read
  · split at read
    · rename_i a b c d dotted
      have front := ipv6GroupsChars read
      have back := ipv4Chars dotted
      have whole : text.take (text.length - (afterLastColon text).length) ++ afterLastColon text = text := by
        refine List.suffix_iff_eq_append.mp (List.reverse_prefix.mp ?_)
        rw [afterLastColon,List.reverse_reverse]
        exact List.takeWhile_prefix _
      intro x mem
      rw [← whole,List.mem_append] at mem
      rcases mem with first | last
      · exact front x (List.mem_append_left _ (List.mem_append_left _ first))
      · exact back x last
    · cases read
  · exact ipv6GroupsChars read

end Refused

section Entries
variable {inet : Inet} {entry : Text}

theorem slashTail {slash : Char} {digits : Text} (shape : entry.dropWhile (· != '/') = slash :: digits) :
    entry.contains '/' = true ∧ entry = hostPart entry ++ '/' :: digits := by
  have whole : entry = hostPart entry ++ '/' :: digits := (Fields.cutTail shape).2
  refine ⟨?_,whole⟩
  rw [whole,List.contains_iff_mem]
  exact List.mem_append_right _ List.mem_cons_self

theorem noSlash (shape : entry.dropWhile (· != '/') = []) : entry.contains '/' = false ∧ hostPart entry = entry := by
  have free := List.dropWhile_eq_nil_iff.mp shape
  refine ⟨?_,List.takeWhile_eq_self_iff.mpr free⟩
  rw [← Bool.not_eq_true,List.contains_iff_mem]
  intro mem
  exact absurd (free '/' mem) (by decide)

variable {entries : List Text}

end Entries

end KeenPbr
