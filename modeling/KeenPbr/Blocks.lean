import Mathlib.Algebra.Order.Ring.Int
import Mathlib.Data.List.Infix

/-! Blocks of addresses of one width: a block is the bits its addresses begin with. -/
namespace Blocks

abbrev Bits := List Bool

variable {width : Nat} {a b : Bits}

def inside (block address : Bits) : Bool := block.isPrefixOf address

theorem insideIff {block address : Bits} : inside block address = true ↔ block <+: address := List.isPrefixOf_iff_prefix

@[simp] theorem insideWhole (address : Bits) : inside [] address = true := insideIff.mpr (List.nil_prefix)

def pad (width : Nat) (block : Bits) : Bits := block ++ List.replicate (width - block.length) false

theorem padLength (fits : a.length ≤ width) : (pad width a).length = width := by
  rw [pad,List.length_append,List.length_replicate]
  omega

theorem insidePad (width : Nat) (block : Bits) : inside block (pad width block) = true := insideIff.mpr ⟨_,rfl⟩

theorem outside (part : a ≠ []) (fits : a.length ≤ width) : ∃ x : Bits, x.length = width ∧ inside a x = false := by
  cases a with
  | nil => exact absurd rfl part
  | cons bit rest =>
    have room : [!bit].length ≤ width := by
      rw [List.length_cons] at fits
      rw [List.length_singleton]
      omega
    refine ⟨pad width [!bit],padLength room,?_⟩
    cases bit <;> rfl

theorem besideLonger (shorter : a <+: b) (differ : a ≠ b) (fits : b.length ≤ width) :
    ∃ x : Bits, x.length = width ∧ inside a x = true ∧ inside b x = false := by
  obtain ⟨more,rfl⟩ := shorter
  cases more with
  | nil => exact absurd (List.append_nil a).symm differ
  | cons bit rest =>
    have room : (a ++ [!bit]).length ≤ width := by
      simp only [List.length_append,List.length_cons,List.length_nil] at fits ⊢
      omega
    refine ⟨pad width (a ++ [!bit]),padLength room,?_,?_⟩
    · exact insideIff.mpr ((List.prefix_append a [!bit]).trans (List.prefix_append _ _))
    · rw [Bool.eq_false_iff,ne_eq,insideIff,pad,List.append_assoc,List.prefix_append_right_inj]
      rintro ⟨_,same⟩
      have bits := List.head_eq_of_cons_eq same
      cases bit <;> cases bits

theorem separated (differ : a ≠ b) (aFits : a.length ≤ width) (bFits : b.length ≤ width) :
    ∃ x : Bits, x.length = width ∧ inside a x ≠ inside b x := by
  by_cases shorter : a <+: b
  · obtain ⟨x,size,inA,outB⟩ := besideLonger shorter differ bFits
    exact ⟨x,size,by rw [inA,outB]; decide⟩
  · by_cases longer : b <+: a
    · obtain ⟨x,size,inB,outA⟩ := besideLonger longer differ.symm aFits
      exact ⟨x,size,by rw [inB,outA]; decide⟩
    · refine ⟨pad width a,padLength aFits,fun same => ?_⟩
      rw [insidePad] at same
      cases List.prefix_or_prefix_of_prefix (insideIff.mp (insidePad width a)) (insideIff.mp same.symm) with
      | inl under => exact shorter under
      | inr beyond => exact longer beyond

end Blocks
