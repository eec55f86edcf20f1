import KeenPbr.FwmarkAllocation
import KeenPbr.NftablesChain

/-! The two ways of writing an allocated mark into a packet: `MARK --set-xmark` and the masked mangle
expression of nftables. -/
namespace KeenPbr

section Words
variable (prior mark mask : UInt32)

theorem xmarkOutside : ((prior &&& ~~~mask) ^^^ mark ^^^ prior) &&& ~~~mask = mark &&& ~~~mask := by
  apply UInt32.toBitVec_inj.mp
  apply BitVec.eq_of_getElem_eq
  intro i inside
  simp only [UInt32.toBitVec_and,UInt32.toBitVec_xor,UInt32.toBitVec_not,BitVec.getElem_and,BitVec.getElem_xor,
    BitVec.getElem_not]
  cases prior.toBitVec[i] <;> cases mark.toBitVec[i] <;> cases mask.toBitVec[i] <;> rfl

theorem mangleXmark (contained : mark &&& ~~~mask = 0) :
    (prior &&& ~~~mask) ^^^ mark = prior &&& (~~~mask ||| mark) ||| mark := by
  apply UInt32.toBitVec_inj.mp
  apply BitVec.eq_of_getElem_eq
  intro i inside
  have bit : (mark &&& ~~~mask).toBitVec[i] = (0 : UInt32).toBitVec[i] := by simp only [contained]
  simp only [UInt32.toBitVec_and,UInt32.toBitVec_not,BitVec.getElem_and,BitVec.getElem_not,UInt32.toBitVec_ofNat,
    BitVec.getElem_zero] at bit
  simp only [UInt32.toBitVec_and,UInt32.toBitVec_or,UInt32.toBitVec_xor,UInt32.toBitVec_not,BitVec.getElem_and,
    BitVec.getElem_or,BitVec.getElem_xor,BitVec.getElem_not]
  cases one : mark.toBitVec[i] with
  | false => cases prior.toBitVec[i] <;> cases mask.toBitVec[i] <;> rfl
  | true =>
    rw [one,Bool.true_and,Bool.not_eq_false'] at bit
    rw [bit]
    cases prior.toBitVec[i] <;> rfl

end Words

theorem mangleValue (pr : Nftables.PendingRule) (s : Skb) :
    (Nftables.markValue pr).eval s = s.mark &&& (~~~pr.fwmarkMask ||| pr.fwmark) ||| pr.fwmark := by
  unfold Nftables.markValue
  split
  · rename_i whole
    have none : ~~~(0xffffffff : UInt32) = 0 := by decide
    rw [whole,← mangleXmark s.mark pr.fwmark 0xffffffff (by rw [none,UInt32.and_zero]),none,UInt32.and_zero,UInt32.zero_xor]
    rfl
  · rfl

/- For a packet and a mark, what both backends write comes down to the start value. -/
theorem marksWrittenIff {fwmark : FwmarkConfig} {mask start : UInt32} (accepted : FwmarkAccepted fwmark mask start)
    {outbounds : List Outbound} {marks : OutboundMarkMap} (ok : allocateOutboundMarks fwmark outbounds = .ok marks)
    {tag : String} {mark : UInt32} (found : marks.lookup tag = some mark) (pr : Nftables.PendingRule)
    (written : pr.fwmark = mark ∧ pr.fwmarkMask = mask) (s : Skb) :
    (((Iptables.Target.mark mark mask).apply s).1.mark = (Nftables.markValue pr).eval s ∧
      (((Iptables.Target.mark mark mask).apply s).1.mark ^^^ s.mark) &&& ~~~mask = 0) ↔ start &&& ~~~mask = 0 := by
  obtain ⟨a,m,_,product,width,_,placed⟩ := marksPlaced ok accepted.parsedMask accepted.parsedStart
  obtain ⟨i,_,_,_,small,value⟩ := placed tag mark found
  have outside := (markBits product width small value).2
  rw [mangleValue,written.1,written.2,← outside]
  change ((s.mark &&& ~~~mask) ^^^ mark = _ ∧ ((s.mark &&& ~~~mask) ^^^ mark ^^^ s.mark) &&& ~~~mask = 0) ↔ _
  rw [xmarkOutside]
  exact ⟨fun both => both.2,fun contained => ⟨mangleXmark s.mark mark mask contained,contained⟩⟩

def probeSkb (mark : UInt32) : Skb where
  header := { ipv6 := false, iif := text "br0", src := List.replicate 32 false, dst := List.replicate 32 true,
              l4proto := ipprotoTcp, srcWidth := rfl, dstWidth := rfl }
  mark := mark
  ctMark := 0

def plainWan : Outbound := { tag := "wan", type := .interface }

def probeRule (mark mask : UInt32) : Nftables.PendingRule :=
  { family := 2, action := .mark, fwmark := mark, fwmarkMask := mask }

theorem defaultWritten :
    ((Iptables.Target.mark 0x00010000 0x00FF0000).apply (probeSkb 0x12345678)).1.mark = 0x12015678 ∧
      (Nftables.markValue (probeRule 0x00010000 0x00FF0000)).eval (probeSkb 0x12345678) = 0x12015678 := by
  have accepted : FwmarkAccepted {} 0x00FF0000 0x00010000 :=
    ⟨by decide,by decide,by decide,255,by decide⟩
  have ok : allocateOutboundMarks {} [plainWan] = .ok [("wan",0x00010000)] := by decide
  have found : List.lookup "wan" [("wan",(0x00010000 : UInt32))] = some 0x00010000 := rfl
  have both := (marksWrittenIff accepted ok found (probeRule 0x00010000 0x00FF0000) ⟨rfl,rfl⟩
    (probeSkb 0x12345678)).mpr (by decide)
  exact ⟨rfl,both.1.symm⟩

def strayFwmark : FwmarkConfig := { start := some "0x01010000" }

/- The start reaches over the mask: --set-xmark flips the bit above it, nftables sets it. -/
theorem strayWritten :
    FwmarkAccepted strayFwmark 0x00FF0000 0x01010000 ∧
      allocateOutboundMarks strayFwmark [plainWan] = .ok [("wan",0x01010000)] ∧
      ((Iptables.Target.mark 0x01010000 0x00FF0000).apply (probeSkb 0x01000000)).1.mark = 0x00010000 ∧
      (Nftables.markValue (probeRule 0x01010000 0x00FF0000)).eval (probeSkb 0x01000000) = 0x01010000 :=
  ⟨⟨by decide,by decide,by decide,255,by decide⟩,by decide,rfl,rfl⟩

end KeenPbr
