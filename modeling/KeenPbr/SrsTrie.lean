import Mathlib.Data.List.GetD
import KeenPbr.LevelOrder
import KeenPbr.SrsReader

/-! read_trie: a trie in level order, its child links counted off a bitmap. What the bitmap says of an
edge is stated here by rank: a zero is an edge of the node whose number is the count of ones before it,
to the node whose number is the count of zeros up to it. -/
namespace KeenPbr.Srs

structure Trie where
  leaves : List UInt64
  bitmap : List UInt64
  labels : Bytes
  firstChild : List Nat
  childCount : List Nat
  deriving DecidableEq, Repr

def sizeMax : Nat := 2 ^ 64 - 1

def bitIsSet (words : List UInt64) (bit : Nat) : Bool :=
  words.getD (bit / 64) 0 &&& ((1 : UInt64) <<< UInt64.ofNat (bit % 64)) != 0

def wordBits (words : List UInt64) : List Bool := (List.range (words.length * 64)).map (bitIsSet words)

def anyBitsSetFrom (words : List UInt64) (startBit : Nat) : Bool :=
  match words.drop (startBit / 64) with
  | [] => false
  | word :: rest => word &&& (~~~(0 : UInt64) <<< UInt64.ofNat (startBit % 64)) != 0 || rest.any (· != 0)

structure Scan where
  rest : List Bool
  label : Nat
  nextChild : Nat
  deriving DecidableEq, Repr

/- The inner loop: the zeros up to the next one are the edges of a node. -/
def readEdges (context : String) (labels nodeCount : Nat) : List Bool → Nat → Nat → Nat → Except String (Scan × Nat)
  | [], _, _, _ => .error (context ++ " trie label bitmap is truncated")
  | true :: rest, label, nextChild, children => .ok (⟨rest,label,nextChild⟩,children)
  | false :: rest, label, nextChild, children =>
    if label ≥ labels ∨ nextChild ≥ nodeCount then .error (context ++ " trie has more edges than labels")
    else readEdges context labels nodeCount rest (label + 1) (nextChild + 1) (children + 1)

/- The loop over the nodes: first_child and child_count of the nodes still to come. -/
def readNodes (context : String) (labels nodeCount : Nat) : Nat → Scan → Except String (Scan × List Nat × List Nat)
  | 0, scan => .ok (scan,[],[])
  | nodes + 1, scan => do
    let (next,children) ← readEdges context labels nodeCount scan.rest scan.label scan.nextChild 0
    let (last,firstChild,childCount) ← readNodes context labels nodeCount nodes next
    .ok (last,scan.nextChild :: firstChild,children :: childCount)

section Reading
variable {zlib : Zlib} (limits : SrsDecodeLimits)

def liftExcept {α : Type} : Except String α → Decode zlib α
  | .ok a => pure a
  | .error message => fail message

def readTrie (context : String) : Decode zlib Trie := do
  let trieVersion ← readByte limits (context ++ " trie version")
  failIf (trieVersion ≠ 0) (context ++ " uses unsupported trie version " ++ toString trieVersion.toNat)
  let leaves ← readWordVector limits (context ++ " leaves")
  let bitmap ← readWordVector limits (context ++ " label bitmap")
  let labels ← readByteVector limits limits.maxTrieLabels (context ++ " labels")
  failIf (labels.length ≥ limits.maxTrieNodes) (context ++ " trie node count exceeds limit")
  let nodeCount := labels.length + 1
  failIf (leaves.length > sizeMax / 64 ∨ bitmap.length > sizeMax / 64) (context ++ " trie bitmap size overflows")
  failIf (leaves.length * 64 < nodeCount) (context ++ " trie leaves bitmap is too short")
  failIf (bitmap.length * 64 < labels.length + nodeCount) (context ++ " trie label bitmap is too short")
  let (scan,firstChild,childCount) ← liftExcept (readNodes context labels.length nodeCount nodeCount ⟨wordBits bitmap,0,1⟩)
  failIf (scan.label ≠ labels.length ∨ scan.nextChild ≠ nodeCount) (context ++ " trie edge count is inconsistent")
  failIf (anyBitsSetFrom bitmap (bitmap.length * 64 - scan.rest.length)) (context ++ " trie label bitmap has non-zero padding")
  failIf (anyBitsSetFrom leaves nodeCount) (context ++ " trie leaves bitmap has non-zero padding")
  pure { leaves, bitmap, labels, firstChild, childCount }

end Reading

def Trie.nodeCount (trie : Trie) : Nat := trie.labels.length + 1

def Trie.leaf (trie : Trie) (node : Nat) : Bool := bitIsSet trie.leaves node

/- The bit at `place` is a zero, with as many ones before it as the node's number and as many zeros up to
it as the child's. -/
def Trie.Edge (trie : Trie) (node : Nat) (label : UInt8) (child : Nat) : Prop :=
  (∃ place, (wordBits trie.bitmap)[place]? = some false ∧ ((wordBits trie.bitmap).take place).count true = node ∧
    ((wordBits trie.bitmap).take (place + 1)).count false = child) ∧ trie.labels[child - 1]? = some label

/- The labels on the way from the root to a node. -/
inductive Trie.Reaches (trie : Trie) : Nat → Bytes → Prop where
  | root : Reaches trie 0 []
  | child {node key label child} (reached : Reaches trie node key) (edge : trie.Edge node label child) :
      Reaches trie child (key ++ [label])

def EdgeFrom : List Bool → Nat → Nat → Nat → Nat → Prop
  | [], _, _, _, _ => False
  | true :: rest, node, next, n, c => EdgeFrom rest (node + 1) next n c
  | false :: rest, node, next, n, c => (n = node ∧ c = next) ∨ EdgeFrom rest node (next + 1) n c

theorem edgeFromIff {bits : List Bool} {node next n c : Nat} : EdgeFrom bits node next n c ↔
    ∃ place, bits[place]? = some false ∧ node + (bits.take place).count true = n ∧ next + (bits.take place).count false = c := by
  induction bits generalizing node next with
  | nil => simp [EdgeFrom]
  | cons bit rest ih =>
    cases bit with
    | true =>
      rw [EdgeFrom,ih]
      constructor
      · rintro ⟨place,zero,ones,zeros⟩
        exact ⟨place + 1,zero,by rw [List.take_succ_cons,List.count_cons_self]; omega,
          by rw [List.take_succ_cons,List.count_cons_of_ne (by decide)]; omega⟩
      · rintro ⟨place,zero,ones,zeros⟩
        cases place with
        | zero => cases zero
        | succ place =>
          rw [List.take_succ_cons,List.count_cons_self] at ones
          rw [List.take_succ_cons,List.count_cons_of_ne (by decide)] at zeros
          exact ⟨place,zero,by omega,by omega⟩
    | false =>
      rw [EdgeFrom,ih]
      constructor
      · rintro (⟨rfl,rfl⟩ | ⟨place,zero,ones,zeros⟩)
        · exact ⟨0,rfl,rfl,rfl⟩
        · exact ⟨place + 1,zero,by rw [List.take_succ_cons,List.count_cons_of_ne (by decide)]; omega,
            by rw [List.take_succ_cons,List.count_cons_self]; omega⟩
      · rintro ⟨place,zero,ones,zeros⟩
        cases place with
        | zero => exact .inl ⟨by simpa using ones.symm,by simpa using zeros.symm⟩
        | succ place =>
          rw [List.take_succ_cons,List.count_cons_of_ne (by decide)] at ones
          rw [List.take_succ_cons,List.count_cons_self] at zeros
          exact .inr ⟨place,zero,by omega,by omega⟩

theorem edgeFromLe {bits : List Bool} {node next n c : Nat} (edge : EdgeFrom bits node next n c) : next ≤ c := by
  obtain ⟨place,_,_,zeros⟩ := edgeFromIff.mp edge
  omega

section Scanning
variable {context : String} {labels nodeCount : Nat}

theorem readEdgesSpec {bits : List Bool} {label next children total : Nat} {scan : Scan}
    (read : readEdges context labels nodeCount bits label next children = .ok (scan,total)) :
    next ≤ scan.nextChild ∧ total + next = children + scan.nextChild ∧ ∀ node n c, EdgeFrom bits node next n c ↔
      (n = node ∧ next ≤ c ∧ c < scan.nextChild) ∨ EdgeFrom scan.rest (node + 1) scan.nextChild n c := by
  induction bits generalizing label next children with
  | nil => cases read
  | cons bit rest ih =>
    cases bit with
    | true =>
      cases read
      refine ⟨Nat.le_refl _,rfl,fun node n c => ?_⟩
      rw [EdgeFrom]
      exact ⟨.inr,fun either => either.elim (fun empty => absurd empty.2.1 (Nat.not_le_of_lt empty.2.2)) id⟩
    | false =>
      rw [readEdges] at read
      split at read
      · cases read
      · obtain ⟨le,sum,edges⟩ := ih read
        refine ⟨by omega,by omega,fun node n c => ?_⟩
        rw [EdgeFrom,edges]
        constructor
        · rintro (⟨rfl,rfl⟩ | ⟨rfl,low,high⟩ | later)
          · exact .inl ⟨rfl,Nat.le_refl _,by omega⟩
          · exact .inl ⟨rfl,by omega,high⟩
          · exact .inr later
        · rintro (⟨rfl,low,high⟩ | later)
          · by_cases first : c = next
            · exact .inl ⟨rfl,first⟩
            · exact .inr (.inl ⟨rfl,by omega,high⟩)
          · exact .inr (.inr later)

def firstAt (firstChild : List Nat) (last : Scan) (i : Nat) : Nat := firstChild.getD i last.nextChild

theorem readNodesSpec {nodes : Nat} {scan last : Scan} {firstChild childCount : List Nat}
    (read : readNodes context labels nodeCount nodes scan = .ok (last,firstChild,childCount)) :
    firstChild.length = nodes ∧ firstAt firstChild last 0 = scan.nextChild ∧
      (∀ i < nodes, firstAt firstChild last (i + 1) = firstAt firstChild last i + childCount.getD i 0) ∧
      ∀ node n c, EdgeFrom scan.rest node scan.nextChild n c ↔
        (∃ i < nodes, n = node + i ∧ firstAt firstChild last i ≤ c ∧ c < firstAt firstChild last (i + 1)) ∨
          EdgeFrom last.rest (node + nodes) last.nextChild n c := by
  induction nodes generalizing scan firstChild childCount with
  | zero =>
    cases read
    refine ⟨rfl,rfl,fun _ none => by omega,fun node n c => ?_⟩
    exact ⟨.inr,fun either => either.elim (fun ⟨_,absurd,_⟩ => by omega) id⟩
  | succ nodes ih =>
    rw [readNodes] at read
    simp only [bind,Except.bind] at read
    split at read
    · cases read
    · rename_i edges edgesRead
      obtain ⟨middle,children⟩ := edges
      split at read
      · cases read
      · rename_i later laterRead
        obtain ⟨final,firsts,counts⟩ := later
        cases read
        obtain ⟨le,sum,edge⟩ := readEdgesSpec edgesRead
        obtain ⟨length,start,steps,rest⟩ := ih laterRead
        have shift (i : Nat) : firstAt (scan.nextChild :: firsts) final (i + 1) = firstAt firsts final i := rfl
        refine ⟨by rw [List.length_cons,length],rfl,?_,fun node n c => ?_⟩
        · intro i inside
          cases i with
          | zero =>
            rw [shift,start]
            change middle.nextChild = scan.nextChild + children
            omega
          | succ i =>
            rw [shift,shift]
            exact steps i (by omega)
        · rw [edge,rest,show node + 1 + nodes = node + (nodes + 1) by omega]
          constructor
          · rintro (⟨rfl,low,high⟩ | ⟨i,inside,rfl,low,high⟩ | beyond)
            · refine .inl ⟨0,by omega,rfl,low,?_⟩
              rw [shift,start]
              exact high
            · exact .inl ⟨i + 1,by omega,by omega,low,high⟩
            · exact .inr beyond
          · rintro (⟨i,inside,rfl,low,high⟩ | beyond)
            · cases i with
              | zero =>
                rw [shift,start] at high
                exact .inl ⟨rfl,low,high⟩
              | succ i => exact .inr (.inl ⟨i,by omega,by omega,low,high⟩)
            · exact .inr (.inr beyond)

end Scanning

/- The links that read_trie leaves are a numbering by levels, and they are the edges of the bitmap. -/
structure Trie.Numbered (trie : Trie) (numbering : LevelOrder.Numbering) : Prop where
  size : numbering.size = trie.nodeCount
  first : ∀ node < trie.nodeCount, trie.firstChild.getD node 0 = numbering.first node
  count : ∀ node < trie.nodeCount, numbering.first node + trie.childCount.getD node 0 = numbering.first (node + 1)
  edge : ∀ {node label child}, trie.Edge node label child ↔
    node < trie.nodeCount ∧ child ∈ numbering.children node ∧ trie.labels[child - 1]? = some label

theorem numberedOf {context : String} {leaves bitmap : List UInt64} {labels : Bytes} {scan : Scan} {firstChild childCount : List Nat}
    (read : readNodes context labels.length (labels.length + 1) (labels.length + 1) ⟨wordBits bitmap,0,1⟩ =
      .ok (scan,firstChild,childCount)) (total : scan.nextChild = labels.length + 1) :
    ∃ numbering, Trie.Numbered { leaves, bitmap, labels, firstChild, childCount } numbering := by
  obtain ⟨length,start,steps,edges⟩ := readNodesSpec read
  have beyond {i : Nat} (past : labels.length + 1 ≤ i) : firstAt firstChild scan i = labels.length + 1 := by
    rw [firstAt,List.getD_eq_default _ _ (by omega),total]
  have grows (n : Nat) : firstAt firstChild scan n ≤ firstAt firstChild scan (n + 1) := by
    by_cases inside : n < labels.length + 1
    · rw [steps n inside]
      exact Nat.le_add_right ..
    · rw [beyond (by omega),beyond (by omega)]
  let numbering : LevelOrder.Numbering := ⟨labels.length + 1,firstAt firstChild scan,start,grows,beyond (Nat.le_refl _)⟩
  refine ⟨numbering,rfl,?_,fun node inside => (steps node inside).symm,?_⟩
  · intro node inside
    change firstChild.getD node 0 = firstChild.getD node scan.nextChild
    have listed : node < firstChild.length := by
      rw [length]
      exact inside
    rw [List.getD_eq_getElem _ _ listed,List.getD_eq_getElem _ _ listed]
  · intro node label child
    have places : (∃ place, (wordBits bitmap)[place]? = some false ∧ ((wordBits bitmap).take place).count true = node ∧
        ((wordBits bitmap).take (place + 1)).count false = child) ↔ EdgeFrom (wordBits bitmap) 0 1 node child := by
      rw [edgeFromIff]
      refine exists_congr fun place => and_congr_right fun zero => ?_
      rw [List.take_add_one,zero,List.count_append]
      simp only [Option.toList_some,List.count_singleton_self]
      omega
    have kept : child ∈ numbering.children node ↔ _ := numbering.memChildren
    change (_ ∧ labels[child - 1]? = some label) ↔ _ ∧ _ ∧ labels[child - 1]? = some label
    rw [places,edges,kept]
    constructor
    · rintro ⟨⟨i,inside,rfl,low,high⟩ | padding,labelled⟩
      · rw [Nat.zero_add]
        exact ⟨inside,⟨low,high⟩,labelled⟩
      · -- the padding names children that have no label
        have far := edgeFromLe padding
        have named := (List.getElem?_eq_some_iff.mp labelled).1
        omega
    · rintro ⟨inside,⟨low,high⟩,labelled⟩
      exact ⟨.inl ⟨node,inside,(Nat.zero_add node).symm,low,high⟩,labelled⟩

section Accepted
variable {zlib : Zlib} {limits : SrsDecodeLimits} {context : String}
open Wp

theorem liftReads {α : Type} {outcome : Except String α} :
    Reads (liftExcept outcome : Decode zlib α) fun a => outcome = .ok a := by
  cases outcome with
  | ok a => exact passesPure rfl
  | error message => exact failReads

theorem readTrieReads : Reads (readTrie limits context : Decode zlib Trie) fun trie => ∃ numbering, trie.Numbered numbering := by
  refine passesBind readByteReads fun _ _ => passesBind failIfReads fun _ _ => ?_
  refine passesBind readWordVectorReads fun leaves _ => passesBind readWordVectorReads fun bitmap _ => ?_
  refine passesBind readByteVectorReads fun labels _ => passesBind failIfReads fun _ _ => ?_
  refine passesBind failIfReads fun _ _ => passesBind failIfReads fun _ _ => passesBind failIfReads fun _ _ => ?_
  refine passesBind liftReads fun links read => ?_
  obtain ⟨scan,firstChild,childCount⟩ := links
  refine passesBind failIfReads fun _ consistent => passesBind failIfReads fun _ _ => passesBind failIfReads fun _ _ => ?_
  exact passesPure (numberedOf read (by omega))

end Accepted

end KeenPbr.Srs
