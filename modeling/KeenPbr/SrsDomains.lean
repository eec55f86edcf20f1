import Mathlib.Data.List.Dedup
import KeenPbr.SrsTrie

/-! read_domain_matcher: the depth-first walk over a trie whose keys are spelled backwards, and the lists
of exact names and suffixes made of its keys. -/
namespace KeenPbr.Srs

def codepointStart (first : UInt8) : Except String (Nat × Nat) :=
  if first ≤ 0x7f then .ok (1,first.toNat)
  else if 0xc2 ≤ first ∧ first ≤ 0xdf then .ok (2,(first &&& 0x1f).toNat)
  else if 0xe0 ≤ first ∧ first ≤ 0xef then .ok (3,(first &&& 0x0f).toNat)
  else if 0xf0 ≤ first ∧ first ≤ 0xf4 then .ok (4,(first &&& 0x07).toNat)
  else .error "SRS domain trie contains invalid UTF-8"

def continueCodepoint (value : Nat) : Bytes → Except String Nat
  | [] => .ok value
  | continuation :: rest =>
    if continuation &&& 0xc0 ≠ 0x80 then .error "SRS domain trie contains invalid UTF-8 continuation"
    else continueCodepoint (value * 64 + (continuation &&& 0x3f).toNat) rest

def codepointLength (first : UInt8) (rest : Bytes) : Except String Nat := do
  let (length,start) ← codepointStart first
  if rest.length + 1 < length then .error "SRS domain trie contains truncated UTF-8"
  else
    let value ← continueCodepoint start (rest.take (length - 1))
    if (length = 3 ∧ value < 0x800) ∨ (length = 4 ∧ value < 0x10000) ∨ (0xd800 ≤ value ∧ value ≤ 0xdfff) ∨ value > 0x10ffff then
      .error "SRS domain trie contains non-canonical UTF-8"
    else .ok length

def codepoints : Nat → Bytes → Except String (List Bytes)
  | _, [] => .ok []
  | 0, _ :: _ => .ok []
  | fuel + 1, first :: rest => do
    let length ← codepointLength first rest
    let later ← codepoints fuel ((first :: rest).drop length)
    .ok ((first :: rest).take length :: later)

def reverseUtf8Codepoints (input : Bytes) : Except String Bytes := do
  let parts ← codepoints input.length input
  .ok parts.reverse.flatten

def validateDomainText (domain : Bytes) : Except String Unit :=
  if domain.isEmpty then .error "SRS domain trie contains an empty domain"
  else if domain.any fun value => value < 0x20 || value == 0x7f then .error "SRS domain trie contains a control character"
  else .ok ()

structure RuleExtraction where
  domains : List Bytes := []
  suffixes : List Bytes := []
  cidrs : List Text := []
  deriving DecidableEq, Repr

/- std::sort and std::unique: the distinct values in order. -/
def sortUnique {α : Type} [DecidableEq α] (less : α → α → Bool) (values : List α) : List α :=
  values.dedup.insertionSort fun a b => less b a = false

def kDomainPrefixLabel : UInt8 := 0x0d
def kDomainRootLabel : UInt8 := 0x0a

structure DomainKeys where
  exactDomains : List Bytes := []
  legacyPrefixes : List Bytes := []
  rootSuffixes : List Bytes := []
  deriving DecidableEq, Repr

structure Frame where
  node : Nat := 0
  next : Nat := 0
  visited : Bool := false
  deriving DecidableEq, Repr

section Walking
variable {zlib : Zlib} (limits : SrsDecodeLimits) (context : String)

def emitLeaf (reversedKey : Bytes) (keys : DomainKeys) : Decode zlib DomainKeys := do
  failIf (reversedKey.isEmpty) (context ++ " trie contains an empty key")
  let key ← liftExcept (reverseUtf8Codepoints reversedKey)
  accountOutput limits 1
  accountOutputStringBytes limits key.length
  if key.head? = some kDomainPrefixLabel then
    liftExcept (validateDomainText key.tail)
    pure { keys with legacyPrefixes := keys.legacyPrefixes ++ [key.tail] }
  else if key.head? = some kDomainRootLabel then
    liftExcept (validateDomainText key.tail)
    pure { keys with rootSuffixes := keys.rootSuffixes ++ [key.tail] }
  else
    liftExcept (validateDomainText key)
    pure { keys with exactDomains := keys.exactDomains ++ [key] }

def visitNode (trie : Trie) (node : Nat) (reversedKey : Bytes) (keys : DomainKeys) : Decode zlib DomainKeys :=
  if trie.leaf node then emitLeaf limits context reversedKey keys else pure keys

def Trie.label (trie : Trie) (child : Nat) : UInt8 := trie.labels.getD (child - 1) 0

/- The while loop over the stack, its top first. -/
def walkTrie (trie : Trie) : Nat → List Frame → Bytes → DomainKeys → Decode zlib DomainKeys
  | 0, _, _, _ => fail (context ++ " trie walk did not end")
  | _ + 1, [], _, keys => pure keys
  | fuel + 1, frame :: below, reversedKey, keys => do
    let keys ← if frame.visited then pure keys else visitNode limits context trie frame.node reversedKey keys
    if frame.next < trie.childCount.getD frame.node 0 then
      let child := trie.firstChild.getD frame.node 0 + frame.next
      failIf (reversedKey.length ≥ limits.maxStringBytes) (context ++ " trie key exceeds string limit")
      walkTrie trie fuel ({ node := child } :: { frame with next := frame.next + 1, visited := true } :: below)
        (reversedKey ++ [trie.label child]) keys
    else walkTrie trie fuel below (if below.isEmpty then reversedKey else reversedKey.dropLast) keys

def Trie.walkRounds (trie : Trie) : Nat := 2 * trie.nodeCount

def promotedRoot (exactDomains : List Bytes) : Bytes → Option Bytes
  | 0x2e :: root => if !root.isEmpty && exactDomains.contains root then some root else none
  | _ => none

def matcherLists (keys : DomainKeys) : RuleExtraction × Nat :=
  let exactDomains := sortUnique addressLess keys.exactDomains
  let legacyPrefixes := sortUnique addressLess keys.legacyPrefixes
  let rootSuffixes := sortUnique addressLess keys.rootSuffixes
  let promoted := legacyPrefixes.filterMap (promotedRoot exactDomains)
  ({ domains := exactDomains.filter fun domain => !promoted.contains domain,
     suffixes := sortUnique addressLess (rootSuffixes ++ promoted) },
   legacyPrefixes.countP fun raw => (promotedRoot exactDomains raw).isNone)

def readDomainMatcher : Decode zlib (Trie × RuleExtraction) := do
  let trie ← readTrie limits context
  let keys ← walkTrie limits context trie trie.walkRounds [{}] [] {}
  let (extraction,omitted) := matcherLists keys
  modify fun decoder => { decoder with unsupportedFields := decoder.unsupportedFields + omitted }
  pure (trie,extraction)

/- What the walk does in its order: a node is visited, an edge is followed. -/
inductive WalkEvent where
  | visit (node : Nat) (key : Bytes)
  | descend (key : Bytes)

def handleEvent (trie : Trie) (keys : DomainKeys) : WalkEvent → Decode zlib DomainKeys
  | .visit node key => visitNode limits context trie node key keys
  | .descend key => do
    failIf (key.length ≥ limits.maxStringBytes) (context ++ " trie key exceeds string limit")
    pure keys

end Walking

section Order
variable (trie : Trie) (numbering : LevelOrder.Numbering)

def walkEvents : Nat → Nat → Bytes → List WalkEvent
  | 0, _, _ => []
  | depth + 1, node, key =>
    .visit node key :: (numbering.children node).flatMap fun child =>
      .descend key :: walkEvents depth child (key ++ [trie.label child])

/- The rounds of the loop that a subtree takes. -/
def walkCost : Nat → Nat → Nat
  | 0, _ => 0
  | depth + 1, node => 1 + ((numbering.children node).map fun child => 1 + walkCost depth child).sum

def below (entry : Nat × Bytes) : List (Nat × Bytes) :=
  (numbering.children entry.1).map fun child => (child,entry.2 ++ [trie.label child])

def WalkEvent.visited : WalkEvent → Option (Nat × Bytes)
  | .visit node key => some (node,key)
  | .descend _ => none

theorem eventVisits (depth node : Nat) (key : Bytes) :
    (walkEvents trie numbering depth node key).filterMap WalkEvent.visited =
      LevelOrder.preorder (below trie numbering) depth (node,key) := by
  induction depth generalizing node key with
  | zero => rfl
  | succ depth ih =>
    rw [walkEvents,LevelOrder.preorder,below,List.flatMap_map]
    simp only [List.filterMap_cons,WalkEvent.visited,List.filterMap_flatMap,ih]

theorem preorderNodes (depth node : Nat) (key : Bytes) :
    (LevelOrder.preorder (below trie numbering) depth (node,key)).map Prod.fst =
      LevelOrder.preorder numbering.children depth node := by
  apply LevelOrder.preorderMap Prod.fst
  rintro ⟨parent,path⟩
  rw [below,List.map_map]
  exact List.map_id' _

variable {trie numbering}

theorem costsSum (visits : Nat → List Nat) (cost : Nat → Nat) {children : List Nat}
    (each : ∀ child ∈ children, cost child + 1 = 2 * (visits child).length) :
    (children.map fun child => 1 + cost child).sum = 2 * (children.flatMap visits).length := by
  induction children with
  | nil => rfl
  | cons child rest ih =>
    have first := each child List.mem_cons_self
    have later := ih fun other listed => each other (List.mem_cons_of_mem _ listed)
    rw [List.map_cons,List.sum_cons,List.flatMap_cons,List.length_append,later]
    omega

theorem walkCostEq {depth node : Nat} (inside : node < numbering.bound) (deep : numbering.bound - node ≤ depth) :
    walkCost numbering depth node + 1 = 2 * (LevelOrder.preorder numbering.children depth node).length := by
  induction depth generalizing node with
  | zero => omega
  | succ depth ih =>
    have each : ∀ child ∈ numbering.children node,
        walkCost numbering depth child + 1 = 2 * (LevelOrder.preorder numbering.children depth child).length := by
      intro child listed
      obtain ⟨more,less⟩ := numbering.childBelow inside listed
      exact ih less (by omega)
    rw [walkCost,LevelOrder.preorder,List.length_cons,costsSum _ _ each]
    omega

section Loop
variable {zlib : Zlib} {limits : SrsDecodeLimits} {context : String}

def edgeEvents (trie : Trie) (numbering : LevelOrder.Numbering) (depth : Nat) (key : Bytes) (child : Nat) : List WalkEvent :=
  .descend key :: walkEvents trie numbering depth child (key ++ [trie.label child])

def firstVisit (visited : Bool) (node : Nat) (key : Bytes) : List WalkEvent := if visited then [] else [.visit node key]

/- The loop does the events of the subtree on top of the stack and comes back to what lies below. -/
def WalksSubtree (zlib : Zlib) (limits : SrsDecodeLimits) (context : String) (trie : Trie) (numbering : LevelOrder.Numbering)
    (depth node : Nat) : Prop :=
  ∀ (fuel : Nat) (stack : List Frame) (key : Bytes) (keys : DomainKeys),
    (walkTrie limits context trie (fuel + walkCost numbering depth node) ({ node } :: stack) key keys : Decode zlib DomainKeys) =
      (walkEvents trie numbering depth node key).foldlM (handleEvent limits context trie) keys >>=
        walkTrie limits context trie fuel stack (if stack.isEmpty then key else key.dropLast)

theorem walkRound (fuel : Nat) (frame : Frame) (stack : List Frame) (key : Bytes) (keys : DomainKeys) :
    (walkTrie limits context trie (fuel + 1) (frame :: stack) key keys : Decode zlib DomainKeys) =
      (firstVisit frame.visited frame.node key).foldlM (handleEvent limits context trie) keys >>= fun keys =>
        if frame.next < trie.childCount.getD frame.node 0 then do
          failIf (key.length ≥ limits.maxStringBytes) (context ++ " trie key exceeds string limit")
          walkTrie limits context trie fuel ({ node := trie.firstChild.getD frame.node 0 + frame.next } ::
              { frame with next := frame.next + 1, visited := true } :: stack)
            (key ++ [trie.label (trie.firstChild.getD frame.node 0 + frame.next)]) keys
        else walkTrie limits context trie fuel stack (if stack.isEmpty then key else key.dropLast) keys := by
  rw [walkTrie,firstVisit]
  split
  · rfl
  · rw [List.foldlM_cons]
    simp only [List.foldlM_nil,bind_pure]
    rfl

theorem walkChildren {depth node : Nat} (numbered : trie.Numbered numbering) (inside : node < trie.nodeCount)
    (subtree : ∀ child ∈ numbering.children node, WalksSubtree zlib limits context trie numbering depth child)
    (left next : Nat) (count : next + left = trie.childCount.getD node 0) (fuel : Nat) (visited : Bool) (stack : List Frame)
    (key : Bytes) (keys : DomainKeys) :
    (walkTrie limits context trie
        (fuel + (1 + ((List.range' (numbering.first node + next) left).map fun child => 1 + walkCost numbering depth child).sum))
        ({ node, next, visited } :: stack) key keys : Decode zlib DomainKeys) =
      (firstVisit visited node key ++
          (List.range' (numbering.first node + next) left).flatMap (edgeEvents trie numbering depth key)).foldlM
              (handleEvent limits context trie) keys >>=
        walkTrie limits context trie fuel stack (if stack.isEmpty then key else key.dropLast) := by
  induction left generalizing next visited keys with
  | zero =>
    rw [List.range'_zero,List.map_nil,List.sum_nil,List.flatMap_nil,List.append_nil,Nat.add_zero,walkRound]
    have done : ¬next < trie.childCount.getD node 0 := by omega
    simp only [if_neg done]
  | succ left ih =>
    have more : next < trie.childCount.getD node 0 := by omega
    have last := numbered.count node inside
    have listed : numbering.first node + next ∈ numbering.children node := numbering.memChildren.mpr ⟨by omega,by omega⟩
    have later := ih (next + 1) (by omega) true
    rw [List.range'_succ,List.map_cons,List.sum_cons,List.flatMap_cons]
    have rounds : fuel + (1 + (1 + walkCost numbering depth (numbering.first node + next) +
        ((List.range' (numbering.first node + next + 1) left).map fun child => 1 + walkCost numbering depth child).sum)) =
        fuel + (1 + ((List.range' (numbering.first node + (next + 1)) left).map fun child =>
          1 + walkCost numbering depth child).sum) + walkCost numbering depth (numbering.first node + next) + 1 := by
      rw [Nat.add_assoc (numbering.first node) next 1]
      omega
    rw [rounds,walkRound]
    simp only [if_pos more,numbered.first node inside]
    rw [List.foldlM_append,bind_assoc]
    refine bind_congr fun keys => ?_
    rw [List.foldlM_append,bind_assoc,edgeEvents,List.foldlM_cons,handleEvent]
    simp only [bind_assoc,pure_bind]
    refine bind_congr fun _ => ?_
    rw [subtree _ listed]
    refine bind_congr fun keys => ?_
    rw [if_neg (by simp),List.dropLast_concat,later]
    rfl

theorem walksSubtree {depth node : Nat} (numbered : trie.Numbered numbering) (inside : node < numbering.bound)
    (deep : numbering.bound - node ≤ depth) : WalksSubtree zlib limits context trie numbering depth node := by
  induction depth generalizing node with
  | zero => omega
  | succ depth ih =>
    have listed : node < trie.nodeCount := by
      rw [← numbered.size]
      exact Nat.lt_of_lt_of_le inside numbering.boundLe
    intro fuel stack key keys
    have subtrees : ∀ child ∈ numbering.children node, WalksSubtree zlib limits context trie numbering depth child := by
      intro child below
      obtain ⟨more,less⟩ := numbering.childBelow inside below
      exact ih less (by omega)
    have size : numbering.first (node + 1) - numbering.first node = trie.childCount.getD node 0 := by
      have := numbered.count node listed
      omega
    rw [walkCost,walkEvents,LevelOrder.Numbering.children,size]
    exact walkChildren numbered listed subtrees _ 0 (Nat.zero_add _) fuel false stack key keys

end Loop

theorem childLabel (numbered : trie.Numbered numbering) {node child : Nat} (inside : node < trie.nodeCount)
    (listed : child ∈ numbering.children node) : trie.labels[child - 1]? = some (trie.label child) := by
  obtain ⟨low,high⟩ := numbering.memChildren.mp listed
  have first := numbering.firstMono (Nat.zero_le node)
  have last : numbering.first (node + 1) ≤ numbering.first numbering.size := numbering.firstMono (by rw [numbered.size]; exact inside)
  rw [numbering.root] at first
  rw [numbering.total,numbered.size,Trie.nodeCount] at last
  have labelled : child - 1 < trie.labels.length := by omega
  rw [Trie.label,List.getD_eq_getElem _ _ labelled,List.getElem?_eq_getElem labelled]

theorem reachesBelow (numbered : trie.Numbered numbering) {node : Nat} {key : Bytes} (reached : trie.Reaches node key) :
    node < numbering.bound := by
  induction reached with
  | root => exact numbering.boundPositive
  | child _ edge ih => exact (numbering.childBelow ih (numbered.edge.mp edge).2.1).2

theorem reachesUnique (numbered : trie.Numbered numbering) {node : Nat} {key other : Bytes} (reached : trie.Reaches node key)
    (again : trie.Reaches node other) : key = other := by
  induction reached generalizing other with
  | root =>
    cases again with
    | root => rfl
    | child reached edge =>
      have more := (numbering.childBelow (reachesBelow numbered reached) (numbered.edge.mp edge).2.1).1
      cases more
  | child reached edge ih =>
    obtain ⟨_,listed,label⟩ := numbered.edge.mp edge
    cases again with
    | root =>
      have more := (numbering.childBelow (reachesBelow numbered reached) listed).1
      cases more
    | child otherReached otherEdge =>
      obtain ⟨_,otherListed,otherLabel⟩ := numbered.edge.mp otherEdge
      cases numbering.parentUnique listed otherListed
      rw [label] at otherLabel
      cases otherLabel
      rw [ih otherReached]

theorem visitsReach (numbered : trie.Numbered numbering) {depth node : Nat} {key : Bytes} (reached : trie.Reaches node key)
    {entry : Nat × Bytes} (visited : entry ∈ LevelOrder.preorder (below trie numbering) depth (node,key)) :
    trie.Reaches entry.1 entry.2 := by
  induction depth generalizing node key with
  | zero => cases visited
  | succ depth ih =>
    rw [LevelOrder.preorder,List.mem_cons,List.mem_flatMap] at visited
    cases visited with
    | inl same =>
      rw [same]
      exact reached
    | inr later =>
      obtain ⟨child,listed,visited⟩ := later
      obtain ⟨number,numberListed,rfl⟩ := List.mem_map.mp listed
      have inside : node < trie.nodeCount := by
        rw [← numbered.size]
        exact Nat.lt_of_lt_of_le (reachesBelow numbered reached) numbering.boundLe
      refine ih (.child reached (numbered.edge.mpr ⟨inside,numberListed,?_⟩)) visited
      exact childLabel numbered inside numberListed

def walkVisits (trie : Trie) (numbering : LevelOrder.Numbering) : List (Nat × Bytes) :=
  LevelOrder.preorder (below trie numbering) numbering.bound (0,[])

theorem visitsNodes : ((walkVisits trie numbering).map Prod.fst).Perm (List.range numbering.bound) := by
  rw [walkVisits,preorderNodes]
  exact numbering.preorderRoot (Nat.le_refl _)

theorem memVisits (numbered : trie.Numbered numbering) {node : Nat} {key : Bytes} :
    (node,key) ∈ walkVisits trie numbering ↔ trie.Reaches node key := by
  constructor
  · intro visited
    exact visitsReach numbered .root visited
  · intro reached
    have listed : node ∈ (walkVisits trie numbering).map Prod.fst :=
      visitsNodes.mem_iff.mpr (List.mem_range.mpr (reachesBelow numbered reached))
    obtain ⟨⟨_,other⟩,visited,rfl⟩ := List.mem_map.mp listed
    rw [reachesUnique numbered reached (visitsReach numbered .root visited)]
    exact visited

end Order

def labelled (label : UInt8) (key : Bytes) : Option Bytes := if key.head? = some label then some key.tail else none

def plainKey (key : Bytes) : Bool := key.head? != some kDomainPrefixLabel && key.head? != some kDomainRootLabel

def DomainKeys.ofKeys (keys : List Bytes) : DomainKeys where
  exactDomains := keys.filter plainKey
  legacyPrefixes := keys.filterMap (labelled kDomainPrefixLabel)
  rootSuffixes := keys.filterMap (labelled kDomainRootLabel)

section Emission
variable {zlib : Zlib} {limits : SrsDecodeLimits} {context : String} {trie : Trie}
open Wp

theorem emitLeafReads {reversedKey : Bytes} {before : List Bytes} :
    Reads (emitLeaf limits context reversedKey (.ofKeys before) : Decode zlib DomainKeys) fun keys =>
      ∃ key, reverseUtf8Codepoints reversedKey = .ok key ∧ key ≠ [] ∧ keys = .ofKeys (before ++ [key]) := by
  refine passesBind failIfReads fun _ _ => passesBind liftReads fun key reversed => ?_
  refine passesBind accountOutputReads fun _ _ => passesBind accountOutputStringBytesReads fun _ _ => ?_
  refine passesIte (fun prefixed => ?_) fun notPrefixed => passesIte (fun rooted => ?_) fun notRooted => ?_
  · refine passesBind liftReads fun _ _ => passesPure ⟨key,reversed,fun empty => by simp [empty] at prefixed,?_⟩
    have other : some kDomainPrefixLabel ≠ some kDomainRootLabel := by decide
    simp [DomainKeys.ofKeys,plainKey,labelled,prefixed,other]
  · refine passesBind liftReads fun _ _ => passesPure ⟨key,reversed,fun empty => by simp [empty] at rooted,?_⟩
    have other : some kDomainRootLabel ≠ some kDomainPrefixLabel := by decide
    simp [DomainKeys.ofKeys,plainKey,labelled,rooted,other]
  · refine passesBind liftReads fun _ valid => passesPure ⟨key,reversed,fun empty => by simp [empty,validateDomainText] at valid,?_⟩
    have plain : plainKey key = true := by simp [plainKey,notPrefixed,notRooted]
    simp [DomainKeys.ofKeys,labelled,plain,notPrefixed,notRooted]

def leafKeys (trie : Trie) (visits : List (Nat × Bytes)) : List (Except String Bytes) :=
  (visits.filter fun visit => trie.leaf visit.1).map fun visit => reverseUtf8Codepoints visit.2

theorem handleReads {event : WalkEvent} {before : List Bytes} :
    Reads (handleEvent limits context trie (.ofKeys before) event : Decode zlib DomainKeys) fun keys =>
      ∃ emitted, leafKeys trie event.visited.toList = emitted.map .ok ∧ [] ∉ emitted ∧ keys = .ofKeys (before ++ emitted) := by
  cases event with
  | descend key =>
    exact passesBind failIfReads fun _ _ => passesPure ⟨[],rfl,List.not_mem_nil,by rw [List.append_nil]⟩
  | visit node key =>
    refine passesIte (fun leaf => ?_) fun inner => passesPure ⟨[],?_,List.not_mem_nil,by rw [List.append_nil]⟩
    · refine passesMono emitLeafReads fun keys emitted => ?_
      obtain ⟨spelled,reversed,nonempty,rfl⟩ := emitted
      refine ⟨[spelled],?_,fun empty => nonempty (List.mem_singleton.mp empty).symm,rfl⟩
      simp [leafKeys,WalkEvent.visited,leaf,reversed]
    · simp [leafKeys,WalkEvent.visited,inner]

theorem eventsRead {events : List WalkEvent} {before : List Bytes} :
    Reads (events.foldlM (handleEvent limits context trie) (.ofKeys before) : Decode zlib DomainKeys) fun keys =>
      ∃ emitted, leafKeys trie (events.filterMap WalkEvent.visited) = emitted.map .ok ∧ [] ∉ emitted ∧
        keys = .ofKeys (before ++ emitted) := by
  induction events generalizing before with
  | nil => exact passesPure ⟨[],rfl,List.not_mem_nil,by rw [List.append_nil]⟩
  | cons event rest ih =>
    rw [List.foldlM_cons]
    refine passesBind handleReads fun keys first => ?_
    obtain ⟨emitted,spelled,nonempty,rfl⟩ := first
    refine passesMono ih fun keys later => ?_
    obtain ⟨more,moreSpelled,moreNonempty,rfl⟩ := later
    refine ⟨emitted ++ more,?_,List.not_mem_append nonempty moreNonempty,by rw [List.append_assoc]⟩
    have visits : (event :: rest).filterMap WalkEvent.visited = event.visited.toList ++ rest.filterMap WalkEvent.visited := by
      cases event <;> rfl
    rw [visits,leafKeys,List.filter_append,List.map_append,List.map_append]
    exact congrArg₂ _ spelled moreSpelled

theorem walkRoot {numbering : LevelOrder.Numbering} (numbered : trie.Numbered numbering) (more : Nat) :
    (walkTrie limits context trie (trie.walkRounds + more) [{}] [] {} : Decode zlib DomainKeys) =
      (walkEvents trie numbering numbering.bound 0 []).foldlM (handleEvent limits context trie) {} := by
  have cost := walkCostEq numbering.boundPositive (Nat.le_refl (numbering.bound - 0))
  rw [Nat.sub_zero,(numbering.preorderRoot (Nat.le_refl _)).length_eq,List.length_range] at cost
  have nodes := numbering.boundLe
  rw [numbered.size] at nodes
  obtain ⟨fuel,rounds⟩ : ∃ fuel, trie.walkRounds + more = fuel + 1 + walkCost numbering numbering.bound 0 :=
    ⟨trie.walkRounds + more - 1 - walkCost numbering numbering.bound 0,by unfold Trie.walkRounds; omega⟩
  have subtree : WalksSubtree zlib limits context trie numbering numbering.bound 0 :=
    walksSubtree numbered numbering.boundPositive (Nat.sub_le _ _)
  rw [rounds,subtree (fuel + 1) [] [] {}]
  exact bind_pure _

theorem walkReads {numbering : LevelOrder.Numbering} (numbered : trie.Numbered numbering) :
    Reads (walkTrie limits context trie trie.walkRounds [{}] [] {} : Decode zlib DomainKeys) fun keys =>
      ∃ emitted, leafKeys trie (walkVisits trie numbering) = emitted.map .ok ∧ [] ∉ emitted ∧ keys = .ofKeys emitted := by
  rw [← Nat.add_zero trie.walkRounds,walkRoot numbered 0,walkVisits,← eventVisits]
  exact passesMono (eventsRead : Reads (List.foldlM _ (DomainKeys.ofKeys []) _) _) fun _ read => read

/- The walk comes to its end; it visits the nodes below the root once each and hands on the key of
every leaf among them. -/
theorem trieWalked {s s' : Decoder zlib} (read : readTrie limits context s = .ok trie s') :
    ∃ visits : List (Nat × Bytes), (visits.map Prod.fst).Nodup ∧
      (∀ node key, (node,key) ∈ visits ↔ trie.Reaches node key) ∧
      (∃ events : List WalkEvent, events.filterMap WalkEvent.visited = visits ∧ ∀ more,
        (walkTrie limits context trie (trie.walkRounds + more) [{}] [] {} : Decode zlib DomainKeys) =
          events.foldlM (handleEvent limits context trie) {}) ∧
      ∀ (t t' : Decoder zlib) keys, walkTrie limits context trie trie.walkRounds [{}] [] {} t = .ok keys t' →
        ∃ emitted, leafKeys trie visits = emitted.map .ok ∧ keys = .ofKeys emitted := by
  obtain ⟨⟨numbering,numbered⟩,_⟩ := passesRun readTrieReads read
  refine ⟨walkVisits trie numbering,?_,fun node key => memVisits numbered,⟨_,eventVisits ..,walkRoot numbered⟩,?_⟩
  · exact visitsNodes.nodup_iff.mpr List.nodup_range
  · intro t t' keys run
    obtain ⟨⟨emitted,spelled,_,lists⟩,_⟩ := passesRun (walkReads numbered) run
    exact ⟨emitted,spelled,lists⟩

end Emission

open Wp

def twoKeys : Bytes :=
  [0] ++ [1] ++ [0,0,0,0,0,0,0,0x0a] ++ [1] ++ [0,0,0,0,0,0,0,0x6c] ++ [3] ++ [0x61,0x62,0x0a]

def twoKeysTrie : Trie where
  leaves := [0x0a]
  bitmap := [0x6c]
  labels := [0x61,0x62,0x0a]
  firstChild := [1,3,3,4]
  childCount := [2,0,1,0]

theorem twoKeysWalked :
    ∃ visits : List (Nat × Bytes), (visits.map Prod.fst).Nodup ∧ (3,[0x62,0x0a]) ∈ visits ∧
      ∃ emitted, leafKeys twoKeysTrie visits = emitted.map .ok ∧
        DomainKeys.ofKeys emitted = { exactDomains := [[0x61]], rootSuffixes := [[0x62]] } := by
  have read : answer (readTrie {} "rule" (buffered twoKeys)) = some twoKeysTrie := by decide
  obtain ⟨s',run⟩ := answerRun read
  obtain ⟨visits,once,reach,_,emits⟩ := trieWalked run
  have second : twoKeysTrie.Reaches 2 [0x62] :=
    .child .root ⟨⟨1,by decide,by decide,by decide⟩,by decide⟩
  have third : twoKeysTrie.Reaches 3 [0x62,0x0a] :=
    .child second ⟨⟨4,by decide,by decide,by decide⟩,by decide⟩
  have walked : answer (walkTrie {} "rule" twoKeysTrie twoKeysTrie.walkRounds [{}] [] {} (buffered [])) =
      some { exactDomains := [[0x61]], rootSuffixes := [[0x62]] } := by decide
  obtain ⟨t',walk⟩ := answerRun walked
  obtain ⟨emitted,keys,lists⟩ := emits _ _ _ walk
  exact ⟨visits,once,(reach 3 _).mpr third,emitted,keys,lists.symm⟩

/- The root has no edge, and the bitmap makes node 1 its own child: read_trie takes it, and the leaf bit of
node 1 is never met. -/
def detachedKey : Bytes := [0] ++ [1] ++ [0,0,0,0,0,0,0,0x02] ++ [1] ++ [0,0,0,0,0,0,0,0x05] ++ [1] ++ [0x61]

def detachedTrie : Trie where
  leaves := [2]
  bitmap := [5]
  labels := [0x61]
  firstChild := [1,1]
  childCount := [0,1]

theorem detachedLeafLost : answer (readTrie {} "rule" (buffered detachedKey)) = some detachedTrie ∧
    detachedTrie.leaf 1 = true ∧
    answer (walkTrie {} "rule" detachedTrie detachedTrie.walkRounds [{}] [] {} (buffered [])) = some {} := by
  decide

end KeenPbr.Srs
