import Mathlib.Data.List.Count
import KeenPbr.Fields
import KeenPbr.ListParser

/-! lists/ipset.cpp: the language IpSet::parse_ipv6 accepts, beside the texts of RFC 4291. The reader skips a single
colon wherever a group may begin, takes two colons beside eight groups, and numbers with leading zeros. -/
namespace KeenPbr

def spelledGroups (stray : Bool) (groups : List Text) : Text := if stray then colonText groups else joined groups

/- The texts the loop over the groups takes. The mark tells those that are none of RFC 4291. -/
inductive LooseGroups : Text → Bool → List UInt8 → Prop where
  | full {groups : List Text} (stray : Bool) : (∀ group ∈ groups, HexGroup group) → groups.length = 8 →
      LooseGroups (spelledGroups stray groups) stray (groupBytes (groupValues groups))
  | short {left right : List Text} (front behind : Bool) : (∀ group ∈ left ++ right, HexGroup group) → left.length + right.length ≤ 8 →
      (front = true → left ≠ []) → (behind = true → right ≠ []) →
      LooseGroups (spelledGroups front left ++ ':' :: ':' :: spelledGroups behind right)
        (front || behind || left.length + right.length == 8)
        (groupBytes (groupValues left ++ List.replicate (8 - (left.length + right.length)) 0 ++ groupValues right))

/- Read, but no text of RFC 4291: where a dotted tail is written as the two groups it stands for, there is a single
colon before the first group or behind the two colons, or there are eight groups beside the two colons; or a number
of the dotted tail has a leading zero. -/
def OddText (s : Text) : Prop :=
  (∃ bytes, LooseGroups s true bytes) ∨
    ∃ front quad last odd bytes, s = front ++ ':' :: quad ∧ DottedQuad quad last ∧
      LooseGroups (front ++ ':' :: joined (quadGroups last)) odd bytes ∧ (odd = true ∨ leadingZeros s = true)

/- The loop, without the expansion of the two colons. -/
def scanned (s : Text) : Option (Option Nat × List Nat) :=
  match s with
  | [':',':'] => some (some 0,[])
  | ':' :: ':' :: rest => scanGroups (s.length + 1) rest (some 0) []
  | _ => scanGroups (s.length + 1) s none []

theorem parsedScan (s : Text) : parseIpv6Groups s = (scanned s).bind fun scan => expandGroups scan.1 scan.2 := by
  unfold parseIpv6Groups
  split
  · rfl
  · rename_i rest more
    cases rest with
    | nil => exact absurd rfl more
    | cons c later => rfl
  · rename_i other double
    unfold scanned
    split
    · exact absurd rfl other
    · exact absurd rfl (double _)
    · rfl

section Reading
variable {groups left right : List Text}

theorem spelledLength (stray : Bool) (hex : ∀ group ∈ groups, HexGroup group) : groups.length ≤ (spelledGroups stray groups).length := by
  have room := joinedLength hex
  cases stray with
  | false => exact room
  | true =>
    by_cases none_ : groups = []
    · rw [none_]
      exact Nat.zero_le _
    · change groups.length ≤ (colonText groups).length
      rw [colonJoined none_,List.length_cons]
      omega

theorem scanSpelled {stray : Bool} {fuel : Nat} {pos : Option Nat} {seen : List Nat} {tail : Text}
    (hex : ∀ group ∈ groups, HexGroup group) (nonempty : groups ≠ [])
    (stop : tail.head?.all (· == ':') = true) :
    scanGroups (fuel + groups.length) (spelledGroups stray groups ++ tail) pos seen = scanGroups fuel tail pos
      (seen ++ groupValues groups) := by
  cases stray with
  | false => exact scanJoined hex nonempty stop
  | true => exact scanColons hex stop

theorem scanSpelledEnd (stray : Bool) (fuel : Nat) (pos : Option Nat) (seen : List Nat) (hex : ∀ group ∈ groups, HexGroup group)
    (nonempty : groups ≠ [])
    (room : groups.length ≤ fuel) :
    scanGroups (fuel + 1) (spelledGroups stray groups) pos seen = some (pos,seen ++ groupValues groups) := by
  have scan : scanGroups (fuel - groups.length + 1 + groups.length) (spelledGroups stray groups ++ []) pos seen = _ :=
    scanSpelled hex nonempty rfl
  have enough : fuel - groups.length + 1 + groups.length = fuel + 1 := by omega
  rwa [List.append_nil,enough,scanEnd] at scan

theorem spelledHead (stray : Bool) (hex : ∀ group ∈ groups, HexGroup group) (nonempty : groups ≠ []) (tail : Text) :
    ∃ c rest, c ≠ ':' ∧ (spelledGroups stray groups ++ tail = c :: rest ∨ spelledGroups stray groups ++ tail = ':' :: c :: rest) := by
  obtain ⟨c,rest,shape,digit⟩ := joinedHead hex nonempty tail
  refine ⟨c,rest,digit,?_⟩
  cases stray with
  | false => exact .inl shape
  | true =>
    refine .inr ?_
    change colonText groups ++ tail = _
    rw [colonJoined nonempty,List.cons_append,shape]

theorem scannedPlain {s : Text} {c : Char} {rest : Text} (digit : c ≠ ':') (shape : s = c :: rest ∨ s = ':' :: c :: rest) :
    scanned s = scanGroups (s.length + 1) s none [] := by
  unfold scanned
  split
  · rcases shape with same | same
    · exact absurd (List.cons.inj same).1.symm digit
    · exact absurd (List.cons.inj (List.cons.inj same).2).1.symm digit
  · rcases shape with same | same
    · exact absurd (List.cons.inj same).1.symm digit
    · exact absurd (List.cons.inj (List.cons.inj same).2).1.symm digit
  · rfl

theorem scannedFull (stray : Bool) (hex : ∀ group ∈ groups, HexGroup group) (nonempty : groups ≠ []) :
    scanned (spelledGroups stray groups) = some (none,groupValues groups) := by
  obtain ⟨c,rest,digit,shape⟩ := spelledHead stray hex nonempty []
  rw [List.append_nil] at shape
  rw [scannedPlain digit shape,scanSpelledEnd stray _ none [] hex nonempty (spelledLength stray hex),List.nil_append]

theorem scannedShort {front behind : Bool} (hexLeft : ∀ group ∈ left, HexGroup group) (hexRight : ∀ group ∈ right, HexGroup group)
    (led : front = true → left ≠ []) :
    scanned (spelledGroups front left ++ ':' :: ':' :: spelledGroups behind right) = some
      (some left.length,groupValues left ++ groupValues right) := by
  have leftRoom := spelledLength front hexLeft
  have rightRoom := spelledLength behind hexRight
  by_cases first : left = []
  · subst first
    have plain : front = false := Bool.eq_false_iff.mpr fun flag => led flag rfl
    subst plain
    by_cases last : right = []
    · subst last
      cases behind <;> rfl
    · have scan := scanSpelledEnd behind ((spelledGroups behind right).length + 2) (some 0) [] hexRight last (by omega)
      obtain ⟨c,rest,_,shape⟩ := spelledHead behind hexRight last []
      rw [List.append_nil] at shape
      change scanned (':' :: ':' :: spelledGroups behind right) = _
      rcases shape with shape | shape <;> rw [shape] at scan ⊢ <;> exact scan
  · obtain ⟨c,rest,digit,shape⟩ := spelledHead front hexLeft first (':' :: ':' :: spelledGroups behind right)
    have size : (spelledGroups front left ++ ':' :: ':' :: spelledGroups behind right).length + 1 =
        (spelledGroups front left).length - left.length + (spelledGroups behind right).length + 3 + left.length := by
      rw [List.length_append,List.length_cons,List.length_cons]
      omega
    rw [scannedPlain digit shape,size,scanSpelled hexLeft first rfl,List.nil_append]
    have cut : (groupValues left).length = left.length := List.length_map _
    by_cases last : right = []
    · subst last
      rw [← cut]
      cases behind <;> exact congrArg (fun seen => some (some (groupValues left).length,seen)) (List.append_nil _).symm
    · have scan := scanSpelledEnd behind ((spelledGroups front left).length - left.length + (spelledGroups behind right).length + 1)
        (some left.length) (groupValues left) hexRight last (by omega)
      obtain ⟨d,later,_,started⟩ := spelledHead behind hexRight last []
      rw [List.append_nil] at started
      have full : (spelledGroups behind right).isEmpty = false := by
        rcases started with started | started <;> rw [started] <;> rfl
      rw [← scan,← cut]
      change (if (spelledGroups behind right).isEmpty then _ else _) = _
      rw [full]
      rfl

end Reading

section Marks
variable {groups : List Text} {s : Text} {odd : Bool} {bytes : List UInt8}

theorem colonsOf (hex : ∀ group ∈ groups, HexGroup group) : (colonText groups).count ':' = groups.length := by
  induction groups with
  | nil => rfl
  | cons group rest ih =>
    have free : group.count ':' = 0 := List.count_eq_zero.mpr fun mem => hexNotColon ((hex group List.mem_cons_self).digits ':' mem) rfl
    have later := ih fun other mem => hex other (List.mem_cons_of_mem _ mem)
    change ((':' :: group) ++ colonText rest).count ':' = _
    rw [List.count_append,List.count_cons_self,free,later,List.length_cons]
    omega

theorem colonsSpelled {stray : Bool} (hex : ∀ group ∈ groups, HexGroup group) (led : stray = true → groups ≠ []) :
    (spelledGroups stray groups).count ':' = groups.length - 1 + stray.toNat := by
  have colons := colonsOf hex
  by_cases none_ : groups = []
  · subst none_
    cases stray with
    | false => rfl
    | true => exact absurd rfl (led rfl)
  · have some_ : 0 < groups.length := List.length_pos_of_ne_nil none_
    cases stray with
    | true =>
      change (colonText groups).count ':' = groups.length - 1 + 1
      omega
    | false =>
      rw [colonJoined none_,List.count_cons_self] at colons
      change (joined groups).count ':' = groups.length - 1 + 0
      omega

def markOf (pos : Option Nat) (count colons : Nat) : Bool :=
  match pos with
  | none => colons != 7
  | some left => colons != left - 1 + 2 + (count - left - 1) || count == 8

theorem looseScanned (loose : LooseGroups s odd bytes) :
    ∃ pos values, scanned s = some (pos,values) ∧ expandGroups pos values = some bytes ∧
    markOf pos values.length (s.count ':') = odd := by
  cases loose with
  | @full groups _ hex eight =>
    have nonempty : groups ≠ [] := by
      rintro rfl
      cases eight
    have size : (groupValues groups).length = 8 := (List.length_map _).trans eight
    refine ⟨none,groupValues groups,scannedFull odd hex nonempty,?_,?_⟩
    · rw [expandGroups,if_pos size]
    · rw [markOf,colonsSpelled hex fun _ => nonempty,eight]
      cases odd <;> rfl
  | @short left right front behind hex few led ledRight =>
    have hexLeft : ∀ group ∈ left, HexGroup group := fun group mem => hex group (List.mem_append_left _ mem)
    have hexRight : ∀ group ∈ right, HexGroup group := fun group mem => hex group (List.mem_append_right _ mem)
    have size : (groupValues left ++ groupValues right).length = left.length + right.length := by
      rw [List.length_append,groupValues,groupValues,List.length_map,List.length_map]
    have cut : (groupValues left).length = left.length := List.length_map _
    refine ⟨some left.length,groupValues left ++ groupValues right,scannedShort hexLeft hexRight led,?_,?_⟩
    · rw [expandGroups,size,if_neg (by omega),List.take_left' cut,List.drop_left' cut]
    · have colons : (spelledGroups front left ++ ':' :: ':' :: spelledGroups behind right).count ':' =
          left.length - 1 + 2 + (left.length + right.length - left.length - 1) + (front.toNat + behind.toNat) := by
        rw [List.count_append,List.count_cons_self,List.count_cons_self,colonsSpelled hexLeft led,colonsSpelled hexRight ledRight]
        omega
      rw [markOf,size,colons]
      cases front <;> cases behind <;> simp

theorem looseParsed (loose : LooseGroups s odd bytes) : parseIpv6Groups s = some bytes := by
  obtain ⟨pos,values,scan,expand,_⟩ := looseScanned loose
  rw [parsedScan,scan]
  exact expand

theorem looseMark {other : Bool} {others : List UInt8} (loose : LooseGroups s odd bytes) (again : LooseGroups s other others) :
    odd = other := by
  obtain ⟨pos,values,scan,_,mark⟩ := looseScanned loose
  obtain ⟨pos',values',scan',_,mark'⟩ := looseScanned again
  rw [scan] at scan'
  cases scan'
  exact mark.symm.trans mark'

end Marks

section Scanning
variable {fuel : Nat} {s : Text} {seen : List Nat} {out : Option Nat × List Nat}

theorem groupRead {value : Nat} {after : Text} (read : parseHexGroup s = some (value,after)) :
    ∃ group, HexGroup group ∧ s = group ++ after ∧ value = hexNumber group := by
  unfold parseHexGroup at read
  simp only at read
  split at read
  · cases read
  · rename_i named
    cases read
    have front : (s.take 4).takeWhile isHex <+: s := (List.takeWhile_prefix _).trans (List.take_prefix _ _)
    refine ⟨(s.take 4).takeWhile isHex,⟨fun c mem => List.mem_takeWhile_imp mem,?_,?_⟩,(List.prefix_iff_eq_append.mp front).symm,rfl⟩
    · rintro empty
      rw [empty] at named
      exact named rfl
    · exact (List.takeWhile_prefix _).length_le.trans (List.length_take_le _ _)

theorem groupRound {pos : Option Nat} (round : (match parseHexGroup s with
      | none => none
      | some (value,after) => if after.head?.any (· != ':') then none else scanGroups fuel after pos (seen ++ [value])) = some out) :
    ∃ group after, HexGroup group ∧ s = group ++ after ∧ after.head?.all (· == ':') = true ∧
      scanGroups fuel after pos (seen ++ [hexNumber group]) = some out := by
  split at round
  · cases round
  · rename_i value after read
    split at round
    · cases round
    · rename_i stop
      obtain ⟨group,hex,shape,rfl⟩ := groupRead read
      refine ⟨group,after,hex,shape,?_,round⟩
      cases after with
      | nil => rfl
      | cons c rest => simpa using stop

def Begins (s : Text) (groups : List Text) (tail : Text) : Prop :=
  (s = colonText groups ++ tail ∨ s = joined groups ++ tail) ∧ (s.head?.all (· == ':') = true → s = colonText groups ++ tail)

theorem Begins.colon {after group tail : Text} {groups : List Text} (begins : Begins after groups tail)
    (stop : after.head?.all (· == ':') = true) :
    Begins (':' :: (group ++ after)) (group :: groups) tail := by
  have shape : ':' :: (group ++ after) = colonText (group :: groups) ++ tail := by
    rw [begins.2 stop]
    simp [colonText]
  exact ⟨.inl shape,fun _ => shape⟩

theorem Begins.digit {after group tail : Text} {groups : List Text} (hex : HexGroup group) (begins : Begins after groups tail)
    (stop : after.head?.all (· == ':') = true) : Begins (group ++ after) (group :: groups) tail := by
  have shape : group ++ after = joined (group :: groups) ++ tail := by
    rw [begins.2 stop,joined,List.append_assoc]
  refine ⟨.inr shape,fun colon => ?_⟩
  obtain ⟨c,rest,rfl,digit⟩ := groupHead hex
  rw [List.cons_append,List.head?_cons,Option.all_some,beq_iff_eq] at colon
  exact absurd colon digit

theorem beginsNothing (tail : Text) : Begins tail [] tail := ⟨.inl rfl,fun _ => rfl⟩

theorem scanBehind {place : Nat} (read : scanGroups fuel s (some place) seen = some out) :
    ∃ right, (∀ group ∈ right, HexGroup group) ∧ Begins s right [] ∧ out = (some place,seen ++ groupValues right) := by
  induction fuel generalizing s seen with
  | zero => cases read
  | succ fuel ih =>
    unfold scanGroups at read
    split at read
    · cases read
      exact ⟨[],(fun _ mem => by cases mem),beginsNothing [],by rw [groupValues,List.map_nil,List.append_nil]⟩
    · cases read
    · rename_i rest _
      obtain ⟨group,after,hex,rfl,stop,more⟩ := groupRound read
      obtain ⟨right,all,begins,rfl⟩ := ih more
      refine ⟨group :: right,List.forall_mem_cons.mpr ⟨hex,all⟩,begins.colon stop,?_⟩
      rw [groupValues,groupValues,List.map_cons,List.append_assoc]
      rfl
    · obtain ⟨group,after,hex,rfl,stop,more⟩ := groupRound read
      obtain ⟨right,all,begins,rfl⟩ := ih more
      refine ⟨group :: right,List.forall_mem_cons.mpr ⟨hex,all⟩,begins.digit hex stop,?_⟩
      rw [groupValues,groupValues,List.map_cons,List.append_assoc]
      rfl

inductive ScanEnds (seen : List Nat) : Text → Option Nat × List Nat → Prop where
  | plain : ScanEnds seen [] (none,seen)
  | double {rest : Text} {right : List Text} : (∀ group ∈ right, HexGroup group) → Begins rest right [] →
      ScanEnds seen (':' :: ':' :: rest) (some seen.length,seen ++ groupValues right)

theorem scanBefore (read : scanGroups fuel s none seen = some out) :
    ∃ left tail, (∀ group ∈ left, HexGroup group) ∧ Begins s left tail ∧ ScanEnds (seen ++ groupValues left) tail out := by
  induction fuel generalizing s seen with
  | zero => cases read
  | succ fuel ih =>
    have values (group : Text) (left : List Text) :
      seen ++ [hexNumber group] ++ groupValues left = seen ++ groupValues (group :: left) := by
      rw [groupValues,groupValues,List.map_cons,List.append_assoc]
      rfl
    have nothing : seen ++ groupValues [] = seen := List.append_nil _
    unfold scanGroups at read
    split at read
    · cases read
      refine ⟨[],[],(fun _ mem => by cases mem),beginsNothing [],?_⟩
      rw [nothing]
      exact .plain
    · rename_i rest
      refine ⟨[],_,(fun _ mem => by cases mem),beginsNothing _,?_⟩
      rw [nothing]
      split at read
      · rename_i twice
        cases twice
      · split at read
        · rename_i empty
          cases read
          have closed : ScanEnds seen [':',':'] _ := .double (fun _ mem => by cases mem) (beginsNothing [])
          rw [groupValues,List.map_nil,List.append_nil] at closed
          rw [List.isEmpty_iff.mp empty]
          exact closed
        · obtain ⟨right,all,begins,rfl⟩ := scanBehind read
          exact .double all begins
    · rename_i rest _
      obtain ⟨group,after,hex,rfl,stop,more⟩ := groupRound read
      obtain ⟨left,tail,all,begins,ended⟩ := ih more
      rw [values] at ended
      exact ⟨group :: left,tail,List.forall_mem_cons.mpr ⟨hex,all⟩,begins.colon stop,ended⟩
    · obtain ⟨group,after,hex,rfl,stop,more⟩ := groupRound read
      obtain ⟨left,tail,all,begins,ended⟩ := ih more
      rw [values] at ended
      exact ⟨group :: left,tail,List.forall_mem_cons.mpr ⟨hex,all⟩,begins.digit hex stop,ended⟩

theorem Begins.spelled {groups : List Text} {tail : Text} (begins : Begins s groups tail) :
    ∃ stray, s = spelledGroups stray groups ++ tail ∧ (stray = true → groups ≠ []) := by
  by_cases none_ : groups = []
  · subst none_
    refine ⟨false,?_,fun flag => by cases flag⟩
    rcases begins.1 with shape | shape <;> exact shape
  · rcases begins.1 with shape | shape
    · exact ⟨true,shape,fun _ => none_⟩
    · exact ⟨false,shape,fun flag => by cases flag⟩

end Scanning

section Accepted
variable {s : Text} {bytes : List UInt8}

theorem looseShort (front : Bool) {left right : List Text} {rest : Text} (hexLeft : ∀ group ∈ left, HexGroup group)
    (hexRight : ∀ group ∈ right, HexGroup group) (led : front = true → left ≠ []) (begins : Begins rest right [])
    (expand : expandGroups (some left.length) (groupValues left ++ groupValues right) = some bytes) :
    ∃ odd, LooseGroups (spelledGroups front left ++ ':' :: ':' :: rest) odd bytes := by
  obtain ⟨behind,shape,ledRight⟩ := begins.spelled
  rw [List.append_nil] at shape
  have size : (groupValues left ++ groupValues right).length = left.length + right.length := by
    rw [List.length_append,groupValues,groupValues,List.length_map,List.length_map]
  have cut : (groupValues left).length = left.length := List.length_map _
  rw [expandGroups,size] at expand
  split at expand
  · cases expand
  · rename_i few
    rw [List.take_left' cut,List.drop_left' cut] at expand
    cases expand
    have hex : ∀ group ∈ left ++ right, HexGroup group := fun group mem => (List.mem_append.mp mem).elim (hexLeft group) (hexRight group)
    rw [shape]
    exact ⟨_,.short front behind hex (Nat.not_lt.mp few) led ledRight⟩

theorem parsedLoose (read : parseIpv6Groups s = some bytes) : ∃ odd, LooseGroups s odd bytes := by
  rw [parsedScan] at read
  obtain ⟨out,scan,expand⟩ := Option.bind_eq_some_iff.mp read
  unfold scanned at scan
  split at scan
  · cases scan
    have none_ : ∀ group ∈ ([] : List Text), HexGroup group := fun _ mem => by cases mem
    exact looseShort false none_ none_ (fun flag => by cases flag) (beginsNothing []) expand
  · rename_i rest _
    obtain ⟨right,all,begins,rfl⟩ := scanBehind scan
    have none_ : ∀ group ∈ ([] : List Text), HexGroup group := fun _ mem => by cases mem
    exact looseShort false none_ all (fun flag => by cases flag) begins expand
  · rename_i double
    obtain ⟨left,tail,all,begins,ended⟩ := scanBefore scan
    rw [List.nil_append] at ended
    obtain ⟨front,shape,led⟩ := begins.spelled
    have cut : (groupValues left).length = left.length := List.length_map _
    cases ended with
    | plain =>
      rw [List.append_nil] at shape
      rw [expandGroups,cut] at expand
      split at expand
      · rename_i eight
        cases expand
        rw [shape]
        exact ⟨front,.full front all eight⟩
      · cases expand
    | double hexRight behind =>
      rw [cut] at expand
      rw [shape]
      exact looseShort front all hexRight led behind expand

end Accepted

section Tails
variable {text quad : Text} {bytes last : List UInt8}

theorem octetRead {octet : UInt8} {rest : Text} (read : parseOctet text = some (octet,rest)) :
    ∃ part, DecimalByte part ∧ text = part ++ rest ∧ octet = UInt8.ofNat (decimal part) := by
  unfold parseOctet at read
  simp only at read
  split at read
  · cases read
  · rename_i named
    split at read
    · cases read
    · rename_i small
      cases read
      refine ⟨text.takeWhile isDigit,⟨fun c mem => List.mem_takeWhile_imp mem,?_,Nat.not_lt.mp small⟩,
        List.takeWhile_append_dropWhile.symm,rfl⟩
      intro empty
      rw [empty] at named
      exact named rfl

theorem octetsRead {left : Nat} (read : parseOctets (left + 1) text = some bytes) :
    ∃ part rest more, DecimalByte part ∧ text = '.' :: (part ++ rest) ∧ parseOctets left rest = some more ∧
      bytes = UInt8.ofNat (decimal part) :: more := by
  unfold parseOctets at read
  split at read
  · simp only [Option.bind_eq_bind,Option.bind_eq_some_iff] at read
    obtain ⟨⟨octet,after⟩,first,more,rest,same⟩ := read
    obtain ⟨part,byte,rfl,rfl⟩ := octetRead first
    cases same
    exact ⟨part,after,more,byte,rfl,rest,rfl⟩
  · cases read

theorem quadRead (read : parseIpv4 text = some bytes) : DottedQuad text bytes := by
  unfold parseIpv4 at read
  simp only [Option.bind_eq_bind,Option.bind_eq_some_iff] at read
  obtain ⟨⟨octet,after⟩,first,three,more,same⟩ := read
  cases same
  obtain ⟨a,byteA,rfl,rfl⟩ := octetRead first
  obtain ⟨b,_,_,byteB,rfl,two,rfl⟩ := octetsRead more
  obtain ⟨c,_,_,byteC,rfl,one,rfl⟩ := octetsRead two
  obtain ⟨d,_,_,byteD,rfl,none_,rfl⟩ := octetsRead one
  unfold parseOctets at none_
  split at none_
  · rename_i empty
    cases none_
    rw [List.isEmpty_iff.mp empty,List.append_nil]
    exact .quad byteA byteB byteC byteD
  · cases none_

theorem sameTail {front front' back back' : Text} (same : front ++ ':' :: back = front' ++ ':' :: back') (plain : ':' ∉ back)
    (plain' : ':' ∉ back') :
    front = front' ∧ back = back' := by
  have tail : back = back' := by rw [← tailAfter front plain,same,tailAfter front' plain']
  subst tail
  exact ⟨List.append_cancel_right same,rfl⟩

theorem hexPlain {group : Text} (hex : HexGroup group) : ':' ∉ group := fun mem => hexNotColon (hex.digits ':' mem) rfl

theorem lastGroup {groups : List Text} {front back : Text} (hex : ∀ group ∈ groups, HexGroup group)
    (shape : joined groups = front ++ ':' :: back)
    (plain : ':' ∉ back) : ∃ init, init ≠ [] ∧ groups = init ++ [back] ∧ front = joined init := by
  rcases List.eq_nil_or_concat groups with rfl | ⟨init,group,rfl⟩
  · rw [joined] at shape
    exact absurd shape.symm (by simp)
  · rw [List.concat_eq_append] at *
    have own := hexPlain (hex group (List.mem_append_right _ (List.mem_singleton_self _)))
    by_cases none_ : init = []
    · subst none_
      rw [List.nil_append,joined,colonText,List.flatMap_nil,List.append_nil] at shape
      rw [shape] at own
      exact absurd (List.mem_append_right _ List.mem_cons_self) own
    · rw [joinedAppend none_,colonText,List.flatMap_singleton] at shape
      obtain ⟨same,rfl⟩ := sameTail shape own plain
      exact ⟨init,none_,rfl,same.symm⟩

theorem unmarkedLoose {s : Text} {odd : Bool} (loose : LooseGroups s odd bytes) (plain : odd = false) :
    (∃ groups, (∀ group ∈ groups, HexGroup group) ∧ groups.length = 8 ∧ s = joined groups ∧ bytes = groupBytes (groupValues groups)) ∨
    ∃ left right, (∀ group ∈ left ++ right, HexGroup group) ∧ left.length + right.length < 8 ∧
      s = joined left ++ ':' :: ':' :: joined right ∧
      bytes = groupBytes (groupValues left ++ List.replicate (8 - (left.length + right.length)) 0 ++ groupValues right) := by
  cases loose with
  | @full groups stray hex eight =>
    subst plain
    exact .inl ⟨groups,hex,eight,rfl,rfl⟩
  | @short left right front behind hex few _ _ =>
    simp only [Bool.or_eq_false_iff,beq_eq_false_iff_ne] at plain
    obtain ⟨⟨rfl,rfl⟩,fewer⟩ := plain
    exact .inr ⟨left,right,hex,by omega,rfl,rfl⟩

theorem looseSpelled {s : Text} (loose : LooseGroups s false bytes) : Ipv6Text s bytes := by
  rcases unmarkedLoose loose rfl with ⟨groups,hex,eight,rfl,rfl⟩ | ⟨left,right,hex,fewer,rfl,rfl⟩
  · exact .full hex eight
  · exact .short hex fewer

theorem colonSnoc (groups : List Text) (group : Text) : colonText (groups ++ [group]) = colonText groups ++ ':' :: group := by
  rw [colonText,List.flatMap_append,List.flatMap_singleton]
  rfl

theorem quadBytes (values : List Nat) {x y : Text} (pair : quadGroups last = [x,y]) (four : last.length = 4) :
    groupBytes (values ++ [hexNumber x,hexNumber y]) = groupBytes values ++ last := by
  have own := quadValues four
  rw [pair] at own
  rw [groupBytes,List.flatMap_append]
  exact congrArg (groupBytes values ++ ·) own

theorem dottedSpelled {front : Text} (dotted : DottedQuad quad last)
    (loose : LooseGroups (front ++ ':' :: joined (quadGroups last)) false bytes) : Ipv6Text (front ++ ':' :: quad) bytes := by
  have four := (quadShape dotted).2.2
  obtain ⟨hexPair,two⟩ := quadHex four
  obtain ⟨x,y,pair⟩ := List.length_eq_two.mp two
  rw [pair] at loose hexPair
  have hexX : HexGroup x := hexPair x List.mem_cons_self
  have hexY : HexGroup y := hexPair y (List.mem_cons_of_mem _ List.mem_cons_self)
  have text : front ++ ':' :: joined [x,y] = (front ++ ':' :: x) ++ ':' :: y := by
    simp [joined,colonText]
  rw [text] at loose
  rcases unmarkedLoose loose rfl with ⟨groups,hex,eight,shape,rfl⟩ | ⟨left,right,hex,fewer,shape,rfl⟩
  · obtain ⟨init,_,rfl,ends⟩ := lastGroup hex shape.symm (hexPlain hexY)
    have hexInit : ∀ group ∈ init, HexGroup group := fun group mem => hex group (List.mem_append_left _ mem)
    obtain ⟨six,_,rfl,rfl⟩ := lastGroup hexInit ends.symm (hexPlain hexX)
    have size : six.length = 6 := by
      simp only [List.length_append,List.length_singleton] at eight
      omega
    have values : groupValues (six ++ [x] ++ [y]) = groupValues six ++ [hexNumber x,hexNumber y] := by
      simp [groupValues]
    rw [values,quadBytes _ pair four]
    exact .fullQuad (fun group mem => hexInit group (List.mem_append_left _ mem)) size dotted
  · rcases List.eq_nil_or_concat right with rfl | ⟨init,group,rfl⟩
    · have tail : joined left ++ ':' :: ':' :: joined [] = (joined left ++ [':']) ++ ':' :: [] := by simp [joined]
      rw [tail] at shape
      exact absurd (sameTail shape (hexPlain hexY) (by simp)).2 hexY.nonempty
    · rw [List.concat_eq_append] at *
      have some_ : init ++ [group] ≠ [] := by simp
      have own := hexPlain (hex group (by simp))
      have tail : joined left ++ ':' :: ':' :: joined (init ++ [group]) = (joined left ++ ':' :: colonText init) ++ ':' :: group := by
        rw [← colonJoined some_,colonSnoc,List.append_assoc]
        rfl
      rw [tail] at shape
      obtain ⟨before,rfl⟩ := sameTail shape (hexPlain hexY) own
      rcases List.eq_nil_or_concat init with rfl | ⟨middle,first,rfl⟩
      · exact absurd (sameTail before (hexPlain hexX) (by simp [colonText])).2 hexX.nonempty
      · rw [List.concat_eq_append] at *
        rw [colonSnoc,← List.cons_append,← List.append_assoc] at before
        obtain ⟨rfl,rfl⟩ := sameTail before (hexPlain hexX) (hexPlain (hex first (by simp)))
        have sizes : left.length + (middle ++ [x] ++ [y]).length = left.length + middle.length + 2 := by
          simp only [List.length_append,List.length_singleton]
          omega
        have values : groupValues (middle ++ [x] ++ [y]) = groupValues middle ++ [hexNumber x,hexNumber y] := by
          simp [groupValues]
        have zeros : 8 - (left.length + middle.length + 2) = 6 - (left.length + middle.length) := by omega
        have hexRest : ∀ group ∈ left ++ middle, HexGroup group := by
          intro group mem
          refine hex group ?_
          rcases List.mem_append.mp mem with inLeft | inMiddle
          · exact List.mem_append_left _ inLeft
          · simp [inMiddle]
        have short := Ipv6Text.shortQuad hexRest (by omega) dotted
        rw [sizes,values,zeros,← List.append_assoc,quadBytes _ pair four,List.append_assoc]
        exact short

end Tails

section Agreement
variable {s : Text} {bytes : List UInt8}

theorem lastColon (colon : ':' ∈ s) : ∃ front, s = front ++ ':' :: afterLastColon s := by
  rcases Fields.cutCases ':' s.reverse with ⟨absent,_⟩ | ⟨front,rest,cut⟩
  · exact absurd (List.mem_reverse.mpr colon) absent
  · have turned := congrArg List.reverse cut
    rw [List.reverse_append,List.reverse_cons,List.reverse_reverse,List.append_assoc] at turned
    exact ⟨front.reverse,turned⟩

theorem looseDot {odd : Bool} (loose : LooseGroups s odd bytes) : '.' ∉ s := by
  have spelled {stray : Bool} {groups : List Text} (hex : ∀ group ∈ groups, HexGroup group) : '.' ∉ spelledGroups stray groups := by
    have plain := joinedPlain hex
    cases stray with
    | false => exact plain
    | true =>
      by_cases none_ : groups = []
      · rw [none_]
        exact List.not_mem_nil
      · change '.' ∉ colonText groups
        rw [colonJoined none_,List.mem_cons,not_or]
        exact ⟨by decide,plain⟩
  cases loose with
  | full stray hex eight => exact spelled hex
  | short front behind hex few led ledRight =>
    rw [List.mem_append,List.mem_cons,List.mem_cons,not_or,not_or,not_or]
    exact ⟨spelled fun group mem => hex group (List.mem_append_left _ mem),by decide,by decide,
      spelled fun group mem => hex group (List.mem_append_right _ mem)⟩

theorem acceptedLoose (read : parseIpv6 s = some bytes) : ∃ odd, LooseGroups s odd bytes ∨
    ∃ front quad last, s = front ++ ':' :: quad ∧ DottedQuad quad last ∧
      LooseGroups (front ++ ':' :: joined (quadGroups last)) odd bytes := by
  by_cases dotted : (s.contains ':' && (afterLastColon s).contains '.') = true
  · rw [Bool.and_eq_true,List.contains_iff_mem] at dotted
    obtain ⟨front,shape⟩ := lastColon dotted.1
    have whole := read
    unfold parseIpv6 at whole
    simp only [List.contains_iff_mem.mpr dotted.1,dotted.2,Bool.and_self,if_true] at whole
    split at whole
    · rename_i a b c d numbers
      have quad := quadRead numbers
      rw [shape,quadTail front quad] at read
      obtain ⟨odd,loose⟩ := parsedLoose read
      exact ⟨odd,.inr ⟨front,afterLastColon s,_,shape,quad,loose⟩⟩
    · cases whole
  · unfold parseIpv6 at read
    simp only [dotted] at read
    obtain ⟨odd,loose⟩ := parsedLoose read
    exact ⟨odd,.inl loose⟩

theorem unmarkedFull {groups : List Text} (hex : ∀ group ∈ groups, HexGroup group) (eight : groups.length = 8) :
    LooseGroups (joined groups) false (groupBytes (groupValues groups)) := .full false hex eight

theorem unmarkedShort {left right : List Text} (hex : ∀ group ∈ left ++ right, HexGroup group) (fewer : left.length + right.length < 8) :
    LooseGroups (joined left ++ ':' :: ':' :: joined right) false
      (groupBytes (groupValues left ++ List.replicate (8 - (left.length + right.length)) 0 ++ groupValues right)) := by
  have loose := LooseGroups.short false false hex (Nat.le_of_lt fewer) (fun flag => by cases flag) (fun flag => by cases flag)
  have unmarked : (false || false || left.length + right.length == 8) = false := by
    rw [Bool.or_self,Bool.false_or]
    exact beq_eq_false_iff_ne.mpr (Nat.ne_of_lt fewer)
  rw [unmarked] at loose
  exact loose

theorem spelledLoose (spelled : Ipv6Text s bytes) : LooseGroups s false bytes ∨
    ∃ front quad last, s = front ++ ':' :: quad ∧ DottedQuad quad last ∧
      LooseGroups (front ++ ':' :: joined (quadGroups last)) false bytes := by
  cases spelled with
  | full hex eight => exact .inl (unmarkedFull hex eight)
  | short hex fewer => exact .inl (unmarkedShort hex fewer)
  | @fullQuad groups quad last hex six dotted =>
    refine .inr ⟨joined groups,quad,last,rfl,dotted,?_⟩
    have four := (quadShape dotted).2.2
    obtain ⟨hexPair,two⟩ := quadHex four
    obtain ⟨x,y,pair⟩ := List.length_eq_two.mp two
    rw [pair] at hexPair ⊢
    have some_ : groups ≠ [] := by
      rintro rfl
      cases six
    have every : ∀ group ∈ groups ++ [x,y], HexGroup group := fun group mem => (List.mem_append.mp mem).elim (hex group) (hexPair group)
    have loose := unmarkedFull every (by rw [List.length_append,six]; rfl)
    have values : groupValues (groups ++ [x,y]) = groupValues groups ++ [hexNumber x,hexNumber y] := List.map_append
    rw [values,quadBytes _ pair four,joinedAppend some_,colonJoined (List.cons_ne_nil _ _)] at loose
    exact loose
  | @shortQuad left right quad last hex fewer dotted =>
    refine .inr ⟨joined left ++ ':' :: colonText right,quad,last,by rw [List.append_assoc]; rfl,dotted,?_⟩
    have four := (quadShape dotted).2.2
    obtain ⟨hexPair,two⟩ := quadHex four
    obtain ⟨x,y,pair⟩ := List.length_eq_two.mp two
    rw [pair] at hexPair ⊢
    have every : ∀ group ∈ left ++ (right ++ [x,y]), HexGroup group := by
      rw [← List.append_assoc]
      exact fun group mem => (List.mem_append.mp mem).elim (hex group) (hexPair group)
    have size : left.length + (right ++ [x,y]).length = left.length + right.length + 2 := by
      rw [List.length_append,List.length_cons,List.length_singleton,Nat.add_assoc]
    have loose := unmarkedShort every (by omega)
    have values : groupValues (right ++ [x,y]) = groupValues right ++ [hexNumber x,hexNumber y] := List.map_append
    have zeros : 8 - (left.length + right.length + 2) = 6 - (left.length + right.length) := by omega
    have tail : ':' :: joined (right ++ [x,y]) = colonText right ++ ':' :: joined [x,y] := by
      rw [← colonJoined (by simp),colonText,List.flatMap_append]
      exact congrArg (colonText right ++ ·) (colonJoined (List.cons_ne_nil _ _))
    rw [size,values,zeros,← List.append_assoc (groupValues left ++ _),quadBytes _ pair four,tail] at loose
    rw [List.append_assoc]
    exact loose

theorem oddParsed (odd : OddText s) : ∃ bytes, parseIpv6 s = some bytes := by
  rcases odd with ⟨bytes,loose⟩ | ⟨front,quad,last,mark,bytes,rfl,dotted,loose,_⟩
  · exact ⟨bytes,(plainTail (looseDot loose)).trans (looseParsed loose)⟩
  · exact ⟨bytes,(quadTail front dotted).trans (looseParsed loose)⟩

theorem oddRefused (odd : OddText s) (spelled : Ipv6Text s bytes) : leadingZeros s = true := by
  have dotIn {front quad : Text} {last : List UInt8} (dotted : DottedQuad quad last) : '.' ∈ front ++ ':' :: quad :=
    List.mem_append_right _ (List.mem_cons_of_mem _ (quadShape dotted).2.1)
  rcases odd with ⟨others,loose⟩ | ⟨front,quad,last,mark,others,shape,dotted,loose,marked⟩
  · rcases spelledLoose spelled with plain | ⟨front,quad,last,rfl,dotted,_⟩
    · cases looseMark loose plain
    · exact absurd (dotIn dotted) (looseDot loose)
  · rcases spelledLoose spelled with plain | ⟨front',quad',last',shape',dotted',plain⟩
    · rw [shape] at plain
      exact absurd (dotIn dotted) (looseDot plain)
    · obtain ⟨rfl,rfl⟩ := sameTail (shape.symm.trans shape') (quadShape dotted).1 (quadShape dotted').1
      have same : last = last' := Option.some.inj ((quadParsed dotted).symm.trans (quadParsed dotted'))
      subst same
      have unmarked := looseMark loose plain
      rw [unmarked] at marked
      exact marked.resolve_left Bool.false_ne_true

theorem plainZeros (plain : '.' ∉ s) : leadingZeros s = false := by
  have none_ : s.contains '.' = false := by
    rw [Bool.eq_false_iff,ne_eq,List.contains_iff_mem]
    exact plain
  rw [leadingZeros,none_]
  rfl

/- inet_pton's texts: those of RFC 4291 without a leading zero in the dotted tail. parse_ipv6 agrees with them about a
text exactly when it is none of the odd ones. -/
theorem ipv6ReadIff (s : Text) :
    (∀ bytes, parseIpv6 s = some bytes ↔ Ipv6Text s bytes ∧ leadingZeros s = false) ↔ ¬OddText s := by
  constructor
  · intro agree odd
    obtain ⟨bytes,read⟩ := oddParsed odd
    obtain ⟨spelled,zeros⟩ := (agree bytes).mp read
    rw [oddRefused odd spelled] at zeros
    cases zeros
  · intro even bytes
    refine ⟨fun read => ?_,fun text => ipv6Parsed text.1⟩
    obtain ⟨odd,loose | ⟨front,quad,last,shape,dotted,loose⟩⟩ := acceptedLoose read
    · cases odd with
      | true => exact absurd (.inl ⟨bytes,loose⟩) even
      | false => exact ⟨looseSpelled loose,plainZeros (looseDot loose)⟩
    · have clean : ¬(odd = true ∨ leadingZeros s = true) := fun marked => even (.inr ⟨front,quad,last,odd,bytes,shape,dotted,loose,marked⟩)
      obtain ⟨unmarked,zeros⟩ := not_or.mp clean
      rw [Bool.not_eq_true] at unmarked zeros
      subst unmarked
      rw [shape] at zeros ⊢
      exact ⟨dottedSpelled dotted loose,zeros⟩

/- Two colons beside eight groups, and a single colon in front. -/
theorem oddTextsRead :
    (parseIpv6 (text "1:2:3:4::5:6:7:8")).isSome = true ∧
    (∀ bytes, ¬(Ipv6Text (text "1:2:3:4::5:6:7:8") bytes ∧ leadingZeros (text "1:2:3:4::5:6:7:8") = false)) ∧
    (parseIpv6 (text ":1:2:3:4:5:6:7:8")).isSome = true ∧
      ∀ bytes, ¬(Ipv6Text (text ":1:2:3:4:5:6:7:8") bytes ∧ leadingZeros (text ":1:2:3:4:5:6:7:8") = false) := by
  have digit : ∀ group ∈ ["1","2","3","4","5","6","7","8"].map text, HexGroup group := by
    intro group mem
    refine ⟨List.all_eq_true.mp ?_,?_,?_⟩
    · revert group
      decide
    · revert group
      decide
    · revert group
      decide
  have eight : OddText (text "1:2:3:4::5:6:7:8") := by
    have loose := @LooseGroups.short (["1","2","3","4"].map text) (["5","6","7","8"].map text) false false digit (by decide)
      (fun flag => by cases flag) (fun flag => by cases flag)
    exact .inl ⟨_,loose⟩
  have stray : OddText (text ":1:2:3:4:5:6:7:8") := .inl ⟨_,LooseGroups.full true digit (by decide)⟩
  refine ⟨by decide,fun bytes both => ?_,by decide,fun bytes both => ?_⟩
  · rw [oddRefused eight both.1] at both
    cases both.2
  · rw [oddRefused stray both.1] at both
    cases both.2

end Agreement

end KeenPbr
