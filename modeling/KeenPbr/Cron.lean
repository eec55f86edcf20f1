import KeenPbr.NfqwsParser
import KeenPbr.Fields
import Mathlib.Data.Finset.Insert

/-! util/cron.hpp: a cron expression is five fields, each a list of progressions, and the next fire time is searched minute
by minute. An int that is stepped past its largest value is recorded, for what such a loop does next is undefined. The
calendar is a function of the time, as localtime_r is. -/
namespace KeenPbr.Cron
open Fields

section Fields

def intMax : Int := 2147483647

def cronParseInt (s ctx : Text) : Except String Int :=
  if s.isEmpty then .error ("Empty number in cron field: " ++ String.ofList ctx)
  else if !s.all (·.isDigit) then .error ("Non-numeric character in cron field: " ++ String.ofList ctx)
  else if intMax < Nat.ofDigitChars 10 s 0 then .error ("Number out of range in cron field: " ++ String.ofList ctx)
  else .ok (Nat.ofDigitChars 10 s 0)

structure Progression where
  start : Int
  stop : Int
  step : Int
  deriving DecidableEq, Repr

def readStep (token part : Text) : Except String Int :=
  match part.dropWhile (· != '/') with
  | [] => .ok 1
  | _ :: digits =>
    match cronParseInt digits token with
    | .error message => .error message
    | .ok step => if step < 1 then .error ("Step must be >= 1 in cron field: " ++ String.ofList token) else .ok step

def readEnds (token rangePart : Text) (stepped : Bool) (lo hi : Int) : Except String (Int × Int) :=
  if rangePart = ['*'] then .ok (lo,hi)
  else
    match rangePart.dropWhile (· != '-') with
    | [] => (cronParseInt rangePart token).map fun start => (start,if stepped then hi else start)
    | _ :: last =>
      match cronParseInt (rangePart.takeWhile (· != '-')) token with
      | .error message => .error message
      | .ok start => (cronParseInt last token).map fun stop => (start,stop)

def outOfRange (token : Text) (value lo hi : Int) : String :=
  "Value " ++ toString value ++ " out of range [" ++ toString lo ++ "," ++ toString hi ++ "] in cron field: " ++ String.ofList token

def readPart (token : Text) (lo hi : Int) (part : Text) : Except String Progression :=
  match readStep token part with
  | .error message => .error message
  | .ok step =>
    match readEnds token (part.takeWhile (· != '/')) (part.contains '/') lo hi with
    | .error message => .error message
    | .ok (start,stop) =>
      if start < lo ∨ start > hi then .error (outOfRange token start lo hi)
      else if stop < lo ∨ stop > hi then .error (outOfRange token stop lo hi)
      else if start > stop then .error ("Range start > end in cron field: " ++ String.ofList token)
      else .ok { start, stop, step }

structure Expansion where
  values : Finset Int := ∅
  overflow : Bool := false
  deriving DecidableEq

def stepLoop (stop step : Int) : Nat → Int → Expansion → Expansion
  | 0,_,result => result
  | fuel + 1,v,result =>
    if v ≤ stop then
      if v + step > intMax then { values := insert v result.values, overflow := true }
      else stepLoop stop step fuel (v + step) { result with values := insert v result.values }
    else result

def Progression.insertInto (p : Progression) (result : Expansion) : Expansion :=
  stepLoop p.stop p.step (p.stop - p.start + 1).toNat p.start result

def expandParts (token : Text) (lo hi : Int) : List Text → Expansion → Except String Expansion
  | [],result => .ok result
  | part :: rest,result =>
    match readPart token lo hi part with
    | .error message => .error message
    | .ok p => expandParts token lo hi rest (p.insertInto result)

def comma (c : Char) : Bool := c == ','

def expandCronField (token : Text) (lo hi : Int) : Except String Expansion :=
  match expandParts token lo hi (fields comma token) {} with
  | .error message => .error message
  | .ok result => if result.values = ∅ then .error ("Empty expansion for cron field: " ++ String.ofList token) else .ok result

structure CronFields where
  minute : Expansion
  hour : Expansion
  mday : Expansion
  month : Expansion
  wday : Expansion
  deriving DecidableEq

def CronFields.overflow (f : CronFields) : Bool :=
  f.minute.overflow || f.hour.overflow || f.mday.overflow || f.month.overflow || f.wday.overflow

def blank (c : Char) : Bool := c == ' ' || c == '\t'

def cronTokens (expr : Text) : List Text := (fields blank expr).filter fun token => !token.isEmpty

def parseCronFields (expr : Text) : Except String CronFields :=
  match cronTokens expr with
  | [minute,hour,mday,month,wday] => do
    let minute ← expandCronField minute 0 59
    let hour ← expandCronField hour 0 23
    let mday ← expandCronField mday 1 31
    let month ← expandCronField month 1 12
    let wday ← expandCronField wday 0 6
    .ok { minute, hour, mday, month, wday }
  | tokens => .error ("Cron expression must have exactly 5 fields, got " ++ toString tokens.length ++ ": '" ++ String.ofList expr ++ "'")

def cronValidate (expr : Text) : Except String Unit := (parseCronFields expr).map fun _ => ()

end Fields

section Next

structure Tm where
  tmMin : Int
  tmHour : Int
  tmMday : Int
  tmMon : Int
  tmWday : Int
  deriving DecidableEq, Repr

def CronFields.due (f : CronFields) (tm : Tm) : Bool :=
  decide (tm.tmMon + 1 ∈ f.month.values) && decide (tm.tmMday ∈ f.mday.values) && decide (tm.tmWday ∈ f.wday.values) &&
    decide (tm.tmHour ∈ f.hour.values) && decide (tm.tmMin ∈ f.minute.values)

def secondTicks : Int := 1000000000
def minuteTicks : Int := 60000000000
def maxTicks : Int := 9223372036854775807

structure TimePoint where
  ticks : Int
  low : -9223372036854775808 ≤ ticks
  high : ticks ≤ 9223372036854775807
  deriving DecidableEq

inductive Outcome where
  | returned (time : TimePoint)
  | thrown (message : String)
  | undefined
  deriving DecidableEq

/- The division truncates. -/
def toTimeT (ticks : Int) : Int := ticks.tdiv secondTicks

def fromTimeT (t : Int) : Outcome :=
  if inside : -9223372036854775808 ≤ t * secondTicks ∧ t * secondTicks ≤ 9223372036854775807
    then .returned ⟨t * secondTicks,inside.1,inside.2⟩ else .undefined

def wholeMinute (t : Int) : Int := (t + 59).tdiv 60 * 60

def maxMinutes : Nat := 366 * 2 * 24 * 60

variable (localtime : Int → Tm)

def search (f : CronFields) : Nat → Int → Option Int
  | 0,_ => none
  | left + 1,t => if f.due (localtime t) then some t else search f left (t + 60)

def cronNext (expr : Text) (start : TimePoint) : Outcome :=
  match parseCronFields expr with
  | .error message => .thrown message
  | .ok f =>
    if f.overflow then .undefined
    else if start.ticks + secondTicks > maxTicks then .undefined
    else
      match search localtime f maxMinutes (wholeMinute (toTimeT (start.ticks + secondTicks))) with
      | some t => fromTimeT t
      | none => .thrown ("cron_next: no matching time found within 2 years for: '" ++ String.ofList expr ++ "'")

end Next

section Progressions
variable {token part : Text} {lo hi : Int} {p : Progression}

def valuesFrom (stop step v : Int) : Set Int := {x | x ≤ stop ∧ ∃ k : Nat, x = v + k * step}

def Progression.values (p : Progression) : Set Int := valuesFrom p.stop p.step p.start

def Progression.last (p : Progression) : Int := p.stop - (p.stop - p.start) % p.step

structure Progression.Valid (lo hi : Int) (p : Progression) : Prop where
  lower : lo ≤ p.start
  ordered : p.start ≤ p.stop
  upper : p.stop ≤ hi
  positive : 1 ≤ p.step

theorem lastValue (valid : p.Valid lo hi) : p.last ∈ p.values := by
  have positive := valid.positive
  have ordered := valid.ordered
  have split := Int.mul_ediv_add_emod (p.stop - p.start) p.step
  have rest := Int.emod_nonneg (p.stop - p.start) (by omega : p.step ≠ 0)
  have count : 0 ≤ (p.stop - p.start) / p.step := Int.ediv_nonneg (by omega) (by omega)
  refine ⟨by rw [Progression.last]; omega,((p.stop - p.start) / p.step).toNat,?_⟩
  rw [Int.toNat_of_nonneg count,Int.mul_comm,Progression.last]
  omega

theorem valuesLast (valid : p.Valid lo hi) {v : Int} (mem : v ∈ p.values) : v ≤ p.last := by
  obtain ⟨below,k,rfl⟩ := mem
  have positive := valid.positive
  have small := Int.emod_lt_of_pos (p.stop - p.start) (by omega : 0 < p.step)
  have split := Int.mul_ediv_add_emod (p.stop - p.start) p.step
  have most : (k : Int) ≤ (p.stop - p.start) / p.step := by
    rw [Int.le_ediv_iff_mul_le (by omega)]
    omega
  have grown := Int.mul_le_mul_of_nonneg_right most (by omega : 0 ≤ p.step)
  rw [Progression.last]
  rw [Int.mul_comm p.step] at split
  omega

theorem valuesPast {stop step v : Int} (positive : 1 ≤ step) (past : stop < v) (x : Int) : x ∉ valuesFrom stop step v := by
  rintro ⟨below,k,rfl⟩
  have grown : (0 : Int) ≤ k * step := Int.mul_nonneg (Int.natCast_nonneg k) (by omega)
  omega

theorem valuesNext {stop step v : Int} (inside : v ≤ stop) (x : Int) :
    x ∈ valuesFrom stop step v ↔ x = v ∨ x ∈ valuesFrom stop step (v + step) := by
  constructor
  · rintro ⟨below,k,same⟩
    cases k with
    | zero => exact .inl (by simpa using same)
    | succ k =>
      refine .inr ⟨below,k,?_⟩
      rw [same,Int.natCast_add,Int.add_mul]
      omega
  · rintro (same | ⟨below,k,same⟩)
    · exact ⟨by omega,0,by simpa using same⟩
    · refine ⟨below,k + 1,?_⟩
      rw [same,Int.natCast_add,Int.add_mul]
      omega

theorem loopValues {stop step : Int} (positive : 1 ≤ step) (small : stop ≤ intMax) {fuel : Nat} {v : Int}
    (enough : stop - v < fuel) (result : Expansion)
    (x : Int) : x ∈ (stepLoop stop step fuel v result).values ↔ x ∈ result.values ∨ x ∈ valuesFrom stop step v := by
  induction fuel generalizing v result with
  | zero => rw [stepLoop,or_iff_left (valuesPast positive (by omega) x)]
  | succ fuel ih =>
    rw [stepLoop]
    by_cases inside : v ≤ stop
    · rw [if_pos inside,valuesNext inside]
      split
      · rename_i beyond
        -- the value the increment would give is past the end as well
        rw [Finset.mem_insert,or_iff_left (valuesPast positive (by omega) x),or_comm]
      · rw [ih (by omega),Finset.mem_insert,or_assoc,or_left_comm]
    · rw [if_neg inside,or_iff_left (valuesPast positive (by omega) x)]

theorem loopOverflow {stop step : Int} (positive : 1 ≤ step) {fuel : Nat} {v : Int} (enough : stop - v < fuel) (result : Expansion) :
    (stepLoop stop step fuel v result).overflow = true ↔ result.overflow = true ∨ ∃ x ∈ valuesFrom stop step v, x + step > intMax := by
  have nothing {v : Int} (past : stop < v) : ¬∃ x ∈ valuesFrom stop step v, x + step > intMax := by
    rintro ⟨x,mem,_⟩
    exact valuesPast positive past x mem
  induction fuel generalizing v result with
  | zero => rw [stepLoop,or_iff_left (nothing (by omega))]
  | succ fuel ih =>
    rw [stepLoop]
    by_cases inside : v ≤ stop
    · rw [if_pos inside]
      split
      · rename_i beyond
        exact iff_of_true rfl (.inr ⟨v,(valuesNext inside v).mpr (.inl rfl),beyond⟩)
      · rename_i room
        refine (ih (by omega) _).trans (or_congr Iff.rfl ⟨?_,?_⟩)
        · rintro ⟨x,mem,beyond⟩
          exact ⟨x,(valuesNext inside x).mpr (.inr mem),beyond⟩
        · rintro ⟨x,mem,beyond⟩
          cases (valuesNext inside x).mp mem with
          | inl same =>
            rw [same] at beyond
            exact absurd beyond room
          | inr later => exact ⟨x,later,beyond⟩
    · rw [if_neg inside,or_iff_left (nothing (by omega))]

variable (valid : p.Valid lo hi) (result : Expansion)
include valid

theorem insertedValues (field : hi ≤ intMax) (x : Int) : x ∈ (p.insertInto result).values ↔ x ∈ result.values ∨ x ∈ p.values :=
  loopValues valid.positive (Int.le_trans valid.upper field) (by omega) result x

theorem insertedOverflow : (p.insertInto result).overflow = true ↔ result.overflow = true ∨ p.last + p.step > intMax := by
  have whole := loopOverflow valid.positive (by omega : p.stop - p.start < (p.stop - p.start + 1).toNat) result
  rw [Progression.insertInto,whole]
  refine or_congr Iff.rfl ⟨?_,fun beyond => ⟨p.last,lastValue valid,beyond⟩⟩
  rintro ⟨x,mem,beyond⟩
  have most := valuesLast valid mem
  omega

end Progressions

section Grammar
variable {token text : Text} {lo hi : Int}

structure Numeral (digits : Text) (n : Int) : Prop where
  some : digits ≠ []
  decimal : ∀ c ∈ digits, c.isDigit = true
  value : n = Nat.ofDigitChars 10 digits 0
  small : n ≤ intMax

inductive Range (lo hi : Int) (stepped : Bool) : Text → Int → Int → Prop where
  | every : Range lo hi stepped ['*'] lo hi
  | value {digits : Text} {n : Int} (number : Numeral digits n) : Range lo hi stepped digits n (if stepped then hi else n)
  | span {low high : Text} {first last : Int} (lower : Numeral low first) (upper : Numeral high last) :
      Range lo hi stepped (low ++ '-' :: high) first last

inductive Part (lo hi : Int) : Text → Progression → Prop where
  | plain {text : Text} {start stop : Int} (range : Range lo hi false text start stop) : Part lo hi text ⟨start,stop,1⟩
  | stepped {text digits : Text} {start stop step : Int} (range : Range lo hi true text start stop) (number : Numeral digits step) :
      Part lo hi (text ++ '/' :: digits) ⟨start,stop,step⟩

inductive Field (lo hi : Int) : Text → List Progression → Prop where
  | one {text : Text} {p : Progression} (part : Part lo hi text p) (valid : p.Valid lo hi) : Field lo hi text [p]
  | more {text others : Text} {p : Progression} {rest : List Progression} (part : Part lo hi text p) (valid : p.Valid lo hi)
      (later : Field lo hi others rest) : Field lo hi (text ++ ',' :: others) (p :: rest)

theorem numeralRead {n : Int} : cronParseInt text token = .ok n ↔ Numeral text n := by
  unfold cronParseInt
  constructor
  · intro read
    split at read
    · cases read
    · rename_i some
      split at read
      · cases read
      · rename_i decimal
        split at read
        · cases read
        · rename_i small
          cases read
          rw [Bool.not_eq_true,Bool.not_eq_false',List.all_eq_true] at decimal
          exact ⟨by simpa using some,decimal,rfl,Int.not_lt.mp small⟩
  · rintro ⟨some,decimal,rfl,small⟩
    have all : text.all (·.isDigit) = true := List.all_eq_true.mpr decimal
    rw [if_neg (by simpa using some),all,if_neg (by decide),if_neg (Int.not_lt.mpr small)]

theorem Numeral.free {n : Int} (number : Numeral text n) {c : Char} (other : c.isDigit = false) : c ∉ text := by
  intro mem
  rw [number.decimal c mem] at other
  cases other

theorem rangeRead {stepped : Bool} {start stop : Int} :
    readEnds token text stepped lo hi = .ok (start,stop) ↔ Range lo hi stepped text start stop := by
  constructor
  · intro read
    unfold readEnds at read
    split at read
    · rename_i every
      cases read
      exact every ▸ .every
    · rcases cutCases '-' text with ⟨_,none⟩ | ⟨high,behind,cut⟩
      · rw [none] at read
        cases number : cronParseInt text token with
        | error message =>
          rw [number] at read
          cases read
        | ok n =>
          rw [number] at read
          cases read
          exact .value (numeralRead.mp number)
      · rw [behind] at read
        simp only at read
        cases lower : cronParseInt (text.takeWhile (· != '-')) token with
        | error message =>
          rw [lower] at read
          cases read
        | ok first =>
          cases upper : cronParseInt high token with
          | error message =>
            rw [lower,upper] at read
            cases read
          | ok last =>
            rw [lower,upper] at read
            cases read
            exact cut ▸ .span (numeralRead.mp lower) (numeralRead.mp upper)
  · intro range
    unfold readEnds
    cases range with
    | every => rw [if_pos rfl]
    | value number =>
      have other : text ≠ ['*'] := by
        rintro rfl
        exact absurd (number.decimal '*' List.mem_cons_self) (by decide)
      rw [if_neg other,(cutNone (number.free (by decide))).2,numeralRead.mpr number]
      rfl
    | @span low high _ _ lower upper =>
      have other : low ++ '-' :: high ≠ ['*'] := by
        intro same
        have listed : '-' ∈ ['*'] := same ▸ List.mem_append_right _ List.mem_cons_self
        simp at listed
      have absent : '-' ∉ low := lower.free (by decide)
      rw [if_neg other,cutRest absent]
      simp only
      rw [cutFront absent,numeralRead.mpr lower,numeralRead.mpr upper]
      rfl

theorem Range.free {stepped : Bool} {start stop : Int} (range : Range lo hi stepped text start stop) {c : Char} (other : c.isDigit = false)
    (star : c ≠ '*') (dash : c ≠ '-') : c ∉ text := by
  cases range with
  | every => exact fun mem => star (List.mem_singleton.mp mem)
  | value number => exact number.free other
  | span lower upper =>
    intro mem
    rcases List.mem_append.mp mem with front | behind
    · exact lower.free other front
    · rcases List.mem_cons.mp behind with same | back
      · exact dash same
      · exact upper.free other back

theorem stepRead {step : Int} : readStep token text = .ok step ↔ ('/' ∉ text ∧ step = 1) ∨
    ∃ digits, text = text.takeWhile (· != '/') ++ '/' :: digits ∧ Numeral digits step ∧ 1 ≤ step := by
  unfold readStep
  rcases cutCases '/' text with ⟨absent,none⟩ | ⟨back,behind,whole⟩
  · rw [none]
    constructor
    · intro read
      cases read
      exact .inl ⟨absent,rfl⟩
    · rintro (⟨_,rfl⟩ | ⟨digits,cut,_⟩)
      · rfl
      · exact absurd (cut ▸ List.mem_append_right _ List.mem_cons_self) absent
  · have slash : '/' ∈ text := by
      rw [whole]
      exact List.mem_append_right _ List.mem_cons_self
    rw [behind]
    simp only
    constructor
    · intro read
      split at read
      · cases read
      · rename_i step' number
        split at read
        · cases read
        · rename_i positive
          cases read
          exact .inr ⟨back,whole,numeralRead.mp number,Int.not_lt.mp positive⟩
    · rintro (⟨absent,_⟩ | ⟨digits,cut,number,positive⟩)
      · exact absurd slash absent
      · obtain ⟨_,rfl⟩ := List.cons.inj (List.append_cancel_left (whole.symm.trans cut))
        rw [numeralRead.mpr number]
        exact if_neg (Int.not_lt.mpr positive)

/- A part is read when its step and its ends are and the ends keep the bounds. -/
theorem partBounds {p : Progression} : readPart token lo hi text = .ok p ↔ readStep token text = .ok p.step ∧
    readEnds token (text.takeWhile (· != '/')) (text.contains '/') lo hi = .ok (p.start,p.stop) ∧ p.Valid lo hi := by
  unfold readPart
  constructor
  · intro read
    split at read
    · cases read
    · rename_i step stepped
      split at read
      · cases read
      · rename_i start stop ends
        split at read
        · cases read
        · split at read
          · cases read
          · split at read
            · cases read
            · rename_i first second third
              cases read
              rw [not_or,Int.not_lt,Int.not_lt] at first second
              have positive : 1 ≤ step := by
                rcases stepRead.mp stepped with ⟨_,one⟩ | ⟨_,_,_,positive⟩
                · exact one.ge
                · exact positive
              exact ⟨stepped,ends,first.1,Int.not_lt.mp third,second.2,positive⟩
  · rintro ⟨stepped,ends,valid⟩
    have start := valid.ordered.trans valid.upper
    have stop := valid.lower.trans valid.ordered
    rw [stepped]
    simp only
    rw [ends]
    simp only
    rw [if_neg (not_or.mpr ⟨Int.not_lt.mpr valid.lower,Int.not_lt.mpr start⟩),
      if_neg (not_or.mpr ⟨Int.not_lt.mpr stop,Int.not_lt.mpr valid.upper⟩),if_neg (Int.not_lt.mpr valid.ordered)]

theorem partRead {p : Progression} : readPart token lo hi text = .ok p ↔ Part lo hi text p ∧ p.Valid lo hi := by
  constructor
  · intro read
    obtain ⟨step,ends,valid⟩ := partBounds.mp read
    have range := rangeRead.mp ends
    refine ⟨?_,valid⟩
    obtain ⟨start,stop,step'⟩ := p
    rcases stepRead.mp step with ⟨absent,one⟩ | ⟨digits,cut,number,_⟩
    · cases one
      have plain : text.contains '/' = false := by simpa using absent
      rw [plain,(cutNone absent).1] at range
      exact .plain range
    · have stepped : text.contains '/' = true := by
        rw [cut]
        simp
      rw [stepped] at range
      exact cut ▸ .stepped range number
  · rintro ⟨part,valid⟩
    cases part with
    | plain range =>
      have absent : '/' ∉ text := range.free (by decide) (by decide) (by decide)
      have plain : text.contains '/' = false := by simpa using absent
      refine partBounds.mpr ⟨stepRead.mpr (.inl ⟨absent,rfl⟩),rangeRead.mpr ?_,valid⟩
      rw [plain,(cutNone absent).1]
      exact range
    | @stepped front digits _ _ _ range number =>
      have absent : '/' ∉ front := range.free (by decide) (by decide) (by decide)
      have stepped : (front ++ '/' :: digits).contains '/' = true := by simp
      refine partBounds.mpr ⟨stepRead.mpr (.inr ⟨digits,?_,number,valid.positive⟩),rangeRead.mpr ?_,valid⟩
      · rw [cutFront absent]
      · rw [stepped,cutFront absent]
        exact range

theorem Part.free {p : Progression} (part : Part lo hi text p) : ∀ c ∈ text, comma c = false := by
  have absent : ',' ∉ text := by
    cases part with
    | plain range => exact range.free (by decide) (by decide) (by decide)
    | stepped range number =>
      intro mem
      rcases List.mem_append.mp mem with front | behind
      · exact range.free (by decide) (by decide) (by decide) front
      · rcases List.mem_cons.mp behind with same | back
        · cases same
        · exact number.free (by decide) back
  exact fun c mem => beq_eq_false_iff_ne.mpr fun same => absent (same ▸ mem)

theorem fieldListed (token : Text) {listed : List Progression} (field : Field lo hi text listed) :
    List.Forall₂ (fun part p => readPart token lo hi part = .ok p) (fields comma text) listed := by
  induction field with
  | one part valid =>
    rw [fieldsWhole comma part.free]
    exact .cons (partRead.mpr ⟨part,valid⟩) .nil
  | more part valid later ih =>
    rw [fieldsNext comma part.free rfl]
    exact .cons (partRead.mpr ⟨part,valid⟩) ih

theorem listedField {n : Nat} : ∀ {text : Text}, text.length < n → (∀ part ∈ fields comma text, ∃ p, readPart token lo hi part = .ok p) →
    ∃ listed, Field lo hi text listed := by
  induction n with
  | zero => exact fun short _ => absurd short (Nat.not_lt_zero _)
  | succ n ih =>
    intro text short read
    rcases cutCases ',' text with ⟨absent,_⟩ | ⟨others,_,cut⟩
    · have whole : fields comma text = [text] := fieldsWhole comma fun c mem => beq_eq_false_iff_ne.mpr fun same => absent (same ▸ mem)
      obtain ⟨p,own⟩ := read text (whole ▸ List.mem_cons_self)
      obtain ⟨part,valid⟩ := partRead.mp own
      exact ⟨[p],.one part valid⟩
    · have apart : ∀ c ∈ text.takeWhile (· != ','), comma c = false := fun c mem => by simpa [comma] using List.mem_takeWhile_imp mem
      have next : fields comma text = text.takeWhile (· != ',') :: fields comma others :=
        (congrArg (fields comma) cut).trans (fieldsNext comma apart (rfl : comma ',' = true) others)
      rw [next] at read
      obtain ⟨p,own⟩ := read _ List.mem_cons_self
      obtain ⟨part,valid⟩ := partRead.mp own
      have shorter := congrArg List.length cut
      rw [List.length_append,List.length_cons] at shorter
      obtain ⟨rest,later⟩ := ih (by omega) fun other mem => read other (List.mem_cons_of_mem _ mem)
      exact ⟨p :: rest,cut ▸ .more part valid later⟩

theorem listedSame {listed : List Progression} {parts : List Text}
    (read : List.Forall₂ (fun part p => readPart token lo hi part = .ok p) parts listed) :
    parts.map (readPart token lo hi) = listed.map .ok := by
  induction read with
  | nil => rfl
  | cons own _ ih => rw [List.map_cons,List.map_cons,own,ih]

theorem Field.unique {first second : List Progression} (field : Field lo hi text first) (again : Field lo hi text second) :
    first = second := by
  have same := (listedSame (fieldListed text field)).symm.trans (listedSame (fieldListed text again))
  exact List.map_injective_iff.mpr (fun _ _ => Except.ok.inj) same

end Grammar

section Expansions
variable {token : Text} {lo hi : Int}

def fieldValues (token : Text) (lo hi : Int) : Set Int := {v | ∃ listed, Field lo hi token listed ∧ ∃ p ∈ listed, v ∈ p.values}

def FieldReadable (token : Text) (lo hi : Int) : Prop := ∃ listed, Field lo hi token listed

def FieldSteep (token : Text) (lo hi : Int) : Prop := ∃ listed, Field lo hi token listed ∧ ∃ p ∈ listed, p.last + p.step > intMax

theorem partsRead {parts : List Text} {result expansion : Expansion} (expanded : expandParts token lo hi parts result = .ok expansion) :
    ∀ part ∈ parts, ∃ p, readPart token lo hi part = .ok p := by
  induction parts generalizing result with
  | nil => nofun
  | cons first rest ih =>
    rw [expandParts] at expanded
    split at expanded
    · cases expanded
    · rename_i p read
      intro part mem
      cases List.mem_cons.mp mem with
      | inl same => exact ⟨p,same ▸ read⟩
      | inr later => exact ih expanded part later

theorem partsExpanded (field : hi ≤ intMax) {parts : List Text} {listed : List Progression}
    (read : List.Forall₂ (fun part p => readPart token lo hi part = .ok p) parts listed) (result : Expansion) :
    ∃ expansion, expandParts token lo hi parts result = .ok expansion ∧
      (∀ x, x ∈ expansion.values ↔ x ∈ result.values ∨ ∃ p ∈ listed, x ∈ p.values) ∧
      (expansion.overflow = true ↔ result.overflow = true ∨ ∃ p ∈ listed, p.last + p.step > intMax) := by
  induction read generalizing result with
  | nil => exact ⟨result,rfl,by simp,by simp⟩
  | @cons first p rest later own _ ih =>
    have valid := (partBounds.mp own).2.2
    obtain ⟨expansion,expanded,values,overflow⟩ := ih (p.insertInto result)
    refine ⟨expansion,by rw [expandParts,own]; exact expanded,fun x => ?_,?_⟩
    · rw [values,insertedValues valid _ field,or_assoc,List.exists_mem_cons_iff]
    · rw [overflow,insertedOverflow valid,or_assoc,List.exists_mem_cons_iff]

/- A field is expanded when it is one of the grammar; the last value of its first part keeps it from being empty. -/
theorem fieldExpanded (field : hi ≤ intMax) (readable : FieldReadable token lo hi) :
    ∃ expansion, expandCronField token lo hi = .ok expansion ∧ (∀ x, x ∈ expansion.values ↔ x ∈ fieldValues token lo hi) ∧
      (expansion.overflow = true ↔ FieldSteep token lo hi) := by
  obtain ⟨listed,spelled⟩ := readable
  have own {holds : Progression → Prop} : (∃ p ∈ listed, holds p) ↔ ∃ other, Field lo hi token other ∧ ∃ p ∈ other, holds p := by
    constructor
    · exact fun some => ⟨listed,spelled,some⟩
    · rintro ⟨other,again,some⟩
      exact again.unique spelled ▸ some
  obtain ⟨expansion,expanded,values,overflow⟩ := partsExpanded field (fieldListed token spelled) {}
  have exact_ (x : Int) : x ∈ expansion.values ↔ x ∈ fieldValues token lo hi := by
    rw [values,or_iff_right (Finset.notMem_empty x)]
    exact own
  have some_ : expansion.values ≠ ∅ := by
    have first : ∃ p ∈ listed, p.Valid lo hi := by
      cases spelled with
      | one _ valid => exact ⟨_,List.mem_cons_self,valid⟩
      | more _ valid _ => exact ⟨_,List.mem_cons_self,valid⟩
    obtain ⟨p,mem,valid⟩ := first
    exact Finset.ne_empty_of_mem ((exact_ p.last).mpr ⟨listed,spelled,p,mem,lastValue valid⟩)
  refine ⟨expansion,?_,exact_,?_⟩
  · rw [expandCronField,expanded]
    exact if_neg some_
  · rw [overflow,or_iff_right Bool.false_ne_true]
    exact own

theorem expandedReadable {expansion : Expansion} (expanded : expandCronField token lo hi = .ok expansion) : FieldReadable token lo hi := by
  unfold expandCronField at expanded
  split at expanded
  · cases expanded
  · rename_i result read
    exact listedField (Nat.lt_succ_self _) (partsRead read)

end Expansions

section Expressions
variable {expr : Text}

def fieldBounds (expr : Text) : List (Text × Int × Int) := (cronTokens expr).zip [(0,59),(0,23),(1,31),(1,12),(0,6)]

/- Five fields whose parts can all be read. -/
def Readable (expr : Text) : Prop := (cronTokens expr).length = 5 ∧ ∀ field ∈ fieldBounds expr, FieldReadable field.1 field.2.1 field.2.2

def Steep (expr : Text) : Prop := ∃ field ∈ fieldBounds expr, FieldSteep field.1 field.2.1 field.2.2

def Due (expr : Text) (tm : Tm) : Prop :=
  ∃ minute hour mday month wday, cronTokens expr = [minute,hour,mday,month,wday] ∧ tm.tmMin ∈ fieldValues minute 0 59 ∧
    tm.tmHour ∈ fieldValues hour 0 23 ∧ tm.tmMday ∈ fieldValues mday 1 31 ∧ tm.tmMon + 1 ∈ fieldValues month 1 12 ∧
      tm.tmWday ∈ fieldValues wday 0 6

def Lists (expr : Text) (f : CronFields) : Prop :=
  ∃ minute hour mday month wday, cronTokens expr = [minute,hour,mday,month,wday] ∧
    (∀ x, x ∈ f.minute.values ↔ x ∈ fieldValues minute 0 59) ∧
    (∀ x, x ∈ f.hour.values ↔ x ∈ fieldValues hour 0 23) ∧ (∀ x, x ∈ f.mday.values ↔ x ∈ fieldValues mday 1 31) ∧
    (∀ x, x ∈ f.month.values ↔ x ∈ fieldValues month 1 12) ∧ (∀ x, x ∈ f.wday.values ↔ x ∈ fieldValues wday 0 6)

theorem listsDue {f : CronFields} (lists : Lists expr f) (tm : Tm) : f.due tm = true ↔ Due expr tm := by
  obtain ⟨minute,hour,mday,month,wday,cut,minutes,hours,mdays,months,wdays⟩ := lists
  rw [CronFields.due]
  simp only [Bool.and_eq_true,decide_eq_true_eq,minutes,hours,mdays,months,wdays]
  constructor
  · rintro ⟨⟨⟨⟨inMonth,inMday⟩,inWday⟩,inHour⟩,inMinute⟩
    exact ⟨minute,hour,mday,month,wday,cut,inMinute,inHour,inMday,inMonth,inWday⟩
  · rintro ⟨_,_,_,_,_,same,inMinute,inHour,inMday,inMonth,inWday⟩
    rw [cut] at same
    cases same
    exact ⟨⟨⟨⟨inMonth,inMday⟩,inWday⟩,inHour⟩,inMinute⟩

theorem fiveFields {tokens : List Text} (five : tokens.length = 5) :
    ∃ minute hour mday month wday, tokens = [minute,hour,mday,month,wday] := by
  match tokens,five with
  | [minute,hour,mday,month,wday],_ => exact ⟨minute,hour,mday,month,wday,rfl⟩

/- A readable expression is parsed to the sets it lists, and an increment leaves the int when it is steep. -/
theorem readableParsed (readable : Readable expr) :
    ∃ f, parseCronFields expr = .ok f ∧ Lists expr f ∧ (f.overflow = true ↔ Steep expr) := by
  obtain ⟨five,each⟩ := readable
  obtain ⟨minute,hour,mday,month,wday,cut⟩ := fiveFields five
  have bounds : fieldBounds expr = [(minute,0,59),(hour,0,23),(mday,1,31),(month,1,12),(wday,0,6)] := by
    rw [fieldBounds,cut]
    rfl
  rw [bounds] at each
  simp only [List.forall_mem_cons,List.not_mem_nil] at each
  obtain ⟨ofMinute,ofHour,ofMday,ofMonth,ofWday,_⟩ := each
  obtain ⟨minutes,minuteRead,minuteValues,minuteOver⟩ := fieldExpanded (by decide) ofMinute
  obtain ⟨hours,hourRead,hourValues,hourOver⟩ := fieldExpanded (by decide) ofHour
  obtain ⟨mdays,mdayRead,mdayValues,mdayOver⟩ := fieldExpanded (by decide) ofMday
  obtain ⟨months,monthRead,monthValues,monthOver⟩ := fieldExpanded (by decide) ofMonth
  obtain ⟨wdays,wdayRead,wdayValues,wdayOver⟩ := fieldExpanded (by decide) ofWday
  refine ⟨⟨minutes,hours,mdays,months,wdays⟩,?_,
    ⟨minute,hour,mday,month,wday,cut,minuteValues,hourValues,mdayValues,monthValues,wdayValues⟩,?_⟩
  · rw [parseCronFields,cut]
    simp only [minuteRead,hourRead,mdayRead,monthRead,wdayRead]
    rfl
  · rw [Steep,bounds,CronFields.overflow]
    simp only [Bool.or_eq_true,minuteOver,hourOver,mdayOver,monthOver,wdayOver,List.exists_mem_cons_iff,List.not_mem_nil,
      false_and,exists_false,
      or_false,or_assoc]

theorem parsedReadable {f : CronFields} (parsed : parseCronFields expr = .ok f) : Readable expr := by
  unfold parseCronFields at parsed
  split at parsed
  · rename_i minute hour mday month wday cut
    simp only [bind,Except.bind] at parsed
    split at parsed
    · cases parsed
    · rename_i minutes minuteRead
      split at parsed
      · cases parsed
      · rename_i hours hourRead
        split at parsed
        · cases parsed
        · rename_i mdays mdayRead
          split at parsed
          · cases parsed
          · rename_i months monthRead
            split at parsed
            · cases parsed
            · rename_i wdays wdayRead
              refine ⟨by rw [cut]; rfl,?_⟩
              rw [fieldBounds,cut]
              simp only [List.zip_cons_cons,List.zip_nil_left,List.forall_mem_cons]
              exact ⟨expandedReadable minuteRead,expandedReadable hourRead,expandedReadable mdayRead,expandedReadable monthRead,
                expandedReadable wdayRead,nofun⟩
  · cases parsed

theorem readableIff : (∃ f, parseCronFields expr = .ok f) ↔ Readable expr := by
  constructor
  · rintro ⟨f,parsed⟩
    exact parsedReadable parsed
  · intro readable
    obtain ⟨f,parsed,_⟩ := readableParsed readable
    exact ⟨f,parsed⟩

end Expressions

section Times
variable {localtime : Int → Tm} {f : CronFields} {expr : Text} {start : TimePoint}

theorem searchLater {left : Nat} {t found : Int} (returned : search localtime f left t = some found) : t ≤ found := by
  induction left generalizing t with
  | zero => cases returned
  | succ left ih =>
    rw [search] at returned
    split at returned
    · cases returned
      exact Int.le_refl _
    · have later := ih returned
      omega

theorem searchFirst {left k : Nat} {t : Int} (inside : k < left) (due : f.due (localtime (t + 60 * k)) = true)
    (earlier : ∀ j < k, f.due (localtime (t + 60 * j)) = false) : search localtime f left t = some (t + 60 * k) := by
  induction left generalizing t k with
  | zero => exact absurd inside (Nat.not_lt_zero k)
  | succ left ih =>
    rw [search]
    cases k with
    | zero =>
      have here : t + 60 * ((0 : Nat) : Int) = t := by omega
      rw [here] at due ⊢
      exact if_pos due
    | succ k =>
      have move (j : Nat) : t + 60 * ((j + 1 : Nat) : Int) = t + 60 + 60 * j := by
        rw [Int.natCast_add]
        omega
      have notYet := earlier 0 (Nat.succ_pos k)
      have here : t + 60 * ((0 : Nat) : Int) = t := by omega
      rw [here] at notYet
      rw [notYet,move] at *
      rw [if_neg Bool.false_ne_true]
      exact ih (Nat.lt_of_succ_lt_succ inside) due fun j lt => move j ▸ earlier (j + 1) (Nat.succ_lt_succ lt)

def firstMinute (start : TimePoint) : Int := wholeMinute (toTimeT (start.ticks + secondTicks))

def nextMinute (start : TimePoint) : Int := (start.ticks / minuteTicks + 1) * 60

/- The truncating divisions round a start well before the epoch up by one more minute. -/
def Rounded (start : TimePoint) : Prop := start.ticks < -minuteTicks ∧ ¬minuteTicks ∣ start.ticks

theorem tdivBelow {a b : Int} (negative : a ≤ 0) : a.tdiv b = -(-a / b) := by
  rw [← Int.tdiv_eq_ediv_of_nonneg (by omega : 0 ≤ -a),Int.neg_tdiv,Int.neg_neg]

theorem firstRounded (rounded : Rounded start) : firstMinute start = nextMinute start + 60 := by
  obtain ⟨before,off⟩ := rounded
  rw [minuteTicks] at before
  rw [minuteTicks,Int.dvd_iff_emod_eq_zero] at off
  have seconds : (start.ticks + 1000000000).tdiv 1000000000 = -(-(start.ticks + 1000000000) / 1000000000) := tdivBelow (by omega)
  rw [firstMinute,nextMinute,wholeMinute,toTimeT,minuteTicks,secondTicks,seconds,tdivBelow (by omega)]
  omega

theorem firstNext (kept : ¬Rounded start) : firstMinute start = nextMinute start := by
  rw [Rounded,minuteTicks,Int.dvd_iff_emod_eq_zero] at kept
  rw [firstMinute,nextMinute,wholeMinute,toTimeT,minuteTicks,secondTicks]
  by_cases after : 0 ≤ start.ticks + 1000000000
  · rw [Int.tdiv_eq_ediv_of_nonneg after,Int.tdiv_eq_ediv_of_nonneg (by omega)]
    omega
  · have seconds : (start.ticks + 1000000000).tdiv 1000000000 = -(-(start.ticks + 1000000000) / 1000000000) := tdivBelow (by omega)
    rw [seconds]
    by_cases close : 0 ≤ -(-(start.ticks + 1000000000) / 1000000000) + 59
    · rw [Int.tdiv_eq_ediv_of_nonneg close]
      omega
    · rw [tdivBelow (by omega)]
      omega

structure Candidate (start time : TimePoint) : Prop where
  whole : minuteTicks ∣ time.ticks
  after : start.ticks < time.ticks
  within : time.ticks ≤ start.ticks + maxMinutes * minuteTicks

structure NextFire (localtime : Int → Tm) (f : CronFields) (start time : TimePoint) : Prop extends Candidate start time where
  due : f.due (localtime (time.ticks / secondTicks)) = true
  least : ∀ earlier : TimePoint, Candidate start earlier → earlier.ticks < time.ticks →
    f.due (localtime (earlier.ticks / secondTicks)) = false

/- The minute that a rounded start passes over. -/
def Missed (localtime : Int → Tm) (expr : Text) (start : TimePoint) : Prop := Rounded start ∧ Due expr (localtime (nextMinute start))

theorem candidateMinute {time : TimePoint} (candidate : Candidate start time) :
    ∃ k : Nat, k < maxMinutes ∧ time.ticks = (nextMinute start + 60 * k) * secondTicks := by
  obtain ⟨⟨count,whole⟩,after,within⟩ := candidate
  refine ⟨(count - (start.ticks / minuteTicks + 1)).toNat,?_,?_⟩
  · rw [minuteTicks] at *
    rw [maxMinutes] at *
    omega
  · rw [nextMinute]
    rw [minuteTicks] at *
    rw [secondTicks]
    omega

theorem minuteCandidate {k : Nat} {time : TimePoint} (inside : k < maxMinutes)
    (same : time.ticks = (nextMinute start + 60 * k) * secondTicks) :
    Candidate start time := by
  rw [nextMinute,minuteTicks,secondTicks] at same
  refine ⟨⟨start.ticks / minuteTicks + 1 + k,?_⟩,?_,?_⟩
  · rw [minuteTicks]
    omega
  · omega
  · rw [minuteTicks]
    rw [maxMinutes] at *
    omega

theorem minuteTime {time : TimePoint} {t : Int} (same : time.ticks = t * secondTicks) : time.ticks / secondTicks = t := by
  rw [same,secondTicks]
  omega

theorem earlierMinute {time : TimePoint} {j k : Nat} (same : time.ticks = (nextMinute start + 60 * k) * secondTicks) (lt : j < k) :
    ∃ earlier : TimePoint, earlier.ticks = (nextMinute start + 60 * j) * secondTicks ∧ earlier.ticks < time.ticks := by
  have low := start.low
  have high := time.high
  have next : start.ticks < nextMinute start * secondTicks := by
    rw [nextMinute,minuteTicks,secondTicks]
    omega
  rw [secondTicks] at *
  have before : (nextMinute start + 60 * j) * 1000000000 < time.ticks := by omega
  exact ⟨⟨(nextMinute start + 60 * j) * 1000000000,by omega,by omega⟩,rfl,before⟩

theorem fromMinute {time : TimePoint} {t : Int} (same : time.ticks = t * secondTicks) : fromTimeT t = .returned time := by
  obtain ⟨ticks,low,high⟩ := time
  subst same
  exact dif_pos ⟨low,high⟩

theorem fireNotDue {time : TimePoint} {j k : Nat} (fire : NextFire localtime f start time)
    (same : time.ticks = (nextMinute start + 60 * k) * secondTicks) (inside : k < maxMinutes) (lt : j < k) :
    f.due (localtime (nextMinute start + 60 * j)) = false := by
  obtain ⟨earlier,ticks,before⟩ := earlierMinute same lt
  have own := fire.least earlier (minuteCandidate (Nat.lt_trans lt inside) ticks) before
  rwa [minuteTime ticks] at own

theorem fireFound {time : TimePoint} (fire : NextFire localtime f start time)
    (kept : ¬(Rounded start ∧ f.due (localtime (nextMinute start)) = true)) :
    ∃ t, search localtime f maxMinutes (firstMinute start) = some t ∧ time.ticks = t * secondTicks := by
  obtain ⟨k,inside,same⟩ := candidateMinute fire.toCandidate
  have due := fire.due
  rw [minuteTime same] at due
  refine ⟨nextMinute start + 60 * k,?_,same⟩
  by_cases rounded : Rounded start
  · cases k with
    | zero =>
      rw [Int.natCast_zero,Int.mul_zero,Int.add_zero] at due
      exact absurd ⟨rounded,due⟩ kept
    | succ k =>
      have move (j : Nat) : nextMinute start + 60 * ((j + 1 : Nat) : Int) = nextMinute start + 60 + 60 * j := by
        rw [Int.natCast_add]
        omega
      rw [firstRounded rounded,move]
      refine searchFirst (Nat.lt_of_succ_lt inside) (move k ▸ due) fun j lt => ?_
      rw [← move]
      exact fireNotDue fire same inside (Nat.succ_lt_succ lt)
  · rw [firstNext rounded]
    exact searchFirst inside due fun j lt => fireNotDue fire same inside lt

theorem fireReturned {time : TimePoint} (parsed : parseCronFields expr = .ok f) (fits : f.overflow = false)
    (fire : NextFire localtime f start time)
    (kept : ¬(Rounded start ∧ f.due (localtime (nextMinute start)) = true)) : cronNext localtime expr start = .returned time := by
  obtain ⟨t,found,same⟩ := fireFound fire kept
  -- the last whole minute leaves more than a second of the clock
  have room : ¬start.ticks + secondTicks > maxTicks := by
    obtain ⟨count,whole⟩ := fire.whole
    have after := fire.after
    have high := time.high
    rw [minuteTicks] at whole
    rw [secondTicks,maxTicks]
    omega
  rw [firstMinute] at found
  rw [cronNext,parsed]
  simp only [fits,Bool.false_eq_true,if_false,if_neg room,found]
  exact fromMinute same

theorem missedFire (rounded : Rounded start) (due : f.due (localtime (nextMinute start)) = true) :
    ∃ time : TimePoint, time.ticks = nextMinute start * secondTicks ∧ NextFire localtime f start time := by
  have low := start.low
  have before := rounded.1
  have bounds : -9223372036854775808 ≤ nextMinute start * secondTicks ∧ nextMinute start * secondTicks ≤ 9223372036854775807 := by
    rw [nextMinute,secondTicks]
    rw [minuteTicks] at *
    omega
  let time : TimePoint := ⟨nextMinute start * secondTicks,bounds.1,bounds.2⟩
  have same : time.ticks = (nextMinute start + 60 * ((0 : Nat) : Int)) * secondTicks := by
    rw [Int.natCast_zero,Int.mul_zero,Int.add_zero]
  refine ⟨time,rfl,{ toCandidate := minuteCandidate (by decide) same, due := by rw [minuteTime rfl]; exact due, least := ?_ }⟩
  intro earlier candidate sooner
  obtain ⟨k,_,ticks⟩ := candidateMinute candidate
  have grown : time.ticks = nextMinute start * secondTicks := rfl
  rw [secondTicks] at *
  omega

theorem missedReturns {time : TimePoint} (rounded : Rounded start) (same : time.ticks = nextMinute start * secondTicks) :
    cronNext localtime expr start ≠ .returned time := by
  intro returned
  unfold cronNext at returned
  split at returned
  · cases returned
  · split at returned
    · cases returned
    · split at returned
      · cases returned
      · split at returned
        · rename_i t found
          have later := searchLater found
          have began := firstRounded rounded
          rw [firstMinute] at began
          unfold fromTimeT at returned
          split at returned
          · cases returned
            have equal : t * secondTicks = nextMinute start * secondTicks := same
            rw [secondTicks] at equal
            omega
          · cases returned
        · cases returned

end Times

section Scheduling
variable (localtime : Int → Tm) (expr : Text) (start : TimePoint)

/- Validation accepts what can be expanded within the int, the sets are what the fields list, and the search returns the
next fire time when there is one. -/
structure Schedules : Prop where
  validates : cronValidate expr = .ok () ↔ ∃ f, parseCronFields expr = .ok f ∧ f.overflow = false
  lists : ∀ f, parseCronFields expr = .ok f → f.overflow = false → Lists expr f
  returns : ∀ f time, parseCronFields expr = .ok f → f.overflow = false → NextFire localtime f start time →
    cronNext localtime expr start = .returned time

theorem validatesIff : cronValidate expr = .ok () ↔ Readable expr := by
  rw [← readableIff,cronValidate]
  cases parseCronFields expr with
  | error message => exact iff_of_false nofun nofun
  | ok f => exact iff_of_true rfl ⟨f,rfl⟩

/- Both hold of a readable expression exactly when no progression in it steps past the largest int and the search does not
round the next fire time away. -/
theorem schedulesIff : Schedules localtime expr start ↔ (Readable expr → ¬Steep expr ∧ ¬Missed localtime expr start) := by
  constructor
  · intro schedules readable
    obtain ⟨f,parsed,lists,overflow⟩ := readableParsed readable
    obtain ⟨g,again,fits⟩ := schedules.validates.mp ((validatesIff expr).mpr readable)
    rw [parsed] at again
    cases again
    refine ⟨fun steep => absurd (overflow.mpr steep) (by rw [fits]; exact Bool.false_ne_true),?_⟩
    rintro ⟨rounded,due⟩
    obtain ⟨time,ticks,fire⟩ := missedFire rounded ((listsDue lists _).mpr due)
    exact missedReturns rounded ticks (schedules.returns f time parsed fits fire)
  · intro good
    have fits {f : CronFields} (parsed : parseCronFields expr = .ok f) :
      Lists expr f ∧ f.overflow = false ∧ ¬Missed localtime expr start := by
      have readable := parsedReadable parsed
      obtain ⟨g,again,lists,overflow⟩ := readableParsed readable
      rw [parsed] at again
      cases again
      exact ⟨lists,Bool.eq_false_iff.mpr fun beyond => (good readable).1 (overflow.mp beyond),(good readable).2⟩
    refine ⟨?_,fun f parsed _ => (fits parsed).1,fun f time parsed within fire => ?_⟩
    · rw [validatesIff,← readableIff]
      constructor
      · rintro ⟨f,parsed⟩
        exact ⟨f,parsed,(fits parsed).2.1⟩
      · rintro ⟨f,parsed,_⟩
        exact ⟨f,parsed⟩
    · obtain ⟨lists,_,kept⟩ := fits parsed
      refine fireReturned parsed within fire ?_
      rintro ⟨rounded,due⟩
      exact kept ⟨rounded,(listsDue lists _).mp due⟩

def lastDay (t : Int) : Tm := { tmMin := t / 60 % 60, tmHour := t / 3600 % 24, tmMday := 31, tmMon := 11, tmWday := 3 }

def steepText : Text := "1/2147483647 * * * *".toList

def everyMinute : Text := "* * * * *".toList

def lateStart : TimePoint := ⟨-120500000000,by decide,by decide⟩

theorem steepOverflows : (parseCronFields steepText).toOption.map CronFields.overflow = some true := by decide

theorem lateDue : (parseCronFields everyMinute).toOption.map (fun f => (f.overflow,f.due (lastDay (nextMinute lateStart)))) = some
    (false,true) := by
  decide +kernel

/- An unchecked step is accepted and overflows; a start before the epoch misses the next minute. -/
theorem stepsAndStartsFail : ¬Schedules lastDay steepText lateStart ∧ ¬Schedules lastDay everyMinute lateStart := by
  constructor
  · intro schedules
    obtain ⟨f,parsed,fits⟩ := schedules.validates.mp (by decide)
    have beyond := steepOverflows
    rw [parsed] at beyond
    exact absurd (Option.some.inj beyond) (by rw [fits]; exact Bool.false_ne_true)
  · intro schedules
    have facts := lateDue
    cases parsed : parseCronFields everyMinute with
    | error message =>
      rw [parsed] at facts
      cases facts
    | ok f =>
      rw [parsed] at facts
      obtain ⟨fits,due⟩ := Prod.mk.inj (Option.some.inj facts)
      have rounded : Rounded lateStart := ⟨by decide,by decide⟩
      obtain ⟨time,ticks,fire⟩ := missedFire rounded due
      exact missedReturns rounded ticks (schedules.returns f time parsed fits fire)

end Scheduling

end KeenPbr.Cron
