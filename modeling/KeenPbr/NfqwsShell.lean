import Mathlib.Data.List.TakeWhile
import KeenPbr.NfqwsValidator
import KeenPbr.PosixShell

/-! The candidate parser beside the shell that sources the candidate. Both read the same text, and
every iteration of the parser keeps a relation between their states. It breaks only at the places
named here, where the two divide the text differently or compute different values. -/
namespace KeenPbr
open PosixShell (Shell Session Effect Quoting Pending Value Mode source)

def nextChar : Text → Option Char
  | '\\' :: '\n' :: rest => nextChar rest
  | c :: _ => some c
  | [] => none

/- A dollar the parser keeps as data although the shell reads on: a parameter in braces, a
substitution behind a continuation, a dollar-quoted string. -/
def misreadNext (quote : Quote) (next : Option Char) : Bool :=
  match next with
  | none => false
  | some c => c == '(' || c == '\x7b' || (quote == .none && (c == '\'' || c == '"'))

def misreadDollar (quote : Quote) (tail : Text) : Bool :=
  match tail with
  | '\x7b' :: after => !(after.head?.map nameStart).getD false
  | _ => misreadNext quote (nextChar tail)

/- A carriage return is no blank of the shell. Right after a value it is data, and so is a hash
after it; at the start of a line or after a blank it is a command word. -/
def returnAfterBlank (rest : Text) : Bool :=
  ((rest.takeWhile horizontalSpace).dropWhile (· == '\r')).contains '\r'

def hashAfterReturn (rest : Text) : Bool :=
  ((rest.takeWhile horizontalSpace).dropWhile (· == '\r')).isEmpty &&
    (rest.dropWhile horizontalSpace).head? == some '#'

def Loop.returnRuns : Loop → Bool
  | .statement rest _ => (rest.takeWhile horizontalSpace).contains '\r'
  | .value frame _ =>
    match frame.rest,frame.quote with
    | c :: _,.none => horizontalSpace c && returnAfterBlank frame.rest
    | _,_ => false
  | .done _ => false

def Loop.misread : Loop → Bool
  | .value frame _ =>
    match frame.rest,frame.quote with
    | c :: tail,.none =>
      if horizontalSpace c then hashAfterReturn frame.rest
      else if c == '$' then misreadDollar .none tail
      else false
    | c :: tail,.double => if c == '$' then misreadDollar .double tail else false
    | _,_ => false
  | _ => false

/- A dollar that the shell expands otherwise: a one-character parameter, or a name that goes on
behind a continuation. -/
def misvaluedDollar (tail : Text) : Bool :=
  match tail with
  | '\x7b' :: _ => false
  | _ =>
    if (tail.head?.map nameStart).getD false then ((nextChar (tail.dropWhile nameChar)).map nameChar).getD false
    else ((nextChar tail).map fun c => nameChar c || PosixShell.isSpecialParameter c).getD false

/- Where the parser computes another value than the shell: a tilde-prefix, a carriage return that
ends no line, a dollar. -/
def Loop.misvalued : Loop → Bool
  | .statement rest _ =>
    match (rest.dropWhile horizontalSpace).dropWhile nameChar with
    | '=' :: begins => nextChar begins == some '~'
    | _ => false
  | .value frame _ =>
    match frame.rest,frame.quote with
    | c :: tail,.none =>
      if c == '\r' then true
      else if c == ':' then nextChar tail == some '~'
      else if c == '$' then misvaluedDollar tail
      else false
    | c :: tail,.double => if c == '$' then misvaluedDollar tail else false
    | _,_ => false
  | .done _ => false

/- The states parse_candidate goes through. -/
def Loop.visits (size : Nat) : Nat → Loop → List Loop
  | 0, _ => []
  | fuel + 1, loop => loop :: Loop.visits size fuel (loop.step size)

def parsePositions (content : Text) : List Loop :=
  Loop.visits content.length (content.length + 1) (.statement content {})

def shellSyntaxAgrees (content : Text) : Bool :=
  !content.contains '\x00' && (parsePositions content).all fun loop => !loop.misread

def noReturnAt (visits : List Loop) : Bool := visits.all fun visited => !visited.returnRuns

def noReturnRuns (content : Text) : Bool := noReturnAt (parsePositions content)

def shellValuesAgree (content : Text) : Bool := (parsePositions content).all fun loop => !loop.misvalued

section Lookahead
variable {c : Char} {rest : Text}

theorem nextCharPlain (plain : c ≠ '\\') : nextChar (c :: rest) = some c := by
  unfold nextChar
  split
  · rename_i h
    exact absurd (List.cons.inj h).1 plain
  · rename_i h
    rw [(List.cons.inj h).1]
  · rename_i h
    cases h

end Lookahead

theorem nameStartShell (c : Char) : PosixShell.isNameStart c = nameStart c := rfl

theorem nameCharShell (c : Char) : PosixShell.isNameChar c = nameChar c := rfl

theorem shellBlank {c : Char} (space : horizontalSpace c = true) (notReturn : c ≠ '\r') :
    PosixShell.isBlank c = true := by
  simpa [horizontalSpace,PosixShell.isBlank,notReturn] using space

theorem lookupReplaced (name value other : Text) : ∀ values : Values,
    (values.map fun entry => if entry.1 == name then (name,value) else entry).lookup other =
      if other = name then (values.lookup other).map fun _ => value else values.lookup other
  | [] => by simp
  | (key,held) :: rest => by
    have ih := lookupReplaced name value other rest
    by_cases asked : other = name
    · subst asked
      by_cases here : key = other
      · simp [here]
      · simpa [List.lookup_cons,here,beq_eq_false_iff_ne.mpr (Ne.symm here)] using ih
    · by_cases here : key = name
      · simpa [List.lookup_cons,here,asked,beq_eq_false_iff_ne.mpr asked] using ih
      · simp only [beq_iff_eq,asked,if_false] at ih
        simp [List.lookup_cons,here,asked,ih]

theorem lookupSet (values : Values) (name value other : Text) :
    (values.set name value).lookup other = if other = name then some value else values.lookup other := by
  unfold Values.set
  by_cases present : values.any (fun entry => entry.1 == name) = true
  · rw [if_pos present,lookupReplaced]
    by_cases asked : other = name
    · have found : (values.lookup name).isSome = true := by
        simpa [Bool.beq_comm] using present
      simp only [asked,if_true]
      obtain ⟨held,eq⟩ := Option.isSome_iff_exists.mp found
      simp [eq]
    · simp [asked]
  · rw [if_neg present,List.lookup_append]
    by_cases asked : other = name
    · have missing : values.lookup name = none := by
        simp only [List.any_eq_true,beq_iff_eq,not_exists,not_and] at present
        simp only [List.lookup_eq_none_iff,bne_iff_ne]
        intro entry mem same
        exact present entry mem same.symm
      simp [asked,missing]
    · simp [List.lookup_cons,asked,beq_eq_false_iff_ne.mpr asked]

def Loop.rest : Loop → Text
  | .statement rest _ => rest
  | .value frame _ => frame.rest
  | .done _ => []

section Relation
variable {exact : Prop} {values : Values} {s : Session}

structure OnlyAssigns (exact : Prop) (values : Values) (s : Session) : Prop where
  writable : ∀ name, supportedAssignment name = true → s.shell.readonly name = false
  effects : ∀ effect ∈ s.effects, ∃ name value, effect = .assign name value ∧ supportedAssignment name = true
  agree : exact → ∀ name value, values.lookup name = some value → s.shell.vars name = some value

/- Between two statements. -/
structure Settled (exact : Prop) (values : Values) (s : Session) : Prop where
  harmless : OnlyAssigns exact values s
  mode : s.mode = .start
  quiet : s.backslash = false

def Quote.quoting : Quote → Quoting
  | .none => .none
  | .single => .single
  | .double => .double

structure InValue (exact : Prop) (values : Values) (frame : Frame) (s : Session) (v : Value) : Prop where
  harmless : OnlyAssigns exact values s
  supported : supportedAssignment frame.name = true
  mode : s.mode = .value v
  quiet : s.backslash = false
  named : v.name = frame.name
  quoting : v.quoting = frame.quote.quoting
  opened : v.Open
  dollar : v.pending = .dollar → misreadNext frame.quote (nextChar frame.rest) = false
  same : exact → v.literal s.shell = frame.value ∧ v.Free (nextChar frame.rest)

def Reads (exact : Prop) : Loop → Session → Prop
  | .statement rest parsed, s => Settled exact parsed.values s ∨ rest = [] ∧ Settled exact parsed.values s.finish
  | .value frame parsed, s => frame.valid = true ∧ ((∃ v, InValue exact parsed.values frame s v) ∨
      frame.rest = [] ∧ (frame.quote = .none → Settled exact (parsed.values.set frame.name frame.value) s.finish))
  | .done parsed, s => Settled exact parsed.values s.finish

def Advances (exact : Prop) (rest : Text) (loop : Loop) (s : Session) : Prop :=
  ∃ segment, rest = segment ++ loop.rest ∧ Reads exact loop (segment.foldl Session.feed s)

theorem OnlyAssigns.assign {name value computed : Text} (h : OnlyAssigns exact values s)
    (supported : supportedAssignment name = true) (same : exact → value = computed) (quiet : s.backslash = false) :
    Settled exact (values.set name computed) (s.assign name value) := by
  have writable : s.shell.readonly name = false := h.writable name supported
  have assigned : s.assign name value = ⟨s.shell.assign name value,s.effects ++ [.assign name value],.start,s.backslash⟩ := by
    simp [Session.assign,writable]
  rw [assigned]
  refine ⟨⟨h.writable,?_,?_⟩,rfl,quiet⟩
  · intro effect mem
    rcases List.mem_append.mp mem with before | last
    · exact h.effects effect before
    · exact ⟨name,value,by simpa using last,supported⟩
  · intro compared other found known
    rw [lookupSet] at known
    by_cases this : other = name
    · simp only [this,if_true,Option.some.injEq] at known
      simp [Shell.assign,this,same compared,known]
    · simp only [this,if_false] at known
      simpa [Shell.assign,this] using h.agree compared other found known

theorem Settled.finish (h : Settled exact values s) : Settled exact values s.finish := by
  have same : s.finish = s := by simp [Session.finish,Session.trailing,h.quiet,h.mode]
  rw [same]
  exact h

theorem skipLineSplit : ∀ rest : Text, ∃ line, (∀ c ∈ line, c ≠ '\n') ∧
    (rest = line ++ '\n' :: skipLine rest ∨ rest = line ∧ skipLine rest = [])
  | [] => ⟨[],by simp,.inr ⟨rfl,rfl⟩⟩
  | c :: rest => by
    by_cases ends : c = '\n'
    · exact ⟨[],by simp,.inl (by simp [skipLine,ends])⟩
    · obtain ⟨line,inside,split⟩ := skipLineSplit rest
      refine ⟨c :: line,by simpa [ends] using inside,?_⟩
      rcases split with more | ⟨last,empty⟩
      · left
        simpa [skipLine,ends] using more
      · right
        exact ⟨by rw [last],by simpa [skipLine,ends] using empty⟩

theorem commentSettles {assignment : Option (Text × Text)} {rest : Text} (quiet : s.backslash = false)
    (mode : s.mode = .comment assignment)
    (newline : Settled exact values (s.plain '\n')) (stops : Settled exact values s.finish) :
    ∃ segment, rest = segment ++ skipLine rest ∧
      (Settled exact values (segment.foldl Session.feed s) ∨
        skipLine rest = [] ∧ Settled exact values (segment.foldl Session.feed s).finish) := by
  obtain ⟨line,inside,split⟩ := skipLineSplit rest
  have stays := PosixShell.feedComment quiet mode line inside
  rcases split with more | ⟨last,empty⟩
  · refine ⟨line ++ ['\n'],by simpa using more,.inl ?_⟩
    rw [List.foldl_append,stays]
    simpa [PosixShell.feedPlain quiet] using newline
  · refine ⟨line,by rw [empty,List.append_nil]; exact last,.inr ⟨empty,?_⟩⟩
    rw [stays]
    exact stops

end Relation

section Steps
variable {exact : Prop} {size : Nat} {s : Session} {parsed : ParsedCandidate}

theorem refusedIssues (parsed : ParsedCandidate) (path message code : String) :
    (parserIssue parsed path message code).issues ≠ [] := by simp [parserIssue]

theorem Advances.prepend {front body : Text} {loop : Loop} {t : Session} (fed : front.foldl Session.feed s = t)
    (h : Advances exact body loop t) : Advances exact (front ++ body) loop s := by
  obtain ⟨segment,split,reads⟩ := h
  refine ⟨front ++ segment,by rw [split,List.append_assoc],?_⟩
  rw [List.foldl_append,fed]
  exact reads

theorem OnlyAssigns.enter {values : Values} (h : OnlyAssigns exact values s) (mode : Mode) :
    OnlyAssigns exact values (s.enter mode) := ⟨h.writable,h.effects,h.agree⟩

theorem commentAdvances {tail : Text} (settled : Settled exact parsed.values s) :
    Advances exact ('#' :: tail) (.statement (skipLine ('#' :: tail)) parsed) s := by
  have opens : ['#'].foldl Session.feed s = s.enter (.comment none) := by
    simp [PosixShell.feedPlain settled.quiet,Session.plain,settled.mode,PosixShell.isBlank]
  have after : Settled exact parsed.values (s.enter .start) := ⟨settled.harmless.enter _,rfl,settled.quiet⟩
  have ended : (s.enter (.comment none)).finish = s.enter .start := by
    simp [Session.finish,Session.trailing,Session.enter,settled.quiet]
  have same : skipLine ('#' :: tail) = skipLine tail := by simp [skipLine]
  rw [same]
  exact .prepend opens
    (commentSettles (s := s.enter (.comment none)) settled.quiet rfl after (by rw [ended]; exact after))

theorem nameAdvances {c : Char} {tail begins : Text} (settled : Settled exact parsed.values s)
    (starts : nameStart c = true) (supported : supportedAssignment (c :: tail.takeWhile nameChar) = true)
    (equals : tail.dropWhile nameChar = '=' :: begins) (untilde : exact → nextChar begins ≠ some '~') (start : Nat) :
    Advances exact (c :: tail) (.value { name := c :: tail.takeWhile nameChar, start, rest := begins } parsed) s := by
  have whole : c :: tail = (c :: tail.takeWhile nameChar) ++ ['='] ++ begins := by
    have split : tail.takeWhile nameChar ++ tail.dropWhile nameChar = tail := List.takeWhile_append_dropWhile
    rw [equals] at split
    simp [split]
  have differs : ∀ d, nameChar d = false → c ≠ d := by
    intro d no same
    have yes : nameChar c = true := PosixShell.startIsNameChar starts
    rw [same,no] at yes
    cases yes
  have first : s.feed c = s.enter (.word [c]) := by
    have blank : PosixShell.isBlank c = false := by
      simp [PosixShell.isBlank,differs ' ' rfl,differs '\t' rfl]
    simp [PosixShell.feedPlain settled.quiet (differs '\\' rfl),Session.plain,settled.mode,blank,
      differs '\n' rfl,differs '#' rfl,nameStartShell,starts]
  have word := PosixShell.feedWord settled.quiet (tail.takeWhile nameChar) [c] fun d mem =>
    (nameCharShell d).trans (List.mem_takeWhile_imp mem)
  have last : (s.enter (.word (c :: tail.takeWhile nameChar))).feed '=' =
      s.enter (.value { name := c :: tail.takeWhile nameChar, pending := .tildeSpot }) := by
    rw [PosixShell.feedEntered settled.quiet (by decide)]
    rfl
  rw [whole]
  refine .prepend (t := s.enter (.value { name := c :: tail.takeWhile nameChar, pending := .tildeSpot })) ?_
    ⟨[],rfl,rfl,.inl ⟨_,settled.harmless.enter _,supported,rfl,settled.quiet,rfl,rfl,trivial,(fun p => by cases p),
      fun compared => ⟨rfl,untilde compared⟩⟩⟩
  simp only [List.cons_append,List.foldl_cons,List.foldl_append,List.foldl_nil,first]
  exact (congrArg (Session.feed · '=') word).trans last

theorem statementAdvances {rest : Text} (settled : Settled exact parsed.values s)
    (clean : (Loop.statement rest parsed).returnRuns = false)
    (valued : exact → (Loop.statement rest parsed).misvalued = false)
    (accepted : (stepStatement size rest parsed).parsed.issues = []) :
    Advances exact rest (stepStatement size rest parsed) s := by
  have whole : rest.takeWhile horizontalSpace ++ rest.dropWhile horizontalSpace = rest := List.takeWhile_append_dropWhile
  have blanks : ∀ c ∈ rest.takeWhile horizontalSpace, PosixShell.isBlank c = true := by
    intro c mem
    have notReturn : c ≠ '\r' := by
      rintro rfl
      simp [Loop.returnRuns,mem] at clean
    exact shellBlank (List.mem_takeWhile_imp mem) notReturn
  have stays := PosixShell.feedStartBlanks settled.quiet settled.mode _ blanks
  suffices body : Advances exact (rest.dropWhile horizontalSpace) (stepStatement size rest parsed) s by
    have all := Advances.prepend stays body
    rwa [whole] at all
  unfold stepStatement at accepted ⊢
  cases body : rest.dropWhile horizontalSpace with
  | nil => exact ⟨[],rfl,settled.finish⟩
  | cons c tail =>
    simp only [body] at accepted ⊢
    by_cases newline : c = '\n'
    · subst newline
      have same : s.feed '\n' = s := by simp [PosixShell.feedPlain settled.quiet,Session.plain,settled.mode]
      exact ⟨['\n'],rfl,.inl (by simpa [same] using settled)⟩
    by_cases comment : c = '#'
    · subst comment
      exact commentAdvances settled
    simp only [newline,comment,beq_iff_eq,if_false] at accepted ⊢
    by_cases starts : nameStart c = true
    · simp only [starts,Bool.not_true,Bool.false_eq_true,if_false] at accepted ⊢
      by_cases supported : supportedAssignment (c :: tail.takeWhile nameChar) = true
      · simp only [supported,Bool.not_true,Bool.false_eq_true,if_false] at accepted ⊢
        cases after : tail.dropWhile nameChar with
        | nil => simp [after,refuseLine,Loop.parsed,refusedIssues] at accepted
        | cons d begins =>
          by_cases equals : d = '='
          · subst equals
            simp only [after] at accepted ⊢
            by_cases space : (begins.head?.map horizontalSpace).getD false = true
            · simp [space,refuseLine,Loop.parsed,refusedIssues] at accepted
            · simp only [space,Bool.false_eq_true,if_false]
              refine nameAdvances settled starts supported after (fun compared => ?_) _
              have skipped : (c :: tail).dropWhile nameChar = '=' :: begins := by
                have named : nameChar c = true := PosixShell.startIsNameChar starts
                rw [List.dropWhile_cons_of_pos named,after]
              have untilde := valued compared
              simpa [Loop.misvalued,body,skipped] using untilde
          · have refused := accepted
            simp only [after] at refused
            split at refused
            · rename_i h
              exact absurd (List.cons.inj h).1 equals
            · simp [refuseLine,Loop.parsed,refusedIssues] at refused
      · simp [supported,refuseLine,Loop.parsed,refusedIssues] at accepted
    · simp [starts,refuseLine,Loop.parsed,refusedIssues] at accepted

end Steps

section Values
variable {exact : Prop} {size : Nat} {s : Session} {parsed : ParsedCandidate} {frame : Frame} {v : Value}

theorem InValue.enter {values : Values} (h : InValue exact values frame s v) {frame' : Frame} {v' : Value}
    (name : frame'.name = frame.name) (named : v'.name = v.name) (quoting : v'.quoting = frame'.quote.quoting)
    (opened : v'.Open) (dollar : v'.pending = .dollar → misreadNext frame'.quote (nextChar frame'.rest) = false)
    (same : exact → v'.literal s.shell = frame'.value ∧ v'.Free (nextChar frame'.rest)) :
    InValue exact values frame' (s.enter (.value v')) v' :=
  ⟨h.harmless.enter _,name ▸ h.supported,rfl,h.quiet,named.trans (h.named.trans name.symm),quoting,opened,dollar,same⟩

theorem InValue.feed {values : Values} {c : Char} (h : InValue exact values frame s v) (plain : c ≠ '\\') :
    s.feed c = s.plainValue v c := by
  rw [PosixShell.feedPlain h.quiet plain]
  simp [Session.plain,h.mode]

theorem InValue.takesBackslash {values : Values} (h : InValue exact values frame s v) (expands : frame.quote ≠ .single) :
    s.mode.takesBackslash = true := by
  have quoting := h.quoting
  cases q : frame.quote with
  | single => exact absurd q expands
  | none | double => simp [h.mode,Mode.takesBackslash,quoting,q,Quote.quoting]

theorem singleAdvances {c : Char} {tail : Text} (h : InValue exact parsed.values frame s v) (valid : frame.valid = true)
    (quote : frame.quote = .single) (begins : frame.rest = c :: tail) :
    Advances exact frame.rest (stepSingle frame c tail parsed) s := by
  have quoted : v.quoting = .single := by rw [h.quoting,quote]; rfl
  have verbatim : s.feed c = s.plainValue v c := by
    rw [PosixShell.feedVerbatim h.quiet (by simp [h.mode,Mode.takesBackslash,quoted])]
    simp [Session.plain,h.mode]
  have step := verbatim.trans (PosixShell.singleData h.opened quoted)
  rw [begins]
  unfold stepSingle
  by_cases closes : c = '\''
  · subst closes
    simp only [beq_self_eq_true,if_true] at step ⊢
    refine ⟨['\''],rfl,valid,.inl ⟨⟨v.name,.none,v.literal s.shell,.none⟩,?_⟩⟩
    rw [List.foldl_cons,List.foldl_nil,step]
    exact h.enter rfl rfl rfl trivial (fun p => by cases p) fun compared => ⟨(h.same compared).1,trivial⟩
  · simp only [closes,beq_iff_eq,if_false] at step ⊢
    refine ⟨[c],rfl,valid,.inl ⟨⟨v.name,.single,v.literal s.shell ++ [c],.none⟩,?_⟩⟩
    rw [List.foldl_cons,List.foldl_nil,step]
    exact h.enter rfl rfl (by simp [Frame.push,quote,Quote.quoting]) trivial (fun p => by cases p) fun compared =>
      ⟨congrArg (· ++ [c]) (h.same compared).1,trivial⟩

theorem continuationAdvances {after : Text} (h : InValue exact parsed.values frame s v) (valid : frame.valid = true)
    (expands : frame.quote ≠ .single) (begins : frame.rest = '\\' :: '\n' :: after) :
    Advances exact frame.rest (.value (frame.push after []) parsed) s := by
  have same : nextChar frame.rest = nextChar after := by rw [begins,nextChar]
  refine ⟨['\\','\n'],begins,valid,.inl ⟨v,?_⟩⟩
  rw [List.foldl_cons,List.foldl_cons,List.foldl_nil,
    PosixShell.feedContinuation h.quiet (h.takesBackslash expands)]
  exact { h with
    dollar := fun pending => same ▸ h.dollar pending
    same := fun compared => ⟨by simpa [Frame.push] using (h.same compared).1,same ▸ (h.same compared).2⟩ }

theorem escapeAdvances {escaped : Char} {after : Text} (h : InValue exact parsed.values frame s v)
    (valid : frame.valid = true) (expands : frame.quote ≠ .single) (begins : frame.rest = '\\' :: escaped :: after)
    (other : escaped ≠ '\n') :
    Advances exact frame.rest (.value (frame.push after
      (if frame.quote = .double ∧ ¬(escaped = '$' ∨ escaped = '\x60' ∨ escaped = '"' ∨ escaped = '\\')
        then ['\\',escaped] else [escaped])) parsed) s := by
  have quotings : v.quoting = .double ↔ frame.quote = .double := by
    rw [h.quoting]
    cases frame.quote <;> simp [Quote.quoting]
  obtain ⟨output,chosen⟩ : ∃ output, output =
      if frame.quote = .double ∧ ¬(escaped = '$' ∨ escaped = '\x60' ∨ escaped = '"' ∨ escaped = '\\')
        then ['\\',escaped] else [escaped] := ⟨_,rfl⟩
  have step : ['\\',escaped].foldl Session.feed s = s.enter (.value ⟨v.name,v.quoting,v.literal s.shell ++ output,.none⟩) := by
    rw [List.foldl_cons,List.foldl_cons,List.foldl_nil,
      PosixShell.feedEscaped h.quiet (h.takesBackslash expands) other,PosixShell.escapedValue h.mode h.opened]
    simp only [quotings,chosen]
  rw [← chosen]
  refine ⟨['\\',escaped],begins,valid,.inl ⟨⟨v.name,v.quoting,v.literal s.shell ++ output,.none⟩,?_⟩⟩
  have opened : (⟨v.name,v.quoting,v.literal s.shell ++ output,.none⟩ : Value).Open := by
    cases q : v.quoting <;> simp [Value.Open]
  rw [step]
  exact h.enter rfl rfl h.quoting opened nofun fun compared => ⟨congrArg (· ++ output) (h.same compared).1,trivial⟩

theorem doubleDataAdvances {c : Char} {tail : Text} (h : InValue exact parsed.values frame s v)
    (valid : frame.valid = true) (quote : frame.quote = .double) (begins : frame.rest = c :: tail)
    (data : c ≠ '"' ∧ c ≠ '$' ∧ c ≠ '\x60' ∧ c ≠ '\\') :
    Advances exact frame.rest (.value (frame.push tail [c]) parsed) s := by
  have quoted : v.quoting = .double := by rw [h.quoting,quote]; rfl
  have next : nextChar frame.rest = some c := by rw [begins,nextCharPlain data.2.2.2]
  have unread : v.pending = .dollar → c ≠ '(' ∧ c ≠ '\x7b' := by
    intro pending
    have clear := h.dollar pending
    simp only [next,misreadNext,Bool.or_eq_false_iff,beq_eq_false_iff_ne] at clear
    exact clear.1
  obtain ⟨v',step,named,quoting,opened,notDollar,value⟩ :=
    PosixShell.doubleData (s := s) h.opened quoted data.1 data.2.1 data.2.2.1 unread
  refine ⟨[c],begins,valid,.inl ⟨v',?_⟩⟩
  rw [List.foldl_cons,List.foldl_nil,h.feed data.2.2.2,step]
  refine h.enter rfl named (by simp [Frame.push,quote,quoting,Quote.quoting]) opened (fun p => absurd p notDollar) ?_
  intro compared
  have same := h.same compared
  rw [next] at same
  obtain ⟨literal,pending⟩ := value same.2
  exact ⟨literal.trans (congrArg (· ++ [c]) same.1),by simp [Value.Free,pending]⟩

theorem unquotedDataAdvances {c : Char} {tail : Text} (h : InValue exact parsed.values frame s v)
    (valid : frame.valid = true) (quote : frame.quote = .none) (begins : frame.rest = c :: tail)
    (data : PosixShell.isData c = true) (untilde : exact → c = ':' → nextChar tail ≠ some '~') :
    Advances exact frame.rest (.value (frame.push tail [c]) parsed) s := by
  have bare : v.quoting = .none := by rw [h.quoting,quote]; rfl
  have plain : c ≠ '\\' := (PosixShell.dataCases data).2.2.2.2.2.2.2
  have next : nextChar frame.rest = some c := by rw [begins,nextCharPlain plain]
  have unread : v.pending = .dollar → c ≠ '\x7b' := by
    intro pending
    have clear := h.dollar pending
    simp only [next,misreadNext,Bool.or_eq_false_iff,beq_eq_false_iff_ne] at clear
    exact clear.1.2
  obtain ⟨v',step,named,quoting,opened,notDollar,value⟩ := PosixShell.plainData (s := s) h.opened bare data unread
  refine ⟨[c],begins,valid,.inl ⟨v',?_⟩⟩
  rw [List.foldl_cons,List.foldl_nil,h.feed plain,step]
  refine h.enter rfl named (by simp [Frame.push,quote,quoting,Quote.quoting]) opened (fun p => absurd p notDollar) ?_
  intro compared
  have same := h.same compared
  rw [next] at same
  obtain ⟨literal,shape⟩ := value same.2
  refine ⟨literal.trans (congrArg (· ++ [c]) same.1),?_⟩
  rcases shape with pending | ⟨colon,pending⟩
  · simp [Value.Free,pending]
  · simpa [Value.Free,pending,Frame.push] using untilde compared colon

theorem dollarFed (h : InValue exact parsed.values frame s v) (expands : frame.quote ≠ .single) {tail : Text}
    (begins : frame.rest = '$' :: tail) :
    ∃ v', s.feed '$' = s.enter (.value v') ∧ v'.name = v.name ∧ v'.quoting = v.quoting ∧ v'.Open ∧
      (v' = ⟨v.name,v.quoting,v.literal s.shell,.dollar⟩ ∨ v'.pending = .none ∧ ¬exact) := by
  have quoted : v.quoting ≠ .single := by
    rw [h.quoting]
    cases q : frame.quote with
    | single => exact absurd q expands
    | none | double => nofun
  obtain ⟨first,second⟩ := PosixShell.plainDollar (s := s) h.opened quoted
  have opens : ∀ acc pending, pending = Pending.dollar ∨ pending = .none → (⟨v.name,v.quoting,acc,pending⟩ : Value).Open := by
    intro acc pending which
    rcases which with rfl | rfl <;> cases q : v.quoting <;> simp_all [Value.Open]
  rw [h.feed (by decide)]
  by_cases pending : v.pending = .dollar
  · refine ⟨_,second pending,rfl,rfl,opens _ _ (.inr rfl),.inr ⟨rfl,fun compared => ?_⟩⟩
    have free := (h.same compared).2
    rw [begins,nextCharPlain (by decide)] at free
    simp only [Value.Free,pending] at free
    exact absurd (free '$' rfl).2.2 (by decide)
  · exact ⟨_,first pending,rfl,rfl,opens _ _ (.inl rfl),.inl rfl⟩

theorem literalDollarAdvances {tail : Text} (h : InValue exact parsed.values frame s v) (valid : frame.valid = true)
    (expands : frame.quote ≠ .single) (begins : frame.rest = '$' :: tail)
    (clean : misreadNext frame.quote (nextChar tail) = false)
    (valued : exact → ∀ c, nextChar tail = some c → nameChar c = false ∧ PosixShell.isSpecialParameter c = false) :
    Advances exact frame.rest (.value (frame.push tail ['$']) parsed) s := by
  obtain ⟨v',step,named,quoting,opened,which⟩ := dollarFed h expands begins
  refine ⟨['$'],begins,valid,.inl ⟨v',?_⟩⟩
  rw [List.foldl_cons,List.foldl_nil,step]
  refine h.enter rfl named (quoting.trans h.quoting) opened (fun _ => clean) fun compared => ?_
  rcases which with rfl | ⟨_,no⟩
  · refine ⟨congrArg (· ++ ['$']) (h.same compared).1,fun c next => ?_⟩
    obtain ⟨notName,notSpecial⟩ := valued compared c next
    simp only [nameChar,isAlnum,Bool.or_eq_false_iff] at notName
    exact ⟨by simp [nameStartShell,nameStart,notName],notName.1.2,notSpecial⟩
  · exact absurd compared no

theorem referenceInert (c : Char) (h : nameChar c = true ∨ c = '\x7b' ∨ c = '\x7d') :
    PosixShell.isData c = true ∧ c ≠ '"' ∧ c ≠ '$' ∧ c ≠ '\x60' := by
  rcases h with named | rfl | rfl
  · obtain ⟨data,_,h1,h2,h3,_⟩ := PosixShell.nameCharIsData named
    exact ⟨data,h1,h2,h3⟩
  · decide
  · decide

/- A reference to an earlier assignment, with `middle` its spelling after the dollar and `w` what the
shell makes of it. -/
theorem referenceAdvances (middle : Text) {after reference value : Text} {w : Value}
    (h : InValue exact parsed.values frame s v) (valid : frame.valid = true) (expands : frame.quote ≠ .single)
    (begins : frame.rest = '$' :: (middle ++ after)) (known : parsed.values.lookup reference = some value)
    (inert : ∀ c ∈ middle, nameChar c = true ∨ c = '\x7b' ∨ c = '\x7d')
    (spelled : middle.foldl Session.feed (s.enter (.value ⟨v.name,v.quoting,v.literal s.shell,.dollar⟩)) =
      s.enter (.value w)) (named : w.name = v.name) (quoting : w.quoting = v.quoting) (opened : w.Open)
    (notDollar : w.pending ≠ .dollar) (literal : w.literal s.shell = v.literal s.shell ++ s.shell.expand reference)
    (free : exact → w.Free (nextChar after)) :
    Advances exact frame.rest (.value (frame.push after value) parsed) s := by
  obtain ⟨v',step,named',quoting',opened',which⟩ := dollarFed h expands begins
  rcases which with rfl | ⟨settled,no⟩
  · refine ⟨'$' :: middle,begins,valid,.inl ⟨w,?_⟩⟩
    rw [List.foldl_cons,step,spelled]
    refine h.enter rfl named (quoting.trans h.quoting) opened (fun p => absurd p notDollar) fun compared => ⟨?_,free compared⟩
    have expanded : s.shell.expand reference = value := by
      simp [Shell.expand,h.harmless.agree compared reference value known]
    rw [literal,expanded,(h.same compared).1]
    rfl
  · -- after two dollars the name is data to the shell
    have single : v'.quoting ≠ .single := by
      rw [quoting',h.quoting]
      cases q : frame.quote with
      | single => exact absurd q expands
      | none | double => nofun
    obtain ⟨v'',run,named'',quoting'',opened'',settled''⟩ :=
      PosixShell.feedInert referenceInert h.quiet middle v' opened' single (by simp [settled]) inert
    refine ⟨'$' :: middle,begins,valid,.inl ⟨v'',?_⟩⟩
    rw [List.foldl_cons,step,run]
    exact h.enter rfl (named''.trans named') ((quoting''.trans quoting').trans h.quoting) opened''
      (fun p => absurd p (settled'' (by simp [settled]))) fun compared => absurd compared no

theorem dollarAdvances {tail : Text} (h : InValue exact parsed.values frame s v) (valid : frame.valid = true)
    (expands : frame.quote ≠ .single) (begins : frame.rest = '$' :: tail)
    (clean : misreadDollar frame.quote tail = false) (valued : exact → misvaluedDollar tail = false)
    (accepted : (dollar frame tail parsed).parsed.issues = []) :
    Advances exact frame.rest (dollar frame tail parsed) s := by
  have opens : ∀ acc, (⟨v.name,v.quoting,acc,.none⟩ : Value).Open := by
    intro acc
    cases q : v.quoting <;> simp [Value.Open]
  cases tail with
  | nil =>
    exact literalDollarAdvances h valid expands begins rfl fun _ c next => by cases next
  | cons c after =>
    unfold dollar appendExpansion at accepted ⊢
    by_cases substitutes : (c == '(' || c == '\x60') = true
    · simp [substitutes,Loop.parsed,refusedIssues] at accepted
    simp only [substitutes,Bool.false_eq_true,if_false] at accepted ⊢
    by_cases braced : c = '\x7b'
    · subst braced
      have starts : (after.head?.map nameStart).getD false = true := by
        simpa [misreadDollar] using clean
      simp only [beq_self_eq_true,if_true,starts] at accepted ⊢
      cases after with
      | nil => simp at starts
      | cons d more =>
        replace starts : nameStart d = true := by simpa using starts
        have named : nameChar d = true := PosixShell.startIsNameChar starts
        have split : more.takeWhile nameChar ++ more.dropWhile nameChar = more := List.takeWhile_append_dropWhile
        simp only [List.takeWhile_cons_of_pos named,List.dropWhile_cons_of_pos named] at accepted ⊢
        cases ended : more.dropWhile nameChar with
        | nil => simp [ended,Loop.parsed,refusedIssues] at accepted
        | cons e rest =>
          rw [ended] at split
          by_cases closes : e = '\x7d'
          · subst closes
            simp only [ended,expandName] at accepted ⊢
            cases known : parsed.values.lookup (d :: more.takeWhile nameChar) with
            | none => simp [known,Loop.parsed,refusedIssues] at accepted
            | some value =>
              simp only
              refine referenceAdvances ('\x7b' :: d :: more.takeWhile nameChar ++ ['\x7d'])
                h valid expands ?_ known ?_
                (PosixShell.feedDollarBraces h.quiet starts fun c mem => List.mem_takeWhile_imp (p := nameChar) mem)
                rfl rfl (opens _) (fun p => by cases p) rfl fun _ => trivial
              · rw [begins]
                simp [split]
              · intro c mem
                simp only [List.cons_append,List.mem_cons,List.mem_append,List.not_mem_nil,or_false] at mem
                rcases mem with rfl | rfl | mem | rfl
                · exact .inr (.inl rfl)
                · exact .inl named
                · exact .inl (List.mem_takeWhile_imp mem)
                · exact .inr (.inr rfl)
          · have refused := accepted
            simp only [ended] at refused
            split at refused
            · rename_i unrefused
              split at unrefused
              · rename_i same
                exact absurd (List.cons.inj same).1 closes
              · cases unrefused
            · simp [Loop.parsed,refusedIssues] at refused
    have clean : misreadNext frame.quote (nextChar (c :: after)) = false := by
      unfold misreadDollar at clean
      split at clean
      · rename_i same
        exact absurd (List.cons.inj same).1 braced
      · exact clean
    simp only [beq_iff_eq,braced,if_false] at accepted ⊢
    by_cases starts : nameStart c = true
    · have named : nameChar c = true := PosixShell.startIsNameChar starts
      have split : after.takeWhile nameChar ++ after.dropWhile nameChar = after := List.takeWhile_append_dropWhile
      simp only [starts,if_true,List.takeWhile_cons_of_pos named,List.dropWhile_cons_of_pos named,expandName] at accepted ⊢
      cases known : parsed.values.lookup (c :: after.takeWhile nameChar) with
      | none => simp [known,Loop.parsed,refusedIssues] at accepted
      | some value =>
        simp only
        refine referenceAdvances (c :: after.takeWhile nameChar) h valid expands ?_ known ?_
          (PosixShell.feedDollarName h.quiet starts fun d mem => List.mem_takeWhile_imp (p := nameChar) mem)
          rfl rfl ?_ (fun p => by cases p) rfl fun compared => ?_
        · rw [begins,List.cons_append,split]
        · intro d mem
          rcases List.mem_cons.mp mem with rfl | mem
          · exact .inl named
          · exact .inl (List.mem_takeWhile_imp mem)
        · have quoted := h.quoting
          cases q : frame.quote with
          | single => exact absurd q expands
          | none | double => simp [Value.Open,quoted,q,Quote.quoting]
        · have ends := valued compared
          unfold misvaluedDollar at ends
          split at ends
          · rename_i same
            exact absurd (List.cons.inj same).1 braced
          · simp only [List.head?_cons,Option.map_some,Option.getD_some,starts,if_true,
              List.dropWhile_cons_of_pos named] at ends
            intro d next
            rw [nameCharShell]
            simpa [next] using ends
    · simp only [starts,Bool.false_eq_true,if_false]
      refine literalDollarAdvances h valid expands begins clean fun compared d next => ?_
      have single := valued compared
      unfold misvaluedDollar at single
      split at single
      · rename_i same
        exact absurd (List.cons.inj same).1 braced
      · simp only [List.head?_cons,Option.map_some,Option.getD_some,starts,Bool.false_eq_true,if_false,next] at single
        simpa using single

/- Where the value may end: what the shell would assign here is what the parser has. -/
structure Ends (exact : Prop) (values : Values) (frame : Frame) (s : Session) (v : Value) : Prop where
  harmless : OnlyAssigns exact values s
  supported : supportedAssignment frame.name = true
  mode : s.mode = .value v
  quiet : s.backslash = false
  named : v.name = frame.name
  bare : v.quoting = .none
  opened : v.Open
  same : exact → v.ended s.shell = frame.value

theorem InValue.ends {values : Values} (h : InValue exact values frame s v) (quote : frame.quote = .none) :
    Ends exact values frame s v where
  harmless := h.harmless
  supported := h.supported
  mode := h.mode
  quiet := h.quiet
  named := h.named
  bare := by rw [h.quoting,quote]; rfl
  opened := h.opened
  same := fun compared => (PosixShell.freeEnded (h.same compared).2 s.shell).trans (h.same compared).1

theorem Ends.assigned {values : Values} (h : Ends exact values frame s v) {t : Session} (shell : t.shell = s.shell)
    (effects : t.effects = s.effects) (quiet : t.backslash = false) :
    Settled exact (values.set frame.name frame.value) (t.assign v.name (v.ended s.shell)) := by
  have harmless : OnlyAssigns exact values t := by
    refine ⟨?_,?_,?_⟩
    · rw [shell]
      exact h.harmless.writable
    · rw [effects]
      exact h.harmless.effects
    · rw [shell]
      exact h.harmless.agree
  rw [h.named]
  exact harmless.assign h.supported h.same quiet

theorem Ends.newline {values : Values} (h : Ends exact values frame s v) :
    Settled exact (values.set frame.name frame.value) (s.feed '\n') := by
  have step : s.feed '\n' = s.assign v.name (v.ended s.shell) := by
    rw [PosixShell.feedPlain h.quiet (by decide),← PosixShell.plainNewline h.opened h.bare]
    simp [Session.plain,h.mode]
  rw [step]
  exact h.assigned rfl rfl h.quiet

theorem Ends.finish {values : Values} (h : Ends exact values frame s v) :
    Settled exact (values.set frame.name frame.value) s.finish := by
  have step : s.finish = s.assign v.name (v.ended s.shell) := by
    simp [Session.finish,Session.trailing,h.quiet,h.mode,h.bare,PosixShell.openNotBraces h.opened]
  rw [step]
  exact h.assigned rfl rfl h.quiet

theorem Ends.feedBlanks {values : Values} (h : Ends exact values frame s v) {b : Char} {rest : Text}
    (all : ∀ c ∈ b :: rest, PosixShell.isBlank c = true) :
    (b :: rest).foldl Session.feed s = s.enter (.after v.name (v.ended s.shell)) := by
  have blank := all b (by simp)
  have first : s.feed b = s.enter (.after v.name (v.ended s.shell)) := by
    rw [PosixShell.feedPlain h.quiet (PosixShell.blankNotBackslash blank),← PosixShell.plainBlank h.opened h.bare blank]
    simp [Session.plain,h.mode]
  rw [List.foldl_cons,first]
  exact PosixShell.feedAfterBlanks (s := s.enter (.after v.name (v.ended s.shell))) h.quiet rfl rest
    fun c mem => all c (by simp [mem])

theorem Ends.blanks {after : Text} {values : Values} (h : Ends exact values frame s v) (blanks : Text)
    (all : ∀ c ∈ blanks, PosixShell.isBlank c = true) (parsed' : ParsedCandidate)
    (set : parsed'.values = values.set frame.name frame.value) (data : blanks = [] → after.head? ≠ some '#')
    (shape : after = [] ∨ after.head? = some '\n' ∨ after.head? = some '#') :
    Advances exact (blanks ++ after) (.statement (skipLine after) parsed') s := by
  cases blanks with
  | nil =>
    rcases shape with rfl | newline | hash
    · exact ⟨[],rfl,.inr ⟨rfl,by rw [set]; exact h.finish⟩⟩
    · cases after with
      | nil => simp at newline
      | cons c tail =>
        obtain rfl : c = '\n' := by simpa using newline
        exact ⟨['\n'],rfl,.inl (by rw [set]; exact h.newline)⟩
    · exact absurd hash (data rfl)
  | cons b rest =>
    refine .prepend (h.feedBlanks all) ?_
    rcases shape with rfl | newline | hash
    · refine ⟨[],rfl,.inr ⟨rfl,?_⟩⟩
      have ended : (s.enter (.after v.name (v.ended s.shell))).finish =
          (s.enter (.after v.name (v.ended s.shell))).assign v.name (v.ended s.shell) := by
        simp [Session.finish,Session.trailing,Session.enter,h.quiet]
      rw [List.foldl_nil,ended,set]
      exact h.assigned rfl rfl h.quiet
    · cases after with
      | nil => simp at newline
      | cons c tail =>
        obtain rfl : c = '\n' := by simpa using newline
        refine ⟨['\n'],rfl,.inl ?_⟩
        have step : (s.enter (.after v.name (v.ended s.shell))).feed '\n' =
            (s.enter (.after v.name (v.ended s.shell))).assign v.name (v.ended s.shell) := by
          rw [PosixShell.feedEntered h.quiet (by decide)]
          rfl
        rw [List.foldl_cons,List.foldl_nil,step,set]
        exact h.assigned rfl rfl h.quiet
    · cases after with
      | nil => simp at hash
      | cons c tail =>
        obtain rfl : c = '#' := by simpa using hash
        obtain ⟨t,opened⟩ : ∃ t, t = s.enter (.comment (some (v.name,v.ended s.shell))) := ⟨_,rfl⟩
        have opens : ['#'].foldl Session.feed (s.enter (.after v.name (v.ended s.shell))) = t := by
          rw [List.foldl_cons,List.foldl_nil,PosixShell.feedEntered h.quiet (by decide),opened]
          rfl
        have line : t.plain '\n' = t.assign v.name (v.ended s.shell) := by rw [opened]; rfl
        have stops : t.finish = t.assign v.name (v.ended s.shell) := by
          simp [opened,Session.finish,Session.trailing,Session.enter,h.quiet]
        have settled : Settled exact parsed'.values (t.assign v.name (v.ended s.shell)) := by
          rw [set]
          exact h.assigned (by rw [opened]; rfl) (by rw [opened]; rfl) (by rw [opened]; exact h.quiet)
        have same : skipLine ('#' :: tail) = skipLine tail := by simp [skipLine]
        rw [same]
        exact .prepend opens (commentSettles (by rw [opened]; exact h.quiet) (by rw [opened]; rfl)
          (by rw [line]; exact settled) (by rw [stops]; exact settled))

theorem InValue.throughReturns {values : Values} (h : InValue exact values frame s v) (quote : frame.quote = .none)
    (spaces : Text) (kept : exact → spaces.takeWhile (· == '\r') = []) :
    ∃ t v', (spaces.takeWhile (· == '\r')).foldl Session.feed s = t ∧ Ends exact values frame t v' := by
  have here := h.ends quote
  have returned : ∀ d ∈ spaces.takeWhile (· == '\r'), d = '\r' := fun d mem => by
    simpa using List.mem_takeWhile_imp mem
  by_cases none : spaces.takeWhile (· == '\r') = []
  · rw [none]
    exact ⟨s,v,rfl,here⟩
  · have unread : v.pending = .dollar → ∀ d, (spaces.takeWhile (· == '\r')).head? = some d → d ≠ '(' ∧ d ≠ '\x7b' := by
      intro _ d first
      rw [returned d (List.mem_of_head? first)]
      decide
    have inert : ∀ d, d = '\r' → PosixShell.isData d = true ∧ d ≠ '"' ∧ d ≠ '$' ∧ d ≠ '\x60' := by
      intro d same
      rw [same]
      decide
    obtain ⟨v',run,named,quoting,opened,_⟩ := PosixShell.feedInert inert h.quiet (spaces.takeWhile (· == '\r')) v
      h.opened (by rw [here.bare]; nofun) unread returned
    have same : s.enter (.value v) = s := by rw [← h.mode]; rfl
    rw [same] at run
    exact ⟨_,v',run,h.harmless.enter _,h.supported,rfl,h.quiet,named.trans h.named,quoting.trans here.bare,opened,
      fun compared => absurd (kept compared) none⟩

theorem endAdvances {c : Char} {tail : Text} (h : InValue exact parsed.values frame s v) (valid : frame.valid = true)
    (quote : frame.quote = .none) (begins : frame.rest = c :: tail) (space : horizontalSpace c = true)
    (blank : returnAfterBlank frame.rest = false) (hash : hashAfterReturn frame.rest = false)
    (valued : exact → c ≠ '\r')
    (accepted : (endOfValue size frame parsed).parsed.issues = []) :
    Advances exact frame.rest (endOfValue size frame parsed) s := by
  obtain ⟨spaces,spaced⟩ : ∃ spaces, spaces = frame.rest.takeWhile horizontalSpace := ⟨_,rfl⟩
  obtain ⟨after,left⟩ : ∃ after, after = frame.rest.dropWhile horizontalSpace := ⟨_,rfl⟩
  have whole : frame.rest = spaces.takeWhile (· == '\r') ++ (spaces.dropWhile (· == '\r') ++ after) := by
    rw [← List.append_assoc,List.takeWhile_append_dropWhile,spaced,left,List.takeWhile_append_dropWhile]
  simp only [returnAfterBlank,← spaced] at blank
  simp only [hashAfterReturn,← spaced,← left] at hash
  have blanks : ∀ d ∈ spaces.dropWhile (· == '\r'), PosixShell.isBlank d = true := by
    intro d mem
    have space : horizontalSpace d = true := by
      have inSpaces := (List.dropWhile_sublist (· == '\r')).mem mem
      rw [spaced] at inSpaces
      exact List.mem_takeWhile_imp inSpaces
    have notReturn : d ≠ '\r' := by
      intro same
      rw [same] at mem
      simp [mem] at blank
    exact shellBlank space notReturn
  have data : spaces.dropWhile (· == '\r') = [] → after.head? ≠ some '#' := by
    intro none
    simpa [none] using hash
  have kept : exact → spaces.takeWhile (· == '\r') = [] := by
    intro compared
    rw [spaced,begins,List.takeWhile_cons_of_pos space]
    simp [valued compared]
  obtain ⟨t,v',returns,ends⟩ := h.throughReturns quote spaces kept
  have shape : after = [] ∨ after.head? = some '\n' ∨ after.head? = some '#' := by
    cases after with
    | nil => exact .inl rfl
    | cons d more =>
      by_cases ended : d = '\n' ∨ d = '#'
      · rcases ended with rfl | rfl <;> simp
      · simp only [not_or] at ended
        simp [endOfValue,← left,ended.1,ended.2,conclude,quote,Loop.parsed,refusedIssues] at accepted
  have concludes : endOfValue size frame parsed = .statement (skipLine after) { parsed with
      values := parsed.values.set frame.name frame.value
      assignments := parsed.assignments ++ [⟨frame.name,frame.start,size - frame.rest.length⟩] } := by
    cases after with
    | nil => simp [endOfValue,← left,conclude,quote,valid,skipLine]
    | cons d more =>
      have ended : d = '\n' ∨ d = '#' := by simpa using shape
      rcases ended with rfl | rfl <;> simp [endOfValue,← left,conclude,quote,valid]
  rw [concludes,whole]
  exact .prepend returns (ends.blanks _ blanks _ rfl data shape)

theorem stopAdvances {stop : Nat} (h : InValue exact parsed.values frame s v) (valid : frame.valid = true)
    (stops : frame.rest = []) (accepted : (conclude frame stop [] parsed).parsed.issues = []) :
    Advances exact frame.rest (conclude frame stop [] parsed) s := by
  by_cases quote : frame.quote = .none
  · rw [stops]
    refine ⟨[],by simp [conclude,quote,valid,Loop.rest],?_⟩
    simp only [conclude,quote,valid,bne_self_eq_false,Bool.false_eq_true,if_false,if_true]
    exact .inr ⟨rfl,(h.ends quote).finish⟩
  · simp [conclude,quote,Loop.parsed,refusedIssues] at accepted

theorem controlShell (c : Char) : controlOperator c = (c == '\x60' || PosixShell.isOperator c) := by
  simp [PosixShell.isOperator,controlOperator,Bool.or_assoc]

theorem unquotedIsData {c : Char} (newline : c ≠ '\n') (space : ¬horizontalSpace c = true) (single : c ≠ '\'')
    (double : c ≠ '"') (dollar : c ≠ '$') (backslash : c ≠ '\\') (control : ¬controlOperator c = true) :
    PosixShell.isData c = true := by
  rw [controlShell] at control
  simp only [Bool.or_eq_true,beq_iff_eq,not_or,Bool.not_eq_true] at control
  simp only [horizontalSpace,Bool.or_eq_true,beq_iff_eq,not_or] at space
  simp [PosixShell.isData,PosixShell.isSpecial,PosixShell.isBlank,newline,space.1.1,space.1.2,single,double,dollar,
    backslash,control.1,control.2]

theorem quoteAdvances {c : Char} {tail : Text} (h : InValue exact parsed.values frame s v) (valid : frame.valid = true)
    (quote : frame.quote = .none) (begins : frame.rest = c :: tail) {opens : Quote}
    (which : c = '\'' ∧ opens = .single ∨ c = '"' ∧ opens = .double) :
    Advances exact frame.rest (.value { frame with quote := opens, rest := tail } parsed) s := by
  have bare : v.quoting = .none := by rw [h.quoting,quote]; rfl
  have plain : c ≠ '\\' := by rcases which with ⟨rfl,_⟩ | ⟨rfl,_⟩ <;> decide
  have notDollar : v.pending ≠ .dollar := by
    intro pending
    have clear := h.dollar pending
    rw [begins,nextCharPlain plain,quote] at clear
    rcases which with ⟨rfl,_⟩ | ⟨rfl,_⟩ <;> exact absurd clear (by decide)
  obtain ⟨single,double⟩ := PosixShell.plainQuote (s := s) h.opened bare notDollar
  have step : s.plainValue v c = s.enter (.value ⟨v.name,opens.quoting,v.literal s.shell,.none⟩) := by
    rcases which with ⟨rfl,rfl⟩ | ⟨rfl,rfl⟩
    · exact single
    · exact double
  have opened : (⟨v.name,opens.quoting,v.literal s.shell,.none⟩ : Value).Open := by
    cases opens <;> simp [Value.Open,Quote.quoting]
  refine ⟨[c],begins,valid,.inl ⟨⟨v.name,opens.quoting,v.literal s.shell,.none⟩,?_⟩⟩
  rw [List.foldl_cons,List.foldl_nil,h.feed plain,step]
  exact h.enter rfl rfl rfl opened nofun fun compared => ⟨(h.same compared).1,trivial⟩

theorem trailingAdvances (h : InValue exact parsed.values frame s v) (valid : frame.valid = true)
    (expands : frame.quote ≠ .single) (begins : frame.rest = ['\\']) :
    Advances exact frame.rest (.value (frame.push [] ['\\']) parsed) s := by
  refine ⟨['\\'],begins,valid,.inr ⟨rfl,fun quote => ?_⟩⟩
  replace quote : frame.quote = .none := quote
  have step : s.feed '\\' = { s with backslash := true } := by
    simp [Session.feed,h.quiet,h.takesBackslash expands]
  obtain ⟨t,kept⟩ : ∃ t, t = s.enter (.value ⟨v.name,.none,v.literal s.shell ++ ['\\'],.none⟩) := ⟨_,rfl⟩
  have bare : v.quoting = .none := by rw [h.quoting,quote]; rfl
  have trailing : ({ s with backslash := true } : Session).trailing = t := by
    simp [kept,Session.trailing,Session.enter,h.mode,bare,PosixShell.openNotBraces h.opened,Value.took,h.quiet]
  have ended : ({ s with backslash := true } : Session).finish = t.finish := by
    have quiet : t.trailing = t := by simp [kept,Session.trailing,Session.enter,h.quiet]
    simp only [Session.finish,trailing,quiet]
  have last : Ends exact parsed.values (frame.push [] ['\\']) t ⟨v.name,.none,v.literal s.shell ++ ['\\'],.none⟩ := by
    rw [kept]
    exact ⟨h.harmless.enter _,h.supported,rfl,h.quiet,h.named,rfl,trivial,
      fun compared => congrArg (· ++ ['\\']) (h.same compared).1⟩
  rw [List.foldl_cons,List.foldl_nil,step,ended]
  exact last.finish

theorem unquotedAdvances {c : Char} {tail : Text} (h : InValue exact parsed.values frame s v) (valid : frame.valid = true)
    (quote : frame.quote = .none) (begins : frame.rest = c :: tail)
    (runs : (Loop.value frame parsed).returnRuns = false) (clean : (Loop.value frame parsed).misread = false)
    (valued : exact → (Loop.value frame parsed).misvalued = false)
    (accepted : (stepUnquoted size frame c tail parsed).parsed.issues = []) :
    Advances exact frame.rest (stepUnquoted size frame c tail parsed) s := by
  simp only [Loop.returnRuns,begins,quote] at runs
  simp only [Loop.misread,begins,quote] at clean
  simp only [Loop.misvalued,begins,quote] at valued
  unfold stepUnquoted at accepted ⊢
  by_cases newline : c = '\n'
  · subst newline
    simp only [beq_self_eq_true,if_true,conclude,quote,valid,bne_self_eq_false,Bool.false_eq_true,if_false]
    exact ⟨['\n'],begins,.inl (h.ends quote).newline⟩
  simp only [beq_iff_eq,newline,if_false] at accepted ⊢
  by_cases space : horizontalSpace c = true
  · simp only [space,if_true] at accepted clean ⊢
    simp only [space,Bool.true_and] at runs
    refine endAdvances h valid quote begins space (begins ▸ runs) (begins ▸ clean) (fun compared isReturn => ?_) accepted
    simpa [isReturn] using valued compared
  simp only [space,Bool.false_eq_true,if_false] at accepted clean ⊢
  have notReturn : c ≠ '\r' := by rintro rfl; exact space rfl
  by_cases hash : c = '#'
  · subst hash
    exact unquotedDataAdvances h valid quote begins (by decide) fun _ colon => absurd colon (by decide)
  simp only [hash,if_false] at accepted ⊢
  by_cases single : c = '\''
  · simp only [single,if_true]
    exact quoteAdvances h valid quote begins (.inl ⟨single,rfl⟩)
  simp only [single,if_false] at accepted ⊢
  by_cases double : c = '"'
  · simp only [double,if_true]
    exact quoteAdvances h valid quote begins (.inr ⟨double,rfl⟩)
  simp only [double,if_false] at accepted ⊢
  have expands : frame.quote ≠ .single := by rw [quote]; nofun
  by_cases expansion : c = '$'
  · subst expansion
    simp only [if_true] at accepted ⊢
    exact dollarAdvances h valid expands begins (quote ▸ clean) valued accepted
  simp only [expansion,if_false] at accepted ⊢
  by_cases backslash : c = '\\'
  · subst backslash
    simp only [if_true] at accepted ⊢
    cases tail with
    | nil => exact trailingAdvances h valid expands begins
    | cons escaped after =>
      by_cases continues : escaped = '\n'
      · subst continues
        exact continuationAdvances h valid expands begins
      · have advanced := escapeAdvances h valid expands begins continues
        simpa [quote,continues] using advanced
  simp only [backslash,if_false] at accepted ⊢
  by_cases control : controlOperator c = true
  · simp [control,Loop.parsed,refusedIssues] at accepted
  · simp only [control,Bool.false_eq_true,if_false]
    refine unquotedDataAdvances h valid quote begins
      (unquotedIsData newline space single double expansion backslash control) fun compared colon => ?_
    simpa [colon] using valued compared

theorem doubleAdvances {c : Char} {tail : Text} (h : InValue exact parsed.values frame s v) (valid : frame.valid = true)
    (quote : frame.quote = .double) (begins : frame.rest = c :: tail)
    (clean : (Loop.value frame parsed).misread = false) (valued : exact → (Loop.value frame parsed).misvalued = false)
    (accepted : (stepDouble frame c tail parsed).parsed.issues = []) :
    Advances exact frame.rest (stepDouble frame c tail parsed) s := by
  simp only [Loop.misread,begins,quote] at clean
  simp only [Loop.misvalued,begins,quote] at valued
  have expands : frame.quote ≠ .single := by rw [quote]; nofun
  unfold stepDouble at accepted ⊢
  by_cases closes : c = '"'
  · subst closes
    simp only [beq_self_eq_true,if_true]
    refine ⟨['"'],begins,valid,.inl ⟨⟨v.name,.none,v.literal s.shell,.none⟩,?_⟩⟩
    have quoted : v.quoting = .double := by rw [h.quoting,quote]; rfl
    rw [List.foldl_cons,List.foldl_nil,h.feed (by decide),PosixShell.closeDouble h.opened quoted]
    exact h.enter rfl rfl rfl trivial (fun p => by cases p) fun compared => ⟨(h.same compared).1,trivial⟩
  simp only [beq_iff_eq,closes,if_false] at accepted ⊢
  by_cases substitutes : c = '\x60'
  · simp [substitutes,Loop.parsed,refusedIssues] at accepted
  simp only [substitutes,if_false] at accepted ⊢
  by_cases expansion : c = '$'
  · subst expansion
    simp only [beq_self_eq_true,if_true] at accepted clean valued ⊢
    exact dollarAdvances h valid expands begins (quote ▸ clean) valued accepted
  simp only [expansion,if_false] at accepted ⊢
  by_cases backslash : c = '\\'
  · subst backslash
    simp only [if_true] at accepted ⊢
    cases tail with
    | nil => exact trailingAdvances h valid expands begins
    | cons escaped after =>
      by_cases continues : escaped = '\n'
      · subst continues
        exact continuationAdvances h valid expands begins
      · have advanced := escapeAdvances h valid expands begins continues
        by_cases special : escaped = '$' ∨ escaped = '\x60' ∨ escaped = '"' ∨ escaped = '\\'
        · simpa [quote,continues,special,or_assoc] using advanced
        · simpa [quote,continues,special,or_assoc] using advanced
  simp only [backslash,if_false] at accepted ⊢
  exact doubleDataAdvances h valid quote begins ⟨closes,expansion,substitutes,backslash⟩

end Values

section Runs
variable {exact : Prop} {size : Nat} {s : Session} {loop : Loop}

theorem stepAdvances (reads : Reads exact loop s) (runs : loop.returnRuns = false) (clean : loop.misread = false)
    (valued : exact → loop.misvalued = false) (accepted : (loop.step size).parsed.issues = []) :
    Advances exact loop.rest (loop.step size) s := by
  cases loop with
  | statement rest parsed =>
    rcases reads with settled | ⟨rfl,settled⟩
    · exact statementAdvances settled runs valued accepted
    · exact ⟨[],rfl,settled⟩
  | done parsed => exact ⟨[],rfl,reads⟩
  | value frame parsed =>
    obtain ⟨valid,⟨v,h⟩ | ⟨stops,settled⟩⟩ := reads
    · simp only [Loop.step,Loop.rest,stepValue] at accepted ⊢
      cases begins : frame.rest with
      | nil =>
        simp only [begins] at accepted ⊢
        have advanced := stopAdvances h valid begins accepted
        rwa [begins] at advanced
      | cons c tail =>
        simp only [begins] at accepted ⊢
        rw [← begins]
        cases quote : frame.quote with
        | single =>
          exact singleAdvances h valid quote begins
        | double =>
          simp only [quote] at accepted
          exact doubleAdvances h valid quote begins clean valued accepted
        | none =>
          simp only [quote] at accepted
          exact unquotedAdvances h valid quote begins runs clean valued accepted
    · simp only [Loop.step,Loop.rest,stepValue,stops] at accepted ⊢
      by_cases quote : frame.quote = .none
      · simp only [conclude,quote,valid,bne_self_eq_false,Bool.false_eq_true,if_false,if_true]
        exact ⟨[],rfl,.inr ⟨rfl,settled quote⟩⟩
      · simp [conclude,quote,Loop.parsed,refusedIssues] at accepted

theorem returnAmongBlanks : ∀ rest : Text, '\r' ∈ rest.takeWhile horizontalSpace →
    ∃ blanks tail, rest = blanks ++ '\r' :: tail ∧ ∀ c ∈ blanks, PosixShell.isBlank c = true
  | [], mem => by simp at mem
  | c :: rest, mem => by
    by_cases here : c = '\r'
    · exact ⟨[],rest,by rw [here]; rfl,nofun⟩
    · have space : horizontalSpace c = true := by
        by_contra no
        simp [no] at mem
      have later : '\r' ∈ rest.takeWhile horizontalSpace := by
        simpa [List.takeWhile_cons_of_pos space,Ne.symm here] using mem
      obtain ⟨blanks,tail,split,all⟩ := returnAmongBlanks rest later
      refine ⟨c :: blanks,tail,by rw [split]; rfl,?_⟩
      intro d mem
      rcases List.mem_cons.mp mem with rfl | more
      · exact shellBlank space here
      · exact all d more

theorem InValue.loosely {values : Values} {frame : Frame} {v : Value} (h : InValue exact values frame s v) :
    InValue False values frame s v :=
  { h with harmless := ⟨h.harmless.writable,h.harmless.effects,nofun⟩, same := nofun }

theorem returnAfterBlankDooms {values : Values} {frame : Frame} {v : Value} (h : InValue exact values frame s v)
    (quote : frame.quote = .none) {rest : Text} (runs : returnAfterBlank rest = true) :
    (rest.foldl Session.feed s).Doomed := by
  obtain ⟨spaces,spaced⟩ : ∃ spaces, spaces = rest.takeWhile horizontalSpace := ⟨_,rfl⟩
  obtain ⟨blanks,blanked⟩ : ∃ blanks, blanks = spaces.dropWhile (· == '\r') := ⟨_,rfl⟩
  have whole : rest = spaces.takeWhile (· == '\r') ++ (blanks ++ rest.dropWhile horizontalSpace) := by
    rw [blanked,← List.append_assoc,List.takeWhile_append_dropWhile,spaced,List.takeWhile_append_dropWhile]
  have mem : '\r' ∈ blanks := by simpa [returnAfterBlank,← spaced,← blanked] using runs
  have blank : ∀ c ∈ blanks, horizontalSpace c = true := by
    intro c inside
    rw [blanked] at inside
    have inSpaces := (List.dropWhile_sublist (· == '\r')).mem inside
    rw [spaced] at inSpaces
    exact List.mem_takeWhile_imp inSpaces
  obtain ⟨front,tail,split,all⟩ := returnAmongBlanks (blanks ++ rest.dropWhile horizontalSpace) (by
    rw [List.takeWhile_append_of_pos blank]
    exact List.mem_append_left _ mem)
  obtain ⟨t,v',returns,ends⟩ := h.loosely.throughReturns quote spaces nofun
  rw [whole,List.foldl_append,returns,split]
  cases front with
  | nil =>
    -- the carriage returns in front are gone, so a blank comes first
    cases blanks with
    | nil => simp at mem
    | cons d more =>
      have first := List.head?_dropWhile_not (· == '\r') spaces
      obtain rfl : d = '\r' := (List.cons.inj split).1
      simp [← blanked] at first
  | cons b front =>
    rw [List.foldl_append,ends.feedBlanks all,List.foldl_cons]
    refine PosixShell.doomedRun tail ?_
    rw [PosixShell.feedEntered ends.quiet (by decide)]
    exact PosixShell.commandDoomed _ [] '\r'

theorem returnDooms (reads : Reads exact loop s) (runs : loop.returnRuns = true) :
    (loop.rest.foldl Session.feed s).Doomed := by
  cases loop with
  | done parsed => cases runs
  | statement rest parsed =>
    have mem : '\r' ∈ rest.takeWhile horizontalSpace := by simpa [Loop.returnRuns] using runs
    obtain ⟨blanks,tail,split,all⟩ := returnAmongBlanks rest mem
    rcases reads with settled | ⟨rfl,_⟩
    · have command : s.feed '\r' = s.plainCommand [] '\r' := by
        simp [PosixShell.feedPlain settled.quiet,Session.plain,settled.mode,PosixShell.isBlank,PosixShell.isNameStart]
      simp only [Loop.rest]
      rw [split,List.foldl_append,PosixShell.feedStartBlanks settled.quiet settled.mode blanks all,List.foldl_cons,
        command]
      exact PosixShell.doomedRun tail (PosixShell.commandDoomed s [] '\r')
    · simp at mem
  | value frame parsed =>
    obtain ⟨_,⟨v,h⟩ | ⟨stops,_⟩⟩ := reads
    · cases begins : frame.rest with
      | nil => simp [Loop.returnRuns,begins] at runs
      | cons c tail =>
        cases quote : frame.quote with
        | single | double => simp [Loop.returnRuns,begins,quote] at runs
        | none =>
          simp only [Loop.returnRuns,begins,quote,Bool.and_eq_true] at runs
          simp only [Loop.rest]
          rw [begins]
          exact returnAfterBlankDooms h quote runs.2
    · simp [Loop.returnRuns,stops] at runs

theorem runAdvances : ∀ (fuel : Nat) (loop : Loop) (s : Session), Reads exact loop s →
    (∀ visited ∈ Loop.visits size fuel loop, visited.misread = false ∧ (exact → visited.misvalued = false)) →
    (Loop.run size fuel loop).parsed.issues = [] →
    (noReturnAt (Loop.visits size fuel loop) = true ∧ Advances exact loop.rest (Loop.run size fuel loop) s) ∨
    (noReturnAt (Loop.visits size fuel loop) = false ∧ (loop.rest.foldl Session.feed s).Doomed)
  | 0, _, _, reads, _, _ => .inl ⟨rfl,[],rfl,reads⟩
  | fuel + 1, loop, s, reads, clean, accepted => by
    obtain ⟨misread,misvalued⟩ := clean loop (by simp [Loop.visits])
    cases runs : loop.returnRuns with
    | true => exact .inr ⟨by simp [noReturnAt,Loop.visits,runs],returnDooms reads runs⟩
    | false =>
      have rest : noReturnAt (Loop.visits size (fuel + 1) loop) = noReturnAt (Loop.visits size fuel (loop.step size)) := by
        simp [noReturnAt,Loop.visits,runs]
      obtain ⟨first,split,reads'⟩ := stepAdvances reads runs misread misvalued (runIssues fuel accepted)
      have more := runAdvances fuel (loop.step size) _ reads'
        (fun visited mem => clean visited (by simp [Loop.visits,mem])) accepted
      rw [rest,split]
      rcases more with ⟨all,advances⟩ | ⟨some,doomed⟩
      · exact .inl ⟨all,.prepend rfl advances⟩
      · exact .inr ⟨some,by rw [List.foldl_append]; exact doomed⟩

end Runs

/- Sourcing an accepted text: it settles, with only supported names assigned, unless a carriage return runs. -/
theorem sourceSettles {exact : Prop} {content : Text} {sh : Shell} (accepted : (parseCandidate content).issues = [])
    (syntaxAgrees : shellSyntaxAgrees content = true) (valuesAgree : exact → shellValuesAgree content = true)
    (writable : ∀ name, supportedAssignment name = true → sh.readonly name = false) :
    (noReturnRuns content = true ∧ Settled exact (parseCandidate content).values (source sh content)) ∨
    (noReturnRuns content = false ∧ ∃ effect ∈ (source sh content).effects, ∀ name value, effect ≠ .assign name value) := by
  simp only [shellSyntaxAgrees,Bool.and_eq_true,Bool.not_eq_true',List.all_eq_true] at syntaxAgrees
  obtain ⟨textFile,clean⟩ := syntaxAgrees
  simp only [shellValuesAgree,List.all_eq_true,Bool.not_eq_true'] at valuesAgree
  have begins : Reads exact (.statement content {}) { shell := sh } :=
    .inl ⟨⟨writable,nofun,fun _ _ _ known => nomatch known⟩,rfl,rfl⟩
  obtain ⟨parsed,done⟩ := parseCandidateDone content
  have advances := runAdvances _ _ _ begins
    (fun visited mem => ⟨clean visited mem,fun compared => valuesAgree compared visited mem⟩) accepted
  have sourced : source sh content = (content.foldl Session.feed { shell := sh }).finish := by
    simp only [source,textFile,Bool.false_eq_true,if_false]
  rw [sourced]
  rcases advances with ⟨all,segment,split,reads⟩ | ⟨some,doomed⟩
  · have last : Loop.run content.length (content.length + 1) (.statement content {}) = .done parsed := done
    rw [last] at split reads
    have whole : content = segment := by simpa [Loop.rest] using split
    have values : (parseCandidate content).values = parsed.values := by rw [parseCandidate,done]; rfl
    rw [← whole] at reads
    rw [values]
    exact .inl ⟨all,reads⟩
  · exact .inr ⟨some,PosixShell.doomedFinish doomed⟩

/- Sourcing an accepted candidate, from any environment. -/
theorem acceptedOnlyAssigns (content : Text) (resolvePath : NfqwsPathResolver) (vars : Text → Option Text)
    (param : Char → Text) (home : Text → Option Text) (accepted : validateNfqwsCandidate content resolvePath = [])
    (syntaxAgrees : shellSyntaxAgrees content = true) :
    (∀ effect ∈ (source (.inherited vars param home) content).effects,
      ∃ name value, effect = .assign name value ∧ supportedAssignment name = true) ↔ noReturnRuns content = true := by
  have settles : (noReturnRuns content = true ∧
      Settled False (parseCandidate content).values (source (.inherited vars param home) content)) ∨ _ :=
    sourceSettles (acceptedParses accepted) syntaxAgrees nofun fun _ _ => rfl
  rcases settles with ⟨quiet,settled⟩ | ⟨runs,effect,mem,other⟩
  · exact ⟨fun _ => quiet,fun _ => settled.harmless.effects⟩
  · constructor
    · intro assigns
      obtain ⟨name,value,assign,_⟩ := assigns effect mem
      exact absurd assign (other name value)
    · intro quiet
      rw [runs] at quiet
      cases quiet

def bareShell : Shell := .inherited (fun _ => none) (fun _ => []) (fun _ => none)

def quotedText : Text := text "# ports\nTCP_PORTS=80,443 # both\nNFQWS_ARGS=\"--dpi-desync=fake\" \n"

theorem quotedTextFacts : validateNfqwsCandidate quotedText none = [] ∧ shellSyntaxAgrees quotedText = true ∧
    noReturnRuns quotedText = true ∧ shellValuesAgree quotedText = true ∧
    (parseCandidate quotedText).values.lookup (text "TCP_PORTS") = some (text "80,443") := by
  decide +kernel

theorem quotedTextAssigns : noReturnRuns quotedText = true ∧ ∀ effect ∈ (source bareShell quotedText).effects,
    ∃ name value, effect = .assign name value ∧ supportedAssignment name = true := by
  obtain ⟨accepted,syntaxAgrees,quiet,-,-⟩ := quotedTextFacts
  exact ⟨quiet,(acceptedOnlyAssigns quotedText none _ _ _ accepted syntaxAgrees).mpr quiet⟩

def returnLine : Text := text "\r\nNFQWS_ARGS=--dpi-desync=fake\n"

theorem returnLineRuns : validateNfqwsCandidate returnLine none = [] ∧
    Effect.command ['\r'] ∈ (source bareShell returnLine).effects ∧
    ¬∀ effect ∈ (source bareShell returnLine).effects,
      ∃ name value, effect = .assign name value ∧ supportedAssignment name = true := by
  have runs : (source bareShell returnLine).effects = [.command ['\r']] := by decide +kernel
  refine ⟨by decide +kernel,by simp [runs],?_⟩
  intro all
  obtain ⟨name,value,assigns,_⟩ := all (.command ['\r']) (by simp [runs])
  cases assigns

def sourcedValue (sh : Shell) (content : Text) (name : String) : Text :=
  if ((parseCandidate content).values.lookup (text name)).isSome then
    ((source sh content).shell.vars (text name)).getD [] else []

/- The values the dry run is built from are the ones the shell leaves behind. -/
theorem acceptedValuesAgree (content : Text) (resolvePath : NfqwsPathResolver) (sh : Shell)
    (accepted : validateNfqwsCandidate content resolvePath = []) (syntaxAgrees : shellSyntaxAgrees content = true)
    (noReturn : noReturnRuns content = true) (valuesAgree : shellValuesAgree content = true)
    (writable : ∀ name, supportedAssignment name = true → sh.readonly name = false) :
    (∀ name value, (parseCandidate content).values.lookup name = some value →
      (source sh content).shell.vars name = some value) ∧
    ∀ fallbackQueueNumber, buildNfqwsDryRunArgs content fallbackQueueNumber resolvePath =
      dryRunArgs (sourcedValue sh content) fallbackQueueNumber resolvePath := by
  have settles : (noReturnRuns content = true ∧ Settled True (parseCandidate content).values (source sh content)) ∨ _ :=
    sourceSettles (acceptedParses accepted) syntaxAgrees (fun _ => valuesAgree) writable
  obtain ⟨_,settled⟩ := settles.resolve_right fun runs => by simp [noReturn] at runs
  have same := settled.harmless.agree trivial
  have values : valueOf (parseCandidate content) = sourcedValue sh content := by
    funext name
    unfold valueOf sourcedValue
    cases known : (parseCandidate content).values.lookup (text name) with
    | none => simp
    | some value => simp [same (text name) value known]
  exact ⟨same,fun _ => by rw [buildNfqwsDryRunArgs,values]⟩

theorem quotedTextValues : (source bareShell quotedText).shell.vars (text "TCP_PORTS") = some (text "80,443") := by
  obtain ⟨accepted,syntaxAgrees,quiet,agree,looked⟩ := quotedTextFacts
  exact (acceptedValuesAgree quotedText none bareShell accepted syntaxAgrees quiet agree fun _ _ => rfl).1 _ _ looked

def returnText : Text := text "NFQWS_ARGS=--dpi-desync=fake\nTCP_PORTS=80\r\n"

theorem returnTextDiffers : validateNfqwsCandidate returnText none = [] ∧
    (parseCandidate returnText).values.lookup (text "TCP_PORTS") = some (text "80") ∧
    (source bareShell returnText).shell.vars (text "TCP_PORTS") = some (text "80\r") ∧
    ¬∀ name value, (parseCandidate returnText).values.lookup name = some value →
      (source bareShell returnText).shell.vars name = some value := by
  have parsed : (parseCandidate returnText).values.lookup (text "TCP_PORTS") = some (text "80") := by decide +kernel
  have sourced : (source bareShell returnText).shell.vars (text "TCP_PORTS") = some (text "80\r") := by decide +kernel
  refine ⟨by decide +kernel,parsed,sourced,fun all => ?_⟩
  have same := all (text "TCP_PORTS") (text "80") parsed
  rw [sourced] at same
  exact absurd same (by decide)

end KeenPbr
