import Mathlib.Algebra.Order.Ring.Int
import Mathlib.Data.List.Basic

/-! Sourcing a text in a POSIX shell, one character at a time, as the standard's token
recognition reads it: quoting, line continuation, comments, assignment words, parameter and
tilde expansion. What goes past assignments (a command, a substitution, syntax this model does
not follow) is an effect and ends the run. Nothing here names a program. -/
namespace KeenPbr.PosixShell

/- `param` is what the one-character parameters ($1, $?, $$ and so on) expand to, `home` what a
tilde-prefix of that login name does. Options are at their defaults. -/
structure Shell where
  vars : List Char → Option (List Char)
  readonly : List Char → Bool
  param : Char → List Char
  home : List Char → Option (List Char)

def Shell.inherited (vars : List Char → Option (List Char)) (param : Char → List Char)
    (home : List Char → Option (List Char)) : Shell := ⟨vars,fun _ => false,param,home⟩

def Shell.expand (sh : Shell) (name : List Char) : List Char := (sh.vars name).getD []

def Shell.assign (sh : Shell) (name value : List Char) : Shell :=
  { sh with vars := fun other => if other = name then some value else sh.vars other }

inductive Effect where
  | assign (name value : List Char)
  | readonlyRefused (name : List Char)
  | command (word : List Char)
  | substitution
  | beyond
  deriving DecidableEq, Repr

inductive Quoting where
  | none
  | single
  | double
  deriving DecidableEq, Repr

/- What has been read of an expansion whose end is not known yet. At `tildeSpot` an unquoted
tilde would open a tilde-prefix. -/
inductive Pending where
  | none
  | tildeSpot
  | tilde (login : List Char)
  | dollar
  | name (n : List Char)
  | brace
  | braceName (n : List Char)
  deriving DecidableEq, Repr

structure Value where
  name : List Char
  quoting : Quoting := .none
  acc : List Char := []
  pending : Pending := .none
  deriving DecidableEq, Repr

inductive Mode where
  | start
  | word (n : List Char)
  | value (v : Value)
  | after (name value : List Char)
  | comment (assignment : Option (List Char × List Char))
  | command (w : List Char)
  | stopped
  deriving DecidableEq, Repr

structure Session where
  shell : Shell
  effects : List Effect := []
  mode : Mode := .start
  backslash : Bool := false

def isBlank (c : Char) : Bool := c == ' ' || c == '\t'

def isDigit (c : Char) : Bool := '0' ≤ c && c ≤ '9'

def isNameStart (c : Char) : Bool := ('a' ≤ c && c ≤ 'z') || ('A' ≤ c && c ≤ 'Z') || c == '_'

def isNameChar (c : Char) : Bool := ('a' ≤ c && c ≤ 'z') || ('A' ≤ c && c ≤ 'Z') || ('0' ≤ c && c ≤ '9') || c == '_'

def isSpecialParameter (c : Char) : Bool :=
  c == '@' || c == '*' || c == '#' || c == '?' || c == '-' || c == '$' || c == '!'

def isOperator (c : Char) : Bool := c == ';' || c == '&' || c == '|' || c == '<' || c == '>' || c == '(' || c == ')'

def isSpecial (c : Char) : Bool := isOperator c || c == '\'' || c == '"' || c == '$' || c == '\x60'

def Session.stop (s : Session) (effect : Effect) : Session :=
  { s with effects := s.effects ++ [effect], mode := .stopped }

def Session.enter (s : Session) (mode : Mode) : Session := { s with mode }

def Session.assign (s : Session) (name value : List Char) : Session :=
  if s.shell.readonly name then s.stop (.readonlyRefused name)
  else { s with
    shell := s.shell.assign name value, effects := s.effects ++ [.assign name value], mode := .start }

def Value.literal (sh : Shell) (v : Value) : List Char :=
  match v.pending with
  | .none => v.acc
  | .tildeSpot => v.acc
  | .tilde login => v.acc ++ '~' :: login
  | .dollar => v.acc ++ ['$']
  | .name n => v.acc ++ sh.expand n
  | .brace => v.acc ++ ['$','\x7b']
  | .braceName n => v.acc ++ ['$','\x7b'] ++ n

def Value.ended (sh : Shell) (v : Value) : List Char :=
  match v.pending with
  | .tilde login => v.acc ++ (sh.home login).getD ('~' :: login)
  | _ => v.literal sh

def Value.inBraces (v : Value) : Bool :=
  match v.pending with
  | .brace => true
  | .braceName _ => true
  | _ => false

def Value.took (v : Value) (acc : List Char) (pending : Pending := .none) : Mode :=
  .value { v with acc, pending }

def Session.unquoted (s : Session) (v : Value) (c : Char) (tildeSpot : Bool) : Session :=
  if c == '\n' then s.assign v.name v.acc
  else if isBlank c then s.enter (.after v.name v.acc)
  else if c == '\'' then s.enter (.value { v with quoting := .single, pending := .none })
  else if c == '"' then s.enter (.value { v with quoting := .double, pending := .none })
  else if c == '$' then s.enter (v.took v.acc .dollar)
  else if c == '\x60' then s.stop .substitution
  else if isOperator c then s.stop .beyond
  else if c == '~' && tildeSpot then s.enter (v.took v.acc (.tilde []))
  else if c == ':' then s.enter (v.took (v.acc ++ [':']) .tildeSpot)
  else s.enter (v.took (v.acc ++ [c]))

def Session.doubleQuoted (s : Session) (v : Value) (c : Char) : Session :=
  if c == '"' then s.enter (.value { v with quoting := .none, pending := .none })
  else if c == '$' then s.enter (v.took v.acc .dollar)
  else if c == '\x60' then s.stop .substitution
  else s.enter (v.took (v.acc ++ [c]))

def Session.base (s : Session) (v : Value) (c : Char) (tildeSpot : Bool := false) : Session :=
  match v.quoting with
  | .none => s.unquoted v c tildeSpot
  | .double => s.doubleQuoted v c
  | .single =>
    if c == '\'' then s.enter (.value { v with quoting := .none, pending := .none })
    else s.enter (v.took (v.acc ++ [c]))

/- The character after a dollar. What the standard leaves unspecified stays a literal dollar, but
an unquoted dollar before a quote is the standard's newer quoting form and is not followed. -/
def Session.afterDollar (s : Session) (v : Value) (c : Char) : Session :=
  if c == '(' then s.stop .substitution
  else if c == '\x7b' then s.enter (v.took v.acc .brace)
  else if isNameStart c then s.enter (v.took v.acc (.name [c]))
  else if isDigit c || isSpecialParameter c then s.enter (v.took (v.acc ++ s.shell.param c))
  else if v.quoting == .none && (c == '\'' || c == '"') then s.stop .beyond
  else s.base { v with acc := v.acc ++ ['$'], pending := .none } c

def Session.afterTilde (s : Session) (v : Value) (login : List Char) (c : Char) : Session :=
  if c == '\'' || c == '"' || c == '$' || c == '\x60' then
    s.base { v with acc := v.acc ++ '~' :: login, pending := .none } c
  else if c == '/' || c == ':' || c == '\n' || isBlank c || isOperator c then
    s.base { v with acc := v.acc ++ (s.shell.home login).getD ('~' :: login), pending := .none } c
  else s.enter (v.took v.acc (.tilde (login ++ [c])))

def Session.plainValue (s : Session) (v : Value) (c : Char) : Session :=
  match v.pending with
  | .none => s.base v c
  | .tildeSpot => s.base v c true
  | .tilde login => s.afterTilde v login c
  | .dollar => s.afterDollar v c
  | .name n =>
    if isNameChar c then s.enter (v.took v.acc (.name (n ++ [c])))
    else s.base { v with acc := v.acc ++ s.shell.expand n, pending := .none } c
  | .brace => if isNameStart c then s.enter (v.took v.acc (.braceName [c])) else s.stop .beyond
  | .braceName n =>
    if isNameChar c then s.enter (v.took v.acc (.braceName (n ++ [c])))
    else if c == '\x7d' then s.enter (v.took (v.acc ++ s.shell.expand n))
    else s.stop .beyond

/- A word in command position that is no assignment. Its arguments are not followed. -/
def Session.plainCommand (s : Session) (w : List Char) (c : Char) : Session :=
  if c == '\n' then s.stop (.command w)
  else if isBlank c || isSpecial c then s.stop .beyond
  else s.enter (.command (w ++ [c]))

def Session.plain (s : Session) (c : Char) : Session :=
  match s.mode with
  | .start =>
    if isBlank c || c == '\n' then s
    else if c == '#' then s.enter (.comment none)
    else if isNameStart c then s.enter (.word [c])
    else s.plainCommand [] c
  | .word n =>
    if isNameChar c then s.enter (.word (n ++ [c]))
    else if c == '=' then s.enter (.value { name := n, pending := .tildeSpot })
    else s.plainCommand n c
  | .value v => s.plainValue v c
  | .after name value =>
    if isBlank c then s
    else if c == '\n' then s.assign name value
    else if c == '#' then s.enter (.comment (some (name,value)))
    else if isNameStart c then s.stop .beyond
    else s.plainCommand [] c
  | .comment assignment =>
    if c == '\n' then
      match assignment with
      | none => s.enter .start
      | some (name,value) => s.assign name value
    else s
  | .command w => s.plainCommand w c
  | .stopped => s

def Session.escaped (s : Session) (c : Char) : Session :=
  match s.mode with
  | .value v =>
    if v.inBraces then s.stop .beyond
    else
      match v.quoting with
      | .double =>
        if c == '$' || c == '\x60' || c == '"' || c == '\\' then s.enter (v.took (v.literal s.shell ++ [c]))
        else s.enter (v.took (v.literal s.shell ++ ['\\',c]))
      | _ => s.enter (v.took (v.literal s.shell ++ [c]))
  | .stopped => s
  | _ => s.stop .beyond

def Mode.takesBackslash : Mode → Bool
  | .value v => v.quoting != .single
  | .comment _ => false
  | .stopped => false
  | _ => true

def Session.feed (s : Session) (c : Char) : Session :=
  if s.backslash then
    if c == '\n' then { s with backslash := false } else ({ s with backslash := false } : Session).escaped c
  else if c == '\\' && s.mode.takesBackslash then { s with backslash := true }
  else s.plain c

def Session.trailing (s : Session) : Session :=
  if !s.backslash then s
  else
    match s.mode with
    | .value v =>
      if v.inBraces || v.quoting != .none then s.stop .beyond
      else { s.enter (v.took (v.literal s.shell ++ ['\\'])) with backslash := false }
    | .stopped => s
    | _ => s.stop .beyond

def Session.finish (state : Session) : Session :=
  let s := state.trailing
  match s.mode with
  | .start => s
  | .word n => s.stop (.command n)
  | .value v =>
    if v.inBraces || v.quoting != .none then s.stop .beyond else s.assign v.name (v.ended s.shell)
  | .after name value => s.assign name value
  | .comment none => s.enter .start
  | .comment (some (name,value)) => s.assign name value
  | .command w => s.stop (.command w)
  | .stopped => s

def source (sh : Shell) (content : List Char) : Session :=
  if content.contains '\x00' then ({ shell := sh } : Session).stop .beyond
  else (content.foldl Session.feed { shell := sh }).finish

section Steps
variable {s : Session} {v : Value} {c : Char}

theorem feedPlain (quiet : s.backslash = false) (data : c ≠ '\\') : s.feed c = s.plain c := by
  simp [Session.feed,quiet,data]

theorem feedEntered {m : Mode} (quiet : s.backslash = false) (data : c ≠ '\\') :
    (s.enter m).feed c = (s.enter m).plain c := feedPlain (s := s.enter m) quiet data

theorem feedVerbatim (quiet : s.backslash = false) (takes : s.mode.takesBackslash = false) : s.feed c = s.plain c := by
  simp [Session.feed,quiet,takes]

theorem feedEscaped (quiet : s.backslash = false) (takes : s.mode.takesBackslash = true) (other : c ≠ '\n') :
    (s.feed '\\').feed c = s.escaped c := by
  cases s
  simp_all [Session.feed]

theorem feedContinuation (quiet : s.backslash = false) (takes : s.mode.takesBackslash = true) :
    (s.feed '\\').feed '\n' = s := by
  cases s
  simp_all [Session.feed]

def isData (c : Char) : Bool := c != '\n' && !isBlank c && !isSpecial c && c != '\\'

theorem dataCases (data : isData c = true) :
    c ≠ '\n' ∧ isBlank c = false ∧ isOperator c = false ∧ c ≠ '\'' ∧ c ≠ '"' ∧ c ≠ '$' ∧ c ≠ '\x60' ∧ c ≠ '\\' := by
  simp only [isData,isSpecial,Bool.and_eq_true,bne_iff_ne,Bool.not_eq_true',Bool.or_eq_false_iff,beq_eq_false_iff_ne] at data
  tauto

def Value.Open (v : Value) : Prop :=
  match v.quoting,v.pending with
  | .none,.brace => False
  | .none,.braceName _ => False
  | .none,_ => True
  | .double,.none => True
  | .double,.dollar => True
  | .double,.name _ => True
  | .double,_ => False
  | .single,.none => True
  | .single,_ => False

def Value.Free (v : Value) (next : Option Char) : Prop :=
  match v.pending with
  | .tildeSpot => next ≠ some '~'
  | .tilde _ => False
  | .dollar => ∀ c, next = some c → isNameStart c = false ∧ isDigit c = false ∧ isSpecialParameter c = false
  | .name _ => ∀ c, next = some c → isNameChar c = false
  | _ => True

theorem openNotBraces (h : v.Open) : v.inBraces = false := by
  unfold Value.Open at h
  unfold Value.inBraces
  cases q : v.quoting <;> cases p : v.pending <;> simp_all

theorem unquotedData (data : isData c = true) (spot : Bool) (untilde : spot = true → c ≠ '~') :
    ∃ pending, s.unquoted v c spot = s.enter (v.took (v.acc ++ [c]) pending) ∧
      (pending = .none ∨ c = ':' ∧ pending = .tildeSpot) := by
  obtain ⟨h1,h2,h3,h4,h5,h6,h7,_⟩ := dataCases data
  have tilde : (c == '~' && spot) = false := by
    cases spot with
    | false => simp
    | true => simpa using untilde rfl
  by_cases colon : c = ':'
  · exact ⟨.tildeSpot,by simp [Session.unquoted,colon,isBlank,isOperator],.inr ⟨colon,rfl⟩⟩
  · exact ⟨.none,by simp [Session.unquoted,h1,h2,h3,h4,h5,h6,h7,tilde,colon],.inl rfl⟩

theorem plainData (opened : v.Open) (bare : v.quoting = .none) (data : isData c = true)
    (dollar : v.pending = .dollar → c ≠ '\x7b') :
    ∃ v', s.plainValue v c = s.enter (.value v') ∧ v'.name = v.name ∧ v'.quoting = .none ∧ v'.Open ∧
      v'.pending ≠ .dollar ∧ (v.Free (some c) → v'.literal s.shell = v.literal s.shell ++ [c] ∧
        (v'.pending = .none ∨ c = ':' ∧ v'.pending = .tildeSpot)) := by
  obtain ⟨name,quoting,acc,pending⟩ := v
  obtain rfl : quoting = .none := bare
  obtain ⟨h1,h2,h3,h4,h5,h6,h7,_⟩ := dataCases data
  -- what `unquoted` leaves behind once the pending part is text
  have ends : ∀ (base : List Char) (spot : Bool), (spot = true → c ≠ '~') →
      ∃ v', s.unquoted ⟨name,.none,base,.none⟩ c spot = s.enter (.value v') ∧ v'.name = name ∧ v'.quoting = .none ∧
        v'.Open ∧ v'.pending ≠ .dollar ∧ v'.literal s.shell = base ++ [c] ∧
        (v'.pending = .none ∨ c = ':' ∧ v'.pending = .tildeSpot) := by
    intro base spot untilde
    obtain ⟨after,step,shape⟩ := unquotedData (s := s) (v := ⟨name,.none,base,.none⟩) data spot untilde
    refine ⟨⟨name,.none,base ++ [c],after⟩,step,rfl,rfl,?_,?_,?_,shape⟩
    · rcases shape with rfl | ⟨_,rfl⟩ <;> trivial
    · rcases shape with rfl | ⟨_,rfl⟩ <;> nofun
    · rcases shape with rfl | ⟨_,rfl⟩ <;> rfl
  cases pending with
  | none =>
    obtain ⟨v',step,named,unq,open',notDollar,value,shape⟩ := ends acc false nofun
    exact ⟨v',step,named,unq,open',notDollar,fun _ => ⟨value,shape⟩⟩
  | tildeSpot =>
    by_cases tilde : c = '~'
    · refine ⟨⟨name,.none,acc,.tilde []⟩,?_,rfl,rfl,trivial,nofun,fun free => absurd (congrArg some tilde) free⟩
      subst tilde
      rfl
    · obtain ⟨v',step,named,unq,open',notDollar,value,shape⟩ := ends acc true fun _ => tilde
      exact ⟨v',step,named,unq,open',notDollar,fun _ => ⟨value,shape⟩⟩
  | tilde login =>
    by_cases stops : c = '/' ∨ c = ':'
    · obtain ⟨v',step,named,unq,open',notDollar,_,_⟩ :=
        ends (acc ++ (s.shell.home login).getD ('~' :: login)) false nofun
      refine ⟨v',?_,named,unq,open',notDollar,fun no => no.elim⟩
      have ending : (c == '/' || c == ':') = true := by simpa using stops
      simp [Session.plainValue,Session.afterTilde,Session.base,h4,h5,h6,h7,ending,← step]
    · refine ⟨⟨name,.none,acc,.tilde (login ++ [c])⟩,?_,rfl,rfl,trivial,nofun,fun no => no.elim⟩
      simp only [not_or] at stops
      simp [Session.plainValue,Session.afterTilde,h1,h2,h3,h4,h5,h6,h7,stops.1,stops.2,Value.took]
  | dollar =>
    have notParen : c ≠ '(' := by rintro rfl; simp [isOperator] at h3
    by_cases start : isNameStart c = true
    · refine ⟨⟨name,.none,acc,.name [c]⟩,?_,rfl,rfl,trivial,nofun,fun free => ?_⟩
      · simp [Session.plainValue,Session.afterDollar,notParen,dollar rfl,start,Value.took]
      · rw [(free c rfl).1] at start; cases start
    · by_cases param : (isDigit c || isSpecialParameter c) = true
      · refine ⟨⟨name,.none,acc ++ s.shell.param c,.none⟩,?_,rfl,rfl,trivial,nofun,fun free => ?_⟩
        · simp [Session.plainValue,Session.afterDollar,notParen,dollar rfl,start,param,Value.took]
        · simp [(free c rfl).2.1,(free c rfl).2.2] at param
      · obtain ⟨v',step,named,unq,open',notDollar,value,shape⟩ := ends (acc ++ ['$']) false nofun
        refine ⟨v',?_,named,unq,open',notDollar,fun _ => ⟨value,shape⟩⟩
        simp [Session.plainValue,Session.afterDollar,Session.base,notParen,dollar rfl,start,param,h4,h5,← step]
  | name n =>
    by_cases more : isNameChar c = true
    · refine ⟨⟨name,.none,acc,.name (n ++ [c])⟩,?_,rfl,rfl,trivial,nofun,fun free => ?_⟩
      · simp [Session.plainValue,more,Value.took]
      · rw [free c rfl] at more; cases more
    · obtain ⟨v',step,named,unq,open',notDollar,value,shape⟩ := ends (acc ++ s.shell.expand n) false nofun
      refine ⟨v',?_,named,unq,open',notDollar,fun _ => ⟨value,shape⟩⟩
      simp [Session.plainValue,Session.base,more,← step]
  | brace | braceName => exact opened.elim

theorem doubleData (opened : v.Open) (quoted : v.quoting = .double) (h1 : c ≠ '"') (h2 : c ≠ '$') (h3 : c ≠ '\x60')
    (dollar : v.pending = .dollar → c ≠ '(' ∧ c ≠ '\x7b') :
    ∃ v', s.plainValue v c = s.enter (.value v') ∧ v'.name = v.name ∧ v'.quoting = .double ∧ v'.Open ∧
      v'.pending ≠ .dollar ∧
      (v.Free (some c) → v'.literal s.shell = v.literal s.shell ++ [c] ∧ v'.pending = .none) := by
  obtain ⟨name,quoting,acc,pending⟩ := v
  obtain rfl : quoting = .double := quoted
  cases pending with
  | none =>
    refine ⟨⟨name,.double,acc ++ [c],.none⟩,?_,rfl,rfl,trivial,nofun,fun _ => ⟨rfl,rfl⟩⟩
    simp [Session.plainValue,Session.base,Session.doubleQuoted,h1,h2,h3,Value.took]
  | dollar =>
    obtain ⟨notParen,notBrace⟩ := dollar rfl
    by_cases start : isNameStart c = true
    · refine ⟨⟨name,.double,acc,.name [c]⟩,?_,rfl,rfl,trivial,nofun,fun free => ?_⟩
      · simp [Session.plainValue,Session.afterDollar,notParen,notBrace,start,Value.took]
      · rw [(free c rfl).1] at start; cases start
    · by_cases param : (isDigit c || isSpecialParameter c) = true
      · refine ⟨⟨name,.double,acc ++ s.shell.param c,.none⟩,?_,rfl,rfl,trivial,nofun,fun free => ?_⟩
        · simp [Session.plainValue,Session.afterDollar,notParen,notBrace,start,param,Value.took]
        · simp [(free c rfl).2.1,(free c rfl).2.2] at param
      · refine ⟨⟨name,.double,acc ++ ['$'] ++ [c],.none⟩,?_,rfl,rfl,trivial,nofun,fun _ => ⟨rfl,rfl⟩⟩
        simp [Session.plainValue,Session.afterDollar,Session.base,Session.doubleQuoted,notParen,notBrace,start,param,h1,h2,
          h3,Value.took]
  | name n =>
    by_cases more : isNameChar c = true
    · refine ⟨⟨name,.double,acc,.name (n ++ [c])⟩,?_,rfl,rfl,trivial,nofun,fun free => ?_⟩
      · simp [Session.plainValue,more,Value.took]
      · rw [free c rfl] at more; cases more
    · refine ⟨⟨name,.double,acc ++ s.shell.expand n ++ [c],.none⟩,?_,rfl,rfl,trivial,nofun,fun _ => ⟨rfl,rfl⟩⟩
      simp [Session.plainValue,Session.base,Session.doubleQuoted,more,h1,h2,h3,Value.took]
  | tildeSpot | tilde | brace | braceName => exact opened.elim

theorem plainQuote (opened : v.Open) (bare : v.quoting = .none) (dollar : v.pending ≠ .dollar) :
    s.plainValue v '\'' = s.enter (.value ⟨v.name,.single,v.literal s.shell,.none⟩) ∧
    s.plainValue v '"' = s.enter (.value ⟨v.name,.double,v.literal s.shell,.none⟩) := by
  obtain ⟨name,quoting,acc,pending⟩ := v
  obtain rfl : quoting = .none := bare
  cases pending with
  | none | tildeSpot | tilde => exact ⟨rfl,rfl⟩
  | dollar => exact absurd rfl dollar
  | name n => exact ⟨rfl,rfl⟩
  | brace | braceName => exact opened.elim

theorem plainNewline (opened : v.Open) (bare : v.quoting = .none) :
    s.plainValue v '\n' = s.assign v.name (v.ended s.shell) := by
  obtain ⟨name,quoting,acc,pending⟩ := v
  obtain rfl : quoting = .none := bare
  cases pending with
  | none | tildeSpot | tilde | dollar | name => rfl
  | brace | braceName => exact opened.elim

theorem plainBlank (opened : v.Open) (bare : v.quoting = .none) (blank : isBlank c = true) :
    s.plainValue v c = s.enter (.after v.name (v.ended s.shell)) := by
  obtain ⟨name,quoting,acc,pending⟩ := v
  obtain rfl : quoting = .none := bare
  have which : c = ' ' ∨ c = '\t' := by simpa [isBlank] using blank
  cases pending with
  | brace | braceName => exact opened.elim
  | none | tildeSpot | tilde | dollar | name => rcases which with rfl | rfl <;> rfl

theorem freeEnded {next : Option Char} (free : v.Free next) (sh : Shell) : v.ended sh = v.literal sh := by
  obtain ⟨name,quoting,acc,pending⟩ := v
  cases pending with
  | tilde login => exact free.elim
  | none | tildeSpot | dollar | name | brace | braceName => rfl

theorem plainDollar (opened : v.Open) (expands : v.quoting ≠ .single) :
    (v.pending ≠ .dollar → s.plainValue v '$' = s.enter (.value ⟨v.name,v.quoting,v.literal s.shell,.dollar⟩)) ∧
    (v.pending = .dollar → s.plainValue v '$' = s.enter (.value ⟨v.name,v.quoting,v.acc ++ s.shell.param '$',.none⟩)) := by
  obtain ⟨name,quoting,acc,pending⟩ := v
  cases quoting with
  | single => exact absurd rfl expands
  | none =>
    cases pending with
    | brace | braceName => exact opened.elim
    | dollar => exact ⟨fun no => absurd rfl no,fun _ => rfl⟩
    | none | tildeSpot | tilde | name => exact ⟨fun _ => rfl,nofun⟩
  | double =>
    cases pending with
    | dollar => exact ⟨fun no => absurd rfl no,fun _ => rfl⟩
    | none | name => exact ⟨fun _ => rfl,nofun⟩
    | tildeSpot | tilde | brace | braceName => exact opened.elim

theorem closeDouble (opened : v.Open) (quoted : v.quoting = .double) :
    s.plainValue v '"' = s.enter (.value ⟨v.name,.none,v.literal s.shell,.none⟩) := by
  obtain ⟨name,quoting,acc,pending⟩ := v
  obtain rfl : quoting = .double := quoted
  cases pending with
  | none | dollar | name => rfl
  | tildeSpot | tilde | brace | braceName => exact opened.elim

theorem singleData (opened : v.Open) (quoted : v.quoting = .single) :
    s.plainValue v c = if c == '\'' then s.enter (.value ⟨v.name,.none,v.literal s.shell,.none⟩)
      else s.enter (.value ⟨v.name,.single,v.literal s.shell ++ [c],.none⟩) := by
  obtain ⟨name,quoting,acc,pending⟩ := v
  obtain rfl : quoting = .single := quoted
  cases pending with
  | none => rfl
  | dollar | name | tildeSpot | tilde | brace | braceName => exact opened.elim

theorem escapedValue (mode : s.mode = .value v) (opened : v.Open) :
    s.escaped c = s.enter (.value ⟨v.name,v.quoting,v.literal s.shell ++
      (if v.quoting = .double ∧ ¬(c = '$' ∨ c = '\x60' ∨ c = '"' ∨ c = '\\') then ['\\',c] else [c]),.none⟩) := by
  have outside := openNotBraces opened
  cases q : v.quoting with
  | none | single => simp [Session.escaped,mode,outside,q,Value.took]
  | double =>
    by_cases special : c = '$' ∨ c = '\x60' ∨ c = '"' ∨ c = '\\'
    · simp [Session.escaped,mode,outside,q,special,Value.took,or_assoc]
    · simp [Session.escaped,mode,outside,q,special,Value.took,or_assoc]

end Steps

/- Whole stretches of text. -/

section Stretches
variable {s : Session} {v : Value}

theorem feedStays {p : Char → Prop} (stays : ∀ c, p c → s.feed c = s) :
    ∀ stretch : List Char, (∀ c ∈ stretch, p c) → stretch.foldl Session.feed s = s
  | [], _ => rfl
  | c :: rest, all => by
    rw [List.foldl_cons,stays c (all c (by simp))]
    exact feedStays stays rest fun d mem => all d (by simp [mem])

theorem blankNotBackslash {c : Char} (h : isBlank c = true) : c ≠ '\\' := by
  rintro rfl
  simp [isBlank] at h

theorem feedStartBlanks (quiet : s.backslash = false) (mode : s.mode = .start) (blanks : List Char)
    (all : ∀ c ∈ blanks, isBlank c = true) : blanks.foldl Session.feed s = s := by
  refine feedStays (fun c blank => ?_) blanks all
  simp [feedPlain quiet (blankNotBackslash blank),Session.plain,mode,blank]

theorem feedAfterBlanks {name value : List Char} (quiet : s.backslash = false) (mode : s.mode = .after name value)
    (blanks : List Char) (all : ∀ c ∈ blanks, isBlank c = true) : blanks.foldl Session.feed s = s := by
  refine feedStays (fun c blank => ?_) blanks all
  simp [feedPlain quiet (blankNotBackslash blank),Session.plain,mode,blank]

theorem feedComment {assignment : Option (List Char × List Char)} (quiet : s.backslash = false)
    (mode : s.mode = .comment assignment) (line : List Char) (inside : ∀ c ∈ line, c ≠ '\n') :
    line.foldl Session.feed s = s := by
  refine feedStays (fun c other => ?_) line inside
  rw [feedVerbatim quiet (by simp [mode,Mode.takesBackslash])]
  simp [Session.plain,mode,other]

theorem nameCharNotBackslash {c : Char} (h : isNameChar c = true) : c ≠ '\\' := by
  rintro rfl
  simp [isNameChar] at h

theorem feedGrows (quiet : s.backslash = false) (grown : List Char → Mode)
    (grows : ∀ n c, isNameChar c = true → (s.enter (grown n)).plain c = s.enter (grown (n ++ [c]))) :
    ∀ more n : List Char, (∀ c ∈ more, isNameChar c = true) →
      more.foldl Session.feed (s.enter (grown n)) = s.enter (grown (n ++ more))
  | [], n, _ => by simp
  | c :: rest, n, all => by
    have named := all c (by simp)
    have step : (s.enter (grown n)).feed c = s.enter (grown (n ++ [c])) := by
      rw [feedEntered quiet (nameCharNotBackslash named)]
      exact grows n c named
    rw [List.foldl_cons,step,feedGrows quiet grown grows rest (n ++ [c]) fun d mem => all d (by simp [mem])]
    simp

theorem feedWord (quiet : s.backslash = false) (more n : List Char) (all : ∀ c ∈ more, isNameChar c = true) :
    more.foldl Session.feed (s.enter (.word n)) = s.enter (.word (n ++ more)) := by
  refine feedGrows quiet .word (fun n c named => ?_) more n all
  simp [Session.plain,Session.enter,named]

theorem feedName (quiet : s.backslash = false) (more n : List Char) (all : ∀ c ∈ more, isNameChar c = true) :
    more.foldl Session.feed (s.enter (v.took v.acc (.name n))) = s.enter (v.took v.acc (.name (n ++ more))) := by
  refine feedGrows quiet (fun n => v.took v.acc (.name n)) (fun n c named => ?_) more n all
  simp [Session.plain,Session.plainValue,Session.enter,Value.took,named]

theorem feedBraceName (quiet : s.backslash = false) (more n : List Char) (all : ∀ c ∈ more, isNameChar c = true) :
    more.foldl Session.feed (s.enter (v.took v.acc (.braceName n))) =
      s.enter (v.took v.acc (.braceName (n ++ more))) := by
  refine feedGrows quiet (fun n => v.took v.acc (.braceName n)) (fun n c named => ?_) more n all
  simp [Session.plain,Session.plainValue,Session.enter,Value.took,named]

theorem startIsNameChar {c : Char} (h : isNameStart c = true) : isNameChar c = true := by
  simp only [isNameStart,isNameChar,Bool.or_eq_true] at *
  tauto

theorem nameCharIsData {c : Char} (h : isNameChar c = true) :
    isData c = true ∧ c ≠ '(' ∧ c ≠ '"' ∧ c ≠ '$' ∧ c ≠ '\x60' ∧ c ≠ '\x7b' := by
  have differs : ∀ d, isNameChar d = false → c ≠ d := fun d no same => by simp [← same,h] at no
  have word : c ≠ '\n' ∧ c ≠ ' ' ∧ c ≠ '\t' ∧ c ≠ '\\' := ⟨differs _ rfl,differs _ rfl,differs _ rfl,differs _ rfl⟩
  have operator : isOperator c = false := by
    simp [isOperator,differs ';' rfl,differs '&' rfl,differs '|' rfl,differs '<' rfl,differs '>' rfl,differs '(' rfl,
      differs ')' rfl]
  refine ⟨?_,differs _ rfl,differs _ rfl,differs _ rfl,differs _ rfl,differs _ rfl⟩
  simp [isData,isBlank,isSpecial,word,operator,differs '\'' rfl,differs '"' rfl,differs '$' rfl,differs '\x60' rfl]

theorem feedDollarName {name acc more : List Char} {quoting : Quoting} {c : Char} (quiet : s.backslash = false)
    (starts : isNameStart c = true) (all : ∀ d ∈ more, isNameChar d = true) :
    (c :: more).foldl Session.feed (s.enter (.value ⟨name,quoting,acc,.dollar⟩)) =
      s.enter (.value ⟨name,quoting,acc,.name (c :: more)⟩) := by
  obtain ⟨_,notParen,_,_,_,notBrace⟩ := nameCharIsData (startIsNameChar starts)
  have first : (s.enter (.value ⟨name,quoting,acc,.dollar⟩)).feed c = s.enter (.value ⟨name,quoting,acc,.name [c]⟩) := by
    rw [feedEntered quiet (nameCharNotBackslash (startIsNameChar starts))]
    simp [Session.plain,Session.plainValue,Session.afterDollar,Session.enter,Value.took,starts,notParen,notBrace]
  rw [List.foldl_cons,first]
  exact feedName (v := ⟨name,quoting,acc,.none⟩) quiet more [c] all

theorem feedDollarBraces {name acc more : List Char} {quoting : Quoting} {c : Char} (quiet : s.backslash = false)
    (starts : isNameStart c = true) (all : ∀ d ∈ more, isNameChar d = true) :
    ('\x7b' :: c :: more ++ ['\x7d']).foldl Session.feed (s.enter (.value ⟨name,quoting,acc,.dollar⟩)) =
      s.enter (.value ⟨name,quoting,acc ++ s.shell.expand (c :: more),.none⟩) := by
  have opens : (s.enter (.value ⟨name,quoting,acc,.dollar⟩)).feed '\x7b' = s.enter (.value ⟨name,quoting,acc,.brace⟩) := by
    rw [feedEntered quiet (by decide)]
    rfl
  have first : (s.enter (.value ⟨name,quoting,acc,.brace⟩)).feed c =
      s.enter (.value ⟨name,quoting,acc,.braceName [c]⟩) := by
    rw [feedEntered quiet (nameCharNotBackslash (startIsNameChar starts))]
    simp [Session.plain,Session.plainValue,Session.enter,Value.took,starts]
  have closes : (s.enter (.value ⟨name,quoting,acc,.braceName (c :: more)⟩)).feed '\x7d' =
      s.enter (.value ⟨name,quoting,acc ++ s.shell.expand (c :: more),.none⟩) := by
    rw [feedEntered quiet (by decide)]
    rfl
  have inside := feedBraceName (v := ⟨name,quoting,acc,.none⟩) quiet more [c] all
  simp only [List.cons_append,List.foldl_cons,List.foldl_append,List.foldl_nil,opens,first]
  exact (congrArg (Session.feed · '\x7d') inside).trans closes

theorem feedInert {p : Char → Prop} (inert : ∀ c, p c → isData c = true ∧ c ≠ '"' ∧ c ≠ '$' ∧ c ≠ '\x60')
    (quiet : s.backslash = false) : ∀ (stretch : List Char) (v : Value), v.Open → v.quoting ≠ .single →
      (v.pending = .dollar → ∀ c, stretch.head? = some c → c ≠ '(' ∧ c ≠ '\x7b') → (∀ c ∈ stretch, p c) →
      ∃ v', stretch.foldl Session.feed (s.enter (.value v)) = s.enter (.value v') ∧ v'.name = v.name ∧
        v'.quoting = v.quoting ∧ v'.Open ∧ (v.pending ≠ .dollar → v'.pending ≠ .dollar)
  | [], v, opened, _, _, _ => ⟨v,rfl,rfl,rfl,opened,id⟩
  | c :: rest, v, opened, expands, dollar, all => by
    obtain ⟨data,h1,h2,h3⟩ := inert c (all c (by simp))
    have plain : (s.enter (.value v)).feed c = (s.enter (.value v)).plainValue v c :=
      feedEntered quiet (dataCases data).2.2.2.2.2.2.2
    have step : ∃ v', (s.enter (.value v)).plainValue v c = s.enter (.value v') ∧ v'.name = v.name ∧
        v'.quoting = v.quoting ∧ v'.Open ∧ v'.pending ≠ .dollar := by
      cases q : v.quoting with
      | single => exact absurd q expands
      | none =>
        obtain ⟨v',step,named,bare,open',notDollar,_⟩ :=
          plainData (s := s.enter (.value v)) opened q data fun pending => (dollar pending c rfl).2
        exact ⟨v',step,named,bare,open',notDollar⟩
      | double =>
        obtain ⟨v',step,named,quoted,open',notDollar,_⟩ :=
          doubleData (s := s.enter (.value v)) opened q h1 h2 h3 fun pending => dollar pending c rfl
        exact ⟨v',step,named,quoted,open',notDollar⟩
    obtain ⟨v',moved,named,quoting,open',notDollar⟩ := step
    obtain ⟨w,run,named',quoting',openW,notDollarW⟩ :=
      feedInert inert quiet rest v' open' (quoting ▸ expands) (fun pending => absurd pending notDollar)
        fun d mem => all d (by simp [mem])
    refine ⟨w,?_,named'.trans named,quoting'.trans quoting,openW,fun _ => notDollarW notDollar⟩
    rw [List.foldl_cons,plain,moved,run]

end Stretches

def Session.Doomed (s : Session) : Prop :=
  (∃ w, s.mode = .command w) ∨ s.mode = .stopped ∧ ∃ effect ∈ s.effects, ∀ name value, effect ≠ .assign name value

theorem stopDoomed (s : Session) {effect : Effect} (other : ∀ name value, effect ≠ .assign name value) :
    (s.stop effect).Doomed := .inr ⟨rfl,effect,by simp [Session.stop],other⟩

theorem commandDoomed (s : Session) (w : List Char) (c : Char) : (s.plainCommand w c).Doomed := by
  unfold Session.plainCommand
  split
  · exact stopDoomed s nofun
  split
  · exact stopDoomed s nofun
  · exact .inl ⟨w ++ [c],rfl⟩

theorem doomedFeed {s : Session} (c : Char) (h : s.Doomed) : (s.feed c).Doomed := by
  unfold Session.feed
  rcases h with ⟨w,mode⟩ | ⟨mode,stopped⟩
  · split
    · split
      · exact .inl ⟨w,mode⟩
      · simp only [Session.escaped,mode]
        exact stopDoomed _ nofun
    · split
      · exact .inl ⟨w,mode⟩
      · simp only [Session.plain,mode]
        exact commandDoomed s w c
  · split
    · split
      · exact .inr ⟨mode,stopped⟩
      · simp only [Session.escaped,mode]
        exact .inr ⟨rfl,stopped⟩
    · split
      · exact .inr ⟨mode,stopped⟩
      · simp only [Session.plain,mode]
        exact .inr ⟨mode,stopped⟩

theorem doomedRun : ∀ (rest : List Char) {s : Session}, s.Doomed → (rest.foldl Session.feed s).Doomed
  | [], _, h => h
  | c :: rest, _, h => doomedRun rest (doomedFeed c h)

theorem doomedFinish {s : Session} (h : s.Doomed) :
    ∃ effect ∈ s.finish.effects, ∀ name value, effect ≠ .assign name value := by
  have trailing : s.trailing.Doomed := by
    unfold Session.trailing
    split
    · exact h
    · rcases h with ⟨w,mode⟩ | ⟨mode,stopped⟩
      · simp only [mode]
        exact stopDoomed s nofun
      · simp only [mode]
        exact .inr ⟨mode,stopped⟩
  unfold Session.finish
  rcases trailing with ⟨w,mode⟩ | ⟨mode,stopped⟩
  · simp only [mode]
    exact ⟨.command w,by simp [Session.stop],nofun⟩
  · simp only [mode]
    exact stopped

end KeenPbr.PosixShell
