import Mathlib.Algebra.Order.Ring.Int
import Mathlib.Data.List.Basic

/-! util/nfqws_validator.cpp up to parse_candidate. A text is a list of chars, one per byte; the
source's index is the suffix still to be read. The two nested loops are one machine whose step
is one iteration of the loop it is in. -/
namespace KeenPbr

abbrev Text := List Char

def text (s : String) : Text := s.toList

structure ConfigValidationIssue where
  path : String
  message : String
  code : String := ""
  params : List (String × String) := []
  deriving DecidableEq, Repr

/- std::map by name. -/
abbrev Values := List (Text × Text)

def Values.set (values : Values) (name value : Text) : Values :=
  if values.any (fun entry => entry.1 == name) then
    values.map fun entry => if entry.1 == name then (name,value) else entry
  else values ++ [(name,value)]

structure Assignment where
  name : Text
  start : Nat
  stop : Nat
  deriving DecidableEq, Repr

structure ParsedCandidate where
  values : Values := []
  issues : List ConfigValidationIssue := []
  assignments : List Assignment := []
  deriving DecidableEq, Repr

def isAlpha (c : Char) : Bool := ('a' ≤ c && c ≤ 'z') || ('A' ≤ c && c ≤ 'Z')

def isDigit (c : Char) : Bool := '0' ≤ c && c ≤ '9'

def isAlnum (c : Char) : Bool := isAlpha c || isDigit c

def nameStart (c : Char) : Bool := isAlpha c || c == '_'

def nameChar (c : Char) : Bool := isAlnum c || c == '_'

def horizontalSpace (c : Char) : Bool := c == ' ' || c == '\t' || c == '\r'

def supportedNames : List Text :=
  ["CONFIG_VERSION","IPV6_ENABLED","ISP_INTERFACE","LOG_DEBUG_PATH","LOG_LEVEL","MODE_ALL","MODE_AUTO",
    "MODE_LIST","NFQUEUE_NUM","NFQWS_ARGS","NFQWS_ARGS_CUSTOM","NFQWS_ARGS_IPSET","NFQWS_ARGS_QUIC",
    "NFQWS_ARGS_UDP","NFQWS_BASE_ARGS","NFQWS_EXTRA_ARGS","POLICY_EXCLUDE","POLICY_NAME","TCP_PORTS",
    "UDP_PORTS","USER"].map text

def supportedAssignment (name : Text) : Bool := supportedNames.contains name

def skipLine : Text → Text
  | [] => []
  | c :: rest => if c == '\n' then rest else skipLine rest

def parserIssue (parsed : ParsedCandidate) (path message code : String) : ParsedCandidate :=
  { parsed with issues := parsed.issues ++ [{ path, message, code }] }

structure Expansion where
  rest : Text
  output : Text := []
  issue : Option (String × String) := none
  deriving DecidableEq, Repr

def expandName (values : Values) (name rest : Text) : Expansion :=
  match values.lookup name with
  | some value => { rest, output := value }
  | none => { rest, issue := some ("undefined variable $" ++ String.ofList name ++
      " must not depend on the service environment","nfqws.shell.undefined_variable") }

def appendExpansion (values : Values) (tail : Text) : Expansion :=
  match tail with
  | [] => { rest := [], output := ['$'] }
  | c :: after =>
    if c == '(' || c == '\x60' then
      { rest := tail, issue := some ("command substitution is not allowed in an nfqws candidate",
          "nfqws.shell.command_substitution") }
    else if c == '{' then
      if (after.head?.map nameStart).getD false then
        match after.dropWhile nameChar with
        | '}' :: rest => expandName values (after.takeWhile nameChar) rest
        | rest => { rest, issue := some ("only simple $\x7bNAME\x7d expansion is allowed in an nfqws candidate",
            "nfqws.shell.expansion_syntax") }
      else { rest := tail, output := ['$'] }
    else if nameStart c then expandName values (tail.takeWhile nameChar) (tail.dropWhile nameChar)
    else { rest := tail, output := ['$'] }

inductive Quote where
  | none
  | single
  | double
  deriving DecidableEq, Repr

structure Frame where
  name : Text
  start : Nat
  quote : Quote := .none
  value : Text := []
  valid : Bool := true
  rest : Text
  deriving DecidableEq, Repr

inductive Loop where
  | statement (rest : Text) (parsed : ParsedCandidate)
  | value (frame : Frame) (parsed : ParsedCandidate)
  | done (parsed : ParsedCandidate)
  deriving DecidableEq, Repr

def refuseLine (parsed : ParsedCandidate) (path message code : String) (rest : Text) : Loop :=
  .statement (skipLine rest) (parserIssue parsed path message code)

/- One iteration of the outer loop, up to the first character of a value. -/
def stepStatement (size : Nat) (rest : Text) (parsed : ParsedCandidate) : Loop :=
  match rest.dropWhile horizontalSpace with
  | [] => .done parsed
  | c :: tail =>
    if c == '\n' then .statement tail parsed
    else if c == '#' then .statement (skipLine (c :: tail)) parsed
    else if !nameStart c then
      refuseLine parsed "nfqws2.conf" "only shell variable assignments and comments are allowed"
        "nfqws.shell.assignments_only" (c :: tail)
    else
      let name := c :: tail.takeWhile nameChar
      let after := tail.dropWhile nameChar
      if !supportedAssignment name then
        refuseLine parsed (String.ofList name) "unsupported assignment in nfqws2.conf"
          "nfqws.shell.unsupported_assignment" after
      else
        match after with
        | '=' :: begins =>
          if (begins.head?.map horizontalSpace).getD false then
            refuseLine parsed (String.ofList name)
              "whitespace after '=' would execute a shell command instead of assigning the value"
              "nfqws.shell.whitespace_after_equals" begins
          else .value { name, start := size - rest.length, rest := begins } parsed
        | _ =>
          refuseLine parsed (String.ofList name) "only NAME=value assignments are allowed"
            "nfqws.shell.assignment_syntax" after

/- After the value loop. The name was read, so the index has moved past the line's start. -/
def conclude (frame : Frame) (stop : Nat) (rest : Text) (parsed : ParsedCandidate) : Loop :=
  if frame.quote != .none then
    .statement rest (parserIssue parsed (String.ofList frame.name) "unterminated quoted assignment"
      "nfqws.shell.unterminated_quote")
  else if frame.valid then
    .statement rest { parsed with
      values := parsed.values.set frame.name frame.value
      assignments := parsed.assignments ++ [⟨frame.name,frame.start,stop⟩] }
  else .statement rest parsed

def Frame.push (frame : Frame) (rest output : Text) : Frame :=
  { frame with rest, value := frame.value ++ output }

def dollar (frame : Frame) (tail : Text) (parsed : ParsedCandidate) : Loop :=
  let expansion := appendExpansion parsed.values tail
  match expansion.issue with
  | none => .value (frame.push expansion.rest expansion.output) parsed
  | some (message,code) =>
    .value { frame.push expansion.rest expansion.output with valid := false }
      (parserIssue parsed (String.ofList frame.name) message code)

def stepSingle (frame : Frame) (c : Char) (tail : Text) (parsed : ParsedCandidate) : Loop :=
  if c == '\'' then .value { frame with quote := .none, rest := tail } parsed
  else .value (frame.push tail [c]) parsed

def stepDouble (frame : Frame) (c : Char) (tail : Text) (parsed : ParsedCandidate) : Loop :=
  if c == '"' then .value { frame with quote := .none, rest := tail } parsed
  else if c == '\x60' then
    .value { frame with valid := false, rest := tail }
      (parserIssue parsed (String.ofList frame.name) "command substitution is not allowed in an nfqws candidate"
        "nfqws.shell.command_substitution")
  else if c == '$' then dollar frame tail parsed
  else if c == '\\' then
    match tail with
    | [] => .value (frame.push [] ['\\']) parsed
    | escaped :: after =>
      if escaped == '\n' then .value (frame.push after []) parsed
      else if escaped == '$' || escaped == '\x60' || escaped == '"' || escaped == '\\' then
        .value (frame.push after [escaped]) parsed
      else .value (frame.push after ['\\',escaped]) parsed
  else .value (frame.push tail [c]) parsed

def controlOperator (c : Char) : Bool :=
  c == '\x60' || c == ';' || c == '&' || c == '|' || c == '<' || c == '>' || c == '(' || c == ')'

def endOfValue (size : Nat) (frame : Frame) (parsed : ParsedCandidate) : Loop :=
  let stop := size - frame.rest.length
  let after := frame.rest.dropWhile horizontalSpace
  match after with
  | [] => conclude frame stop [] parsed
  | c :: _ =>
    if c != '\n' && c != '#' then
      conclude { frame with valid := false } stop (skipLine after)
        (parserIssue parsed (String.ofList frame.name) "unquoted whitespace would execute a shell command"
          "nfqws.shell.unquoted_whitespace")
    else conclude frame stop (skipLine after) parsed

def stepUnquoted (size : Nat) (frame : Frame) (c : Char) (tail : Text) (parsed : ParsedCandidate) : Loop :=
  if c == '\n' then conclude frame (size - frame.rest.length) tail parsed
  else if horizontalSpace c then endOfValue size frame parsed
  else if c == '#' then .value (frame.push tail [c]) parsed
  else if c == '\'' then .value { frame with quote := .single, rest := tail } parsed
  else if c == '"' then .value { frame with quote := .double, rest := tail } parsed
  else if c == '$' then dollar frame tail parsed
  else if c == '\\' then
    match tail with
    | [] => .value (frame.push [] ['\\']) parsed
    | escaped :: after =>
      if escaped == '\n' then .value (frame.push after []) parsed
      else .value (frame.push after [escaped]) parsed
  else if controlOperator c then
    .value { frame.push tail [c] with valid := false }
      (parserIssue parsed (String.ofList frame.name)
        "shell commands and control operators are not allowed in an nfqws candidate"
        "nfqws.shell.control_operator")
  else .value (frame.push tail [c]) parsed

def stepValue (size : Nat) (frame : Frame) (parsed : ParsedCandidate) : Loop :=
  match frame.rest with
  | [] => conclude frame size [] parsed
  | c :: tail =>
    match frame.quote with
    | .single => stepSingle frame c tail parsed
    | .double => stepDouble frame c tail parsed
    | .none => stepUnquoted size frame c tail parsed

def Loop.step (size : Nat) : Loop → Loop
  | .statement rest parsed => stepStatement size rest parsed
  | .value frame parsed => stepValue size frame parsed
  | .done parsed => .done parsed

def Loop.run (size : Nat) : Nat → Loop → Loop
  | 0, loop => loop
  | fuel + 1, loop => Loop.run size fuel (loop.step size)

def Loop.parsed : Loop → ParsedCandidate
  | .statement _ parsed => parsed
  | .value _ parsed => parsed
  | .done parsed => parsed

/- Every iteration reads a character or leaves its loop; `parseCandidateDone` says the fuel suffices. -/
def parseLoop (content : Text) : Loop := Loop.run content.length (content.length + 1) (.statement content {})

def parseCandidate (content : Text) : ParsedCandidate := (parseLoop content).parsed

theorem skipLineLength : ∀ rest : Text, (skipLine rest).length ≤ rest.length - 1
  | [] => by simp [skipLine]
  | c :: rest => by
    have ih := skipLineLength rest
    unfold skipLine
    split
    · simp
    · simp only [List.length_cons]
      omega

def Loop.weight : Loop → Nat
  | .statement rest _ => rest.length + 1
  | .value frame _ => frame.rest.length + 2
  | .done _ => 0

theorem concludeWeight (frame : Frame) (stop : Nat) (rest : Text) (parsed : ParsedCandidate) :
    (conclude frame stop rest parsed).weight = rest.length + 1 := by
  unfold conclude
  split
  · rfl
  · split <;> rfl

theorem expansionLength (values : Values) (tail : Text) : (appendExpansion values tail).rest.length ≤ tail.length := by
  have dropped : ∀ rest : Text, (rest.dropWhile nameChar).length ≤ rest.length := fun rest =>
    (List.dropWhile_sublist nameChar).length_le
  have expanded : ∀ name rest, (expandName values name rest).rest = rest := by
    intro name rest
    unfold expandName
    split <;> rfl
  unfold appendExpansion
  split
  · simp
  · rename_i c after
    have shorter := dropped after
    have whole := dropped (c :: after)
    split
    · simp
    · split
      · split
        · split
          · rename_i rest ended
            have ends : rest.length + 1 ≤ after.length := by
              rw [ended] at shorter
              simpa using shorter
            rw [expanded]
            simp only [List.length_cons]
            omega
          · simp only [List.length_cons]
            omega
        · simp
      · split
        · rw [expanded]
          exact whole
        · simp

theorem dollarWeight (frame : Frame) (tail : Text) (parsed : ParsedCandidate) :
    (dollar frame tail parsed).weight ≤ tail.length + 2 := by
  have bound := expansionLength parsed.values tail
  simp only [dollar]
  split
  · exact Nat.add_le_add_right bound 2
  · exact Nat.add_le_add_right bound 2

theorem statementWeight (size : Nat) (rest : Text) (parsed : ParsedCandidate) :
    (stepStatement size rest parsed).weight < rest.length + 1 := by
  have dropped := (List.dropWhile_sublist (l := rest) horizontalSpace).length_le
  unfold stepStatement
  split
  · exact Nat.succ_pos _
  · rename_i c tail body
    rw [body,List.length_cons] at dropped
    have named := (List.dropWhile_sublist (l := tail) nameChar).length_le
    have skipped : ∀ t : Text, (skipLine t).length ≤ t.length - 1 := skipLineLength
    split
    · simp only [Loop.weight]
      omega
    · split
      · have := skipped (c :: tail)
        simp only [Loop.weight,List.length_cons] at this ⊢
        omega
      · split
        · have := skipped (c :: tail)
          simp only [refuseLine,Loop.weight,List.length_cons] at this ⊢
          omega
        · simp only
          split
          · have := skipped (tail.dropWhile nameChar)
            simp only [refuseLine,Loop.weight]
            omega
          · split
            · rename_i begins after
              rw [after,List.length_cons] at named
              have := skipped begins
              split
              · simp only [refuseLine,Loop.weight]
                omega
              · simp only [Loop.weight]
                omega
            · have := skipped (tail.dropWhile nameChar)
              simp only [refuseLine,Loop.weight]
              omega

theorem doubleWeight (frame : Frame) (c : Char) (tail : Text) (parsed : ParsedCandidate) :
    (stepDouble frame c tail parsed).weight ≤ tail.length + 2 := by
  unfold stepDouble
  split
  · exact Nat.le_refl _
  split
  · exact Nat.le_refl _
  split
  · exact dollarWeight frame tail parsed
  split
  · split
    · exact Nat.le_refl _
    · simp only [List.length_cons]
      split
      · simp [Loop.weight,Frame.push]
      · split <;> simp [Loop.weight,Frame.push]
  · exact Nat.le_refl _

theorem endWeight (size : Nat) (frame : Frame) (parsed : ParsedCandidate) :
    (endOfValue size frame parsed).weight ≤ frame.rest.length + 1 := by
  have dropped := (List.dropWhile_sublist (l := frame.rest) horizontalSpace).length_le
  have skipped := skipLineLength (frame.rest.dropWhile horizontalSpace)
  simp only [endOfValue]
  split
  · simp [concludeWeight]
  · rename_i body
    rw [body] at dropped skipped
    split
    · rw [concludeWeight,body]
      omega
    · rw [concludeWeight,body]
      omega

theorem unquotedWeight (size : Nat) (frame : Frame) (c : Char) (tail : Text) (parsed : ParsedCandidate)
    (begins : frame.rest = c :: tail) : (stepUnquoted size frame c tail parsed).weight ≤ tail.length + 2 := by
  have ended := endWeight size frame parsed
  rw [begins,List.length_cons] at ended
  unfold stepUnquoted
  split
  · rw [concludeWeight]
    omega
  split
  · omega
  split
  · exact Nat.le_refl _
  split
  · exact Nat.le_refl _
  split
  · exact Nat.le_refl _
  split
  · exact dollarWeight frame tail parsed
  split
  · split
    · exact Nat.le_refl _
    · simp only [List.length_cons]
      split <;> simp [Loop.weight,Frame.push]
  · split <;> exact Nat.le_refl _

theorem valueWeight (size : Nat) (frame : Frame) (parsed : ParsedCandidate) :
    (stepValue size frame parsed).weight < frame.rest.length + 2 := by
  unfold stepValue
  split
  · rename_i stops
    rw [concludeWeight,stops]
    decide
  · rename_i c tail begins
    rw [begins,List.length_cons]
    split
    · unfold stepSingle
      split <;> exact Nat.lt_succ_self _
    · exact Nat.lt_succ_of_le (doubleWeight frame c tail parsed)
    · exact Nat.lt_succ_of_le (unquotedWeight size frame c tail parsed begins)

theorem runDone {size : Nat} : ∀ (fuel : Nat) (loop : Loop), loop.weight ≤ fuel → ∃ parsed, Loop.run size fuel loop = .done parsed
  | 0, loop, bound => by
    cases loop with
    | statement | value => simp [Loop.weight] at bound
    | done parsed => exact ⟨parsed,rfl⟩
  | fuel + 1, loop, bound => by
    refine runDone fuel (loop.step size) ?_
    cases loop with
    | statement rest parsed =>
      have less : ((Loop.statement rest parsed).step size).weight < rest.length + 1 := statementWeight size rest parsed
      simp only [Loop.weight] at bound
      omega
    | value frame parsed =>
      have less : ((Loop.value frame parsed).step size).weight < frame.rest.length + 2 := valueWeight size frame parsed
      simp only [Loop.weight] at bound
      omega
    | done parsed => exact Nat.zero_le _

theorem parseCandidateDone (content : Text) : ∃ parsed, parseLoop content = .done parsed :=
  runDone _ _ (Nat.le_refl _)

/- Issues are only added. -/

theorem concludeIssues {frame : Frame} {stop : Nat} {rest : Text} {parsed : ParsedCandidate}
    (none : (conclude frame stop rest parsed).parsed.issues = []) : parsed.issues = [] := by
  unfold conclude at none
  split at none
  · simp [Loop.parsed,parserIssue] at none
  · split at none <;> exact none

theorem dollarIssues {frame : Frame} {tail : Text} {parsed : ParsedCandidate}
    (none : (dollar frame tail parsed).parsed.issues = []) : parsed.issues = [] := by
  simp only [dollar] at none
  split at none
  · exact none
  · simp [Loop.parsed,parserIssue] at none

theorem statementIssues {size : Nat} {rest : Text} {parsed : ParsedCandidate}
    (none : (stepStatement size rest parsed).parsed.issues = []) : parsed.issues = [] := by
  unfold stepStatement at none
  split at none
  · exact none
  split at none
  · exact none
  split at none
  · exact none
  split at none
  · simp [refuseLine,Loop.parsed,parserIssue] at none
  simp only at none
  split at none
  · simp [refuseLine,Loop.parsed,parserIssue] at none
  split at none
  · split at none
    · simp [refuseLine,Loop.parsed,parserIssue] at none
    · exact none
  · simp [refuseLine,Loop.parsed,parserIssue] at none

theorem doubleIssues {frame : Frame} {c : Char} {tail : Text} {parsed : ParsedCandidate}
    (none : (stepDouble frame c tail parsed).parsed.issues = []) : parsed.issues = [] := by
  unfold stepDouble at none
  split at none
  · exact none
  split at none
  · simp [Loop.parsed,parserIssue] at none
  split at none
  · exact dollarIssues none
  split at none
  · split at none
    · exact none
    · split at none
      · exact none
      · split at none <;> exact none
  · exact none

theorem endIssues {size : Nat} {frame : Frame} {parsed : ParsedCandidate}
    (none : (endOfValue size frame parsed).parsed.issues = []) : parsed.issues = [] := by
  simp only [endOfValue] at none
  split at none
  · exact concludeIssues none
  · split at none
    · have refused := concludeIssues none
      simp [parserIssue] at refused
    · exact concludeIssues none

theorem unquotedIssues {size : Nat} {frame : Frame} {c : Char} {tail : Text} {parsed : ParsedCandidate}
    (none : (stepUnquoted size frame c tail parsed).parsed.issues = []) : parsed.issues = [] := by
  unfold stepUnquoted at none
  split at none
  · exact concludeIssues none
  split at none
  · exact endIssues none
  split at none
  · exact none
  split at none
  · exact none
  split at none
  · exact none
  split at none
  · exact dollarIssues none
  split at none
  · split at none
    · exact none
    · split at none <;> exact none
  split at none
  · simp [Loop.parsed,parserIssue] at none
  · exact none

theorem stepIssues {size : Nat} {loop : Loop} (none : (loop.step size).parsed.issues = []) : loop.parsed.issues = [] := by
  cases loop with
  | statement rest parsed => exact statementIssues none
  | done parsed => exact none
  | value frame parsed =>
    replace none : (stepValue size frame parsed).parsed.issues = [] := none
    unfold stepValue at none
    split at none
    · exact concludeIssues none
    · split at none
      · unfold stepSingle at none
        split at none <;> exact none
      · exact doubleIssues none
      · exact unquotedIssues none

theorem runIssues {size : Nat} : ∀ (fuel : Nat) {loop : Loop},
    (Loop.run size fuel loop).parsed.issues = [] → loop.parsed.issues = []
  | 0, _, clear => clear
  | fuel + 1, _, clear => stepIssues (runIssues fuel clear)

end KeenPbr
