import KeenPbr.NfqwsParser

/-! The rest of the path of validate_nfqws_candidate: field checks on the parsed values, the
dry-run argument vector and the blob registry. -/
namespace KeenPbr

/- std::isspace of the C locale, as operator>> uses it. -/
def isSpace (c : Char) : Bool :=
  c == ' ' || c == '\t' || c == '\n' || c == '\x0b' || c == '\x0c' || c == '\r'

def splitFields (value : Text) : List Text := (value.splitOnP isSpace).filter (· != [])

def valueOf (parsed : ParsedCandidate) (name : String) : Text := (parsed.values.lookup (text name)).getD []

/- std::optional<std::string>(const std::string&), or an empty std::function. -/
abbrev NfqwsPathResolver := Option (Text → Option Text)

def startsWith (value : Text) (start : String) : Bool := (text start).isPrefixOf value

def isNewBoundary (token : Text) : Bool := token == text "--new" || startsWith token "--new="

def containsNew (tokens : List Text) : Bool := tokens.any isNewBoundary

/- std::from_chars on the whole text into an int. -/
def digitsValue (digits : Text) : Nat := digits.foldl (fun n c => 10 * n + (c.toNat - '0'.toNat)) 0

def fromChars (value : Text) : Option Int :=
  let number (digits : Text) (sign : Int) : Option Int :=
    if digits.isEmpty || digits.any (fun c => !isDigit c) then none
    else
      let n := sign * digitsValue digits
      if n < -2147483648 || n > 2147483647 then none else some n
  match value with
  | '-' :: digits => number digits (-1)
  | digits => number digits 1

def fieldPath (var flag : String) : String := var ++ "/" ++ flag

def validatePortNumber (var flag : String) (port : Text) : Option Int × List ConfigValidationIssue :=
  let path := fieldPath var flag
  let shown := String.ofList port
  if port.isEmpty then (none,[{ path, message := "empty port", code := "nfqws.port.empty" }])
  else
    match fromChars port with
    | none => (none,[{ path, message := "port '" ++ shown ++ "' is not a number", code := "nfqws.port.number" }])
    | some n =>
      if n < 1 || n > 65535 then
        (none,[{ path, message := "port " ++ shown ++ " is out of range 1-65535", code := "nfqws.port.range" }])
      else (some n,[])

def validatePortItem (var flag : String) (item : Text) : List ConfigValidationIssue :=
  let path := fieldPath var flag
  if item.isEmpty then
    [{ path, message := "port filter contains an empty item", code := "nfqws.port.empty_item" }]
  else
    match item.splitOn '-' with
    | [port] => (validatePortNumber var flag port).2
    | [low,high] =>
      let lower := validatePortNumber var flag low
      let upper := validatePortNumber var flag high
      let inverted : Bool := match lower.1,upper.1 with
        | some l,some h => h < l
        | _,_ => false
      lower.2 ++ upper.2 ++
        if inverted then
          [{ path, message := "port range " ++ String.ofList item ++ " is inverted (low > high)",
             code := "nfqws.port.range_inverted" }]
        else []
    | _ =>
      [{ path, message := "port range '" ++ String.ofList item ++ "' is malformed",
         code := "nfqws.port.range_malformed" }]

def validatePortSpec (var flag : String) (spec : Text) : List ConfigValidationIssue :=
  if spec.isEmpty then
    [{ path := fieldPath var flag, message := "port filter must not be empty",
       code := "nfqws.port.filter_empty" }]
  else (spec.splitOn ',').flatMap (validatePortItem var flag)

structure PathReference where
  flag : String
  path : Text
  lead : Text
  deriving DecidableEq, Repr

def resolveInputPath (reference : PathReference) : NfqwsPathResolver → Option Text
  | none => none
  | some resolve =>
    match resolve reference.path with
    | some resolved => some resolved
    | none =>
      if reference.flag == "--lua-init" && reference.path.length > 4 &&
          (text ".lua").isSuffixOf reference.path && (resolve (reference.path ++ text ".gz")).isSome then
        some reference.path
      else none

def directReference (token : Text) (flag : String) : Option PathReference :=
  let lead := text (flag ++ "=")
  if lead.isPrefixOf token then some { flag, path := token.drop lead.length, lead } else none

/- A blob is name:source; the file starts after the colon, after `@`, or after `+offset@`. -/
def blobReference (token : Text) : Option PathReference :=
  match token.findIdx? (· == ':') with
  | none => none
  | some separator =>
    let source := token.drop (separator + 1)
    let reference (file : Nat) : Option PathReference :=
      some { flag := "--blob", path := token.drop file, lead := token.take file }
    if startsWith source "0x" then none
    else
      match source.head? with
      | some '+' => (source.findIdx? (· == '@')).bind fun at_ => reference (separator + 1 + at_ + 1)
      | some '@' => reference (separator + 2)
      | _ => reference (separator + 1)

def inputPathReference (token : Text) : Option PathReference :=
  match ["--hostlist","--hostlist-exclude","--ipset","--ipset-exclude"].findSome? (directReference token) with
  | some reference => some reference
  | none =>
    let lua := text "--lua-init=@"
    if lua.isPrefixOf token then some { flag := "--lua-init", path := token.drop lua.length, lead := lua }
    else if startsWith token "--blob=" then blobReference token
    else none

def ownedWritable : Text := text "--writable=/var/run/keen-pbr-nfqws"

def validatePath (var : String) (token : Text) (resolvePath : NfqwsPathResolver) : List ConfigValidationIssue :=
  match inputPathReference token with
  | none => []
  | some reference =>
    let path := fieldPath var reference.flag
    if reference.path.isEmpty then [{ path, message := "empty file path", code := "nfqws.path.empty" }]
    else if resolvePath.isSome && (resolveInputPath reference resolvePath).isNone then
      [{ path, message := "referenced file does not exist: " ++ String.ofList reference.path,
         code := "nfqws.path.missing" }]
    else []

def validateToken (var : String) (token : Text) (resolvePath : NfqwsPathResolver) :
    List ConfigValidationIssue :=
  let filter (flag : String) := validatePortSpec var flag (token.drop (flag.length + 1))
  (if startsWith token "--writable" && (var != "NFQWS_BASE_ARGS" || token != ownedWritable) then
    [{ path := fieldPath var "--writable",
       message := "only the package-owned nfqws rotator writable directory is allowed",
       code := "nfqws.writable.owned_only" }] else []) ++
  (if startsWith token "--filter-tcp=" then filter "--filter-tcp"
    else if startsWith token "--filter-udp=" then filter "--filter-udp" else []) ++
  (if token.contains '$' then
    [{ path := var,
       message := "literal shell variable reference would reach nfqws2; single-quoted values are not expanded",
       code := "nfqws.shell.literal_variable" }] else []) ++
  (if token.any (fun c => c == '*' || c == '?' || c == '[') then
    [{ path := var,
       message := "shell wildcard is not allowed because the init script would expand it differently from the dry run",
       code := "nfqws.shell.wildcard" }] else []) ++
  validatePath var token resolvePath

def validateTokens (parsed : ParsedCandidate) (forbidNew : Bool) (resolvePath : NfqwsPathResolver)
    (var : String) : List ConfigValidationIssue :=
  let tokens := splitFields (valueOf parsed var)
  (if forbidNew && containsNew tokens then
    [{ path := var, message := "--new is not allowed here; use NFQWS_ARGS_CUSTOM for additional profiles",
       code := "nfqws.profile.new_forbidden" }] else []) ++
  (if var == "NFQWS_BASE_ARGS" && tokens.count ownedWritable > 1 then
    [{ path := fieldPath var "--writable",
       message := "the package-owned writable directory may be declared only once",
       code := "nfqws.writable.duplicate" }] else []) ++
  tokens.flatMap fun token => validateToken var token resolvePath

def isStrategyAction (token : Text) : Bool := startsWith token "--lua-desync=" || startsWith token "--dpi-desync="

def containsStrategyAction (tokens : List Text) : Bool := tokens.any isStrategyAction

def customBoundaryIssues : Option Text → List Text → List ConfigValidationIssue
  | _, [] => []
  | previous, token :: rest =>
    (if token == text "--new=" then
      [{ path := "NFQWS_ARGS_CUSTOM", message := "a named --new boundary must have a name",
         code := "nfqws.profile.boundary_name_required" }] else []) ++
    if isNewBoundary token && (previous.map isNewBoundary).getD false then
      [{ path := "NFQWS_ARGS_CUSTOM", message := "consecutive --new tokens create an empty custom profile",
         code := "nfqws.profile.consecutive_boundaries" }]
    else customBoundaryIssues (some token) rest

def validateCustomBoundaries (tokens : List Text) : List ConfigValidationIssue :=
  let edge (token : Option Text) := (token.map isNewBoundary).getD false
  (if edge tokens.head? || edge tokens.getLast? then
    [{ path := "NFQWS_ARGS_CUSTOM", message := "--new must separate two non-empty custom profiles",
       code := "nfqws.profile.empty_boundary" }] else []) ++
  customBoundaryIssues none tokens

def validateSegment (segment : List Text) (boundary : Text) (number : Nat) : List ConfigValidationIssue :=
  if segment.isEmpty then []
  else if boundary == text "--new=webrtc_passthrough" then
    let exact := segment.length == 2 && segment.count (text "--filter-udp=49152-65535") == 1 &&
      segment.count (text "--filter-l7=stun") == 1
    if exact then []
    else
      [{ path := "NFQWS_ARGS_CUSTOM",
         message := "webrtc_passthrough must contain exactly --filter-udp=49152-65535 and --filter-l7=stun",
         code := "nfqws.profile.webrtc_passthrough" }]
  else if containsStrategyAction segment then []
  else
    [{ path := "NFQWS_ARGS_CUSTOM",
       message := "custom profile " ++ toString number ++
         " has no supported action (--lua-desync= or --dpi-desync=)",
       code := "nfqws.profile.custom_action_required" }]

def customSegments : List Text → List Text → Text → Nat → List ConfigValidationIssue × Bool
  | [], segment, boundary, number => (validateSegment segment boundary number,!segment.isEmpty)
  | token :: rest, segment, boundary, number =>
    if isNewBoundary token then
      let later := customSegments rest [] token (number + 1)
      (validateSegment segment boundary number ++ later.1,!segment.isEmpty || later.2)
    else customSegments rest (segment ++ [token]) boundary number

def validateStrategyActions (parsed : ParsedCandidate) : List ConfigValidationIssue :=
  let profiles := ["NFQWS_ARGS","NFQWS_ARGS_QUIC","NFQWS_ARGS_UDP"].map fun var =>
    (var,splitFields (valueOf parsed var))
  let plain := profiles.filter fun profile => !profile.2.isEmpty
  let custom := customSegments (splitFields (valueOf parsed "NFQWS_ARGS_CUSTOM")) [] [] 1
  (plain.flatMap fun profile =>
    if containsStrategyAction profile.2 then []
    else
      [{ path := profile.1,
         message := "profile has no supported action (--lua-desync= or --dpi-desync=); filters and selectors alone do not process traffic",
         code := "nfqws.profile.action_required" }]) ++
  custom.1 ++
  if plain.isEmpty && !custom.2 then
    [{ path := "NFQWS_ARGS",
       message := "the candidate has no strategy profile; IPSET and mode selectors alone do not process traffic",
       code := "nfqws.profile.required" }]
  else []

def inQueueRange (number : Int) : Bool := 0 ≤ number && number ≤ 65535

def validateQueue (queue : Text) : List ConfigValidationIssue :=
  if queue.isEmpty || ((fromChars queue).map inQueueRange).getD false then []
  else [{ path := "NFQUEUE_NUM", message := "queue number must be an integer from 0 to 65535",
          code := "nfqws.queue.range" }]

def validateUser (user : Text) : List ConfigValidationIssue :=
  if user.all fun c => isAlnum c || c == '_' || c == '-' || c == '.' then []
  else [{ path := "USER", message := "nfqws user name contains unsafe characters", code := "nfqws.user.unsafe" }]

def validateParsedCandidate (parsed : ParsedCandidate) (resolvePath : NfqwsPathResolver) :
    List ConfigValidationIssue :=
  parsed.issues ++
  (["NFQWS_BASE_ARGS","NFQWS_ARGS","NFQWS_ARGS_QUIC","NFQWS_ARGS_UDP","NFQWS_ARGS_IPSET","NFQWS_EXTRA_ARGS",
    "MODE_LIST","MODE_ALL","MODE_AUTO"].flatMap (validateTokens parsed true resolvePath)) ++
  validateTokens parsed false resolvePath "NFQWS_ARGS_CUSTOM" ++
  validateCustomBoundaries (splitFields (valueOf parsed "NFQWS_ARGS_CUSTOM")) ++
  validateStrategyActions parsed ++
  validateQueue (valueOf parsed "NFQUEUE_NUM") ++
  validateUser (valueOf parsed "USER")

/- parsed_queue_number on the value of NFQUEUE_NUM. -/
def parsedQueueNumber (queue : Text) (fallback : Int) : Int :=
  ((fromChars queue).filter inQueueRange).getD fallback

def rewriteInputPath (token : Text) (resolvePath : NfqwsPathResolver) : Text :=
  match inputPathReference token with
  | none => token
  | some reference =>
    match resolveInputPath reference resolvePath with
    | none => token
    | some resolved => reference.lead ++ resolved

def appendTokens (value : Text) (resolvePath : NfqwsPathResolver) : List Text :=
  ((splitFields value).filter (· != ownedWritable)).map fun token => rewriteInputPath token resolvePath

/- build_nfqws_dry_run_args reads the candidate through value_of only. -/
def dryRunArgs (value : String → Text) (fallbackQueueNumber : Int) (resolvePath : NfqwsPathResolver) : List Text :=
  let tokens (name : String) := appendTokens (value name) resolvePath
  let given (name : String) := !(splitFields (value name)).isEmpty
  let profile (name : String) := if given name then tokens name ++ [text "--new"] else []
  let orElse (v : Text) (other : String) := if v.isEmpty then text other else v
  let viaIpset (name : String) :=
    tokens name ++ tokens "NFQWS_ARGS_IPSET" ++ [text "--ipset-ip=0.0.0.0",text "--new"]
  [text "--dry-run"] ++
  (if value "LOG_LEVEL" == text "1" then [text "--debug=" ++ orElse (value "LOG_DEBUG_PATH") "syslog"] else []) ++
  [text "--user=" ++ orElse (value "USER") "nobody"] ++
  [text "--qnum=" ++ text (toString (parsedQueueNumber (value "NFQUEUE_NUM") fallbackQueueNumber))] ++
  tokens "NFQWS_BASE_ARGS" ++
  (if (splitFields (value "ISP_INTERFACE")).length > 1 then
    [text "--bind-fix4"] ++
      if !(value "IPV6_ENABLED").isEmpty && value "IPV6_ENABLED" != text "0" then [text "--bind-fix6"] else []
    else []) ++
  profile "NFQWS_ARGS_CUSTOM" ++
  profile "NFQWS_ARGS_UDP" ++
  (if given "NFQWS_ARGS_QUIC" then
    (if given "NFQWS_ARGS_IPSET" then viaIpset "NFQWS_ARGS_QUIC" else []) ++
      tokens "NFQWS_ARGS_QUIC" ++ tokens "NFQWS_EXTRA_ARGS" ++ [text "--new"]
    else []) ++
  (if given "NFQWS_ARGS_IPSET" then viaIpset "NFQWS_ARGS" else []) ++
  tokens "NFQWS_ARGS" ++ tokens "NFQWS_EXTRA_ARGS"

def buildNfqwsDryRunArgs (content : Text) (fallbackQueueNumber : Int) (resolvePath : NfqwsPathResolver) :
    List Text := dryRunArgs (valueOf (parseCandidate content)) fallbackQueueNumber resolvePath

def emptyAction (token : Text) : Bool :=
  isStrategyAction token &&
    match (token.dropWhile (· != '=')).drop 1 with
    | [] => true
    | c :: _ => c == ':'

def blobIdentifier (name : Text) : Bool := (name.head?.map nameStart).getD false && name.all nameChar

def isXdigit (c : Char) : Bool := isDigit c || ('a' ≤ c && c ≤ 'f') || ('A' ≤ c && c ≤ 'F')

def blobSourceValid (source : Text) : Bool :=
  if startsWith source "0x" then
    source.length > 2 && source.length % 2 == 0 && (source.drop 2).all isXdigit
  else
    match source with
    | [] => false
    | c :: _ =>
      (c != '+' && c != '@') ||
        match source.findIdx? (· == '@') with
        | none => false
        | some at_ => at_ + 1 < source.length &&
            (at_ == 0 || (c == '+' && at_ > 1 && ((source.take at_).drop 1).all isDigit))

def expandedIssues : List Text → List Text → List ConfigValidationIssue
  | _, [] => []
  | blobs, token :: rest =>
    (if emptyAction token then
      [{ path := "NFQWS_ARGS", message := "desync action name is empty", code := "nfqws.action.empty" }] else []) ++
    if !startsWith token "--blob=" then expandedIssues blobs rest
    else
      let declaration := token.drop 7
      let name := declaration.takeWhile (· != ':')
      let source := (declaration.dropWhile (· != ':')).drop 1
      let shown := String.ofList name
      if !blobIdentifier name || !blobSourceValid source then
        { path := "NFQWS_BASE_ARGS/--blob", message := "invalid blob declaration: " ++ shown,
          code := "nfqws.blob.invalid", params := [("name",shown)] } :: expandedIssues blobs rest
      else if blobs.contains name then
        { path := "NFQWS_BASE_ARGS/--blob", message := "duplicate blob in expanded command: " ++ shown,
          code := "nfqws.blob.duplicate", params := [("name",shown)] } :: expandedIssues blobs rest
      else expandedIssues (name :: blobs) rest

def validateNfqwsCandidate (content : Text) (resolvePath : NfqwsPathResolver) : List ConfigValidationIssue :=
  let issues := validateParsedCandidate (parseCandidate content) resolvePath
  if !issues.isEmpty then issues
  else
    expandedIssues (["fake_default_http","fake_default_tls","fake_default_quic"].map text)
      (buildNfqwsDryRunArgs content 300 resolvePath)

theorem acceptedParses {content : Text} {resolvePath : NfqwsPathResolver}
    (accepted : validateNfqwsCandidate content resolvePath = []) : (parseCandidate content).issues = [] := by
  simp only [validateNfqwsCandidate] at accepted
  split at accepted
  · rename_i some
    rw [accepted] at some
    simp at some
  · rename_i none
    have empty : validateParsedCandidate (parseCandidate content) resolvePath = [] := by simpa using none
    unfold validateParsedCandidate at empty
    simp only [List.append_eq_nil_iff] at empty
    exact empty.1.1.1.1.1.1

end KeenPbr
