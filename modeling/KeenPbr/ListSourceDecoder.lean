import KeenPbr.DnsmasqGen
import KeenPbr.ListNormalization

/-! lists/list_source_decoder.cpp: a list source as plain text, a JSON array of strings or a YAML payload becomes
counters, entries and one canonical text. Bytes are characters. The JSON library stays a parameter. -/
namespace KeenPbr.ListSource
open Fields ListNormalization
open Dnsmasq (asciiLower)

def kListSourceMaxBytes : Nat := 2 * 1024 * 1024
def kListSourceMaxEntries : Nat := 50000
def kListSourceMaxLineBytes : Nat := 4096
def kListSourceMaxErrors : Nat := 50

inductive Family where
  | domain
  | ipv4
  | ipv6
  deriving DecidableEq, Repr

structure ListSourceEntry where
  line : Nat
  value : Text
  type : Family
  deriving DecidableEq, Repr

structure ListSourceError where
  line : Nat
  code : String
  value : Text
  deriving DecidableEq, Repr

structure ListSourceDecodeResult where
  complete : Bool := true
  text : Text := []
  entries : List ListSourceEntry := []
  errors : List ListSourceError := []
  lines : Nat := 0
  inputEntries : Nat := 0
  validEntries : Nat := 0
  duplicates : Nat := 0
  invalidEntries : Nat := 0
  ignoredLines : Nat := 0
  ipv4 : Nat := 0
  ipv6 : Nat := 0
  domains : Nat := 0
  errorsLimited : Bool := false
  limitReason : String := ""
  deriving DecidableEq, Repr

inductive SaxEvent where
  | startArray
  | endArray
  | string (value : Text)
  | other
  | parseError (position : Nat)
  deriving DecidableEq, Repr

structure JsonLibrary where
  saxEvents : Text → List SaxEvent
  isNumber : Text → Bool
  stringOf : Text → Option Text

section Context

def newlineChar (c : Char) : Bool := c == '\n'

def continuation (c : Char) : Bool := 0x80 ≤ c.toNat && c.toNat ≤ 0xbf

def secondByte (first second : Char) : Bool :=
  !((first.toNat == 0xe0 && second.toNat < 0xa0) || (first.toNat == 0xed && second.toNat ≥ 0xa0) ||
    (first.toNat == 0xf0 && second.toNat < 0x90) || (first.toNat == 0xf4 && second.toNat ≥ 0x90))

def sequenceLength (first : Char) : Nat :=
  if 0xc2 ≤ first.toNat && first.toNat ≤ 0xdf then 2
  else if 0xe0 ≤ first.toNat && first.toNat ≤ 0xef then 3
  else if 0xf0 ≤ first.toNat && first.toNat ≤ 0xf4 then 4
  else 0

/- The offset of the first sequence that is no UTF-8 or a control character; every round takes a byte. -/
def invalidFrom : Nat → Nat → Text → Option Nat
  | 0, _, _ => none
  | _ + 1, _, [] => none
  | fuel + 1, index, first :: rest =>
    if first.toNat < 0x80 then
      if (first.toNat < 0x20 && first != '\t' && first != '\r' && first != '\n') || first.toNat == 0x7f then some index
      else invalidFrom fuel (index + 1) rest
    else
      let count := sequenceLength first
      if count == 0 || count > rest.length + 1 || !(rest.take (count - 1)).all continuation || !rest.head?.all (secondByte first)
        then some index
      else invalidFrom fuel (index + count) (rest.drop (count - 1))

def invalidOffset (value : Text) : Option Nat := invalidFrom value.length 0 value

def excerptBytes (value : Text) : Nat → Nat
  | 0 => 0
  | bytes + 1 => if bytes + 1 < value.length && continuation (value.getD (bytes + 1) ' ') then excerptBytes value bytes else bytes + 1

def excerpt (value : Text) : Text := value.take (excerptBytes value (min 160 value.length))

def lineAt (body : Text) (offset : Nat) : Nat := 1 + (body.take offset).count '\n'

def looksIp (value : Text) : Bool := value.contains ':' || value.contains '/' || value.all fun c => isDigit c || c == '.'

def invalidCode (inet : Inet) (value : Text) : String :=
  if !looksIp value then "invalid_entry"
  else
    match normalizeIpOrCidrReason inet value with
    | .error .leadingZeros => "leading_zeros"
    | .error .invalidPrefix => "invalid_prefix"
    | .error .invalidAddress => "invalid_address"
    | .ok _ => "invalid_entry"

structure DecodeContext where
  result : ListSourceDecodeResult := {}
  stopped : Bool := false
  seen : List Text := []

namespace DecodeContext

def error (context : DecodeContext) (line : Nat) (code : String) (value : Text) : DecodeContext :=
  let result := { context.result with complete := false }
  if result.errors.length < kListSourceMaxErrors then
    { context with result := { result with errors := result.errors ++ [⟨line,code,excerpt value⟩] } }
  else { context with result := { result with errorsLimited := true } }

def limit (context : DecodeContext) (line : Nat) (code reason : String) (value : Text) : DecodeContext :=
  let failed := context.error line code value
  { failed with result := { failed.result with limitReason := reason }, stopped := true }

def count (result : ListSourceDecodeResult) : Family → ListSourceDecodeResult
  | .domain => { result with domains := result.domains + 1 }
  | .ipv4 => { result with ipv4 := result.ipv4 + 1 }
  | .ipv6 => { result with ipv6 := result.ipv6 + 1 }

def canonicalEntry (found : EntryType × Text) : Text × Family :=
  match found.1 with
  | .domain => (found.2.map asciiLower,.domain)
  | _ => (found.2,if found.2.contains ':' then .ipv6 else .ipv4)

def accept (context : DecodeContext) (line : Nat) (found : EntryType × Text) : DecodeContext × Bool :=
  let context := { context with result := { context.result with validEntries := context.result.validEntries + 1 } }
  let canonical := (canonicalEntry found).1
  if context.seen.contains canonical then
    ({ context with result := { context.result with duplicates := context.result.duplicates + 1 } },true)
  else
    let context := { context with seen := context.seen ++ [canonical] }
    if canonical.length + 1 > kListSourceMaxBytes - context.result.text.length then
      (context.limit line "output_limit" "output_limit" [],false)
    else
      let result := { context.result with text := context.result.text ++ canonical ++ ['\n'] }
      let result := count result (canonicalEntry found).2
      ({ context with result := { result with entries := result.entries ++ [⟨line,canonical,(canonicalEntry found).2⟩] } },true)

def entry (inet : Inet) (context : DecodeContext) (raw : Text) (line : Nat) : DecodeContext × Bool :=
  if context.result.inputEntries ≥ kListSourceMaxEntries then (context.limit line "entry_limit" "entry_limit" [],false)
  else
    let context := { context with result := { context.result with inputEntries := context.result.inputEntries + 1 } }
    if raw.length > kListSourceMaxLineBytes then
      let context := { context with result := { context.result with invalidEntries := context.result.invalidEntries + 1 } }
      (context.limit line "line_too_long" "line_too_long" raw,false)
    else
      let value := strip listBlank raw
      match classifyEntry inet value with
      | some found => context.accept line found
      | none =>
        let context := { context with result := { context.result with invalidEntries := context.result.invalidEntries + 1 } }
        (context.error line (invalidCode inet value) value,true)

end DecodeContext
end Context

section Json

def bom : Text := [Char.ofNat 0xef,Char.ofNat 0xbb,Char.ofNat 0xbf]

structure JsonArrayReader where
  rest : Text
  line : Nat := 1
  array : Bool := false
  context : DecodeContext

namespace JsonArrayReader

def separator (c : Char) : Bool := c == ' ' || c == '\t' || c == '\r' || c == '\n' || c == ','

def skipSeparators (reader : JsonArrayReader) : JsonArrayReader :=
  { reader with rest := reader.rest.dropWhile separator, line := reader.line + (reader.rest.takeWhile separator).count '\n' }

def skipString : Text → Text
  | [] => []
  | '\\' :: _ :: rest => skipString rest
  | ch :: rest => if ch == '"' then rest else skipString rest

def wrongType (reader : JsonArrayReader) : JsonArrayReader × Bool :=
  let reader := reader.skipSeparators
  if reader.array then
    if reader.context.result.inputEntries ≥ kListSourceMaxEntries then
      ({ reader with context := reader.context.limit reader.line "entry_limit" "entry_limit" [] },false)
    else
      let result := { reader.context.result with
        inputEntries := reader.context.result.inputEntries + 1
        invalidEntries := reader.context.result.invalidEntries + 1 }
      let context := { reader.context with result := result }
      ({ reader with context := context.error reader.line "json_entry_type" [] },false)
  else ({ reader with context := reader.context.error reader.line "json_root_array" [] },false)

def handle (inet : Inet) (body : Text) (reader : JsonArrayReader) : SaxEvent → JsonArrayReader × Bool
  | .other => reader.wrongType
  | .startArray =>
    if reader.array then reader.wrongType
    else
      let reader := { reader with array := true }.skipSeparators
      ({ reader with rest := reader.rest.drop 1 },true)
  | .endArray =>
    let reader := reader.skipSeparators
    ({ reader with rest := reader.rest.drop 1 },true)
  | .string value =>
    if !reader.array then reader.wrongType
    else
      let reader := reader.skipSeparators
      let line := reader.line
      let entered := reader.context.entry inet value line
      ({ reader with rest := skipString (reader.rest.drop 1), context := entered.1 },entered.2)
  | .parseError position =>
    ({ reader with context := reader.context.error (lineAt body (if position = 0 then 0 else position - 1)) "json_syntax" [] },false)

def handleAll (inet : Inet) (body : Text) : JsonArrayReader → List SaxEvent → JsonArrayReader
  | reader, [] => reader
  | reader, event :: rest =>
    let handled := handle inet body reader event
    if handled.2 then handleAll inet body handled.1 rest else handled.1

end JsonArrayReader
end Json

section Yaml
variable (json : JsonLibrary)

def onlyComment (suffix : Text) : Bool :=
  if suffix.head?.any fun c => !listBlank c then false
  else
    let trimmed := strip listBlank suffix
    trimmed.isEmpty || trimmed.head? == some '#'

def beforeComment : Option Char → Text → Text
  | _, [] => []
  | before, ch :: rest =>
    if ch == '#' && before.all (fun c => c == ' ' || c == '\t') then [] else ch :: beforeComment (some ch) rest

def withoutPlainComment (value : Text) : Text := strip listBlank (beforeComment none value)

def implicitNonstring (value : Text) : Bool :=
  let lower := value.map asciiLower
  if lower == text "true" || lower == text "false" || lower == text "null" || lower == text "~" then true
  else if (match lower with
      | '0' :: 'x' :: digits => !digits.isEmpty && digits.all fun c => isDigit c || ('a' ≤ c && c ≤ 'f')
      | '0' :: 'o' :: digits => !digits.isEmpty && digits.all fun c => '0' ≤ c && c ≤ '7'
      | _ => false) then true
  else if value.head?.any (fun c => c == '-' || isDigit c) then json.isNumber value
  else false

/- The scalar between quotes; `consumed` is the source up to here and `single` what single quotes hold. -/
def quotedScalar (quote : Char) : Text → Text → Text → Option Text
  | _, _, [] => none
  | consumed, single, ch :: rest =>
    if quote == '"' && ch == '\\' then
      match rest with
      | [] => none
      | skipped :: rest => quotedScalar quote (consumed ++ [ch,skipped]) single rest
    else if ch != quote then quotedScalar quote (consumed ++ [ch]) (if quote == '\'' then single ++ [ch] else single) rest
    else
      match rest with
      | '\'' :: later =>
        if quote == '\'' then quotedScalar quote (consumed ++ [ch,ch]) (single ++ [ch]) later
        else none
      | _ =>
        if !onlyComment rest then none
        else if quote == '\'' then some single
        else json.stringOf (consumed ++ [ch])

def hasPart (part value : Text) : Bool := value.tails.any fun tail => part.isPrefixOf tail

def unsupportedPlain (value : Text) : Bool :=
  value.isEmpty || value.head?.any (fun c => (text "!&*|>\x7b\x7d[,").contains c) || value.head? == some '?' || value.head? == some ':' ||
    (text "- ").isPrefixOf value || hasPart (text ": ") value || hasPart (text ":\t") value || value.contains ',' ||
      implicitNonstring json value

def yamlScalar (item : Text) : Except (String × Text) Text :=
  let source := strip listBlank item
  match source with
  | [] => .error ("yaml_syntax",source)
  | first :: rest =>
    if first == '#' then .error ("yaml_syntax",source)
    else if first == '\'' || first == '"' then
      match quotedScalar json first [first] [] rest with
      | some scalar => .ok scalar
      | none => .error ("yaml_syntax",source)
    else
      let value := withoutPlainComment source
      if unsupportedPlain json value then .error ("yaml_unsupported",value) else .ok value

end Yaml

section Lines
variable (inet : Inet) (json : JsonLibrary)

structure LineState where
  payload : Bool := false
  anyYamlItem : Bool := false
  itemIndent : Option Nat := none
  line : Nat := 0
  context : DecodeContext

inductive Flow where
  | goes
  | breaks
  | returns
  deriving DecidableEq, Repr

def LineState.fails (state : LineState) (code : String) (value : Text) : LineState × Flow :=
  ({ state with context := state.context.error state.line code value },.returns)

def yamlItem (state : LineState) (indentation : Nat) (value : Text) : LineState × Flow :=
  match value with
  | '-' :: blank :: item =>
    if (blank != ' ' && blank != '\t') || state.itemIndent.any (· != indentation) then state.fails "yaml_unsupported" value
    else
      let state := { state with itemIndent := some (state.itemIndent.getD indentation), anyYamlItem := true }
      match yamlScalar json item with
      | .error (code,shown) => state.fails code shown
      | .ok scalar => ({ state with context := (state.context.entry inet scalar state.line).1 },.goes)
  | _ => state.fails "yaml_unsupported" value

def yamlLine (state : LineState) (raw value : Text) : LineState × Flow :=
  let indentation := (raw.takeWhile (· == ' ')).length
  let plain := withoutPlainComment value
  if raw[indentation]? == some '\t' then state.fails "yaml_syntax" value
  else if plain == text "---" || plain == text "..." || value.head? == some '%' then state.fails "yaml_unsupported" value
  else if !state.payload then
    if indentation != 0 || plain != text "payload:" then state.fails "yaml_payload_required" value
    else ({ state with payload := true },.goes)
  else yamlItem inet json state indentation value

def decodeLine (yaml : Bool) (state : LineState) (physical : Text) : LineState × Flow :=
  let state := { state with line := state.line + 1 }
  if physical.length > kListSourceMaxLineBytes then
    ({ state with context := state.context.limit state.line "line_too_long" "line_too_long" (strip listBlank physical) },.breaks)
  else
    let raw := if yaml && state.line == 1 && bom.isPrefixOf physical then physical.drop 3 else physical
    let value := strip listBlank raw
    if value.isEmpty || value.head? == some '#' then
      let result := { state.context.result with ignoredLines := state.context.result.ignoredLines + 1 }
      ({ state with context := { state.context with result := result } },.goes)
    else if !yaml then ({ state with context := (state.context.entry inet value state.line).1 },.goes)
    else yamlLine inet json state raw value

def decodeLoop (yaml : Bool) : LineState → List Text → LineState × Flow
  | state, [] => (state,.goes)
  | state, raw :: rest =>
    if state.context.stopped then (state,.goes)
    else
      match decodeLine inet json yaml state raw with
      | (next,.goes) => decodeLoop yaml next rest
      | ended => ended

def decodeLines (body : Text) (yaml : Bool) (context : DecodeContext) : DecodeContext :=
  let (state,flow) := decodeLoop inet json yaml { context } (lines newlineChar body)
  if flow = .returns then state.context
  else if yaml && !state.context.stopped then
    if !state.payload then state.context.error 1 "yaml_payload_required" []
    else if !state.anyYamlItem then state.context.error (max 1 state.line) "yaml_syntax" []
    else state.context
  else state.context

def validListSourceFormat (format : String) : Bool := format == "text" || format == "json-array" || format == "yaml-payload"

def decodeBody (body : Text) (format : String) : DecodeContext :=
  let context : DecodeContext := {}
  if !validListSourceFormat format then context.error 1 "unsupported_format" []
  else if body.length > kListSourceMaxBytes then context.limit 1 "too_large" "byte_limit" []
  else
    match invalidOffset body with
    | some offset => context.error (lineAt body offset) "invalid_encoding" []
    | none =>
      let lines := body.count '\n' + if !body.isEmpty && body.getLast? != some '\n' then 1 else 0
      let context := { context with result := { context.result with lines } }
      if format == "json-array" then
        (JsonArrayReader.handleAll inet body { rest := if bom.isPrefixOf body then body.drop 3 else body, context }
          (json.saxEvents body)).context
      else decodeLines inet json body (format == "yaml-payload") context

def decodeListSource (body : Text) (format : String) : ListSourceDecodeResult :=
  let result := (decodeBody inet json body format).result
  if result.complete then result else { result with text := [] }

end Lines
end KeenPbr.ListSource
