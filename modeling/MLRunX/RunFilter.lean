import MLRunX.IngestRequest

namespace MLRunX.RunFilter

open Http IngestRequest MetadataKey Text

structure MetadataFilter where
  key : String
  legacyKey : Option String
  value : Option String
  deriving DecidableEq, Repr

inductive RunListSortField
  | createdAt | updatedAt | name | status | durationSeconds | metricsCount | paramsCount
  deriving DecidableEq, Repr

inductive RunListSortOrder
  | asc | desc
  deriving DecidableEq, Repr

inductive RunFilterOperator
  | eq | notEq | gt | gte | lt | lte | contains
  deriving DecidableEq, Repr

inductive RunFilterTarget
  | project | owner | status | name | runId | createdAt
  | tag (key : String) (legacyKey : Option String)
  | param (key : String) (legacyKey : Option String)
  deriving DecidableEq, Repr

structure RunFilterCondition where
  target : RunFilterTarget
  op : RunFilterOperator
  value : String
  deriving DecidableEq, Repr

inductive RunFilterExpr
  | condition (condition : RunFilterCondition)
  | and (left right : RunFilterExpr)
  | or (left right : RunFilterExpr)
  deriving DecidableEq, Repr

inductive RunFilterToken
  | identifier (word : String)
  | stringLiteral (value : String)
  | operator (op : String)
  | and | or | lParen | rParen
  deriving DecidableEq, Repr

/-- The two readers of times that the chrono library provides. Each answers
with the time in UTC as the database writes it. -/
structure Chrono where
  parseFromRfc3339 : String → Option String
  parseFromStr : String → Option String

def canonicalAndLegacyMetadataKey (rawKey defaultNamespace : String) : Except String (String × Option String) := do
  let canonical ← canonicalizeMetadataKey rawKey defaultNamespace
  let trimmed := trim rawKey
  pure (canonical, if trimmed.toList.contains '.' then none else some trimmed)

/-- A token of a filter list, cut at its first equals sign. -/
def splitOnce (c : Char) (s : String) : Option (String × String) :=
  match s.toList.dropWhile (· ≠ c) with
  | [] => none
  | _ :: rest => some (String.ofList (s.toList.takeWhile (· ≠ c)), String.ofList rest)

def parseMetadataFilter (defaultNamespace queryName token : String) : Answer MetadataFilter :=
  let (rawKey, rawValue) := match splitOnce '=' token with
    | some (left, right) => (trim left, some (trim right))
    | none => (token, none)
  if rawKey = "" then
    .error (badRequest s!"Invalid {queryName} filter '{token}': missing key")
  else match canonicalAndLegacyMetadataKey rawKey defaultNamespace with
    | .ok (key, legacyKey) => .ok ⟨key, legacyKey, rawValue⟩
    | .error err => .error (badRequest s!"Invalid {queryName} filter '{token}': {err}")

def parseMetadataFilters (raw : Option String) (defaultNamespace queryName : String) : Answer (List MetadataFilter) :=
  match raw with
  | none => .ok []
  | some value =>
      (((split ',' value).map trim).filter (fun segment => segment ≠ "")).mapM
        (parseMetadataFilter defaultNamespace queryName)

def normalizeCreatedAtFilter (chrono : Chrono) (raw fieldName : String) : Answer String :=
  let trimmed := trim raw
  if trimmed = "" then
    .error (badRequest s!"{fieldName} cannot be empty")
  else match (chrono.parseFromRfc3339 trimmed).orElse (fun _ => chrono.parseFromStr trimmed) with
    | some time => .ok time
    | none => .error (badRequest s!"Invalid {fieldName}: expected RFC3339 or 'YYYY-MM-DD HH:MM:SS' format")

def runFilterMaxLen : Nat := 2048

def runFilterMaxTokens : Nat := 256

/-- The rest of a quoted text, in which a backslash quotes the next character. -/
def readLiteral (quote : Char) : List Char → List Char → Option (List Char × List Char)
  | _, [] => none
  | value, '\\' :: c :: cs => readLiteral quote (value ++ [c]) cs
  | value, c :: cs => if c = quote then some (value, cs) else readLiteral quote (value ++ [c]) cs

def isWordChar (c : Char) : Bool :=
  !isWhitespace c && !(['(', ')', '~', '!', '>', '<', '=', '"', '\''].contains c)

def wordToken (word : String) : RunFilterToken :=
  if eqIgnoreAsciiCase word "and" then .and
  else if eqIgnoreAsciiCase word "or" then .or
  else .identifier word

/-- Every round reads a character at least, so the text's length bounds the rounds. -/
def readTokens : Nat → List Char → Except String (List RunFilterToken)
  | 0, _ => .ok []
  | _, [] => .ok []
  | n + 1, c :: cs =>
      if isWhitespace c then readTokens n cs
      else if c = '(' then do return .lParen :: (← readTokens n cs)
      else if c = ')' then do return .rParen :: (← readTokens n cs)
      else if c = '~' then do return .operator "~" :: (← readTokens n cs)
      else if c = '"' ∨ c = '\'' then
        match readLiteral c [] cs with
        | none => .error "unterminated string literal"
        | some (value, rest) => do return .stringLiteral (String.ofList value) :: (← readTokens n rest)
      else if c = '!' ∨ c = '>' ∨ c = '<' ∨ c = '=' then
        if cs.head? = some '=' ∧ c ≠ '=' then
          do return .operator (String.ofList [c, '=']) :: (← readTokens n cs.tail)
        else if c = '!' then
          .error "expected '!=' operator"
        else
          do return .operator (String.ofList [c]) :: (← readTokens n cs)
      else
        do return wordToken (String.ofList ((c :: cs).takeWhile isWordChar)) ::
          (← readTokens n ((c :: cs).dropWhile isWordChar))

def tokenizeRunFilter (raw : String) : Except String (List RunFilterToken) := do
  let tokens ← readTokens raw.toList.length raw.toList
  if runFilterMaxTokens < tokens.length then
    .error s!"filter expression exceeds max token count {runFilterMaxTokens}"
  else
    .ok tokens

def parseRunFilterOperator (raw : String) : Except String RunFilterOperator :=
  if raw = "=" then .ok .eq
  else if raw = "!=" then .ok .notEq
  else if raw = ">" then .ok .gt
  else if raw = ">=" then .ok .gte
  else if raw = "<" then .ok .lt
  else if raw = "<=" then .ok .lte
  else if raw = "~" then .ok .contains
  else .error s!"unsupported operator '{raw}'"

def RunFilterOperator.isText (op : RunFilterOperator) : Bool := op == .eq || op == .notEq || op == .contains

def stripPrefix (start s : String) : Option String :=
  if start.toList.isPrefixOf s.toList then some (String.ofList (s.toList.drop start.toList.length)) else none

/-- The condition on a text column, which can be equal, different or contain. -/
def textCondition (target : RunFilterTarget) (name : String) (op : RunFilterOperator) (value : String) :
    Except String RunFilterCondition :=
  if op.isText then .ok ⟨target, op, value⟩
  else .error s!"{name} supports only '=', '!=', and '~' operators"

def metadataFilterCondition (target : String → Option String → RunFilterTarget)
    (name defaultNamespace rawKey : String)
    (op : RunFilterOperator) (value : String) : Except String RunFilterCondition :=
  if op.isText then do
    let (key, legacyKey) ← canonicalAndLegacyMetadataKey rawKey defaultNamespace
    pure ⟨target key legacyKey, op, value⟩
  else
    .error s!"{name} filters support only '=', '!=', and '~' operators"

def createdAtCondition (chrono : Chrono) (op : RunFilterOperator) (value : String) : Except String RunFilterCondition :=
  if op = .contains then
    .error "created_at supports only '=', '!=', '>', '>=', '<', and '<=' operators"
  else match normalizeCreatedAtFilter chrono value "filter.created_at" with
    | .ok time => .ok ⟨.createdAt, op, time⟩
    | .error e => .error e.message

def keyedCondition (fieldRaw field : String) (op : RunFilterOperator) (value : String) :
    Except String RunFilterCondition :=
  match (stripPrefix "tag." field).orElse (fun _ => stripPrefix "tags." field) with
  | some rawKey => metadataFilterCondition .tag "tag" "tags" rawKey op value
  | none =>
      match (stripPrefix "param." field).orElse (fun _ => stripPrefix "params." field) with
      | some rawKey => metadataFilterCondition .param "param" "parameters" rawKey op value
      | none => .error s!"unsupported filter field '{fieldRaw}'"

def buildRunFilterCondition (chrono : Chrono) (fieldRaw opRaw valueRaw : String) :
    Except String RunFilterCondition := do
  let op ← parseRunFilterOperator opRaw
  let field := toAsciiLowercase (trim fieldRaw)
  let value := trim valueRaw
  if value = "" then
    .error "comparison value cannot be empty"
  else if field = "project" ∨ field = "project_id" then textCondition .project "project" op value
  else if field = "owner" ∨ field = "owner_user_id" then textCondition .owner "owner" op value
  else if field = "status" then textCondition .status "status" op (toAsciiLowercase value)
  else if field = "name" then textCondition .name "name" op value
  else if field = "id" ∨ field = "run_id" then textCondition .runId "run_id" op value
  else if field = "created_at" then createdAtCondition chrono op value
  else keyedCondition fieldRaw field op value

abbrev Parser (α : Type) := List RunFilterToken → Except String (α × List RunFilterToken)

def parseConditionExpression (chrono : Chrono) : Parser RunFilterExpr
  | .identifier field :: .operator op :: .identifier value :: rest
  | .identifier field :: .operator op :: .stringLiteral value :: rest => do
      pure (.condition (← buildRunFilterCondition chrono field op value), rest)
  | .identifier _ :: .operator _ :: _ => .error "expected comparison value"
  | .identifier _ :: _ => .error "expected comparison operator"
  | _ => .error "expected field identifier"

def parsePrimaryExpression (chrono : Chrono) (inner : Parser RunFilterExpr) : Parser RunFilterExpr
  | .lParen :: rest => do
      match ← inner rest with
      | (expr, .rParen :: rest) => pure (expr, rest)
      | _ => .error "expected ')'"
  | tokens => parseConditionExpression chrono tokens

/-- The loop of the two binary levels: operands as long as the next token joins them. -/
def parseJoined (token : RunFilterToken) (join : RunFilterExpr → RunFilterExpr → RunFilterExpr)
    (operand : Parser RunFilterExpr) : Nat → RunFilterExpr → Parser RunFilterExpr
  | 0, expr, tokens => .ok (expr, tokens)
  | n + 1, expr, tokens =>
      if tokens.head? = some token then do
        let (right, rest) ← operand tokens.tail
        parseJoined token join operand n (join expr right) rest
      else
        .ok (expr, tokens)

def parseAndExpression (operand : Parser RunFilterExpr) : Parser RunFilterExpr := fun tokens => do
  let (expr, rest) ← operand tokens
  parseJoined .and .and operand rest.length expr rest

def parseOrExpression (chrono : Chrono) : Nat → Parser RunFilterExpr
  | 0, _ => .error "expected field identifier"
  | depth + 1, tokens => do
      let operand := parseAndExpression (parsePrimaryExpression chrono (parseOrExpression chrono depth))
      let (expr, rest) ← operand tokens
      parseJoined .or .or operand rest.length expr rest

def parse (chrono : Chrono) (tokens : List RunFilterToken) : Except String RunFilterExpr := do
  match ← parseOrExpression chrono (tokens.length + 1) tokens with
  | (expr, []) => .ok expr
  | _ => .error "unexpected trailing token"

def invalidFilter (err : String) : HttpError := badRequest s!"Invalid filter expression: {err}"

def parseRunFilterExpr (chrono : Chrono) : Option String → Answer (Option RunFilterExpr)
  | none => .ok none
  | some raw =>
      let trimmed := trim raw
      if trimmed = "" then .ok none
      else if runFilterMaxLen < byteLength trimmed then
        .error (badRequest s!"filter expression exceeds max length {runFilterMaxLen} characters")
      else match tokenizeRunFilter trimmed with
        | .error err => .error (invalidFilter err)
        | .ok [] => .ok none
        | .ok tokens => match parse chrono tokens with
            | .error err => .error (invalidFilter err)
            | .ok expr => .ok (some expr)

def parseRunListSortField : Option String → Answer RunListSortField
  | none => .ok .createdAt
  | some value =>
      let normalized := toAsciiLowercase (trim value)
      if ["", "created_at", "created"].contains normalized then .ok .createdAt
      else if ["updated_at", "updated"].contains normalized then .ok .updatedAt
      else if normalized = "name" then .ok .name
      else if normalized = "status" then .ok .status
      else if ["duration", "duration_seconds"].contains normalized then .ok .durationSeconds
      else if ["metrics_count", "metrics"].contains normalized then .ok .metricsCount
      else if ["params_count", "params"].contains normalized then .ok .paramsCount
      else .error (badRequest s!"Invalid sort_by value '{value}'")

def parseRunListSortOrder : Option String → Answer RunListSortOrder
  | none => .ok .desc
  | some value =>
      let normalized := toAsciiLowercase (trim value)
      if ["", "desc", "descending"].contains normalized then .ok .desc
      else if ["asc", "ascending"].contains normalized then .ok .asc
      else .error (badRequest s!"Invalid sort_order value '{value}'")

end MLRunX.RunFilter
