import MLRunX.KeyCase

namespace MLRunX.EqualityFilters

open IngestRequest KeyCase MetadataKey RunFilter Text

/-- What a run is listed by, with its name in a filter. -/
inductive Attribute
  | name | status | runId | owner | project
  | tag (key : String)
  | param (key : String)
  deriving DecidableEq, Repr

def Attribute.field : Attribute → String
  | .name => "name"
  | .status => "status"
  | .runId => "run_id"
  | .owner => "owner"
  | .project => "project"
  | .tag key => "tag." ++ key
  | .param key => "param." ++ key

def operatorText : RunFilterOperator → String
  | .eq => "="
  | .notEq => "!="
  | .gt => ">"
  | .gte => ">="
  | .lt => "<"
  | .lte => "<="
  | .contains => "~"

/-- A value as it is written between double quotes. -/
def escape (value : String) : String :=
  String.ofList (value.toList.flatMap (fun c => if c = '\\' ∨ c = '"' then ['\\', c] else [c]))

def filterText (a : Attribute) (value : String) : String :=
  a.field ++ " = \"" ++ escape value ++ "\""

/-- The keys that are stored. -/
def Attribute.WellKeyed : Attribute → Prop
  | .tag key | .param key => Proper key
  | _ => True

/-- The target that the filter on an attribute is read as. -/
def Attribute.target : Attribute → RunFilterTarget
  | .name => .name
  | .status => .status
  | .runId => .runId
  | .owner => .owner
  | .project => .project
  | .tag key => .tag (toAsciiLowercase key) none
  | .param key => .param (toAsciiLowercase key) none

/-- The value that the filter on an attribute is compared with. -/
def Attribute.wanted (a : Attribute) (value : String) : String :=
  if a = .status then toAsciiLowercase (trim value) else trim value

/-! The tokens of the text. -/

theorem readLiteral_escape (acc cs rest : List Char) :
    readLiteral '"' acc (cs.flatMap (fun c => if c = '\\' ∨ c = '"' then ['\\', c] else [c]) ++ '"' :: rest) =
      some (acc ++ cs, rest) := by
  induction cs generalizing acc with
  | nil => simp [readLiteral]
  | cons c cs ih =>
      by_cases hc : c = '\\' ∨ c = '"'
      · rw [List.flatMap_cons, if_pos hc, List.append_assoc]
        simp only [List.cons_append, List.nil_append, readLiteral]
        rw [ih, List.append_assoc, List.singleton_append]
      · rw [List.flatMap_cons, if_neg hc, List.append_assoc, List.singleton_append]
        obtain ⟨hslash, hquote⟩ := not_or.mp hc
        rw [readLiteral.eq_def]
        simp [hslash, hquote, ih]

theorem readTokens_word {word : List Char} (hne : word ≠ []) (hword : ∀ c ∈ word, isWordChar c = true)
    (n : Nat) (rest : List Char) (hrest : rest.head?.all (fun c => !isWordChar c) = true) :
    readTokens (n + 1) (word ++ rest) =
      (readTokens n rest).map (fun tokens => wordToken (String.ofList word) :: tokens) := by
  obtain ⟨c, cs, rfl⟩ := List.exists_cons_of_ne_nil hne
  have hc := hword c List.mem_cons_self
  have hspace : isWhitespace c = false := by
    rw [isWordChar, Bool.and_eq_true, Bool.not_eq_true'] at hc
    exact hc.1
  have hspecial : c ≠ '(' ∧ c ≠ ')' ∧ c ≠ '~' ∧ c ≠ '!' ∧ c ≠ '>' ∧ c ≠ '<' ∧ c ≠ '=' ∧
      c ≠ '"' ∧ c ≠ '\'' := by
    rw [isWordChar, Bool.and_eq_true] at hc
    simpa using hc.2
  obtain ⟨h1, h2, h3, h4, h5, h6, h7, h8, h9⟩ := hspecial
  have htake : (c :: cs ++ rest).takeWhile isWordChar = c :: cs := by
    rw [List.takeWhile_append_of_pos hword]
    cases rest with
    | nil => simp
    | cons d rest => simp_all
  have hdrop : (c :: cs ++ rest).dropWhile isWordChar = rest := by
    rw [List.dropWhile_append_of_pos hword]
    cases rest with
    | nil => simp
    | cons d rest => simp_all
  rw [List.cons_append, readTokens.eq_3]
  rw [List.cons_append] at htake hdrop
  simp only [hspace, h1, h2, h3, h4, h5, h6, h7, h8, h9, or_self, if_false, Bool.false_eq_true, htake, hdrop]
  cases readTokens n rest <;> rfl

theorem toList_filterText (a : Attribute) (value : String) :
    (filterText a value).toList =
      a.field.toList ++ ' ' :: '=' :: ' ' :: '"' :: ((escape value).toList ++ ['"']) := by
  simp [filterText, String.toList_append]

theorem readTokens_filterText (a : Attribute) (hne : a.field.toList ≠ [])
    (hfield : ∀ c ∈ a.field.toList, isWordChar c = true) (value : String) (n : Nat) :
    readTokens (n + 5) (filterText a value).toList =
      .ok [wordToken a.field, .operator "=", .stringLiteral value] := by
  have hliteral : readLiteral '"' [] ((escape value).toList ++ ['"']) = some (value.toList, []) := by
    rw [escape, String.toList_ofList]
    exact readLiteral_escape [] value.toList []
  have hend : readTokens n [] = .ok [] := by cases n <;> rfl
  have hrest : readTokens (n + 4) (' ' :: '=' :: ' ' :: '"' :: ((escape value).toList ++ ['"'])) =
      .ok [.operator "=", .stringLiteral value] := by
    simp [readTokens, isWhitespace, hliteral, hend]
  rw [toList_filterText, readTokens_word hne hfield _ _ rfl, hrest, String.ofList_toList]
  rfl

/-! The names of the attributes. -/

theorem field_ne_nil (a : Attribute) : a.field.toList ≠ [] := by
  cases a <;> simp [Attribute.field, String.toList_append]

theorem isPathChar_append {start key : String} (hstart : ∀ c ∈ start.toList, isPathChar c = true)
    (h : Proper key) :
    ∀ c ∈ (start ++ key).toList, isPathChar c = true := by
  rw [String.toList_append]
  exact List.forall_mem_append.mpr ⟨hstart, h.path⟩

theorem isPathChar_field {a : Attribute} (h : a.WellKeyed) : ∀ c ∈ a.field.toList, isPathChar c = true := by
  cases a with
  | name | status | runId | owner | project => exact List.all_eq_true.1 (by decide)
  | tag key => exact isPathChar_append (List.all_eq_true.1 (by decide)) h
  | param key => exact isPathChar_append (List.all_eq_true.1 (by decide)) h

theorem ne_of_dotted {s word : String} (hs : '.' ∈ s.toList) (hword : '.' ∉ word.toList) : s ≠ word := by
  rintro rfl
  exact hword hs

theorem toAsciiLowercase_append (s t : String) :
    toAsciiLowercase (s ++ t) = toAsciiLowercase s ++ toAsciiLowercase t := by
  simp [toAsciiLowercase, String.toList_append, String.ofList_append]

theorem dotted_lowercase {s : String} (h : '.' ∈ s.toList) : '.' ∈ (toAsciiLowercase s).toList := by
  rw [toAsciiLowercase, String.toList_ofList]
  exact List.mem_map.mpr ⟨'.', h, by decide⟩

theorem wordToken_of_dotted {s : String} (h : '.' ∈ s.toList) : wordToken s = .identifier s := by
  have hand : toAsciiLowercase s ≠ toAsciiLowercase "and" := ne_of_dotted (dotted_lowercase h) (by decide)
  have hor : toAsciiLowercase s ≠ toAsciiLowercase "or" := ne_of_dotted (dotted_lowercase h) (by decide)
  simp [wordToken, eqIgnoreAsciiCase, hand, hor]

theorem dotted_append {start key : String} (h : '.' ∈ start.toList) : '.' ∈ (start ++ key).toList := by
  rw [String.toList_append]
  exact List.mem_append_left _ h

theorem wordToken_field (a : Attribute) : wordToken a.field = .identifier a.field := by
  cases a with
  | name | status | runId | owner | project => decide
  | tag key => exact wordToken_of_dotted (dotted_append (by decide))
  | param key => exact wordToken_of_dotted (dotted_append (by decide))

/-! The condition that is built. -/

theorem stripPrefix_append (start s : String) : stripPrefix start (start ++ s) = some s := by
  simp [stripPrefix, String.toList_append]

theorem buildRunFilterCondition_empty (chrono : Chrono) (field : String) {value : String} (h : trim value = "") :
    buildRunFilterCondition chrono field "=" value = .error "comparison value cannot be empty" := by
  change (if trim value = "" then _ else _) = _
  rw [if_pos h]

theorem parseRunFilterOperator_operatorText (op : RunFilterOperator) :
    parseRunFilterOperator (operatorText op) = .ok op := by
  cases op <;> rfl

theorem buildRunFilterCondition_eq (chrono : Chrono) (op : RunFilterOperator) {fieldRaw field value : String}
    (hfield : toAsciiLowercase (trim fieldRaw) = field) (hvalue : trim value ≠ "") :
    buildRunFilterCondition chrono fieldRaw (operatorText op) value =
      if field = "project" ∨ field = "project_id" then textCondition .project "project" op (trim value)
      else if field = "owner" ∨ field = "owner_user_id" then textCondition .owner "owner" op (trim value)
      else if field = "status" then textCondition .status "status" op (toAsciiLowercase (trim value))
      else if field = "name" then textCondition .name "name" op (trim value)
      else if field = "id" ∨ field = "run_id" then textCondition .runId "run_id" op (trim value)
      else if field = "created_at" then createdAtCondition chrono op (trim value)
      else keyedCondition fieldRaw field op (trim value) := by
  rw [← hfield, buildRunFilterCondition, parseRunFilterOperator_operatorText]
  change (if trim value = "" then _ else _) = _
  rw [if_neg hvalue]

theorem buildRunFilterCondition_dotted (chrono : Chrono) (op : RunFilterOperator) {field value : String}
    (h : '.' ∈ field.toList) (hfield : ∀ c ∈ field.toList, isPathChar c = true) (hvalue : trim value ≠ "") :
    buildRunFilterCondition chrono field (operatorText op) value =
      keyedCondition field (toAsciiLowercase field) op (trim value) := by
  have htrim : trim field = field := trim_of_path hfield
  have hne : ∀ word : String, '.' ∉ word.toList → toAsciiLowercase field ≠ word :=
    fun word => ne_of_dotted (dotted_lowercase h)
  rw [buildRunFilterCondition_eq chrono op (congrArg toAsciiLowercase htrim) hvalue]
  simp only [hne "project" (by decide), hne "project_id" (by decide),
    hne "owner" (by decide),
    hne "owner_user_id" (by decide), hne "status" (by decide), hne "name" (by decide),
    hne "id" (by decide), hne "run_id" (by decide), hne "created_at" (by decide), or_self, if_false]

theorem buildRunFilterCondition_field (chrono : Chrono) {a : Attribute} (h : a.WellKeyed) {value : String}
    (hvalue : trim value ≠ "") :
    buildRunFilterCondition chrono a.field "=" value = .ok ⟨a.target, .eq, a.wanted value⟩ := by
  have hpath := isPathChar_field h
  change buildRunFilterCondition chrono a.field (operatorText .eq) value = _
  cases a with
  | name | status | runId | owner | project =>
      rw [buildRunFilterCondition_eq chrono .eq rfl hvalue]
      simp [show toAsciiLowercase (trim "name") = "name" by decide,
        show toAsciiLowercase (trim "status") = "status" by decide,
        show toAsciiLowercase (trim "run_id") = "run_id" by decide,
        show toAsciiLowercase (trim "owner") = "owner" by decide,
        show toAsciiLowercase (trim "project") = "project" by decide,
        Attribute.field, Attribute.target, Attribute.wanted, textCondition, RunFilterOperator.isText]
  | tag key =>
      rw [Attribute.field] at hpath ⊢
      rw [buildRunFilterCondition_dotted chrono .eq (dotted_append (by decide)) hpath hvalue,
        toAsciiLowercase_append]
      have hstart : toAsciiLowercase "tag." = "tag." := by decide
      rw [hstart, keyedCondition, stripPrefix_append]
      change metadataFilterCondition .tag "tag" "tags" (toAsciiLowercase key) .eq (trim value) = _
      rw [metadataFilterCondition, h.toAsciiLowercase.canonicalize]
      rfl
  | param key =>
      rw [Attribute.field] at hpath ⊢
      rw [buildRunFilterCondition_dotted chrono .eq (dotted_append (by decide)) hpath hvalue,
        toAsciiLowercase_append]
      have hstart : toAsciiLowercase "param." = "param." := by decide
      have hother : stripPrefix "tag." ("param." ++ toAsciiLowercase key) = none ∧
          stripPrefix "tags." ("param." ++ toAsciiLowercase key) = none := by
        constructor <;> simp [stripPrefix, String.toList_append]
      rw [hstart, keyedCondition, hother.1, hother.2, stripPrefix_append]
      change metadataFilterCondition .param "param" "parameters" (toAsciiLowercase key) .eq (trim value) = _
      rw [metadataFilterCondition, h.toAsciiLowercase.canonicalize]
      rfl

/-! The whole text. -/

theorem trim_of_ends {s : String} {c d : Char} {cs : List Char} (h : s.toList = c :: cs ++ [d])
    (hc : isWhitespace c = false) (hd : isWhitespace d = false) : trim s = s := by
  have htrim : trimChars s.toList = s.toList := by
    rw [trimChars, h, List.cons_append, List.dropWhile_cons_of_neg (by simp [hc]), ← List.cons_append,
      List.reverse_append, List.reverse_singleton, List.singleton_append,
      List.dropWhile_cons_of_neg (by simp [hd]), ← List.reverse_concat, List.reverse_reverse]
  rw [trim, htrim, String.ofList_toList]

theorem trim_filterText {a : Attribute} (h : a.WellKeyed) (value : String) :
    trim (filterText a value) = filterText a value := by
  obtain ⟨c, cs, hcs⟩ := List.exists_cons_of_ne_nil (field_ne_nil a)
  have hc : isWhitespace c = false := not_whitespace_of_path (isPathChar_field h c (hcs ▸ List.mem_cons_self))
  have htext : (filterText a value).toList = c ::
      (cs ++ ' ' :: '=' :: ' ' :: '"' :: (escape value).toList) ++ ['"'] := by
    rw [toList_filterText, hcs]
    simp
  exact trim_of_ends htext hc (by decide)

theorem filterText_ne_empty (a : Attribute) (value : String) : filterText a value ≠ "" := by
  intro h
  have hlist := congrArg String.toList h
  rw [toList_filterText] at hlist
  simp at hlist

theorem tokenizeRunFilter_filterText {a : Attribute} (h : a.WellKeyed) (value : String) :
    tokenizeRunFilter (filterText a value) = .ok [.identifier a.field, .operator "=", .stringLiteral value] := by
  have hlength : (filterText a value).toList.length =
      a.field.toList.length + (escape value).toList.length + 5 := by
    rw [toList_filterText]
    simp
    omega
  have htokens := readTokens_filterText a (field_ne_nil a) (fun c hc =>
    isWordChar_of_path (isPathChar_field h c hc)) value
    (a.field.toList.length + (escape value).toList.length)
  rw [tokenizeRunFilter, hlength, htokens, wordToken_field]
  rfl

theorem parse_comparison (chrono : Chrono) (field op value : String) :
    parse chrono [.identifier field, .operator op, .stringLiteral value] =
      (buildRunFilterCondition chrono field op value).map RunFilterExpr.condition := by
  have hprimary : ∀ inner, parsePrimaryExpression chrono inner [.identifier field, .operator op,
      .stringLiteral value] =
      (buildRunFilterCondition chrono field op value).map (fun c => (.condition c, [])) :=
    fun _ => rfl
  have hand : ∀ inner, parseAndExpression (parsePrimaryExpression chrono inner)
      [.identifier field, .operator op, .stringLiteral value] =
        (buildRunFilterCondition chrono field op value).map (fun c => (.condition c, [])) := by
    intro inner
    rw [parseAndExpression, hprimary]
    cases buildRunFilterCondition chrono field op value <;> rfl
  have hor : ∀ depth, parseOrExpression chrono (depth + 1) [.identifier field, .operator op, .stringLiteral value] =
      (buildRunFilterCondition chrono field op value).map (fun c => (.condition c, [])) := by
    intro depth
    rw [parseOrExpression, hand]
    cases buildRunFilterCondition chrono field op value <;> rfl
  rw [parse, hor]
  cases buildRunFilterCondition chrono field op value <;> rfl

theorem parseRunFilterExpr_filterText (chrono : Chrono) {a : Attribute} (h : a.WellKeyed) {value : String}
    (hlength : byteLength (filterText a value) ≤ runFilterMaxLen) :
    parseRunFilterExpr chrono (some (filterText a value)) =
      if trim value = "" then .error (invalidFilter "comparison value cannot be empty")
      else .ok (some (.condition ⟨a.target, .eq, a.wanted value⟩)) := by
  rw [parseRunFilterExpr]
  simp only [trim_filterText h, if_neg (filterText_ne_empty a value), if_neg (Nat.not_lt.mpr hlength),
    tokenizeRunFilter_filterText h, parse_comparison]
  by_cases hvalue : trim value = ""
  · rw [if_pos hvalue, buildRunFilterCondition_empty chrono a.field hvalue]
    rfl
  · rw [if_neg hvalue, buildRunFilterCondition_field chrono h hvalue]
    rfl

end MLRunX.EqualityFilters
