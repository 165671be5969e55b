import MLRunX.EqualityFilters
import MLRunX.FilterGrammar

namespace MLRunX.FilterPrinting

open EqualityFilters FilterGrammar IngestRequest KeyCase MetadataKey RunFilter Text

/-- The name of a target. A key is written as it was when it was read. -/
def targetText : RunFilterTarget → String
  | .project => "project"
  | .owner => "owner"
  | .status => "status"
  | .name => "name"
  | .runId => "run_id"
  | .createdAt => "created_at"
  | .tag key legacyKey => "tag." ++ legacyKey.getD key
  | .param key legacyKey => "param." ++ legacyKey.getD key

def quoted (value : String) : String := "\"" ++ escape value ++ "\""

def exprText : RunFilterExpr → String
  | .condition c => targetText c.target ++ " " ++ operatorText c.op ++ " " ++ quoted c.value
  | .and left right => "(" ++ exprText left ++ " and " ++ exprText right ++ ")"
  | .or left right => "(" ++ exprText left ++ " or " ++ exprText right ++ ")"

def exprTokens : RunFilterExpr → List RunFilterToken
  | .condition c => [.identifier (targetText c.target), .operator (operatorText c.op), .stringLiteral c.value]
  | .and left right => .lParen :: (exprTokens left ++ .and :: exprTokens right) ++ [.rParen]
  | .or left right => .lParen :: (exprTokens left ++ .or :: exprTokens right) ++ [.rParen]

def Throughout (P : RunFilterCondition → Prop) : RunFilterExpr → Prop
  | .condition c => P c
  | .and left right | .or left right => Throughout P left ∧ Throughout P right

/-- The keys that the field of a filter, which is in lower case, is read as. -/
def KeyRead (defaultNamespace key : String) (legacyKey : Option String) : Prop :=
  ∃ rawKey, toAsciiLowercase rawKey = rawKey ∧
    canonicalAndLegacyMetadataKey rawKey defaultNamespace = .ok (key, legacyKey)

def Normal (chrono : Chrono) (c : RunFilterCondition) : Prop :=
  match c.target with
  | .status => toAsciiLowercase c.value = c.value
  | .createdAt => normalizeCreatedAtFilter chrono c.value "filter.created_at" = .ok c.value
  | .tag key legacyKey => KeyRead "tags" key legacyKey
  | .param key legacyKey => KeyRead "parameters" key legacyKey
  | _ => True

structure Plain (chrono : Chrono) (c : RunFilterCondition) : Prop where
  nonempty : c.value ≠ ""
  trimmed : trim c.value = c.value
  normal : Normal chrono c

/-- The operators that a target is offered with. -/
def Offered (c : RunFilterCondition) : Prop :=
  match c.target with
  | .createdAt => c.op ≠ .contains
  | _ => c.op.isText = true

variable {chrono : Chrono}

/-! The condition that is built from the text of one. -/

theorem toAsciiLowercase_eq_self {s : String} : toAsciiLowercase s = s ↔ ∀ c ∈ s.toList, c.toLower = c := by
  rw [← String.toList_inj, toAsciiLowercase, String.toList_ofList]
  constructor
  · intro h
    exact List.map_inj_left.mp (h.trans (List.map_id _).symm)
  · intro h
    exact (List.map_congr_left h).trans (List.map_id _)

theorem canonicalizeMetadataKey_ok {rawKey defaultNamespace key : String}
    (h : canonicalizeMetadataKey rawKey defaultNamespace = .ok key) :
    key = if (trim rawKey).toList.contains '.' then trim rawKey else s!"{defaultNamespace}.{trim rawKey}" := by
  simp only [canonicalizeMetadataKey] at h
  generalize (if (trim rawKey).toList.contains '.' then trim rawKey else s!"{defaultNamespace}.{trim rawKey}")
    = canonical at h ⊢
  repeat' split at h
  all_goals first | exact (Except.ok.inj h).symm | cases h

theorem mem_canonical {rawKey defaultNamespace key : String}
    (h : canonicalizeMetadataKey rawKey defaultNamespace = .ok key) {c : Char} (hc : c ∈ (trim rawKey).toList) :
    c ∈ key.toList := by
  rw [canonicalizeMetadataKey_ok h]
  split
  · exact hc
  · rw [String.toList_append, List.mem_append]
    exact .inr hc

theorem KeyRead.written {defaultNamespace key : String} {legacyKey : Option String}
    (h : KeyRead defaultNamespace key legacyKey) :
    (∀ c ∈ (legacyKey.getD key).toList, isPathChar c = true) ∧
      toAsciiLowercase (legacyKey.getD key) = legacyKey.getD key ∧
      canonicalAndLegacyMetadataKey (legacyKey.getD key) defaultNamespace = .ok (key, legacyKey) := by
  obtain ⟨rawKey, hlower, hread⟩ := h
  obtain ⟨canonical, hcanonical, hpair⟩ := Fallible.bind_eq_ok.mp hread
  obtain ⟨rfl, rfl⟩ := Prod.mk.inj (Except.ok.inj hpair)
  have hkey := canonicalizeMetadataKey_ok hcanonical
  have hwritten : (if (trim rawKey).toList.contains '.' then none else some (trim rawKey)).getD canonical =
      trim rawKey := by
    split
    · rename_i hdot
      rw [hkey, if_pos hdot]
      rfl
    · rfl
  have hpath : ∀ c ∈ (trim rawKey).toList, isPathChar c = true :=
    fun c hc => (proper_of_canonical hcanonical).path c (mem_canonical hcanonical hc)
  have htrim : trim (trim rawKey) = trim rawKey := trim_of_path hpath
  rw [hwritten]
  refine ⟨hpath, ?_, ?_⟩
  · rw [toAsciiLowercase_eq_self] at hlower ⊢
    exact fun c hc => hlower c (mem_trim hc)
  · have hagain : canonicalizeMetadataKey (trim rawKey) defaultNamespace = .ok canonical := by
      rw [← hcanonical]
      simp only [canonicalizeMetadataKey, htrim]
    rw [canonicalAndLegacyMetadataKey, hagain, htrim]
    rfl

theorem buildRunFilterCondition_plain {c : RunFilterCondition} (h : Plain chrono c) {field : String}
    (hfield : toAsciiLowercase (trim (targetText c.target)) = field) :
    buildRunFilterCondition chrono (targetText c.target) (operatorText c.op) c.value =
      if field = "project" ∨ field = "project_id" then textCondition .project "project" c.op c.value
      else if field = "owner" ∨ field = "owner_user_id" then textCondition .owner "owner" c.op c.value
      else if field = "status" then textCondition .status "status" c.op (toAsciiLowercase c.value)
      else if field = "name" then textCondition .name "name" c.op c.value
      else if field = "id" ∨ field = "run_id" then textCondition .runId "run_id" c.op c.value
      else if field = "created_at" then createdAtCondition chrono c.op c.value
      else keyedCondition (targetText c.target) field c.op c.value := by
  have hvalue : trim c.value ≠ "" := by
    rw [h.trimmed]
    exact h.nonempty
  rw [buildRunFilterCondition_eq chrono c.op hfield hvalue, h.trimmed]

theorem keyedCondition_written (target : String → Option String → RunFilterTarget) (name : String)
    {start defaultNamespace key value fieldRaw : String} {legacyKey : Option String} {op : RunFilterOperator}
    (hstart : ∀ written, keyedCondition fieldRaw (start ++ written) op value =
      metadataFilterCondition target name defaultNamespace written op value)
    (hkey : KeyRead defaultNamespace key legacyKey) (hop : op.isText = true) :
    keyedCondition fieldRaw (start ++ legacyKey.getD key) op value = .ok ⟨target key legacyKey, op, value⟩ := by
  rw [hstart, metadataFilterCondition, if_pos hop, hkey.written.2.2]
  rfl

theorem buildRunFilterCondition_keyed {start key : String} {legacyKey : Option String} {c : RunFilterCondition}
    (h : Plain chrono c) (htext : targetText c.target = start ++ legacyKey.getD key) (hdot : '.' ∈ start.toList)
    (hstart : ∀ ch ∈ start.toList, isPathChar ch = true) (hlower : toAsciiLowercase start = start)
    {defaultNamespace : String} (hkey : KeyRead defaultNamespace key legacyKey) :
    buildRunFilterCondition chrono (targetText c.target) (operatorText c.op) c.value =
      keyedCondition (targetText c.target) (start ++ legacyKey.getD key) c.op c.value := by
  obtain ⟨hpath, hsame, -⟩ := hkey.written
  have hall : ∀ ch ∈ (start ++ legacyKey.getD key).toList, isPathChar ch = true := by
    rw [String.toList_append]
    exact List.forall_mem_append.mpr ⟨hstart, hpath⟩
  have hvalue : trim c.value ≠ "" := by
    rw [h.trimmed]
    exact h.nonempty
  rw [htext, buildRunFilterCondition_dotted chrono c.op (dotted_append hdot) hall hvalue,
    toAsciiLowercase_append, hlower, hsame, h.trimmed]

theorem buildRunFilterCondition_targetText {c : RunFilterCondition} (h : Plain chrono c) (hop : Offered c) :
    buildRunFilterCondition chrono (targetText c.target) (operatorText c.op) c.value = .ok c := by
  have hnormal := h.normal
  obtain ⟨target, op, value⟩ := c
  cases target with
  | project | owner | name | runId =>
      rw [buildRunFilterCondition_plain h rfl]
      simp [show toAsciiLowercase (trim "project") = "project" by decide,
        show toAsciiLowercase (trim "owner") = "owner" by decide,
        show toAsciiLowercase (trim "name") = "name" by decide,
        show toAsciiLowercase (trim "run_id") = "run_id" by decide,
        targetText, textCondition, show op.isText = true from hop]
  | status =>
      rw [buildRunFilterCondition_plain h rfl]
      simp [show toAsciiLowercase (trim "status") = "status" by decide, targetText, textCondition,
        show op.isText = true from hop, show toAsciiLowercase value = value from hnormal]
  | createdAt =>
      rw [buildRunFilterCondition_plain h rfl]
      simp [show toAsciiLowercase (trim "created_at") = "created_at" by decide, targetText,
        createdAtCondition, show op ≠ .contains from hop,
        show normalizeCreatedAtFilter chrono value "filter.created_at" = .ok value from hnormal]
  | tag key legacyKey =>
      rw [buildRunFilterCondition_keyed h rfl (by decide) (List.all_eq_true.1 (by decide))
        (by decide) hnormal]
      refine keyedCondition_written .tag "tag" (fun written => ?_) hnormal hop
      rw [keyedCondition, stripPrefix_append]
      rfl
  | param key legacyKey =>
      rw [buildRunFilterCondition_keyed h rfl (by decide) (List.all_eq_true.1 (by decide))
        (by decide) hnormal]
      refine keyedCondition_written .param "param" (fun written => ?_) hnormal hop
      have hother : stripPrefix "tag." ("param." ++ written) = none ∧
          stripPrefix "tags." ("param." ++ written) = none := by
        constructor <;> simp [stripPrefix, String.toList_append]
      rw [keyedCondition, hother.1, hother.2, stripPrefix_append]
      rfl

/-! The tokens of a text. -/

/-- The text is read as these tokens, whatever comes behind it. -/
def Lexes (cs : List Char) (tokens : List RunFilterToken) : Prop :=
  ∃ k ≤ cs.length, ∀ n rest, readTokens (n + k) (cs ++ rest) = (readTokens n rest).map (fun us => tokens ++ us)

theorem lexes_append {cs ds : List Char} {ts us : List RunFilterToken} (h : Lexes cs ts) (h' : Lexes ds us) :
    Lexes (cs ++ ds) (ts ++ us) := by
  obtain ⟨k, hk, hread⟩ := h
  obtain ⟨k', hk', hread'⟩ := h'
  refine ⟨k' + k, ?_, fun n rest => ?_⟩
  · rw [List.length_append]
    omega
  · rw [List.append_assoc, ← Nat.add_assoc, hread, hread']
    cases readTokens n rest with
    | error err => rfl
    | ok vs => simp [Except.map]

theorem lexes_space : Lexes [' '] [] := by
  refine ⟨1, Nat.le_refl _, fun n rest => ?_⟩
  rw [List.singleton_append, readTokens, if_pos (by decide)]
  cases readTokens n rest <;> rfl

theorem lexes_word {word : List Char} (hne : word ≠ []) (hword : ∀ c ∈ word, isWordChar c = true) :
    Lexes (word ++ [' ']) [wordToken (String.ofList word)] := by
  obtain ⟨k, hk, hspace⟩ := lexes_space
  refine ⟨k + 1, ?_, fun n rest => ?_⟩
  · have hlength := List.length_pos_iff.mpr hne
    rw [List.length_append]
    omega
  · rw [List.append_assoc, ← Nat.add_assoc, readTokens_word hne hword _ _ rfl, hspace]
    cases readTokens n rest <;> rfl

theorem lexes_lParen : Lexes ['('] [.lParen] := by
  refine ⟨1, Nat.le_refl _, fun n rest => ?_⟩
  rw [List.singleton_append, readTokens, if_neg (by decide), if_pos rfl]
  cases readTokens n rest <;> rfl

theorem lexes_rParen : Lexes [')'] [.rParen] := by
  refine ⟨1, Nat.le_refl _, fun n rest => ?_⟩
  rw [List.singleton_append, readTokens, if_neg (by decide), if_neg (by decide), if_pos rfl]
  cases readTokens n rest <;> rfl

theorem lexes_operator (op : RunFilterOperator) :
    Lexes ((operatorText op).toList ++ [' ']) [.operator (operatorText op)] := by
  refine ⟨2, by cases op <;> decide, fun n rest => ?_⟩
  cases op <;> simp [operatorText, readTokens, isWhitespace] <;> cases readTokens n rest <;> rfl

theorem lexes_quoted (value : String) : Lexes (quoted value).toList [.stringLiteral value] := by
  have htext : (quoted value).toList = '"' :: ((escape value).toList ++ ['"']) := by
    simp [quoted, String.toList_append]
  refine ⟨1, by simp [htext], fun n rest => ?_⟩
  have hliteral : readLiteral '"' [] ((escape value).toList ++ '"' :: rest) = some (value.toList, rest) := by
    rw [escape, String.toList_ofList]
    exact readLiteral_escape [] value.toList rest
  rw [htext, List.cons_append, List.append_assoc, List.singleton_append]
  simp [readTokens, isWhitespace, hliteral]
  cases readTokens n rest <;> rfl

theorem isPathChar_targetText {c : RunFilterCondition} (h : Plain chrono c) :
    ∀ ch ∈ (targetText c.target).toList, isPathChar ch = true := by
  have hnormal := h.normal
  obtain ⟨target, op, value⟩ := c
  have hkey : ∀ {start defaultNamespace key : String} {legacyKey : Option String},
      (∀ ch ∈ start.toList, isPathChar ch = true) → KeyRead defaultNamespace key legacyKey →
        ∀ ch ∈ (start ++ legacyKey.getD key).toList, isPathChar ch = true := by
    intro start defaultNamespace key legacyKey hstart hread
    rw [String.toList_append]
    exact List.forall_mem_append.mpr ⟨hstart, hread.written.1⟩
  dsimp only
  cases target with
  | project | owner | status | name | runId | createdAt => exact List.all_eq_true.1 (by decide)
  | tag key legacyKey => exact hkey (List.all_eq_true.1 (by decide)) hnormal
  | param key legacyKey => exact hkey (List.all_eq_true.1 (by decide)) hnormal

theorem targetText_ne_nil (target : RunFilterTarget) : (targetText target).toList ≠ [] := by
  cases target <;> simp [targetText, String.toList_append]

theorem wordToken_targetText (target : RunFilterTarget) :
    wordToken (targetText target) = .identifier (targetText target) := by
  cases target with
  | project | owner | status | name | runId | createdAt => decide
  | tag key legacyKey => exact wordToken_of_dotted (dotted_append (by decide))
  | param key legacyKey => exact wordToken_of_dotted (dotted_append (by decide))

theorem lexes_condition {c : RunFilterCondition} (h : Plain chrono c) :
    Lexes (exprText (.condition c)).toList (exprTokens (.condition c)) := by
  have hfield := lexes_word (targetText_ne_nil c.target) (fun ch hch =>
    isWordChar_of_path (isPathChar_targetText h ch hch))
  rw [String.ofList_toList, wordToken_targetText] at hfield
  have htext : (exprText (.condition c)).toList =
      ((targetText c.target).toList ++ [' ']) ++
        (((operatorText c.op).toList ++ [' ']) ++ (quoted c.value).toList) := by
    simp [exprText, String.toList_append]
  rw [htext]
  exact lexes_append hfield (lexes_append (lexes_operator c.op) (lexes_quoted c.value))

theorem lexes_joined {left right word : List Char} {ts us : List RunFilterToken} {token : RunFilterToken}
    (hleft : Lexes left ts) (hright : Lexes right us) (hword : Lexes (word ++ [' ']) [token]) :
    Lexes ('(' :: left ++ ' ' :: word ++ ' ' :: right ++ [')']) (.lParen :: (ts ++ token :: us) ++ [.rParen]) := by
  have h := lexes_append lexes_lParen (lexes_append hleft (lexes_append lexes_space (lexes_append hword
    (lexes_append hright lexes_rParen))))
  simpa using h

theorem lexes_exprText {e : RunFilterExpr} (h : Throughout (Plain chrono) e) :
    Lexes (exprText e).toList (exprTokens e) := by
  have hword : ∀ word : List Char, word ≠ [] → word.all isWordChar = true →
      Lexes (word ++ [' ']) [wordToken (String.ofList word)] :=
    fun word hne hall => lexes_word hne (List.all_eq_true.1 hall)
  induction e with
  | condition c => exact lexes_condition h
  | and left right ihl ihr =>
      have hjoined := lexes_joined (ihl h.1) (ihr h.2) (hword ['a', 'n', 'd'] (by decide) (by decide))
      rw [show wordToken (String.ofList ['a', 'n', 'd']) = .and by decide] at hjoined
      simpa [exprText, exprTokens, String.toList_append] using hjoined
  | or left right ihl ihr =>
      have hjoined := lexes_joined (ihl h.1) (ihr h.2) (hword ['o', 'r'] (by decide) (by decide))
      rw [show wordToken (String.ofList ['o', 'r']) = .or by decide] at hjoined
      simpa [exprText, exprTokens, String.toList_append] using hjoined

/-! The tree of the tokens. -/

theorem derives_exprTokens {e : RunFilterExpr} (h : Throughout (Plain chrono) e) (hop : Throughout Offered e) :
    Derives chrono .prim (exprTokens e) e := by
  induction e with
  | condition c => exact .condition (.inr rfl) (buildRunFilterCondition_targetText h hop)
  | and left right ihl ihr => exact .paren (.ofAnd (.and (.ofPrim (ihl h.1 hop.1)) (ihr h.2 hop.2)))
  | or left right ihl ihr => exact .paren (.or (.ofAnd (.ofPrim (ihl h.1 hop.1))) (.ofPrim (ihr h.2 hop.2)))

/-! The whole text. -/

theorem tokenizeRunFilter_exprText {e : RunFilterExpr} (h : Throughout (Plain chrono) e)
    (htokens : (exprTokens e).length ≤ runFilterMaxTokens) :
    tokenizeRunFilter (exprText e) = .ok (exprTokens e) := by
  obtain ⟨k, hk, hread⟩ := lexes_exprText h
  have hall := hread ((exprText e).toList.length - k) []
  rw [Nat.sub_add_cancel hk, List.append_nil] at hall
  have hend : ∀ n, readTokens n [] = .ok [] := by
    intro n
    cases n <;> rfl
  rw [tokenizeRunFilter, hall, hend]
  change (if runFilterMaxTokens < (exprTokens e ++ []).length then _ else _) = _
  rw [List.append_nil, if_neg (Nat.not_lt.mpr htokens)]
  exact congrArg Except.ok (List.append_nil _)

theorem exprText_ends {e : RunFilterExpr} (h : Throughout (Plain chrono) e) :
    ∃ c cs d, (exprText e).toList = c :: cs ++ [d] ∧ isWhitespace c = false ∧ isWhitespace d = false := by
  cases e with
  | condition c =>
      obtain ⟨first, rest, htext⟩ := List.exists_cons_of_ne_nil (targetText_ne_nil c.target)
      have hfirst := not_whitespace_of_path (isPathChar_targetText h first (htext ▸ List.mem_cons_self))
      refine ⟨first, rest ++ ' ' :: (operatorText c.op).toList ++ ' ' :: '"' :: (escape c.value).toList,
        '"', ?_, hfirst,
        by decide⟩
      simp [exprText, quoted, String.toList_append, htext]
  | and left right =>
      refine ⟨'(', (exprText left).toList ++ [' ', 'a', 'n', 'd', ' '] ++ (exprText right).toList, ')', ?_, by decide,
        by decide⟩
      simp [exprText, String.toList_append]
  | or left right =>
      refine ⟨'(', (exprText left).toList ++ [' ', 'o', 'r', ' '] ++ (exprText right).toList, ')', ?_, by decide,
        by decide⟩
      simp [exprText, String.toList_append]

/-- An expression that is written out is read back as it is. -/
theorem parseRunFilterExpr_exprText {e : RunFilterExpr} (h : Throughout (Plain chrono) e) (hop : Throughout Offered e)
    (hlength : byteLength (exprText e) ≤ runFilterMaxLen) (htokens : (exprTokens e).length ≤ runFilterMaxTokens) :
    parseRunFilterExpr chrono (some (exprText e)) = .ok (some e) := by
  obtain ⟨c, cs, d, htext, hc, hd⟩ := exprText_ends h
  have hempty : exprText e ≠ "" := by
    intro hnil
    rw [hnil] at htext
    cases htext
  have hparse : parse chrono (exprTokens e) = .ok e :=
    ((parse_iff chrono _).1 e).2 (.ofAnd (.ofPrim (derives_exprTokens h hop)))
  obtain ⟨token, tokens, hcons⟩ := List.exists_cons_of_ne_nil (derives_exprTokens h hop).ne_nil
  rw [parseRunFilterExpr]
  simp only [trim_of_ends htext hc hd, if_neg hempty, if_neg (Nat.not_lt.mpr hlength),
    tokenizeRunFilter_exprText h htokens, hcons]
  rw [← hcons, hparse]

/-- A name with a quote, a backslash and a word of the language, beside a tag with
its old name. -/
def quotedExpr : RunFilterExpr :=
  .and (.condition ⟨.name, .contains, "a\"b\\ and (c"⟩)
    (.or (.condition ⟨.tag "tags.team" (some "team"), .notEq, "or"⟩) (.condition ⟨.status, .eq, "running"⟩))

theorem parseRunFilterExpr_quotedExpr :
    parseRunFilterExpr noTimes (some (exprText quotedExpr)) = .ok (some quotedExpr) := by
  apply parseRunFilterExpr_exprText
  · refine ⟨⟨by decide, by decide, trivial⟩, ⟨by decide, by decide, ⟨"team", ?_, ?_⟩⟩, ⟨by decide,
      by decide, ?_⟩⟩
    · decide
    · decide
    · change toAsciiLowercase "running" = "running"
      decide
  · exact ⟨rfl, rfl, rfl⟩
  · decide
  · decide

theorem unoffered_operator : ¬ ∀ (chrono : Chrono) (e : RunFilterExpr), Throughout (Plain chrono) e →
    byteLength (exprText e) ≤ runFilterMaxLen → (exprTokens e).length ≤ runFilterMaxTokens →
    parseRunFilterExpr chrono (some (exprText e)) = .ok (some e) := by
  intro h
  have hread := h noTimes (.condition ⟨.name, .gt, "a"⟩) ⟨by decide, by decide, trivial⟩ (by decide)
    (by decide)
  revert hread
  decide

end MLRunX.FilterPrinting
