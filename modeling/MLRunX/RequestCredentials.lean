import MLRunX.DisabledUsers
import MLRunX.UrlPaths

namespace MLRunX.RequestCredentials

open Auth Commands Http Runs Text UiAuth UiRequests UiTables

/-- The head of a request. A header is the first value of its name, if that is text. -/
structure RequestHead where
  method : String
  path : String
  header : String → Option String

/-- What the key store is told about the cookies of the UI. -/
structure CookieSettings where
  sessionCookieName : String
  csrfCookieName : String
  ttlSeconds : Nat
  secure : Bool
  sameSite : String
  domain : Option String

inductive Extracted
  | missing
  | apiKey (rawKey : String)
  | bearer (rawToken : String)
  | uiSession (sessionToken : String) (csrfHeaderToken csrfCookieToken : Option String) (requireCsrf : Bool)
  deriving DecidableEq, Repr

def Extracted.credential : Extracted → RequestCredential
  | .missing => .missing
  | .apiKey _ => .apiKey
  | .bearer rawToken => .bearer rawToken
  | .uiSession sessionToken csrfHeaderToken _ requireCsrf => .uiSession sessionToken csrfHeaderToken requireCsrf

def nonBlank (value : Option String) : Option String := (value.map trim).filter (fun v => !v.isEmpty)

def stripPrefix (start s : String) : Option String :=
  if start.toList.isPrefixOf s.toList then some (String.ofList (s.toList.drop start.toList.length)) else none

def extractHeaderToken (r : RequestHead) (name : String) : Option String := nonBlank (r.header name)

/-- The text before the first equals sign and the text behind it. -/
def nameValue (part : String) : Option (String × String) :=
  match (trim part).toList.dropWhile (· ≠ '=') with
  | [] => none
  | _ :: value => some (trim (String.ofList ((trim part).toList.takeWhile (· ≠ '='))), trim (String.ofList value))

def cookieNamed (cookieName : String) (pair : String × String) : Option String :=
  if pair.1 == cookieName && !pair.2.isEmpty then some pair.2 else none

def extractCookie (r : RequestHead) (cookieName : String) : Option String :=
  (r.header "cookie").bind (fun cookies =>
    (split ';' cookies).findSome? (fun part => (nameValue part).bind (cookieNamed cookieName)))

def requiresCsrf (method path : String) : Bool :=
  ["POST", "PUT", "PATCH", "DELETE"].contains method &&
    !(["/api/v1/runs/compare", "/api/v1/runs/compare/charts"].contains path)

def extractRequestCredential (uiJwtEnabled : Bool) (settings : CookieSettings) (r : RequestHead) : Extracted :=
  match nonBlank (r.header "x-api-key") with
  | some rawKey => .apiKey rawKey
  | none => match nonBlank ((r.header "authorization").bind (stripPrefix "Bearer ")) with
      | some rawToken => .bearer rawToken
      | none =>
          if uiJwtEnabled then
            match extractCookie r settings.sessionCookieName with
            | some sessionToken => .uiSession sessionToken (extractHeaderToken r "x-csrf-token")
                (extractCookie r settings.csrfCookieName) (requiresCsrf r.method r.path)
            | none => .missing
          else
            .missing

def buildCookie (name value : String) (ttlSeconds : Nat) (httpOnly secure : Bool) (sameSite : String)
    (domain : Option String) : String :=
  s!"{name}={value}; Path=/; Max-Age={ttlSeconds}; SameSite={sameSite}" ++
    (match domain with
    | some domain => "; Domain=" ++ domain
    | none => "") ++
    (if httpOnly then "; HttpOnly" else "") ++ (if secure then "; Secure" else "")

def isVisibleAscii (c : Char) : Bool := (32 ≤ c.toNat && c.toNat < 127) || c == '\t'

def headerValue (value : String) : Option String := if value.toList.all isVisibleAscii then some value else none

def buildCookieValue (name value : String) (ttlSeconds : Nat) (httpOnly secure : Bool) (sameSite : String)
    (domain : Option String) : Option String :=
  headerValue (buildCookie name value ttlSeconds httpOnly secure sameSite domain)

variable (settings : CookieSettings)

def sessionCookie (sessionToken : String) : Option String :=
  buildCookieValue settings.sessionCookieName sessionToken settings.ttlSeconds true settings.secure settings.sameSite
    settings.domain

def csrfCookie (csrfToken : String) : Option String :=
  buildCookieValue settings.csrfCookieName csrfToken settings.ttlSeconds false settings.secure settings.sameSite
    settings.domain

def appendUiSessionRefreshCookies (sessionToken csrfToken : String) : List String :=
  if sessionToken.isEmpty || csrfToken.isEmpty then []
  else (sessionCookie settings sessionToken).toList ++ (csrfCookie settings csrfToken).toList

def refreshTokens : Extracted → Option (String × String)
  | .uiSession sessionToken csrfHeaderToken csrfCookieToken _ =>
      (csrfCookieToken.or csrfHeaderToken).map (sessionToken, ·)
  | _ => none

def refreshCookies (r : RequestHead) (credential : Extracted) : List String :=
  if r.path == "/api/v1/ui-auth/logout" then []
  else match refreshTokens credential with
    | some (sessionToken, csrfToken) => appendUiSessionRefreshCookies settings sessionToken csrfToken
    | none => []

inductive WebOp
  | login (jwt bearer : Option String) (env : Env)
  | request (r : RequestHead) (action : Action) (env : Env)

variable (setup : Setup)

def extracted (r : RequestHead) : Extracted := extractRequestCredential setup.uiJwt.enabled settings r

def WebOp.toOp : WebOp → Op
  | .login jwt bearer env => .login jwt bearer env
  | .request r action env => .request (extracted settings setup r).credential action env

/-- The cookies that the middleware sets. A request that is served has them, whatever its answer. -/
def setCookies : WebOp → Reply → List String
  | .request r _ _, .served _ _ => if setup.authDisabled then [] else
      refreshCookies settings r (extracted settings setup r)
  | _, _ => []

def webStep : Machine UiStore WebOp (Reply × List String) := fun s op =>
  (((step setup s (op.toOp settings setup)).1, setCookies settings setup op (step setup s (op.toOp settings setup)).1),
    (step setup s (op.toOp settings setup)).2)

/-! What is written is read back. -/

section Cookies

theorem trimChars_eq_self_iff {cs : List Char} :
    trimChars cs = cs ↔ (∀ c ∈ cs.head?, isWhitespace c = false) ∧
      ∀ c ∈ cs.getLast?, isWhitespace c = false := by
  have hchars : trimChars cs = (cs.dropWhile isWhitespace).rdropWhile isWhitespace := rfl
  constructor
  · intro h
    have hfront : cs.dropWhile isWhitespace = cs := by
      apply (List.dropWhile_suffix isWhitespace).eq_of_length
      apply Nat.le_antisymm (List.length_dropWhile_le _ _)
      calc cs.length = (trimChars cs).length := by rw [h]
        _ ≤ (cs.dropWhile isWhitespace).length := (List.rdropWhile_prefix _ _).length_le
    rw [hchars, hfront] at h
    constructor
    · intro c hc
      cases cs with
      | nil => cases hc
      | cons d rest =>
          obtain rfl := Option.some.inj hc
          by_contra hblank
          rw [List.dropWhile_cons_of_pos (by simpa using hblank)] at hfront
          exact absurd (congrArg List.length hfront) (Nat.ne_of_lt (Nat.lt_succ_of_le (List.length_dropWhile_le _ _)))
    · intro c hc
      have hlast := List.rdropWhile_eq_self_iff.mp h
      obtain ⟨hne, rfl⟩ := List.mem_getLast?_eq_getLast hc
      simpa using hlast hne
  · rintro ⟨hfirst, hlast⟩
    have hfront : cs.dropWhile isWhitespace = cs := by
      cases cs with
      | nil => rfl
      | cons d rest => exact List.dropWhile_cons_of_neg (by simp [hfirst d rfl])
    rw [hchars, hfront]
    apply List.rdropWhile_eq_self_iff.mpr
    intro hne
    simp [hlast _ (List.getLast?_eq_some_getLast hne)]

/-- A cookie that goes through the header unharmed. -/
structure Portable (pair : String × String) : Prop where
  name : trim pair.1 = pair.1 ∧ '=' ∉ pair.1.toList ∧ ';' ∉ pair.1.toList
  value : trim pair.2 = pair.2 ∧ ';' ∉ pair.2.toList

def pairText (pair : String × String) : List Char := pair.1.toList ++ '=' :: pair.2.toList

def cookieHeader (pairs : List (String × String)) : String :=
  String.ofList ([';', ' '].intercalate (pairs.map pairText))

theorem trimChars_of_trim {s : String} (h : trim s = s) : trimChars s.toList = s.toList := by
  have h := congrArg String.toList h
  rwa [trim, String.toList_ofList] at h

theorem trimChars_pairText {pair : String × String} (h : Portable pair) :
    trimChars (pairText pair) = pairText pair := by
  obtain ⟨hfirst, -⟩ := trimChars_eq_self_iff.mp (trimChars_of_trim h.name.1)
  obtain ⟨-, hlast⟩ := trimChars_eq_self_iff.mp (trimChars_of_trim h.value.1)
  apply trimChars_eq_self_iff.mpr
  constructor
  · intro c hc
    cases hname : pair.1.toList with
    | nil =>
        rw [pairText, hname] at hc
        obtain rfl := Option.some.inj hc
        decide
    | cons d rest =>
        rw [pairText, hname] at hc
        exact hfirst c (hname ▸ hc)
  · intro c hc
    rw [pairText, List.getLast?_append] at hc
    cases hvalue : pair.2.toList with
    | nil =>
        rw [hvalue] at hc
        obtain rfl := Option.some.inj hc
        decide
    | cons d rest =>
        rw [hvalue, List.getLast?_cons_cons] at hc
        apply hlast c
        rw [hvalue]
        cases hrest : (d :: rest).getLast? with
        | none => simp at hrest
        | some last =>
            rw [hrest] at hc
            exact hc

theorem nameValue_pairText {pair : String × String} (h : Portable pair) {part : String}
    (hpart : trim part = String.ofList (pairText pair)) : nameValue part = some pair := by
  have htoList : (trim part).toList = pairText pair := by rw [hpart, String.toList_ofList]
  have hname : ∀ c ∈ pair.1.toList, decide (c ≠ '=') = true := fun c hc => by
    have hne : c ≠ '=' := fun heq => h.name.2.1 (heq ▸ hc)
    simpa using hne
  rw [nameValue, htoList, pairText, List.dropWhile_append_of_pos hname, List.takeWhile_append_of_pos hname]
  have hdrop : ('=' :: pair.2.toList).dropWhile (fun c => decide (c ≠ '=')) = '=' :: pair.2.toList :=
    List.dropWhile_cons_of_neg (by decide)
  have htake : ('=' :: pair.2.toList).takeWhile (fun c => decide (c ≠ '=')) = [] :=
    List.takeWhile_cons_of_neg (by decide)
  rw [hdrop, htake, List.append_nil, String.ofList_toList, h.name.1]
  exact congrArg (fun value => some (pair.1, value)) ((congrArg trim (String.ofList_toList)).trans h.value.1)

theorem semicolon_not_mem {pair : String × String} (h : Portable pair) : ';' ∉ pairText pair := by
  rw [pairText, List.mem_append, List.mem_cons]
  rintro (hname | hequals | hvalue)
  · exact h.name.2.2 hname
  · exact absurd hequals (by decide)
  · exact h.value.2 hvalue

theorem trim_spaced {pair : String × String} (h : Portable pair) :
    trim (String.ofList (' ' :: pairText pair)) = String.ofList (pairText pair) := by
  have hspace : trimChars (' ' :: pairText pair) = trimChars (pairText pair) := by
    rw [trimChars, List.dropWhile_cons_of_pos (by decide)]
    rfl
  rw [trim, String.toList_ofList, hspace, trimChars_pairText h]

theorem intercalate_spaced (first : List Char) (rest : List (List Char)) :
    [';', ' '].intercalate (first :: rest) = [';'].intercalate (first :: rest.map (' ' :: ·)) := by
  induction rest generalizing first with
  | nil => rfl
  | cons next rest ih =>
      rw [List.intercalate_cons_cons, ih, List.map_cons, List.intercalate_cons_cons]
      cases rest with
      | nil => simp [List.intercalate]
      | cons third rest =>
          rw [List.map_cons, List.intercalate_cons_cons, List.intercalate_cons_cons]
          simp

theorem findSome_cookieHeader {β : Type} {pairs : List (String × String)} (h : ∀ pair ∈ pairs, Portable pair)
    (f : String × String → Option β) (hne : pairs ≠ []) :
    (split ';' (cookieHeader pairs)).findSome? (fun part => (nameValue part).bind f) = pairs.findSome? f := by
  cases pairs with
  | nil => exact absurd rfl hne
  | cons pair pairs =>
      have hpair := h pair List.mem_cons_self
      have hpairs : ∀ pair ∈ pairs, Portable pair := fun p hp => h p (List.mem_cons_of_mem _ hp)
      have hsplit : split ';' (cookieHeader (pair :: pairs)) =
          String.ofList (pairText pair) :: pairs.map (fun p => String.ofList (' ' :: pairText p)) := by
        rw [split, cookieHeader, String.toList_ofList, List.map_cons, intercalate_spaced, List.splitOn_intercalate]
        · simp
        · intro part hpart
          rcases List.mem_cons.mp hpart with rfl | hpart
          · exact semicolon_not_mem hpair
          · simp only [List.map_map, List.mem_map, Function.comp_apply] at hpart
            obtain ⟨p, hp, rfl⟩ := hpart
            simpa using semicolon_not_mem (hpairs p hp)
        · exact List.cons_ne_nil _ _
      have hfirst : nameValue (String.ofList (pairText pair)) = some pair := by
        apply nameValue_pairText hpair
        rw [trim, String.toList_ofList, trimChars_pairText hpair]
      have hrest : (pairs.map (fun p => String.ofList (' ' :: pairText p))).findSome?
          (fun part => (nameValue part).bind f) = pairs.findSome? f := by
        clear hsplit hne h
        induction pairs with
        | nil => rfl
        | cons next pairs ih =>
            have hnext := hpairs next List.mem_cons_self
            rw [List.map_cons, List.findSome?_cons, List.findSome?_cons, nameValue_pairText hnext (trim_spaced hnext),
              ih (fun p hp => hpairs p (List.mem_cons_of_mem _ hp))]
            rfl
      rw [hsplit, List.findSome?_cons, List.findSome?_cons, hfirst, hrest]
      rfl

def twoCookies : List (String × String) := [("mlrunx_ui_session", "s=1"), ("mlrunx_ui_csrf", "c1")]

def cookiesOnly (method path : String) (cookies : List (String × String)) : RequestHead :=
  ⟨method, path, fun name => if name == "cookie" then some (cookieHeader cookies) else none⟩

/-- The name and the value that a browser keeps of a cookie that is set. -/
def keptPair (setCookie : String) : Option (String × String) := (split ';' setCookie).head?.bind nameValue

theorem keptPair_buildCookie {name value : String} (h : Portable (name, value)) (ttlSeconds : Nat)
    (httpOnly secure : Bool) (sameSite : String) (domain : Option String) :
    keptPair (buildCookie name value ttlSeconds httpOnly secure sameSite domain) = some (name, value) := by
  have hfront : ∃ back, (buildCookie name value ttlSeconds httpOnly secure sameSite domain).toList =
      pairText (name, value) ++ ';' :: back := by
    refine ⟨" Path=/; Max-Age=".toList ++
      ((toString ttlSeconds).toList ++ ("; SameSite=".toList ++ (sameSite.toList ++
      ((match domain with
        | some domain => "; Domain=" ++ domain
        | none => "").toList ++
      ((if httpOnly then "; HttpOnly" else "").toList ++ (if secure then "; Secure" else "").toList))))), ?_⟩
    simp only [buildCookie, pairText, String.toList_append, List.append_assoc, List.cons_append]
    rfl
  obtain ⟨back, hback⟩ := hfront
  rw [keptPair, split, hback, List.splitOn_append_cons_self_of_not_mem (semicolon_not_mem h), List.map_cons,
    List.head?_cons, Option.bind_some]
  apply nameValue_pairText h
  rw [trim, String.toList_ofList, trimChars_pairText h]

theorem nameValue_some {part name value : String} (h : nameValue part = some (name, value)) :
    trim value = value ∧ ∀ c ∈ value.toList, c ∈ part.toList := by
  rw [nameValue] at h
  split at h
  · cases h
  · rename_i equals rest hrest
    obtain ⟨-, rfl⟩ := Prod.mk.inj (Option.some.inj h)
    refine ⟨trim_trim _, fun c hc => mem_trim ?_⟩
    have hc := mem_trim hc
    rw [String.toList_ofList] at hc
    exact (List.dropWhile_sublist _).subset (hrest ▸ List.mem_cons_of_mem _ hc)

theorem cookieNamed_some {cookieName v : String} {pair : String × String} (h : cookieNamed cookieName pair = some v) :
    pair = (cookieName, v) ∧ v ≠ "" := by
  rw [cookieNamed] at h
  split at h
  · rename_i hname
    obtain rfl := Option.some.inj h
    rw [Bool.and_eq_true, beq_iff_eq] at hname
    exact ⟨Prod.ext hname.1 rfl, by simpa [String.isEmpty_iff] using hname.2⟩
  · cases h

theorem extractCookie_portable {r : RequestHead} {cookieName v : String} (h : extractCookie r cookieName = some v) :
    trim v = v ∧ ';' ∉ v.toList ∧ v ≠ "" := by
  obtain ⟨cookies, -, h⟩ := Option.bind_eq_some_iff.mp h
  obtain ⟨part, hpart, h⟩ := List.exists_of_findSome?_eq_some h
  obtain ⟨pair, hpair, h⟩ := Option.bind_eq_some_iff.mp h
  obtain ⟨rfl, hne⟩ := cookieNamed_some h
  obtain ⟨htrim, hmem⟩ := nameValue_some hpair
  refine ⟨htrim, fun hc => ?_, hne⟩
  rw [split, List.mem_map] at hpart
  obtain ⟨chars, hchars, rfl⟩ := hpart
  have hc := hmem _ hc
  rw [String.toList_ofList] at hc
  rw [List.splitOn_eq_splitOnP] at hchars
  exact absurd (UrlPaths.not_mem_splitOnP hchars ';' hc) (by decide)

theorem buildCookieValue_some {name value cookie : String} {ttlSeconds : Nat} {httpOnly secure : Bool}
    {sameSite : String} {domain : Option String}
    (h : buildCookieValue name value ttlSeconds httpOnly secure sameSite domain = some cookie) :
    cookie = buildCookie name value ttlSeconds httpOnly secure sameSite domain := by
  rw [buildCookieValue, headerValue] at h
  split at h
  · exact (Option.some.inj h).symm
  · cases h

variable {settings : CookieSettings} {setup : Setup} {r : RequestHead}

theorem extracted_uiSession {sessionToken : String} {csrfHeaderToken csrfCookieToken : Option String}
    {requireCsrf : Bool}
    (h : extracted settings setup r = .uiSession sessionToken csrfHeaderToken csrfCookieToken requireCsrf) :
    extractCookie r settings.sessionCookieName = some sessionToken ∧
      csrfCookieToken = extractCookie r settings.csrfCookieName ∧
      csrfHeaderToken = extractHeaderToken r "x-csrf-token" ∧ requireCsrf = requiresCsrf r.method r.path := by
  rw [extracted, extractRequestCredential] at h
  split at h
  · cases h
  split at h
  · cases h
  split at h
  · split at h
    · rename_i token htoken
      cases h
      exact ⟨htoken, rfl, rfl, rfl⟩
    · cases h
  · cases h

/-- A cookie that the middleware sets anew has the value with which the request came. -/
theorem refreshed_of_request (hsession : trim settings.sessionCookieName = settings.sessionCookieName ∧
      '=' ∉ settings.sessionCookieName.toList ∧ ';' ∉ settings.sessionCookieName.toList)
    (hcsrf : trim settings.csrfCookieName = settings.csrfCookieName ∧
      '=' ∉ settings.csrfCookieName.toList ∧ ';' ∉ settings.csrfCookieName.toList)
    (hcarried : (extractCookie r settings.csrfCookieName).isSome) {cookie : String}
    (hcookie : cookie ∈ refreshCookies settings r (extracted settings setup r)) :
    ∃ name value, keptPair cookie = some (name, value) ∧ extractCookie r name = some value := by
  rw [refreshCookies] at hcookie
  split at hcookie
  · cases hcookie
  cases hextracted : extracted settings setup r with
  | missing | apiKey rawKey | bearer rawToken =>
      rw [hextracted] at hcookie
      cases hcookie
  | uiSession sessionToken csrfHeaderToken csrfCookieToken requireCsrf =>
      obtain ⟨hsessionToken, hcsrfToken, -⟩ := extracted_uiSession hextracted
      obtain ⟨csrfToken, hcarried⟩ := Option.isSome_iff_exists.mp hcarried
      rw [hextracted, refreshTokens, hcsrfToken, hcarried] at hcookie
      have hcookie : cookie ∈ appendUiSessionRefreshCookies settings sessionToken csrfToken := hcookie
      rw [appendUiSessionRefreshCookies] at hcookie
      split at hcookie
      · cases hcookie
      rcases List.mem_append.mp hcookie with hcookie | hcookie
      · have hportable := extractCookie_portable hsessionToken
        refine ⟨settings.sessionCookieName, sessionToken, ?_, hsessionToken⟩
        rw [buildCookieValue_some (Option.mem_toList.mp hcookie)]
        exact keptPair_buildCookie ⟨hsession, hportable.1, hportable.2.1⟩ _ _ _ _ _
      · have hportable := extractCookie_portable hcarried
        refine ⟨settings.csrfCookieName, csrfToken, ?_, hcarried⟩
        rw [buildCookieValue_some (Option.mem_toList.mp hcookie)]
        exact keptPair_buildCookie ⟨hcsrf, hportable.1, hportable.2.1⟩ _ _ _ _ _

def uiCookies : CookieSettings := ⟨"mlrunx_ui_session", "mlrunx_ui_csrf", 3600, true, "Lax", none⟩

theorem refreshed_twoCookies :
    ∃ name value,
      keptPair "mlrunx_ui_session=s=1; Path=/; Max-Age=3600; SameSite=Lax; HttpOnly; Secure" = some (name, value) ∧
        extractCookie (cookiesOnly "GET" "/api/v1/runs" twoCookies) name = some value :=
  @refreshed_of_request uiCookies DisabledUsers.oneUser (cookiesOnly "GET" "/api/v1/runs" twoCookies)
    (by decide +kernel) (by decide +kernel) (by decide +kernel) _ (by decide +kernel)

end Cookies

/-! What a page of another site can make a browser send has no effect. -/

section Forged

variable {settings : CookieSettings} {setup : Setup}

/-- A request that would write, made of what a browser adds on its own: cookies, and no
header that names a key or a token. -/
structure Forged (r : RequestHead) : Prop where
  mutates : requiresCsrf r.method r.path = true
  noKey : nonBlank (r.header "x-api-key") = none
  noBearer : (r.header "authorization").bind (stripPrefix "Bearer ") = none
  noToken : nonBlank (r.header "x-csrf-token") = none

instance (r : RequestHead) : Decidable (Forged r) :=
  decidable_of_iff (requiresCsrf r.method r.path = true ∧ nonBlank (r.header "x-api-key") = none ∧
      (r.header "authorization").bind (stripPrefix "Bearer ") = none ∧ nonBlank (r.header "x-csrf-token") = none)
    ⟨fun ⟨h₁, h₂, h₃, h₄⟩ => ⟨h₁, h₂, h₃, h₄⟩, fun ⟨h₁, h₂, h₃, h₄⟩ =>
      ⟨h₁, h₂, h₃, h₄⟩⟩

def WebOp.forged : WebOp → Bool
  | .login _ _ _ => false
  | .request r _ _ => decide (Forged r)

theorem extracted_forged {r : RequestHead} (h : Forged r) :
    (extracted settings setup r).credential = .missing ∨
      ∃ sessionToken, (extracted settings setup r).credential = .uiSession sessionToken none true := by
  rw [extracted, extractRequestCredential, h.noKey, h.noBearer]
  dsimp only [nonBlank, Option.map_none, Option.filter_none]
  split
  · split
    · rename_i sessionToken _
      refine .inr ⟨sessionToken, ?_⟩
      rw [Extracted.credential, extractHeaderToken, h.noToken, h.mutates]
    · exact .inl rfl
  · exact .inl rfl

theorem authenticateUiSession_forged (setup : Setup) (env : Env) (sessionToken : String) (s : UiStore) :
    ∃ e, authenticateUiSession setup env sessionToken none true s = (.error e, s) := by
  rw [authenticateUiSession]
  split
  · exact ⟨_, rfl⟩
  · have hleaves : id (findUiSession setup env sessionToken s).2 = id s :=
      (leaves_findUiSession env sessionToken).shows s
    cases hfind : findUiSession setup env sessionToken s with
    | mk result s' =>
        rw [hfind] at hleaves
        obtain rfl : s' = s := hleaves
        cases result with
        | error e => exact ⟨e, bind_error hfind⟩
        | ok found =>
            rw [bind_ok hfind]
            rcases found with _ | ⟨session, hash⟩
            · exact ⟨_, rfl⟩
            · exact ⟨_, rfl⟩

theorem authMiddleware_forged (henabled : setup.authDisabled = false) {r : RequestHead} (h : Forged r) (env : Env)
    (s : UiStore) :
    ∃ e, authMiddleware setup env (extracted settings setup r).credential s = (.error e, s) := by
  have hcredential : (extracted settings setup r).credential = .missing ∨
      ∃ sessionToken, (extracted settings setup r).credential = .uiSession sessionToken none true :=
        extracted_forged h
  generalize (extracted settings setup r).credential = credential at hcredential ⊢
  simp only [authMiddleware, henabled, Bool.false_eq_true, if_false]
  rcases hcredential with rfl | ⟨sessionToken, rfl⟩
  · cases env.retryAfter with
    | some seconds => exact ⟨rateLimited seconds, rfl⟩
    | none => exact ⟨missingKey, rfl⟩
  · cases env.retryAfter with
    | some seconds => exact ⟨rateLimited seconds, rfl⟩
    | none =>
        obtain ⟨e, herror⟩ := authenticateUiSession_forged setup env sessionToken s
        exact ⟨_, bind_error (by rw [mapError, herror]; rfl)⟩

theorem webStep_forged (henabled : setup.authDisabled = false) (s : UiStore) {op : WebOp} (h : op.forged = true) :
    ∃ e, webStep settings setup s op = ((.refused e, []), s) := by
  cases op with
  | login jwt bearer env => cases h
  | request r action env =>
      obtain ⟨e, herror⟩ : ∃ e, authMiddleware setup env (extracted settings setup r).credential s =
          (.error e, s) :=
        authMiddleware_forged henabled (of_decide_eq_true h) env s
      refine ⟨e, ?_⟩
      simp only [webStep, WebOp.toOp, step_refused herror]
      rfl

end Forged

end MLRunX.RequestCredentials
