import Mathlib.Logic.Function.Basic
import MLRunX.AuthBackoff
import MLRunX.HttpRateLimit
import MLRunX.TrustedProxies

namespace MLRunX.ClientIdentity

open Text TrustedProxies

/-- The variables that say which proxies are trusted. -/
structure ProxyEnv where
  trustProxyHeaders : Option String
  trustedProxyCidrs : Option String

structure SocketAddr where
  ip : IpAddr
  port : UInt16

abbrev HeaderMap := String → Option (List UInt8)

structure Request where
  headers : HeaderMap
  connectInfo : Option SocketAddr
  socketAddr : Option SocketAddr

def isVisible (b : UInt8) : Bool := (32 ≤ b && b < 127) || b == 9

def toStr (value : List UInt8) : Option String :=
  if value.all isVisible then some (String.ofList (value.map (fun b => Char.ofNat b.toNat))) else none

def firstOf (forwarded : String) : String := ((split ',' forwarded).head?.map trim).getD ""

variable (text : AddressText)

namespace Server

def envFlagDefault (value : Option String) (defaultValue : Bool) : Bool :=
  (value.map (fun v => v == "1" || eqIgnoreAsciiCase v "true" || eqIgnoreAsciiCase v "yes")).getD defaultValue

def trustProxyHeaders (env : ProxyEnv) : Bool := envFlagDefault env.trustProxyHeaders false

def parseEntries : List String → Option (Except String (List Server.TrustedProxyRule))
  | [] => some (.ok [])
  | entry :: entries => do
      match ← Server.TrustedProxyRule.parse text entry with
      | .error err => some (.error s!"Invalid MLRUNX_TRUSTED_PROXY_CIDRS entry '{entry}': {err}")
      | .ok rule => some ((← parseEntries entries).map (fun rules => rule :: rules))

def trustedProxyRulesFromEnv (env : ProxyEnv) : Option (Except String (List Server.TrustedProxyRule)) :=
  parseEntries text (((split ',' (env.trustedProxyCidrs.getD "")).map trim).filter (fun value => value ≠ ""))

def shouldTrustForwardedHeaders (env : ProxyEnv) (socketIp : Option IpAddr) : Option Bool :=
  if !trustProxyHeaders env then some false
  else match socketIp with
    | none => some false
    | some peerIp => do
        match ← trustedProxyRulesFromEnv text env with
        | .error _ => some false
        | .ok trustedRules =>
            if trustedRules.isEmpty then some false else trustedRules.anyM (fun rule => rule.matchesIp peerIp)

def headerString (headers : HeaderMap) (name : String) : Option String :=
  (((headers name).bind toStr).map trim).filter (fun v => v ≠ "")

def trustedForwardedClientIp (headers : HeaderMap) : Option String :=
  match headerString headers "x-forwarded-for" with
  | some forwarded => if firstOf forwarded ≠ "" then some (firstOf forwarded) else headerString headers "x-real-ip"
  | none => headerString headers "x-real-ip"

def clientIpFromSocketExtensions (req : Request) : Option String :=
  (req.connectInfo.map (fun info => text.display info.ip)).or (req.socketAddr.map (fun addr => text.display addr.ip))

/-- Who the requests of the login are counted for. -/
def inferClientIp (env : ProxyEnv) (headers : HeaderMap) (socketAddr : Option SocketAddr) : Option (Option String) := do
  let socketIp := socketAddr.map SocketAddr.ip
  if ← shouldTrustForwardedHeaders text env socketIp then
    some ((trustedForwardedClientIp headers).or (socketIp.map text.display))
  else some (socketIp.map text.display)

def extractClientIp (env : ProxyEnv) (req : Request) : Option String := do
  let socketIp := (req.connectInfo.map SocketAddr.ip).or (req.socketAddr.map SocketAddr.ip)
  if ← shouldTrustForwardedHeaders text env socketIp then
    some (((trustedForwardedClientIp req.headers).or (clientIpFromSocketExtensions text req)).getD "unknown")
  else some ((clientIpFromSocketExtensions text req).getD "unknown")

end Server

namespace KeyAuth

def envFlagValue (value : String) : Bool :=
  value == "1" || eqIgnoreAsciiCase value "true" || eqIgnoreAsciiCase value "yes"

def trustProxyHeaders (env : ProxyEnv) : Bool := env.trustProxyHeaders.any envFlagValue

def parseEntries : List String → Option (Except String (List KeyAuth.TrustedProxyRule))
  | [] => some (.ok [])
  | entry :: entries => do
      match ← KeyAuth.TrustedProxyRule.parse text entry with
      | .error err => some (.error s!"Invalid MLRUNX_TRUSTED_PROXY_CIDRS entry '{entry}': {err}")
      | .ok rule => some ((← parseEntries entries).map (fun rules => rule :: rules))

def trustedProxyRulesFromEnv (env : ProxyEnv) : Option (Except String (List KeyAuth.TrustedProxyRule)) :=
  parseEntries text (((split ',' (env.trustedProxyCidrs.getD "")).map trim).filter (fun value => value ≠ ""))

def extractForwardedClientIp (req : Request) : Option String :=
  let forwarded := (((req.headers "x-forwarded-for").bind toStr).map trim).filter (fun v => v ≠ "")
  let realIp := (((req.headers "x-real-ip").bind toStr).map trim).filter (fun v => v ≠ "")
  match forwarded with
  | some forwarded => if firstOf forwarded ≠ "" then some (firstOf forwarded) else realIp
  | none => realIp

def extractSocketClientIp (req : Request) : Option String :=
  (req.connectInfo.map (fun info => text.display info.ip)).or (req.socketAddr.map (fun addr => text.display addr.ip))

def extractSocketClientIpAddr (req : Request) : Option IpAddr :=
  (req.connectInfo.map SocketAddr.ip).or (req.socketAddr.map SocketAddr.ip)

def shouldTrustForwardedHeaders (env : ProxyEnv) (req : Request) : Option Bool :=
  if !trustProxyHeaders env then some false
  else match extractSocketClientIpAddr req with
    | none => some false
    | some peerIp => do
        match ← trustedProxyRulesFromEnv text env with
        | .error _ => some false
        | .ok trustedRules =>
            if trustedRules.isEmpty then some false else trustedRules.anyM (fun rule => rule.matchesIp peerIp)

/-- Who a credential that is refused is counted for. -/
def extractClientIp (env : ProxyEnv) (req : Request) : Option (Option String) := do
  if ← shouldTrustForwardedHeaders text env req then
    some ((extractForwardedClientIp req).or (extractSocketClientIp text req))
  else some (extractSocketClientIp text req)

def authClientKey (clientIp : Option String) : String := ((clientIp.map trim).filter (fun v => v ≠ "")).getD "unknown"

end KeyAuth

def headerValue (s : String) : List UInt8 := s.toList.map (fun c => UInt8.ofNat c.toNat)

/-- A proxy puts the address of its peer behind the list that the peer has sent. -/
def appended (supplied : Option (List UInt8)) (client : String) : List UInt8 :=
  supplied.elim (headerValue client) (fun list => list ++ headerValue ", " ++ headerValue client)

def Request.behind (req : Request) (supplied : Option (List UInt8)) (client : String) : Request :=
  { req with headers := Function.update req.headers "x-forwarded-for" (some (appended supplied client)) }

section Lists

variable {cs ds : List Char}

theorem not_blank_comma : isWhitespace ',' = false := by decide

theorem head_splitOn (cs : List Char) : (cs.splitOn ',').head? = some (cs.takeWhile (· ≠ ',')) := by
  induction cs with
  | nil => rfl
  | cons c cs ih =>
      obtain ⟨first, rest, hsplit⟩ := List.exists_cons_of_ne_nil (List.splitOnP_ne_nil (· == ',') cs)
      rw [List.splitOn, hsplit, List.head?_cons, Option.some.injEq] at ih
      rw [List.splitOn, List.splitOnP_cons_eq_if_modifyHead, hsplit]
      by_cases hc : c = ','
      · subst hc
        rfl
      · rw [if_neg (by simpa using hc), List.takeWhile_cons_of_pos (by simpa using hc),
          List.modifyHead_cons, List.head?_cons, ih]

theorem firstOf_eq (forwarded : String) :
    firstOf forwarded = String.ofList (trimChars (forwarded.toList.takeWhile (· ≠ ','))) := by
  rw [firstOf, split, List.head?_map, head_splitOn]
  simp [trim]

theorem dropWhile_blank (cs ds : List Char) :
    (cs ++ ',' :: ds).dropWhile isWhitespace = cs.dropWhile isWhitespace ++ ',' :: ds := by
  induction cs with
  | nil => rw [List.nil_append, List.dropWhile_cons_of_neg (by simp [not_blank_comma])]; rfl
  | cons c cs ih =>
      by_cases hc : isWhitespace c = true
      · rw [List.cons_append, List.dropWhile_cons_of_pos hc, List.dropWhile_cons_of_pos hc, ih]
      · rw [List.cons_append, List.dropWhile_cons_of_neg hc, List.dropWhile_cons_of_neg hc, List.cons_append]

theorem takeWhile_comma (cs ds : List Char) :
    (cs ++ ',' :: ds).takeWhile (· ≠ ',') = cs.takeWhile (· ≠ ',') := by
  induction cs with
  | nil => rfl
  | cons c cs ih =>
      by_cases hc : c = ','
      · rw [List.cons_append, List.takeWhile_cons_of_neg (by simpa using hc),
          List.takeWhile_cons_of_neg (by simpa using hc)]
      · rw [List.cons_append, List.takeWhile_cons_of_pos (by simpa using hc),
          List.takeWhile_cons_of_pos (by simpa using hc), ih]

theorem dropWhile_takeWhile (cs : List Char) :
    ((cs.dropWhile isWhitespace).takeWhile (· ≠ ',')).dropWhile isWhitespace =
    (cs.takeWhile (· ≠ ',')).dropWhile isWhitespace := by
  induction cs with
  | nil => rfl
  | cons c cs ih =>
      by_cases hc : isWhitespace c = true
      · have hcomma : c ≠ ',' := by
          rintro rfl
          rw [not_blank_comma] at hc
          cases hc
        rw [List.dropWhile_cons_of_pos hc, ih, List.takeWhile_cons_of_pos (by simpa using hcomma),
          List.dropWhile_cons_of_pos hc]
      · rw [List.dropWhile_cons_of_neg hc]

theorem trimChars_appended (hne : ds ≠ []) (hds : ∀ c ∈ ds, isWhitespace c = false) (cs : List Char) :
    trimChars (cs ++ ',' :: ' ' :: ds) = cs.dropWhile isWhitespace ++ ',' :: ' ' :: ds := by
  obtain ⟨last, init, hrev⟩ := List.exists_cons_of_ne_nil (List.reverse_ne_nil_iff.mpr hne)
  have hlast : isWhitespace last = false := hds last (List.mem_reverse.mp (hrev ▸ List.mem_cons_self))
  have hcons : (cs.dropWhile isWhitespace ++ ',' :: ' ' :: ds).reverse =
      last :: (init ++ (cs.dropWhile isWhitespace ++ [',', ' ']).reverse) := by
    have happend : cs.dropWhile isWhitespace ++ ',' :: ' ' :: ds =
      (cs.dropWhile isWhitespace ++ [',', ' ']) ++ ds := by simp
    rw [happend, List.reverse_append, hrev, List.cons_append]
  rw [trimChars, dropWhile_blank, hcons, List.dropWhile_cons_of_neg (by simp [hlast]), ← hcons,
    List.reverse_reverse]

end Lists

section Headers

variable {text : AddressText} {s : String}

theorem toStr_append (xs ys : List UInt8) : toStr (xs ++ ys) =
    (toStr xs).bind (fun s => (toStr ys).map (fun t => s ++ t)) := by
  by_cases hx : xs.all isVisible = true
  · by_cases hy : ys.all isVisible = true
    · rw [toStr, toStr, toStr, if_pos (by rw [List.all_append, hx, hy]; rfl), if_pos hx, if_pos hy]
      simp
    · rw [toStr, toStr, toStr, if_neg (by rw [List.all_append, hx, Bool.true_and]; exact hy), if_pos hx, if_neg hy]
      rfl
  · rw [toStr, toStr, if_neg (by rw [List.all_append, Bool.and_eq_true]; exact fun h => hx h.1), if_neg hx]
    rfl

theorem toStr_headerValue (h : ∀ c ∈ s.toList, 32 ≤ c.toNat ∧ c.toNat < 127) :
    toStr (headerValue s) = some s := by
  have hnat : ∀ c ∈ s.toList, (UInt8.ofNat c.toNat).toNat = c.toNat := fun c hc =>
    UInt8.toNat_ofNat_of_lt' (Nat.lt_trans (h c hc).2 (by decide))
  have hall : (headerValue s).all isVisible = true := by
    rw [List.all_eq_true]
    intro b hb
    obtain ⟨c, hc, rfl⟩ := List.mem_map.mp hb
    have hlow : 32 ≤ UInt8.ofNat c.toNat := UInt8.le_iff_toNat_le.mpr (by rw [hnat c hc]; exact (h c hc).1)
    have hhigh : UInt8.ofNat c.toNat < 127 := UInt8.lt_iff_toNat_lt.mpr (by rw [hnat c hc]; exact (h c hc).2)
    rw [isVisible, decide_eq_true hlow, decide_eq_true hhigh]
    rfl
  have hback : (headerValue s).map (fun b => Char.ofNat b.toNat) = s.toList := by
    rw [headerValue, List.map_map]
    apply (List.map_congr_left _).trans (List.map_id _)
    intro c hc
    simp only [Function.comp_apply, hnat c hc, Char.ofNat_toNat, id_eq]
  rw [toStr, if_pos hall, hback, String.ofList_toList]

theorem display_plain (text : AddressText) (a : IpAddr) : (text.display a).toList ≠ [] ∧
    (∀ c ∈ (text.display a).toList, isWhitespace c = false ∧ c ≠ ',') ∧
      toStr (headerValue (text.display a)) = some (text.display a) := by
  obtain ⟨hne, hchars⟩ := text.display_chars a
  refine ⟨fun hnil => hne (String.toList_eq_nil_iff.mp hnil), ?_, ?_⟩
  · intro c hc
    obtain ⟨hlow, hhigh, -⟩ := toNat_address (hchars c hc)
    refine ⟨not_blank_of_graphic (by omega) (by omega), ?_⟩
    rintro rfl
    exact absurd hlow (by decide)
  · apply toStr_headerValue
    intro c hc
    obtain ⟨hlow, hhigh, -⟩ := toNat_address (hchars c hc)
    exact ⟨by omega, by omega⟩

theorem headerString_update (headers : HeaderMap) (value : List UInt8) :
    Server.headerString (Function.update headers "x-forwarded-for" (some value)) "x-forwarded-for" =
      ((toStr value).map trim).filter (fun v => v ≠ "") := by
  rw [Server.headerString, Function.update_self, Option.bind_some]

theorem headerString_other (headers : HeaderMap) (value : List UInt8) :
    Server.headerString (Function.update headers "x-forwarded-for" (some value)) "x-real-ip" =
      Server.headerString headers "x-real-ip" := by
  rw [Server.headerString, Function.update_of_ne (by decide), Server.headerString]

end Headers

section Identity

variable {text : AddressText} {env : ProxyEnv} {req : Request} {proxy : SocketAddr} {client : IpAddr}

/-- What is asked where no list was sent that has a first entry. -/
def fallback (text : AddressText) (req : Request) (proxy : SocketAddr) : String :=
  (Server.headerString req.headers "x-real-ip").getD (text.display proxy.ip)

def chosen (text : AddressText) (req : Request) (proxy : SocketAddr) (client : IpAddr)
    (supplied : Option (List UInt8)) :
    String :=
  match supplied with
  | none => text.display client
  | some list => ((toStr list).filter (fun s => firstOf s ≠ "")).elim (fallback text req proxy) firstOf

theorem firstOf_display (text : AddressText) (a : IpAddr) : firstOf (text.display a) = text.display a := by
  obtain ⟨-, hplain, -⟩ := display_plain text a
  have htake : (text.display a).toList.takeWhile (· ≠ ',') = (text.display a).toList := by
    rw [List.takeWhile_eq_self_iff]
    exact fun c hc => decide_eq_true (hplain c hc).2
  rw [firstOf_eq, htake, trimChars_unblank (fun c hc => (hplain c hc).1), String.ofList_toList]

theorem display_ne (text : AddressText) (a : IpAddr) : text.display a ≠ "" := (text.display_chars a).1

theorem trim_display (text : AddressText) (a : IpAddr) : trim (text.display a) = text.display a :=
  trim_unblank (fun c hc => ((display_plain text a).2.1 c hc).1)

theorem firstOf_appended (s : String) (text : AddressText) (a : IpAddr) :
    trim (s ++ ", " ++ text.display a) ≠ "" ∧ firstOf (trim (s ++ ", " ++ text.display a)) = firstOf s := by
  obtain ⟨hne, hplain, -⟩ := display_plain text a
  have hlist : (s ++ ", " ++ text.display a).toList = s.toList ++ ',' :: ' ' :: (text.display a).toList := by simp
  have htrim : (trim (s ++ ", " ++ text.display a)).toList =
      s.toList.dropWhile isWhitespace ++ ',' :: ' ' :: (text.display a).toList := by
    rw [trim, String.toList_ofList, hlist, trimChars_appended hne (fun c hc => (hplain c hc).1)]
  constructor
  · intro hnil
    rw [hnil] at htrim
    exact List.append_ne_nil_of_right_ne_nil _ (List.cons_ne_nil _ _) htrim.symm
  · rw [firstOf_eq, htrim, takeWhile_comma, firstOf_eq, trimChars, trimChars, dropWhile_takeWhile]

theorem forwarded_chosen (supplied : Option (List UInt8)) :
    (Server.trustedForwardedClientIp (req.behind supplied (text.display client)).headers).getD (text.display proxy.ip) =
      chosen text req proxy client supplied := by
  obtain ⟨-, -, hvisible⟩ := display_plain text client
  rw [Request.behind, Server.trustedForwardedClientIp, headerString_update, headerString_other]
  cases supplied with
  | none =>
      rw [appended, Option.elim_none, hvisible, Option.map_some, trim_display, Option.filter_some,
        if_pos (by simpa using display_ne text client)]
      simp only [firstOf_display, if_pos (display_ne text client)]
      rfl
  | some list =>
      have hcomma : toStr (headerValue ", ") = some ", " := by decide
      have hstr : toStr (appended (some list) (text.display client)) =
          (toStr list).map (fun s => s ++ ", " ++ text.display client) := by
        rw [appended, Option.elim_some, toStr_append, toStr_append, hcomma, hvisible]
        cases toStr list <;> rfl
      rw [hstr, chosen]
      cases toStr list with
      | none => rfl
      | some s =>
          obtain ⟨hne, hfirst⟩ := firstOf_appended s text client
          rw [Option.map_some, Option.map_some, Option.filter_some, if_pos (by simpa using hne)]
          simp only [hfirst, Option.filter_some]
          by_cases hempty : firstOf s = ""
          · rw [if_neg (fun h => h hempty), if_neg (by simpa using hempty)]
            rfl
          · rw [if_pos hempty, if_pos (by simpa using hempty)]
            rfl

theorem parseEntries_copied (text : AddressText) (entries : List String) : KeyAuth.parseEntries text entries =
    (Server.parseEntries text entries).map (fun answer => answer.map (List.map copied)) := by
  induction entries with
  | nil => rfl
  | cons entry entries ih =>
      rw [KeyAuth.parseEntries, Server.parseEntries, parse_copied]
      cases Server.TrustedProxyRule.parse text entry with
      | none => rfl
      | some answer =>
          cases answer with
          | error e => rfl
          | ok rule =>
              simp only [Option.map_some, Except.map, Option.bind_eq_bind, Option.bind_some, ih]
              cases Server.parseEntries text entries with
              | none => rfl
              | some answer => cases answer <;> rfl

theorem anyM_copied (rules : List Server.TrustedProxyRule) (ip : IpAddr) :
    (rules.map copied).anyM (fun rule => rule.matchesIp ip) = rules.anyM (fun rule => rule.matchesIp ip) := by
  induction rules with
  | nil => rfl
  | cons rule rules ih => rw [List.map_cons, List.anyM, List.anyM, matchesIp_copied, ih]

theorem shouldTrust_copied (text : AddressText) (env : ProxyEnv) (req : Request) :
    KeyAuth.shouldTrustForwardedHeaders text env req =
      Server.shouldTrustForwardedHeaders text env (KeyAuth.extractSocketClientIpAddr req) := by
  have hflag : KeyAuth.trustProxyHeaders env = Server.trustProxyHeaders env := by
    rw [KeyAuth.trustProxyHeaders, Server.trustProxyHeaders, Server.envFlagDefault]
    cases env.trustProxyHeaders <;> rfl
  have hrules : KeyAuth.trustedProxyRulesFromEnv text env =
      (Server.trustedProxyRulesFromEnv text env).map (fun answer => answer.map (List.map copied)) :=
    parseEntries_copied text _
  unfold KeyAuth.shouldTrustForwardedHeaders Server.shouldTrustForwardedHeaders
  rw [hflag, hrules]
  split
  · rfl
  · cases KeyAuth.extractSocketClientIpAddr req with
    | none => rfl
    | some peerIp =>
        cases Server.trustedProxyRulesFromEnv text env with
        | none => rfl
        | some answer =>
            cases answer with
            | error e => rfl
            | ok rules =>
                simp only [Option.map_some, Except.map, Option.bind_eq_bind, Option.bind_some,
                  List.isEmpty_map, anyM_copied]

theorem forwarded_copied (req : Request) :
    KeyAuth.extractForwardedClientIp req = Server.trustedForwardedClientIp req.headers := rfl

variable (htrust : Server.shouldTrustForwardedHeaders text env (some proxy.ip) = some true)
  (hproxy : req.connectInfo = some proxy)

include htrust hproxy

theorem clientIp_trusted : Server.extractClientIp text env req =
      some ((Server.trustedForwardedClientIp req.headers).getD (text.display proxy.ip)) ∧
    Server.inferClientIp text env req.headers req.connectInfo =
      some (some ((Server.trustedForwardedClientIp req.headers).getD (text.display proxy.ip))) ∧
    KeyAuth.extractClientIp text env req =
      some (some ((Server.trustedForwardedClientIp req.headers).getD (text.display proxy.ip))) := by
  have hsocket : KeyAuth.extractSocketClientIpAddr req = some proxy.ip := by
    rw [KeyAuth.extractSocketClientIpAddr, hproxy]
    rfl
  have hclient : Server.clientIpFromSocketExtensions text req = some (text.display proxy.ip) := by
    rw [Server.clientIpFromSocketExtensions, hproxy]
    rfl
  refine ⟨?_, ?_, ?_⟩
  · have hip : (req.connectInfo.map SocketAddr.ip).or (req.socketAddr.map SocketAddr.ip) = some proxy.ip := hsocket
    simp only [Server.extractClientIp, hip, htrust, hclient, Option.bind_eq_bind, Option.bind_some, if_pos]
    cases Server.trustedForwardedClientIp req.headers <;> rfl
  · simp only [Server.inferClientIp, hproxy, Option.map_some, htrust, Option.bind_eq_bind, Option.bind_some,
      if_pos]
    cases Server.trustedForwardedClientIp req.headers <;> rfl
  · have hclient' : KeyAuth.extractSocketClientIp text req = some (text.display proxy.ip) := hclient
    simp only [KeyAuth.extractClientIp, shouldTrust_copied, hsocket, htrust, hclient', forwarded_copied,
      Option.bind_eq_bind, Option.bind_some, if_pos]
    cases Server.trustedForwardedClientIp req.headers <;> rfl

omit htrust hproxy

/-- A request of a client behind a proxy is counted for the address of the client. -/
structure Identified (text : AddressText) (env : ProxyEnv) (req : Request) (client : IpAddr)
    (supplied : Option (List UInt8)) : Prop where
  bucket : Server.extractClientIp text env (req.behind supplied (text.display client)) = some (text.display client)
  login : Server.inferClientIp text env (req.behind supplied (text.display client)).headers
    (req.behind supplied (text.display client)).connectInfo = some (some (text.display client))
  credential : KeyAuth.extractClientIp text env (req.behind supplied (text.display client)) =
    some (some (text.display client))

/-- The first entry of the list that a client sends is its address, or there is no such entry
and the header that is read next has the address of the client. -/
def Truthful (text : AddressText) (req : Request) (proxy : SocketAddr) (client : IpAddr) : Option (List UInt8) → Prop
  | none => True
  | some list => (∃ s, toStr list = some s ∧ firstOf s ≠ "" ∧ firstOf s = text.display client) ∨
      (∀ s, toStr list = some s → firstOf s = "") ∧ fallback text req proxy = text.display client

theorem chosen_iff (text : AddressText) (req : Request) (proxy : SocketAddr) (client : IpAddr)
    (supplied : Option (List UInt8)) :
    chosen text req proxy client supplied = text.display client ↔ Truthful text req proxy client supplied := by
  cases supplied with
  | none => exact iff_of_true rfl trivial
  | some list =>
      simp only [chosen, Truthful]
      cases hstr : toStr list with
      | none => simp
      | some s =>
          rw [Option.filter_some]
          by_cases hempty : firstOf s = ""
          · rw [if_neg (by simpa using hempty)]
            simp [hempty]
          · rw [if_pos (by simpa using hempty)]
            simp [hempty]

theorem identified_of_trusted (htrust : Server.shouldTrustForwardedHeaders text env (some proxy.ip) = some true)
    (hproxy : req.connectInfo = some proxy) (supplied : Option (List UInt8)) :
    Identified text env req client supplied ↔ Truthful text req proxy client supplied := by
  obtain ⟨hbucket, hlogin, hcredential⟩ :=
    @clientIp_trusted text env (req.behind supplied (text.display client)) proxy htrust hproxy
  rw [forwarded_chosen] at hbucket hlogin hcredential
  rw [← chosen_iff]
  constructor
  · intro h
    exact Option.some.inj (hbucket.symm.trans h.bucket)
  · intro h
    rw [h] at hbucket hlogin hcredential
    exact ⟨hbucket, hlogin, hcredential⟩

/-- Two requests that take from one bucket and are held back by one entry. -/
structure Shared (text : AddressText) (env : ProxyEnv) (r r' : Request) : Prop where
  bucket : ∀ (limiter : HttpRateLimit.HttpRateLimiter) (now : ℚ) (buckets : HttpRateLimit.Buckets),
    (Server.extractClientIp text env r).map (fun clientIp => HttpRateLimit.bucketOf limiter clientIp now buckets) =
      (Server.extractClientIp text env r').map (fun clientIp => HttpRateLimit.bucketOf limiter clientIp now buckets)
  login : ∀ entries : AuthBackoff.Entries,
    (Server.inferClientIp text env r.headers r.connectInfo).map (fun clientIp =>
      entries (KeyAuth.authClientKey clientIp)) =
      (Server.inferClientIp text env r'.headers r'.connectInfo).map (fun clientIp =>
        entries (KeyAuth.authClientKey clientIp))
  credential : ∀ entries : AuthBackoff.Entries,
    (KeyAuth.extractClientIp text env r).map (fun clientIp => entries (KeyAuth.authClientKey clientIp)) =
      (KeyAuth.extractClientIp text env r').map (fun clientIp => entries (KeyAuth.authClientKey clientIp))

/-- What a client sends to the proxy does not decide who it is. -/
def Unchosen (text : AddressText) (env : ProxyEnv) (req : Request) (client : IpAddr)
    (supplied supplied' : Option (List UInt8)) :
    Prop :=
  Identified text env req client supplied ∧ Identified text env req client supplied' ∧
    Shared text env (req.behind supplied (text.display client)) (req.behind supplied' (text.display client))

theorem shared_of_identified {supplied supplied' : Option (List UInt8)}
    (h : Identified text env req client supplied)
    (h' : Identified text env req client supplied') :
    Shared text env (req.behind supplied (text.display client)) (req.behind supplied' (text.display client)) where
  bucket limiter now buckets := by rw [h.bucket, h'.bucket]
  login entries := by rw [h.login, h'.login]
  credential entries := by rw [h.credential, h'.credential]

/-- Two requests of a client behind a proxy are taken for its own just when what it has sent
in both names its address first. -/
theorem unchosen_iff (htrust : Server.shouldTrustForwardedHeaders text env (some proxy.ip) = some true)
    (hproxy : req.connectInfo = some proxy) (supplied supplied' : Option (List UInt8)) :
    Unchosen text env req client supplied supplied' ↔
      Truthful text req proxy client supplied ∧ Truthful text req proxy client supplied' := by
  rw [← identified_of_trusted htrust hproxy, ← identified_of_trusted htrust hproxy]
  constructor
  · exact fun h => ⟨h.1, h.2.1⟩
  · exact fun h => ⟨h.1, h.2, shared_of_identified h.1 h.2⟩

end Identity

def dotted (bits : BitVec 32) : String :=
  String.ofList (Nat.toDigits 10 (bits.toNat / 2 ^ 24) ++ '.' :: Nat.toDigits 10 (bits.toNat / 2 ^ 16 % 256) ++
    '.' :: Nat.toDigits 10 (bits.toNat / 2 ^ 8 % 256) ++ '.' :: Nat.toDigits 10 (bits.toNat % 256))

theorem dotted_chars (bits : BitVec 32) : ∀ c ∈ (dotted bits).toList, isAddressChar c = true := by
  have hdigit {n : ℕ} {c : Char} (hc : c ∈ Nat.toDigits 10 n) : isAddressChar c = true := by
    have hd : c.isDigit = true := Nat.isDigit_of_mem_toDigits (by decide) (by decide) hc
    rw [isAddressChar, hd]
    rfl
  intro c hc
  rw [dotted, String.toList_ofList] at hc
  simp only [List.append_assoc, List.cons_append, List.mem_append, List.mem_cons] at hc
  rcases hc with hc | rfl | hc | rfl | hc | rfl | hc
  · exact hdigit hc
  · decide
  · exact hdigit hc
  · decide
  · exact hdigit hc
  · decide
  · exact hdigit hc

def displayed : IpAddr → String
  | .v4 bits => dotted bits
  | .v6 bits => "::" ++ dotted (bits.truncate 32)

theorem displayed_chars (a : IpAddr) : displayed a ≠ "" ∧
    ∀ c ∈ (displayed a).toList, isAddressChar c = true := by
  cases a with
  | v4 bits =>
      refine ⟨?_, dotted_chars bits⟩
      intro hnil
      have hlist := congrArg String.toList hnil
      rw [displayed, dotted, String.toList_ofList] at hlist
      simp at hlist
  | v6 bits =>
      constructor
      · intro hnil
        have hlist := congrArg String.toList hnil
        simp [displayed] at hlist
      · intro c hc
        rw [displayed, String.toList_append, List.mem_append] at hc
        rcases hc with hc | hc
        · have hcolon : c = ':' := by simpa using hc
          rw [hcolon]
          decide
        · exact dotted_chars _ c hc

/-- A library that knows the addresses of one list. -/
def textOf (known : List IpAddr) : AddressText where
  parse t := known.find? (fun a => displayed a = t)
  display := displayed
  parse_chars {t a} h := by
    have hfound : displayed a = t := by simpa using List.find?_some h
    rw [← hfound]
    exact displayed_chars a
  display_chars := displayed_chars

def network : AddressText := textOf [.v4 0x0A000000]

def proxyEnv : ProxyEnv := ⟨some "1", some "10.0.0.0/8"⟩

def proxy : SocketAddr := ⟨.v4 0x0A010203, 40000⟩

def bare : Request := ⟨fun _ => none, some proxy, none⟩

def client : IpAddr := .v4 0xCB007107

theorem proxy_trusted : Server.shouldTrustForwardedHeaders network proxyEnv (some proxy.ip) =
    some true := by decide +kernel

theorem unchosen_own : Unchosen network proxyEnv bare client none (some (headerValue "203.0.113.7")) := by
  have hfirst : (toStr (headerValue "203.0.113.7")).any (fun s =>
      firstOf s ≠ "" && firstOf s == network.display client) = true := by
    decide +kernel
  obtain ⟨s, hs, hboth⟩ := (Option.any_eq_true _ _).mp hfirst
  obtain ⟨hne, hsame⟩ := (Bool.and_eq_true _ _).mp hboth
  exact (unchosen_iff proxy_trusted rfl none (some (headerValue "203.0.113.7"))).mpr
    ⟨trivial, .inl ⟨s, hs, of_decide_eq_true hne, eq_of_beq hsame⟩⟩

theorem addresses_made_up : Server.shouldTrustForwardedHeaders network proxyEnv (some proxy.ip) = some true ∧
    (Server.extractClientIp network proxyEnv (bare.behind (some (headerValue "6.6.6.6")) (network.display client)) =
      some "6.6.6.6" ∧
    KeyAuth.extractClientIp network proxyEnv (bare.behind (some (headerValue "7.7.7.7")) (network.display client)) =
      some (some "7.7.7.7")) ∧
    ¬ Unchosen network proxyEnv bare client (some (headerValue "6.6.6.6")) (some (headerValue "7.7.7.7")) := by
  have hfirst : Server.extractClientIp network proxyEnv
      (bare.behind (some (headerValue "6.6.6.6")) (network.display client)) =
      some "6.6.6.6" := by
    decide +kernel
  have hsecond : KeyAuth.extractClientIp network proxyEnv
      (bare.behind (some (headerValue "7.7.7.7")) (network.display client)) = some (some "7.7.7.7") := by
    decide +kernel
  refine ⟨proxy_trusted, ⟨hfirst, hsecond⟩, fun h => ?_⟩
  have hsame : "6.6.6.6" = network.display client := Option.some.inj (hfirst.symm.trans h.1.bucket)
  exact absurd hsame (by decide +kernel)

end MLRunX.ClientIdentity
