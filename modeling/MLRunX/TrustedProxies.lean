import Mathlib.Data.List.TakeWhile
import MLRunX.BitPrefixes
import MLRunX.RunFilter

namespace MLRunX.TrustedProxies

open BitPrefixes RunFilter Text

inductive IpAddr
  | v4 (bits : BitVec 32)
  | v6 (bits : BitVec 128)
  deriving DecidableEq

def isAddressChar (c : Char) : Bool :=
  c.isDigit || ('a' ≤ c && c ≤ 'f') || ('A' ≤ c && c ≤ 'F') || c == '.' || c == ':'

/-- How the standard library reads and writes addresses. -/
structure AddressText where
  parse : String → Option IpAddr
  display : IpAddr → String
  parse_chars {t : String} {a : IpAddr} : parse t = some a → t ≠ "" ∧ ∀ c ∈ t.toList, isAddressChar c = true
  display_chars (a : IpAddr) : display a ≠ "" ∧ ∀ c ∈ (display a).toList, isAddressChar c = true

/-- A number of eight bits, which may have a plus sign and leading zeros. -/
def parseU8 (s : String) : Option UInt8 :=
  let digits := if s.toList.head? = some '+' then s.toList.tail else s.toList
  if digits ≠ [] ∧ digits.all Char.isDigit ∧ Nat.ofDigitChars 10 digits 0 < 256 then
    some (UInt8.ofNat (Nat.ofDigitChars 10 digits 0))
  else none

def IpAddr.width : IpAddr → ℕ
  | .v4 _ => 32
  | .v6 _ => 128

/-- Addresses of one family that agree on their first `n` bits. -/
def SameNetwork (n : ℕ) : IpAddr → IpAddr → Prop
  | .v4 x, .v4 y => Agrees n x y
  | .v6 x, .v6 y => Agrees n x y
  | _, _ => False

variable (text : AddressText)

/-! The rules, in one copy for the server and in one for the keys. An arithmetic overflow
has no result. -/

namespace Server

inductive TrustedProxyRule
  | v4 (network : BitVec 32) (prefixLen : UInt8)
  | v6 (network : BitVec 128) (prefixLen : UInt8)
  deriving DecidableEq

def readAddress (value : String) : Except String (IpAddr × UInt8) :=
  match splitOnce '/' value with
  | some (ipRaw, prefixRaw) => do
      let ip ← ((text.parse (trim ipRaw)).map Except.ok).getD (.error s!"invalid IP '{ipRaw}'")
      let prefixLen ← ((parseU8 (trim prefixRaw)).map Except.ok).getD (.error s!"invalid prefix length '{prefixRaw}'")
      pure (ip, prefixLen)
  | none => do
      let ip ← ((text.parse value).map Except.ok).getD (.error s!"invalid IP '{value}'")
      pure (ip, match ip with
        | .v4 _ => 32
        | .v6 _ => 128)

def TrustedProxyRule.ofAddress : IpAddr × UInt8 → Option (Except String TrustedProxyRule)
  | (.v4 ipv4, prefixLen) =>
      if 32 < prefixLen then some (.error s!"invalid IPv4 prefix length '{prefixLen}'")
      else (leadingMask 32 prefixLen.toNat).map (fun mask => .ok (.v4 (ipv4 &&& mask) prefixLen))
  | (.v6 ipv6, prefixLen) =>
      if 128 < prefixLen then some (.error s!"invalid IPv6 prefix length '{prefixLen}'")
      else (leadingMask 128 prefixLen.toNat).map (fun mask => .ok (.v6 (ipv6 &&& mask) prefixLen))

def TrustedProxyRule.parse (raw : String) : Option (Except String TrustedProxyRule) :=
  let value := trim raw
  if value = "" then some (.error "empty trusted proxy entry")
  else match readAddress text value with
    | .error e => some (.error e)
    | .ok entry => ofAddress entry

def TrustedProxyRule.matchesIp : TrustedProxyRule → IpAddr → Option Bool
  | .v4 network prefixLen, .v4 value => (leadingMask 32 prefixLen.toNat).map (fun mask => value &&& mask == network)
  | .v6 network prefixLen, .v6 value => (leadingMask 128 prefixLen.toNat).map (fun mask => value &&& mask == network)
  | _, _ => some false

end Server

namespace KeyAuth

inductive TrustedProxyRule
  | v4 (network : BitVec 32) (prefixLen : UInt8)
  | v6 (network : BitVec 128) (prefixLen : UInt8)
  deriving DecidableEq

def readAddress (value : String) : Except String (IpAddr × UInt8) :=
  match splitOnce '/' value with
  | some (ipRaw, prefixRaw) => do
      let ip ← ((text.parse (trim ipRaw)).map Except.ok).getD (.error s!"invalid IP '{ipRaw}'")
      let prefixLen ← ((parseU8 (trim prefixRaw)).map Except.ok).getD (.error s!"invalid prefix length '{prefixRaw}'")
      pure (ip, prefixLen)
  | none => do
      let ip ← ((text.parse value).map Except.ok).getD (.error s!"invalid IP '{value}'")
      pure (ip, match ip with
        | .v4 _ => 32
        | .v6 _ => 128)

def TrustedProxyRule.ofAddress : IpAddr × UInt8 → Option (Except String TrustedProxyRule)
  | (.v4 ipv4, prefixLen) =>
      if 32 < prefixLen then some (.error s!"invalid IPv4 prefix length '{prefixLen}'")
      else (leadingMask 32 prefixLen.toNat).map (fun mask => .ok (.v4 (ipv4 &&& mask) prefixLen))
  | (.v6 ipv6, prefixLen) =>
      if 128 < prefixLen then some (.error s!"invalid IPv6 prefix length '{prefixLen}'")
      else (leadingMask 128 prefixLen.toNat).map (fun mask => .ok (.v6 (ipv6 &&& mask) prefixLen))

def TrustedProxyRule.parse (raw : String) : Option (Except String TrustedProxyRule) :=
  let value := trim raw
  if value = "" then some (.error "empty trusted proxy entry")
  else match readAddress text value with
    | .error e => some (.error e)
    | .ok entry => ofAddress entry

def TrustedProxyRule.matchesIp : TrustedProxyRule → IpAddr → Option Bool
  | .v4 network prefixLen, .v4 value => (leadingMask 32 prefixLen.toNat).map (fun mask => value &&& mask == network)
  | .v6 network prefixLen, .v6 value => (leadingMask 128 prefixLen.toNat).map (fun mask => value &&& mask == network)
  | _, _ => some false

end KeyAuth

/-! What the rules of the server are read as. -/

section Reading

variable {text : AddressText} {t : String} {a : IpAddr}

theorem isDigit_number {n : ℕ} : ∀ c ∈ (toString n).toList, c.isDigit = true := by
  intro c hc
  rw [Nat.toString_eq_repr, Nat.toList_repr] at hc
  exact Nat.isDigit_of_mem_toDigits (by decide) (by decide) hc

theorem not_blank_of_graphic {c : Char} (hlow : 33 ≤ c.toNat) (hhigh : c.toNat < 127) :
    isWhitespace c = false := by
  simp only [isWhitespace, List.contains_eq_mem, List.mem_cons, List.not_mem_nil, Bool.or_eq_false_iff,
    Bool.and_eq_false_iff, decide_eq_false_iff_not, or_false]
  omega

theorem toNat_digit {c : Char} (h : c.isDigit = true) : 48 ≤ c.toNat ∧ c.toNat ≤ 57 := by
  rw [Char.isDigit, Bool.and_eq_true, decide_eq_true_eq, decide_eq_true_eq] at h
  exact h

theorem toNat_address {c : Char} (h : isAddressChar c = true) : 46 ≤ c.toNat ∧ c.toNat ≤ 102 ∧
    c.toNat ≠ 47 := by
  simp only [isAddressChar, Bool.or_eq_true, Bool.and_eq_true, decide_eq_true_eq, beq_iff_eq] at h
  rcases h with (((h | ⟨hlow, hhigh⟩) | ⟨hlow, hhigh⟩) | rfl) | rfl
  · have hdigit := toNat_digit h
    omega
  · have hlow : 97 ≤ c.toNat := hlow
    have hhigh : c.toNat ≤ 102 := hhigh
    omega
  · have hlow : 65 ≤ c.toNat := hlow
    have hhigh : c.toNat ≤ 70 := hhigh
    omega
  · decide
  · decide

theorem trim_number (n : ℕ) : trim (toString n) = toString n := by
  apply trim_unblank
  intro c hc
  obtain ⟨hlow, hhigh⟩ := toNat_digit (isDigit_number c hc)
  exact not_blank_of_graphic (by omega) (by omega)

theorem trim_address {t : String} (h : ∀ c ∈ t.toList, isAddressChar c = true) : trim t = t := by
  apply trim_unblank
  intro c hc
  obtain ⟨hlow, hhigh, -⟩ := toNat_address (h c hc)
  exact not_blank_of_graphic (by omega) (by omega)

theorem slash_not_mem {t : String} (h : ∀ c ∈ t.toList, isAddressChar c = true) : '/' ∉ t.toList :=
  fun hmem => (toNat_address (h '/' hmem)).2.2 rfl

theorem splitOnce_slash {t s : String} (h : '/' ∉ t.toList) : splitOnce '/' (t ++ "/" ++ s) = some (t, s) := by
  have hbefore : ∀ c ∈ t.toList, decide (c ≠ '/') = true :=
    fun c hc => decide_eq_true (fun hslash => h (hslash ▸ hc))
  have hlist : (t ++ "/" ++ s).toList = t.toList ++ '/' :: s.toList := by simp
  have hdrop : (t.toList ++ '/' :: s.toList).dropWhile (· ≠ '/') = '/' :: s.toList := by
    rw [List.dropWhile_append_of_pos hbefore]
    rfl
  have htake : (t.toList ++ '/' :: s.toList).takeWhile (· ≠ '/') = t.toList := by
    rw [List.takeWhile_append_of_pos hbefore]
    exact List.append_nil _
  rw [splitOnce, hlist, hdrop, htake, String.ofList_toList]
  simp

theorem splitOnce_bare {t : String} (h : '/' ∉ t.toList) : splitOnce '/' t = none := by
  have hdrop : t.toList.dropWhile (· ≠ '/') = [] :=
    List.dropWhile_eq_nil_iff.mpr (fun c hc => decide_eq_true (fun hslash => h (hslash ▸ hc)))
  rw [splitOnce, hdrop]

theorem parseU8_number (n : ℕ) : parseU8 (toString n) = if n < 256 then some (UInt8.ofNat n) else none := by
  have hdigits := @isDigit_number n
  rw [Nat.toString_eq_repr, Nat.toList_repr] at hdigits
  have hsign : (Nat.toDigits 10 n).head? ≠ some '+' := by
    intro h
    exact absurd (hdigits '+' (List.mem_of_head? h)) (by decide)
  simp only [parseU8, Nat.toString_eq_repr, Nat.toList_repr, if_neg hsign, Nat.ofDigitChars_ten_toDigits]
  have hall : (Nat.toDigits 10 n).all Char.isDigit = true := List.all_eq_true.mpr hdigits
  by_cases hsmall : n < 256
  · rw [if_pos hsmall, if_pos ⟨Nat.toDigits_ne_nil, hall, hsmall⟩]
  · rw [if_neg hsmall, if_neg (fun h => hsmall h.2.2)]

theorem readAddress_cidr (h : text.parse t = some a) (n : ℕ) : Server.readAddress text (t ++ "/" ++ toString n) =
    if n < 256 then .ok (a, UInt8.ofNat n) else .error s!"invalid prefix length '{n}'" := by
  obtain ⟨-, hchars⟩ := text.parse_chars h
  rw [Server.readAddress, splitOnce_slash (slash_not_mem hchars)]
  simp only [trim_address hchars, trim_number, h, parseU8_number]
  by_cases hsmall : n < 256
  · rw [if_pos hsmall, if_pos hsmall]
    rfl
  · rw [if_neg hsmall, if_neg hsmall]
    rfl

theorem readAddress_bare (h : text.parse t = some a) :
    Server.readAddress text t = .ok (a, UInt8.ofNat a.width) := by
  obtain ⟨-, hchars⟩ := text.parse_chars h
  rw [Server.readAddress, splitOnce_bare (slash_not_mem hchars)]
  simp only [h]
  cases a <;> rfl

/-- The rule of an address and a length. -/
def ruleOf (prefixLen : UInt8) : IpAddr → Server.TrustedProxyRule
  | .v4 x => .v4 (truncated prefixLen.toNat x) prefixLen
  | .v6 x => .v6 (truncated prefixLen.toNat x) prefixLen

theorem ofAddress_fits {prefixLen : UInt8} (hlen : prefixLen.toNat ≤ a.width) :
    Server.TrustedProxyRule.ofAddress (a, prefixLen) = some (.ok (ruleOf prefixLen a)) := by
  cases a with
  | v4 x =>
      have hnot : ¬32 < prefixLen := fun h => Nat.not_lt.mpr hlen (UInt8.lt_iff_toNat_lt.mp h)
      rw [Server.TrustedProxyRule.ofAddress, if_neg hnot, @leadingMask_eq 32 _ hlen]
      rfl
  | v6 x =>
      have hnot : ¬128 < prefixLen := fun h => Nat.not_lt.mpr hlen (UInt8.lt_iff_toNat_lt.mp h)
      rw [Server.TrustedProxyRule.ofAddress, if_neg hnot, @leadingMask_eq 128 _ hlen]
      rfl

theorem ofAddress_long {prefixLen : UInt8} (hlen : a.width < prefixLen.toNat) :
    ∃ e, Server.TrustedProxyRule.ofAddress (a, prefixLen) = some (.error e) := by
  cases a with
  | v4 x => exact ⟨_, if_pos (show 32 < prefixLen from UInt8.lt_iff_toNat_lt.mpr hlen)⟩
  | v6 x => exact ⟨_, if_pos (show 128 < prefixLen from UInt8.lt_iff_toNat_lt.mpr hlen)⟩

theorem matchesIp_ruleOf {prefixLen : UInt8} (hlen : prefixLen.toNat ≤ a.width) (b : IpAddr) :
    ∃ answer, (ruleOf prefixLen a).matchesIp b = some answer ∧
      (answer = true ↔ SameNetwork prefixLen.toNat a b) := by
  cases a with
  | v4 x =>
      cases b with
      | v4 y =>
          refine ⟨truncated prefixLen.toNat y == truncated prefixLen.toNat x, ?_, ?_⟩
          · rw [ruleOf, Server.TrustedProxyRule.matchesIp, @leadingMask_eq 32 _ hlen]
            rfl
          · rw [beq_iff_eq, eq_comm]
            exact truncated_eq_iff hlen x y
      | v6 y => exact ⟨false, rfl, iff_of_false Bool.false_ne_true id⟩
  | v6 x =>
      cases b with
      | v4 y => exact ⟨false, rfl, iff_of_false Bool.false_ne_true id⟩
      | v6 y =>
          refine ⟨truncated prefixLen.toNat y == truncated prefixLen.toNat x, ?_, ?_⟩
          · rw [ruleOf, Server.TrustedProxyRule.matchesIp, @leadingMask_eq 128 _ hlen]
            rfl
          · rw [beq_iff_eq, eq_comm]
            exact truncated_eq_iff hlen x y

theorem sameNetwork_width (a b : IpAddr) : SameNetwork a.width a b ↔ b = a := by
  cases a with
  | v4 x =>
      cases b with
      | v4 y => exact (agrees_all x y).trans (by rw [IpAddr.v4.injEq, eq_comm])
      | v6 y => exact iff_of_false id (fun h => IpAddr.noConfusion h)
  | v6 x =>
      cases b with
      | v4 y => exact iff_of_false id (fun h => IpAddr.noConfusion h)
      | v6 y => exact (agrees_all x y).trans (by rw [IpAddr.v6.injEq, eq_comm])

theorem width_lt (a : IpAddr) : a.width < 256 := by
  cases a with
  | v4 _ => exact (by decide : 32 < 256)
  | v6 _ => exact (by decide : 128 < 256)

theorem parse_ok {value : String} {entry : IpAddr × UInt8} (htrim : trim value = value) (hne : value ≠ "")
    (hread : Server.readAddress text value = .ok entry) :
    Server.TrustedProxyRule.parse text value = Server.TrustedProxyRule.ofAddress entry := by
  simp only [Server.TrustedProxyRule.parse, htrim, if_neg hne, hread]

theorem parse_error {value e : String} (htrim : trim value = value) (hne : value ≠ "")
    (hread : Server.readAddress text value = .error e) :
    Server.TrustedProxyRule.parse text value = some (.error e) := by
  simp only [Server.TrustedProxyRule.parse, htrim, if_neg hne, hread]

theorem trim_cidr (h : text.parse t = some a) (n : ℕ) :
    trim (t ++ "/" ++ toString n) = t ++ "/" ++ toString n ∧ t ++ "/" ++ toString n ≠ "" := by
  obtain ⟨-, hchars⟩ := text.parse_chars h
  constructor
  · apply trim_unblank
    intro c hc
    simp only [String.toList_append, List.mem_append] at hc
    rcases hc with (hc | hc) | hc
    · obtain ⟨hlow, hhigh, -⟩ := toNat_address (hchars c hc)
      exact not_blank_of_graphic (by omega) (by omega)
    · obtain rfl := List.mem_singleton.mp hc
      decide
    · obtain ⟨hlow, hhigh⟩ := toNat_digit (isDigit_number c hc)
      exact not_blank_of_graphic (by omega) (by omega)
  · intro hnil
    have hlist := congrArg String.toList hnil
    simp at hlist

theorem parse_cidr (h : text.parse t = some a) {n : ℕ} (hn : n ≤ a.width) :
    Server.TrustedProxyRule.parse text (t ++ "/" ++ toString n) = some (.ok (ruleOf (UInt8.ofNat n) a)) := by
  have hsmall : n < 256 := Nat.lt_of_le_of_lt hn (width_lt a)
  have hnat : (UInt8.ofNat n).toNat = n := UInt8.toNat_ofNat_of_lt' hsmall
  obtain ⟨htrim, hne⟩ := trim_cidr h n
  rw [parse_ok htrim hne ((readAddress_cidr h n).trans (if_pos hsmall)), ofAddress_fits (by rw [hnat]; exact hn)]

theorem parse_cidr_long (h : text.parse t = some a) {n : ℕ} (hn : a.width < n) :
    ∃ e, Server.TrustedProxyRule.parse text (t ++ "/" ++ toString n) = some (.error e) := by
  obtain ⟨htrim, hne⟩ := trim_cidr h n
  by_cases hsmall : n < 256
  · have hnat : (UInt8.ofNat n).toNat = n := UInt8.toNat_ofNat_of_lt' hsmall
    rw [parse_ok htrim hne ((readAddress_cidr h n).trans (if_pos hsmall))]
    exact ofAddress_long (by rw [hnat]; exact hn)
  · exact ⟨_, parse_error htrim hne ((readAddress_cidr h n).trans (if_neg hsmall))⟩

theorem parse_bare (h : text.parse t = some a) :
    Server.TrustedProxyRule.parse text t = some (.ok (ruleOf (UInt8.ofNat a.width) a)) := by
  obtain ⟨hne, hchars⟩ := text.parse_chars h
  rw [parse_ok (trim_address hchars) hne (readAddress_bare h), ofAddress_fits]
  exact Nat.le_of_eq (UInt8.toNat_ofNat_of_lt' (width_lt a))

theorem parse_cases (raw : String) : (∃ e, Server.TrustedProxyRule.parse text raw = some (.error e)) ∨
    ∃ (a : IpAddr) (prefixLen : UInt8), prefixLen.toNat ≤ a.width ∧
      Server.TrustedProxyRule.parse text raw = some (.ok (ruleOf prefixLen a)) := by
  by_cases hempty : trim raw = ""
  · exact .inl ⟨"empty trusted proxy entry", if_pos hempty⟩
  · cases hread : Server.readAddress text (trim raw) with
    | error e => exact .inl ⟨e, by simp only [Server.TrustedProxyRule.parse, if_neg hempty, hread]⟩
    | ok entry =>
        obtain ⟨a, prefixLen⟩ := entry
        have hparse : Server.TrustedProxyRule.parse text raw =
            Server.TrustedProxyRule.ofAddress (a, prefixLen) := by
          simp only [Server.TrustedProxyRule.parse, if_neg hempty, hread]
        rcases Nat.lt_or_ge a.width prefixLen.toNat with hlong | hfits
        · obtain ⟨e, he⟩ := ofAddress_long hlong
          exact .inl ⟨e, hparse.trans he⟩
        · exact .inr ⟨a, prefixLen, hfits, hparse.trans (ofAddress_fits hfits)⟩

/-- The rule of the other copy. -/
def copied : Server.TrustedProxyRule → KeyAuth.TrustedProxyRule
  | .v4 network prefixLen => .v4 network prefixLen
  | .v6 network prefixLen => .v6 network prefixLen

theorem readAddress_copied (value : String) : KeyAuth.readAddress text value = Server.readAddress text value := rfl

theorem ofAddress_copied (entry : IpAddr × UInt8) : KeyAuth.TrustedProxyRule.ofAddress entry =
    (Server.TrustedProxyRule.ofAddress entry).map (fun answer => answer.map copied) := by
  obtain ⟨ip, prefixLen⟩ := entry
  cases ip with
  | v4 bits =>
      simp only [KeyAuth.TrustedProxyRule.ofAddress, Server.TrustedProxyRule.ofAddress]
      split
      · rfl
      · rw [Option.map_map]
        rfl
  | v6 bits =>
      simp only [KeyAuth.TrustedProxyRule.ofAddress, Server.TrustedProxyRule.ofAddress]
      split
      · rfl
      · rw [Option.map_map]
        rfl

theorem parse_copied (raw : String) : KeyAuth.TrustedProxyRule.parse text raw =
    (Server.TrustedProxyRule.parse text raw).map (fun answer => answer.map copied) := by
  simp only [KeyAuth.TrustedProxyRule.parse, Server.TrustedProxyRule.parse, readAddress_copied]
  split
  · rfl
  · cases Server.readAddress text (trim raw) with
    | error e => rfl
    | ok entry => exact ofAddress_copied entry

theorem matchesIp_copied (rule : Server.TrustedProxyRule) (ip : IpAddr) :
    (copied rule).matchesIp ip = rule.matchesIp ip := by
  cases rule <;> cases ip <;> rfl

end Reading

/-- What the rules promise. All shifts that are made for an entry and for an address stay
within the word. -/
structure RulesExact : Prop where
  network : ∀ t a, text.parse t = some a → ∀ n ≤ a.width, ∃ rule,
    Server.TrustedProxyRule.parse text s!"{t}/{n}" = some (.ok rule) ∧
      ∀ b, rule.matchesIp b = some true ↔ SameNetwork n a b
  bare : ∀ t a, text.parse t = some a → ∃ rule, Server.TrustedProxyRule.parse text t = some (.ok rule) ∧
    ∀ b, rule.matchesIp b = some true ↔ b = a
  long : ∀ t a, text.parse t = some a → ∀ n, a.width < n → ∃ e,
    Server.TrustedProxyRule.parse text s!"{t}/{n}" = some (.error e)
  shifts : ∀ raw, ∃ answer, Server.TrustedProxyRule.parse text raw = some answer ∧
    ∀ rule, answer = .ok rule → ∀ b, rule.matchesIp b ≠ none
  copies : ∀ raw, (Server.TrustedProxyRule.parse text raw).map (fun answer =>
    answer.map (fun rule => rule.matchesIp)) =
    (KeyAuth.TrustedProxyRule.parse text raw).map (fun answer => answer.map (fun rule => rule.matchesIp))

/-- The rules match exactly their networks. -/
theorem rules_exact : RulesExact text where
  network t a h n hn := by
    have hnat : (UInt8.ofNat n).toNat = n := UInt8.toNat_ofNat_of_lt' (Nat.lt_of_le_of_lt hn (width_lt a))
    refine ⟨_, parse_cidr h hn, fun b => ?_⟩
    obtain ⟨answer, hanswer, hiff⟩ := @matchesIp_ruleOf a (UInt8.ofNat n) (by rw [hnat]; exact hn) b
    rw [hanswer, Option.some.injEq, hiff, hnat]
  bare t a h := by
    have hnat : (UInt8.ofNat a.width).toNat = a.width := UInt8.toNat_ofNat_of_lt' (width_lt a)
    refine ⟨_, parse_bare h, fun b => ?_⟩
    obtain ⟨answer, hanswer, hiff⟩ := @matchesIp_ruleOf a (UInt8.ofNat a.width) (Nat.le_of_eq hnat) b
    rw [hanswer, Option.some.injEq, hiff, hnat, sameNetwork_width]
  long t a h n hn := parse_cidr_long h hn
  shifts raw := by
    rcases @parse_cases text raw with ⟨e, he⟩ | ⟨a, prefixLen, hlen, hparse⟩
    · refine ⟨_, he, ?_⟩
      rintro rule hrule
      cases hrule
    · refine ⟨_, hparse, ?_⟩
      rintro rule hrule b
      obtain rfl := Except.ok.inj hrule
      obtain ⟨answer, hanswer, -⟩ := matchesIp_ruleOf hlen b
      rw [hanswer]
      exact Option.some_ne_none _
  copies raw := by
    rw [parse_copied, Option.map_map]
    congr 1
    funext answer
    cases answer with
    | error e => rfl
    | ok rule => exact congrArg Except.ok (funext (fun ip => (matchesIp_copied rule ip).symm))

end MLRunX.TrustedProxies
