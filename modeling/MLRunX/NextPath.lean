import MLRunX.UrlPaths

namespace MLRunX.NextPath

open UrlPaths

def publicAuthPaths : List String := ["/login", "/signup", "/auth/callback", "/auth/reset"]

def isPublicAuthPath (pathname : String) : Bool :=
  publicAuthPaths.any (fun publicPath => pathname == publicPath ||
    ("/callback".toList.isSuffixOf publicPath.toList && (publicPath.toList ++ ['/']).isPrefixOf pathname.toList))

def isJsSpace (c : Char) : Bool :=
  (9 ≤ c.toNat && c.toNat ≤ 13) || (0x2000 ≤ c.toNat && c.toNat ≤ 0x200A) ||
    [0x20, 0xA0, 0x1680, 0x2028, 0x2029, 0x202F, 0x205F, 0x3000, 0xFEFF].contains c.toNat

def trim (s : String) : String := String.ofList ((s.toList.dropWhile isJsSpace).rdropWhile isJsSpace)

def sanitizeNextPath (candidate : Option String) (fallback : String) : String :=
  match candidate with
  | none => fallback
  | some candidate =>
      let trimmed := trim candidate
      if candidate = "" then fallback
      else if !(['/'].isPrefixOf trimmed.toList) then fallback
      else if ['/', '/'].isPrefixOf trimmed.toList then fallback
      else if isPublicAuthPath trimmed then fallback
      else trimmed

/-- Where a login goes on is a page of the application that needs a login. -/
def Safe (hosts : Hosts) (origin : Origin) (candidate : Option String) : Prop :=
  ∃ url, resolve hosts origin (sanitizeNextPath candidate "/onboarding") = some url ∧ url.origin = origin ∧
    isPublicAuthPath url.pathname = false

def PublicPath (path : List Segment) : Prop :=
  path ∈ [["login".toList], ["signup".toList], ["auth".toList, "callback".toList],
    ["auth".toList, "reset".toList]] ∨
    ∃ more, more ≠ [] ∧ path = ["auth".toList, "callback".toList] ++ more

/-- A candidate that the application does not take. -/
def Refused : Option String → Prop
  | none => True
  | some candidate => ¬ ['/'] <+: (trim candidate).toList ∨ ['/', '/'] <+: (trim candidate).toList ∨
      isPublicAuthPath (trim candidate) = true

def pathBehind (cs : List Char) : List Segment := settle [] (segments (if cs.head?.any isSlash then cs.tail else cs))

/-- A reference that stays: without a second slash it leads to a path that needs a login, and
with one it names the application as its host, too. -/
def Stays (hosts : Hosts) (origin : Origin) (rest : List Char) : Prop :=
  if rest.head?.any isSlash then hosts (authorityOf rest.tail) = some (origin.host, origin.port) ∧
    ¬ PublicPath (pathBehind (behindAuthority rest.tail))
  else ¬ PublicPath (settle [] (segments rest))

def Harmless (hosts : Hosts) (origin : Origin) (candidate : Option String) : Prop :=
  Refused candidate ∨ Stays hosts origin (cleaned ((candidate.map trim).getD "").toList.tail)

variable {hosts : Hosts} {origin : Origin}

theorem slashless_public : Slashless ["login".toList] ∧ Slashless ["signup".toList] ∧
    Slashless ["auth".toList, "callback".toList] ∧ Slashless ["auth".toList, "reset".toList] := by
  unfold Slashless
  decide

theorem pathname_eq_iff {path front : List Segment} (h : Slashless path) (hfront : Slashless front) {t : String}
    (ht : t.toList = pathChars front) : String.ofList (pathChars path) = t ↔ path = front := by
  constructor
  · intro heq
    apply pathChars_injective h hfront
    rw [← ht, ← heq, String.toList_ofList]
  · rintro rfl
    rw [← ht, String.ofList_toList]

theorem isPublicAuthPath_iff {path : List Segment} (h : Slashless path) :
    isPublicAuthPath (String.ofList (pathChars path)) = true ↔ PublicPath path := by
  obtain ⟨hlogin, hsignup, hcallback, hreset⟩ := slashless_public
  have hends : "/callback".toList.isSuffixOf "/login".toList = false ∧
      "/callback".toList.isSuffixOf "/signup".toList = false ∧
      "/callback".toList.isSuffixOf "/auth/callback".toList = true ∧
      "/callback".toList.isSuffixOf "/auth/reset".toList = false := by decide
  have hprefix : ("/auth/callback".toList ++ ['/']).isPrefixOf (pathChars path) = true ↔
      ∃ more, more ≠ [] ∧ path = ["auth".toList, "callback".toList] ++ more := by
    rw [List.isPrefixOf_iff_prefix]
    exact pathChars_prefix hcallback h
  have h₁ := pathname_eq_iff (t := "/login") h hlogin (by decide)
  have h₂ := pathname_eq_iff (t := "/signup") h hsignup (by decide)
  have h₃ := pathname_eq_iff (t := "/auth/callback") h hcallback (by decide)
  have h₄ := pathname_eq_iff (t := "/auth/reset") h hreset (by decide)
  obtain ⟨e₁, e₂, e₃, e₄⟩ := hends
  simp only [isPublicAuthPath, publicAuthPaths, List.any_cons, List.any_nil, Bool.or_eq_true,
    Bool.and_eq_true, beq_iff_eq,
    String.toList_ofList, Bool.false_eq_true, or_false, e₁, e₂, e₃, e₄, h₁, h₂, h₃, h₄, hprefix,
      false_and, true_and,
    PublicPath, List.mem_cons, List.not_mem_nil]
  constructor
  · rintro (h | h | (h | h) | h)
    · exact .inl (.inl h)
    · exact .inl (.inr (.inl h))
    · exact .inl (.inr (.inr (.inl h)))
    · exact .inr h
    · exact .inl (.inr (.inr (.inr h)))
  · rintro ((h | h | h | h) | h)
    · exact .inl h
    · exact .inr (.inl h)
    · exact .inr (.inr (.inl (.inl h)))
    · exact .inr (.inr (.inr h))
    · exact .inr (.inr (.inl (.inr h)))

theorem slashless_nil : Slashless [] := fun _ h => absurd h List.not_mem_nil

theorem slashless_path (cs : List Char) : Slashless (settle [] (segments cs)) :=
  slashless_settle slashless_nil (slashless_segments cs)

theorem leads_iff {input : String} {cs : List Char} (h : input.toList = '/' :: cs) :
    (∃ url, resolve hosts origin input = some url ∧ url.origin = origin ∧
      isPublicAuthPath url.pathname = false) ↔
      Stays hosts origin (cleaned cs) := by
  have hpath (cs : List Char) : isPublicAuthPath (String.ofList (pathChars (settle [] (segments cs)))) = false ↔
      ¬ PublicPath (settle [] (segments cs)) := by
    rw [← isPublicAuthPath_iff (slashless_path cs), Bool.not_eq_true]
  rw [resolve_slash hosts origin h, relativeSlash, Stays]
  by_cases hslash : (cleaned cs).head?.any isSlash = true
  · rw [if_pos hslash, if_pos hslash, specialAuthority]
    constructor
    · rintro ⟨url, hurl, horigin, hlogin⟩
      obtain ⟨host, hhost, rfl⟩ := Option.map_eq_some_iff.mp hurl
      have hsame : (host.1, host.2) = (origin.host, origin.port) := by rw [← horigin]
      refine ⟨by rw [hhost, ← hsame], ?_⟩
      rw [Url.pathname, pathStart, pathState_start] at hlogin
      exact (hpath _).mp hlogin
    · rintro ⟨hhost, hlogin⟩
      refine ⟨_, by rw [hhost]; rfl, rfl, ?_⟩
      rw [Url.pathname, pathStart, pathState_start]
      exact (hpath _).mpr hlogin
  · rw [if_neg hslash, if_neg hslash]
    constructor
    · rintro ⟨url, hurl, -, hlogin⟩
      obtain rfl := Option.some.inj hurl
      rw [Url.pathname, pathState_start] at hlogin
      exact (hpath _).mp hlogin
    · intro hlogin
      refine ⟨_, rfl, rfl, ?_⟩
      rw [Url.pathname, pathState_start]
      exact (hpath _).mpr hlogin

theorem stays_onboarding : Stays hosts origin (cleaned "/onboarding".toList.tail) := by
  have hcleaned : cleaned "/onboarding".toList.tail = "onboarding".toList := by decide
  have hpath : settle [] (segments "onboarding".toList) = ["onboarding".toList] := by decide
  rw [hcleaned, Stays, if_neg (by decide), hpath]
  rintro (h | ⟨more, -, h⟩)
  · exact absurd h (by decide)
  · cases h

theorem sanitize_refused {candidate : Option String} {fallback : String} (h : Refused candidate) :
    sanitizeNextPath candidate fallback = fallback := by
  cases candidate with
  | none => rfl
  | some candidate =>
      simp only [sanitizeNextPath]
      split
      · rfl
      · split
        · rfl
        · rename_i hslash
          split
          · rfl
          · rename_i hslashes
            split
            · rfl
            · rename_i hpublic
              rcases h with h | h | h
              · exact absurd (List.isPrefixOf_iff_prefix.mp (by simpa using hslash)) h
              · exact absurd (List.isPrefixOf_iff_prefix.mpr h) hslashes
              · exact absurd h hpublic

theorem sanitize_taken {candidate : Option String} {fallback : String} (h : ¬ Refused candidate) :
    ∃ c cs, candidate = some c ∧ sanitizeNextPath candidate fallback = trim c ∧ (trim c).toList = '/' :: cs := by
  cases candidate with
  | none => exact absurd trivial h
  | some c =>
      simp only [Refused, not_or, not_not] at h
      obtain ⟨⟨cs, hcs⟩, hslashes, hpublic⟩ := h
      have hlist : (trim c).toList = '/' :: cs := hcs.symm
      have hne : c ≠ "" := by
        rintro rfl
        cases hlist
      have hslash : ['/'].isPrefixOf (trim c).toList = true := List.isPrefixOf_iff_prefix.mpr ⟨cs, hcs⟩
      have htwo : ¬ ['/', '/'].isPrefixOf (trim c).toList = true := fun h => hslashes (List.isPrefixOf_iff_prefix.mp h)
      refine ⟨c, cs, rfl, ?_, hlist⟩
      simp only [sanitizeNextPath, if_neg hne, hslash, Bool.not_true, Bool.false_eq_true, if_false,
        if_neg htwo, if_neg hpublic]

/-- A login goes on at a page of the application that needs a login just when the candidate
is refused or stays there once it is read as a browser reads it. -/
theorem safe_iff (hosts : Hosts) (origin : Origin) (candidate : Option String) :
    Safe hosts origin candidate ↔ Harmless hosts origin candidate := by
  by_cases hrefused : Refused candidate
  · refine iff_of_true ?_ (.inl hrefused)
    rw [Safe, sanitize_refused hrefused]
    exact (leads_iff (by decide)).mpr stays_onboarding
  · obtain ⟨c, cs, rfl, hsanitized, hlist⟩ := @sanitize_taken candidate "/onboarding" hrefused
    have htail : (((some c).map trim).getD "").toList.tail = cs := by
      rw [Option.map_some, Option.getD_some, hlist, List.tail_cons]
    rw [Safe, hsanitized, leads_iff hlist, Harmless, htail]
    exact (or_iff_right hrefused).symm

def names : Hosts := fun text =>
  if text ≠ [] ∧ text.all (fun c => c.isAlphanum || c == '.' || c == '-') then
    some (String.ofList (text.map Char.toLower), none)
  else none

def application : Origin := ⟨"http", "app.example.com", none⟩

theorem next_unsafe : (¬ Safe names application (some "/\\evil.com") ∧
    ¬ Safe names application (some "/\t/evil.com")) ∧
    ¬ Safe names application (some "/login?again") ∧ ¬ Safe names application (some "/./login") := by
  have haway : ∀ c ∈ ["/\\evil.com", "/\t/evil.com"],
      (resolve names application (sanitizeNextPath (some c) "/onboarding")).map Url.origin =
        some ⟨"http", "evil.com", none⟩ := by
    decide +kernel
  have hback : ∀ c ∈ ["/login?again", "/./login"],
      (resolve names application (sanitizeNextPath (some c) "/onboarding")).map Url.pathname = some "/login" := by
    decide +kernel
  have hleaves (c : String) (hc : c ∈ ["/\\evil.com", "/\t/evil.com"]) : ¬ Safe names application (some c) := by
    rintro ⟨url, hurl, horigin, -⟩
    have h := haway c hc
    rw [hurl, Option.map_some, horigin] at h
    exact absurd (Option.some.inj h) (by decide)
  have hreturns (c : String) (hc : c ∈ ["/login?again", "/./login"]) : ¬ Safe names application (some c) := by
    rintro ⟨url, hurl, -, hpublic⟩
    have h := hback c hc
    rw [hurl, Option.map_some] at h
    rw [Option.some.inj h] at hpublic
    exact absurd hpublic (by decide)
  exact ⟨⟨hleaves _ List.mem_cons_self, hleaves _ (List.mem_cons_of_mem _ List.mem_cons_self)⟩,
    hreturns _ List.mem_cons_self, hreturns _ (List.mem_cons_of_mem _ List.mem_cons_self)⟩

end MLRunX.NextPath
