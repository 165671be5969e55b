import Mathlib.Data.List.DropRight
import Mathlib.Data.List.TakeWhile

namespace MLRunX.UrlPaths

/-! How a browser reads a reference that starts with a slash, where the base has a host. -/

abbrev Segment := List Char

structure Origin where
  scheme : String
  host : String
  port : Option Nat
  deriving DecidableEq

structure Url where
  origin : Origin
  path : List Segment

def isC0OrSpace (c : Char) : Bool := c.toNat ≤ 0x20

def isTabOrNewline (c : Char) : Bool := c == '\t' || c == '\n' || c == '\r'

/-- Controls and spaces are taken off the ends, and tabs and newlines are taken out. -/
def prepared (cs : List Char) : List Char :=
  ((cs.dropWhile isC0OrSpace).rdropWhile isC0OrSpace).filter (fun c => !isTabOrNewline c)

def isSlash (c : Char) : Bool := c == '/' || c == '\\'

def isStop (c : Char) : Bool := c == '?' || c == '#'

def inPathSet (c : Char) : Bool :=
  c.toNat ≤ 0x20 || 0x7F ≤ c.toNat || ['"', '#', '<', '>', '?', '^', '\x60', '\x7b', '\x7d'].contains c

def hexDigit (n : Nat) : Char := (Nat.digitChar n).toUpper

def percentEncode (b : UInt8) : List Char := ['%', hexDigit (b.toNat / 16), hexDigit (b.toNat % 16)]

def encode (c : Char) : Segment := if inPathSet c then (String.utf8EncodeChar c).flatMap percentEncode else [c]

def isSingleDot (s : Segment) : Bool := [['.'], ['%', '2', 'e']].contains (s.map Char.toLower)

def isDoubleDot (s : Segment) : Bool :=
  [['.', '.'], ['.', '%', '2', 'e'], ['%', '2', 'e', '.'], ['%', '2', 'e', '%', '2', 'e']].contains (s.map Char.toLower)

/-- What the path is after a segment, which a slash has ended or not. -/
def endSegment (slash : Bool) (path : List Segment) (buffer : Segment) : List Segment :=
  if isDoubleDot buffer then if slash then path.dropLast else path.dropLast ++ [[]]
  else if isSingleDot buffer then if slash then path else path ++ [[]]
  else path ++ [buffer]

def pathState (path : List Segment) (buffer : Segment) : List Char → List Segment
  | [] => endSegment false path buffer
  | c :: cs =>
      if isSlash c then pathState (endSegment true path buffer) [] cs
      else if isStop c then endSegment false path buffer
      else pathState path (buffer ++ encode c) cs

def pathStart (cs : List Char) : List Segment :=
  pathState [] [] (if cs.head?.any isSlash then cs.tail else cs)

/-- What the states for an authority, a host and a port make of a text. -/
abbrev Hosts := List Char → Option (String × Option Nat)

def authorityOf (cs : List Char) : List Char := (cs.dropWhile isSlash).takeWhile (fun c => !isSlash c && !isStop c)

def behindAuthority (cs : List Char) : List Char :=
  (cs.dropWhile isSlash).dropWhile (fun c => !isSlash c && !isStop c)

def specialAuthority (hosts : Hosts) (base : Origin) (cs : List Char) : Option Url :=
  (hosts (authorityOf cs)).map (fun host => ⟨⟨base.scheme, host.1, host.2⟩, pathStart (behindAuthority cs)⟩)

def relativeSlash (hosts : Hosts) (base : Origin) (cs : List Char) : Option Url :=
  if cs.head?.any isSlash then specialAuthority hosts base cs.tail else some ⟨base, pathState [] [] cs⟩

/-- References that start with a slash are resolved, and no others. -/
def resolve (hosts : Hosts) (base : Origin) (input : String) : Option Url :=
  if (prepared input.toList).head?.any isSlash then relativeSlash hosts base (prepared input.toList).tail else none

def pathChars (path : List Segment) : List Char := path.flatMap (fun s => '/' :: s)

def Url.pathname (url : Url) : String := String.ofList (pathChars url.path)

/-! The path is that of the segments between the slashes. -/

/-- The segments of a text in front of its query and its fragment. -/
def segments (cs : List Char) : List Segment :=
  ((cs.takeWhile (fun c => !isStop c)).splitOnP isSlash).map (fun s => s.flatMap encode)

/-- The segments that are left when those with dots are gone. -/
def settle (path : List Segment) : List Segment → List Segment
  | [] => path
  | [s] => endSegment false path s
  | s :: t :: rest => settle (endSegment true path s) (t :: rest)

theorem segments_ne_nil (cs : List Char) : segments cs ≠ [] := by
  rw [segments, Ne, List.map_eq_nil_iff]
  exact List.splitOnP_ne_nil _ _

theorem segments_slash {c : Char} (hc : isSlash c = true) (cs : List Char) :
    segments (c :: cs) = [] :: segments cs := by
  have hstop : isStop c = false := by
    simp only [isSlash, Bool.or_eq_true, beq_iff_eq] at hc
    rcases hc with rfl | rfl <;> decide
  rw [segments, List.takeWhile_cons_of_pos (by rw [hstop]; rfl), List.splitOnP_cons_eq_if_modifyHead, if_pos hc]
  rfl

theorem segments_stop {c : Char} (hc : isStop c = true) (cs : List Char) : segments (c :: cs) = [[]] := by
  rw [segments, List.takeWhile_cons_of_neg (by simp [hc])]
  rfl

theorem segments_other {c : Char} (hslash : isSlash c = false) (hstop : isStop c = false) (cs : List Char) :
    segments (c :: cs) = (segments cs).modifyHead (fun s => encode c ++ s) := by
  obtain ⟨first, rest, hsplit⟩ :=
    List.exists_cons_of_ne_nil (List.splitOnP_ne_nil isSlash (cs.takeWhile (fun c => !isStop c)))
  rw [segments, segments, List.takeWhile_cons_of_pos (by rw [hstop]; rfl), List.splitOnP_cons_eq_if_modifyHead,
    if_neg (by rw [hslash]; exact Bool.false_ne_true), hsplit]
  simp

theorem pathState_eq (path : List Segment) (buffer : Segment) (cs : List Char) :
    pathState path buffer cs = settle path ((segments cs).modifyHead (fun s => buffer ++ s)) := by
  induction cs generalizing path buffer with
  | nil =>
      change _ = endSegment false path (buffer ++ [])
      rw [List.append_nil]
      rfl
  | cons c cs ih =>
      rw [pathState]
      by_cases hslash : isSlash c = true
      · obtain ⟨first, rest, hcs⟩ := List.exists_cons_of_ne_nil (segments_ne_nil cs)
        rw [if_pos hslash, ih, segments_slash hslash, hcs]
        simp [settle]
      · rw [Bool.not_eq_true] at hslash
        rw [if_neg (by rw [hslash]; exact Bool.false_ne_true)]
        by_cases hstop : isStop c = true
        · rw [if_pos hstop, segments_stop hstop]
          simp [settle]
        · rw [Bool.not_eq_true] at hstop
          rw [if_neg (by rw [hstop]; exact Bool.false_ne_true), ih, segments_other hslash hstop]
          congr 1
          cases segments cs with
          | nil => rfl
          | cons first rest => simp

theorem pathState_start (cs : List Char) : pathState [] [] cs = settle [] (segments cs) := by
  rw [pathState_eq]
  cases segments cs <;> rfl

/-- What is left of a text behind its first slash. -/
def cleaned (cs : List Char) : List Char := (cs.rdropWhile isC0OrSpace).filter (fun c => !isTabOrNewline c)

theorem prepared_slash (cs : List Char) : prepared ('/' :: cs) = '/' :: cleaned cs := by
  have hslash : isC0OrSpace '/' = false := by decide
  have hdrop (ds : List Char) : (ds ++ ['/']).dropWhile isC0OrSpace = ds.dropWhile isC0OrSpace ++ ['/'] := by
    induction ds with
    | nil => rfl
    | cons d ds ih =>
        by_cases hd : isC0OrSpace d = true
        · rw [List.cons_append, List.dropWhile_cons_of_pos hd, List.dropWhile_cons_of_pos hd, ih]
        · rw [List.cons_append, List.dropWhile_cons_of_neg hd, List.dropWhile_cons_of_neg hd, List.cons_append]
  have hend : ('/' :: cs).rdropWhile isC0OrSpace = '/' :: cs.rdropWhile isC0OrSpace := by
    rw [List.rdropWhile, List.reverse_cons, hdrop, List.reverse_append]
    rfl
  rw [prepared, List.dropWhile_cons_of_neg (by rw [hslash]; exact Bool.false_ne_true), hend, cleaned]
  rfl

theorem resolve_slash (hosts : Hosts) (base : Origin) {input : String} {cs : List Char}
    (h : input.toList = '/' :: cs) :
    resolve hosts base input = relativeSlash hosts base (cleaned cs) := by
  rw [resolve, h, prepared_slash]
  exact if_pos rfl

/-! The text of a path tells its segments. -/

def Slashless (path : List Segment) : Prop := ∀ s ∈ path, '/' ∉ s

theorem slash_not_mem_encode {c : Char} (hc : c ≠ '/') : '/' ∉ encode c := by
  unfold encode
  split
  · intro h
    obtain ⟨b, -, hb⟩ := List.mem_flatMap.mp h
    have hdigit : ∀ n < 16, hexDigit n ≠ '/' := by decide
    have hb' := UInt8.toNat_lt b
    simp only [percentEncode, List.mem_cons, List.not_mem_nil, or_false] at hb
    rcases hb with hb | hb | hb
    · exact absurd hb (by decide)
    · exact hdigit _ (by omega) hb.symm
    · exact hdigit _ (Nat.mod_lt _ (by decide)) hb.symm
  · exact fun h => hc (List.mem_singleton.mp h).symm

theorem not_mem_splitOnP {p : Char → Bool} {cs s : List Char} (h : s ∈ cs.splitOnP p) :
    ∀ c ∈ s, p c = false := by
  induction cs generalizing s with
  | nil =>
      obtain rfl := List.mem_singleton.mp (show s ∈ [[]] from h)
      exact fun _ hc => absurd hc List.not_mem_nil
  | cons c cs ih =>
      obtain ⟨first, rest, hsplit⟩ := List.exists_cons_of_ne_nil (List.splitOnP_ne_nil p cs)
      rw [List.splitOnP_cons_eq_if_modifyHead] at h
      by_cases hc : p c = true
      · rw [if_pos hc] at h
        rcases List.mem_cons.mp h with rfl | h
        · exact fun _ hc => absurd hc List.not_mem_nil
        · exact ih h
      · rw [if_neg hc, hsplit, List.modifyHead_cons] at h
        rcases List.mem_cons.mp h with rfl | h
        · intro d hd
          rcases List.mem_cons.mp hd with rfl | hd
          · exact Bool.not_eq_true _ ▸ hc
          · exact ih (hsplit ▸ List.mem_cons_self) d hd
        · exact ih (hsplit ▸ List.mem_cons_of_mem _ h)

theorem slashless_segments (cs : List Char) : Slashless (segments cs) := by
  intro s hs
  obtain ⟨raw, hraw, rfl⟩ := List.mem_map.mp hs
  intro h
  obtain ⟨c, hc, hslash⟩ := List.mem_flatMap.mp h
  refine slash_not_mem_encode ?_ hslash
  rintro rfl
  exact absurd (not_mem_splitOnP hraw '/' hc) (by decide)

theorem slashless_endSegment {path : List Segment} {s : Segment} (slash : Bool) (h : Slashless path)
    (hs : '/' ∉ s) :
    Slashless (endSegment slash path s) := by
  have hdrop : Slashless path.dropLast := fun t ht => h t (List.dropLast_subset path ht)
  have hadd {path : List Segment} {s : Segment} (h : Slashless path) (hs : '/' ∉ s) : Slashless (path ++ [s]) := by
    intro t ht
    rcases List.mem_append.mp ht with ht | ht
    · exact h t ht
    · obtain rfl := List.mem_singleton.mp ht
      exact hs
  unfold endSegment
  split
  · split
    · exact hdrop
    · exact hadd hdrop List.not_mem_nil
  · split
    · split
      · exact h
      · exact hadd h List.not_mem_nil
    · exact hadd h hs

theorem slashless_settle {path segs : List Segment} (h : Slashless path) (hsegs : Slashless segs) :
    Slashless (settle path segs) := by
  induction path, segs using settle.induct with
  | case1 path => exact h
  | case2 path s => exact slashless_endSegment false h (hsegs s List.mem_cons_self)
  | case3 path s t rest ih =>
      exact ih (slashless_endSegment true h (hsegs s List.mem_cons_self))
        (fun u hu => hsegs u (List.mem_cons_of_mem _ hu))

theorem takeWhile_slashless {s xs : List Char} (hs : '/' ∉ s) (hxs : ∀ c ∈ xs.head?, c = '/') :
    (s ++ xs).takeWhile (· ≠ '/') = s ∧ (s ++ xs).dropWhile (· ≠ '/') = xs := by
  have hall : ∀ c ∈ s, decide (c ≠ '/') = true := fun c hc => decide_eq_true (fun h => hs (h ▸ hc))
  rw [List.takeWhile_append_of_pos hall, List.dropWhile_append_of_pos hall]
  cases xs with
  | nil => exact ⟨List.append_nil s, rfl⟩
  | cons c xs =>
      obtain rfl : c = '/' := hxs c rfl
      exact ⟨List.append_nil s, rfl⟩

theorem append_slash_inj {s t xs ys : List Char} (hs : '/' ∉ s) (ht : '/' ∉ t) (hxs : ∀ c ∈ xs.head?, c = '/')
    (hys : ∀ c ∈ ys.head?, c = '/') (h : s ++ xs = t ++ ys) : s = t ∧ xs = ys := by
  obtain ⟨htake, hdrop⟩ := takeWhile_slashless hs hxs
  obtain ⟨htake', hdrop'⟩ := takeWhile_slashless ht hys
  rw [h] at htake hdrop
  exact ⟨htake.symm.trans htake', hdrop.symm.trans hdrop'⟩

theorem head_pathChars (path : List Segment) : ∀ c ∈ (pathChars path).head?, c = '/' := by
  cases path with
  | nil => exact fun _ h => absurd h (Option.not_mem_none _)
  | cons s path => exact fun c h => (Option.some.inj h).symm

theorem pathChars_cons (s : Segment) (path : List Segment) :
    pathChars (s :: path) = '/' :: (s ++ pathChars path) := rfl

theorem pathChars_injective {path path' : List Segment} (h : Slashless path) (h' : Slashless path')
    (heq : pathChars path = pathChars path') : path = path' := by
  induction path generalizing path' with
  | nil =>
      cases path' with
      | nil => rfl
      | cons t path' => cases heq
  | cons s path ih =>
      cases path' with
      | nil => cases heq
      | cons t path' =>
          rw [pathChars_cons, pathChars_cons] at heq
          obtain ⟨rfl, hrest⟩ := append_slash_inj (h s List.mem_cons_self) (h' t List.mem_cons_self)
            (head_pathChars path)
            (head_pathChars path') (List.tail_eq_of_cons_eq heq)
          rw [ih (fun u hu => h u (List.mem_cons_of_mem _ hu)) (fun u hu => h' u (List.mem_cons_of_mem _ hu)) hrest]

theorem pathChars_prefix {front path : List Segment} (hfront : Slashless front) (h : Slashless path) :
    pathChars front ++ ['/'] <+: pathChars path ↔ ∃ more, more ≠ [] ∧ path = front ++ more := by
  constructor
  · rintro ⟨rest, hrest⟩
    induction front generalizing path with
    | nil =>
        refine ⟨path, ?_, rfl⟩
        rintro rfl
        cases hrest
    | cons s front ih =>
        cases path with
        | nil => cases hrest
        | cons t path =>
            have hnext : pathChars (s :: front) ++ ['/'] ++ rest =
                '/' :: (s ++ (pathChars front ++ ['/'] ++ rest)) := by
              simp [pathChars]
            have hhead : ∀ c ∈ (pathChars front ++ ['/'] ++ rest).head?, c = '/' := by
              cases front with
              | nil => exact fun c h => (Option.some.inj h).symm
              | cons t front => exact fun c h => (Option.some.inj h).symm
            rw [hnext, pathChars_cons] at hrest
            obtain ⟨rfl, htail⟩ := append_slash_inj (hfront s List.mem_cons_self) (h t List.mem_cons_self) hhead
              (head_pathChars path) (List.tail_eq_of_cons_eq hrest)
            obtain ⟨more, hmore, rfl⟩ := ih (fun u hu => hfront u (List.mem_cons_of_mem _ hu))
              (fun u hu => h u (List.mem_cons_of_mem _ hu)) htail
            exact ⟨more, hmore, rfl⟩
  · rintro ⟨more, hmore, rfl⟩
    obtain ⟨t, more, rfl⟩ := List.exists_cons_of_ne_nil hmore
    exact ⟨t ++ pathChars more, by simp [pathChars]⟩

end MLRunX.UrlPaths
