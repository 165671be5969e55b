import MLRunX.RunFilter

namespace MLRunX.KeyCase

open MetadataKey RunFilter Text

/-- A property of the ASCII characters is one of those that take one byte. -/
theorem of_ascii {P : Char → Prop} (h : ∀ n < 128, P (Char.ofNat n)) {c : Char} (hc : c.utf8Size = 1) : P c := by
  have hlt : c.toNat < 128 := by
    have hval := Char.utf8Size_eq_one_iff.mp hc
    exact Nat.lt_of_le_of_lt (UInt32.le_iff_toNat_le.mp hval) (by decide)
  have hchar := h c.toNat hlt
  rwa [Char.ofNat_toNat] at hchar

/-- The characters of a stored key. -/
def isPathChar (c : Char) : Bool := isKeyChar c || c == '.'

theorem isPathChar_utf8Size {c : Char} (h : isPathChar c = true) : c.utf8Size = 1 := by
  rcases Bool.or_eq_true_iff.mp h with h | h
  · exact isKeyChar_utf8Size h
  · rw [beq_iff_eq.mp h]
    decide

theorem isKeyChar_toLower {c : Char} (h : isKeyChar c = true) : isKeyChar c.toLower = true :=
  of_ascii (P := fun c => isKeyChar c = true → isKeyChar c.toLower = true) (by decide +kernel)
    (isKeyChar_utf8Size h) h

theorem toLower_eq_dot {c : Char} (h : isPathChar c = true) : c.toLower = '.' ↔ c = '.' :=
  of_ascii (P := fun c => c.toLower = '.' ↔ c = '.') (by decide +kernel) (isPathChar_utf8Size h)

theorem isPathChar_toLower {c : Char} (h : isPathChar c = true) : isPathChar c.toLower = true := by
  rcases Bool.or_eq_true_iff.mp h with hkey | hdot
  · exact Bool.or_eq_true_iff.mpr (.inl (isKeyChar_toLower hkey))
  · rw [beq_iff_eq.mp hdot]
    decide

theorem isWordChar_of_path {c : Char} (h : isPathChar c = true) : isWordChar c = true :=
  of_ascii (P := fun c => isPathChar c = true → isWordChar c = true) (by decide +kernel) (isPathChar_utf8Size h) h

theorem not_whitespace_of_path {c : Char} (h : isPathChar c = true) : isWhitespace c = false := by
  have hword := isWordChar_of_path h
  rw [isWordChar, Bool.and_eq_true, Bool.not_eq_true'] at hword
  exact hword.1

/-- What a key is checked for once it is in its canonical form. -/
structure Proper (key : String) : Prop where
  dotted : '.' ∈ key.toList
  length : byteLength key ≤ metadataMaxKeyLen
  depth : (split '.' key).length ≤ metadataMaxDepth
  space : (split '.' key).headD "" ∈ allowedMetadataNamespaces
  segments : ∀ segment ∈ split '.' key, segmentError key segment = none

theorem proper_of_canonical {rawKey defaultNamespace key : String}
    (h : canonicalizeMetadataKey rawKey defaultNamespace = .ok key) : Proper key := by
  simp only [canonicalizeMetadataKey] at h
  have hdot : '.' ∈ (if (trim rawKey).toList.contains '.' then trim rawKey
      else s!"{defaultNamespace}.{trim rawKey}").toList := by
    split
    · rename_i hcontains
      simpa using hcontains
    · rw [String.toList_append, String.toList_append, List.mem_append, List.mem_append]
      exact .inl (.inr (by decide))
  generalize (if (trim rawKey).toList.contains '.' then trim rawKey else s!"{defaultNamespace}.{trim rawKey}")
    = canonical at h hdot
  split at h
  · cases h
  split at h
  · cases h
  split at h
  · cases h
  split at h
  · cases h
  rename_i hlength hdepth hspace
  split at h
  · cases h
  · rename_i hsegments
    obtain rfl := Except.ok.inj h
    constructor
    · exact hdot
    · exact Nat.le_of_not_lt hlength
    · exact Nat.le_of_not_lt hdepth
    · simpa using hspace
    · exact List.findSome?_eq_none_iff.mp hsegments

variable {key : String}

theorem Proper.path (h : Proper key) : ∀ c ∈ key.toList, isPathChar c = true := by
  intro c hc
  by_cases hdot : c = '.'
  · rw [hdot]
    decide
  · obtain ⟨segment, hsegment, hmem⟩ := mem_splitOnP (p := (· == '.')) (by simpa using hdot) hc
    have hnone := h.segments (String.ofList segment) (List.mem_map_of_mem hsegment)
    have hkey := segmentError_eq_none hnone c (by simpa using hmem)
    exact Bool.or_eq_true_iff.mpr (.inl hkey)

theorem trim_of_path {s : String} (h : ∀ c ∈ s.toList, isPathChar c = true) : trim s = s :=
  trim_unblank (fun c hc => not_whitespace_of_path (h c hc))

theorem Proper.trim_eq (h : Proper key) : trim key = key := trim_of_path h.path

theorem Proper.canonical (h : Proper key) (defaultNamespace : String) :
    canonicalizeMetadataKey key defaultNamespace = .ok key := by
  have hcontains : key.toList.contains '.' = true := by simpa using h.dotted
  have hne : key ≠ "" := by
    rintro rfl
    exact absurd h.dotted (by decide)
  have hsegments : (split '.' key).findSome? (segmentError key) = none :=
    List.findSome?_eq_none_iff.mpr h.segments
  have hspace : (!allowedMetadataNamespaces.contains ((split '.' key).headD "")) = false := by simpa using h.space
  simp only [canonicalizeMetadataKey, h.trim_eq, hcontains, if_true, hsegments]
  rw [if_neg hne, if_neg (Nat.not_lt.mpr h.length), if_neg (Nat.not_lt.mpr h.depth), hspace]
  rfl

theorem Proper.canonicalize (h : Proper key) (defaultNamespace : String) :
    canonicalAndLegacyMetadataKey key defaultNamespace = .ok (key, none) := by
  have hcontains : key.toList.contains '.' = true := by simpa using h.dotted
  rw [canonicalAndLegacyMetadataKey, h.canonical, h.trim_eq]
  change Except.ok (key, if key.toList.contains '.' then none else some key) = _
  rw [hcontains]
  rfl

theorem splitOn_map {f : Char → Char} {cs : List Char} (h : ∀ c ∈ cs, f c = '.' ↔ c = '.') :
    (cs.map f).splitOn '.' = (cs.splitOn '.').map (List.map f) := by
  induction cs with
  | nil => rfl
  | cons c cs ih =>
      have hc := h c List.mem_cons_self
      have hrest := ih (fun d hd => h d (List.mem_cons_of_mem _ hd))
      simp only [List.splitOn] at hrest ⊢
      rw [List.map_cons, List.splitOnP_cons_eq_if_modifyHead, List.splitOnP_cons_eq_if_modifyHead, hrest]
      by_cases hdot : c = '.'
      · subst hdot
        simp [hc.mpr rfl]
      · have hne : f c ≠ '.' := fun hf => hdot (hc.mp hf)
        obtain ⟨segment, rest, hsplit⟩ := List.exists_cons_of_ne_nil (List.splitOnP_ne_nil (· == '.') cs)
        simp [hne, hdot, hsplit]

theorem split_toAsciiLowercase (h : ∀ c ∈ key.toList, isPathChar c = true) :
    split '.' (toAsciiLowercase key) = (split '.' key).map toAsciiLowercase := by
  rw [split, toAsciiLowercase, String.toList_ofList, splitOn_map (fun c hc => toLower_eq_dot (h c hc)), split,
    List.map_map, List.map_map]
  apply List.map_congr_left
  intro segment _
  simp [toAsciiLowercase]

theorem byteLength_of_ascii {s : String} (h : ∀ c ∈ s.toList, c.utf8Size = 1) :
    byteLength s = s.toList.length := by
  rw [byteLength, List.map_congr_left (g := fun _ => 1) h]
  simp

theorem segmentError_toAsciiLowercase {segment canonical canonical' : String}
    (h : segmentError canonical segment = none) : segmentError canonical' (toAsciiLowercase segment) = none := by
  have hkey := segmentError_eq_none h
  have hlower : ∀ c ∈ (toAsciiLowercase segment).toList, isKeyChar c = true := by
    intro c hc
    rw [toAsciiLowercase, String.toList_ofList] at hc
    obtain ⟨d, hd, rfl⟩ := List.mem_map.mp hc
    exact isKeyChar_toLower (hkey d hd)
  have hlength : byteLength (toAsciiLowercase segment) = byteLength segment := by
    rw [byteLength_of_ascii (fun c hc => isKeyChar_utf8Size (hlower c hc)),
      byteLength_of_ascii (fun c hc => isKeyChar_utf8Size (hkey c hc))]
    simp [toAsciiLowercase]
  have hempty : toAsciiLowercase segment = "" ↔ segment = "" := by
    rw [← String.toList_inj, ← String.toList_inj, toAsciiLowercase, String.toList_ofList]
    simp
  have hall : (toAsciiLowercase segment).toList.all isKeyChar = true := List.all_eq_true.mpr hlower
  have hall' : segment.toList.all isKeyChar = true := List.all_eq_true.mpr hkey
  simp only [segmentError, hempty, hlength, hall] at h ⊢
  split at h
  · cases h
  split at h
  · cases h
  · rename_i hne hshort
    rw [if_neg hne, if_neg hshort]
    rfl

theorem Proper.toAsciiLowercase (h : Proper key) : Proper (toAsciiLowercase key) := by
  have hsplit := split_toAsciiLowercase h.path
  have hlower : ∀ c ∈ (Text.toAsciiLowercase key).toList, isPathChar c = true := by
    intro c hc
    rw [Text.toAsciiLowercase, String.toList_ofList] at hc
    obtain ⟨d, hd, rfl⟩ := List.mem_map.mp hc
    exact isPathChar_toLower (h.path d hd)
  have hlength : byteLength (Text.toAsciiLowercase key) = byteLength key := by
    rw [byteLength_of_ascii (fun c hc => isPathChar_utf8Size (hlower c hc)),
      byteLength_of_ascii (fun c hc => isPathChar_utf8Size (h.path c hc))]
    simp [Text.toAsciiLowercase]
  constructor
  · rw [Text.toAsciiLowercase, String.toList_ofList]
    exact List.mem_map.mpr ⟨'.', h.dotted, by decide⟩
  · rw [hlength]
    exact h.length
  · rw [hsplit, List.length_map]
    exact h.depth
  · have hsame : ∀ name ∈ allowedMetadataNamespaces, Text.toAsciiLowercase name = name := by decide +kernel
    have hhead : ((split '.' key).map Text.toAsciiLowercase).headD "" = (split '.' key).headD "" := by
      have hspace := h.space
      cases hcs : split '.' key with
      | nil => rfl
      | cons first rest =>
          rw [hcs] at hspace
          exact hsame first hspace
    rw [hsplit, hhead]
    exact h.space
  · intro segment hsegment
    rw [hsplit] at hsegment
    obtain ⟨original, horiginal, rfl⟩ := List.mem_map.mp hsegment
    exact segmentError_toAsciiLowercase (h.segments original horiginal)

end MLRunX.KeyCase
