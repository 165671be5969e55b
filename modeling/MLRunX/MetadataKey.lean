import MLRunX.Text

namespace MLRunX.MetadataKey

open Text

def allowedMetadataNamespaces : List String := ["parameters", "tags", "system", "dataset", "model"]

def metadataMaxKeyLen : Nat := 256

def metadataMaxDepth : Nat := 4

def metadataMaxSegmentLen : Nat := 64

def paramValueMaxLen : Nat := 4096

def isKeyChar (c : Char) : Bool := c.isAlphanum || c == '_' || c == '-'

/-- What a segment of a key is refused for. -/
def segmentError (canonical segment : String) : Option String :=
  if segment = "" then
    some s!"metadata key '{canonical}' contains empty path segments"
  else if metadataMaxSegmentLen < byteLength segment then
    some s!"metadata key segment '{segment}' exceeds max length {metadataMaxSegmentLen}"
  else if !segment.toList.all isKeyChar then
    some s!"metadata key '{canonical}' contains invalid characters; allowed: a-z, A-Z, 0-9, _, - and ."
  else
    none

def canonicalizeMetadataKey (rawKey defaultNamespace : String) : Except String String :=
  let trimmed := trim rawKey
  let canonical := if trimmed.toList.contains '.' then trimmed else s!"{defaultNamespace}.{trimmed}"
  let segments := split '.' canonical
  let keyNamespace := segments.headD ""
  if trimmed = "" then
    .error "metadata key cannot be empty"
  else if metadataMaxKeyLen < byteLength canonical then
    .error s!"metadata key '{trimmed}' exceeds max length {metadataMaxKeyLen}"
  else if metadataMaxDepth < segments.length then
    .error s!"metadata key '{canonical}' exceeds max depth {metadataMaxDepth}"
  else if !allowedMetadataNamespaces.contains keyNamespace then
    .error s!"metadata key '{canonical}' uses unsupported namespace '{keyNamespace}'"
  else match segments.findSome? (segmentError canonical) with
    | some err => .error err
    | none => .ok canonical

def validateTagValue (rawValue : String) (maxLen : Nat) : Except String Unit :=
  if maxLen < byteLength rawValue then .error s!"tag value exceeds max length {maxLen} characters"
  else .ok ()

def validateParamValue (rawValue : String) : Except String Unit :=
  if paramValueMaxLen < byteLength rawValue then
    .error s!"parameter value exceeds max length {paramValueMaxLen} characters"
  else
    .ok ()

theorem isKeyChar_utf8Size {c : Char} (h : isKeyChar c = true) : c.utf8Size = 1 := by
  rw [Char.utf8Size_eq_one_iff]
  delta isKeyChar Char.isAlphanum Char.isAlpha Char.isUpper Char.isLower Char.isDigit at h
  simp only [Bool.or_eq_true, Bool.and_eq_true, decide_eq_true_eq, beq_iff_eq, UInt32.le_iff_toNat_le,
    ge_iff_le] at h ⊢
  rcases h with (((h | h) | h) | rfl) | rfl
  · exact h.2.trans (by decide)
  · exact h.2.trans (by decide)
  · exact h.2.trans (by decide)
  · decide
  · decide

theorem mem_splitOnP {p : Char → Bool} {c : Char} (hp : p c = false) {cs : List Char} (hc : c ∈ cs) :
    ∃ segment ∈ cs.splitOnP p, c ∈ segment := by
  induction cs with
  | nil => cases hc
  | cons a as ih =>
      rw [List.splitOnP_cons_eq_if_modifyHead]
      rcases List.mem_cons.mp hc with rfl | hc
      · rw [if_neg (by simp [hp])]
        obtain ⟨segment, rest, hsplit⟩ := List.exists_cons_of_ne_nil (List.splitOnP_ne_nil p as)
        exact ⟨c :: segment, by simp [hsplit], List.mem_cons_self⟩
      · obtain ⟨segment, hsegment, hmem⟩ := ih hc
        split
        · exact ⟨segment, List.mem_cons_of_mem _ hsegment, hmem⟩
        · obtain ⟨first, rest, hsplit⟩ := List.exists_cons_of_ne_nil (List.splitOnP_ne_nil p as)
          rw [hsplit] at hsegment ⊢
          rcases List.mem_cons.mp hsegment with rfl | hsegment
          · exact ⟨a :: segment, by simp, List.mem_cons_of_mem _ hmem⟩
          · exact ⟨segment, by simp [hsegment], hmem⟩

theorem segmentError_eq_none {canonical segment : String} (h : segmentError canonical segment = none) :
    ∀ c ∈ segment.toList, isKeyChar c = true := by
  simp only [segmentError] at h
  split at h
  · cases h
  split at h
  · cases h
  split at h
  · cases h
  · rename_i hall
    simpa using hall

/-- The keys that are let in are plain ASCII. -/
theorem canonicalizeMetadataKey_utf8Size {rawKey defaultNamespace key : String}
    (h : canonicalizeMetadataKey rawKey defaultNamespace = .ok key) : ∀ c ∈ key.toList, c.utf8Size = 1 := by
  simp only [canonicalizeMetadataKey] at h
  generalize (if (trim rawKey).toList.contains '.' then trim rawKey else s!"{defaultNamespace}.{trim rawKey}")
    = canonical at h
  split at h
  · cases h
  split at h
  · cases h
  split at h
  · cases h
  split at h
  · cases h
  split at h
  · cases h
  · rename_i hsegments
    obtain rfl := Except.ok.inj h
    intro c hc
    by_cases hdot : c = '.'
    · rw [hdot]
      decide
    · obtain ⟨segment, hsegment, hmem⟩ := mem_splitOnP (p := (· == '.')) (by simpa using hdot) hc
      have hnone := List.findSome?_eq_none_iff.mp hsegments (String.ofList segment)
        (List.mem_map_of_mem hsegment)
      exact isKeyChar_utf8Size (segmentError_eq_none hnone c (by simpa using hmem))

end MLRunX.MetadataKey
