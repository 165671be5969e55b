import MLRunX.KeyCase

namespace MLRunX.CanonicalKeys

open KeyCase MetadataKey RunFilter Text

def Plain (c : Char) : Prop :=
  ('a' ≤ c ∧ c ≤ 'z') ∨ ('A' ≤ c ∧ c ≤ 'Z') ∨ ('0' ≤ c ∧ c ≤ '9') ∨ c = '_' ∨ c = '-'

structure WellFormed (key : String) : Prop where
  bytes : byteLength key ≤ 256
  depth : 2 ≤ (split '.' key).length ∧ (split '.' key).length ≤ 4
  segments : ∀ segment ∈ split '.' key,
    segment ≠ "" ∧ segment.toList.length ≤ 64 ∧ ∀ c ∈ segment.toList, Plain c
  first : ∃ name ∈ allowedMetadataNamespaces, (split '.' key).head? = some name

/-- The keys are equal up to the white space around them and a default namespace that one of them spells out. -/
def SameKey (rawKey defaultNamespace rawKey' defaultNamespace' : String) : Prop :=
  trim rawKey = trim rawKey' ∨ trim rawKey = defaultNamespace' ++ "." ++ trim rawKey' ∨
    trim rawKey' = defaultNamespace ++ "." ++ trim rawKey

theorem plain_of_isKeyChar {c : Char} (h : isKeyChar c = true) : Plain c := by
  delta isKeyChar Char.isAlphanum Char.isAlpha Char.isUpper Char.isLower Char.isDigit at h
  simp only [Bool.or_eq_true, Bool.and_eq_true, decide_eq_true_eq, beq_iff_eq] at h
  rcases h with (((h | h) | h) | rfl) | rfl
  · exact .inr (.inl h)
  · exact .inl h
  · exact .inr (.inr (.inl h))
  · exact .inr (.inr (.inr (.inl rfl)))
  · exact .inr (.inr (.inr (.inr rfl)))

theorem wellFormed_segment {canonical segment : String} (h : segmentError canonical segment = none) :
    segment ≠ "" ∧ segment.toList.length ≤ 64 ∧ ∀ c ∈ segment.toList, Plain c := by
  have hkey := segmentError_eq_none h
  have hlength := byteLength_of_ascii (fun c hc => isKeyChar_utf8Size (hkey c hc))
  rw [segmentError] at h
  split at h
  · cases h
  split at h
  · cases h
  · rename_i hne hshort
    rw [hlength] at hshort
    exact ⟨hne, Nat.le_of_not_lt hshort, fun c hc => plain_of_isKeyChar (hkey c hc)⟩

theorem two_le_split {key : String} (h : '.' ∈ key.toList) : 2 ≤ (split '.' key).length := by
  obtain ⟨front, back, hkey⟩ := List.append_of_mem h
  rw [split, List.length_map, hkey, List.splitOn_append_cons_self, List.length_append]
  have hfront := List.length_pos_iff.mpr (List.splitOn_ne_nil '.' front)
  have hback := List.length_pos_iff.mpr (List.splitOn_ne_nil '.' back)
  omega

variable {key : String}

theorem wellFormed_of_proper (h : Proper key) : WellFormed key where
  bytes := h.length
  depth := ⟨two_le_split h.dotted, h.depth⟩
  segments := fun segment hsegment => wellFormed_segment (h.segments segment hsegment)
  first := by
    have hspace := h.space
    cases hcs : split '.' key with
    | nil => exact absurd (two_le_split h.dotted) (by simp [hcs])
    | cons name rest =>
        rw [hcs] at hspace
        exact ⟨name, hspace, rfl⟩

variable {rawKey rawKey' defaultNamespace defaultNamespace' : String}

theorem canonical_eq (h : canonicalizeMetadataKey rawKey defaultNamespace = .ok key) :
    key = if '.' ∈ (trim rawKey).toList then trim rawKey else defaultNamespace ++ "." ++ trim rawKey := by
  have hform : (if (trim rawKey).toList.contains '.' then trim rawKey else s!"{defaultNamespace}.{trim rawKey}") =
      if '.' ∈ (trim rawKey).toList then trim rawKey else defaultNamespace ++ "." ++ trim rawKey := by
    simp only [List.contains_iff_mem]
    rfl
  simp only [canonicalizeMetadataKey] at h
  rw [← hform]
  generalize (if (trim rawKey).toList.contains '.' then trim rawKey else s!"{defaultNamespace}.{trim rawKey}")
    = canonical at h
  split at h
  · cases h
  split at h
  · cases h
  split at h
  · cases h
  split at h
  · cases h
  split at h
  · cases h
  · exact (Except.ok.inj h).symm

theorem not_dotted : ∀ name ∈ allowedMetadataNamespaces, '.' ∉ name.toList := by decide +kernel

theorem trim_eq_of_spelled (hname : '.' ∉ defaultNamespace.toList) (hdot : '.' ∉ (trim rawKey).toList)
    (h : defaultNamespace ++ "." ++ trim rawKey = defaultNamespace' ++ "." ++ trim rawKey') :
    trim rawKey = trim rawKey' := by
  have hlists : ∀ name text : String, (name ++ "." ++ text).toList = name.toList ++ '.' :: text.toList := by
    intro name text
    rw [String.toList_append, String.toList_append, List.append_assoc]
    rfl
  have hparts := (List.append_cons_inj_of_notMem hname hdot).mp
    ((hlists _ _).symm.trans ((congrArg String.toList h).trans (hlists _ _)))
  exact String.toList_inj.mp hparts.2.2

theorem sameKey_of_eq (hname : defaultNamespace ∈ allowedMetadataNamespaces)
    (h : canonicalizeMetadataKey rawKey defaultNamespace = .ok key)
    (h' : canonicalizeMetadataKey rawKey' defaultNamespace' = .ok key) :
    SameKey rawKey defaultNamespace rawKey' defaultNamespace' := by
  have heq := (canonical_eq h).symm.trans (canonical_eq h')
  by_cases hdot : '.' ∈ (trim rawKey).toList
  · rw [if_pos hdot] at heq
    by_cases hdot' : '.' ∈ (trim rawKey').toList
    · rw [if_pos hdot'] at heq
      exact .inl heq
    · rw [if_neg hdot'] at heq
      exact .inr (.inl heq)
  · rw [if_neg hdot] at heq
    by_cases hdot' : '.' ∈ (trim rawKey').toList
    · rw [if_pos hdot'] at heq
      exact .inr (.inr heq.symm)
    · rw [if_neg hdot'] at heq
      exact .inl (trim_eq_of_spelled (not_dotted _ hname) hdot heq)

/-- Canonical keys are well formed, canonical under every default, and the form of one key but for
white space and the default namespace. -/
theorem canonical_closure (hname : defaultNamespace ∈ allowedMetadataNamespaces)
    (h : canonicalizeMetadataKey rawKey defaultNamespace = .ok key) :
    WellFormed key ∧ (∀ other ∈ allowedMetadataNamespaces, canonicalizeMetadataKey key other = .ok key) ∧
      ∀ rawKey', ∀ defaultNamespace' ∈ allowedMetadataNamespaces,
        canonicalizeMetadataKey rawKey' defaultNamespace' = .ok key →
          SameKey rawKey defaultNamespace rawKey' defaultNamespace' := by
  have hproper := proper_of_canonical h
  refine ⟨wellFormed_of_proper hproper, fun other _ => hproper.canonical other, ?_⟩
  intro rawKey' defaultNamespace' _ h'
  exact sameKey_of_eq hname h h'

theorem canonical_closure_lr : WellFormed "parameters.lr" ∧
    (∀ other ∈ allowedMetadataNamespaces, canonicalizeMetadataKey "parameters.lr" other = .ok "parameters.lr") ∧
      ∀ rawKey', ∀ defaultNamespace' ∈ allowedMetadataNamespaces,
        canonicalizeMetadataKey rawKey' defaultNamespace' = .ok "parameters.lr" →
          SameKey " lr" "parameters" rawKey' defaultNamespace' :=
  canonical_closure (by decide) (by decide +kernel)

end MLRunX.CanonicalKeys
