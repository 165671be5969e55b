import Mathlib.Data.List.DropRight
import MLRunX.JsonBounds
import MLRunX.SanitizerBypass

namespace MLRunX.MessageCuts

open EnvelopeReading IngestRequest JsonBounds JsonMeaning JsonText JsonValues Sanitizer SanitizerBypass SerdeJson
open StructuredEvents Text

variable {N : Numbers}

/-- The message that is stored of one that is not refused. -/
def settledMessage (N : Numbers) (m : String) : String := (sanitizeStructuredEventMessage N m).toOption.join.getD m

/-- The part of a message that is looked at. -/
def cutMessage (m : String) : String := String.ofList (m.toList.take runEventMaxLen)

theorem length_le_byteLength (s : String) : s.toList.length ≤ byteLength s := by
  rw [byteLength]
  induction s.toList with
  | nil => rfl
  | cons c cs ih =>
      have hpos := c.utf8Size_pos
      rw [List.map_cons, List.sum_cons, List.length_cons]
      omega

theorem cutMessage_short {m : String} (h : m.toList.length ≤ runEventMaxLen) : cutMessage m = m := by
  rw [cutMessage, List.take_of_length_le h, String.ofList_toList]

theorem sanitizeRunEventMessage_eq (raw : String) :
    sanitizeRunEventMessage raw = if trim raw = "" then none else some (cutMessage (trim raw)) := by
  rw [sanitizeRunEventMessage]
  split
  · rfl
  · split
    · rename_i hshort
      rw [cutMessage_short ((length_le_byteLength _).trans hshort)]
    · rfl

/-! An object or a list is not read of a text and of a part of it. -/

theorem isWhitespace_of_isBlank {c : Char} (h : isBlank c = true) : isWhitespace c = true := by
  simp only [isBlank, Bool.or_eq_true, beq_iff_eq] at h
  rcases h with ((rfl | rfl) | rfl) | rfl <;> rfl

theorem trimChars_last (cs : List Char) (h : trimChars cs ≠ []) :
    isWhitespace ((trimChars cs).getLast h) = false := by
  have hchars : trimChars cs = (cs.dropWhile isWhitespace).rdropWhile isWhitespace := rfl
  have hlast := List.rdropWhile_last_not isWhitespace (cs.dropWhile isWhitespace) (hchars ▸ h)
  simpa only [hchars, Bool.not_eq_true] using hlast

theorem dropped_not_blank {raw : String} (h : runEventMaxLen < (trim raw).toList.length) :
    ¬ ((trim raw).toList.drop runEventMaxLen).all isBlank := by
  rw [trim, String.toList_ofList] at h ⊢
  have hne : (trimChars raw.toList).drop runEventMaxLen ≠ [] := by
    intro hnil
    rw [List.drop_eq_nil_iff] at hnil
    omega
  intro hall
  have hblank := List.all_eq_true.1 hall _ (List.getLast_mem hne)
  rw [List.getLast_drop] at hblank
  have hlast := trimChars_last raw.toList (fun hnil => by
    rw [hnil] at h
    cases h)
  rw [isWhitespace_of_isBlank hblank] at hlast
  cases hlast

theorem readable_of_envelope {m : String} {e : StructuredEnvelope} (h : (fromStr N m).bind fromValue = some e) :
    ∃ d, scan m.toList = some d ∧ ∀ n, d ≠ .number n := by
  obtain ⟨j, hj, he⟩ := Option.bind_eq_some_iff.1 h
  obtain ⟨d, hd, hdoc⟩ := Option.bind_eq_some_iff.1 hj
  refine ⟨d, hd, ?_⟩
  rintro n rfl
  rw [fromDoc] at hdoc
  split at hdoc
  · cases n with
    | nonFinite w => cases hdoc
    | numeral n =>
        obtain ⟨t, -, rfl⟩ := Option.map_eq_some_iff.1 hdoc
        cases he
  · cases hdoc

theorem sanitize_unreadable {m : String} (h : (fromStr N m).bind fromValue = none) :
    sanitizeStructuredEventMessage N m = .ok none := by
  simp only [sanitizeStructuredEventMessage, h]

/-- Of a message that is cut, the part that is left is no envelope when the message is one. -/
theorem unreadable_cut {raw : String} {e : StructuredEnvelope}
    (hlong : runEventMaxLen < (trim raw).toList.length)
    (he : (fromStr N (trim raw)).bind fromValue = some e) :
    (fromStr N (cutMessage (trim raw))).bind fromValue = none := by
  obtain ⟨d, hd, -⟩ := readable_of_envelope he
  cases hcut : (fromStr N (cutMessage (trim raw))).bind fromValue with
  | none => rfl
  | some e' =>
      obtain ⟨d', hd', hnumber⟩ := readable_of_envelope hcut
      rw [cutMessage, String.toList_ofList] at hd'
      have hnone := scan_longer hd' hnumber (dropped_not_blank hlong)
      rw [List.take_append_drop, hd] at hnone
      cases hnone

theorem sanitized_envelope {raw m : String} (h : sanitizeStructuredEventMessage N raw = .ok (some m)) :
    ∃ e, (fromStr N m).bind fromValue = some e := by
  obtain ⟨envelope, clean, -, -, -, hread, henvelope⟩ := sanitized_read h
  rw [hread]
  exact ⟨_, fromValue_of_envelopeFromStr hread henvelope⟩

theorem sanitizeKind_length {envelope : StructuredEnvelope} {sanitizePayload : Json → Checked Json} {m : String}
    (h : sanitizeKind N envelope sanitizePayload = .ok (some m)) : byteLength m ≤ runEventMaxLen := by
  obtain ⟨_, -, h⟩ := Fallible.bind_eq_ok.mp h
  obtain ⟨clean, -, h⟩ := Fallible.bind_eq_ok.mp h
  obtain ⟨_, hlength, h⟩ := Fallible.bind_eq_ok.mp h
  obtain rfl := Option.some.inj (Except.ok.inj h)
  exact of_decide_eq_true (require_ok hlength)

theorem sanitized_length {raw m : String} (h : sanitizeStructuredEventMessage N raw = .ok (some m)) :
    byteLength m ≤ runEventMaxLen := by
  rw [sanitizeStructuredEventMessage] at h
  split at h
  · cases h
  · split at h
    · exact sanitizeKind_length h
    · split at h
      · exact sanitizeKind_length h
      · cases h

theorem settledMessage_some {raw m : String} (h : sanitizeStructuredEventMessage N raw = .ok (some m)) :
    settledMessage N raw = m := by
  rw [settledMessage, h]
  rfl

theorem settledMessage_cases (N : Numbers) (m : String) :
    (∃ m', sanitizeStructuredEventMessage N m = .ok (some m') ∧ settledMessage N m = m') ∨
      settledMessage N m = m := by
  cases h : sanitizeStructuredEventMessage N m with
  | error e =>
      right
      rw [settledMessage, h]
      rfl
  | ok r =>
      cases r with
      | none =>
          right
          rw [settledMessage, h]
          rfl
      | some m' => exact .inl ⟨m', rfl, settledMessage_some h⟩

theorem length_cutMessage {m : String} (h : runEventMaxLen < m.toList.length) :
    (cutMessage m).toList.length = runEventMaxLen := by
  rw [cutMessage, String.toList_ofList, List.length_take]
  omega

theorem settled_cut_iff {raw : String} :
    settledMessage N (cutMessage (trim raw)) = settledMessage N (trim raw) ↔
      (trim raw).toList.length ≤ runEventMaxLen := by
  constructor
  · intro h
    by_contra hlong
    have hlong : runEventMaxLen < (trim raw).toList.length := not_le.mp hlong
    rcases settledMessage_cases N (trim raw) with ⟨m, hm, hwhole⟩ | hwhole
    · obtain ⟨envelope, -, henvelope, -⟩ := sanitized_read hm
      have hleft := sanitize_unreadable (unreadable_cut hlong henvelope)
      obtain ⟨e, he⟩ := sanitized_envelope hm
      have hcut : settledMessage N (cutMessage (trim raw)) = cutMessage (trim raw) := by
        rw [settledMessage, hleft]
        rfl
      rw [← hwhole, ← h, hcut, unreadable_cut hlong henvelope] at he
      cases he
    · have hshort : (settledMessage N (cutMessage (trim raw))).toList.length ≤ runEventMaxLen := by
        rcases settledMessage_cases N (cutMessage (trim raw)) with ⟨m, hm, hcut⟩ | hcut
        · rw [hcut]
          exact (length_le_byteLength m).trans (sanitized_length hm)
        · rw [hcut, length_cutMessage hlong]
      rw [h, hwhole] at hshort
      omega
  · intro hshort
    rw [cutMessage_short hshort]

end MLRunX.MessageCuts
