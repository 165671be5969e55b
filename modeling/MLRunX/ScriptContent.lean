import MLRunX.SanitizerBypass

namespace MLRunX.ScriptContent

open EnvelopeReading JsonMeaning JsonValues Sanitizer SanitizerBypass SerdeJson StructuredEvents

variable {N : Numbers}

section Fields

variable {α : Type}

theorem self_mem_insertField {f : String × α} {gs : List (String × α)} (h : f.1 ∉ gs.map Prod.fst) :
    f ∈ insertField f gs := by
  induction gs with
  | nil => exact List.mem_singleton_self f
  | cons g gs ih =>
      rw [List.map_cons, List.mem_cons, not_or] at h
      simp only [insertField, if_neg h.1]
      split
      · exact List.mem_cons_self
      · exact List.mem_cons_of_mem g (ih h.2)

theorem mem_insertField_of_mem {f h : String × α} {gs : List (String × α)} (hh : h ∈ gs) :
    h ∈ insertField f gs := by
  induction gs with
  | nil => cases hh
  | cons g gs ih =>
      simp only [insertField]
      split
      · exact List.mem_cons_of_mem f hh
      · split
        · exact hh
        · rcases List.mem_cons.mp hh with rfl | hh
          · exact List.mem_cons_self
          · exact List.mem_cons_of_mem g (ih hh)

theorem mem_ordered_iff {fs : List (String × α)} (h : (fs.map Prod.fst).Nodup) {f : String × α} :
    f ∈ ordered fs ↔ f ∈ fs := by
  induction fs with
  | nil => exact Iff.rfl
  | cons g fs ih =>
      rw [List.map_cons, List.nodup_cons] at h
      rw [ordered, List.foldr_cons, ← ordered, List.mem_cons, ← ih h.2]
      constructor
      · exact mem_insertField
      · rintro (rfl | hf)
        · apply self_mem_insertField
          intro hmem
          obtain ⟨p, hp, hkey⟩ := List.mem_map.mp hmem
          exact h.1 (List.mem_map.mpr ⟨p, mem_ordered hp, hkey⟩)
        · exact mem_insertField_of_mem hf

end Fields

theorem mem_textsOfFields {s : String} {fields : List (String × Json)} :
    s ∈ textsOfFields fields ↔ ∃ f ∈ fields, s ∈ textsOf f.2 := by
  induction fields with
  | nil => simp [textsOfFields]
  | cons f fields ih =>
      obtain ⟨key, j⟩ := f
      simp [textsOfFields, ih]

theorem mem_keysOfFields {s : String} {fields : List (String × Json)} :
    s ∈ keysOfFields fields ↔ ∃ f ∈ fields, s = f.1 ∨ s ∈ keysOf f.2 := by
  induction fields with
  | nil => simp [keysOfFields]
  | cons f fields ih =>
      obtain ⟨key, j⟩ := f
      simp [keysOfFields, ih, or_assoc]

def stringsOf (j : Json) : List String := textsOf j ++ keysOf j

theorem textsOf_reread (j : Json) : textsOf (reread N j) = textsOf j := by
  induction j using Json.induct with
  | null => rfl
  | bool b => rfl
  | number t => rfl
  | string s => rfl
  | array items ih =>
      rw [reread, textsOf, textsOf]
      induction items with
      | nil => rfl
      | cons j items ih' =>
          obtain ⟨hj, hjs⟩ := List.forall_mem_cons.mp ih
          rw [rereadItems, textsOfItems, textsOfItems, hj, ih' hjs]
  | object fields ih =>
      rw [reread, textsOf, textsOf]
      induction fields with
      | nil => rfl
      | cons f fields ih' =>
          obtain ⟨key, j⟩ := f
          obtain ⟨hj, hjs⟩ := List.forall_mem_cons.mp ih
          rw [rereadFields, textsOfFields, textsOfFields, hj, ih' hjs]

theorem keysOf_reread (j : Json) : keysOf (reread N j) = keysOf j := by
  induction j using Json.induct with
  | null => rfl
  | bool b => rfl
  | number t => rfl
  | string s => rfl
  | array items ih =>
      rw [reread, keysOf, keysOf]
      induction items with
      | nil => rfl
      | cons j items ih' =>
          obtain ⟨hj, hjs⟩ := List.forall_mem_cons.mp ih
          rw [rereadItems, keysOfItems, keysOfItems, hj, ih' hjs]
  | object fields ih =>
      rw [reread, keysOf, keysOf]
      induction fields with
      | nil => rfl
      | cons f fields ih' =>
          obtain ⟨key, j⟩ := f
          obtain ⟨hj, hjs⟩ := List.forall_mem_cons.mp ih
          rw [rereadFields, keysOfFields, keysOfFields, hj, ih' hjs]

theorem stringsOf_reread (j : Json) : stringsOf (reread N j) = stringsOf j := by
  rw [stringsOf, textsOf_reread, keysOf_reread, stringsOf]

theorem asObject_reread (j : Json) (key : String) :
    (reread N j).asObject.bind (List.lookup key) = (j.asObject.bind (List.lookup key)).map (reread N) := by
  cases j with
  | object fields => exact lookup_rereadFields fields key
  | null => rfl
  | bool b => rfl
  | number t => rfl
  | string s => rfl
  | array items => rfl

section Objects

variable {P : String → Prop} {fields : List (String × Json)}

theorem strings_jsonObject (h : (fields.map Prod.fst).Nodup) :
    (∀ s ∈ stringsOf (jsonObject fields), P s) ↔ ∀ f ∈ fields, P f.1 ∧ ∀ s ∈ stringsOf f.2, P s := by
  simp only [stringsOf, jsonObject, textsOf, keysOf, List.forall_mem_append, mem_textsOfFields, mem_keysOfFields,
    mem_ordered_iff h]
  constructor
  · rintro ⟨htexts, hkeys⟩ f hf
    exact ⟨hkeys _ ⟨f, hf, .inl rfl⟩, fun s hs => htexts s ⟨f, hf, hs⟩, fun s hs =>
      hkeys s ⟨f, hf, .inr hs⟩⟩
  · intro h
    constructor
    · rintro s ⟨f, hf, hs⟩
      exact (h f hf).2.1 s hs
    · rintro s ⟨f, hf, rfl | hs⟩
      · exact (h f hf).1
      · exact (h f hf).2.2 s hs

theorem keys_jsonObject (h : (fields.map Prod.fst).Nodup) :
    (∀ key ∈ keysOf (jsonObject fields), P key) ↔ ∀ f ∈ fields, P f.1 ∧ ∀ key ∈ keysOf f.2, P key := by
  simp only [jsonObject, keysOf, mem_keysOfFields, mem_ordered_iff h]
  constructor
  · intro h f hf
    exact ⟨h _ ⟨f, hf, .inl rfl⟩, fun key hkey => h key ⟨f, hf, .inr hkey⟩⟩
  · rintro h key ⟨f, hf, rfl | hkey⟩
    · exact (h f hf).1
    · exact (h f hf).2 key hkey

end Objects

/-- The value under a key of the payload of an envelope. -/
def inPayload (v : Json) (key : String) : Option Json := do
  let fields ← v.asObject
  let payload ← fields.lookup "payload"
  let object ← payload.asObject
  object.lookup key

/-- A stored value with nothing like a script in it, no key that is forbidden and no
tree that is too deep. -/
structure ScriptFree (v : Json) : Prop where
  strings : ∀ s ∈ stringsOf v, isScriptLike s = false
  keys : ∀ key ∈ keysOf v, isForbiddenKey key = false
  nesting : ∀ key ∈ chartTrees, ∀ j ∈ inPayload v key, (tree j).depth ≤ structuredJsonMaxDepth

/-- The texts of a payload that are stored and not searched. -/
def unsearched (kind : String) (payload : Json) : List String :=
  match payload with
  | .object object =>
      if kind = "image" then
        (trimmedAt object "name").toList ++ (imagePath object).toList ++ (trimmedAt object "caption").toList ++
          keysOf (valueAt object "metadata")
      else
        (trimmedAt object "name").toList ++ (trimmedAt object "chart_type").toList ++
          (trimmedAt object "renderer_hint").toList ++ chartTrees.flatMap (fun key => keysOf (valueAt object key))
  | _ => []

section Payloads

variable {object : List (String × Json)} {name path : String}

theorem strings_string {P : String → Prop} {t : String} : (∀ s ∈ stringsOf (.string t), P s) ↔ P t := by
  simp [stringsOf, textsOf, keysOf]

theorem strings_clean {depth : Nat} {j : Json} (h : Clean depth j) :
    (∀ s ∈ stringsOf j, isScriptLike s = false) ↔ ∀ s ∈ keysOf j, isScriptLike s = false := by
  rw [stringsOf, List.forall_mem_append]
  exact and_iff_right h.texts

theorem isScriptLike_getD {o : Option String} {t : String} (ht : isScriptLike t = false) :
    isScriptLike (o.getD t) = false ↔ ∀ s ∈ o.toList, isScriptLike s = false := by
  cases o with
  | none => simp [ht]
  | some s => simp

theorem strings_optionalText {o : Option String} :
    (∀ s ∈ stringsOf (optionalText o), isScriptLike s = false) ↔ ∀ s ∈ o.toList, isScriptLike s = false := by
  cases o with
  | none => simp [optionalText, stringsOf, textsOf, keysOf]
  | some s => simp [optionalText, stringsOf, textsOf, keysOf]

def ownWords : List String :=
  ["name", "chart_type", "renderer_hint", "data", "layout", "options", "metadata", "path", "caption", "custom", "auto",
    "kind", "payload", "image", "chart"]

theorem isScriptLike_own : ∀ word ∈ ownWords, isScriptLike word = false := by decide +kernel

theorem isForbiddenKey_own : ∀ word ∈ ownWords, isForbiddenKey word = false := by decide +kernel

theorem keys_own {word : String} {texts : List String} (hword : word ∈ ownWords)
    (htexts : ∀ key ∈ texts, isForbiddenKey key = false) :
    isForbiddenKey word = false ∧ ∀ key ∈ texts, isForbiddenKey key = false :=
  ⟨isForbiddenKey_own word hword, htexts⟩

theorem chart_strings (hname : trimmedAt object "name" = some name)
    (htrees : ∀ key ∈ chartTrees, Clean 1 (valueAt object key)) :
    (∀ s ∈ stringsOf (cleanChart object name), isScriptLike s = false) ↔
      ∀ s ∈ unsearched "chart" (.object object), isScriptLike s = false := by
  simp only [chartTrees, List.forall_mem_cons] at htrees
  obtain ⟨hdata, hlayout, hoptions, hmetadata, -⟩ := htrees
  have hkey : ∀ key ∈ ["name", "chart_type", "renderer_hint", "data", "layout", "options", "metadata"],
      isScriptLike key = false :=
    fun key h => isScriptLike_own key (List.mem_append_left _ h)
  simp only [List.forall_mem_cons] at hkey
  obtain ⟨h₁, h₂, h₃, h₄, h₅, h₆, h₇, -⟩ := hkey
  rw [cleanChart, strings_jsonObject (by simp)]
  simp only [unsearched, chartTrees, List.forall_mem_append, List.forall_mem_cons, strings_string,
    strings_clean hdata,
    strings_clean hlayout, strings_clean hoptions, strings_clean hmetadata, h₁, h₂, h₃, h₄, h₅, h₆, h₇,
      true_and, hname,
    isScriptLike_getD (isScriptLike_own "custom" (by simp [ownWords])),
    isScriptLike_getD (isScriptLike_own "auto" (by simp [ownWords])), if_neg (show "chart" ≠ "image" by decide),
    List.flatMap_cons, Option.toList_some, and_assoc]
  simp

theorem image_strings (hname : trimmedAt object "name" = some name) (hpath : imagePath object = some path)
    (hmetadata : Clean 1 (valueAt object "metadata")) :
    (∀ s ∈ stringsOf (cleanImage object name path), isScriptLike s = false) ↔
      ∀ s ∈ unsearched "image" (.object object), isScriptLike s = false := by
  have hkey : ∀ key ∈ ["name", "path", "caption", "metadata"], isScriptLike key = false := by
    simp only [List.forall_mem_cons]
    exact ⟨isScriptLike_own _ (by simp [ownWords]), isScriptLike_own _ (by simp [ownWords]),
      isScriptLike_own _ (by simp [ownWords]), isScriptLike_own _ (by simp [ownWords]), List.forall_mem_nil _⟩
  simp only [List.forall_mem_cons] at hkey
  obtain ⟨h₁, h₂, h₃, h₄, -⟩ := hkey
  rw [cleanImage, strings_jsonObject (by simp)]
  simp only [unsearched, List.forall_mem_append, List.forall_mem_cons, strings_string, strings_clean hmetadata,
    strings_optionalText, h₁, h₂, h₃, h₄, true_and, hname, hpath, if_true, Option.toList_some, and_assoc]
  simp

theorem chart_keys (htrees : ∀ key ∈ chartTrees, Clean 1 (valueAt object key)) :
    ∀ key ∈ keysOf (cleanChart object name), isForbiddenKey key = false := by
  simp only [chartTrees, List.forall_mem_cons] at htrees
  obtain ⟨hdata, hlayout, hoptions, hmetadata, -⟩ := htrees
  rw [cleanChart, keys_jsonObject (by simp)]
  simp only [List.forall_mem_cons]
  exact ⟨keys_own (by simp [ownWords]) (List.forall_mem_nil _), keys_own (by simp [ownWords]) (List.forall_mem_nil _),
    keys_own (by simp [ownWords]) (List.forall_mem_nil _), keys_own (by simp [ownWords]) hdata.keys,
    keys_own (by simp [ownWords]) hlayout.keys, keys_own (by simp [ownWords]) hoptions.keys,
    keys_own (by simp [ownWords]) hmetadata.keys,
    fun _ h => absurd h List.not_mem_nil⟩

theorem image_keys (hmetadata : Clean 1 (valueAt object "metadata")) :
    ∀ key ∈ keysOf (cleanImage object name path), isForbiddenKey key = false := by
  have hcaption : ∀ key ∈ keysOf (optionalText (trimmedAt object "caption")), isForbiddenKey key = false := by
    cases trimmedAt object "caption" <;> exact fun _ h => absurd h List.not_mem_nil
  rw [cleanImage, keys_jsonObject (by simp)]
  simp only [List.forall_mem_cons]
  exact ⟨keys_own (by simp [ownWords]) (List.forall_mem_nil _), keys_own (by simp [ownWords]) (List.forall_mem_nil _),
    keys_own (by simp [ownWords]) hcaption, keys_own (by simp [ownWords]) hmetadata.keys,
    fun _ h => absurd h List.not_mem_nil⟩

theorem chart_nesting (htrees : ∀ key ∈ chartTrees, Clean 1 (valueAt object key)) :
    ∀ key ∈ chartTrees, ∀ j ∈ (cleanChart object name).asObject.bind (List.lookup key),
      (tree j).depth ≤ structuredJsonMaxDepth := by
  have hfound : ∀ key ∈ chartTrees, (cleanChart object name).asObject.bind (List.lookup key) =
      some (valueAt object key) := by
    simp only [chartTrees, List.forall_mem_cons, cleanChart, jsonObject, Json.asObject, Option.bind_some,
      lookup_ordered]
    exact ⟨rfl, rfl, rfl, rfl, fun _ h => absurd h List.not_mem_nil⟩
  intro key hkey j hj
  obtain rfl := Option.some.inj ((hfound key hkey).symm.trans hj)
  have hdepth := (htrees key hkey).nesting
  omega

theorem image_nesting (hmetadata : Clean 1 (valueAt object "metadata")) :
    ∀ key ∈ chartTrees, ∀ j ∈ (cleanImage object name path).asObject.bind (List.lookup key),
      (tree j).depth ≤ structuredJsonMaxDepth := by
  have hdepth := hmetadata.nesting
  simp only [chartTrees, List.forall_mem_cons, cleanImage, jsonObject, Json.asObject, Option.bind_some,
    lookup_ordered]
  refine ⟨?_, ?_, ?_, ?_, fun _ h => absurd h List.not_mem_nil⟩
  · exact fun j hj => absurd hj (Option.not_mem_none j)
  · exact fun j hj => absurd hj (Option.not_mem_none j)
  · exact fun j hj => absurd hj (Option.not_mem_none j)
  · intro j hj
    obtain rfl : valueAt object "metadata" = j := Option.some.inj hj
    omega

end Payloads

variable {kind : String} {payload clean : Json}

theorem payload_strings (hkind : kind = "image" ∨ kind = "chart")
    (h : sanitizePayload N kind payload = .ok clean) :
    (∀ s ∈ stringsOf clean, isScriptLike s = false) ↔
      ∀ s ∈ unsearched kind payload, isScriptLike s = false := by
  rcases hkind with rfl | rfl
  · obtain ⟨object, name, path, rfl, hname, hpath, hmetadata, rfl⟩ := sanitizeStructuredImagePayload_ok h
    exact image_strings hname hpath hmetadata
  · obtain ⟨object, name, rfl, hname, htrees, rfl⟩ := sanitizeStructuredChartPayload_ok h
    exact chart_strings hname htrees

theorem payload_keys (hkind : kind = "image" ∨ kind = "chart") (h : sanitizePayload N kind payload = .ok clean) :
    ∀ key ∈ keysOf clean, isForbiddenKey key = false := by
  rcases hkind with rfl | rfl
  · obtain ⟨object, name, path, rfl, -, -, hmetadata, rfl⟩ := sanitizeStructuredImagePayload_ok h
    exact image_keys hmetadata
  · obtain ⟨object, name, rfl, -, htrees, rfl⟩ := sanitizeStructuredChartPayload_ok h
    exact chart_keys htrees

theorem payload_nesting (hkind : kind = "image" ∨ kind = "chart")
    (h : sanitizePayload N kind payload = .ok clean) :
    ∀ key ∈ chartTrees, ∀ j ∈ clean.asObject.bind (List.lookup key), (tree j).depth ≤
      structuredJsonMaxDepth := by
  rcases hkind with rfl | rfl
  · obtain ⟨object, name, path, rfl, -, -, hmetadata, rfl⟩ := sanitizeStructuredImagePayload_ok h
    exact image_nesting hmetadata
  · obtain ⟨object, name, rfl, -, htrees, rfl⟩ := sanitizeStructuredChartPayload_ok h
    exact chart_nesting htrees

theorem inPayload_normalized (key : String) :
    inPayload (normalized kind payload) key = payload.asObject.bind (List.lookup key) := by
  rw [normalized_eq]
  rfl

/-- The texts of a message that are stored and not searched. -/
def unsearchedIn (N : Numbers) (raw : String) : List String :=
  ((fromStr N raw).bind fromValue).elim [] (fun envelope => unsearched envelope.kind envelope.payload)

/-- What takes the place of a message is free of scripts just when the texts that are
not searched are. -/
theorem scriptFree_iff {raw m : String} (h : sanitizeStructuredEventMessage N raw = .ok (some m)) :
    (∃ v, fromStr N m = some v ∧ ScriptFree v) ↔ ∀ s ∈ unsearchedIn N raw, isScriptLike s = false := by
  obtain ⟨envelope, clean, henvelope, hkind, hclean, hread, -⟩ := sanitized_read h
  have hstrings : (∀ s ∈ stringsOf (normalized envelope.kind (reread N clean)), isScriptLike s = false) ↔
      ∀ s ∈ stringsOf clean, isScriptLike s = false := by
    rw [← stringsOf_reread (N := N) clean]
    have hword : isScriptLike envelope.kind = false := by
      rcases hkind with hkind | hkind <;> rw [hkind] <;> exact isScriptLike_own _ (by simp [ownWords])
    rw [normalized, strings_jsonObject (by simp)]
    simp only [List.forall_mem_cons, strings_string, hword, isScriptLike_own "kind" (by simp [ownWords]),
      isScriptLike_own "payload" (by simp [ownWords]), true_and]
    exact and_iff_left (fun _ hf => absurd hf List.not_mem_nil)
  have hsearched : unsearchedIn N raw = unsearched envelope.kind envelope.payload := by
    rw [unsearchedIn, henvelope]
    rfl
  have hkeys : ∀ key ∈ keysOf (reread N clean), isForbiddenKey key = false := by
    rw [keysOf_reread]
    exact payload_keys hkind hclean
  rw [hsearched, ← payload_strings hkind hclean, ← hstrings]
  constructor
  · rintro ⟨v, hv, hfree⟩
    obtain rfl := Option.some.inj (hread.symm.trans hv)
    exact hfree.strings
  · intro hfree
    refine ⟨_, hread, hfree, ?_, ?_⟩
    · rw [normalized, keys_jsonObject (by simp)]
      simp only [List.forall_mem_cons]
      exact ⟨keys_own (by simp [ownWords]) (List.forall_mem_nil _),
        keys_own (by simp [ownWords]) hkeys, fun _ hf => absurd hf List.not_mem_nil⟩
    · intro key hkey j hj
      rw [inPayload_normalized, asObject_reread] at hj
      obtain ⟨v, hv, rfl⟩ := Option.map_eq_some_iff.mp hj
      rw [depth_reread]
      exact payload_nesting hkind hclean key hkey v hv

/-- What takes the place of a message, if anything does. -/
def replacement (raw : String) : Option String := (sanitizeStructuredEventMessage literalNumbers raw).toOption.join

theorem replacement_some {raw m : String} (h : replacement raw = some m) :
    sanitizeStructuredEventMessage literalNumbers raw = .ok (some m) := by
  exact Fallible.toOption_eq_some (Option.join_eq_some_iff.mp h)

def namedChart (name : String) : String := "\x7b\"kind\":\"chart\",\"payload\":\x7b\"name\":\"" ++ name ++ "\"\x7d\x7d"

theorem scriptFree_plain : ∃ m, sanitizeStructuredEventMessage literalNumbers (namedChart "loss") = .ok (some m) ∧
    ((∃ v, fromStr literalNumbers m = some v ∧ ScriptFree v) ↔
      ∀ s ∈ unsearchedIn literalNumbers (namedChart "loss"), isScriptLike s = false) := by
  have hsome : (replacement (namedChart "loss")).isSome = true := by
    rw [replacement, sanitizeStructuredEventMessage]
    simp only [sanitizeKind, encodeStructured, toStr, Text.byteLength, String.toList_ofList]
    decide +kernel
  obtain ⟨m, hm⟩ := Option.isSome_iff_exists.mp hsome
  exact ⟨m, replacement_some hm, scriptFree_iff (replacement_some hm)⟩

theorem script_named : ∃ m, sanitizeStructuredEventMessage literalNumbers (namedChart "<script>") = .ok (some m) ∧
    ¬ ∃ v, fromStr literalNumbers m = some v ∧ ScriptFree v := by
  have hsome : (replacement (namedChart "<script>")).isSome = true := by
    rw [replacement, sanitizeStructuredEventMessage]
    simp only [sanitizeKind, encodeStructured, toStr, Text.byteLength, String.toList_ofList]
    decide +kernel
  have hscripts : ((fromStr literalNumbers (namedChart "<script>")).bind fromValue).all (fun envelope =>
      (sanitizePayload literalNumbers envelope.kind envelope.payload).toOption.all (fun clean =>
        (stringsOf (normalized envelope.kind (reread literalNumbers clean))).any isScriptLike)) = true := by
    decide +kernel
  obtain ⟨m, hm⟩ := Option.isSome_iff_exists.mp hsome
  obtain ⟨envelope, clean, henvelope, -, hclean, hread, -⟩ := sanitized_read (replacement_some hm)
  rw [henvelope, Option.all_some, hclean] at hscripts
  obtain ⟨s, hs, hscript⟩ := List.any_eq_true.mp hscripts
  refine ⟨m, replacement_some hm, ?_⟩
  rintro ⟨v, hv, hfree⟩
  obtain rfl := Option.some.inj (hread.symm.trans hv)
  exact absurd (hfree.strings s hs) (by rw [hscript]; exact Bool.noConfusion)

end MLRunX.ScriptContent
