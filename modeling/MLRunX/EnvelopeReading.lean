import Mathlib.Data.List.Forall2
import MLRunX.Sanitizer

namespace MLRunX.EnvelopeReading

open JsonMeaning JsonText JsonValues Sanitizer SerdeJson StructuredEvents

variable {N : Numbers}

theorem lookup_reverse {α : Type} (fs : List (String × α)) (key : String) :
    fs.reverse.lookup key = ((fs.filter (fun f => f.1 == key)).getLast?).map Prod.snd := by
  induction fs with
  | nil => rfl
  | cons f fs ih =>
      obtain ⟨name, a⟩ := f
      rw [List.reverse_cons, List.lookup_append, ih]
      by_cases h : name = key
      · have hone : List.lookup key [(name, a)] = some a := by simp [h]
        rw [List.filter_cons_of_pos (p := fun f : String × α => f.1 == key) (by simpa using h),
          List.getLast?_cons, hone]
        cases (fs.filter (fun f => f.1 == key)).getLast? <;> rfl
      · have hnone : List.lookup key [(name, a)] = none := by
          rw [List.lookup_cons, beq_eq_false_iff_ne.mpr (Ne.symm h)]
          rfl
        rw [List.filter_cons_of_neg (p := fun f : String × α => f.1 == key) (by simpa using h), hnone,
          Option.or_none]

/-- A field beside the field that it stands for. -/
def Stands (N : Numbers) (f : String × Doc) (g : String × Json) : Prop := f.1 = g.1 ∧ meaning N f.2 = some g.2

def keyText (f : List Letter × Doc) : Option (String × Doc) :=
  (text f.1).map (fun key => (String.ofList key, f.2))

theorem stands_fields {fields : List (List Letter × Doc)} {keyed : List (String × Doc)} {fs : List (String × Json)}
    (hkeyed : fields.mapM keyText = some keyed) (hfs : meaningFields N fields = some fs) :
    List.Forall₂ (Stands N) keyed fs := by
  induction fields generalizing keyed fs with
  | nil =>
      obtain rfl : [] = keyed := Option.some.inj hkeyed
      obtain rfl : [] = fs := Option.some.inj hfs
      exact .nil
  | cons f fields ih =>
      obtain ⟨letters, d⟩ := f
      rw [List.mapM_cons] at hkeyed
      obtain ⟨p, hp, hkeyed⟩ := Option.bind_eq_some_iff.mp hkeyed
      obtain ⟨ps, hps, hcons⟩ := Option.bind_eq_some_iff.mp hkeyed
      obtain rfl := Option.some.inj hcons
      obtain ⟨key, hkey, rfl⟩ := Option.map_eq_some_iff.mp hp
      obtain ⟨key', hkey', hfs⟩ := Option.bind_eq_some_iff.mp hfs
      obtain ⟨j, hj, hfs⟩ := Option.bind_eq_some_iff.mp hfs
      obtain ⟨js, hjs, hcons⟩ := Option.bind_eq_some_iff.mp hfs
      obtain rfl := Option.some.inj hcons
      obtain rfl := Option.some.inj (hkey.symm.trans hkey')
      exact .cons ⟨rfl, hj⟩ (ih hps hjs)

theorem lookup_once {keyed : List (String × Doc)} {fs : List (String × Json)}
    (h : List.Forall₂ (Stands N) keyed fs)
    {key : String} {d : Option Doc} (hd : once keyed key = some d) {j : Option Json}
    (hj : readField N d = some j) :
    (ordered fs).lookup key = j := by
  have hfilter : List.Forall₂ (Stands N) (keyed.filter (fun f => f.1 == key)) (fs.filter (fun f => f.1 == key)) :=
    List.rel_filter (fun f g hfg => by
      change (f.1 == key) = true ↔ (g.1 == key) = true
      rw [hfg.1]) h
  rw [lookup_ordered, lookup_reverse]
  unfold once at hd
  split at hd
  · rename_i hnone
    rw [hnone] at hfilter
    rw [List.forall₂_nil_left_iff.mp hfilter]
    obtain rfl := Option.some.inj hd
    exact Option.some.inj hj
  · rename_i f hone
    rw [hone] at hfilter
    obtain ⟨g, gs, hfg, hrest, hfs⟩ := List.forall₂_cons_left_iff.mp hfilter
    obtain rfl := List.forall₂_nil_left_iff.mp hrest
    obtain rfl := Option.some.inj hd
    rw [hfs]
    simp only [readField] at hj
    split at hj
    · rw [hfg.2] at hj
      exact Option.some.inj hj
    · cases hj
  · cases hd

theorem readField_some {d : Doc} {j : Option Json} {v : Json} (hv : meaning N d = some v)
    (hj : readField N (some d) = some j) : j = some v := by
  simp only [readField] at hj
  split at hj
  · rw [hv] at hj
    exact (Option.some.inj hj).symm
  · cases hj

theorem fromValue_of_fromDocument {d : Doc} {j : Json} {e : StructuredEnvelope} (hvalue : meaning N d = some j)
    (henvelope : fromDocument N d = some e) : fromValue j = some e := by
  cases d with
  | object fields =>
      obtain ⟨fs, hfs, rfl⟩ := Option.map_eq_some_iff.mp hvalue
      obtain ⟨keyed, hkeyed, h⟩ := Option.bind_eq_some_iff.mp henvelope
      obtain ⟨dk, hdk, h⟩ := Option.bind_eq_some_iff.mp h
      obtain ⟨dp, hdp, h⟩ := Option.bind_eq_some_iff.mp h
      obtain ⟨dt, hdt, h⟩ := Option.bind_eq_some_iff.mp h
      obtain ⟨kind, hkind, h⟩ := Option.bind_eq_some_iff.mp h
      obtain ⟨payload, hpayload, h⟩ := Option.bind_eq_some_iff.mp h
      obtain ⟨truncated, htruncated, h⟩ := Option.bind_eq_some_iff.mp h
      have hstands := stands_fields hkeyed hfs
      rw [fromValue, lookup_once hstands hdk hkind, lookup_once hstands hdp hpayload,
        lookup_once hstands hdt htruncated]
      exact h
  | array items =>
      obtain ⟨js, hjs, rfl⟩ := Option.map_eq_some_iff.mp hvalue
      obtain ⟨read, hread, h⟩ := Option.bind_eq_some_iff.mp henvelope
      have hsame : read = js.map some := by
        clear h henvelope hvalue
        induction items generalizing js read with
        | nil =>
            obtain rfl : [] = js := Option.some.inj hjs
            exact (Option.some.inj hread).symm
        | cons d items ih =>
            rw [List.mapM_cons] at hread
            obtain ⟨r, hr, hread⟩ := Option.bind_eq_some_iff.mp hread
            obtain ⟨rs, hrs, hcons⟩ := Option.bind_eq_some_iff.mp hread
            obtain rfl := Option.some.inj hcons
            obtain ⟨v, hv, hjs⟩ := Option.bind_eq_some_iff.mp hjs
            obtain ⟨vs, hvs, hcons⟩ := Option.bind_eq_some_iff.mp hjs
            obtain rfl := Option.some.inj hcons
            rw [List.map_cons, readField_some hv hr, ih vs hvs rs hrs]
      rw [hsame] at h
      rcases js with _ | ⟨kind, _ | ⟨payload, _ | ⟨truncated, _ | ⟨extra, rest⟩⟩⟩⟩
      · cases h
      · exact h
      · exact h
      · exact h
      · cases h
  | null => cases henvelope
  | bool b => cases henvelope
  | number l => cases henvelope
  | string ls => cases henvelope

theorem fromValue_of_envelopeFromStr {s : String} {j : Json} {e : StructuredEnvelope}
    (hvalue : fromStr N s = some j)
    (henvelope : envelopeFromStr N s = some e) : fromValue j = some e := by
  obtain ⟨d, hd, hdoc⟩ := Option.bind_eq_some_iff.mp hvalue
  obtain ⟨d', hd', henv⟩ := Option.bind_eq_some_iff.mp henvelope
  obtain rfl := Option.some.inj (hd.symm.trans hd')
  unfold fromDoc at hdoc
  split at hdoc
  · exact fromValue_of_fromDocument hdoc henv
  · cases hdoc

/-- The envelope that is stored for a payload. -/
def normalized (kind : String) (payload : Json) : Json := jsonObject [("kind", .string kind), ("payload", payload)]

theorem normalized_eq (kind : String) (payload : Json) :
    normalized kind payload = .object [("kind", .string kind), ("payload", payload)] :=
  congrArg Json.object (ordered_of_sorted (List.pairwise_pair.mpr (show "kind" < "payload" by decide)))

theorem normal_normalized {kind : String} {payload : Json} (h : Normal N payload) :
    Normal N (normalized kind payload) := by
  rw [normalized_eq]
  refine .object (List.pairwise_pair.mpr (show "kind" < "payload" by decide)) ?_
  exact List.forall_mem_cons.mpr
    ⟨.string kind, List.forall_mem_cons.mpr ⟨h, fun _ hf => absurd hf List.not_mem_nil⟩⟩

theorem depth_normalized (kind : String) (payload : Json) :
    (tree (normalized kind payload)).depth = (tree payload).depth + 1 := by
  rw [normalized_eq]
  simp [tree, treeFields, JsonTree.depth, depthFields]

theorem reread_normalized (kind : String) (payload : Json) :
    reread N (normalized kind payload) = normalized kind (reread N payload) := by
  rw [normalized_eq, normalized_eq]
  rfl

/-- A stored envelope is read as what it was made of, up to its numbers. -/
theorem envelopeFromStr_normalized {kind : String} {payload : Json} (hnormal : Normal N payload)
    (hdepth : (tree payload).depth + 1 ≤ maxNesting) :
    envelopeFromStr N (toStr N (normalized kind payload)) = some ⟨kind, reread N payload, false⟩ := by
  have hkind : readField N (some (docOf N serdeSpelling (.string kind))) = some (some (.string kind)) := by
    have h := meaning_docOf (N := N) serdeSpelling (.string kind)
    simp only [readField, h, Option.map_some]
    exact if_pos (show 0 + 1 ≤ maxNesting by decide)
  have hpayload : readField N (some (docOf N serdeSpelling payload)) = some (some (reread N payload)) := by
    have h := meaning_docOf serdeSpelling hnormal
    simp only [readField, h, Option.map_some]
    exact if_pos (by rwa [docOf, depth_map])
  rw [envelopeFromStr, scan_toStr, Option.bind_some, normalized_eq]
  have hdoc : docOf N serdeSpelling (.object [("kind", .string kind), ("payload", payload)]) =
      .object [(serdeSpelling.spell "kind", docOf N serdeSpelling (.string kind)),
        (serdeSpelling.spell "payload", docOf N serdeSpelling payload)] := rfl
  rw [hdoc, fromDocument]
  simp only [List.mapM_cons, List.mapM_nil, text_spell, Option.map_some, String.ofList_toList, Option.bind_eq_bind,
    Option.bind_some, Option.pure_def]
  have hk : once [("kind", docOf N serdeSpelling (.string kind)), ("payload", docOf N serdeSpelling payload)] "kind" =
      some (some (docOf N serdeSpelling (.string kind))) := rfl
  have hp : once [("kind", docOf N serdeSpelling (.string kind)),
      ("payload", docOf N serdeSpelling payload)] "payload" =
      some (some (docOf N serdeSpelling payload)) := rfl
  have ht : once [("kind", docOf N serdeSpelling (.string kind)), ("payload", docOf N serdeSpelling payload)]
      "truncated" = some none := rfl
  simp only [hk, hp, ht, Option.bind_some, hkind, hpayload]
  rfl

end MLRunX.EnvelopeReading
