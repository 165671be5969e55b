import Mathlib.Data.List.Induction

namespace MLRunX.Coalescing

variable {α β κ : Type} [DecidableEq κ] (key : α → Option κ)

/-- An item goes to the end, unless one with its key stands there already: then it
takes its place. An item without a key has no place to take. -/
def place (as : List α) (a : α) : List α :=
  if key a ≠ none ∧ key a ∈ as.map key then as.map (fun b => if key b = key a then a else b) else as ++ [a]

def coalesce (as : List α) : List α := as.foldl (place key) []

variable {key}

theorem coalesce_concat (as : List α) (a : α) : coalesce key (as ++ [a]) = place key (coalesce key as) a := by
  simp [coalesce]

theorem place_fresh {as : List α} {a : α} (h : key a ≠ none → key a ∉ as.map key) :
    place key as a = as ++ [a] :=
  if_neg (fun hplace => h hplace.1 hplace.2)

theorem place_taken {as : List α} {a : α} (hkey : key a ≠ none) (h : key a ∈ as.map key) :
    place key as a = as.map (fun b => if key b = key a then a else b) :=
  if_pos ⟨hkey, h⟩

theorem map_key_replaced (as : List α) (a : α) :
    (as.map (fun b => if key b = key a then a else b)).map key = as.map key := by
  rw [List.map_map]
  apply List.map_congr_left
  intro b _
  simp only [Function.comp]
  split
  · exact Eq.symm ‹_›
  · rfl

theorem map_key_place (as : List α) (a : α) :
    (place key as a).map key =
      if key a ≠ none ∧ key a ∈ as.map key then as.map key else as.map key ++ [key a] := by
  rw [place]
  split
  · exact map_key_replaced as a
  · exact List.map_append

theorem mem_place {as : List α} {a b : α} (h : b ∈ place key as a) : b ∈ as ∨ b = a := by
  rw [place] at h
  split at h
  · obtain ⟨c, hc, rfl⟩ := List.mem_map.mp h
    split
    · exact .inr rfl
    · exact .inl hc
  · simpa using h

theorem mem_coalesce {as : List α} {b : α} (h : b ∈ coalesce key as) : b ∈ as := by
  induction as using List.reverseRecOn with
  | nil => exact h
  | append_singleton as a ih =>
      rw [coalesce_concat] at h
      rcases mem_place h with h | rfl
      · exact List.mem_append_left _ (ih h)
      · exact List.mem_append_right _ List.mem_cons_self

theorem mem_map_coalesce {as : List α} {k : Option κ} : k ∈ (coalesce key as).map key ↔ k ∈ as.map key := by
  induction as using List.reverseRecOn with
  | nil => rfl
  | append_singleton as a ih =>
      rw [coalesce_concat, map_key_place, List.map_append, List.mem_append, ← ih]
      split
      · rename_i hplace
        refine ⟨.inl, fun h => h.elim id (fun h => ?_)⟩
        rw [List.map_singleton, List.mem_singleton] at h
        exact h ▸ hplace.2
      · exact List.mem_append

theorem coalesce_ne_nil {as : List α} (h : as ≠ []) : coalesce key as ≠ [] := by
  obtain ⟨a, ha⟩ := List.exists_mem_of_ne_nil as h
  intro hnil
  have hmem := mem_map_coalesce.mpr (List.mem_map_of_mem (f := key) ha)
  rw [hnil] at hmem
  exact List.not_mem_nil hmem

def Distinct (key : α → Option κ) (as : List α) : Prop :=
  as.Pairwise (fun a b => key a ≠ none → key a ≠ key b)

omit [DecidableEq κ] in
theorem distinct_iff_map {as : List α} :
    Distinct key as ↔ (as.map key).Pairwise (fun k l => k ≠ none → k ≠ l) := by
  rw [List.pairwise_map]
  rfl

omit [DecidableEq κ] in
theorem distinct_of_none {as : List α} (h : ∀ a ∈ as, key a = none) : Distinct key as :=
  List.pairwise_of_forall_mem_list (fun a ha _ _ hne => absurd (h a ha) hne)

theorem distinct_place {as : List α} (h : Distinct key as) (a : α) : Distinct key (place key as a) := by
  rw [distinct_iff_map] at h ⊢
  rw [map_key_place]
  split
  · exact h
  · rename_i hplace
    refine List.pairwise_append.mpr ⟨h, List.pairwise_singleton _ _, fun k hk l hl hne heq => hplace ?_⟩
    obtain rfl := List.mem_singleton.mp hl
    exact heq ▸ ⟨hne, hk⟩

theorem coalesce_of_distinct {as : List α} (h : Distinct key as) : coalesce key as = as := by
  induction as using List.reverseRecOn with
  | nil => rfl
  | append_singleton as a ih =>
      obtain ⟨has, -, hlast⟩ := List.pairwise_append.mp h
      rw [coalesce_concat, ih has]
      apply place_fresh
      intro hne hmem
      obtain ⟨b, hb, heq⟩ := List.mem_map.mp hmem
      exact hlast b hb a List.mem_cons_self (heq ▸ hne) heq

theorem filter_place {p : α → Bool} (hp : ∀ a b, key a ≠ none → key a = key b → p a = p b)
    (as : List α) (a : α) :
    (place key as a).filter p = if p a then place key (as.filter p) a else as.filter p := by
  by_cases hplace : key a ≠ none ∧ key a ∈ as.map key
  · obtain ⟨hne, hmem⟩ := hplace
    have hsame : ∀ b, p (if key b = key a then a else b) = p b := by
      intro b
      split
      · exact hp a b hne (Eq.symm ‹_›)
      · rfl
    rw [place_taken hne hmem, List.filter_map]
    have hfilter : as.filter (p ∘ fun b => if key b = key a then a else b) = as.filter p :=
      congrArg (as.filter ·) (funext hsame)
    rw [hfilter]
    cases hpa : p a with
    | true =>
        obtain ⟨b, hb, heq⟩ := List.mem_map.mp hmem
        rw [if_pos rfl, place_taken hne]
        exact List.mem_map.mpr ⟨b, List.mem_filter.mpr ⟨hb, (hp a b hne heq.symm).symm.trans hpa⟩, heq⟩
    | false =>
        rw [if_neg Bool.false_ne_true]
        calc (as.filter p).map (fun b => if key b = key a then a else b)
            = (as.filter p).map id := by
              apply List.map_congr_left
              intro b hb
              apply if_neg
              intro heq
              have hpb := (List.mem_filter.mp hb).2
              rw [← hp a b hne heq.symm, hpa] at hpb
              cases hpb
          _ = as.filter p := List.map_id _
  · have hfresh : ∀ bs, bs ⊆ as → key a ≠ none → key a ∉ bs.map key :=
      fun bs hsub hne hmem => hplace ⟨hne, List.map_subset key hsub hmem⟩
    rw [place_fresh (hfresh as (List.Subset.refl _)), List.filter_append]
    cases hpa : p a with
    | true =>
        rw [if_pos rfl, place_fresh (hfresh _ (fun _ h => (List.mem_filter.mp h).1))]
        simp [hpa]
    | false => simp [hpa]

theorem filter_coalesce {p : α → Bool} (hp : ∀ a b, key a ≠ none → key a = key b → p a = p b)
    (as : List α) :
    (coalesce key as).filter p = coalesce key (as.filter p) := by
  induction as using List.reverseRecOn with
  | nil => rfl
  | append_singleton as a ih =>
      rw [coalesce_concat, List.filter_append, filter_place hp, ih]
      cases hpa : p a with
      | false => simp [hpa]
      | true => simp [hpa, coalesce_concat]

theorem set_eq_map {as : List α} (h : Distinct key as) {i : Nat} {a b : α} (hi : as[i]? = some b)
    (heq : key b = key a) (hne : key a ≠ none) : as.set i a =
      as.map (fun b => if key b = key a then a else b) := by
  induction as generalizing i with
  | nil => rfl
  | cons c as ih =>
      obtain ⟨hc, has⟩ := List.pairwise_cons.mp h
      cases i with
      | zero =>
          obtain rfl := Option.some.inj hi
          have hrest : as.map (fun b => if key b = key a then a else b) = as := by
            calc as.map (fun b => if key b = key a then a else b) = as.map id :=
                  List.map_congr_left (fun b hb => if_neg (fun hb' => hc b hb (heq ▸ hne) (heq.trans hb'.symm)))
              _ = as := List.map_id _
          rw [List.set_cons_zero, List.map_cons, if_pos heq, hrest]
      | succ i =>
          have hb : b ∈ as := List.mem_of_getElem? (List.getElem?_cons_succ ▸ hi)
          have hcne : key c ≠ key a := fun hca => hc b hb (hca ▸ hne) (hca.trans heq.symm)
          rw [List.set_cons_succ, List.map_cons, if_neg hcne, ih has (List.getElem?_cons_succ ▸ hi)]

theorem findIdx?_place (as : List α) (a : α) (k : κ) :
    (place key as a).findIdx? (fun b => key b = some k) =
      if key a = some k ∧ some k ∉ as.map key then some as.length else as.findIdx? (fun b => key b = some k) := by
  have hmap : ∀ bs : List α, bs.findIdx? (fun b => key b = some k) =
      (bs.map key).findIdx? (fun l => l = some k) := by
    intro bs
    rw [List.findIdx?_map]
    rfl
  rw [hmap, hmap, map_key_place]
  by_cases hplace : key a ≠ none ∧ key a ∈ as.map key
  · rw [if_pos hplace, if_neg]
    rintro ⟨heq, hmem⟩
    exact hmem (heq ▸ hplace.2)
  · rw [if_neg hplace, List.findIdx?_append]
    by_cases hk : key a = some k
    · have hmem : some k ∉ as.map key := fun hmem => hplace (hk ▸ ⟨Option.some_ne_none k, hmem⟩)
      have hnone : (as.map key).findIdx? (fun l => l = some k) = none :=
        List.findIdx?_eq_none_iff.mpr (fun l hl => decide_eq_false (fun heq => hmem (heq ▸ hl)))
      rw [if_pos ⟨hk, hmem⟩, hnone]
      simp [List.findIdx?_cons, hk]
    · rw [if_neg (fun h => hk h.1)]
      simp [List.findIdx?_cons, hk]

/-- The last item whose key comes up first behind those of all others is the last one. -/
def lastUnder (key : α → Option κ) (k : Option κ) (as : List α) : Option α :=
  (as.filter (fun a => key a = k)).getLast?

theorem lastUnder_concat (k : Option κ) (as : List α) (a : α) :
    lastUnder key k (as ++ [a]) = if key a = k then some a else lastUnder key k as := by
  rw [lastUnder, List.filter_append]
  by_cases hk : key a = k
  · simp [hk]
  · simp [hk, lastUnder]

/-- Those whose key nothing before them has, and those without a key. -/
def firsts (key : α → Option κ) (as : List α) : List α :=
  (as.zipIdx.filter (fun a => key a.1 = none ∨ key a.1 ∉ (as.take a.2).map key)).map Prod.fst

def latestOf (key : α → Option κ) (as : List α) (a : α) : α :=
  if key a = none then a else (lastUnder key (key a) as).getD a

/-- The last item under each key, where the first one stood. -/
def lastValues (key : α → Option κ) (as : List α) : List α := (firsts key as).map (latestOf key as)

theorem firsts_concat (as : List α) (a : α) :
    firsts key (as ++ [a]) =
      if key a = none ∨ key a ∉ as.map key then firsts key as ++ [a] else firsts key as := by
  have hbefore : ∀ b ∈ as.zipIdx, (as ++ [a]).take b.2 = as.take b.2 := by
    intro b hb
    exact List.take_append_of_le_length (Nat.le_of_lt_succ (Nat.lt_succ_of_lt (List.snd_lt_of_mem_zipIdx hb)))
  have hlast : (as ++ [a]).take as.length = as := List.take_left
  have hold : as.zipIdx.filter (fun b => key b.1 = none ∨ key b.1 ∉ ((as ++ [a]).take b.2).map key) =
      as.zipIdx.filter (fun b => key b.1 = none ∨ key b.1 ∉ (as.take b.2).map key) :=
    List.filter_congr (fun b hb => by rw [hbefore b hb])
  rw [firsts, List.zipIdx_append, List.filter_append, hold, List.map_append, ← firsts, Nat.zero_add,
    List.zipIdx_singleton]
  simp only [List.filter_cons, List.filter_nil, hlast]
  by_cases h : key a = none ∨ key a ∉ as.map key
  · rw [decide_eq_true h, if_pos h]
    rfl
  · rw [decide_eq_false h, if_neg h]
    exact List.append_nil _

theorem mem_firsts {as : List α} {a : α} (h : a ∈ firsts key as) : a ∈ as := by
  obtain ⟨b, hb, rfl⟩ := List.mem_map.mp h
  exact List.fst_mem_of_mem_zipIdx (List.mem_filter.mp hb).1

theorem key_latestOf (as : List α) (a : α) : key (latestOf key as a) = key a := by
  rw [latestOf]
  split
  · rfl
  · cases hlast : lastUnder key (key a) as with
    | none => rfl
    | some b => exact of_decide_eq_true (List.mem_filter.mp (List.mem_of_getLast? hlast)).2

theorem latestOf_concat (as : List α) (a b : α) :
    latestOf key (as ++ [a]) b = if key b ≠ none ∧ key b = key a then a else latestOf key as b := by
  rw [latestOf, latestOf, lastUnder_concat]
  by_cases hb : key b = none
  · simp [hb]
  · by_cases hab : key a = key b
    · simp [hab, hb]
    · simp [hb, hab, Ne.symm hab]

theorem coalesce_eq_lastValues (as : List α) : coalesce key as = lastValues key as := by
  induction as using List.reverseRecOn with
  | nil => rfl
  | append_singleton as a ih =>
      rw [coalesce_concat, ih]
      change _ = (firsts key (as ++ [a])).map (latestOf key (as ++ [a]))
      rw [firsts_concat]
      by_cases hfresh : key a = none ∨ key a ∉ as.map key
      · have hkeys : ∀ b ∈ firsts key as, ¬(key b ≠ none ∧ key b = key a) := by
          rintro b hb ⟨hne, heq⟩
          exact hfresh.elim (fun hnone => hne (heq.trans hnone))
            (fun hnot => hnot (heq ▸ List.mem_map_of_mem (mem_firsts hb)))
        have hold : (firsts key as).map (latestOf key (as ++ [a])) = lastValues key as :=
          List.map_congr_left (fun b hb => by rw [latestOf_concat, if_neg (hkeys b hb)])
        have hnew : latestOf key (as ++ [a]) a = a := by
          rw [latestOf_concat]
          by_cases ha : key a = none
          · simp [ha, latestOf]
          · simp [ha]
        rw [if_pos hfresh, List.map_append, hold, List.map_singleton, hnew, ← ih]
        exact place_fresh (fun hne hmem => hfresh.elim hne (fun hnot => hnot (mem_map_coalesce.mp hmem)))
      · obtain ⟨hne, hmem⟩ := not_or.mp hfresh
        rw [if_neg hfresh, ← ih, place_taken hne (mem_map_coalesce.mpr (not_not.mp hmem)), ih, lastValues,
          List.map_map]
        apply List.map_congr_left
        intro b _
        rw [Function.comp, @key_latestOf _ _ _ key, latestOf_concat]
        by_cases hb : key b = key a
        · rw [if_pos hb, if_pos ⟨hb ▸ hne, hb⟩]
        · rw [if_neg hb, if_neg (fun h => hb h.2)]

/-- The key of `a` is new behind `mid`, and every other that is used later has been
used there. -/
structure Latest (key : α → Option κ) (mid : List α) (a : α) (post : List α) : Prop where
  fresh : key a ∉ mid.map key
  known : ∀ b ∈ post, key b = key a ∨ key b ∈ mid.map key

theorem coalesce_latest {mid post : List α} {a : α} (hkeys : ∀ b ∈ a :: post, key b ≠ none)
    (h : Latest key mid a post) :
    ∃ front last, coalesce key (mid ++ a :: post) = front ++ [last] ∧
      lastUnder key (key a) (a :: post) = some last ∧ key last = key a := by
  induction post using List.reverseRecOn with
  | nil =>
      refine ⟨coalesce key mid, a, ?_, by simp [lastUnder], rfl⟩
      rw [coalesce_concat, place_fresh (fun _ hmem => h.fresh (mem_map_coalesce.mp hmem))]
  | append_singleton post x ih =>
      obtain ⟨front, last, hcoalesce, hlast, hkey⟩ := ih
        (fun b hb => hkeys b (by rcases List.mem_cons.mp hb with rfl | hb <;> simp [*]))
        ⟨h.fresh, fun b hb => h.known b (List.mem_append_left _ hb)⟩
      have hx : key x ≠ none := hkeys x (by simp)
      rw [← List.cons_append, ← List.append_assoc, coalesce_concat, hcoalesce, lastUnder_concat]
      have hreplaced : (front ++ [last]).map (fun b => if key b = key x then x else b) =
          front.map (fun b => if key b = key x then x else b) ++ [if key last = key x then x else last] := by
        simp
      by_cases hxa : key x = key a
      · refine ⟨front.map (fun b => if key b = key x then x else b), x, ?_, by rw [if_pos hxa], hxa⟩
        rw [place_taken hx, hreplaced, if_pos (hkey.trans hxa.symm)]
        simp [hkey, hxa]
      · have hmid : key x ∈ mid.map key := (h.known x (by simp)).resolve_left hxa
        refine ⟨front.map (fun b => if key b = key x then x else b), last, ?_, by rw [if_neg hxa, hlast], hkey⟩
        rw [place_taken hx, hreplaced, if_neg (fun heq => hxa (heq.symm.trans hkey))]
        rw [← hcoalesce, mem_map_coalesce, List.map_append]
        exact List.mem_append_left _ hmid

theorem exists_latest {as : List α} (h : as ≠ []) :
    ∃ mid a post, as = mid ++ a :: post ∧ Latest key mid a post := by
  induction as using List.reverseRecOn with
  | nil => exact absurd rfl h
  | append_singleton as x ih =>
      by_cases hx : key x ∈ as.map key
      · have hne : as ≠ [] := by
          rintro rfl
          exact absurd hx List.not_mem_nil
        obtain ⟨mid, a, post, rfl, hlatest⟩ := ih hne
        refine ⟨mid, a, post ++ [x], by simp, hlatest.fresh, fun b hb => ?_⟩
        rcases List.mem_append.mp hb with hb | hb
        · exact hlatest.known b hb
        · obtain rfl := List.mem_singleton.mp hb
          rw [List.map_append, List.map_cons, List.mem_append, List.mem_cons] at hx
          rcases hx with hx | hx | hx
          · exact .inr hx
          · exact .inl hx
          · obtain ⟨c, hc, heq⟩ := List.mem_map.mp hx
            exact heq ▸ hlatest.known c hc
      · refine ⟨as, x, [], rfl, hx, ?_⟩
        exact fun b hb => absurd hb List.not_mem_nil

/-- In whatever rest of the items: the last one under the key that comes up latest
has the value of the last one of all. -/
def Unshadowed (key : α → Option κ) (val : α → β) (as : List α) : Prop :=
  ∀ pre mid a post, as = pre ++ (mid ++ a :: post) → Latest key mid a post →
    (lastUnder key (key a) (a :: post)).map val = as.getLast?.map val

theorem getLast?_coalesce {mid post : List α} {a : α} (hkeys : ∀ b ∈ a :: post, key b ≠ none)
    (h : Latest key mid a post) :
    (coalesce key (mid ++ a :: post)).getLast? = lastUnder key (key a) (a :: post) := by
  obtain ⟨front, last, hcoalesce, hlast, -⟩ := coalesce_latest hkeys h
  rw [hcoalesce, hlast, List.getLast?_append]
  rfl

theorem getLast?_parts {val : α → β} {as : List α} (hkeys : ∀ a ∈ as, key a ≠ none)
    (h : Unshadowed key val as)
    {parts : List (List α)} (hparts : parts.flatten = as) :
    (parts.map (coalesce key)).flatten.getLast?.map val = as.getLast?.map val := by
  induction parts using List.reverseRecOn with
  | nil => rw [← hparts]; rfl
  | append_singleton parts part ih =>
      rw [List.map_append, List.flatten_append, List.map_singleton, List.flatten_singleton]
      rw [List.flatten_append, List.flatten_singleton] at hparts
      by_cases hpart : part = []
      · subst hpart
        rw [List.append_nil] at hparts
        simpa [coalesce] using ih hparts
      · obtain ⟨mid, a, post, rfl, hlatest⟩ := @exists_latest α κ _ key part hpart
        have hrest : ∀ b ∈ a :: post, key b ≠ none := by
          intro b hb
          apply hkeys
          rw [← hparts]
          exact List.mem_append_right _ (List.mem_append_right _ hb)
        obtain ⟨front, last, hcoalesce, hlast, -⟩ := coalesce_latest hrest hlatest
        rw [← h parts.flatten mid a post hparts.symm hlatest, hlast, hcoalesce, ← List.append_assoc,
          List.getLast?_append]
        rfl

theorem unshadowed_of_parts {val : α → β} {as : List α} (hkeys : ∀ a ∈ as, key a ≠ none)
    (h : ∀ pre rest, as = pre ++ rest → rest ≠ [] →
      (coalesce key rest).getLast?.map val = as.getLast?.map val) :
    Unshadowed key val as := by
  intro pre mid a post heq hlatest
  rw [← h pre (mid ++ a :: post) heq (by simp), getLast?_coalesce _ hlatest]
  intro b hb
  apply hkeys
  rw [heq]
  exact List.mem_append_right _ (List.mem_append_right _ hb)

theorem distinct_iff_filter {as : List α} :
    Distinct key as ↔ ∀ k, (as.filter (fun a => key a = some k)).length ≤ 1 := by
  induction as with
  | nil => exact ⟨fun _ _ => Nat.zero_le _, fun _ => List.Pairwise.nil⟩
  | cons a as ih =>
      have hfilter : ∀ k, key a = some k →
          (as.filter (fun b => key b = some k) = [] ↔ ∀ b ∈ as, key a ≠ key b) := by
        intro k hk
        rw [List.filter_eq_nil_iff]
        exact forall₂_congr (fun b _ => by rw [hk, decide_eq_true_iff, eq_comm])
      rw [Distinct, List.pairwise_cons, ← Distinct, ih]
      constructor
      · rintro ⟨hfresh, hrest⟩ k
        rw [List.filter_cons]
        split
        · rename_i hk
          have hk := of_decide_eq_true hk
          rw [(hfilter k hk).mpr (fun b hb => hfresh b hb (hk ▸ Option.some_ne_none k))]
          exact Nat.le_refl 1
        · exact hrest k
      · intro h
        refine ⟨fun b hb hne => ?_, fun k => ?_⟩
        · obtain ⟨k, hk⟩ := Option.ne_none_iff_exists'.mp hne
          have hlen := h k
          rw [List.filter_cons, if_pos (decide_eq_true hk), List.length_cons] at hlen
          exact (hfilter k hk).mp (List.length_eq_zero_iff.mp (Nat.le_zero.mp (Nat.le_of_succ_le_succ hlen))) b hb
        · exact Nat.le_trans (List.Sublist.length_le ((List.sublist_cons_self a as).filter _)) (h k)

end MLRunX.Coalescing
