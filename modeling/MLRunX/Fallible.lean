import Mathlib.Data.List.Forall2

namespace MLRunX.Fallible

variable {ε α β γ : Type}

theorem bind_eq_ok {x : Except ε α} {f : α → Except ε β} {b : β} :
    x >>= f = .ok b ↔ ∃ a, x = .ok a ∧ f a = .ok b := by
  cases x with
  | error e =>
      constructor
      · intro h
        cases h
      · rintro ⟨a, ha, -⟩
        cases ha
  | ok a =>
      constructor
      · exact fun h => ⟨a, rfl, h⟩
      · rintro ⟨a', ha, h⟩
        rwa [Except.ok.inj ha]

theorem bind_eq_error {x : Except ε α} {f : α → Except ε β} {e : ε} :
    x >>= f = .error e ↔ x = .error e ∨ ∃ a, x = .ok a ∧ f a = .error e := by
  cases x with
  | error e' =>
      constructor
      · exact fun h => .inl (congrArg Except.error (Except.error.inj h))
      · rintro (h | ⟨a, ha, -⟩)
        · exact congrArg Except.error (Except.error.inj h)
        · cases ha
  | ok a =>
      constructor
      · exact fun h => .inr ⟨a, rfl, h⟩
      · rintro (h | ⟨a', ha, h⟩)
        · cases h
        · rwa [Except.ok.inj ha]

theorem bind_ok {x : Except ε α} {f : α → Except ε β} {a : α} (h : x = .ok a) : (x >>= f) = f a := by
  rw [h]
  rfl

theorem mapError_eq_ok {x : Except ε α} {f : ε → γ} {a : α} : x.mapError f = .ok a ↔ x = .ok a := by
  cases x with
  | error e =>
      constructor
      · intro h
        cases h
      · intro h
        cases h
  | ok b => exact ⟨fun h => congrArg Except.ok (Except.ok.inj h), fun h => congrArg Except.ok (Except.ok.inj h)⟩

theorem toOption_eq_some {x : Except ε α} {a : α} (h : x.toOption = some a) : x = .ok a := by
  cases x with
  | error e => cases h
  | ok b => exact congrArg Except.ok (Option.some.inj h)

section Related

variable {R : α → β → Prop} {as : List α} {bs : List β}

theorem exists_of_left (h : List.Forall₂ R as bs) : ∀ a ∈ as, ∃ b ∈ bs, R a b := by
  induction h with
  | nil => exact fun _ ha => absurd ha List.not_mem_nil
  | cons hab _ ih =>
      intro a ha
      rcases List.mem_cons.mp ha with rfl | ha
      · exact ⟨_, List.mem_cons_self, hab⟩
      · obtain ⟨b, hb, hR⟩ := ih a ha
        exact ⟨b, List.mem_cons_of_mem _ hb, hR⟩

theorem exists_of_right (h : List.Forall₂ R as bs) : ∀ b ∈ bs, ∃ a ∈ as, R a b := exists_of_left h.flip

end Related

theorem mapM_eq_ok {f : α → Except ε β} {as : List α} {bs : List β} :
    as.mapM f = .ok bs ↔ List.Forall₂ (fun a b => f a = .ok b) as bs := by
  induction as generalizing bs with
  | nil =>
      constructor
      · intro h
        obtain rfl := Except.ok.inj h
        exact .nil
      · rintro ⟨⟩
        rfl
  | cons a as ih =>
      rw [List.mapM_cons, bind_eq_ok]
      constructor
      · rintro ⟨b, hb, h⟩
        obtain ⟨bs', hbs, h⟩ := bind_eq_ok.mp h
        obtain rfl := Except.ok.inj h
        exact .cons hb (ih.mp hbs)
      · rintro (_ | ⟨hb, hbs⟩)
        exact ⟨_, hb, bind_eq_ok.mpr ⟨_, ih.mpr hbs, rfl⟩⟩

theorem exists_of_mapM {f : α → Except ε β} {as : List α} {bs : List β} (h : as.mapM f = .ok bs) :
    ∀ b ∈ bs, ∃ a ∈ as, f a = .ok b := exists_of_right (mapM_eq_ok.mp h)

theorem mapM_exists {f : α → Except ε β} {as : List α} {bs : List β} (h : as.mapM f = .ok bs) :
    ∀ a ∈ as, ∃ b ∈ bs, f a = .ok b := exists_of_left (mapM_eq_ok.mp h)

theorem mapM_error {f : α → Except ε β} {as : List α} {e : ε} (h : as.mapM f = .error e) :
    ∃ a ∈ as, f a = .error e := by
  induction as with
  | nil => cases h
  | cons a as ih =>
      rw [List.mapM_cons] at h
      rcases bind_eq_error.mp h with hfirst | ⟨b, -, hrest⟩
      · exact ⟨a, List.mem_cons_self, hfirst⟩
      · rcases bind_eq_error.mp hrest with hrest | ⟨bs, -, hpure⟩
        · obtain ⟨a', ha', hfail⟩ := ih hrest
          exact ⟨a', List.mem_cons_of_mem _ ha', hfail⟩
        · cases hpure

/-- What can be told of each result from its input. -/
theorem map_mapM {f : α → Except ε β} {g : β → γ} {k : α → γ} (hfg : ∀ a b, f a = .ok b → g b = k a)
    {as : List α}
    {bs : List β} (h : as.mapM f = .ok bs) : bs.map g = as.map k := by
  replace h := mapM_eq_ok.mp h
  induction h with
  | nil => rfl
  | cons hab _ ih => rw [List.map_cons, List.map_cons, hfg _ _ hab, ih]

theorem exists_mapM {f : α → Except ε β} {as : List α} (h : ∀ a ∈ as, ∃ b, f a = .ok b) :
    ∃ bs, as.mapM f = .ok bs := by
  induction as with
  | nil => exact ⟨[], rfl⟩
  | cons a as ih =>
      obtain ⟨⟨b, hb⟩, has⟩ := List.forall_mem_cons.mp h
      obtain ⟨bs, hbs⟩ := ih has
      exact ⟨b :: bs, by rw [List.mapM_cons, hb, hbs]; rfl⟩

section Options

variable {f : α → Option β} {as : List α} {bs : List β}

theorem mapM_eq_some : as.mapM f = some bs ↔ List.Forall₂ (fun a b => f a = some b) as bs := by
  induction as generalizing bs with
  | nil => simp [eq_comm]
  | cons a as ih =>
      rw [List.mapM_cons, Option.bind_eq_bind, Option.bind_eq_some_iff]
      constructor
      · rintro ⟨b, hb, h⟩
        obtain ⟨bs', hbs, h⟩ := Option.bind_eq_some_iff.mp h
        obtain rfl := Option.some.inj h
        exact .cons hb (ih.mp hbs)
      · rintro (_ | ⟨hb, hbs⟩)
        exact ⟨_, hb, Option.bind_eq_some_iff.mpr ⟨_, ih.mpr hbs, rfl⟩⟩

theorem some_of_mem (h : as.mapM f = some bs) {a : α} (ha : a ∈ as) : ∃ b ∈ bs, f a = some b :=
  exists_of_left (mapM_eq_some.mp h) a ha

theorem mem_of_some (h : as.mapM f = some bs) {b : β} (hb : b ∈ bs) : ∃ a ∈ as, f a = some b :=
  exists_of_right (mapM_eq_some.mp h) b hb

theorem exists_mapM_some (h : ∀ a ∈ as, ∃ b, f a = some b) : ∃ bs, as.mapM f = some bs := by
  induction as with
  | nil => exact ⟨[], rfl⟩
  | cons a as ih =>
      obtain ⟨⟨b, hb⟩, has⟩ := List.forall_mem_cons.mp h
      obtain ⟨bs, hbs⟩ := ih has
      exact ⟨b :: bs, by rw [List.mapM_cons, hb, hbs]; rfl⟩

end Options

/-- Two passes over a list, each of which may fail, are one. -/
theorem mapM_mapM {f : α → Option β} {g : β → Except ε γ} {as : List α} {cs : List γ} :
    (∃ bs, as.mapM f = some bs ∧ bs.mapM g = .ok cs) ↔
      as.map (fun a => (f a).bind (fun b => (g b).toOption)) = cs.map some := by
  induction as generalizing cs with
  | nil =>
      constructor
      · rintro ⟨bs, hbs, hcs⟩
        obtain rfl := Option.some.inj hbs
        obtain rfl := Except.ok.inj hcs
        rfl
      · intro h
        obtain rfl := List.map_eq_nil_iff.mp h.symm
        exact ⟨[], rfl, rfl⟩
  | cons a as ih =>
      rw [List.map_cons, List.mapM_cons]
      constructor
      · rintro ⟨bs, hbs, hcs⟩
        obtain ⟨b, hb, hbs⟩ := Option.bind_eq_some_iff.mp hbs
        obtain ⟨bs', hbs', hbs⟩ := Option.bind_eq_some_iff.mp hbs
        obtain rfl := Option.some.inj hbs
        rw [List.mapM_cons] at hcs
        obtain ⟨c, hc, hcs⟩ := bind_eq_ok.mp hcs
        obtain ⟨cs', hcs', hcs⟩ := bind_eq_ok.mp hcs
        obtain rfl := Except.ok.inj hcs
        rw [List.map_cons, ← ih.mp ⟨bs', hbs', hcs'⟩, hb, Option.bind_some, hc]
        rfl
      · intro h
        cases cs with
        | nil => cases h
        | cons c cs =>
            obtain ⟨hhead, htail⟩ := List.cons.inj h
            obtain ⟨b, hb, hc⟩ := Option.bind_eq_some_iff.mp hhead
            obtain ⟨bs, hbs, hcs⟩ := ih.mpr htail
            refine ⟨b :: bs, ?_, ?_⟩
            · simp [hb, hbs]
            · rw [List.mapM_cons, toOption_eq_some hc, hcs]
              rfl

end MLRunX.Fallible
