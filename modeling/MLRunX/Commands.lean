namespace MLRunX.Commands

variable {σ ε ε' α β : Type}

/-- A program over a state that may fail on its way. What it has written by
then stays written. -/
def Command (σ ε α : Type) := σ → Except ε α × σ

instance : Monad (Command σ ε) where
  pure a := fun s => (.ok a, s)
  bind x f := fun s => match x s with
    | (.ok a, s') => f a s'
    | (.error e, s') => (.error e, s')

def fail (e : ε) : Command σ ε α := fun s => (.error e, s)

def ofExcept (x : Except ε α) : Command σ ε α := fun s => (x, s)

def mapError (f : ε → ε') (x : Command σ ε α) : Command σ ε' α := fun s => ((x s).1.mapError f, (x s).2)

/-- A program whose failure is passed over. -/
def attempt (x : Command σ ε α) : Command σ ε' (Option α) := fun s => (.ok (x s).1.toOption, (x s).2)

/-- A program on a part of the state. -/
def zoom {τ : Type} (get : σ → τ) (set : τ → σ → σ) (x : Command τ ε α) : Command σ ε α :=
  fun s => ((x (get s)).1, set (x (get s)).2 s)

theorem bind_assoc {γ : Type} (x : Command σ ε α) (f : α → Command σ ε β) (g : β → Command σ ε γ) :
    (x >>= f) >>= g = x >>= fun a => f a >>= g := by
  funext s
  simp only [bind]
  generalize x s = r
  rcases r with ⟨e | a, s'⟩ <;> rfl

theorem mapError_bind (f : ε → ε') (x : Command σ ε α) (g : α → Command σ ε β) :
    mapError f (x >>= g) = mapError f x >>= fun a => mapError f (g a) := by
  funext s
  simp only [mapError, bind]
  generalize x s = r
  rcases r with ⟨e | a, s'⟩ <;> rfl

theorem bind_ok {x : Command σ ε α} {f : α → Command σ ε β} {s s' : σ} {a : α} (h : x s = (.ok a, s')) :
    (x >>= f) s = f a s' := by
  simp only [bind, h]

theorem bind_error {x : Command σ ε α} {f : α → Command σ ε β} {s s' : σ} {e : ε}
    (h : x s = (.error e, s')) :
    (x >>= f) s = (.error e, s') := by
  simp only [bind, h]

theorem bind_ofExcept_ok {x : Except ε α} {a : α} (h : x = .ok a) (f : α → Command σ ε β) (s : σ) :
    (ofExcept x >>= f) s = f a s := by
  rw [h]
  rfl

theorem bind_ofExcept_error {x : Except ε α} {e : ε} (h : x = .error e) (f : α → Command σ ε β) (s : σ) :
    (ofExcept x >>= f) s = (.error e, s) := by
  rw [h]
  rfl

theorem bind_eq_ok {x : Command σ ε α} {f : α → Command σ ε β} {s s' : σ} {b : β}
    (h : (x >>= f) s = (.ok b, s')) : ∃ a s'', x s = (.ok a, s'') ∧ f a s'' = (.ok b, s') := by
  simp only [bind] at h
  split at h
  · exact ⟨_, _, by assumption, h⟩
  · cases h

theorem bind_eq_error {x : Command σ ε α} {f : α → Command σ ε β} {s s' : σ} {e : ε}
    (h : (x >>= f) s = (.error e, s')) :
    x s = (.error e, s') ∨ ∃ a s'', x s = (.ok a, s'') ∧ f a s'' = (.error e, s') := by
  simp only [bind] at h
  split at h
  · exact .inr ⟨_, _, by assumption, h⟩
  · rename_i hx
    obtain ⟨herror, rfl⟩ := Prod.mk.inj h
    rw [Except.error.inj herror] at hx
    exact .inl hx

theorem pure_eq_ok {s s' : σ} {a b : α} (h : (pure a : Command σ ε α) s = (.ok b, s')) : b = a ∧ s' = s := by
  obtain ⟨hb, hs⟩ := Prod.mk.inj h
  exact ⟨(Except.ok.inj hb).symm, hs.symm⟩

theorem ofExcept_ok {x : Except ε α} {a : α} (h : x = .ok a) (s : σ) : ofExcept x s = (.ok a, s) := by
  rw [h]
  rfl

theorem mapError_ok {f : ε → ε'} {x : Command σ ε α} {s s' : σ} {a : α} (h : x s = (.ok a, s')) :
    mapError f x s = (.ok a, s') := by
  simp only [mapError, h]
  rfl

theorem mapError_eq_ok {f : ε → ε'} {x : Command σ ε α} {s s' : σ} {a : α} (h : mapError f x s = (.ok a, s')) :
    x s = (.ok a, s') := by
  simp only [mapError] at h
  generalize x s = r at h ⊢
  rcases r with ⟨e | a, s'⟩
  · exact absurd (congrArg Prod.fst h) nofun
  · obtain ⟨ha, rfl⟩ := Prod.mk.inj h
    rw [Except.ok.inj ha]

theorem mapError_eq_error {f : ε → ε'} {x : Command σ ε α} {s s' : σ} {e' : ε'}
    (h : mapError f x s = (.error e', s')) : ∃ e, x s = (.error e, s') := by
  simp only [mapError] at h
  generalize x s = r at h ⊢
  rcases r with ⟨e | a, s''⟩
  · exact ⟨e, congrArg _ (Prod.mk.inj h).2⟩
  · exact absurd (congrArg Prod.fst h) nofun

theorem zoom_eq_ok {τ : Type} {get : σ → τ} {set : τ → σ → σ} {x : Command τ ε α} {s s' : σ} {a : α}
    (h : zoom get set x s = (.ok a, s')) : ∃ t, x (get s) = (.ok a, t) ∧ s' = set t s := by
  obtain ⟨ha, hs⟩ := Prod.mk.inj h
  exact ⟨_, Prod.ext ha rfl, hs.symm⟩

def Ends (Q : α → σ → Prop) (E : σ → Prop) : Except ε α × σ → Prop
  | (.ok a, s) => Q a s
  | (.error _, s) => E s

/-- From states in `P` a program ends normally in `Q` or fails in `E`. -/
structure Triple (P : σ → Prop) (x : Command σ ε α) (Q : α → σ → Prop) (E : σ → Prop) : Prop where
  ends : ∀ s, P s → Ends Q E (x s)

/-- A program that keeps an invariant, whether it fails or not. -/
abbrev Keeps (I : σ → Prop) (x : Command σ ε α) : Prop := Triple I x (fun _ => I) I

variable {P P' I : σ → Prop} {Q Q' : α → σ → Prop} {E E' : σ → Prop} {x y : Command σ ε α}

theorem triple_pure {a : α} (h : ∀ s, P s → Q a s) : Triple P (pure a : Command σ ε α) Q E := ⟨h⟩

theorem triple_fail {e : ε} (h : ∀ s, P s → E s) : Triple P (fail e : Command σ ε α) Q E := ⟨h⟩

theorem triple_ofExcept {r : Except ε α} (hok : ∀ a s, r = .ok a → P s → Q a s) (herr : ∀ s, P s → E s) :
    Triple P (ofExcept r) Q E := by
  constructor
  intro s hs
  cases r with
  | ok a => exact hok a s rfl hs
  | error e => exact herr s hs

theorem triple_bind {f : α → Command σ ε β} {R : β → σ → Prop} (hx : Triple P x Q E)
    (hf : ∀ a, Triple (Q a) (f a) R E) : Triple P (x >>= f) R E := by
  constructor
  intro s hs
  have h := hx.ends s hs
  simp only [bind]
  generalize x s = r at h ⊢
  rcases r with ⟨e | a, s'⟩
  · exact h
  · exact (hf a).ends s' h

theorem triple_weaken (h : Triple P' x Q' E') (hP : ∀ s, P s → P' s) (hQ : ∀ a s, Q' a s → Q a s)
    (hE : ∀ s, E' s → E s) : Triple P x Q E := by
  constructor
  intro s hs
  have h := h.ends s (hP s hs)
  generalize x s = r at h ⊢
  rcases r with ⟨e | a, s'⟩
  · exact hE s' h
  · exact hQ a s' h

theorem triple_mapError {f : ε → ε'} (h : Triple P x Q E) : Triple P (mapError f x) Q E := by
  constructor
  intro s hs
  have h := h.ends s hs
  simp only [mapError]
  generalize x s = r at h ⊢
  rcases r with ⟨e | a, s'⟩ <;> exact h

theorem triple_attempt {R : Option α → σ → Prop} (h : Triple P x Q E) (hok : ∀ a s, Q a s → R (some a) s)
    (herr : ∀ s, E s → R none s) : Triple P (attempt x : Command σ ε' (Option α)) R E' := by
  constructor
  intro s hs
  have h := h.ends s hs
  simp only [attempt]
  generalize x s = r at h ⊢
  rcases r with ⟨e | a, s'⟩
  · exact herr s' h
  · exact hok a s' h

theorem triple_ite {c : Prop} [Decidable c] (hx : c → Triple P x Q E) (hy : ¬ c → Triple P y Q E) :
    Triple P (if c then x else y) Q E := by
  split
  · exact hx ‹c›
  · exact hy ‹¬ c›

/-- What does not depend on the state can be assumed beforehand. -/
theorem triple_assume {c : Prop} (h : c → Triple P x Q E) : Triple (fun s => P s ∧ c) x Q E :=
  ⟨fun s hs => (h hs.2).ends s hs.1⟩

theorem Triple.of_ok (h : Triple P x Q E) {s s' : σ} {a : α} (hs : P s) (hx : x s = (.ok a, s')) : Q a s' := by
  have h := h.ends s hs
  rwa [hx] at h

theorem Triple.of_error (h : Triple P x Q E) {s s' : σ} {e : ε} (hs : P s) (hx : x s = (.error e, s')) :
    E s' := by
  have h := h.ends s hs
  rwa [hx] at h

theorem Triple.after (h : Triple P x Q E) (hQ : ∀ a s, Q a s → I s) (hE : ∀ s, E s → I s) {s : σ} (hs : P s) :
    I (x s).2 := by
  have h := h.ends s hs
  generalize x s = r at h ⊢
  rcases r with ⟨e | a, s'⟩
  · exact hE s' h
  · exact hQ a s' h

theorem triple_of_after (h : ∀ s, P s → I (x s).2) : Triple P x (fun _ => I) I := by
  constructor
  intro s hs
  have h := h s hs
  generalize x s = r at h ⊢
  rcases r with ⟨e | a, s'⟩ <;> exact h

theorem Triple.fails (h : Triple P x Q E) (hE : ∀ s, E s → E' s) : Triple P x Q E' :=
  triple_weaken h (fun _ hs => hs) (fun _ _ hs => hs) hE

theorem Triple.after_ok (h : Triple P x Q E) (hQ : ∀ a s, Q a s → Q' a s) : Triple P x Q' E :=
  triple_weaken h (fun _ hs => hs) hQ (fun _ hs => hs)

theorem keeps_bind {f : α → Command σ ε β} (hx : Keeps I x) (hf : ∀ a, Keeps I (f a)) : Keeps I (x >>= f) :=
  triple_bind hx hf

theorem keeps_attempt (h : Keeps I x) : Keeps I (attempt x : Command σ ε' (Option α)) :=
  triple_attempt h (fun _ _ h => h) (fun _ h => h)

/-- What each round of a loop keeps, the loop keeps. -/
theorem triple_forM {β : Type} {f : β → Command σ ε Unit} {as : List β}
    (h : ∀ a ∈ as, Triple P (f a) (fun _ => P) E) : Triple P (as.forM f) (fun _ => P) E := by
  induction as with
  | nil => exact triple_pure (fun _ hs => hs)
  | cons a as ih =>
      exact triple_bind (h a List.mem_cons_self) (fun _ => ih (fun b hb => h b (List.mem_cons_of_mem _ hb)))

/-- A program that never fails. -/
abbrev Completes (x : Command σ ε α) : Prop := Triple (fun _ => True) x (fun _ _ => True) (fun _ => False)

theorem Completes.exists_ok (h : Completes x) (s : σ) : ∃ a s', x s = (.ok a, s') := by
  have h := h.ends s trivial
  generalize x s = r at h ⊢
  rcases r with ⟨e | a, s'⟩
  · exact h.elim
  · exact ⟨a, s', rfl⟩

theorem Completes.not_error (h : Completes x) {s s' : σ} {e : ε} : x s ≠ (.error e, s') := by
  intro hx
  obtain ⟨a, s'', hok⟩ := h.exists_ok s
  exact nomatch (congrArg Prod.fst hx).symm.trans (congrArg Prod.fst hok)

theorem completes_pure (a : α) : Completes (pure a : Command σ ε α) := triple_pure (fun _ _ => trivial)

theorem completes_bind {f : α → Command σ ε β} (hx : Completes x) (hf : ∀ a, Completes (f a)) :
    Completes (x >>= f) :=
  triple_bind hx hf

theorem completes_mapError {f : ε → ε'} (h : Completes x) : Completes (mapError f x) := triple_mapError h

theorem completes_attempt (x : Command σ ε α) : Completes (attempt x : Command σ ε' (Option α)) :=
  ⟨fun _ _ => trivial⟩

theorem completes_zoom {τ : Type} {get : σ → τ} {set : τ → σ → σ} {x : Command τ ε α} (h : Completes x) :
    Completes (zoom get set x) := by
  constructor
  intro s _
  obtain ⟨a, t, hx⟩ := h.exists_ok (get s)
  simp only [zoom, hx]
  trivial

theorem triple_zoom {τ : Type} {get : σ → τ} {set : τ → σ → σ} (hget : ∀ t s, get (set t s) = t)
    {y : Command τ ε α} {P : τ → Prop} {Q : α → τ → Prop} {E : τ → Prop} (h : Triple P y Q E) :
    Triple (fun s => P (get s)) (zoom get set y) (fun a s => Q a (get s)) (fun s => E (get s)) := by
  constructor
  intro s hs
  have h := h.ends (get s) hs
  simp only [zoom]
  generalize y (get s) = r at h ⊢
  rcases r with ⟨e | a, t⟩
  · change E (get (set t s))
    rw [hget]
    exact h
  · change Q a (get (set t s))
    rw [hget]
    exact h

/-- A program that changes nothing of what `view` shows of the state. -/
structure Leaves {γ : Type} (view : σ → γ) (x : Command σ ε α) : Prop where
  shows : ∀ s, view (x s).2 = view s

variable {γ : Type} {view : σ → γ}

theorem Leaves.keeps (h : Leaves view x) (hI : ∀ s s', view s = view s' → I s → I s') : Keeps I x := by
  constructor
  intro s hs
  have h := h.shows s
  generalize x s = r at h ⊢
  rcases r with ⟨e | a, s'⟩ <;> exact hI s s' h.symm hs

theorem Leaves.map {δ : Type} (h : Leaves view x) (f : γ → δ) : Leaves (fun s => f (view s)) x :=
  ⟨fun s => congrArg f (h.shows s)⟩

theorem leaves_pure (a : α) : Leaves view (pure a : Command σ ε α) := ⟨fun _ => rfl⟩

theorem leaves_fail (e : ε) : Leaves view (fail e : Command σ ε α) := ⟨fun _ => rfl⟩

theorem leaves_ofExcept (r : Except ε α) : Leaves view (ofExcept r) := ⟨fun _ => rfl⟩

theorem bind_leaves (view : σ → γ) {f : α → Command σ ε β} (hf : ∀ a, Leaves view (f a)) (s : σ) :
    view ((x >>= f) s).2 = view (x s).2 := by
  simp only [bind]
  generalize x s = r
  rcases r with ⟨e | a, s'⟩
  · rfl
  · exact (hf a).shows s'

theorem leaves_bind {f : α → Command σ ε β} (hx : Leaves view x) (hf : ∀ a, Leaves view (f a)) :
    Leaves view (x >>= f) :=
  ⟨fun s => (bind_leaves view hf s).trans (hx.shows s)⟩

theorem leaves_mapError {f : ε → ε'} (h : Leaves view x) : Leaves view (mapError f x) := ⟨h.shows⟩

theorem leaves_zoom {τ : Type} {get : σ → τ} {set : τ → σ → σ} (hget : ∀ t s, get (set t s) = t)
    {view : τ → γ}
    {y : Command τ ε α} (h : Leaves view y) : Leaves (fun s => view (get s)) (zoom get set y) := by
  constructor
  intro s
  change view (get (set (y (get s)).2 s)) = view (get s)
  rw [hget]
  exact h.shows (get s)

theorem leaves_attempt (h : Leaves view x) : Leaves view (attempt x : Command σ ε' (Option α)) := ⟨h.shows⟩

/-- A program that takes the state along a relation, whether it fails or not. -/
structure Moves (R : σ → σ → Prop) (x : Command σ ε α) : Prop where
  moves : ∀ s, R s (x s).2

variable {R : σ → σ → Prop}

theorem Moves.of_eq (h : Moves R x) {s s' : σ} {r : Except ε α} (hx : x s = (r, s')) : R s s' := by
  have h := h.moves s
  rwa [hx] at h

theorem moves_pure (hrefl : ∀ s, R s s) (a : α) : Moves R (pure a : Command σ ε α) := ⟨hrefl⟩

theorem moves_bind (htrans : ∀ s t u, R s t → R t u → R s u) {f : α → Command σ ε β} (hx : Moves R x)
    (hf : ∀ a, Moves R (f a)) : Moves R (x >>= f) := by
  constructor
  intro s
  have h := hx.moves s
  simp only [bind]
  generalize x s = r at h ⊢
  rcases r with ⟨e | a, s'⟩
  · exact h
  · exact htrans _ _ _ h ((hf a).moves s')

theorem moves_bind_leaves {f : α → Command σ ε β} (hx : Moves R x) (hf : ∀ a, Leaves id (f a)) :
    Moves R (x >>= f) := by
  constructor
  intro s
  have hsame : ((x >>= f) s).2 = (x s).2 := bind_leaves id hf s
  rw [hsame]
  exact hx.moves s

/-- A program does on a part of its state what another does on that part alone. -/
structure Refines {τ : Type} (part : σ → τ) (x : Command σ ε α) (y : Command τ ε α) : Prop where
  same : ∀ s, y (part s) = ((x s).1, part (x s).2)

variable {τ : Type} {part : σ → τ}

theorem refines_pure (a : α) : Refines part (pure a : Command σ ε α) (pure a) := ⟨fun _ => rfl⟩

theorem refines_fail (e : ε) : Refines part (fail e : Command σ ε α) (fail e) := ⟨fun _ => rfl⟩

theorem refines_bind {y : Command τ ε α} {f : α → Command σ ε β} {g : α → Command τ ε β}
    (hx : Refines part x y)
    (hf : ∀ a, Refines part (f a) (g a)) : Refines part (x >>= f) (y >>= g) := by
  constructor
  intro s
  have h := hx.same s
  simp only [bind, h]
  generalize x s = r
  rcases r with ⟨e | a, s'⟩
  · rfl
  · exact (hf a).same s'

theorem refines_mapError {f : ε → ε'} {y : Command τ ε α} (h : Refines part x y) :
    Refines part (mapError f x) (mapError f y) := by
  constructor
  intro s
  simp only [mapError, h.same s]

theorem refines_attempt {y : Command τ ε α} (h : Refines part x y) :
    Refines part (attempt x : Command σ ε' (Option α)) (attempt y) := by
  constructor
  intro s
  simp only [attempt, h.same s]

end MLRunX.Commands
