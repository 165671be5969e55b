import MLRunX.Interleaving

namespace MLRunX.InterleavedInvariants

open Commands Interleaving Runs

variable {ι σ ε α β κ : Type} {R R' : σ → σ → Prop} {Q : α → Prop} {Q' : β → Prop}

/-- Every step moves the store along a relation, whatever the others do in between,
and a result has a property. -/
def each (R : σ → σ → Prop) (Q : α → Prop) : Contract ι σ ε α where
  rely _ _ := True
  assume _ _ := True
  effect := R
  answer _ result := ∀ a, result = .ok a → Q a

structure Steps (R : σ → σ → Prop) (Q : α → Prop) (x : Thread ι σ ε α) : Prop where
  meets : ∀ begun, Meets (each R Q) x begun

theorem steps_done {result : Except ε α} (h : ∀ a, result = .ok a → Q a) :
    Steps R Q (.done result : Thread ι σ ε α) :=
  ⟨fun _ _ _ => h⟩

theorem steps_check (result : Except ε α) :
    Steps R (fun a => result = .ok a) (.done result : Thread ι σ ε α) :=
  steps_done (fun _ h => h)

theorem steps_atomic {x : ι → Command σ ε α} (h : ∀ i, Moves R (x i)) : Steps R (fun _ => True) (atomic x) := by
  constructor
  intro begun
  apply meets_atomic
  exact fun i s _ _ => ⟨(h i).moves s, fun _ _ _ _ => trivial⟩

theorem steps_bind {x : Thread ι σ ε α} {f : α → Thread ι σ ε β} (hx : Steps R Q x)
    (hf : ∀ a, Q a → Steps R Q' (f a)) : Steps R Q' (x >>= f) := by
  constructor
  intro begun
  apply meets_bind (fun _ => trivial) (hx.meets begun)
  · exact fun s a ha => (hf a (ha a rfl)).meets s
  · exact fun _ _ _ _ h => nomatch h

theorem Steps.weaken {x : Thread ι σ ε α} (h : Steps R Q x) {P : α → Prop} (hR : ∀ s t, R s t → R' s t)
    (hQ : ∀ a, Q a → P a) : Steps R' P x :=
  ⟨fun begun => (h.meets begun).weaken (fun _ _ _ => trivial) (fun _ _ _ => trivial) hR
    (fun _ _ h a ha => hQ a (h a ha))⟩

theorem alone_meets (hrefl : ∀ s, R s s) (htrans : ∀ s t u, R s t → R t u → R s u) {x : Thread ι σ ε α}
    {begun : σ} (h : Meets (each R Q) x begun) (i : ι) (s : σ) :
    R s (x.alone i s).2 ∧ ∀ a, (x.alone i s).1 = .ok a → Q a := by
  induction x generalizing begun s with
  | done result => exact ⟨hrefl s, h s trivial⟩
  | step write next ih =>
      obtain ⟨hwrite, hnext⟩ := h i s trivial trivial
      obtain ⟨hlast, hresult⟩ := ih i s hnext (write i s)
      exact ⟨htrans _ _ _ hwrite hlast, hresult⟩

/-- With no other call in between, a thread moves the store as its steps do. -/
theorem Steps.alone_ok (hrefl : ∀ s, R s s) (htrans : ∀ s t u, R s t → R t u → R s u) {x : Thread ι σ ε α}
    (h : Steps R Q x) {i : ι} {s t : σ} {a : α} (hx : x.alone i s = (.ok a, t)) : R s t ∧ Q a := by
  have hmeets := alone_meets hrefl htrans (h.meets s) i s
  rw [hx] at hmeets
  exact ⟨hmeets.1, hmeets.2 a rfl⟩

theorem Steps.alone (hrefl : ∀ s, R s s) (htrans : ∀ s t u, R s t → R t u → R s u) {x : Thread ι σ ε α}
    (h : Steps R Q x) (i : ι) : Moves R (x.alone i) :=
  ⟨fun s => (alone_meets hrefl htrans (h.meets s) i s).1⟩

variable {body : κ → Thread ι σ ε α}

theorem guarded_free (past : List (Turn κ ι × Option (Answered κ ι σ ε α))) (p : Pool κ ι σ ε α)
    (ts : List (Turn κ ι)) : Guarded (turn body) (Allowed (fun _ _ _ => True)) past p ts := by
  induction ts generalizing past p with
  | nil => trivial
  | cons t ts ih =>
      refine ⟨?_, ih _ _⟩
      cases t with
      | begin call => trivial
      | advance index input => exact fun _ _ => trivial

/-- A preorder that every step of every call respects is respected by a whole run, however
the steps of any number of calls fall between each other. -/
theorem run_moves (hrefl : ∀ s, R s s) (htrans : ∀ s t u, R s t → R t u → R s u)
    (h : ∀ call, Steps R (fun _ => True) (body call)) (start : σ) (ts : List (Turn κ ι)) :
    R start (after (turn body) (Pool.idle start) ts).store := by
  have hcooperate : Cooperate R (fun _ _ _ => True) body := by
    refine ⟨hrefl, htrans, fun call s => ?_⟩
    exact ((h call).meets s).weaken (fun _ _ _ => trivial) (fun _ _ h => h) (fun _ _ h => h) (fun _ _ _ => trivial)
  exact (allUnderway_run hcooperate (guarded_free _ _ ts)).reached

theorem invariant_run {I : σ → Prop} (h : ∀ call, Steps (fun s t => I s → I t) (fun _ => True) (body call))
    {start : σ} (hstart : I start) (ts : List (Turn κ ι)) : I (after (turn body) (Pool.idle start) ts).store :=
  run_moves (fun _ hs => hs) (fun _ _ _ hst htu hs => htu (hst hs)) h start ts hstart

theorem turn_moves (hrefl : ∀ s, R s s) {start : σ} {ts : List (Turn κ ι)} {index : Nat}
    {flight : Flight κ ι σ ε α} (hindex : (after (turn body) (Pool.idle start) ts).flights[index]? = some flight)
    (h : Steps R Q (body flight.call)) (input : ι) :
    R (after (turn body) (Pool.idle start) ts).store
      (turn body (after (turn body) (Pool.idle start) ts) (.advance index input)).2.store := by
  have hcooperate : Cooperate (fun _ _ => True) (fun _ _ _ => True) body :=
    ⟨fun _ => trivial, fun _ _ _ _ _ => trivial, fun call s => by
      induction body call generalizing s with
      | done result => exact fun _ _ => trivial
      | step write next ih => exact fun i s _ _ => ⟨trivial, ih i s _⟩⟩
  refine turn_effect hcooperate (guarded_free _ _ _) hindex hrefl ?_
  exact (h.meets flight.begun).weaken (fun _ _ _ => trivial) (fun _ _ h => h) (fun _ _ h => h) (fun _ _ _ => trivial)

end MLRunX.InterleavedInvariants
