import MLRunX.Commands
import MLRunX.Runs

namespace MLRunX.Interleaving

open Commands Runs

variable {ι σ ε α β κ : Type}

/-- A program cut into atomic steps. Each step reads an input of its own
moment, such as the time. -/
inductive Thread (ι σ ε α : Type)
  | done (result : Except ε α)
  | step (write : ι → σ → σ) (next : ι → σ → Thread ι σ ε α)

def Thread.bind : Thread ι σ ε α → (α → Thread ι σ ε β) → Thread ι σ ε β
  | .done (.ok a), f => f a
  | .done (.error e), _ => .done (.error e)
  | .step write next, f => .step write (fun i s => (next i s).bind f)

instance : Monad (Thread ι σ ε) where
  pure a := .done (.ok a)
  bind := Thread.bind

def atomic (x : ι → Command σ ε α) : Thread ι σ ε α :=
  .step (fun i s => (x i s).2) (fun i s => .done (x i s).1)

def Thread.alone (i : ι) : Thread ι σ ε α → Command σ ε α
  | .done result => ofExcept result
  | .step write next => fun s => (next i s).alone i (write i s)

theorem alone_bind (i : ι) (x : Thread ι σ ε α) (f : α → Thread ι σ ε β) :
    (x >>= f).alone i = x.alone i >>= fun a => (f a).alone i := by
  induction x with
  | done result =>
      cases result with
      | ok a => rfl
      | error e => rfl
  | step write next ih =>
      funext s
      exact congrFun (ih i s) (write i s)

theorem alone_atomic (i : ι) (x : ι → Command σ ε α) : (atomic x).alone i = x i := rfl

structure Moment (ι σ : Type) where
  input : ι
  before : σ
  after : σ

/-- What a thread may rely on from the others between its steps, what holds
when it takes a step, what its steps do, and how it ends. -/
structure Contract (ι σ ε α : Type) where
  rely : σ → σ → Prop
  assume : ι → σ → Prop
  effect : σ → σ → Prop
  answer : σ → Except ε α → Prop

def Meets (c : Contract ι σ ε α) : Thread ι σ ε α → σ → Prop
  | .done result, last => ∀ s, c.rely last s → c.answer s result
  | .step write next, last => ∀ i s, c.rely last s → c.assume i s →
      c.effect s (write i s) ∧ Meets c (next i s) (write i s)

/-- The steps that took a thread to what remains of it. The last of them left
the state `last`. -/
inductive Path (rely : σ → σ → Prop) (x : Thread ι σ ε α) (begun : σ) :
    List (Moment ι σ) → Thread ι σ ε α → σ → Prop
  | start : Path rely x begun [] x begun
  | step {moments : List (Moment ι σ)} {write : ι → σ → σ} {next : ι → σ →
      Thread ι σ ε α} {last : σ} (i : ι)
      {s : σ} (h : Path rely x begun moments (.step write next) last) (hs : rely last s) :
      Path rely x begun (moments ++ [⟨i, s, write i s⟩]) (next i s) (write i s)

theorem Path.meets {c : Contract ι σ ε α} {x rest : Thread ι σ ε α} {begun last : σ}
    {moments : List (Moment ι σ)}
    (h : Path c.rely x begun moments rest last) (hx : Meets c x begun)
    (hassume : ∀ m ∈ moments, c.assume m.input m.before) :
    (∀ m ∈ moments, c.effect m.before m.after) ∧ Meets c rest last := by
  induction h with
  | start => exact ⟨fun m hm => absurd hm List.not_mem_nil, hx⟩
  | @step moments write next last i s h hs ih =>
      obtain ⟨heffect, hrest⟩ := ih (fun m hm => hassume m (List.mem_append_left _ hm))
      obtain ⟨hlast, hnext⟩ := hrest i s hs
        (hassume ⟨i, s, write i s⟩ (List.mem_append_right _ List.mem_cons_self))
      refine ⟨?_, hnext⟩
      intro m hm
      rcases List.mem_append.mp hm with hm | hm
      · exact heffect m hm
      · rw [List.mem_singleton.mp hm]
        exact hlast

section Rules

variable {c : Contract ι σ ε α} {begun : σ}

theorem meets_atomic {x : ι → Command σ ε α}
    (h : ∀ i s, c.rely begun s → c.assume i s →
      c.effect s (x i s).2 ∧ ∀ s', c.rely (x i s).2 s' → c.answer s' (x i s).1) :
    Meets c (atomic x) begun := h

theorem Meets.weaken {d : Contract ι σ ε α} {x : Thread ι σ ε α} (h : Meets c x begun)
    (hrely : ∀ s t, d.rely s t → c.rely s t) (hassume : ∀ i s, d.assume i s → c.assume i s)
    (heffect : ∀ s t, c.effect s t → d.effect s t) (hanswer : ∀ s r, c.answer s r → d.answer s r) :
    Meets d x begun := by
  induction x generalizing begun with
  | done result => exact fun s hs => hanswer s result (h s (hrely begun s hs))
  | step write next ih =>
      intro i s hs hi
      obtain ⟨hwrite, hnext⟩ := h i s (hrely begun s hs) (hassume i s hi)
      exact ⟨heffect s _ hwrite, ih i s hnext⟩

theorem meets_bind {c : Contract ι σ ε β} (hrefl : ∀ s, c.rely s s) {x : Thread ι σ ε α}
    {f : α → Thread ι σ ε β} {Q : σ → Except ε α → Prop} (hx : Meets { c with answer := Q } x begun)
    (hok : ∀ s a, Q s (.ok a) → Meets c (f a) s) (herror : ∀ s e, Q s (.error e) → c.answer s (.error e)) :
    Meets c (x >>= f) begun := by
  induction x generalizing begun with
  | done result =>
      cases result with
      | ok a => exact hok begun a (hx begun (hrefl begun))
      | error e => exact fun s hs => herror s e (hx s hs)
  | step write next ih =>
      intro i s hs hassume
      obtain ⟨heffect, hnext⟩ := hx i s hs hassume
      exact ⟨heffect, ih i s hnext⟩

theorem meets_done_ok {c : Contract ι σ ε β} {result : Except ε α} {a : α} (hresult : result = .ok a)
    {f : α → Thread ι σ ε β} (h : Meets c (f a) begun) : Meets c (.done result >>= f) begun := by
  subst hresult
  exact h

theorem meets_done_error {c : Contract ι σ ε β} {result : Except ε α} {e : ε} (hresult : result = .error e)
    (f : α → Thread ι σ ε β) (h : ∀ s, c.rely begun s → c.answer s (.error e)) :
    Meets c (.done result >>= f) begun := by
  subst hresult
  exact h

end Rules

structure Flight (κ ι σ ε α : Type) where
  call : κ
  begun : σ
  moments : List (Moment ι σ)
  rest : Thread ι σ ε α

structure Pool (κ ι σ ε α : Type) where
  store : σ
  flights : List (Flight κ ι σ ε α)

def Pool.idle (s : σ) : Pool κ ι σ ε α := ⟨s, []⟩

inductive Turn (κ ι : Type)
  | begin (call : κ)
  | advance (index : Nat) (input : ι)
  deriving DecidableEq, Repr

/-- A call that was answered, with the state in which it was begun, its steps,
and the state when it was answered. -/
structure Answered (κ ι σ ε α : Type) where
  call : κ
  begun : σ
  moments : List (Moment ι σ)
  store : σ
  result : Except ε α

variable (body : κ → Thread ι σ ε α)

def turn : Machine (Pool κ ι σ ε α) (Turn κ ι) (Option (Answered κ ι σ ε α))
  | p, .begin call => (none, { p with flights := p.flights ++ [⟨call, p.store, [], body call⟩] })
  | p, .advance index input => match p.flights[index]? with
      | none => (none, p)
      | some flight => match flight.rest with
          | .done result =>
              (some ⟨flight.call, flight.begun, flight.moments, p.store, result⟩,
                { p with flights := p.flights.eraseIdx index })
          | .step write next =>
              (none, ⟨write input p.store, p.flights.set index { flight with
                moments := flight.moments ++ [⟨input, p.store, write input p.store⟩]
                rest := next input p.store }⟩)

/-- Whatever flight takes the turn may do so now. -/
def Allowed (assume : κ → ι → σ → Prop) (_ : List (Turn κ ι × Option (Answered κ ι σ ε α)))
    (p : Pool κ ι σ ε α) :
    Turn κ ι → Prop
  | .begin _ => True
  | .advance index input => ∀ flight ∈ p.flights[index]?, assume flight.call input p.store

instance (assume : κ → ι → σ → Prop) [∀ call i s, Decidable (assume call i s)]
    (past : List (Turn κ ι × Option (Answered κ ι σ ε α))) (p : Pool κ ι σ ε α) (t : Turn κ ι) :
    Decidable (Allowed assume past p t) := by
  cases t with
  | begin call => exact .isTrue trivial
  | advance index input =>
      exact inferInstanceAs (Decidable (∀ flight ∈ p.flights[index]?, assume flight.call input p.store))

variable {body}

theorem turn_none {p : Pool κ ι σ ε α} {index : Nat} (h : p.flights[index]? = none) (input : ι) :
    turn body p (.advance index input) = (none, p) := by
  simp only [turn, h]

theorem turn_done {p : Pool κ ι σ ε α} {index : Nat} {flight : Flight κ ι σ ε α} {result : Except ε α}
    (h : p.flights[index]? = some flight) (hrest : flight.rest = .done result) (input : ι) :
    turn body p (.advance index input) =
      (some ⟨flight.call, flight.begun, flight.moments, p.store, result⟩,
        { p with flights := p.flights.eraseIdx index }) := by
  simp only [turn, h, hrest]

theorem turn_step {p : Pool κ ι σ ε α} {index : Nat} {flight : Flight κ ι σ ε α} {write : ι → σ → σ}
    {next : ι → σ → Thread ι σ ε α} (h : p.flights[index]? = some flight)
      (hrest : flight.rest = .step write next)
    (input : ι) :
    turn body p (.advance index input) =
      (none, ⟨write input p.store, p.flights.set index { flight with
        moments := flight.moments ++ [⟨input, p.store, write input p.store⟩]
        rest := next input p.store }⟩) := by
  simp only [turn, h, hrest]

section Schedules

variable (rely : σ → σ → Prop) (assume : κ → ι → σ → Prop)

/-- A flight is on a path of its own program, and since its last step the
others have moved the store as it may rely on. -/
structure Underway (body : κ → Thread ι σ ε α) (start : σ) (flight : Flight κ ι σ ε α)
    (store : σ) : Prop where
  reached : rely start flight.begun
  path : ∃ last, Path rely (body flight.call) flight.begun flight.moments flight.rest last ∧ rely last store
  allowed : ∀ m ∈ flight.moments, assume flight.call m.input m.before
  since : rely flight.begun store

variable {rely assume} {flight : Flight κ ι σ ε α} {start s s' : σ}

theorem Underway.mono (htrans : ∀ s t u, rely s t → rely t u → rely s u)
    (h : Underway rely assume body start flight s)
    (hs : rely s s') : Underway rely assume body start flight s' where
  reached := h.reached
  path := by
    obtain ⟨last, hpath, hlast⟩ := h.path
    exact ⟨last, hpath, htrans _ _ _ hlast hs⟩
  allowed := h.allowed
  since := htrans _ _ _ h.since hs

theorem underway_begin (hrefl : ∀ s, rely s s) (call : κ) {s : σ} (hs : rely start s) :
    Underway rely assume body start ⟨call, s, [], body call⟩ s where
  reached := hs
  path := ⟨s, .start, hrefl s⟩
  allowed := fun _ h => absurd h List.not_mem_nil
  since := hrefl s

theorem Underway.step {write : ι → σ → σ} {next : ι → σ → Thread ι σ ε α} {i : ι}
    (hrefl : ∀ s, rely s s) (htrans : ∀ s t u, rely s t → rely t u → rely s u)
    (h : Underway rely assume body start flight s) (hrest : flight.rest = .step write next)
    (hassume : assume flight.call i s) (hs : rely s (write i s)) :
    Underway rely assume body start { flight with
      moments := flight.moments ++ [⟨i, s, write i s⟩]
      rest := next i s } (write i s) where
  reached := h.reached
  path := by
    obtain ⟨last, hpath, hlast⟩ := h.path
    rw [hrest] at hpath
    exact ⟨write i s, .step i hpath hlast, hrefl _⟩
  allowed := by
    intro m hm
    rcases List.mem_append.mp hm with hm | hm
    · exact h.allowed m hm
    · rw [List.mem_singleton.mp hm]
      exact hassume
  since := htrans _ _ _ h.since hs

theorem Underway.meets {c : Contract ι σ ε α} (h : Underway c.rely assume body start flight s)
    (hbody : Meets c (body flight.call) flight.begun) (hassume : ∀ m ∈ flight.moments, c.assume m.input m.before) :
    (∀ m ∈ flight.moments, c.effect m.before m.after) ∧ ∃ last, c.rely last s ∧ Meets c flight.rest last := by
  obtain ⟨last, hpath, hlast⟩ := h.path
  obtain ⟨heffect, hrest⟩ := hpath.meets hbody hassume
  exact ⟨heffect, last, hlast, hrest⟩

structure Cooperate (rely : σ → σ → Prop) (assume : κ → ι → σ → Prop)
    (body : κ → Thread ι σ ε α) : Prop where
  refl : ∀ s, rely s s
  trans : ∀ s t u, rely s t → rely t u → rely s u
  moves : ∀ call s, Meets ⟨rely, assume call, rely, fun _ _ => True⟩ (body call) s

structure AllUnderway (rely : σ → σ → Prop) (assume : κ → ι → σ → Prop)
    (body : κ → Thread ι σ ε α) (start : σ)
    (p : Pool κ ι σ ε α) : Prop where
  reached : rely start p.store
  flights : ∀ flight ∈ p.flights, Underway rely assume body start flight p.store

variable (hbody : Cooperate rely assume body)

include hbody

theorem Underway.effect {c : Contract ι σ ε α} (hc : c.rely = rely) (hca : c.assume = assume flight.call)
    (h : Underway rely assume body start flight s) (hmeets : Meets c (body flight.call) flight.begun)
    {write : ι → σ → σ} {next : ι → σ →
      Thread ι σ ε α} (hrest : flight.rest = .step write next) {i : ι}
    (hassume : assume flight.call i s) : c.effect s (write i s) := by
  subst hc
  obtain ⟨-, last, hlast, hmeets⟩ := h.meets hmeets (hca ▸ h.allowed)
  rw [hrest] at hmeets
  exact (hmeets i s hlast (hca ▸ hassume)).1

theorem allUnderway_turn {past : List (Turn κ ι × Option (Answered κ ι σ ε α))} {p : Pool κ ι σ ε α}
    {t : Turn κ ι}
    (h : AllUnderway rely assume body start p) (hallowed : Allowed assume past p t) :
    AllUnderway rely assume body start (turn body p t).2 := by
  cases t with
  | begin call =>
      refine ⟨h.reached, ?_⟩
      intro flight hflight
      rcases List.mem_append.mp hflight with hflight | hflight
      · exact h.flights flight hflight
      · rw [List.mem_singleton.mp hflight]
        exact underway_begin hbody.refl call h.reached
  | advance index input =>
      cases hindex : p.flights[index]? with
      | none =>
          rw [turn_none hindex]
          exact h
      | some flight =>
          have hunder := h.flights flight (List.mem_of_getElem? hindex)
          cases hrest : flight.rest with
          | done result =>
              rw [turn_done hindex hrest]
              exact ⟨h.reached, fun flight hflight => h.flights flight (List.mem_of_mem_eraseIdx hflight)⟩
          | step write next =>
              have hassume := hallowed flight hindex
              have hmoves := Underway.effect hbody (c := ⟨rely, assume flight.call, rely, fun _ _ => True⟩) rfl rfl
                hunder (hbody.moves _ _) hrest hassume
              rw [turn_step hindex hrest]
              refine ⟨hbody.trans _ _ _ h.reached hmoves, ?_⟩
              intro other hother
              rcases List.mem_or_eq_of_mem_set hother with hother | rfl
              · exact (h.flights other hother).mono hbody.trans hmoves
              · exact hunder.step hbody.refl hbody.trans hrest hassume hmoves

theorem allUnderway_run {ts : List (Turn κ ι)}
    (hallowed : Guarded (turn body) (Allowed assume) [] (Pool.idle start) ts) :
    AllUnderway rely assume body start (after (turn body) (Pool.idle start) ts) :=
  invariant_history (m := turn body) (fun _ p => AllUnderway rely assume body start p)
    (fun _ _ _ h hallowed => allUnderway_turn hbody h hallowed) [] (Pool.idle start) ts
    ⟨hbody.refl start, fun _ h => absurd h List.not_mem_nil⟩ hallowed

theorem answered_meets {ts : List (Turn κ ι)} {t : Turn κ ι} {a : Answered κ ι σ ε α}
    (hallowed : Guarded (turn body) (Allowed assume) [] (Pool.idle start) ts)
    (h : (t, some a) ∈ history (turn body) (Pool.idle start) ts) :
    rely start a.begun ∧ ∀ c : Contract ι σ ε α, c.rely = rely → Meets c (body a.call) a.begun →
      (∀ m ∈ a.moments, c.assume m.input m.before) →
      (∀ m ∈ a.moments, c.effect m.before m.after) ∧ c.answer a.store a.result := by
  obtain ⟨before, later, rfl, hanswer⟩ := mem_history h
  obtain ⟨hbefore, -⟩ := (guarded_append _ _ _ _).mp hallowed
  have hunder := allUnderway_run hbody hbefore
  generalize after (turn body) (Pool.idle start) before = p at hanswer hunder
  cases t with
  | begin call => cases hanswer
  | advance index input =>
      cases hindex : p.flights[index]? with
      | none =>
          rw [turn_none hindex] at hanswer
          cases hanswer
      | some flight =>
          cases hrest : flight.rest with
          | step write next =>
              rw [turn_step hindex hrest] at hanswer
              cases hanswer
          | done result =>
              rw [turn_done hindex hrest] at hanswer
              obtain rfl := Option.some.inj hanswer
              have hflight := hunder.flights flight (List.mem_of_getElem? hindex)
              refine ⟨hflight.reached, ?_⟩
              rintro c rfl hmeets hassume
              obtain ⟨heffect, last, hlast, hdone⟩ := hflight.meets hmeets hassume
              rw [hrest] at hdone
              exact ⟨heffect, hdone _ hlast⟩

theorem turn_effect {ts : List (Turn κ ι)} {index : Nat} {input : ι}
    (hallowed : Guarded (turn body) (Allowed assume) [] (Pool.idle start) (ts ++ [.advance index input]))
    {flight : Flight κ ι σ ε α} (hindex : (after (turn body) (Pool.idle start) ts).flights[index]? = some flight)
    {effect : σ → σ → Prop} (heffect : ∀ s, effect s s)
    (hmeets : Meets ⟨rely, assume flight.call, effect, fun _ _ => True⟩ (body flight.call) flight.begun) :
    effect (after (turn body) (Pool.idle start) ts).store
      (turn body (after (turn body) (Pool.idle start) ts) (.advance index input)).2.store := by
  obtain ⟨hts, hlast, -⟩ := (guarded_append _ _ _ _).mp hallowed
  have hunder := allUnderway_run hbody hts
  have hassume := hlast flight hindex
  generalize after (turn body) (Pool.idle start) ts = p at hindex hunder hassume
  cases hrest : flight.rest with
  | done result =>
      rw [turn_done hindex hrest]
      exact heffect _
  | step write next =>
      rw [turn_step hindex hrest]
      exact Underway.effect hbody (c := ⟨rely, assume flight.call, effect, fun _ _ => True⟩) rfl rfl
        (hunder.flights flight (List.mem_of_getElem? hindex)) hmeets hrest hassume

end Schedules

end MLRunX.Interleaving
