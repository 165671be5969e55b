import MLRunX.RunFilter

namespace MLRunX.FilterGrammar

open Fallible RunFilter

/-- The three levels of the grammar: alternatives, conjunctions and what stands
between them. -/
inductive Level
  | or | and | prim
  deriving DecidableEq, Repr

def isValue (token : RunFilterToken) (value : String) : Prop :=
  token = .identifier value ∨ token = .stringLiteral value

/-- The grammar with the trees of its derivations. A sequence of operands joined
by one operator is derived from the left, so its tree leans to the left. -/
inductive Derives (chrono : Chrono) : Level → List RunFilterToken → RunFilterExpr → Prop
  | ofAnd {ts e} (h : Derives chrono .and ts e) : Derives chrono .or ts e
  | or {ts us e f} (left : Derives chrono .or ts e) (right : Derives chrono .and us f) :
      Derives chrono .or (ts ++ .or :: us) (.or e f)
  | ofPrim {ts e} (h : Derives chrono .prim ts e) : Derives chrono .and ts e
  | and {ts us e f} (left : Derives chrono .and ts e) (right : Derives chrono .prim us f) :
      Derives chrono .and (ts ++ .and :: us) (.and e f)
  | paren {ts e} (h : Derives chrono .or ts e) : Derives chrono .prim (.lParen :: ts ++ [.rParen]) e
  | condition {field op value token c} (htoken : isValue token value)
      (hbuild : buildRunFilterCondition chrono field op value = .ok c) :
      Derives chrono .prim [.identifier field, .operator op, token] (.condition c)

variable {chrono : Chrono} {level : Level} {tokens rest : List RunFilterToken} {e : RunFilterExpr}

theorem Derives.ne_nil (h : Derives chrono level tokens e) : tokens ≠ [] := by
  induction h with
  | ofAnd h ih => exact ih
  | ofPrim h ih => exact ih
  | or left right => simp
  | and left right => simp
  | paren h => simp
  | condition => simp

/-! What a level reads is derived by it. -/

def Sound (P : List RunFilterToken → RunFilterExpr → Prop) (operand : Parser RunFilterExpr) : Prop :=
  ∀ tokens e rest, operand tokens = .ok (e, rest) → ∃ ts, tokens = ts ++ rest ∧ P ts e

theorem parseConditionExpression_sound : Sound (Derives chrono .prim) (parseConditionExpression chrono) := by
  intro tokens e rest h
  have hread : ∀ {field op value token more}, isValue token value →
      (do pure (.condition (← buildRunFilterCondition chrono field op value), more)) = Except.ok (e, rest) →
      ∃ ts, .identifier field :: .operator op :: token :: more = ts ++ rest ∧ Derives chrono .prim ts e := by
    intro field op value token more htoken h
    obtain ⟨c, hbuild, hc⟩ := Fallible.bind_eq_ok.mp h
    obtain ⟨rfl, rfl⟩ := Prod.mk.inj (Except.ok.inj hc)
    exact ⟨_, rfl, .condition htoken hbuild⟩
  rw [parseConditionExpression.eq_def] at h
  split at h
  · exact hread (.inl rfl) h
  · exact hread (.inr rfl) h
  · cases h
  · cases h
  · cases h

theorem parsePrimaryExpression_sound {inner : Parser RunFilterExpr} (hinner : Sound (Derives chrono .or) inner) :
    Sound (Derives chrono .prim) (parsePrimaryExpression chrono inner) := by
  intro tokens e rest h
  rw [parsePrimaryExpression.eq_def] at h
  split at h
  · rename_i more
    obtain ⟨⟨f, more'⟩, hread, hclose⟩ := Fallible.bind_eq_ok.mp h
    obtain ⟨ts, rfl, hts⟩ := hinner _ _ _ hread
    split at hclose
    · rename_i heq
      obtain ⟨rfl, rfl⟩ := Prod.mk.inj heq
      obtain ⟨rfl, rfl⟩ := Prod.mk.inj (Except.ok.inj hclose)
      exact ⟨.lParen :: ts ++ [.rParen], by simp, .paren hts⟩
    · cases hclose
  · exact parseConditionExpression_sound _ _ _ h

theorem parseJoined_sound {token : RunFilterToken} {join : RunFilterExpr → RunFilterExpr → RunFilterExpr}
    {operand : Parser RunFilterExpr} {P Q : List RunFilterToken → RunFilterExpr → Prop}
    (hjoin : ∀ {ts us e f}, P ts e → Q us f → P (ts ++ token :: us) (join e f)) (hoperand : Sound Q operand)
    {n : Nat} {first e : RunFilterExpr} {read tokens rest : List RunFilterToken} (hfirst : P read first)
    (h : parseJoined token join operand n first tokens = .ok (e, rest)) :
    ∃ ts, read ++ tokens = ts ++ rest ∧ P ts e := by
  induction n generalizing first read tokens with
  | zero =>
      obtain ⟨rfl, rfl⟩ := Prod.mk.inj (Except.ok.inj h)
      exact ⟨read, rfl, hfirst⟩
  | succ n ih =>
      rw [parseJoined] at h
      split at h
      · rename_i hhead
        obtain ⟨⟨right, more⟩, hread, hmore⟩ := Fallible.bind_eq_ok.mp h
        obtain ⟨us, hus, hright⟩ := hoperand _ _ _ hread
        obtain ⟨ts, hts, he⟩ := ih (hjoin hfirst hright) hmore
        refine ⟨ts, ?_, he⟩
        rw [← hts, List.eq_cons_of_mem_head? hhead, hus]
        simp
      · obtain ⟨rfl, rfl⟩ := Prod.mk.inj (Except.ok.inj h)
        exact ⟨read, rfl, hfirst⟩

theorem parseAndExpression_sound {operand : Parser RunFilterExpr}
    (hoperand : Sound (Derives chrono .prim) operand) :
    Sound (Derives chrono .and) (parseAndExpression operand) := by
  intro tokens e rest h
  obtain ⟨⟨first, more⟩, hread, hmore⟩ := Fallible.bind_eq_ok.mp h
  obtain ⟨ts, rfl, hts⟩ := hoperand _ _ _ hread
  exact parseJoined_sound .and hoperand (.ofPrim hts) hmore

theorem parseOrExpression_sound (depth : Nat) : Sound (Derives chrono .or) (parseOrExpression chrono depth) := by
  induction depth with
  | zero =>
      intro tokens e rest h
      cases h
  | succ depth ih =>
      intro tokens e rest h
      have hoperand := parseAndExpression_sound (parsePrimaryExpression_sound ih)
      obtain ⟨⟨first, more⟩, hread, hmore⟩ := Fallible.bind_eq_ok.mp h
      obtain ⟨ts, rfl, hts⟩ := hoperand _ _ _ hread
      exact parseJoined_sound .or hoperand (.ofAnd hts) hmore

/-! Every round of a loop reads a token, so the fuel does not matter. -/

def Consumes (operand : Parser RunFilterExpr) : Prop :=
  ∀ tokens e rest, operand tokens = .ok (e, rest) → rest.length < tokens.length

theorem Sound.consumes {operand : Parser RunFilterExpr} (h : Sound (Derives chrono level) operand) :
    Consumes operand := by
  intro tokens e rest hread
  obtain ⟨ts, rfl, hts⟩ := h _ _ _ hread
  have := List.length_pos_iff.2 hts.ne_nil
  simpa using this

theorem parseJoined_congr {token : RunFilterToken} {join : RunFilterExpr → RunFilterExpr → RunFilterExpr}
    {operand operand' : Parser RunFilterExpr} (hconsumes : Consumes operand) {m : Nat}
    (hagree : ∀ ts : List RunFilterToken, ts.length ≤ m → operand ts = operand' ts) {n n' : Nat}
    {first : RunFilterExpr}
    {tokens : List RunFilterToken} (hm : tokens.length ≤ m) (hn : tokens.length ≤ n) (hn' : tokens.length ≤ n') :
    parseJoined token join operand n first tokens = parseJoined token join operand' n' first tokens := by
  induction n generalizing n' first tokens with
  | zero =>
      obtain rfl := List.length_eq_zero_iff.1 (Nat.le_zero.1 hn)
      cases n' with
      | zero => rfl
      | succ n' => simp [parseJoined]
  | succ n ih =>
      cases n' with
      | zero =>
          obtain rfl := List.length_eq_zero_iff.1 (Nat.le_zero.1 hn')
          simp [parseJoined]
      | succ n' =>
          have htail : tokens.tail.length ≤ m := by
            rw [List.length_tail]
            omega
          rw [parseJoined, parseJoined, ← hagree _ htail]
          split
          · cases hread : operand tokens.tail with
            | error err => rfl
            | ok read =>
                have hlt := hconsumes _ _ _ hread
                rw [List.length_tail] at hlt htail
                exact ih (by omega) (by omega) (by omega)
          · rfl

theorem parsePrimaryExpression_congr {inner inner' : Parser RunFilterExpr} {m : Nat}
    (hagree : ∀ ts : List RunFilterToken, ts.length ≤ m → inner ts = inner' ts) {ts : List RunFilterToken}
    (hts : ts.length ≤ m + 1) : parsePrimaryExpression chrono inner ts =
      parsePrimaryExpression chrono inner' ts := by
  rw [parsePrimaryExpression.eq_def, parsePrimaryExpression.eq_def]
  split
  · rename_i more
    rw [hagree more (Nat.le_of_succ_le_succ hts)]
  · rfl

theorem parseAndExpression_congr {operand operand' : Parser RunFilterExpr} (hconsumes : Consumes operand) {m : Nat}
    (hagree : ∀ ts : List RunFilterToken, ts.length ≤ m → operand ts = operand' ts) {ts : List RunFilterToken}
    (hts : ts.length ≤ m) : parseAndExpression operand ts = parseAndExpression operand' ts := by
  rw [parseAndExpression, parseAndExpression, ← hagree ts hts]
  cases hread : operand ts with
  | error err => rfl
  | ok read =>
      have hlt := hconsumes _ _ _ hread
      exact parseJoined_congr hconsumes hagree (by omega) (Nat.le_refl _) (Nat.le_refl _)

theorem primary_consumes (chrono : Chrono) (depth : Nat) :
    Consumes (parsePrimaryExpression chrono (parseOrExpression chrono depth)) :=
  (parsePrimaryExpression_sound (parseOrExpression_sound depth)).consumes

theorem conjunction_consumes (chrono : Chrono) (depth : Nat) :
    Consumes (parseAndExpression (parsePrimaryExpression chrono (parseOrExpression chrono depth))) :=
  (parseAndExpression_sound (parsePrimaryExpression_sound (parseOrExpression_sound depth))).consumes

theorem parseOrExpression_depth {depth depth' : Nat} {ts : List RunFilterToken} (h : ts.length ≤ depth)
    (h' : ts.length ≤ depth') : parseOrExpression chrono (depth + 1) ts =
      parseOrExpression chrono (depth' + 1) ts := by
  induction depth generalizing depth' ts with
  | zero =>
      obtain rfl := List.length_eq_zero_iff.1 (Nat.le_zero.1 h)
      rfl
  | succ depth ih =>
      have hprimary : ∀ us : List RunFilterToken, us.length ≤ ts.length →
          parsePrimaryExpression chrono (parseOrExpression chrono (depth + 1)) us =
            parsePrimaryExpression chrono (parseOrExpression chrono depth') us := by
        intro us hus
        cases us with
        | nil => rfl
        | cons u us =>
            rw [List.length_cons] at hus
            obtain ⟨depth', rfl⟩ := Nat.exists_eq_succ_of_ne_zero (show depth' ≠ 0 by omega)
            apply parsePrimaryExpression_congr _ (Nat.le_refl _)
            intro vs hvs
            exact ih (by omega) (by omega)
      have hagree : ∀ us : List RunFilterToken, us.length ≤ ts.length →
          parseAndExpression (parsePrimaryExpression chrono (parseOrExpression chrono (depth + 1))) us =
            parseAndExpression (parsePrimaryExpression chrono (parseOrExpression chrono depth')) us :=
        fun us hus => parseAndExpression_congr (primary_consumes chrono (depth + 1)) hprimary hus
      rw [parseOrExpression, parseOrExpression, ← hagree ts (Nat.le_refl _)]
      cases hread : parseAndExpression (parsePrimaryExpression chrono (parseOrExpression chrono (depth + 1))) ts with
      | error err => rfl
      | ok read =>
          have hlt := conjunction_consumes chrono (depth + 1) _ _ _ hread
          exact parseJoined_congr (conjunction_consumes chrono (depth + 1)) hagree (by omega) (Nat.le_refl _)
            (Nat.le_refl _)

/-! What is derived is read. -/

/-- How a level reads what is derived by it: up to its end, or up to where its
loop goes on. -/
def Reads (chrono : Chrono) : Level → List RunFilterToken → RunFilterExpr → Prop
  | .prim, ts, e => ∀ depth rest, ts.length ≤ depth →
      parsePrimaryExpression chrono (parseOrExpression chrono depth) (ts ++ rest) = .ok (e, rest)
  | .and, ts, e => ∀ depth rest, ts.length ≤ depth →
      parseAndExpression (parsePrimaryExpression chrono (parseOrExpression chrono depth)) (ts ++ rest) =
        parseJoined .and .and (parsePrimaryExpression chrono (parseOrExpression chrono depth)) rest.length e rest
  | .or, ts, e => ∀ depth rest, ts.length ≤ depth → rest.head? ≠ some .and →
      parseOrExpression chrono (depth + 1) (ts ++ rest) =
        parseJoined .or .or (parseAndExpression (parsePrimaryExpression chrono (parseOrExpression chrono depth)))
          rest.length e rest

theorem parseJoined_end {token : RunFilterToken} {join : RunFilterExpr → RunFilterExpr → RunFilterExpr}
    {operand : Parser RunFilterExpr} {n : Nat} {e : RunFilterExpr} {rest : List RunFilterToken}
    (h : rest.head? ≠ some token) : parseJoined token join operand n e rest = .ok (e, rest) := by
  cases n with
  | zero => rfl
  | succ n => rw [parseJoined, if_neg h]

theorem parseJoined_step {token : RunFilterToken} {join : RunFilterExpr → RunFilterExpr → RunFilterExpr}
    {operand : Parser RunFilterExpr} (hconsumes : Consumes operand) {e f : RunFilterExpr}
    {us rest : List RunFilterToken} (h : operand (us ++ rest) = .ok (f, rest)) :
    parseJoined token join operand (token :: us ++ rest).length e (token :: us ++ rest) =
      parseJoined token join operand rest.length (join e f) rest := by
  rw [List.cons_append, List.length_cons, parseJoined, List.head?_cons, if_pos rfl, List.tail_cons, bind_ok h]
  have hlt := hconsumes _ _ _ h
  exact parseJoined_congr hconsumes (fun _ _ => rfl) (Nat.le_refl rest.length) (by omega) (Nat.le_refl _)

theorem Derives.reads (h : Derives chrono level tokens e) : Reads chrono level tokens e := by
  induction h with
  | ofPrim h ih =>
      intro depth rest hdepth
      rw [parseAndExpression, bind_ok (ih depth rest hdepth)]
  | and left right ihl ihr =>
      intro depth rest hdepth
      rw [List.length_append, List.length_cons] at hdepth
      rw [List.append_assoc, ihl depth _ (by omega), parseJoined_step (primary_consumes chrono depth)
        (ihr depth rest (by omega))]
  | ofAnd h ih =>
      intro depth rest hdepth hrest
      have hread := ih depth rest hdepth
      rw [parseJoined_end hrest] at hread
      rw [parseOrExpression, bind_ok hread]
  | or left right ihl ihr =>
      intro depth rest hdepth hrest
      rw [List.length_append, List.length_cons] at hdepth
      have hread := ihr depth rest (by omega)
      rw [parseJoined_end hrest] at hread
      rw [List.append_assoc, ihl depth _ (by omega) (by simp), parseJoined_step (conjunction_consumes chrono depth)
        hread]
  | paren h ih =>
      intro depth rest hdepth
      rw [List.length_append, List.length_cons, List.length_singleton] at hdepth
      obtain ⟨depth, rfl⟩ := Nat.exists_eq_succ_of_ne_zero (show depth ≠ 0 by omega)
      have hread := ih depth (.rParen :: rest) (by omega) (by simp)
      rw [parseJoined_end (by simp)] at hread
      rw [List.append_assoc, List.singleton_append, List.cons_append, parsePrimaryExpression, bind_ok hread]
      rfl
  | condition htoken hbuild =>
      intro depth rest hdepth
      rcases htoken with rfl | rfl
      · simp [parsePrimaryExpression, parseConditionExpression, hbuild]
      · simp [parsePrimaryExpression, parseConditionExpression, hbuild]

/-- The parser accepts what the grammar derives, with the tree of the derivation,
and it is never short of fuel. -/
theorem parse_iff (chrono : Chrono) (tokens : List RunFilterToken) :
    (∀ e, parse chrono tokens = .ok e ↔ Derives chrono .or tokens e) ∧
      ∀ depth, tokens.length < depth →
        parseOrExpression chrono depth tokens = parseOrExpression chrono (tokens.length + 1) tokens := by
  refine ⟨fun e => ⟨fun h => ?_, fun h => ?_⟩, fun depth hdepth => ?_⟩
  · obtain ⟨⟨f, rest⟩, hread, hend⟩ := Fallible.bind_eq_ok.mp h
    obtain ⟨ts, rfl, hts⟩ := parseOrExpression_sound _ _ _ _ hread
    cases rest with
    | nil =>
        obtain rfl := Except.ok.inj hend
        simpa using hts
    | cons token rest => cases hend
  · have hread := h.reads tokens.length [] (Nat.le_refl _) (by simp)
    rw [List.append_nil] at hread
    rw [parse, bind_ok hread]
  · obtain ⟨depth, rfl⟩ := Nat.exists_eq_succ_of_ne_zero (show depth ≠ 0 by omega)
    exact parseOrExpression_depth (Nat.le_of_lt_succ hdepth) (Nat.le_refl _)

def noTimes : Chrono := ⟨fun _ => none, fun _ => none⟩

def onName (value : String) : RunFilterExpr := .condition ⟨.name, .eq, value⟩

def nameIs (value : String) : List RunFilterToken := [.identifier "name", .operator "=", .identifier value]

theorem parse_iff_binding :
    Derives noTimes .or (nameIs "a" ++ .or :: nameIs "b" ++ .and :: .lParen :: nameIs "c" ++ .or ::
        nameIs "d" ++ [.rParen])
        (.or (onName "a") (.and (onName "b") (.or (onName "c") (onName "d")))) ∧
      parseOrExpression noTimes 5 (nameIs "a") = parseOrExpression noTimes 4 (nameIs "a") :=
  ⟨((parse_iff noTimes _).1 _).1 (by decide +kernel), (parse_iff noTimes (nameIs "a")).2 5 (by decide)⟩

end MLRunX.FilterGrammar
