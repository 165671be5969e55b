import Mathlib.Logic.Function.Basic
import MLRunX.DiskSpool

namespace MLRunX.SpoolFiles

open DiskSpool Runs

structure File where
  text : List Char
  mtime : Nat
  deriving DecidableEq, Repr

inductive Extension
  | spool | pending | done
  deriving DecidableEq, Repr

/-- A spool file in memory, with what a flush under way has still to write. -/
structure OpenFile where
  process : Nat
  runId : String
  createdAt : Nat
  events : List Event
  writing : Option (List Char)
  deriving DecidableEq, Repr

/-- The directory, and the spool files of all processes that use it. A file name is
the number of a spool file and an extension. -/
structure State where
  disk : Path × Extension → Option File
  memory : Path → Option OpenFile
  next : Path

def State.empty : State := ⟨fun _ => none, fun _ => none, 0⟩

/-- Each step is one call to the file system, or is done under the lock of a spool file.
A process may end at any time, and a write may fail at any time. -/
inductive Op
  | create (process : Nat) (runId : String) (now : Nat)
  | append (path : Path) (event : Event)
  | openTemp (path : Path) (now : Nat)
  | write (path : Path) (count now : Nat)
  | replaceTemp (path : Path)
  | failWrite (path : Path)
  | crash (process : Nat)
  | markCompleted (path : Path)
  | cleanupOldFile (path : Path) (now : Nat)
  deriving DecidableEq, Repr

variable (dumps : (runId : String) → (createdAt : Nat) → List Event → List Char) (retentionHours : Nat)

def OpenFile.text (file : OpenFile) : List Char := dumps file.runId file.createdAt file.events

def State.put (s : State) (path : Path) (file : OpenFile) : State :=
  { s with memory := Function.update s.memory path (some file) }

def State.store (s : State) (path : Path) (extension : Extension) (file : Option File) : State :=
  { s with disk := Function.update s.disk (path, extension) file }

def State.rename (s : State) (path : Path) (source target : Extension) : State :=
  (s.store path target (s.disk (path, source))).store path source none

def append (path : Path) (event : Event) (s : State) : Bool × State :=
  match s.memory path with
  | some file => match file.writing with
      | none => (true, s.put path { file with events := file.events ++ [event] })
      | some _ => (false, s)
  | none => (false, s)

def openTemp (path : Path) (now : Nat) (s : State) : Bool × State :=
  match s.memory path with
  | some file => match file.writing with
      | none =>
          if file.events.isEmpty then (false, s)
          else (true, (s.put path { file with writing := some (file.text dumps) }).store path .pending
            (some ⟨[], now⟩))
      | some _ => (false, s)
  | none => (false, s)

def write (path : Path) (count now : Nat) (s : State) : Bool × State :=
  match s.memory path with
  | some file => match file.writing with
      | some rest => (true, (s.put path { file with writing := some (rest.drop count) }).store path .pending
          ((s.disk (path, .pending)).map (fun f => ⟨f.text ++ rest.take count, now⟩)))
      | none => (false, s)
  | none => (false, s)

def replaceTemp (path : Path) (s : State) : Bool × State :=
  match s.memory path with
  | some file => match file.writing with
      | some [] => (true, (s.put path { file with writing := none }).rename path .pending .spool)
      | _ => (false, s)
  | none => (false, s)

def failWrite (path : Path) (s : State) : Bool × State :=
  match s.memory path with
  | some file => (true, s.put path { file with writing := none })
  | none => (false, s)

def crash (process : Nat) (s : State) : State :=
  { s with memory := fun path => (s.memory path).filter (fun file => file.process != process) }

def markCompleted (path : Path) (s : State) : Bool × State :=
  if (s.disk (path, .spool)).isSome then (true, s.rename path .spool .done) else (false, s)

def cleanupOldFile (path : Path) (now : Nat) (s : State) : Bool × State :=
  if (s.disk (path, .done)).any (fun f => decide (f.mtime + retentionHours * 3600 < now)) then
    (true, s.store path .done none)
  else
    (false, s)

def step : Machine State Op Bool
  | s, .create process runId now =>
      (true, { s with
        memory := Function.update s.memory s.next (some ⟨process, runId, now, [], none⟩)
        next := s.next + 1 })
  | s, .append path event => append path event s
  | s, .openTemp path now => openTemp dumps path now s
  | s, .write path count now => write path count now s
  | s, .replaceTemp path => replaceTemp path s
  | s, .failWrite path => failWrite path s
  | s, .crash process => (true, crash process s)
  | s, .markCompleted path => markCompleted path s
  | s, .cleanupOldFile path now => cleanupOldFile retentionHours path now s

/-- What the directory has of a spool file: the copy that waits, or else the one that was sent. -/
def State.contents (s : State) (path : Path) : Option (List Char) :=
  ((s.disk (path, .spool)).or (s.disk (path, .done))).map File.text

def created (past : List (Op × Bool)) : List (String × Nat) :=
  past.filterMap fun
    | (.create _ runId now, _) => some (runId, now)
    | _ => none

def appended (past : List (Op × Bool)) (path : Path) : List Event :=
  past.filterMap fun
    | (.append p event, true) => if p = path then some event else none
    | _ => none

/-- A whole text: all of the events up to some point, and nothing else. -/
def Whole (names : List (String × Nat)) (events : Path → List Event) (path : Path) (text : List Char) : Prop :=
  ∃ runId createdAt es, names[path]? = some (runId, createdAt) ∧ es ≠ [] ∧ es <+: events path ∧
    text = dumps runId createdAt es

/-- A spool file in memory has all its events, what is written of a temporary file is
continued by what is not, and every other file is whole. -/
structure Sound (names : List (String × Nat)) (events : Path → List Event) (s : State) : Prop where
  next : s.next = names.length
  unused : ∀ path, s.next ≤ path → events path = []
  memory : ∀ path file, s.memory path = some file →
    names[path]? = some (file.runId, file.createdAt) ∧ file.events = events path
  writing : ∀ path file rest, s.memory path = some file → file.writing = some rest →
    file.events ≠ [] ∧ ∃ f, s.disk (path, .pending) = some f ∧ f.text ++ rest = file.text dumps
  whole : ∀ path extension f, extension ≠ .pending → s.disk (path, extension) = some f →
    Whole dumps names events path f.text

variable {dumps retentionHours} {names : List (String × Nat)} {events : Path → List Event} {s : State} {path : Path}

theorem sound_empty : Sound dumps [] (fun _ => []) State.empty :=
  ⟨rfl, fun _ _ => rfl, nofun, nofun, nofun⟩

theorem Sound.lt (h : Sound dumps names events s) {file : OpenFile} (hf : s.memory path = some file) :
    path < s.next := by
  rw [h.next]
  exact (List.getElem?_eq_some_iff.mp (h.memory path file hf).1).1

theorem Whole.later {names' : List (String × Nat)} {events' : Path → List Event} {text : List Char}
    (h : Whole dumps names events path text) (hn : names <+: names') (he : events path <+: events' path) :
    Whole dumps names' events' path text := by
  obtain ⟨runId, createdAt, es, hname, hne, hstart, rfl⟩ := h
  obtain ⟨more, rfl⟩ := hn
  refine ⟨runId, createdAt, es, ?_, hne, hstart.trans he, rfl⟩
  rw [List.getElem?_append_left (List.getElem?_eq_some_iff.mp hname).1, hname]

theorem sound_create (h : Sound dumps names events s) (process : Nat) (runId : String) (now : Nat) :
    Sound dumps (names ++ [(runId, now)]) events (step dumps retentionHours s (.create process runId now)).2 where
  next := by simp [step, h.next]
  unused p hp := h.unused p (Nat.le_of_succ_le hp)
  memory p file hf := by
    simp only [step, Function.update_apply] at hf
    split at hf
    · rename_i hp
      obtain rfl := Option.some.inj hf
      rw [hp, h.next, ← h.unused s.next le_rfl, h.next]
      exact ⟨by simp, rfl⟩
    · obtain ⟨hname, hevents⟩ := h.memory p file hf
      rw [List.getElem?_append_left (List.getElem?_eq_some_iff.mp hname).1]
      exact ⟨hname, hevents⟩
  writing p file rest hf hw := by
    simp only [step, Function.update_apply] at hf
    split at hf
    · obtain rfl := Option.some.inj hf
      exact absurd hw nofun
    · exact h.writing p file rest hf hw
  whole p extension f hx hf := (h.whole p extension f hx hf).later (List.prefix_append _ _) List.prefix_rfl

theorem sound_put (h : Sound dumps names events s) {file file' : OpenFile} (hf : s.memory path = some file)
    (events' : Path → List Event) (disk : Path × Extension → Option File)
    (hname : file'.runId = file.runId ∧ file'.createdAt = file.createdAt)
    (hevents : file'.events = events' path) (hmore : events path <+: events' path)
    (hothers : ∀ p, p ≠ path → events' p = events p)
    (hdisk : ∀ p extension, p ≠ path → disk (p, extension) = s.disk (p, extension))
    (hwriting : ∀ rest, file'.writing = some rest →
      file'.events ≠ [] ∧ ∃ f, disk (path, .pending) = some f ∧ f.text ++ rest = file'.text dumps)
    (hwhole : ∀ extension f, extension ≠ .pending → disk (path, extension) = some f →
      Whole dumps names events' path f.text) :
    Sound dumps names events' ⟨disk, Function.update s.memory path (some file'), s.next⟩ where
  next := h.next
  unused p hp := by
    have hne : p ≠ path := (Nat.lt_of_lt_of_le (h.lt hf) hp).ne'
    rw [hothers p hne]
    exact h.unused p hp
  memory p f hp := by
    simp only [Function.update_apply] at hp
    split at hp
    · rename_i heq
      obtain rfl := Option.some.inj hp
      rw [heq, hname.1, hname.2]
      exact ⟨(h.memory path file hf).1, hevents⟩
    · rename_i hne
      rw [hothers p hne]
      exact h.memory p f hp
  writing p f rest hp hw := by
    simp only [Function.update_apply] at hp
    split at hp
    · rename_i heq
      obtain rfl := Option.some.inj hp
      rw [heq]
      exact hwriting rest hw
    · rename_i hne
      simpa only [hdisk p .pending hne] using h.writing p f rest hp hw
  whole p extension f hx hp := by
    by_cases hne : p = path
    · subst hne
      exact hwhole extension f hx hp
    · simp only [hdisk p extension hne] at hp
      obtain ⟨runId, createdAt, es, hn, hnil, hstart, ht⟩ := h.whole p extension f hx hp
      exact ⟨runId, createdAt, es, hn, hnil, by rwa [hothers p hne], ht⟩

theorem sound_append (h : Sound dumps names events s) (path : Path) (event : Event) :
    Sound dumps names (fun p => events p ++ if (append path event s).1 = true ∧ path = p then [event] else [])
      (append path event s).2 := by
  cases hf : s.memory path with
  | none => simpa [append, hf] using h
  | some file =>
      cases hw : file.writing with
      | some rest => simpa [append, hf, hw] using h
      | none =>
          simp only [append, hf, hw, true_and]
          refine sound_put h hf _ s.disk ⟨rfl, rfl⟩ ?_ (List.prefix_append _ _) ?_ (fun _ _ _ => rfl) ?_ ?_
          · simp [(h.memory path file hf).2]
          · intro p hne
            simp [Ne.symm hne]
          · intro rest hrest
            exact absurd hrest nofun
          · intro extension f hx hp
            exact (h.whole path extension f hx hp).later List.prefix_rfl (List.prefix_append _ _)

theorem sound_openTemp (h : Sound dumps names events s) (path : Path) (now : Nat) :
    Sound dumps names events (openTemp dumps path now s).2 := by
  simp only [openTemp]
  split
  · rename_i file hf
    split
    · split
      · exact h
      · rename_i hne
        refine sound_put h hf events _ ⟨rfl, rfl⟩ (h.memory path file hf).2 List.prefix_rfl
          (fun _ _ => rfl) ?_ ?_ ?_
        · intro p extension hp
          simp [State.put, hp]
        · rintro rest ⟨⟩
          exact ⟨by simpa using hne, ⟨[], now⟩, by simp, rfl⟩
        · intro extension f hx hp
          exact h.whole path extension f hx (by simpa [State.put, hx] using hp)
    · exact h
  · exact h

theorem sound_write (h : Sound dumps names events s) (path : Path) (count now : Nat) :
    Sound dumps names events (write path count now s).2 := by
  simp only [write]
  split
  · rename_i file hf
    split
    · rename_i rest hw
      refine sound_put h hf events _ ⟨rfl, rfl⟩ (h.memory path file hf).2 List.prefix_rfl (fun _ _ => rfl) ?_ ?_ ?_
      · intro p extension hp
        simp [State.put, hp]
      · rintro _ ⟨⟩
        obtain ⟨hne, f, hd, ht⟩ := h.writing path file rest hf hw
        refine ⟨hne, ⟨f.text ++ rest.take count, now⟩, by simp [hd], ?_⟩
        rw [List.append_assoc, List.take_append_drop]
        exact ht
      · intro extension f hx hp
        exact h.whole path extension f hx (by simpa [State.put, hx] using hp)
    · exact h
  · exact h

theorem rename_source (s : State) (path : Path) {source target : Extension} :
    (s.rename path source target).disk (path, source) = none := by
  simp [State.rename, State.store]

theorem rename_target (s : State) (path : Path) {source target : Extension} (hne : target ≠ source) :
    (s.rename path source target).disk (path, target) = s.disk (path, source) := by
  simp [State.rename, State.store, hne]

theorem rename_other (s : State) (path : Path) {source target extension : Extension} {p : Path}
    (hs : (p, extension) ≠ (path, source)) (ht : (p, extension) ≠ (path, target)) :
    (s.rename path source target).disk (p, extension) = s.disk (p, extension) := by
  simp only [State.rename, State.store, Function.update_of_ne hs, Function.update_of_ne ht]

theorem text_of_written (h : Sound dumps names events s) {file : OpenFile} (hf : s.memory path = some file)
    (hw : file.writing = some []) :
    file.events ≠ [] ∧ (s.disk (path, .pending)).map File.text = some (file.text dumps) := by
  obtain ⟨hne, f, hd, ht⟩ := h.writing path file [] hf hw
  rw [List.append_nil] at ht
  exact ⟨hne, by rw [hd, Option.map_some, ht]⟩

theorem sound_replaceTemp (h : Sound dumps names events s) (path : Path) :
    Sound dumps names events (replaceTemp path s).2 := by
  simp only [replaceTemp]
  split
  · rename_i file hf
    split
    · rename_i hw
      obtain ⟨hname, hevents⟩ := h.memory path file hf
      obtain ⟨hne, htext⟩ := text_of_written h hf hw
      refine sound_put h hf events ((s.put path _).rename path .pending .spool).disk
        ⟨rfl, rfl⟩ hevents List.prefix_rfl
        (fun _ _ => rfl) ?_ ?_ ?_
      · intro p extension hp
        rw [rename_other _ _ (by simp [hp]) (by simp [hp])]
        rfl
      · intro rest hrest
        exact absurd hrest nofun
      · intro extension f hx hp
        cases extension with
        | pending => exact absurd rfl hx
        | done =>
            rw [rename_other _ _ (by simp) (by simp)] at hp
            exact h.whole path .done f hx hp
        | spool =>
            rw [rename_target _ _ (by simp)] at hp
            refine ⟨file.runId, file.createdAt, file.events, hname, hne, by rw [hevents], ?_⟩
            rw [show s.disk (path, .pending) = some f from hp, Option.map_some] at htext
            exact Option.some.inj htext
    · exact h
  · exact h

theorem sound_failWrite (h : Sound dumps names events s) (path : Path) :
    Sound dumps names events (failWrite path s).2 := by
  simp only [failWrite]
  split
  · rename_i file hf
    exact sound_put h hf events s.disk ⟨rfl, rfl⟩ (h.memory path file hf).2 List.prefix_rfl (fun _ _ => rfl)
      (fun _ _ _ => rfl) nofun (h.whole path)
  · exact h

theorem sound_crash (h : Sound dumps names events s) (process : Nat) :
    Sound dumps names events (crash process s) where
  next := h.next
  unused := h.unused
  memory p file hf := h.memory p file (Option.eq_some_of_filter_eq_some hf)
  writing p file rest hf hw := h.writing p file rest (Option.eq_some_of_filter_eq_some hf) hw
  whole := h.whole

theorem sound_disk (h : Sound dumps names events s) {disk : Path × Extension → Option File}
    (hpending : ∀ p, disk (p, .pending) = s.disk (p, .pending))
    (hwhole : ∀ p extension f, extension ≠ .pending → disk (p, extension) = some f →
      ∃ source, source ≠ .pending ∧ s.disk (p, source) = some f) :
    Sound dumps names events ⟨disk, s.memory, s.next⟩ where
  next := h.next
  unused := h.unused
  memory := h.memory
  writing p file rest hf hw := by
    simpa only [hpending p] using h.writing p file rest hf hw
  whole p extension f hx hp := by
    obtain ⟨source, hsource, hf⟩ := hwhole p extension f hx hp
    exact h.whole p source f hsource hf

theorem sound_markCompleted (h : Sound dumps names events s) (path : Path) :
    Sound dumps names events (markCompleted path s).2 := by
  simp only [markCompleted]
  split
  · refine sound_disk h (fun p => rename_other s path (by simp) (by simp)) ?_
    intro p extension f hx hp
    by_cases hne : p = path
    · subst hne
      cases extension with
      | pending => exact absurd rfl hx
      | spool => exact absurd ((rename_source s p).symm.trans hp) nofun
      | done => exact ⟨.spool, by simp, (rename_target s p (by simp)).symm.trans hp⟩
    · exact ⟨extension, hx, (rename_other s path (by simp [hne]) (by simp [hne])).symm.trans hp⟩
  · exact h

theorem sound_cleanupOldFile (h : Sound dumps names events s) (path : Path) (now : Nat) :
    Sound dumps names events (cleanupOldFile retentionHours path now s).2 := by
  simp only [cleanupOldFile]
  split
  · refine sound_disk h (fun p => Function.update_of_ne (by simp) _ _) ?_
    intro p extension f hx hp
    simp only [Function.update_apply] at hp
    split at hp
    · exact absurd hp nofun
    · exact ⟨extension, hx, hp⟩
  · exact h

theorem appended_concat (past : List (Op × Bool)) (op : Op) (out : Bool) (path : Path) :
    appended (past ++ [(op, out)]) path = appended past path ++ appended [(op, out)] path := by
  simp only [appended, List.filterMap_append]

theorem created_concat (past : List (Op × Bool)) (op : Op) (out : Bool) :
    created (past ++ [(op, out)]) = created past ++ created [(op, out)] := by
  simp only [created, List.filterMap_append]

theorem sound_kept {past : List (Op × Bool)} {op : Op} {out : Bool} (hcreated : created [(op, out)] = [])
    (happended : appended [(op, out)] = fun _ => []) (h : Sound dumps (created past) (appended past) s) :
    Sound dumps (created (past ++ [(op, out)])) (appended (past ++ [(op, out)])) s := by
  have hall : appended (past ++ [(op, out)]) = appended past := by
    funext p
    rw [appended_concat, happended, List.append_nil]
  rwa [created_concat, hcreated, List.append_nil, hall]

theorem appended_append (path : Path) (event : Event) (out : Bool) :
    appended [(.append path event, out)] = fun p => if out = true ∧ path = p then [event] else [] := by
  funext p
  cases out <;> by_cases h : path = p <;> simp [appended, h]

theorem sound_step {past : List (Op × Bool)} (h : Sound dumps (created past) (appended past) s) (op : Op) :
    Sound dumps (created (past ++ [(op, (step dumps retentionHours s op).1)]))
      (appended (past ++ [(op, (step dumps retentionHours s op).1)])) (step dumps retentionHours s op).2 := by
  cases op with
  | create process runId now =>
      have hall : appended (past ++ [(.create process runId now, true)]) = appended past := by
        funext p
        rw [appended_concat]
        exact List.append_nil _
      rw [created_concat]
      exact hall ▸ sound_create h process runId now
  | append path event =>
      rw [created_concat, funext (appended_concat past _ _), appended_append]
      exact (List.append_nil (created past)).symm ▸ sound_append h path event
  | openTemp path now => exact sound_kept rfl rfl (sound_openTemp h path now)
  | write path count now => exact sound_kept rfl rfl (sound_write h path count now)
  | replaceTemp path => exact sound_kept rfl rfl (sound_replaceTemp h path)
  | failWrite path => exact sound_kept rfl rfl (sound_failWrite h path)
  | crash process => exact sound_kept rfl rfl (sound_crash h process)
  | markCompleted path => exact sound_kept rfl rfl (sound_markCompleted h path)
  | cleanupOldFile path now => exact sound_kept rfl rfl (sound_cleanupOldFile h path now)

theorem sound_run (ops : List Op) :
    Sound dumps (created (history (step dumps retentionHours) State.empty ops))
      (appended (history (step dumps retentionHours) State.empty ops))
      (after (step dumps retentionHours) State.empty ops) := by
  have h := invariant_history (fun past s => Sound dumps (created past) (appended past) s)
    (fun past s op hs _ => sound_step hs op) [] State.empty ops sound_empty
    (guarded_true (step dumps retentionHours) [] State.empty ops)
  simpa using h

theorem contents_congr {s s' : State} (hspool : s'.disk (path, .spool) = s.disk (path, .spool))
    (hdone : s'.disk (path, .done) = s.disk (path, .done)) : s'.contents path = s.contents path := by
  rw [State.contents, State.contents, hspool, hdone]

theorem contents_rename_pending (s : State) (p : Path) :
    (s.rename p .pending .spool).contents path =
      if path = p then ((s.disk (p, .pending)).or (s.disk (p, .done))).map File.text else s.contents path := by
  split
  · rename_i hp
    subst hp
    rw [State.contents, rename_target s path (by simp), rename_other s path (by simp) (by simp)]
  · rename_i hp
    exact contents_congr (rename_other s p (by simp [hp]) (by simp [hp]))
      (rename_other s p (by simp [hp]) (by simp [hp]))

theorem contents_markCompleted (s : State) (p : Path) : (markCompleted p s).2.contents path = s.contents path := by
  simp only [markCompleted]
  split
  · rename_i hspool
    by_cases hp : path = p
    · subst hp
      obtain ⟨f, hf⟩ := Option.isSome_iff_exists.mp hspool
      rw [State.contents, State.contents, rename_source, rename_target s path (by simp), hf]
      rfl
    · exact contents_congr (rename_other s p (by simp [hp]) (by simp [hp]))
        (rename_other s p (by simp [hp]) (by simp [hp]))
  · rfl

variable (retentionHours) in
def Expired (s : State) (path : Path) : Op → Prop
  | .cleanupOldFile p now => p = path ∧ s.disk (path, .spool) = none ∧
      ∃ f, s.disk (path, .done) = some f ∧ f.mtime + retentionHours * 3600 < now
  | _ => False

theorem contents_cleanupOldFile (s : State) (p : Path) (now : Nat) :
    (step dumps retentionHours s (.cleanupOldFile p now)).2.contents path = s.contents path ∨
      Expired retentionHours s path (.cleanupOldFile p now) := by
  simp only [step, cleanupOldFile]
  split
  · rename_i hold
    by_cases hp : p = path
    · subst hp
      obtain ⟨f, hf, hlt⟩ := (Option.any_eq_true _ _).mp hold
      cases hspool : s.disk (p, .spool) with
      | none => exact .inr ⟨rfl, hspool, f, hf, of_decide_eq_true hlt⟩
      | some g =>
          have hkept : (s.store p .done none).disk (p, .spool) = some g :=
            (Function.update_of_ne (by simp) _ _).trans hspool
          exact .inl (by simp only [State.contents, hkept, hspool, Option.some_or])
    · exact .inl (contents_congr (Function.update_of_ne (by simp [Ne.symm hp]) _ _)
        (Function.update_of_ne (by simp [Ne.symm hp]) _ _))
  · exact .inl rfl

theorem contents_step (h : Sound dumps names events s) (op : Op) (path : Path) :
    (step dumps retentionHours s op).2.contents path = s.contents path ∨ Expired retentionHours s path op ∨
      ∃ file, s.memory path = some file ∧ file.events ≠ [] ∧ op = .replaceTemp path ∧
        (step dumps retentionHours s op).2.contents path = some (file.text dumps) := by
  cases op with
  | create process runId now => exact .inl rfl
  | append p event =>
      refine .inl (contents_congr ?_ ?_) <;> simp only [step, append] <;> split <;> (try split) <;> rfl
  | openTemp p now =>
      refine .inl (contents_congr ?_ ?_) <;> simp only [step, openTemp] <;> split <;> (try split) <;> (try split) <;>
        simp [State.store, State.put]
  | write p count now =>
      refine .inl (contents_congr ?_ ?_) <;> simp only [step, write] <;> split <;> (try split) <;>
        simp [State.store, State.put]
  | failWrite p => refine .inl (contents_congr ?_ ?_) <;> simp only [step, failWrite] <;> split <;> rfl
  | crash process => exact .inl rfl
  | markCompleted p => exact .inl (contents_markCompleted s p)
  | cleanupOldFile p now => exact (contents_cleanupOldFile s p now).imp_right .inl
  | replaceTemp p =>
      by_cases hp : p = path
      · subst hp
        simp only [step, replaceTemp]
        split
        · rename_i file hf
          split
          · rename_i hw
            obtain ⟨hne, htext⟩ := text_of_written h hf hw
            refine .inr (.inr ⟨file, hf, hne, trivial, ?_⟩)
            obtain ⟨f, hd, ht⟩ := Option.map_eq_some_iff.mp htext
            rw [contents_rename_pending, if_pos rfl, ← ht]
            simp only [State.put, hd, Option.some_or, Option.map_some]
          · exact .inl rfl
        · exact .inl rfl
      · refine .inl ?_
        simp only [step, replaceTemp]
        split
        · split
          · rw [contents_rename_pending, if_neg (Ne.symm hp)]
            rfl
          · rfl
        · rfl

variable (dumps retentionHours) in
/-- The directory has all of these events of a spool file, and perhaps later ones, unless
its copy was removed after it was sent. -/
def Kept (s : State) (ops : List Op) (path : Path) (runId : String) (createdAt : Nat) (es : List Event) : Prop :=
  (∃ es', es <+: es' ∧ (after (step dumps retentionHours) s ops).contents path =
    some (dumps runId createdAt es')) ∨
    ∃ kept op rest, ops = kept ++ op :: rest ∧
      Expired retentionHours (after (step dumps retentionHours) s kept) path op

theorem Kept.cons {op : Op} {ops : List Op} {runId : String} {createdAt : Nat} {es es' : List Event}
    (h : Kept dumps retentionHours (step dumps retentionHours s op).2 ops path runId createdAt es')
    (hstart : es <+: es') : Kept dumps retentionHours s (op :: ops) path runId createdAt es := by
  rcases h with ⟨es'', hmore, hlast⟩ | ⟨kept, last, rest, rfl, hx⟩
  · exact .inl ⟨es'', hstart.trans hmore, hlast⟩
  · exact .inr ⟨op :: kept, last, rest, rfl, hx⟩

theorem kept_after {past : List (Op × Bool)} (h : Sound dumps (created past) (appended past) s) (ops : List Op)
    {runId : String} {createdAt : Nat} {es : List Event} (hname : (created past)[path]? = some (runId, createdAt))
    (hes : es <+: appended past path) (hc : s.contents path = some (dumps runId createdAt es)) :
    Kept dumps retentionHours s ops path runId createdAt es := by
  induction ops generalizing past s es with
  | nil => exact .inl ⟨es, List.prefix_rfl, hc⟩
  | cons op ops ih =>
      have hnext := @sound_step dumps retentionHours s past h op
      have hname' : (created (past ++ [(op, (step dumps retentionHours s op).1)]))[path]? =
          some (runId, createdAt) := by
        rw [created_concat, List.getElem?_append_left (List.getElem?_eq_some_iff.mp hname).1, hname]
      have hgrow : appended past path <+: appended (past ++ [(op, (step dumps retentionHours s op).1)]) path := by
        rw [appended_concat]
        exact List.prefix_append _ _
      rcases contents_step h op path with hsame | hx | ⟨file, hf, -, -, htext⟩
      · exact (ih hnext hname' (hes.trans hgrow) (hsame.trans hc)).cons List.prefix_rfl
      · exact .inr ⟨[], op, ops, rfl, hx⟩
      · obtain ⟨hfile, hevents⟩ := h.memory path file hf
        obtain ⟨hrun, htime⟩ := Prod.mk.inj (Option.some.inj (hfile.symm.trans hname))
        rw [OpenFile.text, hrun, htime, hevents] at htext
        exact (ih hnext hname' hgrow htext).cons hes

/-- Whatever fails and whenever a process ends, a file that is read or was sent is whole, and
what is in it stays in the directory until long after it was sent. -/
theorem contents_run (before later : List Op) (path : Path) (text : List Char)
    (h : (after (step dumps retentionHours) State.empty before).contents path = some text) :
    ∃ runId createdAt es,
      (created (history (step dumps retentionHours) State.empty before))[path]? = some (runId, createdAt) ∧
        es ≠ [] ∧ es <+: appended (history (step dumps retentionHours) State.empty before) path ∧
        text = dumps runId createdAt es ∧
        Kept dumps retentionHours (after (step dumps retentionHours) State.empty before) later path runId
          createdAt es := by
  have hs := @sound_run dumps retentionHours before
  obtain ⟨f, hf, rfl⟩ := Option.map_eq_some_iff.mp h
  have hwhole : ∃ extension, extension ≠ .pending ∧
      (after (step dumps retentionHours) State.empty before).disk (path, extension) = some f := by
    rcases Option.or_eq_some_iff.mp hf with hspool | ⟨-, hdone⟩
    · exact ⟨.spool, by simp, hspool⟩
    · exact ⟨.done, by simp, hdone⟩
  obtain ⟨extension, hx, hdisk⟩ := hwhole
  obtain ⟨runId, createdAt, es, hname, hne, hes, htext⟩ := hs.whole path extension f hx hdisk
  exact ⟨runId, createdAt, es, hname, hne, hes, htext, kept_after hs later hname hes (htext ▸ h)⟩

def plainDump (runId : String) (createdAt : Nat) (es : List Event) : List Char :=
  "\x7b\"version\": 1, \"run_id\": \"".toList ++ runId.toList ++ "\", \"created_at\": ".toList ++
    Nat.toDigits 10 createdAt ++
    ".0, \"events\": [".toList ++ (", ".toList).intercalate (es.map (fun e =>
      "\x7b\"type\": \"metric\", \"run_id\": \"".toList ++ e.runId.toList ++ "\", \"timestamp\": ".toList ++
        Nat.toDigits 10 e.timestamp ++ ".0, \"data\": ".toList ++ e.data.toList ++ "\x7d".toList)) ++ "]\x7d".toList

def cutOffFlush : List Op :=
  [.create 0 "run-1" 5, .append 0 ⟨.metric, "run-1", 6, "\x7b\"loss\": 1\x7d"⟩, .openTemp 0 7, .write 0 500 7,
    .replaceTemp 0, .append 0 ⟨.metric, "run-1", 8, "\x7b\"loss\": 2\x7d"⟩, .openTemp 0 9, .write 0 20 9, .crash 0]

theorem contents_run_cutOff :
    ∃ runId createdAt es,
      (created (history (step plainDump 72) State.empty cutOffFlush))[0]? = some (runId, createdAt) ∧
        es ≠ [] ∧ es <+: appended (history (step plainDump 72) State.empty cutOffFlush) 0 ∧
        plainDump "run-1" 5 [⟨.metric, "run-1", 6, "\x7b\"loss\": 1\x7d"⟩] = plainDump runId createdAt es ∧
        Kept plainDump 72 (after (step plainDump 72) State.empty cutOffFlush) [.markCompleted 0,
          .cleanupOldFile 0 300000]
          0 runId createdAt es :=
  contents_run cutOffFlush [.markCompleted 0, .cleanupOldFile 0 300000] 0 _ (by decide +kernel)

theorem replaceTemp_true (h : (replaceTemp path s).1 = true) :
    ∃ file, s.memory path = some file ∧ file.writing = some [] := by
  simp only [replaceTemp] at h
  split at h
  · rename_i file hf
    split at h
    · rename_i hw
      exact ⟨file, hf, hw⟩
    · exact absurd h nofun
  · exact absurd h nofun

theorem replaceTemp_written {file : OpenFile} (hf : s.memory path = some file) (hw : file.writing = some []) :
    replaceTemp path s = (true, (s.put path { file with writing := none }).rename path .pending .spool) := by
  simp only [replaceTemp, hf, hw]

/-- All events before a flush that came to its end are in the directory from then on. -/
theorem flushed_run (before later : List Op) (path : Path)
    (h : (replaceTemp path (after (step dumps retentionHours) State.empty before)).1 = true) :
    ∃ runId createdAt,
      (created (history (step dumps retentionHours) State.empty before))[path]? = some (runId, createdAt) ∧
        Kept dumps retentionHours (after (step dumps retentionHours) State.empty (before ++ [.replaceTemp path])) later
          path runId createdAt (appended (history (step dumps retentionHours) State.empty before) path) := by
  obtain ⟨file, hf, hw⟩ := replaceTemp_true h
  have hs := @sound_run dumps retentionHours before
  obtain ⟨hname, hevents⟩ := hs.memory path file hf
  obtain ⟨-, htext⟩ := text_of_written hs hf hw
  refine ⟨file.runId, file.createdAt, hname, ?_⟩
  have hlast := @sound_run dumps retentionHours (before ++ [.replaceTemp path])
  refine kept_after hlast later ?_ ?_ ?_
  · rw [history_append]
    exact (congrArg (·[path]?) (created_concat _ _ _)).trans ((congrArg (·[path]?) (List.append_nil _)).trans hname)
  · rw [history_append]
    exact (appended_concat _ _ _ path).symm ▸ List.prefix_append _ _
  · obtain ⟨f, hd, ht⟩ := Option.map_eq_some_iff.mp htext
    rw [after_concat, step, replaceTemp_written hf hw, contents_rename_pending, if_pos rfl, ← hevents]
    simp only [State.put, hd, Option.some_or, Option.map_some, ht, OpenFile.text]

theorem flushed_run_cutOff :
    ∃ runId createdAt,
      (created (history (step plainDump 72) State.empty (cutOffFlush.take 4)))[0]? = some (runId, createdAt) ∧
        Kept plainDump 72 (after (step plainDump 72) State.empty (cutOffFlush.take 4 ++ [.replaceTemp 0]))
          (cutOffFlush.drop 5) 0 runId createdAt
          (appended (history (step plainDump 72) State.empty (cutOffFlush.take 4)) 0) :=
  flushed_run (cutOffFlush.take 4) (cutOffFlush.drop 5) 0 (by decide +kernel)

variable (dumps) in
/-- The directory as the readers of spool files see it, without the temporary files. -/
def Mirrors (names : List (String × Nat)) (s : State) (dir : SpoolDir) : Prop :=
  (∀ path, Option.Rel (fun f es => ∃ runId createdAt, names[path]? = some (runId, createdAt) ∧
      f.text = dumps runId createdAt es) (s.disk (path, .spool)) (dir.pending.lookup path)) ∧
    ∀ path, (s.disk (path, .done)).isSome → path ∈ dir.completed

/-- What a step is for the readers: the end of a flush, a file marked as synced, or nothing. -/
def mirror (s : State) (dir : SpoolDir) : Op → SpoolDir
  | .replaceTemp path => match s.memory path with
      | some file =>
          if (replaceTemp path s).1 then (SpoolFile.mk path file.runId file.events 0).flush dir else dir
      | none => dir
  | .markCompleted path => if (markCompleted path s).1 then markSynced path dir else dir
  | _ => dir

variable (dumps retentionHours) in
def mirrored (s : State) (dir : SpoolDir) : List Op → SpoolDir
  | [] => dir
  | op :: ops => mirrored (step dumps retentionHours s op).2 (mirror s dir op) ops

theorem lookup_cons_ite (p q : Path) (es : List Event) (pending : List (Path × List Event)) :
    ((q, es) :: pending).lookup p = if p = q then some es else pending.lookup p := by
  rw [List.lookup_cons]
  by_cases hp : p = q
  · simp [hp]
  · rw [if_neg hp, beq_eq_false_iff_ne.mpr hp]

theorem lookup_filter_ne (pending : List (Path × List Event)) (path p : Path) :
    (pending.filter (fun entry => entry.1 != path)).lookup p = if p = path then none else pending.lookup p := by
  induction pending with
  | nil => simp
  | cons entry pending ih =>
      obtain ⟨q, es⟩ := entry
      by_cases hq : q = path
      · rw [List.filter_cons_of_neg (by simp [hq]), ih, lookup_cons_ite, hq]
        split <;> rfl
      · rw [List.filter_cons_of_pos (by simp [hq]), lookup_cons_ite, lookup_cons_ite, ih]
        by_cases hp : p = q
        · rw [if_pos hp, if_pos hp, if_neg (hp ▸ hq)]
        · rw [if_neg hp, if_neg hp]

theorem lookup_flush {file : SpoolFile} (hne : file.events ≠ []) (dir : SpoolDir) (p : Path) :
    (file.flush dir).pending.lookup p = if p = file.path then some file.events else dir.pending.lookup p := by
  rw [SpoolFile.flush, if_neg (by simpa using hne)]
  simp only [List.lookup_append, lookup_filter_ne, lookup_cons_ite, List.lookup_nil]
  by_cases hp : p = file.path <;> simp [hp]

theorem Mirrors.kept {s' : State} {dir : SpoolDir} (h : Mirrors dumps names s dir)
    (hspool : ∀ p, s'.disk (p, .spool) = s.disk (p, .spool))
    (hdone : ∀ p, (s'.disk (p, .done)).isSome → (s.disk (p, .done)).isSome) : Mirrors dumps names s' dir :=
  ⟨fun p => (hspool p).symm ▸ h.1 p, fun p hp => h.2 p (hdone p hp)⟩

theorem mirrors_replaceTemp (h : Sound dumps names events s) {dir : SpoolDir} (hm : Mirrors dumps names s dir)
    (path : Path) : Mirrors dumps names (replaceTemp path s).2 (mirror s dir (.replaceTemp path)) := by
  by_cases hdone : (replaceTemp path s).1 = true
  · obtain ⟨file, hf, hw⟩ := replaceTemp_true hdone
    obtain ⟨hname, hevents⟩ := h.memory path file hf
    obtain ⟨hne, htext⟩ := text_of_written h hf hw
    simp only [mirror, hf, hdone, if_true]
    rw [replaceTemp_written hf hw]
    constructor
    · intro p
      rw [lookup_flush hne]
      by_cases hp : p = path
      · subst hp
        rw [rename_target _ _ (by simp), if_pos rfl]
        obtain ⟨f, hd, ht⟩ := Option.map_eq_some_iff.mp htext
        exact (show s.disk (p, .pending) = some f from hd).symm ▸ .some ⟨_, _, hname, ht⟩
      · rw [rename_other _ _ (by simp [hp]) (by simp [hp]), if_neg hp]
        exact hm.1 p
    · intro p hp
      rw [flush_completed]
      exact hm.2 p (by rwa [rename_other _ _ (by simp) (by simp)] at hp)
  · have hsame : (replaceTemp path s).2 = s ∧ mirror s dir (.replaceTemp path) = dir := by
      simp only [mirror, if_neg hdone]
      refine ⟨?_, by split <;> rfl⟩
      simp only [replaceTemp] at hdone ⊢
      split at hdone
      · split at hdone
        · exact absurd rfl hdone
        · rfl
      · rfl
    rw [hsame.1, hsame.2]
    exact hm

theorem mirrors_markCompleted {dir : SpoolDir} (hm : Mirrors dumps names s dir) (path : Path) :
    Mirrors dumps names (markCompleted path s).2 (mirror s dir (.markCompleted path)) := by
  simp only [mirror, markCompleted]
  split
  · rename_i hspool
    simp only [if_true]
    constructor
    · intro p
      rw [markSynced, lookup_filter_ne]
      by_cases hp : p = path
      · rw [hp, rename_source, if_pos rfl]
        exact .none
      · rw [rename_other _ _ (by simp [hp]) (by simp [hp]), if_neg hp]
        exact hm.1 p
    · intro p hdone
      rw [markSynced, List.mem_append, List.mem_singleton]
      by_cases hp : p = path
      · exact .inr hp
      · rw [rename_other _ _ (by simp [hp]) (by simp [hp])] at hdone
        exact .inl (hm.2 p hdone)
  · exact hm

theorem Mirrors.later {names' : List (String × Nat)} {dir : SpoolDir} (h : Mirrors dumps names s dir)
    (hn : names <+: names') : Mirrors dumps names' s dir := by
  obtain ⟨more, rfl⟩ := hn
  refine ⟨fun p => ?_, h.2⟩
  have hp := h.1 p
  generalize s.disk (p, .spool) = f, dir.pending.lookup p = es at hp
  cases hp with
  | none => exact .none
  | some hd =>
      obtain ⟨runId, createdAt, hname, htext⟩ := hd
      exact .some ⟨runId, createdAt, (List.getElem?_append_left (List.getElem?_eq_some_iff.mp hname).1).trans hname,
        htext⟩

theorem mirrors_step (h : Sound dumps names events s) {dir : SpoolDir} (hm : Mirrors dumps names s dir) (op : Op) :
    Mirrors dumps names (step dumps retentionHours s op).2 (mirror s dir op) := by
  cases op with
  | create process runId now => exact hm
  | append p event =>
      refine hm.kept (fun q => ?_) (fun q => ?_) <;> simp only [step, append] <;> split <;> (try split) <;>
        first | rfl | exact id
  | openTemp p now =>
      refine hm.kept (fun q => ?_) (fun q => ?_) <;> simp only [step, openTemp] <;> split <;> (try split) <;>
        (try split) <;> simp [State.store, State.put]
  | write p count now =>
      refine hm.kept (fun q => ?_) (fun q => ?_) <;> simp only [step, write] <;> split <;> (try split) <;>
        simp [State.store, State.put]
  | failWrite p =>
      refine hm.kept (fun q => ?_) (fun q => ?_) <;> simp only [step, failWrite] <;> split <;> first | rfl | exact id
  | crash process => exact hm
  | markCompleted p => exact mirrors_markCompleted hm p
  | replaceTemp p => exact mirrors_replaceTemp h hm p
  | cleanupOldFile p now =>
      simp only [step, cleanupOldFile]
      split
      · refine hm.kept (fun q => ?_) (fun q hq => ?_)
        · exact Function.update_of_ne (by simp) _ _
        · by_cases hp : q = p
          · simp [State.store, hp] at hq
          · simpa [State.store, hp] using hq
      · exact hm

theorem mirrors_after {past : List (Op × Bool)} (h : Sound dumps (created past) (appended past) s) {dir : SpoolDir}
    (hm : Mirrors dumps (created past) s dir) (ops : List Op) :
    Mirrors dumps (created (past ++ history (step dumps retentionHours) s ops))
      (after (step dumps retentionHours) s ops) (mirrored dumps retentionHours s dir ops) := by
  induction ops generalizing past s dir with
  | nil => simpa [history, mirrored] using hm
  | cons op ops ih =>
      have hlater : created past <+: created (past ++ [(op, (step dumps retentionHours s op).1)]) := by
        rw [created_concat]
        exact List.prefix_append _ _
      have hnext := ih (sound_step h op) ((mirrors_step h hm op).later hlater)
      rwa [List.append_assoc, List.singleton_append] at hnext

/-- For the readers of the directory a flush is one step, at whatever step it fails or its
process ends. -/
theorem mirrors_run (ops : List Op) :
    Mirrors dumps (created (history (step dumps retentionHours) State.empty ops))
      (after (step dumps retentionHours) State.empty ops)
        (mirrored dumps retentionHours State.empty ⟨[], []⟩ ops) := by
  have hm : Mirrors dumps (created []) State.empty ⟨[], []⟩ := ⟨fun _ => .none, nofun⟩
  simpa using mirrors_after (show Sound dumps (created []) (appended []) State.empty from sound_empty) hm ops

end MLRunX.SpoolFiles
