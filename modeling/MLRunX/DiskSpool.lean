import Mathlib.Algebra.BigOperators.Group.Finset.Piecewise
import Mathlib.Algebra.GroupWithZero.Nat
import Mathlib.Algebra.Order.BigOperators.Group.Finset
import Mathlib.Data.List.Nodup
import MLRunX.Runs

namespace MLRunX.DiskSpool

open Runs

inductive EventType
  | metric | param | tag | event | artifact | runStart | runFinish
  deriving DecidableEq, Repr

/-- An event of the SDK. Its data is kept as the text it is written as. -/
structure Event where
  type : EventType
  runId : String
  timestamp : Nat
  data : String
  deriving DecidableEq, Repr

abbrev Path := Nat

structure SpoolFile where
  path : Path
  runId : String
  events : List Event
  sizeBytes : Nat
  deriving DecidableEq, Repr

/-- The files of the directory: those that wait, oldest first, and the names of
those that were marked as synced. -/
structure SpoolDir where
  pending : List (Path × List Event)
  completed : List Path
  deriving DecidableEq, Repr

/-- The limits, and how long an event and a file are once written. -/
structure SpoolConfig where
  maxFileSizeBytes : Nat
  maxTotalSizeBytes : Nat
  eventLength : Event → Nat
  fileLength : List Event → Nat

structure Spool where
  dir : SpoolDir
  activeFiles : List SpoolFile
  pendingBytes : Nat
  nextPath : Path

def Spool.empty : Spool := ⟨⟨[], []⟩, [], 0, 0⟩

variable (config : SpoolConfig)

def SpoolFile.append (file : SpoolFile) (event : Event) : SpoolFile :=
  { file with events := file.events ++ [event], sizeBytes := file.sizeBytes + config.eventLength event }

def SpoolFile.flush (file : SpoolFile) (dir : SpoolDir) : SpoolDir :=
  if file.events.isEmpty then dir
  else { dir with
    pending := dir.pending.filter (fun entry => entry.1 != file.path) ++ [(file.path, file.events)] }

def getOrCreateSpoolFile (runId : String) (s : Spool) : SpoolFile × Spool :=
  match s.activeFiles.find? (fun file => file.runId == runId) with
  | some file => (file, s)
  | none =>
      let file : SpoolFile := ⟨s.nextPath, runId, [], 0⟩
      (file, { s with activeFiles := s.activeFiles ++ [file], nextPath := s.nextPath + 1 })

def spool (event : Event) (s : Spool) : Bool × Spool :=
  if config.maxTotalSizeBytes ≤ s.pendingBytes then
    (false, s)
  else
    let (found, s) := getOrCreateSpoolFile event.runId s
    let file := found.append config event
    if config.maxFileSizeBytes ≤ file.sizeBytes then
      (true, { s with
        dir := file.flush s.dir
        activeFiles := s.activeFiles.filter (fun f => f.runId != event.runId) })
    else
      (true, { s with
        activeFiles := s.activeFiles.map (fun f => if f.runId == event.runId then file else f) })

def flushAll (s : Spool) : Spool :=
  { s with dir := s.activeFiles.foldl (fun dir file => file.flush dir) s.dir }

def updateStats (s : Spool) : Spool :=
  { s with pendingBytes := (s.dir.pending.map (fun entry => config.fileLength entry.2)).sum }

def markSynced (path : Path) (dir : SpoolDir) : SpoolDir where
  pending := dir.pending.filter (fun entry => entry.1 != path)
  completed := dir.completed ++ [path]

/-- How the visit of one file ends: the send reports success or failure, or an exception is
caught and the pass goes on. It may arise behind a successful send, when the file is marked. -/
inductive SendOutcome
  | success | failure
  | raised (sent : Bool)
  deriving DecidableEq, Repr

/-- One pass over the files that were pending at its start. The list of
outcomes ends early when the syncer is asked to stop. The first component is
what was sent with success. -/
def syncFiles : List SendOutcome → List (Path × List Event) → SpoolDir →
    List (Path × List Event) × SpoolDir
  | outcome :: outcomes, (path, events) :: files, dir =>
      match outcome with
      | .success =>
          let r := syncFiles outcomes files (markSynced path dir)
          (if events.isEmpty then r.1 else (path, events) :: r.1, r.2)
      | .failure => if events.isEmpty then syncFiles outcomes files (markSynced path dir) else ([], dir)
      | .raised sent =>
          let r := syncFiles outcomes files dir
          (if sent && !events.isEmpty then (path, events) :: r.1 else r.1, r.2)
  | _, _, dir => ([], dir)

def syncPending (outcomes : List SendOutcome) (s : Spool) : List (Path × List Event) × Spool :=
  let r := syncFiles outcomes s.dir.pending s.dir
  (r.1, { s with dir := r.2 })

inductive Op
  | spool (event : Event)
  | flushAll
  | updateStats
  | syncPending (outcomes : List SendOutcome)

inductive Reply
  | spooled (accepted : Bool)
  | flushed
  | updated
  | synced (sent : List (Path × List Event))
  deriving DecidableEq, Repr

def step : Machine Spool Op Reply
  | s, .spool event =>
      let r := spool config event s
      (.spooled r.1, r.2)
  | s, .flushAll => (.flushed, flushAll s)
  | s, .updateStats => (.updated, updateStats config s)
  | s, .syncPending outcomes =>
      let r := syncPending outcomes s
      (.synced r.1, r.2)

def spooledEvents (past : List (Op × Reply)) : List Event :=
  past.filterMap fun
    | (.spool event, .spooled true) => some event
    | _ => none

def sentFiles (past : List (Op × Reply)) : List (Path × List Event) :=
  past.flatMap fun
    | (_, .synced sent) => sent
    | _ => []

/-- Every event is in no more sent contents than it was spooled times. -/
def NoDoubleUpload (past : List (Op × Reply)) : Prop :=
  ∀ event, ((sentFiles past).map (fun file => file.2.count event)).sum ≤ (spooledEvents past).count event

/-- No flush reaches a file in memory whose file on disk was already synced, and no file that
was sent with success fails to be marked. -/
def FreshFlush (_ : List (Op × Reply)) (s : Spool) : Op → Prop
  | .spool event => ∀ file ∈ s.activeFiles, file.runId = event.runId →
      config.maxFileSizeBytes ≤ (file.append config event).sizeBytes → file.path ∉ s.dir.completed
  | .flushAll => ∀ file ∈ s.activeFiles, file.path ∉ s.dir.completed
  | .updateStats => True
  | .syncPending outcomes => .raised true ∉ outcomes

instance (past : List (Op × Reply)) (s : Spool) (op : Op) : Decidable (FreshFlush config past s op) := by
  cases op <;> unfold FreshFlush <;> infer_instance

variable {config}

theorem flush_completed (file : SpoolFile) (dir : SpoolDir) : (file.flush dir).completed = dir.completed := by
  simp only [SpoolFile.flush]
  split <;> rfl

theorem flush_pending {file : SpoolFile} {dir : SpoolDir} {entry : Path × List Event}
    (h : entry ∈ (file.flush dir).pending) : entry ∈ dir.pending ∨ entry = (file.path, file.events) := by
  simp only [SpoolFile.flush] at h
  split at h
  · exact .inl h
  · rw [List.mem_append, List.mem_singleton] at h
    exact h.imp_left (fun hm => (List.mem_filter.mp hm).1)

theorem flush_nodup (file : SpoolFile) {dir : SpoolDir} (h : (dir.pending.map Prod.fst).Nodup) :
    ((file.flush dir).pending.map Prod.fst).Nodup := by
  simp only [SpoolFile.flush]
  split
  · exact h
  · rw [List.map_append, List.nodup_append]
    refine ⟨h.sublist (List.filter_sublist.map _), List.nodup_singleton _, ?_⟩
    intro a ha b hb
    simp only [List.mem_map, List.mem_filter, bne_iff_ne] at ha
    obtain ⟨entry, ⟨-, hne⟩, rfl⟩ := ha
    rw [List.mem_singleton.mp hb]
    exact hne

def Spool.Holds (s : Spool) (e : Event) : Prop :=
  (∃ entry ∈ s.dir.pending, e ∈ entry.2) ∨ ∃ file ∈ s.activeFiles, e ∈ file.events

theorem holds_of_flush {file : SpoolFile} {dir : SpoolDir} {active : List SpoolFile} {bytes next : Nat}
    {e : Event} (h : (Spool.mk (file.flush dir) active bytes next).Holds e) :
    (Spool.mk dir active bytes next).Holds e ∨ e ∈ file.events := by
  rcases h with ⟨entry, hm, he⟩ | hact
  · rcases flush_pending hm with hm | rfl
    · exact .inl (.inl ⟨entry, hm, he⟩)
    · exact .inr he
  · exact .inl (.inr hact)

theorem holds_flushAll {s : Spool} {e : Event} (h : (flushAll s).Holds e) : s.Holds e := by
  have hfold : ∀ (files : List SpoolFile) (dir : SpoolDir), (∀ file ∈ files, file ∈ s.activeFiles) →
      (Spool.mk (files.foldl (fun dir file => file.flush dir) dir) s.activeFiles s.pendingBytes
        s.nextPath).Holds e →
      (Spool.mk dir s.activeFiles s.pendingBytes s.nextPath).Holds e := by
    intro files
    induction files with
    | nil => exact fun _ _ h => h
    | cons file files ih =>
        intro dir hsub h
        rcases holds_of_flush (ih (file.flush dir) (fun f hf => hsub f (List.mem_cons_of_mem _ hf)) h) with h | he
        · exact h
        · exact .inr ⟨file, hsub file List.mem_cons_self, he⟩
  exact hfold s.activeFiles s.dir (fun _ hf => hf) h

theorem holds_spool {s : Spool} {event e : Event} (h : (spool config event s).2.Holds e) :
    s.Holds e ∨ e = event := by
  have hfile : ∀ e ∈ ((getOrCreateSpoolFile event.runId s).1.append config event).events, s.Holds e ∨
      e = event := by
    intro e he
    rw [SpoolFile.append, List.mem_append, List.mem_singleton] at he
    refine he.imp_left (fun he => ?_)
    simp only [getOrCreateSpoolFile] at he
    split at he
    · rename_i hf
      exact .inr ⟨_, List.mem_of_find?_eq_some hf, he⟩
    · cases he
  have hget : (getOrCreateSpoolFile event.runId s).2.Holds e → s.Holds e := by
    simp only [getOrCreateSpoolFile]
    split
    · exact id
    · rintro (hd | ⟨file, hm, he⟩)
      · exact .inl hd
      · rcases List.mem_append.mp hm with hm | hm
        · exact .inr ⟨file, hm, he⟩
        · rw [List.mem_singleton.mp hm] at he
          cases he
  simp only [spool] at h
  split at h
  · exact .inl h
  split at h
  · rcases holds_of_flush h with h | he
    · refine .inl (hget ?_)
      rcases h with hd | ⟨file, hm, he⟩
      · exact .inl hd
      · exact .inr ⟨file, (List.mem_filter.mp hm).1, he⟩
    · exact hfile e he
  · rcases h with hd | ⟨file, hm, he⟩
    · exact .inl (hget (.inl hd))
    · obtain ⟨file₀, hm₀, rfl⟩ := List.mem_map.mp hm
      split at he
      · exact hfile e he
      · exact .inl (hget (.inr ⟨file₀, hm₀, he⟩))

structure SyncSpec (files sent : List (Path × List Event)) (dir dir' : SpoolDir) : Prop where
  sent_sublist : sent.Sublist files
  pending_sublist : dir'.pending.Sublist dir.pending
  completed_sub : ∀ path ∈ dir'.completed, path ∈ dir.completed ∨ path ∈ files.map Prod.fst
  completed_mono : ∀ path ∈ dir.completed, path ∈ dir'.completed
  apart : (∀ entry ∈ dir.pending, entry.1 ∉ dir.completed) →
    ∀ entry ∈ dir'.pending, entry.1 ∉ dir'.completed

theorem markSynced_apart {path : Path} {dir : SpoolDir} (h : ∀ entry ∈ dir.pending, entry.1 ∉ dir.completed) :
    ∀ entry ∈ (markSynced path dir).pending, entry.1 ∉ (markSynced path dir).completed := by
  intro entry hm
  simp only [markSynced, List.mem_filter, bne_iff_ne] at hm
  simpa [markSynced, hm.2] using h entry hm.1

theorem syncFiles_markSynced {path : Path} (events : List Event) {files sent : List (Path × List Event)}
    {dir dir' : SpoolDir} (h : SyncSpec files sent (markSynced path dir) dir') :
    SyncSpec ((path, events) :: files) sent dir dir' where
  sent_sublist := h.sent_sublist.cons _
  pending_sublist := h.pending_sublist.trans List.filter_sublist
  completed_sub p hp := by
    rcases h.completed_sub p hp with hm | hm
    · rcases List.mem_append.mp hm with hm | hm
      · exact .inl hm
      · exact .inr (List.mem_singleton.mp hm ▸ List.mem_cons_self)
    · exact .inr (List.mem_cons_of_mem _ hm)
  completed_mono p hp := h.completed_mono p (List.mem_append_left _ hp)
  apart hd := h.apart (markSynced_apart hd)

theorem SyncSpec.unmarked {files sent : List (Path × List Event)} {dir dir' : SpoolDir}
    (h : SyncSpec files sent dir dir')
    (path : Path) (events : List Event) : SyncSpec ((path, events) :: files) sent dir dir' where
  sent_sublist := h.sent_sublist.cons _
  pending_sublist := h.pending_sublist
  completed_sub p hp := (h.completed_sub p hp).imp_right (List.mem_cons_of_mem _)
  completed_mono := h.completed_mono
  apart := h.apart

theorem syncFiles_spec (outcomes : List SendOutcome) (files : List (Path × List Event)) (dir : SpoolDir) :
    SyncSpec files (syncFiles outcomes files dir).1 dir (syncFiles outcomes files dir).2 := by
  have hstop : ∀ (files : List (Path × List Event)) (dir : SpoolDir), SyncSpec files [] dir dir :=
    fun files dir => ⟨List.nil_sublist _, .refl _, fun _ hp => .inl hp, fun _ hp => hp, fun h => h⟩
  induction outcomes generalizing files dir with
  | nil => exact hstop files dir
  | cons outcome outcomes ih =>
      cases files with
      | nil => exact hstop [] dir
      | cons file files =>
          obtain ⟨path, events⟩ := file
          have hkept := (ih files dir).unmarked path events
          have hmarked := syncFiles_markSynced events (ih files (markSynced path dir))
          cases outcome with
          | success =>
              simp only [syncFiles]
              split
              · exact hmarked
              · exact { hmarked with sent_sublist := (ih files (markSynced path dir)).sent_sublist.cons_cons _ }
          | failure =>
              simp only [syncFiles]
              split
              · exact hmarked
              · exact hstop _ dir
          | raised sent =>
              simp only [syncFiles]
              split
              · exact { hkept with sent_sublist := (ih files dir).sent_sublist.cons_cons _ }
              · exact hkept

theorem sent_completed {outcomes : List SendOutcome} (h : .raised true ∉ outcomes) (files : List (Path × List Event))
    (dir : SpoolDir) : ∀ entry ∈ (syncFiles outcomes files dir).1, entry.1 ∈
      (syncFiles outcomes files dir).2.completed := by
  induction outcomes generalizing files dir with
  | nil => exact nofun
  | cons outcome outcomes ih =>
      have hrest := ih (fun hm => h (List.mem_cons_of_mem _ hm))
      cases files with
      | nil => exact nofun
      | cons file files =>
          obtain ⟨path, events⟩ := file
          cases outcome with
          | success =>
              simp only [syncFiles]
              split
              · exact hrest files (markSynced path dir)
              · intro entry hm
                rcases List.mem_cons.mp hm with rfl | hm
                · exact (syncFiles_spec outcomes files (markSynced path dir)).completed_mono path
                    (by simp [markSynced])
                · exact hrest files (markSynced path dir) entry hm
          | failure =>
              simp only [syncFiles]
              split
              · exact hrest files (markSynced path dir)
              · exact nofun
          | raised sent =>
              cases sent with
              | false => exact hrest files dir
              | true => exact absurd List.mem_cons_self h

theorem holds_syncPending {outcomes : List SendOutcome} {s : Spool} {e : Event}
    (h : (syncPending outcomes s).2.Holds e) : s.Holds e := by
  rcases h with ⟨entry, hm, he⟩ | hact
  · exact .inl ⟨entry, (syncFiles_spec outcomes s.dir.pending s.dir).pending_sublist.subset hm, he⟩
  · exact .inr hact

/-- All events spooled so far are told apart by the file they went to, and what
stands in memory, waits on disk or was sent under a name went to that name. -/
structure Accounted (past : List (Op × Reply)) (s : Spool) (home : Path → List Event) : Prop where
  active : ∀ file ∈ s.activeFiles, file.path < s.nextPath ∧
    ∀ e, file.events.count e ≤ (home file.path).count e
  pending : ∀ entry ∈ s.dir.pending, entry.1 < s.nextPath ∧ ∀ e, entry.2.count e ≤ (home entry.1).count e
  sent : ∀ entry ∈ sentFiles past, entry.1 < s.nextPath ∧ ∀ e, entry.2.count e ≤ (home entry.1).count e
  apart : ∀ entry ∈ s.dir.pending, entry.1 ∉ s.dir.completed
  retired : ∀ entry ∈ sentFiles past, entry.1 ∈ s.dir.completed
  completed : ∀ path ∈ s.dir.completed, path < s.nextPath
  pending_nodup : (s.dir.pending.map Prod.fst).Nodup
  sent_nodup : ((sentFiles past).map Prod.fst).Nodup
  unused : ∀ path, s.nextPath ≤ path → home path = []
  total : ∀ e, ∑ path ∈ Finset.range s.nextPath, (home path).count e = (spooledEvents past).count e

theorem noDoubleUpload_of_accounted {past : List (Op × Reply)} {s : Spool} {home : Path → List Event}
    (h : Accounted past s home) : NoDoubleUpload past := by
  intro e
  have hle : ((sentFiles past).map (fun file => file.2.count e)).sum ≤
      (((sentFiles past).map Prod.fst).map (fun path => (home path).count e)).sum := by
    rw [List.map_map]
    exact List.sum_le_sum (fun entry hm => (h.sent entry hm).2 e)
  have hsub : ((sentFiles past).map Prod.fst).toFinset ⊆ Finset.range s.nextPath := by
    intro path hp
    obtain ⟨entry, hm, rfl⟩ := List.mem_map.mp (List.mem_toFinset.mp hp)
    exact Finset.mem_range.mpr (h.sent entry hm).1
  calc ((sentFiles past).map (fun file => file.2.count e)).sum
      ≤ (((sentFiles past).map Prod.fst).map (fun path => (home path).count e)).sum := hle
    _ = ∑ path ∈ ((sentFiles past).map Prod.fst).toFinset, (home path).count e :=
        (List.sum_toFinset _ h.sent_nodup).symm
    _ ≤ ∑ path ∈ Finset.range s.nextPath, (home path).count e := Finset.sum_le_sum_of_subset hsub
    _ = (spooledEvents past).count e := h.total e

theorem sentFiles_concat (past : List (Op × Reply)) (op : Op) (reply : Reply) :
    sentFiles (past ++ [(op, reply)]) =
      sentFiles past ++ (match reply with | .synced sent => sent | _ => []) := by
  cases reply <;> simp [sentFiles]

theorem accounted_getOrCreate {past : List (Op × Reply)} {s : Spool} {home : Path → List Event}
    (h : Accounted past s home) (runId : String) :
    Accounted past (getOrCreateSpoolFile runId s).2 home ∧
      (getOrCreateSpoolFile runId s).1 ∈ (getOrCreateSpoolFile runId s).2.activeFiles ∧
      (getOrCreateSpoolFile runId s).2.dir = s.dir ∧
      ((getOrCreateSpoolFile runId s).1 ∈ s.activeFiles ∧ (getOrCreateSpoolFile runId s).1.runId = runId ∨
        (getOrCreateSpoolFile runId s).1.path ∉ s.dir.completed) := by
  simp only [getOrCreateSpoolFile]
  cases hf : s.activeFiles.find? (fun file => file.runId == runId) with
  | some file =>
      have hm := List.mem_of_find?_eq_some hf
      exact ⟨h, hm, rfl, .inl ⟨hm, by simpa using List.find?_some hf⟩⟩
  | none =>
      have hlt : ∀ {path : Path}, path < s.nextPath → path < s.nextPath + 1 := Nat.lt_succ_of_lt
      refine ⟨⟨?_, ?_, ?_, h.apart, h.retired, fun p hp => hlt (h.completed p hp), h.pending_nodup,
        h.sent_nodup, fun p hp => h.unused p (Nat.le_of_succ_le hp), ?_⟩, by simp, rfl, .inr ?_⟩
      · intro file hm
        rcases List.mem_append.mp hm with hm | hm
        · exact ⟨hlt (h.active file hm).1, (h.active file hm).2⟩
        · rw [List.mem_singleton.mp hm]
          exact ⟨Nat.lt_succ_self _, fun e => by simp⟩
      · exact fun entry hm => ⟨hlt (h.pending entry hm).1, (h.pending entry hm).2⟩
      · exact fun entry hm => ⟨hlt (h.sent entry hm).1, (h.sent entry hm).2⟩
      · intro e
        rw [Finset.sum_range_succ, h.total e, h.unused s.nextPath le_rfl, List.count_nil, Nat.add_zero]
      · exact fun hc => absurd (h.completed _ hc) (Nat.lt_irrefl _)

theorem count_home_le (home : Path → List Event) (path q : Path) (event e : Event) :
    (home q).count e ≤ (Function.update home path (home path ++ [event]) q).count e := by
  by_cases hq : q = path
  · subst hq
    rw [Function.update_self, List.count_append]
    omega
  · rw [Function.update_of_ne hq]

theorem sum_home (home : Path → List Event) {path n : Nat} (hp : path < n) (event e : Event) :
    ∑ q ∈ Finset.range n, (Function.update home path (home path ++ [event]) q).count e =
      ∑ q ∈ Finset.range n, (home q).count e + [event].count e := by
  have hq : ∀ q ∈ Finset.range n, (Function.update home path (home path ++ [event]) q).count e =
      (home q).count e + if q = path then [event].count e else 0 := by
    intro q _
    by_cases hq : q = path
    · subst hq
      rw [Function.update_self, List.count_append, if_pos rfl]
    · rw [Function.update_of_ne hq, if_neg hq, Nat.add_zero]
  rw [Finset.sum_congr rfl hq, Finset.sum_add_distrib, Finset.sum_ite_eq', if_pos (Finset.mem_range.mpr hp)]

theorem accounted_append (config : SpoolConfig) {past : List (Op × Reply)} {s : Spool} {home : Path → List Event}
    (h : Accounted past s home) {file : SpoolFile} (hm : file ∈ s.activeFiles) (event : Event)
    {dir : SpoolDir} {active : List SpoolFile}
    (hdir : dir = s.dir ∨ file.path ∉ s.dir.completed ∧ dir = (file.append config event).flush s.dir)
    (hactive : ∀ f ∈ active, f ∈ s.activeFiles ∨ f = file.append config event) :
    Accounted (past ++ [(.spool event, .spooled true)]) { s with dir := dir, activeFiles := active }
      (Function.update home file.path (home file.path ++ [event])) := by
  have hgrow := fun q => count_home_le home file.path q event
  have hfile : (file.append config event).path < s.nextPath ∧ ∀ e, (file.append config event).events.count e ≤
      (Function.update home file.path (home file.path ++ [event]) file.path).count e := by
    refine ⟨(h.active file hm).1, fun e => ?_⟩
    rw [Function.update_self, List.count_append]
    exact (List.count_append ..).trans_le (Nat.add_le_add_right ((h.active file hm).2 e) _)
  have hsent : sentFiles (past ++ [(.spool event, .spooled true)]) = sentFiles past := by
    rw [sentFiles_concat, List.append_nil]
  have hcompleted : dir.completed = s.dir.completed := by
    rcases hdir with rfl | ⟨-, rfl⟩
    · rfl
    · exact flush_completed _ _
  have hpending : ∀ entry ∈ dir.pending, entry ∈ s.dir.pending ∨
      file.path ∉ s.dir.completed ∧ entry = (file.path, (file.append config event).events) := by
    rcases hdir with rfl | ⟨hc, rfl⟩
    · exact fun entry he => .inl he
    · exact fun entry he => (flush_pending he).imp_right (fun heq => ⟨hc, heq⟩)
  refine ⟨?_, ?_, ?_, ?_, ?_, ?_, ?_, ?_, ?_, ?_⟩
  · intro f hf
    rcases hactive f hf with hf | rfl
    · exact ⟨(h.active f hf).1, fun e => ((h.active f hf).2 e).trans (hgrow _ e)⟩
    · exact hfile
  · intro entry he
    rcases hpending entry he with he | ⟨-, rfl⟩
    · exact ⟨(h.pending entry he).1, fun e => ((h.pending entry he).2 e).trans (hgrow _ e)⟩
    · exact hfile
  · intro entry he
    rw [hsent] at he
    exact ⟨(h.sent entry he).1, fun e => ((h.sent entry he).2 e).trans (hgrow _ e)⟩
  · intro entry he
    rw [hcompleted]
    rcases hpending entry he with he | ⟨hc, rfl⟩
    · exact h.apart entry he
    · exact hc
  · intro entry he
    rw [hsent] at he
    rw [hcompleted]
    exact h.retired entry he
  · rw [hcompleted]
    exact h.completed
  · rcases hdir with rfl | ⟨-, rfl⟩
    · exact h.pending_nodup
    · exact flush_nodup _ h.pending_nodup
  · rw [hsent]
    exact h.sent_nodup
  · intro path hp
    have hne : path ≠ file.path := by
      rintro rfl
      exact absurd (h.active file hm).1 (Nat.not_lt.mpr hp)
    rw [Function.update_of_ne hne]
    exact h.unused path hp
  · intro e
    rw [sum_home home (h.active file hm).1, h.total e]
    simp [spooledEvents]

theorem accounted_silent {past past' : List (Op × Reply)} {s : Spool} {home : Path → List Event}
    (h : Accounted past s home) (hsent : sentFiles past' = sentFiles past)
    (hspooled : spooledEvents past' = spooledEvents past) : Accounted past' s home where
  active := h.active
  pending := h.pending
  sent := hsent ▸ h.sent
  apart := h.apart
  retired := hsent ▸ h.retired
  completed := h.completed
  pending_nodup := h.pending_nodup
  sent_nodup := hsent ▸ h.sent_nodup
  unused := h.unused
  total := hspooled ▸ h.total

theorem accounted_spool {past : List (Op × Reply)} {s : Spool} {home : Path → List Event}
    (h : Accounted past s home) {event : Event} (hg : FreshFlush config past s (.spool event)) :
    ∃ home', Accounted (past ++ [(.spool event, (step config s (.spool event)).1)])
      (step config s (.spool event)).2 home' := by
  simp only [step, spool]
  split
  · refine ⟨home, accounted_silent h ?_ ?_⟩
    · rw [sentFiles_concat, List.append_nil]
    · simp [spooledEvents]
  · obtain ⟨h', hm, hdir, hfound⟩ := accounted_getOrCreate h event.runId
    split
    · rename_i hsize
      refine ⟨_, accounted_append config h' hm event (.inr ⟨?_, rfl⟩) ?_⟩
      · rw [hdir]
        rcases hfound with ⟨hact, hrun⟩ | hnew
        · exact hg _ hact hrun hsize
        · exact hnew
      · exact fun f hf => .inl (List.mem_filter.mp hf).1
    · refine ⟨_, accounted_append config h' hm event (.inl rfl) ?_⟩
      intro f hf
      obtain ⟨f₀, hf₀, rfl⟩ := List.mem_map.mp hf
      split
      · exact .inr rfl
      · exact .inl hf₀

theorem flushAll_dir {home : Path → List Event} {next : Path} (files : List SpoolFile) (dir : SpoolDir)
    (hactive : ∀ file ∈ files, (file.path < next ∧ ∀ e, file.events.count e ≤ (home file.path).count e) ∧
      file.path ∉ dir.completed)
    (hpending : ∀ entry ∈ dir.pending, (entry.1 < next ∧ ∀ e, entry.2.count e ≤ (home entry.1).count e) ∧
      entry.1 ∉ dir.completed)
    (hnodup : (dir.pending.map Prod.fst).Nodup) :
    let dir' := files.foldl (fun dir file => file.flush dir) dir
    dir'.completed = dir.completed ∧ (dir'.pending.map Prod.fst).Nodup ∧
      ∀ entry ∈ dir'.pending, (entry.1 < next ∧ ∀ e, entry.2.count e ≤ (home entry.1).count e) ∧
        entry.1 ∉ dir.completed := by
  induction files generalizing dir with
  | nil => exact ⟨rfl, hnodup, hpending⟩
  | cons file files ih =>
      have hc := flush_completed file dir
      have hfile := hactive file List.mem_cons_self
      have hrest := ih (file.flush dir)
        (fun f hf => hc ▸ hactive f (List.mem_cons_of_mem _ hf))
        (fun entry he => by
          rw [hc]
          rcases flush_pending he with he | rfl
          · exact hpending entry he
          · exact hfile)
        (flush_nodup file hnodup)
      rw [hc] at hrest
      exact hrest

theorem accounted_flushAll {past : List (Op × Reply)} {s : Spool} {home : Path → List Event}
    (h : Accounted past s home) (hg : FreshFlush config past s .flushAll) :
    Accounted (past ++ [(.flushAll, .flushed)]) (flushAll s) home := by
  obtain ⟨hc, hn, hp⟩ := flushAll_dir s.activeFiles s.dir (fun file hf => ⟨h.active file hf, hg file hf⟩)
    (fun entry he => ⟨h.pending entry he, h.apart entry he⟩) h.pending_nodup
  have hflushed : Accounted past (flushAll s) home := by
    refine ⟨h.active, fun entry he => (hp entry he).1, h.sent, ?_, ?_, ?_, hn, h.sent_nodup, h.unused,
      h.total⟩
    · intro entry he
      simp only [flushAll, hc]
      exact (hp entry he).2
    · simp only [flushAll, hc]
      exact h.retired
    · simp only [flushAll, hc]
      exact h.completed
  refine accounted_silent hflushed ?_ ?_
  · rw [sentFiles_concat, List.append_nil]
  · simp [spooledEvents]

theorem accounted_sync {past : List (Op × Reply)} {s : Spool} {home : Path → List Event}
    (h : Accounted past s home) {outcomes : List SendOutcome} (hg : .raised true ∉ outcomes) :
    Accounted (past ++ [(.syncPending outcomes, .synced (syncPending outcomes s).1)])
      (syncPending outcomes s).2 home := by
  have hs := syncFiles_spec outcomes s.dir.pending s.dir
  have hsent : sentFiles (past ++ [(.syncPending outcomes, .synced (syncPending outcomes s).1)]) =
      sentFiles past ++ (syncFiles outcomes s.dir.pending s.dir).1 := by
    rw [sentFiles_concat]
    rfl
  refine ⟨h.active, fun entry he => h.pending entry (hs.pending_sublist.subset he), ?_, hs.apart h.apart,
    ?_, ?_, h.pending_nodup.sublist (hs.pending_sublist.map _), ?_, h.unused, ?_⟩
  · intro entry he
    rw [hsent] at he
    rcases List.mem_append.mp he with he | he
    · exact h.sent entry he
    · exact h.pending entry (hs.sent_sublist.subset he)
  · intro entry he
    rw [hsent] at he
    rcases List.mem_append.mp he with he | he
    · exact hs.completed_mono _ (h.retired entry he)
    · exact sent_completed hg s.dir.pending s.dir entry he
  · intro path hp
    rcases hs.completed_sub path hp with hp | hp
    · exact h.completed path hp
    · obtain ⟨entry, he, rfl⟩ := List.mem_map.mp hp
      exact (h.pending entry he).1
  · rw [hsent, List.map_append, List.nodup_append]
    refine ⟨h.sent_nodup, h.pending_nodup.sublist (hs.sent_sublist.map _), ?_⟩
    intro a ha b hb hab
    obtain ⟨entry, he, rfl⟩ := List.mem_map.mp ha
    obtain ⟨entry', he', rfl⟩ := List.mem_map.mp hb
    exact h.apart entry' (hs.sent_sublist.subset he') (hab ▸ h.retired entry he)
  · have hspooled : spooledEvents (past ++ [(.syncPending outcomes, .synced (syncPending outcomes s).1)]) =
        spooledEvents past := by simp [spooledEvents]
    rw [hspooled]
    exact h.total

theorem accounted_step (past : List (Op × Reply)) (s : Spool) (op : Op) (h : ∃ home, Accounted past s home)
    (hg : FreshFlush config past s op) :
    ∃ home, Accounted (past ++ [(op, (step config s op).1)]) (step config s op).2 home := by
  obtain ⟨home, h⟩ := h
  cases op with
  | spool event => exact accounted_spool h hg
  | flushAll => exact ⟨home, accounted_flushAll h hg⟩
  | updateStats =>
      have hstats : Accounted past (updateStats config s) home :=
        ⟨h.active, h.pending, h.sent, h.apart, h.retired, h.completed, h.pending_nodup, h.sent_nodup,
          h.unused, h.total⟩
      refine ⟨home, accounted_silent hstats ?_ ?_⟩
      · rw [sentFiles_concat, step, List.append_nil]
      · simp [spooledEvents]
  | syncPending outcomes => exact ⟨home, accounted_sync h hg⟩

theorem accounted_empty : Accounted [] Spool.empty (fun _ => []) where
  active := nofun
  pending := nofun
  sent := nofun
  apart := nofun
  retired := nofun
  completed := nofun
  pending_nodup := .nil
  sent_nodup := .nil
  unused _ _ := rfl
  total e := by simp [Spool.empty, spooledEvents]

/-- No event is uploaded twice in a run that never flushes a file again after it was synced and
marks every file that it sends. -/
theorem noDoubleUpload_of_freshFlush (config : SpoolConfig) (ops : List Op)
    (hg : Guarded (step config) (FreshFlush config) [] .empty ops) :
    NoDoubleUpload (history (step config) .empty ops) := by
  obtain ⟨home, h⟩ := invariant_history (fun past s => ∃ home, Accounted past s home) accounted_step
    [] .empty ops ⟨_, accounted_empty⟩ hg
  exact noDoubleUpload_of_accounted h

def metricAt (timestamp : Nat) : Event := ⟨.metric, "r", timestamp, "loss"⟩

def unitLengths : SpoolConfig := ⟨10, 100, fun _ => 1, List.length⟩

theorem noDoubleUpload_single_sync :
    NoDoubleUpload (history (step unitLengths) .empty
      [.spool (metricAt 1), .spool (metricAt 2), .flushAll, .syncPending [.success]]) :=
  noDoubleUpload_of_freshFlush unitLengths _ (by decide)

theorem event_uploaded_twice :
    ¬ NoDoubleUpload (history (step unitLengths) .empty
        [.spool (metricAt 1), .flushAll, .syncPending [.success], .spool (metricAt 2), .flushAll,
          .syncPending [.success]]) ∧
      ¬ NoDoubleUpload (history (step unitLengths) .empty
        [.spool (metricAt 1), .flushAll, .syncPending [.raised true], .syncPending [.success]]) := by
  refine ⟨fun h => ?_, fun h => ?_⟩
  · exact absurd (h (metricAt 1)) (by decide)
  · exact absurd (h (metricAt 1)) (by decide)

end MLRunX.DiskSpool
