import MLRunX.DiskSpool

namespace MLRunX.SpoolSyncer

open DiskSpool Runs

/-- Where the syncer stands in a pass: with files to visit, with the contents
it has read of one, or behind a send of them that succeeded. -/
inductive Pass
  | idle
  | next (files : List Path)
  | read (path : Path) (events : List Event) (files : List Path)
  | sent (path : Path) (events : List Event) (files : List Path)
  deriving DecidableEq, Repr

structure Sync where
  spool : Spool
  pass : Pass

def leftFiles (contents : List (List Event)) : List (Path × List Event) :=
  contents.zipIdx.map fun entry => (entry.2, entry.1)

def Sync.start (contents : List (List Event)) : Sync :=
  ⟨⟨⟨leftFiles contents, []⟩, [], 0, contents.length⟩, .idle⟩

inductive Op
  | spool (event : Event)
  | flushAll
  | updateStats
  | list
  | read
  | send (success : Bool)
  | markSynced
  | raise
  | stop

inductive Reply
  | spooled (accepted : Bool)
  | sent (path : Path) (events : List Event)
  | done
  deriving DecidableEq, Repr

def readEvents (path : Path) (dir : SpoolDir) : List Event :=
  ((dir.pending.find? (fun entry => entry.1 == path)).map Prod.snd).getD []

/-- The syncer moves on. An empty file is not sent, and an exception is caught
for the file it arises at. -/
def syncStep (dir : SpoolDir) : Op → Pass → Pass
  | .list, .idle => .next (dir.pending.map Prod.fst)
  | .read, .next (path :: files) =>
      let events := readEvents path dir
      if events.isEmpty then .sent path events files else .read path events files
  | .send true, .read path events files => .sent path events files
  | .send false, .read _ _ _ => .idle
  | .raise, .next (_ :: files) => .next files
  | .raise, .read _ _ files => .next files
  | .raise, .sent _ _ files => .next files
  | .stop, .next _ => .idle
  | _, pass => pass

def syncReply : Op → Pass → Reply
  | .send true, .read path events _ => .sent path events
  | _, _ => .done

variable (config : SpoolConfig)

/-- The flush worker and the syncer take turns in any order. The rename takes
whatever stands at the path by then. -/
def step : Machine Sync Op Reply
  | s, .spool event =>
      let r := spool config event s.spool
      (.spooled r.1, { s with spool := r.2 })
  | s, .flushAll => (.done, { s with spool := flushAll s.spool })
  | s, .updateStats => (.done, { s with spool := updateStats config s.spool })
  | s, .markSynced => (.done, match s.pass with
      | .sent path _ files => ⟨{ s.spool with dir := markSynced path s.spool.dir }, .next files⟩
      | _ => s)
  | s, op => (syncReply op s.pass, { s with pass := syncStep s.spool.dir op s.pass })

def spooledEvents (past : List (Op × Reply)) : List Event :=
  past.filterMap fun
    | (.spool event, .spooled true) => some event
    | _ => none

def sentFiles (past : List (Op × Reply)) : List (Path × List Event) :=
  past.filterMap fun
    | (_, .sent path events) => some (path, events)
    | _ => none

/-- An event is in memory, in the active file of its run, or on disk. -/
def Stored (s : Spool) (e : Event) : Prop :=
  (∃ file ∈ s.activeFiles, file.runId = e.runId ∧ e ∈ file.events) ∨
    ∃ entry ∈ s.dir.pending, e ∈ entry.2

def NothingLost (past : List (Op × Reply)) (s : Sync) : Prop :=
  ∀ e ∈ spooledEvents past, Stored s.spool e ∨ ∃ file ∈ sentFiles past, e ∈ file.2

/-- The file that is renamed is the one that was read, or it is still kept in
memory. -/
def RenamesRead (_ : List (Op × Reply)) (s : Sync) : Op → Prop
  | .markSynced => match s.pass with
      | .sent path events _ => (∃ file ∈ s.spool.activeFiles, file.path = path) ∨
          ∀ entry ∈ s.spool.dir.pending, entry.1 = path → entry.2 = events
      | _ => True
  | _ => True

instance (past : List (Op × Reply)) (s : Sync) (op : Op) : Decidable (RenamesRead past s op) := by
  unfold RenamesRead
  split
  · split <;> infer_instance
  · infer_instance

/-- A path belongs to one file, and what is on disk under the path of a file in
memory is in memory too. -/
structure Tidy (s : Spool) : Prop where
  active_below : ∀ file ∈ s.activeFiles, file.path < s.nextPath
  pending_below : ∀ entry ∈ s.dir.pending, entry.1 < s.nextPath
  owned : ∀ file ∈ s.activeFiles, ∀ e ∈ file.events, e.runId = file.runId
  runs : ∀ f ∈ s.activeFiles, ∀ g ∈ s.activeFiles, f.runId = g.runId → f = g
  paths : ∀ f ∈ s.activeFiles, ∀ g ∈ s.activeFiles, f.path = g.path → f = g
  copies : ∀ entry ∈ s.dir.pending, ∀ file ∈ s.activeFiles, file.path = entry.1 → entry.2 ⊆ file.events

theorem stored_of_active {s : Spool} (h : Tidy s) {file : SpoolFile} (hm : file ∈ s.activeFiles) {e : Event}
    (he : e ∈ file.events) : Stored s e :=
  .inl ⟨file, hm, (h.owned file hm e he).symm, he⟩

structure Opened (runId : String) (s : Spool) (file : SpoolFile) (s' : Spool) : Prop where
  tidy : Tidy s'
  mem : file ∈ s'.activeFiles
  run : file.runId = runId
  kept : ∀ e, Stored s e → Stored s' e

theorem opened_getOrCreate {s : Spool} (h : Tidy s) (runId : String) :
    Opened runId s (getOrCreateSpoolFile runId s).1 (getOrCreateSpoolFile runId s).2 := by
  simp only [getOrCreateSpoolFile]
  cases hf : s.activeFiles.find? (fun file => file.runId == runId) with
  | some file => exact ⟨h, List.mem_of_find?_eq_some hf, by simpa using List.find?_some hf, fun _ => id⟩
  | none =>
      have hnew : ∀ f ∈ s.activeFiles, f.runId ≠ runId := by
        simpa using List.find?_eq_none.mp hf
      have hcases : ∀ f ∈ s.activeFiles ++ [⟨s.nextPath, runId, [], 0⟩],
          f ∈ s.activeFiles ∨ f = ⟨s.nextPath, runId, [], 0⟩ := by
        intro f hm
        simpa using hm
      refine ⟨⟨?_, ?_, ?_, ?_, ?_, ?_⟩, by simp, rfl, ?_⟩
      · intro f hm
        rcases hcases f hm with hm | rfl
        · exact Nat.lt_succ_of_lt (h.active_below f hm)
        · exact Nat.lt_succ_self _
      · exact fun entry hm => Nat.lt_succ_of_lt (h.pending_below entry hm)
      · intro f hm
        rcases hcases f hm with hm | rfl
        · exact h.owned f hm
        · simp
      · intro f hf g hg heq
        rcases hcases f hf with hf | rfl <;> rcases hcases g hg with hg | rfl
        · exact h.runs f hf g hg heq
        · exact absurd heq (hnew f hf)
        · exact absurd heq.symm (hnew g hg)
        · rfl
      · intro f hf g hg heq
        rcases hcases f hf with hf | rfl <;> rcases hcases g hg with hg | rfl
        · exact h.paths f hf g hg heq
        · exact absurd heq (Nat.ne_of_lt (h.active_below f hf))
        · exact absurd heq.symm (Nat.ne_of_lt (h.active_below g hg))
        · rfl
      · intro entry hm f hf heq
        rcases hcases f hf with hf | rfl
        · exact h.copies entry hm f hf heq
        · exact absurd heq.symm (Nat.ne_of_lt (h.pending_below entry hm))
      · rintro e (⟨f, hm, he⟩ | hd)
        · exact .inl ⟨f, List.mem_append_left _ hm, he⟩
        · exact .inr hd

theorem mem_flush (file : SpoolFile) {dir : SpoolDir} {entry : Path × List Event} (h : entry ∈ dir.pending) :
    entry ∈ (file.flush dir).pending ∨ entry.1 = file.path := by
  simp only [SpoolFile.flush]
  split
  · exact .inl h
  · by_cases heq : entry.1 = file.path
    · exact .inr heq
    · exact .inl (List.mem_append_left _ (List.mem_filter.mpr ⟨h, by simpa using heq⟩))

theorem stored_flush {s : Spool} {file : SpoolFile} {active : List SpoolFile}
    (hcopy : ∀ entry ∈ s.dir.pending, entry.1 = file.path → entry.2 ⊆ file.events)
    (hactive : ∀ f ∈ s.activeFiles, f ∈ active ∨ f.events ⊆ file.events) {e : Event} (he : Stored s e) :
    Stored { s with dir := file.flush s.dir, activeFiles := active } e := by
  have hfile : e ∈ file.events → ∃ entry ∈ (file.flush s.dir).pending, e ∈ entry.2 := by
    intro he
    refine ⟨(file.path, file.events), ?_, he⟩
    have hne : file.events.isEmpty = false := List.isEmpty_eq_false_iff.mpr (List.ne_nil_of_mem he)
    simp [SpoolFile.flush, hne]
  rcases he with ⟨f, hm, hrun, he⟩ | ⟨entry, hm, he⟩
  · rcases hactive f hm with hm | hsub
    · exact .inl ⟨f, hm, hrun, he⟩
    · exact .inr (hfile (hsub he))
  · rcases mem_flush file hm with hm' | heq
    · exact .inr ⟨entry, hm', he⟩
    · exact .inr (hfile (hcopy entry hm heq he))

theorem subset_append (config : SpoolConfig) (file : SpoolFile) (event : Event) :
    file.events ⊆ (file.append config event).events :=
  List.subset_append_left _ _

/-- What taking in an event does: the file of its run grows, on disk when it is
full and in memory otherwise. -/
structure Took (event : Event) (s s' : Spool) : Prop where
  tidy : Tidy s'
  kept : ∀ e, Stored s e → Stored s' e
  stored : Stored s' event

theorem took_rotated (config : SpoolConfig) {s : Spool} (h : Tidy s) {file : SpoolFile} (hm : file ∈ s.activeFiles)
    {event : Event} (hrun : file.runId = event.runId) :
    Took event s { s with
      dir := (file.append config event).flush s.dir
      activeFiles := s.activeFiles.filter (fun f => f.runId != event.runId) } := by
  have hrest : ∀ f ∈ s.activeFiles.filter (fun f => f.runId != event.runId), f ∈ s.activeFiles ∧
      f.runId ≠ event.runId := by
    intro f hf
    simpa using hf
  have hkept : ∀ e, Stored s e → Stored { s with
      dir := (file.append config event).flush s.dir
      activeFiles := s.activeFiles.filter (fun f => f.runId != event.runId) } e := by
    intro e he
    apply stored_flush _ _ he
    · exact fun entry hentry heq => List.Subset.trans (h.copies entry hentry file hm heq.symm)
        (subset_append config file event)
    · intro f hf
      by_cases heq : f.runId = event.runId
      · rw [h.runs f hf file hm (heq.trans hrun.symm)]
        exact .inr (subset_append config file event)
      · exact .inl (List.mem_filter.mpr ⟨hf, by simpa using heq⟩)
  refine ⟨⟨?_, ?_, ?_, ?_, ?_, ?_⟩, hkept, ?_⟩
  · exact fun f hf => h.active_below f (hrest f hf).1
  · intro entry hentry
    rcases flush_pending hentry with hentry | rfl
    · exact h.pending_below entry hentry
    · exact h.active_below file hm
  · exact fun f hf => h.owned f (hrest f hf).1
  · exact fun f hf g hg => h.runs f (hrest f hf).1 g (hrest g hg).1
  · exact fun f hf g hg => h.paths f (hrest f hf).1 g (hrest g hg).1
  · intro entry hentry f hf heq
    rcases flush_pending hentry with hentry | rfl
    · exact h.copies entry hentry f (hrest f hf).1 heq
    · rw [h.paths f (hrest f hf).1 file hm heq] at hf
      exact absurd hrun (hrest file hf).2
  · refine .inr ⟨(file.path, file.events ++ [event]), ?_, by simp⟩
    simp [SpoolFile.flush, SpoolFile.append]

theorem took_grown {s : Spool} (h : Tidy s) {file : SpoolFile} (file' : SpoolFile) (hm : file ∈ s.activeFiles)
    {event : Event} (hrun : file.runId = event.runId) (hpath : file'.path = file.path)
    (hrun' : file'.runId = file.runId)
    (hevents : file'.events = file.events ++ [event]) :
    Took event s
      { s with activeFiles := s.activeFiles.map (fun f => if f.runId == event.runId then file' else f) } := by
  have hcases : ∀ f ∈ s.activeFiles.map (fun f => if f.runId == event.runId then file' else f),
      f = file' ∨ f ∈ s.activeFiles ∧ f.runId ≠ event.runId := by
    intro f hf
    obtain ⟨f₀, hf₀, rfl⟩ := List.mem_map.mp hf
    by_cases heq : f₀.runId = event.runId
    · exact .inl (by simp [heq])
    · exact .inr (by simpa [heq] using hf₀)
  have hgrown : file' ∈ s.activeFiles.map (fun f => if f.runId == event.runId then file' else f) :=
    List.mem_map.mpr ⟨file, hm, by simp [hrun]⟩
  have hsub : file.events ⊆ file'.events := hevents ▸ List.subset_append_left _ _
  refine ⟨⟨?_, h.pending_below, ?_, ?_, ?_, ?_⟩, ?_, ?_⟩
  · intro f hf
    rcases hcases f hf with rfl | ⟨hf, -⟩
    · exact hpath ▸ h.active_below file hm
    · exact h.active_below f hf
  · intro f hf e he
    rcases hcases f hf with rfl | ⟨hf, -⟩
    · rw [hevents, List.mem_append, List.mem_singleton] at he
      rcases he with he | rfl
      · exact (h.owned file hm e he).trans hrun'.symm
      · exact hrun.symm.trans hrun'.symm
    · exact h.owned f hf e he
  · intro f hf g hg heq
    rcases hcases f hf with rfl | ⟨hf₀, hne⟩ <;> rcases hcases g hg with rfl | ⟨hg₀, hne'⟩
    · rfl
    · exact absurd (heq.symm.trans (hrun'.trans hrun)) hne'
    · exact absurd (heq.trans (hrun'.trans hrun)) hne
    · exact h.runs f hf₀ g hg₀ heq
  · intro f hf g hg heq
    rcases hcases f hf with rfl | ⟨hf₀, hne⟩ <;> rcases hcases g hg with rfl | ⟨hg₀, hne'⟩
    · rfl
    · rw [← h.paths file hm g hg₀ (hpath.symm.trans heq)] at hne'
      exact absurd hrun hne'
    · rw [h.paths f hf₀ file hm (heq.trans hpath)] at hne
      exact absurd hrun hne
    · exact h.paths f hf₀ g hg₀ heq
  · intro entry hentry f hf heq
    rcases hcases f hf with rfl | ⟨hf, -⟩
    · exact List.Subset.trans (h.copies entry hentry file hm (hpath.symm.trans heq)) hsub
    · exact h.copies entry hentry f hf heq
  · rintro e (⟨f, hf, hown, he⟩ | hd)
    · by_cases heq : f.runId = event.runId
      · obtain rfl := h.runs f hf file hm (heq.trans hrun.symm)
        exact .inl ⟨_, hgrown, hrun'.trans hown, hsub he⟩
      · exact .inl ⟨f, List.mem_map.mpr ⟨f, hf, by simp [heq]⟩, hown, he⟩
    · exact .inr hd
  · exact .inl ⟨_, hgrown, hrun'.trans hrun, by simp [hevents]⟩

theorem spool_spec (config : SpoolConfig) {s : Spool} (h : Tidy s) (event : Event) :
    (spool config event s).1 = false ∧ (spool config event s).2 = s ∨ Took event s (spool config event s).2 := by
  simp only [spool]
  split
  · exact .inl ⟨rfl, rfl⟩
  · refine .inr ?_
    obtain ⟨htidy, hm, hrun, hkept⟩ := opened_getOrCreate h event.runId
    split
    · have htook := took_rotated config htidy hm hrun
      exact ⟨htook.tidy, fun e he => htook.kept e (hkept e he), htook.stored⟩
    · have htook := took_grown htidy ((getOrCreateSpoolFile event.runId s).1.append config event) hm hrun rfl rfl rfl
      exact ⟨htook.tidy, fun e he => htook.kept e (hkept e he), htook.stored⟩

theorem flushes_spec (files : List SpoolFile) {s : Spool} (hsub : files ⊆ s.activeFiles) (h : Tidy s) :
    Tidy { s with dir := files.foldl (fun dir file => file.flush dir) s.dir } ∧
      ∀ e, Stored s e → Stored { s with dir := files.foldl (fun dir file => file.flush dir) s.dir } e := by
  induction files generalizing s with
  | nil => exact ⟨h, fun _ => id⟩
  | cons file files ih =>
      have hm : file ∈ s.activeFiles := hsub List.mem_cons_self
      have hflushed : Tidy { s with dir := file.flush s.dir } := by
        refine ⟨h.active_below, ?_, h.owned, h.runs, h.paths, ?_⟩
        · intro entry hentry
          rcases flush_pending hentry with hentry | rfl
          · exact h.pending_below entry hentry
          · exact h.active_below file hm
        · intro entry hentry f hf heq
          rcases flush_pending hentry with hentry | rfl
          · exact h.copies entry hentry f hf heq
          · rw [h.paths f hf file hm heq]
            exact List.Subset.refl _
      obtain ⟨htidy, hkept⟩ := ih (s := { s with dir := file.flush s.dir }) (fun f hf =>
        hsub (List.mem_cons_of_mem _ hf)) hflushed
      refine ⟨htidy, fun e he => hkept e ?_⟩
      exact stored_flush (fun entry hentry heq => h.copies entry hentry file hm heq.symm) (fun f hf => .inl hf) he

theorem flushAll_spec {s : Spool} (h : Tidy s) : Tidy (flushAll s) ∧ ∀ e, Stored s e → Stored (flushAll s) e :=
  flushes_spec s.activeFiles (List.Subset.refl _) h

theorem tidy_markSynced {s : Spool} (h : Tidy s) (path : Path) : Tidy { s with dir := markSynced path s.dir } := by
  have hsub : ∀ entry ∈ (markSynced path s.dir).pending, entry ∈ s.dir.pending :=
    fun entry hm => (List.mem_filter.mp hm).1
  exact ⟨h.active_below, fun entry hm => h.pending_below entry (hsub entry hm), h.owned, h.runs, h.paths,
    fun entry hm => h.copies entry (hsub entry hm)⟩

theorem stored_markSynced {s : Spool} (h : Tidy s) {path : Path} {events : List Event}
    (hread : (∃ file ∈ s.activeFiles, file.path = path) ∨
      ∀ entry ∈ s.dir.pending, entry.1 = path → entry.2 = events) {e : Event} (he : Stored s e) :
    Stored { s with dir := markSynced path s.dir } e ∨ e ∈ events := by
  rcases he with hactive | ⟨entry, hm, he⟩
  · exact .inl (.inl hactive)
  · by_cases heq : entry.1 = path
    · rcases hread with ⟨file, hfile, hpath⟩ | hread
      · exact .inl (stored_of_active (tidy_markSynced h path) hfile
          (h.copies entry hm file hfile (hpath.trans heq.symm) he))
      · exact .inr (hread entry hm heq ▸ he)
    · exact .inl (.inr ⟨entry, List.mem_filter.mpr ⟨hm, by simpa using heq⟩, he⟩)

section UninterruptedPass

def passOps : List SendOutcome → List (Path × List Event) → List Op
  | outcome :: outcomes, (_, events) :: files =>
      match outcome with
      | .success =>
          if events.isEmpty then .read :: .markSynced :: passOps outcomes files
          else .read :: .send true :: .markSynced :: passOps outcomes files
      | .failure => if events.isEmpty then .read :: .markSynced :: passOps outcomes files else [.read, .send false]
      | .raised sent =>
          if sent && !events.isEmpty then .read :: .send true :: .raise :: passOps outcomes files
          else .read :: .raise :: passOps outcomes files
  | _, _ => [.stop]

variable {config : SpoolConfig}

theorem readEvents_markSynced {path q : Path} (hne : q ≠ path) (dir : SpoolDir) :
    readEvents q (markSynced path dir) = readEvents q dir := by
  simp only [readEvents, markSynced, List.find?_filter]
  congr 3
  funext entry
  by_cases hq : entry.1 = q
  · simp [hq, hne]
  · simp [hq]

theorem readEvents_of_mem {dir : SpoolDir} (hnodup : (dir.pending.map Prod.fst).Nodup) {entry : Path × List Event}
    (hm : entry ∈ dir.pending) : readEvents entry.1 dir = entry.2 := by
  rw [readEvents]
  cases hf : dir.pending.find? (fun e => e.1 == entry.1) with
  | none => exact absurd (beq_self_eq_true entry.1) (List.find?_eq_none.mp hf entry hm)
  | some found =>
      have heq : found.1 = entry.1 := by simpa using List.find?_some hf
      rw [List.inj_on_of_nodup_map hnodup (List.mem_of_find?_eq_some hf) hm heq]
      rfl

theorem after_passOps (outcomes : List SendOutcome) (files : List (Path × List Event)) (s : Spool)
    (hnodup : (files.map Prod.fst).Nodup) (hread : ∀ entry ∈ files, readEvents entry.1 s.dir = entry.2) :
    after (step config) ⟨s, .next (files.map Prod.fst)⟩ (passOps outcomes files) =
        ⟨{ s with dir := (syncFiles outcomes files s.dir).2 }, .idle⟩ ∧
      sentFiles (history (step config) ⟨s, .next (files.map Prod.fst)⟩ (passOps outcomes files)) =
        (syncFiles outcomes files s.dir).1 := by
  induction outcomes generalizing files s with
  | nil => exact ⟨rfl, rfl⟩
  | cons outcome outcomes ih =>
      cases files with
      | nil => exact ⟨rfl, rfl⟩
      | cons file files =>
          obtain ⟨path, events⟩ := file
          have hpath : readEvents path s.dir = events := hread _ List.mem_cons_self
          have hrest : ∀ entry ∈ files, readEvents entry.1 s.dir = entry.2 :=
            fun entry hm => hread entry (List.mem_cons_of_mem _ hm)
          rw [List.map_cons, List.nodup_cons] at hnodup
          have hmarked : ∀ entry ∈ files, readEvents entry.1 (markSynced path s.dir) = entry.2 := by
            intro entry hm
            rw [readEvents_markSynced _ s.dir]
            · exact hrest entry hm
            · intro heq
              rw [← heq] at hnodup
              exact hnodup.1 (List.mem_map.mpr ⟨entry, hm, rfl⟩)
          have hsynced := ih files { s with dir := markSynced path s.dir } hnodup.2 hmarked
          have hkept := ih files s hnodup.2 hrest
          cases outcome with
          | success =>
              cases hempty : events.isEmpty with
              | true =>
                  simpa [passOps, syncFiles, after_cons, history, step, syncStep, syncReply, hpath, hempty, sentFiles]
                    using hsynced
              | false =>
                  simpa [passOps, syncFiles, after_cons, history, step, syncStep, syncReply, hpath, hempty, sentFiles]
                    using hsynced
          | failure =>
              cases hempty : events.isEmpty with
              | true =>
                  simpa [passOps, syncFiles, after_cons, history, step, syncStep, syncReply, hpath, hempty, sentFiles]
                    using hsynced
              | false =>
                  simp [passOps, syncFiles, after_cons, history, step, syncStep, syncReply, hpath, hempty, sentFiles]
          | raised sent =>
              cases hsent : (sent && !events.isEmpty) with
              | true =>
                  obtain ⟨rfl, hempty⟩ : sent = true ∧ events.isEmpty = false := by simpa using hsent
                  simpa [passOps, syncFiles, after_cons, history, step, syncStep, syncReply, hpath, hempty, sentFiles]
                    using hkept
              | false =>
                  cases hempty : events.isEmpty with
                  | true =>
                      simpa [passOps, syncFiles, after_cons, history, step, syncStep, syncReply, hpath,
                        hempty, sentFiles]
                        using hkept
                  | false =>
                      obtain rfl : sent = false := by simpa [hempty] using hsent
                      simpa [passOps, syncFiles, after_cons, history, step, syncStep, syncReply, hpath,
                        hempty, sentFiles]
                        using hkept

theorem uninterrupted_pass (outcomes : List SendOutcome) {s : Spool}
    (hnodup : (s.dir.pending.map Prod.fst).Nodup) :
    after (step config) ⟨s, .idle⟩ (.list :: passOps outcomes s.dir.pending) =
      ⟨(syncPending outcomes s).2, .idle⟩ ∧
      sentFiles (history (step config) ⟨s, .idle⟩ (.list :: passOps outcomes s.dir.pending)) =
        (syncPending outcomes s).1 :=
  after_passOps outcomes s.dir.pending s hnodup (fun _ hm => readEvents_of_mem hnodup hm)

end UninterruptedPass

structure Kept (past : List (Op × Reply)) (s : Sync) : Prop where
  tidy : Tidy s.spool
  reported : ∀ path events files, s.pass = .sent path events files →
    events = [] ∨ (path, events) ∈ sentFiles past
  nothingLost : NothingLost past s

theorem spooledEvents_concat (past : List (Op × Reply)) (op : Op) (reply : Reply) {e : Event}
    (h : e ∈ spooledEvents (past ++ [(op, reply)])) :
    e ∈ spooledEvents past ∨ op = .spool e ∧ reply = .spooled true := by
  rw [spooledEvents, List.filterMap_append, List.mem_append] at h
  refine h.imp_right (fun h => ?_)
  obtain ⟨entry, hm, heq⟩ := List.mem_filterMap.mp h
  rw [List.mem_singleton.mp hm] at heq
  split at heq
  · rename_i hop
    obtain ⟨rfl, rfl⟩ := Prod.mk.inj hop
    exact ⟨congrArg Op.spool (Option.some.inj heq), rfl⟩
  · cases heq

theorem sentFiles_concat (past : List (Op × Reply)) (op : Op) (reply : Reply) {file : Path × List Event} :
    file ∈ sentFiles (past ++ [(op, reply)]) ↔ file ∈ sentFiles past ∨ reply = .sent file.1 file.2 := by
  rw [sentFiles, List.filterMap_append, List.mem_append]
  refine or_congr_right ?_
  cases reply with
  | sent path events => simp [Prod.ext_iff, eq_comm]
  | spooled | done => simp

theorem Kept.reported_or {past : List (Op × Reply)} {s : Sync} (h : Kept past s) (reply : Reply) :
    ∀ path events files, s.pass = .sent path events files →
      events = [] ∨ (path, events) ∈ sentFiles past ∨ reply = .sent path events :=
  fun path events files heq => (h.reported path events files heq).imp_right .inl

theorem kept_of_stored {past : List (Op × Reply)} {s s' : Sync} {op : Op} {reply : Reply} (h : Kept past s)
    (htidy : Tidy s'.spool)
    (hpass : ∀ path events files, s'.pass = .sent path events files →
      events = [] ∨ (path, events) ∈ sentFiles past ∨ reply = .sent path events)
    (htaken : ∀ e, op = .spool e → reply = .spooled true → Stored s'.spool e)
    (hstored : ∀ e, Stored s.spool e → Stored s'.spool e ∨ ∃ file ∈ sentFiles past, e ∈ file.2) :
    Kept (past ++ [(op, reply)]) s' := by
  have hsent : ∀ {e}, (∃ file ∈ sentFiles past, e ∈ file.2) →
      ∃ file ∈ sentFiles (past ++ [(op, reply)]), e ∈ file.2 :=
    fun ⟨file, hm, he⟩ => ⟨file, (sentFiles_concat past op reply).mpr (.inl hm), he⟩
  refine ⟨htidy, ?_, ?_⟩
  · intro path events files heq
    exact (hpass path events files heq).imp_right (sentFiles_concat past op reply).mpr
  · intro e he
    rcases spooledEvents_concat past op reply he with he | ⟨hop, hreply⟩
    · rcases h.nothingLost e he with he | he
      · exact (hstored e he).imp_right hsent
      · exact .inr (hsent he)
    · exact .inl (htaken e hop hreply)

theorem syncStep_sent {dir : SpoolDir} {op : Op} {pass : Pass} {path : Path} {events : List Event}
    {files : List Path}
    (h : syncStep dir op pass = .sent path events files) :
    events = [] ∨ pass = .sent path events files ∨ syncReply op pass = .sent path events := by
  unfold syncStep at h
  split at h
  · cases h
  · dsimp only at h
    split at h
    · rename_i hempty
      injection h with hpath hevents hfiles
      rw [List.isEmpty_iff, hevents] at hempty
      exact .inl hempty
    · cases h
  · injection h with hpath hevents hfiles
    subst hpath hevents
    exact .inr (.inr rfl)
  all_goals first | (cases h; done) | exact .inr (.inl h)

variable {config}

theorem kept_pass {past : List (Op × Reply)} {s : Sync} (h : Kept past s) {op : Op}
    (hspool : ∀ event, op ≠ .spool event) :
    Kept (past ++ [(op, syncReply op s.pass)]) { s with pass := syncStep s.spool.dir op s.pass } := by
  refine kept_of_stored h h.tidy ?_ (fun e hop => absurd hop (hspool e)) (fun e he => .inl he)
  intro path events files heq
  rcases syncStep_sent heq with hnil | hpass | hreply
  · exact .inl hnil
  · exact (h.reported path events files hpass).imp_right .inl
  · exact .inr (.inr hreply)

theorem kept_step (past : List (Op × Reply)) (s : Sync) (op : Op) (h : Kept past s) (hg : RenamesRead past s op) :
    Kept (past ++ [(op, (step config s op).1)]) (step config s op).2 := by
  cases op with
  | spool event =>
      rcases spool_spec config h.tidy event with ⟨hfull, hsame⟩ | htook
      · simp only [step, hfull, hsame]
        exact kept_of_stored h h.tidy (h.reported_or _) nofun (fun e he => .inl he)
      · refine kept_of_stored h htook.tidy (h.reported_or _) ?_ (fun e he => .inl (htook.kept e he))
        rintro e ⟨⟩ -
        exact htook.stored
  | flushAll =>
      obtain ⟨htidy, hkept⟩ := flushAll_spec h.tidy
      exact kept_of_stored h htidy (h.reported_or _) nofun (fun e he => .inl (hkept e he))
  | updateStats =>
      refine kept_of_stored h ?_ (h.reported_or _) nofun (fun e he => .inl he)
      exact ⟨h.tidy.active_below, h.tidy.pending_below, h.tidy.owned, h.tidy.runs, h.tidy.paths, h.tidy.copies⟩
  | markSynced =>
      simp only [step]
      cases hcur : s.pass with
      | sent path events files =>
          simp only [RenamesRead, hcur] at hg
          refine kept_of_stored h (tidy_markSynced h.tidy path) nofun nofun ?_
          intro e he
          refine (stored_markSynced h.tidy hg he).imp_right (fun he => ?_)
          rcases h.reported path events files hcur with rfl | hm
          · cases he
          · exact ⟨_, hm, he⟩
      | idle | next | read =>
          exact kept_of_stored h h.tidy (fun path events files heq => by rw [hcur] at heq; cases heq) nofun
            (fun e he => .inl he)
  | list | read | send | raise | stop => exact kept_pass h nofun

theorem kept_start (contents : List (List Event)) : Kept [] (Sync.start contents) where
  tidy := by
    refine ⟨nofun, ?_, nofun, nofun, nofun, nofun⟩
    intro entry hm
    obtain ⟨found, hfound, rfl⟩ := List.mem_map.mp hm
    exact (List.mem_zipIdx' hfound).1
  reported := nofun
  nothingLost := nofun

/-- Nothing that was spooled is lost in a run whose renames all meet the file
that was read. -/
theorem nothingLost_of_renamesRead (config : SpoolConfig) (contents : List (List Event)) (ops : List Op)
    (hg : Guarded (step config) RenamesRead [] (Sync.start contents) ops) :
    NothingLost (history (step config) (Sync.start contents) ops) (after (step config) (Sync.start contents) ops) :=
  (invariant_history Kept kept_step [] (Sync.start contents) ops (kept_start contents) hg).nothingLost

theorem nothingLost_flushed_between :
    NothingLost
      (history (step unitLengths) (Sync.start []) [.spool (metricAt 1), .flushAll, .list, .read, .send true,
        .spool (metricAt 2), .flushAll, .markSynced])
      (after (step unitLengths) (Sync.start []) [.spool (metricAt 1), .flushAll, .list, .read, .send true,
        .spool (metricAt 2), .flushAll, .markSynced]) :=
  nothingLost_of_renamesRead unitLengths [] _ (by decide)

instance (s : Spool) (e : Event) : Decidable (Stored s e) := inferInstanceAs (Decidable (_ ∨ _))

instance (past : List (Op × Reply)) (s : Sync) : Decidable (NothingLost past s) :=
  inferInstanceAs (Decidable (∀ e ∈ spooledEvents past, _))

theorem rotated_event_lost :
    ¬ NothingLost
      (history (step { unitLengths with maxFileSizeBytes := 2 }) (Sync.start []) [.spool (metricAt 1), .flushAll,
        .list, .read, .send true, .spool (metricAt 2), .markSynced])
      (after (step { unitLengths with maxFileSizeBytes := 2 }) (Sync.start []) [.spool (metricAt 1), .flushAll,
        .list, .read, .send true, .spool (metricAt 2), .markSynced]) := by
  decide

end MLRunX.SpoolSyncer
