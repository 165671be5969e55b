import Mathlib.Algebra.Order.BigOperators.Group.List
import Mathlib.Data.List.MinMax
import MLRunX.SpoolSyncer

namespace MLRunX.SpoolLimit

open DiskSpool (Event Path Spool SpoolConfig SpoolDir SpoolFile flushAll getOrCreateSpoolFile markSynced updateStats)
open Runs SpoolSyncer

/-- A spool that writes JSON: an event takes its own text, a file besides its envelope
and a separator between two events. -/
def jsonSpool (maxFileSizeBytes maxTotalSizeBytes : Nat) (eventLength : Event → Nat)
    (envelope : Option Event → Nat) : SpoolConfig where
  maxFileSizeBytes := maxFileSizeBytes
  maxTotalSizeBytes := maxTotalSizeBytes
  eventLength := eventLength
  fileLength events := envelope events.head? + (events.map eventLength).sum + 2 * (events.length - 1)

variable (config : SpoolConfig)

def fileLengths (dir : SpoolDir) : List Nat := dir.pending.map (fun entry => config.fileLength entry.2)

def waitingBytes (s : Spool) : Nat := (fileLengths config s.dir).sum

def heldBytes (s : Spool) : Nat := waitingBytes config (flushAll s)

def longestFile (s : Spool) : Nat := (fileLengths config (flushAll s).dir).foldr max 0

def longestEvent (file : SpoolFile) : Nat := (file.events.map config.eventLength).foldr max 0

/-- The limit is exceeded by no more than one file and one event for each active run. -/
def LimitKept (s : Spool) : Prop :=
  waitingBytes config s ≤
    config.maxTotalSizeBytes + longestFile config s + (s.activeFiles.map (longestEvent config)).sum

/-- When an event comes, the number that the limit is tested against has reached it,
unless all that is held is below it. -/
def LimitSeen (_ : List (Op × Reply)) (s : Sync) : Op → Prop
  | .spool _ => config.maxTotalSizeBytes ≤ s.spool.pendingBytes ∨
    heldBytes config s.spool < config.maxTotalSizeBytes
  | _ => True

instance (past : List (Op × Reply)) (s : Sync) (op : Op) : Decidable (LimitSeen config past s op) := by
  cases op <;> unfold LimitSeen <;> infer_instance

/-- Paths are told apart, and what is on disk of a file in memory is no longer than it. -/
structure Filed (s : Spool) : Prop where
  paths : (s.activeFiles.map SpoolFile.path).Nodup
  runs : (s.activeFiles.map SpoolFile.runId).Nodup
  names : (s.dir.pending.map Prod.fst).Nodup
  active_below : ∀ file ∈ s.activeFiles, file.path < s.nextPath
  pending_below : ∀ entry ∈ s.dir.pending, entry.1 < s.nextPath
  copies : ∀ entry ∈ s.dir.pending, ∀ file ∈ s.activeFiles, entry.1 = file.path →
    config.fileLength entry.2 ≤ config.fileLength file.events
  filled : ∀ file ∈ s.activeFiles, file.events ≠ []

def Fits (n : Nat) (sizes : List Nat) : Prop := sizes.sum ≤ n ∨ ∃ m ∈ sizes, sizes.sum ≤ n + m

theorem fits_sublist {n : Nat} {sizes rest : List Nat} (h : Fits n sizes) (hsub : rest.Sublist sizes) :
    Fits n rest := by
  obtain ⟨gone, hperm⟩ := hsub.exists_perm_append
  have hsum : sizes.sum = rest.sum + gone.sum := hperm.sum_eq.trans List.sum_append
  rcases h with h | ⟨m, hm, h⟩
  · left
    omega
  · rcases List.mem_append.mp (hperm.subset hm) with hm | hm
    · refine .inr ⟨m, hm, ?_⟩
      omega
    · have hle : m ≤ gone.sum := List.single_le_sum (fun _ _ => Nat.zero_le _) m hm
      left
      omega

theorem fits_perm {n : Nat} {sizes sizes' : List Nat} (hperm : sizes.Perm sizes') (h : Fits n sizes) :
    Fits n sizes' := by
  rcases h with h | ⟨m, hm, h⟩
  · exact .inl (hperm.sum_eq ▸ h)
  · exact .inr ⟨m, hperm.subset hm, hperm.sum_eq ▸ h⟩

theorem fits_cons {n : Nat} {sizes : List Nat} (h : sizes.sum ≤ n) (size : Nat) : Fits n (size :: sizes) := by
  refine .inr ⟨size, List.mem_cons_self, ?_⟩
  rw [List.sum_cons, Nat.add_comm]
  exact Nat.add_le_add_right h size

theorem sum_le_of_fits {n : Nat} {sizes : List Nat} (h : Fits n sizes) : sizes.sum ≤ n + sizes.foldr max 0 := by
  rcases h with h | ⟨m, hm, h⟩
  · exact Nat.le_add_right_of_le h
  · exact h.trans (Nat.add_le_add_left (List.le_max_of_le hm le_rfl) n)

def entryOf (file : SpoolFile) : Path × List Event := (file.path, file.events)

theorem flush_filled {file : SpoolFile} (h : file.events ≠ []) (dir : SpoolDir) :
    (file.flush dir).pending = dir.pending.filter (fun entry => entry.1 != file.path) ++ [entryOf file] := by
  rw [SpoolFile.flush, if_neg (by simpa using h)]
  rfl

theorem flush_files (files : List SpoolFile) (hpaths : (files.map SpoolFile.path).Nodup)
    (hfilled : ∀ file ∈ files, file.events ≠ []) (dir : SpoolDir) :
    (files.foldl (fun dir file => file.flush dir) dir).pending =
      dir.pending.filter (fun entry => entry.1 ∉ files.map SpoolFile.path) ++ files.map entryOf := by
  induction files generalizing dir with
  | nil => simp
  | cons file files ih =>
      obtain ⟨hfile, hpaths⟩ := List.nodup_cons.mp hpaths
      rw [List.foldl_cons, ih hpaths (fun f hf => hfilled f (List.mem_cons_of_mem _ hf)),
        flush_filled (hfilled file List.mem_cons_self), List.filter_append, List.filter_filter, List.map_cons,
        List.map_cons]
      have hlast : [entryOf file].filter (fun entry => entry.1 ∉ files.map SpoolFile.path) =
          [entryOf file] := List.filter_cons_of_pos (decide_eq_true hfile)
      have hboth : ∀ entry : Path × List Event,
          (decide (entry.1 ∉ files.map SpoolFile.path) && entry.1 != file.path) =
            decide (entry.1 ∉ file.path :: files.map SpoolFile.path) := by
        intro entry
        rw [Bool.eq_iff_iff, Bool.and_eq_true, decide_eq_true_iff, decide_eq_true_iff, bne_iff_ne,
          List.mem_cons, not_or,
          and_comm]
      rw [hlast, List.append_assoc, List.singleton_append, List.filter_congr (fun entry _ => hboth entry)]

def heldFiles (s : Spool) : List (Path × List Event) :=
  s.dir.pending.filter (fun entry => entry.1 ∉ s.activeFiles.map SpoolFile.path) ++ s.activeFiles.map entryOf

def heldLengths (s : Spool) : List Nat := (heldFiles s).map (fun entry => config.fileLength entry.2)

variable {config}

theorem flushAll_pending {s : Spool} (h : Filed config s) : (flushAll s).dir.pending = heldFiles s :=
  flush_files s.activeFiles h.paths h.filled s.dir

theorem fileLengths_flushAll {s : Spool} (h : Filed config s) :
    fileLengths config (flushAll s).dir = heldLengths config s := by
  rw [fileLengths, flushAll_pending h, heldLengths]

theorem copies_le {dir : List (Path × List Event)} (hnames : (dir.map Prod.fst).Nodup) {files : List SpoolFile}
    (hcopies : ∀ entry ∈ dir, ∀ file ∈ files, entry.1 = file.path →
      config.fileLength entry.2 ≤ config.fileLength file.events) :
    ((dir.filter (fun entry => entry.1 ∈ files.map SpoolFile.path)).map (fun entry =>
      config.fileLength entry.2)).sum ≤
      ((files.map entryOf).map (fun entry => config.fileLength entry.2)).sum := by
  induction dir generalizing files with
  | nil => exact Nat.zero_le _
  | cons entry dir ih =>
      obtain ⟨hname, hnames⟩ := List.nodup_cons.mp hnames
      by_cases hmem : entry.1 ∈ files.map SpoolFile.path
      · obtain ⟨file, hfile, hpath⟩ := List.mem_map.mp hmem
        obtain ⟨pre, post, rfl⟩ := List.append_of_mem hfile
        have hrest : dir.filter (fun entry => entry.1 ∈ (pre ++ file :: post).map SpoolFile.path) =
            dir.filter (fun entry => entry.1 ∈ (pre ++ post).map SpoolFile.path) := by
          apply List.filter_congr
          intro other hother
          have hne : other.1 ≠ file.path := by
            intro heq
            exact hname (hpath ▸ heq ▸ List.mem_map_of_mem hother)
          simp [hne]
        have hle := @ih hnames (pre ++ post) (fun other hother f hf =>
          hcopies other (List.mem_cons_of_mem _ hother) f (by
            rw [List.mem_append, List.mem_cons]
            exact (List.mem_append.mp hf).imp_right .inr))
        have hfirst := hcopies entry List.mem_cons_self file hfile hpath.symm
        have hkeep : (entry :: dir).filter (fun entry => entry.1 ∈ (pre ++ file :: post).map SpoolFile.path) =
            entry :: dir.filter (fun entry => entry.1 ∈ (pre ++ file :: post).map SpoolFile.path) :=
          List.filter_cons_of_pos (decide_eq_true hmem)
        rw [hkeep, hrest, List.map_cons, List.sum_cons]
        simp only [List.map_append, List.map_cons, List.sum_append, List.sum_cons, entryOf] at hle ⊢
        omega
      · rw [List.filter_cons_of_neg (by simpa using hmem)]
        exact ih hnames (fun other hother => hcopies other (List.mem_cons_of_mem _ hother))

theorem waitingBytes_le {s : Spool} (h : Filed config s) : waitingBytes config s ≤ (heldLengths config s).sum := by
  have hsplit := (List.filter_append_perm (fun entry => decide (entry.1 ∈ s.activeFiles.map SpoolFile.path))
    s.dir.pending).map (fun entry => config.fileLength entry.2)
  have hnot : s.dir.pending.filter (fun entry => !decide (entry.1 ∈ s.activeFiles.map SpoolFile.path)) =
      s.dir.pending.filter (fun entry => entry.1 ∉ s.activeFiles.map SpoolFile.path) :=
    List.filter_congr (fun entry _ => by rw [decide_not])
  have hcopies := copies_le h.names h.copies
  rw [waitingBytes, fileLengths, ← hsplit.sum_eq, hnot, heldLengths, heldFiles, List.map_append, List.map_append,
    List.sum_append, List.sum_append, Nat.add_comm]
  exact Nat.add_le_add_left hcopies _

theorem limitKept_of_fits {s : Spool} (h : Filed config s)
    (hfits : Fits config.maxTotalSizeBytes (heldLengths config s)) : LimitKept config s := by
  have hle := (waitingBytes_le h).trans (sum_le_of_fits hfits)
  rw [← fileLengths_flushAll h] at hle
  exact Nat.le_add_right_of_le hle

/-- The file that takes an event, before and behind others of other runs. -/
structure Opened (runId : String) (s : Spool) (pre : List SpoolFile) (file : SpoolFile) (post : List SpoolFile)
    (s' : Spool) : Prop where
  run : file.runId = runId
  others : ∀ f ∈ pre ++ post, f.runId ≠ runId
  active : s'.activeFiles = pre ++ file :: post
  dir : s'.dir = s.dir
  next : s.nextPath ≤ s'.nextPath
  below : file.path < s'.nextPath
  found : s.activeFiles = pre ++ file :: post ∨
    s.activeFiles = pre ++ post ∧ file.events = [] ∧ file.path = s.nextPath

theorem opened_getOrCreate {s : Spool} (h : Filed config s) (runId : String) :
    ∃ pre post, Opened runId s pre (getOrCreateSpoolFile runId s).1 post (getOrCreateSpoolFile runId s).2 := by
  simp only [getOrCreateSpoolFile]
  cases hfound : s.activeFiles.find? (fun file => file.runId == runId) with
  | some file =>
      obtain ⟨hrun, pre, post, heq, -⟩ := List.find?_eq_some_iff_append.mp hfound
      have hrun : file.runId = runId := by simpa using hrun
      refine ⟨pre, post, hrun, ?_, heq, rfl, le_rfl, ?_, .inl heq⟩
      · have hruns := h.runs
        rw [heq, List.map_append, List.map_cons, List.nodup_middle, List.nodup_cons, ← List.map_append] at hruns
        exact fun f hf heq' => hruns.1 (List.mem_map.mpr ⟨f, hf, heq'.trans hrun.symm⟩)
      · exact h.active_below file (heq ▸ List.mem_append_right _ List.mem_cons_self)
  | none =>
      refine ⟨s.activeFiles, [], rfl, fun f hf => ?_, rfl, rfl, Nat.le_succ _, Nat.lt_succ_self _,
        .inr ⟨?_, rfl, rfl⟩⟩
      · rw [List.append_nil] at hf
        simpa using List.find?_eq_none.mp hfound f hf
      · exact (List.append_nil _).symm

inductive Taken (config : SpoolConfig) (event : Event) (s : Spool) (s' : Spool) : Prop
  | kept (pre : List SpoolFile) (file : SpoolFile) (post : List SpoolFile) (t : Spool)
      (opened : Opened event.runId s pre file post t)
        (active : s'.activeFiles = pre ++ file.append config event :: post)
      (dir : s'.dir = s.dir) (next : s'.nextPath = t.nextPath)
  | rotated (pre : List SpoolFile) (file : SpoolFile) (post : List SpoolFile) (t : Spool)
      (opened : Opened event.runId s pre file post t) (active : s'.activeFiles = pre ++ post)
      (dir : s'.dir = (file.append config event).flush s.dir) (next : s'.nextPath = t.nextPath)

theorem taken_spool {s : Spool} (h : Filed config s) (event : Event) :
    (DiskSpool.spool config event s).2 = s ∧ config.maxTotalSizeBytes ≤ s.pendingBytes ∨
      s.pendingBytes < config.maxTotalSizeBytes ∧ Taken config event s (DiskSpool.spool config event s).2 := by
  obtain ⟨pre, post, hopened⟩ := opened_getOrCreate h event.runId
  simp only [DiskSpool.spool]
  split
  · exact .inl ⟨rfl, ‹_›⟩
  · refine .inr ⟨Nat.lt_of_not_le ‹_›, ?_⟩
    have hothers : ∀ f ∈ pre ++ post, (f.runId == event.runId) = false :=
      fun f hf => beq_false_of_ne (hopened.others f hf)
    have hfile := hopened.run
    generalize getOrCreateSpoolFile event.runId s = r at hopened hfile
    split
    · refine .rotated pre r.1 post r.2 hopened ?_ (by rw [hopened.dir]) rfl
      have hkeep : ∀ files : List SpoolFile, (∀ f ∈ files, f ∈ pre ++ post) →
          files.filter (fun f => f.runId != event.runId) = files := by
        intro files hsub
        exact List.filter_eq_self.mpr (fun f hf => by rw [bne, hothers f (hsub f hf)]; rfl)
      dsimp only
      rw [hopened.active, List.filter_append, List.filter_cons_of_neg (by simp [hfile]),
        hkeep pre (fun _ => List.mem_append_left _), hkeep post (fun _ => List.mem_append_right _)]
    · refine .kept pre r.1 post r.2 hopened ?_ hopened.dir rfl
      have hkeep : ∀ files : List SpoolFile, (∀ f ∈ files, f ∈ pre ++ post) →
          files.map (fun f => if f.runId == event.runId then r.1.append config event else f) = files := by
        intro files hsub
        calc files.map (fun f => if f.runId == event.runId then r.1.append config event else f) = files.map id :=
              List.map_congr_left (fun f hf => if_neg (by simp [hothers f (hsub f hf)]))
          _ = files := List.map_id _
      dsimp only
      rw [hopened.active, List.map_append, List.map_cons, hkeep pre (fun _ => List.mem_append_left _),
        hkeep post (fun _ => List.mem_append_right _), if_pos (by simp [hfile])]

theorem opened_sublist {s t : Spool} {runId : String} {pre post : List SpoolFile} {file : SpoolFile}
    (h : Opened runId s pre file post t) : (pre ++ post).Sublist s.activeFiles := by
  rcases h.found with heq | ⟨heq, -, -⟩
  · rw [heq]
    exact (List.sublist_cons_self _ _).append_left pre
  · rw [heq]

theorem opened_path {s t : Spool} (hs : Filed config s)
    {runId : String} {pre post : List SpoolFile} {file : SpoolFile}
    (h : Opened runId s pre file post t) : file.path ∉ (pre ++ post).map SpoolFile.path := by
  rcases h.found with heq | ⟨heq, -, hpath⟩
  · have hpaths := hs.paths
    rw [heq, List.map_append, List.map_cons, List.nodup_middle, List.nodup_cons, ← List.map_append] at hpaths
    exact hpaths.1
  · intro hmem
    obtain ⟨f, hf, hsame⟩ := List.mem_map.mp hmem
    have hlt := hs.active_below f (heq ▸ hf)
    rw [hsame, hpath] at hlt
    exact Nat.lt_irrefl _ hlt

/-- A file that has events is no longer without the next one. -/
def Grows (config : SpoolConfig) : Prop :=
  ∀ events event, events ≠ [] → config.fileLength events ≤ config.fileLength (events ++ [event])

theorem grows_jsonSpool (maxFileSizeBytes maxTotalSizeBytes : Nat) (eventLength : Event → Nat)
    (envelope : Option Event → Nat) :
      Grows (jsonSpool maxFileSizeBytes maxTotalSizeBytes eventLength envelope) := by
  intro events event hne
  simp only [jsonSpool, List.head?_append_of_ne_nil _ hne, List.map_append, List.sum_append, List.length_append]
  omega

theorem filed_taken (hgrows : Grows config) {s s' : Spool} (h : Filed config s) {event : Event}
    (htaken : Taken config event s s') : Filed config s' := by
  have hbelow : ∀ {pre file post t}, Opened event.runId s pre file post t → ∀ f ∈ pre ++ post,
    f.path < t.nextPath :=
    fun hopened f hf => (h.active_below f ((opened_sublist hopened).subset hf)).trans_le hopened.next
  cases htaken with
  | kept pre file post t hopened hactive hdir hnext =>
      have hmem : ∀ f ∈ s'.activeFiles, f ∈ pre ++ post ∨ f = file.append config event := by
        intro f hf
        rw [hactive, List.mem_append, List.mem_cons] at hf
        rw [List.mem_append]
        tauto
      constructor
      · rw [hactive, List.map_append, List.map_cons, List.nodup_middle, List.nodup_cons, ← List.map_append]
        have hpath := opened_path h hopened
        exact ⟨hpath, h.paths.sublist ((opened_sublist hopened).map _)⟩
      · rw [hactive, List.map_append, List.map_cons, List.nodup_middle, List.nodup_cons, ← List.map_append]
        refine ⟨fun hrun => ?_, h.runs.sublist ((opened_sublist hopened).map _)⟩
        obtain ⟨f, hf, hsame⟩ := List.mem_map.mp hrun
        exact hopened.others f hf (hsame.trans hopened.run)
      · exact hdir ▸ h.names
      · intro f hf
        rw [hnext]
        rcases hmem f hf with hf | rfl
        · exact hbelow hopened f hf
        · exact hopened.below
      · intro entry hentry
        rw [hdir] at hentry
        rw [hnext]
        exact (h.pending_below entry hentry).trans_le hopened.next
      · intro entry hentry f hf hpath
        rw [hdir] at hentry
        rcases hmem f hf with hf | rfl
        · exact h.copies entry hentry f ((opened_sublist hopened).subset hf) hpath
        · have hpath : entry.1 = file.path := hpath
          rcases hopened.found with heq | ⟨-, -, hnew⟩
          · have hfile : file ∈ s.activeFiles := heq ▸ List.mem_append_right _ List.mem_cons_self
            exact (h.copies entry hentry file hfile hpath).trans (hgrows _ event (h.filled file hfile))
          · exact absurd (hpath.trans hnew) (h.pending_below entry hentry).ne
      · intro f hf
        rcases hmem f hf with hf | rfl
        · exact h.filled f ((opened_sublist hopened).subset hf)
        · exact List.append_ne_nil_of_right_ne_nil _ (List.cons_ne_nil _ _)
  | rotated pre file post t hopened hactive hdir hnext =>
      have hpending : ∀ entry ∈ s'.dir.pending, entry ∈ s.dir.pending ∨ entry =
        entryOf (file.append config event) :=
        fun entry hentry => DiskSpool.flush_pending (hdir ▸ hentry)
      constructor
      · exact hactive ▸ h.paths.sublist ((opened_sublist hopened).map _)
      · exact hactive ▸ h.runs.sublist ((opened_sublist hopened).map _)
      · exact hdir ▸ DiskSpool.flush_nodup _ h.names
      · intro f hf
        rw [hnext]
        exact hbelow hopened f (hactive ▸ hf)
      · intro entry hentry
        rw [hnext]
        rcases hpending entry hentry with hentry | rfl
        · exact (h.pending_below entry hentry).trans_le hopened.next
        · exact hopened.below
      · intro entry hentry f hf hpath
        rw [hactive] at hf
        rcases hpending entry hentry with hentry | rfl
        · exact h.copies entry hentry f ((opened_sublist hopened).subset hf) hpath
        · have hapart := opened_path h hopened
          exact absurd (List.mem_map.mpr ⟨f, hf, hpath.symm⟩) hapart
      · exact fun f hf => h.filled f ((opened_sublist hopened).subset (hactive ▸ hf))

theorem heldFiles_taken {s s' : Spool} (h : Filed config s) {event : Event} (htaken : Taken config event s s') :
    ∃ entry rest, (heldFiles s').Perm (entry :: rest) ∧ rest.Sublist (heldFiles s) := by
  have hrest : ∀ {pre file post t}, Opened event.runId s pre file post t →
      (s.dir.pending.filter (fun entry => entry.1 ∉ (pre ++ file :: post).map SpoolFile.path) ++
        (pre ++ post).map entryOf).Sublist (heldFiles s) := by
    intro pre file post t hopened
    refine List.Sublist.append (List.monotone_filter_right _ ?_) ((opened_sublist hopened).map _)
    intro entry hentry
    refine decide_eq_true (fun hmem => of_decide_eq_true hentry ?_)
    rcases hopened.found with heq | ⟨heq, -, -⟩
    · exact heq ▸ hmem
    · rw [heq] at hmem
      exact ((List.sublist_cons_self _ _).append_left pre).map _ |>.subset hmem
  cases htaken with
  | kept pre file post t hopened hactive hdir hnext =>
      refine ⟨entryOf (file.append config event), _, ?_, hrest hopened⟩
      have hpaths : (pre ++ file.append config event :: post).map SpoolFile.path =
          (pre ++ file :: post).map SpoolFile.path := by
        rw [List.map_append, List.map_append]
        rfl
      rw [heldFiles, hactive, hdir, hpaths]
      generalize s.dir.pending.filter (fun entry => entry.1 ∉ (pre ++ file :: post).map SpoolFile.path) = waiting
      rw [List.map_append, List.map_cons, List.map_append, ← List.append_assoc, ← List.append_assoc]
      exact List.perm_middle
  | rotated pre file post t hopened hactive hdir hnext =>
      refine ⟨entryOf (file.append config event), _, ?_, hrest hopened⟩
      have hpath := opened_path h hopened
      have hne : (file.append config event).events ≠ [] :=
        List.append_ne_nil_of_right_ne_nil _ (List.cons_ne_nil _ _)
      have hlast : [entryOf (file.append config event)].filter (fun entry =>
          entry.1 ∉ (pre ++ post).map SpoolFile.path) =
          [entryOf (file.append config event)] := List.filter_cons_of_pos (decide_eq_true hpath)
      have hboth : ∀ entry : Path × List Event,
          (decide (entry.1 ∉ (pre ++ post).map SpoolFile.path) && entry.1 != (file.append config event).path) =
            decide (entry.1 ∉ (pre ++ file :: post).map SpoolFile.path) := by
        intro entry
        have hname : (file.append config event).path = file.path := rfl
        rw [hname, Bool.eq_iff_iff, Bool.and_eq_true, decide_eq_true_iff, decide_eq_true_iff, bne_iff_ne]
        simp only [List.map_append, List.map_cons, List.mem_append, List.mem_cons]
        tauto
      rw [heldFiles, hactive, hdir, flush_filled hne, List.filter_append, hlast, List.filter_filter,
        List.filter_congr (fun entry _ => hboth entry), List.append_assoc, List.singleton_append]
      exact List.perm_middle

theorem filed_sublist {s : Spool} (h : Filed config s)
    {dir : SpoolDir} (hsub : dir.pending.Sublist s.dir.pending) :
    Filed config { s with dir := dir } where
  paths := h.paths
  runs := h.runs
  names := h.names.sublist (hsub.map _)
  active_below := h.active_below
  pending_below entry hentry := h.pending_below entry (hsub.subset hentry)
  copies entry hentry := h.copies entry (hsub.subset hentry)
  filled := h.filled

theorem heldFiles_sublist {s : Spool} {dir : SpoolDir} (hsub : dir.pending.Sublist s.dir.pending) :
    (heldFiles { s with dir := dir }).Sublist (heldFiles s) :=
  (hsub.filter _).append (List.Sublist.refl _)

theorem filed_flushAll {s : Spool} (h : Filed config s) : Filed config (flushAll s) := by
  have hpending : ∀ entry ∈ (flushAll s).dir.pending, entry ∈ s.dir.pending ∨ ∃ file ∈ s.activeFiles,
    entryOf file = entry := by
    intro entry hentry
    rw [flushAll_pending h, heldFiles, List.mem_append, List.mem_map] at hentry
    exact hentry.imp_left (fun hentry => (List.mem_filter.mp hentry).1)
  refine ⟨h.paths, h.runs, ?_, h.active_below, fun entry hentry => ?_, fun entry hentry f hf hpath => ?_, h.filled⟩
  · rw [flushAll_pending h, heldFiles, List.map_append, List.map_map, List.nodup_append]
    refine ⟨h.names.sublist (List.filter_sublist.map _), h.paths, ?_⟩
    intro path hpath other hother heq
    obtain ⟨entry, hentry, rfl⟩ := List.mem_map.mp hpath
    exact of_decide_eq_true (List.mem_filter.mp hentry).2 (heq ▸ hother)
  · rcases hpending entry hentry with hentry | ⟨file, hfile, rfl⟩
    · exact h.pending_below entry hentry
    · exact h.active_below file hfile
  · rcases hpending entry hentry with hentry | ⟨file, hfile, rfl⟩
    · exact h.copies entry hentry f hf hpath
    · obtain rfl := List.inj_on_of_nodup_map h.paths hfile hf hpath
      exact le_rfl

theorem heldFiles_flushAll {s : Spool} (h : Filed config s) : heldFiles (flushAll s) = heldFiles s := by
  have hkept : ∀ entry ∈ s.activeFiles.map entryOf,
    ¬(decide (entry.1 ∉ s.activeFiles.map SpoolFile.path) = true) := by
    intro entry hentry hnot
    obtain ⟨file, hfile, rfl⟩ := List.mem_map.mp hentry
    exact of_decide_eq_true hnot (List.mem_map_of_mem hfile)
  change (flushAll s).dir.pending.filter (fun entry => entry.1 ∉ s.activeFiles.map SpoolFile.path) ++
    s.activeFiles.map entryOf = heldFiles s
  rw [flushAll_pending h, heldFiles, List.filter_append, List.filter_filter, List.filter_eq_nil_iff.mpr hkept,
    List.append_nil]
  simp only [Bool.and_self]

/-- A spool in order, whose files after a flush would keep within the limit. -/
structure Limited (config : SpoolConfig) (s : Spool) : Prop where
  filed : Filed config s
  fits : Fits config.maxTotalSizeBytes (heldLengths config s)

theorem heldBytes_eq {s : Spool} (h : Filed config s) : heldBytes config s = (heldLengths config s).sum :=
  congrArg List.sum (fileLengths_flushAll h)

theorem limited_spool (hgrows : Grows config) {s : Spool} (h : Limited config s) {event : Event}
    (hseen : config.maxTotalSizeBytes ≤ s.pendingBytes ∨ heldBytes config s < config.maxTotalSizeBytes) :
    Limited config (DiskSpool.spool config event s).2 := by
  rcases taken_spool h.filed event with ⟨hsame, -⟩ | ⟨hroom, htaken⟩
  · rw [hsame]
    exact h
  · obtain ⟨entry, rest, hperm, hsub⟩ := heldFiles_taken h.filed htaken
    have hheld := hseen.resolve_left (Nat.not_le.mpr hroom)
    rw [heldBytes_eq h.filed] at hheld
    have hrest : (rest.map (fun entry => config.fileLength entry.2)).sum ≤ config.maxTotalSizeBytes :=
      ((hsub.map _).sum_le_sum (fun _ _ => Nat.zero_le _)).trans hheld.le
    exact ⟨filed_taken hgrows h.filed htaken, fits_perm (hperm.map _).symm (fits_cons hrest _)⟩

theorem limited_sublist {s : Spool} (h : Limited config s) {dir : SpoolDir}
    (hsub : dir.pending.Sublist s.dir.pending) : Limited config { s with dir := dir } :=
  ⟨filed_sublist h.filed hsub, fits_sublist h.fits ((heldFiles_sublist hsub).map _)⟩

theorem limited_step (hgrows : Grows config) (past : List (Op × Reply)) (s : Sync) (op : Op)
    (h : Limited config s.spool) (hg : LimitSeen config past s op) :
      Limited config (step config s op).2.spool := by
  cases op with
  | spool event => exact limited_spool hgrows h hg
  | flushAll =>
      refine ⟨filed_flushAll h.filed, ?_⟩
      change Fits _ (heldLengths config (flushAll s.spool))
      rw [heldLengths, heldFiles_flushAll h.filed]
      exact h.fits
  | updateStats =>
      exact ⟨⟨h.filed.paths, h.filed.runs, h.filed.names, h.filed.active_below, h.filed.pending_below,
        h.filed.copies,
        h.filed.filled⟩, h.fits⟩
  | markSynced =>
      simp only [step]
      split
      · exact limited_sublist h List.filter_sublist
      · exact h
  | list | read | send success | raise | stop => exact h

theorem limited_start {contents : List (List Event)}
    (h : (contents.map config.fileLength).sum ≤ config.maxTotalSizeBytes) :
    Limited config (Sync.start contents).spool := by
  have hnames : (leftFiles contents).map Prod.fst = List.range' 0 contents.length := by
    rw [leftFiles, List.map_map]
    exact List.zipIdx_map_snd 0 contents
  have hlengths : heldLengths config (Sync.start contents).spool = contents.map config.fileLength := by
    have hall : (leftFiles contents).filter (fun entry => entry.1 ∉ ([] : List SpoolFile).map SpoolFile.path) =
        leftFiles contents := List.filter_eq_self.mpr (fun entry _ => decide_eq_true List.not_mem_nil)
    change ((leftFiles contents).filter (fun entry :
      Path × List Event => entry.1 ∉ ([] : List SpoolFile).map SpoolFile.path) ++ []).map
      (fun entry : Path × List Event => config.fileLength entry.2) = _
    rw [hall, List.append_nil, leftFiles, List.map_map]
    calc contents.zipIdx.map (fun entry => config.fileLength entry.1)
        = (contents.zipIdx.map Prod.fst).map config.fileLength := (List.map_map ..).symm
      _ = contents.map config.fileLength := by rw [List.zipIdx_map_fst]
  refine ⟨⟨List.nodup_nil, List.nodup_nil, ?_, fun _ hf => absurd hf List.not_mem_nil, ?_,
    fun _ _ _ hf => absurd hf List.not_mem_nil, fun _ hf => absurd hf List.not_mem_nil⟩, .inl (hlengths ▸ h)⟩
  · rw [Sync.start, hnames]
    exact List.nodup_range'
  · intro entry hentry
    obtain ⟨file, hfile, rfl⟩ := List.mem_map.mp hentry
    exact List.snd_lt_of_mem_zipIdx hfile

/-- The limit is kept throughout a run in which it is tested against a number that shows
whether what is held has reached it. -/
theorem limit_kept (maxFileSizeBytes maxTotalSizeBytes : Nat) (eventLength : Event → Nat)
    (envelope : Option Event → Nat) (contents : List (List Event)) (ops : List Op) :
    let config := jsonSpool maxFileSizeBytes maxTotalSizeBytes eventLength envelope
    (contents.map config.fileLength).sum ≤ maxTotalSizeBytes →
    Guarded (step config) (LimitSeen config) [] (.start contents) ops →
    ∀ before later, ops = before ++ later →
      LimitKept config (after (step config) (.start contents) before).spool := by
  rintro config hstart hg before later rfl
  have hgrows := grows_jsonSpool maxFileSizeBytes maxTotalSizeBytes eventLength envelope
  have hlimited := invariant_history (m := step config) (G := LimitSeen config)
    (fun (_ : List (Op × Reply)) (s : Sync) => Limited config s.spool)
      (limited_step hgrows) [] (.start contents) before
    (limited_start hstart) ((guarded_append [] _ before later).mp hg).1
  exact limitKept_of_fits hlimited.filed hlimited.fits

def refreshed (ops : List Op) : List Op :=
  ops.flatMap fun
    | .spool event => [.flushAll, .updateStats, .spool event]
    | op => [op]

theorem guarded_refreshed (hgrows : Grows config) (ops : List Op) (past : List (Op × Reply)) {s : Sync}
    (h : Limited config s.spool) : Guarded (step config) (LimitSeen config) past s (refreshed ops) := by
  induction ops generalizing past s with
  | nil => trivial
  | cons op ops ih =>
      have hone : ∀ past s op, Limited config s.spool → LimitSeen config past s op →
          Limited config (step config s op).2.spool := limited_step hgrows
      rw [refreshed, List.flatMap_cons, ← refreshed, guarded_append]
      cases op with
      | spool event =>
          have hflushed : Limited config (flushAll s.spool) := hone past s .flushAll h trivial
          have hread : Limited config (updateStats config (flushAll s.spool)) :=
            hone past ⟨flushAll s.spool, s.pass⟩ .updateStats hflushed trivial
          have hseen : config.maxTotalSizeBytes ≤ (updateStats config (flushAll s.spool)).pendingBytes ∨
              heldBytes config (updateStats config (flushAll s.spool)) < config.maxTotalSizeBytes := by
            have hsame : heldBytes config (updateStats config (flushAll s.spool)) =
                (updateStats config (flushAll s.spool)).pendingBytes := by
              rw [heldBytes_eq hread.filed]
              change (heldLengths config (flushAll s.spool)).sum = heldBytes config s.spool
              rw [heldLengths, heldFiles_flushAll h.filed, heldBytes_eq h.filed, heldLengths]
            rw [hsame]
            exact (Nat.lt_or_ge _ _).symm
          exact ⟨⟨trivial, trivial, hseen, trivial⟩, ih _ (limited_spool hgrows hread hseen)⟩
      | flushAll | updateStats | list | read | send success | markSynced | raise | stop =>
          exact ⟨⟨trivial, trivial⟩, ih _ (hone past s _ h trivial)⟩

def smallSpool : SpoolConfig := jsonSpool 100 500 (fun _ => 100) (fun _ => 60)

theorem limit_kept_read :
    let ops : List Op := refreshed (List.replicate 6 (.spool ⟨.metric, "r", 0, "loss"⟩))
    Guarded (step smallSpool) (LimitSeen smallSpool) [] (.start []) ops ∧
      ∀ before later, ops = before ++ later →
        LimitKept smallSpool (after (step smallSpool) (.start []) before).spool :=
  have hg : Guarded (step smallSpool) (LimitSeen smallSpool) [] (.start [])
      (refreshed (List.replicate 6 (.spool ⟨.metric, "r", 0, "loss"⟩))) :=
    guarded_refreshed (grows_jsonSpool 100 500 (fun _ => 100) (fun _ => 60)) _ [] (limited_start (Nat.zero_le _))
  ⟨hg, limit_kept 100 500 (fun _ => 100) (fun _ => 60) [] _ (Nat.zero_le _) hg⟩

theorem limit_unread :
    ¬LimitKept smallSpool (after (step smallSpool) (.start [])
      (List.replicate 20 (.spool ⟨.metric, "r", 0, "loss"⟩))).spool := by
  unfold LimitKept
  decide

end MLRunX.SpoolLimit
