import MLRunX.Ingest
import MLRunX.MetricQuery
import MLRunX.Paging

namespace MLRunX.RunComparison

open Auth Http Ingest IngestRequest Paging RunTables Sqlite Tables
open MetricQuery (MetricSeriesRow getMetrics)

def maxCompareRunIds : Nat := 5000

def maxComparePageLimit : Nat := 1000

structure MetricAliasRow where
  projectId : String
  metricName : String
  displayName : String
  isActive : Bool

structure CompareStore where
  runs : Table RunRow RunRow.clash
  metrics : List MetricQuery.MetricRow
  aliases : List MetricAliasRow

structure CompareEnv where
  flags : EndpointRbacTier → Bool
  overflowChecks : Bool

/-- What the database refuses, for each run, and for each project its aliases. -/
structure CompareFaults where
  getRun : String → Option String := fun _ => none
  getMetrics : String → Option String := fun _ => none
  getMetricNames : String → Option String := fun _ => none
  aliases : String → Option String := fun _ => none

structure CompareRunsRequest where
  runIds : List String
  metricNames : List String := []
  maxPoints : UInt64 := 1000
  alignment : String := "step"
  limit : Nat := 100
  offset : Nat := 0

structure RunCompareData where
  runId : String
  runName : Option String
  status : String
  series : List MetricSeriesRow
  metricAliases : List (String × String)

structure CompareRunsResponse where
  runs : List RunCompareData
  commonMetrics : List String
  alignment : String
  total : Nat
  limit : Nat
  offset : Nat

def getMetricNames (fault : Option String) (runId : String) (s : CompareStore) : Sql (List String) :=
  statement fault (.ok
    (((s.metrics.filter (fun m => m.runId == runId)).map MetricQuery.MetricRow.name).dedup.insertionSort (· ≤ ·)))

def getMetricAliasMap (fault : Option String) (projectId : String) (s : CompareStore) : Sql (List (String × String)) :=
  statement fault (.ok (((s.aliases.filter (fun a => a.projectId == projectId)).filter MetricAliasRow.isActive).map
    (fun a => (a.metricName, a.displayName))))

def uniqueRunIds (seen : List String) : List String → List String
  | [] => []
  | id :: ids => if seen.contains id then uniqueRunIds seen ids else id :: uniqueRunIds (id :: seen) ids

/-- The names that all sets share, in order. -/
def intersection : List (List String) → List String
  | [] => []
  | first :: sets =>
      (sets.foldl (fun common set => common.filter (fun name => set.contains name)) first).insertionSort (· ≤ ·)

def getOrDefault {α : Type} (default : α) : Sql α → α
  | .ok a => a
  | .error _ => default

def queryFailure : MetricQuery.QueryFailure → Failure
  | .sqlite _ => .http internalError
  | .overflow => .panic

/-- The aliases of a project are read once; what was read, or an empty map where
reading failed, is kept for the runs to come. -/
def cachedAliases (fault : Option String) (projectId : String) (s : CompareStore)
    (cache : List (String × List (String × String))) :
      List (String × String) × List (String × List (String × String)) :=
  match cache.lookup projectId with
  | some aliases => (aliases, cache)
  | none =>
      let aliases := getOrDefault [] (getMetricAliasMap fault projectId s)
      (aliases, (projectId, aliases) :: cache)

def readableRun (flags : EndpointRbacTier → Bool) (auth : AuthContext) (fault : Option String) (runId : String)
    (runs : Table RunRow RunRow.clash) : Answer RunRow :=
  match statement fault (.ok (runs.find (fun r => r.id == runId))) with
  | .error e => .error (runError e)
  | .ok none => .error (runError (.notFound s!"Run not found: {runId}"))
  | .ok (some run) => do
      requireEndpointAccess auth flags .read (some run.projectId)
      requireUiRunOwner auth run
      pure run

variable (env : CompareEnv) (auth : AuthContext)

def runSeries (req : CompareRunsRequest) (fault : Option String) (runId : String) (s : CompareStore) :
    Except Failure (List MetricSeriesRow) :=
  match fault with
  | some _ => .error (.http internalError)
  | none => (getMetrics env.overflowChecks s.metrics runId req.metricNames req.maxPoints none none).mapError
      queryFailure

/-- The runs of a page with the names of their metrics. -/
def compareLoop (req : CompareRunsRequest) (faults : CompareFaults) (s : CompareStore) :
    List String → List (String × List (String × String)) → Except Failure (List (RunCompareData × List String))
  | [], _ => .ok []
  | runId :: runIds, cache => do
      let run ← (readableRun env.flags auth (faults.getRun runId) runId s.runs).mapError Failure.http
      let series ← runSeries env req (faults.getMetrics runId) runId s
      let available := getOrDefault [] (getMetricNames (faults.getMetricNames runId) runId s)
      let aliases := cachedAliases (faults.aliases run.projectId) run.projectId s cache
      let rest ← compareLoop req faults s runIds aliases.2
      pure ((⟨runId, run.name, run.status, series, aliases.1⟩, available) :: rest)

def pageLimit (req : CompareRunsRequest) : Nat := min req.limit maxComparePageLimit

def pagedRunIds (req : CompareRunsRequest) : List String :=
  ((uniqueRunIds [] req.runIds).drop req.offset).take (pageLimit req)

def validateCompare (req : CompareRunsRequest) : Answer Unit :=
  if req.runIds = [] then .error (badRequest "run_ids cannot be empty")
  else if maxCompareRunIds < req.runIds.length then
    .error (badRequest s!"Maximum {maxCompareRunIds} runs can be compared")
  else if req.limit = 0 then .error (badRequest "limit must be >= 1")
  else .ok ()

def httpCompareRuns (req : CompareRunsRequest) (faults : CompareFaults) (s : CompareStore) :
    Except Failure CompareRunsResponse := do
  (validateCompare req).mapError Failure.http
  let page ← compareLoop env auth req faults s (pagedRunIds req) []
  pure {
    runs := page.map Prod.fst
    commonMetrics := intersection (page.map Prod.snd)
    alignment := req.alignment
    total := (uniqueRunIds [] req.runIds).length
    limit := pageLimit req
    offset := req.offset }

/-! The ids of a request. -/

theorem mem_uniqueRunIds {seen ids : List String} {id : String} :
    id ∈ uniqueRunIds seen ids ↔ id ∈ ids ∧ id ∉ seen := by
  induction ids generalizing seen with
  | nil => simp [uniqueRunIds]
  | cons first ids ih =>
      rw [uniqueRunIds]
      split
      · rename_i hseen
        have hseen : first ∈ seen := by simpa using hseen
        rw [ih, List.mem_cons]
        constructor
        · rintro ⟨hid, hnew⟩
          exact ⟨.inr hid, hnew⟩
        · rintro ⟨rfl | hid, hnew⟩
          · exact absurd hseen hnew
          · exact ⟨hid, hnew⟩
      · rename_i hseen
        have hseen : first ∉ seen := by simpa using hseen
        rw [List.mem_cons, ih, List.mem_cons, List.mem_cons]
        by_cases hid : id = first
        · subst hid
          simp [hseen]
        · simp [hid]

/-- The ids in the order in which they occur first. -/
def OnceInOrder (runIds ids : List String) : Prop :=
  (∀ id, id ∈ ids ↔ id ∈ runIds) ∧ ids.Pairwise (fun a b => runIds.idxOf a < runIds.idxOf b)

theorem uniqueRunIds_pairwise (seen ids : List String) :
    (uniqueRunIds seen ids).Pairwise (fun a b => ids.idxOf a < ids.idxOf b) := by
  have hshift : ∀ {first : String} {ids : List String} {seen : List String}, first ∈ seen →
      (uniqueRunIds seen ids).Pairwise (fun a b => ids.idxOf a < ids.idxOf b) →
      (uniqueRunIds seen ids).Pairwise (fun a b => (first :: ids).idxOf a < (first :: ids).idxOf b) := by
    intro first ids seen hfirst h
    apply h.imp_of_mem
    intro a b ha hb hab
    have ha : first ≠ a := fun heq => (mem_uniqueRunIds.mp ha).2 (heq ▸ hfirst)
    have hb : first ≠ b := fun heq => (mem_uniqueRunIds.mp hb).2 (heq ▸ hfirst)
    rw [List.idxOf_cons_ne _ ha, List.idxOf_cons_ne _ hb]
    exact Nat.succ_lt_succ hab
  induction ids generalizing seen with
  | nil => exact .nil
  | cons first ids ih =>
      rw [uniqueRunIds]
      split
      · rename_i hseen
        exact hshift (by simpa using hseen) (ih seen)
      · apply List.pairwise_cons.mpr ⟨_, hshift List.mem_cons_self (ih _)⟩
        intro b hb
        have hne : first ≠ b := fun heq => (mem_uniqueRunIds.mp hb).2 (heq ▸ List.mem_cons_self)
        rw [List.idxOf_cons_self, List.idxOf_cons_ne _ hne]
        exact Nat.succ_pos _

theorem onceInOrder_uniqueRunIds (runIds : List String) : OnceInOrder runIds (uniqueRunIds [] runIds) :=
  ⟨fun _ => mem_uniqueRunIds.trans (and_iff_left List.not_mem_nil), uniqueRunIds_pairwise [] runIds⟩

theorem OnceInOrder.nodup {runIds ids : List String} (h : OnceInOrder runIds ids) : ids.Nodup := by
  apply h.2.imp
  intro a b hlt heq
  subst heq
  exact Nat.lt_irrefl _ hlt

theorem length_uniqueRunIds (runIds : List String) : (uniqueRunIds [] runIds).length = runIds.dedup.length := by
  apply List.Perm.length_eq
  apply (List.perm_ext_iff_of_nodup (onceInOrder_uniqueRunIds runIds).nodup (List.nodup_dedup runIds)).mpr
  intro id
  rw [(onceInOrder_uniqueRunIds runIds).1, List.mem_dedup]

/-! The metrics of a page. -/

def Logged (s : CompareStore) (runId name : String) : Prop := ∃ m ∈ s.metrics, m.runId = runId ∧ m.name = name

def namesOf (s : CompareStore) (runId : String) : List String := getOrDefault [] (getMetricNames none runId s)

theorem mem_namesOf {s : CompareStore} {runId name : String} : name ∈ namesOf s runId ↔ Logged s runId name := by
  simp [namesOf, getOrDefault, getMetricNames, Logged, and_assoc]

theorem mem_intersection {sets : List (List String)} (hsets : sets ≠ []) {name : String} :
    name ∈ intersection sets ↔ ∀ set ∈ sets, name ∈ set := by
  cases sets with
  | nil => exact absurd rfl hsets
  | cons first sets =>
      rw [intersection, List.mem_insertionSort, List.forall_mem_cons]
      clear hsets
      induction sets generalizing first with
      | nil => simp
      | cons set sets ih =>
          rw [List.foldl_cons, ih, List.mem_filter, List.forall_mem_cons, List.contains_iff_mem, and_assoc]

variable {env auth}

theorem compareLoop_ok {req : CompareRunsRequest} {s : CompareStore} {runIds : List String}
    {cache : List (String × List (String × String))} {page : List (RunCompareData × List String)}
    (h : compareLoop env auth req {} s runIds cache = .ok page) :
    page.map (fun entry => entry.1.runId) = runIds ∧ page.map Prod.snd = runIds.map (namesOf s) := by
  induction runIds generalizing cache page with
  | nil =>
      obtain rfl := Except.ok.inj h
      exact ⟨rfl, rfl⟩
  | cons runId runIds ih =>
      obtain ⟨run, -, h₁⟩ := Fallible.bind_eq_ok.mp h
      obtain ⟨series, -, h₂⟩ := Fallible.bind_eq_ok.mp h₁
      obtain ⟨rest, hrest, h₃⟩ := Fallible.bind_eq_ok.mp h₂
      obtain ⟨hids, hnames⟩ := ih hrest
      obtain rfl := Except.ok.inj h₃
      rw [List.map_cons, List.map_cons, List.map_cons, hids, hnames]
      exact ⟨rfl, rfl⟩

theorem httpCompareRuns_ok {req : CompareRunsRequest} {s : CompareStore} {response : CompareRunsResponse}
    (h : httpCompareRuns env auth req {} s = .ok response) :
    response.runs.map RunCompareData.runId = pagedRunIds req ∧
      response.commonMetrics = intersection ((pagedRunIds req).map (namesOf s)) ∧
      response.total = req.runIds.dedup.length ∧ 0 < req.limit := by
  obtain ⟨_, hvalid, h₁⟩ := Fallible.bind_eq_ok.mp h
  obtain ⟨page, hpage, h₂⟩ := Fallible.bind_eq_ok.mp h₁
  obtain ⟨hids, hnames⟩ := compareLoop_ok hpage
  obtain rfl := Except.ok.inj h₂
  refine ⟨?_, ?_, length_uniqueRunIds req.runIds, ?_⟩
  · rw [List.map_map]
    exact hids
  · rw [← hnames]
  · apply Nat.pos_of_ne_zero
    intro hzero
    rw [validateCompare] at hvalid
    split at hvalid
    · cases hvalid
    · split at hvalid <;> cases hvalid

def pageRequest (req : CompareRunsRequest) (k : Nat) : CompareRunsRequest := { req with offset := k * req.limit }

/-- The pages together show every run once, and each of them tells about all. -/
structure Complete (s : CompareStore) (req : CompareRunsRequest) (response : Nat → CompareRunsResponse) : Prop where
  runs : ∀ n, req.runIds.dedup.length ≤ n * req.limit →
    OnceInOrder req.runIds ((List.range n).flatMap (fun k => (response k).runs.map RunCompareData.runId))
  total : ∀ k, (response k).total = req.runIds.dedup.length
  common : ∀ k, k * req.limit < req.runIds.dedup.length → ∀ name, name ∈ (response k).commonMetrics ↔
    ∀ runId ∈ req.runIds, Logged s runId name

/-- The limit is not cut, or makes no difference, and what the runs of a page
have in common all requested runs have. -/
structure Pageable (s : CompareStore) (req : CompareRunsRequest) : Prop where
  uncut : req.limit ≤ maxComparePageLimit ∨ req.runIds.dedup.length ≤ maxComparePageLimit
  alike : ∀ k, k * req.limit < req.runIds.dedup.length → ∀ name,
    (∀ runId ∈ pagedRunIds (pageRequest req k), Logged s runId name) →
      ∀ runId ∈ req.runIds, Logged s runId name

theorem pagedRunIds_eq {req : CompareRunsRequest}
    (h : req.limit ≤ maxComparePageLimit ∨ req.runIds.dedup.length ≤ maxComparePageLimit) (k : Nat) :
    pagedRunIds (pageRequest req k) = ((uniqueRunIds [] req.runIds).drop (k * req.limit)).take req.limit := by
  rw [pagedRunIds, pageLimit]
  change ((uniqueRunIds [] req.runIds).drop (k * req.limit)).take (min req.limit maxComparePageLimit) = _
  by_cases hlimit : req.limit ≤ maxComparePageLimit
  · rw [Nat.min_eq_left hlimit]
  · have hlength : ((uniqueRunIds [] req.runIds).drop (k * req.limit)).length ≤ maxComparePageLimit := by
      rw [List.length_drop, length_uniqueRunIds]
      exact Nat.le_trans (Nat.sub_le _ _) (h.resolve_left hlimit)
    rw [Nat.min_eq_right (Nat.le_of_not_le hlimit), List.take_of_length_le hlength,
      List.take_of_length_le (Nat.le_trans hlength (Nat.le_of_not_le hlimit))]

theorem pagedRunIds_ne_nil {req : CompareRunsRequest} (hpos : 0 < req.limit) {k : Nat}
    (h : k * req.limit < req.runIds.dedup.length) : pagedRunIds (pageRequest req k) ≠ [] := by
  have hcut : 0 < pageLimit (pageRequest req k) := Nat.lt_min.mpr ⟨hpos, by decide⟩
  rw [← length_uniqueRunIds] at h
  intro hnil
  have hlen := congrArg List.length hnil
  rw [pagedRunIds, List.length_take, List.length_drop] at hlen
  simp only [List.length_nil, pageRequest] at hlen hcut
  omega

theorem mem_of_mem_page {req : CompareRunsRequest} {k : Nat} {runId : String}
    (h : runId ∈ pagedRunIds (pageRequest req k)) : runId ∈ req.runIds :=
  ((onceInOrder_uniqueRunIds req.runIds).1 runId).mp (List.mem_of_mem_drop (List.mem_of_mem_take h))

theorem uncut_of_pages {req : CompareRunsRequest}
    (h : ∀ runId ∈ req.runIds, ∃ k, runId ∈ pagedRunIds (pageRequest req k)) :
    req.limit ≤ maxComparePageLimit ∨ req.runIds.dedup.length ≤ maxComparePageLimit := by
  by_contra hnot
  obtain ⟨hlimit, hlength⟩ := not_or.mp hnot
  rw [← length_uniqueRunIds, Nat.not_le] at hlength
  have honce := onceInOrder_uniqueRunIds req.runIds
  obtain ⟨k, hk⟩ := h ((uniqueRunIds [] req.runIds)[maxComparePageLimit])
    ((honce.1 _).mp (List.getElem_mem hlength))
  have hcut : pageLimit (pageRequest req k) = maxComparePageLimit := Nat.min_eq_right (Nat.le_of_not_le hlimit)
  rw [pagedRunIds, hcut] at hk
  obtain ⟨i, hi, heq⟩ := List.getElem_of_mem hk
  rw [List.length_take, List.length_drop] at hi
  rw [List.getElem_take, List.getElem_drop] at heq
  have hindex := (List.Nodup.getElem_inj_iff honce.nodup).mp heq
  simp only [pageRequest] at hindex hi
  cases k with
  | zero => omega
  | succ k =>
      rw [Nat.succ_mul] at hindex
      omega

variable {s : CompareStore} {req : CompareRunsRequest} {response : Nat → CompareRunsResponse}

/-- The pages of a comparison are complete exactly when the limit is not cut and
all runs share what those of a page share. -/
theorem complete_iff (h : ∀ k, httpCompareRuns env auth (pageRequest req k) {} s = .ok (response k)) :
    Complete s req response ↔ Pageable s req := by
  have hpos : 0 < req.limit := (httpCompareRuns_ok (h 0)).2.2.2
  have hruns : ∀ n, (List.range n).flatMap (fun k => (response k).runs.map RunCompareData.runId) =
      (List.range n).flatMap (fun k => pagedRunIds (pageRequest req k)) := by
    intro n
    apply List.flatMap_congr
    intro k _
    exact (httpCompareRuns_ok (h k)).1
  have hcommon : ∀ k, k * req.limit < req.runIds.dedup.length → ∀ name, name ∈ (response k).commonMetrics ↔
      ∀ runId ∈ pagedRunIds (pageRequest req k), Logged s runId name := by
    intro k hk name
    rw [(httpCompareRuns_ok (h k)).2.1, mem_intersection]
    · simp [mem_namesOf]
    · intro hnil
      exact pagedRunIds_ne_nil hpos hk (List.map_eq_nil_iff.mp hnil)
  constructor
  · intro hcomplete
    refine ⟨uncut_of_pages (fun runId hrunId => ?_), fun k hk name hname => ?_⟩
    · have hall := hcomplete.runs req.runIds.dedup.length (Nat.le_mul_of_pos_right _ hpos)
      rw [hruns] at hall
      obtain ⟨k, -, hk⟩ := List.mem_flatMap.mp ((hall.1 runId).mpr hrunId)
      exact ⟨k, hk⟩
    · exact (hcomplete.common k hk name).mp ((hcommon k hk name).mpr hname)
  · intro hpageable
    refine ⟨fun n hn => ?_, fun k => (httpCompareRuns_ok (h k)).2.2.1, fun k hk name => ?_⟩
    · simp only [hruns, pagedRunIds_eq hpageable.uncut, flatMap_pages]
      rw [List.take_of_length_le (by rwa [length_uniqueRunIds])]
      exact onceInOrder_uniqueRunIds req.runIds
    · rw [hcommon k hk name]
      constructor
      · exact hpageable.alike k hk name
      · intro hall runId hrunId
        exact hall runId (mem_of_mem_page hrunId)

def localEnv : CompareEnv := ⟨fun _ => true, false⟩

def runA : RunRow := ⟨"a", "p", none, "running", none, none, 1, 0⟩

def runB : RunRow := ⟨"b", "p", none, "running", none, none, 1, 0⟩

def twoRuns (nameA nameB : String) : CompareStore where
  runs := ⟨[runA, runB], by decide⟩
  metrics := [⟨"a", nameA, 0, 1, by decide⟩, ⟨"b", nameB, 0, 1, by decide⟩]
  aliases := []

def singly : CompareRunsRequest := { runIds := ["a", "b", "a"], limit := 1 }

def responseOf : Except Failure CompareRunsResponse → CompareRunsResponse
  | .ok response => response
  | .error _ => ⟨[], [], "", 0, 0, 0⟩

theorem httpCompareRuns_behind (hvalid : validateCompare req = .ok ()) {k : Nat}
    (h : req.runIds.dedup.length ≤ k * req.limit) :
    ∃ response, httpCompareRuns env auth (pageRequest req k) {} s = .ok response := by
  have hpage : pagedRunIds (pageRequest req k) = [] := by
    rw [← length_uniqueRunIds] at h
    rw [pagedRunIds, pageRequest, List.drop_of_length_le h, List.take_nil]
  have hvalid' : validateCompare (pageRequest req k) = .ok () := hvalid
  rw [httpCompareRuns, hvalid', hpage]
  exact ⟨_, rfl⟩

def pagesOf (s : CompareStore) (k : Nat) : CompareRunsResponse :=
  responseOf (httpCompareRuns localEnv (.devMode 0) (pageRequest singly k) {} s)

theorem responseOf_ok {answer : Except Failure CompareRunsResponse} (h : ∃ response, answer = .ok response) :
    answer = .ok (responseOf answer) := by
  obtain ⟨response, rfl⟩ := h
  rfl

theorem pagesOf_ok {s : CompareStore} (hfirst : httpCompareRuns localEnv (.devMode 0) (pageRequest singly 0) {} s =
      .ok (pagesOf s 0)) (hsecond : httpCompareRuns localEnv (.devMode 0) (pageRequest singly 1) {} s =
        .ok (pagesOf s 1))
    (k : Nat) : httpCompareRuns localEnv (.devMode 0) (pageRequest singly k) {} s = .ok (pagesOf s k) := by
  rcases k with _ | _ | k
  · exact hfirst
  · exact hsecond
  · apply responseOf_ok (httpCompareRuns_behind rfl _)
    rw [show singly.runIds.dedup.length = 2 from rfl, show singly.limit = 1 from rfl]
    omega

theorem complete_iff_same_metric :
    Complete (twoRuns "loss" "loss") singly (pagesOf (twoRuns "loss" "loss")) := by
  apply (complete_iff (pagesOf_ok (by rfl) (by rfl))).mpr
  have hlogged : ∀ {runId name}, Logged (twoRuns "loss" "loss") runId name → name = "loss" := by
    rintro runId name ⟨m, hm, -, rfl⟩
    simp only [twoRuns, List.mem_cons, List.not_mem_nil, or_false] at hm
    rcases hm with rfl | rfl <;> rfl
  refine ⟨.inl (by decide), fun k hk name hname runId hrunId => ?_⟩
  have hk : k < 2 := by
    rw [show singly.runIds.dedup.length = 2 from rfl, show singly.limit = 1 from rfl] at hk
    omega
  have hloss : name = "loss" := by
    rcases k with _ | _ | k
    · exact hlogged (hname "a" (by decide))
    · exact hlogged (hname "b" (by decide))
    · omega
  subst hloss
  simp only [singly, List.mem_cons, List.not_mem_nil, or_false] at hrunId
  rcases hrunId with rfl | rfl | rfl
  · exact ⟨_, List.mem_cons_self, rfl, rfl⟩
  · exact ⟨_, List.mem_cons_of_mem _ List.mem_cons_self, rfl, rfl⟩
  · exact ⟨_, List.mem_cons_self, rfl, rfl⟩

theorem common_on_page : ¬ ∀ (env : CompareEnv) (auth : AuthContext) (s : CompareStore) (req : CompareRunsRequest)
    (response : Nat → CompareRunsResponse),
    (∀ k, httpCompareRuns env auth (pageRequest req k) {} s = .ok (response k)) → Complete s req response := by
  intro h
  have hcomplete := h localEnv (.devMode 0) (twoRuns "loss" "acc") singly (pagesOf (twoRuns "loss" "acc"))
    (pagesOf_ok (by rfl) (by rfl))
  have hcommon : "loss" ∈ (pagesOf (twoRuns "loss" "acc") 0).commonMetrics := by
    rw [show (pagesOf (twoRuns "loss" "acc") 0).commonMetrics = ["loss"] from rfl]
    exact List.mem_cons_self
  obtain ⟨m, hm, hrun, hname⟩ := (hcomplete.common 0 (by decide) "loss").mp hcommon "b" (by decide)
  simp only [twoRuns, List.mem_cons, List.not_mem_nil, or_false] at hm
  rcases hm with rfl | rfl
  · exact absurd hrun (by decide)
  · exact absurd hname (by decide)

end MLRunX.RunComparison
