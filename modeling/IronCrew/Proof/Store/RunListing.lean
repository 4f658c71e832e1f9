import IronCrew.Proof.Store.System
import IronCrew.Store.RunListing
import Mathlib.Data.String.Basic

/-!
# The run listings of the JSON store and of SQLite

Both listings are the matching records, newest first, cut to a page. With distinct start times the order
is determined, so the two agree wherever the pages do. A directory with more run files than a scan may
take is not listed at all.
-/

namespace IronCrew

open Fallible Outcome

/-! ### One order -/

theorem eq_of_newestFirst {α : Type} (time : α → String) {entries others : List α}
    (hperm : entries.Perm others) (hdistinct : (others.map time).Nodup)
    (hentries : entries.Pairwise fun a b => time b ≤ time a)
    (hothers : others.Pairwise fun a b => time b ≤ time a) : entries = others := by
  apply List.Perm.eq_of_pairwise _ hentries hothers hperm
  intro a b ha hb hba hab
  exact List.inj_on_of_nodup_map hdistinct (hperm.subset ha) hb (le_antisymm hab hba)

theorem pairwise_newestFirst {α : Type} (time : α → String) (entries : List α) :
    (entries.mergeSort fun a b => time b ≤ time a).Pairwise fun a b => time b ≤ time a := by
  have hsorted : (entries.mergeSort fun a b => decide (time b ≤ time a)).Pairwise
      fun a b => decide (time b ≤ time a) = true := by
    apply List.pairwise_mergeSort
    · intro a b c hab hbc
      simp only [decide_eq_true_eq] at *
      exact hbc.trans hab
    · intro a b
      simpa using le_total (time b) (time a)
  simpa using hsorted

theorem map_mergeSort_eq {records others : List RunRecord} (hperm : records.Perm others)
    (hdistinct : (others.map RunRecord.startedAt).Nodup) :
    (records.mergeSort fun row other => other.startedAt ≤ row.startedAt).map RunSummary.ofRecord =
      (others.map RunSummary.ofRecord).mergeSort RunSummary.newestFirst := by
  have htimes : ((others.map RunSummary.ofRecord).map RunSummary.startedAt).Nodup := by
    rw [List.map_map]
    exact hdistinct
  have hsorted := List.mergeSort_perm (others.map RunSummary.ofRecord) RunSummary.newestFirst
  apply eq_of_newestFirst RunSummary.startedAt
  · exact (((List.mergeSort_perm records _).trans hperm).map RunSummary.ofRecord).trans hsorted.symm
  · exact (hsorted.map RunSummary.startedAt).nodup_iff.mpr htimes
  · rw [List.pairwise_map]
    exact pairwise_newestFirst RunRecord.startedAt records
  · exact pairwise_newestFirst RunSummary.startedAt _

/-! ### One filter -/

theorem runsWhere_selects (filter : ListRunsFilter) (record : RunRecord) :
    (runsWhere filter).all (RunsClause.selects record) = filterMatches record filter := by
  obtain ⟨flow, status, tag, since⟩ := filter
  unfold runsWhere filterMatches
  cases flow <;> cases status <;> cases tag <;> cases since <;>
    simp [RunsClause.selects, Bool.if_false_left, ← String.not_lt] <;> grind

/-! ### One page -/

theorem asI64_of_lt {n : Nat} (hlt : n < 2 ^ 63) : asI64 n = n := by
  unfold asI64
  omega

theorem asI64_neg {n : Nat} (hge : 2 ^ 63 ≤ n) (hlt : n < 2 ^ 64) : asI64 n < 0 := by
  unfold asI64
  omega

theorem page_of_pos {limit : Nat} (hlimit : 0 < limit) (offset : Nat) (summaries : List RunSummary) :
    JsonFileStore.page limit offset summaries = (summaries.drop offset).take limit := by
  have hdrop : summaries.drop (min offset summaries.length) = summaries.drop offset := by
    rcases Nat.le_total offset summaries.length with hle | hge
    · rw [Nat.min_eq_left hle]
    · rw [Nat.min_eq_right hge, List.drop_length, List.drop_eq_nil_of_le hge]
  unfold JsonFileStore.page
  simp only [hdrop]
  split
  next => rfl
  next hshort =>
    rw [List.take_of_length_le]
    omega

theorem page_zero_limit (offset : Nat) (summaries : List RunSummary) :
    JsonFileStore.page 0 offset summaries = summaries.drop (min offset summaries.length) := by
  simp only [JsonFileStore.page, Nat.lt_irrefl, false_and, if_false]

theorem page_unlimited (summaries : List RunSummary) :
    JsonFileStore.page 0 0 summaries = summaries := by
  rw [page_zero_limit, Nat.zero_min, List.drop_zero]

theorem sqlPage_eq {limit offset : Nat} (hlimit : limit < 2 ^ 64) (hoffset : offset < 2 ^ 63)
    {rows : List RunRecord} (hrows : rows.length < 2 ^ 63) :
    sqlPage (asI64 limit) (if 0 < offset then asI64 offset else 0) rows =
      (rows.drop offset).take limit := by
  have hskip : (if 0 < offset then asI64 offset else 0).toNat = offset := by
    rw [asI64_of_lt hoffset]
    split <;> omega
  unfold sqlPage
  rw [hskip]
  rcases Nat.lt_or_ge limit (2 ^ 63) with hsmall | hlarge
  · have hcast := asI64_of_lt hsmall
    rw [if_neg (by omega), hcast, Int.toNat_natCast]
  · rw [if_pos (asI64_neg hlarge hlimit), List.take_of_length_le]
    rw [List.length_drop]
    omega

/-! ### The scan of the run files -/

def RunFiles (disk : Disk) (records : List RunRecord) : Prop :=
  ∃ stems, Listing .run disk stems ∧
    List.Forall₂ (fun stem record => disk.lookup (.run stem) = some (.decoded record)) stems records

variable {stem : String}

theorem Disk.runRecord?_eq {disk : Disk} {record : RunRecord}
    (hfile : disk.lookup (.run stem) = some (.decoded record)) :
    disk.runRecord? stem = some record := by
  unfold Disk.runRecord? Disk.runFile
  rw [hfile]

namespace RunFiles

variable {disk : Disk} {records : List RunRecord} {stems : List String}

section

variable
  (hfiles : List.Forall₂ (fun stem record => disk.lookup (.run stem) = some (.decoded record)) stems records)
include hfiles

theorem filterMap_eq : stems.filterMap disk.runRecord? = records := by
  induction hfiles with
  | nil => rfl
  | cons hfile _ ih => rw [List.filterMap_cons_some (Disk.runRecord?_eq hfile), ih]

theorem exists_decoded :
    ∀ stem ∈ stems, ∃ record, disk.lookup (.run stem) = some (.decoded record) := by
  induction hfiles with
  | nil => intro stem hstem; cases hstem
  | cons hfile _ ih =>
    intro stem hstem
    rcases List.mem_cons.mp hstem with rfl | hrest
    · exact ⟨_, hfile⟩
    · exact ih stem hrest

end

section

variable (hfiles : RunFiles disk records) (hlisting : Listing .run disk stems)
include hfiles hlisting

theorem perm : (stems.filterMap disk.runRecord?).Perm records := by
  obtain ⟨listed, hlisted, hrecords⟩ := hfiles
  rw [← filterMap_eq hrecords]
  apply List.Perm.filterMap
  rw [List.perm_ext_iff_of_nodup hlisting.nodup hlisted.nodup]
  intro stem
  rw [hlisting.mem_iff, hlisted.mem_iff]

theorem decoded (hstem : stem ∈ stems) :
    ∃ record, disk.lookup (.run stem) = some (.decoded record) := by
  obtain ⟨listed, hlisted, hrecords⟩ := hfiles
  exact exists_decoded hrecords stem ((hlisted.mem_iff stem).mpr ((hlisting.mem_iff stem).mp hstem))

theorem length_eq : stems.length = records.length := by
  obtain ⟨listed, hlisted, hrecords⟩ := hfiles
  rw [hlisting.length_eq hlisted, hrecords.length_eq]

end

end RunFiles

section Scan

variable {α : Type} {store : JsonFileStore} {disk : Disk} {records : List RunRecord} {init : α}
  {body : α → String → StoreM α} {fold : α → RunRecord → α}

def Folds (body : α → String → StoreM α) (fold : α → RunRecord → α) : Prop :=
  ∀ disk stem record acc, disk.lookup (.run stem) = some (.decoded record) →
    Spec .calm disk (body acc stem) (fun value after => value = fold acc record ∧ after = disk)
      (fun _ _ => False)

theorem Folds.visit {stems visited rest : List String} {acc : α} {current : Disk}
    (hbody : Folds body fold) (hfiles : RunFiles disk records) (hlisting : Listing .run disk stems)
    (hstems : stems = visited ++ stem :: rest)
    (hfolded : acc = (visited.filterMap disk.runRecord?).foldl fold init ∧ current = disk) :
    Spec .calm current (body acc stem)
      (fun acc after => acc = ((visited ++ [stem]).filterMap disk.runRecord?).foldl fold init ∧
        after = disk) (fun _ _ => False) := by
  obtain ⟨rfl, rfl⟩ := hfolded
  obtain ⟨record, hfile⟩ := hfiles.decoded hlisting (show stem ∈ stems by rw [hstems]; simp)
  apply (hbody current stem record _ hfile).weaken _ fun _ _ h => h
  rintro value after ⟨rfl, rfl⟩
  refine ⟨?_, rfl⟩
  rw [List.filterMap_append, List.foldl_append,
    List.filterMap_cons_some (Disk.runRecord?_eq hfile)]
  rfl

theorem Folds.scan (hbody : Folds body fold) (hfiles : RunFiles disk records)
    (hfits : records.length ≤ store.scanMaxEntries) :
    Spec .calm disk (do
      let stems ← readDir StorePath.runStem?
      store.scanEntries body 0 init stems)
      (fun acc after => after = disk ∧
        ∃ visited : List RunRecord, visited.Perm records ∧ acc = visited.foldl fold init)
      (fun _ _ => False) := by
  refine (scanDir_total (fun _ _ => runStem?_eq_some_iff)
    (fun stems hlisting => (hfiles.length_eq hlisting).trans_le hfits) ⟨rfl, rfl⟩
    fun _ _ _ _ _ _ hlisting hstems => hbody.visit hfiles hlisting hstems).weaken ?_ fun _ _ h => h
  rintro acc final ⟨stems, hlisting, rfl, rfl⟩
  exact ⟨rfl, _, hfiles.perm hlisting, rfl⟩

theorem Folds.scan_exceeds (hbody : Folds body fold) (hfiles : RunFiles disk records)
    (hexceeds : store.scanMaxEntries < records.length) :
    Spec .calm disk (do
      let stems ← readDir StorePath.runStem?
      store.scanEntries body 0 init stems) (fun _ _ => False)
      (fun error _ => store.consumeScanEntry store.scanMaxEntries = .error error) := by
  -- the names visited stay within the limit, and the scan has more of them
  refine (scanDir_spec (I := fun visited acc current => visited.length ≤ store.scanMaxEntries ∧
    acc = (visited.filterMap disk.runRecord?).foldl fold init ∧ current = disk)
    (fun _ _ => runStem?_eq_some_iff) ⟨Nat.zero_le _, rfl, rfl⟩ ?_ ?_
    fun hcalm => absurd rfl hcalm).weaken ?_ fun _ _ h => h
  · intro stems visited stem rest acc current hlisting hstems hbelow hfolded
    refine (hbody.visit hfiles hlisting hstems hfolded.2).total.weaken ?_ fun _ _ h => h
    exact fun _ _ h => ⟨by simp; omega, h⟩
  · intro stems visited acc current error _ _ habove hfolded herror
    rwa [le_antisymm hfolded.1 habove] at herror
  · rintro acc after ⟨stems, hlisting, hlength, -⟩
    have hall := hfiles.length_eq hlisting
    omega

end Scan

/-! ### The listings -/

section Listings

variable {store : JsonFileStore} {disk : Disk} {tables : SqlTables} {records : List RunRecord}

def matching (filter : ListRunsFilter) (records : List RunRecord) : List RunRecord :=
  records.filter fun record => filterMatches record filter

section

variable (filter : ListRunsFilter)

theorem collectSummary_folds : Folds (JsonFileStore.collectSummary filter) fun summaries record =>
      if filterMatches record filter then summaries ++ [RunSummary.ofRecord record] else summaries := by
  intro disk stem record summaries hfile
  apply (readJsonRecord_calm hfile).bind
  rintro found after ⟨rfl, rfl⟩
  by_cases hmatches : filterMatches record filter = true
  · simp only [hmatches, if_true]
    exact spec_pure ⟨rfl, rfl⟩
  · simp only [hmatches]
    exact spec_pure ⟨rfl, rfl⟩

theorem countMatching_folds : Folds (JsonFileStore.countMatching filter) fun count record =>
      if filterMatches record filter then count + 1 else count := by
  intro disk stem record count hfile
  apply (readJsonRecord_calm hfile).bind
  rintro found after ⟨rfl, rfl⟩
  exact spec_pure ⟨rfl, rfl⟩

theorem foldl_summaries (visited : List RunRecord) : ∀ summaries : List RunSummary,
      visited.foldl (fun summaries record =>
        if filterMatches record filter then summaries ++ [RunSummary.ofRecord record] else summaries)
        summaries = summaries ++ (matching filter visited).map RunSummary.ofRecord := by
  induction visited with
  | nil => intro summaries; simp [matching]
  | cons record visited ih =>
    intro summaries
    rw [List.foldl_cons, ih]
    by_cases hmatches : filterMatches record filter = true
    · simp [matching, hmatches]
    · simp [matching, hmatches]

theorem foldl_count (visited : List RunRecord) : ∀ count : Nat,
      visited.foldl (fun count record => if filterMatches record filter then count + 1 else count)
        count = count + (matching filter visited).length := by
  induction visited with
  | nil => intro count; rfl
  | cons record visited ih =>
    intro count
    rw [List.foldl_cons, ih]
    by_cases hmatches : filterMatches record filter = true
    · simp only [matching, hmatches, if_true, List.filter_cons_of_pos, List.length_cons]
      omega
    · simp [matching, hmatches]

end

def newestSummaries (filter : ListRunsFilter) (records : List RunRecord) : List RunSummary :=
  ((matching filter records).map RunSummary.ofRecord).mergeSort RunSummary.newestFirst

section

variable (filter : ListRunsFilter)

theorem matching_distinct (hdistinct : (records.map RunRecord.startedAt).Nodup) :
    ((matching filter records).map RunRecord.startedAt).Nodup :=
  List.Nodup.sublist (List.filter_sublist.map RunRecord.startedAt) hdistinct

theorem newestSummaries_perm {visited : List RunRecord} (hperm : visited.Perm records)
    (hdistinct : (records.map RunRecord.startedAt).Nodup) :
    newestSummaries filter visited = newestSummaries filter records := by
  have hvisited : (visited.map RunRecord.startedAt).Nodup :=
    (hperm.map RunRecord.startedAt).nodup_iff.mpr hdistinct
  calc newestSummaries filter visited
      = ((matching filter visited).mergeSort fun row other =>
          other.startedAt ≤ row.startedAt).map RunSummary.ofRecord :=
        (map_mergeSort_eq (List.Perm.refl _) (matching_distinct filter hvisited)).symm
    _ = newestSummaries filter records :=
        map_mergeSort_eq (hperm.filter _) (matching_distinct filter hdistinct)

theorem listRunsSummary_calm (limit offset : Nat) (hfiles : RunFiles disk records)
    (hdistinct : (records.map RunRecord.startedAt).Nodup)
    (hfits : records.length ≤ store.scanMaxEntries) :
    Spec .calm disk (store.listRunsSummary filter limit offset)
      (fun summaries after => summaries = JsonFileStore.page limit offset
        (newestSummaries filter records) ∧ after = disk) (fun _ _ => False) := by
  unfold JsonFileStore.listRunsSummary
  rw [← bind_assoc]
  apply ((collectSummary_folds filter).scan hfiles hfits).bind
  rintro summaries after ⟨rfl, visited, hperm, rfl⟩
  apply spec_pure
  refine ⟨?_, rfl⟩
  rw [foldl_summaries, List.nil_append, ← newestSummaries_perm filter hperm hdistinct]
  rfl

theorem countRuns_calm (hfiles : RunFiles disk records)
    (hfits : records.length ≤ store.scanMaxEntries) : Spec .calm disk (store.countRuns filter)
      (fun count after => count = (matching filter records).length ∧ after = disk)
      (fun _ _ => False) := by
  apply ((countMatching_folds filter).scan hfiles hfits).weaken _ fun _ _ h => h
  rintro count after ⟨rfl, visited, hperm, rfl⟩
  rw [foldl_count, Nat.zero_add]
  exact ⟨(hperm.filter _).length_eq, rfl⟩

end

theorem mapM_decode (rows : List RunRecord) :
    rows.mapM RunSummary.decode = .ok (rows.map RunSummary.ofRecord) := by
  have hdecode : RunSummary.decode = fun row => .ok (RunSummary.ofRecord row) := by
    funext row
    unfold RunSummary.decode
    rw [RunStatus.fromStr_toString]
    rfl
  rw [hdecode]
  exact List.mapM_pure

theorem selectedRuns_eq (tables : SqlTables) (filter : ListRunsFilter) :
    tables.selectedRuns filter = matching filter tables.runs := by
  unfold SqlTables.selectedRuns matching
  congr 1
  funext row
  exact runsWhere_selects filter row

theorem sqliteListRunsSummary_zero_limit (tables : SqlTables) (filter : ListRunsFilter)
    (offset : Nat) :
    tables.sqliteListRunsSummary filter 0 offset = tables.sqliteListRunsSummary filter 0 0 := by
  simp only [SqlTables.sqliteListRunsSummary, Nat.lt_irrefl, if_false]

theorem sqliteListRunsSummary_eq (filter : ListRunsFilter) {limit offset : Nat}
    (hsqlite : tables.runs.Perm records) (hdistinct : (records.map RunRecord.startedAt).Nodup)
    (hsize : records.length < 2 ^ 63) (hlimit : limit < 2 ^ 64)
    (hpage : offset = 0 ∨ 0 < limit ∧ offset < 2 ^ 63) :
    tables.sqliteListRunsSummary filter limit offset =
      .ok (JsonFileStore.page limit offset (newestSummaries filter records)) := by
  have hordered : ((matching filter tables.runs).mergeSort fun row other =>
      other.startedAt ≤ row.startedAt).map RunSummary.ofRecord = newestSummaries filter records :=
    map_mergeSort_eq (hsqlite.filter _) (matching_distinct filter hdistinct)
  have hlength : ((matching filter tables.runs).mergeSort fun row other =>
      other.startedAt ≤ row.startedAt).length < 2 ^ 63 := by
    rw [List.length_mergeSort]
    have hkept : (matching filter tables.runs).length ≤ tables.runs.length :=
      List.length_filter_le _ _
    rw [hsqlite.length_eq] at hkept
    omega
  unfold SqlTables.sqliteListRunsSummary
  rw [mapM_decode, selectedRuns_eq]
  by_cases hlimited : 0 < limit
  · have hoffset : offset < 2 ^ 63 := by omega
    rw [if_pos hlimited, sqlPage_eq hlimit hoffset hlength, List.map_take, List.map_drop, hordered,
      page_of_pos hlimited]
  · obtain rfl : limit = 0 := by omega
    obtain rfl : offset = 0 := by omega
    rw [if_neg hlimited, hordered, page_unlimited]

/-- For records with distinct start times: within the scan limit of the JSON store the two listings of
a page agree, and both counts are the length of the whole listing; beyond it the JSON store lists and
counts nothing. -/
theorem runListings_agree (var : Option Nat) (store : JsonFileStore)
    (hstore : store.scanMaxEntries = jsonScanMaxEntries var) (disk : Disk) (tables : SqlTables)
    (records : List RunRecord) (hjson : RunFiles disk records) (hsqlite : tables.runs.Perm records)
    (hdistinct : (records.map RunRecord.startedAt).Nodup) (filter : ListRunsFilter)
    (limit offset : UInt64) :
    (records.length ≤ store.scanMaxEntries →
      (offset = 0 ∨ 0 < limit ∧ offset.toNat < 2 ^ 63 →
        Spec .calm disk (store.listRunsSummary filter limit.toNat offset.toNat)
          (fun summaries after =>
            tables.sqliteListRunsSummary filter limit.toNat offset.toNat = .ok summaries ∧
              after = disk) (fun _ _ => False)) ∧
      ∃ all,
        Spec .calm disk (store.listRunsSummary filter 0 0)
          (fun summaries after => summaries = all ∧ after = disk) (fun _ _ => False) ∧
        tables.sqliteListRunsSummary filter 0 0 = .ok all ∧
        Spec .calm disk (store.countRuns filter)
          (fun count after => count = all.length ∧ after = disk) (fun _ _ => False) ∧
        tables.sqliteCountRuns filter = all.length) ∧
    (store.scanMaxEntries < records.length →
      Spec .calm disk (store.listRunsSummary filter limit.toNat offset.toNat) (fun _ _ => False)
        (fun error _ => store.consumeScanEntry store.scanMaxEntries = .error error) ∧
      Spec .calm disk (store.countRuns filter) (fun _ _ => False)
        (fun error _ => store.consumeScanEntry store.scanMaxEntries = .error error)) := by
  constructor
  · intro hfits
    have hsize : records.length < 2 ^ 63 := by
      have hhard : jsonScanMaxEntries var ≤ 100000 := by
        unfold jsonScanMaxEntries positiveEnvLimit
        cases hvar : var.filter (0 < ·) with
        | none => decide
        | some value => simp
      omega
    constructor
    · intro hpage
      have hpage' : offset.toNat = 0 ∨ 0 < limit.toNat ∧ offset.toNat < 2 ^ 63 :=
        hpage.imp (fun h => by rw [h]; rfl) fun h => ⟨by simpa using UInt64.lt_iff_toNat_lt.mp h.1, h.2⟩
      apply (listRunsSummary_calm filter limit.toNat offset.toNat hjson hdistinct hfits).weaken _
        fun _ _ h => h
      rintro summaries after ⟨rfl, rfl⟩
      exact ⟨sqliteListRunsSummary_eq filter hsqlite hdistinct hsize limit.toNat_lt hpage', rfl⟩
    · have hall : tables.sqliteListRunsSummary filter 0 0 = _ :=
        sqliteListRunsSummary_eq filter hsqlite hdistinct hsize (by decide) (.inl rfl)
      have hlength : (newestSummaries filter records).length = (matching filter records).length := by
        rw [newestSummaries, List.length_mergeSort, List.length_map]
      rw [page_unlimited] at hall
      refine ⟨newestSummaries filter records, ?_, hall, ?_, ?_⟩
      · have hlist := listRunsSummary_calm filter 0 0 hjson hdistinct hfits
        rwa [page_unlimited] at hlist
      · rw [hlength]
        exact countRuns_calm filter hjson hfits
      · rw [hlength, SqlTables.sqliteCountRuns, selectedRuns_eq]
        exact (hsqlite.filter _).length_eq
  · intro hexceeds
    constructor
    · unfold JsonFileStore.listRunsSummary
      rw [← bind_assoc]
      exact ((collectSummary_folds filter).scan_exceeds hjson hexceeds).bind fun _ _ h => h.elim
    · exact (countMatching_folds filter).scan_exceeds hjson hexceeds

namespace Sample

def listedRun (runId startedAt : String) : RunRecord :=
  { runId, flowName := "Report", flow := "report", status := .success, startedAt, agentCount := 1
    taskCount := 1, tags := [], ownerInstanceId := "a", leaseExpiresAt := "" }

def listedRuns : List RunRecord := [listedRun "r1" "2026-01-01", listedRun "r2" "2026-01-02"]

def listedDisk : Disk :=
  ((∅ : Disk).insert (.run "r2") (.decoded (listedRun "r2" "2026-01-02"))).insert (.run "r1")
    (.decoded (listedRun "r1" "2026-01-01"))

def listingStore (var : Option Nat) : JsonFileStore :=
  { Sample.store "a" with scanMaxEntries := jsonScanMaxEntries var }

theorem listedRuns_files : RunFiles listedDisk listedRuns := by
  refine ⟨["r1", "r2"], ⟨by decide, ?_⟩, ?_⟩
  · intro stem
    unfold listedDisk
    by_cases hfirst : stem = "r1"
    · subst hfirst
      exact iff_of_true (by decide) rfl
    · rw [AList.lookup_insert_ne (by simpa using hfirst)]
      by_cases hsecond : stem = "r2"
      · subst hsecond
        exact iff_of_true (by decide) rfl
      · rw [AList.lookup_insert_ne (by simpa using hsecond)]
        simp [hfirst, hsecond]
  · exact .cons rfl (.cons rfl .nil)

end Sample

theorem runListings_agree_sample :
    Spec .calm Sample.listedDisk ((Sample.listingStore none).listRunsSummary {} 1 1)
      (fun summaries after =>
        SqlTables.sqliteListRunsSummary { runs := Sample.listedRuns } {} 1 1 = .ok summaries ∧
          after = Sample.listedDisk) (fun _ _ => False) :=
  ((runListings_agree none (Sample.listingStore none) rfl Sample.listedDisk
    { runs := Sample.listedRuns } Sample.listedRuns Sample.listedRuns_files (List.Perm.refl _)
    (by decide) {} 1 1).1 (by decide)).1 (.inr ⟨by decide, by decide⟩)

/-- Without a limit SQLite leaves the offset out, and the JSON store refuses to list more files than it
may scan. -/
theorem runListings_differ :
    (¬ ∀ (var : Option Nat) (store : JsonFileStore), store.scanMaxEntries = jsonScanMaxEntries var →
      ∀ (disk : Disk) (tables : SqlTables) (records : List RunRecord), RunFiles disk records →
      tables.runs.Perm records → (records.map RunRecord.startedAt).Nodup →
      records.length ≤ store.scanMaxEntries →
      ∀ (filter : ListRunsFilter) (limit offset : UInt64),
        Spec .calm disk (store.listRunsSummary filter limit.toNat offset.toNat)
          (fun summaries _ =>
            tables.sqliteListRunsSummary filter limit.toNat offset.toNat = .ok summaries)
          (fun _ _ => False)) ∧
    ¬ ∀ (var : Option Nat) (store : JsonFileStore), store.scanMaxEntries = jsonScanMaxEntries var →
      ∀ (disk : Disk) (tables : SqlTables) (records : List RunRecord), RunFiles disk records →
      tables.runs.Perm records → (records.map RunRecord.startedAt).Nodup →
      ∀ filter : ListRunsFilter,
        Spec .calm disk (store.listRunsSummary filter 0 0)
          (fun summaries _ => tables.sqliteListRunsSummary filter 0 0 = .ok summaries)
          (fun _ _ => False) := by
  have hat : At .calm Sample.listedDisk { disk := Sample.listedDisk } := ⟨rfl, rfl⟩
  have hdistinct : (Sample.listedRuns.map RunRecord.startedAt).Nodup := by decide
  constructor
  · intro hagree
    have hboth := ((hagree none (Sample.listingStore none) rfl Sample.listedDisk
      { runs := Sample.listedRuns } Sample.listedRuns Sample.listedRuns_files (List.Perm.refl _)
      hdistinct (by decide) {} 0 1).and (listRunsSummary_calm {} 0 1 Sample.listedRuns_files hdistinct
        (by decide))) _ hat
    unfold Meets at hboth
    split at hboth
    next summaries world hrun =>
      obtain ⟨-, -, hsqlite, hjson, -⟩ := hboth
      -- one record is left on the JSON side, and two on the side of SQLite
      have hlength := congrArg List.length hjson
      have hrows : SqlTables.sqliteListRunsSummary { runs := Sample.listedRuns } {} 0 0 = _ :=
        sqliteListRunsSummary_eq {} (List.Perm.refl Sample.listedRuns) hdistinct (by decide) (by decide)
          (.inl rfl)
      rw [UInt64.toNat_zero, sqliteListRunsSummary_zero_limit] at hsqlite
      rw [page_unlimited] at hrows
      rw [hsqlite] at hrows
      cases hrows
      rw [page_zero_limit, List.length_drop, newestSummaries, List.length_mergeSort, List.length_map]
        at hlength
      revert hlength
      decide
    next => exact hboth.choose_spec.2.1
  · intro hagree
    have hboth := ((hagree (some 1) (Sample.listingStore (some 1)) rfl Sample.listedDisk
      { runs := Sample.listedRuns } Sample.listedRuns Sample.listedRuns_files (List.Perm.refl _)
      hdistinct {}).and ((runListings_agree (some 1) (Sample.listingStore (some 1)) rfl
        Sample.listedDisk { runs := Sample.listedRuns } Sample.listedRuns Sample.listedRuns_files
        (List.Perm.refl _) hdistinct {} 0 0).2 (by decide)).1) _ hat
    unfold Meets at hboth
    split at hboth
    next => exact hboth.choose_spec.2.2
    next => exact hboth.choose_spec.2.1

end Listings

end IronCrew
