import IronCrew.Lib.Rfc3339
import IronCrew.Proof.Store.RunListing

/-!
# Runs since an instant

Both stores compare the start of a run with the lower bound of a listing as texts. Where both are
timestamps, the filter is chronological exactly where the two spellings stand in the order of their
instants: `Timestamp.spelledInOrder` says so in terms of the clocks, the offsets and the fractions.
-/

namespace IronCrew

open Fallible Outcome Rfc3339

variable {store : JsonFileStore} {disk : Disk} {tables : SqlTables} {records : List RunRecord}
  {filter : ListRunsFilter} {record : RunRecord}

def ListRunsFilter.withoutSince (filter : ListRunsFilter) : ListRunsFilter :=
  { filter with since := none }

theorem filterMatches_since {since : String} (hsince : filter.since = some since)
    (hothers : filterMatches record filter.withoutSince = true) :
    filterMatches record filter = true ↔ since ≤ record.startedAt := by
  obtain ⟨flow, status, tag, bound⟩ := filter
  cases hsince
  unfold ListRunsFilter.withoutSince filterMatches at hothers
  unfold filterMatches
  split at hothers
  next => cases hothers
  split at hothers
  next => cases hothers
  split at hothers
  next => cases hothers
  simp_all [← String.not_lt]

theorem filterMatches_congr {other : RunRecord}
    (hsummary : RunSummary.ofRecord record = RunSummary.ofRecord other) :
    filterMatches record filter = filterMatches other filter := by
  simp only [RunSummary.ofRecord, RunSummary.mk.injEq] at hsummary
  obtain ⟨-, -, hflow, hstatus, hstarted, -, -, -, -, -, htags⟩ := hsummary
  unfold filterMatches
  rw [hflow, hstatus, hstarted, htags]

theorem ofRecord_mem_matching (hrecord : record ∈ records) :
    RunSummary.ofRecord record ∈ (matching filter records).map RunSummary.ofRecord ↔
      filterMatches record filter = true := by
  constructor
  · intro hlisted
    obtain ⟨other, hother, hsummary⟩ := List.mem_map.mp hlisted
    rw [← filterMatches_congr hsummary]
    exact (List.mem_filter.mp hother).2
  · intro hmatches
    exact List.mem_map_of_mem (List.mem_filter.mpr ⟨hrecord, hmatches⟩)

theorem listRunsSummary_perm (filter : ListRunsFilter) (hfiles : RunFiles disk records)
    (hfits : records.length ≤ store.scanMaxEntries) :
    Spec .calm disk (store.listRunsSummary filter 0 0)
      (fun summaries _ => summaries.Perm ((matching filter records).map RunSummary.ofRecord))
      (fun _ _ => False) := by
  unfold JsonFileStore.listRunsSummary
  rw [← bind_assoc]
  apply ((collectSummary_folds filter).scan hfiles hfits).bind
  rintro summaries after ⟨rfl, visited, hperm, rfl⟩
  apply spec_pure
  rw [foldl_summaries, List.nil_append, page_unlimited]
  exact (List.mergeSort_perm _ _).trans ((hperm.filter _).map RunSummary.ofRecord)

theorem sqliteListRunsSummary_perm (filter : ListRunsFilter) (hsqlite : tables.runs.Perm records) :
    ∃ summaries, tables.sqliteListRunsSummary filter 0 0 = .ok summaries ∧
      summaries.Perm ((matching filter records).map RunSummary.ofRecord) := by
  simp only [SqlTables.sqliteListRunsSummary, Nat.lt_irrefl, if_false]
  rw [mapM_decode, selectedRuns_eq]
  refine ⟨_, rfl, List.Perm.map RunSummary.ofRecord ?_⟩
  exact (List.mergeSort_perm _ _).trans (hsqlite.filter _)

/-- The summaries that both stores list, and that both count, hold a run that passes the rest of the
filter exactly from the lower bound on, if and only if the two timestamps are spelled in their order. -/
theorem runs_since_chronological_iff (since started : Timestamp) (store : JsonFileStore) (disk : Disk)
    (tables : SqlTables) (records : List RunRecord) (hjson : RunFiles disk records)
    (hsqlite : tables.runs.Perm records) (hfits : records.length ≤ store.scanMaxEntries)
    (filter : ListRunsFilter) (hsince : filter.since = some since.text) (record : RunRecord)
    (hrecord : record ∈ records) (hstarted : record.startedAt = started.text)
    (hothers : filterMatches record filter.withoutSince = true) :
    ∃ listed : List RunSummary,
      Spec .calm disk (store.listRunsSummary filter 0 0) (fun summaries _ => summaries.Perm listed)
        (fun _ _ => False) ∧
      (∃ summaries, tables.sqliteListRunsSummary filter 0 0 = .ok summaries ∧ summaries.Perm listed) ∧
      Spec .calm disk (store.countRuns filter) (fun count _ => count = listed.length)
        (fun _ _ => False) ∧
      tables.sqliteCountRuns filter = listed.length ∧
      ((RunSummary.ofRecord record ∈ listed ↔ since.instant ≤ started.instant) ↔
        since.spelledInOrder started) := by
  refine ⟨(matching filter records).map RunSummary.ofRecord, listRunsSummary_perm filter hjson hfits,
    sqliteListRunsSummary_perm filter hsqlite, ?_, ?_, ?_⟩
  · rw [List.length_map]
    exact (countRuns_calm filter hjson hfits).weaken (fun _ _ hcount => hcount.1) fun _ _ h => h
  · rw [List.length_map, SqlTables.sqliteCountRuns, selectedRuns_eq]
    exact (hsqlite.filter _).length_eq
  · rw [ofRecord_mem_matching hrecord, filterMatches_since hsince hothers, hstarted,
      Timestamp.spelledInOrder_iff]

namespace SinceSample

def date : Date where
  year := 2026
  month := 3
  day := 1
  year_lt := by decide
  month_pos := by decide
  month_le := by decide
  day_pos := by decide
  day_le := by decide

/-- `2026-03-01T00:00:00Z`. -/
def midnight : Timestamp :=
  { date, lower := false, hour := 0, minute := 0, second := 0, fraction := [], zone := .utc false }

/-- `2026-03-01T00:00:00.5+00:00`. -/
def halfSecond : Timestamp :=
  { midnight with fraction := [5], zone := .numeric false 0 0 }

/-- `2026-03-01T01:00:00.5+01:00`, half a second later on another clock. -/
def eastern : Timestamp :=
  { midnight with hour := 1, fraction := [5], zone := .numeric false 1 0 }

def started : RunRecord := Sample.listedRun "r1" eastern.text

def files : Disk := (∅ : Disk).insert (.run "r1") (.decoded started)

def sinceMidnight : ListRunsFilter := { since := some midnight.text }

theorem files_hold : RunFiles files [started] := by
  refine ⟨["r1"], ⟨by decide, ?_⟩, .cons rfl .nil⟩
  intro stem
  unfold files
  by_cases hfirst : stem = "r1"
  · subst hfirst
    exact iff_of_true (by decide) rfl
  · rw [AList.lookup_insert_ne (by simpa using hfirst)]
    simp [hfirst]

end SinceSample

open SinceSample in
theorem runs_since_chronological_iff_midnight :
    ∃ listed : List RunSummary,
      Spec .calm files ((Sample.listingStore none).listRunsSummary sinceMidnight 0 0)
        (fun summaries _ => summaries.Perm listed) (fun _ _ => False) ∧
      (∃ summaries, SqlTables.sqliteListRunsSummary { runs := [started] } sinceMidnight 0 0 =
        .ok summaries ∧ summaries.Perm listed) ∧
      Spec .calm files ((Sample.listingStore none).countRuns sinceMidnight)
        (fun count _ => count = listed.length) (fun _ _ => False) ∧
      SqlTables.sqliteCountRuns { runs := [started] } sinceMidnight = listed.length ∧
      (RunSummary.ofRecord started ∈ listed ↔ midnight.instant ≤ eastern.instant) := by
  obtain ⟨listed, hjson, hsqlite, hcount, hsqliteCount, horder⟩ :=
    runs_since_chronological_iff midnight eastern (Sample.listingStore none) files
      { runs := [started] } [started] files_hold (List.Perm.refl _) (by decide) sinceMidnight rfl
      started (List.mem_singleton.mpr rfl) rfl (by decide)
  refine ⟨listed, hjson, hsqlite, hcount, hsqliteCount, ?_⟩
  have hahead : midnight.ahead eastern = 60 := by
    simp only [Timestamp.ahead, Timestamp.localMinute, Timestamp.clock, eastern, midnight]
    omega
  have heast : midnight.east eastern = 60 := by decide
  rw [horder, Timestamp.spelledInOrder, hahead, heast, if_neg (fun h => h.2 rfl), if_pos (by decide)]
  exact .inr ⟨rfl, .inr ⟨rfl, trivial⟩⟩

open SinceSample in
/-- A dot comes before `Z`: half a second after midnight with a numeric offset is not listed since
midnight. -/
theorem runs_since_fraction_left_out :
    ¬ ∀ (since started : Timestamp) (filter : ListRunsFilter) (record : RunRecord),
      filter.since = some since.text → record.startedAt = started.text →
      filterMatches record filter.withoutSince = true →
      (filterMatches record filter = true ↔ since.instant ≤ started.instant) := by
  intro hchronological
  have hinstants : midnight.instant ≤ halfSecond.instant := by
    have hlocal : halfSecond.localMinute = midnight.localMinute := by
      simp only [Timestamp.localMinute, Timestamp.clock, halfSecond]
    have hoffset : halfSecond.zone.offset = midnight.zone.offset := rfl
    rw [Timestamp.instant_le_iff, hlocal, hoffset]
    exact .inr ⟨rfl, .inr ⟨rfl, trivial⟩⟩
  have hmatches := (hchronological midnight halfSecond { since := some midnight.text }
    (Sample.listedRun "r1" halfSecond.text) rfl rfl rfl).mpr hinstants
  revert hmatches
  decide

end IronCrew
