import IronCrew.Proof.Journal.Retention
import Mathlib.Algebra.Order.BigOperators.Group.List

/-!
# Appending keeps the journal's accounts

An append makes room before it inserts, so the limits hold throughout. New entries lie above
everything the run has numbered, and a terminal entry comes alone and last, which is why the recorded
terminal sequence is the latest one.
-/

namespace IronCrew

open Checked Outcome

variable {Payload : Type}

/-- What any transaction does to the runs that exist: their numbering and their boundary only grow,
and a run whose terminal event was appended gains no row. -/
def Advances (before after : RunEventTables Payload) : Prop :=
  ∀ runId state, before.runEventState runId = some state → ∃ state',
    after.runEventState runId = some state' ∧ state.latestSequence ≤ state'.latestSequence ∧
      state.droppedThrough ≤ state'.droppedThrough ∧
      (state.terminalEventSequence.isSome →
        state'.terminalEventSequence = state.terminalEventSequence ∧
        ∀ row ∈ after.rowsOf runId, row ∈ before.rowsOf runId)

theorem Advances.refl (tables : RunEventTables Payload) : Advances tables tables :=
  fun _ state hstate => ⟨state, hstate, le_rfl, le_rfl, fun _ => ⟨rfl, fun _ hrow => hrow⟩⟩

theorem Advances.trans {before mid after : RunEventTables Payload} (hfirst : Advances before mid)
    (hsecond : Advances mid after) : Advances before after := by
  intro runId state hstate
  obtain ⟨state₁, hstate₁, hlatest₁, hdropped₁, hsealed₁⟩ := hfirst runId state hstate
  obtain ⟨state₂, hstate₂, hlatest₂, hdropped₂, hsealed₂⟩ := hsecond runId state₁ hstate₁
  refine ⟨state₂, hstate₂, hlatest₁.trans hlatest₂, hdropped₁.trans hdropped₂, fun hterminal => ?_⟩
  obtain ⟨hsame₁, hrows₁⟩ := hsealed₁ hterminal
  obtain ⟨hsame₂, hrows₂⟩ := hsealed₂ (by rw [hsame₁]; exact hterminal)
  exact ⟨hsame₂.trans hsame₁, fun row hrow => hrows₁ row (hrows₂ row hrow)⟩

variable {before after : RunEventTables Payload}

theorem Shrinks.rowsOf (hshrinks : Shrinks before after)
    (runId : String) : (after.rowsOf runId).Sublist (before.rowsOf runId) :=
  hshrinks.rows.filter _

theorem Shrinks.advances (hshrinks : Shrinks before after) :
    Advances before after := by
  intro runId state hstate
  obtain ⟨state', hstate', hlatest, hterminal, hdropped⟩ := hshrinks.states runId state hstate
  exact ⟨state', hstate', hlatest.ge, hdropped, fun _ =>
    ⟨hterminal, fun row hrow => (hshrinks.rowsOf runId).subset hrow⟩⟩

/-! ### What the checks of an append establish -/

variable {state : RunEventStateRow} {entries : List (RunEventAppendEntry Payload)} {runId : String}
  {tables : RunEventTables Payload}

theorem foldlM_partitionEntry [DecidableEq Payload]
    {start finish : Nat × List (RunEventAppendEntry Payload)}
    (hfold : entries.foldlM (tables.partitionEntry runId state) start = .ok finish) :
    ∃ new, finish.2 = start.2 ++ new ∧ new.Sublist entries ∧
      ∀ entry ∈ new, state.latestSequence < entry.sequence := by
  induction entries generalizing start with
  | nil =>
    cases hfold
    exact ⟨[], by simp⟩
  | cons entry entries ih =>
    rw [List.foldlM_cons] at hfold
    obtain ⟨mid, hentry, hrest⟩ := bind_ok_iff.mp hfold
    obtain ⟨new, hnew, hsub, habove⟩ := ih hrest
    unfold RunEventTables.partitionEntry at hentry
    split at hentry
    · simp only [ensure_bind_ok_iff] at hentry
      obtain ⟨-, -, hmid⟩ := hentry
      cases hmid
      exact ⟨new, hnew, hsub.cons entry, habove⟩
    · split at hentry
      · cases hentry
      · rename_i hlatest
        cases hentry
        refine ⟨entry :: new, by simp [hnew], hsub.cons_cons entry, ?_⟩
        intro other hother
        obtain rfl | hother := List.mem_cons.mp hother
        · exact Nat.lt_of_not_le hlatest
        · exact habove other hother

variable [RunEventPayload Payload] {batch : RunEventAppendBatch Payload}
  {accounted : AccountedRunEventBatch Payload} {config : RunEventJournalConfig}

section Checks

open RunEventTables

structure EntriesChecked (config : RunEventJournalConfig)
    (entries : List (RunEventAppendEntry Payload)) : Prop where
  valid : ∀ entry ∈ entries, entry.validate config.maxEventBytes = .ok ()
  increasing : entries.Pairwise (·.sequence < ·.sequence)

theorem EntriesChecked.sublist
    {entries sub : List (RunEventAppendEntry Payload)} (hchecked : EntriesChecked config entries)
    (hsub : sub.Sublist entries) : EntriesChecked config sub where
  valid entry hentry := hchecked.valid entry (hsub.subset hentry)
  increasing := hchecked.increasing.sublist hsub

theorem foldlM_checkEntry {start finish : Nat × Nat}
    (hfold : entries.foldlM (RunEventAppendBatch.checkEntry config) start = .ok finish) :
    EntriesChecked config entries ∧ ∀ entry ∈ entries, start.1 < entry.sequence := by
  induction entries generalizing start with
  | nil => exact ⟨⟨by simp, List.Pairwise.nil⟩, by simp⟩
  | cons entry entries ih =>
    rw [List.foldlM_cons] at hfold
    obtain ⟨mid, hcheck, hrest⟩ := bind_ok_iff.mp hfold
    simp only [RunEventAppendBatch.checkEntry, unit_bind_ok_iff, ensure_ok_iff] at hcheck
    obtain ⟨hvalid, hafter, hcheck⟩ := hcheck
    obtain ⟨total, -, hmid⟩ := bind_ok_iff.mp hcheck
    cases hmid
    obtain ⟨hchecked, habove⟩ := ih hrest
    refine ⟨⟨?_, List.pairwise_cons.mpr ⟨habove, hchecked.increasing⟩⟩, ?_⟩
    · intro other hother
      obtain rfl | hother := List.mem_cons.mp hother
      · exact hvalid
      · exact hchecked.valid other hother
    · intro other hother
      obtain rfl | hother := List.mem_cons.mp hother
      · exact hafter
      · exact hafter.trans (habove other hother)

theorem RunEventAppendBatch.checked_of_validate (hvalidate : batch.validate config = .ok ()) :
    config.Valid ∧ EntriesChecked config batch.entries := by
  simp only [RunEventAppendBatch.validate, unit_bind_ok_iff] at hvalidate
  obtain ⟨hconfig, -, -, -, -, -, hentries⟩ := hvalidate
  obtain ⟨progress, hfold, -⟩ := bind_ok_iff.mp hentries
  exact ⟨RunEventJournalConfig.valid_of_validate hconfig, (foldlM_checkEntry hfold).1⟩

theorem validateNewRunEventEntries_ok {target : RunEventAppendTarget} (hsome : entries ≠ [])
    (hvalidate : validateNewRunEventEntries batch target state entries = .ok ()) :
    state.terminalEventSequence = none ∧
      ((∀ entry ∈ entries, entry.eventType ≠ "run_complete") ∨
        ∃ entry, entries = [entry] ∧ entry.eventType = "run_complete") := by
  unfold validateNewRunEventEntries at hvalidate
  rw [if_neg hsome] at hvalidate
  obtain ⟨hunsealed, hvalidate⟩ := ensure_bind_ok_iff.mp hvalidate
  refine ⟨hunsealed, ?_⟩
  split at hvalidate
  · obtain ⟨-, hnone⟩ := ensure_bind_ok_iff.mp hvalidate
    left
    intro entry hentry htype
    refine ensure_ok_iff.mp hnone (List.any_eq_true.mpr ⟨entry, hentry, ?_⟩)
    exact decide_eq_true htype
  · obtain ⟨-, hvalidate⟩ := ensure_bind_ok_iff.mp hvalidate
    right
    cases entries with
    | nil => cases hvalidate
    | cons entry rest =>
      cases rest with
      | nil => exact ⟨entry, rfl, (ensure_bind_ok_iff.mp hvalidate).1⟩
      | cons => cases hvalidate

theorem foldlM_accounted {start total : Nat} {error : IronCrewError}
    (hfold : entries.foldlM
      (fun total entry => require error (checkedAdd total (accountedEntryBytes entry))) start
        = .ok total) :
    total = start + (entries.map accountedEntryBytes).sum := by
  induction entries generalizing start with
  | nil =>
    cases hfold
    rfl
  | cons entry entries ih =>
    rw [List.foldlM_cons] at hfold
    obtain ⟨mid, hmid, hrest⟩ := bind_ok_iff.mp hfold
    obtain ⟨-, rfl⟩ := checkedAdd_eq_some_iff.mp (require_ok_iff.mp hmid)
    rw [ih hrest, List.map_cons, List.sum_cons]
    omega

theorem accountRunEventAppend_ok (haccount : accountRunEventAppend config entries = .ok accounted) :
    accounted.entries = entries ∧ accounted.eventCount = entries.length ∧
      accounted.byteCount = (entries.map accountedEntryBytes).sum := by
  obtain ⟨-, haccount⟩ := ensure_bind_ok_iff.mp haccount
  obtain ⟨byteCount, hfold, haccount⟩ := bind_ok_iff.mp haccount
  obtain ⟨-, haccount⟩ := ensure_bind_ok_iff.mp haccount
  cases haccount
  refine ⟨rfl, rfl, ?_⟩
  have htotal := foldlM_accounted hfold
  rw [Nat.zero_add] at htotal
  exact htotal

end Checks

/-! ### Inserting -/

section Insert

open RunEventTables

variable {tables tables' : RunEventTables Payload}

theorem insertRow_ok {row : RunEventRow Payload} (hinsert : tables.insertRow row = .ok tables') :
    (∀ other ∈ tables.events, other.key ≠ row.key) ∧
      tables'.events = tables.events ++ [row] ∧ tables'.states = tables.states ∧
      tables'.usage.retainedEvents = tables.usage.retainedEvents + 1 ∧
      tables'.usage.retainedBytes = tables.usage.retainedBytes + row.accounted := by
  simp only [insertRow, countInserted, unit_bind_ok_iff, ensure_ok_iff] at hinsert
  obtain ⟨-, -, ⟨-, hfresh⟩, hinsert⟩ := hinsert
  obtain ⟨usage, hcount, hinsert⟩ := bind_ok_iff.mp hinsert
  obtain ⟨-, hcounted⟩ := ensure_bind_ok_iff.mp hcount
  cases hcounted
  cases hinsert
  refine ⟨fun other hother hkey => hfresh (List.any_eq_true.mpr ⟨other, hother, ?_⟩), rfl, rfl, rfl,
    rfl⟩
  obtain ⟨hrun, hsequence⟩ := Prod.ext_iff.mp hkey
  exact Bool.and_eq_true_iff.mpr ⟨decide_eq_true hrun, decide_eq_true hsequence⟩

theorem foldlM_insertRow {rows : List (RunEventRow Payload)}
    (hnodup : (tables.events.map RunEventRow.key).Nodup)
    (hfold : rows.foldlM insertRow tables = .ok tables') :
    (tables'.events.map RunEventRow.key).Nodup ∧ tables'.events = tables.events ++ rows ∧
      tables'.states = tables.states ∧
      tables'.usage.retainedEvents = tables.usage.retainedEvents + rows.length ∧
      tables'.usage.retainedBytes = tables.usage.retainedBytes + bytesOf rows := by
  induction rows generalizing tables with
  | nil =>
    cases hfold
    exact ⟨hnodup, by simp, rfl, rfl, rfl⟩
  | cons row rows ih =>
    rw [List.foldlM_cons] at hfold
    obtain ⟨mid, hinsert, hrest⟩ := bind_ok_iff.mp hfold
    obtain ⟨hfresh, hevents, hstates, hcount, hbytes⟩ := insertRow_ok hinsert
    have hmid : (mid.events.map RunEventRow.key).Nodup := by
      rw [hevents, List.map_append, List.nodup_append']
      refine ⟨hnodup, List.nodup_singleton _, ?_⟩
      intro key hkey hrow
      obtain ⟨other, hother, rfl⟩ := List.mem_map.mp hkey
      exact hfresh other hother (List.mem_singleton.mp hrow)
    obtain ⟨hfinal, hevents', hstates', hcount', hbytes'⟩ := ih hmid hrest
    refine ⟨hfinal, ?_, hstates'.trans hstates, ?_, ?_⟩
    · rw [hevents', hevents, List.append_assoc, List.singleton_append]
    · rw [hcount', hcount, List.length_cons]
      omega
    · rw [hbytes', hbytes]
      simp only [bytesOf, List.map_cons, List.sum_cons]
      omega

omit [RunEventPayload Payload] in
theorem foldl_advanceState (entries : List (RunEventAppendEntry Payload)) (state : RunEventStateRow)
    (expected : Nat) :
    let advanced := (entries.foldl advanceState (state, expected)).1
    state.latestSequence ≤ advanced.latestSequence ∧
      (∀ entry ∈ entries, entry.sequence ≤ advanced.latestSequence) ∧
      advanced.droppedThrough = state.droppedThrough ∧
      advanced.evictionReason = state.evictionReason ∧
      ((∀ entry ∈ entries, entry.eventType ≠ "run_complete") →
        advanced.terminalEventSequence = state.terminalEventSequence) := by
  induction entries generalizing state expected with
  | nil => exact ⟨le_rfl, by simp, rfl, rfl, fun _ => rfl⟩
  | cons entry entries ih =>
    obtain ⟨hlatest, hentries, hdropped, hreason, hterminal⟩ :=
      ih (advanceState (state, expected) entry).1 (advanceState (state, expected) entry).2
    simp only [List.foldl_cons]
    refine ⟨(le_max_left _ _).trans hlatest, ?_, hdropped, hreason, fun hnone => ?_⟩
    · intro other hother
      obtain rfl | hother := List.mem_cons.mp hother
      · exact (le_max_right _ _).trans hlatest
      · exact hentries other hother
    · obtain ⟨hentry, hrest⟩ := List.forall_mem_cons.mp hnone
      rw [hterminal hrest]
      exact if_neg hentry

omit [RunEventPayload Payload] in
theorem updateRunEventStateAfterAppend_ok
    (hupdate : tables.updateRunEventStateAfterAppend batch state accounted = .ok tables') :
    tables' = { tables with
      states := tables.states.insert batch.runId
        { (accounted.entries.foldl advanceState (state, state.latestSequence + 1)).1 with
          retainedEvents := state.retainedEvents + accounted.eventCount
          retainedBytes := state.retainedBytes + accounted.byteCount } } := by
  simp only [updateRunEventStateAfterAppend, bind_ok_iff, require_ok_iff,
    checkedAdd_eq_some_iff] at hupdate
  obtain ⟨_, ⟨-, rfl⟩, _, ⟨-, rfl⟩, hupdate⟩ := hupdate
  exact updateState_ok hupdate

def newRows (batch : RunEventAppendBatch Payload) (accounted : AccountedRunEventBatch Payload)
    (now expiresAt : Int) : List (RunEventRow Payload) :=
  accounted.entries.map (rowOf batch.runId now expiresAt)

structure ReadyToInsert (config : RunEventJournalConfig) (tables : RunEventTables Payload)
    (batch : RunEventAppendBatch Payload) (state : RunEventStateRow)
    (accounted : AccountedRunEventBatch Payload) : Prop where
  stored : tables.runEventState batch.runId = some state
  checked : EntriesChecked config accounted.entries
  counted : accounted.eventCount = accounted.entries.length
  sized : accounted.byteCount = (accounted.entries.map accountedEntryBytes).sum
  above : ∀ entry ∈ accounted.entries, state.latestSequence < entry.sequence
  unsealed : state.terminalEventSequence = none
  kinds : (∀ entry ∈ accounted.entries, entry.eventType ≠ "run_complete") ∨
    ∃ entry, accounted.entries = [entry] ∧ entry.eventType = "run_complete"
  events_le : state.retainedEvents + accounted.eventCount ≤ config.maxEventsPerRun
  bytes_le : state.retainedBytes + accounted.byteCount ≤ config.maxBytesPerRun
  total_events_le : tables.usage.retainedEvents + accounted.eventCount ≤ config.maxTotalEvents
  total_bytes_le : tables.usage.retainedBytes + accounted.byteCount ≤ config.maxTotalBytes

theorem bytesOf_newRows (batch : RunEventAppendBatch Payload)
    (accounted : AccountedRunEventBatch Payload) (now expiresAt : Int) :
    bytesOf (newRows batch accounted now expiresAt)
      = (accounted.entries.map accountedEntryBytes).sum := by
  rw [bytesOf, newRows, List.map_map]
  rfl

theorem RunAccounts.append
    (haccounts : RunAccounts config (tables.rowsOf batch.runId) state) (now expiresAt : Int)
    (hready : ReadyToInsert config tables batch state accounted) :
    RunAccounts config (tables.rowsOf batch.runId ++ newRows batch accounted now expiresAt)
      { (accounted.entries.foldl advanceState (state, state.latestSequence + 1)).1 with
        retainedEvents := state.retainedEvents + accounted.eventCount
        retainedBytes := state.retainedBytes + accounted.byteCount } := by
  obtain ⟨hlatest, hentries, hdropped, hreason, hterminal⟩ :=
    foldl_advanceState accounted.entries state (state.latestSequence + 1)
  have hnew : ∀ row ∈ newRows batch accounted now expiresAt,
      ∃ entry ∈ accounted.entries, row = rowOf batch.runId now expiresAt entry := by
    intro row hrow
    obtain ⟨entry, hentry, rfl⟩ := List.mem_map.mp hrow
    exact ⟨entry, hentry, rfl⟩
  have hold : ∀ row ∈ tables.rowsOf batch.runId, row.eventType ≠ "run_complete" := by
    intro row hrow htype
    have hsealed := haccounts.complete row hrow htype
    rw [hready.unsealed] at hsealed
    cases hsealed
  refine
    { events_eq := ?_
      bytes_eq := ?_
      events_le := hready.events_le
      bytes_le := hready.bytes_le
      dropped_le := ?_
      within := ?_
      reason := ?_
      terminal := ?_
      complete := ?_ }
  · simp only [List.length_append, newRows, List.length_map]
    rw [haccounts.events_eq, hready.counted]
  · have hsum : bytesOf (tables.rowsOf batch.runId ++ newRows batch accounted now expiresAt)
        = bytesOf (tables.rowsOf batch.runId)
          + bytesOf (newRows batch accounted now expiresAt) := by
      simp [bytesOf]
    rw [hsum, bytesOf_newRows, ← hready.sized, ← haccounts.bytes_eq]
  · simp only [hdropped]
    exact haccounts.dropped_le.trans hlatest
  · intro row hrow
    simp only [hdropped]
    obtain hrow | hrow := List.mem_append.mp hrow
    · have hwithin := haccounts.within row hrow
      exact ⟨hwithin.1, hwithin.2.trans hlatest⟩
    · obtain ⟨entry, hentry, rfl⟩ := hnew row hrow
      exact ⟨haccounts.dropped_le.trans_lt (hready.above entry hentry), hentries entry hentry⟩
  · simp only [hdropped, hreason]
    exact haccounts.reason
  · intro sequence hsequence
    simp only at hsequence ⊢
    obtain hnone | ⟨entry, hsingle, htype⟩ := hready.kinds
    · rw [hterminal hnone, hready.unsealed] at hsequence
      cases hsequence
    · have habove := hready.above entry (by simp [hsingle])
      simp only [hsingle, List.foldl_cons, List.foldl_nil, advanceState, htype, if_true,
        hready.unsealed, Option.getD_none, Nat.zero_max, Option.some.injEq] at hsequence ⊢
      omega
  · intro row hrow htype
    obtain hrow | hrow := List.mem_append.mp hrow
    · exact absurd htype (hold row hrow)
    · obtain ⟨entry, hentry, rfl⟩ := hnew row hrow
      obtain hnone | ⟨only, hsingle, -⟩ := hready.kinds
      · exact absurd htype (hnone entry hentry)
      · rw [hsingle] at hentry
        cases List.mem_singleton.mp hentry
        have hentryType : entry.eventType = "run_complete" := htype
        simp [hsingle, advanceState, hentryType, hready.unsealed, rowOf]

omit [RunEventPayload Payload] in
theorem rowsOf_append (tables : RunEventTables Payload) (rows : List (RunEventRow Payload))
    (runId : String) :
    (tables.events ++ rows).filter (fun row => decide (row.runId = runId))
      = tables.rowsOf runId ++ rows.filter (fun row => decide (row.runId = runId)) := by
  rw [List.filter_append]
  rfl

theorem JournalInvariant.insert
    {tables inserted tables' : RunEventTables Payload} {now expiresAt : Int}
    (hinv : JournalInvariant config tables)
    (hready : ReadyToInsert config tables batch state accounted)
    (hinsert : (newRows batch accounted now expiresAt).foldlM insertRow tables = .ok inserted)
    (hupdate : inserted.updateRunEventStateAfterAppend batch state accounted = .ok tables') :
    JournalInvariant config tables' ∧ Advances tables tables' := by
  obtain ⟨hkeys, hevents, hstates, hcount, hbytes⟩ := foldlM_insertRow hinv.keys_nodup hinsert
  cases updateRunEventStateAfterAppend_ok hupdate
  have hnewRun : ∀ row ∈ newRows batch accounted now expiresAt, row.runId = batch.runId := by
    intro row hrow
    obtain ⟨entry, _, rfl⟩ := List.mem_map.mp hrow
    rfl
  have hown : inserted.events.filter (fun row => decide (row.runId = batch.runId))
      = tables.rowsOf batch.runId ++ newRows batch accounted now expiresAt := by
    rw [hevents, rowsOf_append, List.filter_eq_self.mpr]
    exact fun row hrow => decide_eq_true (hnewRun row hrow)
  have hother : ∀ runId, runId ≠ batch.runId →
      inserted.events.filter (fun row => decide (row.runId = runId)) = tables.rowsOf runId := by
    intro runId hne
    rw [hevents, rowsOf_append, List.filter_eq_nil_iff.mpr, List.append_nil]
    intro row hrow hrun
    exact hne ((of_decide_eq_true hrun).symm.trans (hnewRun row hrow))
  have hlookup : ∀ runId, runId ≠ batch.runId → ∀ value : RunEventStateRow,
      (inserted.states.insert batch.runId value).lookup runId = tables.runEventState runId := by
    intro runId hne value
    rw [AList.lookup_insert_ne hne, hstates]
    rfl
  refine ⟨?_, ?_⟩
  · refine
      { accounts := ?_
        stateful := ?_
        keys_nodup := hkeys
        valid := ?_
        usage_events := ?_
        usage_bytes := ?_
        total_events_le := ?_
        total_bytes_le := ?_ }
    · intro runId value hvalue
      by_cases hrun : runId = batch.runId
      · subst hrun
        have heq := hvalue.symm.trans (AList.lookup_insert _)
        cases heq
        have happend := (hinv.accounts _ state hready.stored).append now
          expiresAt hready
        rw [← hown] at happend
        exact happend
      · have hbefore := (hlookup runId hrun _).symm.trans hvalue
        have hsame := hinv.accounts runId value hbefore
        rw [← hother runId hrun] at hsame
        exact hsame
    · intro row hrow
      by_cases hrun : row.runId = batch.runId
      · exact ⟨_, by rw [hrun]; exact AList.lookup_insert _⟩
      · have hmem : row ∈ tables.events := by
          simp only at hrow
          rw [hevents] at hrow
          obtain hrow | hrow := List.mem_append.mp hrow
          · exact hrow
          · exact absurd (hnewRun row hrow) hrun
        obtain ⟨value, hvalue⟩ := hinv.stateful row hmem
        exact ⟨value, (hlookup row.runId hrun _).trans hvalue⟩
    · intro row hrow
      simp only at hrow
      rw [hevents] at hrow
      obtain hrow | hrow := List.mem_append.mp hrow
      · exact hinv.valid row hrow
      · obtain ⟨entry, hentry, rfl⟩ := List.mem_map.mp hrow
        exact hready.checked.valid entry hentry
    · simp only
      rw [hcount, hevents, List.length_append, hinv.usage_events]
    · simp only
      rw [hbytes, hevents, hinv.usage_bytes]
      simp [bytesOf]
    · simp only
      rw [hcount, newRows, List.length_map, ← hready.counted]
      exact hready.total_events_le
    · simp only
      rw [hbytes, bytesOf_newRows, ← hready.sized]
      exact hready.total_bytes_le
  · intro runId before hbefore
    by_cases hrun : runId = batch.runId
    · subst hrun
      rw [hready.stored] at hbefore
      cases hbefore
      obtain ⟨hlatest, -, hdropped, -⟩ :=
        foldl_advanceState accounted.entries state (state.latestSequence + 1)
      refine ⟨_, AList.lookup_insert _, hlatest, hdropped.ge, fun hsome => ?_⟩
      rw [hready.unsealed] at hsome
      cases hsome
    · refine ⟨before, (hlookup runId hrun _).trans hbefore, le_rfl, le_rfl, fun _ => ⟨rfl, ?_⟩⟩
      intro row hrow
      rw [← hother runId hrun]
      exact hrow

end Insert

/-! ### Whole transactions -/

section Transactions

open RunEventTables

variable {config : RunEventJournalConfig} {tables : RunEventTables Payload}
  {result : RunEventTables Payload × RunEventPruneSummary}

theorem pruneExpiredRunEvents_ok {now : Int}
    (hinv : JournalInvariant config tables)
    (hprune : tables.pruneExpiredRunEvents config now = .ok result) :
    JournalInvariant config result.1 ∧ Shrinks tables result.1 := by
  obtain ⟨hkept, hshrinks, -⟩ := deleteRunEventCandidates_ok hinv hprune
  exact ⟨hkept, hshrinks⟩

section

variable {eventsToFree bytesToFree : Nat} {result : RunEventTables Payload × RunEventPruneSummary}
  (hinv : JournalInvariant config tables)
include hinv

theorem evictRunEventCapacity_ok
    (hevict : tables.evictRunEventCapacity config runId eventsToFree bytesToFree = .ok result) :
    JournalInvariant config result.1 ∧ Shrinks tables result.1 ∧
      (result.1.rowsOf runId).length + eventsToFree ≤ (tables.rowsOf runId).length ∧
      bytesOf (result.1.rowsOf runId) + bytesToFree ≤ bytesOf (tables.rowsOf runId) := by
  refine evictRows_ok (fun row => decide (row.runId = runId)) (fun tables => ?_) hinv hevict
  exact (List.take_sublist _ _).subperm.trans (List.perm_insertionSort _ _).subperm

theorem evictGlobalRunEventCapacity_ok
    (hevict : tables.evictGlobalRunEventCapacity config eventsToFree bytesToFree = .ok result) :
    JournalInvariant config result.1 ∧ Shrinks tables result.1 ∧
      result.1.events.length + eventsToFree ≤ tables.events.length ∧
      bytesOf result.1.events + bytesToFree ≤ bytesOf tables.events := by
  have hloop := evictRows_ok (fun _ => true) (fun tables => ?_) hinv hevict
  · simpa only [List.filter_true] using hloop
  · rw [List.filter_true]
    exact (List.take_sublist _ _).subperm.trans (List.perm_insertionSort _ _).subperm

end

variable {tables' : RunEventTables Payload}

omit [RunEventPayload Payload] in
theorem lookup_initialize (hinit : tables.initializeRunEventState batch = .ok (tables', state)) :
    tables'.runEventState batch.runId = some state ∧
      (tables' = tables ∨ tables.runEventState batch.runId = none ∧
        tables' = { tables with
          states := tables.states.insert batch.runId
            { flow := batch.flow, ownerInstanceId := batch.ownerInstanceId } }) := by
  unfold initializeRunEventState at hinit
  obtain ⟨found, hfound, hinit⟩ := bind_ok_iff.mp hinit
  obtain ⟨-, hinit⟩ := ensure_bind_ok_iff.mp hinit
  cases hinit
  refine ⟨require_ok_iff.mp hfound, ?_⟩
  cases hstate : tables.runEventState batch.runId with
  | some state => exact Or.inl rfl
  | none => exact Or.inr ⟨rfl, rfl⟩

theorem initializeRunEventState_ok
    (hinv : JournalInvariant config tables)
    (hinit : tables.initializeRunEventState batch = .ok (tables', state)) :
    JournalInvariant config tables' ∧ Advances tables tables' ∧
      tables'.runEventState batch.runId = some state := by
  obtain ⟨hstate, rfl | ⟨hnone, rfl⟩⟩ := lookup_initialize hinit
  · exact ⟨hinv, Advances.refl _, hstate⟩
  · -- a run without a state row has no rows
    have hempty : tables.rowsOf batch.runId = [] := by
      rw [RunEventTables.rowsOf, List.filter_eq_nil_iff]
      intro row hrow hrun
      obtain ⟨value, hvalue⟩ := hinv.stateful row hrow
      rw [of_decide_eq_true hrun, hnone] at hvalue
      cases hvalue
    have hothers : ∀ runId, runId ≠ batch.runId → ∀ value : RunEventStateRow,
        (tables.states.insert batch.runId value).lookup runId = tables.runEventState runId :=
      fun runId hne value => AList.lookup_insert_ne hne
    refine ⟨{ hinv with accounts := ?_, stateful := ?_ }, ?_, hstate⟩
    · intro runId value hvalue
      by_cases hrun : runId = batch.runId
      · subst hrun
        have heq := hvalue.symm.trans (AList.lookup_insert _)
        cases heq
        change RunAccounts config (tables.rowsOf batch.runId) _
        rw [hempty]
        exact
          { events_eq := rfl
            bytes_eq := rfl
            events_le := Nat.zero_le _
            bytes_le := Nat.zero_le _
            dropped_le := le_rfl
            within := by simp
            reason := by simp
            terminal := by simp
            complete := by simp }
      · exact hinv.accounts runId value ((hothers runId hrun _).symm.trans hvalue)
    · intro row hrow
      obtain ⟨value, hvalue⟩ := hinv.stateful row hrow
      have hne : row.runId ≠ batch.runId := by
        intro heq
        rw [heq, hnone] at hvalue
        cases hvalue
      exact ⟨value, (hothers row.runId hne _).trans hvalue⟩
    · intro runId before hbefore
      have hne : runId ≠ batch.runId := by
        intro heq
        rw [heq, hnone] at hbefore
        cases hbefore
      exact ⟨before, (hothers runId hne _).trans hbefore, le_rfl, le_rfl, fun _ =>
        ⟨rfl, fun _ hrow => hrow⟩⟩

theorem persistRunEventAppend_ok {now : Int}
    {summary : RunEventPruneSummary}
    (hinv : JournalInvariant config tables)
    (hstate : tables.runEventState batch.runId = some state)
    (hchecked : EntriesChecked config accounted.entries)
    (hcounted : accounted.eventCount = accounted.entries.length)
    (hsized : accounted.byteCount = (accounted.entries.map accountedEntryBytes).sum)
    (habove : ∀ entry ∈ accounted.entries, state.latestSequence < entry.sequence)
    (hunsealed : state.terminalEventSequence = none)
    (hkinds : (∀ entry ∈ accounted.entries, entry.eventType ≠ "run_complete") ∨
      ∃ entry, accounted.entries = [entry] ∧ entry.eventType = "run_complete")
    (hpersist : persistRunEventAppend config now batch state accounted (tables, summary)
      = .ok result) :
    JournalInvariant config result.1 ∧ Advances tables result.1 := by
  simp only [persistRunEventAppend, bind_ok_iff, require_ok_iff, checkedAdd_eq_some_iff]
    at hpersist
  obtain ⟨_, ⟨-, rfl⟩, _, ⟨-, rfl⟩, ⟨roomy, _⟩, hevictRun, _, ⟨-, rfl⟩, _, ⟨-, rfl⟩, ⟨ready, _⟩,
    hevictAll, final, hfinal, inserted, hinsert, updated, hupdate, hresult⟩ := hpersist
  cases hresult
  have haccounts := hinv.accounts _ state hstate
  obtain ⟨hroomy, hshrinks, hfreedEvents, hfreedBytes⟩ := evictRunEventCapacity_ok hinv hevictRun
  obtain ⟨hready, hshrinks', hfreedTotal, hfreedTotalBytes⟩ :=
    evictGlobalRunEventCapacity_ok hroomy hevictAll
  simp only at hroomy hshrinks hfreedEvents hfreedBytes hready hshrinks' hfreedTotal hfreedTotalBytes
  obtain ⟨state', hstate', hlatest, hterminal, -⟩ :=
    (hshrinks.trans hshrinks').states _ state hstate
  rw [hfinal] at hstate'
  cases hstate'
  have hfinalAccounts := hready.accounts _ final hfinal
  have hrows := hshrinks'.rowsOf batch.runId
  have hlength := hrows.length_le
  have hbytes : bytesOf (ready.rowsOf batch.runId) ≤ bytesOf (roomy.rowsOf batch.runId) :=
    (hrows.map RunEventRow.accounted).sum_le_sum (fun _ _ => Nat.zero_le _)
  have heventsEq := haccounts.events_eq
  have hbytesEq := haccounts.bytes_eq
  have hfinalEvents := hfinalAccounts.events_eq
  have hfinalBytes := hfinalAccounts.bytes_eq
  have hroomyEvents := hroomy.usage_events
  have hroomyBytes := hroomy.usage_bytes
  have hreadyEvents := hready.usage_events
  have hreadyBytes := hready.usage_bytes
  obtain ⟨hkept, hadvances⟩ := hready.insert
    { stored := hfinal
      checked := hchecked
      counted := hcounted
      sized := hsized
      above := fun entry hentry => by
        rw [hlatest]
        exact habove entry hentry
      unsealed := hterminal.trans hunsealed
      kinds := hkinds
      events_le := by omega
      bytes_le := by omega
      total_events_le := by omega
      total_bytes_le := by omega }
    hinsert hupdate
  exact ⟨hkept, (hshrinks.trans hshrinks').advances.trans hadvances⟩

theorem bytesOf_pos {rows : List (RunEventRow Payload)} (hsome : rows ≠ []) : 0 < bytesOf rows := by
  obtain ⟨row, rows, rfl⟩ := List.exists_cons_of_ne_nil hsome
  have hpos : 0 < row.accounted := by
    refine lt_of_lt_of_le ?_ (le_max_right _ _)
    decide
  simp only [bytesOf, List.map_cons, List.sum_cons]
  omega

theorem RunEventBounds.validate_ok {bounds : RunEventBounds} (rows : List (RunEventRow Payload))
    (hearliest : bounds.earliestRetainedSequence = (rows.map (·.sequence)).min?)
    (hevents : bounds.retainedEvents = rows.length) (hbytes : bounds.retainedBytes = bytesOf rows)
    (hdropped : bounds.droppedThrough ≤ bounds.latestSequence)
    (hwithin : ∀ row ∈ rows, bounds.droppedThrough < row.sequence ∧
      row.sequence ≤ bounds.latestSequence) : bounds.validate = .ok () := by
  unfold RunEventBounds.validate
  rw [ensure_of hdropped, hearliest]
  by_cases hempty : rows = []
  · subst hempty
    have hzero : bounds.retainedEvents = 0 := hevents
    have hzeroBytes : bounds.retainedBytes = 0 := hbytes
    simp [ensure, hzero, hzeroBytes, bind, Except.bind]
  · cases hmin : (rows.map (·.sequence)).min? with
    | none => exact absurd (List.map_eq_nil_iff.mp (List.min?_eq_none_iff.mp hmin)) hempty
    | some earliest =>
      obtain ⟨hmem, -⟩ := List.min?_eq_some_iff.mp hmin
      obtain ⟨row, hrow, rfl⟩ := List.mem_map.mp hmem
      have hrowWithin := hwithin row hrow
      have hsequence : row.sequence ≠ 0 := by omega
      have hretained : bounds.retainedEvents ≠ 0 := by
        rw [hevents]
        exact fun hzero => hempty (List.length_eq_zero_iff.mp hzero)
      have hretainedBytes : bounds.retainedBytes ≠ 0 := by
        rw [hbytes]
        exact (bytesOf_pos hempty).ne'
      simp [ensure, validateSequence, hsequence, hretained, hretainedBytes, hrowWithin, bind,
        Except.bind]

theorem RunAccounts.bounds_ok (haccounts : RunAccounts config (tables.rowsOf runId) state) :
    ∃ bounds, tables.runEventBounds runId state = .ok bounds ∧ bounds.validate = .ok () := by
  have hvalid : RunEventBounds.validate
      { earliestRetainedSequence := tables.earliest runId
        latestSequence := state.latestSequence
        droppedThrough := state.droppedThrough
        retainedEvents := state.retainedEvents
        retainedBytes := state.retainedBytes
        journalComplete := state.journalComplete } = .ok () :=
    RunEventBounds.validate_ok (tables.rowsOf runId) rfl haccounts.events_eq
      haccounts.bytes_eq haccounts.dropped_le haccounts.within
  refine ⟨_, ?_, hvalid⟩
  simp only [RunEventTables.runEventBounds, hvalid]
  rfl

variable [DecidableEq Payload]

theorem appendRunEventJournal_ok {instanceId : String} {run : Option RunFence} {pruneNow now : Int}
    {result : RunEventTables Payload × RunEventAppendOutcome}
    (hinv : JournalInvariant config tables)
    (happend : tables.appendRunEventJournal config instanceId run pruneNow now batch = .ok result) :
    JournalInvariant config result.1 ∧ Advances tables result.1 := by
  unfold appendRunEventJournal at happend
  obtain ⟨hvalidate, happend⟩ := unit_bind_ok_iff.mp happend
  obtain ⟨-, happend⟩ := ensure_bind_ok_iff.mp happend
  obtain ⟨-, happend⟩ := ensure_bind_ok_iff.mp happend
  obtain ⟨target, -, happend⟩ := bind_ok_iff.mp happend
  obtain ⟨⟨pruned, summary⟩, hprune, happend⟩ := bind_ok_iff.mp happend
  obtain ⟨⟨opened, state⟩, hinit, happend⟩ := bind_ok_iff.mp happend
  obtain ⟨⟨duplicates, newEntries⟩, hpartition, happend⟩ := bind_ok_iff.mp happend
  obtain ⟨hnew, happend⟩ := unit_bind_ok_iff.mp happend
  obtain ⟨accounted, haccount, happend⟩ := bind_ok_iff.mp happend
  obtain ⟨⟨persisted, summary'⟩, hpersist, happend⟩ := bind_ok_iff.mp happend
  obtain ⟨final, -, happend⟩ := bind_ok_iff.mp happend
  obtain ⟨bounds, -, happend⟩ := bind_ok_iff.mp happend
  obtain ⟨-, happend⟩ := unit_bind_ok_iff.mp happend
  cases happend
  obtain ⟨-, hchecked⟩ := RunEventAppendBatch.checked_of_validate hvalidate
  obtain ⟨hprunedInv, hprunedShrinks⟩ := pruneExpiredRunEvents_ok hinv hprune
  obtain ⟨hopenedInv, hopenedAdvances, hstate⟩ := initializeRunEventState_ok hprunedInv hinit
  have hopened := hprunedShrinks.advances.trans hopenedAdvances
  obtain ⟨new, hnewEq, hsub, habove⟩ := foldlM_partitionEntry hpartition
  obtain ⟨hentries, hcounted, hsized⟩ := accountRunEventAppend_ok haccount
  simp only [List.nil_append] at hnewEq
  subst hnewEq
  by_cases hsome : 0 < accounted.eventCount
  · simp only [if_pos hsome] at hpersist
    have hnonempty : newEntries ≠ [] := by
      intro hnil
      rw [hcounted, hnil] at hsome
      exact absurd hsome (Nat.lt_irrefl 0)
    obtain ⟨hunsealed, hkinds⟩ := validateNewRunEventEntries_ok hnonempty hnew
    rw [← hentries] at habove hkinds hcounted hsized hsub
    obtain ⟨hfinal, hadvances⟩ := persistRunEventAppend_ok hopenedInv hstate (hchecked.sublist hsub)
      hcounted hsized habove hunsealed hkinds hpersist
    exact ⟨hfinal, hopened.trans hadvances⟩
  · simp only [if_neg hsome] at hpersist
    cases hpersist
    exact ⟨hopenedInv, hopened⟩

omit [DecidableEq Payload] in
/-- A failed transaction leaves the tables as they were. -/
theorem JournalInvariant.commit (hinv : JournalInvariant config tables)
    (outcome : Except IronCrewError (RunEventTables Payload)) :
    (∀ after, outcome = .ok after → JournalInvariant config after ∧ Advances tables after) →
      JournalInvariant config (match outcome with | .ok after => after | .error _ => tables) ∧
        Advances tables (match outcome with | .ok after => after | .error _ => tables) := by
  intro hok
  cases outcome with
  | ok after => exact hok after rfl
  | error error => exact ⟨hinv, Advances.refl _⟩

theorem JournalInvariant.step (hinv : JournalInvariant config tables)
    (op : RunEventJournalOp Payload) :
    JournalInvariant config (tables.step config op) ∧ Advances tables (tables.step config op) := by
  cases op with
  | append instanceId run pruneNow now batch =>
    refine hinv.commit _ fun after hafter => ?_
    obtain ⟨result, hresult, rfl⟩ := exists_ok_of_map_eq_ok hafter
    exact appendRunEventJournal_ok hinv hresult
  | evictRun runId eventsToFree bytesToFree =>
    refine hinv.commit _ fun after hafter => ?_
    obtain ⟨result, hresult, rfl⟩ := exists_ok_of_map_eq_ok hafter
    obtain ⟨hkept, hshrinks, -⟩ := evictRunEventCapacity_ok hinv hresult
    exact ⟨hkept, hshrinks.advances⟩
  | evictGlobal eventsToFree bytesToFree =>
    refine hinv.commit _ fun after hafter => ?_
    obtain ⟨result, hresult, rfl⟩ := exists_ok_of_map_eq_ok hafter
    obtain ⟨hkept, hshrinks, -⟩ := evictGlobalRunEventCapacity_ok hinv hresult
    exact ⟨hkept, hshrinks.advances⟩
  | pruneExpired now =>
    refine hinv.commit _ fun after hafter => ?_
    obtain ⟨result, hresult, rfl⟩ := exists_ok_of_map_eq_ok hafter
    obtain ⟨hkept, hshrinks⟩ := pruneExpiredRunEvents_ok hinv hresult
    exact ⟨hkept, hshrinks.advances⟩

omit [DecidableEq Payload] in
theorem JournalInvariant.empty (config : RunEventJournalConfig) :
    JournalInvariant config ({} : RunEventTables Payload) where
  accounts := by simp [RunEventTables.runEventState]
  stateful := by simp
  keys_nodup := List.nodup_nil
  valid := by simp
  usage_events := rfl
  usage_bytes := rfl
  total_events_le := Nat.zero_le _
  total_bytes_le := Nat.zero_le _

theorem JournalInvariant.foldl (hinv : JournalInvariant config tables)
    (ops : List (RunEventJournalOp Payload)) :
    JournalInvariant config (ops.foldl (RunEventTables.step config) tables) ∧
      Advances tables (ops.foldl (RunEventTables.step config) tables) := by
  induction ops generalizing tables with
  | nil => exact ⟨hinv, Advances.refl _⟩
  | cons op ops ih =>
    obtain ⟨hkept, hadvances⟩ := hinv.step op
    obtain ⟨hfinal, hrest⟩ := ih hkept
    exact ⟨hfinal, hadvances.trans hrest⟩

/-- Every state of the journal tables that any sequence of transactions reaches, and how any further
sequence moves it. -/
theorem runEventJournal_invariant (config : RunEventJournalConfig)
    (ops more : List (RunEventJournalOp Payload)) :
    (∀ runId state, (RunEventTables.run config ops).runEventState runId = some state →
      (∀ row ∈ (RunEventTables.run config ops).rowsOf runId,
        state.droppedThrough < row.sequence ∧ row.sequence ≤ state.latestSequence) ∧
      state.retainedEvents = ((RunEventTables.run config ops).rowsOf runId).length ∧
      state.retainedBytes = bytesOf ((RunEventTables.run config ops).rowsOf runId) ∧
      state.retainedEvents ≤ config.maxEventsPerRun ∧
      state.retainedBytes ≤ config.maxBytesPerRun ∧
      state.droppedThrough ≤ state.latestSequence ∧
      (0 < state.droppedThrough → state.evictionReason.isSome) ∧
      (∃ bounds, (RunEventTables.run config ops).runEventBounds runId state = .ok bounds ∧
        bounds.validate = .ok ()) ∧
      ∃ state', (RunEventTables.run config (ops ++ more)).runEventState runId = some state' ∧
        state.latestSequence ≤ state'.latestSequence ∧
        state.droppedThrough ≤ state'.droppedThrough) ∧
    (∀ row ∈ (RunEventTables.run config ops).events,
      ((RunEventTables.run config ops).runEventState row.runId).isSome) ∧
    (RunEventTables.run config ops).usage.retainedEvents
      = (RunEventTables.run config ops).events.length ∧
    (RunEventTables.run config ops).usage.retainedBytes
      = bytesOf (RunEventTables.run config ops).events ∧
    (RunEventTables.run config ops).usage.retainedEvents ≤ config.maxTotalEvents ∧
    (RunEventTables.run config ops).usage.retainedBytes ≤ config.maxTotalBytes ∧
    ∀ complete ∈ (RunEventTables.run config ops).events, complete.eventType = "run_complete" →
      ∀ row ∈ (RunEventTables.run config (ops ++ more)).rowsOf complete.runId,
        row ∈ (RunEventTables.run config ops).rowsOf complete.runId := by
  obtain ⟨hinv, -⟩ := (JournalInvariant.empty config).foldl ops
  have hlater : RunEventTables.run config (ops ++ more)
      = more.foldl (RunEventTables.step config) (RunEventTables.run config ops) := by
    simp only [RunEventTables.run, List.foldl_append]
  rw [hlater]
  change JournalInvariant config (RunEventTables.run config ops) at hinv
  obtain ⟨-, hadvances⟩ := hinv.foldl more
  refine ⟨fun runId state hstate => ?_, fun row hrow => ?_, hinv.usage_events, hinv.usage_bytes,
    hinv.total_events_le, hinv.total_bytes_le, fun complete hcomplete htype => ?_⟩
  · have haccounts := hinv.accounts runId state hstate
    obtain ⟨state', hstate', hlatest, hdropped, -⟩ := hadvances runId state hstate
    exact ⟨haccounts.within, haccounts.events_eq, haccounts.bytes_eq, haccounts.events_le,
      haccounts.bytes_le, haccounts.dropped_le, haccounts.reason, haccounts.bounds_ok, state',
      hstate', hlatest, hdropped⟩
  · obtain ⟨state, hstate⟩ := hinv.stateful row hrow
    rw [hstate]
    rfl
  · obtain ⟨state, hstate⟩ := hinv.stateful complete hcomplete
    obtain ⟨state', -, -, -, hsealed⟩ := hadvances complete.runId state hstate
    have hmem : complete ∈ (RunEventTables.run config ops).rowsOf complete.runId :=
      List.mem_filter.mpr ⟨hcomplete, decide_eq_true rfl⟩
    refine (hsealed ?_).2
    rw [(hinv.accounts _ state hstate).complete complete hmem htype]
    rfl

end Transactions

end IronCrew
