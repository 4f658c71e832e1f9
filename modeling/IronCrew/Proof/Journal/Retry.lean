import IronCrew.Proof.Journal.Read

/-!
# Appending a batch again

An append counts the entries it finds stored as retries and adds the ones above everything the run has
numbered. Whatever else it is given, it refuses as a whole. The batch it accepted is accepted again as
long as all its entries are retained, and then nothing happens.
-/

namespace IronCrew

open Checked Outcome RunEventTables

variable {Payload : Type}

/-! ### Evictions leave the fence of a run alone -/

variable {runId : String}

section Fences

def SameFences (before after : RunEventTables Payload) : Prop :=
  ∀ runId, (after.runEventState runId).map (fun state => (state.flow, state.ownerInstanceId))
    = (before.runEventState runId).map (fun state => (state.flow, state.ownerInstanceId))

theorem SameFences.refl (tables : RunEventTables Payload) : SameFences tables tables :=
  fun _ => rfl

theorem SameFences.trans {before mid after : RunEventTables Payload} (hfirst : SameFences before mid)
    (hsecond : SameFences mid after) : SameFences before after :=
  fun runId => (hsecond runId).trans (hfirst runId)

variable [RunEventPayload Payload] {reason : RunEventGapReason}
  {result : RunEventTables Payload × RunEventPruneSummary} {tables : RunEventTables Payload}

theorem deleteRunEventCandidates_sameFences {candidates : List RunEventDeleteCandidate}
    (hdelete : tables.deleteRunEventCandidates candidates reason = .ok result) :
    SameFences tables result.1 := by
  unfold deleteRunEventCandidates at hdelete
  split at hdelete
  · cases hdelete
    exact SameFences.refl _
  · obtain ⟨-, hdelete⟩ := ensure_bind_ok_iff.mp hdelete
    obtain ⟨usage, -, hdelete⟩ := bind_ok_iff.mp hdelete
    obtain ⟨-, hfold⟩ := ensure_bind_ok_iff.mp hdelete
    obtain ⟨-, -, hothers, hpruned⟩ := foldlM_pruneRun (nodup_evictedRuns _) hfold
    intro runId
    by_cases hmem : runId ∈ evictedRuns (tables.events.filter (selectedBy candidates))
    · obtain ⟨state, state', _, hstate, hafter, hresult, -⟩ := hpruned runId hmem
      obtain ⟨-, -, -, -, -, -, -, -, hflow, howner⟩ := stateAfterEviction_ok hafter
      have hbefore : tables.runEventState runId = some state := hstate
      rw [hresult, hbefore, Option.map_some, Option.map_some, hflow, howner]
    · rw [(hothers runId hmem).1]
      rfl

theorem evictRows_sameFences {select : RunEventTables Payload → List (RunEventRow Payload)}
    {refusal : IronCrewError}
    {summary : RunEventPruneSummary} {remainingEvents remainingBytes totalEvicted : Nat}
    (hevict : evictRows select reason refusal tables summary remainingEvents remainingBytes
      totalEvicted = .ok result) : SameFences tables result.1 := by
  fun_induction evictRows select reason refusal tables summary remainingEvents remainingBytes
    totalEvicted with
  | case1 =>
    cases hevict
    exact SameFences.refl _
  | case2 => cases hevict
  | case3 => cases hevict
  | case4 tables summary remainingEvents remainingBytes totalEvicted _ candidates _ tables' deleted
      hdelete ih => exact (deleteRunEventCandidates_sameFences hdelete).trans (ih hevict)

end Fences

/-! ### Retries and new entries -/

variable {entry : RunEventAppendEntry Payload}

section Partition

def RunEventRow.Records (row : RunEventRow Payload) (entry : RunEventAppendEntry Payload) : Prop :=
  row.sequence = entry.sequence ∧ row.eventType = entry.eventType ∧ row.payload = entry.payload ∧
    row.payloadBytes = entry.payloadBytes

variable [DecidableEq Payload] {tables : RunEventTables Payload} {runId : String}
  {state : RunEventStateRow}

theorem partitionEntry_ok {progress result : Nat × List (RunEventAppendEntry Payload)}
    (hentry : tables.partitionEntry runId state progress entry = .ok result) :
    (entry.sequence ≤ state.latestSequence ∧ result = (progress.1 + 1, progress.2) ∧
        ∃ row ∈ tables.rowsOf runId, row.Records entry) ∨
      (state.latestSequence < entry.sequence ∧ result = (progress.1, progress.2 ++ [entry])) := by
  unfold partitionEntry at hentry
  split at hentry
  · rename_i row hfind
    simp only [ensure_bind_ok_iff] at hentry
    obtain ⟨hle, hsame, hresult⟩ := hentry
    cases hresult
    have hsequence := List.find?_some hfind
    exact Or.inl ⟨hle, rfl, row, List.mem_of_find?_eq_some hfind, of_decide_eq_true hsequence, hsame⟩
  · split at hentry
    · cases hentry
    · rename_i hlatest
      cases hentry
      exact Or.inr ⟨Nat.lt_of_not_le hlatest, rfl⟩

variable {entries : List (RunEventAppendEntry Payload)}

/-- Where the entries of an accepted batch come to lie: the ones at or below the latest sequence are
stored already, the others are new. -/
theorem foldlM_partitionEntry_ok {start finish : Nat × List (RunEventAppendEntry Payload)}
    (hfold : entries.foldlM (tables.partitionEntry runId state) start = .ok finish) :
    finish = (start.1 + (entries.filter (·.sequence ≤ state.latestSequence)).length,
        start.2 ++ entries.filter (state.latestSequence < ·.sequence)) ∧
      ∀ entry ∈ entries, entry.sequence ≤ state.latestSequence →
        ∃ row ∈ tables.rowsOf runId, row.Records entry := by
  induction entries generalizing start with
  | nil =>
    cases hfold
    exact ⟨by simp, by simp⟩
  | cons entry entries ih =>
    rw [List.foldlM_cons] at hfold
    obtain ⟨mid, hentry, hrest⟩ := bind_ok_iff.mp hfold
    obtain ⟨hfinish, hstored⟩ := ih hrest
    obtain ⟨hle, rfl, hrow⟩ | ⟨hlt, rfl⟩ := partitionEntry_ok hentry
    · refine ⟨?_, List.forall_mem_cons.mpr ⟨fun _ => hrow, hstored⟩⟩
      rw [hfinish, List.filter_cons_of_pos (by simpa using hle),
        List.filter_cons_of_neg (by simpa using hle), List.length_cons]
      congr 1
      omega
    · refine ⟨?_, List.forall_mem_cons.mpr ⟨fun hle => absurd hlt (Nat.not_lt.mpr hle), hstored⟩⟩
      rw [hfinish, List.filter_cons_of_neg (by simpa using hlt),
        List.filter_cons_of_pos (by simpa using hlt), List.append_assoc, List.singleton_append]

omit [DecidableEq Payload] in
theorem find?_sequence {rows : List (RunEventRow Payload)} {row : RunEventRow Payload}
    (hunique : ∀ other ∈ rows, other.sequence = row.sequence → other = row) (hrow : row ∈ rows)
    (hsequence : row.sequence = entry.sequence) :
    rows.find? (·.sequence = entry.sequence) = some row := by
  cases hfind : rows.find? (·.sequence = entry.sequence) with
  | none => exact absurd (decide_eq_true hsequence) (List.find?_eq_none.mp hfind row hrow)
  | some other =>
    have hsome := List.find?_some hfind
    have hother : other.sequence = entry.sequence := of_decide_eq_true hsome
    rw [hunique other (List.mem_of_find?_eq_some hfind) (hother.trans hsequence.symm)]

variable {start : Nat × List (RunEventAppendEntry Payload)}

theorem foldlM_partitionEntry_stored
    (hunique : ∀ row ∈ tables.rowsOf runId, ∀ other ∈ tables.rowsOf runId,
      other.sequence = row.sequence → other = row)
    (hstored : ∀ entry ∈ entries, entry.sequence ≤ state.latestSequence ∧
      ∃ row ∈ tables.rowsOf runId, row.Records entry) :
    entries.foldlM (tables.partitionEntry runId state) start
      = .ok (start.1 + entries.length, start.2) := by
  induction entries generalizing start with
  | nil => rfl
  | cons entry entries ih =>
    obtain ⟨⟨hle, row, hrow, hsequence, hsame⟩, hrest⟩ := List.forall_mem_cons.mp hstored
    have hentry : tables.partitionEntry runId state start entry = .ok (start.1 + 1, start.2) := by
      simp only [partitionEntry, find?_sequence (hunique row hrow) hrow hsequence,
        ensure_of hle, ensure_of hsame]
      rfl
    rw [List.foldlM_cons, hentry, ok_bind, ih hrest, List.length_cons]
    congr 2
    omega

theorem foldlM_partitionEntry_error
    {error : IronCrewError}
    (hfold : entries.foldlM (tables.partitionEntry runId state) start = .error error) :
    ∃ message, error = .conflict message := by
  induction entries generalizing start with
  | nil => cases hfold
  | cons entry entries ih =>
    rw [List.foldlM_cons] at hfold
    cases hentry : tables.partitionEntry runId state start entry with
    | ok mid =>
      rw [hentry, ok_bind] at hfold
      exact ih hfold
    | error refusal =>
      rw [hentry, error_bind] at hfold
      cases hfold
      unfold partitionEntry ensure at hentry
      split at hentry
      · split at hentry
        · rw [ok_bind] at hentry
          split at hentry
          · cases hentry
          · cases hentry
            exact ⟨_, rfl⟩
        · cases hentry
          exact ⟨_, rfl⟩
      · split at hentry
        · cases hentry
          exact ⟨_, rfl⟩
        · cases hentry

end Partition

/-! ### What an append does to the rows -/

section Append

variable [RunEventPayload Payload] {config : RunEventJournalConfig} {tables : RunEventTables Payload}

omit [RunEventPayload Payload] in
theorem foldl_advanceState_fence (entries : List (RunEventAppendEntry Payload))
    (progress : RunEventStateRow × Nat) :
    (entries.foldl advanceState progress).1.flow = progress.1.flow ∧
      (entries.foldl advanceState progress).1.ownerInstanceId = progress.1.ownerInstanceId := by
  induction entries generalizing progress with
  | nil => exact ⟨rfl, rfl⟩
  | cons entry entries ih =>
    obtain ⟨hflow, howner⟩ := ih (advanceState progress entry)
    exact ⟨hflow, howner⟩

variable {batch : RunEventAppendBatch Payload} {state : RunEventStateRow}
  {accounted : AccountedRunEventBatch Payload} {tables' : RunEventTables Payload}

omit [RunEventPayload Payload] in
theorem updateRunEventStateAfterAppend_sameFences
    (hstate : tables.runEventState batch.runId = some state)
    (hupdate : tables.updateRunEventStateAfterAppend batch state accounted = .ok tables') :
    tables'.events = tables.events ∧ SameFences tables tables' := by
  cases updateRunEventStateAfterAppend_ok hupdate
  refine ⟨rfl, fun other => ?_⟩
  by_cases hother : other = batch.runId
  · subst hother
    obtain ⟨hflow, howner⟩ :=
      foldl_advanceState_fence accounted.entries (state, state.latestSequence + 1)
    simp only [RunEventTables.runEventState] at hstate ⊢
    rw [AList.lookup_insert, hstate, Option.map_some, Option.map_some, hflow, howner]
  · simp only [RunEventTables.runEventState]
    rw [AList.lookup_insert_ne hother]

def expiry (config : RunEventJournalConfig) (now : Int) : Int :=
  now + config.retention / 10 ^ 9 * 10 ^ 6

variable {now : Int}

theorem persistRunEventAppend_rows
    {summary : RunEventPruneSummary} {result : RunEventTables Payload × RunEventPruneSummary}
    (hinv : JournalInvariant config tables)
    (hpersist : persistRunEventAppend config now batch state accounted (tables, summary)
      = .ok result) :
    ∃ kept, kept.Sublist tables.events ∧
      result.1.events = kept ++ newRows batch accounted now (expiry config now) ∧
      SameFences tables result.1 := by
  simp only [persistRunEventAppend, bind_ok_iff, require_ok_iff] at hpersist
  obtain ⟨_, -, _, -, ⟨roomy, _⟩, hevictRun, _, -, _, -, ⟨ready, _⟩, hevictAll, final, hfinal,
    inserted, hinsert, updated, hupdate, hresult⟩ := hpersist
  cases hresult
  obtain ⟨hroomy, hshrinks, -⟩ := evictRunEventCapacity_ok hinv hevictRun
  obtain ⟨hready, hshrinks', -⟩ := evictGlobalRunEventCapacity_ok hroomy hevictAll
  obtain ⟨-, hevents, hstates, -⟩ := foldlM_insertRow hready.keys_nodup hinsert
  have hinserted : inserted.runEventState batch.runId = some final := by
    rw [RunEventTables.runEventState, hstates]
    exact hfinal
  obtain ⟨hupdated, hfences⟩ := updateRunEventStateAfterAppend_sameFences hinserted hupdate
  have hmoved : SameFences ready inserted := fun runId => by
    simp only [RunEventTables.runEventState, hstates]
  refine ⟨ready.events, hshrinks'.rows.trans hshrinks.rows, hupdated.trans hevents, ?_⟩
  exact (((evictRows_sameFences hevictRun).trans (evictRows_sameFences hevictAll)).trans
    hmoved).trans hfences

structure Admissible (config : RunEventJournalConfig) (instanceId : String) (run : Option RunFence)
    (batch : RunEventAppendBatch Payload) : Prop where
  valid : batch.validate config = .ok ()
  owner : batch.ownerInstanceId = instanceId
  sequences : batch.entries.all fun entry => entry.sequence < bigintBound
  target : ∃ target, lockRunEventAppendTarget batch run = .ok target

def newEntries (tables : RunEventTables Payload) (batch : RunEventAppendBatch Payload) :
    List (RunEventAppendEntry Payload) :=
  batch.entries.filter (tables.latestOf batch.runId < ·.sequence)

/-- What a successful append did: it found every old entry stored with its data, and added a row for
each of the others and for nothing else. -/
structure Appended (config : RunEventJournalConfig) (before after : RunEventTables Payload)
    (batch : RunEventAppendBatch Payload) (now : Int) (outcome : RunEventAppendOutcome) : Prop where
  retries : ∀ entry ∈ batch.entries, entry.sequence ≤ before.latestOf batch.runId →
    ∃ row ∈ before.rowsOf batch.runId, row.Records entry
  rows : ∃ kept, kept.Sublist before.events ∧
    after.events
      = kept ++ (newEntries before batch).map (rowOf batch.runId now (expiry config now))
  appended : outcome.appendedEvents = (newEntries before batch).length
  duplicates : outcome.duplicateEvents
    = (batch.entries.filter (·.sequence ≤ before.latestOf batch.runId)).length

def Fenced (tables : RunEventTables Payload) (batch : RunEventAppendBatch Payload) : Prop :=
  (tables.runEventState batch.runId).map (fun state => (state.flow, state.ownerInstanceId))
    = some (batch.flow, batch.ownerInstanceId)

omit [RunEventPayload Payload] in
theorem initializeRunEventState_fenced
    (hinit : tables.initializeRunEventState batch = .ok (tables', state)) :
    tables'.events = tables.events ∧ Fenced tables' batch ∧
      state.latestSequence = tables.latestOf batch.runId := by
  obtain ⟨hstate, hcases⟩ := lookup_initialize hinit
  have hfence : state.flow = batch.flow ∧ state.ownerInstanceId = batch.ownerInstanceId := by
    unfold initializeRunEventState at hinit
    obtain ⟨found, -, hinit⟩ := bind_ok_iff.mp hinit
    obtain ⟨hfence, hinit⟩ := ensure_bind_ok_iff.mp hinit
    cases hinit
    exact hfence
  have hfenced : Fenced tables' batch := by
    rw [Fenced, hstate, Option.map_some, hfence.1, hfence.2]
  obtain rfl | ⟨hnone, rfl⟩ := hcases
  · exact ⟨rfl, hfenced, by simp [latestOf, hstate]⟩
  · refine ⟨rfl, hfenced, ?_⟩
    have heq := hstate.symm.trans (AList.lookup_insert _)
    cases heq
    simp [latestOf, hnone]

omit [RunEventPayload Payload] in
theorem Shrinks.latestOf {before after : RunEventTables Payload} (hshrinks : Shrinks before after)
    (runId : String) : after.latestOf runId = before.latestOf runId := by
  cases hstate : before.runEventState runId with
  | none => simp [RunEventTables.latestOf, hstate, hshrinks.absent runId hstate]
  | some state =>
    obtain ⟨state', hstate', hlatest, -⟩ := hshrinks.states runId state hstate
    simp [RunEventTables.latestOf, hstate, hstate', hlatest]

theorem pruneExpiredRunEvents_unexpired (hlive : ∀ row ∈ tables.events, now < row.expiresAt) :
    tables.pruneExpiredRunEvents config now = .ok (tables, ∅) := by
  have hnone : tables.events.filter (fun row => decide (row.expiresAt ≤ now)) = [] := by
    rw [List.filter_eq_nil_iff]
    intro row hrow
    have hexpires := hlive row hrow
    simp only [decide_eq_true_eq]
    omega
  simp only [pruneExpiredRunEvents, hnone, List.insertionSort_nil, List.take_nil, List.map_nil,
    deleteRunEventCandidates, if_true]

omit [RunEventPayload Payload] in
theorem initializeRunEventState_of_fenced (hstate : tables.runEventState batch.runId = some state)
    (hfenced : Fenced tables batch) :
    tables.initializeRunEventState batch = .ok (tables, state) := by
  rw [Fenced, hstate, Option.map_some, Option.some.injEq, Prod.mk.injEq] at hfenced
  simp only [initializeRunEventState, hstate, require, ok_bind, ensure_of hfenced]
  rfl

theorem accountRunEventAppend_nil (config : RunEventJournalConfig) :
    @accountRunEventAppend Payload _ config []
      = .ok { entries := [], eventCount := 0, byteCount := 0 } := by
  simp only [accountRunEventAppend, List.all_nil, List.foldlM_nil, List.length_nil]
  rw [ensure_of trivial, pure_bind, ensure_of ⟨Nat.zero_le _, Nat.zero_le _⟩]
  rfl

theorem JournalInvariant.unique (hinv : JournalInvariant config tables) :
    ∀ row ∈ tables.rowsOf runId, ∀ other ∈ tables.rowsOf runId, other.sequence = row.sequence →
      other = row := by
  intro row hrow other hother hsequence
  obtain ⟨hrow, hrun⟩ := List.mem_filter.mp hrow
  obtain ⟨hother, hotherRun⟩ := List.mem_filter.mp hother
  refine RunEventRow.eq_of_key_eq hinv.keys_nodup hother hrow (Prod.ext ?_ hsequence)
  exact (of_decide_eq_true hotherRun).trans (of_decide_eq_true hrun).symm

variable [DecidableEq Payload] {outcome : RunEventAppendOutcome} {after : RunEventTables Payload}
  {run : Option RunFence} {instanceId : String}

theorem appendRunEventJournal_appended {pruneNow now : Int} (hinv : JournalInvariant config tables)
    (happend : tables.appendRunEventJournal config instanceId run pruneNow now batch
      = .ok (after, outcome)) :
    Admissible config instanceId run batch ∧ Appended config tables after batch now outcome ∧
      Fenced after batch ∧ ∃ state, after.runEventState batch.runId = some state ∧
        after.runEventBounds batch.runId state = .ok outcome.bounds := by
  unfold appendRunEventJournal at happend
  obtain ⟨hvalid, happend⟩ := unit_bind_ok_iff.mp happend
  obtain ⟨howner, happend⟩ := ensure_bind_ok_iff.mp happend
  obtain ⟨hsequences, happend⟩ := ensure_bind_ok_iff.mp happend
  obtain ⟨target, htarget, happend⟩ := bind_ok_iff.mp happend
  obtain ⟨⟨pruned, summary⟩, hprune, happend⟩ := bind_ok_iff.mp happend
  obtain ⟨⟨opened, state⟩, hinit, happend⟩ := bind_ok_iff.mp happend
  obtain ⟨⟨duplicates, fresh⟩, hpartition, happend⟩ := bind_ok_iff.mp happend
  obtain ⟨-, happend⟩ := unit_bind_ok_iff.mp happend
  obtain ⟨accounted, haccount, happend⟩ := bind_ok_iff.mp happend
  obtain ⟨⟨persisted, summary'⟩, hpersist, happend⟩ := bind_ok_iff.mp happend
  obtain ⟨final, hfinal, happend⟩ := bind_ok_iff.mp happend
  obtain ⟨bounds, hbounds, happend⟩ := bind_ok_iff.mp happend
  obtain ⟨-, happend⟩ := unit_bind_ok_iff.mp happend
  cases happend
  obtain ⟨hprunedInv, hshrinks⟩ := pruneExpiredRunEvents_ok hinv hprune
  obtain ⟨hopenedInv, -, -⟩ := initializeRunEventState_ok hprunedInv hinit
  obtain ⟨hevents, hfenced, hlatest⟩ := initializeRunEventState_fenced hinit
  rw [hshrinks.latestOf] at hlatest
  obtain ⟨hfold, hstored⟩ := foldlM_partitionEntry_ok hpartition
  rw [hlatest] at hfold hstored
  simp only [Nat.zero_add, List.nil_append, Prod.mk.injEq] at hfold
  obtain ⟨hduplicates, hfresh⟩ := hfold
  obtain ⟨hentries, hcount, -⟩ := accountRunEventAppend_ok haccount
  have hrows : ∃ kept, kept.Sublist opened.events ∧
      after.events
        = kept ++ (newEntries tables batch).map (rowOf batch.runId now (expiry config now)) ∧
      SameFences opened after := by
    by_cases hsome : 0 < accounted.eventCount
    · simp only [if_pos hsome] at hpersist
      obtain ⟨kept, hkept, hadded, hsame⟩ := persistRunEventAppend_rows hopenedInv hpersist
      refine ⟨kept, hkept, ?_, hsame⟩
      rw [newEntries, ← hfresh, ← hentries]
      exact hadded
    · simp only [if_neg hsome] at hpersist
      cases hpersist
      have hnil : fresh = [] := by
        rw [hcount, Nat.not_lt, Nat.le_zero, List.length_eq_zero_iff] at hsome
        exact hsome
      refine ⟨after.events, List.Sublist.refl _, ?_, SameFences.refl _⟩
      rw [newEntries, ← hfresh, hnil, List.map_nil, List.append_nil]
  obtain ⟨kept, hkept, hadded, hsame⟩ := hrows
  rw [hevents] at hkept
  refine ⟨⟨hvalid, howner, hsequences, target, htarget⟩, ?_, ?_, final, require_ok_iff.mp hfinal,
    hbounds⟩
  · exact
      { retries := fun entry hentry hle => by
          obtain ⟨row, hrow, hrecords⟩ := hstored entry hentry hle
          refine ⟨row, (hshrinks.rowsOf batch.runId).subset ?_, hrecords⟩
          rw [RunEventTables.rowsOf, hevents] at hrow
          exact hrow
        rows := ⟨kept, hkept.trans hshrinks.rows, hadded⟩
        appended := by rw [newEntries, ← hfresh, hcount]
        duplicates := hduplicates }
  · rw [Fenced, hsame batch.runId]
    exact hfenced

/-! ### The retry -/

theorem appendRunEventJournal_of_stored
    {pruneNow : Int} (now : Int) {bounds : RunEventBounds} (hinv : JournalInvariant config tables)
    (hadmissible : Admissible config instanceId run batch) (hfenced : Fenced tables batch)
    (hstate : tables.runEventState batch.runId = some state)
    (hbounds : tables.runEventBounds batch.runId state = .ok bounds)
    (hlive : ∀ row ∈ tables.events, pruneNow < row.expiresAt)
    (hstored : ∀ entry ∈ batch.entries, ∃ row ∈ tables.rowsOf batch.runId, row.Records entry) :
    tables.appendRunEventJournal config instanceId run pruneNow now batch
      = .ok (tables,
          { appendedEvents := 0
            duplicateEvents := batch.entries.length
            evictedEvents := 0
            evictedBytes := 0
            evictionGap := none
            bounds }) := by
  obtain ⟨target, htarget⟩ := hadmissible.target
  have hbelow : ∀ entry ∈ batch.entries, entry.sequence ≤ state.latestSequence ∧
      ∃ row ∈ tables.rowsOf batch.runId, row.Records entry := by
    intro entry hentry
    obtain ⟨row, hrow, hrecords⟩ := hstored entry hentry
    have hwithin := ((hinv.accounts _ state hstate).within row hrow).2
    rw [hrecords.1] at hwithin
    exact ⟨hwithin, row, hrow, hrecords⟩
  have hboundsValid : bounds.validate = .ok () := by
    obtain ⟨bounds', hbounds', hvalid⟩ := (hinv.accounts _ state hstate).bounds_ok
    rw [hbounds] at hbounds'
    cases hbounds'
    exact hvalid
  have hpartition : tables.partitionNewRunEventEntries batch state
      = .ok (0 + batch.entries.length, []) :=
    foldlM_partitionEntry_stored hinv.unique hbelow
  unfold appendRunEventJournal
  rw [hadmissible.valid, ok_bind, ensure_of hadmissible.owner, ensure_of hadmissible.sequences,
    htarget, ok_bind, pruneExpiredRunEvents_unexpired hlive, ok_bind]
  simp only [initializeRunEventState_of_fenced hstate hfenced, ok_bind, hpartition,
    validateNewRunEventEntries, accountRunEventAppend_nil, Nat.lt_irrefl, if_true, if_false, hstate,
    require, hbounds, RunEventAppendOutcome.validate, hboundsValid, Nat.zero_add]
  rfl

theorem appendRunEventJournal_of_missing {pruneNow : Int} (now : Int)
    (hadmissible : Admissible config instanceId run batch) (hfenced : Fenced tables batch)
    (hstate : tables.runEventState batch.runId = some state)
    (hlive : ∀ row ∈ tables.events, pruneNow < row.expiresAt) (hentry : entry ∈ batch.entries)
    (hle : entry.sequence ≤ state.latestSequence)
    (hmissing : ∀ row ∈ tables.rowsOf batch.runId, row.sequence ≠ entry.sequence) :
    ∃ message, tables.appendRunEventJournal config instanceId run pruneNow now batch
      = .error (.conflict message) := by
  obtain ⟨target, htarget⟩ := hadmissible.target
  cases hpartition : tables.partitionNewRunEventEntries batch state with
  | ok result =>
    obtain ⟨row, hrow, hrecords⟩ := (foldlM_partitionEntry_ok hpartition).2 entry hentry hle
    exact absurd hrecords.1 (hmissing row hrow)
  | error error =>
    obtain ⟨message, rfl⟩ := foldlM_partitionEntry_error hpartition
    refine ⟨message, ?_⟩
    unfold appendRunEventJournal
    rw [hadmissible.valid, ok_bind, ensure_of hadmissible.owner, ensure_of hadmissible.sequences,
      htarget, ok_bind, pruneExpiredRunEvents_unexpired hlive, ok_bind]
    simp only [initializeRunEventState_of_fenced hstate hfenced, ok_bind, hpartition]
    rfl

omit [DecidableEq Payload] in
theorem Appended.records (hinv : JournalInvariant config tables)
    (hincreasing : batch.entries.Pairwise (·.sequence < ·.sequence))
    (happended : Appended config tables after batch now outcome) (hentry : entry ∈ batch.entries)
    {row : RunEventRow Payload} (hrow : row ∈ after.rowsOf batch.runId)
    (hsequence : row.sequence = entry.sequence) : row.Records entry := by
  obtain ⟨kept, hkept, hevents⟩ := happended.rows
  obtain ⟨hmem, hrun⟩ := List.mem_filter.mp hrow
  rw [hevents, List.mem_append] at hmem
  obtain hold | hnew := hmem
  · -- the row was there before, so the entry is not above the latest sequence
    have hbefore : row ∈ tables.rowsOf batch.runId := List.mem_filter.mpr ⟨hkept.subset hold, hrun⟩
    obtain ⟨state, hstate⟩ := hinv.stateful row (hkept.subset hold)
    rw [of_decide_eq_true hrun] at hstate
    have hwithin := ((hinv.accounts _ state hstate).within row hbefore).2
    have hle : entry.sequence ≤ tables.latestOf batch.runId := by
      rw [RunEventTables.latestOf, hstate, Option.map_some, Option.getD_some, ← hsequence]
      exact hwithin
    obtain ⟨stored, hstored, hrecords⟩ := happended.retries entry hentry hle
    rw [hinv.unique stored hstored row hbefore (hsequence.trans hrecords.1.symm)]
    exact hrecords
  · obtain ⟨other, hother, rfl⟩ := List.mem_map.mp hnew
    have hotherMem : other ∈ batch.entries := List.mem_of_mem_filter hother
    have hsame : other = entry := by
      have hnodup : (batch.entries.map (·.sequence)).Nodup :=
        (List.pairwise_map.mpr hincreasing).imp Nat.ne_of_lt
      exact List.inj_on_of_nodup_map hnodup hotherMem hentry hsequence
    subst hsame
    exact ⟨rfl, rfl, rfl, rfl⟩

omit [DecidableEq Payload] in
theorem Appended.le_latest (hafter : JournalInvariant config after)
    (hadvances : Advances tables after)
    (happended : Appended config tables after batch now outcome)
    (hstate : after.runEventState batch.runId = some state) (hentry : entry ∈ batch.entries) :
    entry.sequence ≤ state.latestSequence := by
  by_cases hle : entry.sequence ≤ tables.latestOf batch.runId
  · cases hbefore : tables.runEventState batch.runId with
    | none =>
      rw [RunEventTables.latestOf, hbefore] at hle
      exact hle.trans (Nat.zero_le _)
    | some before =>
      obtain ⟨state', hstate', hlatest, -⟩ := hadvances _ before hbefore
      rw [hstate] at hstate'
      cases hstate'
      rw [RunEventTables.latestOf, hbefore, Option.map_some, Option.getD_some] at hle
      exact hle.trans hlatest
  · obtain ⟨kept, -, hevents⟩ := happended.rows
    have hnew : entry ∈ newEntries tables batch :=
      List.mem_filter.mpr ⟨hentry, decide_eq_true (Nat.lt_of_not_le hle)⟩
    have hrow : rowOf batch.runId now (expiry config now) entry ∈ after.rowsOf batch.runId := by
      refine List.mem_filter.mpr ⟨?_, decide_eq_true rfl⟩
      rw [hevents]
      exact List.mem_append_right _ (List.mem_map_of_mem hnew)
    exact ((hafter.accounts _ state hstate).within _ hrow).2

/-- In every state the journal reaches, and for every batch: what an append that succeeds adds, what the
same append does a second time before anything expires, and that an append which fails, as it does on
a batch that contradicts the journal, changes nothing. -/
theorem appendRunEventJournal_retry {Payload : Type} [RunEventPayload Payload] [DecidableEq Payload]
    (config : RunEventJournalConfig) (ops : List (RunEventJournalOp Payload)) (instanceId : String)
    (run : Option RunFence) (pruneNow now : Int) (batch : RunEventAppendBatch Payload) :
    (∀ after outcome,
      (RunEventTables.run config ops).appendRunEventJournal config instanceId run pruneNow now batch
          = .ok (after, outcome) →
        Appended config (RunEventTables.run config ops) after batch now outcome ∧
        ∀ pruneAgain again, (∀ row ∈ after.events, pruneAgain < row.expiresAt) →
          ((∀ entry ∈ batch.entries, ∃ row ∈ after.rowsOf batch.runId,
              row.sequence = entry.sequence) →
            after.appendRunEventJournal config instanceId run pruneAgain again batch
              = .ok (after,
                  { appendedEvents := 0
                    duplicateEvents := batch.entries.length
                    evictedEvents := 0
                    evictedBytes := 0
                    evictionGap := none
                    bounds := outcome.bounds })) ∧
          ((∃ entry ∈ batch.entries, ∀ row ∈ after.rowsOf batch.runId,
              row.sequence ≠ entry.sequence) →
            ∃ message, after.appendRunEventJournal config instanceId run pruneAgain again batch
              = .error (.conflict message))) ∧
    ((∃ entry ∈ batch.entries,
        entry.sequence ≤ (RunEventTables.run config ops).latestOf batch.runId ∧
        ∀ row ∈ (RunEventTables.run config ops).rowsOf batch.runId, ¬ row.Records entry) →
      ∃ error, (RunEventTables.run config ops).appendRunEventJournal config instanceId run pruneNow
        now batch = .error error) ∧
    (∀ error,
      (RunEventTables.run config ops).appendRunEventJournal config instanceId run pruneNow now batch
          = .error error →
        (RunEventTables.run config ops).step config (.append instanceId run pruneNow now batch)
          = RunEventTables.run config ops) := by
  obtain ⟨hinv, -⟩ := (JournalInvariant.empty config).foldl ops
  change JournalInvariant config (RunEventTables.run config ops) at hinv
  refine ⟨fun after outcome happend => ?_, ?_, fun error herror => ?_⟩
  · obtain ⟨hadmissible, happended, hfenced, state, hstate, hbounds⟩ :=
      appendRunEventJournal_appended hinv happend
    obtain ⟨hafter, hadvances⟩ := appendRunEventJournal_ok hinv happend
    obtain ⟨-, hchecked⟩ := RunEventAppendBatch.checked_of_validate hadmissible.valid
    refine ⟨happended, fun pruneAgain again hlive => ⟨fun hretained => ?_, ?_⟩⟩
    · refine appendRunEventJournal_of_stored again hafter hadmissible hfenced hstate hbounds hlive
        fun entry hentry => ?_
      obtain ⟨row, hrow, hsequence⟩ := hretained entry hentry
      exact ⟨row, hrow, happended.records hinv hchecked.increasing hentry hrow hsequence⟩
    · rintro ⟨entry, hentry, hmissing⟩
      exact appendRunEventJournal_of_missing again hadmissible hfenced hstate hlive hentry
        (happended.le_latest hafter hadvances hstate hentry) hmissing
  · rintro ⟨entry, hentry, hle, hdifferent⟩
    cases happend : (RunEventTables.run config ops).appendRunEventJournal config instanceId run
        pruneNow now batch with
    | error error => exact ⟨error, rfl⟩
    | ok result =>
      obtain ⟨-, happended, -⟩ := appendRunEventJournal_appended hinv happend
      obtain ⟨row, hrow, hrecords⟩ := happended.retries entry hentry hle
      exact absurd hrecords (hdifferent row hrow)
  · simp only [RunEventTables.step, herror, Except.map]

end Append

/-! ### A journal with room for two events of a run -/

section Narrow

def narrowJournal : RunEventJournalConfig := { maxBytesPerRun := 2048, maxEventBytes := 2048 }

def logBatch (sequences : List Nat) : RunEventAppendBatch TagPayload :=
  { runId := "run"
    flow := "crew"
    ownerInstanceId := "worker"
    entries := sequences.map (tagEntry · "log") }

def appendLog (tables : RunEventTables TagPayload) (sequences : List Nat) :
    Except IronCrewError (RunEventTables TagPayload × RunEventAppendOutcome) :=
  tables.appendRunEventJournal narrowJournal "worker" (some (crewRun "running")) 0 0
    (logBatch sequences)

/-- The first two events of a run, appended twice. -/
theorem appendRunEventJournal_retry_first :
    ∃ after outcome, appendLog {} [1, 2] = .ok (after, outcome) ∧ outcome.appendedEvents = 2 ∧
      appendLog after [1, 2] = .ok (after,
        { appendedEvents := 0
          duplicateEvents := 2
          evictedEvents := 0
          evictedBytes := 0
          evictionGap := none
          bounds := outcome.bounds }) := by
  have hfacts : (appendLog {} [1, 2]).map (fun result =>
      result.1.events.all (0 < ·.expiresAt) && (logBatch [1, 2]).entries.all fun entry =>
        (result.1.rowsOf "run").any (·.sequence = entry.sequence)) = .ok true := by
    decide +kernel
  obtain ⟨⟨after, outcome⟩, happend, hfacts⟩ := exists_ok_of_map_eq_ok hfacts
  simp only [Bool.and_eq_true, List.all_eq_true, List.any_eq_true, decide_eq_true_eq] at hfacts
  obtain ⟨hlive, hretained⟩ := hfacts
  obtain ⟨hsuccess, -⟩ := appendRunEventJournal_retry narrowJournal [] "worker"
    (some (crewRun "running")) 0 0 (logBatch [1, 2])
  obtain ⟨happended, hagain⟩ := hsuccess after outcome happend
  exact ⟨after, outcome, happend, happended.appended, (hagain 0 0 hlive).1 hretained⟩

def twoEvents : RunEventTables TagPayload :=
  RunEventTables.run narrowJournal
    [.append "worker" (some (crewRun "running")) 0 0 (logBatch [1, 2])]

def threeEvents : RunEventTables TagPayload :=
  twoEvents.step narrowJournal
    (.append "worker" (some (crewRun "running")) 0 0 (logBatch [1, 2, 3]))

theorem appendRunEventJournal_retry_evicted :
    (appendLog twoEvents [1, 2, 3]).map (fun result =>
        (result.2.appendedEvents, result.2.duplicateEvents, result.2.evictedEvents))
      = .ok (1, 2, 1) ∧
    (appendLog threeEvents [1, 2, 3]).map Prod.snd
      = .error (.conflict
          "Run-event sequence 1 for 'run' was already allocated and is no longer retained") ∧
    (appendLog threeEvents [1, 3, 4]).map Prod.snd
      = .error (.conflict
          "Run-event sequence 1 for 'run' was already allocated and is no longer retained") := by
  refine ⟨?_, ?_, ?_⟩ <;> decide +kernel

end Narrow

end IronCrew
