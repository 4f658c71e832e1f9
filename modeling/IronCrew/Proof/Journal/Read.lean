import IronCrew.Journal.Read
import IronCrew.Proof.Journal.Append

/-!
# Replay coverage

A page starts right after its cursor, ends at or before the latest sequence, and moves the cursor
unless it is already there. Reading page after page therefore accounts for every sequence after the
cursor once, in order, whatever has expired at the time of each read.
-/

namespace IronCrew

open Checked Outcome RunEventTables

variable {Payload : Type}

/-! ### The parts of a page -/

variable {rows : List (RunEventRow Payload)}

section Parts

def Numbered (rows : List (RunEventRow Payload)) : Prop :=
  rows.Pairwise (·.sequence < ·.sequence)

theorem splitAtGap_isPrefix (expected : Nat) (entries : List (RunEventEntry Payload)) :
    (splitAtGap expected entries).1 <+: entries := by
  induction entries generalizing expected with
  | nil => exact List.prefix_refl _
  | cons entry entries ih =>
    rw [splitAtGap]
    split
    · exact List.nil_prefix
    · exact List.cons_prefix_cons.mpr ⟨rfl, ih (entry.sequence + 1)⟩

variable {entries : List (RunEventEntry Payload)} {expected : Nat}

theorem map_sequence_splitAtGap (hincreasing : entries.Pairwise (·.sequence < ·.sequence))
    (hexpected : ∀ entry ∈ entries, expected ≤ entry.sequence) :
    (splitAtGap expected entries).1.map (·.sequence)
      = List.range' expected (splitAtGap expected entries).1.length := by
  induction entries generalizing expected with
  | nil => rfl
  | cons entry entries ih =>
    obtain ⟨hfirst, hrest⟩ := List.pairwise_cons.mp hincreasing
    rw [splitAtGap]
    by_cases hgap : expected < entry.sequence
    · rw [if_pos hgap]
      rfl
    · have heq : entry.sequence = expected :=
        le_antisymm (Nat.le_of_not_lt hgap) (hexpected entry (List.mem_cons_self ..))
      rw [if_neg hgap]
      simp only [List.map_cons, List.length_cons, List.range'_succ]
      rw [ih hrest fun other hother => hfirst other hother, heq]

theorem splitAtGap_of_range
    (hrange : entries.map (·.sequence) = List.range' expected entries.length) :
    splitAtGap expected entries = (entries, none) := by
  induction entries generalizing expected with
  | nil => rfl
  | cons entry entries ih =>
    simp only [List.map_cons, List.length_cons, List.range'_succ, List.cons.injEq] at hrange
    obtain ⟨hfirst, hrest⟩ := hrange
    rw [splitAtGap, if_neg (by omega), ih (by rw [hfirst]; exact hrest)]

theorem splitAtGap_nil_cases (hnil : (splitAtGap expected entries).1 = []) :
    (entries = [] ∧ (splitAtGap expected entries).2 = none) ∨
      ∃ entry rest, entries = entry :: rest ∧ expected < entry.sequence ∧
        (splitAtGap expected entries).2 = some (expected, entry.sequence - 1) := by
  cases entries with
  | nil => exact Or.inl ⟨rfl, rfl⟩
  | cons entry entries =>
    rw [splitAtGap] at hnil ⊢
    split at hnil
    · rename_i hgap
      rw [if_pos hgap]
      exact Or.inr ⟨entry, entries, rfl, hgap, rfl⟩
    · cases hnil

variable [RunEventPayload Payload]

theorem le_of_mem_runningTotals {start : Nat}
    {entry : RunEventRow Payload × Nat} (hentry : entry ∈ runningTotals start rows) :
    start ≤ entry.2 := by
  induction rows generalizing start with
  | nil => cases hentry
  | cons row rows ih =>
    obtain rfl | hentry := List.mem_cons.mp hentry
    · exact Nat.le_add_right _ _
    · exact (Nat.le_add_right _ _).trans (ih hentry)

theorem filter_runningTotals (maxBytes start : Nat) (rows : List (RunEventRow Payload)) :
    ∃ count, ((runningTotals start rows).filter (·.2 ≤ maxBytes)).map Prod.fst = rows.take count ∧
      (start + bytesOf (rows.take count) ≤ maxBytes ∨ count = 0) := by
  induction rows generalizing start with
  | nil => exact ⟨0, rfl, Or.inr rfl⟩
  | cons row rows ih =>
    by_cases hfits : start + row.accounted ≤ maxBytes
    · obtain ⟨count, hcount, hbytes⟩ := ih (start + row.accounted)
      refine ⟨count + 1, ?_, Or.inl ?_⟩
      · simp only [runningTotals, List.filter_cons, hfits, decide_true, if_true, List.map_cons,
          List.take_succ_cons, hcount]
      · simp only [List.take_succ_cons, bytesOf, List.map_cons, List.sum_cons] at hbytes ⊢
        obtain hbytes | rfl := hbytes
        · omega
        · simp only [List.take_zero, List.map_nil, List.sum_nil]
          omega
    · refine ⟨0, ?_, Or.inr rfl⟩
      rw [List.take_zero, List.map_eq_nil_iff, List.filter_eq_nil_iff]
      intro entry hentry
      obtain rfl | hentry := List.mem_cons.mp hentry
      · simpa using hfits
      · -- totals only grow, so no later row fits either
        have hgrow := le_of_mem_runningTotals hentry
        simp only [decide_eq_true_eq]
        omega

theorem boundedSequences_take (maxBytes : Nat) (rows : List (RunEventRow Payload)) :
    ∃ count, boundedSequences maxBytes rows = rows.take count ∧ (rows ≠ [] → 0 < count) ∧
      (bytesOf (rows.take count) ≤ maxBytes ∨ count ≤ 1) := by
  cases rows with
  | nil => exact ⟨0, rfl, by simp, Or.inr (by omega)⟩
  | cons row rows =>
    obtain ⟨count, hcount, hbytes⟩ := filter_runningTotals maxBytes row.accounted rows
    refine ⟨count + 1, ?_, fun _ => Nat.succ_pos _, ?_⟩
    · rw [boundedSequences, hcount, List.take_succ_cons]
    · obtain hbytes | rfl := hbytes
      · left
        simpa [bytesOf] using hbytes
      · exact Or.inr le_rfl

theorem boundedSequences_eq_self {maxBytes : Nat}
    (hfits : bytesOf rows ≤ maxBytes ∨ rows.length ≤ 1) : boundedSequences maxBytes rows = rows := by
  cases rows with
  | nil => rfl
  | cons row rows =>
    have hall : ∀ (rows : List (RunEventRow Payload)) (start : Nat),
        start + bytesOf rows ≤ maxBytes ∨ rows = [] →
        ((runningTotals start rows).filter (·.2 ≤ maxBytes)).map Prod.fst = rows := by
      intro rows
      induction rows with
      | nil => exact fun _ _ => rfl
      | cons row rows ih =>
        intro start hstart
        obtain hstart | hstart := hstart
        · simp only [bytesOf, List.map_cons, List.sum_cons] at hstart
          have hrow : start + row.accounted ≤ maxBytes := by omega
          have hrest := ih (start + row.accounted) (Or.inl (by unfold bytesOf; omega))
          simp only [runningTotals, List.filter_cons, hrow, decide_true, if_true, List.map_cons,
            hrest]
        · cases hstart
    rw [boundedSequences, hall]
    obtain hfits | hfits := hfits
    · left
      simpa [bytesOf] using hfits
    · right
      exact List.length_eq_zero_iff.mp (by simpa using hfits)

end Parts

/-! ### Bounds at one instant -/

variable {now : Int} {after : Nat} {runId : String} {row : RunEventRow Payload}

section Bounds

variable [RunEventPayload Payload] {config : RunEventJournalConfig}
  {tables : RunEventTables Payload}

def RunEventTables.latestOf (tables : RunEventTables Payload) (runId : String) : Nat :=
  ((tables.runEventState runId).map (·.latestSequence)).getD 0

omit [RunEventPayload Payload] in
theorem mem_liveRows :
    row ∈ tables.liveRows runId now ↔ row ∈ tables.rowsOf runId ∧ now < row.expiresAt := by
  simp [liveRows]

structure BoundsFacts (tables : RunEventTables Payload) (runId : String) (now : Int)
    (bounds : RunEventBounds) (reason : Option RunEventGapReason) : Prop where
  latest_eq : bounds.latestSequence = tables.latestOf runId
  dropped_le : bounds.droppedThrough ≤ bounds.latestSequence
  within : ∀ row ∈ tables.liveRows runId now,
    bounds.droppedThrough < row.sequence ∧ row.sequence ≤ bounds.latestSequence
  reason : 0 < bounds.droppedThrough → reason.isSome
  valid : bounds.validate = .ok ()

theorem retentionBoundary_within {state : RunEventStateRow} (now : Int)
    (haccounts : RunAccounts config (tables.rowsOf runId) state) :
    let boundary := retentionBoundary state.droppedThrough
      ((tables.expiredRows runId now).map (·.sequence)).max?
      ((tables.liveRows runId now).map (·.sequence)).min?
    boundary ≤ state.latestSequence ∧
      ∀ row ∈ tables.liveRows runId now, boundary < row.sequence := by
  have hlive : ∀ row ∈ tables.liveRows runId now, row ∈ tables.rowsOf runId := fun row hrow =>
    (mem_liveRows.mp hrow).1
  cases hexpired : ((tables.expiredRows runId now).map (·.sequence)).max? with
  | none =>
    exact ⟨haccounts.dropped_le, fun row hrow => (haccounts.within row (hlive row hrow)).1⟩
  | some expired =>
    obtain ⟨hmem, -⟩ := List.max?_eq_some_iff.mp hexpired
    obtain ⟨old, hold, rfl⟩ := List.mem_map.mp hmem
    have hlatest := (haccounts.within old (List.mem_of_mem_filter hold)).2
    cases hearliest : ((tables.liveRows runId now).map (·.sequence)).min? with
    | none =>
      refine ⟨hlatest, fun row hrow => ?_⟩
      rw [List.map_eq_nil_iff.mp (List.min?_eq_none_iff.mp hearliest)] at hrow
      cases hrow
    | some earliest =>
      obtain ⟨hmem, hleast⟩ := List.min?_eq_some_iff.mp hearliest
      obtain ⟨first, hfirst, rfl⟩ := List.mem_map.mp hmem
      have hpos := (haccounts.within first (hlive first hfirst)).1
      refine ⟨(min_le_left _ _).trans hlatest, fun row hrow => ?_⟩
      have hle := hleast row.sequence (List.mem_map_of_mem hrow)
      simp only [retentionBoundary]
      omega

theorem boundsAt_latest (tables : RunEventTables Payload) (runId : String) (now : Int) :
    (tables.boundsAt runId now).1.latestSequence = tables.latestOf runId := by
  unfold boundsAt latestOf
  cases tables.runEventState runId with
  | none => rfl
  | some state => rfl

theorem boundsAt_facts (hinv : JournalInvariant config tables) (runId : String) (now : Int) :
    BoundsFacts tables runId now (tables.boundsAt runId now).1 (tables.boundsAt runId now).2 := by
  have hlatestEq := boundsAt_latest tables runId now
  unfold boundsAt at hlatestEq ⊢
  cases hstate : tables.runEventState runId with
  | none =>
    have hempty : tables.liveRows runId now = [] := by
      rw [liveRows, List.filter_eq_nil_iff]
      intro row hrow
      obtain ⟨hmem, hrun⟩ := List.mem_filter.mp hrow
      obtain ⟨state, hfound⟩ := hinv.stateful row hmem
      rw [of_decide_eq_true hrun, hstate] at hfound
      cases hfound
    exact
      { latest_eq := by rwa [hstate] at hlatestEq
        dropped_le := le_rfl
        within := by simp [hempty]
        reason := by simp
        valid := by rfl }
  | some state =>
    have haccounts := hinv.accounts runId state hstate
    obtain ⟨hlatest, habove⟩ := retentionBoundary_within now haccounts
    have hdropped : (tables.logicalBounds runId now state).1.droppedThrough
        ≤ state.latestSequence := max_le haccounts.dropped_le hlatest
    have hwithin : ∀ row ∈ tables.liveRows runId now,
        (tables.logicalBounds runId now state).1.droppedThrough < row.sequence ∧
          row.sequence ≤ state.latestSequence := by
      intro row hrow
      have hrowWithin := haccounts.within row (mem_liveRows.mp hrow).1
      exact ⟨max_lt hrowWithin.1 (habove row hrow), hrowWithin.2⟩
    exact
      { latest_eq := by rwa [hstate] at hlatestEq
        dropped_le := hdropped
        within := hwithin
        reason := fun hpos => by
          simp only [logicalBounds] at hpos ⊢
          split
          · rfl
          · rename_i hsame
            exact haccounts.reason (by omega)
        valid := RunEventBounds.validate_ok (tables.liveRows runId now) rfl rfl rfl
          hdropped hwithin }

omit [RunEventPayload Payload] in
theorem mem_rowsAfter : row ∈ tables.rowsAfter runId now after ↔
      row ∈ tables.liveRows runId now ∧ after < row.sequence := by
  simp [rowsAfter]

theorem numbered_rowsAfter (hinv : JournalInvariant config tables) (runId : String) (now : Int)
    (after : Nat) : Numbered (tables.rowsAfter runId now after) := by
  have hsorted : (tables.rowsAfter runId now after).Pairwise (·.sequence ≤ ·.sequence) :=
    List.pairwise_insertionSort _ _
  have hnodup : (tables.rowsAfter runId now after).Nodup := by
    have hevents : tables.events.Nodup := hinv.keys_nodup.of_map _
    exact (List.perm_insertionSort _ _).nodup_iff.mpr (((hevents.filter _).filter _).filter _)
  refine (hsorted.and hnodup).imp_of_mem ?_
  intro a b ha hb hab
  refine lt_of_le_of_ne hab.1 fun heq => hab.2 ?_
  -- two rows of one run with one sequence have one key
  obtain ⟨ha, hrunA⟩ := List.mem_filter.mp (mem_liveRows.mp (mem_rowsAfter.mp ha).1).1
  obtain ⟨hb, hrunB⟩ := List.mem_filter.mp (mem_liveRows.mp (mem_rowsAfter.mp hb).1).1
  refine RunEventRow.eq_of_key_eq hinv.keys_nodup ha hb (Prod.ext ?_ heq)
  exact (of_decide_eq_true hrunA).trans (of_decide_eq_true hrunB).symm

end Bounds

/-! ### One page -/

variable {page : RunEventPage Payload}

section Page

/-- The three forms of a page after `after`: a gap, nothing because the cursor is at the end, or the
rows that directly follow. -/
inductive PageContents [RunEventPayload Payload] (config : RunEventJournalConfig)
    (tables : RunEventTables Payload) (runId : String) (now : Int) (latest after : Nat) :
    List (RunEventEntry Payload) → Option RunEventGap → Prop where
  | gap (last : Nat) (reason : RunEventGapReason) (hfirst : after < last) (hlast : last ≤ latest)
      (hmissing : ∀ row ∈ tables.liveRows runId now, after < row.sequence → last < row.sequence) :
      PageContents config tables runId now latest after []
        (some { firstSequence := after + 1, lastSequence := last, reason })
  | done (hdone : after = latest) : PageContents config tables runId now latest after [] none
  | rows (rows : List (RunEventRow Payload)) (hsome : rows ≠ [])
      (hrows : rows <+: tables.rowsAfter runId now after)
      (hrange : rows.map (·.sequence) = List.range' (after + 1) rows.length)
      (hcount : rows.length ≤ config.pageMaxEvents)
      (hbytes : bytesOf rows ≤ config.pageMaxBytes ∨ rows.length = 1) :
      PageContents config tables runId now latest after (rows.map RunEventRow.entry) none

theorem map_entry_sequence (rows : List (RunEventRow Payload)) :
    (rows.map RunEventRow.entry).map (·.sequence) = rows.map (·.sequence) := by
  rw [List.map_map]
  rfl

variable [RunEventPayload Payload] {config : RunEventJournalConfig}
  {tables : RunEventTables Payload}

theorem bytesOf_le_of_sublist {rows rows' : List (RunEventRow Payload)} (hsub : rows.Sublist rows') :
    bytesOf rows ≤ bytesOf rows' :=
  (hsub.map RunEventRow.accounted).sum_le_sum (by simp)

structure Selected (config : RunEventJournalConfig) (available rows : List (RunEventRow Payload)) :
    Prop where
  isPrefix : rows <+: available
  some : available ≠ [] → rows ≠ []
  count : rows.length ≤ config.pageMaxEvents
  bytes : bytesOf rows ≤ config.pageMaxBytes ∨ rows.length ≤ 1

theorem pageRows_selected (tables : RunEventTables Payload) (hconfig : config.Valid) (runId : String) (now : Int) (after : Nat) :
    Selected config (tables.rowsAfter runId now after) (pageRows config tables runId now after) := by
  have hevents := hconfig.pageMaxEvents_pos
  obtain ⟨count, hcount, hpos, hbytes⟩ := boundedSequences_take config.pageMaxBytes
    ((tables.rowsAfter runId now after).take config.pageMaxEvents)
  have hrows : pageRows config tables runId now after
      = (tables.rowsAfter runId now after).take (min count config.pageMaxEvents) := by
    rw [pageRows, hcount, List.take_take]
  rw [List.take_take, ← hrows] at hbytes
  refine ⟨hrows ▸ List.take_prefix _ _, fun hsome hnil => ?_, ?_, hbytes.imp_right fun hone => ?_⟩
  · have htake : (tables.rowsAfter runId now after).take config.pageMaxEvents ≠ [] := by
      rw [ne_eq, List.take_eq_nil_iff, not_or]
      exact ⟨by omega, hsome⟩
    have hcountPos := hpos htake
    obtain hzero | hnil := List.take_eq_nil_iff.mp (hrows.symm.trans hnil)
    · omega
    · exact hsome hnil
  · rw [hrows, List.length_take]
    omega
  · rw [hrows, List.length_take]
    omega

theorem pageContents_of_noEvents {latest after : Nat} (hafter : after ≤ latest)
    (hlatest : ∀ row ∈ tables.liveRows runId now, row.sequence ≤ latest)
    (hnumbered : Numbered (tables.rowsAfter runId now after))
    (hselected : Selected config (tables.rowsAfter runId now after) rows)
    (hnil : (splitAtGap (after + 1) (rows.map RunEventRow.entry)).1 = []) :
    PageContents config tables runId now latest after []
      (match (splitAtGap (after + 1) (rows.map RunEventRow.entry)).2 with
        | some (firstSequence, lastSequence) =>
          some { firstSequence, lastSequence, reason := .writerBackpressure }
        | none =>
          if after < latest then
            some
              { firstSequence := after + 1
                lastSequence := latest
                reason := .writerBackpressure }
          else none) := by
  obtain ⟨hempty, hmissing⟩ | ⟨entry, rest, hentries, hgap, hmissing⟩ := splitAtGap_nil_cases hnil
  · rw [hmissing]
    -- no row was selected, so none is live after the cursor
    have hnone : tables.rowsAfter runId now after = [] := by
      by_contra hsome
      exact hselected.some hsome (List.map_eq_nil_iff.mp hempty)
    by_cases hend : after < latest
    · simp only [if_pos hend]
      refine .gap latest .writerBackpressure hend le_rfl fun row hrow habove => ?_
      have hmem := mem_rowsAfter.mpr ⟨hrow, habove⟩
      rw [hnone] at hmem
      cases hmem
    · simp only [if_neg hend]
      exact .done (le_antisymm hafter (Nat.le_of_not_lt hend))
  · rw [hmissing]
    obtain ⟨row, rows', rfl, rfl, -⟩ := List.map_eq_cons_iff.mp hentries
    replace hgap : after + 1 < row.sequence := hgap
    have hfirst := mem_rowsAfter.mp (hselected.isPrefix.subset (List.mem_cons_self ..))
    have hlast := hlatest row hfirst.1
    refine .gap (row.sequence - 1) .writerBackpressure (by omega) (by omega) ?_
    intro other hother habove
    -- the selected rows start with the earliest live one
    have hmem := mem_rowsAfter.mpr ⟨hother, habove⟩
    obtain ⟨tail, htail⟩ := hselected.isPrefix
    rw [← htail, List.cons_append] at hmem hnumbered
    obtain rfl | hmem := List.mem_cons.mp hmem
    · omega
    · have hlt := (List.pairwise_cons.mp hnumbered).1 other hmem
      omega

theorem pageContents_of_events (latest : Nat)
    (hnumbered : Numbered (tables.rowsAfter runId now after))
    (hselected : Selected config (tables.rowsAfter runId now after) rows)
    (hsome : (splitAtGap (after + 1) (rows.map RunEventRow.entry)).1 ≠ []) :
    PageContents config tables runId now latest after
      (splitAtGap (after + 1) (rows.map RunEventRow.entry)).1 none := by
  have hincreasing : (rows.map RunEventRow.entry).Pairwise (·.sequence < ·.sequence) :=
    List.pairwise_map.mpr (hnumbered.sublist hselected.isPrefix.sublist)
  have habove : ∀ entry ∈ rows.map RunEventRow.entry, after + 1 ≤ entry.sequence := by
    intro entry hentry
    obtain ⟨row, hrow, rfl⟩ := List.mem_map.mp hentry
    exact (mem_rowsAfter.mp (hselected.isPrefix.subset hrow)).2
  have hconsecutive := map_sequence_splitAtGap hincreasing habove
  obtain ⟨kept, hkept⟩ : ∃ kept, (splitAtGap (after + 1) (rows.map RunEventRow.entry)).1
      = (rows.take kept).map RunEventRow.entry := by
    have htake := List.prefix_iff_eq_take.mp
      (splitAtGap_isPrefix (after + 1) (rows.map RunEventRow.entry))
    rw [← List.map_take] at htake
    exact ⟨_, htake⟩
  rw [hkept] at hsome hconsecutive ⊢
  have hkeptSome : rows.take kept ≠ [] := fun hnil => hsome (List.map_eq_nil_iff.mpr hnil)
  have hinitial := List.take_prefix kept rows
  refine .rows (rows.take kept) hkeptSome
    (hinitial.trans hselected.isPrefix) ?_ (hinitial.length_le.trans hselected.count) ?_
  · rw [map_entry_sequence, List.length_map] at hconsecutive
    exact hconsecutive
  · obtain hbytes | hone := hselected.bytes
    · exact Or.inl ((bytesOf_le_of_sublist hinitial.sublist).trans hbytes)
    · right
      have hpos := List.length_pos_iff.mpr hkeptSome
      have hle := hinitial.length_le
      omega

theorem pageContents_ok (hinv : JournalInvariant config tables) (hconfig : config.Valid)
    {bounds : RunEventBounds} {reason : Option RunEventGapReason}
    (hbounds : BoundsFacts tables runId now bounds reason)
    (hafter : after ≤ bounds.latestSequence) :
    ∃ events gap, pageContents config tables runId now bounds reason after = .ok (events, gap) ∧
      PageContents config tables runId now bounds.latestSequence after events gap := by
  unfold pageContents
  by_cases hdropped : after < bounds.droppedThrough
  · rw [if_pos hdropped]
    obtain ⟨reason, rfl⟩ := Option.isSome_iff_exists.mp (hbounds.reason (by omega))
    exact ⟨_, _, rfl, .gap bounds.droppedThrough reason hdropped hbounds.dropped_le
      fun row hrow _ => (hbounds.within row hrow).1⟩
  · simp only [if_neg hdropped, max_eq_left (Nat.le_of_not_lt hdropped)]
    have hnumbered := numbered_rowsAfter hinv runId now after
    have hselected := pageRows_selected tables hconfig runId now after
    by_cases hnil : (splitAtGap (after + 1)
        ((pageRows config tables runId now after).map RunEventRow.entry)).1 = []
    · have hcontents := pageContents_of_noEvents hafter
        (fun row hrow => (hbounds.within row hrow).2) hnumbered hselected hnil
      generalize splitAtGap (after + 1) _ = result at hnil hcontents ⊢
      obtain ⟨events, _ | ⟨first, last⟩⟩ := result
      all_goals
        cases hnil
        exact ⟨_, _, rfl, hcontents⟩
    · have hcontents := pageContents_of_events bounds.latestSequence hnumbered hselected
        hnil
      generalize splitAtGap (after + 1) _ = result at hnil hcontents ⊢
      obtain ⟨_ | ⟨entry, events⟩, gap⟩ := result
      · exact absurd rfl hnil
      · exact ⟨_, _, rfl, hcontents⟩

/-! ### A page passes its own check -/

def payloadBytesOf (rows : List (RunEventRow Payload)) : Nat :=
  (rows.map (·.payloadBytes)).sum

theorem payloadBytesOf_le_bytesOf (rows : List (RunEventRow Payload)) :
    payloadBytesOf rows ≤ bytesOf rows :=
  List.sum_le_sum fun _ _ => (le_max_left _ _).trans (le_max_left _ _)

theorem payloadBytes_le_maxEventBytes (hvalid : row.Valid config) :
    row.payloadBytes ≤ config.maxEventBytes := by
  simp only [RunEventRow.Valid, RunEventAppendEntry.validate, unit_bind_ok_iff,
    ensure_ok_iff] at hvalid
  obtain ⟨-, -, -, hsize, hle⟩ := hvalid
  exact hsize.trans_le hle

theorem foldlM_checkEvent {bounds : RunEventBounds} (total : Nat)
    (hvalid : ∀ row ∈ rows, row.Valid config)
    (hrange : rows.map (·.sequence) = List.range' (after + 1) rows.length)
    (hlatest : after + rows.length ≤ bounds.latestSequence)
    (hbytes : total + payloadBytesOf rows < u64Bound) :
    (rows.map RunEventRow.entry).foldlM (RunEventPage.checkEvent config bounds) (after, total)
      = .ok (after + rows.length, total + payloadBytesOf rows) := by
  induction rows generalizing after total with
  | nil => rfl
  | cons row rows ih =>
    simp only [List.map_cons, List.length_cons, List.range'_succ, List.cons.injEq] at hrange
    obtain ⟨hfirst, hrest⟩ := hrange
    rw [List.length_cons] at hlatest ⊢
    have htotal : payloadBytesOf (row :: rows) = row.payloadBytes + payloadBytesOf rows := by
      simp [payloadBytesOf]
    rw [htotal] at hbytes ⊢
    have hcheck : RunEventPage.checkEvent config bounds (after, total) row.entry
        = .ok (after + 1, total + row.payloadBytes) := by
      have hentry : row.entry.validate config = .ok () := hvalid row (List.mem_cons_self ..)
      have hsequence : row.entry.sequence = after + 1 := hfirst
      have hsum : checkedAdd total row.entry.payloadBytes = some (total + row.payloadBytes) :=
        checkedAdd_eq_some_iff.mpr ⟨by simp only [RunEventRow.entry]; omega, rfl⟩
      simp only [RunEventPage.checkEvent, unit_bind_ok_iff, ensure_ok_iff]
      refine ⟨hentry, ⟨hsequence, by omega⟩, ?_⟩
      rw [hsum, hsequence]
      rfl
    rw [List.map_cons, List.foldlM_cons, hcheck]
    have hscan := ih (total + row.payloadBytes)
      (fun other hother => hvalid other (List.mem_cons_of_mem _ hother)) hrest (by omega)
      (by omega)
    refine hscan.trans (congrArg Except.ok (Prod.ext ?_ ?_))
    · simp only
      omega
    · simp only
      omega

omit [RunEventPayload Payload] in
theorem mem_events_of_mem_rowsAfter (hrow : row ∈ tables.rowsAfter runId now after) :
    row ∈ tables.events :=
  List.mem_of_mem_filter (mem_liveRows.mp (mem_rowsAfter.mp hrow).1).1

omit [RunEventPayload Payload] in
theorem rows_end_le
    {latest after : Nat} (hlive : ∀ row ∈ tables.liveRows runId now, row.sequence ≤ latest)
    (hsome : rows ≠ []) (hrows : rows <+: tables.rowsAfter runId now after)
    (hrange : rows.map (·.sequence) = List.range' (after + 1) rows.length) :
    after + rows.length ≤ latest := by
  have hpos := List.length_pos_iff.mpr hsome
  have hmem : after + rows.length ∈ rows.map (·.sequence) := by
    rw [hrange, List.mem_range'_1]
    omega
  obtain ⟨row, hrow, hsequence⟩ := List.mem_map.mp hmem
  exact hsequence ▸ hlive row (mem_rowsAfter.mp (hrows.subset hrow)).1

theorem RunEventTerminalState.validate_ok {terminal : RunEventTerminalState}
    (hstatus : terminal.status.isTerminal)
    (hsequence : ∀ sequence, terminal.eventSequence = some sequence → 0 < sequence) :
    terminal.validate = .ok () := by
  unfold RunEventTerminalState.validate
  rw [terminal.usage.2]
  simp only [unit_bind_ok_iff, ensure_ok_iff, true_and]
  refine ⟨hstatus, ?_⟩
  cases heventSequence : terminal.eventSequence with
  | none => rfl
  | some sequence => exact ensure_of (hsequence sequence heventSequence).ne'

theorem terminalCheck_ok (state : Option RunEventTerminalState) (latestSequence : Nat) :
    (∀ terminal, state = some terminal → terminal.validate = .ok () ∧
      terminal.eventSequence.all (· ≤ latestSequence)) →
    (match state with
      | some terminal => do
        terminal.validate
        ensure (terminal.eventSequence.all (· ≤ latestSequence))
          (.validation "Run-event terminal sequence exceeds page bounds")
      | none => .ok ()) = Except.ok () := by
  intro hstate
  cases state with
  | none => rfl
  | some terminal =>
    obtain ⟨hok, hwithin⟩ := hstate terminal rfl
    exact unit_bind_ok_iff.mpr ⟨hok, ensure_of hwithin⟩

theorem RunEventPage.validate_ok (hinv : JournalInvariant config tables)
    (hconfig : config.validate = .ok ()) (now : Int)
    (hrunId : validateRunId page.runId = .ok ()) (hbounds : page.bounds.validate = .ok ())
    (hlive : ∀ row ∈ tables.liveRows page.runId now, row.sequence ≤ page.bounds.latestSequence)
    (hafter : page.afterSequence ≤ page.bounds.latestSequence)
    (hcontents : PageContents config tables page.runId now page.bounds.latestSequence
      page.afterSequence page.events page.gap)
    (hterminal : ∀ terminal, page.terminal = some terminal → terminal.validate = .ok () ∧
      terminal.eventSequence.all (· ≤ page.bounds.latestSequence)) :
    page.validate config = .ok () := by
  have hvalid := RunEventJournalConfig.valid_of_validate hconfig
  have hlimit : config.pageMaxBytes < u64Bound :=
    hvalid.pageMaxBytes_le.trans_lt (by decide)
  have hterminalCheck := terminalCheck_ok _ _ hterminal
  obtain ⟨runId, after, events, bounds, gap, terminal⟩ := page
  simp only [RunEventPage.validate, unit_bind_ok_iff, ensure_ok_iff] at *
  refine ⟨hconfig, hrunId, hbounds, hafter, ?_⟩
  cases hcontents with
  | gap last reason hfirst hlast hmissing =>
    refine ⟨Nat.zero_le _, bind_ok_iff.mpr ⟨(after, 0), rfl, ?_⟩⟩
    simp only [unit_bind_ok_iff, ensure_ok_iff, RunEventGap.validate, validateSequence]
    exact ⟨Nat.zero_le _, ⟨by omega, by omega, hfirst⟩, by simp, hlast, by simp, hterminalCheck⟩
  | done hdone =>
    refine ⟨Nat.zero_le _, bind_ok_iff.mpr ⟨(after, 0), rfl, ?_⟩⟩
    simp only [unit_bind_ok_iff, ensure_ok_iff]
    exact ⟨Nat.zero_le _, trivial, by simp [hdone], hterminalCheck⟩
  | rows rows hsome hrows hrange hcount hbytes =>
    have hrowsValid : ∀ row ∈ rows, row.Valid config := fun row hrow =>
      hinv.valid row (mem_events_of_mem_rowsAfter (hrows.subset hrow))
    have hsize : payloadBytesOf rows ≤ config.pageMaxBytes := by
      obtain hbytes | hone := hbytes
      · exact (payloadBytesOf_le_bytesOf rows).trans hbytes
      · obtain ⟨row, rfl⟩ := List.length_eq_one_iff.mp hone
        calc payloadBytesOf [row] = row.payloadBytes := by simp [payloadBytesOf]
          _ ≤ config.maxEventBytes :=
            payloadBytes_le_maxEventBytes (hrowsValid row (List.mem_cons_self ..))
          _ ≤ config.pageMaxBytes := hvalid.maxEventBytes_le
    have hend := rows_end_le hlive hsome hrows hrange
    refine ⟨by simpa using hcount, bind_ok_iff.mpr ⟨_,
      foldlM_checkEvent 0 hrowsValid hrange hend (by omega), ?_⟩⟩
    simp only [unit_bind_ok_iff, ensure_ok_iff]
    exact ⟨by simpa using hsize, trivial, by simp [hsome], hterminalCheck⟩

end Page

/-! ### One read -/

section Read

variable [RunEventPayload Payload] {config : RunEventJournalConfig}
  {tables : RunEventTables Payload} {flow runId : String}

structure ReadableRun (run : RunFence) (flow runId : String) : Prop where
  flowRoute : validateHumanInputRoute "flow" flow 255 = .ok ()
  runIdRoute : validateHumanInputRoute "run id" runId 128 = .ok ()
  runId_ok : validateRunId runId = .ok ()
  flow_eq : run.flow = flow
  usage : ∃ usage, run.usage = some usage
  status : ∃ status, RunStatus.fromStr run.status = .ok status
  duration : 0 ≤ run.durationMs

def RunEventTables.terminalSequence (tables : RunEventTables Payload) (runId : String) :
    Option Nat :=
  (tables.runEventState runId).bind (·.terminalEventSequence)

/-- What a read of `run` after `after` returns. -/
structure ReadPage (config : RunEventJournalConfig) (tables : RunEventTables Payload)
    (run : RunFence) (runId : String) (now : Int) (after : Nat) (page : RunEventPage Payload) :
    Prop where
  after_eq : page.afterSequence = after
  latest_eq : page.bounds.latestSequence = tables.latestOf runId
  computed : pageContents config tables runId now (tables.boundsAt runId now).1
    (tables.boundsAt runId now).2 after = .ok (page.events, page.gap)
  contents : PageContents config tables runId now (tables.latestOf runId) after page.events page.gap
  valid : page.validate config = .ok ()
  terminal : ∀ status, RunStatus.fromStr run.status = .ok status →
    (page.terminal.isSome ↔ status.isTerminal)
  terminalSequence : ∀ terminal, page.terminal = some terminal →
    terminal.eventSequence = tables.terminalSequence runId

theorem terminalSequence_within (hinv : JournalInvariant config tables) {sequence : Nat}
    (hsequence : tables.terminalSequence runId = some sequence) :
    sequence = tables.latestOf runId ∧ 0 < sequence := by
  obtain ⟨state, hstate, hterminal⟩ := Option.bind_eq_some_iff.mp hsequence
  obtain ⟨hlatest, hpos⟩ := (hinv.accounts runId state hstate).terminal sequence hterminal
  exact ⟨by rw [hlatest, latestOf, hstate]; rfl, hpos⟩

theorem nonnegativeU64_of_nonneg {label : String} {value : Int} (hvalue : 0 ≤ value) :
    nonnegativeU64 label value = .ok value.toNat := by
  cases value with
  | ofNat value => rfl
  | negSucc value => exact absurd hvalue (by omega)

theorem terminalState_ok (status : RunStatus) {durationMs : Int} (hduration : 0 ≤ durationMs)
    (usage : UsageSnapshot) (sequence : Option Nat) :
    ∃ terminal, terminalState status durationMs usage sequence = .ok terminal ∧
      (terminal.isSome ↔ status.isTerminal) ∧ ∀ state, terminal = some state →
        state.status = status ∧ state.eventSequence = sequence := by
  unfold terminalState
  by_cases hstatus : status.isTerminal
  · rw [if_pos hstatus, nonnegativeU64_of_nonneg hduration]
    refine ⟨_, rfl, by simp [hstatus], ?_⟩
    rintro state ⟨⟩
    exact ⟨rfl, rfl⟩
  · rw [if_neg hstatus]
    exact ⟨none, rfl, by simp [hstatus], fun state hstate => by cases hstate⟩

theorem readableRun_of_read {run : RunFence}
    {status : RunStatus} (hstatus : RunStatus.fromStr run.status = .ok status)
    (hterminal : status.isTerminal)
    (hread : readRunEventsJournal config (some run) now flow runId after tables = .ok page) :
    ReadableRun run flow runId ∧ config.validate = .ok () ∧ after ≤ tables.latestOf runId := by
  simp only [readRunEventsJournal, unit_bind_ok_iff] at hread
  obtain ⟨hflowRoute, hrunIdRoute, hread⟩ := hread
  obtain ⟨_, ⟨⟩, hread⟩ := bind_ok_iff.mp hread
  obtain ⟨usage, husage, hread⟩ := bind_ok_iff.mp hread
  simp only [unit_bind_ok_iff, ensure_ok_iff] at hread
  obtain ⟨hflow, -, hafter, hread⟩ := hread
  obtain ⟨contents, -, hread⟩ := bind_ok_iff.mp hread
  obtain ⟨_, hfound, hread⟩ := bind_ok_iff.mp hread
  cases hstatus.symm.trans hfound
  obtain ⟨terminal, hstate, hread⟩ := bind_ok_iff.mp hread
  obtain ⟨hvalid, -⟩ := unit_bind_ok_iff.mp hread
  simp only [RunEventPage.validate, unit_bind_ok_iff] at hvalid
  refine ⟨⟨hflowRoute, hrunIdRoute, hvalid.2.1, hflow, ⟨usage, require_ok_iff.mp husage⟩,
    ⟨status, hstatus⟩, ?_⟩, hvalid.1, ?_⟩
  · rw [terminalState, if_pos hterminal] at hstate
    obtain ⟨_, hduration, -⟩ := bind_ok_iff.mp hstate
    cases hvalue : run.durationMs with
    | ofNat value => exact Int.natCast_nonneg value
    | negSucc value =>
      rw [hvalue] at hduration
      cases hduration
  · exact hafter.trans (boundsAt_latest tables runId now).le

theorem readRunEventsJournal_ok (hinv : JournalInvariant config tables)
    (hconfig : config.validate = .ok ()) {run : RunFence} (hrun : ReadableRun run flow runId)
    (now : Int) (hafter : after ≤ tables.latestOf runId) :
    ∃ page, readRunEventsJournal config (some run) now flow runId after tables = .ok page ∧
      ReadPage config tables run runId now after page := by
  have hbounds := boundsAt_facts hinv runId now
  generalize hat : tables.boundsAt runId now = current at hbounds
  obtain ⟨bounds, reason⟩ := current
  obtain ⟨usage, husage⟩ := hrun.usage
  obtain ⟨status, hstatus⟩ := hrun.status
  obtain ⟨events, gap, hpage, hcontents⟩ := pageContents_ok hinv
    (RunEventJournalConfig.valid_of_validate hconfig) hbounds (hbounds.latest_eq ▸ hafter)
  obtain ⟨terminal, hterminal, hsome, hstate⟩ :=
    terminalState_ok status hrun.duration usage (tables.terminalSequence runId)
  let page : RunEventPage Payload :=
    { runId
      afterSequence := after
      events
      bounds := { bounds with
        journalComplete := bounds.journalComplete &&
          !(status.isTerminal && (tables.terminalSequence runId).isNone) }
      gap
      terminal }
  have hvalid : page.validate config = .ok () := by
    refine RunEventPage.validate_ok hinv hconfig now hrun.runId_ok hbounds.valid
      (fun row hrow => (hbounds.within row hrow).2) (hbounds.latest_eq ▸ hafter) hcontents ?_
    intro state hterminalState
    obtain ⟨hstateStatus, hstateSequence⟩ := hstate state hterminalState
    have hisTerminal := hsome.mp (Option.isSome_iff_exists.mpr ⟨state, hterminalState⟩)
    refine ⟨RunEventTerminalState.validate_ok (hstateStatus ▸ hisTerminal) ?_, ?_⟩
    · intro sequence hsequence
      exact (terminalSequence_within hinv (hstateSequence ▸ hsequence)).2
    · rw [hstateSequence]
      cases hsequence : tables.terminalSequence runId with
      | none => rfl
      | some sequence =>
        exact decide_eq_true (((terminalSequence_within hinv hsequence).1.trans
          hbounds.latest_eq.symm).le)
  refine ⟨page, ?_, ?_⟩
  · have hwithin : after ≤ bounds.latestSequence := hbounds.latest_eq ▸ hafter
    simp only [readRunEventsJournal, unit_bind_ok_iff, hat]
    refine ⟨hrun.flowRoute, hrun.runIdRoute, bind_ok_iff.mpr ⟨run, rfl,
      bind_ok_iff.mpr ⟨usage, require_ok_iff.mpr husage, ?_⟩⟩⟩
    simp only [unit_bind_ok_iff, ensure_ok_iff]
    refine ⟨hrun.flow_eq, hbounds.valid, hwithin, bind_ok_iff.mpr ⟨_, hpage,
      bind_ok_iff.mpr ⟨status, hstatus, bind_ok_iff.mpr ⟨terminal, hterminal, ?_⟩⟩⟩⟩
    exact unit_bind_ok_iff.mpr ⟨hvalid, rfl⟩
  · exact
      { after_eq := rfl
        latest_eq := hbounds.latest_eq
        computed := by rw [hat]; exact hpage
        contents := hbounds.latest_eq ▸ hcontents
        valid := hvalid
        terminal := by
          intro other hother
          rw [hstatus] at hother
          cases hother
          exact hsome
        terminalSequence := fun state hterminalState => (hstate state hterminalState).2 }

end Read

/-! ### Reading to the end -/

section Replay

variable [RunEventPayload Payload] {config : RunEventJournalConfig}
  {tables : RunEventTables Payload} {flow runId : String} {run : RunFence}

omit [RunEventPayload Payload] in
theorem lastSequence_rows (hrange : rows.map (·.sequence) = List.range' (after + 1) rows.length) :
    (((rows.map RunEventRow.entry).getLast?).map (·.sequence)).getD after = after + rows.length := by
  rw [← List.getLast?_map, map_entry_sequence, hrange, List.getLast?_range']
  by_cases hzero : rows.length = 0
  · simp [hzero]
  · simp only [if_neg hzero, Option.getD_some]
    omega

/-- A page covers the sequences from its cursor to its end, and ends at its cursor only when that is
the latest sequence. -/
theorem ReadPage.covered_eq (hinv : JournalInvariant config tables)
    (hpage : ReadPage config tables run runId now after page) :
    page.covered = List.range' (after + 1) (page.lastSequence - after) ∧
      after ≤ page.lastSequence ∧ page.lastSequence ≤ tables.latestOf runId ∧
      (after < tables.latestOf runId → after < page.lastSequence) := by
  have hbounds := boundsAt_facts hinv runId now
  have hcontents := hpage.contents
  have hafter := hpage.after_eq
  obtain ⟨pageRunId, pageAfter, events, bounds, gap, terminal⟩ := page
  simp only [RunEventPage.covered, RunEventPage.lastSequence] at *
  subst hafter
  cases hcontents with
  | gap last reason hfirst hlast hmissing =>
    simp only [Nat.add_sub_add_right]
    exact ⟨trivial, hfirst.le, hlast, fun _ => hfirst⟩
  | done hdone =>
    exact ⟨by simp, le_rfl, hdone.le, fun hlt => absurd hdone hlt.ne⟩
  | rows rows hsome hrows hrange hcount hbytes =>
    have hpos := List.length_pos_iff.mpr hsome
    have hend := rows_end_le (fun row hrow => (hbounds.within row hrow).2) hsome hrows hrange
    simp only [lastSequence_rows hrange, map_entry_sequence, hrange, Nat.add_sub_cancel_left]
    exact ⟨trivial, by omega, hbounds.latest_eq ▸ hend, fun _ => by omega⟩

structure Faithful (config : RunEventJournalConfig) (tables : RunEventTables Payload)
    (runId : String) (now : Int) (page : RunEventPage Payload) : Prop where
  valid : page.validate config = .ok ()
  events : ∀ entry ∈ page.events, ∃ row ∈ tables.liveRows runId now, row.entry = entry
  gap : ∀ gap, page.gap = some gap → ∀ row ∈ tables.liveRows runId now,
    ¬ (gap.firstSequence ≤ row.sequence ∧ row.sequence ≤ gap.lastSequence)

variable {events : List (RunEventEntry Payload)}

theorem PageContents.events_live {latest after : Nat}
    {gap : Option RunEventGap}
    (hcontents : PageContents config tables runId now latest after events gap) :
    ∀ entry ∈ events, ∃ row ∈ tables.liveRows runId now, row.entry = entry := by
  intro entry hentry
  cases hcontents with
  | gap => cases hentry
  | done => cases hentry
  | rows rows hsome hrows hrange hcount hbytes =>
    obtain ⟨row, hrow, rfl⟩ := List.mem_map.mp hentry
    exact ⟨row, (mem_rowsAfter.mp (hrows.subset hrow)).1, rfl⟩

theorem PageContents.gap_missing {latest after : Nat}
    {gap : RunEventGap}
    (hcontents : PageContents config tables runId now latest after events (some gap)) :
    ∀ row ∈ tables.liveRows runId now,
      ¬ (gap.firstSequence ≤ row.sequence ∧ row.sequence ≤ gap.lastSequence) := by
  intro row hrow hwithin
  cases hcontents with
  | gap last reason hfirst hlast hmissing =>
    exact absurd hwithin.2 (Nat.not_le_of_lt (hmissing row hrow hwithin.1))

theorem ReadPage.faithful (hpage : ReadPage config tables run runId now after page) :
    Faithful config tables runId now page where
  valid := hpage.valid
  events := hpage.contents.events_live
  gap _ hgap := (hgap ▸ hpage.contents).gap_missing

/-- What reading to the end returns: every sequence after the cursor once and in order, through pages
that pass their check and move the cursor unless they are the last. The `i`th page is read at
`clock (reads + i)`. -/
structure Replays (config : RunEventJournalConfig) (tables : RunEventTables Payload) (runId : String)
    (clock : Nat → Int) (reads cursor : Nat) (pages : List (RunEventPage Payload)) : Prop where
  covered : pages.flatMap RunEventPage.covered
    = List.range' (cursor + 1) (tables.latestOf runId - cursor)
  progress : ∀ page ∈ pages.dropLast, page.afterSequence < page.lastSequence
  faithful : ∀ i page, pages[i]? = some page → Faithful config tables runId (clock (reads + i)) page

theorem Replays.cons {clock : Nat → Int} {reads cursor : Nat}
    {pages : List (RunEventPage Payload)} (hinv : JournalInvariant config tables)
    (hpage : ReadPage config tables run runId (clock reads) cursor page)
    (hmore : page.lastSequence < tables.latestOf runId)
    (hrest : Replays config tables runId clock (reads + 1) page.lastSequence pages) :
    Replays config tables runId clock reads cursor (page :: pages) := by
  obtain ⟨hcovered, hafter, hlatest, hprogress⟩ := hpage.covered_eq hinv
  refine ⟨?_, ?_, ?_⟩
  · calc (page :: pages).flatMap RunEventPage.covered
      _ = List.range' (cursor + 1) (page.lastSequence - cursor) ++
          List.range' (page.lastSequence + 1) (tables.latestOf runId - page.lastSequence) := by
        rw [List.flatMap_cons, hcovered, hrest.covered]
      _ = List.range' (cursor + 1) (tables.latestOf runId - cursor) := by
        have hstart : page.lastSequence + 1 = cursor + 1 + (page.lastSequence - cursor) := by omega
        rw [hstart, List.range'_append_1]
        congr 1
        omega
  · intro other hother
    cases pages with
    | nil => cases hother
    | cons next pages =>
      rw [List.dropLast_cons_cons] at hother
      obtain rfl | hother := List.mem_cons.mp hother
      · rw [hpage.after_eq]
        exact hprogress (hafter.trans_lt hmore)
      · exact hrest.progress other hother
  · intro i other hother
    cases i with
    | zero =>
      cases hother
      exact hpage.faithful
    | succ i =>
      rw [List.getElem?_cons_succ] at hother
      have hfaithful := hrest.faithful i other hother
      rwa [Nat.add_assoc, Nat.add_comm 1 i] at hfaithful

/-- Whatever expires between its reads, a replay with one read per missing sequence to spare returns
and accounts for every sequence after its cursor. -/
theorem replayPages_covers {Payload : Type} [RunEventPayload Payload]
    (config : RunEventJournalConfig) (hconfig : config.validate = .ok ())
    (tables : RunEventTables Payload) (hinv : JournalInvariant config tables)
    (run : RunFence) (flow runId : String) (hrun : ReadableRun run flow runId)
    (clock : Nat → Int) (cursor : Nat) (hcursor : cursor ≤ tables.latestOf runId)
    (fuel reads : Nat) (hfuel : tables.latestOf runId - cursor < fuel) :
    ∃ pages, tables.replayPages config (some run) clock flow runId fuel reads cursor = .ok pages ∧
      Replays config tables runId clock reads cursor pages := by
  induction fuel generalizing reads cursor with
  | zero => exact absurd hfuel (Nat.not_lt_zero _)
  | succ fuel ih =>
    obtain ⟨page, hread, hpage⟩ :=
      readRunEventsJournal_ok hinv hconfig hrun (clock reads) hcursor
    obtain ⟨hcovered, hafter, hlatest, hprogress⟩ := hpage.covered_eq hinv
    rw [replayPages, hread]
    by_cases hmore : page.lastSequence < tables.latestOf runId
    · have hcursorMoved := hprogress (hafter.trans_lt hmore)
      obtain ⟨pages, hpages, hrest⟩ := ih page.lastSequence hlatest (reads + 1) (by omega)
      refine ⟨page :: pages, ?_, hrest.cons hinv hpage hmore⟩
      simp only [bind, Except.bind, hpage.latest_eq, if_pos hmore, hpages]
      rfl
    · refine ⟨[page], ?_, ?_, ?_, ?_⟩
      · simp only [bind, Except.bind, hpage.latest_eq, if_neg hmore]
        rfl
      · rw [List.flatMap_singleton, hcovered, le_antisymm hlatest (Nat.le_of_not_lt hmore)]
      · intro other hother
        cases hother
      · intro i other hother
        obtain ⟨rfl, rfl⟩ : i = 0 ∧ page = other := by
          cases i with
          | zero => exact ⟨rfl, Option.some.inj hother⟩
          | succ i => cases hother
        exact hpage.faithful

end Replay

/-! ### A journal that loses rows while it is read -/

section Sparse

/-- The JSON object whose only field is its `event` tag. -/
structure TagPayload where
  tag : String
  deriving DecidableEq

instance : RunEventPayload TagPayload where
  event payload := some payload.tag
  serializedSize payload := payload.tag.utf8ByteSize + 12
  jsonbTextSize payload := payload.tag.utf8ByteSize + 13
  data _ := none

def tagEntry (sequence : Nat) (tag : String) : RunEventAppendEntry TagPayload :=
  { sequence
    eventType := tag
    payload := ⟨tag⟩
    payloadBytes := RunEventPayload.serializedSize (TagPayload.mk tag) }

def crewRun (status : String) : RunFence :=
  { flow := "crew"
    ownerInstanceId := "worker"
    status
    leaseActive := true
    durationMs := 0
    usage := some UsageSnapshot.default }

def singleEventPages : RunEventJournalConfig := { pageMaxEvents := 1 }

def sparseJournal : RunEventTables TagPayload :=
  RunEventTables.run singleEventPages
    [.append "worker" (some (crewRun "running")) 0 0
      { runId := "run"
        flow := "crew"
        ownerInstanceId := "worker"
        entries := [tagEntry 1 "log", tagEntry 3 "log"] }]

theorem readableRun_crewRun (status : RunStatus) :
    ReadableRun (crewRun status.toString) "crew" "run" where
  flowRoute := ensure_of (by decide)
  runIdRoute := ensure_of (by decide)
  runId_ok := by rfl
  flow_eq := rfl
  usage := ⟨_, rfl⟩
  status := ⟨status, RunStatus.fromStr_toString status⟩
  duration := le_rfl

/-- Event 3 expires before the third read, which reports it as a gap. -/
theorem replayPages_covers_sparse :
    singleEventPages.validate = .ok () ∧ sparseJournal.latestOf "run" = 3 ∧
      ∃ pages, sparseJournal.replayPages singleEventPages (some (crewRun "running"))
          (fun reads => reads * (2 * 10 ^ 9)) "crew" "run" 4 0 0 = .ok pages ∧
        Replays singleEventPages sparseJournal "run" (fun reads => reads * (2 * 10 ^ 9)) 0 0
          pages := by
  have hconfig : singleEventPages.validate = .ok () := by rfl
  have hlatest : sparseJournal.latestOf "run" = 3 := by decide +kernel
  refine ⟨hconfig, hlatest, ?_⟩
  apply replayPages_covers singleEventPages hconfig sparseJournal
    ((JournalInvariant.empty singleEventPages).foldl _).1 (crewRun "running") "crew" "run"
    (readableRun_crewRun .running)
  · exact Nat.zero_le _
  · rw [hlatest]
    decide

end Sparse

end IronCrew
