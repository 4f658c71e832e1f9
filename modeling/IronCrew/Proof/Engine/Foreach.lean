import IronCrew.Engine.Foreach

/-!
# The bytes of a foreach's output

The reservations add up to the compact text of the array of outputs. What the task stores is the text
with a line for each output, so the bound that the reservations keep is not one on the stored text.
-/

namespace IronCrew

open JsonText Outcome

variable {resultBytes : TaskResult → Except String Nat} {taskName : String} {maxOutputBytes : Nat}

theorem reserveForeachOutput_ok {encodedBytes next : Nat} {output : String}
    (hmax : maxOutputBytes < usizeMax)
    (hreserve : @reserveForeachOutput (.ofJson resultBytes) taskName maxOutputBytes encodedBytes output =
      .ok next) :
    next = encodedBytes + (if 2 < encodedBytes then 1 else 0) + (quoted output).utf8ByteSize ∧
      next ≤ maxOutputBytes := by
  obtain ⟨-, hreserve⟩ := ensure_bind_ok_iff.mp hreserve
  obtain ⟨hbound, hnext⟩ := ensure_bind_ok_iff.mp hreserve
  cases hnext
  refine ⟨?_, hbound⟩
  -- below the limit the count of the string has not saturated
  change _ + min usizeMax (quoted output).utf8ByteSize ≤ maxOutputBytes at hbound
  change _ + min usizeMax (quoted output).utf8ByteSize = _
  omega

theorem reserve_total {encodedBytes total : Nat} {outputs : List String}
    (hmax : maxOutputBytes < usizeMax) (hpos : 0 < encodedBytes)
    (hreserve : outputs.foldlM (@reserveForeachOutput (.ofJson resultBytes) taskName maxOutputBytes)
      encodedBytes = .ok total) :
    total = encodedBytes + quotedBytes outputs +
      if 2 < encodedBytes then outputs.length else outputs.length - 1 := by
  induction outputs generalizing encodedBytes with
  | nil =>
    cases hreserve
    simp [quotedBytes]
  | cons output outputs ih =>
    obtain ⟨next, hnext, hrest⟩ := bind_ok_iff.mp hreserve
    obtain ⟨hexact, -⟩ := reserveForeachOutput_ok hmax hnext
    have hquoted := two_le_quoted output
    have hlater : 2 < next := by omega
    have htotal := ih (by omega) hrest
    rw [if_pos hlater] at htotal
    simp only [quotedBytes, List.map_cons, List.sum_cons, List.length_cons] at htotal ⊢
    split_ifs at hexact ⊢ <;> omega

theorem reserve_le {encodedBytes total : Nat} {outputs : List String} (hmax : maxOutputBytes < usizeMax)
    (hnonempty : outputs ≠ [])
    (hreserve : outputs.foldlM (@reserveForeachOutput (.ofJson resultBytes) taskName maxOutputBytes)
      encodedBytes = .ok total) : total ≤ maxOutputBytes := by
  induction outputs generalizing encodedBytes with
  | nil => exact absurd rfl hnonempty
  | cons output outputs ih =>
    obtain ⟨next, hnext, hrest⟩ := bind_ok_iff.mp hreserve
    cases outputs with
    | nil =>
      cases hrest
      exact (reserveForeachOutput_ok hmax hnext).2
    | cons second outputs => exact ih (List.cons_ne_nil _ _) hrest

def foreachOutputLimit (env : ForeachEnv) : Nat :=
  positiveEnvLimit env.maxOutputBytes defaultForeachMaxOutputBytes hardForeachMaxOutputBytes

theorem foreachOutputLimit_lt (env : ForeachEnv) : foreachOutputLimit env < usizeMax := by
  have hhard : hardForeachMaxOutputBytes < usizeMax := by decide
  have hdefault : defaultForeachMaxOutputBytes < usizeMax := by decide
  unfold foreachOutputLimit positiveEnvLimit
  cases env.maxOutputBytes.filter (0 < ·) with
  | none => exact hdefault
  | some value => exact Nat.lt_of_le_of_lt (Nat.min_le_right value _) hhard

/-- What a foreach over some items stores is the pretty text of its outputs; the reservations keep the
compact text within the limit. -/
theorem executeForeachTask_output {env : ForeachEnv} {task : Task} {agent : String}
    {run : ForeachRun} {items : List (Except String String)} {outcome : ForeachOutcome}
    (hitems : run.items = some items) (hnonempty : items ≠ [])
    (hexecute : @executeForeachTask (.ofJson resultBytes) env task agent run = .ok outcome) :
    outcome.result.output = prettyArray (items.map foreachOutput) ∧
      (compactArray (items.map foreachOutput)).utf8ByteSize ≤ foreachOutputLimit env := by
  obtain ⟨-, -, hexecute⟩ := bind_ok_iff.mp hexecute
  obtain ⟨-, -, hexecute⟩ := bind_ok_iff.mp hexecute
  rw [hitems] at hexecute
  cases items with
  | nil => exact absurd rfl hnonempty
  | cons item rest =>
    obtain ⟨-, hexecute⟩ := ensure_bind_ok_iff.mp hexecute
    obtain ⟨total, hreserve, hexecute⟩ := bind_ok_iff.mp hexecute
    obtain ⟨usage, -, hexecute⟩ := bind_ok_iff.mp hexecute
    cases hexecute
    refine ⟨rfl, ?_⟩
    have htotal := reserve_total (foreachOutputLimit_lt env) Nat.two_pos hreserve
    rw [if_neg (Nat.lt_irrefl 2)] at htotal
    rw [utf8ByteSize_compactArray, ← htotal]
    exact reserve_le (foreachOutputLimit_lt env) (List.cons_ne_nil _ _) hreserve

/-- The stored text keeps the bound exactly when there is room for the line of each output. -/
theorem executeForeachTask_output_le_iff {env : ForeachEnv} {task : Task} {agent : String}
    {run : ForeachRun} {items : List (Except String String)} {outcome : ForeachOutcome}
    (hitems : run.items = some items) (hnonempty : items ≠ [])
    (hexecute : @executeForeachTask (.ofJson resultBytes) env task agent run = .ok outcome) :
    outcome.result.output.utf8ByteSize ≤ foreachOutputLimit env ↔
      quotedBytes (items.map foreachOutput) + 4 * items.length + 2 ≤ foreachOutputLimit env := by
  have hpos : 0 < items.length := List.length_pos_iff.mpr hnonempty
  have hmapped : items.map foreachOutput ≠ [] := by simpa using hnonempty
  obtain ⟨houtput, -⟩ := executeForeachTask_output hitems hnonempty hexecute
  rw [houtput, utf8ByteSize_prettyArray hmapped, utf8ByteSize_compactArray, List.length_map]
  omega

def ForeachRun.single (output : String) : ForeachRun :=
  { items := some [.ok output], durationMs := 1, usage := .ok {} }

/-- Four bytes hold the compact text of the one output, and the stored text takes eight. -/
theorem executeForeachTask_output_exceeds :
    ∃ outcome, @executeForeachTask (.ofJson fun _ => .ok 0) { maxOutputBytes := some 4 }
        { name := "each" } "analyst" (.single "") = .ok outcome ∧
      ¬ outcome.result.output.utf8ByteSize ≤ foreachOutputLimit { maxOutputBytes := some 4 } :=
  ⟨_, rfl, by decide⟩

def ForeachRun.several : ForeachRun :=
  { items := some [.ok "a", .ok "say \"b\"", .error "c"], durationMs := 1, usage := .ok {} }

/-- Two separators, two escapes and a failed item: the stored text takes all of the 38 bytes. -/
theorem executeForeachTask_output_le_iff_sample :
    ∃ outcome, @executeForeachTask (.ofJson fun _ => .ok 0) { maxOutputBytes := some 38 }
        { name := "each" } "analyst" .several = .ok outcome ∧
      outcome.result.output.utf8ByteSize ≤ foreachOutputLimit { maxOutputBytes := some 38 } := by
  obtain ⟨outcome, houtcome⟩ : ∃ outcome, @executeForeachTask (.ofJson fun _ => .ok 0)
      { maxOutputBytes := some 38 } { name := "each" } "analyst" .several = .ok outcome := ⟨_, rfl⟩
  refine ⟨outcome, houtcome, ?_⟩
  exact (executeForeachTask_output_le_iff rfl (List.cons_ne_nil _ _) houtcome).mpr (by decide)

end IronCrew
