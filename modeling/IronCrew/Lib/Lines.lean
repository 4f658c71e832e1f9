import Mathlib.Data.List.Induction

/-!
# Lines of a sequence that is still coming in

A sequence is cut at every separator: the lines that have ended, and the rest after the last one. What
was cut already stays when more comes in, only the rest is read on, so it does not matter where the
sequence was taken apart on the way.
-/

namespace Lines

variable {α : Type} [DecidableEq α] (sep : α)

def step (state : List (List α) × List α) (item : α) : List (List α) × List α :=
  if item = sep then (state.1 ++ [state.2], []) else (state.1, state.2 ++ [item])

/-- The lines that have ended, and the rest. -/
def cut (items : List α) : List (List α) × List α :=
  items.foldl (step sep) ([], [])

variable {sep} {items : List α}

@[simp]
theorem cut_nil : cut sep [] = ([], []) := rfl

theorem cut_concat (items : List α) (item : α) :
    cut sep (items ++ [item]) = step sep (cut sep items) item := by
  rw [cut, List.foldl_append]
  rfl

/-- The lines before a state only stand before those that come. -/
theorem foldl_step (lines : List (List α)) (rest items : List α) :
    items.foldl (step sep) (lines, rest) =
      (lines ++ (items.foldl (step sep) ([], rest)).1, (items.foldl (step sep) ([], rest)).2) := by
  induction items generalizing lines rest with
  | nil => simp
  | cons item items ih =>
    simp only [List.foldl_cons, step]
    split_ifs
    · rw [ih, ih ([] ++ [rest]) [], List.nil_append, List.append_assoc]
    · exact ih lines (rest ++ [item])

theorem sep_not_mem_rest (items : List α) : sep ∉ (cut sep items).2 := by
  induction items using List.reverseRecOn with
  | nil => simp
  | append_singleton items item ih =>
    rw [cut_concat, step]
    split_ifs with hitem
    · simp
    · simp [ih, Ne.symm hitem]

theorem foldl_step_of_not_mem {lines : List (List α)} {rest : List α} (hitems : sep ∉ items) :
    items.foldl (step sep) (lines, rest) = (lines, rest ++ items) := by
  induction items generalizing rest with
  | nil => simp
  | cons item items ih =>
    obtain ⟨hitem, hitems⟩ := not_or.mp (mt List.mem_cons.mpr hitems)
    rw [List.foldl_cons, step, if_neg (Ne.symm hitem), ih hitems, List.append_assoc,
      List.singleton_append]

theorem cut_append (front back : List α) :
    cut sep (front ++ back) =
      ((cut sep front).1 ++ (cut sep ((cut sep front).2 ++ back)).1,
        (cut sep ((cut sep front).2 ++ back)).2) := by
  have hrest : cut sep ((cut sep front).2 ++ back) = back.foldl (step sep) ([], (cut sep front).2) := by
    rw [cut, List.foldl_append, foldl_step_of_not_mem (sep_not_mem_rest front), List.nil_append]
  rw [hrest, cut, List.foldl_append]
  exact foldl_step _ _ _

theorem cut_fst_append_concat (rest back : List α) (hrest : sep ∉ rest) :
    cut sep (rest ++ sep :: back) = (rest :: (cut sep back).1, (cut sep back).2) := by
  rw [cut, List.foldl_append, foldl_step_of_not_mem hrest, List.foldl_cons, step, if_pos rfl,
    List.nil_append, foldl_step]
  rfl

theorem cut_eq_iff {lines : List (List α)} {rest : List α} :
    cut sep items = (lines, rest) ↔
      items = (lines.map (· ++ [sep])).flatten ++ rest ∧ (∀ line ∈ lines, sep ∉ line) ∧ sep ∉ rest := by
  constructor
  · intro hcut
    induction items using List.reverseRecOn generalizing lines rest with
    | nil =>
      obtain ⟨rfl, rfl⟩ := Prod.mk.inj hcut
      simp
    | append_singleton items item ih =>
      obtain ⟨hitems, hlines, hrest⟩ := @ih (cut sep items).1 (cut sep items).2 rfl
      rw [cut_concat, step] at hcut
      split_ifs at hcut with hitem
      · obtain ⟨rfl, rfl⟩ := Prod.mk.inj hcut
        refine ⟨?_, ?_, by simp⟩
        · rw [hitem]
          nth_rewrite 1 [hitems]
          simp
        · intro line hline
          obtain hline | hline := List.mem_append.mp hline
          · exact hlines line hline
          · rwa [List.mem_singleton.mp hline]
      · obtain ⟨rfl, rfl⟩ := Prod.mk.inj hcut
        refine ⟨?_, hlines, by simp [hrest, Ne.symm hitem]⟩
        nth_rewrite 1 [hitems]
        simp
  · rintro ⟨rfl, hlines, hrest⟩
    induction lines with
    | nil =>
      rw [List.map_nil, List.flatten_nil, List.nil_append, cut, foldl_step_of_not_mem hrest,
        List.nil_append]
    | cons line lines ih =>
      obtain ⟨hline, hlines⟩ := List.forall_mem_cons.mp hlines
      rw [List.map_cons, List.flatten_cons, List.append_assoc, List.append_assoc,
        List.singleton_append, cut_fst_append_concat line _ hline, ih hlines]

theorem cut_joined (items : List α) :
    items = ((cut sep items).1.map (· ++ [sep])).flatten ++ (cut sep items).2 :=
  (cut_eq_iff.mp rfl).1

end Lines
