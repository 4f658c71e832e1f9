import Mathlib.Data.List.Chain

/-!
# Joining neighbours of one key

Entries of a key and some items come in one after another. An entry of the same key as the one before it
is joined with that one, so neighbours in the result differ in their keys; what the entries hold stays,
in the order it came in.
-/

namespace Coalesce

variable {κ β : Type} [DecidableEq κ]

def push (joined : List (κ × List β)) (entry : κ × List β) : List (κ × List β) :=
  match joined.getLast? with
  | some last =>
    if last.1 = entry.1 then joined.dropLast ++ [(last.1, last.2 ++ entry.2)] else joined ++ [entry]
  | none => [entry]

def joinFrom (joined : List (κ × List β)) (entries : List (κ × List β)) : List (κ × List β) :=
  entries.foldl push joined

variable {joined entries : List (κ × List β)} {entry : κ × List β}

theorem push_same (before : List (κ × List β)) (key : κ) (items more : List β) :
    push (before ++ [(key, items)]) (key, more) = before ++ [(key, items ++ more)] := by
  simp [push]

theorem push_other (hother : ∀ last ∈ joined.getLast?, last.1 ≠ entry.1) :
    push joined entry = joined ++ [entry] := by
  unfold push
  cases hlast : joined.getLast? with
  | none => simp [List.getLast?_eq_none_iff.mp hlast]
  | some last => exact if_neg (hother last hlast)

theorem push_cases (joined : List (κ × List β)) (entry : κ × List β) :
    (∃ before items, joined = before ++ [(entry.1, items)] ∧
        push joined entry = before ++ [(entry.1, items ++ entry.2)]) ∨
      (∀ last ∈ joined.getLast?, last.1 ≠ entry.1) ∧ push joined entry = joined ++ [entry] := by
  obtain rfl | ⟨before, last, rfl⟩ := List.eq_nil_or_concat' joined
  · exact .inr ⟨by simp, push_other (by simp)⟩
  · obtain ⟨key, items⟩ := last
    by_cases hkey : key = entry.1
    · subst hkey
      exact .inl ⟨before, items, rfl, push_same before entry.1 items entry.2⟩
    · have hother : ∀ last ∈ (before ++ [(key, items)]).getLast?, last.1 ≠ entry.1 := by
        simpa using hkey
      exact .inr ⟨hother, push_other hother⟩

@[simp]
theorem joinFrom_nil (joined : List (κ × List β)) : joinFrom joined [] = joined :=
  rfl

theorem joinFrom_cons (joined : List (κ × List β)) (entry : κ × List β)
    (entries : List (κ × List β)) :
    joinFrom joined (entry :: entries) = joinFrom (push joined entry) entries :=
  rfl

theorem joinFrom_append (joined entries more : List (κ × List β)) :
    joinFrom joined (entries ++ more) = joinFrom (joinFrom joined entries) more :=
  List.foldl_append

theorem joinFrom_same (before : List (κ × List β)) (key : κ) (items : List β)
    (pieces : List (List β)) :
    joinFrom (before ++ [(key, items)]) (pieces.map fun piece => (key, piece)) =
      before ++ [(key, items ++ pieces.flatten)] := by
  induction pieces generalizing items with
  | nil => simp
  | cons piece pieces ih =>
    rw [List.map_cons, joinFrom_cons, push_same, ih, List.flatten_cons, List.append_assoc]

theorem flatMap_push : (push joined entry).flatMap Prod.snd = joined.flatMap Prod.snd ++ entry.2 := by
  obtain ⟨before, items, rfl, hpush⟩ | ⟨-, hpush⟩ := push_cases joined entry
  · rw [hpush]
    simp
  · rw [hpush]
    simp

/-- Nothing is lost, doubled or moved. -/
theorem flatMap_joinFrom (joined entries : List (κ × List β)) :
    (joinFrom joined entries).flatMap Prod.snd =
      joined.flatMap Prod.snd ++ entries.flatMap Prod.snd := by
  induction entries generalizing joined with
  | nil => simp
  | cons entry entries ih =>
    rw [joinFrom_cons, ih, flatMap_push, List.flatMap_cons, List.append_assoc]

/-- Neighbours differ in their keys. -/
def Alternates (joined : List (κ × List β)) : Prop :=
  joined.IsChain fun left right => left.1 ≠ right.1

omit [DecidableEq κ] in
theorem Alternates.last {before : List (κ × List β)} {key : κ} {items : List β}
    (halternates : Alternates (before ++ [(key, items)])) (more : List β) :
    Alternates (before ++ [(key, more)]) := by
  unfold Alternates at halternates ⊢
  rw [List.isChain_append] at halternates ⊢
  exact ⟨halternates.1, List.isChain_singleton _, by simpa using halternates.2.2⟩

theorem Alternates.push (halternates : Alternates joined) (entry : κ × List β) :
    Alternates (push joined entry) := by
  obtain ⟨before, items, rfl, hpush⟩ | ⟨hother, hpush⟩ := push_cases joined entry
  · rw [hpush]
    exact halternates.last _
  · rw [hpush]
    refine List.isChain_append.mpr ⟨halternates, List.isChain_singleton _, ?_⟩
    simpa using hother

theorem Alternates.joinFrom (halternates : Alternates joined) (entries : List (κ × List β)) :
    Alternates (joinFrom joined entries) := by
  induction entries generalizing joined with
  | nil => exact halternates
  | cons entry entries ih => exact ih (halternates.push entry)

theorem mem_keys_push {key : κ} :
    key ∈ (push joined entry).map Prod.fst ↔ key ∈ joined.map Prod.fst ∨ key = entry.1 := by
  obtain ⟨before, items, rfl, hpush⟩ | ⟨-, hpush⟩ := push_cases joined entry
  · rw [hpush]
    simp
  · rw [hpush]
    simp

theorem mem_keys_joinFrom {key : κ} :
    key ∈ (joinFrom joined entries).map Prod.fst ↔
      key ∈ joined.map Prod.fst ∨ key ∈ entries.map Prod.fst := by
  induction entries generalizing joined with
  | nil => simp
  | cons entry entries ih => rw [joinFrom_cons, ih, mem_keys_push, List.map_cons, List.mem_cons, or_assoc]

theorem head_push (hsome : joined ≠ []) :
    (push joined entry).head?.map Prod.fst = joined.head?.map Prod.fst ∧ push joined entry ≠ [] := by
  obtain ⟨before, items, rfl, hpush⟩ | ⟨-, hpush⟩ := push_cases joined entry
  · rw [hpush]
    cases before <;> simp
  · rw [hpush]
    cases joined with
    | nil => exact absurd rfl hsome
    | cons first rest => simp

theorem head_joinFrom (entry : κ × List β) (entries : List (κ × List β)) :
    (joinFrom [] (entry :: entries)).head?.map Prod.fst = some entry.1 := by
  have hkeep : ∀ joined : List (κ × List β), joined ≠ [] →
      (joinFrom joined entries).head?.map Prod.fst = joined.head?.map Prod.fst := by
    induction entries with
    | nil => exact fun joined _ => rfl
    | cons next entries ih =>
      intro joined hsome
      obtain ⟨hhead, hpushed⟩ := @head_push _ _ _ _ next hsome
      rw [joinFrom_cons, ih _ hpushed, hhead]
  exact hkeep [entry] (by simp)

end Coalesce
