import Mathlib.Data.List.Nodup
import Mathlib.Logic.Relation

/-!
# Collecting everything reachable from a node

A worklist loop with a bound on the number of nodes it keeps. It returns each reachable node once,
or nothing when the bound is too small, and its result depends only on the part of the graph it can
reach.
-/

namespace Worklist

variable {α : Type} [DecidableEq α]

/-- Pop the stack `pending` (head first), keeping nodes not seen before in visiting order. -/
def collect (next : α → List α) (limit : Nat) (visited pending : List α) : Option (List α) :=
  match pending with
  | [] => some visited
  | node :: rest =>
    if node ∈ visited then collect next limit visited rest
    else if limit ≤ visited.length then none
    else collect next limit (visited ++ [node]) (next node ++ rest)
termination_by (limit - visited.length, pending.length)
decreasing_by
  · exact Prod.Lex.right _ (by simp)
  · refine Prod.Lex.left _ _ ?_
    simp only [List.length_append, List.length_singleton]
    omega

abbrev Reaches (next : α → List α) : α → α → Prop :=
  Relation.ReflTransGen fun a b => b ∈ next a

variable {next : α → List α} {limit : Nat} {visited pending nodes : List α}

section

variable (hcollect : collect next limit visited pending = some nodes)
include hcollect

theorem mem_of_collect : (∀ x ∈ visited, x ∈ nodes) ∧ ∀ x ∈ pending, x ∈ nodes := by
  fun_induction collect next limit visited pending with
  | case1 visited =>
    cases hcollect
    exact ⟨fun _ hx => hx, by simp⟩
  | case2 visited node rest hseen ih =>
    obtain ⟨hvisited, hrest⟩ := ih hcollect
    refine ⟨hvisited, fun x hx => ?_⟩
    rcases List.mem_cons.mp hx with rfl | hx
    · exact hvisited x hseen
    · exact hrest x hx
  | case3 => cases hcollect
  | case4 visited node rest hnew hroom ih =>
    obtain ⟨hvisited, hrest⟩ := ih hcollect
    refine ⟨fun x hx => hvisited x (by simp [hx]), fun x hx => ?_⟩
    rcases List.mem_cons.mp hx with rfl | hx
    · exact hvisited x (by simp)
    · exact hrest x (by simp [hx])

theorem closed_of_collect (hclosed : ∀ v ∈ visited, ∀ u ∈ next v, u ∈ visited ∨ u ∈ pending) :
    ∀ v ∈ nodes, ∀ u ∈ next v, u ∈ nodes := by
  fun_induction collect next limit visited pending with
  | case1 visited =>
    cases hcollect
    intro v hv u hu
    exact (hclosed v hv u hu).resolve_right (by simp)
  | case2 visited node rest hseen ih =>
    refine ih hcollect fun v hv u hu => ?_
    rcases hclosed v hv u hu with h | h
    · exact Or.inl h
    · rcases List.mem_cons.mp h with rfl | h
      · exact Or.inl hseen
      · exact Or.inr h
  | case3 => cases hcollect
  | case4 visited node rest hnew hroom ih =>
    refine ih hcollect fun v hv u hu => ?_
    rcases List.mem_append.mp hv with hv | hv
    · rcases hclosed v hv u hu with h | h
      · exact Or.inl (by simp [h])
      · rcases List.mem_cons.mp h with rfl | h
        · exact Or.inl (by simp)
        · exact Or.inr (by simp [h])
    · rw [List.mem_singleton.mp hv] at hu
      exact Or.inr (by simp [hu])

theorem reaches_of_collect : ∀ x ∈ nodes, x ∈ visited ∨ ∃ p ∈ pending, Reaches next p x := by
  fun_induction collect next limit visited pending with
  | case1 visited =>
    cases hcollect
    exact fun x hx => Or.inl hx
  | case2 visited node rest hseen ih =>
    intro x hx
    rcases ih hcollect x hx with h | ⟨p, hp, hreach⟩
    · exact Or.inl h
    · exact Or.inr ⟨p, List.mem_cons_of_mem _ hp, hreach⟩
  | case3 => cases hcollect
  | case4 visited node rest hnew hroom ih =>
    intro x hx
    rcases ih hcollect x hx with h | ⟨p, hp, hreach⟩
    · rcases List.mem_append.mp h with h | h
      · exact Or.inl h
      · rw [List.mem_singleton.mp h]
        exact Or.inr ⟨node, List.mem_cons_self .., .refl⟩
    · rcases List.mem_append.mp hp with hp | hp
      · exact Or.inr ⟨node, List.mem_cons_self .., hreach.head hp⟩
      · exact Or.inr ⟨p, List.mem_cons_of_mem _ hp, hreach⟩

theorem nodup_of_collect (hnodup : visited.Nodup) : nodes.Nodup := by
  fun_induction collect next limit visited pending with
  | case1 visited =>
    cases hcollect
    exact hnodup
  | case2 visited node rest hseen ih => exact ih hcollect hnodup
  | case3 => cases hcollect
  | case4 visited node rest hnew hroom ih =>
    refine ih hcollect ?_
    rw [List.nodup_append]
    exact ⟨hnodup, by simp, by rintro a ha b hb rfl; exact hnew (List.mem_singleton.mp hb ▸ ha)⟩

end

/-- **The worklist is exact.** The nodes collected from `root` are the nodes it reaches. -/
theorem mem_collect_iff {root : α} (hcollect : collect next limit [] [root] = some nodes) (x : α) :
    x ∈ nodes ↔ Reaches next root x := by
  constructor
  · intro hx
    rcases reaches_of_collect hcollect x hx with h | ⟨p, hp, hreach⟩
    · simp at h
    · rwa [List.mem_singleton.mp hp] at hreach
  · intro hreach
    induction hreach with
    | refl => exact (mem_of_collect hcollect).2 root (by simp)
    | tail _ hlink ih => exact closed_of_collect hcollect (by simp) _ ih _ hlink

/-- Two graphs that agree on a closed set give the same result from inside it. -/
theorem collect_congr {next' : α → List α} (inside : α → Prop)
    (hagree : ∀ a, inside a → next' a = next a) (hclosed : ∀ a, inside a → ∀ b ∈ next a, inside b)
    (hpending : ∀ p ∈ pending, inside p) :
    collect next' limit visited pending = collect next limit visited pending := by
  fun_induction collect next limit visited pending with
  | case1 visited => rw [collect]
  | case2 visited node rest hseen ih =>
    rw [collect, if_pos hseen]
    exact ih fun p hp => hpending p (List.mem_cons_of_mem _ hp)
  | case3 visited node rest hnew hfull => rw [collect, if_neg hnew, if_pos hfull]
  | case4 visited node rest hnew hroom ih =>
    have hnode := hpending node (List.mem_cons_self ..)
    rw [collect, if_neg hnew, if_neg hroom, hagree node hnode]
    refine ih fun p hp => ?_
    rcases List.mem_append.mp hp with hp | hp
    · exact hclosed node hnode p hp
    · exact hpending p (List.mem_cons_of_mem _ hp)

end Worklist
