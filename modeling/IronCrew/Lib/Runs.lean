import Mathlib.Algebra.Order.BigOperators.Group.List
import Mathlib.Algebra.Order.Ring.Nat

/-!
# Runs of a system that may stop

A system is a step function `step : σ → ι → Except ε σ`; a run folds it over a list of operations.
The rules here are the ones every safety argument uses: an invariant that every step keeps, with the
step shown to return, holds at the end of every run, and no run stops.
-/

namespace Runs

variable {σ ι ε : Type}

section

variable {step : σ → ι → Except ε σ}

/-- A run of a system whose invariant is kept, and whose steps return, returns in the invariant. -/
theorem foldlM_ok (Inv : σ → Prop) (hstep : ∀ s op, Inv s → ∃ s', step s op = .ok s' ∧ Inv s') :
    ∀ (ops : List ι) (s : σ), Inv s → ∃ s', ops.foldlM step s = .ok s' ∧ Inv s' := by
  intro ops
  induction ops with
  | nil => intro s hs; exact ⟨s, rfl, hs⟩
  | cons op ops ih =>
    intro s hs
    obtain ⟨mid, hmid, hinv⟩ := hstep s op hs
    obtain ⟨s', hrun, hs'⟩ := ih mid hinv
    refine ⟨s', ?_, hs'⟩
    rw [List.foldlM_cons, hmid]
    exact hrun

/-- A property that every allowed step keeps when it returns holds at the end of every returning run
of allowed operations. -/
theorem foldlM_preserves_of {P : σ → Prop} (A : ι → Prop)
    (hstep : ∀ s op s', A op → P s → step s op = .ok s' → P s') :
    ∀ (ops : List ι) (s s' : σ), (∀ op ∈ ops, A op) → P s → ops.foldlM step s = .ok s' → P s' := by
  intro ops
  induction ops with
  | nil =>
    intro s s' _ hs hrun
    cases hrun
    exact hs
  | cons op ops ih =>
    intro s s' hops hs hrun
    obtain ⟨hop, hops⟩ := List.forall_mem_cons.mp hops
    rw [List.foldlM_cons] at hrun
    cases hmid : step s op with
    | error e => rw [hmid] at hrun; cases hrun
    | ok mid =>
      rw [hmid] at hrun
      exact ih mid s' hops (hstep s op mid hop hs hmid) hrun

/-- A property that every returning step keeps holds at the end of every returning run. -/
theorem foldlM_preserves {P : σ → Prop} (hstep : ∀ s op s', P s → step s op = .ok s' → P s')
    (ops : List ι) (s s' : σ) (hs : P s) (hrun : ops.foldlM step s = .ok s') : P s' :=
  foldlM_preserves_of (fun _ => True) (fun s op s' _ => hstep s op s') ops s s' (by simp) hs hrun

end

/-- An invariant of a total step function holds at the end of every run whose operations are all
allowed. -/
theorem foldl_preserves {step : σ → ι → σ} {P : σ → Prop} (A : ι → Prop)
    (hstep : ∀ s op, A op → P s → P (step s op)) :
    ∀ (ops : List ι) (s : σ), (∀ op ∈ ops, A op) → P s → P (ops.foldl step s) := by
  intro ops
  induction ops with
  | nil => intro s _ hs; exact hs
  | cons op ops ih =>
    intro s hops hs
    obtain ⟨hop, hops⟩ := List.forall_mem_cons.mp hops
    exact ih (step s op) hops (hstep s op hop hs)

/-- Every step of the run is allowed in the state it is taken in. -/
def Guarded (step : σ → ι → σ) (A : σ → ι → Prop) : σ → List ι → Prop
  | _, [] => True
  | s, op :: ops => A s op ∧ Guarded step A (step s op) ops

theorem Guarded.foldl_preserves {step : σ → ι → σ} {A : σ → ι → Prop} {B : ι → Prop} {P : σ → Prop}
    (hstep : ∀ s op, A s op → B op → P s → P (step s op)) :
    ∀ (ops : List ι) (s : σ), Guarded step A s ops → (∀ op ∈ ops, B op) → P s →
      P (ops.foldl step s) := by
  intro ops
  induction ops with
  | nil => intro s _ _ hs; exact hs
  | cons op ops ih =>
    rintro s ⟨hop, hguarded⟩ hops hs
    obtain ⟨hallowed, hops⟩ := List.forall_mem_cons.mp hops
    exact ih (step s op) hguarded hops (hstep s op hop hallowed hs)

/-- A traversal returns when every element does, and stops at an element that does not. -/
theorem mapM_cases {β : Type} (f : ι → Except ε β) (xs : List ι) :
    (∃ ys, xs.mapM f = .ok ys ∧ ∀ x ∈ xs, ∃ y, f x = .ok y) ∨
      ∃ e, xs.mapM f = .error e ∧ ∃ x ∈ xs, f x = .error e := by
  induction xs with
  | nil => exact Or.inl ⟨[], rfl, by simp⟩
  | cons x xs ih =>
    rw [List.mapM_cons]
    cases hx : f x with
    | error e => exact Or.inr ⟨e, rfl, x, List.mem_cons_self .., hx⟩
    | ok y =>
      obtain ⟨ys, hys, hall⟩ | ⟨e, he, z, hz, hfail⟩ := ih
      · refine Or.inl ⟨y :: ys, by rw [hys]; rfl, ?_⟩
        intro z hz
        obtain rfl | hz := List.mem_cons.mp hz
        · exact ⟨y, hx⟩
        · exact hall z hz
      · exact Or.inr ⟨e, by rw [he]; rfl, z, List.mem_cons_of_mem _ hz, hfail⟩

/-- A traversal in which every element returns gives the returned values. -/
theorem mapM_ok {β : Type} {f : ι → Except ε β} {xs : List ι} (hall : ∀ x ∈ xs, ∃ y, f x = .ok y) :
    ∃ ys, xs.mapM f = .ok ys ∧ ∀ y, y ∈ ys ↔ ∃ x ∈ xs, f x = .ok y := by
  induction xs with
  | nil => exact ⟨[], rfl, by simp⟩
  | cons x xs ih =>
    obtain ⟨⟨y, hy⟩, hxs⟩ := List.forall_mem_cons.mp hall
    obtain ⟨ys, hys, hmem⟩ := ih hxs
    refine ⟨y :: ys, by rw [List.mapM_cons, hy, hys]; rfl, fun z => ?_⟩
    rw [List.mem_cons, hmem, List.exists_mem_cons_iff, hy, Except.ok.injEq, eq_comm]

/-! ### Numbered slots -/

variable {α : Type} {xs : List α}

theorem getElem?_set_cases {slot index : Nat} {x y : α} (hget : (xs.set slot x)[index]? = some y) :
    (index = slot ∧ y = x) ∨ (index ≠ slot ∧ xs[index]? = some y) := by
  obtain rfl | hne := eq_or_ne index slot
  · refine .inl ⟨rfl, ?_⟩
    have hlt : index < xs.length := by
      have hbound := (List.getElem?_eq_some_iff.mp hget).1
      rwa [List.length_set] at hbound
    rw [List.getElem?_set_self hlt] at hget
    exact (Option.some.inj hget).symm
  · rw [List.getElem?_set_ne hne.symm] at hget
    exact .inr ⟨hne, hget⟩

theorem getElem?_set_of_some {slot : Nat} {old : α} (new : α)
    (hold : xs[slot]? = some old) : (xs.set slot new)[slot]? = some new :=
  List.getElem?_set_self (List.getElem?_eq_some_iff.mp hold).1

theorem getElem?_append_of_some {index : Nat} {x y : α} (hget : xs[index]? = some x) :
    (xs ++ [y])[index]? = some x := by
  rw [List.getElem?_append_left (List.getElem?_eq_some_iff.mp hget).1, hget]

theorem getElem?_append_singleton_cases {index : Nat} {x y : α}
    (hget : (xs ++ [x])[index]? = some y) :
    xs[index]? = some y ∨ (index = xs.length ∧ y = x) := by
  obtain hlt | hle := Nat.lt_or_ge index xs.length
  · rw [List.getElem?_append_left hlt] at hget
    exact .inl hget
  · rw [List.getElem?_append_right hle] at hget
    obtain ⟨hbound, heq⟩ := List.getElem?_eq_some_iff.mp hget
    simp only [List.length_singleton] at hbound
    refine .inr ⟨by omega, ?_⟩
    rw [← heq, List.getElem_singleton]

/-! ### Sums over numbered slots -/

section

variable (f : α → Nat) {slots : List α}

theorem sum_map_set {slot : Nat} {old : α} (new : α) (hold : slots[slot]? = some old) :
    ((slots.set slot new).map f).sum + f old = (slots.map f).sum + f new := by
  induction slots generalizing slot with
  | nil => simp at hold
  | cons head tail ih =>
    cases slot with
    | zero =>
      simp only [List.getElem?_cons_zero, Option.some.injEq] at hold
      subst hold
      simp only [List.set_cons_zero, List.map_cons, List.sum_cons]
      omega
    | succ slot =>
      simp only [List.getElem?_cons_succ] at hold
      simp only [List.set_cons_succ, List.map_cons, List.sum_cons]
      have htail := ih hold
      omega

theorem le_sum_map {slot : Nat} {value : α} (hvalue : slots[slot]? = some value) :
    f value ≤ (slots.map f).sum :=
  List.single_le_sum (fun _ _ => Nat.zero_le _) _
    (List.mem_map.mpr ⟨value, List.mem_of_getElem? hvalue, rfl⟩)

theorem add_le_sum_map {i j : Nat} {a b : α} (hne : i ≠ j) (ha : slots[i]? = some a)
    (hb : slots[j]? = some b) : f a + f b ≤ (slots.map f).sum := by
  induction slots generalizing i j with
  | nil => simp at ha
  | cons head tail ih =>
    rw [List.map_cons, List.sum_cons]
    cases i with
    | zero =>
      cases j with
      | zero => exact absurd rfl hne
      | succ j =>
        cases ha
        rw [List.getElem?_cons_succ] at hb
        exact Nat.add_le_add_left (le_sum_map f hb) _
    | succ i =>
      cases j with
      | zero =>
        cases hb
        rw [List.getElem?_cons_succ] at ha
        rw [Nat.add_comm]
        exact Nat.add_le_add_left (le_sum_map f ha) _
      | succ j =>
        rw [List.getElem?_cons_succ] at ha hb
        have htail := ih (fun heq => hne (congrArg Nat.succ heq)) ha hb
        omega

end

/-! ### Sums by source -/

theorem sum_map_eq_sum_sources {κ : Type} [DecidableEq κ] (source : α → κ) (size : α → Nat)
    {sources : List κ} (hnodup : sources.Nodup) (hxs : ∀ x ∈ xs, source x ∈ sources) :
    (xs.map size).sum =
      (sources.map fun key => ((xs.filter fun x => source x = key).map size).sum).sum := by
  induction sources generalizing xs with
  | nil =>
    have hnil : xs = [] := List.eq_nil_iff_forall_not_mem.mpr fun x hx => by simpa using hxs x hx
    simp [hnil]
  | cons first sources ih =>
    obtain ⟨hfirst, hnodup⟩ := List.nodup_cons.mp hnodup
    have hrest : ∀ x ∈ xs.filter (fun x => ¬ source x = first), source x ∈ sources := by
      intro x hx
      obtain ⟨hx, hne⟩ := List.mem_filter.mp hx
      exact (List.mem_cons.mp (hxs x hx)).resolve_left (of_decide_eq_true hne)
    have hothers : ∀ key ∈ sources, (xs.filter fun x => ¬ source x = first).filter
        (fun x => source x = key) = xs.filter fun x => source x = key := by
      intro key hkey
      rw [List.filter_filter]
      refine List.filter_congr fun x _ => ?_
      by_cases heq : source x = key
      · have hne : key ≠ first := fun hkey' => hfirst (hkey' ▸ hkey)
        simp [heq, hne]
      · simp [heq]
    rw [List.map_cons, List.sum_cons,
      ← List.sum_map_filter_add_sum_map_filter_not (fun x => source x = first) size xs,
      ih hnodup hrest]
    congr 2
    exact List.map_congr_left fun key hkey => by rw [hothers key hkey]

end Runs
