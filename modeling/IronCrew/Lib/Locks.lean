import Mathlib.Order.WithBot

/-!
# Locks held to the end of a transaction

Transactions ask for locks one after the other, by what they read on the way, and give them all back at
their end. Where every transaction asks for its locks in one order there is no cycle of transactions that
wait for one another, whatever the interleaving.
-/

namespace Locks

structure Request (L : Type) where
  lock : L
  shared : Bool

inductive Body (L ρ : Type) where
  | finish
  | lock (request : Request L) (next : Body L ρ)
  | read (next : ρ → Body L ρ)

structure Session (L ρ : Type) where
  held : List (Request L)
  body : Body L ρ

variable {ι L N ρ α : Type}

/-- The transactions under way. -/
abbrev Config (ι L ρ : Type) := ι → Option (Session L ρ)

section Steps

variable [DecidableEq ι] (name : L → N) (programs : Body L ρ → Prop)

def Conflicts (held wanted : Request L) : Prop :=
  name held.lock = name wanted.lock ∧ ¬ (held.shared = true ∧ wanted.shared = true)

def Granted (config : Config ι L ρ) (i : ι) (wanted : Request L) : Prop :=
  ∀ j, j ≠ i → ∀ session, config j = some session → ∀ held ∈ session.held,
    ¬ Conflicts name held wanted

/-- A transaction may end at any point, committed or not. -/
inductive Step (config : Config ι L ρ) : Config ι L ρ → Prop
  | start (i : ι) (body : Body L ρ) (hfree : config i = none) (hbody : programs body) :
      Step config (Function.update config i (some ⟨[], body⟩))
  | lock (i : ι) (held : List (Request L)) (request : Request L) (next : Body L ρ)
      (hi : config i = some ⟨held, .lock request next⟩) (hgranted : Granted name config i request) :
      Step config (Function.update config i (some ⟨request :: held, next⟩))
  | read (i : ι) (held : List (Request L)) (next : ρ → Body L ρ) (value : ρ)
      (hi : config i = some ⟨held, .read next⟩) :
      Step config (Function.update config i (some ⟨held, next value⟩))
  | finish (i : ι) : Step config (Function.update config i none)

def Reachable (config : Config ι L ρ) : Prop :=
  Relation.ReflTransGen (Step name programs) (fun _ => none) config

def Waits (config : Config ι L ρ) (i j : ι) : Prop :=
  i ≠ j ∧ ∃ held request next session, config i = some ⟨held, .lock request next⟩ ∧
    config j = some session ∧ ∃ own ∈ session.held, Conflicts name own request

def Deadlocked (config : Config ι L ρ) : Prop :=
  ∃ i, Relation.TransGen (Waits name config) i i

end Steps

/-! ### One order -/

section Order

variable [Preorder α] (rank : L → α)

def Body.Ordered (held : List (Request L)) : Body L ρ → Prop
  | .finish => True
  | .lock request next =>
    (∀ own ∈ held, rank own.lock < rank request.lock) ∧ Body.Ordered (request :: held) next
  | .read next => ∀ value, Body.Ordered held (next value)

def Body.Rising (floor : α) : Body L ρ → Prop
  | .finish => True
  | .lock request next => floor < rank request.lock ∧ Body.Rising (rank request.lock) next
  | .read next => ∀ value, Body.Rising floor (next value)

/-- Every transaction under way keeps to the order. -/
def Kept (config : Config ι L ρ) : Prop :=
  ∀ i session, config i = some session → session.body.Ordered rank session.held

variable {name : L → N} {programs : Body L ρ → Prop} {rank}

theorem Body.Rising.ordered {floor : α} {body : Body L ρ} (hrising : body.Rising rank floor)
    {held : List (Request L)} (hheld : ∀ own ∈ held, rank own.lock ≤ floor) :
    body.Ordered rank held := by
  induction body generalizing floor held with
  | finish => trivial
  | lock request next ih =>
    obtain ⟨hfloor, hnext⟩ := hrising
    refine ⟨fun own hown => lt_of_le_of_lt (hheld own hown) hfloor, ih hnext ?_⟩
    intro own hown
    rcases List.mem_cons.mp hown with rfl | hown
    · exact le_refl _
    · exact le_trans (hheld own hown) hfloor.le
  | read next ih => exact fun value => ih value (hrising value) hheld

def wanted (rank : L → α) (config : Config ι L ρ) (i : ι) : WithTop α :=
  match config i with
  | some ⟨_, .lock request _⟩ => rank request.lock
  | _ => ⊤

variable {config : Config ι L ρ}

theorem Kept.wanted_lt (hname : ∀ a b : L, name a = name b → rank a = rank b)
    (hkept : Kept rank config) {i j : ι} (hwaits : Waits name config i j) :
    wanted rank config i < wanted rank config j := by
  obtain ⟨-, held, request, next, session, hi, hj, own, hown, hconflicts⟩ := hwaits
  have hrank : rank own.lock = rank request.lock := hname _ _ hconflicts.1
  have hordered := hkept j session hj
  rw [wanted, wanted, hi, hj]
  obtain ⟨held, body⟩ := session
  cases body with
  | finish => exact WithTop.coe_lt_top _
  | read next => exact WithTop.coe_lt_top _
  | lock other next =>
    simp only [WithTop.coe_lt_coe, ← hrank]
    exact hordered.1 own hown

variable [DecidableEq ι]

theorem Kept.update (hkept : Kept rank config) (i : ι) {session : Option (Session L ρ)}
    (hsession : ∀ own, session = some own → own.body.Ordered rank own.held) :
    Kept rank (Function.update config i session) := by
  intro j own hown
  by_cases hj : j = i
  · subst hj
    rw [Function.update_self] at hown
    exact hsession own hown
  · rw [Function.update_of_ne hj] at hown
    exact hkept j own hown

theorem Kept.step (hprograms : ∀ body, programs body → body.Ordered rank [])
    {config next : Config ι L ρ} (hkept : Kept rank config) (hstep : Step name programs config next) :
    Kept rank next := by
  cases hstep with
  | start i body hfree hbody =>
    refine hkept.update i fun own hown => ?_
    cases hown
    exact hprograms body hbody
  | lock i held request next hi hgranted =>
    refine hkept.update i fun own hown => ?_
    cases hown
    exact (hkept i _ hi).2
  | read i held next value hi =>
    refine hkept.update i fun own hown => ?_
    cases hown
    exact hkept i _ hi value
  | finish i => exact hkept.update i (by simp)

theorem Reachable.kept (hprograms : ∀ body, programs body → body.Ordered rank [])
    (hreachable : Reachable name programs config) : Kept rank config := by
  induction hreachable with
  | refl => intro i session hi; cases hi
  | tail _ hstep ih => exact ih.step hprograms hstep

theorem not_deadlocked (hname : ∀ a b : L, name a = name b → rank a = rank b)
    (hprograms : ∀ body, programs body → body.Ordered rank [])
    (hreachable : Reachable name programs config) :
    ¬ Deadlocked name config := by
  rintro ⟨i, hcycle⟩
  have hkept := hreachable.kept hprograms
  have hrises : Relation.TransGen (· < ·) (wanted rank config i) (wanted rank config i) :=
    hcycle.lift (wanted rank config) fun _ _ hwaits => hkept.wanted_lt hname hwaits
  rw [Relation.transGen_eq_self] at hrises
  exact lt_irrefl _ hrises

end Order

end Locks
