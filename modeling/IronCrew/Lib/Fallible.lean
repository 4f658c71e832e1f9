import IronCrew.Lib.Outcome

/-!
# Computations that fail and keep their state

`EStateM ε σ` is the monad of code that changes a state and may stop with an error: the changes made
before the error stay. `Meets` says what one such computation does from one state, whichever way it
ends, and the rules here take it apart along the structure of the program.
-/

namespace Fallible

variable {ε σ α β : Type}

def lift (result : Except ε α) : EStateM ε σ α := fun state =>
  match result with
  | .ok value => .ok value state
  | .error error => .error error state

instance monadLiftExcept : MonadLift (Except ε) (EStateM ε σ) where
  monadLift := lift

theorem get_apply (state : σ) : (EStateM.get : EStateM ε σ σ) state = .ok state state := rfl

def attempt (m : EStateM ε σ α) : EStateM ε σ (Except ε α) := fun state =>
  match m state with
  | .ok value state => .ok (.ok value) state
  | .error error state => .ok (.error error) state

/-- From this state the computation returns in `post`, or fails in `fail`. -/
def Meets (m : EStateM ε σ α) (state : σ) (post : α → σ → Prop) (fail : ε → σ → Prop) : Prop :=
  match m state with
  | .ok value state => post value state
  | .error error state => fail error state

variable {m : EStateM ε σ α} {f : α → EStateM ε σ β} {state : σ}
  {post post' : α → σ → Prop} {fail fail' : ε → σ → Prop}

theorem Meets.weaken (hm : Meets m state post fail)
    (hpost : ∀ value state, post value state → post' value state)
    (hfail : ∀ error state, fail error state → fail' error state) :
    Meets m state post' fail' := by
  unfold Meets at hm ⊢
  cases hrun : m state with
  | ok value after => rw [hrun] at hm; exact hpost value after hm
  | error error after => rw [hrun] at hm; exact hfail error after hm

theorem meets_pure {value : α} (hpost : post value state) :
    Meets (pure value) state post fail := hpost

theorem meets_throw {error : ε} (hfail : fail error state) :
    Meets (throw error) state post fail := hfail

theorem Meets.bind {post : β → σ → Prop}
    (hm : Meets m state (fun value after => Meets (f value) after post fail) fail) :
    Meets (m >>= f) state post fail := by
  unfold Meets at hm ⊢
  simp only [Bind.bind, EStateM.bind]
  cases hrun : m state with
  | ok value after => rw [hrun] at hm; exact hm
  | error error after => rw [hrun] at hm; exact hm

theorem meets_lift {result : Except ε α} (hok : ∀ value, result = .ok value → post value state)
    (herror : ∀ error, result = .error error → fail error state) :
    Meets (lift result) state post fail := by
  unfold Meets lift
  cases result with
  | ok value => exact hok value rfl
  | error error => exact herror error rfl

theorem Meets.attempt {post : Except ε α → σ → Prop}
    (hm : Meets m state (fun value after => post (.ok value) after)
      (fun error after => post (.error error) after)) :
    Meets (attempt m) state post fail := by
  unfold Meets at hm ⊢
  simp only [Fallible.attempt]
  cases hrun : m state with
  | ok value after => rw [hrun] at hm; exact hm
  | error error after => rw [hrun] at hm; exact hm

end Fallible

/-!
## The kinds of errors

A caller that tells errors apart relies on what a computation can fail with. `Within` says it of the
result of a check and `FailsWithin` of a computation with a state, and the rules follow the structure
of the program.
-/

namespace ErrorKinds

open Fallible Outcome

variable {ε σ α β : Type} {P : ε → Prop}

def Within (P : ε → Prop) (result : Except ε α) : Prop :=
  ∀ error, result = .error error → P error

theorem within_ok {value : α} : Within P (.ok value) := by
  intro error herror
  cases herror

theorem within_error {error : ε} (herror : P error) : Within P (.error error : Except ε α) := by
  intro found hfound
  cases hfound
  exact herror

theorem within_ensure {condition : Prop} [Decidable condition] {error : ε} (herror : P error) :
    Within P (ensure condition error) := by
  unfold ensure
  split
  · exact within_ok
  · exact within_error herror

theorem within_require {error : ε} {option : Option α} (herror : P error) :
    Within P (require error option) := by
  cases option with
  | none => exact within_error herror
  | some value => exact within_ok

theorem within_mapError {ε' : Type} {result : Except ε' α} {f : ε' → ε} (hf : ∀ error, P (f error)) :
    Within P (result.mapError f) := by
  cases result with
  | error error => exact within_error (hf error)
  | ok value => exact within_ok

/-- The rest of the computation may rely on the value that it is given. -/
theorem Within.bind_of_ok {result : Except ε α} {f : α → Except ε β} (hresult : Within P result)
    (hf : ∀ value, result = .ok value → Within P (f value)) : Within P (result >>= f) := by
  cases result with
  | error error => exact within_error (hresult error rfl)
  | ok value => exact hf value rfl

theorem Within.bind {result : Except ε α} {f : α → Except ε β} (hresult : Within P result)
    (hf : ∀ value, Within P (f value)) : Within P (result >>= f) := by
  cases result with
  | error error => exact within_error (hresult error rfl)
  | ok value => exact hf value

theorem within_option_forM {option : Option α} {check : α → Except ε PUnit}
    (hcheck : ∀ value, Within P (check value)) : Within P (option.forM check) := by
  cases option with
  | none => exact within_ok
  | some value => exact hcheck value

def FailsWithin (P : ε → Prop) (m : EStateM ε σ α) : Prop :=
  ∀ state, Meets m state (fun _ _ => True) fun error _ => P error

theorem failsWithin_pure {value : α} : FailsWithin P (pure value : EStateM ε σ α) :=
  fun _ => trivial

theorem failsWithin_throw {error : ε} (herror : P error) :
    FailsWithin P (throw error : EStateM ε σ α) :=
  fun _ => herror

theorem failsWithin_get : FailsWithin P (get : EStateM ε σ σ) :=
  fun _ => trivial

theorem failsWithin_modify {f : σ → σ} : FailsWithin P (modify f : EStateM ε σ PUnit) :=
  fun _ => trivial

theorem failsWithin_lift {result : Except ε α} (hresult : Within P result) :
    FailsWithin P (lift result : EStateM ε σ α) :=
  fun _ => meets_lift (fun _ _ => trivial) hresult

theorem FailsWithin.bind {m : EStateM ε σ α} {f : α → EStateM ε σ β} (hm : FailsWithin P m)
    (hf : ∀ value, FailsWithin P (f value)) : FailsWithin P (m >>= f) := by
  intro state
  apply Meets.bind
  exact (hm state).weaken (fun value after _ => hf value after) fun _ _ h => h

end ErrorKinds
