import BitTerms.Engine

/-!
# Running steps

What a step of an `Action` comes to, part by part: the equations for sequences of steps, and
`Action.Ends`, which speaks about both ways in which a step can end.
-/

namespace BitTerms.Action

variable {ε σ α β : Type}

/-! ## Equations -/

theorem bind_apply (action : EStateM ε σ α) (next : α → EStateM ε σ β) (state : σ) :
    (action >>= next) state =
      match action state with
      | .ok result state => next result state
      | .error error state => .error error state := by
  change EStateM.bind action next state = _
  unfold EStateM.bind
  cases action state <;> rfl

theorem pure_apply (result : α) (state : σ) :
    (pure result : EStateM ε σ α) state = .ok result state := rfl

theorem get_apply (state : σ) : (get : EStateM ε σ σ) state = .ok state state := rfl

theorem modify_apply (change : σ → σ) (state : σ) :
    (modify change : EStateM ε σ PUnit) state = .ok ⟨⟩ (change state) := rfl

theorem throw_apply (error : ε) (state : σ) :
    (throw error : EStateM ε σ α) state = .error error state := rfl

theorem map_apply (transform : α → β) (action : EStateM ε σ α) (state : σ) :
    (transform <$> action) state =
      match action state with
      | .ok result state => .ok (transform result) state
      | .error error state => .error error state := by
  change EStateM.map transform action state = _
  unfold EStateM.map
  cases action state <;> rfl

theorem bind_eq_ok_iff {action : EStateM ε σ α} {next : α → EStateM ε σ β} {state last : σ}
    {result : β} :
    (action >>= next) state = .ok result last ↔
      ∃ first middle, action state = .ok first middle ∧ next first middle = .ok result last := by
  rw [bind_apply]
  cases action state <;> simp [and_assoc]

/-- What comes after a step has to agree only where the step leads. -/
theorem bind_congr {action : EStateM ε σ α} {left right : α → EStateM ε σ β} {state : σ}
    (agree : ∀ first middle, action state = .ok first middle →
      left first middle = right first middle) :
    (action >>= left) state = (action >>= right) state := by
  rw [bind_apply, bind_apply]
  cases ran : action state with
  | ok first middle => exact agree first middle ran
  | error error middle => rfl

theorem lift_ok_apply (result : α) (state : σ) :
    (liftM (Except.ok result : Except Error α) : Action σ α) state = .ok result state := rfl

theorem lift_error_apply (error : Error) (state : σ) :
    (liftM (Except.error error : Except Error α) : Action σ α) state = .error error state := rfl

/-! ## Both ends of a step -/

/-- An outcome is `made` a result in the state it leaves, or `failed` with an error there. -/
def Ends (made : α → σ → Prop) (failed : ε → σ → Prop) : EStateM.Result ε σ α → Prop
  | .ok result state => made result state
  | .error error state => failed error state

variable {made : α → σ → Prop} {failed : ε → σ → Prop}

@[simp] theorem ends_ok (result : α) (state : σ) :
    Ends made failed (.ok result state) ↔ made result state := Iff.rfl

@[simp] theorem ends_error (error : ε) (state : σ) :
    Ends made failed (.error error state) ↔ failed error state := Iff.rfl

theorem ends_bind {joined : β → σ → Prop} (action : EStateM ε σ α) (next : α → EStateM ε σ β)
    (state : σ) :
    Ends joined failed ((action >>= next) state) ↔
      Ends (fun result state => Ends joined failed (next result state)) failed
        (action state) := by
  rw [bind_apply]
  cases action state <;> rfl

theorem Ends.imp {outcome : EStateM.Result ε σ α} {made' : α → σ → Prop}
    {failed' : ε → σ → Prop} (ends : Ends made failed outcome)
    (onMade : ∀ result state, made result state → made' result state)
    (onFailed : ∀ error state, failed error state → failed' error state) :
    Ends made' failed' outcome := by
  cases outcome with
  | ok result state => exact onMade result state ends
  | error error state => exact onFailed error state ends

theorem Ends.of_ok {outcome : EStateM.Result ε σ α} {result : α} {state : σ}
    (ends : Ends made failed outcome) (isOk : outcome = .ok result state) : made result state := by
  subst isOk
  exact ends

theorem ends_map {made : β → σ → Prop} (transform : α → β) (action : EStateM ε σ α) (state : σ) :
    Ends made failed ((transform <$> action) state) ↔
      Ends (fun result state => made (transform result) state) failed (action state) := by
  rw [map_apply]
  cases action state <;> rfl

end BitTerms.Action
