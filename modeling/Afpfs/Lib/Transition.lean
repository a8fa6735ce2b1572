import Mathlib.Logic.Relation

/-!
# Runs of labelled transition systems

A system is a relation `step s a t`: in state `s` the action `a` may lead to `t`.  A `Run` is a
finite sequence of such steps with the list of its actions.

* `Run.invariant`: what holds at the start and is kept by every step holds at the end.
* `Guarded ok step`: the steps whose action meets the condition `ok` in the state it is taken
  in.  Runs of `Guarded ok step` are the runs all of whose steps meet the condition, and
  `Run.ofGuarded` forgets it.
* `Run.append` and `Run.split`: runs compose, and a run over `as ++ bs` passes through a state
  between the two parts.  "Every state reached" is therefore "the end of every run".
-/

set_option autoImplicit false

namespace Afpfs
namespace Transition

variable {σ α : Type*}

/-- A finite run of a labelled transition system, with the actions it takes. -/
inductive Run (step : σ → α → σ → Prop) : σ → List α → σ → Prop
  | nil (s : σ) : Run step s [] s
  | cons {s t u : σ} {a : α} {as : List α} :
      step s a t → Run step t as u → Run step s (a :: as) u

/-- The steps of a system whose action meets a condition on the state it is taken in. -/
def Guarded (ok : σ → α → Prop) (step : σ → α → σ → Prop) : σ → α → σ → Prop :=
  fun s a t => ok s a ∧ step s a t

variable {step : σ → α → σ → Prop}

/-- **The invariant rule.**  A property kept by every step is kept by every run. -/
theorem Run.invariant (I : σ → Prop) (hstep : ∀ s a t, step s a t → I s → I t) {s t : σ}
    {as : List α} (hrun : Run step s as t) (hs : I s) : I t := by
  induction hrun with
  | nil _ => exact hs
  | cons h _ ih => exact ih (hstep _ _ _ h hs)

/-- A run is a run of any system that allows its steps. -/
theorem Run.mono {step' : σ → α → σ → Prop} (hle : ∀ s a t, step s a t → step' s a t) {s t : σ}
    {as : List α} (hrun : Run step s as t) : Run step' s as t := by
  induction hrun with
  | nil s => exact .nil s
  | cons h _ ih => exact .cons (hle _ _ _ h) ih

/-- A step that meets the condition, before a run of such steps. -/
theorem Run.consGuarded {ok : σ → α → Prop} {s t u : σ} {a : α} {as : List α} (h : step s a t)
    (hok : ok s a) (hrun : Run (Guarded ok step) t as u) : Run (Guarded ok step) s (a :: as) u :=
  .cons ⟨hok, h⟩ hrun

/-- The condition on the steps of a run can be forgotten. -/
theorem Run.ofGuarded {ok : σ → α → Prop} {s t : σ} {as : List α}
    (hrun : Run (Guarded ok step) s as t) : Run step s as t :=
  hrun.mono fun _ _ _ h => h.2

/-- Runs compose. -/
theorem Run.append {s t u : σ} {as bs : List α} (h₁ : Run step s as t) (h₂ : Run step t bs u) :
    Run step s (as ++ bs) u := by
  induction h₁ with
  | nil _ => exact h₂
  | cons h _ ih => exact .cons h (ih h₂)

/-- A run over two lists of actions passes through a state between them. -/
theorem Run.split {s u : σ} {as bs : List α} (h : Run step s (as ++ bs) u) :
    ∃ t, Run step s as t ∧ Run step t bs u := by
  induction as generalizing s with
  | nil => exact ⟨s, .nil s, h⟩
  | cons a as ih =>
    cases h with
    | cons h₁ h₂ =>
      obtain ⟨t, hat, htb⟩ := ih h₂
      exact ⟨t, .cons h₁ hat, htb⟩

end Transition
end Afpfs
