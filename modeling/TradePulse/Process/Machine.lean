/-
**Guarded transition machines.**

A machine is a partial step function: from a state and an action it either moves or the action is
not enabled.  A run is a list of actions; what a run reaches is what the fold of the step function
over the list returns, so a run on concrete data can be evaluated.

Many statements about a system are conditional: they hold in every run whose steps all meet some
condition on the state before the step.  `Machine.Reaches ok` is reachability through such steps
only, and plain reachability is the case of the trivial condition.

Main definitions:

* `Machine`, `Machine.runUnder` — a machine, and the evaluation of a list of actions that stops as
  soon as an action is not enabled or does not meet the condition;
* `Machine.Reaches` — the states reached through steps that meet the condition.

Main results:

* `Machine.Reaches.invariant` — a predicate kept by every step that meets the condition holds of
  every state reached;
* `Machine.Reaches.rel` — a reflexive and transitive relation that contains every such step
  relates the two ends of a run;
* `Machine.reaches_of_runUnder`, `Machine.exists_of_runUnder` — an evaluated run is a run.
-/

import Mathlib.Order.Defs.Unbundled
import Mathlib.Logic.Relation

set_option autoImplicit false

namespace Process

universe u v

/-- A machine: a partial step function on states `S` with actions `A`. -/
structure Machine (S : Type u) (A : Type v) where
  /-- The state after the action, if the action is enabled. -/
  step : S → A → Option S

namespace Machine

variable {S : Type u} {A : Type v} (M : Machine S A)

/-- The states reached from `s₀` through steps that meet the condition `ok`. -/
inductive Reaches (ok : S → A → Prop) (s₀ : S) : S → Prop
  | refl : Reaches ok s₀ s₀
  | tail {s s' : S} {a : A} : Reaches ok s₀ s → ok s a → M.step s a = some s' → Reaches ok s₀ s'

/-- Evaluate a list of actions, stopping with `none` at an action that is not enabled or does not
meet the condition. -/
def runUnder (ok : S → A → Prop) [∀ s a, Decidable (ok s a)] (s : S) : List A → Option S
  | [] => some s
  | a :: as => if ok s a then (M.step s a).bind fun s' => runUnder ok s' as else none

/-- Evaluate a list of actions without a condition. -/
def run (s : S) (as : List A) : Option S := M.runUnder (fun _ _ => True) s as

variable {M} {ok ok' : S → A → Prop} {s₀ s₁ s₂ : S}

namespace Reaches

theorem trans (h₁ : M.Reaches ok s₀ s₁) (h₂ : M.Reaches ok s₁ s₂) : M.Reaches ok s₀ s₂ := by
  induction h₂ with
  | refl => exact h₁
  | tail _ hok hstep ih => exact ih.tail hok hstep

theorem head {a : A} (hok : ok s₀ a) (hstep : M.step s₀ a = some s₁) (h : M.Reaches ok s₁ s₂) :
    M.Reaches ok s₀ s₂ :=
  (Reaches.refl.tail hok hstep).trans h

theorem mono (hle : ∀ s a, ok s a → ok' s a) (h : M.Reaches ok s₀ s₁) : M.Reaches ok' s₀ s₁ := by
  induction h with
  | refl => exact .refl
  | tail _ hok hstep ih => exact ih.tail (hle _ _ hok) hstep

/-- **The invariant rule.**  A predicate that holds initially and is kept by every step that meets
the condition holds of every state reached. -/
theorem invariant {I : S → Prop} (h₀ : I s₀)
    (hstep : ∀ s a s', I s → ok s a → M.step s a = some s' → I s') (h : M.Reaches ok s₀ s₁) :
    I s₁ := by
  induction h with
  | refl => exact h₀
  | tail _ hok hs ih => exact hstep _ _ _ ih hok hs

/-- **The run rule for relations.**  If, under an invariant, every step that meets the condition is
contained in a reflexive and transitive relation, then that relation joins the ends of a run. -/
theorem rel {I : S → Prop} {R : S → S → Prop} (hrefl : ∀ s, R s s)
    (htrans : ∀ s t u, R s t → R t u → R s u) (h₀ : I s₀)
    (hstep : ∀ s a s', I s → ok s a → M.step s a = some s' → I s' ∧ R s s')
    (h : M.Reaches ok s₀ s₁) : R s₀ s₁ := by
  have both : I s₁ ∧ R s₀ s₁ := by
    induction h with
    | refl => exact ⟨h₀, hrefl _⟩
    | tail _ hok hs ih =>
        have hnext := hstep _ _ _ ih.1 hok hs
        exact ⟨hnext.1, htrans _ _ _ ih.2 hnext.2⟩
  exact both.2

end Reaches

theorem reaches_of_runUnder [∀ s a, Decidable (ok s a)] :
    ∀ {as : List A} {s s' : S}, M.runUnder ok s as = some s' → M.Reaches ok s s'
  | [], s, s', h => by
      simp only [runUnder, Option.some.injEq] at h
      exact h ▸ .refl
  | a :: as, s, s', h => by
      simp only [runUnder] at h
      split at h
      · rename_i hok
        obtain ⟨t, ht, hrest⟩ := Option.bind_eq_some_iff.1 h
        exact .head hok ht (reaches_of_runUnder hrest)
      · exact absurd h (by simp)

theorem exists_of_runUnder [∀ s a, Decidable (ok s a)] {P : S → Prop} [DecidablePred P]
    {as : List A} {s : S} (h : (M.runUnder ok s as).any (fun t => decide (P t)) = true) :
    ∃ t, M.Reaches ok s t ∧ P t := by
  cases hrun : M.runUnder ok s as with
  | none =>
      rw [hrun] at h
      cases h
  | some t =>
      rw [hrun] at h
      exact ⟨t, reaches_of_runUnder hrun, by simpa using h⟩

theorem exists_of_run {P : S → Prop} [DecidablePred P] {as : List A} {s : S}
    (h : (M.run s as).any (fun t => decide (P t)) = true) :
    ∃ t, M.Reaches (fun _ _ => True) s t ∧ P t :=
  exists_of_runUnder h

end Machine

end Process
