/-
**Programs that run alone and undisturbed, and where an attempt stops.**

With no other writer, and with nothing raised from outside, a program is a function: of the store
and of what the world outside answers.  An attempt at it may be broken off between any two of its
operations, or by an exception from outside; the stores it may leave then are those of a prefix of
its operations.

Main definitions:

* `alone` — what a program does undisturbed;
* `Attempted` — any number of attempts, one after another;
* `undisturbed` — the setting in which an attempt is judged.

Main results:

* `alone_bind`, `alone_perform`, `alone_forEach_cons` — composed programs, undisturbed;
* `inv_of_runs`, `inv_of_attempted` — what every attempt leaves true.
-/

import TradePulse.Process.RelyGuarantee
import TradePulse.Process.Sequential
import Mathlib.Logic.Relation

set_option autoImplicit false

namespace Process

variable {σ ι ε Op : Type} {Res : Op → Type} {α β γ : Type}

section

variable (exec : (o : Op) → ι → σ → Except ε (Res o × σ))

/-- Run a program alone and undisturbed, with one answer of the world outside. -/
def alone (i : ι) : Prog ε Res α → σ → Except ε α × σ
  | .done a, s => (.ok a, s)
  | .fail e, s => (.error e, s)
  | .step o next, s =>
      match exec o i s with
      | .ok (r, s') => alone i (next (.ok r)) s'
      | .error e => alone i (next (.error e)) s

/-- Continue what a program did with a second one. -/
def andThen (x : Except ε α × σ) (f : α → σ → Except ε β × σ) : Except ε β × σ :=
  match x with
  | (.ok a, s) => f a s
  | (.error e, s) => (.error e, s)

@[simp] theorem andThen_ok (a : α) (s : σ) (f : α → σ → Except ε β × σ) :
    andThen (.ok a, s) f = f a s := rfl

@[simp] theorem andThen_error (e : ε) (s : σ) (f : α → σ → Except ε β × σ) :
    andThen (.error e, s) f = (.error e, s) := rfl

theorem andThen_eq_ok {x : Except ε α × σ} {f : α → σ → Except ε β × σ} {b : β} {t : σ}
    (h : andThen x f = (.ok b, t)) : ∃ a s, x = (.ok a, s) ∧ f a s = (.ok b, t) := by
  obtain ⟨x, s⟩ := x
  cases x with
  | ok a => exact ⟨a, s, rfl, h⟩
  | error e => cases h

/-- What one operation does. -/
def once (o : Op) (i : ι) (s : σ) : Except ε (Res o) × σ :=
  match exec o i s with
  | .ok (r, s') => (.ok r, s')
  | .error e => (.error e, s)

@[simp] theorem alone_done (i : ι) (a : α) (s : σ) :
    alone exec i (.done a : Prog ε Res α) s = (.ok a, s) := rfl

@[simp] theorem alone_fail (i : ι) (e : ε) (s : σ) :
    alone exec i (.fail e : Prog ε Res α) s = (.error e, s) := rfl

theorem alone_perform (i : ι) (o : Op) (s : σ) :
    alone exec i (Prog.perform o : Prog ε Res (Res o)) s = once exec o i s := by
  simp only [Prog.perform, alone, once]

theorem alone_ofExcept (i : ι) (x : Except ε α) (s : σ) :
    alone exec i (Prog.ofExcept x : Prog ε Res α) s = (x, s) := by
  cases x <;> rfl

theorem alone_bind (i : ι) (p : Prog ε Res α) (f : α → Prog ε Res β) (s : σ) :
    alone exec i (p.bind f) s = andThen (alone exec i p s) fun a t => alone exec i (f a) t := by
  induction p generalizing s with
  | done a => rfl
  | fail e => rfl
  | step o next ih =>
      simp only [Prog.step_bind, alone]
      cases exec o i s with
      | ok r => exact ih _ _
      | error e => exact ih _ _

theorem alone_perform_bind {i : ι} {o : Op} {s s' : σ} {r : Res o} (h : exec o i s = .ok (r, s'))
    (f : Res o → Prog ε Res β) :
    alone exec i ((Prog.perform o : Prog ε Res (Res o)).bind f) s = alone exec i (f r) s' := by
  rw [alone_bind, alone_perform, once, h, andThen_ok]

theorem alone_forEach_cons (i : ι) (b : γ) (bs : List γ) (f : γ → Prog ε Res Unit) (s : σ) :
    alone exec i (Prog.forEach (b :: bs) f) s
      = andThen (alone exec i (f b) s) fun _ t => alone exec i (Prog.forEach bs f) t := by
  rw [Prog.forEach, Prog.foldEach_cons, alone_bind]
  rfl

/-- Any number of attempts at a program, one after another, each of which may stop anywhere. -/
def Attempted (world : Op → ι → Prop) (p : Prog ε Res α) : σ → σ → Prop :=
  Relation.ReflTransGen fun s t => ∃ log x, Runs exec world p s log x t

/-- The setting of a program beside which nobody writes. -/
def undisturbed (world : Op → ι → Prop) (inv : σ → Prop) : Setting σ ι ε Res where
  exec := exec
  inv := inv
  rely s s' := s' = s
  cond o i _ := world o i
  guar _ _ _ := True

end

section

variable {exec : (o : Op) → ι → σ → Except ε (Res o × σ)} {world : Op → ι → Prop} {inv : σ → Prop}

theorem stable_undisturbed (K : σ → Prop) : (undisturbed exec world inv).Stable K := by
  rintro s s' - - hk rfl
  exact hk

/-- Wherever an attempt stops, the invariant holds. -/
theorem inv_of_runs {Q : α → σ → Prop} {E : ε → σ → Prop} {p : Prog ε Res α} {s t : σ}
    {log : List Op} {x : Ending ε α} (h : Runs exec world p s log x t) {K : σ → Prop}
    (hp : Sat (undisturbed exec world inv) p K Q E) (hs : inv s) (hk : K s) : inv t := by
  induction h generalizing K with
  | done | fail | crash => exact hs
  | ok hw hx _ ih =>
      obtain ⟨hs', -, K', -, hk', hrest⟩ := (hp.1 _ _ hs hk hw).1 _ _ hx
      exact ih hrest hs' hk'
  | error hw hx _ ih =>
      obtain ⟨K', -, hk', hrest⟩ := (hp.1 _ _ hs hk hw).2 _ hx
      exact ih hrest hs hk'
  | raise e _ ih => exact ih (hp.2 e) hs hk

/-- **What every attempt leaves true holds after any number of them.** -/
theorem inv_of_attempted {Q : α → σ → Prop} {E : ε → σ → Prop} {p : Prog ε Res α} {s t : σ}
    (h : Attempted exec world p s t) {K : σ → Prop} (hk : ∀ u, inv u → K u)
    (hp : Sat (undisturbed exec world inv) p K Q E) (hs : inv s) : inv t := by
  induction h with
  | refl => exact hs
  | tail _ hrun ih =>
      obtain ⟨log, x, hrun⟩ := hrun
      exact inv_of_runs hrun hp ih (hk _ ih)

end

end Process
