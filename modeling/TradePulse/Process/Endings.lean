/-
**How a call that runs alone may end.**

A program is a finite tree in each of its branches, so a call that runs alone ends.  Which
postconditions hold of its end, whatever the world outside answers and wherever one of its
operations raises, is computed from the program.  An operation that is refused may change the state
as well (a state may record what was tried), and an exception from outside comes only where `may`
allows it.

Main definitions:

* `Prog.Ends` — the postconditions hold however the program ends;
* `Prog.follow` — the end of a program on a list of answers.

Main results:

* `Ends.bind`, `Ends.tryCatch`, `Ends.foldEach` — one rule for each way of composing;
* `Ends.of_uses` — what every operation keeps;
* `Ends.of_follow` — the end that an evaluation shows is one of those judged.
-/

import TradePulse.Process.Program

set_option autoImplicit false

namespace Process

namespace Prog

variable {σ ι ε Op : Type} {Res : Op → Type} {α β γ : Type}

section

variable (exec : (o : Op) → ι → σ → Except ε (Res o) × σ) (may : Op → σ → Prop)

/-- However the program ends when it runs alone from `s`: it returns with `Q`, or raises with
`E`. -/
def Ends : Prog ε Res α → σ → (α → σ → Prop) → (ε → σ → Prop) → Prop
  | done a, s, Q, _ => Q a s
  | fail e, s, _, E => E e s
  | step o next, s, Q, E =>
      (∀ i, (next (exec o i s).1).Ends (exec o i s).2 Q E) ∧
        (may o s → ∀ e, (next (.error e)).Ends s Q E)

/-- Run a program on a list of answers; an exception in the list comes from outside. -/
def follow [∀ o s, Decidable (may o s)] :
    Prog ε Res α → σ → List (Except ε ι) → Option (Except ε α × σ)
  | done a, s, [] => some (.ok a, s)
  | fail e, s, [] => some (.error e, s)
  | step o next, s, .ok i :: is => (next (exec o i s).1).follow (exec o i s).2 is
  | step o next, s, .error e :: is => if may o s then (next (.error e)).follow s is else none
  | _, _, _ => none

end

variable {exec : (o : Op) → ι → σ → Except ε (Res o) × σ} {may : Op → σ → Prop}

namespace Ends

variable {Q Q' : α → σ → Prop} {E E' : ε → σ → Prop}

theorem mono (hQ : ∀ a s, Q a s → Q' a s) (hE : ∀ e s, E e s → E' e s) :
    ∀ {p : Prog ε Res α} {s : σ}, p.Ends exec may s Q E → p.Ends exec may s Q' E'
  | done a, s, h => hQ a s h
  | fail e, s, h => hE e s h
  | step _ _, _, h => ⟨fun i => mono hQ hE (h.1 i), fun hm e => mono hQ hE (h.2 hm e)⟩

/-- **Sequential composition.** -/
theorem bind {R : β → σ → Prop} {f : α → Prog ε Res β}
    (hf : ∀ a s, Q a s → (f a).Ends exec may s R E) :
    ∀ {p : Prog ε Res α} {s : σ}, p.Ends exec may s Q E → (p.bind f).Ends exec may s R E
  | done a, s, h => hf a s h
  | fail _, _, h => h
  | step _ _, _, h => ⟨fun i => bind hf (h.1 i), fun hm e => bind hf (h.2 hm e)⟩

/-- **Exception handling.** -/
theorem tryCatch {F : ε → σ → Prop} {h : ε → Prog ε Res α}
    (hh : ∀ e s, F e s → (h e).Ends exec may s Q E) :
    ∀ {p : Prog ε Res α} {s : σ}, p.Ends exec may s Q F → (p.tryCatch h).Ends exec may s Q E
  | done _, _, hp => hp
  | fail e, s, hp => hh e s hp
  | step _ _, _, hp => ⟨fun i => tryCatch hh (hp.1 i), fun hm e => tryCatch hh (hp.2 hm e)⟩

/-- **One operation.** -/
theorem perform {o : Op} {s : σ} {Q : Res o → σ → Prop}
    (hok : ∀ i r, (exec o i s).1 = .ok r → Q r (exec o i s).2)
    (herr : ∀ i e, (exec o i s).1 = .error e → E e (exec o i s).2)
    (hmay : may o s → ∀ e, E e s) : (Prog.perform o : Prog ε Res (Res o)).Ends exec may s Q E := by
  refine ⟨fun i => ?_, hmay⟩
  cases hx : (exec o i s).1 with
  | ok r => exact hok i r hx
  | error e => exact herr i e hx

theorem ofExcept {x : Except ε α} {s : σ} (hok : ∀ a, x = .ok a → Q a s)
    (herr : ∀ e, x = .error e → E e s) : (Prog.ofExcept x : Prog ε Res α).Ends exec may s Q E := by
  cases x with
  | ok a => exact hok a rfl
  | error e => exact herr e rfl

/-- **Loops over a list**: an assertion on what is left of the list and on the accumulator. -/
theorem foldEach {f : γ → β → Prog ε Res γ} {L : List β → γ → σ → Prop}
    (hf : ∀ b bs c s, L (b :: bs) c s → (f c b).Ends exec may s (L bs) E) :
    ∀ {bs : List β} {c : γ} {s : σ}, L bs c s → (Prog.foldEach bs c f).Ends exec may s (L []) E
  | [], _, _, h => h
  | b :: bs, c, s, h => bind (fun _ _ h' => foldEach hf h') (hf b bs c s h)

/-- **What every operation keeps**, refused or not. -/
theorem of_uses {R : σ → σ → Prop} {A : Op → Prop} (hrefl : ∀ s, R s s)
    (htrans : ∀ s t u, R s t → R t u → R s u) (hop : ∀ o i s, A o → R s (exec o i s).2) :
    ∀ {p : Prog ε Res α} (s : σ), p.Uses A →
      p.Ends exec may s (fun _ t => R s t) fun _ t => R s t
  | done _, s, _ => hrefl s
  | fail _, s, _ => hrefl s
  | step o _, s, hp => by
      refine ⟨fun i => ?_, fun _ e => of_uses hrefl htrans hop s (hp.2 _)⟩
      have hstep := hop o i s hp.1
      exact (of_uses hrefl htrans hop _ (hp.2 _)).mono (fun _ _ h => htrans _ _ _ hstep h)
        fun _ _ h => htrans _ _ _ hstep h

theorem of_follow [∀ o s, Decidable (may o s)] :
    ∀ {p : Prog ε Res α} {s t : σ} {is : List (Except ε ι)} {x : Except ε α},
      p.Ends exec may s Q E → p.follow exec may s is = some (x, t) →
        (∃ a, x = .ok a ∧ Q a t) ∨ ∃ e, x = .error e ∧ E e t
  | done a, _, _, [], _, h, hx => by
      cases hx
      exact .inl ⟨a, rfl, h⟩
  | fail e, _, _, [], _, h, hx => by
      cases hx
      exact .inr ⟨e, rfl, h⟩
  | step _ _, _, _, .ok i :: _, _, h, hx => of_follow (h.1 i) hx
  | step o _, s, _, .error e :: _, _, h, hx => by
      simp only [follow] at hx
      split at hx
      · rename_i hm
        exact of_follow (h.2 hm e) hx
      · cases hx
  | done _, _, _, _ :: _, _, _, hx => by cases hx
  | fail _, _, _, _ :: _, _, _, hx => by cases hx
  | step _ _, _, _, [], _, _, hx => by cases hx

end Ends

end Prog

end Process
