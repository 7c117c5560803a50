/-
**Labels: what a program has learned when it performs an operation.**

The meaning of an operation often depends on what its program has seen before: for whom it works,
what it was refused.  A label is computed from the answers to the earlier operations, and a program
may be read with its operations labelled.  What its operations can be, label by label, is a
judgement on the program alone; it holds under every interleaving, whatever the answers are.

Main definitions:

* `Prog.tag` — a program whose operations are labelled;
* `Prog.Along` — the judgement: every operation suits its label, and every ending the last label.

Main results:

* `Along.bind`, `Along.tryCatch`, `Along.foldEach` — one rule for each way of composing;
* `Along.usesOn_tag` — the operations of the labelled program;
* `Pool.uses_of_reaches` — what calls side by side may be about to perform.
-/

import TradePulse.Process.Pool

set_option autoImplicit false

namespace Process

namespace Prog

variable {ε Op γ : Type} {Res : Op → Type} {α β : Type}

/-- Label each operation of a program with what the program has learned from the earlier ones. -/
def tag (learn : γ → (o : Op) → Except ε (Res o) → γ) (g : γ) :
    Prog ε Res α → Prog ε (fun o : γ × Op => Res o.2) α
  | done a => done a
  | fail e => fail e
  | step o next => step (g, o) fun r => (next r).tag learn (learn g o r)

/-- Every operation the program can perform is in `A`, as long as the answers to its operations are
among those that `ans` allows; any of them may raise anything. -/
def UsesOn (ans : (o : Op) → Res o → Prop) (A : Op → Prop) : Prog ε Res α → Prop
  | done _ => True
  | fail _ => True
  | step o next =>
      A o ∧ (∀ r, ans o r → (next (.ok r)).UsesOn ans A) ∧ ∀ e, (next (.error e)).UsesOn ans A

/-- Starting with the label `g`, every operation suits its label by `A`, and the program returns
with `Q` and raises with `E` of the last label. -/
def Along (learn : γ → (o : Op) → Except ε (Res o) → γ) (ans : (o : Op) → Res o → Prop)
    (A : γ → Op → Prop) (g : γ) :
    Prog ε Res α → (γ → α → Prop) → (γ → ε → Prop) → Prop
  | done a, Q, _ => Q g a
  | fail e, _, E => E g e
  | step o next, Q, E =>
      A g o ∧ (∀ r, ans o r → (next (.ok r)).Along learn ans A (learn g o (.ok r)) Q E) ∧
        ∀ e, (next (.error e)).Along learn ans A (learn g o (.error e)) Q E

namespace Along

variable {learn : γ → (o : Op) → Except ε (Res o) → γ} {ans : (o : Op) → Res o → Prop}
  {A : γ → Op → Prop} {g : γ} {Q Q' : γ → α → Prop} {E E' : γ → ε → Prop}

theorem mono (hQ : ∀ g a, Q g a → Q' g a) (hE : ∀ g e, E g e → E' g e) :
    ∀ {p : Prog ε Res α} {g : γ}, p.Along learn ans A g Q E → p.Along learn ans A g Q' E'
  | done a, g, h => hQ g a h
  | fail e, g, h => hE g e h
  | step _ _, _, h => ⟨h.1, fun r hr => mono hQ hE (h.2.1 r hr), fun e => mono hQ hE (h.2.2 e)⟩

/-- **Sequential composition.** -/
theorem bind {f : α → Prog ε Res β} {Q' : γ → β → Prop}
    (hf : ∀ g a, Q g a → (f a).Along learn ans A g Q' E) :
    ∀ {p : Prog ε Res α} {g : γ}, p.Along learn ans A g Q E → (p.bind f).Along learn ans A g Q' E
  | done a, g, h => hf g a h
  | fail _, _, h => h
  | step _ _, _, h => ⟨h.1, fun r hr => bind hf (h.2.1 r hr), fun e => bind hf (h.2.2 e)⟩

/-- **Exception handling.** -/
theorem tryCatch {h : ε → Prog ε Res α} {F : γ → ε → Prop}
    (hh : ∀ g e, F g e → (h e).Along learn ans A g Q E) :
    ∀ {p : Prog ε Res α} {g : γ}, p.Along learn ans A g Q F →
      (p.tryCatch h).Along learn ans A g Q E
  | done _, _, hp => hp
  | fail e, g, hp => hh g e hp
  | step _ _, _, hp =>
      ⟨hp.1, fun r hr => tryCatch hh (hp.2.1 r hr), fun e => tryCatch hh (hp.2.2 e)⟩

theorem ofExcept {x : Except ε α} (hok : ∀ a, x = .ok a → Q g a) (herr : ∀ e, x = .error e → E g e) :
    (Prog.ofExcept x : Prog ε Res α).Along learn ans A g Q E := by
  cases x with
  | ok a => exact hok a rfl
  | error e => exact herr e rfl

/-- **One operation.** -/
theorem perform {o : Op} {Q : γ → Res o → Prop} (hA : A g o)
    (hok : ∀ r, ans o r → Q (learn g o (.ok r)) r) (herr : ∀ e, E (learn g o (.error e)) e) :
    (Prog.perform o : Prog ε Res (Res o)).Along learn ans A g Q E :=
  ⟨hA, hok, herr⟩

/-- **Loops over a list**: an assertion on the label and the accumulator. -/
theorem foldEach {δ : Type} {f : δ → β → Prog ε Res δ} {L : γ → δ → Prop} :
    ∀ {bs : List β}, (∀ g c, ∀ b ∈ bs, L g c → (f c b).Along learn ans A g L E) →
      ∀ {g : γ} {c : δ}, L g c → (Prog.foldEach bs c f).Along learn ans A g L E
  | [], _, _, _, h => h
  | b :: _, hf, g, c, h =>
      bind (fun _ _ h' => foldEach (fun g c b' hb' => hf g c b' (List.mem_cons_of_mem b hb')) h')
        (hf g c b List.mem_cons_self h)

theorem of_uses {B : Op → Prop} {I : γ → Prop} (hA : ∀ g o, I g → B o → A g o)
    (hlearn : ∀ g o r, I g → B o → I (learn g o r)) :
    ∀ {p : Prog ε Res α} {g : γ}, I g → p.Uses B →
      p.Along learn ans A g (fun g _ => I g) fun g _ => I g
  | done _, _, hg, _ => hg
  | fail _, _, hg, _ => hg
  | step o _, g, hg, hp =>
      ⟨hA g o hg hp.1, fun _ _ => of_uses hA hlearn (hlearn g o _ hg hp.1) (hp.2 _),
        fun _ => of_uses hA hlearn (hlearn g o _ hg hp.1) (hp.2 _)⟩

theorem usesOn_tag : ∀ {p : Prog ε Res α} {g : γ}, p.Along learn ans A g Q E →
    (p.tag learn g).UsesOn (fun (o : γ × Op) r => ans o.2 r) fun o : γ × Op => A o.1 o.2
  | done _, _, _ => trivial
  | fail _, _, _ => trivial
  | step _ _, _, h =>
      ⟨h.1, fun r hr => usesOn_tag (h.2.1 r hr), fun e => usesOn_tag (h.2.2 e)⟩

end Along

end Prog

/-! ### Calls side by side -/

variable {σ ι ε κ τ Op : Type} {Res : Op → Type} {sys : System σ ι ε κ τ Res}
  {ans : (o : Op) → Res o → Prop} {A : Op → Prop}

/-- The answers of the system are among those that `ans` allows. -/
def System.Gives (sys : System σ ι ε κ τ Res) (ans : (o : Op) → Res o → Prop) : Prop :=
  ∀ o i s r s', sys.exec o i s = .ok (r, s') → ans o r

theorem System.Gives.advance (hans : sys.Gives ans) {i : ι} {s s' : σ} {p p' : Prog ε Res Unit}
    (hp : p.UsesOn ans A) (h : sys.advance i s p = some (s', p')) : p'.UsesOn ans A := by
  cases p with
  | done a => simp [System.advance] at h
  | fail e => simp [System.advance] at h
  | step o next =>
      simp only [System.advance] at h
      split at h
      · rename_i r t hx
        cases h
        exact hp.2.1 r (hans o i s r _ hx)
      · cases h
        exact hp.2.2 _

/-- **Calls side by side perform only what each of them may perform.** -/
theorem Pool.uses_of_reaches {ok : Pool σ ε Res → Act ι ε κ τ → Prop} {s₀ : σ} {w : Pool σ ε Res}
    (hans : sys.Gives ans) (hcall : ∀ c, (sys.call c).UsesOn ans A)
    (h : (Pool.machine sys).Reaches ok ⟨s₀, []⟩ w) : ∀ p ∈ w.procs, p.UsesOn ans A := by
  refine h.invariant (I := fun w => ∀ p ∈ w.procs, p.UsesOn ans A) (by simp)
    fun w a w' hw _ hstep => ?_
  have set : ∀ {j : Nat} {p : Prog ε Res Unit}, p.UsesOn ans A →
      ∀ q ∈ w.procs.set j p, q.UsesOn ans A := by
    intro j p hp q hq
    rcases List.mem_or_eq_of_mem_set hq with hq | rfl
    · exact hw q hq
    · exact hp
  cases a with
  | start c =>
      obtain rfl : _ = w' := by simpa [Pool.machine, Pool.step] using hstep
      intro p hp
      rcases List.mem_append.1 hp with hp | hp
      · exact hw p hp
      · rw [List.mem_singleton.1 hp]
        exact hcall c
  | run j i =>
      simp only [Pool.machine, Pool.step, Option.bind_eq_some_iff, Option.map_eq_some_iff] at hstep
      obtain ⟨p, hj, ⟨s', p'⟩, ha, rfl⟩ := hstep
      exact set (hans.advance (hw p (List.mem_of_getElem? hj)) ha)
  | raise j e =>
      simp only [Pool.machine, Pool.step, Option.bind_eq_some_iff, Option.map_eq_some_iff] at hstep
      obtain ⟨p, hj, p', hi, rfl⟩ := hstep
      have hp := hw p (List.mem_of_getElem? hj)
      cases p with
      | done a => cases hi
      | fail e => cases hi
      | step o next =>
          cases hi
          exact set (hp.2.2 e)
  | crash j =>
      obtain rfl : _ = w' := by simpa [Pool.machine, Pool.step] using hstep
      exact set trivial
  | env t =>
      simp only [Pool.machine, Pool.step, Option.map_eq_some_iff] at hstep
      obtain ⟨s', -, rfl⟩ := hstep
      exact hw

/-- The operation that a call is about to perform. -/
theorem Pool.next_of_reaches {ok : Pool σ ε Res → Act ι ε κ τ → Prop} {s₀ : σ} {w : Pool σ ε Res}
    (hans : sys.Gives ans) (hcall : ∀ c, (sys.call c).UsesOn ans A)
    (h : (Pool.machine sys).Reaches ok ⟨s₀, []⟩ w) {j : Nat} {o : Op}
    (hnext : (w.procs[j]?).bind Prog.next? = some o) : A o := by
  obtain ⟨p, hp, hnext⟩ := Option.bind_eq_some_iff.1 hnext
  have huses := Pool.uses_of_reaches hans hcall h p (List.mem_of_getElem? hp)
  cases p with
  | done a => cases hnext
  | fail e => cases hnext
  | step o' next =>
      cases hnext
      exact huses.1

end Process
