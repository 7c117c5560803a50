/-
**Windows: one operation, and the next operation of the same call.**

A call that reads and then acts on what it read leaves a window between the two operations, in
which others may act.  What an operation needs the store to be when it is performed, the operation
right before it has found; so it still holds if nobody disturbs it in between.  This is reasoning
about positions: it speaks of the operation that a call is *about to* perform.

Main definitions:

* `Prog.Starts`, `Prog.Prepares` — every operation that needs a preparation comes right after one.

Main results:

* `Prog.Prepares.bind`, `Prog.Prepares.after`, `Prog.Prepares.tryCatch` — composed programs;
* `Lanes.prepared` — in every state reached, what a lane is about to perform finds what it needs.
-/

import TradePulse.Process.Lanes

set_option autoImplicit false

namespace Process

variable {ε Op : Type} {Res : Op → Type} {α β : Type}

namespace Prog

/-- The first operation is none of those that need a preparation. -/
def Starts (free : Op → Prop) (p : Prog ε Res α) : Prop := ∀ o, p.next? = some o → free o

theorem next?_lift {Op' : Type} {Res' : Op' → Type} (f : Op → Op')
    (p : Prog ε (fun o => Res' (f o)) α) : (p.lift f : Prog ε Res' α).next? = p.next?.map f := by
  cases p <;> rfl

theorem Starts.lift {Op' : Type} {Res' : Op' → Type} {f : Op → Op'} {free : Op' → Prop}
    {p : Prog ε (fun o => Res' (f o)) α} (h : p.Starts fun o => free (f o)) :
    (p.lift f : Prog ε Res' α).Starts free := by
  intro o ho
  rw [next?_lift, Option.map_eq_some_iff] at ho
  obtain ⟨o', ho', rfl⟩ := ho
  exact h o' ho'

/-- Every operation that is not `free` comes right after an operation whose result prepares it. -/
def Prepares (free : Op → Prop) (prep : (o : Op) → Res o → Op → Prop) : Prog ε Res α → Prop
  | done _ => True
  | fail _ => True
  | step o next =>
      (∀ r o', (next (.ok r)).next? = some o' → free o' ∨ prep o r o') ∧
        (∀ e, (next (.error e)).Starts free) ∧ ∀ x, (next x).Prepares free prep

variable {free : Op → Prop} {prep : (o : Op) → Res o → Op → Prop}

theorem starts_done (a : α) : (done a : Prog ε Res α).Starts free := nofun

theorem starts_fail (e : ε) : (fail e : Prog ε Res α).Starts free := nofun

theorem Uses.starts {p : Prog ε Res α} (h : p.Uses free) : p.Starts free := by
  intro o ho
  cases p with
  | step o' next =>
      obtain rfl : o' = o := by simpa [next?] using ho
      exact h.1
  | _ => cases ho

/-- A program of free operations needs no preparation. -/
theorem Uses.prepares : ∀ {p : Prog ε Res α}, p.Uses free → p.Prepares free prep
  | done _, _ => trivial
  | fail _, _ => trivial
  | step _ _, h => ⟨fun r _ ho => .inl ((h.2 (.ok r)).starts _ ho), fun e => (h.2 (.error e)).starts,
      fun x => Uses.prepares (h.2 x)⟩

theorem Starts.bind {p : Prog ε Res α} {f : α → Prog ε Res β} (hp : p.Starts free)
    (hf : ∀ a, (f a).Starts free) : (p.bind f).Starts free := by
  cases p with
  | done a => exact hf a
  | fail e => exact starts_fail e
  | step o next => exact fun o' ho => hp o' ho

theorem Starts.tryCatch {p : Prog ε Res α} {h : ε → Prog ε Res α} (hp : p.Starts free)
    (hh : ∀ e, (h e).Starts free) : (p.tryCatch h).Starts free := by
  cases p with
  | done a => exact starts_done a
  | fail e => exact hh e
  | step o next => exact fun o' ho => hp o' ho

namespace Prepares

/-- Sequential composition, when the second program starts with a free operation. -/
theorem bind {f : α → Prog ε Res β} (hf : ∀ a, (f a).Starts free ∧ (f a).Prepares free prep) :
    ∀ {p : Prog ε Res α}, p.Prepares free prep → (p.bind f).Prepares free prep
  | done a, _ => (hf a).2
  | fail _, _ => trivial
  | step o next, hp => by
      refine ⟨fun r o' ho => ?_, fun e => (hp.2.1 e).bind fun a => (hf a).1,
        fun x => bind hf (hp.2.2 x)⟩
      have ho : ((next (.ok r)).bind f).next? = some o' := ho
      cases hn : next (.ok r) with
      | done a =>
          rw [hn] at ho
          exact .inl ((hf a).1 o' ho)
      | fail e =>
          rw [hn] at ho
          cases ho
      | step o'' next' =>
          refine hp.1 r o' ?_
          rw [hn] at ho ⊢
          exact ho

/-- An operation, and a program that it prepares. -/
theorem after {o : Op} {f : Res o → Prog ε Res β}
    (hf : ∀ r, (∀ o', (f r).next? = some o' → free o' ∨ prep o r o') ∧ (f r).Prepares free prep) :
    ((perform o : Prog ε Res (Res o)).bind f).Prepares free prep := by
  refine ⟨fun r => (hf r).1, fun e => starts_fail e, ?_⟩
  rintro (e | r)
  · trivial
  · exact (hf r).2

theorem tryCatch {h : ε → Prog ε Res α} (hh : ∀ e, (h e).Starts free ∧ (h e).Prepares free prep) :
    ∀ {p : Prog ε Res α}, p.Prepares free prep → (p.tryCatch h).Prepares free prep
  | done _, _ => trivial
  | fail e, _ => (hh e).2
  | step o next, hp => by
      refine ⟨fun r o' ho => ?_, fun e => (hp.2.1 e).tryCatch fun e => (hh e).1,
        fun x => tryCatch hh (hp.2.2 x)⟩
      have ho : ((next (.ok r)).tryCatch h).next? = some o' := ho
      cases hn : next (.ok r) with
      | done a =>
          rw [hn] at ho
          cases ho
      | fail e =>
          rw [hn] at ho
          exact .inl ((hh e).1 o' ho)
      | step o'' next' =>
          refine hp.1 r o' ?_
          rw [hn] at ho ⊢
          exact ho

/-- Loops whose body starts with a free operation. -/
theorem foldEach {γ : Type} {f : γ → β → Prog ε Res γ}
    (hf : ∀ c b, (f c b).Starts free ∧ (f c b).Prepares free prep) :
    ∀ (bs : List β) (c : γ), (Prog.foldEach bs c f).Starts free ∧
      (Prog.foldEach bs c f).Prepares free prep
  | [], c => ⟨starts_done c, trivial⟩
  | b :: bs, c =>
      ⟨(hf c b).1.bind fun c' => (foldEach hf bs c').1, bind (foldEach hf bs) (hf c b).2⟩

theorem lift {Op' : Type} {Res' : Op' → Type} {f : Op → Op'} {free : Op' → Prop}
    {prep : (o : Op') → Res' o → Op' → Prop} :
    ∀ {p : Prog ε (fun o => Res' (f o)) α},
      p.Prepares (fun o => free (f o)) (fun o r o' => prep (f o) r (f o')) →
        (p.lift f : Prog ε Res' α).Prepares free prep
  | done _, _ => trivial
  | fail _, _ => trivial
  | step o next, hp => by
      refine ⟨fun r o' ho => ?_, fun e o' ho => ?_, fun x => lift (hp.2.2 x)⟩
      · have hlift : ((next (.ok r)).lift f : Prog ε Res' α).next? = some o' := ho
        rw [next?_lift, Option.map_eq_some_iff] at hlift
        obtain ⟨o'', hnext, rfl⟩ := hlift
        exact hp.1 r o'' hnext
      · have hlift : ((next (.error e)).lift f : Prog ε Res' α).next? = some o' := ho
        rw [next?_lift, Option.map_eq_some_iff] at hlift
        obtain ⟨o'', hnext, rfl⟩ := hlift
        exact hp.2.1 e o'' hnext

end Prepares

end Prog

/-! ### In lanes -/

namespace Lanes

variable {J σ ι κ τ : Type} [DecidableEq J] {sys : System σ ι ε κ τ Res}
  {free : Op → Prop} {prep : (o : Op) → Res o → Op → Prop}

/-- What the lanes are about to perform finds what it needs. -/
def Prepared (free : Op → Prop) (prep : (o : Op) → Res o → Op → Prop) (needs : Op → σ → Prop)
    (w : Lanes J σ ε Res) : Prop :=
  ∀ j, (w.proc j).Prepares free prep ∧
    ∀ o, (w.proc j).next? = some o → free o ∨ needs o w.store

/-- **What a lane is about to perform finds what it needs**, if the operation before it prepared
it, and no step disturbs what another lane needs. -/
theorem prepared {needs : Op → σ → Prop}
    {ok : Lanes J σ ε Res → LaneAct J ι ε κ τ → Prop}
    (hcall : ∀ c, (sys.call c).Starts free ∧ (sys.call c).Prepares free prep)
    (hprep : ∀ o i s s' r o', sys.exec o i s = .ok (r, s') → prep o r o' → needs o' s')
    (hlane : ∀ w w' j k i o, ok w (.run k i) → (machine sys).step w (.run k i) = some w' → j ≠ k →
      (w.proc j).next? = some o → needs o w.store → needs o w'.store)
    (henv : ∀ t s s' o, sys.env t s = some s' → needs o s → needs o s')
    {w w' : Lanes J σ ε Res} (hw : Prepared free prep needs w)
    (hr : (machine sys).Reaches ok w w') : Prepared free prep needs w' := by
  refine hr.invariant hw fun v a v' hv hok hstep => ?_
  -- a lane that is started over, is over, or was interrupted needs nothing prepared
  have settle : ∀ (j : J) (p : Prog ε Res Unit), p.Starts free → p.Prepares free prep →
      Prepared free prep needs { v with proc := Function.update v.proc j p } := by
    intro j p hs hp k
    by_cases hk : k = j
    · subst hk
      simp only [Function.update_self]
      exact ⟨hp, fun o ho => .inl (hs o ho)⟩
    · simp only [Function.update_of_ne hk]
      exact hv k
  cases a with
  | start j c =>
      simp only [machine, step] at hstep
      split at hstep
      · cases hstep
        exact settle j _ (hcall c).1 (hcall c).2
      · cases hstep
  | crash j =>
      cases hstep
      exact settle j _ (Prog.starts_done _) trivial
  | raise j e =>
      simp only [machine, step, Option.map_eq_some_iff] at hstep
      obtain ⟨p, hi, rfl⟩ := hstep
      cases hproc : v.proc j with
      | step o next =>
          rw [hproc] at hi
          cases hi
          have hp := (hv j).1
          rw [hproc] at hp
          exact settle j _ (hp.2.1 e) (hp.2.2 _)
      | _ =>
          rw [hproc] at hi
          cases hi
  | env t =>
      simp only [machine, step, Option.map_eq_some_iff] at hstep
      obtain ⟨s', ht, rfl⟩ := hstep
      intro j
      exact ⟨(hv j).1, fun o ho => ((hv j).2 o ho).imp_right (henv t _ _ o ht)⟩
  | run k i =>
      have hothers : ∀ j, j ≠ k → ∀ o, (v.proc j).next? = some o → free o ∨ needs o v'.store :=
        fun j hj o ho => ((hv j).2 o ho).imp_right fun hn => hlane v v' j k i o hok hstep hj ho hn
      simp only [machine, step, Option.map_eq_some_iff] at hstep
      obtain ⟨⟨s', p'⟩, ha, rfl⟩ := hstep
      intro j
      by_cases hj : j = k
      · subst hj
        simp only [Function.update_self]
        have hp := (hv j).1
        cases hproc : v.proc j with
        | step o next =>
            rw [hproc] at ha hp
            simp only [System.advance] at ha
            cases hx : sys.exec o i v.store with
            | ok q =>
                obtain ⟨r, t⟩ := q
                rw [hx] at ha
                obtain ⟨rfl, rfl⟩ : t = s' ∧ next (.ok r) = p' := by simpa using ha
                refine ⟨hp.2.2 _, fun o' ho' => ?_⟩
                exact (hp.1 r o' ho').imp_right (hprep o i _ _ r o' hx)
            | error e =>
                rw [hx] at ha
                obtain ⟨rfl, rfl⟩ : v.store = s' ∧ next (.error e) = p' := by simpa using ha
                exact ⟨hp.2.2 _, fun o' ho' => .inl (hp.2.1 e o' ho')⟩
        | _ =>
            rw [hproc] at ha
            cases ha
      · simp only [Function.update_of_ne hj]
        exact ⟨(hv j).1, hothers j hj⟩

end Lanes

end Process
