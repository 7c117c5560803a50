/-
**Calls that run alone, each to its end.**

Where calls do not overlap, a call is a relation: between the store it starts from, the way it ends
and the store it leaves.  It ends by returning, by raising, or by crashing between two of its
operations; what it committed until then stays, and is logged.  Any operation may raise instead of being
performed, and what the world outside answers an operation is restricted by a predicate, so that a
statement can be about calls that all see one state of that world.

Main definitions:

* `Ending`, `Runs` — how a program ends, and what it does to the store until then;
* `Keeps` — what holds wherever a program stops, and of what it returns;
* `play`, `played` — the evaluation of a program on a list of answers.

Main results:

* `Runs.bind_inv`, `Runs.tryCatch_inv`, `Runs.perform_inv` — a composed program that ran;
* `Runs.bind_past` — a composed program that got past its first part;
* `Runs.rel_log`, `Runs.of_mem_log` — what every operation keeps, and what one established, holds in
  the end;
* `Runs.unchanged` — a program whose operations only read leaves the store as it was;
* `Keeps.bind` — the rule of `Keeps`;
* `runs_of_play` — an evaluated program ran.
-/

import TradePulse.Process.Program

set_option autoImplicit false

namespace Process

/-- How a call ends. -/
inductive Ending (ε α : Type)
  | returned (a : α)
  | raised (e : ε)
  | crashed
  deriving DecidableEq

section

variable {σ ι ε Op : Type} {Res : Op → Type} {α β : Type}
variable (exec : (o : Op) → ι → σ → Except ε (Res o × σ)) (world : Op → ι → Prop)

/-- A program runs alone from one store to another: the operations it commits, and how it ends. -/
inductive Runs {α : Type} : Prog ε Res α → σ → List Op → Ending ε α → σ → Prop
  | done (a : α) (s : σ) : Runs (.done a) s [] (.returned a) s
  | fail (e : ε) (s : σ) : Runs (.fail e) s [] (.raised e) s
  | crash (p : Prog ε Res α) (s : σ) : Runs p s [] .crashed s
  | ok {o : Op} {next : Except ε (Res o) → Prog ε Res α} {i : ι} {s s' t : σ} {r : Res o}
      {log : List Op} {x : Ending ε α} : world o i → exec o i s = .ok (r, s') →
      Runs (next (.ok r)) s' log x t → Runs (.step o next) s (o :: log) x t
  | error {o : Op} {next : Except ε (Res o) → Prog ε Res α} {i : ι} {s t : σ} {e : ε}
      {log : List Op} {x : Ending ε α} : world o i → exec o i s = .error e →
      Runs (next (.error e)) s log x t → Runs (.step o next) s log x t
  /-- An exception that comes from outside, instead of the operation. -/
  | raise {o : Op} {next : Except ε (Res o) → Prog ε Res α} {s t : σ} (e : ε) {log : List Op}
      {x : Ending ε α} : Runs (next (.error e)) s log x t → Runs (.step o next) s log x t

/-- Evaluate a program on a list of answers; an exception in the list is raised from outside, and
where the list ends early the program crashes. -/
def play [∀ o i, Decidable (world o i)] :
    Prog ε Res α → σ → List (Except ε ι) → Option (List Op × Ending ε α × σ)
  | .done a, s, [] => some ([], .returned a, s)
  | .fail e, s, [] => some ([], .raised e, s)
  | .step _ _, s, [] => some ([], .crashed, s)
  | .step o next, s, .ok i :: is =>
      if world o i then
        match exec o i s with
        | .ok (r, s') => (play (next (.ok r)) s' is).map fun q => (o :: q.1, q.2)
        | .error e => play (next (.error e)) s is
      else none
  | .step _ next, s, .error e :: is => play (next (.error e)) s is
  | _, _, _ => none

end

section

variable {σ ι ε Op : Type} {Res : Op → Type} {α β : Type}
variable {exec : (o : Op) → ι → σ → Except ε (Res o × σ)} {world : Op → ι → Prop}

/-- A run returned, or committed an operation outside `A`. -/
def Past {α : Type} (A : Op → Prop) (log : List Op) (x : Ending ε α) : Prop :=
  (∃ a, x = .returned a) ∨ ∃ o ∈ log, ¬ A o

/-- The last operations of a log, all before them being in `A`. -/
def Preceded (A : Op → Prop) (log rest : List Op) : Prop :=
  ∃ l, log = l ++ rest ∧ ∀ o ∈ l, A o

theorem Preceded.trans {A : Op → Prop} {log l l' : List Op} (h : Preceded A log l)
    (h' : Preceded A l l') : Preceded A log l' := by
  obtain ⟨k, rfl, hk⟩ := h
  obtain ⟨k', rfl, hk'⟩ := h'
  refine ⟨k ++ k', by rw [List.append_assoc], fun o ho => ?_⟩
  exact (List.mem_append.1 ho).elim (hk o) (hk' o)

namespace Runs

/-- A composed program: the first part ends it, or returns to the second. -/
theorem bind_inv {p : Prog ε Res α} {f : α → Prog ε Res β} {s t : σ} {log : List Op}
    {x : Ending ε β} (h : Runs exec world (p.bind f) s log x t) :
    (∃ a u l l', log = l ++ l' ∧ Runs exec world p s l (.returned a) u ∧
        Runs exec world (f a) u l' x t) ∨
      (∃ e, x = .raised e ∧ Runs exec world p s log (.raised e) t) ∨
      (x = .crashed ∧ Runs exec world p s log .crashed t) := by
  induction p generalizing s log with
  | done a => exact .inl ⟨a, s, [], log, rfl, .done a s, h⟩
  | fail e =>
      cases h with
      | fail => exact .inr (.inl ⟨e, rfl, .fail e _⟩)
      | crash => exact .inr (.inr ⟨rfl, .crash _ _⟩)
  | step o next ih =>
      cases h with
      | crash => exact .inr (.inr ⟨rfl, .crash _ _⟩)
      | ok hw hx hrest =>
          rcases ih _ hrest with ⟨a, u, l, l', rfl, hp, hf⟩ | ⟨e, he, hp⟩ | ⟨hc, hp⟩
          · exact .inl ⟨a, u, o :: l, l', rfl, .ok hw hx hp, hf⟩
          · exact .inr (.inl ⟨e, he, .ok hw hx hp⟩)
          · exact .inr (.inr ⟨hc, .ok hw hx hp⟩)
      | error hw hx hrest =>
          rcases ih _ hrest with ⟨a, u, l, l', rfl, hp, hf⟩ | ⟨e, he, hp⟩ | ⟨hc, hp⟩
          · exact .inl ⟨a, u, l, l', rfl, .error hw hx hp, hf⟩
          · exact .inr (.inl ⟨e, he, .error hw hx hp⟩)
          · exact .inr (.inr ⟨hc, .error hw hx hp⟩)
      | raise e hrest =>
          rcases ih _ hrest with ⟨a, u, l, l', rfl, hp, hf⟩ | ⟨e', he, hp⟩ | ⟨hc, hp⟩
          · exact .inl ⟨a, u, l, l', rfl, .raise e hp, hf⟩
          · exact .inr (.inl ⟨e', he, .raise e hp⟩)
          · exact .inr (.inr ⟨hc, .raise e hp⟩)

theorem bind_returned {p : Prog ε Res α} {f : α → Prog ε Res β} {s t : σ} {log : List Op} {b : β}
    (h : Runs exec world (p.bind f) s log (.returned b) t) :
    ∃ a u l l', log = l ++ l' ∧ Runs exec world p s l (.returned a) u ∧
      Runs exec world (f a) u l' (.returned b) t := by
  rcases bind_inv h with hboth | ⟨e, he, _⟩ | ⟨hc, _⟩
  · exact hboth
  · cases he
  · cases hc

/-- A program under a handler: it ends by itself, or raises to the handler. -/
theorem tryCatch_inv {p : Prog ε Res α} {h : ε → Prog ε Res α} {s t : σ} {log : List Op}
    {x : Ending ε α} (hr : Runs exec world (p.tryCatch h) s log x t) :
    (∃ a, x = .returned a ∧ Runs exec world p s log (.returned a) t) ∨
      (∃ e u l l', log = l ++ l' ∧ Runs exec world p s l (.raised e) u ∧
        Runs exec world (h e) u l' x t) ∨
      (x = .crashed ∧ Runs exec world p s log .crashed t) := by
  induction p generalizing s log with
  | done a =>
      cases hr with
      | done => exact .inl ⟨a, rfl, .done a _⟩
      | crash => exact .inr (.inr ⟨rfl, .crash _ _⟩)
  | fail e => exact .inr (.inl ⟨e, s, [], log, rfl, .fail e s, hr⟩)
  | step o next ih =>
      cases hr with
      | crash => exact .inr (.inr ⟨rfl, .crash _ _⟩)
      | ok hw hx hrest =>
          rcases ih _ hrest with ⟨a, ha, hp⟩ | ⟨e, u, l, l', rfl, hp, hh⟩ | ⟨hc, hp⟩
          · exact .inl ⟨a, ha, .ok hw hx hp⟩
          · exact .inr (.inl ⟨e, u, o :: l, l', rfl, .ok hw hx hp, hh⟩)
          · exact .inr (.inr ⟨hc, .ok hw hx hp⟩)
      | error hw hx hrest =>
          rcases ih _ hrest with ⟨a, ha, hp⟩ | ⟨e, u, l, l', rfl, hp, hh⟩ | ⟨hc, hp⟩
          · exact .inl ⟨a, ha, .error hw hx hp⟩
          · exact .inr (.inl ⟨e, u, l, l', rfl, .error hw hx hp, hh⟩)
          · exact .inr (.inr ⟨hc, .error hw hx hp⟩)
      | raise e hrest =>
          rcases ih _ hrest with ⟨a, ha, hp⟩ | ⟨e', u, l, l', rfl, hp, hh⟩ | ⟨hc, hp⟩
          · exact .inl ⟨a, ha, .raise e hp⟩
          · exact .inr (.inl ⟨e', u, l, l', rfl, .raise e hp, hh⟩)
          · exact .inr (.inr ⟨hc, .raise e hp⟩)

theorem perform_inv {o : Op} {s t : σ} {log : List Op} {x : Ending ε (Res o)}
    (h : Runs exec world (Prog.perform o : Prog ε Res (Res o)) s log x t) :
    (∃ i r, world o i ∧ exec o i s = .ok (r, t) ∧ log = [o] ∧ (x = .returned r ∨ x = .crashed)) ∨
      (t = s ∧ log = [] ∧ (x = .crashed ∨ ∃ e, x = .raised e)) := by
  cases h with
  | crash => exact .inr ⟨rfl, rfl, .inl rfl⟩
  | ok hw hx hrest =>
      cases hrest with
      | done => exact .inl ⟨_, _, hw, hx, rfl, .inl rfl⟩
      | crash => exact .inl ⟨_, _, hw, hx, rfl, .inr rfl⟩
  | error hw hx hrest =>
      cases hrest with
      | fail => exact .inr ⟨rfl, rfl, .inr ⟨_, rfl⟩⟩
      | crash => exact .inr ⟨rfl, rfl, .inl rfl⟩
  | raise e hrest =>
      cases hrest with
      | fail => exact .inr ⟨rfl, rfl, .inr ⟨_, rfl⟩⟩
      | crash => exact .inr ⟨rfl, rfl, .inl rfl⟩

theorem perform_past {A : Op → Prop} {o : Op} {f : Res o → Prog ε Res β} {s t : σ} {log : List Op}
    {x : Ending ε β}
    (h : Runs exec world ((Prog.perform o : Prog ε Res (Res o)).bind f) s log x t)
    (hpast : Past A log x) :
    ∃ r i u l, world o i ∧ exec o i s = .ok (r, u) ∧ log = o :: l ∧
      Runs exec world (f r) u l x t := by
  have stopped : ∀ {y : Ending ε β}, Past A [] y → (∀ b, y ≠ .returned b) → False :=
    fun hp hy => by
      rcases hp with ⟨b, hb⟩ | ⟨o, ho, -⟩
      · exact hy b hb
      · cases ho
  rcases bind_inv h with ⟨r, u, l, l', rfl, hp, hf⟩ | ⟨e, rfl, hp⟩ | ⟨rfl, hp⟩
  · rcases perform_inv hp with ⟨i, r', hw, hx, rfl, hr | hr⟩ | ⟨_, _, hr | ⟨e, hr⟩⟩
    · cases hr
      exact ⟨r, i, u, l', hw, hx, rfl, hf⟩
    all_goals cases hr
  · rcases perform_inv hp with ⟨i, r', hw, hx, rfl, hr | hr⟩ | ⟨_, rfl, _⟩
    · cases hr
    · cases hr
    · exact (stopped hpast fun b hb => by cases hb).elim
  · rcases perform_inv hp with ⟨i, r', hw, hx, rfl, _⟩ | ⟨_, rfl, _⟩
    · exact ⟨r', i, t, [], hw, hx, rfl, .crash _ _⟩
    · exact (stopped hpast fun b hb => by cases hb).elim

theorem perform_returned {o : Op} {s t : σ} {log : List Op} {r : Res o}
    (h : Runs exec world (Prog.perform o : Prog ε Res (Res o)) s log (.returned r) t) :
    log = [o] ∧ ∃ i, world o i ∧ exec o i s = .ok (r, t) := by
  rcases perform_inv h with ⟨i, r', hw, hx, hlog, hr | hr⟩ | ⟨_, _, hr | ⟨e, hr⟩⟩
  · cases hr
    exact ⟨hlog, i, hw, hx⟩
  all_goals cases hr

theorem done_returned {a b : α} {s t : σ} {log : List Op}
    (h : Runs exec world (.done a : Prog ε Res α) s log (.returned b) t) :
    b = a ∧ t = s ∧ log = [] := by
  cases h
  exact ⟨rfl, rfl, rfl⟩

theorem ofExcept_returned {y : Except ε α} {a : α} {s t : σ} {log : List Op}
    (h : Runs exec world (Prog.ofExcept y : Prog ε Res α) s log (.returned a) t) :
    y = .ok a ∧ t = s ∧ log = [] := by
  cases y with
  | ok b =>
      obtain ⟨rfl, rfl, rfl⟩ := done_returned h
      exact ⟨rfl, rfl, rfl⟩
  | error e => cases h

theorem uses_log {A : Op → Prop} {p : Prog ε Res α} {s t : σ} {log : List Op} {x : Ending ε α}
    (h : Runs exec world p s log x t) (hp : p.Uses A) : ∀ o ∈ log, A o := by
  induction h with
  | done | fail | crash => simp
  | ok _ _ _ ih =>
      intro o ho
      rcases List.mem_cons.1 ho with rfl | hmem
      · exact hp.1
      · exact ih (hp.2 _) o hmem
  | error _ _ _ ih => exact ih (hp.2 _)
  | raise _ _ ih => exact ih (hp.2 _)

/-- A composed program that returned, or committed an operation that its first part does not use:
the first part returned, and what is left of the run is a run of the second. -/
theorem bind_past {A : Op → Prop} {p : Prog ε Res α} {f : α → Prog ε Res β} {s t : σ}
    {log : List Op} {x : Ending ε β} (h : Runs exec world (p.bind f) s log x t)
    (hpast : Past A log x) (hp : p.Uses A) :
    ∃ a u l l', Preceded A log l' ∧ Runs exec world p s l (.returned a) u ∧
      Runs exec world (f a) u l' x t ∧ Past A l' x := by
  have stopped : ∀ {y : Ending ε α}, Runs exec world p s log y t → (∀ b, x ≠ .returned b) →
      False := fun hpe hx => by
    rcases hpast with ⟨b, hb⟩ | ⟨o, ho, hA⟩
    · exact hx b hb
    · exact hA (hpe.uses_log hp o ho)
  rcases bind_inv h with ⟨a, u, l, l', rfl, hpa, hfa⟩ | ⟨e, rfl, hpe⟩ | ⟨rfl, hpc⟩
  · refine ⟨a, u, l, l', ⟨l, rfl, hpa.uses_log hp⟩, hpa, hfa, hpast.imp_right ?_⟩
    rintro ⟨o, ho, hA⟩
    exact ⟨o, (List.mem_append.1 ho).resolve_left fun hl => hA (hpa.uses_log hp o hl), hA⟩
  · exact (stopped hpe fun b hb => by cases hb).elim
  · exact (stopped hpc fun b hb => by cases hb).elim

/-- **The run rule**: a preorder that every committed operation keeps joins the two stores. -/
theorem rel_log {R : σ → σ → Prop} {A : Op → Prop} (hrefl : ∀ s, R s s)
    (htrans : ∀ s t u, R s t → R t u → R s u)
    (hop : ∀ o i s r s', A o → world o i → exec o i s = .ok (r, s') → R s s')
    {p : Prog ε Res α} {s t : σ} {log : List Op} {x : Ending ε α}
    (h : Runs exec world p s log x t) (hlog : ∀ o ∈ log, A o) : R s t := by
  induction h with
  | done | fail | crash => exact hrefl _
  | ok hw hx _ ih =>
      refine htrans _ _ _ (hop _ _ _ _ _ (hlog _ List.mem_cons_self) hw hx) (ih fun o ho => ?_)
      exact hlog o (List.mem_cons_of_mem _ ho)
  | error _ _ _ ih => exact ih hlog
  | raise _ _ ih => exact ih hlog

/-- The run rule, for a program that uses only such operations. -/
theorem rel {R : σ → σ → Prop} {A : Op → Prop} (hrefl : ∀ s, R s s)
    (htrans : ∀ s t u, R s t → R t u → R s u)
    (hop : ∀ o i s r s', A o → world o i → exec o i s = .ok (r, s') → R s s')
    {p : Prog ε Res α} {s t : σ} {log : List Op} {x : Ending ε α}
    (h : Runs exec world p s log x t) (hp : p.Uses A) : R s t :=
  h.rel_log hrefl htrans hop (h.uses_log hp)

/-- Operations that change nothing leave the store as it was. -/
theorem unchanged {A : Op → Prop}
    (hop : ∀ o i s r s', A o → world o i → exec o i s = .ok (r, s') → s' = s)
    {p : Prog ε Res α} {s t : σ} {log : List Op} {x : Ending ε α}
    (h : Runs exec world p s log x t) (hp : p.Uses A) : t = s :=
  h.rel (R := fun s t => t = s) (fun _ => rfl) (fun _ _ _ hst htu => htu.trans hst) hop hp

theorem of_mem_log {K : σ → Prop} {o : Op}
    (hop : ∀ i s r s', world o i → exec o i s = .ok (r, s') → K s')
    (hkeep : ∀ o' i s r s', world o' i → exec o' i s = .ok (r, s') → K s → K s')
    {p : Prog ε Res α} {s t : σ} {log : List Op} {x : Ending ε α}
    (h : Runs exec world p s log x t) (ho : o ∈ log) : K t := by
  have keep : ∀ {p : Prog ε Res α} {s t : σ} {log : List Op} {x : Ending ε α},
      Runs exec world p s log x t → K s → K t := fun h =>
    h.rel (R := fun s t => K s → K t) (fun _ hk => hk) (fun _ _ _ h₁ h₂ hk => h₂ (h₁ hk))
      (fun o' i s r s' _ hw hx => hkeep o' i s r s' hw hx) (Prog.uses_true _)
  induction h with
  | done | fail | crash => cases ho
  | ok hw hx hrest ih =>
      rcases List.mem_cons.1 ho with rfl | hmem
      · exact keep hrest (hop _ _ _ _ hw hx)
      · exact ih hmem
  | error _ _ _ ih => exact ih ho
  | raise _ _ ih => exact ih ho

end Runs

/-! ### What holds wherever a program stops -/

/-- Wherever the program stops, `I` holds if it held at the start; and what it returns satisfies
`Q`. -/
def Keeps (exec : (o : Op) → ι → σ → Except ε (Res o × σ)) (world : Op → ι → Prop) (I : σ → Prop)
    (p : Prog ε Res α) (Q : α → Prop) : Prop :=
  ∀ s log x t, I s → Runs exec world p s log x t → I t ∧ ∀ a, x = .returned a → Q a

namespace Keeps

variable {I : σ → Prop} {Q : α → Prop}

theorem done {a : α} (h : Q a) : Keeps exec world I (.done a) Q := by
  intro s log x t hs hr
  cases hr with
  | done => exact ⟨hs, fun _ hb => by cases hb; exact h⟩
  | crash => exact ⟨hs, fun _ hb => by cases hb⟩

theorem fail {e : ε} : Keeps exec world I (.fail e) Q := by
  intro s log x t hs hr
  cases hr <;> exact ⟨hs, fun _ hb => by cases hb⟩

theorem ofExcept {y : Except ε α} (h : ∀ a, y = .ok a → Q a) :
    Keeps exec world I (Prog.ofExcept y) Q := by
  cases y with
  | ok a => exact done (h a rfl)
  | error e => exact fail

theorem perform {o : Op} {Q : Res o → Prop}
    (h : ∀ i s r s', world o i → exec o i s = .ok (r, s') → I s → I s' ∧ Q r) :
    Keeps exec world I (Prog.perform o) Q := by
  intro s log x t hs hr
  rcases Runs.perform_inv hr with ⟨i, r, hw, hx, -, hend⟩ | ⟨rfl, -, hend⟩
  · obtain ⟨ht, hq⟩ := h i s r t hw hx hs
    refine ⟨ht, fun a ha => ?_⟩
    rcases hend with rfl | rfl
    · cases ha
      exact hq
    · cases ha
  · refine ⟨hs, fun a ha => ?_⟩
    rcases hend with rfl | ⟨e, rfl⟩ <;> cases ha

theorem bind {p : Prog ε Res α} {f : α → Prog ε Res β} {R : β → Prop}
    (hp : Keeps exec world I p Q) (hf : ∀ a, Q a → Keeps exec world I (f a) R) :
    Keeps exec world I (p.bind f) R := by
  intro s log x t hs hr
  rcases Runs.bind_inv hr with ⟨a, u, l, l', -, hpa, hfa⟩ | ⟨e, rfl, hpe⟩ | ⟨rfl, hpc⟩
  · obtain ⟨hu, hq⟩ := hp s l _ u hs hpa
    exact hf a (hq a rfl) u l' x t hu hfa
  · exact ⟨(hp s log _ t hs hpe).1, fun _ ha => by cases ha⟩
  · exact ⟨(hp s log _ t hs hpc).1, fun _ ha => by cases ha⟩

theorem tryCatch {p : Prog ε Res α} {h : ε → Prog ε Res α} (hp : Keeps exec world I p Q)
    (hh : ∀ e, Keeps exec world I (h e) Q) : Keeps exec world I (p.tryCatch h) Q := by
  intro s log x t hs hr
  rcases Runs.tryCatch_inv hr with ⟨a, rfl, hpa⟩ | ⟨e, u, l, l', -, hpe, hhe⟩ | ⟨rfl, hpc⟩
  · exact hp s log _ t hs hpa
  · exact hh e u l' x t (hp s l _ u hs hpe).1 hhe
  · exact ⟨(hp s log _ t hs hpc).1, fun _ ha => by cases ha⟩

/-- Where every operation keeps `I`. -/
theorem of_uses {A : Op → Prop}
    (hop : ∀ o i s r s', A o → world o i → exec o i s = .ok (r, s') → I s → I s')
    {p : Prog ε Res α} (hp : p.Uses A) : Keeps exec world I p fun _ => True := by
  intro s log x t hs hr
  have hrel := hr.rel (R := fun s t => I s → I t) (fun _ h => h) (fun _ _ _ h h' hs => h' (h hs))
    hop hp
  exact ⟨hrel hs, fun _ _ => trivial⟩

end Keeps

theorem runs_of_play [∀ o i, Decidable (world o i)] :
    ∀ {p : Prog ε Res α} {s t : σ} {is : List (Except ε ι)} {log : List Op} {x : Ending ε α},
      play exec world p s is = some (log, x, t) → Runs exec world p s log x t
  | .done a, s, t, is, log, x, h => by
      cases is with
      | nil =>
          cases h
          exact .done a s
      | cons i is => cases h
  | .fail e, s, t, is, log, x, h => by
      cases is with
      | nil =>
          cases h
          exact .fail e s
      | cons i is => cases h
  | .step o next, s, t, is, log, x, h => by
      cases is with
      | nil =>
          cases h
          exact .crash _ s
      | cons i is =>
          cases i with
          | error e => exact .raise e (runs_of_play h)
          | ok i =>
              simp only [play] at h
              split at h
              · rename_i hw
                split at h
                · rename_i r s' hx
                  obtain ⟨⟨log', x', t'⟩, hq, he⟩ := Option.map_eq_some_iff.1 h
                  cases he
                  exact .ok hw hx (runs_of_play hq)
                · rename_i e hx
                  exact .error hw hx (runs_of_play h)
              · cases h

/-- The store in which an evaluated program ends. -/
def played (exec : (o : Op) → ι → σ → Except ε (Res o × σ)) (world : Op → ι → Prop)
    [∀ o i, Decidable (world o i)] (p : Prog ε Res α) (s : σ) (is : List (Except ε ι)) : σ :=
  (play exec world p s is).elim s fun q => q.2.2

theorem runs_played_any [∀ o i, Decidable (world o i)] {p : Prog ε Res α} {s : σ}
    {is : List (Except ε ι)} {P : List Op → Ending ε α → Bool}
    (h : (play exec world p s is).any fun q => P q.1 q.2.1) :
    ∃ log x, Runs exec world p s log x (played exec world p s is) ∧ P log x = true := by
  obtain ⟨⟨log, x, t⟩, hp, hseen⟩ := (Option.any_eq_true _ _).1 h
  refine ⟨log, x, ?_, hseen⟩
  have ht : played exec world p s is = t := by simp [played, hp]
  rw [ht]
  exact runs_of_play hp

theorem runs_played [∀ o i, Decidable (world o i)] {p : Prog ε Res α} {s : σ}
    {is : List (Except ε ι)} (h : (play exec world p s is).isSome) :
    ∃ log x, Runs exec world p s log x (played exec world p s is) := by
  obtain ⟨q, hq⟩ := Option.isSome_iff_exists.1 h
  obtain ⟨log, x, hran, -⟩ :=
    runs_played_any (P := fun _ _ => true) ((Option.any_eq_true _ _).2 ⟨q, hq, rfl⟩)
  exact ⟨log, x, hran⟩

end

end Process
