/-
**Programs that commit at their end.**

A command reads, asks and checks, and writes in one transaction at its end.  If it fails anywhere
before that, or the transaction itself is refused, it has changed nothing.  The property is one of
the program alone: every operation that changes the store is the last one, and the program returns
after it.

Main definitions:

* `Prog.CommitsLast` — the property;
* `Act.IsOf` — the actions of one call.

Main results:

* `CommitsLast.read`, `CommitsLast.last`, `CommitsLast.lift` — how such programs are composed;
* `Pool.commitsLast_of_reaches`, `Pool.unchanged_or_done` — beside any other calls, such a call has
  changed nothing as long as it has not returned.
-/

import TradePulse.Process.Pool

set_option autoImplicit false

namespace Process

variable {σ ι ε κ τ Op : Type} {Res : Op → Type} {α β : Type}

namespace Prog

/-- After an operation that changes the store, the program returns. -/
def CommitsLast (exec : (o : Op) → ι → σ → Except ε (Res o × σ)) : Prog ε Res α → Prop
  | done _ => True
  | fail _ => True
  | step o next =>
      (∀ i s r s', exec o i s = .ok (r, s') → s' = s ∨ ∃ a, next (.ok r) = done a) ∧
        ∀ x, (next x).CommitsLast exec

namespace CommitsLast

variable {exec : (o : Op) → ι → σ → Except ε (Res o × σ)}

/-- An operation that changes nothing, and what follows it. -/
theorem read {o : Op} {f : Res o → Prog ε Res α}
    (ho : ∀ i s r s', exec o i s = .ok (r, s') → s' = s) (hf : ∀ r, (f r).CommitsLast exec) :
    (Prog.bind (perform o) f).CommitsLast exec := by
  refine ⟨fun i s r s' hx => .inl (ho i s r s' hx), ?_⟩
  rintro (e | r)
  · trivial
  · exact hf r

theorem last (o : Op) : (perform o : Prog ε Res (Res o)).CommitsLast exec := by
  refine ⟨fun i s r s' _ => .inr ⟨r, rfl⟩, ?_⟩
  rintro (e | r) <;> trivial

theorem ofExcept {x : Except ε α} {f : α → Prog ε Res β}
    (hf : ∀ a, x = .ok a → (f a).CommitsLast exec) :
    (Prog.bind (Prog.ofExcept x) f).CommitsLast exec := by
  cases x with
  | error e => trivial
  | ok a => exact hf a rfl

theorem map (g : α → β) : ∀ {p : Prog ε Res α}, p.CommitsLast exec →
    (p.bind fun a => done (g a)).CommitsLast exec
  | done _, _ => trivial
  | fail _, _ => trivial
  | step _ _, hp => by
      refine ⟨fun i s r s' hx => (hp.1 i s r s' hx).imp_right ?_, fun x => map g (hp.2 x)⟩
      rintro ⟨a, ha⟩
      refine ⟨g a, ?_⟩
      dsimp only
      rw [ha, done_bind]

/-- A program over fewer operations, as a program over more. -/
theorem lift {Op' ι' : Type} {Res' : Op' → Type} {f : Op → Op'}
    {exec : (o : Op) → ι → σ → Except ε (Res' (f o) × σ)}
    {exec' : (o : Op') → ι' → σ → Except ε (Res' o × σ)} (g : Op → ι' → ι)
    (hexec : ∀ o i s, exec' (f o) i s = exec o (g o i) s) :
    ∀ {p : Prog ε (fun o => Res' (f o)) α}, p.CommitsLast exec → (p.lift f).CommitsLast exec'
  | done _, _ => trivial
  | fail _, _ => trivial
  | step o next, hp => by
      refine ⟨fun i s r s' hx => ?_, fun x => lift g hexec (hp.2 x)⟩
      refine (hp.1 (g o i) s r s' (hexec o i s ▸ hx)).imp_right ?_
      rintro ⟨a, ha⟩
      refine ⟨a, ?_⟩
      dsimp only
      rw [ha]
      rfl

end CommitsLast

end Prog

/-- The actions of the call at an index. -/
def Act.IsOf (j : Nat) : Act ι ε κ τ → Prop
  | .run j' _ => j' = j
  | .raise j' _ => j' = j
  | .crash j' => j' = j
  | .start _ => False
  | .env _ => False

namespace Pool

variable {sys : System σ ι ε κ τ Res} {ok : Pool σ ε Res → Act ι ε κ τ → Prop}
  {w w' w₀ w₁ : Pool σ ε Res}

/-- A call in progress keeps the property, whatever else happens. -/
theorem commitsLast_of_reaches {c : κ} (hcall : (sys.call c).CommitsLast sys.exec)
    (hstart : (machine sys).step w₀ (.start c) = some w₁) (h : (machine sys).Reaches ok w₁ w) :
    ∃ p, w.procs[w₀.procs.length]? = some p ∧ p.CommitsLast sys.exec := by
  have other : ∀ {ps : List (Prog ε Res Unit)} {j : Nat} {p q : Prog ε Res Unit},
      ps[w₀.procs.length]? = some p → (j = w₀.procs.length → q.CommitsLast sys.exec) →
      p.CommitsLast sys.exec →
        ∃ p', (ps.set j q)[w₀.procs.length]? = some p' ∧ p'.CommitsLast sys.exec := by
    intro ps j p q hp hq hlast
    by_cases hj : j = w₀.procs.length
    · obtain ⟨hlt, -⟩ := List.getElem?_eq_some_iff.1 hp
      refine ⟨q, ?_, hq hj⟩
      rw [hj, List.getElem?_set_self hlt]
    · exact ⟨p, by rw [List.getElem?_set_ne hj]; exact hp, hlast⟩
  refine h.invariant (I := fun w => ∃ p, w.procs[w₀.procs.length]? = some p ∧
    p.CommitsLast sys.exec) ?_ fun w a w' hw _ hstep => ?_
  · obtain rfl : _ = w₁ := by simpa [machine, step] using hstart
    exact ⟨sys.call c, by simp, hcall⟩
  · obtain ⟨p, hp, hlast⟩ := hw
    cases a with
    | start c' =>
        obtain rfl : _ = w' := by simpa [machine, step] using hstep
        obtain ⟨hlt, -⟩ := List.getElem?_eq_some_iff.1 hp
        exact ⟨p, by rw [List.getElem?_append_left hlt]; exact hp, hlast⟩
    | run j i =>
        simp only [machine, step, Option.bind_eq_some_iff, Option.map_eq_some_iff] at hstep
        obtain ⟨p₁, hj, ⟨s', p'⟩, ha, rfl⟩ := hstep
        refine other hp (fun hjj => ?_) hlast
        obtain rfl : p₁ = p := by simpa [hjj, hp] using hj.symm
        cases p₁ with
        | done a => simp [System.advance] at ha
        | fail e => simp [System.advance] at ha
        | step o next =>
            simp only [System.advance] at ha
            split at ha <;> cases ha <;> exact hlast.2 _
    | raise j e =>
        simp only [machine, step, Option.bind_eq_some_iff, Option.map_eq_some_iff] at hstep
        obtain ⟨p₁, hj, p', hi, rfl⟩ := hstep
        refine other hp (fun hjj => ?_) hlast
        obtain rfl : p₁ = p := by simpa [hjj, hp] using hj.symm
        cases p₁ with
        | done a => cases hi
        | fail e => cases hi
        | step o next =>
            cases hi
            exact hlast.2 _
    | crash j =>
        obtain rfl : _ = w' := by simpa [machine, step] using hstep
        exact other hp (fun _ => trivial) hlast
    | env t =>
        simp only [machine, step, Option.map_eq_some_iff] at hstep
        obtain ⟨s', -, rfl⟩ := hstep
        exact ⟨p, hp, hlast⟩

/-- **A step of such a call changes nothing, or the call has returned.** -/
theorem unchanged_or_done {j : Nat} {a : Act ι ε κ τ} {p : Prog ε Res Unit}
    (hp : w.procs[j]? = some p) (hlast : p.CommitsLast sys.exec) (ha : a.IsOf j)
    (hstep : (machine sys).step w a = some w') :
    w'.store = w.store ∨ w'.procs[j]? = some (.done ()) := by
  cases a with
  | run j' i =>
      obtain rfl : j' = j := ha
      simp only [machine, step, Option.bind_eq_some_iff, Option.map_eq_some_iff] at hstep
      obtain ⟨p₁, hj, ⟨s', p'⟩, hadv, rfl⟩ := hstep
      obtain rfl : p₁ = p := by simpa [hp] using hj.symm
      obtain ⟨hlt, -⟩ := List.getElem?_eq_some_iff.1 hp
      cases p₁ with
      | done a => simp [System.advance] at hadv
      | fail e => simp [System.advance] at hadv
      | step o next =>
          simp only [System.advance] at hadv
          split at hadv
          · rename_i r t hx
            cases hadv
            refine (hlast.1 i w.store r _ hx).imp_right ?_
            rintro ⟨a, ha⟩
            rw [List.getElem?_set_self hlt, ha]
          · cases hadv
            exact .inl rfl
  | raise j' e =>
      simp only [machine, step, Option.bind_eq_some_iff, Option.map_eq_some_iff] at hstep
      obtain ⟨p₁, -, p', -, rfl⟩ := hstep
      exact .inl rfl
  | crash j' =>
      obtain rfl : _ = w' := by simpa [machine, step] using hstep
      exact .inl rfl
  | start c => cases ha
  | env t => cases ha

end Pool

end Process
