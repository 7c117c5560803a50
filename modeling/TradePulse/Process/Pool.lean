/-
**Calls that run, fail and crash over one store.**

A *system* offers calls, each of them a program over atomic operations, and a store that the world
outside may also change.  Two machines run the calls of a system.  In a `Pool` any number of calls
are in progress and their operations interleave in any order.  In a `Solo` machine a call starts
only when the one before it is over, as for a job that one supervisor repeats.

In both, the operation a call is about to perform may instead raise any exception, and a call may
crash between any two operations: it then performs nothing more, and what it committed stays.

Main definitions:

* `System`, `Act` — calls, operations, the world outside, and the actions of both machines;
* `Pool.machine`, `Solo.machine` — the two machines;
* `Pool.Meets`, `Solo.Meets` — the operation that an action performs meets a condition;
* `System.within`, `Pool.Within` — the world outside does only what it may.

Main results:

* `Pool.Sound.good` — if every call is judged in a setting whose rely contains what the other
  calls promise and what the world outside does, the invariant holds in every state reached;
* `Pool.reaches_within` — a run in which the world outside does only what it may is a run of the
  system that is restricted to it;
* `Solo.Sound.good` — the same for calls one after the other, where the rely is the world outside;
* `Solo.Sound.moves` — each step keeps the promise of the operation performed.
-/

import TradePulse.Process.Machine
import TradePulse.Process.RelyGuarantee

set_option autoImplicit false

namespace Process

variable {σ ι ε κ τ Op : Type} {Res : Op → Type}

/-- A system: what operations do, which calls there are, and what the world outside does to the
store. -/
structure System (σ ι ε κ τ : Type) {Op : Type} (Res : Op → Type) where
  /-- What an operation does: a result and a new store, or an exception and no change. -/
  exec : (o : Op) → ι → σ → Except ε (Res o × σ)
  /-- The calls that may be started. -/
  call : κ → Prog ε Res Unit
  /-- A change of the store from outside, where it is possible. -/
  env : τ → σ → Option σ

/-- The actions of both machines; `j` names a call in progress. -/
inductive Act (ι ε κ τ : Type)
  | start (c : κ)
  | run (j : Nat) (i : ι)
  /-- Raise an exception instead of performing the next operation of a call. -/
  | raise (j : Nat) (e : ε)
  | crash (j : Nat)
  /-- Let the world outside act. -/
  | env (t : τ)

namespace System

variable (sys : System σ ι ε κ τ Res)

/-- Perform the next operation of a program. -/
def advance (i : ι) (s : σ) : Prog ε Res Unit → Option (σ × Prog ε Res Unit)
  | .step o next =>
      match sys.exec o i s with
      | .ok (r, s') => some (s', next (.ok r))
      | .error e => some (s, next (.error e))
  | _ => none

/-- Raise an exception instead of performing the next operation of a program. -/
def interrupt (e : ε) : Prog ε Res Unit → Option (Prog ε Res Unit)
  | .step _ next => some (next (.error e))
  | _ => none

/-- The system in which the world outside does only what it may. -/
def within (may : τ → σ → Prop) [∀ t s, Decidable (may t s)] : System σ ι ε κ τ Res where
  exec := sys.exec
  call := sys.call
  env t s := if may t s then sys.env t s else none

end System

/-- What is known of one call in progress: some stable knowledge from which it is judged. -/
def Known (Γ : Setting σ ι ε Res) (s : σ) (p : Prog ε Res Unit) : Prop :=
  ∃ K, Γ.Stable K ∧ K s ∧ Sat Γ p K (fun _ _ => True) (fun _ _ => True)

theorem Known.done (Γ : Setting σ ι ε Res) (s : σ) : Known Γ s (.done ()) :=
  ⟨fun _ => True, .const True, trivial, fun _ _ _ => trivial⟩

theorem Known.rely {Γ : Setting σ ι ε Res} {s s' : σ} {p : Prog ε Res Unit} (h : Known Γ s p)
    (hs : Γ.inv s) (hs' : Γ.inv s') (hr : Γ.rely s s') : Known Γ s' p := by
  obtain ⟨K, hst, hk, hp⟩ := h
  exact ⟨K, hst, hst s s' hs hs' hk hr, hp⟩

theorem Known.interrupt {Γ : Setting σ ι ε Res} {s : σ} {p p' : Prog ε Res Unit} {e : ε}
    (h : Known Γ s p) (hi : System.interrupt e p = some p') : Known Γ s p' := by
  obtain ⟨K, hst, hk, hp⟩ := h
  cases p with
  | step o next =>
      simp only [System.interrupt, Option.some.injEq] at hi
      exact ⟨K, hst, hk, hi ▸ hp.2 e⟩
  | done a => simp [System.interrupt] at hi
  | fail e' => simp [System.interrupt] at hi

/-- The condition on the operation a program is about to perform. -/
def NextMeets (cond : Op → ι → σ → Prop) (i : ι) (s : σ) : Prog ε Res Unit → Prop
  | .step o _ => cond o i s
  | _ => True

instance (cond : Op → ι → σ → Prop) [∀ o i s, Decidable (cond o i s)] (i : ι) (s : σ) :
    ∀ p : Prog ε Res Unit, Decidable (NextMeets cond i s p)
  | .step o _ => inferInstanceAs (Decidable (cond o i s))
  | .done _ => isTrue trivial
  | .fail _ => isTrue trivial

theorem NextMeets.mono {cond cond' : Op → ι → σ → Prop} (hle : ∀ o i s, cond o i s → cond' o i s)
    {i : ι} {s : σ} : ∀ {p : Prog ε Res Unit}, NextMeets cond i s p → NextMeets cond' i s p
  | .step o _, h => hle o i s h
  | .done _, _ => trivial
  | .fail _, _ => trivial

theorem nextMeets_of_forall {cond : Op → ι → σ → Prop} (h : ∀ o i s, cond o i s) {i : ι} {s : σ} :
    ∀ {p : Prog ε Res Unit}, NextMeets cond i s p
  | .step o _ => h o i s
  | .done _ => trivial
  | .fail _ => trivial

/-- One operation of a program that is known: the store keeps its invariant, and either nothing
changed or the operation kept its promise. -/
theorem Known.advance {sys : System σ ι ε κ τ Res} {Γ : Setting σ ι ε Res}
    (hexec : Γ.exec = sys.exec) {i : ι} {s s' : σ} {p p' : Prog ε Res Unit} (h : Known Γ s p)
    (hs : Γ.inv s) (hm : NextMeets Γ.cond i s p) (ha : sys.advance i s p = some (s', p')) :
    Γ.inv s' ∧ Known Γ s' p' ∧ (s' = s ∨ ∃ o, Γ.guar o s s') := by
  obtain ⟨K, hst, hk, hp⟩ := h
  cases p with
  | done a => simp [System.advance] at ha
  | fail e => simp [System.advance] at ha
  | step o next =>
      have hboth := hp.1 i s hs hk hm
      rw [hexec] at hboth
      simp only [System.advance] at ha
      split at ha
      · rename_i r t hx
        obtain ⟨rfl, rfl⟩ : t = s' ∧ next (.ok r) = p' := by simpa using ha
        obtain ⟨hs', hg, K', hst', hk', hn⟩ := hboth.1 r t hx
        exact ⟨hs', ⟨K', hst', hk', hn⟩, .inr ⟨o, hg⟩⟩
      · rename_i e hx
        obtain ⟨rfl, rfl⟩ : s = s' ∧ next (.error e) = p' := by simpa using ha
        obtain ⟨K', hst', hk', hn⟩ := hboth.2 e hx
        exact ⟨hs, ⟨K', hst', hk', hn⟩, .inl rfl⟩

/-! ### Calls side by side -/

/-- The store and the calls in progress. -/
structure Pool (σ ε : Type) {Op : Type} (Res : Op → Type) where
  store : σ
  procs : List (Prog ε Res Unit) := []

namespace Pool

variable (sys : System σ ι ε κ τ Res)

def step (w : Pool σ ε Res) : Act ι ε κ τ → Option (Pool σ ε Res)
  | .start c => some { w with procs := w.procs ++ [sys.call c] }
  | .run j i =>
      (w.procs[j]?).bind fun p => (sys.advance i w.store p).map fun r =>
        { store := r.1, procs := w.procs.set j r.2 }
  | .raise j e =>
      (w.procs[j]?).bind fun p => (System.interrupt e p).map fun p' =>
        { w with procs := w.procs.set j p' }
  | .crash j => some { w with procs := w.procs.set j (.done ()) }
  | .env t => (sys.env t w.store).map fun s => { w with store := s }

/-- The machine of calls side by side. -/
def machine : Machine (Pool σ ε Res) (Act ι ε κ τ) := ⟨step sys⟩

/-- The operation that the action performs, if it performs one, meets the condition. -/
def Meets (cond : Op → ι → σ → Prop) (w : Pool σ ε Res) : Act ι ε κ τ → Prop
  | .run j i => NextMeets cond i w.store (w.procs.getD j (.done ()))
  | _ => True

instance (cond : Op → ι → σ → Prop) [∀ o i s, Decidable (cond o i s)] (w : Pool σ ε Res) :
    ∀ a : Act ι ε κ τ, Decidable (Meets cond w a)
  | .run _ _ => inferInstanceAs (Decidable (NextMeets _ _ _ _))
  | .start _ => isTrue trivial
  | .raise _ _ => isTrue trivial
  | .crash _ => isTrue trivial
  | .env _ => isTrue trivial

theorem Meets.mono {cond cond' : Op → ι → σ → Prop} (hle : ∀ o i s, cond o i s → cond' o i s)
    {w : Pool σ ε Res} {a : Act ι ε κ τ} (h : Meets cond w a) : Meets cond' w a := by
  cases a with
  | run j i => exact NextMeets.mono hle h
  | _ => trivial

theorem meets_of_forall {cond : Op → ι → σ → Prop} (h : ∀ o i s, cond o i s)
    {w : Pool σ ε Res} {a : Act ι ε κ τ} : Meets cond w a := by
  cases a with
  | run j i => exact nextMeets_of_forall h
  | _ => trivial

/-- The operation that the action performs meets the condition, and the world outside does only what
it may. -/
def Within (cond : Op → ι → σ → Prop) (may : τ → σ → Prop) (w : Pool σ ε Res) :
    Act ι ε κ τ → Prop
  | .run j i => NextMeets cond i w.store (w.procs.getD j (.done ()))
  | .env t => may t w.store
  | _ => True

instance (cond : Op → ι → σ → Prop) (may : τ → σ → Prop) [∀ o i s, Decidable (cond o i s)]
    [∀ t s, Decidable (may t s)] (w : Pool σ ε Res) :
    ∀ a : Act ι ε κ τ, Decidable (Within cond may w a)
  | .run _ _ => inferInstanceAs (Decidable (NextMeets _ _ _ _))
  | .env _ => inferInstanceAs (Decidable (may _ _))
  | .start _ => isTrue trivial
  | .raise _ _ => isTrue trivial
  | .crash _ => isTrue trivial

/-- **A run of the restricted system.** -/
theorem reaches_within {cond : Op → ι → σ → Prop} {may : τ → σ → Prop}
    [∀ t s, Decidable (may t s)] {w w' : Pool σ ε Res}
    (h : (machine sys).Reaches (Within cond may) w w') :
    (machine (sys.within may)).Reaches (Meets cond) w w' := by
  induction h with
  | refl => exact .refl
  | @tail w₁ w₂ a _ hok hstep ih =>
      cases a with
      | run j i => exact ih.tail (a := .run j i) hok hstep
      | env t =>
          refine ih.tail (a := .env t) trivial ?_
          have hmay : may t w₁.store := hok
          simp only [machine, step, System.within, if_pos hmay] at hstep ⊢
          exact hstep
      | start c => exact ih.tail (a := .start c) trivial hstep
      | raise j e => exact ih.tail (a := .raise j e) trivial hstep
      | crash j => exact ih.tail (a := .crash j) trivial hstep

/-- The premises of rely/guarantee reasoning for a system. -/
structure Sound (Γ : Setting σ ι ε Res) : Prop where
  exec : Γ.exec = sys.exec
  guar : ∀ o s s', Γ.inv s → Γ.inv s' → Γ.guar o s s' → Γ.rely s s'
  env : ∀ t s s', Γ.inv s → sys.env t s = some s' → Γ.inv s' ∧ Γ.rely s s'
  call : ∀ c s, Γ.inv s → Known Γ s (sys.call c)

/-- The invariant of the pool: that of the store, and knowledge of every call in progress. -/
def Good (Γ : Setting σ ι ε Res) (w : Pool σ ε Res) : Prop :=
  Γ.inv w.store ∧ ∀ p ∈ w.procs, Known Γ w.store p

/-- How one action changes the store. -/
def Moves (Γ : Setting σ ι ε Res) (s s' : σ) : Prop :=
  s' = s ∨ (∃ o, Γ.guar o s s') ∨ ∃ t, sys.env t s = some s'

variable {sys} {Γ : Setting σ ι ε Res} {w w' : Pool σ ε Res} {a : Act ι ε κ τ}

theorem good_init {s : σ} (hs : Γ.inv s) : Good Γ (⟨s, []⟩ : Pool σ ε Res) :=
  ⟨hs, by simp⟩

theorem Good.set {s : σ} {j : Nat} {p : Prog ε Res Unit} (hs : Γ.inv s) (hp : Known Γ s p)
    (h : ∀ q ∈ w.procs, Known Γ s q) : Good Γ ⟨s, w.procs.set j p⟩ := by
  refine ⟨hs, fun q hq => ?_⟩
  rcases List.mem_or_eq_of_mem_set hq with hq | rfl
  · exact h q hq
  · exact hp

/-- **The step lemma of the pool.** -/
theorem Sound.step_good (h : Sound sys Γ) (hw : Good Γ w) (hm : Meets Γ.cond w a)
    (hstep : (machine sys).step w a = some w') : Good Γ w' ∧ Moves sys Γ w.store w'.store := by
  obtain ⟨hs, hp⟩ := hw
  cases a with
  | start c =>
      obtain rfl : _ = w' := by simpa [machine, step] using hstep
      refine ⟨⟨hs, fun p hpm => ?_⟩, .inl rfl⟩
      rcases List.mem_append.1 hpm with hpm | hpm
      · exact hp p hpm
      · rw [List.mem_singleton.1 hpm]
        exact h.call c w.store hs
  | run j i =>
      simp only [machine, step, Option.bind_eq_some_iff, Option.map_eq_some_iff] at hstep
      obtain ⟨p, hj, ⟨s', p'⟩, ha, rfl⟩ := hstep
      have hpw : p ∈ w.procs := List.mem_of_getElem? hj
      have hnext : NextMeets Γ.cond i w.store p := by
        simpa [Meets, List.getD, hj] using hm
      obtain ⟨hs', hk', hmove⟩ := (hp p hpw).advance h.exec hs hnext ha
      refine ⟨Good.set hs' hk' fun q hq => ?_, hmove.imp_right .inl⟩
      rcases hmove with rfl | ⟨o, hg⟩
      · exact hp q hq
      · exact (hp q hq).rely hs hs' (h.guar o _ _ hs hs' hg)
  | raise j e =>
      simp only [machine, step, Option.bind_eq_some_iff, Option.map_eq_some_iff] at hstep
      obtain ⟨p, hj, p', hi, rfl⟩ := hstep
      exact ⟨Good.set hs ((hp p (List.mem_of_getElem? hj)).interrupt hi) hp, .inl rfl⟩
  | crash j =>
      obtain rfl : _ = w' := by simpa [machine, step] using hstep
      exact ⟨Good.set hs (.done Γ w.store) hp, .inl rfl⟩
  | env t =>
      simp only [machine, step, Option.map_eq_some_iff] at hstep
      obtain ⟨s', ht, rfl⟩ := hstep
      obtain ⟨hs', hr⟩ := h.env t _ _ hs ht
      exact ⟨⟨hs', fun p hpm => (hp p hpm).rely hs hs' hr⟩, .inr (.inr ⟨t, ht⟩)⟩

/-- **Every state reached keeps the invariant and the knowledge of its calls.** -/
theorem Sound.good (h : Sound sys Γ) (hw : Good Γ w)
    (hr : (machine sys).Reaches (Meets Γ.cond) w w') : Good Γ w' :=
  hr.invariant hw fun _ _ _ hg hm hs => (h.step_good hg hm hs).1

end Pool

/-! ### Calls one after the other -/

/-- The store and the call in progress. -/
structure Solo (σ ε : Type) {Op : Type} (Res : Op → Type) where
  store : σ
  proc : Prog ε Res Unit := .done ()

namespace Solo

variable (sys : System σ ι ε κ τ Res)

/-- One action; a call starts only when the one before it is over. -/
def step (w : Solo σ ε Res) : Act ι ε κ τ → Option (Solo σ ε Res)
  | .start c => if w.proc.finished then some { w with proc := sys.call c } else none
  | .run _ i => (sys.advance i w.store w.proc).map fun r => { store := r.1, proc := r.2 }
  | .raise _ e => (System.interrupt e w.proc).map fun p => { w with proc := p }
  | .crash _ => some { w with proc := .done () }
  | .env t => (sys.env t w.store).map fun s => { w with store := s }

/-- The machine of calls one after the other. -/
def machine : Machine (Solo σ ε Res) (Act ι ε κ τ) := ⟨step sys⟩

/-- The operation that the action performs, if it performs one, meets the condition. -/
def Meets (cond : Op → ι → σ → Prop) (w : Solo σ ε Res) : Act ι ε κ τ → Prop
  | .run _ i => NextMeets cond i w.store w.proc
  | _ => True

instance (cond : Op → ι → σ → Prop) [∀ o i s, Decidable (cond o i s)] (w : Solo σ ε Res) :
    ∀ a : Act ι ε κ τ, Decidable (Meets cond w a)
  | .run _ _ => inferInstanceAs (Decidable (NextMeets _ _ _ _))
  | .start _ => isTrue trivial
  | .raise _ _ => isTrue trivial
  | .crash _ => isTrue trivial
  | .env _ => isTrue trivial

/-- The premises of reasoning about calls one after the other. -/
structure Sound (Γ : Setting σ ι ε Res) : Prop where
  exec : Γ.exec = sys.exec
  env : ∀ t s s', Γ.inv s → sys.env t s = some s' → Γ.inv s' ∧ Γ.rely s s'
  call : ∀ c s, Γ.inv s → Known Γ s (sys.call c)

/-- The invariant of the machine: that of the store, and knowledge of the call in progress. -/
def Good (Γ : Setting σ ι ε Res) (w : Solo σ ε Res) : Prop :=
  Γ.inv w.store ∧ Known Γ w.store w.proc

/-- How one action changes the store. -/
def Moves (Γ : Setting σ ι ε Res) (s s' : σ) : Prop :=
  s' = s ∨ (∃ o, Γ.guar o s s') ∨ ∃ t, sys.env t s = some s'

variable {sys} {Γ : Setting σ ι ε Res} {w w' : Solo σ ε Res} {a : Act ι ε κ τ}

theorem good_init {s : σ} (hs : Γ.inv s) : Good Γ (⟨s, .done ()⟩ : Solo σ ε Res) :=
  ⟨hs, .done Γ s⟩

/-- **The step lemma of the sequential machine.** -/
theorem Sound.step_good (h : Sound sys Γ) (hw : Good Γ w) (hm : Meets Γ.cond w a)
    (hstep : (machine sys).step w a = some w') : Good Γ w' ∧ Moves sys Γ w.store w'.store := by
  obtain ⟨hs, hp⟩ := hw
  cases a with
  | start c =>
      simp only [machine, step] at hstep
      split at hstep
      · obtain rfl : _ = w' := by simpa using hstep
        exact ⟨⟨hs, h.call c w.store hs⟩, .inl rfl⟩
      · exact absurd hstep (by simp)
  | run j i =>
      simp only [machine, step, Option.map_eq_some_iff] at hstep
      obtain ⟨⟨s', p'⟩, ha, rfl⟩ := hstep
      obtain ⟨hs', hk', hmove⟩ := hp.advance h.exec hs hm ha
      exact ⟨⟨hs', hk'⟩, hmove.imp_right .inl⟩
  | raise j e =>
      simp only [machine, step, Option.map_eq_some_iff] at hstep
      obtain ⟨p', hi, rfl⟩ := hstep
      exact ⟨⟨hs, hp.interrupt hi⟩, .inl rfl⟩
  | crash j =>
      obtain rfl : _ = w' := by simpa [machine, step] using hstep
      exact ⟨⟨hs, .done Γ w.store⟩, .inl rfl⟩
  | env t =>
      simp only [machine, step, Option.map_eq_some_iff] at hstep
      obtain ⟨s', ht, rfl⟩ := hstep
      obtain ⟨hs', hr⟩ := h.env t _ _ hs ht
      exact ⟨⟨hs', hp.rely hs hs' hr⟩, .inr (.inr ⟨t, ht⟩)⟩

/-- **Every state reached keeps the invariant and the knowledge of its call.** -/
theorem Sound.good (h : Sound sys Γ) (hw : Good Γ w)
    (hr : (machine sys).Reaches (Meets Γ.cond) w w') : Good Γ w' :=
  hr.invariant hw fun _ _ _ hg hm hs => (h.step_good hg hm hs).1

/-- **A run moves the store along any reflexive and transitive relation that contains its
moves.** -/
theorem Sound.moves {R : σ → σ → Prop} (h : Sound sys Γ) (hw : Good Γ w) (hrefl : ∀ s, R s s)
    (htrans : ∀ s t u, R s t → R t u → R s u)
    (hR : ∀ s s', Γ.inv s → Γ.inv s' → Moves sys Γ s s' → R s s')
    (hr : (machine sys).Reaches (Meets Γ.cond) w w') : R w.store w'.store :=
  hr.rel (R := fun v v' => R v.store v'.store) (fun v => hrefl v.store)
    (fun v₁ v₂ v₃ => htrans v₁.store v₂.store v₃.store) hw fun _ _ _ hg hm hs =>
      have hstep := h.step_good hg hm hs
      ⟨hstep.1, hR _ _ hg.1 hstep.1.1 hstep.2⟩

end Solo

end Process
