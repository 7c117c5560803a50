/-
**Two systems over one store.**

Components of a program often have operations of their own and share only the store.  Side by side
they are one system, whose operations are those of either; a call of one of them is a program over
its own operations, read as a program over both.

Each component is judged alone, in a setting of its own.  If the two settings agree on what holds
of the store and on what may happen to it between two operations, the judgements carry over to the
two of them side by side.

Main definitions:

* `System.par` — the two systems side by side;
* `Setting.par`, `CondPar` — their settings and their conditions side by side.

Main results:

* `Pool.Sound.par` — what is sound for each of two systems is sound for both, side by side.
-/

import TradePulse.Process.Pool

set_option autoImplicit false

namespace Process

variable {σ ε ι₁ ι₂ κ₁ κ₂ τ₁ τ₂ : Type} {Op₁ Op₂ : Type} {Res₁ : Op₁ → Type} {Res₂ : Op₂ → Type}

/-- The results of the operations of both. -/
@[reducible] def ResPar (Res₁ : Op₁ → Type) (Res₂ : Op₂ → Type) : Op₁ ⊕ Op₂ → Type
  | .inl o => Res₁ o
  | .inr o => Res₂ o

/-- What the operations of both do; each is answered by its own world outside. -/
def execPar (exec₁ : (o : Op₁) → ι₁ → σ → Except ε (Res₁ o × σ))
    (exec₂ : (o : Op₂) → ι₂ → σ → Except ε (Res₂ o × σ)) :
    (o : Op₁ ⊕ Op₂) → ι₁ × ι₂ → σ → Except ε (ResPar Res₁ Res₂ o × σ)
  | .inl o, i, s => exec₁ o i.1 s
  | .inr o, i, s => exec₂ o i.2 s

/-- A condition on the operations of both. -/
def CondPar (cond₁ : Op₁ → ι₁ → σ → Prop) (cond₂ : Op₂ → ι₂ → σ → Prop) :
    Op₁ ⊕ Op₂ → ι₁ × ι₂ → σ → Prop
  | .inl o, i, s => cond₁ o i.1 s
  | .inr o, i, s => cond₂ o i.2 s

instance (cond₁ : Op₁ → ι₁ → σ → Prop) (cond₂ : Op₂ → ι₂ → σ → Prop)
    [∀ o i s, Decidable (cond₁ o i s)] [∀ o i s, Decidable (cond₂ o i s)] :
    ∀ o i s, Decidable (CondPar cond₁ cond₂ o i s)
  | .inl o, i, s => inferInstanceAs (Decidable (cond₁ o i.1 s))
  | .inr o, i, s => inferInstanceAs (Decidable (cond₂ o i.2 s))

namespace System

/-- Two systems side by side. -/
def par (a : System σ ι₁ ε κ₁ τ₁ Res₁) (b : System σ ι₂ ε κ₂ τ₂ Res₂) :
    System σ (ι₁ × ι₂) ε (κ₁ ⊕ κ₂) (τ₁ ⊕ τ₂) (ResPar Res₁ Res₂) where
  exec := execPar a.exec b.exec
  call
    | .inl c => (a.call c).lift Sum.inl
    | .inr c => (b.call c).lift Sum.inr
  env
    | .inl t => a.env t
    | .inr t => b.env t

end System

namespace Setting

/-- Two settings side by side, with the invariant and the rely of the first. -/
def par (Γ : Setting σ ι₁ ε Res₁) (Δ : Setting σ ι₂ ε Res₂) :
    Setting σ (ι₁ × ι₂) ε (ResPar Res₁ Res₂) where
  exec := execPar Γ.exec Δ.exec
  inv := Γ.inv
  rely := Γ.rely
  cond := CondPar Γ.cond Δ.cond
  guar
    | .inl o => Γ.guar o
    | .inr o => Δ.guar o

end Setting

variable {Γ : Setting σ ι₁ ε Res₁} {Δ : Setting σ ι₂ ε Res₂}

theorem Known.par_inl {s : σ} {p : Prog ε Res₁ Unit} (h : Known Γ s p) :
    Known (Γ.par Δ) s (p.lift Sum.inl : Prog ε (ResPar Res₁ Res₂) Unit) := by
  obtain ⟨K, hst, hk, hp⟩ := h
  refine ⟨K, hst, hk, ?_⟩
  exact Sat.lift (f := Sum.inl) (Γ := Γ) rfl rfl (fun _ => Prod.fst) (fun _ _ _ => rfl)
    (fun _ _ _ h => h) (fun _ _ _ h => h) hp

theorem Known.par_inr {s : σ} {p : Prog ε Res₂ Unit} (hinv : Δ.inv = Γ.inv)
    (hrely : Δ.rely = Γ.rely) (h : Known Δ s p) :
    Known (Γ.par Δ) s (p.lift Sum.inr : Prog ε (ResPar Res₁ Res₂) Unit) := by
  obtain ⟨K, hst, hk, hp⟩ := h
  refine ⟨K, ?_, hk, ?_⟩
  · unfold Setting.Stable at hst
    rw [hinv, hrely] at hst
    exact hst
  · exact Sat.lift (f := Sum.inr) (Γ := Δ) hinv.symm hrely.symm (fun _ => Prod.snd)
      (fun _ _ _ => rfl) (fun _ _ _ h => h) (fun _ _ _ h => h) hp

/-- **Rely/guarantee reasoning side by side.** -/
theorem Pool.Sound.par {a : System σ ι₁ ε κ₁ τ₁ Res₁} {b : System σ ι₂ ε κ₂ τ₂ Res₂}
    (ha : Pool.Sound a Γ) (hb : Pool.Sound b Δ) (hinv : Δ.inv = Γ.inv) (hrely : Δ.rely = Γ.rely) :
    Pool.Sound (a.par b) (Γ.par Δ) where
  exec := by
    show execPar Γ.exec Δ.exec = execPar a.exec b.exec
    rw [ha.exec, hb.exec]
  guar o s s' hs hs' hg := by
    cases o with
    | inl o => exact ha.guar o s s' hs hs' hg
    | inr o =>
        have hr := hb.guar o s s' (hinv ▸ hs) (hinv ▸ hs') hg
        exact hrely ▸ hr
  env t s s' hs ht := by
    cases t with
    | inl t => exact ha.env t s s' hs ht
    | inr t =>
        obtain ⟨hs', hr⟩ := hb.env t s s' (hinv ▸ hs) ht
        exact ⟨hinv ▸ hs', hrely ▸ hr⟩
  call c s hs := by
    cases c with
    | inl c => exact (ha.call c s hs).par_inl
    | inr c => exact (hb.call c s (hinv ▸ hs)).par_inr hinv hrely

end Process
