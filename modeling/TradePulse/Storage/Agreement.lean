/-
**Computations that agree.**

Two computations that may fail agree when both fail with one error, or both succeed with results
that are related.  The module follows the relation through a sequence of steps, over lists that are
related entry by entry, and over a list in another order, where no entry can fail in a way of its
own.  A list can also be filtered by a test that may fail.

Main definitions:

* `Agrees` — the relation;
* `filterIn` — the entries that pass a test, unless one of the tests fails.

Main results:

* `Agrees.bind`, `Agrees.trans` — one step after another, and one agreement after another;
* `agrees_mapM` — over related lists;
* `agrees_mapM_perm` — **the order in which a list is gone through does not matter**;
* `filterIn_of_ok` — where no test fails, the list is filtered as usual.
-/

import Mathlib.Data.List.Forall2
import Mathlib.Data.List.Perm.Basic

set_option autoImplicit false

namespace Storage

/-- Both fail with one error, or both succeed with related results. -/
inductive Agrees {ε α β : Type} (R : α → β → Prop) : Except ε α → Except ε β → Prop
  | error (e : ε) : Agrees R (.error e) (.error e)
  | ok {a : α} {b : β} (h : R a b) : Agrees R (.ok a) (.ok b)

section Agrees

variable {ε α β γ δ : Type} {R : α → β → Prop} {S : γ → δ → Prop}

theorem Agrees.of_eq {R : α → α → Prop} (hrefl : ∀ a, R a a) {x y : Except ε α} (h : x = y) :
    Agrees R x y := by
  subst h
  cases x with
  | error e => exact .error e
  | ok a => exact .ok (hrefl a)

theorem Agrees.trans {Q : β → γ → Prop} {T : α → γ → Prop} {x : Except ε α} {y : Except ε β}
    {z : Except ε γ} (hxy : Agrees R x y) (hyz : Agrees Q y z)
    (h : ∀ a b c, R a b → Q b c → T a c) : Agrees T x z := by
  cases hxy with
  | error e =>
      cases hyz with
      | error => exact .error e
  | ok hab =>
      cases hyz with
      | ok hbc => exact .ok (h _ _ _ hab hbc)

/-- Steps that agree on what was computed agree after computations that do. -/
theorem Agrees.bind_ok {x : Except ε α} {y : Except ε β} {f : α → Except ε γ} {g : β → Except ε δ}
    (hxy : Agrees R x y)
    (hfg : ∀ a b, x = .ok a → y = .ok b → R a b → Agrees S (f a) (g b)) :
    Agrees S (x >>= f) (y >>= g) := by
  cases hxy with
  | error e => exact .error e
  | ok hab => exact hfg _ _ rfl rfl hab

theorem Agrees.bind {x : Except ε α} {y : Except ε β} {f : α → Except ε γ} {g : β → Except ε δ}
    (hxy : Agrees R x y) (hfg : ∀ a b, R a b → Agrees S (f a) (g b)) :
    Agrees S (x >>= f) (y >>= g) :=
  hxy.bind_ok fun a b _ _ => hfg a b

theorem Agrees.exists_ok {x : Except ε α} {y : Except ε β} {a : α} (hxy : Agrees R x y)
    (h : x = .ok a) : ∃ b, y = .ok b ∧ R a b := by
  cases hxy with
  | error e => cases h
  | ok hab =>
      obtain rfl := Except.ok.inj h
      exact ⟨_, rfl, hab⟩

theorem exists_error_of_mapM {f : α → Except ε β} {l : List α} {e : ε}
    (h : l.mapM f = .error e) : ∃ a ∈ l, f a = .error e := by
  induction l with
  | nil => cases h
  | cons a rest ih =>
      rw [List.mapM_cons] at h
      cases hfa : f a with
      | error e' =>
          rw [hfa] at h
          exact ⟨a, List.mem_cons_self, by rw [hfa, Except.error.inj h]⟩
      | ok b =>
          cases hrest : rest.mapM f with
          | error e' =>
              rw [hfa, hrest] at h
              obtain ⟨x, hx, hfx⟩ := ih (Except.error.inj h ▸ hrest)
              exact ⟨x, List.mem_cons_of_mem _ hx, hfx⟩
          | ok bs =>
              rw [hfa, hrest] at h
              cases h

theorem agrees_mapM {P : α → β → Prop} {f : α → Except ε γ} {g : β → Except ε δ} {l : List α}
    {l' : List β} (hl : List.Forall₂ P l l') (hfg : ∀ a b, P a b → Agrees S (f a) (g b)) :
    Agrees (List.Forall₂ S) (l.mapM f) (l'.mapM g) := by
  induction hl with
  | nil => exact .ok .nil
  | cons hab _ ih =>
      rw [List.mapM_cons, List.mapM_cons]
      exact (hfg _ _ hab).bind fun c d hcd =>
        ih.bind fun cs ds hcds => .ok (.cons hcd hcds)

/-- Two entries may be gone through in either order, where they can only fail alike. -/
theorem agrees_swap {f : α → Except ε γ} {a b : α} {e₀ : ε} {k k' : γ → γ → Except ε (List γ)}
    (ha : ∀ e, f a = .error e → e = e₀) (hb : ∀ e, f b = .error e → e = e₀)
    (hk : ∀ c d, Agrees List.Perm (k c d) (k' d c)) :
    Agrees List.Perm (do let c ← f a; let d ← f b; k c d)
      (do let d ← f b; let c ← f a; k' d c) := by
  cases hfa : f a with
  | error e =>
      cases hfb : f b with
      | error e' =>
          rw [ha e hfa, hb e' hfb]
          exact .error e₀
      | ok d => exact .error e
  | ok c =>
      cases hfb : f b with
      | error e' => exact .error e'
      | ok d => exact hk c d

/-- **The order of a list does not matter**, where its entries can only fail alike. -/
theorem agrees_mapM_perm {f : α → Except ε γ} {l l' : List α} {e₀ : ε} (hl : l.Perm l')
    (herror : ∀ a ∈ l, ∀ e, f a = .error e → e = e₀) :
    Agrees List.Perm (l.mapM f) (l'.mapM f) := by
  induction hl with
  | nil => exact .ok .nil
  | cons a hl ih =>
      rw [List.mapM_cons, List.mapM_cons]
      refine (Agrees.of_eq (R := (· = ·)) (fun _ => rfl) rfl).bind fun c d hcd => ?_
      subst hcd
      exact (ih fun b hb => herror b (List.mem_cons_of_mem _ hb)).bind fun cs ds hperm =>
        .ok (hperm.cons c)
  | swap a b l =>
      simp only [List.mapM_cons, bind_assoc, pure_bind]
      refine agrees_swap (herror b (by simp)) (herror a (by simp)) fun c d => ?_
      refine (Agrees.of_eq (R := (· = ·)) (fun _ => rfl) rfl).bind fun cs ds hcs => ?_
      subst hcs
      exact .ok (.swap d c cs)
  | trans hl hl' ih ih' =>
      exact (ih herror).trans (ih' fun a ha => herror a (hl.mem_iff.2 ha))
        fun _ _ _ hab hbc => hab.trans hbc

end Agrees

/-! ### Filtering with a test that can fail -/

section Filtering

variable {ε α : Type} {p : α → Except ε Bool} {l : List α}

/-- The entries that pass a test, gone through in order; the first test that fails ends it. -/
def filterIn (p : α → Except ε Bool) : List α → Except ε (List α)
  | [] => .ok []
  | a :: rest => do
      let passes ← p a
      let others ← filterIn p rest
      return if passes then a :: others else others

theorem mem_of_filterIn {found : List α} (h : filterIn p l = .ok found) {a : α}
    (ha : a ∈ found) : a ∈ l := by
  induction l generalizing found with
  | nil =>
      obtain rfl := Except.ok.inj h
      cases ha
  | cons b rest ih =>
      unfold filterIn at h
      cases hb : p b with
      | error e =>
          rw [hb] at h
          cases h
      | ok passes =>
          cases hrest : filterIn p rest with
          | error e =>
              rw [hb, hrest] at h
              cases h
          | ok others =>
              rw [hb, hrest] at h
              obtain rfl := Except.ok.inj h
              cases passes with
              | false => exact List.mem_cons_of_mem b (ih hrest ha)
              | true =>
                  rcases List.mem_cons.1 ha with rfl | ha
                  · exact List.mem_cons_self
                  · exact List.mem_cons_of_mem b (ih hrest ha)

/-- Where no test fails, the entries are filtered. -/
theorem filterIn_of_ok (h : ∀ a ∈ l, ∃ b, p a = .ok b) :
    filterIn p l = .ok (l.filter fun a => (p a).toOption.getD false) := by
  induction l with
  | nil => rfl
  | cons a rest ih =>
      obtain ⟨b, hb⟩ := h a List.mem_cons_self
      have hrest := ih fun x hx => h x (List.mem_cons_of_mem a hx)
      unfold filterIn
      rw [hb, hrest, List.filter_cons, hb]
      rfl

end Filtering

end Storage
