/-
**Programs over atomic operations.**

An asynchronous procedure that talks to a database is, between two of its `await`s, a pure
computation; each `await` performs one operation whose effect is atomic, and continues with the
operation's result or with the exception it raised.  A program is exactly that: a tree whose nodes
are operations and whose branches are the outcomes of the operation.

Operations are data (`Op`), with a type of results for each of them (`Res`).  What they do to a
store is not part of a program; it is given separately, by an interpreter (see
`TradePulse/Process/Pool.lean`), so that the same program can be run alone, run beside other
programs, interrupted, or made to fail at any operation.

Main definitions:

* `Prog` — programs that raise exceptions in `ε` and return values in `α`, with their monad;
* `Prog.perform`, `Prog.tryCatch`, `Prog.foldEach`, `Prog.forEach` — one operation, exception
  handling, and loops over a list with and without an accumulator;
* `Prog.next?` — the operation a program is about to perform;
* `Prog.lift` — a program over fewer operations, as a program over more;
* `Prog.Uses` — every operation the program can ever perform is in a given set.

Main results:

* `Prog.Uses.bind`, `Prog.Uses.tryCatch`, `Prog.Uses.foldEach` — what a composed program uses.
-/

import Mathlib.Init

set_option autoImplicit false

namespace Process

/-- A program over the operations `Op`, each with its type of results. -/
inductive Prog (ε : Type) {Op : Type} (Res : Op → Type) (α : Type) : Type
  | done (a : α)
  | fail (e : ε)
  /-- Perform an operation and continue with its outcome. -/
  | step (o : Op) (next : Except ε (Res o) → Prog ε Res α)

namespace Prog

variable {ε Op : Type} {Res : Op → Type} {α β γ : Type}

/-- Sequential composition. -/
def bind : Prog ε Res α → (α → Prog ε Res β) → Prog ε Res β
  | done a, f => f a
  | fail e, _ => fail e
  | step o next, f => step o fun r => (next r).bind f

instance : Monad (Prog ε Res) where
  pure := done
  bind := bind

/-- Perform one operation; the exception it raises is not handled. -/
def perform (o : Op) : Prog ε Res (Res o) :=
  step o fun
    | .ok r => done r
    | .error e => fail e

/-- A pure computation that may raise. -/
def ofExcept : Except ε α → Prog ε Res α
  | .ok a => done a
  | .error e => fail e

/-- Handle the exceptions a program raises. -/
def tryCatch : Prog ε Res α → (ε → Prog ε Res α) → Prog ε Res α
  | done a, _ => done a
  | fail e, h => h e
  | step o next, h => step o fun r => (next r).tryCatch h

/-- Run a program for each element of a list, in order, passing an accumulator along. -/
def foldEach : List β → γ → (γ → β → Prog ε Res γ) → Prog ε Res γ
  | [], c, _ => done c
  | b :: bs, c, f => (f c b).bind fun c' => foldEach bs c' f

/-- Run a program for each element of a list, in order. -/
def forEach (bs : List β) (f : β → Prog ε Res Unit) : Prog ε Res Unit :=
  foldEach bs () fun _ => f

/-- Read a program over the operations `Op` as a program over `Op'`, along an embedding. -/
def lift {Op' : Type} {Res' : Op' → Type} (f : Op → Op') :
    Prog ε (fun o => Res' (f o)) α → Prog ε Res' α
  | done a => done a
  | fail e => fail e
  | step o next => step (f o) fun r => (next r).lift f

/-- A program that will perform no further operation. -/
def finished : Prog ε Res α → Bool
  | step _ _ => false
  | _ => true

/-- The operation a program is about to perform. -/
def next? : Prog ε Res α → Option Op
  | step o _ => some o
  | _ => none

@[simp] theorem pure_eq (a : α) : (pure a : Prog ε Res α) = done a := rfl

@[simp] theorem bind_eq (p : Prog ε Res α) (f : α → Prog ε Res β) : (p >>= f) = p.bind f := rfl

@[simp] theorem done_bind (a : α) (f : α → Prog ε Res β) : (done a).bind f = f a := rfl

@[simp] theorem fail_bind (e : ε) (f : α → Prog ε Res β) :
    (fail e : Prog ε Res α).bind f = fail e := rfl

@[simp] theorem step_bind (o : Op) (next : Except ε (Res o) → Prog ε Res α)
    (f : α → Prog ε Res β) : (step o next).bind f = step o fun r => (next r).bind f := rfl

@[simp] theorem done_tryCatch (a : α) (h : ε → Prog ε Res α) : (done a).tryCatch h = done a := rfl

@[simp] theorem fail_tryCatch (e : ε) (h : ε → Prog ε Res α) :
    (fail e : Prog ε Res α).tryCatch h = h e := rfl

@[simp] theorem ofExcept_ok (a : α) : (ofExcept (.ok a) : Prog ε Res α) = done a := rfl

@[simp] theorem ofExcept_error (e : ε) : (ofExcept (.error e) : Prog ε Res α) = fail e := rfl

@[simp] theorem foldEach_nil (c : γ) (f : γ → β → Prog ε Res γ) : foldEach [] c f = done c := rfl

@[simp] theorem foldEach_cons (b : β) (bs : List β) (c : γ) (f : γ → β → Prog ε Res γ) :
    foldEach (b :: bs) c f = (f c b).bind fun c' => foldEach bs c' f := rfl

@[simp] theorem finished_done (a : α) : (done a : Prog ε Res α).finished = true := rfl

@[simp] theorem finished_fail (e : ε) : (fail e : Prog ε Res α).finished = true := rfl

@[simp] theorem finished_step (o : Op) (next : Except ε (Res o) → Prog ε Res α) :
    (step o next).finished = false := rfl

/-! ### The operations a program uses -/

/-- Every operation the program can perform, whatever the outcomes of the earlier ones, is in
`A`. -/
def Uses (A : Op → Prop) : Prog ε Res α → Prop
  | done _ => True
  | fail _ => True
  | step o next => A o ∧ ∀ r, (next r).Uses A

variable {A B : Op → Prop}

@[simp] theorem uses_done (a : α) : (done a : Prog ε Res α).Uses A := trivial

@[simp] theorem uses_fail (e : ε) : (fail e : Prog ε Res α).Uses A := trivial

@[simp] theorem uses_perform (o : Op) : (perform o : Prog ε Res (Res o)).Uses A ↔ A o := by
  refine ⟨fun h => h.1, fun h => ⟨h, ?_⟩⟩
  rintro (e | r) <;> trivial

@[simp] theorem uses_ofExcept (x : Except ε α) : (ofExcept x : Prog ε Res α).Uses A := by
  cases x <;> trivial

theorem uses_true : ∀ p : Prog ε Res α, p.Uses fun _ => True
  | done _ => trivial
  | fail _ => trivial
  | step _ next => ⟨trivial, fun r => uses_true (next r)⟩

namespace Uses

theorem mono (hAB : ∀ o, A o → B o) : ∀ {p : Prog ε Res α}, p.Uses A → p.Uses B
  | done _, _ => trivial
  | fail _, _ => trivial
  | step _ _, h => ⟨hAB _ h.1, fun r => mono hAB (h.2 r)⟩

theorem and : ∀ {p : Prog ε Res α}, p.Uses A → p.Uses B → p.Uses fun o => A o ∧ B o
  | done _, _, _ => trivial
  | fail _, _, _ => trivial
  | step _ _, h, h' => ⟨⟨h.1, h'.1⟩, fun r => Uses.and (h.2 r) (h'.2 r)⟩

theorem bind {f : α → Prog ε Res β} (hf : ∀ a, (f a).Uses A) :
    ∀ {p : Prog ε Res α}, p.Uses A → (p.bind f).Uses A
  | done a, _ => hf a
  | fail _, _ => trivial
  | step _ _, h => ⟨h.1, fun r => Uses.bind hf (h.2 r)⟩

/-- What follows a pure computation knows what was computed. -/
theorem ofExcept_bind {x : Except ε α} {f : α → Prog ε Res β}
    (hf : ∀ a, x = .ok a → (f a).Uses A) : ((Prog.ofExcept x).bind f).Uses A := by
  cases x with
  | error e => trivial
  | ok a => exact hf a rfl

theorem tryCatch {h : ε → Prog ε Res α} (hh : ∀ e, (h e).Uses A) :
    ∀ {p : Prog ε Res α}, p.Uses A → (p.tryCatch h).Uses A
  | done _, _ => trivial
  | fail e, _ => hh e
  | step _ _, hp => ⟨hp.1, fun r => Uses.tryCatch hh (hp.2 r)⟩

theorem foldEach {f : γ → β → Prog ε Res γ} :
    ∀ {bs : List β} {c : γ}, (∀ c, ∀ b ∈ bs, (f c b).Uses A) → (Prog.foldEach bs c f).Uses A
  | [], _, _ => trivial
  | b :: _, c, h =>
      bind (fun _ => foldEach fun c' b' hb' => h c' b' (List.mem_cons_of_mem b hb'))
        (h c b List.mem_cons_self)

theorem forEach {f : β → Prog ε Res Unit} {bs : List β} (h : ∀ b ∈ bs, (f b).Uses A) :
    (Prog.forEach bs f).Uses A :=
  foldEach fun _ => h

/-- A program over fewer operations uses those only. -/
theorem lift {Op' : Type} {Res' : Op' → Type} {f : Op → Op'} {A : Op' → Prop} :
    ∀ {p : Prog ε (fun o => Res' (f o)) α}, (p.Uses fun o => A (f o)) →
      (p.lift f : Prog ε Res' α).Uses A
  | done _, _ => trivial
  | fail _, _ => trivial
  | step _ _, h => ⟨h.1, fun r => Uses.lift (h.2 r)⟩

end Uses

end Prog

end Process
