/-
**Calls side by side as agents with labels.**

What goes on between the calls of a pool is often a protocol: each call is an agent that has learned
something, and what it may do next depends on that alone.  Where the programs of a system are
labelled (see `TradePulse/Process/Labels.lean`), the labels of the calls in progress are such a view
of the pool.  An assertion on the store and on the labels of all calls is then an invariant of the
pool as soon as each move of an agent keeps it, whatever the programs look like.

A condition on the steps may look at all labels as well: what a call does may be conditional on what
the other calls in progress have learned.  A call that is over has no label any more.

Main definitions:

* `Pool.labels` — what the calls in progress have learned, in the order in which they started;
* `System.LabelledBy` — the programs of the system are labelled, and do what their labels allow;
* `Pool.Minds` — the operation that an action performs meets a condition on the labels;
* `Pool.Keeps` — an assertion is kept by each move of an agent.

Main results:

* `Pool.Keeps.holds` — **an assertion that each move keeps holds in every state reached**;
* `Pool.allowed_of_reaches` — a call is only ever about to perform what its label allows.
-/

import TradePulse.Process.Labels

set_option autoImplicit false

namespace Process

variable {σ ι ε κ τ γ Op : Type} {Res : Op → Type}

/-! ### The label of a program -/

namespace Prog

variable {α : Type} {learn : γ → (o : Op) → Except ε (Res o) → γ}

/-- What a labelled program has learned, unless it is over. -/
def label? (p : Prog ε (fun o : γ × Op => Res o.2) α) : Option γ := p.next?.map Prod.fst

theorem label?_tag (q : Prog ε Res α) (g : γ) :
    (q.tag learn g).label? = none ∨ (q.tag learn g).label? = some g := by
  cases q with
  | done a => exact .inl rfl
  | fail e => exact .inl rfl
  | step o next => exact .inr rfl

/-- A program whose operations are labelled as it learns, and suit their labels. -/
def Obeys (learn : γ → (o : Op) → Except ε (Res o) → γ) (ans : (o : Op) → Res o → Prop)
    (A : γ → Op → Prop) : Prog ε (fun o : γ × Op => Res o.2) α → Prop
  | done _ => True
  | fail _ => True
  | step o next =>
      A o.1 o.2 ∧
        (∀ r, ans o.2 r → (next (.ok r)).Obeys learn ans A ∧
          ((next (.ok r)).label? = none ∨ (next (.ok r)).label? = some (learn o.1 o.2 (.ok r)))) ∧
        ∀ e, (next (.error e)).Obeys learn ans A ∧
          ((next (.error e)).label? = none ∨
            (next (.error e)).label? = some (learn o.1 o.2 (.error e)))

variable {ans : (o : Op) → Res o → Prop} {A : γ → Op → Prop} {Q : γ → α → Prop} {E : γ → ε → Prop}

theorem Along.obeys_tag : ∀ {q : Prog ε Res α} {g : γ}, q.Along learn ans A g Q E →
    (q.tag learn g).Obeys learn ans A
  | done _, _, _ => trivial
  | fail _, _, _ => trivial
  | step _ _, _, h =>
      ⟨h.1, fun r hr => ⟨obeys_tag (h.2.1 r hr), label?_tag _ _⟩,
        fun e => ⟨obeys_tag (h.2.2 e), label?_tag _ _⟩⟩

end Prog

/-! ### The labels of a pool -/

/-- The programs of the system are labelled, starting with `init`, and suit their labels. -/
structure System.LabelledBy (sys : System σ ι ε κ τ fun o : γ × Op => Res o.2)
    (learn : γ → (o : Op) → Except ε (Res o) → γ) (ans : (o : Op) → Res o → Prop)
    (A : γ → Op → Prop) (init : κ → γ) : Prop where
  gives : sys.Gives fun o r => ans o.2 r
  obeys : ∀ c, (sys.call c).Obeys learn ans A
  label : ∀ c, (sys.call c).label? = none ∨ (sys.call c).label? = some (init c)

namespace Pool

/-- What the calls have learned; nothing is kept of those that are over. -/
def labels (w : Pool σ ε fun o : γ × Op => Res o.2) : List (Option γ) := w.procs.map Prog.label?

/-- The operation that the action performs, if it performs one, meets the condition. -/
def Minds (cond : γ → Op → ι → σ → List (Option γ) → Prop)
    (w : Pool σ ε fun o : γ × Op => Res o.2) : Act ι ε κ τ → Prop
  | .run j i => ∀ g o, (w.procs[j]?).bind Prog.next? = some (g, o) → cond g o i w.store w.labels
  | _ => True

instance (cond : γ → Op → ι → σ → List (Option γ) → Prop) [∀ g o i s ls, Decidable (cond g o i s ls)]
    (w : Pool σ ε fun o : γ × Op => Res o.2) : ∀ a : Act ι ε κ τ, Decidable (Minds cond w a)
  | .run j i =>
      decidable_of_iff
        (((w.procs[j]?).bind Prog.next?).all fun o => cond o.1 o.2 i w.store w.labels)
        (by
          constructor
          · intro h g o hnext
            simpa [hnext] using h
          · intro h
            cases hnext : (w.procs[j]?).bind Prog.next? with
            | none => rfl
            | some o => exact decide_eq_true (h o.1 o.2 hnext))
  | .start _ => isTrue trivial
  | .raise _ _ => isTrue trivial
  | .crash _ => isTrue trivial
  | .env _ => isTrue trivial

/-- An assertion on the store and the labels is kept by each move of an agent: one starts, one is
answered or refused, one is over, or the world outside acts. -/
structure Keeps (sys : System σ ι ε κ τ fun o : γ × Op => Res o.2)
    (learn : γ → (o : Op) → Except ε (Res o) → γ) (A : γ → Op → Prop) (init : κ → γ)
    (cond : γ → Op → ι → σ → List (Option γ) → Prop) (I : σ → List (Option γ) → Prop) : Prop where
  start : ∀ s ls c, I s ls → I s (ls ++ [some (init c)])
  answered : ∀ s ls j g o i r s', I s ls → ls[j]? = some (some g) → A g o → cond g o i s ls →
    sys.exec (g, o) i s = .ok (r, s') → I s' (ls.set j (some (learn g o (.ok r))))
  refused : ∀ s ls j g o e, I s ls → ls[j]? = some (some g) → A g o →
    I s (ls.set j (some (learn g o (.error e))))
  ended : ∀ s ls j, I s ls → I s (ls.set j none)
  env : ∀ s ls t s', I s ls → sys.env t s = some s' → I s' ls

variable {learn : γ → (o : Op) → Except ε (Res o) → γ} {ans : (o : Op) → Res o → Prop}
  {A : γ → Op → Prop} {init : κ → γ} {sys : System σ ι ε κ τ fun o : γ × Op => Res o.2}
  {cond : γ → Op → ι → σ → List (Option γ) → Prop} {I : σ → List (Option γ) → Prop}
  {w w' : Pool σ ε fun o : γ × Op => Res o.2}

theorem labels_set (w : Pool σ ε fun o : γ × Op => Res o.2) (s : σ) (j : Nat)
    (p : Prog ε (fun o : γ × Op => Res o.2) Unit) :
    (⟨s, w.procs.set j p⟩ : Pool σ ε fun o : γ × Op => Res o.2).labels =
      w.labels.set j p.label? :=
  List.map_set

theorem labels_getElem? {j : Nat} {p : Prog ε (fun o : γ × Op => Res o.2) Unit}
    (h : w.procs[j]? = some p) : w.labels[j]? = some p.label? := by
  simp only [labels, List.getElem?_map, h, Option.map_some]

theorem Keeps.over_or (h : Keeps sys learn A init cond I) {s : σ} {ls : List (Option γ)} {j : Nat}
    {g : γ} {l : Option γ} (hI : I s (ls.set j (some g))) (hl : l = none ∨ l = some g) :
    I s (ls.set j l) := by
  rcases hl with rfl | rfl
  · have hover := h.ended s _ j hI
    rwa [List.set_set] at hover
  · exact hI

/-- **The step lemma.** -/
theorem Keeps.step {a : Act ι ε κ τ} (h : Keeps sys learn A init cond I)
    (hsys : sys.LabelledBy learn ans A init)
    (hI : I w.store w.labels) (hw : ∀ p ∈ w.procs, p.Obeys learn ans A) (ha : Minds cond w a)
    (hstep : (machine sys).step w a = some w') :
    I w'.store w'.labels ∧ ∀ p ∈ w'.procs, p.Obeys learn ans A := by
  have set : ∀ {j : Nat} {p : Prog ε (fun o : γ × Op => Res o.2) Unit}, p.Obeys learn ans A →
      ∀ q ∈ w.procs.set j p, q.Obeys learn ans A := by
    intro j p hp q hq
    rcases List.mem_or_eq_of_mem_set hq with hq | rfl
    · exact hw q hq
    · exact hp
  cases a with
  | start c =>
      obtain rfl : _ = w' := by simpa [machine, Pool.step] using hstep
      refine ⟨?_, fun p hp => ?_⟩
      · have hlabels : labels ⟨w.store, w.procs ++ [sys.call c]⟩ =
            w.labels ++ [(sys.call c).label?] := by
          simp only [labels, List.map_append, List.map_cons, List.map_nil]
        show I w.store (labels ⟨w.store, w.procs ++ [sys.call c]⟩)
        have hstart := h.start w.store w.labels c hI
        rw [hlabels]
        rcases hsys.label c with hnone | hsome
        · have hover := h.ended _ _ w.labels.length hstart
          rw [hnone]
          simpa using hover
        · rw [hsome]
          exact hstart
      · rcases List.mem_append.1 hp with hp | hp
        · exact hw p hp
        · rw [List.mem_singleton.1 hp]
          exact hsys.obeys c
  | run j i =>
      simp only [machine, Pool.step, Option.bind_eq_some_iff, Option.map_eq_some_iff] at hstep
      obtain ⟨p, hj, ⟨s', p'⟩, hadv, rfl⟩ := hstep
      have hp := hw p (List.mem_of_getElem? hj)
      cases p with
      | done u => simp [System.advance] at hadv
      | fail e => simp [System.advance] at hadv
      | step o next =>
          obtain ⟨g, o⟩ := o
          have hg : w.labels[j]? = some (some g) := labels_getElem? hj
          have hc : cond g o i w.store w.labels :=
            ha g o (by rw [hj]; rfl)
          rw [labels_set]
          simp only [System.advance] at hadv
          split at hadv
          · rename_i r t hx
            cases hadv
            have hnext := hp.2.1 r (hsys.gives (g, o) i w.store r _ hx)
            exact ⟨h.over_or (h.answered _ _ _ _ _ _ _ _ hI hg hp.1 hc hx) hnext.2, set hnext.1⟩
          · rename_i e hx
            cases hadv
            have hnext := hp.2.2 e
            exact ⟨h.over_or (h.refused _ _ _ _ _ e hI hg hp.1) hnext.2, set hnext.1⟩
  | raise j e =>
      simp only [machine, Pool.step, Option.bind_eq_some_iff, Option.map_eq_some_iff] at hstep
      obtain ⟨p, hj, p', hi, rfl⟩ := hstep
      have hp := hw p (List.mem_of_getElem? hj)
      cases p with
      | done u => cases hi
      | fail e' => cases hi
      | step o next =>
          cases hi
          have hnext := hp.2.2 e
          refine ⟨?_, set hnext.1⟩
          show I w.store (labels ⟨w.store, _⟩)
          rw [labels_set]
          exact h.over_or (h.refused _ _ _ _ _ e hI (labels_getElem? hj) hp.1) hnext.2
  | crash j =>
      obtain rfl : _ = w' := by simpa [machine, Pool.step] using hstep
      refine ⟨?_, set trivial⟩
      show I w.store (labels ⟨w.store, _⟩)
      rw [labels_set]
      exact h.ended _ _ j hI
  | env t =>
      simp only [machine, Pool.step, Option.map_eq_some_iff] at hstep
      obtain ⟨s', ht, rfl⟩ := hstep
      exact ⟨h.env _ _ t s' hI ht, hw⟩

/-- **An assertion that each move of an agent keeps holds in every state reached.** -/
theorem Keeps.holds (h : Keeps sys learn A init cond I) (hsys : sys.LabelledBy learn ans A init)
    {s₀ : σ} (h₀ : I s₀ []) (hr : (machine sys).Reaches (Minds cond) ⟨s₀, []⟩ w) :
    I w.store w.labels ∧ ∀ p ∈ w.procs, p.Obeys learn ans A :=
  hr.invariant (I := fun w => I w.store w.labels ∧ ∀ p ∈ w.procs, p.Obeys learn ans A)
    ⟨h₀, by simp⟩ fun _ _ _ hw ha hs => h.step hsys hw.1 hw.2 ha hs

theorem minds_true (w : Pool σ ε fun o : γ × Op => Res o.2) (a : Act ι ε κ τ) :
    Minds (fun _ _ _ _ _ => True) w a := by
  cases a with
  | run j i => exact fun _ _ _ => trivial
  | _ => trivial

theorem keeps_of_learn {P : γ → Prop} (hinit : ∀ c, P (init c))
    (hlearn : ∀ g o r, A g o → P g → P (learn g o r)) :
    Keeps sys learn A init (fun _ _ _ _ _ => True) fun _ ls => ∀ g, some g ∈ ls → P g := by
  have set : ∀ {ls : List (Option γ)} {j : Nat} {l : Option γ}, (∀ g, some g ∈ ls → P g) →
      (∀ g, l = some g → P g) → ∀ g, some g ∈ ls.set j l → P g := by
    intro ls j l hls hl g hg
    rcases List.mem_or_eq_of_mem_set hg with hg | hg
    · exact hls g hg
    · exact hl g hg.symm
  refine ⟨fun s ls c hI g hg => ?_, fun s ls j g o i r s' hI hj hA _ _ => ?_,
    fun s ls j g o e hI hj hA => ?_, fun s ls j hI => ?_, fun s ls t s' hI _ => hI⟩
  · rcases List.mem_append.1 hg with hg | hg
    · exact hI g hg
    · cases List.mem_singleton.1 hg
      exact hinit c
  · refine set hI fun g' hg' => ?_
    cases hg'
    exact hlearn g o _ hA (hI g (List.mem_of_getElem? hj))
  · refine set hI fun g' hg' => ?_
    cases hg'
    exact hlearn g o _ hA (hI g (List.mem_of_getElem? hj))
  · exact set hI fun g' hg' => absurd hg' (by simp)

/-- **The operation that a call is about to perform suits its label**, and what is kept by all
learning is known of the label. -/
theorem allowed_of_reaches {ok : Pool σ ε (fun o : γ × Op => Res o.2) → Act ι ε κ τ → Prop}
    (hsys : sys.LabelledBy learn ans A init) {P : γ → Prop} (hinit : ∀ c, P (init c))
    (hlearn : ∀ g o r, A g o → P g → P (learn g o r)) {s₀ : σ}
    (hr : (machine sys).Reaches ok ⟨s₀, []⟩ w) {j : Nat} {g : γ} {o : Op}
    (hnext : (w.procs[j]?).bind Prog.next? = some (g, o)) : A g o ∧ P g := by
  have hfree : (machine sys).Reaches (Minds fun _ _ _ _ _ => True) ⟨s₀, []⟩ w :=
    hr.mono fun w a _ => minds_true w a
  obtain ⟨p, hp, hnext⟩ := Option.bind_eq_some_iff.1 hnext
  obtain ⟨hknown, hobeys⟩ := (keeps_of_learn hinit hlearn).holds hsys (by simp) hfree
  have hobeys := hobeys p (List.mem_of_getElem? hp)
  have hlabel : some g ∈ w.labels := by
    have hp := labels_getElem? hp
    rw [show p.label? = some g by rw [Prog.label?, hnext]; rfl] at hp
    exact List.mem_of_getElem? hp
  refine ⟨?_, hknown g hlabel⟩
  cases p with
  | done a => cases hnext
  | fail e => cases hnext
  | step o' next =>
      cases hnext
      exact hobeys.1

end Pool

end Process
