/-
**Rely/guarantee reasoning about programs over atomic operations.**

A program runs beside others that share its store.  A *setting* says what the operations do, which
invariant of the store everybody keeps, which changes of the store may happen between two of the
program's own operations (the rely), what each of its own operations promises (the guarantee), and
under which condition on an operation the reasoning applies at all.

What a program knows about the store at a point is an assertion that survives the rely: *stable*
knowledge.  `Sat Γ p K Q E` says that from any store of which the program knows `K`, every
operation it performs keeps the invariant and the guarantee, that it always has stable knowledge to
go on with, and that it returns only with `Q` and raises only with `E`.  An exception injected from
outside at any operation is covered: it leaves the store and the knowledge as they were.

Main definitions:

* `Setting`, `Setting.Stable` — the setting, and assertions that survive the rely;
* `Sat` — the judgement, by recursion on the program.

Main results:

* `Sat.of_pointwise`, `Sat.mono` — knowledge may be strengthened, store by store;
* `Sat.bind`, `Sat.tryCatch`, `Sat.foldEach`, `Sat.perform` — one rule for each way of composing;
* `Sat.frame`, `Sat.frame_uses` — stable knowledge survives what a program does itself;
* `Sat.of_uses` — a program all of whose operations keep some knowledge keeps it;
* `Sat.lift` — a program over fewer operations may be judged where only these exist.
-/

import TradePulse.Process.Program

set_option autoImplicit false

namespace Process

/-- The setting in which a program over `Op` is judged: `σ` is the type of stores and `ι` what the
world outside answers an operation. -/
structure Setting (σ ι ε : Type) {Op : Type} (Res : Op → Type) where
  /-- What an operation does: a result and a new store, or an exception and no change. -/
  exec : (o : Op) → ι → σ → Except ε (Res o × σ)
  inv : σ → Prop
  /-- What may happen to the store between two operations of the program. -/
  rely : σ → σ → Prop
  /-- The operations, in their stores, to which the judgement applies. -/
  cond : Op → ι → σ → Prop
  /-- What an operation of the program promises. -/
  guar : Op → σ → σ → Prop

variable {σ ι ε Op : Type} {Res : Op → Type} {α β : Type}

/-- The setting as programs over fewer operations see it. -/
def Setting.comap {Op' : Type} {Res' : Op' → Type} (Γ : Setting σ ι ε Res') (f : Op → Op') :
    Setting σ ι ε fun o => Res' (f o) where
  exec o := Γ.exec (f o)
  inv := Γ.inv
  rely := Γ.rely
  cond o := Γ.cond (f o)
  guar o := Γ.guar (f o)

/-- The setting in which no operation is ever performed. -/
def Setting.idle (Γ : Setting σ ι ε Res) : Setting σ ι ε Res := { Γ with cond := fun _ _ _ => False }

/-- An assertion that survives the rely. -/
def Setting.Stable (Γ : Setting σ ι ε Res) (K : σ → Prop) : Prop :=
  ∀ s s', Γ.inv s → Γ.inv s' → K s → Γ.rely s s' → K s'

namespace Setting.Stable

variable {Γ : Setting σ ι ε Res} {K L : σ → Prop}

theorem const (P : Prop) : Γ.Stable fun _ => P := fun _ _ _ _ h _ => h

theorem and (hK : Γ.Stable K) (hL : Γ.Stable L) : Γ.Stable fun s => K s ∧ L s :=
  fun s s' hs hs' h hr => ⟨hK s s' hs hs' h.1 hr, hL s s' hs hs' h.2 hr⟩

theorem all {β : Type} {F : β → σ → Prop} (h : ∀ b, Γ.Stable (F b)) :
    Γ.Stable fun s => ∀ b, F b s :=
  fun s s' hs hs' hb hr b => h b s s' hs hs' (hb b) hr

theorem exists_ {β : Type} {F : β → σ → Prop} (h : ∀ b, Γ.Stable (F b)) :
    Γ.Stable fun s => ∃ b, F b s :=
  fun s s' hs hs' ⟨b, hb⟩ hr => ⟨b, h b s s' hs hs' hb hr⟩

theorem imp {P : Prop} (h : P → Γ.Stable K) : Γ.Stable fun s => P → K s :=
  fun s s' hs hs' hk hr hp => h hp s s' hs hs' (hk hp) hr

end Setting.Stable

/-- The judgement: knowing `K`, the program keeps the invariant and the guarantee of the setting,
returns with `Q` and raises with `E`. -/
def Sat (Γ : Setting σ ι ε Res) :
    Prog ε Res α → (σ → Prop) → (α → σ → Prop) → (ε → σ → Prop) → Prop
  | .done a, K, Q, _ => ∀ s, Γ.inv s → K s → Q a s
  | .fail e, K, _, E => ∀ s, Γ.inv s → K s → E e s
  | .step o next, K, Q, E =>
      (∀ i s, Γ.inv s → K s → Γ.cond o i s →
        (∀ r s', Γ.exec o i s = .ok (r, s') → Γ.inv s' ∧ Γ.guar o s s' ∧
          ∃ K', Γ.Stable K' ∧ K' s' ∧ Sat Γ (next (.ok r)) K' Q E) ∧
        (∀ e, Γ.exec o i s = .error e →
          ∃ K', Γ.Stable K' ∧ K' s ∧ Sat Γ (next (.error e)) K' Q E)) ∧
      ∀ e, Sat Γ (next (.error e)) K Q E

namespace Sat

variable {Γ : Setting σ ι ε Res} {K L : σ → Prop} {Q Q' : α → σ → Prop} {E E' : ε → σ → Prop}

theorem of_pointwise : ∀ {p : Prog ε Res α} {K : σ → Prop},
    (∀ s, Γ.inv s → K s → ∃ K', K' s ∧ Sat Γ p K' Q E) → Sat Γ p K Q E
  | .done _, _, h => fun s hs hk => by
      obtain ⟨K', hk', hp⟩ := h s hs hk
      exact hp s hs hk'
  | .fail _, _, h => fun s hs hk => by
      obtain ⟨K', hk', hp⟩ := h s hs hk
      exact hp s hs hk'
  | .step o next, _, h => by
      refine ⟨fun i s hs hk hc => ?_, fun e => of_pointwise fun s hs hk => ?_⟩
      · obtain ⟨K', hk', hp⟩ := h s hs hk
        exact hp.1 i s hs hk' hc
      · obtain ⟨K', hk', hp⟩ := h s hs hk
        exact ⟨K', hk', hp.2 e⟩

theorem mono (hK : ∀ s, Γ.inv s → L s → K s) (hQ : ∀ a s, Γ.inv s → Q a s → Q' a s)
    (hE : ∀ e s, Γ.inv s → E e s → E' e s) :
    ∀ {p : Prog ε Res α}, Sat Γ p K Q E → Sat Γ p L Q' E' := by
  intro p hp
  refine of_pointwise fun s hs hl => ⟨K, hK s hs hl, ?_⟩
  clear hs hl hK s
  induction p generalizing K with
  | done a => exact fun s hs hk => hQ a s hs (hp s hs hk)
  | fail e => exact fun s hs hk => hE e s hs (hp s hs hk)
  | step o next ih =>
      refine ⟨fun i s hs hk hc => ⟨fun r s' hx => ?_, fun e hx => ?_⟩, fun e => ih _ (hp.2 e)⟩
      · obtain ⟨hs', hg, K', hst, hk', hn⟩ := (hp.1 i s hs hk hc).1 r s' hx
        exact ⟨hs', hg, K', hst, hk', ih _ hn⟩
      · obtain ⟨K', hst, hk', hn⟩ := (hp.1 i s hs hk hc).2 e hx
        exact ⟨K', hst, hk', ih _ hn⟩

theorem done {a : α} (h : ∀ s, Γ.inv s → K s → Q a s) : Sat Γ (.done a : Prog ε Res α) K Q E := h

theorem fail {e : ε} (h : ∀ s, Γ.inv s → K s → E e s) : Sat Γ (.fail e : Prog ε Res α) K Q E := h

/-- **Sequential composition.** -/
theorem bind {f : α → Prog ε Res β} {Q' : β → σ → Prop}
    (hf : ∀ a s, Γ.inv s → Q a s → ∃ K', K' s ∧ Sat Γ (f a) K' Q' E) :
    ∀ {p : Prog ε Res α} {K : σ → Prop}, Sat Γ p K Q E → Sat Γ (p.bind f) K Q' E
  | .done a, _, hp => of_pointwise fun s hs hk => hf a s hs (hp s hs hk)
  | .fail _, _, hp => fun s hs hk => hp s hs hk
  | .step _ _, _, hp => by
      refine ⟨fun i s hs hk hc => ⟨fun r s' hx => ?_, fun e hx => ?_⟩, fun e => bind hf (hp.2 e)⟩
      · obtain ⟨hs', hg, K', hst, hk', hn⟩ := (hp.1 i s hs hk hc).1 r s' hx
        exact ⟨hs', hg, K', hst, hk', bind hf hn⟩
      · obtain ⟨K', hst, hk', hn⟩ := (hp.1 i s hs hk hc).2 e hx
        exact ⟨K', hst, hk', bind hf hn⟩

/-- Sequential composition when what follows needs the same knowledge of every store. -/
theorem bind_of {f : α → Prog ε Res β} {Q' : β → σ → Prop} {p : Prog ε Res α}
    (hp : Sat Γ p K Q E) (hf : ∀ a, Sat Γ (f a) (Q a) Q' E) : Sat Γ (p.bind f) K Q' E :=
  bind (fun a _ _ hq => ⟨Q a, hq, hf a⟩) hp

theorem ofExcept {x : Except ε α} (hok : ∀ a, x = .ok a → ∀ s, Γ.inv s → K s → Q a s)
    (herr : ∀ e, x = .error e → ∀ s, Γ.inv s → K s → E e s) :
    Sat Γ (Prog.ofExcept x : Prog ε Res α) K Q E := by
  cases x with
  | ok a => exact hok a rfl
  | error e => exact herr e rfl

/-- **Exception handling.** -/
theorem tryCatch {h : ε → Prog ε Res α} {F : ε → σ → Prop}
    (hh : ∀ e s, Γ.inv s → F e s → ∃ K', K' s ∧ Sat Γ (h e) K' Q E) :
    ∀ {p : Prog ε Res α} {K : σ → Prop}, Sat Γ p K Q F → Sat Γ (p.tryCatch h) K Q E
  | .done _, _, hp => fun s hs hk => hp s hs hk
  | .fail e, _, hp => of_pointwise fun s hs hk => hh e s hs (hp s hs hk)
  | .step _ _, _, hp => by
      refine ⟨fun i s hs hk hc => ⟨fun r s' hx => ?_, fun e hx => ?_⟩,
        fun e => tryCatch hh (hp.2 e)⟩
      · obtain ⟨hs', hg, K', hst, hk', hn⟩ := (hp.1 i s hs hk hc).1 r s' hx
        exact ⟨hs', hg, K', hst, hk', tryCatch hh hn⟩
      · obtain ⟨K', hst, hk', hn⟩ := (hp.1 i s hs hk hc).2 e hx
        exact ⟨K', hst, hk', tryCatch hh hn⟩

/-- **One operation**: what it returns is what the rest may rely on; an exception leaves the
knowledge as it was. -/
theorem perform {o : Op} {Q : Res o → σ → Prop} (hQ : ∀ r, Γ.Stable (Q r)) (hK : Γ.Stable K)
    (hE : ∀ e s, Γ.inv s → K s → E e s)
    (h : ∀ i s r s', Γ.inv s → K s → Γ.cond o i s → Γ.exec o i s = .ok (r, s') →
      Γ.inv s' ∧ Γ.guar o s s' ∧ Q r s') :
    Sat Γ (Prog.perform o : Prog ε Res (Res o)) K Q E := by
  refine ⟨fun i s hs hk hc => ⟨fun r s' hx => ?_, fun e _ => ?_⟩, fun e => hE e⟩
  · obtain ⟨hs', hg, hq⟩ := h i s r s' hs hk hc hx
    exact ⟨hs', hg, Q r, hQ r, hq, fun t _ hq => hq⟩
  · exact ⟨K, hK, hk, hE e⟩

/-- **Loops over a list**: knowledge indexed by the elements still to come and the accumulator. -/
theorem foldEach {γ : Type} {f : γ → β → Prog ε Res γ} {L : List β → γ → σ → Prop}
    (hf : ∀ c b bs, Sat Γ (f c b) (L (b :: bs) c) (L bs) E) :
    ∀ (bs : List β) (c : γ), Sat Γ (Prog.foldEach bs c f) (L bs c) (L []) E
  | [], _ => fun _ _ h => h
  | b :: bs, c => bind_of (hf c b bs) fun _ => foldEach hf bs _

theorem forEach {f : β → Prog ε Res Unit} {L : List β → σ → Prop}
    (hf : ∀ b bs, Sat Γ (f b) (L (b :: bs)) (fun _ => L bs) E) (bs : List β) :
    Sat Γ (Prog.forEach bs f) (L bs) (fun _ => L []) E := by
  exact @foldEach _ _ _ _ _ _ Γ E Unit (fun _ => f) (fun bs _ => L bs) (fun _ => hf) bs ()

theorem of_uses {A : Op → Prop} (hK : Γ.Stable K)
    (hop : ∀ o i s r s', A o → Γ.inv s → K s → Γ.cond o i s → Γ.exec o i s = .ok (r, s') →
      Γ.inv s' ∧ Γ.guar o s s' ∧ K s') :
    ∀ {p : Prog ε Res α}, p.Uses A → Sat Γ p K (fun _ => K) (fun _ => K)
  | .done _, _ => fun _ _ h => h
  | .fail _, _ => fun _ _ h => h
  | .step o _, hp => by
      refine ⟨fun i s hs hk hc => ⟨fun r s' hx => ?_, fun e _ => ?_⟩,
        fun e => of_uses hK hop (hp.2 _)⟩
      · obtain ⟨hs', hg, hk'⟩ := hop o i s r s' hp.1 hs hk hc hx
        exact ⟨hs', hg, K, hK, hk', of_uses hK hop (hp.2 _)⟩
      · exact ⟨K, hK, hk, of_uses hK hop (hp.2 _)⟩

theorem of_stable {A : Op → Prop} {K : σ → Prop} (hK : Γ.Stable K)
    (hrely : ∀ o s s', Γ.inv s → Γ.inv s' → Γ.guar o s s' → Γ.rely s s')
    (hop : ∀ o i s r s', A o → Γ.inv s → Γ.cond o i s → Γ.exec o i s = .ok (r, s') →
      Γ.inv s' ∧ Γ.guar o s s') {p : Prog ε Res α} (hp : p.Uses A) :
    Sat Γ p K (fun _ => K) (fun _ => K) := by
  refine of_uses hK (fun o i s r s' ho hs hk hc hx => ?_) hp
  obtain ⟨hs', hg⟩ := hop o i s r s' ho hs hc hx
  exact ⟨hs', hg, hK s s' hs hs' hk (hrely o s s' hs hs' hg)⟩

/-- Where nothing is ever performed, every program is fine. -/
theorem idle (Γ : Setting σ ι ε Res) (p : Prog ε Res α) :
    Sat Γ.idle p (fun _ => True) (fun _ _ => True) fun _ _ => True :=
  (of_uses (.const True) (fun _ _ _ _ _ _ _ _ hc _ => False.elim hc) (Prog.uses_true p)).mono
    (fun _ _ h => h) (fun _ _ _ _ => trivial) fun _ _ _ _ => trivial

/-- **The frame rule**: what is stable is known afterwards as well, where the promise is within the
rely. -/
theorem frame {F : σ → Prop} (hF : Γ.Stable F)
    (hrely : ∀ o s s', Γ.inv s → Γ.inv s' → Γ.guar o s s' → Γ.rely s s') :
    ∀ {p : Prog ε Res α} {K : σ → Prop}, Sat Γ p K Q E →
      Sat Γ p (fun s => K s ∧ F s) (fun a s => Q a s ∧ F s) fun e s => E e s ∧ F s
  | .done _, _, hp => fun s hs hk => ⟨hp s hs hk.1, hk.2⟩
  | .fail _, _, hp => fun s hs hk => ⟨hp s hs hk.1, hk.2⟩
  | .step _ _, _, hp => by
      refine ⟨fun i s hs hk hc => ⟨fun r s' hx => ?_, fun e hx => ?_⟩,
        fun e => frame hF hrely (hp.2 e)⟩
      · obtain ⟨hs', hg, K', hst, hk', hn⟩ := (hp.1 i s hs hk.1 hc).1 r s' hx
        exact ⟨hs', hg, _, hst.and hF, ⟨hk', hF s s' hs hs' hk.2 (hrely _ s s' hs hs' hg)⟩,
          frame hF hrely hn⟩
      · obtain ⟨K', hst, hk', hn⟩ := (hp.1 i s hs hk.1 hc).2 e hx
        exact ⟨_, hst.and hF, ⟨hk', hk.2⟩, frame hF hrely hn⟩

/-- The frame rule for what the operations of a program leave alone. -/
theorem frame_uses {F : σ → Prop} {A : Op → Prop} (hF : Γ.Stable F)
    (hop : ∀ o i s r s', A o → F s → Γ.exec o i s = .ok (r, s') → F s') :
    ∀ {p : Prog ε Res α} {K : σ → Prop}, p.Uses A → Sat Γ p K Q E →
      Sat Γ p (fun s => K s ∧ F s) (fun a s => Q a s ∧ F s) fun e s => E e s ∧ F s
  | .done _, _, _, hp => fun s hs hk => ⟨hp s hs hk.1, hk.2⟩
  | .fail _, _, _, hp => fun s hs hk => ⟨hp s hs hk.1, hk.2⟩
  | .step _ _, _, hu, hp => by
      refine ⟨fun i s hs hk hc => ⟨fun r s' hx => ?_, fun e hx => ?_⟩,
        fun e => frame_uses hF hop (hu.2 _) (hp.2 e)⟩
      · obtain ⟨hs', hg, K', hst, hk', hn⟩ := (hp.1 i s hs hk.1 hc).1 r s' hx
        exact ⟨hs', hg, _, hst.and hF, ⟨hk', hop _ i s r s' hu.1 hk.2 hx⟩,
          frame_uses hF hop (hu.2 _) hn⟩
      · obtain ⟨K', hst, hk', hn⟩ := (hp.1 i s hs hk.1 hc).2 e hx
        exact ⟨_, hst.and hF, ⟨hk', hk.2⟩, frame_uses hF hop (hu.2 _) hn⟩

/-- **A program over fewer operations**, judged where only these exist. -/
theorem lift {σ ι ι' ε Op Op' : Type} {Res' : Op' → Type} {f : Op → Op'}
    {Γ : Setting σ ι ε fun o => Res' (f o)} {Δ : Setting σ ι' ε Res'} {α : Type}
    {Q : α → σ → Prop} {E : ε → σ → Prop} (hinv : Δ.inv = Γ.inv) (hrely : Δ.rely = Γ.rely)
    (g : Op → ι' → ι) (hexec : ∀ o i s, Δ.exec (f o) i s = Γ.exec o (g o i) s)
    (hcond : ∀ o i s, Δ.cond (f o) i s → Γ.cond o (g o i) s)
    (hguar : ∀ o s s', Γ.guar o s s' → Δ.guar (f o) s s') :
    ∀ {p : Prog ε (fun o => Res' (f o)) α} {K : σ → Prop}, Sat Γ p K Q E → Sat Δ (p.lift f) K Q E
  | .done _, _, hp => fun s hs hk => hp s (hinv ▸ hs) hk
  | .fail _, _, hp => fun s hs hk => hp s (hinv ▸ hs) hk
  | .step o next, K, hp => by
      have stable : ∀ K' : σ → Prop, Γ.Stable K' → Δ.Stable K' := fun K' h => by
        unfold Setting.Stable
        rw [hinv, hrely]
        exact h
      refine ⟨fun i s hs hk hc => ⟨fun r s' hx => ?_, fun e hx => ?_⟩,
        fun e => lift hinv hrely g hexec hcond hguar (hp.2 e)⟩
      · obtain ⟨hs', hg, K', hst, hk', hn⟩ :=
          (hp.1 (g o i) s (hinv ▸ hs) hk (hcond o i s hc)).1 r s' (hexec o i s ▸ hx)
        exact ⟨hinv ▸ hs', hguar o s s' hg, K', stable K' hst, hk',
          lift hinv hrely g hexec hcond hguar hn⟩
      · obtain ⟨K', hst, hk', hn⟩ :=
          (hp.1 (g o i) s (hinv ▸ hs) hk (hcond o i s hc)).2 e (hexec o i s ▸ hx)
        exact ⟨K', stable K' hst, hk', lift hinv hrely g hexec hcond hguar hn⟩

theorem lift_comap {σ ι ε Op Op' : Type} {Res' : Op' → Type} {f : Op → Op'}
    {Γ : Setting σ ι ε Res'} {α : Type} {Q : α → σ → Prop} {E : ε → σ → Prop} {K : σ → Prop}
    {p : Prog ε (fun o => Res' (f o)) α} (h : Sat (Γ.comap f) p K Q E) :
    Sat Γ (p.lift f) K Q E :=
  h.lift rfl rfl (fun _ i => i) (fun _ _ _ => rfl) (fun _ _ _ hc => hc) fun _ _ _ hg => hg

end Sat

end Process
