/-
**Lanes: several sequences of calls over one store.**

In each lane calls run one after the other, as one supervisor repeats a job; the operations of
different lanes interleave in any order.  What a lane does may be restricted by a condition of its
own, so the lanes can divide work among them, and each lane is judged with what the *other* lanes
promise: a call may rely on nobody else touching what belongs to its lane.

What lanes did in the past can be recorded beside the store, in a *history variable* that no
operation reads.  Every run is also a run with such a variable, so an invariant may speak of it.

Main definitions:

* `Lanes`, `LaneAct`, `Lanes.machine` — the machine;
* `LaneSetting`, `Lanes.Sound` — the settings of the lanes, and the premises of reasoning;
* `System.track` — a system with a history variable.

Main results:

* `Lanes.Sound.good` — the invariant holds in every state reached;
* `Lanes.reaches_track` — every run is a run with a history variable.
-/

import TradePulse.Process.Pool
import Mathlib.Logic.Function.Basic

set_option autoImplicit false

namespace Process

variable {J σ γ ι ε κ τ Op : Type} {Res : Op → Type}

/-- The store, and the call in progress in each lane. -/
structure Lanes (J σ ε : Type) {Op : Type} (Res : Op → Type) where
  store : σ
  proc : J → Prog ε Res Unit := fun _ => .done ()

/-- The actions of lanes. -/
inductive LaneAct (J ι ε κ τ : Type)
  | start (j : J) (c : κ)
  | run (j : J) (i : ι)
  | raise (j : J) (e : ε)
  | crash (j : J)
  | env (t : τ)

/-- The settings of lanes: they share the operations and the invariant. -/
structure LaneSetting (J σ ι ε : Type) {Op : Type} (Res : Op → Type) where
  exec : (o : Op) → ι → σ → Except ε (Res o × σ)
  inv : σ → Prop
  /-- What the others may do between two operations of a lane. -/
  rely : J → σ → σ → Prop
  cond : J → Op → ι → σ → Prop
  /-- What an operation of a lane promises. -/
  guar : J → σ → σ → Prop

/-- The setting of one lane. -/
def LaneSetting.at (Γ : LaneSetting J σ ι ε Res) (j : J) : Setting σ ι ε Res where
  exec := Γ.exec
  inv := Γ.inv
  rely := Γ.rely j
  cond := Γ.cond j
  guar _ := Γ.guar j

namespace Lanes

variable [DecidableEq J] (sys : System σ ι ε κ τ Res)

def step (w : Lanes J σ ε Res) : LaneAct J ι ε κ τ → Option (Lanes J σ ε Res)
  | .start j c =>
      if (w.proc j).finished then
        some { w with proc := Function.update w.proc j (sys.call c) }
      else none
  | .run j i => (sys.advance i w.store (w.proc j)).map fun r =>
      { store := r.1, proc := Function.update w.proc j r.2 }
  | .raise j e => (System.interrupt e (w.proc j)).map fun p =>
      { w with proc := Function.update w.proc j p }
  | .crash j => some { w with proc := Function.update w.proc j (.done ()) }
  | .env t => (sys.env t w.store).map fun s => { w with store := s }

/-- The machine of lanes. -/
def machine : Machine (Lanes J σ ε Res) (LaneAct J ι ε κ τ) := ⟨step sys⟩

/-- The operation that the action performs, if it performs one, meets the condition of its
lane. -/
def Meets (cond : J → Op → ι → σ → Prop) (w : Lanes J σ ε Res) : LaneAct J ι ε κ τ → Prop
  | .run j i => NextMeets (cond j) i w.store (w.proc j)
  | _ => True

instance (cond : J → Op → ι → σ → Prop) [∀ j o i s, Decidable (cond j o i s)]
    (w : Lanes J σ ε Res) : ∀ a : LaneAct J ι ε κ τ, Decidable (Meets cond w a)
  | .run _ _ => inferInstanceAs (Decidable (NextMeets _ _ _ _))
  | .start _ _ => isTrue trivial
  | .raise _ _ => isTrue trivial
  | .crash _ => isTrue trivial
  | .env _ => isTrue trivial

/-- The premises of reasoning about lanes. -/
structure Sound (Γ : LaneSetting J σ ι ε Res) : Prop where
  exec : Γ.exec = sys.exec
  guar : ∀ i j, i ≠ j → ∀ s s', Γ.inv s → Γ.inv s' → Γ.guar i s s' → Γ.rely j s s'
  env : ∀ t s s', Γ.inv s → sys.env t s = some s' → Γ.inv s' ∧ ∀ j, Γ.rely j s s'
  call : ∀ j c s, Γ.inv s → Known (Γ.at j) s (sys.call c)

/-- The invariant of the lanes: that of the store, and knowledge of the call of every lane. -/
def Good (Γ : LaneSetting J σ ι ε Res) (w : Lanes J σ ε Res) : Prop :=
  Γ.inv w.store ∧ ∀ j, Known (Γ.at j) w.store (w.proc j)

variable {sys} {Γ : LaneSetting J σ ι ε Res} {w w' : Lanes J σ ε Res} {a : LaneAct J ι ε κ τ}

omit [DecidableEq J] in
theorem good_init {s : σ} (hs : Γ.inv s) : Good Γ (⟨s, fun _ => .done ()⟩ : Lanes J σ ε Res) :=
  ⟨hs, fun j => .done (Γ.at j) s⟩

theorem known_update {s : σ} {p : Prog ε Res Unit} {j : J} (hp : Known (Γ.at j) s p)
    (h : ∀ k, k ≠ j → Known (Γ.at k) s (w.proc k)) (k : J) :
    Known (Γ.at k) s (Function.update w.proc j p k) := by
  by_cases hk : k = j
  · subst hk
    rw [Function.update_self]
    exact hp
  · rw [Function.update_of_ne hk]
    exact h k hk

/-- **The step lemma of lanes.** -/
theorem Sound.step_good (h : Sound sys Γ) (hw : Good Γ w) (hm : Meets Γ.cond w a)
    (hstep : (machine sys).step w a = some w') : Good Γ w' := by
  obtain ⟨hs, hp⟩ := hw
  cases a with
  | start j c =>
      simp only [machine, step] at hstep
      split at hstep
      · obtain rfl : _ = w' := by simpa using hstep
        exact ⟨hs, known_update (h.call j c w.store hs) fun k _ => hp k⟩
      · exact absurd hstep (by simp)
  | run j i =>
      simp only [machine, step, Option.map_eq_some_iff] at hstep
      obtain ⟨⟨s', p'⟩, ha, rfl⟩ := hstep
      obtain ⟨hs', hk', hmove⟩ := (hp j).advance (Γ := Γ.at j) h.exec hs hm ha
      refine ⟨hs', known_update hk' fun k hk => ?_⟩
      rcases hmove with rfl | ⟨_, hg⟩
      · exact hp k
      · exact (hp k).rely hs hs' (h.guar j k (Ne.symm hk) _ _ hs hs' hg)
  | raise j e =>
      simp only [machine, step, Option.map_eq_some_iff] at hstep
      obtain ⟨p', hi, rfl⟩ := hstep
      exact ⟨hs, known_update ((hp j).interrupt hi) fun k _ => hp k⟩
  | crash j =>
      obtain rfl : _ = w' := by simpa [machine, step] using hstep
      exact ⟨hs, known_update (.done (Γ.at j) w.store) fun k _ => hp k⟩
  | env t =>
      simp only [machine, step, Option.map_eq_some_iff] at hstep
      obtain ⟨s', ht, rfl⟩ := hstep
      obtain ⟨hs', hr⟩ := h.env t _ _ hs ht
      exact ⟨hs', fun j => (hp j).rely hs hs' (hr j)⟩

/-- **Every state reached keeps the invariant and the knowledge of its calls.** -/
theorem Sound.good (h : Sound sys Γ) (hw : Good Γ w)
    (hr : (machine sys).Reaches (Meets Γ.cond) w w') : Good Γ w' :=
  hr.invariant hw fun _ _ _ hg hm hs => h.step_good hg hm hs

end Lanes

/-! ### History variables -/

namespace System

/-- A system with a history variable, updated from the operation and the store it finds. -/
def track (sys : System σ ι ε κ τ Res) (u : Op → σ → γ → γ) :
    System (σ × γ) ι ε κ τ Res where
  exec o i s := (sys.exec o i s.1).map fun r => (r.1, (r.2, u o s.1 s.2))
  call := sys.call
  env t s := (sys.env t s.1).map fun s' => (s', s.2)

variable {sys : System σ ι ε κ τ Res} {u : Op → σ → γ → γ}

theorem track_exec_ok {o : Op} {i : ι} {s s' : σ × γ} {r : Res o} :
    (sys.track u).exec o i s = .ok (r, s') ↔
      sys.exec o i s.1 = .ok (r, s'.1) ∧ s'.2 = u o s.1 s.2 := by
  simp only [track]
  cases hx : sys.exec o i s.1 with
  | error e => simp [Except.map]
  | ok p =>
      obtain ⟨r', t⟩ := p
      obtain ⟨s'₁, s'₂⟩ := s'
      simp only [Except.map, Except.ok.injEq, Prod.mk.injEq]
      constructor
      · rintro ⟨rfl, rfl, rfl⟩
        exact ⟨⟨rfl, rfl⟩, rfl⟩
      · rintro ⟨⟨rfl, rfl⟩, rfl⟩
        exact ⟨rfl, rfl, rfl⟩

/-- One operation is also one with a history variable. -/
theorem advance_track {i : ι} {s s' : σ} {g : γ} {p p' : Prog ε Res Unit}
    (h : sys.advance i s p = some (s', p')) :
    ∃ g', (sys.track u).advance i (s, g) p = some ((s', g'), p') := by
  cases p with
  | done a => simp [advance] at h
  | fail e => simp [advance] at h
  | step o next =>
      simp only [advance] at h ⊢
      cases hx : sys.exec o i s with
      | ok q =>
          obtain ⟨r, t⟩ := q
          rw [hx] at h
          obtain ⟨rfl, rfl⟩ : t = s' ∧ next (.ok r) = p' := by simpa using h
          have hx' : (sys.track u).exec o i (s, g) = .ok (r, (t, u o s g)) :=
            track_exec_ok.2 ⟨hx, rfl⟩
          exact ⟨u o s g, by rw [hx']⟩
      | error e =>
          rw [hx] at h
          obtain ⟨rfl, rfl⟩ : s = s' ∧ next (.error e) = p' := by simpa using h
          have hx' : (sys.track u).exec o i (s, g) = .error e := by
            simp [track, hx, Except.map]
          exact ⟨g, by rw [hx']⟩

end System

/-- **Every run is a run with a history variable.** -/
theorem Lanes.reaches_track [DecidableEq J] {sys : System σ ι ε κ τ Res}
    (u : Op → σ → γ → γ) {cond : J → Op → ι → σ → Prop} {w w' : Lanes J σ ε Res} (g : γ)
    (h : (Lanes.machine sys).Reaches (Lanes.Meets cond) w w') :
    ∃ g', (Lanes.machine (sys.track u)).Reaches (Lanes.Meets fun j o i s => cond j o i s.1)
      ⟨(w.store, g), w.proc⟩ ⟨(w'.store, g'), w'.proc⟩ := by
  induction h with
  | refl => exact ⟨g, .refl⟩
  | @tail v v' a _ hok hstep ih =>
      obtain ⟨g', hreach⟩ := ih
      have next : ∃ g'', (Lanes.machine (sys.track u)).step ⟨(v.store, g'), v.proc⟩ a
          = some ⟨(v'.store, g''), v'.proc⟩ := by
        cases a with
        | start j c =>
            simp only [machine, step] at hstep ⊢
            split at hstep
            · rename_i hfinished
              cases hstep
              exact ⟨g', if_pos hfinished⟩
            · cases hstep
        | run j i =>
            simp only [machine, step, Option.map_eq_some_iff] at hstep
            obtain ⟨⟨s', p'⟩, ha, rfl⟩ := hstep
            obtain ⟨g'', ha'⟩ := System.advance_track (u := u) (g := g') ha
            exact ⟨g'', by simp [machine, step, ha']⟩
        | raise j e =>
            simp only [machine, step, Option.map_eq_some_iff] at hstep
            obtain ⟨p', hi, rfl⟩ := hstep
            exact ⟨g', by simp [machine, step, hi]⟩
        | crash j =>
            cases hstep
            exact ⟨g', rfl⟩
        | env t =>
            simp only [machine, step, Option.map_eq_some_iff] at hstep
            obtain ⟨s', ht, rfl⟩ := hstep
            exact ⟨g', by simp [machine, step, System.track, ht]⟩
      obtain ⟨g'', hstep'⟩ := next
      refine ⟨g'', hreach.tail ?_ hstep'⟩
      cases a with
      | run j i => exact hok
      | _ => trivial

end Process
