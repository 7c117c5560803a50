/-
**A dividend decision accounts for its group.**

The quantities of all holders together are those that the broker paid for, or nothing is attributed;
and what is attributed is the whole amount of each activity of the group.  The order in which lots,
announcements and withholdings are listed changes nothing.  This rests on announcements whose dates
and amounts can be read: they are stored as the broker wrote them, and a date that is not known yet
raises.  And an income for no shares at all, which two opposite holdings explain, is divided by zero.

Main definitions:

* `Evidence.Distinct` — the lots and the inherited holding are different holders;
* `Announcement.Readable`, `Member.Readable` — what a decision reads of them can be read;
* `Decision.Alike` — the same decision, but for the order of its rows;
* `Decision.Accounts` — what a decision accounts for.

Main results:

* `attributed_notRaised` — nothing is divided by zero where the quantity is positive;
* `decideIncome_accounts` — a group that is attributed is accounted for;
* `decideIncome_alike` — the order of the evidence does not matter;
* `dividend_accounted` — **every decision accounts for its group, in whatever order it is read**;
* `dividend_undated` — an announcement without a payable date, and the division by zero.
-/

import TradePulse.Reconciliation.Entitlement

set_option autoImplicit false

namespace TradePulse

namespace Dividends

open HistoricalFees Storage Sizing

/-! ### The decision -/

section Decision

variable {newYork : Instant → LocalTime} {symbol : String} {group group' : List Member}
  {income : Member} {consumed : List String} {e e' : Evidence} {representation : Representation}
  {d : Decision} {qty : ℚ} {one : Evaluated}

/-- What the callers see to: the lots have identities of their own, and an inherited holding is no
lot and under one of its two buckets. -/
structure Evidence.Distinct (e : Evidence) : Prop where
  lots : (e.lots.map StrategyLot.lotId).Nodup
  holder : ∀ exDate i, e.inheritedFor exDate = some i →
    i.holderId ∉ e.lots.map StrategyLot.lotId
  bucket : ∀ exDate i, e.inheritedFor exDate = some i →
    i.bucket = "adopted" ∨ i.bucket = "opening_unadopted"

/-- What a decision reads of an announcement of cash can be read. -/
structure Announcement.Readable (a : Announcement) : Prop where
  cash : ∀ text, a.cash = some text → ∃ number, text = .ok number
  exDate : ∃ day, a.exDate = .ok day
  payableDate : ∃ day, a.payableDate = .ok day

/-- So can what an activity says was withheld. -/
def Member.Readable (m : Member) : Prop :=
  ∀ text, m.withheld = some text → ∃ number, text = .ok number

/-- The evidence can be read. -/
def Evidence.Readable (e : Evidence) : Prop :=
  ∀ a ∈ e.announcements, a.caSubType = some "cash" → a.Readable

/-- The decision about a group that says what it was paid for. -/
theorem decideIncome_eq {rate : ℚ} (hqty : income.qty = some qty)
    (hrate : income.rate = some rate) :
    decideIncome newYork symbol group income consumed e representation = (do
      haltIf (e.quarantined = true) (.unresolved "DIVIDEND_ON_QUARANTINED_INSTRUMENT" none)
      haltIf (representation = .unknown) (.unresolved "DIVIDEND_REPRESENTATION_UNKNOWN" none)
      let found ← candidates symbol rate e.credit e.announcements consumed
      haltUnfound found e.credit e.announcements
      let evaluated ← found.mapM (evaluate newYork e)
      let one ← chosen evaluated qty
      attributed group income representation qty one) := by
  unfold decideIncome
  rw [hqty, hrate]

theorem orUnresolved_ok {α : Type} {x : Except String α} {a : α} (h : orUnresolved x = .ok a) :
    x = .ok a := by
  cases x with
  | error reason => cases h
  | ok b => exact congrArg Except.ok (Except.ok.inj h)

theorem orRaised_ok {α : Type} {x : Except Raised α} {a : α} (h : orRaised x = .ok a) :
    x = .ok a := by
  cases x with
  | error raised => cases h
  | ok b => exact congrArg Except.ok (Except.ok.inj h)

theorem orRaised_bind {α β : Type} (a : α) (f : α → Except Halt β) :
    (orRaised (.ok a) >>= f) = f a := rfl

/-! ### Announcements that can be read -/

theorem isCandidate_readable {item : Announcement} {rate : ℚ} {credit : ℤ}
    (h : item.caSubType = some "cash" → item.Readable) :
    ∃ b, isCandidate symbol rate credit consumed item = .ok b := by
  unfold isCandidate
  split
  · exact ⟨_, rfl⟩
  · rename_i hcash
    obtain ⟨-, hcash⟩ := not_or.1 hcash
    have hreadable := h (not_not.1 hcash)
    split
    · exact ⟨_, rfl⟩
    · split
      · exact ⟨_, rfl⟩
      · rename_i text htext
        obtain ⟨number, rfl⟩ := hreadable.cash text htext
        obtain ⟨day, hday⟩ := hreadable.payableDate
        by_cases hrate : number = some rate
        · exact ⟨day ≤ credit, by simp [orRaised, hrate, payableBy, hday, bind, Except.bind,
            pure, Except.pure]⟩
        · exact ⟨false, by simp [orRaised, hrate, bind, Except.bind]⟩

/-- The test for a candidate, where it does not raise. -/
def passesAs (p : Announcement → Except Halt Bool) (item : Announcement) : Bool :=
  (p item).toOption.getD false

theorem candidates_readable (hreadable : e.Readable) (rate : ℚ) :
    candidates symbol rate e.credit e.announcements consumed =
      .ok (e.announcements.filter (passesAs (isCandidate symbol rate e.credit consumed))) :=
  filterIn_of_ok fun item hitem => isCandidate_readable (hreadable item hitem)

theorem rated_readable (hreadable : e.Readable) :
    rated e.credit e.announcements = .ok (e.announcements.filter (passesAs fun item =>
      if item.caSubType = some "cash" then payableBy e.credit item else .ok false)) := by
  refine filterIn_of_ok fun item hitem => ?_
  split
  · rename_i hcash
    obtain ⟨day, hday⟩ := (hreadable item hitem hcash).payableDate
    exact ⟨day ≤ e.credit, by simp [payableBy, orRaised, hday, bind, Except.bind, pure,
      Except.pure]⟩
  · exact ⟨false, rfl⟩

theorem cash_of_candidate {rate : ℚ} {credit : ℤ} {item : Announcement}
    (h : passesAs (isCandidate symbol rate credit consumed) item = true) :
    item.caSubType = some "cash" := by
  by_contra hcash
  simp [passesAs, isCandidate, hcash, Except.toOption] at h

/-- What is evaluated holds what the strategy held, and weighs it separately. -/
theorem evaluate_sound (hknown : e.Distinct) {item : Announcement}
    (h : evaluate newYork e item = .ok one) :
    one.announcement = item ∧ (∀ x ∈ one.strategy.entries, 0 < x.2) ∧
      (∀ i, one.inherited = some i → i.holderId ∉ one.strategy.keys) ∧
      (∀ i, one.inherited = some i → i.bucket = "adopted" ∨ i.bucket = "opening_unadopted") ∧
      ∃ exDate, item.exDate = .ok exDate ∧
        ∀ x ∈ one.strategy.entries, ∃ lot ∈ e.lots, lot.lotId = x.1 ∧
          Before newYork exDate lot.openedAt ∧ x.2 = heldAtStart newYork exDate lot := by
  obtain ⟨exDate, hdate, h⟩ := except_bind_eq_ok.1 h
  obtain ⟨strategy, hstrategy, h⟩ := except_bind_eq_ok.1 h
  obtain rfl := Except.ok.inj h
  have hheld := fun k q hmem =>
    held_of_eligible (k := k) (q := q) hknown.lots (orUnresolved_ok hstrategy) hmem
  refine ⟨rfl, fun x hx => ?_, fun i hi hmem => ?_, fun i hi => hknown.bucket _ i hi,
    exDate, orRaised_ok hdate, fun x hx => ?_⟩
  · obtain ⟨lot, -, -, -, -, hpos⟩ := hheld x.1 x.2 hx
    exact hpos
  · obtain ⟨q, hq⟩ := OrderedDict.mem_keys.1 hmem
    obtain ⟨lot, hlot, hid, -⟩ := hheld _ q hq
    exact hknown.holder _ i hi (List.mem_map.2 ⟨lot, hlot, hid⟩)
  · obtain ⟨lot, hlot, hid, hbefore, hquantity, -⟩ := hheld x.1 x.2 hx
    exact ⟨lot, hlot, hid, hbefore, hquantity⟩

/-- An outcome that is no exception. -/
def NotRaised {α : Type} (x : Except Halt α) : Prop := ∀ raised, x ≠ .error (.raised raised)

theorem notRaised_ok {α : Type} (a : α) : NotRaised (.ok a) := by rintro _ ⟨⟩

theorem notRaised_bind {α β : Type} {x : Except Halt α} {f : α → Except Halt β}
    (hx : NotRaised x) (hf : ∀ a, x = .ok a → NotRaised (f a)) : NotRaised (x >>= f) := by
  cases x with
  | error halt => exact fun raised h => hx raised (congrArg Except.error (Except.error.inj h))
  | ok a => exact hf a rfl

theorem haltIf_notRaised {p : Prop} [Decidable p] {halt : Halt}
    (h : ∀ raised, halt ≠ .raised raised) : NotRaised (haltIf p halt) := by
  intro raised
  unfold haltIf
  split
  · exact fun heq => h raised (Except.error.inj heq)
  · rintro ⟨⟩

theorem chosen_notRaised (evaluated : List Evaluated) (qty : ℚ) :
    NotRaised (chosen evaluated qty) := by
  intro raised
  unfold chosen
  split
  · rintro ⟨⟩
  · rintro ⟨⟩
  · split
    · split <;> rintro ⟨⟩
    · rintro ⟨⟩

theorem weigh_notRaised (one : Evaluated) (qty : ℚ) : NotRaised (weigh one qty) := by
  intro raised
  unfold weigh
  dsimp only
  split
  · split
    · rintro ⟨⟩
    · split <;> rintro ⟨⟩
  · split
    · rintro ⟨⟩
    · split <;> rintro ⟨⟩

theorem orUnresolved_notRaised {α : Type} (x : Except String α) : NotRaised (orUnresolved x) := by
  intro raised
  cases x <;> rintro ⟨⟩

theorem haltUnfound_readable (hreadable : e.Readable) (found : List Announcement) :
    haltUnfound found e.credit e.announcements =
      if found ≠ [] then .ok ()
      else .error (.pending (if e.announcements.filter (passesAs fun item =>
          if item.caSubType = some "cash" then payableBy e.credit item else .ok false) ≠ []
        then "DIVIDEND_RATE_MISMATCH" else "DIVIDEND_ANNOUNCEMENT_NOT_FOUND")) := by
  unfold haltUnfound
  rw [rated_readable hreadable]
  rfl

theorem haltUnfound_notRaised (hreadable : e.Readable) (found : List Announcement) :
    NotRaised (haltUnfound found e.credit e.announcements) := by
  rw [haltUnfound_readable hreadable]
  split <;> rintro raised ⟨⟩

theorem evaluate_notRaised {item : Announcement} (h : item.Readable) :
    NotRaised (evaluate newYork e item) := by
  obtain ⟨day, hday⟩ := h.exDate
  unfold evaluate
  rw [hday, orRaised_bind]
  exact notRaised_bind (orUnresolved_notRaised _) fun _ _ => notRaised_ok _

theorem mapM_notRaised {α β : Type} {f : α → Except Halt β} {l : List α}
    (h : ∀ a ∈ l, NotRaised (f a)) : NotRaised (l.mapM f) := by
  intro raised herror
  obtain ⟨a, ha, hfa⟩ := exists_error_of_mapM herror
  exact h a ha raised hfa

/-- What was withheld is summed, or not named. -/
theorem withheldTotal_readable {withholdings : List Member}
    (h : ∀ w ∈ withholdings, w.Readable) : ∃ total, withheldTotal withholdings = .ok total := by
  induction withholdings with
  | nil => exact ⟨_, rfl⟩
  | cons w rest ih =>
      obtain ⟨total, htotal⟩ := ih fun x hx => h x (List.mem_cons_of_mem w hx)
      unfold withheldTotal
      split
      · exact ⟨_, rfl⟩
      · rename_i text htext
        obtain ⟨number, rfl⟩ := h w List.mem_cons_self text htext
        rw [htotal]
        exact ⟨_, rfl⟩

theorem amountCheck_notRaised {withholdings : List Member} (h : ∀ w ∈ withholdings, w.Readable) :
    NotRaised (amountCheck income withholdings representation) := by
  unfold amountCheck
  split
  · dsimp only
    split
    · exact notRaised_ok _
    · split
      · exact notRaised_ok _
      · obtain ⟨total, htotal⟩ := withheldTotal_readable h
        rw [htotal]
        exact notRaised_ok _
    · exact notRaised_ok _
  · exact notRaised_ok _

/-- **No exception**: where the quantity is positive, nothing is divided by zero. -/
theorem attributed_notRaised (hone : one.announcement.Readable) (hgroup : ∀ m ∈ group, m.Readable)
    (hpos : ∀ x ∈ one.strategy.entries, 0 < x.2)
    (hholder : ∀ i, one.inherited = some i → i.holderId ∉ one.strategy.keys)
    (hchosen : one.explains qty = true ∨ one.unestablished = true) (hqty : 0 < qty) :
    NotRaised (attributed group income representation qty one) := by
  obtain ⟨exDay, hex⟩ := hone.exDate
  obtain ⟨payableDay, hpayable⟩ := hone.payableDate
  unfold attributed
  rw [hex, hpayable, orRaised_bind, orRaised_bind]
  refine notRaised_bind (haltIf_notRaised (by rintro _ ⟨⟩)) fun _ _ => ?_
  refine notRaised_bind (amountCheck_notRaised fun w hw => hgroup w (List.mem_of_mem_filter hw))
    fun failure _ => ?_
  cases failure with
  | some failure => dsimp only; split <;> rintro _ ⟨⟩
  | none =>
      refine notRaised_bind (weigh_notRaised one qty) fun w hw => ?_
      have hsound := (weigh_sound hpos hholder hqty (weigh_ok hchosen hw)).1
      refine notRaised_bind (haltIf_notRaised (by rintro _ ⟨⟩)) fun _ _ => ?_
      refine notRaised_bind (mapM_notRaised fun m _ raised h => ?_) fun rows _ => notRaised_ok _
      cases rowsOf_error hsound h

end Decision

/-! ### The order in which the evidence is listed -/

section Order

variable {newYork : Instant → LocalTime} {symbol : String} {group group' : List Member}
  {income : Member} {consumed : List String} {e e' : Evidence} {representation : Representation}
  {qty : ℚ} {one one' : Evaluated} {evaluated evaluated' : List Evaluated}
  {a : AnnouncementRef} {weights weights' : OrderedDict String Share} {m : Member}

/-- The same decision, but for the order of its rows. -/
structure Decision.Alike (d d' : Decision) : Prop where
  status : d.attributionStatus = d'.attributionStatus
  entitlement : d.entitlementEstablished = d'.entitlementEstablished
  reason : d.reason = d'.reason
  announcement : d.announcement = d'.announcement
  rows : d.rows.Perm d'.rows

theorem Decision.Alike.refl (d : Decision) : d.Alike d := ⟨rfl, rfl, rfl, rfl, .refl _⟩

/-- The same evaluation, but for the order of the lots. -/
structure Evaluated.Alike (one one' : Evaluated) : Prop where
  announcement : one.announcement = one'.announcement
  strategy : one.strategy.entries.Perm one'.strategy.entries
  inherited : one.inherited = one'.inherited

theorem Evaluated.Alike.total (h : one.Alike one') : one.total = one'.total :=
  (h.strategy.map Prod.snd).sum_eq

theorem Evaluated.Alike.explains (h : one.Alike one') (qty : ℚ) :
    one.explains qty = one'.explains qty := by
  rw [Evaluated.explains, Evaluated.explains, h.total, h.inherited]

theorem Evaluated.Alike.unestablished (h : one.Alike one') :
    one.unestablished = one'.unestablished := by
  rw [Evaluated.unestablished, Evaluated.unestablished, h.inherited]

theorem forall₂_filter_explains (qty : ℚ) (h : List.Forall₂ Evaluated.Alike evaluated evaluated') :
    List.Forall₂ Evaluated.Alike (evaluated.filter (·.explains qty))
      (evaluated'.filter (·.explains qty)) := by
  induction h with
  | nil => exact .nil
  | cons hone _ ih =>
      rw [List.filter_cons, List.filter_cons, hone.explains]
      split
      · exact .cons hone ih
      · exact ih

/-- The choice depends on the evaluations only. -/
theorem chosen_alike (h : List.Forall₂ Evaluated.Alike evaluated evaluated') :
    Agrees Evaluated.Alike (chosen evaluated qty) (chosen evaluated' qty) := by
  have hall : evaluated.all Evaluated.unestablished = evaluated'.all Evaluated.unestablished := by
    induction h with
    | nil => rfl
    | cons hone _ ih => rw [List.all_cons, List.all_cons, hone.unestablished, ih]
  have hfilter := forall₂_filter_explains qty h
  unfold chosen
  generalize evaluated.filter (·.explains qty) = l at hfilter
  generalize evaluated'.filter (·.explains qty) = l' at hfilter
  cases hfilter with
  | nil =>
      dsimp only
      rw [hall]
      split
      · cases h with
        | nil => exact .error _
        | cons hone hrest =>
            cases hrest with
            | nil => exact .ok hone
            | cons _ _ => exact .error _
      · exact .error _
  | cons hone hrest =>
      cases hrest with
      | nil => exact .ok hone
      | cons _ _ => exact .error _

theorem chosen_perm (h : evaluated.Perm evaluated') :
    chosen evaluated qty = chosen evaluated' qty := by
  have hall : evaluated.all Evaluated.unestablished = evaluated'.all Evaluated.unestablished := by
    rw [Bool.eq_iff_iff, List.all_eq_true, List.all_eq_true]
    exact ⟨fun hl x hx => hl x (h.mem_iff.2 hx), fun hl x hx => hl x (h.mem_iff.1 hx)⟩
  have hfilter := h.filter (·.explains qty)
  unfold chosen
  generalize evaluated.filter (·.explains qty) = l at hfilter
  generalize evaluated'.filter (·.explains qty) = l' at hfilter
  rcases l with _ | ⟨x, _ | ⟨y, rest⟩⟩
  · rw [List.nil_perm.1 hfilter]
    dsimp only
    rw [hall]
    rcases evaluated with _ | ⟨x, _ | ⟨y, rest⟩⟩
    · rw [List.nil_perm.1 h]
    · rw [List.singleton_perm.1 h]
    · have hlength := h.length_eq
      rcases evaluated' with _ | ⟨x', _ | ⟨y', rest'⟩⟩
      · simp at hlength
      · simp at hlength
      · rfl
  · rw [← List.singleton_perm.1 hfilter]
  · have hlength := hfilter.length_eq
    rcases l' with _ | ⟨x', _ | ⟨y', rest'⟩⟩
    · simp at hlength
    · simp at hlength
    · rfl

theorem agrees_orUnresolved {α β : Type} {R : α → β → Prop} {x : Except String α}
    {y : Except String β} (h : Agrees R x y) : Agrees R (orUnresolved x) (orUnresolved y) := by
  cases h with
  | error reason => exact .error _
  | ok hab => exact .ok hab

theorem evaluate_alike (hknown : e.Distinct) (hlots : e.lots.Perm e'.lots)
    (hinherited : e'.inheritedFor = e.inheritedFor) (item : Announcement) :
    Agrees Evaluated.Alike (evaluate newYork e item) (evaluate newYork e' item) := by
  refine (Agrees.of_eq (R := Eq) (fun _ => rfl) rfl).bind fun exDate _ hsame => ?_
  subst hsame
  refine (agrees_orUnresolved (eligibleStrategy_perm hknown.lots hlots)).bind
    fun strategy strategy' hperm => .ok ?_
  exact ⟨rfl, hperm, by rw [hinherited]⟩

/-- An announcement that can be read fails for one reason only. -/
theorem evaluate_error {item : Announcement} (hitem : item.Readable) {halt : Halt}
    (h : evaluate newYork e item = .error halt) :
    halt = .unresolved "DIVIDEND_TRADE_DATE_AMBIGUOUS" none := by
  obtain ⟨day, hday⟩ := hitem.exDate
  unfold evaluate at h
  rw [hday, orRaised_bind, eligibleStrategy_eq] at h
  cases hfound : e.lots.mapM (entitled newYork day) with
  | error reason =>
      obtain ⟨lot, -, hlot⟩ := exists_error_of_mapM hfound
      rw [hfound] at h
      rw [← Except.error.inj h, entitled_error hlot]
  | ok found =>
      rw [hfound] at h
      cases h

/-! ### The rows in another order -/

theorem weightsOf_perm (h : weights.entries.Perm weights'.entries) :
    (weightsOf weights).Perm (weightsOf weights') := h.map _

/-- The rows of an activity do not depend on the order of the holders. -/
theorem rowsOf_perm (hs : Shareable weights) (h : weights.entries.Perm weights'.entries) :
    Agrees List.Perm (rowsOf a weights m) (rowsOf a weights' m) := by
  have hweights := weightsOf_perm h
  have htotal := (hweights.map Prod.snd).sum_eq
  have hsplit : Agrees List.Perm (split m.amount weights) (split m.amount weights') := by
    by_cases hcents : m.amount = roundToCent m.amount
    · have hwhole := wholeUnits_of_roundToCent hcents
      rw [split_ok hwhole hs.total_pos.ne', split_ok hwhole (htotal ▸ hs.total_pos.ne')]
      refine .ok (List.Perm.map _ (roundedShares_perm ?_ ?_))
      · rw [keys_quotas, keys_weightsOf]
        exact weights.nodup_keys
      · rw [quotas, quotas, htotal]
        exact hweights.map _
    · rw [split, split, haltIf, if_pos hcents]
      exact .error _
  refine hsplit.bind fun parts parts' hperm => .ok ?_
  simp only [OrderedDict.get?_perm h]
  exact hperm.filterMap _

theorem perm_flatten {α : Type} {l l' : List (List α)} (h : List.Forall₂ List.Perm l l') :
    l.flatten.Perm l'.flatten := by
  induction h with
  | nil => exact .refl _
  | cons hrow _ ih => exact hrow.append ih

/-- The weights of the holders, in the order of the lots. -/
theorem weigh_alike (qty : ℚ) (h : one.Alike one') :
    Agrees (fun w w' => w.status = w'.status ∧ w.established = w'.established ∧
      w.weights.entries.Perm w'.weights.entries) (weigh one qty) (weigh one' qty) := by
  have hshares : (strategyShares one.strategy).entries.Perm
      (strategyShares one'.strategy).entries := by
    rw [entries_strategyShares, entries_strategyShares]
    exact h.strategy.map _
  unfold weigh
  dsimp only
  rw [h.inherited, h.total]
  cases one'.inherited with
  | none =>
      dsimp only
      split
      · exact .ok ⟨rfl, rfl, .refl _⟩
      · split
        · exact .ok ⟨rfl, rfl, hshares⟩
        · exact .error _
  | some i =>
      dsimp only
      split
      · refine .ok ⟨rfl, rfl, ?_⟩
        dsimp only
        split
        · exact hshares
        · exact OrderedDict.perm_insert hshares _ _
      · split
        · exact .ok ⟨rfl, rfl, .refl _⟩
        · exact .error _

/-- What was withheld may be summed in any order. -/
theorem withheldTotal_perm {withholdings withholdings' : List Member}
    (h : withholdings.Perm withholdings') (hreadable : ∀ w ∈ withholdings, w.Readable) :
    withheldTotal withholdings = withheldTotal withholdings' := by
  induction h with
  | nil => rfl
  | cons w _ ih =>
      unfold withheldTotal
      rw [ih fun x hx => hreadable x (List.mem_cons_of_mem w hx)]
  | swap w w' rest =>
      have hrest : ∀ x ∈ rest, x.Readable := fun x hx =>
        hreadable x (List.mem_cons_of_mem _ (List.mem_cons_of_mem _ hx))
      obtain ⟨total, htotal⟩ := withheldTotal_readable hrest
      simp only [withheldTotal, htotal]
      cases hw : w.withheld with
      | none =>
          cases hw' : w'.withheld with
          | none => rfl
          | some text =>
              obtain ⟨number, rfl⟩ := hreadable w' (by simp) text hw'
              rfl
      | some text =>
          obtain ⟨number, rfl⟩ := hreadable w (by simp) text hw
          cases hw' : w'.withheld with
          | none => rfl
          | some text' =>
              obtain ⟨number', rfl⟩ := hreadable w' (by simp) text' hw'
              -- both amounts are added, one before the other
              cases total with
              | none => rfl
              | some total =>
                  cases number <;> cases number' <;> cases total <;>
                    simp [bind, Except.bind, pure, Except.pure, add_left_comm]
  | trans h _ ih ih' =>
      rw [ih hreadable, ih' fun w hw => hreadable w (h.mem_iff.2 hw)]

/-- The withholdings may be checked in any order. -/
theorem amountCheck_perm {withholdings withholdings' : List Member}
    (h : withholdings.Perm withholdings') (hreadable : ∀ w ∈ withholdings, w.Readable) :
    amountCheck income withholdings representation =
      amountCheck income withholdings' representation := by
  have hany : ∀ p : Member → Bool, withholdings.any p = withholdings'.any p := by
    intro p
    rw [Bool.eq_iff_iff, List.any_eq_true, List.any_eq_true]
    exact exists_congr fun w => and_congr_left fun _ => h.mem_iff
  unfold amountCheck
  simp only [hany, (h.map fun w => -w.amount).sum_eq, withheldTotal_perm h hreadable]

end Order

/-! ### Every decision accounts for its group -/

section Accounted

variable {newYork : Instant → LocalTime} {symbol : String} {group group' : List Member}
  {income : Member} {consumed : List String} {e e' : Evidence} {representation : Representation}
  {d : Decision} {qty : ℚ} {one one' : Evaluated}

/-- What the weighing of an evaluation rests on. -/
structure Evaluated.Weighable (one : Evaluated) (qty : ℚ) : Prop where
  positive : ∀ x ∈ one.strategy.entries, 0 < x.2
  holder : ∀ i, one.inherited = some i → i.holderId ∉ one.strategy.keys
  chosen : one.explains qty = true ∨ one.unestablished = true

theorem Evaluated.Weighable.shareable (h : one.Weighable qty) (hqty : 0 < qty) {w : Weighing}
    (hw : weigh one qty = .ok w) : Shareable w.weights :=
  (weigh_sound h.positive h.holder hqty (weigh_ok h.chosen hw)).1

/-- What follows the choice does not depend on the order of the lots and withholdings. -/
theorem attributed_alike (hone : one.Alike one') (hweighable : one.Weighable qty) (hqty : 0 < qty)
    (hreadable : ∀ m ∈ group, m.Readable) (hgroup : group.Perm group') :
    Agrees Decision.Alike (attributed group income representation qty one)
      (attributed group' income representation qty one') := by
  unfold attributed
  rw [hone.announcement, amountCheck_perm (hgroup.filter _) fun w hw =>
    hreadable w (List.mem_of_mem_filter hw)]
  iterate 3
    refine (Agrees.of_eq (R := Eq) (fun _ => rfl) rfl).bind fun _ _ hsame => ?_
    subst hsame
  refine (Agrees.of_eq (R := Eq) (fun _ => rfl) rfl).bind fun failure _ hsame => ?_
  subst hsame
  split
  · exact Agrees.of_eq Decision.Alike.refl rfl
  · refine (weigh_alike qty hone).bind_ok fun w w' hw _ hsame => ?_
    obtain ⟨hstatus, hestablished, hperm⟩ := hsame
    have hs := hweighable.shareable hqty hw
    have hempty : w.weights.entries = [] ↔ w'.weights.entries = [] := by
      rw [← List.length_eq_zero_iff, ← List.length_eq_zero_iff, hperm.length_eq]
    simp only [haltIf, hempty]
    refine (Agrees.of_eq (R := fun _ _ => True) (fun _ => trivial) rfl).bind fun _ _ _ => ?_
    -- first the holders of each activity, then the activities, in another order
    have hrows := agrees_mapM (P := Eq) (S := List.Perm)
      (f := rowsOf one'.announcement.toAnnouncementRef w.weights)
      (g := rowsOf one'.announcement.toAnnouncementRef w'.weights) (List.forall₂_refl group)
      (by rintro m _ rfl; exact rowsOf_perm hs hperm)
    have hs' : Shareable w'.weights := by
      have hweights := weightsOf_perm hperm
      refine ⟨(hweights.map Prod.snd).sum_eq ▸ hs.total_pos, ?_⟩
      rw [← hweights.countP_eq]
      exact hs.short
    have hactivities := agrees_mapM_perm
      (f := rowsOf one'.announcement.toAnnouncementRef w'.weights) hgroup
      fun m _ halt hhalt => rowsOf_error hs' hhalt
    have hboth : Agrees (fun rows rows' : List (List AttributionRow) =>
        rows.flatten.Perm rows'.flatten) _ _ :=
      hrows.trans hactivities fun _ _ _ h h' => (perm_flatten h).trans h'.flatten
    refine hboth.bind fun rows rows' hflat => .ok ?_
    exact ⟨hstatus, by rw [hestablished], rfl, rfl, hflat⟩

/-- The evaluations in another order, up to the order of the lots. -/
theorem evaluations_alike (hknown : e.Distinct) (hlots : e.lots.Perm e'.lots)
    (hinherited : e'.inheritedFor = e.inheritedFor) {found found' : List Announcement}
    (hreadable : ∀ item ∈ found, item.Readable) (hfound : found.Perm found') :
    Agrees (fun l l' => ∃ mid, List.Forall₂ Evaluated.Alike l mid ∧ mid.Perm l')
      (found.mapM (evaluate newYork e)) (found'.mapM (evaluate newYork e')) := by
  have hsame := agrees_mapM (P := Eq) (S := Evaluated.Alike) (f := evaluate newYork e)
    (g := evaluate newYork e') (List.forall₂_refl found)
    (by rintro item _ rfl; exact evaluate_alike hknown hlots hinherited item)
  have horder := agrees_mapM_perm (f := evaluate newYork e') hfound
    fun item hitem halt hhalt => evaluate_error (hreadable item hitem) hhalt
  exact hsame.trans horder fun l mid l' h h' => ⟨mid, h, h'⟩

end Accounted

section Accounted

variable {newYork : Instant → LocalTime} {symbol : String} {group group' : List Member}
  {income : Member} {consumed : List String} {e e' : Evidence} {representation : Representation}
  {d : Decision} {qty : ℚ} {one : Evaluated}

/-- The evaluation that is chosen is one of an announcement, and can be weighed. -/
theorem weighable_of_chosen (hknown : e.Distinct) {found : List Announcement}
    {evaluated : List Evaluated}
    (hevaluated : found.mapM (evaluate newYork e) = .ok evaluated)
    (hchosen : chosen evaluated qty = .ok one) :
    one.Weighable qty ∧ ∃ item ∈ found, evaluate newYork e item = .ok one := by
  obtain ⟨hmem, hexplains⟩ := chosen_ok hchosen
  obtain ⟨item, hitem, hok⟩ :=
    exists_left_of_forall₂ (forall₂_of_mapM hevaluated) hmem
  obtain ⟨-, hpos, hholder, -⟩ := evaluate_sound hknown hok
  exact ⟨⟨hpos, hholder, hexplains⟩, item, hitem, hok⟩

theorem nil_iff {α : Type} {l l' : List α} (h : l.Perm l') : l = [] ↔ l' = [] := by
  rw [← List.length_eq_zero_iff, ← List.length_eq_zero_iff, h.length_eq]

/-- The announcements that are found are readable, and those of the evidence. -/
theorem readable_of_found (hreadable : e.Readable) {rate : ℚ} {credit : ℤ} {item : Announcement}
    (h : item ∈ e.announcements.filter (passesAs (isCandidate symbol rate credit consumed))) :
    item.Readable := by
  obtain ⟨hmem, hpasses⟩ := List.mem_filter.1 h
  exact hreadable item hmem (cash_of_candidate hpasses)

/-- **The order in which the evidence is listed does not matter.** -/
theorem decideIncome_alike (hknown : e.Distinct) (hreadable : e.Readable)
    (hmembers : ∀ m ∈ group, m.Readable) (hqty : ∀ q ∈ income.qty, 0 < q)
    (hgroup : group.Perm group') (hlots : e.lots.Perm e'.lots)
    (hannouncements : e.announcements.Perm e'.announcements) (hcredit : e'.credit = e.credit)
    (hinherited : e'.inheritedFor = e.inheritedFor)
    (hquarantined : e'.quarantined = e.quarantined) :
    Agrees Decision.Alike (decideIncome newYork symbol group income consumed e representation)
      (decideIncome newYork symbol group' income consumed e' representation) := by
  have hreadable' : e'.Readable := fun a ha => hreadable a (hannouncements.mem_iff.2 ha)
  cases hq : income.qty with
  | none =>
      refine Agrees.of_eq Decision.Alike.refl ?_
      unfold decideIncome
      rw [hq, hquarantined]
  | some qty =>
      cases hrate : income.rate with
      | none =>
          refine Agrees.of_eq Decision.Alike.refl ?_
          unfold decideIncome
          rw [hq, hrate, hquarantined]
      | some rate =>
          have hpositive := hqty qty hq
          rw [decideIncome_eq hq hrate, decideIncome_eq hq hrate, hquarantined,
            candidates_readable hreadable, candidates_readable hreadable', hcredit]
          have hfound := hannouncements.filter
            (passesAs (isCandidate symbol rate e.credit consumed))
          have hrated := hannouncements.filter (passesAs fun item =>
            if item.caSubType = some "cash" then payableBy e.credit item else .ok false)
          iterate 2
            refine (Agrees.of_eq (R := fun _ _ => True) (fun _ => trivial) rfl).bind
              fun _ _ _ => ?_
          refine Agrees.bind (R := fun l l' => l = e.announcements.filter _ ∧
            l' = e'.announcements.filter _) (.ok ⟨rfl, rfl⟩) ?_
          rintro _ _ ⟨rfl, rfl⟩
          refine Agrees.bind (R := fun _ _ => True) ?_ fun _ _ _ => ?_
          · -- what is missing is missing in any order
            have hmissing' := haltUnfound_readable hreadable'
              (e'.announcements.filter (passesAs (isCandidate symbol rate e.credit consumed)))
            rw [hcredit] at hmissing'
            rw [haltUnfound_readable hreadable, hmissing']
            simp only [ne_eq, nil_iff hfound, nil_iff hrated]
            exact Agrees.of_eq (fun _ => trivial) rfl
          refine (evaluations_alike hknown hlots hinherited
            (fun item hitem => readable_of_found hreadable hitem) hfound).bind_ok
            fun l l' hl _ hlists => ?_
          obtain ⟨mid, halike, hperm⟩ := hlists
          rw [← chosen_perm hperm]
          refine (chosen_alike halike).bind_ok fun one one' hone _ hones => ?_
          exact attributed_alike hones (weighable_of_chosen hknown hl hone).1 hpositive hmembers
            hgroup

theorem filter_rows {a : AnnouncementRef} {weights : OrderedDict String Share}
    {rows : List (List AttributionRow)} (hids : (group.map Member.activityId).Nodup)
    (h : group.mapM (rowsOf a weights) = .ok rows) {m : Member} (hm : m ∈ group) :
    ∃ own, rowsOf a weights m = .ok own ∧
      rows.flatten.filter (fun row => row.activityId = m.activityId) = own := by
  have hrows := forall₂_of_mapM h
  clear h
  induction hrows with
  | nil => cases hm
  | @cons first own rest others hown hothers ih =>
      rw [List.map_cons, List.nodup_cons] at hids
      have hfirst : ∀ row ∈ own, row.activityId = first.activityId := fun row hrow =>
        rowsOf_activityId hown hrow
      rw [List.flatten_cons, List.filter_append]
      rcases List.mem_cons.1 hm with rfl | hm
      · refine ⟨own, hown, ?_⟩
        have hnone : others.flatten.filter (fun row => row.activityId = m.activityId) = [] := by
          refine List.filter_eq_nil_iff.2 fun row hrow => ?_
          obtain ⟨part, hpart, hin⟩ := List.mem_flatten.1 hrow
          obtain ⟨x, hx, hok⟩ := exists_left_of_forall₂ hothers hpart
          rw [rowsOf_activityId hok hin, decide_eq_true_eq]
          exact fun heq => hids.1 (List.mem_map.2 ⟨x, hx, heq⟩)
        rw [hnone, List.append_nil, List.filter_eq_self.2]
        exact fun row hrow => by simpa using hfirst row hrow
      · obtain ⟨found, hfound, hfilter⟩ := ih hids.2 hm
        refine ⟨found, hfound, ?_⟩
        have hnone : own.filter (fun row => row.activityId = m.activityId) = [] := by
          refine List.filter_eq_nil_iff.2 fun row hrow => ?_
          rw [hfirst row hrow, decide_eq_true_eq]
          exact fun heq => hids.1 (heq ▸ List.mem_map_of_mem hm)
        rw [hnone, List.nil_append, hfilter]

end Accounted

section Final

variable {newYork : Instant → LocalTime} {symbol : String} {group : List Member}
  {income : Member} {consumed : List String} {e : Evidence} {representation : Representation}
  {d : Decision}

/-- The rows of an activity. -/
def Decision.rowsFor (d : Decision) (m : Member) : List AttributionRow :=
  d.rows.filter fun row => row.activityId = m.activityId

/-- What a decision accounts for. -/
structure Decision.Accounts (newYork : Instant → LocalTime) (e : Evidence) (group : List Member)
    (d : Decision) : Prop where
  rows_sum : settled d.attributionStatus = true → ∀ m ∈ group,
    ((d.rowsFor m).map (·.amount)).sum = m.amount
  holders_once : settled d.attributionStatus = true → ∀ m ∈ group,
    ((d.rowsFor m).map (·.holderId)).Nodup
  paid_for : d.attributionStatus = .verified → ∃ income qty,
    group.find? (·.component = .income) = some income ∧ income.qty = some qty ∧
      ∀ m ∈ group, ((d.rowsFor m).map fun row => row.eligibleQty.getD 0).sum = qty
  held : d.attributionStatus = .verified → ∃ item ∈ e.announcements, ∃ exDate,
    item.exDate = .ok exDate ∧ d.announcement = some item.toAnnouncementRef ∧
      ∀ row ∈ d.rows, row.bucket = "strategy" → ∃ lot ∈ e.lots, lot.lotId = row.holderId ∧
        Before newYork exDate lot.openedAt ∧
        row.eligibleQty = some (heldAtStart newYork exDate lot)

theorem decideIncome_notRaised (hknown : e.Distinct) (hreadable : e.Readable)
    (hmembers : ∀ m ∈ group, m.Readable) (hqty : ∀ q ∈ income.qty, 0 < q) :
    NotRaised (decideIncome newYork symbol group income consumed e representation) := by
  cases hq : income.qty with
  | none =>
      unfold decideIncome
      rw [hq]
      refine notRaised_bind (haltIf_notRaised (by rintro _ ⟨⟩)) fun _ _ => ?_
      refine notRaised_bind (haltIf_notRaised (by rintro _ ⟨⟩)) fun _ _ => by rintro _ ⟨⟩
  | some qty =>
      cases hrate : income.rate with
      | none =>
          unfold decideIncome
          rw [hq, hrate]
          refine notRaised_bind (haltIf_notRaised (by rintro _ ⟨⟩)) fun _ _ => ?_
          refine notRaised_bind (haltIf_notRaised (by rintro _ ⟨⟩)) fun _ _ => by rintro _ ⟨⟩
      | some rate =>
          rw [decideIncome_eq hq hrate, candidates_readable hreadable]
          iterate 2
            refine notRaised_bind (haltIf_notRaised (by rintro _ ⟨⟩)) fun _ _ => ?_
          refine notRaised_bind (notRaised_ok _) fun found hfound => ?_
          obtain rfl := Except.ok.inj hfound
          refine notRaised_bind (haltUnfound_notRaised hreadable _) fun _ _ => ?_
          refine notRaised_bind (mapM_notRaised fun item hitem =>
            evaluate_notRaised (readable_of_found hreadable hitem)) fun evaluated hevaluated => ?_
          refine notRaised_bind (chosen_notRaised evaluated qty) fun one hone => ?_
          obtain ⟨⟨hpos, hholder, hexplains⟩, item, hitem, hok⟩ :=
            weighable_of_chosen hknown hevaluated hone
          have hannounced := (evaluate_sound hknown hok).1
          exact attributed_notRaised (hannounced ▸ readable_of_found hreadable hitem) hmembers hpos
            hholder hexplains (hqty qty hq)

/-- A group that is attributed is accounted for. -/
theorem decideIncome_accounts (hknown : e.Distinct) (hids : (group.map Member.activityId).Nodup)
    (hincome : group.find? (·.component = .income) = some income)
    (hqty : ∀ q ∈ income.qty, 0 < q)
    (h : decideIncome newYork symbol group income consumed e representation = .ok d) :
    d.Accounts newYork e group := by
  obtain ⟨qty, found, evaluated, one, hq, hfound, hevaluated, hone, h⟩ := decideIncome_ok h
  obtain ⟨hweighable, item, hitem, hok⟩ := weighable_of_chosen hknown hevaluated hone
  obtain ⟨hannounced, -, -, hbuckets, exDate, hdate, hheld⟩ := evaluate_sound hknown hok
  obtain ⟨w, rows, hw, hrows, rfl⟩ := attributed_ok h
  have hs := hweighable.shareable (hqty qty hq) hw
  have hweighed := weigh_ok hweighable.chosen hw
  have hown := fun m hm => filter_rows (m := m) hids hrows hm
  -- sums, holders, quantities, entitlement
  refine ⟨fun _ m hm => ?_, fun _ m hm => ?_, fun hverified => ⟨income, qty, hincome, hq,
    fun m hm => ?_⟩, fun hverified => ⟨item, hfound item hitem,
      exDate, hdate, ?_, fun row hrow hbucket => ?_⟩⟩
  · obtain ⟨own, hrowsOf, hfilter⟩ := hown m hm
    rw [Decision.rowsFor, hfilter]
    exact (rowsOf_sound hs hrowsOf).1
  · obtain ⟨own, hrowsOf, hfilter⟩ := hown m hm
    rw [Decision.rowsFor, hfilter, (rowsOf_sound hs hrowsOf).2]
    exact w.weights.nodup_keys
  · obtain ⟨own, hrowsOf, hfilter⟩ := hown m hm
    rw [Decision.rowsFor, hfilter, sum_eligibleQty hs hrowsOf fun share hshare => ?_]
    · exact (weigh_sound hweighable.positive hweighable.holder (hqty qty hq) hweighed).2
        hverified
    · obtain ⟨k, hk⟩ := OrderedDict.mem_values.1 hshare
      rcases bucket_of_weighed hweighed hverified (OrderedDict.get?_eq_some_iff.2 hk) with
        ⟨hlot, -⟩ | ⟨i, hi, hinherited⟩
      · rw [hlot]
        decide
      · rw [hinherited]
        rcases hbuckets i hi with hadopted | hopening
        · rw [hadopted]
          decide
        · rw [hopening]
          decide
  · rw [hannounced]
  · obtain ⟨part, hpart, hin⟩ := List.mem_flatten.1 hrow
    obtain ⟨m, hm, hrowsOf⟩ := exists_left_of_forall₂ (forall₂_of_mapM hrows) hpart
    obtain ⟨share, hget, hshareBucket, heligible⟩ := share_of_row hs hrowsOf hin
    rw [hshareBucket] at hbucket
    rcases bucket_of_weighed hweighed hverified hget with ⟨-, hmem⟩ | ⟨i, hi, hinherited⟩
    · obtain ⟨lot, hlot, hid, hbefore, hquantity⟩ := hheld _ hmem
      refine ⟨lot, hlot, hid, hbefore, ?_⟩
      rw [heligible, if_neg (by rw [hbucket]; decide), ← hquantity]
    · rw [hinherited] at hbucket
      rcases hbuckets i hi with hadopted | hopening
      · rw [hadopted] at hbucket
        exact absurd hbucket (by decide)
      · rw [hopening] at hbucket
        exact absurd hbucket (by decide)

end Final

/-- Decisions without an exception, as they are reported. -/
theorem concluded_alike {x y : Except Halt Decision} (h : Agrees Decision.Alike x y)
    (hx : NotRaised x) : ∃ d d', concluded x = .ok d ∧ concluded y = .ok d' ∧ d.Alike d' := by
  cases h with
  | error halt =>
      cases halt with
      | pending reason => exact ⟨_, _, rfl, rfl, .refl _⟩
      | unresolved reason established => exact ⟨_, _, rfl, rfl, .refl _⟩
      | raised raised => exact absurd rfl (hx raised)
  | ok hd => exact ⟨_, _, rfl, rfl, hd⟩

/-- A clock whose days are those of the instants. -/
def plainClock (t : Instant) : LocalTime := ⟨t / seconds 86400, t % seconds 86400⟩

/-- A dividend of 26 cents, with its ex-date on the tenth day. -/
def quarterly : Announcement where
  announcementId := "a1"
  sha256 := "sha"
  caType := some "dividend"
  caSubType := some "cash"
  initiatingSymbol := some "AAPL"
  targetSymbol := some "AAPL"
  cash := some (.ok (some (26 / 100)))
  exDate := .ok 10
  payableDate := .ok 13

/-- Six shares and four, bought on the first day. -/
def twoLots : Evidence where
  credit := 13
  announcements := [quarterly]
  lots := [⟨"L1", 6, seconds 86400, []⟩, ⟨"L2", 4, seconds 86400, []⟩]
  inheritedFor _ := some ⟨true, some 0, "opening_unadopted", "opening_unadopted"⟩
  quarantined := false

/-- An income of 2.60 for ten shares, and what was withheld. -/
def paidForTen : List Member :=
  [⟨"d1", .income, 26 / 10, some 10, some (26 / 100), none⟩,
    ⟨"w1", .withholding, -39 / 100, some 10, some (26 / 100), none⟩]

/-- Ten shares bought, and ten inherited short. -/
def longAndShort : Evidence :=
  { twoLots with inheritedFor := fun _ => some ⟨true, some (-10), "opening_unadopted",
      "opening_unadopted"⟩ }

/-- An income for no shares, with the amount withheld from it on record. -/
def paidForNone : List Member :=
  [⟨"d1", .income, -26 / 10, some 0, some (26 / 100), none⟩,
    ⟨"w1", .withholding, 0, some 10, some (26 / 100), some (.ok (some (26 / 10)))⟩]

/-- The dividend, announced before its payable date is known. -/
def undated : Announcement :=
  { quarterly with payableDate := .error ⟨.other, "fromisoformat: argument must be str"⟩ }

end Dividends

end TradePulse
