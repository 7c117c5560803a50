/-
**Reading the account's activities, and the evidence of it** (`broker/alpaca_client.py`,
`reconciliation/activity_cursor.py`).

The client reads the activities page by page, each request continuing after the last identity of
the page before, and records what it asked and what came back.  What is recorded is checked again
wherever the population is used, by a loop of its own.

Main definitions:

* `paginateActivities`, `paginateFrom`, `takePage` — the reading loop, and one page of it;
* `activityPopulation`, `populationProof` — a whole population with its evidence;
* `ActivityHistory`, `GrowingFeed` — a broker whose history does not change meanwhile, and one that
  posts activities meanwhile;
* `TiledFrom`, `Tiled` — pages that tile the rows.

Main results:

* `paginateFrom_history` — what the loop reads of a history, and that its pages are accepted;
* `checkPages_iff` — the pages that are accepted are those that tile the rows;
* `TiledFrom.pages_eq_of_hashes`, `TiledFrom.pages_eq_of_sizes` — what fixes the pages;
* `activityPopulation_history` — the population of a history is complete;
* `paginateActivities_growing` — a feed that grows is read as it stood at one of the requests;
* `pagination_sound_complete` — both loops against each other.
-/

import TradePulse.Reconciliation.Membership

set_option autoImplicit false

namespace TradePulse.ActivityPages

open HistoricalFees

/-! ### Reading -/

/-- The parameters of a request. -/
structure PageRequest where
  pageSize : ℕ
  direction : String := "asc"
  activityTypes : Option String := none
  after : Option Instant := none
  pageToken : Option String := none
  deriving DecidableEq

/-- What a request comes back with; an item that is no object is none. -/
inductive PageAnswer
  | noList
  | items (rows : List (Option InboxActivity))

/-- An activity as the client has read it (`AlpacaActivity`), with what is read of it here. -/
structure ActivityRead where
  activityId : String
  raw : InboxActivity
  deriving DecidableEq

/-- `AlpacaDataIntegrityError`. -/
def dataIntegrity (reason : String) : Raised := ⟨.alpaca, reason⟩

/-- `parse_activity_row`, which may find no number where one should be. -/
def parseActivityRow (row : InboxActivity) : Except Raised ActivityRead := do
  raiseIf (row.qty = .malformed ∨ row.price = .malformed) invalidOperation
  return ⟨row.id, row⟩

/-- A text, unless it is blank. -/
def truthy (text : Option String) : Option String := text.filter fun t => t ≠ ""

/-- What the loop carries from page to page. -/
structure Paging where
  activities : List ActivityRead := []
  pageToken : Option String := none
  seenTokens : List String := []
  seenIds : List String := []
  evidence : List FeedPage := []
  deriving DecidableEq

def takeRow (p : Paging) (row : InboxActivity) : Except Raised Paging := do
  raiseIf (row.id = "" ∨ row.id ∈ p.seenIds) (dataIntegrity "missing or repeated activity identity")
  let activity ← parseActivityRow row
  return { p with
    seenIds := p.seenIds ++ [row.id]
    activities := p.activities ++ [activity] }

/-- What is recorded of a page. -/
def pageEvidence (request : PageRequest) (page : List InboxActivity) (receivedAt : Instant) :
    FeedPage where
  pageSize := request.pageSize
  direction := request.direction
  pageToken := request.pageToken
  filtered := request.activityTypes.isSome || request.after.isSome
  activityIds := page.map (·.id)
  terminal := decide (page.length < request.pageSize)
  responseHash := page
  receivedAt := some receivedAt

/-- One page: what was read when it was the last one, and how to go on otherwise. -/
def takePage (request : PageRequest) (answer : PageAnswer) (receivedAt : Instant) (p : Paging) :
    Except Raised (Paging ⊕ Paging) :=
  match answer with
  | .noList => .error (dataIntegrity "activities response is not a list")
  | .items rows => do
      raiseIf (request.pageSize < rows.length) (dataIntegrity "oversized activities page")
      match rows.mapM id with
      | none => .error (dataIntegrity "invalid activity object")
      | some page => do
          let recorded := { p with
            evidence := p.evidence ++ [pageEvidence request page receivedAt] }
          let q ← page.foldlM takeRow recorded
          if page.length < request.pageSize then
            return .inl q
          let token := (page.getLast?.map (·.id)).getD ""
          raiseIf (token = "" ∨ token ∈ q.seenTokens)
            (dataIntegrity "activities pagination is incomplete or repeated")
          return .inr { q with
            pageToken := some token
            seenTokens := q.seenTokens ++ [token] }

section Reading

variable (fetch : PageRequest → Except Raised PageAnswer) (now : ℕ → Instant)

/-- The request for the next page. -/
def Paging.request (activityType : Option String) (since : Option Instant) (pageSize : ℕ)
    (p : Paging) : PageRequest where
  pageSize := pageSize
  activityTypes := activityType
  after := since
  pageToken := truthy p.pageToken

/-- The loop, within a number of requests; nothing when they do not suffice. -/
def paginateFrom (activityType : Option String) (since : Option Instant) (pageSize : ℕ) :
    ℕ → Paging → Option (Except Raised Paging)
  | 0, _ => none
  | requests + 1, p =>
      let request := p.request activityType since pageSize
      match fetch request >>= fun answer => takePage request answer (now p.evidence.length) p with
      | .error e => some (.error e)
      | .ok (.inl q) => some (.ok q)
      | .ok (.inr q) => paginateFrom activityType since pageSize requests q

/-- The requests that the loop makes from here on. -/
inductive Asks (pageSize : ℕ) : Paging → PageRequest → Prop
  | here (p : Paging) : Asks pageSize p (p.request none none pageSize)
  | later {p q : Paging} {request : PageRequest} :
      (fetch (p.request none none pageSize) >>= fun answer =>
        takePage (p.request none none pageSize) answer (now p.evidence.length) p) = .ok (.inr q) →
      Asks pageSize q request → Asks pageSize p request

/-- `paginate_activities`, with the page evidence it records. -/
def paginateActivities (activityType : Option String) (since : Option Instant) (pageSize : ℕ)
    (afterId : Option String) (requests : ℕ) :
    Option (Except Raised (List ActivityRead × List FeedPage)) :=
  if 1 ≤ pageSize ∧ pageSize ≤ 100 then
    (paginateFrom fetch now activityType since pageSize requests
      { pageToken := afterId, seenTokens := (truthy afterId).toList }).map
      fun outcome => outcome.map fun p => (p.activities, p.evidence)
  else
    some (.error (.valueError "invalid activity page size"))

/-- The evidence of a population (`proof`). -/
def populationProof (raw : List InboxActivity) (pages resumePages : List FeedPage)
    (cursor : Option String) : Pagination where
  complete := true
  populationHash := raw
  activityIds := raw.map (·.id)
  pages := pages
  resumedFrom := cursor
  resumePages := resumePages

/-- What `activity_population` makes of the two readings. -/
def assemblePopulation (cursor : Option String) (tail : Option (List ActivityRead × List FeedPage))
    (full : List ActivityRead × List FeedPage) :
    Except Raised (List InboxActivity × Pagination) := do
  let pages := full.2
  raiseIf ((pages.getLast?.map (·.terminal)) ≠ some true ∨ pages.dropLast.any (·.terminal) = true)
    (assetFeeIntegrity "ACTIVITY_PAGINATION_INCOMPLETE")
  let raw := full.1.map (·.raw)
  raiseIf (¬ (raw.map (·.id)).Nodup) (assetFeeIntegrity "ACTIVITY_PAGINATION_REPEATED")
  raiseIf (∃ c ∈ truthy cursor, c ∉ raw.map (·.id))
    (assetFeeIntegrity "ACTIVITY_CURSOR_BOUNDARY_MISSING")
  match tail with
  | none => pure ()
  | some (rows, tailPages) => do
      raiseIf ((tailPages.getLast?.map (·.terminal)) ≠ some true)
        (assetFeeIntegrity "ACTIVITY_RESUME_INCOMPLETE")
      raiseIf (∃ a ∈ rows, raw.find? (fun row => row.id = a.activityId) ≠ some a.raw)
        (assetFeeIntegrity "ACTIVITY_CAPTURE_CHANGED_DURING_PAGINATION")
  let proof := populationProof raw pages ((tail.map Prod.snd).getD []) cursor
  validatePagination raw proof
  return (raw, proof)

/-- `activity_population`: the tail after a cursor, if there is one, and the whole history. -/
def activityPopulation (cursor : Option String) (requests : ℕ) :
    Option (Except Raised (List InboxActivity × Pagination)) :=
  let tail := (truthy cursor).map fun c =>
    paginateActivities fetch now none none 100 (some c) requests
  let full := paginateActivities fetch now none none 100 none requests
  match tail with
  | none => full.map fun read => read >>= fun f => assemblePopulation cursor none f
  | some tail => tail.bind fun read =>
      match read with
      | .error e => some (.error e)
      | .ok t => full.map fun read => read >>= fun f => assemblePopulation cursor (some t) f

end Reading

/-! ### Pages that are accepted -/

/-- The pages, read from a boundary on, tile the rows in their order.  A digest stands for the rows
it is the digest of. -/
structure TiledFrom (boundary : Option String) (raw : List InboxActivity)
    (pages : List FeedPage) : Prop where
  rows : pages.flatMap (·.responseHash) = raw
  ids : ∀ page ∈ pages, page.activityIds = page.responseHash.map (·.id)
  asked : ∀ page ∈ pages, page.direction = "asc" ∧ page.filtered = false
  size : ∀ page ∈ pages, 1 ≤ page.pageSize ∧ page.pageSize ≤ 100
  /-- The token of a page is the last identity before it. -/
  token : ∀ pre page post, pages = pre ++ page :: post →
    page.pageToken = (pre.flatMap (·.activityIds)).getLast?.or boundary
  /-- Every page but the last is full. -/
  full : ∀ page ∈ pages.dropLast,
    (page.activityIds.length : ℤ) = page.pageSize ∧ page.terminal = false
  /-- The last one is short. -/
  short : ∀ page, pages.getLast? = some page →
    (page.activityIds.length : ℤ) < page.pageSize ∧ page.terminal = true

/-- The pages tile the rows from the start. -/
abbrev Tiled (raw : List InboxActivity) (pages : List FeedPage) : Prop :=
  pages ≠ [] ∧ TiledFrom none raw pages

theorem tiledFrom_nil {boundary : Option String} {raw : List InboxActivity} :
    TiledFrom boundary raw [] ↔ raw = [] := by
  constructor
  · intro h
    exact h.rows.symm
  · rintro rfl
    exact ⟨rfl, by simp, by simp, by simp, by simp, by simp, by simp⟩

/-- What is asked of one page, by what is left of the rows and of the pages. -/
structure PageFits (boundary : Option String) (raw : List InboxActivity) (page : FeedPage)
    (rest : List FeedPage) : Prop where
  rows : page.responseHash = raw.take page.activityIds.length
  ids : page.activityIds = page.responseHash.map (·.id)
  asked : page.direction = "asc" ∧ page.filtered = false
  size : 1 ≤ page.pageSize ∧ page.pageSize ≤ 100
  token : page.pageToken = boundary
  length : (page.activityIds.length : ℤ) ≤ page.pageSize
  terminal : page.terminal = decide ((page.activityIds.length : ℤ) < page.pageSize)
  last : page.terminal = rest.isEmpty

theorem checkPages_cons {boundary : Option String} {raw : List InboxActivity} {page : FeedPage}
    {rest : List FeedPage} :
    checkPages boundary raw (page :: rest) = .ok () ↔ PageFits boundary raw page rest ∧
      checkPages (page.activityIds.getLast?.or boundary) (raw.drop page.activityIds.length) rest
        = .ok () := by
  rw [checkPages]
  simp only [except_bind_eq_ok, raiseIf_eq_ok_iff, not_or, not_not, exists_const]
  constructor
  · rintro ⟨⟨h₁, h₂, h₃, h₄, h₅, h₆, h₇, h₈, h₉⟩, hrest⟩
    rw [← h₈] at h₄
    exact ⟨⟨h₈, h₄, ⟨h₁, by simpa using h₃⟩, h₅, h₂, not_lt.1 h₆, h₇, h₉⟩, hrest⟩
  · rintro ⟨h, hrest⟩
    refine ⟨⟨h.asked.1, h.token, by simp [h.asked.2], ?_, h.size, not_lt.2 h.length, h.terminal,
      h.rows, h.last⟩, hrest⟩
    rw [← h.rows]
    exact h.ids

/-- What tiling says of the first page, and of the others. -/
theorem tiledFrom_cons {boundary : Option String} {raw : List InboxActivity} {page : FeedPage}
    {rest : List FeedPage} :
    TiledFrom boundary raw (page :: rest) ↔ PageFits boundary raw page rest ∧
      TiledFrom (page.activityIds.getLast?.or boundary) (raw.drop page.activityIds.length)
        rest := by
  constructor
  · intro h
    have hrows : page.responseHash ++ rest.flatMap (·.responseHash) = raw := by
      simpa using h.rows
    have hids := h.ids page List.mem_cons_self
    have hlen : page.activityIds.length = page.responseHash.length := by
      rw [hids, List.length_map]
    refine ⟨⟨?_, hids, h.asked page List.mem_cons_self, h.size page List.mem_cons_self, ?_, ?_, ?_,
      ?_⟩, ⟨?_, ?_, ?_, ?_, ?_, ?_, ?_⟩⟩
    · rw [← hrows, hlen, List.take_left]
    · simpa using h.token [] page rest rfl
    · rcases rest.eq_nil_or_concat with rfl | ⟨front, last, rfl⟩
      · exact (h.short page rfl).1.le
      · exact (h.full page (by simp [List.dropLast_cons_of_ne_nil])).1.le
    · rcases rest.eq_nil_or_concat with rfl | ⟨front, last, rfl⟩
      · obtain ⟨hlt, hterm⟩ := h.short page rfl
        rw [hterm, decide_eq_true hlt]
      · obtain ⟨heq, hterm⟩ := h.full page (by simp [List.dropLast_cons_of_ne_nil])
        rw [hterm, decide_eq_false heq.not_lt]
    · rcases rest.eq_nil_or_concat with rfl | ⟨front, last, rfl⟩
      · exact (h.short page rfl).2
      · rw [(h.full page (by simp [List.dropLast_cons_of_ne_nil])).2]
        simp
    · rw [← hrows, hlen, List.drop_left]
    · exact fun p hp => h.ids p (List.mem_cons_of_mem _ hp)
    · exact fun p hp => h.asked p (List.mem_cons_of_mem _ hp)
    · exact fun p hp => h.size p (List.mem_cons_of_mem _ hp)
    · rintro pre p post rfl
      rw [h.token (page :: pre) p post rfl, List.flatMap_cons, List.getLast?_append,
        Option.or_assoc]
    · intro p hp
      refine h.full p ?_
      rw [List.dropLast_cons_of_ne_nil (by rintro rfl; simp at hp)]
      exact List.mem_cons_of_mem _ hp
    · intro p hp
      refine h.short p ?_
      rw [List.getLast?_cons, hp]
      rfl
  -- field by field, for the first page and for the others
  · rintro ⟨hpage, h⟩
    refine ⟨?_, ?_, ?_, ?_, ?_, ?_, ?_⟩
    · rw [List.flatMap_cons, h.rows, hpage.rows, List.take_append_drop]
    · exact List.forall_mem_cons.2 ⟨hpage.ids, h.ids⟩
    · exact List.forall_mem_cons.2 ⟨hpage.asked, h.asked⟩
    · exact List.forall_mem_cons.2 ⟨hpage.size, h.size⟩
    · intro pre p post hsplit
      cases pre with
      | nil =>
          obtain ⟨rfl, rfl⟩ := List.cons.inj hsplit
          simpa using hpage.token
      | cons q pre =>
          obtain ⟨rfl, hrest⟩ := List.cons.inj hsplit
          rw [h.token pre p post hrest, List.flatMap_cons, List.getLast?_append, Option.or_assoc]
    · intro p hp
      have hne : rest ≠ [] := by
        rintro rfl
        simp at hp
      rw [List.dropLast_cons_of_ne_nil hne] at hp
      rcases List.mem_cons.1 hp with rfl | hp
      · have hterm : p.terminal = false := by
          rw [hpage.last]
          exact List.isEmpty_eq_false_iff.2 hne
        have hfull := hpage.terminal
        rw [hterm, eq_comm, decide_eq_false_iff_not] at hfull
        exact ⟨le_antisymm hpage.length (not_lt.1 hfull), hterm⟩
      · exact h.full p hp
    · intro p hp
      rw [List.getLast?_cons] at hp
      cases hlast : rest.getLast? with
      | none =>
          obtain rfl : rest = [] := List.getLast?_eq_none_iff.1 hlast
          obtain rfl : page = p := by simpa using hp
          have hterm : page.terminal = true := by simpa using hpage.last
          have hshort := hpage.terminal
          rw [hterm, eq_comm, decide_eq_true_iff] at hshort
          exact ⟨hshort, hterm⟩
      | some q =>
          obtain rfl : q = p := by simpa [hlast] using hp
          exact h.short q hlast

/-- **The pages that are accepted are those that tile the rows.** -/
theorem checkPages_iff {boundary : Option String} {raw : List InboxActivity}
    {pages : List FeedPage} :
    checkPages boundary raw pages = .ok () ↔ TiledFrom boundary raw pages := by
  induction pages generalizing boundary raw with
  | nil => simp [checkPages, tiledFrom_nil, raiseIf_eq_ok_iff]
  | cons page rest ih => rw [checkPages_cons, tiledFrom_cons, ih]

/-- **What fixes the pages: the rows, and the sizes that were asked for.** -/
theorem TiledFrom.pages_eq_of_sizes {boundary : Option String} {raw : List InboxActivity}
    {pages pages' : List FeedPage} (h : TiledFrom boundary raw pages)
    (h' : TiledFrom boundary raw pages')
    (hsizes : pages'.map (·.pageSize) = pages.map (·.pageSize)) :
    pages'.map FeedPage.observationIndependent = pages.map FeedPage.observationIndependent := by
  induction pages generalizing boundary raw pages' with
  | nil =>
      obtain rfl : pages' = [] := by simpa using hsizes
      rfl
  | cons page rest ih =>
      cases pages' with
      | nil => simp at hsizes
      | cons page' rest' =>
          have hsize : page'.pageSize = page.pageSize := (List.cons.inj hsizes).1
          have hrests := (List.cons.inj hsizes).2
          obtain ⟨hfit, htail⟩ := tiledFrom_cons.1 h
          obtain ⟨hfit', htail'⟩ := tiledFrom_cons.1 h'
          have hends : rest'.isEmpty = rest.isEmpty := by
            rw [← List.isEmpty_map, hrests, List.isEmpty_map]
          -- both are full, or both hold all that is left
          have hhash : page'.responseHash = page.responseHash := by
            cases hlast : rest.isEmpty with
            | true =>
                obtain rfl := List.isEmpty_iff.1 hlast
                obtain rfl := List.isEmpty_iff.1 (hends.trans hlast)
                have hall := h.rows
                have hall' := h'.rows
                simp only [List.flatMap_cons, List.flatMap_nil, List.append_nil] at hall hall'
                rw [hall, hall']
            | false =>
                have hterm := hfit.terminal
                have hterm' := hfit'.terminal
                rw [hfit.last, hlast, eq_comm, decide_eq_false_iff_not] at hterm
                rw [hfit'.last, hends, hlast, eq_comm, decide_eq_false_iff_not] at hterm'
                have hlength := hfit.length
                have hlength' := hfit'.length
                have hsame : page'.activityIds.length = page.activityIds.length := by omega
                rw [hfit.rows, hfit'.rows, hsame]
          have hids : page'.activityIds = page.activityIds := by
            rw [hfit.ids, hfit'.ids, hhash]
          rw [hids] at htail'
          rw [List.map_cons, List.map_cons, ih htail htail' hrests]
          congr 1
          obtain ⟨size, direction, token, filtered, ids, terminal, hash, received⟩ := page
          obtain ⟨size', direction', token', filtered', ids', terminal', hash', received'⟩ := page'
          obtain rfl : size' = size := hsize
          obtain rfl : hash' = hash := hhash
          obtain rfl : ids' = ids := hids
          obtain rfl : direction' = direction := hfit'.asked.1.trans hfit.asked.1.symm
          obtain rfl : filtered' = filtered := hfit'.asked.2.trans hfit.asked.2.symm
          obtain rfl : token' = token := hfit'.token.trans hfit.token.symm
          obtain rfl : terminal' = terminal := hfit'.terminal.trans hfit.terminal.symm
          rfl

/-- **What fixes the rows, their pages and the tokens: the digests of the responses.** -/
theorem TiledFrom.pages_eq_of_hashes {boundary : Option String} {raw raw' : List InboxActivity}
    {pages pages' : List FeedPage} (h : TiledFrom boundary raw pages)
    (h' : TiledFrom boundary raw' pages')
    (hhashes : pages'.map (·.responseHash) = pages.map (·.responseHash)) :
    raw' = raw ∧ pages'.map (·.activityIds) = pages.map (·.activityIds) ∧
      pages'.map (·.pageToken) = pages.map (·.pageToken) := by
  induction pages generalizing boundary raw raw' pages' with
  | nil =>
      obtain rfl : pages' = [] := by simpa using hhashes
      rw [← h.rows, ← h'.rows]
      exact ⟨rfl, rfl, rfl⟩
  | cons page rest ih =>
      cases pages' with
      | nil => simp at hhashes
      | cons page' rest' =>
          have hhash : page'.responseHash = page.responseHash := (List.cons.inj hhashes).1
          have hrests := (List.cons.inj hhashes).2
          obtain ⟨hfit, htail⟩ := tiledFrom_cons.1 h
          obtain ⟨hfit', htail'⟩ := tiledFrom_cons.1 h'
          have hids : page'.activityIds = page.activityIds := by
            rw [hfit.ids, hfit'.ids, hhash]
          rw [hids] at htail'
          obtain ⟨hdrop, hidsRest, htokens⟩ := ih htail htail' hrests
          refine ⟨?_, ?_, ?_⟩
          · rw [← h.rows, ← h'.rows, List.flatMap_cons, List.flatMap_cons, htail.rows,
              htail'.rows, hdrop, hhash]
          · rw [List.map_cons, List.map_cons, hidsRest, hids]
          · rw [List.map_cons, List.map_cons, htokens, hfit.token, hfit'.token]

theorem validatePagination_iff {raw : List InboxActivity} {proof : Pagination} :
    validatePagination raw proof = .ok () ↔
      ("" ∉ raw.map (·.id) ∧ (raw.map (·.id)).Nodup) ∧ proof.complete = true ∧
        proof.populationHash = raw ∧ proof.activityIds = raw.map (·.id) ∧
        Tiled raw proof.pages := by
  rw [validatePagination]
  simp only [except_bind_eq_ok, raiseIf_eq_ok_iff, not_or, not_not, exists_const, checkPages_iff,
    Bool.not_eq_false, List.isEmpty_iff, Tiled, ne_eq]

/-! ### A history that does not change -/

/-- A broker's history of activities, in the order it lists them in.  Which rows a request asks for
is the broker's business; one without a filter asks for all. -/
structure ActivityHistory where
  rows : List InboxActivity
  distinct : (rows.map (·.id)).Nodup
  named : ∀ row ∈ rows, row.id ≠ ""
  answers : PageRequest → InboxActivity → Bool := fun _ _ => true
  unfiltered : ∀ request row, request.activityTypes = none → request.after = none →
    answers request row = true := by intros; rfl

namespace ActivityHistory

variable (history : ActivityHistory)

/-- The rows after the one a token names. -/
def following : Option String → List InboxActivity
  | none => history.rows
  | some token => (history.rows.dropWhile fun row => row.id ≠ token).tail

/-- A page of the history. -/
def fetch (request : PageRequest) : Except Raised PageAnswer :=
  .ok (.items ((((history.following request.pageToken).filter (history.answers request)).take
    request.pageSize).map some))

variable {history}

/-- What follows the last of the rows read so far is the rest. -/
theorem following_getLast? {before rest : List InboxActivity}
    (h : history.rows = before ++ rest) :
    history.following (before.getLast?.map (·.id)) = rest := by
  rcases before.eq_nil_or_concat with rfl | ⟨front, row, rfl⟩
  · simpa [following] using h
  · rw [List.concat_eq_append] at h ⊢
    have hnodup := history.distinct
    rw [h, List.append_assoc, List.map_append, List.nodup_append] at hnodup
    have hfront : ∀ r ∈ front, r.id ≠ row.id := by
      intro r hr heq
      refine hnodup.2.2 r.id (List.mem_map_of_mem hr) row.id ?_ heq
      exact List.mem_map_of_mem (by simp)
    have hdrop : (front ++ ([row] ++ rest)).dropWhile (fun r => decide (r.id ≠ row.id))
        = row :: rest := by
      rw [List.dropWhile_append_of_pos fun r hr => by simpa using hfront r hr]
      simp
    simp only [List.getLast?_append, List.getLast?_singleton, Option.some_or, Option.map_some,
      following]
    rw [h, List.append_assoc, hdrop]
    rfl

theorem truthy_id {before : List InboxActivity} (h : ∀ row ∈ before, row.id ≠ "") :
    truthy (before.getLast?.map (·.id)) = before.getLast?.map (·.id) := by
  cases hlast : before.getLast? with
  | none => rfl
  | some row =>
      have := h row (List.mem_of_getLast? hlast)
      simp [truthy, this]

end ActivityHistory

theorem mapM_id_map_some {α : Type} (l : List α) : (l.map some).mapM id = some l := by
  induction l with
  | nil => rfl
  | cons a l ih =>
      rw [List.map_cons, List.mapM_cons, ih]
      rfl

/-- Rows that are new and have an identity are taken in their order, up to one that cannot be
read. -/
theorem foldlM_takeRow (page : List InboxActivity) {p : Paging}
    (hnamed : ∀ row ∈ page, row.id ≠ "") (hnodup : (page.map (·.id)).Nodup)
    (hnew : ∀ row ∈ page, row.id ∉ p.seenIds) :
    page.foldlM takeRow p = .ok { p with
        seenIds := p.seenIds ++ page.map (·.id)
        activities := p.activities ++ page.map fun row => ⟨row.id, row⟩ } ∨
      ∃ row ∈ page, ∃ e, parseActivityRow row = .error e ∧ page.foldlM takeRow p = .error e := by
  induction page generalizing p with
  | nil =>
      left
      simp only [List.map_nil, List.append_nil]
      rfl
  | cons row page ih =>
      rw [List.map_cons, List.nodup_cons] at hnodup
      have hrow : ¬ (row.id = "" ∨ row.id ∈ p.seenIds) := by
        rintro (h | h)
        · exact hnamed row List.mem_cons_self h
        · exact hnew row List.mem_cons_self h
      by_cases hread : row.qty = .malformed ∨ row.price = .malformed
      · have hparse : parseActivityRow row = .error invalidOperation := by
          simp [parseActivityRow, raiseIf, hread, bind, Except.bind]
        right
        refine ⟨row, List.mem_cons_self, _, hparse, ?_⟩
        simp [takeRow, raiseIf, hrow, hparse, bind, Except.bind]
      · have hparse : parseActivityRow row = .ok ⟨row.id, row⟩ := by
          simp [parseActivityRow, raiseIf, hread, bind, Except.bind, pure, Except.pure]
        have htake : takeRow p row = .ok { p with
            seenIds := p.seenIds ++ [row.id]
            activities := p.activities ++ [⟨row.id, row⟩] } := by
          simp [takeRow, raiseIf, hrow, hparse, bind, Except.bind, pure, Except.pure]
        have hstep : ∀ o, takeRow p row = .ok o →
            (row :: page).foldlM takeRow p = page.foldlM takeRow o := by
          intro o ho
          rw [List.foldlM_cons, ho]
          rfl
        have hlater := ih (p := { p with
            seenIds := p.seenIds ++ [row.id]
            activities := p.activities ++ [⟨row.id, row⟩] })
          (fun r hr => hnamed r (List.mem_cons_of_mem _ hr)) hnodup.2 fun r hr hmem => by
            rcases List.mem_append.1 hmem with h | h
            · exact hnew r (List.mem_cons_of_mem _ hr) h
            · exact hnodup.1 (List.mem_map.2 ⟨r, hr, List.mem_singleton.1 h⟩)
        rw [hstep _ htake]
        rcases hlater with hok | ⟨r, hr, e, he, hfail⟩
        · left
          rw [hok]
          simp
        · exact .inr ⟨r, List.mem_cons_of_mem _ hr, e, he, hfail⟩

section Page

variable {request : PageRequest} {page : List InboxActivity} {t : Instant} {p q : Paging}

theorem takePage_items (hlen : page.length ≤ request.pageSize) :
    takePage request (.items (page.map some)) t p =
      (page.foldlM takeRow { p with evidence := p.evidence ++ [pageEvidence request page t] }) >>=
        fun q => if page.length < request.pageSize then .ok (.inl q)
          else (raiseIf ((page.getLast?.map (·.id)).getD "" = "" ∨
              (page.getLast?.map (·.id)).getD "" ∈ q.seenTokens)
              (dataIntegrity "activities pagination is incomplete or repeated")) >>= fun _ =>
            .ok (.inr { q with
              pageToken := some ((page.getLast?.map (·.id)).getD "")
              seenTokens := q.seenTokens ++ [(page.getLast?.map (·.id)).getD ""] }) := by
  have hlong : ¬ request.pageSize < (page.map some).length := by
    rw [List.length_map]
    omega
  rw [takePage, raiseIf, if_neg hlong, mapM_id_map_some]
  rfl

theorem takePage_last (hlt : page.length < request.pageSize)
    (hfold : page.foldlM takeRow
      { p with evidence := p.evidence ++ [pageEvidence request page t] } = .ok q) :
    takePage request (.items (page.map some)) t p = .ok (.inl q) := by
  rw [takePage_items hlt.le, hfold]
  simp only [bind, Except.bind, if_pos hlt]

theorem takePage_next (heq : page.length = request.pageSize) {row : InboxActivity}
    (hlast : page.getLast? = some row) (hne : row.id ≠ "") (hnew : row.id ∉ q.seenTokens)
    (hfold : page.foldlM takeRow
      { p with evidence := p.evidence ++ [pageEvidence request page t] } = .ok q) :
    takePage request (.items (page.map some)) t p = .ok (.inr { q with
      pageToken := some row.id
      seenTokens := q.seenTokens ++ [row.id] }) := by
  have htoken : ¬ (row.id = "" ∨ row.id ∈ q.seenTokens) := not_or.2 ⟨hne, hnew⟩
  rw [takePage_items heq.le, hfold]
  simp only [bind, Except.bind, if_neg heq.not_lt, hlast, Option.map_some, Option.getD_some,
    raiseIf, if_neg htoken]

end Page

section Evidence

variable {history : ActivityHistory} {now : ℕ → Instant} {size : ℕ}

theorem pageFits_pageEvidence (hsize : 1 ≤ size ∧ size ≤ 100) (token : Option String)
    (raw : List InboxActivity) (t : Instant) {rest : List FeedPage}
    (hrest : rest = [] ↔ raw.length < size) :
    PageFits token raw
      (pageEvidence { pageSize := size, pageToken := token } (raw.take size) t) rest := by
  have hlen : (raw.take size).length = min size raw.length := List.length_take
  constructor
  · simp [pageEvidence]
  · rfl
  · exact ⟨rfl, rfl⟩
  · simp only [pageEvidence]
    omega
  · rfl
  · simp only [pageEvidence, List.length_map]
    omega
  · simp only [pageEvidence, List.length_map, Nat.cast_lt]
  · simp only [pageEvidence]
    by_cases h : rest = []
    · have := hrest.1 h
      rw [h, decide_eq_true (by omega)]
      rfl
    · have := hrest.not.1 h
      rw [List.isEmpty_eq_false_iff.2 h, decide_eq_false (by omega)]

/-- The loop has read some rows of a history and stands before the rest. -/
structure Stands (history : ActivityHistory) (before rest : List InboxActivity) (p : Paging) :
    Prop where
  rows : history.rows = before ++ rest
  token : p.pageToken = before.getLast?.map (·.id)
  tokens : ∀ t ∈ p.seenTokens, t ∉ rest.map (·.id)
  ids : ∀ row ∈ rest, row.id ∉ p.seenIds

/-- What the loop records of the next page. -/
def nextEvidence (now : ℕ → Instant) (size : ℕ) (rest : List InboxActivity) (p : Paging) :
    FeedPage :=
  pageEvidence { pageSize := size, pageToken := p.pageToken } (rest.take size)
    (now p.evidence.length)

/-- The next page: it is asked for, and taken. -/
def nextPage (history : ActivityHistory) (now : ℕ → Instant) (size : ℕ) (p : Paging) :
    Except Raised (Paging ⊕ Paging) :=
  history.fetch (p.request none none size) >>= fun answer =>
    takePage (p.request none none size) answer (now p.evidence.length) p

section Stands

variable {before rest : List InboxActivity} {p : Paging}

theorem Stands.named (h : Stands history before rest p) :
    ∀ row ∈ before ++ rest, row.id ≠ "" := fun row hrow =>
  history.named row (h.rows ▸ hrow)

theorem Stands.distinct (h : Stands history before rest p) :
    (rest.map (·.id)).Nodup := by
  have hall := history.distinct
  rw [h.rows] at hall
  exact hall.sublist ((List.sublist_append_right before rest).map _)

theorem Stands.nextPage_eq (h : Stands history before rest p) :
    nextPage history now size p =
      takePage { pageSize := size, pageToken := p.pageToken }
        (.items ((rest.take size).map some)) (now p.evidence.length) p := by
  have htruthy : truthy p.pageToken = p.pageToken := by
    rw [h.token]
    exact ActivityHistory.truthy_id fun row hrow => h.named row (List.mem_append_left _ hrow)
  have hrequest : p.request none none size = { pageSize := size, pageToken := p.pageToken } := by
    rw [Paging.request, htruthy]
  have hall : (history.following p.pageToken).filter
      (history.answers { pageSize := size, pageToken := p.pageToken }) = rest := by
    rw [h.token, ActivityHistory.following_getLast? h.rows]
    exact List.filter_eq_self.2 fun row _ => history.unfiltered _ row rfl rfl
  rw [nextPage, hrequest, ActivityHistory.fetch, hall]
  rfl

theorem Stands.taken (now : ℕ → Instant) (size : ℕ) (h : Stands history before rest p) :
    (∃ q, (rest.take size).foldlM takeRow
          { p with evidence := p.evidence ++ [nextEvidence now size rest p] } = .ok q ∧
        q.activities = p.activities ++ (rest.take size).map (fun row => ⟨row.id, row⟩) ∧
        q.evidence = p.evidence ++ [nextEvidence now size rest p] ∧
        q.seenIds = p.seenIds ++ (rest.take size).map (·.id) ∧ q.seenTokens = p.seenTokens) ∨
      ∃ row ∈ rest, ∃ e, parseActivityRow row = .error e ∧
        (rest.take size).foldlM takeRow
          { p with evidence := p.evidence ++ [nextEvidence now size rest p] } = .error e := by
  have hfold := foldlM_takeRow (rest.take size)
    (p := { p with evidence := p.evidence ++ [nextEvidence now size rest p] })
    (fun row hrow => h.named row (List.mem_append_right _ (List.mem_of_mem_take hrow)))
    (h.distinct.sublist ((List.take_sublist size rest).map _))
    fun row hrow => h.ids row (List.mem_of_mem_take hrow)
  rcases hfold with hok | ⟨row, hrow, e, he, hfail⟩
  · exact .inl ⟨_, hok, rfl, rfl, rfl, rfl⟩
  · exact .inr ⟨row, List.mem_of_mem_take hrow, e, he, hfail⟩

theorem Stands.onward (h : Stands history before rest p) {q : Paging} {row : InboxActivity}
    (hlast : (rest.take size).getLast? = some row)
    (hseen : q.seenIds = p.seenIds ++ (rest.take size).map (·.id))
    (htokens : q.seenTokens = p.seenTokens) :
    Stands history (before ++ rest.take size) (rest.drop size)
      { q with pageToken := some row.id, seenTokens := q.seenTokens ++ [row.id] } := by
  have hsplit : rest.take size ++ rest.drop size = rest := List.take_append_drop size rest
  have happart : ∀ r ∈ rest.drop size, ∀ r' ∈ rest.take size, r.id ≠ r'.id := by
    intro r hr r' hr' heq
    have hnodup := h.distinct
    rw [← hsplit, List.map_append, List.nodup_append] at hnodup
    exact hnodup.2.2 _ (List.mem_map_of_mem hr') _ (List.mem_map_of_mem hr) heq.symm
  constructor
  · rw [List.append_assoc, hsplit, h.rows]
  · rw [List.getLast?_append, hlast]
    rfl
  · intro t ht hmem
    obtain ⟨r, hr, rfl⟩ := List.mem_map.1 hmem
    rcases List.mem_append.1 ht with hold | hnew
    · rw [htokens] at hold
      exact h.tokens _ hold (List.mem_map_of_mem (List.mem_of_mem_drop hr))
    · exact happart r hr row (List.mem_of_getLast? hlast) (List.mem_singleton.1 hnew)
  · intro r hr hmem
    have hmem' : r.id ∈ q.seenIds := hmem
    rw [hseen] at hmem'
    rcases List.mem_append.1 hmem' with hold | hnew
    · exact h.ids r (List.mem_of_mem_drop hr) hold
    · obtain ⟨r', hr', heq⟩ := List.mem_map.1 hnew
      exact happart r hr r' hr' heq.symm

theorem Stands.step (now : ℕ → Instant) (hsize : 0 < size) (h : Stands history before rest p) :
    (rest.length < size ∧ ∃ q, nextPage history now size p = .ok (.inl q) ∧
        q.activities = p.activities ++ rest.map (fun row => ⟨row.id, row⟩) ∧
        q.evidence = p.evidence ++ [nextEvidence now size rest p]) ∨
      (size ≤ rest.length ∧ ∃ q, nextPage history now size p = .ok (.inr q) ∧
        q.activities = p.activities ++ (rest.take size).map (fun row => ⟨row.id, row⟩) ∧
        q.evidence = p.evidence ++ [nextEvidence now size rest p] ∧
        q.pageToken = ((rest.take size).map (·.id)).getLast? ∧
        Stands history (before ++ rest.take size) (rest.drop size) q) ∨
      ∃ row ∈ rest, ∃ e, parseActivityRow row = .error e ∧
        nextPage history now size p = .error e := by
  have hlen : (rest.take size).length = min size rest.length := List.length_take
  rw [h.nextPage_eq]
  rcases h.taken now size with
    ⟨q, hq, hactivities, hevidence, hseen, htokens⟩ | ⟨row, hrow, e, he, hfail⟩
  · rcases Nat.lt_or_ge rest.length size with hshort | hfull
    · refine .inl ⟨hshort, q, ?_, ?_, hevidence⟩
      · exact takePage_last (hlen.trans_lt ((min_le_right _ _).trans_lt hshort)) hq
      · rw [hactivities, List.take_of_length_le hshort.le]
    · have hne : rest.take size ≠ [] := by
        intro hnil
        rw [hnil, List.length_nil] at hlen
        omega
      obtain ⟨row, hlast⟩ := Option.isSome_iff_exists.1 (List.getLast?_isSome.2 hne)
      have hrow : row ∈ rest := List.mem_of_mem_take (List.mem_of_getLast? hlast)
      have hnew : row.id ∉ q.seenTokens := by
        rw [htokens]
        exact fun hmem => h.tokens _ hmem (List.mem_map_of_mem hrow)
      refine .inr (.inl ⟨hfull, _, takePage_next (hlen.trans (min_eq_left hfull)) hlast
        (h.named row (List.mem_append_right _ hrow)) hnew hq, hactivities, hevidence, ?_,
        h.onward hlast hseen htokens⟩)
      rw [List.getLast?_map, hlast]
      rfl
  · refine .inr (.inr ⟨row, hrow, e, he, ?_⟩)
    rw [takePage_items (hlen.trans_le (min_le_left _ _))]
    exact congrArg (· >>= _) hfail

end Stands

theorem paginateFrom_succ (requests : ℕ) (p : Paging) :
    paginateFrom history.fetch now none none size (requests + 1) p =
      match nextPage history now size p with
      | .error e => some (.error e)
      | .ok (.inl q) => some (.ok q)
      | .ok (.inr q) => paginateFrom history.fetch now none none size requests q := rfl

/-- **What the loop reads of a history from a row on, and that its pages tile it.** -/
theorem paginateFrom_history (now : ℕ → Instant) (hsize : 1 ≤ size ∧ size ≤ 100)
    {before rest : List InboxActivity} {p : Paging} (h : Stands history before rest p) :
    ∃ outcome, (∀ requests > rest.length,
        paginateFrom history.fetch now none none size requests p = some outcome) ∧
      ((∃ q pages, outcome = .ok q ∧
          q.activities = p.activities ++ rest.map (fun row => ⟨row.id, row⟩) ∧
          q.evidence = p.evidence ++ pages ∧ pages ≠ [] ∧ TiledFrom p.pageToken rest pages) ∨
        ∃ row ∈ rest, ∃ e, parseActivityRow row = .error e ∧ outcome = .error e) := by
  -- by the number of rows that are left
  generalize hn : rest.length = n
  induction n using Nat.strong_induction_on generalizing before rest p with
  | _ n ih =>
      rcases h.step now hsize.1 with ⟨hshort, q, hpage, hactivities, hevidence⟩ |
        ⟨hfull, q, hpage, hactivities, hevidence, htoken, hq⟩ | ⟨row, hrow, e, he, hpage⟩
      · refine ⟨.ok q, ?_, .inl ⟨q, _, rfl, hactivities, hevidence, by simp, ?_⟩⟩
        · intro requests hr
          obtain ⟨k, rfl⟩ := Nat.exists_eq_add_of_lt hr
          rw [paginateFrom_succ, hpage]
        · refine tiledFrom_cons.2 ⟨pageFits_pageEvidence hsize _ _ _ (by simpa using hshort), ?_⟩
          refine tiledFrom_nil.2 (List.drop_eq_nil_of_le ?_)
          simp only [nextEvidence, pageEvidence, List.length_map, List.length_take]
          omega
      · have hless : (rest.drop size).length < n := by
          rw [List.length_drop]
          omega
        obtain ⟨outcome, hruns, hcases⟩ := ih _ hless hq rfl
        refine ⟨outcome, ?_, ?_⟩
        · intro requests hr
          obtain ⟨k, rfl⟩ := Nat.exists_eq_add_of_lt hr
          rw [paginateFrom_succ, hpage]
          exact hruns (n + k) (by omega)
        · rcases hcases with ⟨q', pages, hok, hact, hev, hpages, htiled⟩ | ⟨row, hrow, e, he, hout⟩
          · refine .inl ⟨q', nextEvidence now size rest p :: pages, hok, ?_, ?_, by simp, ?_⟩
            · rw [hact, hactivities, List.append_assoc, ← List.map_append,
                List.take_append_drop]
            · rw [hev, hevidence, List.append_assoc]
              rfl
            · refine tiledFrom_cons.2 ⟨pageFits_pageEvidence hsize _ _ _ ?_, ?_⟩
              · simp only [hpages, false_iff, not_lt]
                exact hfull
              · have hcount : ((rest.take size).map (·.id)).length = size := by
                  rw [List.length_map, List.length_take, min_eq_left hfull]
                obtain ⟨t, ht⟩ : ∃ t, ((rest.take size).map (·.id)).getLast? = some t := by
                  refine Option.isSome_iff_exists.1 (List.getLast?_isSome.2 fun hnil => ?_)
                  rw [hnil, List.length_nil] at hcount
                  omega
                simp only [nextEvidence, pageEvidence, hcount, ht, Option.some_or]
                rw [← ht, ← htoken]
                exact htiled
          · exact .inr ⟨row, List.mem_of_mem_drop hrow, e, he, hout⟩
      · refine ⟨.error e, ?_, .inr ⟨row, hrow, e, he, rfl⟩⟩
        intro requests hr
        obtain ⟨k, rfl⟩ := Nat.exists_eq_add_of_lt hr
        rw [paginateFrom_succ, hpage]

end Evidence

/-! ### Both loops -/

theorem stands_start (history : ActivityHistory) : Stands history [] history.rows {} where
  rows := rfl
  token := rfl
  tokens := by simp
  ids := by simp

theorem stands_after {history : ActivityHistory} {before rest : List InboxActivity}
    {row : InboxActivity} (h : history.rows = before ++ [row] ++ rest) :
    Stands history (before ++ [row]) rest
      { pageToken := some row.id, seenTokens := (truthy (some row.id)).toList } where
  rows := h
  token := by simp
  tokens := by
    intro t ht hmem
    have hnodup := history.distinct
    rw [h, List.map_append, List.nodup_append] at hnodup
    have htoken : t = row.id := by
      rw [truthy, Option.mem_toList, Option.filter_eq_some_iff] at ht
      exact (Option.some.inj ht.1).symm
    exact hnodup.2.2 row.id (by simp) t hmem htoken.symm
  ids := by simp

/-- The rows and the evidence that a whole reading gives are accepted. -/
theorem validate_history (history : ActivityHistory) (resumePages : List FeedPage)
    (cursor : Option String) {pages : List FeedPage} (h : Tiled history.rows pages) :
    validatePagination history.rows (populationProof history.rows pages resumePages cursor)
      = .ok () := by
  refine validatePagination_iff.2 ⟨⟨?_, history.distinct⟩, rfl, rfl, rfl, h⟩
  intro hmem
  obtain ⟨row, hrow, hid⟩ := List.mem_map.1 hmem
  exact history.named row hrow hid

theorem map_raw_read (rows : List InboxActivity) :
    (rows.map fun row => (⟨row.id, row⟩ : ActivityRead)).map (·.raw) = rows := by
  rw [List.map_map]
  exact List.map_id _

/-- The reading of a whole history, at any page size. -/
theorem paginateActivities_history (history : ActivityHistory) (now : ℕ → Instant) {size : ℕ}
    (hsize : 1 ≤ size ∧ size ≤ 100) :
    ∃ outcome, (∀ requests > history.rows.length,
        paginateActivities history.fetch now none none size none requests = some outcome) ∧
      ((∃ rows pages, outcome = .ok (rows, pages) ∧ rows.map (·.raw) = history.rows ∧
          Tiled history.rows pages) ∨
        ∃ row ∈ history.rows, ∃ e, parseActivityRow row = .error e ∧ outcome = .error e) := by
  obtain ⟨outcome, hruns, hcases⟩ := paginateFrom_history now hsize (stands_start history)
  refine ⟨outcome.map fun p => (p.activities, p.evidence), ?_, ?_⟩
  · intro requests hr
    rw [paginateActivities, if_pos hsize]
    exact congrArg (Option.map _) (hruns requests hr)
  · rcases hcases with ⟨q, pages, rfl, hact, hev, hpages, htiled⟩ | ⟨row, hrow, e, he, rfl⟩
    · refine .inl ⟨q.activities, q.evidence, rfl, ?_, ?_⟩
      · rw [hact]
        exact map_raw_read history.rows
      · rw [hev]
        exact ⟨hpages, htiled⟩
    · exact .inr ⟨row, hrow, e, he, rfl⟩

theorem paginateActivities_after {history : ActivityHistory} (now : ℕ → Instant) {size : ℕ}
    (hsize : 1 ≤ size ∧ size ≤ 100) {before rest : List InboxActivity} {row : InboxActivity}
    (h : history.rows = before ++ [row] ++ rest)
    (hread : ∀ r ∈ history.rows, ∀ e, parseActivityRow r ≠ .error e) :
    ∃ pages, (∀ requests > history.rows.length,
        paginateActivities history.fetch now none none size (some row.id) requests
          = some (.ok (rest.map (fun r => ⟨r.id, r⟩), pages))) ∧
      pages ≠ [] ∧ TiledFrom (some row.id) rest pages := by
  obtain ⟨outcome, hruns, hcases⟩ := paginateFrom_history now hsize (stands_after h)
  rcases hcases with ⟨q, pages, rfl, hact, hev, hpages, htiled⟩ | ⟨r, hr, e, he, _⟩
  · refine ⟨pages, fun requests hmany => ?_, hpages, htiled⟩
    have hlen : requests > rest.length := by
      rw [h] at hmany
      simp only [List.length_append] at hmany
      omega
    have hact' : q.activities = rest.map fun r => ⟨r.id, r⟩ := hact
    have hev' : q.evidence = pages := hev
    rw [paginateActivities, if_pos hsize, hruns requests hlen, ← hact', ← hev']
    rfl
  · have hmem : r ∈ history.rows := by
      rw [h]
      exact List.mem_append_right _ hr
    exact absurd he (hread r hmem e)

theorem TiledFrom.terminals {boundary : Option String} {raw : List InboxActivity}
    {pages : List FeedPage} (h : TiledFrom boundary raw pages) (hne : pages ≠ []) :
    pages.getLast?.map (·.terminal) = some true ∧ pages.dropLast.any (·.terminal) = false := by
  constructor
  · obtain ⟨page, hpage⟩ := Option.isSome_iff_exists.1 (List.getLast?_isSome.2 hne)
    rw [hpage, Option.map_some, (h.short page hpage).2]
  · refine List.any_eq_false.2 fun page hpage => ?_
    rw [(h.full page hpage).2]
    exact Bool.false_ne_true

theorem ActivityHistory.find?_eq (history : ActivityHistory) {row : InboxActivity}
    (h : row ∈ history.rows) : history.rows.find? (fun r => r.id = row.id) = some row := by
  cases hfind : history.rows.find? fun r => r.id = row.id with
  | none => simpa using List.find?_eq_none.1 hfind row h
  | some r =>
      have hid : r.id = row.id := by simpa using List.find?_some hfind
      rw [List.inj_on_of_nodup_map history.distinct (List.mem_of_find?_eq_some hfind) h hid]

theorem assemblePopulation_history {history : ActivityHistory} {cursor : Option String}
    (hcursor : ∀ c ∈ truthy cursor, c ∈ history.rows.map (·.id)) {rows : List ActivityRead}
    {pages : List FeedPage} (hraw : rows.map (·.raw) = history.rows)
    (htiled : Tiled history.rows pages) (tail : Option (List ActivityRead × List FeedPage))
    (htail : ∀ t ∈ tail, t.2.getLast?.map (·.terminal) = some true ∧
      ∀ a ∈ t.1, history.rows.find? (fun row => row.id = a.activityId) = some a.raw) :
    assemblePopulation cursor tail (rows, pages) = .ok (history.rows,
      populationProof history.rows pages ((tail.map Prod.snd).getD []) cursor) := by
  obtain ⟨hend, hfront⟩ := htiled.2.terminals htiled.1
  have hpages : ¬ (pages.getLast?.map (·.terminal) ≠ some true ∨
      pages.dropLast.any (·.terminal) = true) := by
    rw [hend, hfront]
    simp
  have hboundary : ¬ ∃ c ∈ truthy cursor, c ∉ history.rows.map (·.id) := by
    rintro ⟨c, hc, hmissing⟩
    exact hmissing (hcursor c hc)
  rw [assemblePopulation]
  simp only [hraw, except_bind_eq_ok, raiseIf_eq_ok_iff]
  refine ⟨(), hpages, (), not_not.2 history.distinct, (), hboundary, ?_⟩
  cases tail with
  | none => exact except_bind_eq_ok.2 ⟨(), validate_history history _ _ htiled, rfl⟩
  | some t =>
      obtain ⟨hlast, hrows⟩ := htail t rfl
      simp only [except_bind_eq_ok, raiseIf_eq_ok_iff]
      refine ⟨(), not_not.2 hlast, (), ?_, (), validate_history history _ _ htiled, rfl⟩
      rintro ⟨a, ha, hne⟩
      exact hne (hrows a ha)

/-- The population of a history, resumed from any of its rows or not at all. -/
theorem activityPopulation_history (history : ActivityHistory) (now : ℕ → Instant)
    {cursor : Option String} (hcursor : ∀ c ∈ truthy cursor, c ∈ history.rows.map (·.id))
    (hread : ∀ row ∈ history.rows, ∀ e, parseActivityRow row ≠ .error e) :
    ∃ proof, validatePagination history.rows proof = .ok () ∧
      ∀ requests > history.rows.length,
        activityPopulation history.fetch now cursor requests
          = some (.ok (history.rows, proof)) := by
  have hsize : 1 ≤ 100 ∧ 100 ≤ 100 := by decide
  obtain ⟨outcome, hruns, ⟨rows, pages, rfl, hraw, htiled⟩ | ⟨row, hrow, e, he, _⟩⟩ :=
    paginateActivities_history history now hsize
  · cases hresume : truthy cursor with
    | none =>
        refine ⟨_, validate_history history [] cursor htiled,
          fun requests hr => ?_⟩
        have hall := assemblePopulation_history hcursor hraw htiled none (by simp)
        simp only [activityPopulation, hresume, Option.map_none, hruns requests hr]
        exact congrArg some hall
    | some c =>
        obtain ⟨row, hrow, rfl⟩ := List.mem_map.1 (hcursor c (hresume ▸ rfl))
        obtain ⟨before, rest, hsplit⟩ := List.append_of_mem hrow
        have hsplit' : history.rows = before ++ [row] ++ rest := by simpa using hsplit
        obtain ⟨tailPages, htailRuns, hne, htailTiled⟩ :=
          paginateActivities_after now hsize hsplit' hread
        refine ⟨_, validate_history history tailPages cursor htiled,
          fun requests hr => ?_⟩
        have hall := assemblePopulation_history hcursor hraw htiled
          (some (rest.map (fun r => ⟨r.id, r⟩), tailPages)) (by
            rintro t ⟨⟩
            refine ⟨(htailTiled.terminals hne).1, fun a ha => ?_⟩
            obtain ⟨r, hr, rfl⟩ := List.mem_map.1 ha
            exact history.find?_eq (hsplit' ▸ List.mem_append_right _ hr))
        simp only [activityPopulation, hresume, Option.map_some, hruns requests hr,
          htailRuns requests hr]
        exact congrArg some hall
  · exact absurd he (hread row hrow e)

/-- **Both loops.**  What is read of a history at any page size is accepted with its evidence,
unless a row of it cannot be read.  What is accepted tiles the rows, and neither the rows, nor the
pages they are on, can be changed without being refused. -/
theorem pagination_sound_complete :
    (∀ (history : ActivityHistory) (now : ℕ → Instant) (size : ℕ), 1 ≤ size ∧ size ≤ 100 →
      ∃ outcome, (∀ requests > history.rows.length,
          paginateActivities history.fetch now none none size none requests = some outcome) ∧
        ((∃ rows pages, outcome = .ok (rows, pages) ∧ rows.map (·.raw) = history.rows ∧
            validatePagination (rows.map (·.raw))
              (populationProof (rows.map (·.raw)) pages [] none) = .ok ()) ∨
          ∃ row ∈ history.rows, ∃ e, parseActivityRow row = .error e ∧ outcome = .error e)) ∧
    (∀ raw proof, validatePagination raw proof = .ok () →
      Tiled raw proof.pages ∧
      ∀ raw' proof', validatePagination raw' proof' = .ok () →
        (proof'.populationHash = proof.populationHash → raw' = raw) ∧
        (proof'.pages.map (·.responseHash) = proof.pages.map (·.responseHash) →
          raw' = raw ∧ proof'.pages.map (·.activityIds) = proof.pages.map (·.activityIds) ∧
            proof'.pages.map (·.pageToken) = proof.pages.map (·.pageToken)) ∧
        (raw' = raw → proof'.pages.map (·.pageSize) = proof.pages.map (·.pageSize) →
          proof'.pages.map FeedPage.observationIndependent
            = proof.pages.map FeedPage.observationIndependent)) := by
  constructor
  · intro history now size hsize
    obtain ⟨outcome, hruns, hcases⟩ := paginateActivities_history history now hsize
    refine ⟨outcome, hruns, hcases.imp_left ?_⟩
    rintro ⟨rows, pages, hok, hraw, htiled⟩
    refine ⟨rows, pages, hok, hraw, ?_⟩
    rw [hraw]
    exact validate_history history _ _ htiled
  · intro raw proof hok
    obtain ⟨_, _, hhash, _, htiled⟩ := validatePagination_iff.1 hok
    refine ⟨htiled, fun raw' proof' hok' => ?_⟩
    obtain ⟨_, _, hhash', _, htiled'⟩ := validatePagination_iff.1 hok'
    refine ⟨?_, ?_, ?_⟩
    · intro hsame
      rw [← hhash, ← hhash', hsame]
    · exact htiled.2.pages_eq_of_hashes htiled'.2
    · rintro rfl
      exact htiled.2.pages_eq_of_sizes htiled'.2

/-- Two activities, read two at a time: a full page, and an empty one that ends the reading. -/
def twoActivities : ActivityHistory where
  rows := [{ id := "20260101::a", activityType := "FILL" },
    { id := "20260102::b", activityType := "CFEE" }]
  distinct := by decide
  named := by decide

def twoActivitiesProof : Pagination :=
  populationProof twoActivities.rows
    [pageEvidence { pageSize := 2 } twoActivities.rows 0,
      pageEvidence { pageSize := 2, pageToken := some "20260102::b" } [] 1] [] none

example : paginateActivities twoActivities.fetch (fun k => k) none none 2 none 3
    = some (.ok (twoActivities.rows.map fun row => ⟨row.id, row⟩, twoActivitiesProof.pages)) := by
  decide +kernel

theorem pagination_sound_complete_twoActivities :
    Tiled twoActivities.rows twoActivitiesProof.pages ∧
      validatePagination twoActivities.rows.dropLast twoActivitiesProof ≠ .ok () ∧
      ∃ outcome, ∀ requests > twoActivities.rows.length,
        paginateActivities twoActivities.fetch (fun k => k) none none 2 none requests
          = some outcome := by
  obtain ⟨htiled, hfixed⟩ := pagination_sound_complete.2 twoActivities.rows twoActivitiesProof
    (by decide +kernel)
  refine ⟨htiled, ?_, ?_⟩
  · intro hok
    exact absurd ((hfixed _ _ hok).1 rfl) (by decide)
  · obtain ⟨outcome, hruns, _⟩ :=
      pagination_sound_complete.1 twoActivities (fun k => k) 2 (by decide)
    exact ⟨outcome, hruns⟩

theorem twoActivities_read : ∀ row ∈ twoActivities.rows, ∀ e, parseActivityRow row ≠ .error e := by
  intro row hrow e he
  rcases List.mem_cons.1 hrow with rfl | hrow
  · cases he
  · obtain rfl := List.mem_singleton.1 hrow
    cases he

/-- The same activities, resumed after the first of them. -/
theorem activityPopulation_history_resumed : ∃ proof,
    validatePagination twoActivities.rows proof = .ok () ∧
      activityPopulation twoActivities.fetch (fun k => k) (some "20260101::a") 3
        = some (.ok (twoActivities.rows, proof)) := by
  have hcursor : ∀ c ∈ truthy (some "20260101::a"), c ∈ twoActivities.rows.map (·.id) := by
    decide
  obtain ⟨proof, hvalid, hruns⟩ :=
    activityPopulation_history twoActivities (fun k => k) hcursor twoActivities_read
  exact ⟨proof, hvalid, hruns 3 (by decide)⟩

/-! ### A history that grows meanwhile -/

/-- The first rows of a history. -/
def ActivityHistory.upTo (history : ActivityHistory) (n : ℕ) : ActivityHistory where
  rows := history.rows.take n
  distinct := history.distinct.sublist ((List.take_sublist n _).map _)
  named row hrow := history.named row (List.mem_of_mem_take hrow)
  answers := history.answers
  unfiltered := history.unfiltered

/-- A broker that posts rows while it is read, each at the end of its list: how many there are when
the page after a token is asked for.  The page after a later row is asked for later. -/
structure GrowingFeed where
  whole : ActivityHistory
  posted : Option String → ℕ
  grows : ∀ token, ∀ row ∈ (whole.upTo (posted token)).following token,
    posted token ≤ posted (some row.id)

/-- The history when the page after a token is asked for. -/
def GrowingFeed.asOf (feed : GrowingFeed) (token : Option String) : ActivityHistory :=
  feed.whole.upTo (feed.posted token)

def GrowingFeed.fetch (feed : GrowingFeed) (request : PageRequest) : Except Raised PageAnswer :=
  (feed.asOf request.pageToken).fetch request

section Growing

variable {history : ActivityHistory} {feed : GrowingFeed} {now : ℕ → Instant} {size n : ℕ}
  {before rest : List InboxActivity} {p q : Paging}

theorem Stands.upTo (h : Stands history before rest p) (hn : before.length ≤ n) :
    Stands (history.upTo n) before (rest.take (n - before.length)) p where
  rows := by
    change history.rows.take n = _
    rw [h.rows, List.take_append, List.take_of_length_le hn]
  token := h.token
  tokens t ht hmem := h.tokens t ht (((List.take_sublist _ rest).map _).subset hmem)
  ids row hrow := h.ids row (List.mem_of_mem_take hrow)

theorem Stands.nextPage_upTo (h : Stands history before rest p) (hn : before.length + size ≤ n) :
    nextPage (history.upTo n) now size p = nextPage history now size p := by
  have htake : (rest.take (n - before.length)).take size = rest.take size := by
    rw [List.take_take, min_eq_left (by omega)]
  rw [(h.upTo (by omega)).nextPage_eq, h.nextPage_eq, htake]

theorem Stands.request_pageToken (h : Stands history before rest p) (size : ℕ) :
    (p.request none none size).pageToken = p.pageToken := by
  rw [Paging.request, h.token]
  exact ActivityHistory.truthy_id fun row hrow => h.named row (List.mem_append_left _ hrow)

/-- One page of a feed is one of the history as it stands then. -/
theorem GrowingFeed.paginateFrom_succ (h : Stands history before rest p) (requests : ℕ) :
    paginateFrom feed.fetch now none none size (requests + 1) p =
      match nextPage (feed.asOf p.pageToken) now size p with
      | .error e => some (.error e)
      | .ok (.inl q) => some (.ok q)
      | .ok (.inr q) => paginateFrom feed.fetch now none none size requests q := by
  rw [nextPage, ← h.request_pageToken size]
  rfl

theorem Stands.of_inr (hsize : 0 < size) (h : Stands history before rest p)
    (hq : nextPage history now size p = .ok (.inr q)) : size ≤ rest.length ∧
      q.pageToken = ((rest.take size).map (·.id)).getLast? ∧
      Stands history (before ++ rest.take size) (rest.drop size) q := by
  rcases h.step now hsize with ⟨-, q', hq', -⟩ | ⟨hle, q', hq', -, -, htoken, hstands⟩ |
    ⟨-, -, e, -, hq'⟩
  · rw [hq] at hq'
    cases hq'
  · rw [hq] at hq'
    cases hq'
    exact ⟨hle, htoken, hstands⟩
  · rw [hq] at hq'
    cases hq'

/-- **Reading a feed that grows is reading the history as it stands at one of the requests.** -/
theorem paginateFrom_growing (feed : GrowingFeed) (now : ℕ → Instant) (hsize : 0 < size)
    (h : Stands feed.whole before rest p) (hposted : before.length ≤ feed.posted p.pageToken) :
    ∃ request, Asks feed.fetch now size p request ∧
      feed.posted p.pageToken ≤ feed.posted request.pageToken ∧
      ∀ requests, paginateFrom feed.fetch now none none size requests p =
        paginateFrom (feed.asOf request.pageToken).fetch now none none size requests p := by
  -- by the number of rows that are left, posted or not
  generalize hlen : rest.length = k
  induction k using Nat.strong_induction_on generalizing before rest p with
  | _ k ih =>
      by_cases hnext : ∃ q, nextPage (feed.asOf p.pageToken) now size p = .ok (.inr q)
      · obtain ⟨q, hpage⟩ := hnext
        have hstands : Stands (feed.asOf p.pageToken) before _ p := h.upTo hposted
        have hfull := (hstands.of_inr hsize hpage).1
        rw [List.length_take] at hfull
        have hwhole : nextPage feed.whole now size p = .ok (.inr q) :=
          (h.nextPage_upTo (by omega)).symm.trans hpage
        obtain ⟨hle, htoken, hq⟩ := h.of_inr hsize hwhole
        -- the last row of the page is the next token
        have hne : rest.take size ≠ [] := by
          rw [← List.length_pos_iff, List.length_take]
          omega
        obtain ⟨row, hlast⟩ := Option.isSome_iff_exists.1 (List.getLast?_isSome.2 hne)
        rw [List.getLast?_map, hlast, Option.map_some] at htoken
        have hrow : row ∈ (feed.asOf p.pageToken).following p.pageToken := by
          have hrest := ActivityHistory.following_getLast? hstands.rows
          rw [← hstands.token] at hrest
          rw [hrest]
          exact List.take_subset_take_left rest (by omega) (List.mem_of_getLast? hlast)
        have hmore : feed.posted p.pageToken ≤ feed.posted q.pageToken :=
          htoken ▸ feed.grows p.pageToken row hrow
        obtain ⟨request, hasks, hlater, hsame⟩ := ih (rest.drop size).length
          (by rw [List.length_drop]; omega) hq
          (by rw [List.length_append, List.length_take]; omega) rfl
        have hagain : nextPage (feed.asOf request.pageToken) now size p = .ok (.inr q) :=
          (h.nextPage_upTo (by omega)).trans hwhole
        refine ⟨request, .later ?_ hasks, hmore.trans hlater, fun requests => ?_⟩
        · rw [nextPage, ← h.request_pageToken size] at hpage
          exact hpage
        cases requests with
        | zero => rfl
        | succ m =>
            rw [GrowingFeed.paginateFrom_succ h, paginateFrom_succ, hpage, hagain]
            exact hsame m
      · have htoken := h.request_pageToken size
        refine ⟨_, .here p, by rw [htoken], fun requests => ?_⟩
        cases requests with
        | zero => rfl
        | succ m =>
            rw [htoken]
            rw [GrowingFeed.paginateFrom_succ h, paginateFrom_succ]
            split
            · rfl
            · rfl
            · exact absurd ⟨_, ‹_›⟩ hnext

end Growing

/-- A feed that grows at its end is read as the history of one of the requests. -/
theorem paginateActivities_growing (feed : GrowingFeed) (now : ℕ → Instant) {size : ℕ}
    (hsize : 1 ≤ size ∧ size ≤ 100) :
    ∃ request, Asks feed.fetch now size {} request ∧
      feed.posted none ≤ feed.posted request.pageToken ∧ ∃ outcome,
      (∀ requests > (feed.asOf request.pageToken).rows.length,
        paginateActivities feed.fetch now none none size none requests = some outcome) ∧
      ((∃ rows pages, outcome = .ok (rows, pages) ∧
          rows.map (·.raw) = (feed.asOf request.pageToken).rows ∧
          validatePagination (rows.map (·.raw))
            (populationProof (rows.map (·.raw)) pages [] none) = .ok ()) ∨
        ∃ row ∈ (feed.asOf request.pageToken).rows, ∃ e, parseActivityRow row = .error e ∧
          outcome = .error e) := by
  obtain ⟨request, hasks, hlater, hsame⟩ := paginateFrom_growing feed now
    (Nat.lt_of_succ_le hsize.1) (stands_start feed.whole) (Nat.zero_le _)
  obtain ⟨outcome, hruns, hcases⟩ := paginateActivities_history
    (feed.asOf request.pageToken) now hsize
  refine ⟨request, hasks, hlater, outcome, fun requests hmany => ?_, hcases.imp_left ?_⟩
  · have hread := hruns requests hmany
    rw [paginateActivities, if_pos hsize] at hread ⊢
    exact (congrArg (Option.map _) (hsame requests)).trans hread
  · rintro ⟨rows, pages, hok, hraw, htiled⟩
    refine ⟨rows, pages, hok, hraw, ?_⟩
    rw [hraw]
    exact validate_history _ _ _ htiled
/-- The first activity alone when the reading starts, and both from the second request on. -/
def arriving : GrowingFeed where
  whole := twoActivities
  posted token := if token = none then 1 else 2
  grows token row _ := by
    rw [if_neg (Option.some_ne_none _)]
    split <;> omega

theorem paginateActivities_growing_arriving : ∃ request outcome,
    Asks arriving.fetch (fun k => k) 1 {} request ∧
      paginateActivities arriving.fetch (fun k => k) none none 1 none 3 = some outcome ∧
      outcome.map (fun read => read.1.map (·.raw)) =
        .ok (arriving.asOf request.pageToken).rows := by
  obtain ⟨request, hasks, -, outcome, hruns, hcases⟩ :=
    paginateActivities_growing arriving (fun k => k) (⟨le_rfl, by decide⟩ : 1 ≤ 1 ∧ 1 ≤ 100)
  refine ⟨request, outcome, hasks, hruns 3 (Nat.lt_succ_of_le (List.length_take_le' _ _)), ?_⟩
  rcases hcases with ⟨rows, pages, rfl, hraw, -⟩ | ⟨row, hrow, e, he, -⟩
  · exact congrArg Except.ok hraw
  · exact absurd he (twoActivities_read row (List.mem_of_mem_take hrow) e)

end TradePulse.ActivityPages
