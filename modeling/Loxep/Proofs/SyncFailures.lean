import Loxep.Proofs.NewestWins

/-!
# Orders that cannot be ingested

A run that meets an order whose mapping, translation or ingestion throws ends there. It has not
ingested the orders behind that one, and it stores no cursor, so that every later run meets the
same order.
-/

namespace Loxep

namespace OrderSyncService

variable {Raw Fact State Error : Type} (service : OrderSyncService Raw Fact State Error)
  (Inv : State → Prop)

def Accepts (fact : Fact) : Prop :=
  ∀ state, Inv state → ∃ state', service.ingest state fact = .ok state' ∧ Inv state'

def Refuses (fact : Fact) : Prop :=
  ∀ state, Inv state → ∃ error, service.ingest state fact = .error error

/-- Neither the mapping nor the translation nor the ingestion of the order throws. -/
def Processes (raw : Raw) : Prop :=
  ∃ fact, service.mapOrder raw = .ok fact ∧ service.Accepts Inv fact

/-- A run ingests every order that does not throw, and stores a cursor for the next run. -/
structure Isolates (modifiedAfter : Option EpochMillis) (pages : List (List Raw)) (state : State) :
    Prop where
  ingests : ∀ page ∈ pages, ∀ raw ∈ page, ∀ fact, service.mapOrder raw = .ok fact →
    service.Accepts Inv fact →
      fact ∈ (service.syncConnection modifiedAfter pages state).progress.ingested
  moves_on : (service.syncConnection modifiedAfter pages state).thrown = none

def syncAgain (pagesAfter : Option EpochMillis → List (List Raw))
    (modifiedAfter : Option EpochMillis) (state : State) : ℕ → SyncOutcome Fact State Error
  | 0 => ⟨⟨state, []⟩, modifiedAfter, none⟩
  | n + 1 =>
    let before := syncAgain pagesAfter modifiedAfter state n
    service.syncConnection before.modifiedAfter (pagesAfter before.modifiedAfter)
      before.progress.state

variable {service Inv} {modifiedAfter : Option EpochMillis} {page : List Raw}
  {pages : List (List Raw)} {state : State} {fact : Fact} {facts : List Fact}
  {progress : SyncProgress Fact State}

theorem ingestOrder_of_accepts (h : service.Accepts Inv fact) (hs : Inv progress.state) :
    (∃ o, (service.ingestOrder fact progress).1 = .ok o)
      ∧ Inv (service.ingestOrder fact progress).2.state := by
  obtain ⟨state', hok, hs'⟩ := h progress.state hs
  simp only [ingestOrder, hok]
  exact ⟨by simp, hs'⟩

theorem ingestOrder_of_refuses (h : service.Refuses Inv fact) (hs : Inv progress.state) :
    (∃ error, (service.ingestOrder fact progress).1 = .error error)
      ∧ (service.ingestOrder fact progress).2 = progress := by
  obtain ⟨error, herror⟩ := h progress.state hs
  simp only [ingestOrder, herror]
  exact ⟨by simp, trivial⟩

theorem syncPage_returns_iff (hsubset : ∀ raw ∈ page, ∀ fact, service.mapOrder raw = .ok fact →
      service.Accepts Inv fact ∨ service.Refuses Inv fact) (hs : Inv progress.state) :
    (∃ os, (service.syncPage page progress).1 = .ok os) ↔
      ∀ raw ∈ page, service.Processes Inv raw := by
  unfold syncPage
  rcases hmap : page.mapM service.mapOrder with error | facts
  · refine iff_of_false (by simp) fun h => ?_
    obtain ⟨facts, hfacts⟩ := Except.mapM_returns_iff.2 fun raw hraw =>
      (h raw hraw).imp fun fact hfact => hfact.1
    rw [hmap] at hfacts
    cases hfacts
  · have hmapped := Except.mapM_eq_ok.1 hmap
    have hfact : ∀ fact ∈ facts, ∃ raw ∈ page, service.mapOrder raw = .ok fact := by
      intro fact hmem
      have hok : (.ok fact : Except Error Fact) ∈ page.map service.mapOrder := by
        rw [hmapped]
        exact List.mem_map_of_mem hmem
      exact List.mem_map.1 hok
    rw [Sweep.sweep_returns_iff (fun progress : SyncProgress Fact State => Inv progress.state)
      (service.Accepts Inv)
      (fun fact _ haccepts progress hs => ingestOrder_of_accepts haccepts hs) ?_ hs]
    · constructor
      · intro h raw hraw
        have hok : service.mapOrder raw ∈ facts.map .ok := by
          rw [← hmapped]
          exact List.mem_map_of_mem hraw
        obtain ⟨fact, hmem, hfact⟩ := List.mem_map.1 hok
        exact ⟨fact, hfact.symm, h fact hmem⟩
      · intro h fact hmem
        obtain ⟨raw, hraw, hok⟩ := hfact fact hmem
        obtain ⟨fact', hok', haccepts⟩ := h raw hraw
        rw [hok, Except.ok.injEq] at hok'
        exact hok' ▸ haccepts
    · intro fact hmem hnot progress hs
      obtain ⟨raw, hraw, hok⟩ := hfact fact hmem
      rcases hsubset raw hraw fact hok with haccepts | hrefuses
      · exact absurd haccepts hnot
      · exact (ingestOrder_of_refuses hrefuses hs).1

theorem syncPage_keeps (hsubset : ∀ raw ∈ page, ∀ fact, service.mapOrder raw = .ok fact →
      service.Accepts Inv fact ∨ service.Refuses Inv fact) (hs : Inv progress.state) :
    Inv (service.syncPage page progress).2.state := by
  unfold syncPage
  rcases hmap : page.mapM service.mapOrder with error | facts
  · exact hs
  · have hmapped := Except.mapM_eq_ok.1 hmap
    refine Sweep.sweep_keeps (fun progress : SyncProgress Fact State => Inv progress.state)
      (fun fact hmem progress hs => ?_) hs
    have hok : (.ok fact : Except Error Fact) ∈ page.map service.mapOrder := by
      rw [hmapped]
      exact List.mem_map_of_mem hmem
    obtain ⟨raw, hraw, hok⟩ := List.mem_map.1 hok
    rcases hsubset raw hraw fact hok with haccepts | hrefuses
    · exact (ingestOrder_of_accepts haccepts hs).2
    · rw [(ingestOrder_of_refuses hrefuses hs).2]
      exact hs

theorem ingestOrder_subset :
    progress.ingested ⊆ (service.ingestOrder fact progress).2.ingested := by
  unfold ingestOrder
  rcases service.ingest progress.state fact with error | state
  · exact List.Subset.refl _
  · exact List.subset_append_left _ _

theorem syncPage_subset : progress.ingested ⊆ (service.syncPage page progress).2.ingested := by
  unfold syncPage
  rcases page.mapM service.mapOrder with error | facts
  · exact List.Subset.refl _
  · exact Sweep.sweep_keeps (fun progress' : SyncProgress Fact State =>
      progress.ingested ⊆ progress'.ingested)
      (fun fact _ progress' h => List.Subset.trans h ingestOrder_subset) (List.Subset.refl _)

variable {os : List Unit} {raw : Raw}

theorem sweep_ingestOrder_mem (h : (sweep service.ingestOrder facts progress).1 = .ok os)
    (hmem : fact ∈ facts) :
    fact ∈ (sweep service.ingestOrder facts progress).2.ingested := by
  induction facts generalizing progress os with
  | nil => exact absurd hmem List.not_mem_nil
  | cons first rest ih =>
    obtain ⟨o, os', hfirst, hrest, hstate⟩ := Sweep.sweep_cons_ok h
    rw [hstate]
    rcases List.mem_cons.1 hmem with rfl | hmem
    · have hself : fact ∈ (service.ingestOrder fact progress).2.ingested := by
        unfold ingestOrder at hfirst ⊢
        rcases hresult : service.ingest progress.state fact with error | state
        · rw [hresult] at hfirst
          cases hfirst
        · exact List.mem_append_right _ (List.mem_singleton_self _)
      exact Sweep.sweep_keeps (fun progress' : SyncProgress Fact State =>
        fact ∈ progress'.ingested)
        (fun fact' _ progress' h => ingestOrder_subset h) hself
    · exact ih hrest hmem

theorem syncPage_mem (h : (service.syncPage page progress).1 = .ok os) (hraw : raw ∈ page)
    (hfact : service.mapOrder raw = .ok fact) :
    fact ∈ (service.syncPage page progress).2.ingested := by
  unfold syncPage at h ⊢
  rcases hmap : page.mapM service.mapOrder with error | facts
  · rw [hmap] at h
    cases h
  · rw [hmap] at h
    have hok : service.mapOrder raw ∈ facts.map .ok := by
      rw [← Except.mapM_eq_ok.1 hmap]
      exact List.mem_map_of_mem hraw
    obtain ⟨fact', hmem, hsame⟩ := List.mem_map.1 hok
    rw [hfact, Except.ok.injEq] at hsame
    subst hsame
    exact sweep_ingestOrder_mem h hmem

theorem sweep_syncPage_mem {os : List (List Unit)}
    (h : (sweep service.syncPage pages progress).1 = .ok os) (hpage : page ∈ pages)
    (hraw : raw ∈ page) (hfact : service.mapOrder raw = .ok fact) :
    fact ∈ (sweep service.syncPage pages progress).2.ingested := by
  induction pages generalizing progress os with
  | nil => exact absurd hpage List.not_mem_nil
  | cons first rest ih =>
    obtain ⟨o, os', hfirst, hrest, hstate⟩ := Sweep.sweep_cons_ok h
    rw [hstate]
    rcases List.mem_cons.1 hpage with rfl | hpage
    · exact Sweep.sweep_keeps (fun progress' : SyncProgress Fact State =>
        fact ∈ progress'.ingested)
        (fun page' _ progress' h => syncPage_subset h) (syncPage_mem hfirst hraw hfact)
    · exact ih hrest hpage

theorem moves_on_iff (modifiedAfter : Option EpochMillis)
    (hsubset : ∀ page ∈ pages, ∀ raw ∈ page, ∀ fact, service.mapOrder raw = .ok fact →
      service.Accepts Inv fact ∨ service.Refuses Inv fact) (hs : Inv state) :
    (service.syncConnection modifiedAfter pages state).thrown = none ↔
      ∀ page ∈ pages, ∀ raw ∈ page, service.Processes Inv raw := by
  rw [← Sweep.sweep_returns_iff (f := service.syncPage) (s := ⟨state, []⟩)
    (fun progress : SyncProgress Fact State => Inv progress.state)
    (fun page => ∀ raw ∈ page, service.Processes Inv raw) (fun page hpage hall progress hs =>
      ⟨(syncPage_returns_iff (hsubset page hpage) hs).2 hall, syncPage_keeps (hsubset page hpage) hs⟩)
    (fun page hpage hnot progress hs => ?_) hs]
  · unfold syncConnection
    rcases sweep service.syncPage pages ⟨state, []⟩ with ⟨_ | _, _⟩ <;> simp
  · rcases hpageResult : (service.syncPage page progress).1 with error | os
    · exact ⟨error, rfl⟩
    · exact absurd ((syncPage_returns_iff (hsubset page hpage) hs).1 ⟨os, hpageResult⟩) hnot

/-- Orders that throw are kept apart from the others exactly where there are none. -/
theorem isolates_iff
    (hsubset : ∀ page ∈ pages, ∀ raw ∈ page, ∀ fact, service.mapOrder raw = .ok fact →
      service.Accepts Inv fact ∨ service.Refuses Inv fact) (hs : Inv state) :
    service.Isolates Inv modifiedAfter pages state ↔
      ∀ page ∈ pages, ∀ raw ∈ page, service.Processes Inv raw := by
  refine ⟨fun h => (moves_on_iff modifiedAfter hsubset hs).1 h.moves_on, fun h => ?_⟩
  have hthrown := (moves_on_iff modifiedAfter hsubset hs).2 h
  refine ⟨fun page hpage raw hraw fact hfact _ => ?_, hthrown⟩
  unfold syncConnection at hthrown ⊢
  rcases hresult : sweep service.syncPage pages ⟨state, []⟩ with ⟨error | os, progress⟩
  · rw [hresult] at hthrown
    cases hthrown
  · have hmem := sweep_syncPage_mem (by rw [hresult]) hpage hraw hfact
    rw [hresult] at hmem
    exact hmem

theorem not_accepts_of_refuses (h : service.Refuses Inv fact) (hs : Inv state) :
    ¬service.Accepts Inv fact := by
  intro haccepts
  obtain ⟨error, herror⟩ := h state hs
  obtain ⟨state', hok, -⟩ := haccepts state hs
  rw [herror] at hok
  cases hok

theorem ingested_before {done rest : List Fact}
    (hsubset : ∀ fact ∈ done, service.Accepts Inv fact ∨ service.Refuses Inv fact)
    (hrefuses : service.Refuses Inv fact) (hs : Inv progress.state) :
    (sweep service.ingestOrder (done ++ fact :: rest) progress).2.ingested ⊆
      progress.ingested ++ done := by
  induction done generalizing progress with
  | nil =>
    obtain ⟨⟨error, herror⟩, hsame⟩ := ingestOrder_of_refuses hrefuses hs
    rw [List.nil_append, List.append_nil, sweep]
    rcases hresult : service.ingestOrder fact progress with ⟨error' | o, progress'⟩
    · rw [hresult] at hsame
      rw [← hsame]
      exact List.Subset.refl _
    · rw [hresult] at herror
      cases herror
  | cons first done ih =>
    have hfirst : (service.ingestOrder first progress).2.ingested ⊆ progress.ingested ++ [first] := by
      unfold ingestOrder
      rcases service.ingest progress.state first with error | state
      · exact List.subset_append_left _ _
      · exact List.Subset.refl _
    have hgrow : progress.ingested ++ [first] ⊆ progress.ingested ++ first :: done :=
      List.append_subset.2 ⟨List.subset_append_left _ _, by simp⟩
    rcases Sweep.sweep_cons_state first (done ++ fact :: rest) progress with hstate | hstate
    · rw [List.cons_append, hstate]
      exact List.Subset.trans hfirst hgrow
    · rw [List.cons_append, hstate]
      have hs' : Inv (service.ingestOrder first progress).2.state := by
        rcases hsubset first List.mem_cons_self with haccepts | hrefused
        · exact (ingestOrder_of_accepts haccepts hs).2
        · rw [(ingestOrder_of_refuses hrefused hs).2]
          exact hs
      refine List.Subset.trans
        (ih (fun other hmem => hsubset other (List.mem_cons_of_mem _ hmem)) hs') ?_
      refine List.append_subset.2 ⟨List.Subset.trans hfirst hgrow, ?_⟩
      intro other hmem
      simp [hmem]

section Stuck

variable {pagesAfter : Option EpochMillis → List (List Raw)} {more : List (List Raw)}
  {done rest : List Fact}

theorem syncConnection_stuck (hmap : page.mapM service.mapOrder = .ok (done ++ fact :: rest))
    (hsubset : ∀ other ∈ done ++ rest, service.Accepts Inv other ∨ service.Refuses Inv other)
    (hrefuses : service.Refuses Inv fact) (hs : Inv state) :
    (service.syncConnection modifiedAfter (page :: more) state).modifiedAfter = modifiedAfter
      ∧ Inv (service.syncConnection modifiedAfter (page :: more) state).progress.state
      ∧ (service.syncConnection modifiedAfter (page :: more) state).progress.ingested ⊆ done := by
  have hall : ∀ other ∈ done ++ fact :: rest,
      service.Accepts Inv other ∨ service.Refuses Inv other := by
    intro other hmem
    rw [List.mem_append, List.mem_cons] at hmem
    rcases hmem with hmem | rfl | hmem
    · exact hsubset other (List.mem_append_left _ hmem)
    · exact .inr hrefuses
    · exact hsubset other (List.mem_append_right _ hmem)
  have hpage : service.syncPage page ⟨state, []⟩ =
      sweep service.ingestOrder (done ++ fact :: rest) ⟨state, []⟩ := by
    rw [syncPage, hmap]
  have hraises : ¬∃ os, (sweep service.ingestOrder (done ++ fact :: rest) ⟨state, []⟩).1 = .ok os := by
    rw [Sweep.sweep_returns_iff (fun progress : SyncProgress Fact State => Inv progress.state)
      (service.Accepts Inv) (fun other _ haccepts progress hs => ingestOrder_of_accepts haccepts hs)
      (fun other hmem hnot progress hs => ?_) hs]
    · intro h
      exact not_accepts_of_refuses hrefuses hs (h fact (by simp))
    · rcases hall other hmem with haccepts | hrefused
      · exact absurd haccepts hnot
      · exact (ingestOrder_of_refuses hrefused hs).1
  have hkept : Inv (service.syncPage page ⟨state, []⟩).2.state := by
    rw [hpage]
    refine Sweep.sweep_keeps (fun progress : SyncProgress Fact State => Inv progress.state)
      (fun other hmem progress hs => ?_) hs
    rcases hall other hmem with haccepts | hrefused
    · exact (ingestOrder_of_accepts haccepts hs).2
    · rw [(ingestOrder_of_refuses hrefused hs).2]
      exact hs
  have hbefore : (sweep service.ingestOrder (done ++ fact :: rest) ⟨state, []⟩).2.ingested ⊆
      [] ++ done :=
    ingested_before (fun other hmem => hsubset other (List.mem_append_left _ hmem)) hrefuses hs
  rw [← hpage] at hraises hbefore
  unfold syncConnection
  rw [sweep]
  rcases hresult : service.syncPage page ⟨state, []⟩ with ⟨error | os, progress⟩
  · rw [hresult] at hkept hbefore
    exact ⟨rfl, hkept, hbefore⟩
  · rw [hresult] at hraises
    exact absurd ⟨os, rfl⟩ hraises

theorem syncAgain_stuck (hpages : pagesAfter modifiedAfter = page :: more)
    (hmap : page.mapM service.mapOrder = .ok (done ++ fact :: rest))
    (hsubset : ∀ other ∈ done ++ rest, service.Accepts Inv other ∨ service.Refuses Inv other)
    (hrefuses : service.Refuses Inv fact) (hs : Inv state) (n : ℕ) :
    (service.syncAgain pagesAfter modifiedAfter state n).modifiedAfter = modifiedAfter
      ∧ Inv (service.syncAgain pagesAfter modifiedAfter state n).progress.state
      ∧ (service.syncAgain pagesAfter modifiedAfter state n).progress.ingested ⊆ done := by
  induction n with
  | zero => exact ⟨rfl, hs, List.nil_subset _⟩
  | succ n ih =>
    obtain ⟨hcursor, hs', -⟩ := ih
    rw [syncAgain, hcursor, hpages]
    exact syncConnection_stuck hmap hsubset hrefuses hs'

end Stuck

end OrderSyncService

namespace CommerceTables

open OrderSyncService

/-- The connection is there, and no stock row refers to an order's rows. -/
structure SyncReady (connectionId : ConnectionId) (t : CommerceTables) : Prop where
  sound : t.Sound
  connection : (t.connections.find? (·.id == connectionId)).isSome
  unreferenced : t.references = {}

theorem freshOrderId_notMem (t : CommerceTables) : t.freshOrderId ∉ t.orders.map (·.id) := by
  intro hmem
  have hle : ∀ ids : List OrderId, ∀ id ∈ ids, id ≤ ids.foldr max 0 := by
    intro ids
    induction ids with
    | nil => exact fun _ h => absurd h List.not_mem_nil
    | cons first rest ih =>
      intro id hid
      rw [List.foldr_cons]
      rcases List.mem_cons.1 hid with rfl | hid
      · exact le_max_left _ _
      · exact (ih id hid).trans (le_max_right _ _)
  have hself := hle _ _ hmem
  exact absurd hself (Nat.not_succ_le_self _)

section Service

variable {Raw Fact : Type} {connectionId : ConnectionId} {now : Timestamp}
  {mapOrder : Raw → CommerceResult Fact} {translate : Fact → CommerceResult CommerceOrderFact}
  {updatedAt : Fact → Option EpochMillis} {observed : Fact} {fact : CommerceOrderFact}

theorem orderSync_accepts (htranslate : translate observed = .ok fact) (hfact : fact.Storable) :
    (orderSync connectionId now mapOrder translate updatedAt).Accepts (SyncReady connectionId)
      observed := by
  intro t ht
  have hfree : RowsFree t.references (t.storedChildren ⟨connectionId, fact.provider,
      fact.externalOrderId⟩) fact := by
    rw [ht.unreferenced]
    exact ⟨fun _ _ _ _ h => absurd h List.not_mem_nil, fun _ _ _ h => absurd h List.not_mem_nil,
      fun _ _ _ h => absurd h List.not_mem_nil⟩
  have hadmits : t.Admits t.freshOrderId { connectionId, fact, now } :=
    ⟨ht.connection, fun _ => freshOrderId_notMem t, hfree⟩
  have hcommits : ∃ result t', t.ingestOrderFact t.freshOrderId { connectionId, fact, now } =
      .ok (result, t') := (commits_iff_admits ht.sound hfact).2 hadmits
  obtain ⟨result, t', hok⟩ := hcommits
  obtain ⟨written, hingested⟩ := ingested_of_ok hok
  refine ⟨t', ?_, hingested.sound ht.sound hfact, ?_, hingested.references.trans ht.unreferenced⟩
  · simp only [orderSync, htranslate, bind, Except.bind, hok]
    rfl
  · rw [hingested.connections]
    exact ht.connection

theorem orderSync_refuses (htranslate : translate observed = .ok fact) (hissues : fact.issues ≠ [])
    :
    (orderSync connectionId now mapOrder translate updatedAt).Refuses (SyncReady connectionId)
      observed := by
  intro t _
  have hparse : ∃ error, t.ingestOrderFact t.freshOrderId { connectionId, fact, now } =
      .error error := by
    unfold ingestOrderFact ingestAfterRead CommerceOrderFact.parse
    rw [if_neg hissues]
    exact ⟨_, rfl⟩
  obtain ⟨error, herror⟩ := hparse
  exact ⟨error, by simp only [orderSync, htranslate, bind, Except.bind, herror]⟩

end Service

section Examples

def parcelOrder : CommerceOrderFact := threeOfOne tenOClock [⟨1, 3_000_000⟩]

def withoutCurrency : CommerceOrderFact :=
  { parcelOrder with
    externalOrderId := "26-00000", values := { parcelOrder.values with currency := "" } }

def parcelSync :
    OrderSyncService CommerceOrderFact CommerceOrderFact CommerceTables CommerceError :=
  orderSync 1 tenOClock .ok .ok fun _ => some 0

theorem parcelOrder_storable : parcelOrder.Storable :=
  threeOfOne_storable _ _ (by decide +kernel) (by decide +kernel) (by simp) (by simp)

theorem oneConnection_ready : SyncReady 1 oneConnection := ⟨oneConnection_sound, rfl, rfl⟩

theorem parcel_isolated :
    parcelSync.Isolates (SyncReady 1) none [[parcelOrder]] oneConnection := by
  have haccepts : parcelSync.Accepts (SyncReady 1) parcelOrder :=
    orderSync_accepts rfl parcelOrder_storable
  refine (isolates_iff (fun page hpage raw hraw fact hfact => .inl ?_) oneConnection_ready).2 ?_
  · rw [List.mem_singleton.1 hpage, List.mem_singleton] at hraw
    cases hfact
    rwa [hraw]
  · intro page hpage raw hraw
    rw [List.mem_singleton.1 hpage, List.mem_singleton] at hraw
    exact ⟨parcelOrder, by rw [hraw]; rfl, haccepts⟩

theorem parcel_never_ingested :
    ¬parcelSync.Isolates (SyncReady 1) none [[withoutCurrency, parcelOrder]] oneConnection
      ∧ ∀ n, parcelOrder ∉ (parcelSync.syncAgain (fun _ => [[withoutCurrency, parcelOrder]]) none
          oneConnection n).progress.ingested := by
  have hrefuses : parcelSync.Refuses (SyncReady 1) withoutCurrency :=
    orderSync_refuses rfl (by decide +kernel)
  have haccepts : parcelSync.Accepts (SyncReady 1) parcelOrder :=
    orderSync_accepts rfl parcelOrder_storable
  have hsubset : ∀ other ∈ ([] ++ [parcelOrder] : List CommerceOrderFact),
      parcelSync.Accepts (SyncReady 1) other ∨ parcelSync.Refuses (SyncReady 1) other := by
    intro other hmem
    rw [List.nil_append, List.mem_singleton] at hmem
    exact .inl (hmem ▸ haccepts)
  have hmap : [withoutCurrency, parcelOrder].mapM parcelSync.mapOrder =
      .ok ([] ++ withoutCurrency :: [parcelOrder]) := rfl
  constructor
  · intro h
    have hingests := h.ingests _ (List.mem_singleton_self _) parcelOrder (by simp) _ rfl haccepts
    have hstuck : (parcelSync.syncConnection none [[withoutCurrency, parcelOrder]]
        oneConnection).modifiedAfter = none ∧ _ ∧ _ :=
      syncConnection_stuck hmap hsubset hrefuses oneConnection_ready
    exact absurd (hstuck.2.2 hingests) List.not_mem_nil
  · intro n hmem
    have hstuck : (parcelSync.syncAgain (fun _ => [[withoutCurrency, parcelOrder]]) none
        oneConnection n).modifiedAfter = none ∧ _ ∧ _ :=
      syncAgain_stuck rfl hmap hsubset hrefuses oneConnection_ready n
    exact absurd (hstuck.2.2 hmem) List.not_mem_nil

end Examples

end CommerceTables

end Loxep
