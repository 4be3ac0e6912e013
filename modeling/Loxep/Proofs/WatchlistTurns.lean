import Loxep.Lib.StalestFirst
import Loxep.Proofs.WatchlistPolls

/-!
# Every member of a watchlist has its turn

A poll observes the members that were observed longest ago. So every member is observed once in so
many polls as it takes to observe them all, where no fetch that fails keeps the others waiting: one
that fails ends its poll, and is first again.
-/

namespace Loxep

namespace WatchTables

variable {t : WatchTables} {w : Watchlist} {p : WatchlistPoll} {members : Finset String}
  {ι : String → MarketplaceItemId}

theorem le_lastObservedAt {row : ObservationRow} (h : row ∈ t.observations) :
    (row.observedAt : WithBot Timestamp) ≤ t.lastObservedAt row.marketplaceItemId :=
  List.le_maximum_of_mem' (List.mem_map_of_mem (List.mem_filter.2 ⟨h, by simp⟩))

variable {id : MarketplaceItemId} {e : String}

theorem lastObservedAt_le {bound : WithBot Timestamp}
    (h : ∀ row ∈ t.observationsOf id, (row.observedAt : WithBot Timestamp) ≤ bound) :
    t.lastObservedAt id ≤ bound := by
  refine List.maximum_le_of_forall_le fun at' hat => ?_
  obtain ⟨row, hrow, rfl⟩ := List.mem_map.1 hat
  exact h row hrow

theorem lastObservedAt_lt {at' : Timestamp} (h : ∀ row ∈ t.observationsOf id, row.observedAt < at')
    : t.lastObservedAt id < at' := by
  rcases hmax : t.lastObservedAt id with _ | last
  · exact WithBot.bot_lt_coe at'
  · obtain ⟨row, hrow, rfl⟩ := List.mem_map.1 (List.maximum_mem hmax)
    exact WithBot.coe_lt_coe.2 (h row hrow)

def Identified (w : Watchlist) (members : Finset String) (ι : String → MarketplaceItemId)
    (t : WatchTables) : Prop :=
  ∀ e ∈ members, t.idOf (w.memberKey e) = some (ι e)

variable {t' : WatchTables} {polls : List WatchlistPoll}

theorem Identified.of_extends (h : t.Identified w members ι) (hext : t.Extends t')
    : t'.Identified w members ι :=
  fun e he => hext.items.ids _ _ (h e he)

theorem mem_presentIds (h : p.Lists w members)
    (hids : (t.refreshMembership w p).2.Identified w members ι) :
    id ∈ (t.presentItems w p).map (·.id) ↔ id ∈ members.image ι := by
  obtain ⟨-, -, hrefreshed⟩ := refreshMembership_ok (t := t) h
  rw [List.mem_map, Finset.mem_image]
  constructor
  · rintro ⟨item, hitem, rfl⟩
    obtain ⟨e, he, hkey⟩ := hrefreshed.member_of item hitem
    have hid := hrefreshed.known item hitem
    rw [hkey, hids e he] at hid
    exact ⟨e, he, Option.some.inj hid⟩
  · rintro ⟨e, he, rfl⟩
    obtain ⟨item, hitem, hkey⟩ := hrefreshed.of_member e he
    have hid := hrefreshed.known item hitem
    rw [hkey, hids e he] at hid
    exact ⟨item, hitem, (Option.some.inj hid).symm⟩

theorem exists_staleOrder (h : p.Lists w members)
    (hids : (t.refreshMembership w p).2.Identified w members ι) :
    ∃ order : List MarketplaceItemId, order.Nodup ∧
      order.Pairwise (fun a b => t.staleness a < t.staleness b) ∧
      (∀ id, id ∈ order ↔ id ∈ members.image ι) ∧
      (t.selectedMembers w p).map (·.id) = order.take w.watchlistItemsPerPoll := by
  obtain ⟨-, -, hrefreshed⟩ := refreshMembership_ok (t := t) h
  set after := (t.refreshMembership w p).2
  set present := (t.presentItems w p).map (·.id)
  have hlinked : ∀ id ∈ present, after.Linked w.monitorTargetId id := by
    intro id hid
    obtain ⟨item, hitem, rfl⟩ := List.mem_map.1 hid
    exact hrefreshed.linked item hitem
  have hstaleness : after.staleness = t.staleness := by
    funext id
    unfold staleness lastObservedAt observationsOf
    rw [hrefreshed.observations]
  refine ⟨after.staleOrder w.monitorTargetId present, nodup_staleOrder, ?_, fun id => ?_,
    map_membersToObserve hrefreshed.linked⟩
  · rw [← hstaleness]
    exact pairwise_staleOrder
  · rw [← mem_presentIds h hids, ← mem_linkedCandidates hlinked]
    exact List.mem_insertionSort _

theorem lastObservedAt_eq {ids : List MarketplaceItemId} (hext : t.Extends t')
    (hadds : t.Adds t' p ids) (hid : id ∉ ids) :
    t'.lastObservedAt id = t.lastObservedAt id := by
  refine le_antisymm (lastObservedAt_le fun row hrow => ?_) (lastObservedAt_le fun row hrow => ?_)
  · obtain ⟨hmem, hrow⟩ := List.mem_filter.1 hrow
    have heq : row.marketplaceItemId = id := by simpa using hrow
    subst heq
    rcases hadds row hmem with hold | ⟨hnew, -⟩
    · exact le_lastObservedAt hold
    · exact absurd hnew hid
  · obtain ⟨hmem, hrow⟩ := List.mem_filter.1 hrow
    have heq : row.marketplaceItemId = id := by simpa using hrow
    subst heq
    exact le_lastObservedAt (hext.rows row hmem)

theorem Observes.le_lastObservedAt (h : t.Observes p id) :
    (p.observedAt : WithBot Timestamp) ≤ t.lastObservedAt id := by
  obtain ⟨row, hrow, hidentity⟩ := h
  simp only [ObservationRow.identity, Prod.mk.injEq] at hidentity
  obtain ⟨-, rfl, hat⟩ := hidentity
  rw [← hat]
  exact WatchTables.le_lastObservedAt hrow

def ObservesOthers (w : Watchlist) (t : WatchTables) (p : WatchlistPoll) : Prop :=
  ∀ item ∈ t.selectedMembers w p, p.Fetches item.key.externalItemId →
    (w.step t p).Observes p item.id

instance (w : Watchlist) (t : WatchTables) (p : WatchlistPoll) :
    Decidable (ObservesOthers w t p) :=
  inferInstanceAs (Decidable (∀ item ∈ t.selectedMembers w p, _ → _))

def StarvesNone (w : Watchlist) (members : Finset String) (t : WatchTables)
    (polls : List WatchlistPoll) : Prop :=
  ∀ before window after, polls = before ++ window ++ after →
    members.card ≤ window.length * w.watchlistItemsPerPoll →
      ∀ e ∈ members, (∀ p ∈ window, p.Fetches e) → ∃ p ∈ window, ∃ id,
        (Runs.run w.step t (before ++ window)).idOf (w.memberKey e) = some id ∧
          (Runs.run w.step t (before ++ window)).Observes p id

/-- The members are listed, what is fetched of one is its own, the clock has gone on since they were
observed, and a fetch that fails comes last in a poll that selects all members. -/
structure Unhindered (w : Watchlist) (members : Finset String) (t : WatchTables) (p : WatchlistPoll)
    : Prop where
  lists : p.Lists w members
  clock : ∀ item ∈ t.presentItems w p, ∀ row ∈ t.observationsOf item.id,
    row.observedAt < p.observedAt
  provides : ∀ item ∈ t.selectedMembers w p, p.Provides w item
  failing_last : FailingLast p (t.selectedMembers w p)
  none_waits : w.watchlistItemsPerPoll < members.card →
    ∀ item ∈ t.selectedMembers w p, p.Fetches item.key.externalItemId

theorem observesOthers_of_failingLast (h : p.Lists w members)
    (hprovides : ∀ item ∈ t.selectedMembers w p, p.Provides w item)
    (hlast : FailingLast p (t.selectedMembers w p)) : ObservesOthers w t p := by
  intro item hitem hfetches
  rw [step_eq h]
  exact observes_of_failingLast (selected_known h) hprovides hlast item hitem hfetches

theorem Unhindered.turn (h : t.Unhindered w members p)
    (hall : ∀ item ∈ t.selectedMembers w p, p.Fetches item.key.externalItemId)
    (hids : (t.refreshMembership w p).2.Identified w members ι) :
    StalestFirst.Turn (members.image ι) ((t.selectedMembers w p).map (·.id)).toFinset t.staleness
      (w.step t p).staleness w.watchlistItemsPerPoll := by
  have hobserves := observesOthers_of_failingLast h.lists h.provides h.failing_last
  have hadds : t.Adds (w.step t p) p ((t.selectedMembers w p).map (·.id)) :=
    step_adds h.lists (List.append_nil _).symm h.provides (by simp)
  obtain ⟨order, hnodup, hsorted, hmem, htake⟩ := exists_staleOrder h.lists hids
  have hobserved : ∀ id ∈ order.take w.watchlistItemsPerPoll, (w.step t p).Observes p id := by
    intro id hid
    rw [← htake] at hid
    obtain ⟨item, hitem, rfl⟩ := List.mem_map.1 hid
    exact hobserves item hitem (hall item hitem)
  rw [htake] at hadds ⊢
  have hkeeps : ∀ x, x ∉ order.take w.watchlistItemsPerPoll →
      (w.step t p).lastObservedAt x = t.lastObservedAt x :=
    fun x hx => lastObservedAt_eq step_extends hadds hx
  have hserved : ∀ x, x ∉ (order.take w.watchlistItemsPerPoll).toFinset →
      x ∉ order.take w.watchlistItemsPerPoll := fun x hx hmem => hx (List.mem_toFinset.2 hmem)
  refine ⟨fun y hy => ?_, ?_, fun y hy x hx hnot => ?_, fun x _ hnot => ?_,
    fun y hy x hx hnot => ?_⟩
  · exact (hmem y).1 (List.mem_of_mem_take (List.mem_toFinset.1 hy))
  · by_cases hlength : w.watchlistItemsPerPoll ≤ order.length
    · rw [List.toFinset_card_of_nodup (hnodup.sublist (List.take_sublist _ _)), List.length_take]
      exact .inl (by omega)
    · rw [List.take_of_length_le (by omega)]
      exact .inr (Finset.ext fun x => List.mem_toFinset.trans (hmem x))
  · have hfirst := StalestFirst.rel_of_mem_take hsorted (List.mem_toFinset.1 hy) ((hmem x).2 hx)
      (hserved x hnot)
    exact hfirst
  · unfold staleness
    rw [hkeeps x (hserved x hnot)]
  · have hclock : t.lastObservedAt x < p.observedAt := by
      obtain ⟨item, hitem, rfl⟩ := List.mem_map.1 ((mem_presentIds h.lists hids).2 hx)
      exact lastObservedAt_lt (h.clock item hitem)
    have hlast := (hobserved y (List.mem_toFinset.1 hy)).le_lastObservedAt
    refine Prod.Lex.toLex_lt_toLex.2 (.inl ?_)
    rw [hkeeps x (hserved x hnot)]
    exact hclock.trans_le hlast

theorem run_extends (polls : List WatchlistPoll) : t.Extends (Runs.run w.step t polls) :=
  Runs.run_of_step (fun _ _ h => h.trans step_extends) (.refl t)

theorem exists_identified (h : p.Lists w members) :
    ∃ ι, (t.refreshMembership w p).2.Identified w members ι := by
  obtain ⟨-, -, hrefreshed⟩ := refreshMembership_ok (t := t) h
  refine ⟨fun e => ((t.refreshMembership w p).2.idOf (w.memberKey e)).getD 0, fun e he => ?_⟩
  obtain ⟨item, hitem, hkey⟩ := hrefreshed.of_member e he
  have hid := hrefreshed.known item hitem
  rw [hkey] at hid
  simp [hid]

theorem exists_selected (h : p.Lists w members) (hnumbered : t.Numbered)
    (hcard : members.card ≤ w.watchlistItemsPerPoll) (he : e ∈ members) :
    ∃ item ∈ t.selectedMembers w p, item.key = w.memberKey e := by
  obtain ⟨ι, hids⟩ := exists_identified (t := t) h
  obtain ⟨order, hnodup, -, hmem, htake⟩ := exists_staleOrder h hids
  have horder : order.toFinset = members.image ι :=
    Finset.ext fun x => List.mem_toFinset.trans (hmem x)
  have hlength : order.length ≤ w.watchlistItemsPerPoll := by
    rw [← List.toFinset_card_of_nodup hnodup, horder]
    exact Finset.card_image_le.trans hcard
  rw [List.take_of_length_le hlength] at htake
  have hid : ι e ∈ (t.selectedMembers w p).map (·.id) := by
    rw [htake]
    exact (hmem _).2 (Finset.mem_image_of_mem ι he)
  obtain ⟨item, hitem, hid⟩ := List.mem_map.1 hid
  refine ⟨item, hitem, (refreshMembership_extends.items.numbered hnumbered).key_unique
    (selected_known h item hitem) ?_⟩
  rw [hid]
  exact hids e he

theorem exists_turn (h : Runs.Meets w.step (Unhindered w members) t polls)
    (hmany : w.watchlistItemsPerPoll < members.card)
    (hlength : members.card ≤ polls.length * w.watchlistItemsPerPoll) (he : e ∈ members)
    : ∃ p ∈ polls, ∃ id,
      (Runs.run w.step t polls).idOf (w.memberKey e) = some id ∧
        (Runs.run w.step t polls).Observes p id := by
  rcases polls with _ | ⟨p, rest⟩
  · simp only [List.length_nil] at hlength
    omega
  obtain ⟨ι, hι⟩ := exists_identified (t := t) h.1.lists
  have hstep : (w.step t p).Identified w members ι := hι.of_extends refreshMembership_extends_step
  have hrest : Runs.Meets w.step (fun s q => Unhindered w members s q ∧
      (s.refreshMembership w q).2.Identified w members ι) (w.step t p) rest := by
    have hkeeps : ∀ s q, Identified w members ι s → Unhindered w members s q →
        Identified w members ι (w.step s q) := fun s q hs _ => hs.of_extends step_extends
    refine Runs.Meets.of_invariant hkeeps (fun s q hs hq => ⟨hq, ?_⟩) hstep h.2
    exact hs.of_extends refreshMembership_extends
  have hcard : (members.image ι).card ≤ (p :: rest).length * w.watchlistItemsPerPoll :=
    Finset.card_image_le.trans hlength
  obtain ⟨before, q, after, hsplit, ⟨hq, -⟩, hserved⟩ := StalestFirst.exists_served
    (fun s q hs => hs.1.turn (hs.1.none_waits hmany) hs.2)
    (show Runs.Meets w.step _ t (p :: rest) from ⟨⟨h.1, hι⟩, hrest⟩) hcard
    (Finset.mem_image_of_mem ι he)
  obtain ⟨item, hitem, hid⟩ := List.mem_map.1 (List.mem_toFinset.1 hserved)
  have hobserves := observesOthers_of_failingLast hq.lists hq.provides hq.failing_last item hitem
    (hq.none_waits hmany item hitem)
  have hrun : Runs.run w.step t (p :: rest) =
      Runs.run w.step (w.step (Runs.run w.step t before) q) after := by
    rw [hsplit, Runs.run_append, Runs.run_cons]
  refine ⟨q, by simp [hsplit], ι e, (hstep.of_extends (run_extends rest)) e he, ?_⟩
  rw [hrun, ← hid]
  exact hobserves.of_extends (run_extends after)

theorem exists_observed (h : Runs.Meets w.step (Unhindered w members) t polls)
    (hnumbered : t.Numbered) (hfew : members.card ≤ w.watchlistItemsPerPoll)
    (hlength : members.card ≤ polls.length * w.watchlistItemsPerPoll) (he : e ∈ members)
    (hfetches : ∀ p ∈ polls, p.Fetches e) : ∃ p ∈ polls, ∃ id,
      (Runs.run w.step t polls).idOf (w.memberKey e) = some id ∧
        (Runs.run w.step t polls).Observes p id := by
  rcases polls with _ | ⟨p, rest⟩
  · have hpos := Finset.card_pos.2 ⟨e, he⟩
    simp only [List.length_nil] at hlength
    omega
  obtain ⟨item, hitem, hkey⟩ := exists_selected h.1.lists hnumbered hfew he
  have hobserves := observesOthers_of_failingLast h.1.lists h.1.provides h.1.failing_last item hitem
    (by rw [hkey]; exact hfetches p List.mem_cons_self)
  have hid := selected_known h.1.lists item hitem
  rw [hkey] at hid
  refine ⟨p, List.mem_cons_self, item.id, ?_, hobserves.of_extends (run_extends rest)⟩
  exact (refreshMembership_extends_step.trans (run_extends rest)).items.ids _ _ hid

end WatchTables

open WatchTables

/-- Where every poll is unhindered, each observes all it selects that can be fetched, and no member
is starved. -/
theorem unhindered_polls_starve_none {w : Watchlist} {members : Finset String} {t : WatchTables}
    {polls : List WatchlistPoll} (hnumbered : t.Numbered)
    (h : Runs.Meets w.step (WatchTables.Unhindered w members) t polls) :
    Runs.Meets w.step (ObservesOthers w) t polls ∧ StarvesNone w members t polls := by
  constructor
  · have hobserves : ∀ s p, True → WatchTables.Unhindered w members s p → ObservesOthers w s p :=
      fun s p _ hp => observesOthers_of_failingLast hp.lists hp.provides hp.failing_last
    exact Runs.Meets.of_invariant (fun _ _ _ _ => trivial) hobserves trivial h
  · rintro before window after rfl hlength e he hfetches
    have hwindow := (Runs.meets_append.1 (Runs.meets_append.1 h).1).2
    rw [Runs.run_append]
    by_cases hmany : w.watchlistItemsPerPoll < members.card
    · exact exists_turn hwindow hmany hlength he
    · exact exists_observed hwindow ((run_extends before).items.numbered hnumbered)
        (not_lt.1 hmany) hlength he hfetches

namespace WatchedLenses

def members : Finset String := {"110", "120"}

def entry (externalItemId : String) : EbayWatchlistEntry :=
  ⟨externalItemId, some "Lens", none, none, none⟩

def watchlist (cap : ℕ) : Watchlist where
  monitorTargetId := 7
  marketplaceId := "EBAY_US"
  watchlistItemsPerPoll := cap
  digest := fun _ => "f37710b2a91aec72739cf7d52367c775b230e938431b89786ead72f09ec2845d"

def poll (batchId : String) (day : ℕ) (removed : List String) : WatchlistPoll where
  observationBatchId := batchId
  observedAt := ⟨⟨2026, 10, day⟩, 32_400_000_000⟩
  membership := .ok ⟨[entry "110", entry "120"], false⟩
  fetchItemSnapshotByLegacyId := fun id =>
    if removed.contains id then .error "not_found"
    else .ok { externalItemId := id, marketplace := "EBAY_US" }

def noTables : WatchTables := ⟨⟨[], []⟩, []⟩

def first (removed : List String) : WatchlistPoll :=
  poll "b6f1c1f4-8a53-4d54-9c0b-0d5c1a4f9a01" 1 removed

def second (removed : List String) : WatchlistPoll :=
  poll "0b7fd6a2-5a0e-4bb4-8f6d-7c1f2f7d3c02" 2 removed

end WatchedLenses

open WatchedLenses

theorem watched_lenses :
    (Runs.Meets (watchlist 1).step (ObservesOthers (watchlist 1)) noTables [first [], second []] ∧
      StarvesNone (watchlist 1) members noTables [first [], second []]) ∧
    (Runs.Meets (watchlist 2).step (ObservesOthers (watchlist 2)) noTables
        [first ["120"], second []] ∧
      StarvesNone (watchlist 2) members noTables [first ["120"], second []]) := by
  refine ⟨unhindered_polls_starve_none rfl ⟨?_, ?_, trivial⟩,
    unhindered_polls_starve_none rfl ⟨?_, ?_, trivial⟩⟩
  all_goals
    refine ⟨?_, ?_, ?_, failingLast_of_pairwise ?_, ?_⟩
    · decide +kernel
    · decide +kernel
    · decide +kernel
    · decide +kernel
    · decide +kernel

theorem removed_lens_hides_other :
    ¬ Runs.Meets (watchlist 2).step (ObservesOthers (watchlist 2)) noTables
        [first ["110"], second ["110"]] ∧
      ¬ StarvesNone (watchlist 2) members noTables [first ["110"], second ["110"]] := by
  constructor
  · intro h
    have hhides : ¬ ObservesOthers (watchlist 2) noTables (first ["110"]) := by decide +kernel
    exact hhides h.1
  · intro h
    have hnone : (Runs.run (watchlist 2).step noTables
        [first ["110"], second ["110"]]).observations = [] := by decide +kernel
    obtain ⟨-, -, -, -, row, hrow, -⟩ := h [] [first ["110"], second ["110"]] [] rfl (by decide)
      "120" (by decide) (by decide +kernel)
    rw [List.nil_append, hnone] at hrow
    cases hrow

end Loxep
