import Loxep.Lib.Runs
import Loxep.Proofs.DnsOwnership
import Loxep.RecordStore

/-!
# The reconciler's rows are those of the last set

The upserts of a set settle the rows that are there and add those it lacks (`exists_writeAll_eq`).
-/

namespace Loxep

variable {now now' : Timestamp} {rows rows' : List StoredDnsRecord} {k : DnsRecordKey}
  {desired : List MaterializedRecord} {record record' : MaterializedRecord} {row : StoredDnsRecord}

def lastFor (desired : List MaterializedRecord) (key : DnsRecordKey) : Option MaterializedRecord :=
  desired.reverse.find? (·.key == key)

theorem lastFor_cons : lastFor (record :: desired) k =
    (lastFor desired k).or (if record.key = k then some record else none) := by
  unfold lastFor
  rw [List.reverse_cons, List.find?_append]
  by_cases h : record.key = k
  · simp [h]
  · simp [h]

theorem lastFor_eq_none : lastFor desired k = none ↔ k ∉ desired.map (·.key) := by
  simp [lastFor, List.find?_eq_none]

theorem lastFor_key (h : lastFor desired k = some record) : record.key = k := by
  simpa using List.find?_some h

structure StoredDnsRecord.Carries (row : StoredDnsRecord) (record : MaterializedRecord) : Prop where
  key : row.key = record.key
  ttlSeconds : row.ttlSeconds = record.ttlSeconds
  priority : row.priority = record.priority
  proxied : row.proxied = record.proxied
  owner : row.owner = record.owner
  live : row.desiredDeletedAt = none

theorem MaterializedRecord.owner_ne (record : MaterializedRecord) : record.owner ≠ .manual := by
  intro h
  exact absurd (h ▸ record.owned) (by decide)

theorem StoredDnsRecord.Carries.not_manual (h : row.Carries record) : row.owner ≠ .manual :=
  h.owner ▸ record.owner_ne

namespace MaterializedRecord

@[simp] theorem redeclare_key : (record.redeclare now row).key = row.key := by
  unfold redeclare
  split_ifs <;> rfl

theorem redeclare_manual (h : row.owner = .manual) : record.redeclare now row = row := if_pos h

theorem redeclare_carries (h : row.owner ≠ .manual) (hkey : row.key = record.key) :
    (record.redeclare now row).Carries record := by
  rw [redeclare, if_neg h]
  exact ⟨hkey, rfl, rfl, rfl, rfl, rfl⟩

theorem redeclare_redeclare :
    record'.redeclare now (record.redeclare now row) = record'.redeclare now row := by
  by_cases h : row.owner = .manual
  · rw [redeclare_manual h]
  · simp [redeclare, h, record.owner_ne]

theorem row_carries (id : DnsRecordId) : (record.row now id).Carries record :=
  ⟨rfl, rfl, rfl, rfl, rfl, rfl⟩

end MaterializedRecord

def writeAll (now : Timestamp) (rows : List StoredDnsRecord) (desired : List MaterializedRecord) :
    List StoredDnsRecord :=
  desired.foldl (fun rows record => record.upsert now rows) rows

def StoredDnsRecord.settle (now : Timestamp) (desired : List MaterializedRecord)
    (row : StoredDnsRecord) : StoredDnsRecord :=
  match lastFor desired row.key with
  | none => row
  | some record => record.redeclare now row

theorem settle_cons : row.settle now (record :: desired) =
    (if row.key = record.key then record.redeclare now row else row).settle now desired := by
  unfold StoredDnsRecord.settle
  rw [lastFor_cons]
  by_cases h : row.key = record.key
  · rw [if_pos h, MaterializedRecord.redeclare_key, if_pos h.symm]
    rcases lastFor desired row.key with _ | last
    · rfl
    · exact MaterializedRecord.redeclare_redeclare.symm
  · rw [if_neg h, if_neg (Ne.symm h), Option.or_none]

theorem settle_manual (h : row.owner = .manual) : row.settle now desired = row := by
  unfold StoredDnsRecord.settle
  split
  · rfl
  · exact MaterializedRecord.redeclare_manual h

theorem settle_key : (row.settle now desired).key = row.key := by
  unfold StoredDnsRecord.settle
  split
  · rfl
  · exact MaterializedRecord.redeclare_key

theorem settle_carries (h : row.owner ≠ .manual) (hlast : lastFor desired row.key = some record) :
    (row.settle now desired).Carries record := by
  rw [StoredDnsRecord.settle, hlast]
  exact MaterializedRecord.redeclare_carries h (lastFor_key hlast).symm

theorem row_settle_carries (id : DnsRecordId) :
    ∃ last, lastFor (record :: desired) record.key = some last ∧
      ((record.row now id).settle now desired).Carries last := by
  have hkey : (record.row now id).key = record.key := rfl
  rw [lastFor_cons, if_pos rfl]
  rcases hlast : lastFor desired record.key with _ | last
  · refine ⟨record, rfl, ?_⟩
    rw [StoredDnsRecord.settle, hkey, hlast]
    exact MaterializedRecord.row_carries id
  · exact ⟨last, rfl, settle_carries record.owner_ne hlast⟩

theorem upsert_eq (rows : List StoredDnsRecord) : record.upsert now rows =
    if record.key ∈ rows.map (·.key) then
      rows.map fun row => if row.key = record.key then record.redeclare now row else row
    else rows ++ [record.row now (freshDnsRecordId rows)] := by
  have hsome : (KeyedTable.get (·.key) rows record.key).isSome ↔
      record.key ∈ rows.map (·.key) := by
    simp [KeyedTable.get]
  unfold MaterializedRecord.upsert KeyedTable.upsert KeyedTable.set
  exact if_congr hsome rfl rfl

theorem exists_writeAll_eq (now : Timestamp) :
    ∀ (desired : List MaterializedRecord) (rows : List StoredDnsRecord),
    ∃ new, writeAll now rows desired = rows.map (·.settle now desired) ++ new ∧
      ∀ row ∈ new, row.key ∉ rows.map (·.key) ∧
        ∃ record, lastFor desired row.key = some record ∧ row.Carries record
  | [], rows => ⟨[], by simp [writeAll, StoredDnsRecord.settle, lastFor], by simp⟩
  | record :: desired, rows => by
    obtain ⟨new, hwritten, hnew⟩ := exists_writeAll_eq now desired (record.upsert now rows)
    have hlast : ∀ row ∈ new, ∃ last, lastFor (record :: desired) row.key = some last ∧
        row.Carries last := by
      intro row hrow
      obtain ⟨-, last, hsome, hcarries⟩ := hnew row hrow
      exact ⟨last, by rw [lastFor_cons, hsome, Option.some_or], hcarries⟩
    have hfold : writeAll now rows (record :: desired) = _ := hwritten
    rw [upsert_eq] at hfold hnew
    by_cases h : record.key ∈ rows.map (·.key)
    · rw [if_pos h, List.map_map] at hfold
      refine ⟨new, hfold.trans ?_, fun row hrow => ⟨?_, hlast row hrow⟩⟩
      · simp only [settle_cons, Function.comp_def]
      · have hkeys := (hnew row hrow).1
        rw [if_pos h, List.map_map] at hkeys
        refine fun hmem => hkeys ?_
        obtain ⟨old, hold, hkey⟩ := List.mem_map.1 hmem
        refine List.mem_map.2 ⟨old, hold, ?_⟩
        rw [Function.comp_apply, ← hkey]
        split_ifs <;> simp
    · rw [if_neg h] at hfold hnew
      set first := record.row now (freshDnsRecordId rows)
      refine ⟨first.settle now desired :: new, ?_, ?_⟩
      · rw [hfold, List.map_append, List.map_singleton, List.append_assoc]
        congr 1
        refine List.map_congr_left fun row hrow => ?_
        rw [settle_cons, if_neg fun hrecord => h (List.mem_map.2 ⟨row, hrow, hrecord⟩)]
      · rintro row (_ | ⟨_, hrow⟩)
        · rw [settle_key]
          exact ⟨h, row_settle_carries _⟩
        · refine ⟨fun hmem => (hnew row hrow).1 ?_, hlast row hrow⟩
          rw [List.map_append]
          exact List.mem_append_left _ hmem

theorem writeAll_keys (now : Timestamp) :
    ∀ {desired : List MaterializedRecord} {rows : List StoredDnsRecord},
    (rows.map (·.key)).Nodup → ((writeAll now rows desired).map (·.key)).Nodup ∧
      ∀ k, k ∈ (writeAll now rows desired).map (·.key) ↔
        k ∈ desired.map (·.key) ∨ k ∈ rows.map (·.key)
  | [], _, h => ⟨h, by simp [writeAll]⟩
  | record :: desired, rows, h => by
    have hmerge : ∀ row : StoredDnsRecord, (record.redeclare now row).key = row.key :=
      fun _ => MaterializedRecord.redeclare_key
    have hfirst : ((record.upsert now rows).map (·.key)).Nodup := KeyedTable.nodup_upsert hmerge h
    have hkey : ∀ k, k ∈ (record.upsert now rows).map (·.key) ↔
        k = record.key ∨ k ∈ rows.map (·.key) := fun k => KeyedTable.mem_key_upsert hmerge
    obtain ⟨hnodup, hmem⟩ := @writeAll_keys now desired _ hfirst
    refine ⟨hnodup, fun k => (hmem k).trans ?_⟩
    rw [hkey, List.map_cons, List.mem_cons]
    tauto

def replaced (now : Timestamp) (desired : List MaterializedRecord) (rows : List StoredDnsRecord) :
    List StoredDnsRecord :=
  (writeAll now rows desired).map (·.softDelete now (desired.map (·.key.text)))

def Applies (now : Timestamp) (desired : List MaterializedRecord)
    (rows rows' : List StoredDnsRecord) : Prop :=
  ∃ counts, applyMaterializedRecords now desired rows = .ok (counts, rows')

variable {beforeKeys keys : List String}

theorem write_eq_ok {w w' : MaterializedWrite} (h : w.write now beforeKeys record = .ok w') :
    checkDnsRecord record.owner record.proxied record.ttlSeconds = .ok () ∧
      w'.rows = record.upsert now w.rows := by
  obtain ⟨⟨⟩, hcheck, hrest⟩ := Except.bind_eq_ok.1 h
  refine ⟨hcheck, ?_⟩
  dsimp only at hrest
  split_ifs at hrest <;> cases hrest <;> rfl

theorem foldlM_write_eq_ok :
    ∀ {desired : List MaterializedRecord} {w w' : MaterializedWrite},
      desired.foldlM (MaterializedWrite.write now beforeKeys) w = .ok w' →
      (∀ record ∈ desired,
        checkDnsRecord record.owner record.proxied record.ttlSeconds = .ok ()) ∧
        w'.rows = writeAll now w.rows desired
  | [], _, _, h => by
    cases h
    exact ⟨by simp, rfl⟩
  | record :: desired, w, w', h => by
    rw [List.foldlM_cons] at h
    obtain ⟨next, hwrite, hrest⟩ := Except.bind_eq_ok.1 h
    obtain ⟨hcheck, hnext⟩ := write_eq_ok hwrite
    obtain ⟨hchecks, hrows⟩ := foldlM_write_eq_ok hrest
    exact ⟨List.forall_mem_cons.2 ⟨hcheck, hchecks⟩, by rw [hrows, hnext]; rfl⟩

theorem exists_foldlM_write :
    ∀ {desired : List MaterializedRecord} (w : MaterializedWrite),
      (∀ record ∈ desired,
        checkDnsRecord record.owner record.proxied record.ttlSeconds = .ok ()) →
      ∃ w', desired.foldlM (MaterializedWrite.write now beforeKeys) w = .ok w'
  | [], w, _ => ⟨w, rfl⟩
  | record :: desired, w, h => by
    obtain ⟨hcheck, hrest⟩ := List.forall_mem_cons.1 h
    have hwrite : ∃ next, w.write now beforeKeys record = .ok next := by
      unfold MaterializedWrite.write
      rw [hcheck]
      dsimp only [bind, Except.bind]
      split_ifs <;> exact ⟨_, rfl⟩
    obtain ⟨next, hnext⟩ := hwrite
    rw [List.foldlM_cons, hnext]
    exact exists_foldlM_write next hrest

theorem applies_iff : Applies now desired rows rows' ↔
    (∀ record ∈ desired, checkDnsRecord record.owner record.proxied record.ttlSeconds = .ok ()) ∧
      rows' = replaced now desired rows := by
  constructor
  · rintro ⟨counts, h⟩
    obtain ⟨w, hfold, hdone⟩ := Except.bind_eq_ok.1 h
    obtain ⟨hchecks, hrows⟩ := foldlM_write_eq_ok hfold
    cases hdone
    exact ⟨hchecks, by rw [replaced, ← hrows]⟩
  · rintro ⟨hchecks, rfl⟩
    obtain ⟨w, hfold⟩ := exists_foldlM_write ({ rows } : MaterializedWrite) hchecks
    have hrows := (foldlM_write_eq_ok hfold).2
    have hdone : applyMaterializedRecords now desired rows =
        .ok (_, w.rows.map (·.softDelete now (desired.map (·.key.text)))) :=
      Except.bind_eq_ok.2 ⟨w, hfold, rfl⟩
    rw [hrows] at hdone
    exact ⟨_, hdone⟩

theorem softDelete_key : (row.softDelete now keys).key = row.key := by
  unfold StoredDnsRecord.softDelete
  split_ifs <;> rfl

theorem softDelete_owner : (row.softDelete now keys).owner = row.owner := by
  unfold StoredDnsRecord.softDelete
  split_ifs <;> rfl

theorem undesired_iff : row.undesired keys = true ↔
    row.desiredDeletedAt = none ∧ row.owner ≠ .manual ∧ row.key.text ∉ keys := by
  have howner : row.owner ∈ MATERIALIZED_OWNERS ↔ row.owner ≠ .manual := by
    cases h : row.owner <;> decide
  simp only [StoredDnsRecord.undesired, howner, Bool.and_eq_true, Option.isNone_iff_eq_none,
    decide_eq_true_eq, and_assoc]

theorem key_of_text {record record' : MaterializedRecord} (h : record.key.text = record'.key.text) :
    record.key = record'.key := by
  obtain ⟨htype, hname, hcontent⟩ := recordKey_inj h
  have hsame : record.content = record'.content := hcontent
  simp only [DesiredRecord.key, htype, hname, hsame]

def StoredDnsRecord.touched (now : Timestamp) (row : StoredDnsRecord) : StoredDnsRecord :=
  { row with updatedAt := now }

def StoredDnsRecord.Settled (row : StoredDnsRecord) : Option MaterializedRecord → Prop
  | some record => row.Carries record
  | none => row.desiredDeletedAt.isSome

structure DesiredRecordStore.Sound (s : DesiredRecordStore) : Prop where
  keys_nodup : (s.rows.map (·.key)).Nodup
  held : ∀ desired ∈ s.applied, ∀ record ∈ desired, record.key ∈ s.rows.map (·.key)
  settled : ∀ row ∈ s.rows, row.owner ≠ .manual → row.Settled (lastFor s.last row.key)
  named : ∀ row ∈ s.rows, row.owner ≠ .manual → ∃ record : MaterializedRecord, row.key = record.key

theorem DesiredRecordStore.last_mem {s : DesiredRecordStore} (h : record ∈ s.last) :
    s.last ∈ s.applied := by
  unfold DesiredRecordStore.last at h ⊢
  rcases happly : s.applied with _ | ⟨last, earlier⟩
  · rw [happly] at h
    exact absurd h List.not_mem_nil
  · exact List.mem_cons_self

theorem written_cases (h : row ∈ writeAll now rows desired) (howner : row.owner ≠ .manual) :
    (∃ record, lastFor desired row.key = some record ∧ row.Carries record) ∨
      lastFor desired row.key = none ∧ row ∈ rows := by
  obtain ⟨new, hwritten, hnew⟩ := exists_writeAll_eq now desired rows
  rw [hwritten, List.mem_append] at h
  rcases h with h | h
  · obtain ⟨old, hold, rfl⟩ := List.mem_map.1 h
    have hnot : old.owner ≠ .manual := by
      intro hmanual
      exact howner (by rw [settle_manual hmanual, hmanual])
    rw [settle_key]
    rcases hlast : lastFor desired old.key with _ | record
    · refine .inr ⟨rfl, ?_⟩
      rwa [StoredDnsRecord.settle, hlast]
    · exact .inl ⟨record, rfl, settle_carries hnot hlast⟩
  · exact .inl (hnew row h).2

theorem lastFor_mem (h : lastFor desired k = some record) : record ∈ desired :=
  List.mem_reverse.1 (List.mem_of_find?_eq_some h)

theorem softDelete_of_lastFor (h : lastFor desired row.key = some record) :
    row.softDelete now (desired.map (·.key.text)) = row := by
  refine if_neg fun hundesired => (undesired_iff.1 hundesired).2.2 ?_
  exact List.mem_map.2 ⟨record, lastFor_mem h, by rw [lastFor_key h]⟩

theorem softDelete_of_undescribed (h : lastFor desired row.key = none)
    (howner : row.owner ≠ .manual) (hname : ∃ record : MaterializedRecord, row.key = record.key) :
    (row.softDelete now (desired.map (·.key.text))).desiredDeletedAt.isSome := by
  have habsent : row.key.text ∉ desired.map (·.key.text) := by
    intro hmem
    obtain ⟨described, hdescribed, htext⟩ := List.mem_map.1 hmem
    obtain ⟨named, hnamed⟩ := hname
    have hkey : described.key = row.key := (key_of_text (htext.trans (by rw [hnamed]))).trans
      hnamed.symm
    exact lastFor_eq_none.1 h (List.mem_map.2 ⟨described, hdescribed, hkey⟩)
  unfold StoredDnsRecord.softDelete
  split_ifs with hundesired
  · rfl
  · rw [undesired_iff, not_and] at hundesired
    exact Option.isSome_iff_ne_none.2 fun hlive => hundesired hlive ⟨howner, habsent⟩

theorem replaced_keys : (replaced now desired rows).map (·.key) =
    (writeAll now rows desired).map (·.key) := by
  rw [replaced, List.map_map]
  exact List.map_congr_left fun _ _ => softDelete_key

namespace DesiredRecordStore.Sound

variable {s : DesiredRecordStore} (hs : s.Sound)

include hs

theorem replaced (now : Timestamp) (desired : List MaterializedRecord) :
    DesiredRecordStore.Sound ⟨Loxep.replaced now desired s.rows, desired :: s.applied⟩ := by
  obtain ⟨hnodup, hkeys⟩ := @writeAll_keys now desired _ hs.keys_nodup
  refine ⟨replaced_keys ▸ hnodup, ?_, ?_, ?_⟩
  · rintro set (_ | ⟨_, hset⟩) record hrecord
    · exact replaced_keys ▸ (hkeys _).2 (.inl (List.mem_map.2 ⟨record, hrecord, rfl⟩))
    · exact replaced_keys ▸ (hkeys _).2 (.inr (hs.held set hset record hrecord))
  · intro row hrow howner
    obtain ⟨written, hwritten, rfl⟩ := List.mem_map.1 hrow
    rw [softDelete_owner] at howner
    rw [softDelete_key]
    change StoredDnsRecord.Settled _ (lastFor desired written.key)
    rcases written_cases hwritten howner with ⟨record, hlast, hcarries⟩ | ⟨hlast, hold⟩
    · rw [hlast, softDelete_of_lastFor hlast]
      exact hcarries
    · rw [hlast]
      exact softDelete_of_undescribed hlast howner (hs.named written hold howner)
  · intro row hrow howner
    obtain ⟨written, hwritten, rfl⟩ := List.mem_map.1 hrow
    rw [softDelete_owner] at howner
    rw [softDelete_key]
    rcases written_cases hwritten howner with ⟨record, -, hcarries⟩ | ⟨-, hold⟩
    · exact ⟨record, hcarries.key⟩
    · exact hs.named written hold howner

theorem withManual (now : Timestamp) (input : ManualRecordInput) (id : DnsRecordId) :
    DesiredRecordStore.Sound { s with
      rows := KeyedTable.upsert (·.key) s.rows (input.row now id) (input.takeOver now) } := by
  have hmerge : ∀ row : StoredDnsRecord, (input.takeOver now row).key = row.key := fun _ => rfl
  have hmem : ∀ row ∈ KeyedTable.upsert (·.key) s.rows (input.row now id) (input.takeOver now),
      row.owner ≠ .manual → row ∈ s.rows := by
    intro row hrow howner
    unfold KeyedTable.upsert KeyedTable.set at hrow
    split_ifs at hrow
    · obtain ⟨old, hold, rfl⟩ := List.mem_map.1 hrow
      split_ifs at howner ⊢
      · exact absurd rfl howner
      · exact hold
    · rcases List.mem_append.1 hrow with hold | hnew
      · exact hold
      · exact absurd (by rw [List.mem_singleton.1 hnew]; rfl) howner
  refine ⟨KeyedTable.nodup_upsert hmerge hs.keys_nodup, ?_, ?_, ?_⟩
  · intro set hset record hrecord
    exact (KeyedTable.mem_key_upsert hmerge).2 (.inr (hs.held set hset record hrecord))
  · exact fun row hrow howner => hs.settled row (hmem row hrow howner) howner
  · exact fun row hrow howner => hs.named row (hmem row hrow howner) howner

theorem step (call : RecordStoreCall) : (s.step call).Sound := by
  cases call with
  | applyMaterialized now desired =>
    rcases happly : applyMaterializedRecords now desired s.rows with e | ⟨counts, rows⟩
    · simpa only [DesiredRecordStore.step, happly] using hs
    · obtain ⟨-, rfl⟩ := applies_iff.1 ⟨counts, happly⟩
      simpa only [DesiredRecordStore.step, happly] using hs.replaced now desired
  | addManual now input =>
    rcases hadd : addManualRecord now input s.rows with e | rows
    · simpa only [DesiredRecordStore.step, hadd] using hs
    · obtain ⟨-, -, hrest⟩ := Except.bind_eq_ok.1 hadd
      obtain ⟨-, -, hdone⟩ := Except.bind_eq_ok.1 hrest
      cases hdone
      simpa only [DesiredRecordStore.step, hadd] using hs.withManual now input _

theorem again (now : Timestamp) :
    (Loxep.replaced now s.last s.rows).map (·.touched now) = s.rows.map (·.touched now) := by
  obtain ⟨new, hwritten, hnew⟩ := exists_writeAll_eq now s.last s.rows
  have hnone : new = [] := by
    refine List.eq_nil_iff_forall_not_mem.2 fun row hrow => ?_
    obtain ⟨hfree, record, hrecord, hcarries⟩ := hnew row hrow
    have hmem := lastFor_mem hrecord
    exact hfree (hcarries.key ▸ hs.held s.last (DesiredRecordStore.last_mem hmem) record hmem)
  rw [Loxep.replaced, hwritten, hnone, List.append_nil, List.map_map, List.map_map]
  refine List.map_congr_left fun row hrow => ?_
  dsimp only [Function.comp_apply]
  have hkept : row.settle now s.last = row → row.undesired (s.last.map (·.key.text)) = false →
      ((row.settle now s.last).softDelete now (s.last.map (·.key.text))).touched now =
        row.touched now := by
    intro hsettle hundesired
    rw [hsettle, StoredDnsRecord.softDelete, if_neg (by rw [hundesired]; decide)]
  by_cases hmanual : row.owner = .manual
  · refine hkept (settle_manual hmanual) (Bool.eq_false_iff.2 fun h => ?_)
    exact (undesired_iff.1 h).2.1 hmanual
  · have hsettled := hs.settled row hrow hmanual
    rcases hsome : lastFor s.last row.key with _ | record
    · rw [hsome] at hsettled
      refine hkept (by rw [StoredDnsRecord.settle, hsome]) (Bool.eq_false_iff.2 fun h => ?_)
      exact Option.isSome_iff_ne_none.1 hsettled (undesired_iff.1 h).1
    · rw [hsome] at hsettled
      rw [softDelete_of_lastFor (by rw [settle_key]; exact hsome)]
      simp only [StoredDnsRecord.settle, hsome, MaterializedRecord.redeclare, if_neg hmanual,
        StoredDnsRecord.touched, ← hsettled.ttlSeconds, ← hsettled.priority, ← hsettled.proxied,
        ← hsettled.owner, ← hsettled.live]

end DesiredRecordStore.Sound

theorem replaced_manual : (replaced now desired rows).filter (·.owner = .manual) =
    rows.filter (·.owner = .manual) := by
  obtain ⟨new, hwritten, hnew⟩ := exists_writeAll_eq now desired rows
  have hnone : new.filter (·.owner = .manual) = [] := by
    refine List.filter_eq_nil_iff.2 fun row hrow => ?_
    obtain ⟨-, record, -, hcarries⟩ := hnew row hrow
    simpa using hcarries.not_manual
  have howner : ∀ row : StoredDnsRecord,
      (row.settle now desired).owner = .manual ↔ row.owner = .manual := by
    intro row
    by_cases h : row.owner = .manual
    · rw [settle_manual h]
    · refine iff_of_false ?_ h
      unfold StoredDnsRecord.settle
      split
      · exact h
      · simpa [MaterializedRecord.redeclare, h] using MaterializedRecord.owner_ne _
  rw [replaced, List.filter_map, Function.comp_def]
  simp only [softDelete_owner]
  rw [hwritten, List.filter_append, hnone, List.append_nil, List.filter_map, List.map_map]
  simp only [Function.comp_def, howner]
  refine (List.map_congr_left fun row hrow => ?_).trans (List.map_id _)
  have hmanual : row.owner = .manual := by simpa using (List.mem_filter.1 hrow).2
  rw [settle_manual hmanual, StoredDnsRecord.softDelete,
    if_neg fun h => (undesired_iff.1 h).2.1 hmanual, id]

/-- Of every key there is one row, the reconciler's live rows are those the last set describes and
no manual row holds, and a key that an earlier set described keeps its row. -/
structure DesiredRecordStore.Kept (s : DesiredRecordStore) : Prop where
  oneRow : (s.rows.map (·.key)).Nodup
  described : ∀ row ∈ s.rows, row.desiredDeletedAt = none → row.owner ≠ .manual →
    ∃ record, lastFor s.last row.key = some record ∧ row.Carries record
  live : ∀ key record, lastFor s.last key = some record →
    (∀ row ∈ s.rows, row.key = key → row.owner ≠ .manual) →
    ∃ row ∈ s.rows, row.key = key ∧ row.Carries record
  tombstoned : ∀ desired ∈ s.applied, ∀ record ∈ desired, lastFor s.last record.key = none →
    ∃ row ∈ s.rows, row.key = record.key ∧ (row.owner = .manual ∨ row.desiredDeletedAt.isSome)
  manualKept : ∀ now desired rows, Applies now desired s.rows rows →
    rows.filter (·.owner = .manual) = s.rows.filter (·.owner = .manual)
  reapplied : ∀ now now' desired rows, Applies now desired s.rows rows →
    ∃ rows', Applies now' desired rows rows' ∧
      rows'.map (·.touched now') = rows.map (·.touched now')

theorem desired_records_kept (calls : List RecordStoreCall) :
    (Runs.run DesiredRecordStore.step {} calls).Kept := by
  have hempty : DesiredRecordStore.Sound {} :=
    ⟨List.nodup_nil, by simp, by simp, by simp⟩
  have hs : (Runs.run DesiredRecordStore.step {} calls).Sound :=
    Runs.run_of_step (fun s call (hs : s.Sound) => hs.step call) hempty
  set s := Runs.run DesiredRecordStore.step {} calls
  refine ⟨hs.keys_nodup, ?_, ?_, ?_, ?_, ?_⟩
  · intro row hrow hlive howner
    have hsettled := hs.settled row hrow howner
    rcases hlast : lastFor s.last row.key with _ | record
    · rw [hlast] at hsettled
      exact absurd hlive (Option.isSome_iff_ne_none.1 hsettled)
    · rw [hlast] at hsettled
      exact ⟨record, rfl, hsettled⟩
  · intro key record hlast hfree
    have hmem := lastFor_mem hlast
    have hlastApplied := DesiredRecordStore.last_mem hmem
    obtain ⟨row, hrow, hkey⟩ := List.mem_map.1 (hs.held s.last hlastApplied record hmem)
    have hkey' : row.key = key := hkey.trans (lastFor_key hlast)
    have hsettled := hs.settled row hrow (hfree row hrow hkey')
    rw [hkey', hlast] at hsettled
    exact ⟨row, hrow, hkey', hsettled⟩
  · intro desired hdesired record hrecord hlast
    obtain ⟨row, hrow, hkey⟩ := List.mem_map.1 (hs.held desired hdesired record hrecord)
    refine ⟨row, hrow, hkey, or_iff_not_imp_left.2 fun howner => ?_⟩
    have hsettled := hs.settled row hrow howner
    rwa [hkey, hlast] at hsettled
  · intro now desired rows happly
    obtain ⟨-, rfl⟩ := applies_iff.1 happly
    exact replaced_manual
  · intro now now' desired rows happly
    obtain ⟨hchecks, rfl⟩ := applies_iff.1 happly
    exact ⟨_, applies_iff.2 ⟨hchecks, rfl⟩,
      (hs.replaced now desired).again now'⟩

def apexRecord : MaterializedRecord :=
  ⟨⟨⟨"A", DnsLabel.a_plain⟩, ⟨"@", DnsLabel.apex_plain⟩, "203.0.113.10", none, none,
    true, .apex⟩, by decide⟩

def apexByHand : ManualRecordInput := { type := "A", name := "@", content := "203.0.113.10" }

theorem reapplied_row_touched :
    let first : Timestamp := ⟨⟨2026, 5, 1⟩, 0⟩
    let second : Timestamp := ⟨⟨2026, 5, 1⟩, 1⟩
    let s := Runs.run DesiredRecordStore.step {} [.applyMaterialized first [apexRecord],
      .addManual second apexByHand, .applyMaterialized second []]
    (∃ rows rows', Applies first [apexRecord] [] rows ∧ Applies second [apexRecord] rows rows' ∧
      rows' ≠ rows) ∧
    s.applied = [[], [apexRecord]] ∧ ∀ row ∈ s.rows, row.desiredDeletedAt = none := by
  refine ⟨⟨_, _, applies_iff.2 ⟨by decide, rfl⟩, applies_iff.2 ⟨by decide, rfl⟩, ?_⟩, rfl, ?_⟩
  · decide +kernel
  · decide +kernel

end Loxep
