import Loxep.HostAddresses
import Loxep.Lib.Runs

/-!
# Addresses of targets

What the writes of a call do to the addresses, and what any calls leave addressable.
-/

/-!
## What the writes of a call do to the addresses

Insertions append a row, updates keep every row under its id, and a removal filters one. Two things
are read off each write: where a declared address comes from, and which of them stay.
-/

namespace Loxep

namespace AddressTables

variable {inet : InetReader} {t t' : AddressTables}

variable {family : HostAddressFamily} {row : HostAddressRow} {f : HostAddressRow → HostAddressRow}

theorem readInet_eq_ok {value text : String} :
    readInet inet family value = .ok text ↔ inet value = some (family, text) := by
  unfold readInet
  cases hread : inet value with
  | none => simp
  | some r =>
    obtain ⟨found, printed⟩ := r
    dsimp only
    split_ifs with hfamily
    · simp [hfamily]
    · simp [hfamily]

theorem insertAddress_eq_ok (h : t.insertAddress inet row = .ok t') :
    ∃ text, inet row.value = some (row.family, text) ∧ t' = { t with
      addresses := t.addresses ++ [{ row with value := text }] } := by
  simp only [insertAddress, Except.bind_eq_ok, Except.require_eq_ok, exists_const,
    Except.pure_eq_ok, readInet_eq_ok] at h
  obtain ⟨text, hread, -, -, -, -, rfl⟩ := h
  exact ⟨text, hread, rfl⟩

theorem updateAddress_eq_ok {id : HostAddressId} (h : t.updateAddress id f = .ok t') :
    t' = { t with addresses := t.addresses.map fun r => if r.id = id then f r else r } := by
  simp only [updateAddress, Except.bind_eq_ok, Except.require_eq_ok, exists_const,
    Except.pure_eq_ok] at h
  obtain ⟨-, -, -, rfl⟩ := h
  rfl

/-- Every declared address is one `D` knows, by its target, its family and its text. -/
def DeclaredBy (D : HostingTargetId → HostAddressFamily → String → Prop) (t : AddressTables) :
    Prop :=
  ∀ a ∈ t.addresses, a.provenance = .operatorDeclared → D a.hostingTargetId a.family a.value

variable {D : HostingTargetId → HostAddressFamily → String → Prop}

theorem DeclaredBy.map (h : t.DeclaredBy D)
    (hf : ∀ a ∈ t.addresses, (f a).provenance = .operatorDeclared →
      a.provenance = .operatorDeclared ∧ (f a).hostingTargetId = a.hostingTargetId ∧
        (f a).family = a.family ∧ (f a).value = a.value) :
    DeclaredBy D { t with addresses := t.addresses.map f } := by
  intro a' ha' hdeclared
  obtain ⟨a, ha, rfl⟩ := List.mem_map.1 ha'
  obtain ⟨hprovenance, htarget, hfamily, hvalue⟩ := hf a ha hdeclared
  rw [htarget, hfamily, hvalue]
  exact h a ha hprovenance

theorem DeclaredBy.clearPrimary (h : t.DeclaredBy D) (target : HostingTargetId)
    (kind : HostAddressKind) (family : HostAddressFamily) :
    (t.clearPrimary target kind family).DeclaredBy D := by
  refine h.map fun a _ hdeclared => ?_
  split_ifs at hdeclared ⊢ <;> exact ⟨hdeclared, rfl, rfl, rfl⟩

theorem DeclaredBy.insert (h : t.DeclaredBy D)
    (hrow : row.provenance = .operatorDeclared → ∀ text, inet row.value = some (row.family, text) →
      D row.hostingTargetId row.family text)
    (hinsert : t.insertAddress inet row = .ok t') : t'.DeclaredBy D := by
  obtain ⟨text, hread, rfl⟩ := insertAddress_eq_ok hinsert
  intro a ha hdeclared
  rcases List.mem_append.1 ha with ha | ha
  · exact h a ha hdeclared
  · obtain rfl := List.mem_singleton.1 ha
    exact hrow hdeclared text hread

theorem DeclaredBy.insertInline (h : t.DeclaredBy D) {target : HostingTargetId} {id : HostAddressId}
    {value : Option String}
    (hvalue : ∀ v ∈ value, ∀ text, inet v = some (family, text) → D target family text)
    (hinsert : t.insertInline inet target id family value = .ok t') : t'.DeclaredBy D := by
  cases value with
  | none =>
    cases hinsert
    exact h
  | some v => exact h.insert (fun _ text hread => hvalue v rfl text hread) hinsert

end AddressTables

def AddressCall.Declares (inet : InetReader) (draw : AddressDraw) (target : HostingTargetId)
    (family : HostAddressFamily) (text : String) : AddressCall → Prop
  | .declare target' input =>
    target = target' ∧ family = input.family ∧ inet (trim input.value) = some (family, text)
  | .create input =>
    target = draw.targetId ∧
      ((∃ a ∈ input.addressV4, family = .v4 ∧ inet (trim a) = some (family, text)) ∨
        ∃ a ∈ input.addressV6, family = .v6 ∧ inet (trim a) = some (family, text))
  | _ => False

theorem CreateHostingTargetInput.parse_eq_ok {input parsed : CreateHostingTargetInput}
    (h : input.parse = .ok parsed) :
    parsed.addressV4 = input.addressV4.map trim ∧ parsed.addressV6 = input.addressV6.map trim ∧
      parsed.controlSurface = input.controlSurface ∧
      parsed.frontedByTargetId = input.frontedByTargetId := by
  simp only [CreateHostingTargetInput.parse, Except.bind_eq_ok, Except.require_eq_ok,
    exists_const, Except.pure_eq_ok] at h
  obtain ⟨-, -, -, -, -, rfl⟩ := h
  exact ⟨rfl, rfl, rfl, rfl⟩

namespace AddressTables

variable {inet : InetReader} {t t' : AddressTables}
  {D : HostingTargetId → HostAddressFamily → String → Prop}

theorem insertTarget_eq_ok {parsed : CreateHostingTargetInput} {id : HostingTargetId}
    (h : t.insertTarget parsed id = .ok t') : t' = { t with
      targets := t.targets ++ [⟨id, parsed.name, parsed.controlSurface, parsed.frontedByTargetId,
        parsed.proxyConnectionId, parsed.externalSiteId, none⟩] } := by
  simp only [insertTarget, Except.bind_eq_ok, Except.require_eq_ok, exists_const,
    Except.pure_eq_ok] at h
  obtain ⟨-, -, -, rfl⟩ := h
  rfl

theorem DeclaredBy.write (h : t.DeclaredBy D) {call : AddressCall} {before : Option HostAddressRow}
    {draw : AddressDraw} (hcall : ∀ target family text, call.Declares inet draw target family text →
      D target family text)
    (hwrite : t.write inet call before draw = .ok t') : t'.DeclaredBy D := by
  cases call with
  | declare target input =>
    have hcleared : (if input.isPrimary = some true then
        t.clearPrimary target input.kind input.family else t).DeclaredBy D := by
      split_ifs
      · exact h.clearPrimary _ _ _
      · exact h
    exact hcleared.insert (fun _ text hread => hcall target input.family text ⟨rfl, rfl, hread⟩)
      hwrite
  | classify id kind =>
    rw [updateAddress_eq_ok hwrite]
    refine h.map fun a _ hdeclared => ?_
    split_ifs at hdeclared ⊢ <;> exact ⟨hdeclared, rfl, rfl, rfl⟩
  | setPrimary id =>
    cases before with
    | none =>
      cases hwrite
      exact h
    | some before =>
      rw [updateAddress_eq_ok hwrite, List.map_map]
      refine h.map fun a _ hdeclared => ?_
      simp only [Function.comp] at hdeclared ⊢
      split_ifs at hdeclared ⊢ <;> exact ⟨hdeclared, rfl, rfl, rfl⟩
  | remove id =>
    cases hwrite
    exact fun a ha hdeclared => h a (List.mem_of_mem_filter ha) hdeclared
  | upsertObserved input =>
    have hcleared : (if input.isPrimary = some true then
        t.clearPrimary input.hostingTargetId input.kind input.family else t).DeclaredBy D := by
      split_ifs
      · exact h.clearPrimary _ _ _
      · exact h
    cases before with
    | none => exact hcleared.insert (fun hdeclared => by cases hdeclared) hwrite
    | some row =>
      simp only [AddressTables.write, writeObserved, Except.bind_eq_ok, Except.require_eq_ok,
        exists_const] at hwrite
      obtain ⟨text, -, hobserved, hupdate⟩ := hwrite
      have hids : ∀ r ∈ (if input.isPrimary = some true then
          t.clearPrimary input.hostingTargetId input.kind input.family else t).addresses,
          r.id = row.id → r.provenance ≠ .operatorDeclared := by
        split_ifs
        · simp only [AddressTables.clearPrimary, List.forall_mem_map]
          intro r hr hid
          split_ifs at hid ⊢ <;> exact hobserved r hr hid
        · exact hobserved
      rw [updateAddress_eq_ok hupdate]
      refine hcleared.map fun a ha hdeclared => ?_
      split_ifs at hdeclared ⊢ with hid
      · refine absurd ?_ (hids a ha hid)
        cases hprovenance : a.provenance with
        | operatorDeclared => rfl
        | observed provider seen => simp [AddressProvenance.seenAt, hprovenance] at hdeclared
      · exact ⟨hdeclared, rfl, rfl, rfl⟩
  | create input =>
    simp only [AddressTables.write, writeCreate, Except.bind_eq_ok, Except.require_eq_ok,
      exists_const] at hwrite
    obtain ⟨parsed, hparse, -, inserted, hinserted, first, hfirst, hsecond⟩ := hwrite
    obtain ⟨hv4, hv6, -, -⟩ := CreateHostingTargetInput.parse_eq_ok hparse
    have hstart : inserted.DeclaredBy D := by
      rw [insertTarget_eq_ok hinserted]
      exact h
    refine (hstart.insertInline (fun v hv text hread => ?_) hfirst).insertInline
      (fun v hv text hread => ?_) hsecond
    · rw [hv4] at hv
      obtain ⟨a, ha, rfl⟩ := Option.map_eq_some_iff.1 hv
      exact hcall _ _ _ ⟨rfl, .inl ⟨a, ha, rfl, hread⟩⟩
    · rw [hv6] at hv
      obtain ⟨a, ha, rfl⟩ := Option.map_eq_some_iff.1 hv
      exact hcall _ _ _ ⟨rfl, .inr ⟨a, ha, rfl, hread⟩⟩
  | updateProxyConnection id proxyConnectionId externalSiteId =>
    cases hwrite
    exact h
  | decommission id =>
    cases hwrite
    exact h

end AddressTables

/-!
## Addressable targets under concurrent calls

A removal or a reclassification reads the other addresses of its target in one statement and writes
in a later one, so two of them can each count the other's.
-/

section Spec

def AddressTables.Addressable (t : AddressTables) : Prop :=
  ∀ target ∈ t.targets, target.mustBeAddressable = true → t.declaredWanOf target.id ≠ []

def AddressTables.ChecksAgain (t : AddressTables) (id : HostAddressId) : Prop :=
  ∀ row ∈ t.addresses, row.id = id → row.declaredWan = true → ∀ target ∈ t.targets,
    target.id = row.hostingTargetId → target.mustBeAddressable = true →
      Except.returns (t.assertSurvives target id) = true

variable {n : ℕ} (inet : InetReader) (calls : Fin n → AddressCall)

def AddressRun.Addressable (s : AddressRun n) : Prop := s.tables.Addressable

instance (t : AddressTables) : Decidable t.Addressable :=
  inferInstanceAs (Decidable (∀ target ∈ t.targets, target.mustBeAddressable = true →
    t.declaredWanOf target.id ≠ []))

instance (t : AddressTables) (id : HostAddressId) : Decidable (t.ChecksAgain id) :=
  inferInstanceAs (Decidable (∀ row ∈ t.addresses, row.id = id → row.declaredWan = true →
    ∀ target ∈ t.targets, target.id = row.hostingTargetId → target.mustBeAddressable = true →
      Except.returns (t.assertSurvives target id) = true))

def AddressRun.KeepsCheck (s : AddressRun n) (advance : Fin n × AddressDraw) : Prop :=
  match s.stages advance.1, calls advance.1 with
  | .write _, .remove id => s.tables.ChecksAgain id
  | .write before, .classify id kind => kind ≠ .wan →
    Except.returns (s.tables.write inet (.classify id kind) before advance.2) = true →
      s.tables.ChecksAgain id
  | _, _ => True

instance (s : AddressRun n) (advance : Fin n × AddressDraw) :
    Decidable (s.KeepsCheck inet calls advance) := by
  unfold AddressRun.KeepsCheck
  split <;> infer_instance

end Spec

namespace AddressTables

variable {inet : InetReader} {t t' : AddressTables}

variable {target : HostingTargetId} {a : HostAddressRow} {f : HostAddressRow → HostAddressRow}
  {draw : AddressDraw}

theorem mem_declaredWanOf :
    a ∈ t.declaredWanOf target ↔
      a ∈ t.addresses ∧ a.hostingTargetId = target ∧ a.declaredWan = true := by
  simp [declaredWanOf]

theorem declaredWan_iff :
    a.declaredWan = true ↔ a.kind = .wan ∧ a.provenance = .operatorDeclared := by
  simp [HostAddressRow.declaredWan]

def KeepsWan (t t' : AddressTables) : Prop :=
  ∀ a ∈ t.addresses, a.declaredWan = true →
    ∃ a' ∈ t'.addresses, a'.hostingTargetId = a.hostingTargetId ∧ a'.declaredWan = true

theorem KeepsWan.refl (t : AddressTables) : t.KeepsWan t := fun a ha hwan => ⟨a, ha, rfl, hwan⟩

theorem KeepsWan.trans {t'' : AddressTables} (h : t.KeepsWan t') (h' : t'.KeepsWan t'') :
    t.KeepsWan t'' := by
  intro a ha hwan
  obtain ⟨a', ha', htarget, hwan'⟩ := h a ha hwan
  obtain ⟨a'', ha'', htarget', hwan''⟩ := h' a' ha' hwan'
  exact ⟨a'', ha'', htarget'.trans htarget, hwan''⟩

theorem KeepsWan.map (hf : ∀ a : HostAddressRow, a.declaredWan = true →
      (f a).hostingTargetId = a.hostingTargetId ∧ (f a).declaredWan = true) :
    t.KeepsWan { t with addresses := t.addresses.map f } := by
  intro a ha hwan
  obtain ⟨htarget, hwan'⟩ := hf a hwan
  exact ⟨f a, List.mem_map_of_mem ha, htarget, hwan'⟩

theorem KeepsWan.clearPrimary (target : HostingTargetId) (kind : HostAddressKind)
    (family : HostAddressFamily) : t.KeepsWan (t.clearPrimary target kind family) := by
  refine KeepsWan.map fun a hwan => ?_
  split_ifs <;> exact ⟨rfl, hwan⟩

theorem KeepsWan.insert {row : HostAddressRow} (h : t.insertAddress inet row = .ok t') :
    t.KeepsWan t' := by
  obtain ⟨text, -, rfl⟩ := insertAddress_eq_ok h
  exact fun a ha hwan => ⟨a, List.mem_append_left _ ha, rfl, hwan⟩

variable {id : HostAddressId}

theorem KeepsWan.update (h : t.updateAddress id f = .ok t')
    (hf : ∀ a : HostAddressRow, a.declaredWan = true →
      (f a).hostingTargetId = a.hostingTargetId ∧ (f a).declaredWan = true) : t.KeepsWan t' := by
  rw [updateAddress_eq_ok h]
  refine KeepsWan.map fun a hwan => ?_
  split_ifs
  · exact hf a hwan
  · exact ⟨rfl, hwan⟩

theorem Addressable.keep (h : t.Addressable) (hkeeps : t.KeepsWan t')
    (htargets : ∀ target' ∈ t'.targets, target'.mustBeAddressable = true →
      (∃ target ∈ t.targets, target.id = target'.id ∧ target.mustBeAddressable = true) ∨
        t'.declaredWanOf target'.id ≠ []) : t'.Addressable := by
  intro target' htarget' hmust
  rcases htargets target' htarget' hmust with ⟨target, htarget, hid, hmust'⟩ | hsome
  · obtain ⟨a, ha⟩ := List.exists_mem_of_ne_nil _ (h target htarget hmust')
    obtain ⟨hmem, htar, hwan⟩ := mem_declaredWanOf.1 ha
    obtain ⟨a', ha', htar', hwan'⟩ := hkeeps a hmem hwan
    exact List.ne_nil_of_mem (mem_declaredWanOf.2 ⟨ha', htar'.trans (htar.trans hid), hwan'⟩)
  · exact hsome

theorem Addressable.keep_targets (h : t.Addressable) (hkeeps : t.KeepsWan t')
    (htargets : t'.targets = t.targets) : t'.Addressable :=
  h.keep hkeeps fun target' htarget' hmust =>
    .inl ⟨target', htargets ▸ htarget', rfl, hmust⟩

theorem updateTarget_addressable (h : t.Addressable) {id : HostingTargetId}
    {f : HostingTargetRow → HostingTargetRow}
    (hf : ∀ row, (f row).id = row.id ∧ (f row).mustBeAddressable = row.mustBeAddressable) :
    (t.updateTarget id f).Addressable := by
  refine h.keep (fun a ha hwan => ⟨a, ha, rfl, hwan⟩) fun target' htarget' hmust => ?_
  obtain ⟨target, htarget, rfl⟩ := List.mem_map.1 htarget'
  refine .inl ⟨target, htarget, ?_⟩
  split_ifs at hmust ⊢
  · exact ⟨(hf target).1.symm, (hf target).2 ▸ hmust⟩
  · exact ⟨rfl, hmust⟩

theorem insertInline_spec {family : HostAddressFamily} {value : Option String}
    (h : t.insertInline inet target id family value = .ok t') :
    t.KeepsWan t' ∧ t'.targets = t.targets ∧
      (value.isSome = true → t'.declaredWanOf target ≠ []) := by
  cases value with
  | none =>
    cases h
    exact ⟨.refl t, rfl, nofun⟩
  | some value =>
    refine ⟨.insert h, ?_, fun _ => ?_⟩
    · obtain ⟨text, -, rfl⟩ := insertAddress_eq_ok h
      rfl
    · obtain ⟨text, -, rfl⟩ := insertAddress_eq_ok h
      exact List.ne_nil_of_mem (mem_declaredWanOf.2
        ⟨List.mem_append_right _ (List.mem_singleton_self _), rfl, rfl⟩)

theorem writeCreate_addressable (h : t.Addressable) {input : CreateHostingTargetInput}
    (hwrite : t.writeCreate inet input draw = .ok t') : t'.Addressable := by
  simp only [writeCreate, Except.bind_eq_ok, Except.require_eq_ok, exists_const] at hwrite
  obtain ⟨parsed, -, hneeds, inserted, hinserted, first, hfirst, hsecond⟩ := hwrite
  obtain ⟨hkeeps₁, htargets₁, hv4⟩ := insertInline_spec hfirst
  obtain ⟨hkeeps₂, htargets₂, hv6⟩ := insertInline_spec hsecond
  have hkeeps : t.KeepsWan t' := by
    refine KeepsWan.trans (fun a ha hwan => ?_) (hkeeps₁.trans hkeeps₂)
    rw [insertTarget_eq_ok hinserted]
    exact ⟨a, ha, rfl, hwan⟩
  refine h.keep hkeeps fun target' htarget' hmust => ?_
  rw [htargets₂, htargets₁, insertTarget_eq_ok hinserted] at htarget'
  rcases List.mem_append.1 htarget' with hold | hnew
  · exact .inl ⟨target', hold, rfl, hmust⟩
  · obtain rfl := List.mem_singleton.1 hnew
    simp only [HostingTargetRow.mustBeAddressable, Bool.and_eq_true, decide_eq_true_eq,
      Option.isNone_iff_eq_none] at hmust
    rcases hneeds with hnone | hfronted | hinline | hinline
    · exact absurd hnone hmust.1
    · rw [hmust.2] at hfronted
      cases hfronted
    · obtain ⟨a, ha⟩ := List.exists_mem_of_ne_nil _ (hv4 hinline)
      obtain ⟨hmem, htar, hwan⟩ := mem_declaredWanOf.1 ha
      obtain ⟨a', ha', htar', hwan'⟩ := hkeeps₂ a hmem hwan
      exact .inr (List.ne_nil_of_mem (mem_declaredWanOf.2 ⟨ha', htar'.trans htar, hwan'⟩))
    · exact .inr (hv6 hinline)

theorem assertSurvives_returns {target : HostingTargetRow} :
    Except.returns (t.assertSurvives target id) = true ↔
      ∃ a ∈ t.declaredWanOf target.id, a.id ≠ id := by
  simp [Except.returns_iff, assertSurvives, Except.require_eq_ok]

theorem addressable_iff_checksAgain (h : t.Addressable) (htargets : t'.targets = t.targets)
    (hleft : ∀ target, t'.declaredWanOf target ≠ [] ↔ ∃ a ∈ t.declaredWanOf target, a.id ≠ id) :
    t'.Addressable ↔ t.ChecksAgain id := by
  constructor
  · intro h' row hrow hid hwan target htarget htid hmust
    rw [assertSurvives_returns, ← hleft]
    exact h' target (htargets ▸ htarget) hmust
  · intro hcheck target htarget hmust
    rw [htargets] at htarget
    rw [hleft]
    obtain ⟨a, ha⟩ := List.exists_mem_of_ne_nil _ (h target htarget hmust)
    by_cases hid : a.id = id
    · obtain ⟨hmem, htar, hwan⟩ := mem_declaredWanOf.1 ha
      exact assertSurvives_returns.1 (hcheck a hmem hid hwan target htarget htar.symm hmust)
    · exact ⟨a, ha, hid⟩

theorem removeAddress_left (target : HostingTargetId) :
    (t.removeAddress id).declaredWanOf target ≠ [] ↔
      ∃ a ∈ t.declaredWanOf target, a.id ≠ id := by
  constructor
  · intro hne
    obtain ⟨a, ha⟩ := List.exists_mem_of_ne_nil _ hne
    obtain ⟨hmem, htar, hwan⟩ := mem_declaredWanOf.1 ha
    obtain ⟨hmem, hid⟩ := List.mem_filter.1 hmem
    exact ⟨a, mem_declaredWanOf.2 ⟨hmem, htar, hwan⟩, by simpa using hid⟩
  · rintro ⟨a, ha, hid⟩
    obtain ⟨hmem, htar, hwan⟩ := mem_declaredWanOf.1 ha
    exact List.ne_nil_of_mem (mem_declaredWanOf.2
      ⟨List.mem_filter.2 ⟨hmem, by simpa using hid⟩, htar, hwan⟩)

theorem classify_left {kind : HostAddressKind} (hkind : kind ≠ .wan) (target : HostingTargetId) :
    declaredWanOf { t with
        addresses := t.addresses.map fun r => if r.id = id then { r with kind := kind } else r }
        target ≠ [] ↔ ∃ a ∈ t.declaredWanOf target, a.id ≠ id := by
  constructor
  · intro hne
    obtain ⟨a, ha⟩ := List.exists_mem_of_ne_nil _ hne
    obtain ⟨hmem, htar, hwan⟩ := mem_declaredWanOf.1 ha
    obtain ⟨row, hrow, rfl⟩ := List.mem_map.1 hmem
    split_ifs at htar hwan with hid
    · exact absurd (declaredWan_iff.1 hwan).1 hkind
    · exact ⟨row, mem_declaredWanOf.2 ⟨hrow, htar, hwan⟩, hid⟩
  · rintro ⟨a, ha, hid⟩
    obtain ⟨hmem, htar, hwan⟩ := mem_declaredWanOf.1 ha
    exact List.ne_nil_of_mem (mem_declaredWanOf.2
      ⟨List.mem_map.2 ⟨a, hmem, if_neg hid⟩, htar, hwan⟩)

theorem write_addressable (h : t.Addressable) {call : AddressCall} {before : Option HostAddressRow}
    (hcall : (∀ id, call ≠ .remove id) ∧ ∀ id kind, call = .classify id kind → kind = .wan)
    (hwrite : t.write inet call before draw = .ok t') : t'.Addressable := by
  have htargets : ∀ {row : HostAddressRow} {u u' : AddressTables},
      u.insertAddress inet row = .ok u' → u'.targets = u.targets := by
    intro row u u' hinsert
    obtain ⟨text, -, rfl⟩ := insertAddress_eq_ok hinsert
    rfl
  cases call with
  | declare target input =>
    have hcleared : t.KeepsWan (if input.isPrimary = some true then
        t.clearPrimary target input.kind input.family else t) := by
      split_ifs
      · exact .clearPrimary _ _ _
      · exact .refl t
    refine h.keep_targets (hcleared.trans (.insert hwrite)) ((htargets hwrite).trans ?_)
    split_ifs <;> rfl
  | classify id kind =>
    obtain rfl := hcall.2 id kind rfl
    refine h.keep_targets (.update hwrite fun a hwan => ⟨rfl, ?_⟩) ?_
    · exact declaredWan_iff.2 ⟨rfl, (declaredWan_iff.1 hwan).2⟩
    · rw [updateAddress_eq_ok hwrite]
  | setPrimary id =>
    cases before with
    | none =>
      cases hwrite
      exact h
    | some before =>
      refine h.keep_targets (.trans (KeepsWan.map fun a hwan => ?_)
        (.update hwrite fun a hwan => ⟨rfl, hwan⟩)) ?_
      · split_ifs <;> exact ⟨rfl, hwan⟩
      · rw [updateAddress_eq_ok hwrite]
  | remove id => exact absurd rfl (hcall.1 id)
  | upsertObserved input =>
    have hcleared : t.KeepsWan (if input.isPrimary = some true then
        t.clearPrimary input.hostingTargetId input.kind input.family else t) := by
      split_ifs
      · exact .clearPrimary _ _ _
      · exact .refl t
    have hsame : (if input.isPrimary = some true then
        t.clearPrimary input.hostingTargetId input.kind input.family else t).targets =
          t.targets := by
      split_ifs <;> rfl
    cases before with
    | none => exact h.keep_targets (hcleared.trans (.insert hwrite)) ((htargets hwrite).trans hsame)
    | some row =>
      simp only [AddressTables.write, writeObserved, Except.bind_eq_ok, Except.require_eq_ok,
        exists_const] at hwrite
      obtain ⟨text, -, -, hupdate⟩ := hwrite
      refine h.keep_targets (hcleared.trans (.update hupdate fun a hwan => ⟨rfl, ?_⟩)) ?_
      · obtain ⟨hkind, hprovenance⟩ := declaredWan_iff.1 hwan
        exact declaredWan_iff.2 ⟨hkind, by simp [hprovenance, AddressProvenance.seenAt]⟩
      · rw [updateAddress_eq_ok hupdate]
        exact hsame
  | create input => exact writeCreate_addressable h hwrite
  | updateProxyConnection id proxyConnectionId externalSiteId =>
    cases hwrite
    exact updateTarget_addressable h fun _ => ⟨rfl, rfl⟩
  | decommission id =>
    cases hwrite
    exact updateTarget_addressable h fun _ => ⟨rfl, rfl⟩

end AddressTables

namespace AddressRun

variable {n : ℕ} {inet : InetReader} {calls : Fin n → AddressCall} {s : AddressRun n}

theorem write_addressable_iff (h : s.Addressable) {advance : Fin n × AddressDraw}
    {before : Option HostAddressRow} (hstage : s.stages advance.1 = .write before) :
    (s.step inet calls advance).Addressable ↔ s.KeepsCheck inet calls advance := by
  have htables : (s.step inet calls advance).tables =
      (s.tables.write inet (calls advance.1) before advance.2).toOption.getD s.tables := by
    unfold AddressRun.step
    simp only [hstage]
    cases s.tables.write inet (calls advance.1) before advance.2 <;> rfl
  unfold KeepsCheck Addressable
  rw [htables, hstage]
  by_cases hremove : ∃ id, calls advance.1 = .remove id
  · obtain ⟨id, hcall⟩ := hremove
    simp only [hcall, AddressTables.write]
    exact AddressTables.addressable_iff_checksAgain h rfl AddressTables.removeAddress_left
  by_cases hclassify : ∃ id kind, calls advance.1 = .classify id kind ∧ kind ≠ .wan
  · obtain ⟨id, kind, hcall, hkind⟩ := hclassify
    simp only [hcall]
    cases hwrite : s.tables.write inet (.classify id kind) before advance.2 with
    | error e => exact iff_of_true h fun _ hreturns => by cases hreturns
    | ok t =>
      have heq := AddressTables.updateAddress_eq_ok hwrite
      have hiff : t.Addressable ↔ s.tables.ChecksAgain id := by
        rw [heq]
        exact AddressTables.addressable_iff_checksAgain h rfl (AddressTables.classify_left hkind)
      exact hiff.trans ⟨fun hcheck _ _ => hcheck, fun hcheck => hcheck hkind rfl⟩
  · have hother : (∀ id, calls advance.1 ≠ .remove id) ∧
        ∀ id kind, calls advance.1 = .classify id kind → kind = .wan := by
      refine ⟨fun id hcall => hremove ⟨id, hcall⟩, fun id kind hcall => ?_⟩
      by_contra hkind
      exact hclassify ⟨id, kind, hcall, hkind⟩
    refine iff_of_true ?_ ?_
    · cases hwrite : s.tables.write inet (calls advance.1) before advance.2 with
      | ok t => exact AddressTables.write_addressable h hother hwrite
      | error _ => exact h
    · split
      · next _ id _ hcall => exact absurd hcall (hother.1 id)
      · next _ id kind _ hcall => exact fun hkind => absurd (hother.2 id kind hcall) hkind
      · trivial

theorem step_addressable_iff (h : s.Addressable) (advance : Fin n × AddressDraw) :
    (s.step inet calls advance).Addressable ↔ s.KeepsCheck inet calls advance := by
  cases hstage : s.stages advance.1 with
  | write before => exact write_addressable_iff h hstage
  | _ =>
    refine iff_of_true ?_ ?_
    · unfold Addressable AddressRun.step
      simp only [hstage]
      exact h
    · unfold KeepsCheck
      simp only [hstage]

/-- The targets stay addressable all along a run exactly when each write of a removal or a
reclassification passes its check again. -/
theorem addressable_iff (inet : InetReader) (calls : Fin n → AddressCall) {s : AddressRun n}
    (h : s.Addressable) (steps : List (Fin n × AddressDraw)) :
    Runs.Along (AddressRun.step inet calls) Addressable s steps ↔
      Runs.Meets (AddressRun.step inet calls) (KeepsCheck inet calls) s steps := by
  have hstep : ∀ (s : AddressRun n) (advance : Fin n × AddressDraw), True → s.Addressable →
      ((s.step inet calls advance).Addressable ↔ s.KeepsCheck inet calls advance) :=
    fun _ advance _ h => step_addressable_iff h advance
  exact Runs.along_iff_meets (fun _ _ _ _ => trivial) hstep trivial h

def twoRemovals : Fin 3 → AddressCall
  | 0 => .create ⟨"vps", .directReverseProxy, some "203.0.113.10", some "2001:db8::10", none, none,
      none⟩
  | 1 => .remove 1
  | 2 => .remove 2

def readPair : InetReader := fun text =>
  if text = "203.0.113.10" then some (.v4, text)
  else if text = "2001:db8::10" then some (.v6, text) else none

def pairDraw : AddressDraw := ⟨1, 1, 2, ⟨⟨2026, 8, 14⟩, 0⟩⟩

def blank : AddressRun n := ⟨⟨[], []⟩, fun _ => .start⟩

theorem blank_addressable : (blank : AddressRun n).Addressable :=
  fun _ htarget => absurd htarget List.not_mem_nil

theorem removals_in_turn_addressable :
    Runs.Along (AddressRun.step readPair twoRemovals) Addressable blank
      ([0, 0, 1, 1, 1, 1, 2, 2, 2, 2].map fun i => (i, pairDraw)) :=
  (addressable_iff readPair twoRemovals blank_addressable _).2 (by decide +kernel)

theorem removals_at_once : ¬ ∀ (n : ℕ) (inet : InetReader) (calls : Fin n → AddressCall)
    (steps : List (Fin n × AddressDraw)),
    Runs.Along (AddressRun.step inet calls) Addressable blank steps := by
  intro hall
  have hlast := (hall 3 readPair twoRemovals
    ([0, 0, 1, 1, 1, 2, 2, 2, 1, 2].map fun i => (i, pairDraw))).last
  exact absurd hlast (by
    unfold Addressable
    decide +kernel)

end AddressRun

end Loxep
