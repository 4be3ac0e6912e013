import Loxep.Materialize
import Loxep.Proofs.Addressable

/-!
# Publication

What counts as a private address of a tailnet, and the records a domain publishes.
-/

/-!
## The private ranges of a tailnet

The masks pick out an address by its leading octets or hextets: `100.64.0.0/10` is a first octet of
100 with a second from 64 to 127, and the other block fixes the first three hextets.
-/

namespace Loxep

section Spec

def ipv4Octets (address : String) : Option (List ℕ) :=
  let parts := (trim address).toList.splitOn '.'
  if parts.length ≠ 4 then none else parts.mapM ipv4Octet

def ipv6Hextets (address : String) : Option (List ℕ) :=
  let trimmed := (trim address).toList
  if trimmed.length = 0 ∨ '.' ∈ trimmed then none
  else
    match ipv6Groups trimmed with
    | none => none
    | some groups => if groups.length ≠ 8 then none else groups.mapM ipv6Group

/-- The address lies in `100.64.0.0/10`, octet by octet. -/
def InCgnat (address : String) : Prop :=
  ∃ a b c d, ipv4Octets address = some [a, b, c, d] ∧ a = 100 ∧ 64 ≤ b ∧ b ≤ 127

/-- The address lies in `fd7a:115c:a1e0::/48`, hextet by hextet. -/
def InUla (address : String) : Prop :=
  ∃ rest, ipv6Hextets address = some (0xfd7a :: 0x115c :: 0xa1e0 :: rest)

end Spec

theorem radixValue_lt {radix : ℕ} {digit : Char → ℕ} (cs : List Char)
    (h : ∀ c ∈ cs, digit c < radix) : radixValue radix digit cs < radix ^ cs.length := by
  induction cs using List.reverseRecOn with
  | nil => simp [radixValue]
  | append_singleton cs c ih =>
    have hlast : digit c < radix := h c (by simp)
    have hrest := ih fun c' hc' => h c' (by simp [hc'])
    have hvalue : radixValue radix digit (cs ++ [c]) =
        radixValue radix digit cs * radix + digit c := by
      rw [radixValue, List.foldl_append]
      rfl
    rw [hvalue, List.length_append, List.length_singleton, pow_succ]
    calc radixValue radix digit cs * radix + digit c
        < radixValue radix digit cs * radix + radix := by omega
      _ = (radixValue radix digit cs + 1) * radix := by ring
      _ ≤ radix ^ cs.length * radix := Nat.mul_le_mul_right _ hrest

variable {c : Char} {address text : String}

theorem decimalDigit_lt (h : c.isDigit = true) : decimalDigit c < 10 := by
  have hle : c.toNat ≤ 57 := by
    simp only [Char.isDigit, Bool.and_eq_true, decide_eq_true_eq] at h
    exact UInt32.le_iff_toNat_le.1 h.2
  have hzero : '0'.toNat = 48 := rfl
  unfold decimalDigit
  omega

theorem hexDigit_lt (h : isHexChar c = true) : hexDigit c < 16 := by
  have hle : ∀ {a b : Char}, a ≤ b ↔ a.toNat ≤ b.toNat := Iff.rfl
  have ha : 'a'.toNat = 97 := rfl
  have hf : 'f'.toNat = 102 := rfl
  have hA : 'A'.toNat = 65 := rfl
  have hF : 'F'.toNat = 70 := rfl
  simp only [isHexChar, Bool.or_eq_true, Bool.and_eq_true, decide_eq_true_eq, hle] at h
  unfold hexDigit
  split_ifs with hdigit hlower
  · exact (decimalDigit_lt hdigit).trans (by decide)
  · rw [hle] at hlower
    rcases h with (hd | h) | h
    · exact absurd hd hdigit
    · omega
    · omega
  · rw [hle] at hlower
    rcases h with (hd | h) | h
    · exact absurd hd hdigit
    · omega
    · omega

theorem ipv4Octet_lt {part : List Char} {octet : ℕ} (h : ipv4Octet part = some octet) :
    octet < 2 ^ 8 := by
  unfold ipv4Octet at h
  split at h
  · dsimp only at h
    split_ifs at h with hlarge
    cases h
    omega
  · cases h

theorem ipv6Group_lt {group : List Char} {hextet : ℕ} (h : ipv6Group group = some hextet) :
    hextet < 2 ^ 16 := by
  unfold ipv6Group at h
  split_ifs at h with hgroup
  obtain ⟨-, hlength, hall⟩ := hgroup
  cases h
  calc radixValue 16 hexDigit group
      < 16 ^ group.length :=
        radixValue_lt group fun c hc => hexDigit_lt (List.all_eq_true.1 hall c hc)
    _ ≤ 16 ^ 4 := Nat.pow_le_pow_right (by decide) hlength
    _ = 2 ^ 16 := by decide

theorem ipv4Value_eq (value : ℕ) (parts : List (List Char)) :
    ipv4Value value parts = (parts.mapM ipv4Octet).map fun octets =>
      octets.foldl (fun value group => value <<< 8 ||| group) value := by
  induction parts generalizing value with
  | nil => rfl
  | cons part parts ih =>
    unfold ipv4Value
    cases hoctet : ipv4Octet part with
    | none => simp [hoctet]
    | some octet =>
      simp only [ih, List.mapM_cons, hoctet]
      cases parts.mapM ipv4Octet <;> rfl

theorem ipv6Value_eq (value : ℕ) (groups : List (List Char)) :
    ipv6Value value groups = (groups.mapM ipv6Group).map fun hextets =>
      hextets.foldl (fun value group => value <<< 16 ||| group) value := by
  induction groups generalizing value with
  | nil => rfl
  | cons group groups ih =>
    unfold ipv6Value
    cases hgroup : ipv6Group group with
    | none => simp [hgroup]
    | some hextet =>
      simp only [ih, List.mapM_cons, hgroup]
      cases groups.mapM ipv6Group <;> rfl

theorem parseIPv4_eq (address : String) :
    parseIPv4 address = (ipv4Octets address).map (Cidr.pack 8) := by
  unfold parseIPv4 ipv4Octets
  dsimp only
  split_ifs
  · rfl
  · exact ipv4Value_eq 0 _

theorem parseIPv6_eq (address : String) :
    parseIPv6 address = (ipv6Hextets address).map (Cidr.pack 16) := by
  unfold parseIPv6 ipv6Hextets
  dsimp only
  split_ifs
  · rfl
  · cases ipv6Groups (trim address).toList with
    | none => rfl
    | some groups =>
      dsimp only
      split_ifs
      · rfl
      · exact ipv6Value_eq 0 _

theorem mapM_members {α β : Type} {f : α → Option β} {xs : List α} {ys : List β}
    (h : xs.mapM f = some ys) : ys.length = xs.length ∧ ∀ y ∈ ys, ∃ x ∈ xs, f x = some y := by
  induction xs generalizing ys with
  | nil =>
    cases h
    exact ⟨rfl, fun _ hy => absurd hy List.not_mem_nil⟩
  | cons x xs ih =>
    cases hx : f x with
    | none => simp [hx] at h
    | some y =>
      cases hxs : xs.mapM f with
      | none => simp [hx, hxs] at h
      | some rest =>
        simp only [List.mapM_cons, hx, hxs] at h
        cases h
        obtain ⟨hlength, hall⟩ := ih hxs
        refine ⟨by simp [hlength], List.forall_mem_cons.2 ⟨⟨x, List.mem_cons_self, hx⟩, ?_⟩⟩
        intro y' hy'
        obtain ⟨x', hx', hfx⟩ := hall y' hy'
        exact ⟨x', List.mem_cons_of_mem _ hx', hfx⟩

theorem ipv4Octets_bounds {octets : List ℕ} (h : ipv4Octets address = some octets)
    : octets.length = 4 ∧ ∀ o ∈ octets, o < 2 ^ 8 := by
  unfold ipv4Octets at h
  dsimp only at h
  split_ifs at h with hparts
  obtain ⟨hlength, hall⟩ := mapM_members h
  refine ⟨hlength.trans (not_not.1 hparts), fun o ho => ?_⟩
  obtain ⟨part, -, hpart⟩ := hall o ho
  exact ipv4Octet_lt hpart

theorem ipv6Hextets_bounds {hextets : List ℕ} (h : ipv6Hextets address = some hextets) :
    hextets.length = 8 ∧ ∀ g ∈ hextets, g < 2 ^ 16 := by
  unfold ipv6Hextets at h
  dsimp only at h
  split_ifs at h
  split at h
  · cases h
  · split_ifs at h with hgroups
    obtain ⟨hlength, hall⟩ := mapM_members h
    refine ⟨hlength.trans (not_not.1 hgroups), fun g hg => ?_⟩
    obtain ⟨group, -, hgroup⟩ := hall g hg
    exact ipv6Group_lt hgroup

theorem ipv4Mask_testBit : ∀ i < 32, (ipv4Mask 10).testBit i = decide (22 ≤ i) := by
  decide +kernel

theorem ipv6Mask_testBit : ∀ i < 128, (ipv6Mask 48).testBit i = decide (80 ≤ i) := by
  decide +kernel

theorem ipv4InCidr_cgnat (address : String) :
    ipv4InCidr address tailscaleCgnatV4Cidr = true ↔ InCgnat address := by
  have hbase : parseIPv4 tailscaleCgnatV4Cidr.base = some 1681915904 := by decide +kernel
  unfold ipv4InCidr InCgnat
  rw [hbase, parseIPv4_eq]
  cases hoctets : ipv4Octets address with
  | none => simp
  | some octets =>
    obtain ⟨hlength, hall⟩ := ipv4Octets_bounds hoctets
    obtain ⟨a, b, c, d, rfl⟩ : ∃ a b c d, octets = [a, b, c, d] := by
      match octets, hlength with
      | [a, b, c, d], _ => exact ⟨a, b, c, d, rfl⟩
    have ha := hall a (by simp)
    have hb := hall b (by simp)
    have hshift : Cidr.pack 8 [a, b, c, d] >>> 16 = a * 2 ^ 8 + b := by
      rw [← Cidr.pack_pair ha hb]
      exact Cidr.pack_shiftRight [a, b] [c, d] fun g hg => hall g (by simp_all)
    have hsame := Cidr.and_eq_and_iff ipv4Mask_testBit (Cidr.pack_lt [a, b, c, d] hall)
      (show 1681915904 < 2 ^ 32 by decide)
    have htop : Cidr.pack 8 [a, b, c, d] >>> 22 = (a * 2 ^ 8 + b) / 2 ^ 6 := by
      rw [← hshift, ← Nat.shiftRight_eq_div_pow, ← Nat.shiftRight_add]
    simp only [Option.map_some, beq_iff_eq, Option.some.injEq, List.cons.injEq, and_true]
    refine hsame.trans ?_
    rw [htop]
    constructor
    · intro hvalue
      refine ⟨a, b, c, d, ⟨rfl, rfl, rfl, rfl⟩, ?_⟩
      have : (1681915904 >>> 22 : ℕ) = 401 := by decide
      omega
    · rintro ⟨a', b', c', d', ⟨rfl, rfl, rfl, rfl⟩, rfl, hlow, hhigh⟩
      have : (1681915904 >>> 22 : ℕ) = 401 := by decide
      omega

theorem ipv6InCidr_ula (address : String) :
    ipv6InCidr address tailscaleUlaV6Cidr = true ↔ InUla address := by
  have hbase : parseIPv6 tailscaleUlaV6Cidr.base =
      some (Cidr.pack 16 [0xfd7a, 0x115c, 0xa1e0, 0, 0, 0, 0, 0]) := by decide +kernel
  unfold ipv6InCidr InUla
  rw [hbase, parseIPv6_eq]
  cases hhextets : ipv6Hextets address with
  | none => simp
  | some hextets =>
    obtain ⟨hlength, hall⟩ := ipv6Hextets_bounds hhextets
    obtain ⟨a, b, c, rest, rfl, hrest⟩ : ∃ a b c rest, hextets = a :: b :: c :: rest ∧
        rest.length = 5 := by
      match hextets, hlength with
      | a :: b :: c :: rest, h => exact ⟨a, b, c, rest, rfl, by simpa using h⟩
    have hshift : ∀ {x y z : ℕ} {tail : List ℕ}, tail.length = 5 →
        (∀ g ∈ x :: y :: z :: tail, g < 2 ^ 16) →
        Cidr.pack 16 (x :: y :: z :: tail) >>> 80 = (x * 2 ^ 16 + y) * 2 ^ 16 + z := by
      intro x y z tail htail hbound
      rw [← Cidr.pack_triple (hbound x (by simp)) (hbound y (by simp)) (hbound z (by simp))]
      have hpack := Cidr.pack_shiftRight [x, y, z] tail fun g hg => hbound g (by simp [hg])
      rwa [htail] at hpack
    have hlt : Cidr.pack 16 (a :: b :: c :: rest) < 2 ^ 128 := by
      have hpack := Cidr.pack_lt (a :: b :: c :: rest) hall
      rwa [hlength] at hpack
    have hsame := Cidr.and_eq_and_iff ipv6Mask_testBit hlt
      (show Cidr.pack 16 [0xfd7a, 0x115c, 0xa1e0, 0, 0, 0, 0, 0] < 2 ^ 128 by decide +kernel)
    have ha := hall a (by simp)
    have hb := hall b (by simp)
    have hc := hall c (by simp)
    simp only [Option.map_some, Option.some.injEq, List.cons.injEq]
    rw [if_neg (by decide), beq_iff_eq]
    refine hsame.trans ?_
    rw [hshift hrest hall, hshift rfl (by decide)]
    constructor
    · intro hvalue
      exact ⟨rest, by omega, by omega, by omega, rfl⟩
    · rintro ⟨rest', rfl, rfl, rfl, -⟩
      rfl

theorem isPrivateTailnetAddress_iff (address : String) :
    isPrivateTailnetAddress address = true ↔ InCgnat address ∨ InUla address := by
  rw [← ipv4InCidr_cgnat, ← ipv6InCidr_ula]
  unfold isPrivateTailnetAddress tailnetAddressKind
  split_ifs with hv4 hv6
  · simp [hv4]
  · simp [hv6]
  · simp [hv4, hv6]

/-!
## What a domain publishes

An address record is of the target the fronting chain ends at, and its content is an address an
operator declared for that target, outside the private ranges of a tailnet. Records of the mail
provider's set are passed through as they are, unproxied.
-/

section Spec

/-- The target is reached over the chain in that many hops. -/
inductive FrontedBy (targets : HostingTargetId → Option HostingTargetNode) :
    ℕ → HostingTargetNode → HostingTargetNode → Prop
  | refl (node : HostingTargetNode) : FrontedBy targets 0 node node
  | hop {hops : ℕ} {node next last : HostingTargetNode} {nextId : HostingTargetId}
      (tunnel : node.controlSurface = .tunnelClient) (fronted : node.frontedByTargetId = some nextId)
      (found : targets nextId = some next) (rest : FrontedBy targets hops next last) :
      FrontedBy targets (hops + 1) node last

def ChainEnds (targets : HostingTargetId → Option HostingTargetNode) (apex : HostingTargetId)
    (last : HostingTargetNode) : Prop :=
  ∃ first, targets apex = some first ∧ last.controlSurface ≠ .tunnelClient ∧
    ∃ hops ≤ maxFrontingHops, FrontedBy targets hops first last

def DnsLabel.addressFamily (type : DnsLabel) : Option HostAddressFamily :=
  if type.text = "A" then some .v4 else if type.text = "AAAA" then some .v6 else none

variable {n : ℕ} (inet : InetReader) (calls : Fin n → AddressCall)

def addressRun (targets : List HostingTargetRow) (steps : List (Fin n × AddressDraw)) :
    AddressRun n :=
  Runs.run (AddressRun.step inet calls) ⟨⟨targets, []⟩, fun _ => .start⟩ steps

def AddressTables.materializeInput (t : AddressTables) (domain : MaterializeDomain)
    (caaPolicy : CaaPolicy) (mailRecords : Option (List MailRequiredRecord))
    (capabilities : DnsCapabilities) : MaterializeInput :=
  ⟨domain, t.nodes, caaPolicy, mailRecords, capabilities⟩

/-- The content is an address a call of the history declared for the target the chain ends at, of
kind wan, of the record's family and not private. -/
def PublishesDeclared (t : AddressTables) (steps : List (Fin n × AddressDraw))
    (apex : Option HostingTargetId) (family : HostAddressFamily) (content : String) : Prop :=
  ∃ first ∈ apex, ∃ last, ChainEnds t.nodes first last ∧
    (∃ a ∈ t.addresses, a.hostingTargetId = last.id ∧ a.declaredWan = true ∧ a.family = family ∧
      a.value = content) ∧
    (∃ s ∈ steps, (calls s.1).Declares inet s.2 last.id family content) ∧
    ¬ InCgnat content ∧ ¬ InUla content

/-- A mail record is not proxied, and an address record is published as above unless the mail
provider's set has it. -/
structure SafelyPublished (t : AddressTables) (steps : List (Fin n × AddressDraw))
    (input : MaterializeInput) (record : DesiredRecord) : Prop where
  unproxied : record.owner = .mail → record.proxied = false
  address : ∀ family, record.type.addressFamily = some family →
    (record.owner = .mail → ∃ code, input.mailRecords = some (purelymailRequiredRecords code)) →
    PublishesDeclared inet calls t steps input.domain.apexTargetId family record.content

end Spec

section Chain

variable {target last : HostingTargetNode}
  {targets : HostingTargetId → Option HostingTargetNode} {hops : ℕ}

theorem walkFronting_ends {left : ℕ} {seen : List HostingTargetId} {current : HostingTargetNode}
    (h : walkFronting target targets left seen current = .ok (last, hops)) :
    last.controlSurface ≠ .tunnelClient ∧ ∃ k ≤ left, FrontedBy targets k current last := by
  induction left generalizing seen current with
  | zero =>
    unfold walkFronting at h
    split_ifs at h with htunnel
    · cases h
      exact ⟨htunnel, 0, le_rfl, .refl _⟩
    · split at h
      · cases h
      · split_ifs at h
        split at h <;> cases h
  | succ left ih =>
    unfold walkFronting at h
    split_ifs at h with htunnel
    · cases h
      exact ⟨htunnel, 0, Nat.zero_le _, .refl _⟩
    · split at h
      · cases h
      · next nextId hfronted =>
        split_ifs at h
        split at h
        · cases h
        · next next hfound =>
          obtain ⟨hlast, k, hk, hrest⟩ := ih h
          exact ⟨hlast, k + 1, by omega, .hop (not_not.1 htunnel) hfronted hfound hrest⟩

theorem resolveHostingAddress_ends {resolved : ResolvedHostingAddress}
    (h : resolveHostingAddress target targets = .ok resolved) :
    ∃ last : HostingTargetNode, last.controlSurface ≠ .tunnelClient ∧
      (∃ hops ≤ maxFrontingHops, FrontedBy targets hops target last) ∧
      resolved.addressV4 = last.addressV4 ∧ resolved.addressV6 = last.addressV6 ∧
      last.addressV4.bind tailnetAddressKind = none ∧
      last.addressV6.bind tailnetAddressKind = none := by
  simp only [resolveHostingAddress, Except.bind_eq_ok, Except.require_eq_ok, exists_const,
    Except.pure_eq_ok] at h
  obtain ⟨⟨last, hops⟩, hwalk, ⟨hv4, hv6⟩, -, rfl⟩ := h
  obtain ⟨hlast, hchain⟩ := walkFronting_ends hwalk
  exact ⟨last, hlast, hchain, rfl, rfl, hv4, hv6⟩

theorem not_private_of_bind {address : Option String} {text : String}
    (h : address.bind tailnetAddressKind = none) (htext : address = some text) :
    ¬ InCgnat text ∧ ¬ InUla text := by
  rw [htext, Option.bind_some] at h
  rw [← not_or, ← isPrivateTailnetAddress_iff]
  simp [isPrivateTailnetAddress, h]

end Chain

theorem pickAddress_mem {candidates : List HostAddressRow} (h : pickAddress candidates = some text)
    : ∃ a ∈ candidates, a.value = text := by
  unfold pickAddress at h
  obtain ⟨a, ha, hvalue⟩ := Option.map_eq_some_iff.1 h
  refine ⟨a, ?_, hvalue⟩
  cases hprimary : candidates.find? (·.isPrimary) with
  | some primary =>
    rw [hprimary] at ha
    obtain rfl : primary = a := by simpa using ha
    exact List.mem_of_find?_eq_some hprimary
  | none =>
    rw [hprimary, Option.none_or] at ha
    exact List.mem_of_mem_head? ha

theorem nodes_declared {t : AddressTables} {id : HostingTargetId} {node : HostingTargetNode}
    (h : t.nodes id = some node) {family : HostAddressFamily}
    (htext : (match family with | .v4 => node.addressV4 | .v6 => node.addressV6) = some text) :
    ∃ a ∈ t.addresses, a.hostingTargetId = node.id ∧ a.declaredWan = true ∧ a.family = family ∧
      a.value = text := by
  obtain ⟨row, -, rfl⟩ := Option.map_eq_some_iff.1 h
  have hpick : pickAddress (((t.addresses.filter (·.hostingTargetId == row.id)).filter
      (·.declaredWan)).filter (·.family == family)) = some text := by
    cases family <;> exact htext
  obtain ⟨a, ha, hvalue⟩ := pickAddress_mem hpick
  simp only [List.mem_filter, beq_iff_eq] at ha
  obtain ⟨⟨⟨hmem, htarget⟩, hwan⟩, hfamily⟩ := ha
  exact ⟨a, hmem, htarget, hwan, hfamily, hvalue⟩

section Records

variable {input : MaterializeInput} {records : List DesiredRecord}

theorem addressRecords_shape {type : DnsLabel} {address : Option String}
    (h : addressRecords input type address = .ok records) :
    ∀ record ∈ records, record.type = type ∧ record.owner ≠ .mail ∧
      address = some record.content := by
  cases address with
  | none =>
    cases h
    exact fun record hrecord => absurd hrecord List.not_mem_nil
  | some address =>
    simp only [addressRecords, addressRecord, Except.bind_eq_ok, Except.pure_eq_ok] at h
    obtain ⟨apex, ⟨-, -, rfl⟩, wildcard, ⟨-, -, rfl⟩, rfl⟩ := h
    simp [AddressRecordKind.owner]

theorem materializeAddressRecords_shape (h : materializeAddressRecords input = .ok records) :
    ∀ record ∈ records, record.owner ≠ .mail ∧ ∃ family, record.type.addressFamily = some family ∧
      ∃ first ∈ input.domain.apexTargetId, ∃ last, ChainEnds input.targets first last ∧
        (match family with | .v4 => last.addressV4 | .v6 => last.addressV6) = some record.content ∧
        ¬ InCgnat record.content ∧ ¬ InUla record.content := by
  unfold materializeAddressRecords at h
  split at h
  · cases h
    exact fun record hrecord => absurd hrecord List.not_mem_nil
  · next apexTargetId hapex =>
    split at h
    · cases h
    · next target htarget =>
      simp only [Except.bind_eq_ok, Except.require_eq_ok, exists_const, Except.pure_eq_ok] at h
      obtain ⟨-, resolved, hresolved, v4, hv4, v6, hv6, rfl⟩ := h
      obtain ⟨last, htunnel, hchain, hres4, hres6, hbind4, hbind6⟩ :=
        resolveHostingAddress_ends hresolved
      have hends : ChainEnds input.targets apexTargetId last := ⟨target, htarget, htunnel, hchain⟩
      intro record hrecord
      rcases List.mem_append.1 hrecord with hrecord | hrecord
      · obtain ⟨htype, howner, hcontent⟩ := addressRecords_shape hv4 record hrecord
        rw [hres4] at hcontent
        exact ⟨howner, .v4, by rw [htype]; decide, apexTargetId, hapex, last, hends, hcontent,
          not_private_of_bind hbind4 hcontent⟩
      · obtain ⟨htype, howner, hcontent⟩ := addressRecords_shape hv6 record hrecord
        rw [hres6] at hcontent
        exact ⟨howner, .v6, by rw [htype]; decide, apexTargetId, hapex, last, hends, hcontent,
          not_private_of_bind hbind6 hcontent⟩

variable {record : DesiredRecord}

theorem mem_materializeMailRecords (h : record ∈ materializeMailRecords input) :
    record.owner = .mail ∧ record.proxied = false ∧
      ∃ required ∈ input.mailRecords.getD [], record.type = required.type := by
  unfold materializeMailRecords at h
  split_ifs at h
  · obtain ⟨required, hrequired, rfl⟩ := List.mem_map.1 h
    exact ⟨rfl, rfl, required, hrequired, rfl⟩
  · cases h

theorem purelymail_no_address (code : Option String) :
    ∀ required ∈ purelymailRequiredRecords code, required.type.addressFamily = none := by
  have hbase : ∀ required ∈ purelymailBaseRecords, required.type.addressFamily = none := by decide
  unfold purelymailRequiredRecords
  split
  · exact hbase
  · split_ifs
    · exact hbase
    · intro required hrequired
      rcases List.mem_append.1 hrequired with hrequired | hrequired
      · exact hbase required hrequired
      · obtain rfl := List.mem_singleton.1 hrequired
        rfl

theorem mem_materializeCaaRecords {policy : CaaPolicy} (h : record ∈ materializeCaaRecords policy) :
    record.owner = .caa ∧ record.type.addressFamily = none := by
  have hrecord : ∃ tag value, record = caaRecord tag value := by
    unfold materializeCaaRecords at h
    split_ifs at h
    · cases h
    · simp only [List.mem_append, List.mem_map] at h
      rcases h with (⟨value, -, rfl⟩ | ⟨value, -, rfl⟩) | ⟨value, -, rfl⟩ <;>
        exact ⟨_, value, rfl⟩
  obtain ⟨tag, value, rfl⟩ := hrecord
  exact ⟨rfl, rfl⟩

theorem FrontedBy.found {targets : HostingTargetId → Option HostingTargetNode} {hops : ℕ}
    {first last : HostingTargetNode} (h : FrontedBy targets hops first last)
    (hfirst : ∃ id, targets id = some first) : ∃ id, targets id = some last := by
  induction h with
  | refl => exact hfirst
  | hop _ _ found _ ih => exact ih ⟨_, found⟩

end Records

section History

variable {n : ℕ} {inet : InetReader} {calls : Fin n → AddressCall}

theorem step_declaredBy {D : HostingTargetId → HostAddressFamily → String → Prop} {s : AddressRun n}
    {advance : Fin n × AddressDraw} (h : s.tables.DeclaredBy D)
    (hcall : ∀ target family text, (calls advance.1).Declares inet advance.2 target family text →
      D target family text) : (s.step inet calls advance).tables.DeclaredBy D := by
  unfold AddressRun.step
  split
  · exact h
  · next before _ =>
    dsimp only
    split
    · next t hwrite => exact h.write hcall hwrite
    · exact h
  · exact h

theorem addressRun_declaredBy (targets : List HostingTargetRow) (steps : List (Fin n × AddressDraw))
    :
    (addressRun inet calls targets steps).tables.DeclaredBy fun target family text =>
      ∃ s ∈ steps, (calls s.1).Declares inet s.2 target family text := by
  induction steps using List.reverseRecOn with
  | nil => exact fun a ha => absurd ha List.not_mem_nil
  | append_singleton steps advance ih =>
    have hlast : addressRun inet calls targets (steps ++ [advance]) =
        (addressRun inet calls targets steps).step inet calls advance := by
      simp [addressRun, Runs.run, List.foldl_append]
    rw [hlast]
    refine step_declaredBy (fun a ha hdeclared => ?_) fun target family text hdeclares => ?_
    · obtain ⟨s, hs, hdeclares⟩ := ih a ha hdeclared
      exact ⟨s, List.mem_append_left _ hs, hdeclares⟩
    · exact ⟨advance, by simp, hdeclares⟩

end History

/-- After every history of calls, a domain that materializes publishes declared addresses of kind
wan of the target its chain ends at, and proxies no mail record. -/
theorem desired_records_safe {n : ℕ} (inet : InetReader) (calls : Fin n → AddressCall)
    (targets : List HostingTargetRow) (steps : List (Fin n × AddressDraw))
    (domain : MaterializeDomain) (caaPolicy : CaaPolicy)
    (mailRecords : Option (List MailRequiredRecord)) (capabilities : DnsCapabilities)
    {records : List DesiredRecord}
    (h : materializeDesiredRecords ((addressRun inet calls targets steps).tables.materializeInput
      domain caaPolicy mailRecords capabilities) = .ok records) :
    ∀ record ∈ records, SafelyPublished inet calls (addressRun inet calls targets steps).tables
      steps ((addressRun inet calls targets steps).tables.materializeInput domain caaPolicy
        mailRecords capabilities) record := by
  simp only [materializeDesiredRecords, Except.bind_eq_ok, Except.pure_eq_ok] at h
  obtain ⟨addresses, haddresses, rfl⟩ := h
  intro record hrecord
  rcases List.mem_append.1 hrecord with hrecord | hcaa
  · rcases List.mem_append.1 hrecord with haddress | hmail
    · obtain ⟨howner, family', hfamily', first, hfirst, last, hends, hcontent, hprivate⟩ :=
        materializeAddressRecords_shape haddresses record haddress
      refine ⟨fun hmail => absurd hmail howner, fun family hfamily _ => ?_⟩
      obtain rfl := Option.some.inj (hfamily'.symm.trans hfamily)
      have hfound : ∃ id, (addressRun inet calls targets steps).tables.nodes id = some last := by
        obtain ⟨node, hnode, -, hops, -, hchain⟩ := hends
        exact hchain.found ⟨first, hnode⟩
      obtain ⟨id, hid⟩ := hfound
      obtain ⟨a, ha, htarget, hwan, hfam, hvalue⟩ := nodes_declared hid hcontent
      have hprovenance : a.provenance = .operatorDeclared := by
        simp only [HostAddressRow.declaredWan, Bool.and_eq_true, beq_iff_eq] at hwan
        exact hwan.2
      have hdeclares := addressRun_declaredBy targets steps a ha hprovenance
      rw [htarget, hfam, hvalue] at hdeclares
      exact ⟨first, hfirst, last, hends, ⟨a, ha, htarget, hwan, hfam, hvalue⟩, hdeclares, hprivate⟩
    · obtain ⟨howner, hproxied, required, hrequired, htype⟩ := mem_materializeMailRecords hmail
      refine ⟨fun _ => hproxied, fun family hfamily hset => ?_⟩
      obtain ⟨code, hcode⟩ := hset howner
      rw [hcode] at hrequired
      rw [htype, purelymail_no_address code required hrequired] at hfamily
      cases hfamily
  · obtain ⟨howner, htype⟩ := mem_materializeCaaRecords hcaa
    refine ⟨fun hmail => ?_, fun family hfamily => ?_⟩
    · rw [howner] at hmail
      cases hmail
    · rw [htype] at hfamily
      cases hfamily

def webServer : HostingTargetRow :=
  { id := 1
    name := "vps"
    controlSurface := .directReverseProxy
    frontedByTargetId := none
    proxyConnectionId := none
    externalSiteId := none
    decommissionedAt := none }

def readServerAddress : InetReader := fun text =>
  if text = "203.0.113.10" then some (.v4, text) else none

def declareServerAddress : Fin 1 → AddressCall := fun _ =>
  .declare 1 ⟨.wan, .v4, "203.0.113.10", some true⟩

def serverDraw : AddressDraw := ⟨2, 1, 2, ⟨⟨2026, 8, 14⟩, 0⟩⟩

def serverDomain : MaterializeDomain := ⟨"example.test", some 1, false, false, true⟩

def serverInput (mailRecords : List MailRequiredRecord) : MaterializeInput :=
  (addressRun readServerAddress declareServerAddress [webServer]
    [(Fin.last 0, serverDraw), (Fin.last 0, serverDraw)]).tables.materializeInput serverDomain
      ⟨false, [], [], none⟩ (some mailRecords) ⟨false, false, []⟩

theorem server_published : ∃ records, materializeDesiredRecords
    (serverInput purelymailBaseRecords) = .ok records ∧ records.length = 8 ∧
      ∀ record ∈ records, SafelyPublished readServerAddress declareServerAddress
        (addressRun readServerAddress declareServerAddress [webServer]
          [(0, serverDraw), (0, serverDraw)]).tables
        [(0, serverDraw), (0, serverDraw)] (serverInput purelymailBaseRecords) record := by
  have hlength : (materializeDesiredRecords (serverInput purelymailBaseRecords)).map
      (·.length) = .ok 8 := by decide +kernel
  obtain ⟨records, hrecords⟩ : ∃ records,
      materializeDesiredRecords (serverInput purelymailBaseRecords) = .ok records :=
    Except.returns_iff.1 (by decide +kernel)
  rw [hrecords] at hlength
  exact ⟨records, hrecords, Except.ok.inj hlength,
    desired_records_safe readServerAddress declareServerAddress [webServer] _ serverDomain _ _ _
      hrecords⟩

theorem mail_address_passed_through : ¬ ∀ (n : ℕ) (inet : InetReader) (calls : Fin n → AddressCall)
    (targets : List HostingTargetRow) (steps : List (Fin n × AddressDraw)) (domain : MaterializeDomain)
    (caaPolicy : CaaPolicy) (mailRecords : Option (List MailRequiredRecord))
    (capabilities : DnsCapabilities) (records : List DesiredRecord),
    materializeDesiredRecords ((addressRun inet calls targets steps).tables.materializeInput domain
      caaPolicy mailRecords capabilities) = .ok records →
    ∀ record ∈ records, ∀ family, record.type.addressFamily = some family →
      PublishesDeclared inet calls (addressRun inet calls targets steps).tables steps
        domain.apexTargetId family record.content := by
  intro hall
  obtain ⟨first, hfirst, -⟩ := hall 0 readServerAddress nofun [] []
    ⟨"example.test", none, false, false, true⟩ ⟨false, [], [], none⟩
    (some [⟨⟨"A", by decide⟩, ⟨"mail", by decide⟩, "100.64.0.1", none, none⟩]) ⟨false, false, []⟩
    [⟨⟨"A", by decide⟩, ⟨"mail", by decide⟩, "100.64.0.1", none, none, false, .mail⟩] rfl
    _ List.mem_cons_self .v4 rfl
  cases hfirst

end Loxep
