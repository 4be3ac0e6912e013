import Loxep.Lib.ChildRows
import Loxep.Mailboxes
import Loxep.Proofs.CreatedOnce
import Mathlib.Algebra.GroupWithZero.Nat
import Mathlib.Algebra.Order.BigOperators.Group.List

/-!
# Mailboxes

What a sync sees of an address, and what it converges to.
-/

/-!
## What a sync sees of an address

A run looks at an address through its account, the rules for its local part, the ledger's row of
its create and its row of the table. Every write of a run is at one address: it changes what is
seen of that address alone, and leaves alone what belongs to no declared address.
-/

namespace Loxep

namespace MailboxRows

variable {mailboxes : MailboxRows} {row : MailboxRow} {k l : String}

theorem get_eq_some_iff : mailboxes.get l = some row ↔ row ∈ mailboxes.rows ∧ row.localPart = l :=
  find?_key_eq_some_iff mailboxes.keyed

variable {f : MailboxRow → MailboxRow}

theorem get_update (hid : ∀ row, (f row).id = row.id)
    (hkey : ∀ row, (f row).localPart = row.localPart) :
    (mailboxes.update f hid hkey).get l = (mailboxes.get l).map f := by
  unfold get update
  rw [List.find?_map]
  simp only [Function.comp_def, hkey]

theorem get_updateId (hid : ∀ row, (f row).id = row.id)
    (hkey : ∀ row, (f row).localPart = row.localPart) (h : mailboxes.get l = some row) :
    (mailboxes.updateId row.id f hid hkey).get k = if k = l then some (f row)
      else mailboxes.get k := by
  unfold updateId
  rw [get_update]
  split_ifs with hk
  · rw [hk, h, Option.map_some, if_pos rfl]
  · rcases hother : mailboxes.get k with _ | other
    · rfl
    · have hne : other.id ≠ row.id := by
        intro heq
        rw [get_eq_some_iff] at h hother
        have hsame := eq_of_key mailboxes.identified h.1 hother.1 heq
        exact hk (by rw [← hother.2, ← h.2, hsame])
      rw [Option.map_some, if_neg hne]

def declaration (row : MailboxRow) : MailboxId × String × MailboxIntent × Option Timestamp :=
  (row.id, row.localPart, row.intent, row.desiredDeletedAt)

theorem declaration_updateId {id : MailboxId} (hid : ∀ row, (f row).id = row.id)
    (hkey : ∀ row, (f row).localPart = row.localPart)
    (h : ∀ row, declaration (f row) = declaration row) :
    (mailboxes.updateId id f hid hkey).rows.map declaration =
      mailboxes.rows.map declaration := by
  unfold updateId update
  rw [List.map_map]
  refine List.map_congr_left fun other _ => ?_
  simp only [Function.comp]
  split_ifs
  · exact h other
  · rfl

end MailboxRows

structure AddressView where
  account : Bool
  rules : List MailRoutingRule
  operation : Option ProviderOperationRow
  row : Option MailboxRow

/-- What belongs to no declared address, and how the rows are declared. -/
structure MailFrame where
  users : List String
  rules : List MailRoutingRule
  declarations : List (MailboxId × String × MailboxIntent × Option Timestamp)

namespace MailDomain

variable (domain : MailDomain)

section Spec

def rulesAt (account : MailAccount) (localPart : String) : List MailRoutingRule :=
  account.rules.filter fun rule => rule.domainName = domain.name ∧ rule.matchUser = localPart

def view (s : MailState) (localPart : String) : AddressView where
  account := domain.address localPart ∈ s.account.users
  rules := domain.rulesAt s.account localPart
  operation := s.operations.get (domain.userCreate localPart).key
  row := s.mailboxes.get localPart

def foreignUsers (declared : List String) (account : MailAccount) : List String :=
  account.users.filter fun user => user ∉ declared.map domain.address

def foreignRules (declared : List String) (account : MailAccount) : List MailRoutingRule :=
  account.rules.filter fun rule => ¬ (rule.domainName = domain.name ∧ rule.matchUser ∈ declared)

def frame (declared : List String) (s : MailState) : MailFrame where
  users := domain.foreignUsers declared s.account
  rules := domain.foreignRules declared s.account
  declarations := s.mailboxes.rows.map MailboxRows.declaration

end Spec

variable {domain}

theorem address_injective : Function.Injective domain.address := by
  intro k l h
  have hlist := congrArg String.toList h
  simp only [address, toString, String.toList_append] at hlist
  exact String.toList_inj.1 (List.append_cancel_right (List.append_cancel_right hlist))

theorem userCreate_key_injective :
    Function.Injective fun localPart => (domain.userCreate localPart).key := by
  intro k l h
  have hlist := congrArg String.toList h
  simp only [userCreate, LedgeredCreate.key, mailUserCreate, idempotencyKey, toString,
    String.toList_append] at hlist
  have hsubject := List.append_cancel_left hlist
  exact String.toList_inj.1 (List.append_cancel_right (List.append_cancel_right hsubject))

variable {localPart : String}

theorem localPart_eq_some_iff {address : String} :
    domain.localPart address = some localPart ↔ address = domain.address localPart := by
  have haddress : (domain.address localPart).toList =
      localPart.toList ++ '@' :: domain.name.toList := by
    simp [MailDomain.address, toString, String.toList_append]
  unfold MailDomain.localPart
  rw [Option.map_eq_some_iff, ← String.toList_inj, haddress]
  constructor
  · rintro ⟨chars, hchars, rfl⟩
    obtain ⟨rest, heq, hrest⟩ := List.dropSuffix?_eq_some_iff.1 hchars
    rw [heq, beq_iff_eq.1 hrest, String.toList_ofList]
  · intro heq
    refine ⟨localPart.toList, ?_, String.ofList_toList⟩
    exact List.dropSuffix?_eq_some_iff.2 ⟨_, heq, beq_self_eq_true _⟩

theorem mem_listing_users {account : MailAccount} :
    localPart ∈ (domain.listing account).users ↔ domain.address localPart ∈ account.users := by
  simp only [listing, List.mem_filterMap, localPart_eq_some_iff, exists_eq_right]

theorem ruleFor_listing {account : MailAccount} :
    (domain.listing account).ruleFor localPart = (domain.rulesAt account localPart).getLast? := by
  unfold MailListing.ruleFor listing rulesAt
  rw [List.filter_filter]
  congr 2
  funext rule
  simp [Bool.and_comm]

variable (domain) in
structure AccountWritesAt (declared : List String) (l : String) (account account' : MailAccount) :
    Prop where
  users : ∀ k, k ≠ l → (domain.address k ∈ account'.users ↔ domain.address k ∈ account.users)
  rules : ∀ k, k ≠ l → domain.rulesAt account' k = domain.rulesAt account k
  foreignUsers : domain.foreignUsers declared account' = domain.foreignUsers declared account
  foreignRules : domain.foreignRules declared account' = domain.foreignRules declared account

section Account

variable {declared : List String} {account : MailAccount} {l : String}

theorem createUser_writesAt (hl : l ∈ declared) :
    domain.AccountWritesAt declared l account (account.createUser (domain.address l)) where
  users k hk := by simp [MailAccount.createUser, address_injective.eq_iff, hk]
  rules _ _ := rfl
  foreignUsers := by
    have hmem : domain.address l ∈ declared.map domain.address := List.mem_map_of_mem hl
    simp only [MailDomain.foreignUsers, MailAccount.createUser, List.filter_append]
    simp [-List.mem_map, hmem]
  foreignRules := rfl

theorem deleteUser_writesAt (hl : l ∈ declared) :
    domain.AccountWritesAt declared l account (account.deleteUser (domain.address l)) where
  users k hk := by simp [MailAccount.deleteUser, address_injective.eq_iff, hk]
  rules _ _ := rfl
  foreignUsers := by
    simp only [MailDomain.foreignUsers, MailAccount.deleteUser, List.filter_filter]
    refine List.filter_congr fun user _ => ?_
    by_cases huser : user = domain.address l
    · simp [huser, List.mem_map_of_mem hl]
    · simp [huser]
  foreignRules := rfl

theorem rulesAt_createRoutingRule {targets : List String} {catchall : Bool} {k : String} :
    domain.rulesAt (account.createRoutingRule domain.provider ⟨domain.name, l, targets, catchall⟩)
        k = domain.rulesAt account k ++ if k = l then
          [account.newRule domain.provider ⟨domain.name, l, targets, catchall⟩] else [] := by
  unfold rulesAt MailAccount.createRoutingRule
  rw [List.filter_append]
  by_cases hk : k = l
  · simp [MailAccount.newRule, hk]
  · simp [MailAccount.newRule, hk, Ne.symm hk]

theorem createRoutingRule_writesAt (targets : List String) (catchall : Bool) (hl : l ∈ declared) :
    domain.AccountWritesAt declared l account
      (account.createRoutingRule domain.provider ⟨domain.name, l, targets, catchall⟩) where
  users _ _ := Iff.rfl
  rules k hk := by rw [rulesAt_createRoutingRule, if_neg hk, List.append_nil]
  foreignUsers := rfl
  foreignRules := by
    unfold MailDomain.foreignRules MailAccount.createRoutingRule
    rw [List.filter_append]
    simp [MailAccount.newRule, hl]

variable {rule : MailRoutingRule}

theorem rulesAt_deleteRoutingRule {k : String} (h : (domain.rulesAt account l).getLast? = some rule)
    :
    domain.rulesAt (account.deleteRoutingRule rule.id) k =
      if k = l then (domain.rulesAt account l).dropLast else domain.rulesAt account k := by
  have hnumbered : ((domain.rulesAt account k).map (·.id)).Nodup :=
    account.numbered.sublist (List.filter_sublist.map _)
  obtain ⟨before, hbefore⟩ := List.getLast?_eq_some_iff.1 h
  have hrule : rule ∈ domain.rulesAt account l := by simp [hbefore]
  have hcomm : domain.rulesAt (account.deleteRoutingRule rule.id) k =
      (domain.rulesAt account k).filter (·.id ≠ rule.id) := by
    simp only [rulesAt, MailAccount.deleteRoutingRule, List.filter_filter, Bool.and_comm]
  rw [hcomm]
  split_ifs with hk
  · subst hk
    rw [hbefore, List.map_append, List.nodup_append] at hnumbered
    rw [hbefore, List.dropLast_concat, List.filter_append]
    have hkept : ∀ other ∈ before, other.id ≠ rule.id := fun other hother =>
      hnumbered.2.2 _ (List.mem_map_of_mem hother) _ (by simp)
    rw [List.filter_eq_self.2 (by simpa using hkept)]
    simp
  · refine List.filter_eq_self.2 fun other hother => ?_
    simp only [rulesAt, List.mem_filter, decide_eq_true_eq] at hother hrule
    have hne : other.id ≠ rule.id := by
      intro heq
      obtain rfl := eq_of_key account.numbered hrule.1 hother.1 heq
      exact hk (hother.2.2.symm.trans hrule.2.2)
    simpa using hne

theorem deleteRoutingRule_writesAt (hl : l ∈ declared)
    (h : (domain.rulesAt account l).getLast? = some rule) :
    domain.AccountWritesAt declared l account (account.deleteRoutingRule rule.id) where
  users _ _ := Iff.rfl
  rules k hk := by rw [rulesAt_deleteRoutingRule h, if_neg hk]
  foreignUsers := rfl
  foreignRules := by
    have hrule := List.mem_of_getLast? h
    simp only [rulesAt, List.mem_filter, decide_eq_true_eq] at hrule
    simp only [MailDomain.foreignRules, MailAccount.deleteRoutingRule, List.filter_filter]
    refine List.filter_congr fun other hother => ?_
    by_cases heq : other.id = rule.id
    · obtain rfl := eq_of_key account.numbered hrule.1 hother heq
      simp [hrule.2.1, hrule.2.2, hl]
    · simp [heq]

end Account

variable (domain) in
structure WritesAt (declared : List String) (l : String) (s s' : MailState) : Prop where
  others : ∀ k, k ≠ l → domain.view s' k = domain.view s k
  frame : domain.frame declared s' = domain.frame declared s

namespace WritesAt

variable {declared : List String} {l : String} {s s' s'' : MailState} {row : MailboxRow}

theorem refl : domain.WritesAt declared l s s := ⟨fun _ _ => rfl, rfl⟩

theorem trans (h : domain.WritesAt declared l s s') (h' : domain.WritesAt declared l s' s'') :
    domain.WritesAt declared l s s'' where
  others k hk := (h'.others k hk).trans (h.others k hk)
  frame := h'.frame.trans h.frame

theorem updateId {f : MailboxRow → MailboxRow} (hid : ∀ row, (f row).id = row.id)
    (hkey : ∀ row, (f row).localPart = row.localPart)
    (hdecl : ∀ row, MailboxRows.declaration (f row) = MailboxRows.declaration row)
    (h : s.mailboxes.get l = some row) :
    domain.WritesAt declared l s
      { s with mailboxes := s.mailboxes.updateId row.id f hid hkey } where
  others k hk := by
    unfold MailDomain.view
    rw [MailboxRows.get_updateId hid hkey h, if_neg hk]
  frame := by
    unfold MailDomain.frame
    rw [MailboxRows.declaration_updateId hid hkey hdecl]

theorem markCreated (now : Timestamp) (h : s.mailboxes.get l = some row) :
    domain.WritesAt declared l s (s.markCreated row.id now) :=
  updateId (f := (·.markCreated now)) (fun _ => rfl) (fun _ => rfl) (fun _ => rfl) h

theorem markIfMissing (now : Timestamp) (h : s.mailboxes.get l = some row) :
    domain.WritesAt declared l s (s.markIfMissing row now) := by
  unfold MailState.markIfMissing
  split_ifs
  · exact markCreated now h
  · exact refl

theorem clearCreated (h : s.mailboxes.get l = some row) :
    domain.WritesAt declared l s (s.clearCreated row.id) :=
  updateId (f := (·.clearCreated)) (fun _ => rfl) (fun _ => rfl) (fun _ => rfl) h

theorem setSecret (secretId : SecretId) (h : s.mailboxes.get l = some row) :
    domain.WritesAt declared l s (s.setSecret row.id secretId) :=
  updateId (f := (·.withSecret secretId)) (fun _ => rfl) (fun _ => rfl) (fun _ => rfl) h

theorem withOperations {operations : OperationsLedger}
    (h : ∀ key, key ≠ (domain.userCreate l).key → operations.get key = s.operations.get key) :
    domain.WritesAt declared l s (s.withOperations operations) where
  others k hk := by
    unfold MailDomain.view MailState.withOperations
    rw [h _ fun heq => hk (userCreate_key_injective heq)]
  frame := rfl

theorem withAccount {account : MailAccount}
    (h : domain.AccountWritesAt declared l s.account account) :
    domain.WritesAt declared l s (s.withAccount account) where
  others k hk := by
    unfold MailDomain.view MailState.withAccount
    simp only [h.users k hk, h.rules k hk]
  frame := by
    unfold MailDomain.frame MailState.withAccount
    simp only [h.foreignUsers, h.foreignRules]

end WritesAt

end MailDomain

/-!
## Mailbox sync converges

Every row is settled by what was read at its address. A mailbox that is not listed is made unless
the ledger's row of its create is pending or succeeded, one rule at most is replaced or removed, and
a tombstone removes what its row's kind stands for, if it was marked as created.
-/

namespace MailDomain

variable (domain : MailDomain)

section Spec

/-- What the rows ask for is there and nothing else of theirs, and what was declared by none is as
it was. -/
structure Converged (wasMailbox : String → Bool) (before after : MailState) : Prop where
  mailboxes : ∀ row ∈ after.mailboxes.rows, row.desiredDeletedAt = none → row.intent = .mailbox →
    domain.address row.localPart ∈ after.account.users
  forwarding : ∀ row ∈ after.mailboxes.rows, row.desiredDeletedAt = none →
    ∀ catchall forwardTo, row.intent = .forwarding catchall forwardTo →
      (∃ rule, domain.rulesAt after.account row.localPart = [rule] ∧
        rule.forwards catchall forwardTo = true) ∧
      (wasMailbox row.localPart = true → domain.address row.localPart ∉ after.account.users)
  removed : ∀ row ∈ after.mailboxes.rows, row.desiredDeletedAt ≠ none →
    domain.address row.localPart ∉ after.account.users ∧
      domain.rulesAt after.account row.localPart = []
  created : ∀ row ∈ after.mailboxes.rows, row.providerCreatedAt.isSome = true →
    domain.address row.localPart ∈ after.account.users ∨
      domain.rulesAt after.account row.localPart ≠ []
  users : domain.foreignUsers (before.mailboxes.rows.map (·.localPart)) after.account =
    domain.foreignUsers (before.mailboxes.rows.map (·.localPart)) before.account
  rules : domain.foreignRules (before.mailboxes.rows.map (·.localPart)) after.account =
    domain.foreignRules (before.mailboxes.rows.map (·.localPart)) before.account

/-- No mailbox is lacking whose create is pending or recorded as succeeded; no forwarding address
has two rules, or the account it once was. -/
structure Reachable (wasMailbox : String → Bool) (s : MailState) : Prop where
  mailboxes : ∀ row ∈ s.mailboxes.rows, row.desiredDeletedAt = none → row.intent = .mailbox →
    domain.address row.localPart ∈ s.account.users ∨
      ∀ operation, s.operations.get (domain.userCreate row.localPart).key = some operation →
        operation.status = .failed
  forwarding : ∀ row ∈ s.mailboxes.rows, row.desiredDeletedAt = none →
    ∀ catchall forwardTo, row.intent = .forwarding catchall forwardTo →
      (domain.rulesAt s.account row.localPart).length ≤ 1 ∧
        (wasMailbox row.localPart = true → domain.address row.localPart ∉ s.account.users)
  removed : ∀ row ∈ s.mailboxes.rows, row.desiredDeletedAt ≠ none →
    (domain.address row.localPart ∈ s.account.users →
      row.intent = .mailbox ∧ row.providerCreatedAt.isSome = true) ∧
    (domain.rulesAt s.account row.localPart = [] ∨
      (domain.rulesAt s.account row.localPart).length = 1 ∧ row.intent ≠ .mailbox ∧
        row.providerCreatedAt.isSome = true)

end Spec

variable {domain} {run : MailboxSyncRun} {seen : MailListing} {row : MailboxRow} {s : MailState}
  {declared : List String}

variable (domain seen row s) in
/-- The state is at the row's address what the run has read. -/
structure Reads : Prop where
  declared : s.mailboxes.get row.localPart = some row
  listed : row.localPart ∈ seen.users ↔ domain.address row.localPart ∈ s.account.users
  ruled : seen.ruleFor row.localPart = (domain.rulesAt s.account row.localPart).getLast?

theorem createMailbox_writesAt (h : s.mailboxes.get row.localPart = some row)
    (hl : row.localPart ∈ declared) :
    domain.WritesAt declared row.localPart s (domain.createMailbox run row s).2 := by
  have hbegun : ∀ key, key ≠ (domain.userCreate row.localPart).key →
      (s.operations.begin (domain.createInput run row.localPart) run.now).2.get key =
        s.operations.get key :=
    fun key hkey => OperationsLedger.get_begin.trans (if_neg hkey)
  have hcompleted : ∀ outcome key, key ≠ (domain.userCreate row.localPart).key →
      ((s.operations.begin (domain.createInput run row.localPart) run.now).2.complete
        (domain.userCreate row.localPart).key outcome).get key = s.operations.get key :=
    fun outcome key hkey =>
      (OperationsLedger.get_complete.trans (if_neg hkey)).trans (hbegun key hkey)
  unfold createMailbox
  dsimp only
  rcases (s.operations.begin (domain.createInput run row.localPart) run.now).1.decision
  · have hsecret : domain.WritesAt declared row.localPart s
        (s.setSecret row.id (run.secretId row.id)) := WritesAt.setSecret _ h
    have hrow : (s.setSecret row.id (run.secretId row.id)).mailboxes.get row.localPart =
        some (row.withSecret (run.secretId row.id)) :=
      (MailboxRows.get_updateId (f := (·.withSecret (run.secretId row.id))) (fun _ => rfl)
        (fun _ => rfl) h).trans (if_pos rfl)
    have hmark : ∀ t : MailState, t.mailboxes.get row.localPart =
        some (row.withSecret (run.secretId row.id)) →
        domain.WritesAt declared row.localPart t (t.markCreated row.id run.now) :=
      fun _ ht => (WritesAt.markCreated _ ht :)
    dsimp only
    split
    · exact hsecret.trans (WritesAt.withOperations (hcompleted _))
    · refine hsecret.trans ((WritesAt.withAccount (createUser_writesAt hl)).trans ?_)
      refine WritesAt.trans (WritesAt.withOperations ?_) (hmark _ hrow)
      exact hcompleted _
  · exact (WritesAt.withOperations hbegun).trans (WritesAt.markCreated _ h)
  · exact WritesAt.withOperations (hcompleted _)

variable {catchall : Bool} {forwardTo : String}

theorem createRule_writesAt (h : s.mailboxes.get row.localPart = some row)
    (hl : row.localPart ∈ declared) :
    domain.WritesAt declared row.localPart s
      (domain.createRule run row catchall forwardTo s).2 := by
  unfold createRule
  split
  · exact WritesAt.refl
  · refine (WritesAt.withAccount (createRoutingRule_writesAt [forwardTo] catchall hl)).trans ?_
    exact WritesAt.markCreated _ h

section

variable (h : domain.Reads seen row s)
include h

section

variable (hl : row.localPart ∈ declared)
include hl

theorem ensureRule_writesAt :
    domain.WritesAt declared row.localPart s
      (domain.ensureRule run seen row catchall forwardTo s).2 := by
  unfold ensureRule
  split
  · exact createRule_writesAt h.declared hl
  · next rule hrule =>
    rw [h.ruled] at hrule
    split_ifs
    · exact WritesAt.markIfMissing _ h.declared
    · split
      · exact WritesAt.refl
      · refine (WritesAt.withAccount (deleteRoutingRule_writesAt hl hrule)).trans ?_
        exact createRule_writesAt h.declared hl

theorem ensureRow_writesAt :
    domain.WritesAt declared row.localPart s (domain.ensureRow run seen row s).2 := by
  unfold ensureRow
  split
  · split_ifs
    · exact WritesAt.markIfMissing _ h.declared
    · exact createMailbox_writesAt h.declared hl
  · exact ensureRule_writesAt h hl

theorem removeRow_writesAt :
    domain.WritesAt declared row.localPart s (domain.removeRow run seen row s).2 := by
  unfold removeRow
  split
  · split_ifs
    · split
      · exact WritesAt.refl
      · exact (WritesAt.withAccount (deleteUser_writesAt hl)).trans
          (WritesAt.clearCreated h.declared)
    · exact WritesAt.clearCreated h.declared
  · split
    · exact WritesAt.clearCreated h.declared
    · next rule hrule =>
      rw [h.ruled] at hrule
      split
      · exact WritesAt.refl
      · refine (WritesAt.withAccount (deleteRoutingRule_writesAt hl hrule)).trans ?_
        exact WritesAt.clearCreated h.declared

theorem syncRow_writesAt :
    domain.WritesAt declared row.localPart s (domain.syncRow run seen row s).2 := by
  unfold syncRow
  split_ifs
  · exact ensureRow_writesAt h hl
  · exact removeRow_writesAt h hl

end

end

theorem begin_proceeds_iff (ledger : OperationsLedger) (input : BeginInput) (now : Timestamp) :
    (ledger.begin input now).1.decision = .proceed ↔
      ∀ operation, ledger.get input.key = some operation → operation.status = .failed := by
  rcases @OperationsLedger.begin_row ledger input now with
    ⟨operation, hget, -, hiff⟩ | ⟨hnone, -⟩
  · rw [hiff, hget]
    simp
  · simp [LedgerRun.begin_decision hnone, hnone]

variable {outcome : MailboxOutcome}

theorem createMailbox_effect (hok : (domain.createMailbox run row s).1 = .ok outcome)
    (hlacking : domain.address row.localPart ∉ s.account.users) :
    domain.address row.localPart ∈ (domain.createMailbox run row s).2.account.users ↔
      ∀ operation, s.operations.get (domain.userCreate row.localPart).key = some operation →
        operation.status = .failed := by
  refine Iff.trans ?_ (begin_proceeds_iff s.operations (domain.createInput run row.localPart)
    run.now)
  unfold createMailbox at hok ⊢
  dsimp only at hok ⊢
  rcases hdecision :
    (s.operations.begin (domain.createInput run row.localPart) run.now).1.decision
  · rw [hdecision] at hok
    dsimp only at hok ⊢
    rcases hrefuses : run.refuses (.createUser (domain.address row.localPart)) with _ | kind
    · simp [MailState.markCreated, MailState.withOperations, MailState.withAccount,
        MailAccount.createUser]
    · simp [hrefuses] at hok
  · exact iff_of_false hlacking nofun
  · exact iff_of_false hlacking nofun

theorem createRule_effect (hok : (domain.createRule run row catchall forwardTo s).1 = .ok outcome) :
    (domain.createRule run row catchall forwardTo s).2.account.users = s.account.users ∧
      ∃ rule, rule.forwards catchall forwardTo = true ∧
        domain.rulesAt (domain.createRule run row catchall forwardTo s).2.account row.localPart =
          domain.rulesAt s.account row.localPart ++ [rule] := by
  unfold createRule at hok ⊢
  rcases hrefuses : run.refuses (.createRoutingRule row.localPart) with _ | kind
  · refine ⟨rfl, _, ?_, rulesAt_createRoutingRule.trans (by rw [if_pos rfl])⟩
    simp [MailRoutingRule.forwards, MailAccount.newRule]
  · simp [hrefuses] at hok

theorem ensureRule_effect (h : domain.Reads seen row s)
    (hok : (domain.ensureRule run seen row catchall forwardTo s).1 = .ok outcome) :
    (domain.ensureRule run seen row catchall forwardTo s).2.account.users = s.account.users ∧
      ((∃ rule, domain.rulesAt (domain.ensureRule run seen row catchall forwardTo s).2.account
          row.localPart = [rule] ∧ rule.forwards catchall forwardTo = true) ↔
        (domain.rulesAt s.account row.localPart).length ≤ 1) := by
  unfold ensureRule at hok ⊢
  rw [h.ruled] at hok ⊢
  rcases hlast : (domain.rulesAt s.account row.localPart).getLast? with _ | rule
  · rw [hlast] at hok
    obtain ⟨husers, new, hnew, hrules⟩ := createRule_effect hok
    rw [List.getLast?_eq_none_iff.1 hlast] at hrules ⊢
    exact ⟨husers, iff_of_true ⟨new, hrules, hnew⟩ (Nat.zero_le 1)⟩
  · rw [hlast] at hok
    obtain ⟨before, hbefore⟩ := List.getLast?_eq_some_iff.1 hlast
    dsimp only at hok ⊢
    by_cases hforwards : rule.forwards catchall forwardTo = true
    · have haccount : (s.markIfMissing row run.now).account = s.account := by
        unfold MailState.markIfMissing
        split_ifs <;> rfl
      rw [if_pos hforwards, haccount, hbefore]
      refine ⟨rfl, ?_⟩
      constructor
      · rintro ⟨other, hother, -⟩
        simp [hother]
      · intro hlength
        have hnil : before = [] := List.length_eq_zero_iff.1 (by simpa using hlength)
        exact ⟨rule, by rw [hnil, List.nil_append], hforwards⟩
    · rw [if_neg hforwards] at hok ⊢
      rcases hrefuses : run.refuses (.deleteRoutingRule rule.id) with _ | kind
      · rw [hrefuses] at hok
        obtain ⟨husers, new, hnew, hrules⟩ := createRule_effect hok
        dsimp only at hrules ⊢
        rw [hrules]
        refine ⟨husers, ?_⟩
        unfold MailState.withAccount
        dsimp only
        rw [rulesAt_deleteRoutingRule hlast, if_pos rfl, hbefore, List.dropLast_concat]
        constructor
        · rintro ⟨other, hother, -⟩
          have hlength := congrArg List.length hother
          simpa using hlength
        · intro hlength
          have hnil : before = [] := List.length_eq_zero_iff.1 (by simpa using hlength)
          exact ⟨new, by rw [hnil, List.nil_append], hnew⟩
      · simp [hrefuses] at hok

theorem removeRow_effect (h : domain.Reads seen row s)
    (hok : (domain.removeRow run seen row s).1 = .ok outcome) :
    (domain.address row.localPart ∈ (domain.removeRow run seen row s).2.account.users ↔
      domain.address row.localPart ∈ s.account.users ∧ row.intent ≠ .mailbox) ∧
    domain.rulesAt (domain.removeRow run seen row s).2.account row.localPart =
      (if row.intent = .mailbox then domain.rulesAt s.account row.localPart
      else (domain.rulesAt s.account row.localPart).dropLast) ∧
    (domain.removeRow run seen row s).2.mailboxes = s.mailboxes.clearCreated row.id := by
  unfold removeRow at hok ⊢
  rcases hintent : row.intent with _ | ⟨catchall, forwardTo⟩
  · simp only [hintent] at hok ⊢
    by_cases hlisted : row.localPart ∈ seen.users
    · rw [if_pos hlisted] at hok ⊢
      rcases hrefuses : run.refuses (.deleteUser (domain.address row.localPart)) with _ | kind
      · exact ⟨by simp [MailState.clearCreated, MailState.withAccount, MailAccount.deleteUser],
          (if_pos trivial).symm, rfl⟩
      · simp [hrefuses] at hok
    · rw [if_neg hlisted]
      refine ⟨?_, (if_pos trivial).symm, rfl⟩
      exact iff_of_false (fun huser => hlisted (h.listed.2 huser)) (by simp)
  · simp only [hintent, h.ruled] at hok ⊢
    rcases hlast : (domain.rulesAt s.account row.localPart).getLast? with _ | rule
    · refine ⟨(and_iff_left nofun).symm, ?_, rfl⟩
      rw [if_neg nofun, List.getLast?_eq_none_iff.1 hlast]
      exact List.getLast?_eq_none_iff.1 hlast
    · rw [hlast] at hok
      dsimp only at hok ⊢
      rcases hrefuses : run.refuses (.deleteRoutingRule rule.id) with _ | kind
      · refine ⟨(and_iff_left nofun).symm, ?_, rfl⟩
        rw [if_neg nofun]
        exact (rulesAt_deleteRoutingRule hlast).trans (if_pos rfl)
      · simp [hrefuses] at hok

def Synced (row : MailboxRow) (read after : AddressView) : Prop :=
  match row.desiredDeletedAt, row.intent with
  | none, .mailbox => after.account = true ↔ read.account = true ∨
      ∀ operation, read.operation = some operation → operation.status = .failed
  | none, .forwarding catchall forwardTo => after.account = read.account ∧
      ((∃ rule, after.rules = [rule] ∧ rule.forwards catchall forwardTo = true) ↔
        read.rules.length ≤ 1)
  | some _, intent => (after.account = true ↔ read.account = true ∧ intent ≠ .mailbox) ∧
      (after.rules = [] ↔ read.rules = [] ∨ read.rules.length = 1 ∧ intent ≠ .mailbox) ∧
      ∀ row', after.row = some row' → row'.providerCreatedAt = none

theorem syncRow_effect (h : domain.Reads seen row s)
    (hok : (domain.syncRow run seen row s).1 = .ok outcome) :
    Synced row (domain.view s row.localPart)
      (domain.view (domain.syncRow run seen row s).2 row.localPart) := by
  unfold syncRow at hok ⊢
  unfold Synced view
  rcases hdeleted : row.desiredDeletedAt with _ | deletedAt
  · rw [hdeleted, Option.isNone_none, if_pos rfl] at hok
    rw [Option.isNone_none, if_pos rfl]
    unfold ensureRow at hok ⊢
    rcases hintent : row.intent with _ | ⟨catchall, forwardTo⟩
    · simp only [hintent] at hok ⊢
      simp only [decide_eq_true_eq]
      by_cases hlisted : row.localPart ∈ seen.users
      · have huser := h.listed.1 hlisted
        have haccount : (s.markIfMissing row run.now).account = s.account := by
          unfold MailState.markIfMissing
          split_ifs <;> rfl
        rw [if_pos hlisted, haccount]
        exact iff_of_true huser (.inl huser)
      · have huser := fun huser => hlisted (h.listed.2 huser)
        rw [if_neg hlisted] at hok ⊢
        rw [createMailbox_effect hok huser, or_iff_right huser]
    · simp only [hintent] at hok ⊢
      obtain ⟨husers, hrules⟩ := ensureRule_effect h hok
      exact ⟨by rw [husers], hrules⟩
  · rw [hdeleted, Option.isNone_some, if_neg Bool.false_ne_true] at hok
    rw [Option.isNone_some, if_neg Bool.false_ne_true]
    obtain ⟨haccount, hrules, hrows⟩ := removeRow_effect h hok
    dsimp only
    refine ⟨by simpa using haccount, ?_, fun row' hrow' => ?_⟩
    · rw [hrules]
      split_ifs with hintent
      · simp [hintent]
      · rcases domain.rulesAt s.account row.localPart with _ | ⟨rule, _ | ⟨other, rest⟩⟩ <;>
          simp [hintent]
    · rw [hrows] at hrow'
      have hget := (MailboxRows.get_updateId (f := (·.clearCreated)) (k := row.localPart)
        (fun _ => rfl) (fun _ => rfl) h.declared).trans (if_pos rfl)
      rw [← Option.some_inj.1 (hget.symm.trans hrow')]
      rfl

def workedOn (s : MailState) : List MailboxRow := s.mailboxes.live ++ s.mailboxes.pendingRemovals

theorem mem_workedOn : row ∈ workedOn s ↔ row ∈ s.mailboxes.rows ∧
    (row.desiredDeletedAt = none ∨ row.providerCreatedAt.isSome = true) := by
  unfold workedOn MailboxRows.live MailboxRows.pendingRemovals
  rw [List.mem_append, List.mem_filter, List.mem_filter]
  rcases row.desiredDeletedAt with _ | deletedAt <;> simp

theorem workedOn_keyed (s : MailState) : ((workedOn s).map (·.localPart)).Nodup := by
  have hrows : s.mailboxes.rows.Nodup := s.mailboxes.keyed.of_map _
  refine List.Nodup.map_on (fun row hrow row' hrow' heq => ?_) ?_
  · exact eq_of_key s.mailboxes.keyed (mem_workedOn.1 hrow').1 (mem_workedOn.1 hrow).1 heq
  · refine (hrows.filter _).append (hrows.filter _) fun row hlive hpending => ?_
    have hnone := (List.mem_filter.1 hlive).2
    have hsome := (List.mem_filter.1 hpending).2
    rcases hdeleted : row.desiredDeletedAt <;> simp [hdeleted] at hnone hsome

theorem reads_of_view {s₀ : MailState} (hrow : row ∈ s₀.mailboxes.rows)
    (h : domain.view s row.localPart = domain.view s₀ row.localPart) :
    domain.Reads (domain.listing s₀.account) row s where
  declared := (congrArg AddressView.row h).trans
    (MailboxRows.get_eq_some_iff.2 ⟨hrow, rfl⟩)
  listed := by
    rw [mem_listing_users]
    exact (decide_eq_decide.1 (congrArg AddressView.account h)).symm
  ruled := by
    rw [ruleFor_listing]
    exact congrArg List.getLast? (congrArg AddressView.rules h).symm

section Sweep

variable {s₀ : MailState}

theorem syncRow_confined (hrow : row ∈ workedOn s₀) :
    Confined (domain.syncRow run (domain.listing s₀.account)) (·.localPart) domain.view
      (domain.frame (s₀.mailboxes.rows.map (·.localPart))) (domain.view s₀) row := by
  have hmem := (mem_workedOn.1 hrow).1
  have hdeclared := List.mem_map_of_mem (f := (·.localPart)) hmem
  exact ⟨fun s h => (syncRow_writesAt (reads_of_view hmem h) hdeclared).others,
    fun s h => (syncRow_writesAt (reads_of_view hmem h) hdeclared).frame⟩

structure Swept (s₀ s : MailState) : Prop where
  synced : ∀ row ∈ workedOn s₀,
    Synced row (domain.view s₀ row.localPart) (domain.view s row.localPart)
  others : ∀ l, l ∉ (workedOn s₀).map (·.localPart) → domain.view s l = domain.view s₀ l
  frame : domain.frame (s₀.mailboxes.rows.map (·.localPart)) s =
    domain.frame (s₀.mailboxes.rows.map (·.localPart)) s₀

theorem swept_of_ok {outcomes : List MailboxOutcome}
    (hok : (sweep (domain.syncRow run (domain.listing s₀.account)) (workedOn s₀) s₀).1 =
      .ok outcomes) :
    domain.Swept s₀
      (sweep (domain.syncRow run (domain.listing s₀.account)) (workedOn s₀) s₀).2 := by
  have hconfined : ∀ row ∈ workedOn s₀, Confined (domain.syncRow run (domain.listing s₀.account))
      (·.localPart) domain.view (domain.frame (s₀.mailboxes.rows.map (·.localPart)))
      (domain.view s₀) row := fun row hrow => syncRow_confined hrow
  have hkeyed := workedOn_keyed s₀
  refine ⟨?_, Sweep.sweep_others hconfined hkeyed fun _ _ => rfl,
    Sweep.sweep_frame hconfined hkeyed fun _ _ => rfl⟩
  refine Sweep.sweep_effect (R := fun row after =>
    Synced row (domain.view s₀ row.localPart) after) hconfined ?_ hkeyed (fun _ _ => rfl) hok
  intro row hrow s outcome hview hok
  have hsynced := syncRow_effect (reads_of_view (mem_workedOn.1 hrow).1 hview) hok
  rwa [hview] at hsynced

section

variable (h : domain.Swept s₀ s)
include h

theorem Swept.forall_declared (Q : MailboxId × String × MailboxIntent × Option Timestamp → Prop) :
    (∀ row ∈ s.mailboxes.rows, Q (MailboxRows.declaration row)) ↔
      ∀ row ∈ s₀.mailboxes.rows, Q (MailboxRows.declaration row) := by
  have hdeclarations : s.mailboxes.rows.map MailboxRows.declaration =
      s₀.mailboxes.rows.map MailboxRows.declaration := congrArg MailFrame.declarations h.frame
  exact (List.forall_mem_map.symm.trans (by rw [hdeclarations])).trans List.forall_mem_map

theorem Swept.declared_before (hrow : row ∈ s.mailboxes.rows) :
    ∃ row₀ ∈ s₀.mailboxes.rows, MailboxRows.declaration row₀ = MailboxRows.declaration row :=
  (h.forall_declared fun d => ∃ row₀ ∈ s₀.mailboxes.rows, MailboxRows.declaration row₀ = d).2
    (fun row₀ hrow₀ => ⟨row₀, hrow₀, rfl⟩) row hrow

theorem Swept.mailbox_iff (hrow : row ∈ s₀.mailboxes.rows) (hlive : row.desiredDeletedAt = none)
    (hintent : row.intent = .mailbox) :
    domain.address row.localPart ∈ s.account.users ↔
      domain.address row.localPart ∈ s₀.account.users ∨
        ∀ operation, s₀.operations.get (domain.userCreate row.localPart).key = some operation →
          operation.status = .failed := by
  have hsynced := h.synced row (mem_workedOn.2 ⟨hrow, .inl hlive⟩)
  simp only [Synced, hlive, hintent, view, decide_eq_true_eq] at hsynced
  exact hsynced

theorem Swept.forwarding_iff (hrow : row ∈ s₀.mailboxes.rows) (hlive : row.desiredDeletedAt = none)
    {catchall : Bool} {forwardTo : String} (hintent : row.intent = .forwarding catchall forwardTo) :
    (domain.address row.localPart ∈ s.account.users ↔
      domain.address row.localPart ∈ s₀.account.users) ∧
    ((∃ rule, domain.rulesAt s.account row.localPart = [rule] ∧
        rule.forwards catchall forwardTo = true) ↔
      (domain.rulesAt s₀.account row.localPart).length ≤ 1) := by
  have hsynced := h.synced row (mem_workedOn.2 ⟨hrow, .inl hlive⟩)
  simp only [Synced, hlive, hintent, view, decide_eq_decide] at hsynced
  exact hsynced

theorem Swept.removed_iff (hrow : row ∈ s₀.mailboxes.rows) (hdeleted : row.desiredDeletedAt ≠ none)
    :
    (domain.address row.localPart ∉ s.account.users ∧
        domain.rulesAt s.account row.localPart = [] ↔
      (domain.address row.localPart ∈ s₀.account.users →
        row.intent = .mailbox ∧ row.providerCreatedAt.isSome = true) ∧
      (domain.rulesAt s₀.account row.localPart = [] ∨
        (domain.rulesAt s₀.account row.localPart).length = 1 ∧ row.intent ≠ .mailbox ∧
          row.providerCreatedAt.isSome = true)) ∧
    ∀ row', s.mailboxes.get row.localPart = some row' → row'.providerCreatedAt = none := by
  obtain ⟨deletedAt, hdeletedAt⟩ := Option.ne_none_iff_exists'.1 hdeleted
  rcases hcreated : row.providerCreatedAt with _ | createdAt
  · have hout : row.localPart ∉ (workedOn s₀).map (·.localPart) := by
      intro hmem
      obtain ⟨other, hother, hpart⟩ := List.mem_map.1 hmem
      obtain rfl := eq_of_key s₀.mailboxes.keyed hrow (mem_workedOn.1 hother).1 hpart
      simpa [hcreated, hdeletedAt] using (mem_workedOn.1 hother).2
    have hview := h.others _ hout
    have haccount := decide_eq_decide.1 (congrArg AddressView.account hview)
    have hrules : domain.rulesAt s.account row.localPart =
        domain.rulesAt s₀.account row.localPart := congrArg AddressView.rules hview
    have hrows : s.mailboxes.get row.localPart = s₀.mailboxes.get row.localPart :=
      congrArg AddressView.row hview
    refine ⟨by simp [haccount, hrules], fun row' hrow' => ?_⟩
    have hsame := hrows.trans (MailboxRows.get_eq_some_iff.2 ⟨hrow, rfl⟩)
    rw [← Option.some_inj.1 (hsame.symm.trans hrow')]
    exact hcreated
  · have hsynced := h.synced row (mem_workedOn.2 ⟨hrow, .inr (by simp [hcreated])⟩)
    simp only [Synced, hdeletedAt, view, decide_eq_true_eq] at hsynced
    obtain ⟨haccount, hrules, hrows⟩ := hsynced
    refine ⟨?_, hrows⟩
    rw [haccount, hrules]
    simp

theorem Swept.converged_iff {wasMailbox : String → Bool} :
    domain.Converged wasMailbox s₀ s ↔ domain.Reachable wasMailbox s₀ := by
  have hmailboxes := h.forall_declared fun d => d.2.2.2 = none → d.2.2.1 = .mailbox →
    domain.address d.2.1 ∈ s.account.users
  have hforwarding := h.forall_declared fun d => d.2.2.2 = none → ∀ catchall forwardTo,
    d.2.2.1 = .forwarding catchall forwardTo →
      (∃ rule, domain.rulesAt s.account d.2.1 = [rule] ∧
        rule.forwards catchall forwardTo = true) ∧
      (wasMailbox d.2.1 = true → domain.address d.2.1 ∉ s.account.users)
  have hremoved := h.forall_declared fun d => d.2.2.2 ≠ none →
    domain.address d.2.1 ∉ s.account.users ∧ domain.rulesAt s.account d.2.1 = []
  constructor
  · intro hconverged
    refine ⟨fun row hrow hlive hintent => ?_, fun row hrow hlive catchall forwardTo hintent => ?_,
      fun row hrow hdeleted => ?_⟩
    · exact (h.mailbox_iff hrow hlive hintent).1
        (hmailboxes.1 hconverged.mailboxes row hrow hlive hintent)
    · obtain ⟨hrule, hwas⟩ := hforwarding.1 hconverged.forwarding row hrow hlive _ _ hintent
      obtain ⟨haccount, hiff⟩ := h.forwarding_iff hrow hlive hintent
      exact ⟨hiff.1 hrule, fun hw => mt haccount.2 (hwas hw)⟩
    · exact (h.removed_iff hrow hdeleted).1.1 (hremoved.1 hconverged.removed row hrow hdeleted)
  · intro hreachable
    have hmailboxes' := hmailboxes.2 fun row hrow hlive hintent =>
      (h.mailbox_iff hrow hlive hintent).2 (hreachable.mailboxes row hrow hlive hintent)
    have hforwarding' := hforwarding.2 fun row hrow hlive catchall forwardTo hintent => by
      obtain ⟨hrules, hwas⟩ := hreachable.forwarding row hrow hlive _ _ hintent
      obtain ⟨haccount, hiff⟩ := h.forwarding_iff hrow hlive hintent
      exact ⟨hiff.2 hrules, fun hw => mt haccount.1 (hwas hw)⟩
    refine ⟨hmailboxes', hforwarding', hremoved.2 fun row hrow hdeleted =>
      (h.removed_iff hrow hdeleted).1.2 (hreachable.removed row hrow hdeleted), ?_,
      congrArg MailFrame.users h.frame, congrArg MailFrame.rules h.frame⟩
    intro row hrow hcreated
    rcases hdeleted : row.desiredDeletedAt with _ | deletedAt
    · rcases hintent : row.intent with _ | ⟨catchall, forwardTo⟩
      · exact .inl (hmailboxes' row hrow hdeleted hintent)
      · obtain ⟨⟨rule, hrule, -⟩, -⟩ := hforwarding' row hrow hdeleted _ _ hintent
        exact .inr (ne_of_eq_of_ne hrule (List.cons_ne_nil _ _))
    · obtain ⟨row₀, hrow₀, hsame⟩ := h.declared_before hrow
      simp only [MailboxRows.declaration, Prod.mk.injEq] at hsame
      have hdeleted₀ : row₀.desiredDeletedAt ≠ none := by simp [hsame.2.2.2, hdeleted]
      have hget := MailboxRows.get_eq_some_iff.2 ⟨hrow, hsame.2.1.symm⟩
      rw [(h.removed_iff hrow₀ hdeleted₀).2 row hget] at hcreated
      cases hcreated

end

end Sweep

theorem runMailboxSync_cases {result : MailboxSyncResult}
    (hok : (domain.runMailboxSync run s).1 = .ok result) (hsucceeded : result.status = .succeeded) :
    s.ownershipVerifiedAt = none ∧ (domain.runMailboxSync run s).2 = s ∨
      s.ownershipVerifiedAt ≠ none ∧ domain.Swept s (domain.runMailboxSync run s).2 := by
  rcases hverified : s.ownershipVerifiedAt with _ | verifiedAt
  · exact .inl ⟨rfl, by simp [runMailboxSync, hverified]⟩
  · refine .inr ⟨nofun, ?_⟩
    unfold runMailboxSync at hok ⊢
    rw [hverified, Option.isNone_some, if_neg Bool.false_ne_true] at hok ⊢
    rcases hread : run.refuses .listUsers with _ | kind
    · rcases hread' : run.refuses .listRoutingRules with _ | kind
      · simp only [hread, hread'] at hok ⊢
        split_ifs at hok ⊢ with hblocked
        · cases hok
          cases hsucceeded
        · rcases hsweep : sweep (domain.syncRow run (domain.listing s.account)) (workedOn s) s with
            ⟨_ | outcomes, s'⟩
          · simp [workedOn] at hsweep
            simp [hsweep] at hok
          · have hswept := swept_of_ok (congrArg Prod.fst hsweep)
            rw [hsweep] at hswept
            simp only [workedOn] at hsweep
            simpa only [hsweep] using hswept
      · simp [hread, hread'] at hok
    · simp [hread] at hok

section Spec

variable (domain) (s : MailHistory)

def SyncConverges : MailAction → Prop
  | .runMailboxSync run => ∀ result, (domain.runMailboxSync run s.toMailState).1 = .ok result →
      result.status = .succeeded →
      domain.Converged s.wasMailbox s.toMailState (domain.runMailboxSync run s.toMailState).2
  | _ => True

def SyncIsReady : MailAction → Prop
  | .runMailboxSync run => ∀ result, (domain.runMailboxSync run s.toMailState).1 = .ok result →
      result.status = .succeeded →
      if s.ownershipVerifiedAt = none then
        domain.Converged s.wasMailbox s.toMailState s.toMailState
      else domain.Reachable s.wasMailbox s.toMailState
  | _ => True

end Spec

theorem syncConverges_iff (s : MailHistory) (a : MailAction) :
    domain.SyncConverges s a ↔ domain.SyncIsReady s a := by
  rcases a with _ | _ | _ | run | _
  case runMailboxSync =>
    refine forall_congr' fun result => forall₂_congr fun hok hsucceeded => ?_
    rcases runMailboxSync_cases hok hsucceeded with ⟨hnone, hsame⟩ | ⟨hverified, hswept⟩
    · rw [if_pos hnone, hsame]
    · rw [if_neg hverified]
      exact hswept.converged_iff
  all_goals exact Iff.rfl

/-- In every history of a mail domain each sync that succeeds leaves it converged exactly if each
finds no address that is beyond it. -/
theorem sync_converges_iff (domain : MailDomain) (ownershipVerifiedAt : Option Timestamp)
    (operations : OperationsLedger) (account : MailAccount) (actions : List MailAction) :
    Runs.Meets (MailHistory.step · domain) domain.SyncConverges
        (.start ownershipVerifiedAt operations account) actions ↔
      Runs.Meets (MailHistory.step · domain) domain.SyncIsReady
        (.start ownershipVerifiedAt operations account) actions :=
  Runs.meets_iff_meets (fun _ _ (_ : True) => trivial) (fun s a _ => syncConverges_iff s a) trivial

def exampleMail : MailDomain where
  name := "example.com"
  provider :=
    { name := "purelymail"
      newRuleId := fun taken => taken.sum + 1
      fresh := fun _ hmem => absurd (List.le_sum_of_mem hmem) (Nat.not_succ_le_self _) }

def manualSync : MailboxSyncRun where
  trigger := .manual
  runId := 1
  now := LedgerRun.noon
  secretId := id
  refuses _ := none

def declaredAgain : List MailAction :=
  [.addMailbox 1 ⟨"info", .mailbox, none⟩, .runMailboxSync manualSync,
    .removeMailbox 1 LedgerRun.noon, .runMailboxSync manualSync,
    .addMailbox 2 ⟨"info", .mailbox, none⟩, .runMailboxSync manualSync]

theorem declared_again_lacking : ¬ ∀ (domain : MailDomain) (ownershipVerifiedAt : Option Timestamp)
    (operations : OperationsLedger) (account : MailAccount) (actions : List MailAction),
    Runs.Meets (MailHistory.step · domain) domain.SyncConverges
      (.start ownershipVerifiedAt operations account) actions := by
  intro hall
  have hmeets := hall exampleMail (some LedgerRun.noon) .empty ⟨[], [], .nil⟩ declaredAgain
  have hlast := hmeets.2.2.2.2.2.1
  have hconverged := hlast { runId := 1, status := .succeeded } (by decide +kernel) rfl
  have hrow := hconverged.mailboxes
    ⟨1, "info", .mailbox, some 1, some LedgerRun.noon, none⟩ (by decide +kernel) rfl rfl
  exact absurd hrow (by decide +kernel)

end MailDomain

end Loxep
