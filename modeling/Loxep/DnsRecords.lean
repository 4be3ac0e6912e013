import Mathlib.Data.String.Basic

/-!
# Desired and observed DNS records

Both sides are grouped by type and name; within a group equal contents are matched first, and what
is left is paired by position. An apply run creates what is missing, updates what is modified and
deletes what a tombstone names, and leaves every manual row alone.
-/

namespace Loxep

abbrev DnsRecordId := ℕ

/-- A record type or a name in a zone: a text without a blank. -/
structure DnsLabel where
  text : String
  plain : ' ' ∉ text.toList
  deriving DecidableEq

namespace DnsLabel

theorem apex_plain : ' ' ∉ "@".toList := by decide

theorem a_plain : ' ' ∉ "A".toList := by decide

theorem mx_plain : ' ' ∉ "MX".toList := by decide

theorem txt_plain : ' ' ∉ "TXT".toList := by decide

end DnsLabel

inductive DnsRecordOwner
  | apex
  | wildcard
  | caa
  | mail
  | proxyResource
  | manual
  deriving DecidableEq

/-- A row of desired state, as the diff sees it. -/
structure IntentRecord where
  id : DnsRecordId
  type : DnsLabel
  name : DnsLabel
  content : String
  ttlSeconds : Option ℤ
  priority : Option ℤ
  proxied : Bool
  owner : DnsRecordOwner
  externalRecordId : Option String

structure ObservedDnsRecord where
  externalRecordId : String
  type : DnsLabel
  name : DnsLabel
  content : String
  ttlSeconds : Option ℤ
  priority : Option ℤ
  proxied : Bool
  proxiable : Bool
  deriving DecidableEq

structure DnsRecordPayload where
  type : DnsLabel
  name : DnsLabel
  content : String
  ttlSeconds : Option ℤ
  priority : Option ℤ
  proxied : Bool
  deriving DecidableEq

inductive DnsApplyOperation
  | create (record : DnsRecordPayload)
  | update (externalRecordId : String) (record : DnsRecordPayload)
  | delete (externalRecordId : String) (type name : DnsLabel) (content : String)
  deriving DecidableEq

inductive DnsAttribute
  | content
  | proxied
  | ttlSeconds
  | priority

def changedAttributes (intent : IntentRecord) (observed : ObservedDnsRecord) :
    List DnsAttribute :=
  (if intent.content ≠ observed.content then [.content] else []) ++
    (if intent.proxied ≠ observed.proxied then [.proxied] else []) ++
    (if intent.ttlSeconds ≠ observed.ttlSeconds then [.ttlSeconds] else []) ++
    (if intent.priority ≠ observed.priority then [.priority] else [])

structure ModifiedDiff where
  intent : IntentRecord
  observed : ObservedDnsRecord
  changed : List DnsAttribute

structure UnchangedDiff where
  intent : IntentRecord
  observed : ObservedDnsRecord

structure DnsDiff where
  missing : List IntentRecord
  modified : List ModifiedDiff
  unexpected : List ObservedDnsRecord
  unchanged : List UnchangedDiff

def DnsDiff.join (diffs : List DnsDiff) : DnsDiff :=
  ⟨diffs.flatMap (·.missing), diffs.flatMap (·.modified), diffs.flatMap (·.unexpected),
    diffs.flatMap (·.unchanged)⟩

def pairKey (type name : DnsLabel) : String := s!"{type.text} {name.text}"

def IntentRecord.pairKey (r : IntentRecord) : String := Loxep.pairKey r.type r.name

def ObservedDnsRecord.pairKey (o : ObservedDnsRecord) : String := Loxep.pairKey o.type o.name

/-- The exact matches of a group, and what they leave of both sides. -/
structure ContentMatches where
  matched : List (IntentRecord × ObservedDnsRecord)
  unmatchedIntent : List IntentRecord
  leftoverObserved : List ObservedDnsRecord

def matchByContent : List IntentRecord → List ObservedDnsRecord → ContentMatches
  | [], observed => ⟨[], [], observed⟩
  | r :: intent, observed =>
    match observed.find? (·.content == r.content) with
    | none =>
      let rest := matchByContent intent observed
      ⟨rest.matched, r :: rest.unmatchedIntent, rest.leftoverObserved⟩
    | some o =>
      let rest := matchByContent intent (observed.eraseP (·.content == r.content))
      ⟨(r, o) :: rest.matched, rest.unmatchedIntent, rest.leftoverObserved⟩

def ContentMatches.paired (m : ContentMatches) : List (IntentRecord × ObservedDnsRecord) :=
  m.unmatchedIntent.zip m.leftoverObserved

def modifiedOf (p : IntentRecord × ObservedDnsRecord) : ModifiedDiff :=
  ⟨p.1, p.2, changedAttributes p.1 p.2⟩

def diffGroup (intent : List IntentRecord) (observed : List ObservedDnsRecord) : DnsDiff :=
  let m := matchByContent intent observed
  { missing := m.unmatchedIntent.drop m.leftoverObserved.length
    modified := (m.matched.filter fun p => changedAttributes p.1 p.2 ≠ []).map modifiedOf ++
      m.paired.map modifiedOf
    unexpected := m.leftoverObserved.drop m.unmatchedIntent.length
    unchanged := (m.matched.filter fun p => changedAttributes p.1 p.2 = []).map fun p =>
      ⟨p.1, p.2⟩ }

def intentKeys (intent : List IntentRecord) : List String :=
  (intent.map (·.pairKey)).eraseDups

def unmentioned (intent : List IntentRecord) (observed : List ObservedDnsRecord) :
    List ObservedDnsRecord :=
  let others := observed.filter (·.pairKey ∉ intent.map (·.pairKey))
  (others.map (·.pairKey)).eraseDups.flatMap fun key => others.filter (·.pairKey == key)

def diffDnsRecords (intent : List IntentRecord) (observed : List ObservedDnsRecord) : DnsDiff :=
  let groups := DnsDiff.join ((intentKeys intent).map fun key =>
    diffGroup (intent.filter (·.pairKey == key)) (observed.filter (·.pairKey == key)))
  { groups with unexpected := groups.unexpected ++ unmentioned intent observed }

structure Tombstone where
  intent : IntentRecord
  observed : ObservedDnsRecord

def IntentRecord.payload (r : IntentRecord) : DnsRecordPayload :=
  ⟨r.type, r.name, r.content, r.ttlSeconds, r.priority, r.proxied⟩

def applyOperationsFor (diff : DnsDiff) (tombstones : List Tombstone) : List DnsApplyOperation :=
  ((diff.missing.filter (·.owner ≠ .manual)).map fun r => .create r.payload) ++
    ((diff.modified.filter (·.intent.owner ≠ .manual)).map fun e =>
      .update e.observed.externalRecordId e.intent.payload) ++
    (tombstones.filter (·.intent.owner ≠ .manual)).map fun t =>
      .delete t.observed.externalRecordId t.intent.type t.intent.name t.intent.content

/-- `assertNoUnexpectedDeletions`. -/
def noUnexpectedDeletions (diff : DnsDiff) (operations : List DnsApplyOperation) : Bool :=
  operations.all fun
    | .delete id _ _ _ => decide (id ∉ diff.unexpected.map (·.externalRecordId))
    | _ => true

end Loxep
