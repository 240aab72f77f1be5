import Mathlib.Data.Rat.Defs
import OpenMinion.JsonValues
import OpenMinion.KeyedTables
import OpenMinion.PythonText

/-!
# The SQLite memory store

The tables of records, candidates, relations and tier transitions, and the writes that a bundle import makes. The
references to artifacts are added after the row, so that their error comes after the write.
-/
namespace OpenMinion.MemoryStore
open JsonValues KeyedTables PythonText

structure Metadata where
  items : Dict
  nodup : (items.map Prod.fst).Nodup
  deriving DecidableEq

theorem keys_set (d : Dict) (key : String) (value : Json) :
    (Dict.set d key value).map Prod.fst = if Dict.has d key then d.map Prod.fst else d.map Prod.fst ++ [key] := by
  rw [Dict.set]
  split
  · rw [List.map_map]
    apply List.map_congr_left
    intro item _
    rw [Function.comp_apply]
    split
    · next h => exact (beq_iff_eq.mp h).symm
    · rfl
  · rw [List.map_append, List.map_singleton]

theorem has_eq_true_iff (d : Dict) (key : String) : Dict.has d key = true ↔ key ∈ d.map Prod.fst := by
  simp [Dict.has, List.any_eq_true, List.mem_map, and_comm]

namespace Metadata

def empty : Metadata := ⟨[], List.nodup_nil⟩

def get (m : Metadata) (key : String) : Json := Dict.get m.items key

/-- `meta[key] = value`. -/
def set (m : Metadata) (key : String) (value : Json) : Metadata where
  items := Dict.set m.items key value
  nodup := by
    rw [keys_set]
    split
    · exact m.nodup
    · next hmissing =>
      rw [has_eq_true_iff] at hmissing
      rw [List.nodup_append]
      refine ⟨m.nodup, List.nodup_singleton key, ?_⟩
      intro a ha b hb hab
      rw [List.mem_singleton] at hb
      rw [hab, hb] at ha
      exact hmissing ha

end Metadata

structure ArtifactRef where
  ref : String
  mime : String
  sha256 : String
  sizeBytes : ℤ
  label : Option String
  deriving DecidableEq

structure MemoryRecord where
  id : String
  scope : String
  recordNamespace : Option Json := none
  recordType : String
  key : Option String := none
  title : Option String := none
  content : Json
  tags : List String := []
  entities : List String := []
  goalId : Option String := none
  source : String := "agent_inferred"
  confidence : ℚ := 1 / 2
  evidenceRefs : List ArtifactRef := []
  expiresAt : Option String := none
  metadata : Metadata := .empty
  lastHitAt : Option String := none
  eventTime : Option String := none
  validTo : Option String := none
  tier : String := "working"
  accessCount : ℕ := 0
  createdAt : String
  updatedAt : String
  supersedesId : Option String := none
  supersededById : Option String := none
  supersessionReason : Option String := none
  isDeleted : Bool := false
  deletedAt : Option String := none
  deletedReason : Option String := none
  deriving DecidableEq

structure MemoryCandidate where
  candidateId : String
  sessionId : String
  proposedScope : String
  recordType : String
  key : Option String := none
  title : Option String := none
  content : Json
  tags : List String := []
  entities : List String := []
  source : String := "agent_inferred"
  confidence : ℚ := 1 / 2
  evidenceRefs : List ArtifactRef := []
  metadata : Metadata := .empty
  status : String := "proposed"
  review : Option Json := none
  createdAt : String := ""
  updatedAt : String := ""
  deriving DecidableEq

structure MemoryRelation where
  relationId : String
  sourceRecordId : String
  targetRecordId : String
  relationType : String
  createdAt : String
  metadata : Json := .dict []
  deriving DecidableEq

structure MemoryTierTransition where
  transitionId : String
  recordId : String
  scope : String
  recordType : String
  fromTier : String
  toTier : String
  transitionReason : String
  transitionAt : String
  accessCount : ℕ := 0
  metadata : Json := .dict []
  deriving DecidableEq

structure Store where
  records : List MemoryRecord := []
  candidates : List MemoryCandidate := []
  relations : List MemoryRelation := []
  tierTransitions : List MemoryTierTransition := []
  deriving DecidableEq

inductive StoreError where
  /-- A statement breaks a key of the table. -/
  | integrity
  | notFound (recordId : String)
  | sameRecord
  | terminalStatus (candidateId : String)
  | artifactNotFound
  deriving DecidableEq

/-- What the store takes from elsewhere: the record models, the order of a selection and the
artifact controller. -/
structure Environment where
  /-- `MemoryNamespace.from_scope`. -/
  fromScope : String → Json
  /-- The scopes that the models accept. -/
  validScope : String → Bool
  /-- The source and target ids that a relation accepts. -/
  validRelation : String → String → Bool
  /-- `is_invalidated_at` of an end of validity. -/
  invalidatedAt : String → String → Bool
  /-- The order of the rows of a selection. -/
  order : List MemoryRecord → List MemoryRecord
  order_perm : ∀ rows, (order rows).Perm rows
  /-- `add_reference_edges` of the refs of an owner raises nothing. -/
  refsActive : String → List ArtifactRef → Bool

def truthy (text : Option String) : Bool := text.getD "" ≠ ""

def isActive (r : MemoryRecord) : Bool := !r.isDeleted && r.supersededById.isNone

def keyClash (rows : List MemoryRecord) (r : MemoryRecord) : Bool :=
  r.key.isSome && isActive r && rows.any fun row =>
    row.id ≠ r.id && isActive row && row.scope = r.scope && row.recordType = r.recordType && row.key = r.key

def missing (rows : List MemoryRecord) (r : MemoryRecord) (ref : Option String) : Bool :=
  match ref with
  | none => false
  | some id => id ≠ r.id && !rows.any fun row => row.id = id

def storedRecord (r : MemoryRecord) : MemoryRecord :=
  { r with eventTime := if truthy r.eventTime then r.eventTime else some r.createdAt }

/-- `INSERT INTO memory_records` breaks a key. -/
def insertFails (rows : List MemoryRecord) (r : MemoryRecord) : Bool :=
  (rows.any fun row => row.id = r.id) || keyClash rows r || missing rows r r.supersedesId || missing rows r r.supersededById

def Store.get (s : Store) (recordId : String) : Option MemoryRecord := lookup MemoryRecord.id recordId s.records

section Writes

variable (env : Environment)

def Store.put (s : Store) (r : MemoryRecord) : Store × Option StoreError :=
  if insertFails s.records r then (s, some .integrity)
  else
    ({ s with records := s.records ++ [storedRecord r] },
      if !r.isDeleted && !env.refsActive r.id r.evidenceRefs then some .artifactNotFound else none)

@[simp] theorem records_put (s : Store) (r : MemoryRecord) :
    (s.put env r).1.records = if insertFails s.records r then s.records else s.records ++ [storedRecord r] := by
  rw [Store.put]
  split <;> rfl

/-- `_is_live_record`. -/
def isLive (now : String) (r : MemoryRecord) : Bool :=
  !r.isDeleted && !(truthy r.validTo && env.invalidatedAt (r.validTo.getD "") now) && !truthy r.supersededById

/-- The condition of `list` for a scope and a type, at a time. -/
def isListed (scope recordType now : String) (r : MemoryRecord) : Bool :=
  !r.isDeleted && (match r.validTo with
    | none => true
    | some validTo => decide (now < validTo)) && r.scope = scope && r.recordType = recordType

def listed (rows : List MemoryRecord) (scope recordType now : String) : List MemoryRecord :=
  env.order (rows.filter (isListed scope recordType now))

def findRecordByNormalizedKey (rows : List MemoryRecord) (scope recordType : String) (key : Option String) (now : String) :
    Option MemoryRecord :=
  if stripOr key = "" || strip scope = "" || strip recordType = "" then none
  else (listed env rows (strip scope) (strip recordType) now).find? fun r => stripOr r.key = stripOr key && isLive env now r

theorem mem_of_findRecordByNormalizedKey {rows : List MemoryRecord} {scope recordType : String} {key : Option String}
    {now : String} {r : MemoryRecord} (h : findRecordByNormalizedKey env rows scope recordType key now = some r) : r ∈ rows := by
  rw [findRecordByNormalizedKey] at h
  split at h
  · cases h
  · have hlisted := (env.order_perm _).subset (List.mem_of_find?_eq_some h)
    exact (List.mem_filter.mp hlisted).1

/-- `apply_supersession`, and the key of the old record for the new one. -/
def Store.supersedeByContradiction (s : Store) (oldId newId reason now : String) : Store × Option StoreError :=
  if oldId = newId then (s, some .sameRecord)
  else
    match s.get oldId, s.get newId with
    | none, _ => (s, some (.notFound oldId))
    | _, none => (s, some (.notFound newId))
    | some old, some new =>
      let validTo := if new.createdAt = "" then now else new.createdAt
      let retired := updateWhere (fun r => r.id = oldId)
        (fun r => { r with
          supersededById := some newId
          supersessionReason := if reason = "" then none else some reason
          validTo := some validTo
          isDeleted := true
          updatedAt := now }) s.records
      let renewed : MemoryRecord := { new with
        supersedesId := some oldId
        supersededById := none
        supersessionReason := none
        isDeleted := false
        updatedAt := now }
      let result : MemoryRecord := if truthy old.key && old.key ≠ new.key then { renewed with key := old.key } else renewed
      if keyClash retired renewed || keyClash retired result then (s, some .integrity)
      else
        ({ s with records := updateWhere (fun r => r.id = newId) (fun _ => result) retired },
          if env.refsActive newId result.evidenceRefs then none else some .artifactNotFound)

def isTerminal (c : MemoryCandidate) : Bool := c.status = "promoted" || c.status = "rejected"

def Store.candidateGet (s : Store) (candidateId : String) : Option MemoryCandidate :=
  lookup MemoryCandidate.candidateId candidateId s.candidates

def regresses (rows : List MemoryCandidate) (c : MemoryCandidate) : Bool :=
  ((lookup MemoryCandidate.candidateId c.candidateId rows).map isTerminal).getD false && !isTerminal c

def storedCandidate (c : MemoryCandidate) (now : String) : MemoryCandidate :=
  { c with
    createdAt := if c.createdAt = "" then now else c.createdAt
    updatedAt := if c.updatedAt = "" then now else c.updatedAt }

def Store.candidatePut (s : Store) (c : MemoryCandidate) (now : String) : Store × Option StoreError :=
  if regresses s.candidates c then (s, some (.terminalStatus c.candidateId))
  else
    ({ s with candidates := upsertRow MemoryCandidate.candidateId (storedCandidate c now) s.candidates },
      if env.refsActive c.candidateId c.evidenceRefs then none else some .artifactNotFound)

end Writes

def Store.putRelation (s : Store) (r : MemoryRelation) : Store × Option StoreError :=
  if (s.get r.sourceRecordId).isNone then (s, some (.notFound r.sourceRecordId))
  else if (s.get r.targetRecordId).isNone then (s, some (.notFound r.targetRecordId))
  else ({ s with relations := upsertRow MemoryRelation.relationId r s.relations }, none)

def Store.putTierTransition (s : Store) (t : MemoryTierTransition) : Store × Option StoreError :=
  if (s.get t.recordId).isNone then (s, some (.notFound t.recordId))
  else ({ s with tierTransitions := upsertRow MemoryTierTransition.transitionId t s.tierTransitions }, none)

end OpenMinion.MemoryStore
