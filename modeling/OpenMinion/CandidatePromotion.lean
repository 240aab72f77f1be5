import OpenMinion.MemoryEffects

/-!
# Promotion of candidates

The calls that write candidates, each an immediate transaction. A candidate that was promoted or rejected stays so and
is not admitted again: none becomes a record twice.
-/
namespace OpenMinion.CandidatePromotion
open JsonValues KeyedTables MemoryDatabase MemoryEffects MemoryStore TransitionRuns

inductive CandidateCall where
  | put (candidate : MemoryCandidate) (now : String)
  | update (candidateId : String) (patch : CandidatePatch) (now : String)
  | promote (candidateId targetScope : String) (call : MemoryDatabase.Call)
  | consolidate (candidate : MemoryCandidate) (action targetScope : String) (review : Option Json) (metadata : Metadata)
      (call : MemoryDatabase.Call)

def CandidateCall.toOp : CandidateCall → Op
  | .put candidate now => .candidatePut candidate now
  | .update candidateId patch now => .candidateUpdate candidateId patch now
  | .promote candidateId targetScope call => .promote candidateId targetScope call
  | .consolidate candidate action targetScope review metadata call => .consolidate candidate action targetScope review metadata call

section Clients

variable (env : Environment)

def stepCall (db : Database) (call : CandidateCall) : Database := step env db call.toOp

def created (db : Database) : CandidateCall → Option (String × String)
  | .promote candidateId targetScope call =>
    match db.candidateGet candidateId with
    | none => none
    | some c =>
      if c.status ≠ "approved" then none
      else (db.insertPromotedCandidate c targetScope call).map fun _ => (candidateId, call.newId)
  | .consolidate candidate action targetScope _ _ call =>
    match db.candidateGet candidate.candidateId with
    | none => none
    | some current =>
      if current ≠ candidate || current.status ≠ "proposed" || current.proposedScope ≠ targetScope || action ≠ "promote" then none
      else (db.insertPromotedCandidate current targetScope call).map fun _ => (candidate.candidateId, call.newId)
  | _ => none

def creations : Database → List CandidateCall → List (String × String)
  | _, [] => []
  | db, call :: calls => (created db call).toList ++ creations (stepCall env db call) calls

def Terminal (db : Database) (candidateId : String) : Prop := ∃ c, db.candidateGet candidateId = some c ∧ isTerminal c = true

variable {env} {db : Database}

theorem candidateGet_setCandidate {f : MemoryCandidate → MemoryCandidate} (hf : ∀ c, (f c).candidateId = c.candidateId)
    (candidateId other : String) :
    (db.setCandidate candidateId f).candidateGet other =
      (db.candidateGet other).map fun c => if c.candidateId = candidateId then f c else c := by
  have hlookup := @lookup_updateWhere _ _ MemoryCandidate.candidateId (fun c => decide (c.candidateId = candidateId)) f db.candidates _
    (fun c _ => hf c) other
  simpa [Database.setCandidate, Store.candidateGet] using hlookup

theorem id_of_candidateGet {candidateId : String} {c : MemoryCandidate} (h : db.candidateGet candidateId = some c) :
    c.candidateId = candidateId := (lookup_some h).2

theorem candidates_insertReplacing {r : MemoryRecord} {old : Option MemoryRecord} {now : String} {after : Database}
    (h : insertReplacing db r old now = some after) : after.candidates = db.candidates := by
  rw [insertReplacing] at h
  split at h
  · cases h
  · cases old with
    | none =>
      cases h
      rfl
    | some row =>
      obtain ⟨superseded, hsupersede, rfl⟩ := Option.map_eq_some_iff.mp h
      obtain ⟨-, rfl⟩ := applySupersession_some hsupersede
      rfl

theorem candidateGet_insertPromotedCandidate {c : MemoryCandidate} {targetScope : String} {call : MemoryDatabase.Call}
    {after : Database} (h : db.insertPromotedCandidate c targetScope call = some after) (candidateId : String) :
    after.candidateGet candidateId = db.candidateGet candidateId := by
  rw [Store.candidateGet, Store.candidateGet, candidates_insertReplacing h]

theorem terminal_setCandidate {f : MemoryCandidate → MemoryCandidate} (hf : ∀ c, (f c).candidateId = c.candidateId)
    {candidateId other : String} (h : Terminal db other)
    (hkeep : ∀ c, db.candidateGet candidateId = some c → isTerminal c = true → isTerminal (f c) = true) :
    Terminal (db.setCandidate candidateId f) other := by
  obtain ⟨c, hget, hterminal⟩ := h
  refine ⟨_, by rw [candidateGet_setCandidate hf, hget, Option.map_some], ?_⟩
  split
  · next hid =>
    rw [← hid, id_of_candidateGet hget] at hkeep
    exact hkeep c hget hterminal
  · exact hterminal

theorem terminal_candidatePut {candidateId : String} (h : Terminal db candidateId) (c : MemoryCandidate) (now : String) :
    Terminal (db.candidatePut env c now).2 candidateId := by
  rw [Database.candidatePut]
  split
  · exact h
  · next hopen =>
    have hput : Terminal { db with
        candidates := upsertRow MemoryCandidate.candidateId (storedCandidate c now) db.candidates } candidateId := by
      by_cases hid : candidateId = c.candidateId
      · refine ⟨storedCandidate c now, ?_, ?_⟩
        · rw [hid]
          exact lookup_upsertRow_self (storedCandidate c now) db.candidates
        · obtain ⟨row, hget, hterminal⟩ := h
          have hlookup : lookup MemoryCandidate.candidateId c.candidateId db.candidates = some row := hid ▸ hget
          by_contra hstatus
          have hstatus' : isTerminal c = false := Bool.eq_false_iff.mpr hstatus
          exact hopen (by simp [regresses, hlookup, hterminal, hstatus'])
      · obtain ⟨row, hget, hterminal⟩ := h
        refine ⟨row, ?_, hterminal⟩
        rw [← hget]
        exact lookup_upsertRow_of_ne hid
    dsimp only
    split
    · exact hput
    · exact hput

theorem terminal_candidateUpdate {candidateId : String} (h : Terminal db candidateId) (other : String) (patch : CandidatePatch)
    (now : String) : Terminal (db.candidateUpdate env other patch now).2 candidateId := by
  rw [Database.candidateUpdate]
  split
  · exact h
  · next current hget =>
    dsimp only
    split
    · exact h
    · split
      · exact h
      · next hregress =>
        have hid := id_of_candidateGet hget
        obtain ⟨row, hrow, hterminal⟩ := h
        have hlookup := @lookup_updateWhere _ _ MemoryCandidate.candidateId (fun c => decide (c.candidateId = other))
          (fun _ => patchCandidate current patch now) db.candidates _
          (fun c hc => hid.trans (of_decide_eq_true hc).symm) candidateId
        refine ⟨_, hlookup.trans (by rw [show lookup _ _ _ = some row from hrow, Option.map_some]), ?_⟩
        split
        · next hother =>
          have hsame : row = current := by
            rw [id_of_candidateGet hrow, decide_eq_true_eq] at hother
            rw [hother, hget] at hrow
            exact (Option.some.inj hrow).symm
          by_contra hopen
          have hterminal' : isTerminal current = true := hsame ▸ hterminal
          exact hregress (by simp [hterminal', Bool.eq_false_iff.mpr hopen])
        · exact hterminal

theorem promoted_isTerminal (c : MemoryCandidate) (h : c.status = "promoted") : isTerminal c = true := by
  simp [isTerminal, h]

theorem not_terminal_of_status {c : MemoryCandidate} (h : c.status = "approved" ∨ c.status = "proposed") : isTerminal c = false := by
  obtain h | h := h
  · simp [isTerminal, h]
  · simp [isTerminal, h]

theorem terminal_stepCall {candidateId : String} (h : Terminal db candidateId) (call : CandidateCall) :
    Terminal (stepCall env db call) candidateId := by
  cases call with
  | put candidate now => exact terminal_candidatePut h candidate now
  | update other patch now => exact terminal_candidateUpdate h other patch now
  | promote other targetScope call =>
    change Terminal (db.promoteCandidate env other targetScope call).2 candidateId
    rw [Database.promoteCandidate]
    split
    · exact h
    · split
      · exact h
      · split
        · exact h
        · next after hinsert =>
          rw [records_reload]
          have hafter : Terminal after candidateId := by
            obtain ⟨c, hget, hterminal⟩ := h
            exact ⟨c, (candidateGet_insertPromotedCandidate hinsert candidateId).trans hget, hterminal⟩
          refine terminal_setCandidate ?_ hafter ?_
          · intro c
            rfl
          · intro c _ _
            exact promoted_isTerminal _ rfl
  | consolidate candidate action targetScope review metadata call =>
    change Terminal (db.applyConsolidationDecision env candidate action targetScope review metadata call).2 candidateId
    rw [Database.applyConsolidationDecision]
    split
    · exact h
    · next current hcurrent =>
      split
      · exact h
      · split
        · exact h
        · next hscope =>
          -- the candidate of the decision is still proposed
          have hopen : ∀ c, db.candidateGet candidate.candidateId = some c → isTerminal c = false := by
            intro c hc
            rw [hcurrent] at hc
            cases hc
            simp only [Bool.or_eq_true, decide_eq_true_eq, not_or, not_not] at hscope
            exact not_terminal_of_status (.inr hscope.1)
          have hdecided : ∀ status, Terminal (db.setCandidate candidate.candidateId fun c =>
              { c with status, review, metadata, updatedAt := call.now }) candidateId := by
            intro status
            refine terminal_setCandidate ?_ h ?_
            · intro c
              rfl
            · intro c hc hterminal
              rw [hopen c hc] at hterminal
              cases hterminal
          split
          · exact h
          · next status _ =>
            dsimp only
            split
            · split
              · exact h
              · next after hinsert =>
                rw [records_reload]
                have hafter : Terminal after candidateId := by
                  obtain ⟨c, hget, hterminal⟩ := h
                  exact ⟨c, (candidateGet_insertPromotedCandidate hinsert candidateId).trans hget, hterminal⟩
                refine terminal_setCandidate ?_ hafter ?_
                · intro c
                  rfl
                · intro c hc hterminal
                  rw [candidateGet_insertPromotedCandidate hinsert] at hc
                  rw [hopen c hc] at hterminal
                  cases hterminal
            · split
              · exact hdecided status
              · exact hdecided status

theorem terminal_promoted {after : Database} {candidateId : String} {c : MemoryCandidate} (hget : db.candidateGet candidateId = some c)
    (hsame : after.candidateGet candidateId = db.candidateGet candidateId) {f : MemoryCandidate → MemoryCandidate}
    (hf : ∀ c, (f c).candidateId = c.candidateId) (hstatus : ∀ c, (f c).status = "promoted") :
    Terminal (after.setCandidate candidateId f) candidateId := by
  refine ⟨f c, ?_, promoted_isTerminal _ (hstatus c)⟩
  rw [candidateGet_setCandidate hf, hsame, hget, Option.map_some, if_pos (id_of_candidateGet hget)]

theorem created_spec {call : CandidateCall} {candidateId recordId : String} (h : created db call = some (candidateId, recordId)) :
    ¬ Terminal db candidateId ∧ Terminal (stepCall env db call) candidateId := by
  cases call with
  | put candidate now => cases h
  | update other patch now => cases h
  | promote other targetScope call =>
    change _ ∧ Terminal (db.promoteCandidate env other targetScope call).2 candidateId
    rw [created] at h
    split at h
    · cases h
    · next c hget =>
      split at h
      · cases h
      · next hstatus =>
        obtain ⟨after, hinsert, heq⟩ := Option.map_eq_some_iff.mp h
        cases heq
        constructor
        · rintro ⟨row, hrow, hterminal⟩
          rw [hget] at hrow
          cases hrow
          rw [not_terminal_of_status (.inl (not_not.mp hstatus))] at hterminal
          cases hterminal
        · rw [Database.promoteCandidate, hget]
          dsimp only
          rw [if_neg hstatus, hinsert]
          dsimp only
          rw [records_reload]
          exact terminal_promoted hget (candidateGet_insertPromotedCandidate hinsert _) (fun _ => rfl) fun _ => rfl
  | consolidate candidate action targetScope review metadata call =>
    change _ ∧ Terminal (db.applyConsolidationDecision env candidate action targetScope review metadata call).2 candidateId
    rw [created] at h
    split at h
    · cases h
    · next current hget =>
      split at h
      · cases h
      · next hadmitted =>
        obtain ⟨after, hinsert, heq⟩ := Option.map_eq_some_iff.mp h
        cases heq
        simp only [Bool.or_eq_true, decide_eq_true_eq, not_or, not_not] at hadmitted
        obtain ⟨⟨⟨hsame, hstatus⟩, hscope⟩, haction⟩ := hadmitted
        constructor
        · rintro ⟨row, hrow, hterminal⟩
          rw [hget] at hrow
          cases hrow
          rw [not_terminal_of_status (.inr hstatus)] at hterminal
          cases hterminal
        · rw [Database.applyConsolidationDecision, hget]
          dsimp only
          rw [if_neg (not_not.mpr hsame), if_neg (by simp [hstatus, hscope]), haction]
          dsimp only [consolidationStatus]
          rw [if_pos rfl]
          dsimp only
          rw [if_pos rfl, hinsert]
          dsimp only
          rw [records_reload]
          exact terminal_promoted hget (candidateGet_insertPromotedCandidate hinsert _) (fun _ => rfl) fun _ => rfl

theorem ids_stepCall (env : Environment) (db : Database) (call : CandidateCall) :
    (stepCall env db call).records.map MemoryRecord.id =
      db.records.map MemoryRecord.id ++ (created db call).toList.map Prod.snd := by
  cases call with
  | put candidate now =>
    change (db.candidatePut env candidate now).2.records.map _ = _
    rw [Database.candidatePut]
    split
    · simp [created]
    · dsimp only
      split <;> simp [created]
  | update candidateId patch now =>
    change (db.candidateUpdate env candidateId patch now).2.records.map _ = _
    rw [Database.candidateUpdate]
    split
    · simp [created]
    · dsimp only
      split
      · simp [created]
      · split <;> simp [created]
  | promote candidateId targetScope call =>
    change (db.promoteCandidate env candidateId targetScope call).2.records.map _ = _
    rw [Database.promoteCandidate, created]
    cases db.candidateGet candidateId with
    | none => simp
    | some c =>
      dsimp only
      by_cases hstatus : c.status = "approved"
      · rw [if_neg (not_not.mpr hstatus), if_neg (not_not.mpr hstatus)]
        cases hinsert : db.insertPromotedCandidate c targetScope call with
        | none => simp
        | some after =>
          dsimp only
          rw [records_reload]
          exact ids_insertReplacing hinsert
      · rw [if_pos hstatus, if_pos hstatus]
        simp
  | consolidate candidate action targetScope review metadata call =>
    change (db.applyConsolidationDecision env candidate action targetScope review metadata call).2.records.map _ = _
    rw [Database.applyConsolidationDecision, created]
    cases db.candidateGet candidate.candidateId with
    | none => simp
    | some current =>
      dsimp only
      by_cases hsame : current = candidate
      · rw [if_neg (not_not.mpr hsame)]
        by_cases hscope : current.status = "proposed" ∧ current.proposedScope = targetScope
        · rw [if_neg (by simp [hscope.1, hscope.2])]
          by_cases haction : action = "promote"
          · rw [if_neg (by simp [hsame, hsame ▸ hscope.1, hsame ▸ hscope.2, haction]), haction]
            cases hinsert : db.insertPromotedCandidate current targetScope call with
            | none => simp [consolidationStatus]
            | some after =>
              have hids : after.records.map MemoryRecord.id = db.records.map MemoryRecord.id ++ [call.newId] := ids_insertReplacing hinsert
              simp [consolidationStatus, records_reload, Database.setCandidate, hids]
          · rw [if_pos (by simp [haction])]
            cases consolidationStatus action with
            | none => simp
            | some status =>
              dsimp only
              rw [if_neg haction]
              split
              · simp [Database.setCandidate]
              · simp [Database.setCandidate]
        · rw [if_pos (by rw [Bool.or_eq_true, decide_eq_true_eq, decide_eq_true_eq]; tauto), if_pos]
          · simp
          · simp only [Bool.or_eq_true, decide_eq_true_eq]
            tauto
      · rw [if_pos hsame, if_pos (by simp [hsame])]
        simp

theorem not_mem_creations {candidateId : String} (calls : List CandidateCall) (h : Terminal db candidateId) :
    candidateId ∉ (creations env db calls).map Prod.fst := by
  induction calls generalizing db with
  | nil => simp [creations]
  | cons call calls ih =>
    rw [creations, List.map_append, List.mem_append, not_or]
    refine ⟨?_, ih (terminal_stepCall h call)⟩
    intro hmem
    obtain ⟨⟨other, recordId⟩, hcreated, rfl⟩ := List.mem_map.mp hmem
    exact (@created_spec env db _ _ _ (Option.mem_toList.mp hcreated)).1 h

theorem ids_run (env : Environment) (db : Database) (calls : List CandidateCall) :
    (run (stepCall env) db calls).records.map MemoryRecord.id =
      db.records.map MemoryRecord.id ++ (creations env db calls).map Prod.snd := by
  induction calls generalizing db with
  | nil => simp [creations]
  | cons call calls ih => rw [run_cons, ih, ids_stepCall, creations, List.map_append, List.append_assoc]

/-- In every interleaving of the calls, a candidate that was promoted or rejected stays so, and every record that is
added is created from a candidate of its own. -/
theorem promoted_at_most_once (env : Environment) (db : Database) (calls : List CandidateCall) :
    (∀ before after candidateId, calls = before ++ after → Terminal (run (stepCall env) db before) candidateId →
        Terminal (run (stepCall env) db calls) candidateId) ∧
      ((creations env db calls).map Prod.fst).Nodup ∧
      (run (stepCall env) db calls).records.map MemoryRecord.id =
        db.records.map MemoryRecord.id ++ (creations env db calls).map Prod.snd := by
  refine ⟨?_, ?_, ids_run env db calls⟩
  · rintro before after candidateId rfl hterminal
    rw [run_append]
    exact run_invariant (I := fun db => Terminal db candidateId) (fun _ call h => terminal_stepCall h call) hterminal after
  · induction calls generalizing db with
    | nil => exact List.nodup_nil
    | cons call calls ih =>
      rw [creations, List.map_append, List.nodup_append]
      refine ⟨?_, ih _, ?_⟩
      · cases created db call with
        | none => exact List.nodup_nil
        | some pair => exact List.nodup_singleton _
      · intro a ha b hb heq
        obtain ⟨⟨candidateId, recordId⟩, hcreated, rfl⟩ := List.mem_map.mp ha
        have hterminal := (@created_spec env db _ _ _ (Option.mem_toList.mp hcreated)).2
        exact not_mem_creations calls hterminal (heq ▸ hb)

end Clients
end OpenMinion.CandidatePromotion
