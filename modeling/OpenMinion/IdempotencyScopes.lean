import OpenMinion.A2ACalls

/-!
# Idempotency scopes

The scope of a call joins its type, agent, method and session with colons. It belongs to a request alone exactly when
neither agent nor method has a colon and there is no session.
-/
namespace OpenMinion.IdempotencyScopes
open A2ACalls A2AStateStore IsoTimestamps PythonText

structure ScopeParts where
  agent : String
  method : String
  session : String
  deriving DecidableEq

def partsOf (e : Envelope) (agent : String) : ScopeParts := ⟨agent, e.method, strip e.sessionId⟩

def ScopeParts.chars (p : ScopeParts) : List Char :=
  p.agent.toList ++ ':' :: p.method.toList ++ if p.session = "" then [] else ':' :: p.session.toList

/-- Every request with this scope and type has the same agent, method and session, so that a
result in the slot of the scope is a result of such a request. -/
def Separated (e : Envelope) (agent : String) : Prop :=
  ∀ (e' : Envelope) (agent' : String), e'.type = e.type →
    (idempotencyScope e' agent' = idempotencyScope e agent → partsOf e' agent' = partsOf e agent) ∧
    ∀ (rows : IdempotencyTable DateTime) (record : IdempotencyRecord DateTime),
      getIdempotency rows (idempotencyScope e agent) e.idempotencyKey = some record → record.scope = idempotencyScope e' agent' →
        partsOf e' agent' = partsOf e agent

theorem toList_idempotencyScope (e : Envelope) (agent : String) :
    (idempotencyScope e agent).toList = e.type.toList ++ ':' :: (partsOf e agent).chars := by
  rw [idempotencyScope, ScopeParts.chars, partsOf]
  split <;> simp

theorem idempotencyScope_eq_iff {e e' : Envelope} {agent agent' : String} (htype : e'.type = e.type) :
    idempotencyScope e' agent' = idempotencyScope e agent ↔ (partsOf e' agent').chars = (partsOf e agent).chars := by
  rw [← String.toList_inj, toList_idempotencyScope, toList_idempotencyScope, htype]
  simp

theorem scope_of_found {rows : IdempotencyTable DateTime} {scope key : String} {record : IdempotencyRecord DateTime}
    (h : getIdempotency rows scope key = some record) : record.scope = scope :=
  congrArg Prod.fst (KeyedTables.lookup_some h).2

theorem separated_iff {e : Envelope} {agent : String} : Separated e agent ↔
    ∀ (e' : Envelope) (agent' : String), e'.type = e.type → (partsOf e' agent').chars = (partsOf e agent).chars →
      partsOf e' agent' = partsOf e agent := by
  constructor
  · intro h e' agent' htype hchars
    exact (h e' agent' htype).1 ((idempotencyScope_eq_iff htype).mpr hchars)
  · intro h e' agent' htype
    refine ⟨fun hscope => h e' agent' htype ((idempotencyScope_eq_iff htype).mp hscope), ?_⟩
    intro rows record hfound hscope
    rw [scope_of_found hfound] at hscope
    exact h e' agent' htype ((idempotencyScope_eq_iff htype).mp hscope.symm)

theorem eq_of_append_colon {left right left' right' : List Char} (hleft : ':' ∉ left) (hleft' : ':' ∉ left')
    (h : left ++ ':' :: right = left' ++ ':' :: right') : left = left' ∧ right = right' := by
  induction left generalizing left' with
  | nil =>
    cases left' with
    | nil => exact ⟨rfl, List.tail_eq_of_cons_eq h⟩
    | cons c rest =>
      have hc : ':' = c := List.head_eq_of_cons_eq h
      exact absurd (hc ▸ List.mem_cons_self) hleft'
  | cons c rest ih =>
    cases left' with
    | nil =>
      have hc : c = ':' := List.head_eq_of_cons_eq h
      exact absurd (hc ▸ List.mem_cons_self) hleft
    | cons c' rest' =>
      obtain ⟨rfl, htail⟩ := List.cons_eq_cons.mp h
      obtain ⟨rfl, hright⟩ := ih (fun hmem => hleft (List.mem_cons_of_mem _ hmem))
        (fun hmem => hleft' (List.mem_cons_of_mem _ hmem)) htail
      exact ⟨rfl, hright⟩

theorem count_chars (p : ScopeParts) : p.chars.count ':' =
    p.agent.toList.count ':' + 1 + p.method.toList.count ':' + if p.session = "" then 0 else 1 + p.session.toList.count ':' := by
  rw [ScopeParts.chars]
  split
  · simp [List.count_append]
    omega
  · simp [List.count_append]
    omega

theorem parts_eq_of_plain {p q : ScopeParts} (hagent : ':' ∉ p.agent.toList) (hmethod : ':' ∉ p.method.toList)
    (hsession : p.session = "") (h : q.chars = p.chars) : q = p := by
  have hcount := congrArg (List.count ':') h
  rw [count_chars, count_chars, List.count_eq_zero.mpr hagent, List.count_eq_zero.mpr hmethod, if_pos hsession] at hcount
  have hsession' : q.session = "" := by
    by_contra hne
    rw [if_neg hne] at hcount
    omega
  have hagent' : ':' ∉ q.agent.toList := by
    intro hmem
    have := List.count_pos_iff.mpr hmem
    omega
  rw [ScopeParts.chars, ScopeParts.chars, if_pos hsession, if_pos hsession', List.append_nil, List.append_nil] at h
  obtain ⟨heq, heq'⟩ := eq_of_append_colon hagent' hagent h
  cases p
  cases q
  simp only [ScopeParts.mk.injEq]
  exact ⟨String.toList_inj.mp heq, String.toList_inj.mp heq', hsession'.trans hsession.symm⟩

/-- The scope of a request belongs to it alone exactly when its agent and its method have no colon
and it has no session. -/
theorem scope_separates_iff {e : Envelope} {agent : String} :
    Separated e agent ↔ ':' ∉ agent.toList ∧ ':' ∉ e.method.toList ∧ strip e.sessionId = "" := by
  rw [separated_iff]
  constructor
  · intro h
    refine ⟨?_, ?_, ?_⟩
    · -- the first part of the agent before its colon is an agent, and the rest belongs to the method
      intro hmem
      obtain ⟨before, after, hagent⟩ := List.append_of_mem hmem
      have hparts := h { e with method := String.ofList (after ++ ':' :: e.method.toList) } (String.ofList before) rfl
        (by
          simp only [partsOf, ScopeParts.chars, hagent, String.toList_ofList, List.append_assoc, List.cons_append]
          rfl)
      have hlength := congrArg (fun p => p.agent.toList.length) hparts
      simp [partsOf, hagent] at hlength
    · intro hmem
      obtain ⟨before, after, hmethod⟩ := List.append_of_mem hmem
      have hparts := h { e with method := String.ofList after } (String.ofList (agent.toList ++ ':' :: before)) rfl
        (by
          simp only [partsOf, ScopeParts.chars, hmethod, String.toList_ofList, List.append_assoc, List.cons_append]
          rfl)
      have hlength := congrArg (fun p => p.agent.toList.length) hparts
      simp [partsOf] at hlength
    · -- the session may be the end of the method
      by_contra hsession
      have hparts := h { e with method := String.ofList (e.method.toList ++ ':' :: (strip e.sessionId).toList), sessionId := "" } agent rfl
        (by
          have hempty : strip "" = "" := by decide
          simp [partsOf, ScopeParts.chars, hsession, hempty])
      have hempty := congrArg ScopeParts.session hparts
      exact hsession hempty.symm
  · rintro ⟨hagent, hmethod, hsession⟩ e' agent' _ hchars
    exact parts_eq_of_plain hagent hmethod hsession hchars

def runInSession : Envelope := { type := "call", fromAgent := "c", method := "run", idempotencyKey := "k", sessionId := "s" }

def runWithSuffix : Envelope := { type := "call", fromAgent := "c", method := "run:s", idempotencyKey := "k" }

/-- A session that is the end of another method. -/
theorem session_in_method :
    ¬ ∀ (e e' : Envelope) (agent agent' : String), e'.type = e.type →
      idempotencyScope e' agent' = idempotencyScope e agent → partsOf e' agent' = partsOf e agent := by
  intro h
  have hscope : idempotencyScope runWithSuffix "a" = idempotencyScope runInSession "a" :=
    (idempotencyScope_eq_iff (by rfl)).mpr (by decide +kernel)
  have hparts := h runInSession runWithSuffix "a" "a" rfl hscope
  revert hparts
  decide +kernel

end OpenMinion.IdempotencyScopes
