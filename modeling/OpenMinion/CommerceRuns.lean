import OpenMinion.CommerceClients

/-!
# No order is placed twice

In every interleaving of calls, with any answers and wherever calls end, each attempt is submitted by the one call that
has begun it.
-/
namespace OpenMinion.CommercePrograms
open CommerceStore InterleavedThreads StatementPrograms TransitionRuns

structure Client where
  program : Prog (Except Failure Result)
  ghost : Ghost
  /-- The provider has rejected what the call asked for. -/
  rejected : Bool := false

def clients (rt : CommerceRuntime) : Threads Shared Client Op Choice where
  isIdle l := match l.program with
    | .done _ => true
    | .step _ _ => false
  begin s op := (s, ⟨(program rt op).run, { op := some op }, false⟩)
  next s l env := match l.program with
    | .done _ => (s, l)
    | .step c next =>
      (s.apply env c, ⟨next ⟨s.db, env⟩, learn l.ghost c ⟨s.db, env⟩, l.rejected || c.rejectedBy env⟩)

def initial (Thread : Type) : System Thread Shared Client := ⟨⟨{}, []⟩, fun _ => ⟨.done (.error .other), { op := none }, false⟩⟩

section Writes

variable {db : CommerceDb} {env : Choice}

theorem unique_write (h : UniqueAttempts db.attempts) (c : Stmt) : UniqueAttempts (c.write env db).attempts := by
  cases c with
  | insertAttempt => exact CommerceDb.unique_insertAttempt h _
  | beginAttempt => exact CommerceDb.unique_beginAttempt h _ _ _ _
  | finishAttempt => exact CommerceDb.unique_finishAttempt h _ _ _ _
  | insertPreparation =>
    rw [Stmt.write, CommerceDb.insertPreparation]
    split <;> exact h
  | insertOrder =>
    rw [Stmt.write, CommerceDb.insertOrder]
    split
    · exact h
    · split <;> exact h
  | insertActionPreparation =>
    rw [Stmt.write, CommerceDb.insertActionPreparation]
    split <;> exact h
  | _ => exact h

theorem attempt_write (env : Choice) {a : CommerceAttempt} (ha : a ∈ db.attempts) (c : Stmt) :
    ∃ b ∈ (c.write env db).attempts, SameAttempt a b := by
  cases c with
  | insertAttempt =>
    rw [Stmt.write, CommerceDb.insertAttempt]
    split
    · exact ⟨a, ha, .refl a⟩
    · exact ⟨a, List.mem_append_left _ ha, .refl a⟩
  | beginAttempt kind attemptId =>
    refine ⟨_, KeyedTables.mem_updateWhere.mpr ⟨a, ha, rfl⟩, ?_⟩
    split
    · exact sameAttempt_begun env.now a
    · exact .refl a
  | finishAttempt attemptId facts =>
    rw [Stmt.write, CommerceDb.finishAttempt]
    split
    · exact ⟨a, ha, .refl a⟩
    · refine ⟨_, KeyedTables.mem_updateWhere.mpr ⟨a, ha, rfl⟩, ?_⟩
      split
      · exact sameAttempt_finished facts env.now a
      · exact .refl a
  | insertPreparation =>
    rw [Stmt.write, CommerceDb.insertPreparation]
    split <;> exact ⟨a, ha, .refl a⟩
  | insertOrder =>
    rw [Stmt.write, CommerceDb.insertOrder]
    split
    · exact ⟨a, ha, .refl a⟩
    · split <;> exact ⟨a, ha, .refl a⟩
  | insertActionPreparation =>
    rw [Stmt.write, CommerceDb.insertActionPreparation]
    split <;> exact ⟨a, ha, .refl a⟩
  | _ => exact ⟨a, ha, .refl a⟩

theorem canBegin_of_count {kind : AttemptKind} {attemptId now : String}
    (h : (db.beginAttempt kind subjectId attemptId now).1 = 1) :
    ∃ a ∈ db.attempts, a.attemptId = attemptId ∧ a.attemptCount = 0 ∧
      CommerceDb.begun now a ∈ (db.beginAttempt kind subjectId attemptId now).2.attempts := by
  have hpos : 0 < db.attempts.countP (CommerceDb.canBegin kind subjectId attemptId) := by
    rw [CommerceDb.beginAttempt] at h
    omega
  obtain ⟨a, ha, hcan⟩ := List.countP_pos_iff.mp hpos
  have hcan' := hcan
  rw [CommerceDb.canBegin, decide_eq_true_eq] at hcan'
  exact ⟨a, ha, hcan'.2.1, hcan'.2.2.2.2, KeyedTables.mem_updateWhere.mpr ⟨a, ha, if_pos hcan⟩⟩

theorem mem_of_insertAttempt {row : CommerceAttempt} (h : (db.insertAttempt row).1 = 1) :
    row ∈ (db.insertAttempt row).2.attempts := by
  rw [CommerceDb.insertAttempt] at h ⊢
  split at h
  · cases h
  · next hfree =>
    rw [if_neg hfree]
    exact List.mem_append_right _ List.mem_cons_self

end Writes

def Mutation.attemptId : Mutation → String
  | .placed _ attemptId => attemptId
  | .applied _ attemptId => attemptId

def Mutation.isFor : Mutation → CommerceAttempt → Prop
  | .placed request _, a => a.kind = .placement ∧ a.targetId = request.preparationRef
  | .applied request _, a => a.kind = .action ∧ a.idempotencyKey = request.idempotencyKey

theorem isFor_of_same {m : Mutation} {a b : CommerceAttempt} (h : m.isFor a) (hsame : SameAttempt a b) : m.isFor b := by
  cases m with
  | placed request => exact ⟨hsame.kind.trans h.1, hsame.targetId.trans h.2⟩
  | applied request => exact ⟨hsame.kind.trans h.1, hsame.idempotencyKey.trans h.2⟩

/-- What a client found is so. -/
structure Knows (rt : CommerceRuntime) (s : Shared) (l : Client) : Prop where
  attempt : ∀ a, l.ghost.attempt = some a → a.subjectId = subjectId ∧ ∃ b ∈ s.db.attempts, SameAttempt a b
  begun : ∀ id, l.ghost.begun = some id → (∃ b ∈ s.db.attempts, b.attemptId = id ∧ 1 ≤ b.attemptCount) ∧
    id ∉ s.mutations.map (·.attemptId)
  inserted : ∀ kind key, l.ghost.inserted = some (kind, key) →
    ∃ b ∈ s.db.attempts, b.subjectId = subjectId ∧ b.kind = kind ∧ b.idempotencyKey = key
  present : l.ghost.missing = false
  follows : Program.Obeys (permitsCall rt) learnCall
    (fun g r => (g.2 = true → ∃ e, r = .error e) ∧ ∀ a, r = .ok a → OnlyRecovers rt g.1 a) (l.ghost, l.rejected) l.program

section Runs

variable {rt : CommerceRuntime} {Thread : Type} {σ : System Thread Shared Client}

/-- Every submitted attempt was begun, and is submitted once. -/
structure Sound (rt : CommerceRuntime) (σ : System Thread Shared Client) : Prop where
  unique : UniqueAttempts σ.shared.db.attempts
  noted : ∀ m ∈ σ.shared.mutations, ∃ a ∈ σ.shared.db.attempts,
    a.attemptId = m.attemptId ∧ a.subjectId = subjectId ∧ m.isFor a ∧ 1 ≤ a.attemptCount
  once : (σ.shared.mutations.map (·.attemptId)).Nodup
  clients : ∀ t, Knows rt σ.shared (σ.threads t)
  exclusive : Exclusive (fun l => l.ghost.begun) σ

theorem sound_initial : Sound rt (initial Thread) where
  unique := .nil
  noted := by simp [initial]
  once := by simp [initial]
  clients := by
    intro t
    exact ⟨by simp [initial], by simp [initial], by simp [initial], rfl, by simp [initial], fun a h => (nomatch h)⟩
  exclusive := by
    intro t t' id h
    cases h

theorem Knows.apply {s : Shared} {l : Client} (h : Knows rt s l) (env : Choice) (c : Stmt)
    (hbegun : ∀ id, l.ghost.begun = some id → ∀ m ∈ c.mutations, m.attemptId ≠ id) : Knows rt (s.apply env c) l where
  attempt := by
    intro a ha
    obtain ⟨hs, b, hb, hsame⟩ := h.attempt a ha
    obtain ⟨b', hb', hsame'⟩ := attempt_write env hb c
    exact ⟨hs, b', hb', hsame.trans hsame'⟩
  begun := by
    intro id hid
    obtain ⟨⟨b, hb, hbid, hcount⟩, hnot⟩ := h.begun id hid
    obtain ⟨b', hb', hsame⟩ := attempt_write env hb c
    refine ⟨⟨b', hb', hsame.attemptId.trans hbid, hcount.trans hsame.attemptCount⟩, ?_⟩
    rw [Shared.apply, List.map_append, List.mem_append, not_or]
    refine ⟨hnot, fun hmem => ?_⟩
    obtain ⟨m, hm, hmid⟩ := List.mem_map.mp hmem
    exact hbegun id hid m hm hmid
  inserted := by
    intro kind key hkey
    obtain ⟨b, hb, hs, hk, hkey⟩ := h.inserted kind key hkey
    obtain ⟨b', hb', hsame⟩ := attempt_write env hb c
    exact ⟨b', hb', hsame.subjectId.trans hs, hsame.kind.trans hk, hsame.idempotencyKey.trans hkey⟩
  present := h.present
  follows := h.follows

theorem begun_of_mutation {g : Ghost} {c : Stmt} (hpermits : permits rt g c) {m : Mutation} (hm : m ∈ c.mutations) :
    g.begun = some m.attemptId ∧ ∃ a, g.attempt = some a ∧ a.attemptId = m.attemptId ∧ (m.isFor a ∨ g.missing = true) := by
  cases c with
  | placeOrder request attemptId =>
    obtain rfl := List.mem_singleton.mp hm
    obtain ⟨-, hbegun, a, ha, hid, hkind, htarget⟩ := hpermits
    exact ⟨hbegun, a, ha, hid, .inl ⟨hkind, htarget⟩⟩
  | applyAction request attemptId =>
    obtain rfl := List.mem_singleton.mp hm
    obtain ⟨-, hbegun, a, ha, hid, hkind, hkey⟩ := hpermits
    exact ⟨hbegun, a, ha, hid, hkey.imp_left fun hkey => ⟨hkind, hkey⟩⟩
  | _ => cases hm

theorem mutations_length (c : Stmt) : c.mutations = [] ∨ ∃ m, c.mutations = [m] := by
  cases c with
  | placeOrder request attemptId => exact .inr ⟨_, rfl⟩
  | applyAction request attemptId => exact .inr ⟨_, rfl⟩
  | _ => exact .inl rfl

theorem knows_learn {s : Shared} {l : Client} (h : Knows rt s l) (hunique : UniqueAttempts s.db.attempts)
    (hnoted : ∀ m ∈ s.mutations, ∃ a ∈ s.db.attempts, a.attemptId = m.attemptId ∧ 1 ≤ a.attemptCount)
    {env : Choice} {c : Stmt} {next : Reply → Prog (Except Failure Result)} (hprogram : l.program = .step c next) :
    Knows rt (s.apply env c) ⟨next ⟨s.db, env⟩, learn l.ghost c ⟨s.db, env⟩, l.rejected || c.rejectedBy env⟩ := by
  have hfollows := h.follows
  rw [hprogram] at hfollows
  have hrest := hfollows.2 ⟨s.db, env⟩
  have hstays : ∀ a ∈ s.db.attempts, a.subjectId = subjectId →
      a.subjectId = subjectId ∧ ∃ b ∈ (s.apply env c).db.attempts, SameAttempt a b := fun a ha hs =>
    ⟨hs, attempt_write env ha c⟩
  -- A client that has begun an attempt and asks for no mutation keeps what it knows.
  have happly : c.mutations = [] → Knows rt (s.apply env c) l := fun hnone =>
    h.apply env c fun id _ m hm => by
      rw [hnone] at hm
      cases hm
  cases c with
  | insertAttempt kind targetId operation idempotencyKey requestDigest authorizationHash =>
    have hold := happly rfl
    refine ⟨?_, ?_, ?_, ?_, hrest⟩
    · intro a ha
      refine hold.attempt a ?_
      rw [← ha, learn]
      split <;> rfl
    · intro id hid
      refine hold.begun id ?_
      rw [← hid, learn]
      split <;> rfl
    · intro k key hkey
      dsimp only [learn] at hkey
      split at hkey
      · next hone =>
        cases hkey
        exact ⟨_, mem_of_insertAttempt hone, rfl, rfl, rfl⟩
      · exact hold.inserted k key hkey
    · dsimp only [learn]
      split
      · exact hold.present
      · exact hold.present
  | findByKey kind idempotencyKey =>
    have hold := happly rfl
    dsimp only [learn]
    cases hget : s.db.getAttemptByIdempotency subjectId kind idempotencyKey with
    | some a =>
      obtain ⟨ha, hs, -, -⟩ := CommerceDb.mem_of_getAttemptByIdempotency hget
      refine ⟨?_, hold.begun, hold.inserted, hold.present, ?_⟩
      · rintro b hb
        cases hb
        exact hstays a ha hs
      · have := hrest
        rw [learnCall, learn, hget] at this
        exact this
    | none =>
      have hnot : l.ghost.inserted ≠ some (kind, idempotencyKey) := by
        intro hinserted
        obtain ⟨b, hb, hs, hk, hkey⟩ := h.inserted _ _ hinserted
        have hnone := List.find?_eq_none.mp hget b hb
        simp [hs, hk, hkey] at hnone
      have hrest' := hrest
      rw [learnCall, learn, hget] at hrest'
      dsimp only at hrest' ⊢
      rw [if_neg hnot] at hrest' ⊢
      exact ⟨hold.attempt, hold.begun, hold.inserted, hold.present, hrest'⟩
  | findTarget kind targetId =>
    have hold := happly rfl
    have hrest' := hrest
    dsimp only [learnCall, learn] at hrest' ⊢
    cases hget : s.db.findReservedTarget subjectId kind targetId with
    | some a =>
      obtain ⟨ha, hs, -⟩ := CommerceDb.mem_of_findReservedTarget hget
      rw [hget] at hrest'
      refine ⟨?_, hold.begun, hold.inserted, hold.present, hrest'⟩
      rintro b hb
      cases hb
      exact hstays a ha hs
    | none =>
      rw [hget] at hrest'
      exact ⟨hold.attempt, hold.begun, hold.inserted, hold.present, hrest'⟩
  | beginAttempt kind attemptId =>
    have hold := happly rfl
    have hrest' := hrest
    dsimp only [learnCall, learn] at hrest' ⊢
    by_cases hone : (s.db.beginAttempt kind subjectId attemptId env.now).1 = 1
    · rw [if_pos hone] at hrest' ⊢
      refine ⟨hold.attempt, ?_, hold.inserted, hold.present, hrest'⟩
      rintro id hid
      cases hid
      obtain ⟨a, ha, haid, hcount, hbegun⟩ := canBegin_of_count hone
      refine ⟨⟨_, hbegun, haid, Nat.le_add_left 1 a.attemptCount⟩, fun hmem => ?_⟩
      have hold' : attemptId ∈ s.mutations.map (·.attemptId) := by simpa [Shared.apply, Stmt.mutations] using hmem
      obtain ⟨m, hm, hmid⟩ := List.mem_map.mp hold'
      obtain ⟨b, hb, hbid, hbcount⟩ := hnoted m hm
      obtain rfl := hunique.eq_of_id hb ha (hbid.trans (hmid.trans haid.symm))
      omega
    · rw [if_neg hone] at hrest' ⊢
      exact ⟨hold.attempt, hold.begun, hold.inserted, hold.present, hrest'⟩
  | placeOrder request attemptId =>
    refine ⟨?_, by rintro id ⟨⟩, ?_, h.present, hrest⟩
    · intro a ha
      obtain ⟨hs, b, hb, hsame⟩ := h.attempt a ha
      exact ⟨hs, b, hb, hsame⟩
    · exact h.inserted
  | applyAction request attemptId =>
    refine ⟨?_, by rintro id ⟨⟩, ?_, h.present, hrest⟩
    · intro a ha
      obtain ⟨hs, b, hb, hsame⟩ := h.attempt a ha
      exact ⟨hs, b, hb, hsame⟩
    · exact h.inserted
  | recoverPlacement idempotencyKey preparationDigest =>
    have hold := happly rfl
    have hrest' := hrest
    dsimp only [learnCall, learn] at hrest' ⊢
    split at hrest'
    · exact ⟨hold.attempt, hold.begun, hold.inserted, hold.present, hrest'⟩
    · exact ⟨hold.attempt, hold.begun, hold.inserted, hold.present, hrest'⟩
  | recoverAction idempotencyKey actionDigest =>
    have hold := happly rfl
    have hrest' := hrest
    dsimp only [learnCall, learn] at hrest' ⊢
    split at hrest'
    · exact ⟨hold.attempt, hold.begun, hold.inserted, hold.present, hrest'⟩
    · exact ⟨hold.attempt, hold.begun, hold.inserted, hold.present, hrest'⟩
  | _ =>
    have hold := happly rfl
    exact ⟨hold.attempt, hold.begun, hold.inserted, hold.present, hrest⟩

variable [DecidableEq Thread]

theorem Sound.step (h : Sound rt σ) (action : Action Thread Op Choice) : Sound rt ((CommercePrograms.clients rt).step σ action) := by
  cases action with
  | start t op =>
    rw [Threads.step]
    split
    · refine ⟨h.unique, h.noted, h.once, fun t' => ?_, h.exclusive.become fun id hid => by cases hid⟩
      rw [threads_become]
      split
      · exact ⟨by rintro a ⟨⟩, by rintro id ⟨⟩, by rintro k key ⟨⟩, rfl, follows_program op⟩
      · exact h.clients t'
    · exact h
  | advance t env =>
    have hmine := h.clients t
    rw [Threads.step]
    dsimp only [CommercePrograms.clients]
    cases hprogram : (σ.threads t).program with
    | done result =>
      have hsame : σ.become t (σ.shared, σ.threads t) = σ := by simp [System.become]
      dsimp only
      rw [hsame]
      exact h
    | step c next =>
      have hfollows := hmine.follows
      rw [hprogram] at hfollows
      have hpermits := hfollows.1.2
      have hcounted : ∀ m ∈ σ.shared.mutations, ∃ a ∈ σ.shared.db.attempts, a.attemptId = m.attemptId ∧ 1 ≤ a.attemptCount := by
        intro m hm
        obtain ⟨a, ha, hid, -, -, hcount⟩ := h.noted m hm
        exact ⟨a, ha, hid, hcount⟩
      dsimp only
      refine ⟨unique_write h.unique c, ?_, ?_, ?_, ?_⟩
      · intro m hm
        rw [shared_become, Shared.apply, List.mem_append] at hm
        rcases hm with hm | hm
        · obtain ⟨a, ha, hid, hs, hfor, hcount⟩ := h.noted m hm
          obtain ⟨b, hb, hsame⟩ := attempt_write env ha c
          exact ⟨b, hb, hsame.attemptId.trans hid, hsame.subjectId.trans hs, isFor_of_same hfor hsame,
            hcount.trans hsame.attemptCount⟩
        · obtain ⟨hbegun, a, ha, hid, hfor⟩ := begun_of_mutation hpermits hm
          rw [hmine.present] at hfor
          obtain ⟨hs, b, hb, hsame⟩ := hmine.attempt a ha
          obtain ⟨⟨b', hb', hid', hcount⟩, -⟩ := hmine.begun _ hbegun
          obtain rfl := h.unique.eq_of_id hb hb' (hsame.attemptId.trans (hid.trans hid'.symm))
          obtain ⟨b'', hb'', hsame'⟩ := attempt_write env hb c
          refine ⟨b'', hb'', hsame'.attemptId.trans hid', ?_, ?_, hcount.trans hsame'.attemptCount⟩
          · exact hsame'.subjectId.trans (hsame.subjectId.trans hs)
          · exact isFor_of_same (hfor.resolve_right Bool.false_ne_true) (hsame.trans hsame')
      · rw [shared_become, Shared.apply, List.map_append]
        rcases mutations_length c with hnone | ⟨m, hone⟩
        · rw [hnone, List.map_nil, List.append_nil]
          exact h.once
        · have hm : m ∈ c.mutations := by rw [hone]; exact List.mem_singleton_self m
          have hnot := (hmine.begun _ (begun_of_mutation hpermits hm).1).2
          rw [hone]
          refine h.once.append (List.nodup_singleton _) ?_
          intro id hid hid'
          rw [List.map_singleton, List.mem_singleton] at hid'
          rw [hid'] at hid
          exact hnot hid
      · intro t'
        rw [threads_become, shared_become]
        split
        · exact knows_learn hmine h.unique hcounted hprogram
        · next hne =>
          refine (h.clients t').apply env c fun id hid m hm heq => ?_
          have hbegun := (begun_of_mutation hpermits hm).1
          rw [heq] at hbegun
          exact hne (h.exclusive t' t id hid hbegun)
      · refine h.exclusive.become fun id hid => ?_
        dsimp only at hid
        -- Only `begin` makes a client hold an attempt, and it was not begun by another.
        cases c with
        | beginAttempt kind attemptId =>
          dsimp only [learn] at hid
          split at hid
          · next hone =>
            cases hid
            refine .inr fun t' _ hheld => ?_
            obtain ⟨a, ha, haid, hcount, -⟩ := canBegin_of_count hone
            obtain ⟨⟨b, hb, hbid, hbcount⟩, -⟩ := (h.clients t').begun _ hheld
            obtain rfl := h.unique.eq_of_id ha hb (haid.trans hbid.symm)
            omega
          · exact .inl hid
        | placeOrder | applyAction => cases hid
        | insertAttempt | findByKey | findTarget | recoverPlacement | recoverAction =>
          refine .inl ?_
          rw [← hid]
          dsimp only [learn]
          split
          · rfl
          · first
            | rfl
            | split <;> rfl
        | _ => exact .inl hid

theorem sound_run (actions : List (Action Thread Op Choice)) : Sound rt (run (clients rt).step (initial Thread) actions) :=
  run_invariant (I := Sound rt) (fun _ action h => h.step action) sound_initial actions

def Mutation.places (preparationRef : String) : Mutation → Bool
  | .placed request _ => request.preparationRef = preparationRef
  | .applied .. => false

def Mutation.applies (idempotencyKey : String) : Mutation → Bool
  | .placed .. => false
  | .applied request _ => request.idempotencyKey = idempotencyKey

theorem length_le_one_of_map {ms : List Mutation} (hnodup : (ms.map (·.attemptId)).Nodup)
    (h : ∀ m ∈ ms, ∀ m' ∈ ms, m.attemptId = m'.attemptId) : ms.length ≤ 1 := by
  match ms with
  | [] => exact Nat.zero_le _
  | [m] => exact le_rfl
  | m :: m' :: rest =>
    rw [List.map_cons, List.map_cons, List.nodup_cons] at hnodup
    have heq := h m List.mem_cons_self m' (List.mem_cons_of_mem m List.mem_cons_self)
    exact absurd (heq ▸ List.mem_cons_self) hnodup.1

omit [DecidableEq Thread] in
theorem Sound.placed_once (h : Sound rt σ) (preparationRef : String) :
    σ.shared.mutations.countP (Mutation.places preparationRef) ≤ 1 := by
  rw [List.countP_eq_length_filter]
  refine length_le_one_of_map (h.once.sublist (List.filter_sublist.map _)) ?_
  intro m hm m' hm'
  obtain ⟨hm, hp⟩ := List.mem_filter.mp hm
  obtain ⟨hm', hp'⟩ := List.mem_filter.mp hm'
  obtain ⟨a, ha, hid, hs, hfor, -⟩ := h.noted m hm
  obtain ⟨a', ha', hid', hs', hfor', -⟩ := h.noted m' hm'
  cases m with
  | applied => cases hp
  | placed request attemptId =>
    cases m' with
    | applied => cases hp'
    | placed request' attemptId' =>
      simp only [Mutation.places, decide_eq_true_eq] at hp hp'
      obtain rfl := h.unique.eq_of_target ha ha' (hs.trans hs'.symm) (hfor.1.trans hfor'.1.symm)
        (hfor.2.trans (hp.trans (hp'.symm.trans hfor'.2.symm))) (by rw [hfor.1]; decide)
      exact hid.symm.trans hid'

omit [DecidableEq Thread] in
theorem Sound.applied_once (h : Sound rt σ) (idempotencyKey : String) :
    σ.shared.mutations.countP (Mutation.applies idempotencyKey) ≤ 1 := by
  rw [List.countP_eq_length_filter]
  refine length_le_one_of_map (h.once.sublist (List.filter_sublist.map _)) ?_
  intro m hm m' hm'
  obtain ⟨hm, hp⟩ := List.mem_filter.mp hm
  obtain ⟨hm', hp'⟩ := List.mem_filter.mp hm'
  obtain ⟨a, ha, hid, hs, hfor, -⟩ := h.noted m hm
  obtain ⟨a', ha', hid', hs', hfor', -⟩ := h.noted m' hm'
  cases m with
  | placed => cases hp
  | applied request attemptId =>
    cases m' with
    | placed => cases hp'
    | applied request' attemptId' =>
      simp only [Mutation.applies, decide_eq_true_eq] at hp hp'
      obtain rfl := h.unique.eq_of_key ha ha' (hs.trans hs'.symm) (hfor.1.trans hfor'.1.symm)
        (hfor.2.trans (hp.trans (hp'.symm.trans hfor'.2.symm)))
      exact hid.symm.trans hid'

/-- In every run the provider is asked at most once for the order of a preparation and for the action of a key, and a
call that did not ask returns only what it has recovered. -/
theorem no_double_purchase (rt : CommerceRuntime) (Thread : Type) [DecidableEq Thread]
    (actions : List (Action Thread Op Choice)) :
    let σ := run (clients rt).step (initial Thread) actions
    (∀ preparationRef, σ.shared.mutations.countP (Mutation.places preparationRef) ≤ 1) ∧
      (∀ idempotencyKey, σ.shared.mutations.countP (Mutation.applies idempotencyKey) ≤ 1) ∧
      ∀ t result, (σ.threads t).program = .done (.ok result) → OnlyRecovers rt (σ.threads t).ghost result := by
  intro σ
  have hsound : Sound rt σ := sound_run actions
  refine ⟨hsound.placed_once, hsound.applied_once, fun t result hdone => ?_⟩
  have hfollows := (hsound.clients t).follows
  rw [hdone] at hfollows
  exact hfollows.2 result rfl

end Runs

end OpenMinion.CommercePrograms
