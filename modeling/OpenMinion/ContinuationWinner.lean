import Mathlib.Data.Fintype.Basic
import OpenMinion.ContinuationApply
import OpenMinion.FencedSessionWrites

/-!
# Who wins a continuation packet

At most one applied event exists for a packet, and every other call finds out. A target session may still take two
packets, when the checks of both calls come before their inserts.
-/
namespace OpenMinion.ContinuationWinner
open ContinuationApply FencedSessionWrites InterleavedThreads IsoTimestamps JsonValues KeyedTables PythonText
open SessionEventWrites SessionReferences SessionTables TransitionRuns

section Packet

variable {env : ContinuationEnv} {packet : SessionContinuationPacket} {s s' : Shared} {act : Activity} {draw : Draw}

/-- What a call that has ended on the packet has returned: the winner's event if that was there before and is in its
target, one of its own target, or a rejection. -/
structure OutcomeOk (packet : SessionContinuationPacket) (db : SessionDb) (r : Outcome) : Prop where
  winner : ∀ e, r.call.winner = some e → applied db packet.packetId = [e]
  returned : ∃ result, r.result = .ok result ∧
    (∀ e, r.call.winner = some e → r.call.targetSessionId = e.sessionId →
      result = applyResult packet r.call.targetSessionId (some e.eventId) .alreadyApplied) ∧
    (result.status ≠ .rejected → ∃ e ∈ applied db packet.packetId,
      e.sessionId = r.call.targetSessionId ∧ result.targetEventId = some e.eventId)

def StageOk (packet : SessionContinuationPacket) (db : SessionDb) (call : ApplyCall) : Activity → Prop
  | .idle => True
  | .gettingPacket _ => True
  | .checkingPrior _ pk => pk = packet
  | .checkingExpiry _ pk | .gettingTarget _ pk => pk = packet ∧ call.winner = none
  | .countingTurns _ pk | .findingApplied _ pk | .gettingRefs _ pk | .applying _ pk =>
    pk = packet ∧ call.winner = none ∧ db.hasSession call.targetSessionId = true
  | .rereading _ pk => pk = packet ∧ call.winner = none ∧ applied db packet.packetId ≠ []
  | .rejecting _ pk _ => pk = packet ∧ ∀ e, call.winner = some e → call.targetSessionId ≠ e.sessionId

structure ActivityOk (packet : SessionContinuationPacket) (s : Shared) (act : Activity) : Prop where
  valid : ∀ pk, act.packet = some pk → pk.packetId ≠ ""
  winner : ∀ call, act.call = some call → call.packetId = packet.packetId →
    ∀ e, call.winner = some e → applied s.db packet.packetId = [e]
  stage : ∀ call, act.call = some call → call.packetId = packet.packetId → StageOk packet s.db call act

theorem activityOk_idle : ActivityOk packet s .idle :=
  ⟨fun _ hpk => (nomatch hpk), fun _ hcall => (nomatch hcall), fun _ hcall => (nomatch hcall)⟩

/-- The constraints of the tables, the packet, and what was returned for it. -/
structure Settled (env : ContinuationEnv) (packet : SessionContinuationPacket) (s : Shared) : Prop where
  sessions : ∀ e ∈ s.db.sessionEvents, s.db.hasSession e.sessionId = true
  once : (applied s.db packet.packetId).length ≤ 1
  stored : getPacket env s.db packet.packetId = .ok packet
  outcomes : ∀ r ∈ s.outcomes, r.call.packetId = packet.packetId → OutcomeOk packet s.db r

theorem applied_eq_of_extends {db db' : SessionDb} (h : Extends db db') {packetId : String} {e : SessionEventRow}
    (he : applied db packetId = [e]) (honce : (applied db' packetId).length ≤ 1) : applied db' packetId = [e] := by
  have hinitial := h.applied packetId
  rw [he] at hinitial
  exact (hinitial.eq_of_length_le honce).symm

theorem OutcomeOk.extends {db db' : SessionDb} {r : Outcome} (h : OutcomeOk packet db r) (hext : Extends db db')
    (honce : (applied db' packet.packetId).length ≤ 1) : OutcomeOk packet db' r := by
  refine ⟨fun e he => applied_eq_of_extends hext (h.winner e he) honce, ?_⟩
  obtain ⟨result, hresult, hwinner, hstatus⟩ := h.returned
  refine ⟨result, hresult, hwinner, fun hs => ?_⟩
  obtain ⟨e, he, hsid⟩ := hstatus hs
  exact ⟨e, (hext.applied _).subset he, hsid⟩

theorem ActivityOk.extends (h : ActivityOk packet s act) (hext : Extends s.db s'.db)
    (honce : (applied s'.db packet.packetId).length ≤ 1) : ActivityOk packet s' act := by
  refine ⟨h.valid, fun call hcall hp e he => applied_eq_of_extends hext (h.winner call hcall hp e he) honce, ?_⟩
  intro call hcall hp
  have hstage := h.stage call hcall hp
  cases act with
  | countingTurns c pk => exact ⟨hstage.1, hstage.2.1, hext.hasSession _ ▸ hstage.2.2⟩
  | findingApplied c pk => exact ⟨hstage.1, hstage.2.1, hext.hasSession _ ▸ hstage.2.2⟩
  | gettingRefs c pk => exact ⟨hstage.1, hstage.2.1, hext.hasSession _ ▸ hstage.2.2⟩
  | applying c pk => exact ⟨hstage.1, hstage.2.1, hext.hasSession _ ▸ hstage.2.2⟩
  | rereading c pk =>
    refine ⟨hstage.1, hstage.2.1, fun hnil => hstage.2.2 ?_⟩
    have hinitial := hext.applied packet.packetId
    rw [hnil] at hinitial
    exact List.prefix_nil.mp hinitial
  | _ => exact hstage

theorem Settled.append (h : Settled env packet s) {a : AppendEvent} {name q id : String} {db' : SessionDb}
    (hcont : IsContinuation a name q) (happend : appendEvent env.rt s.db a = .ok (db', id)) :
    Settled env packet { s with db := db' } := by
  have hext := hcont.append_extends happend
  have honce : (applied db' packet.packetId).length ≤ 1 := by
    rcases hcont.applied_append happend packet.packetId with heq | ⟨-, -, -, row, hrow, -⟩
    · exact heq ▸ h.once
    · rw [hrow]
      rfl
  refine ⟨fun e he => ?_, honce, hext.getPacket h.stored, fun r hr hp => (h.outcomes r hr hp).extends hext honce⟩
  obtain ⟨hsessions, hevents | ⟨row, hevents, -, hsid, -, -, hsession, -⟩⟩ := hcont.append_ok happend
  · exact (hsessions _).trans (h.sessions e (hevents ▸ he))
  · refine (hsessions _).trans ?_
    rw [hevents] at he
    rcases List.mem_append.mp he with he | he
    · exact h.sessions e he
    · obtain rfl := List.mem_singleton.mp he
      exact hsid ▸ hsession

theorem Settled.finish (h : Settled env packet s) {call : ApplyCall} {result : Except ApplyError ApplyResult}
    (hout : call.packetId = packet.packetId → OutcomeOk packet s.db ⟨call, result⟩) :
    Settled env packet (finish s call result).1 := by
  refine ⟨h.sessions, h.once, h.stored, fun r hr hp => ?_⟩
  rcases List.mem_append.mp hr with hr | hr
  · exact h.outcomes r hr hp
  · obtain rfl := List.mem_singleton.mp hr
    exact hout hp

theorem appliedByTime_eq {db : SessionDb} {packetId : String} (h : (applied db packetId).length ≤ 1) :
    appliedByTime db packetId = applied db packetId := by
  rw [appliedByTime]
  match applied db packetId, h with
  | [], _ => rfl
  | [e], _ => rfl

private theorem eq_singleton_of_mem {rows : List SessionEventRow} {e : SessionEventRow} (h : rows.length ≤ 1)
    (he : e ∈ rows) : rows = [e] := by
  match rows, h with
  | [e'], _ => rw [List.mem_singleton.mp he]

def StepOk (env : ContinuationEnv) (packet : SessionContinuationPacket) (r : Shared × Activity) : Prop :=
  Settled env packet r.1 ∧ ActivityOk packet r.1 r.2

theorem StepOk.finish (h : Settled env packet s) {call : ApplyCall} {result : Except ApplyError ApplyResult}
    (hout : call.packetId = packet.packetId → OutcomeOk packet s.db ⟨call, result⟩) :
    StepOk env packet (finish s call result) :=
  ⟨h.finish hout, activityOk_idle⟩

theorem StepOk.goOn (h : Settled env packet s) (hact : ActivityOk packet s act) {call : ApplyCall} {act' : Activity}
    (hcall : act.call = some call) (hcall' : act'.call = some call)
    (hvalid : ∀ pk, act'.packet = some pk → pk.packetId ≠ "")
    (hstage : call.packetId = packet.packetId → StageOk packet s.db call act') : StepOk env packet (s, act') := by
  refine ⟨h, hvalid, ?_, ?_⟩
  · intro call₁ hcall₁
    obtain rfl := Option.some.inj (hcall'.symm.trans hcall₁)
    exact hact.winner call hcall
  · intro call₁ hcall₁
    obtain rfl := Option.some.inj (hcall'.symm.trans hcall₁)
    exact hstage

private theorem valid_packet {pk : SessionContinuationPacket} {act : Activity} (hpk : act.packet = some pk)
    (hvalid : pk.packetId ≠ "") : ∀ pk₁, act.packet = some pk₁ → pk₁.packetId ≠ "" := by
  intro pk₁ hpk₁
  obtain rfl := Option.some.inj (hpk.symm.trans hpk₁)
  exact hvalid

theorem StepOk.rejectOr (h : Settled env packet s) (hact : ActivityOk packet s act) {call : ApplyCall}
    {pk : SessionContinuationPacket} (hcall : act.call = some call) (hpk : pk.packetId ≠ "")
    (hnone : call.packetId = packet.packetId → pk = packet ∧ call.winner = none) {failure : Option String}
    {act' : Activity} (hcall' : act'.call = some call) (hpk' : act'.packet = some pk)
    (hstage : failure = none → call.packetId = packet.packetId → StageOk packet s.db call act') :
    StepOk env packet (rejectOr s call pk failure act') := by
  cases failure with
  | some reason =>
    refine .goOn h hact hcall rfl (valid_packet rfl hpk) fun hp => ⟨(hnone hp).1, fun e he => ?_⟩
    rw [(hnone hp).2] at he
    cases he
  | none => exact .goOn h hact hcall hcall' (valid_packet hpk' hpk) (hstage rfl)

theorem StepOk.afterPrior (h : Settled env packet s) (hact : ActivityOk packet s act) {call : ApplyCall}
    {pk : SessionContinuationPacket} (hcall : act.call = some call) (hvalid : pk.packetId ≠ "")
    (hpk : call.packetId = packet.packetId → pk = packet) {prior : SessionEventRow}
    (hprior : call.packetId = packet.packetId → applied s.db packet.packetId = [prior]) :
    StepOk env packet (afterPrior s call pk prior) := by
  have hwinner := hact.winner call hcall
  have hsame : call.packetId = packet.packetId → ∀ e, call.winner = some e → e = prior := by
    intro hp e he
    have heq := (hwinner hp e he).symm.trans (hprior hp)
    exact List.singleton_inj.mp heq
  rw [ContinuationApply.afterPrior]
  split
  · next hsid =>
    refine .finish h fun hp => ⟨hwinner hp, _, rfl, fun e he _ => ?_, fun _ => ⟨prior, ?_, hsid, rfl⟩⟩
    · rw [hsame hp e he, hpk hp]
    · rw [hprior hp]
      exact List.mem_cons_self
  · next hsid =>
    refine .goOn h hact hcall rfl (valid_packet rfl hvalid) fun hp => ⟨hpk hp, fun e he htarget => hsid ?_⟩
    rw [← hsame hp e he, htarget]

theorem Settled.packet_stored (h : Settled env packet s) : (getEventById s.db packet.packetId).isSome = true ∧
    s.db.hasSession packet.sourceSessionId = true := by
  obtain ⟨-, -, source, hsource, hsome, hsid⟩ := getPacket_ok h.stored
  refine ⟨?_, hsid ▸ h.sessions source hsource⟩
  rw [hsome, Option.isSome_some]

section Places

variable {call : ApplyCall} {pk : SessionContinuationPacket}

theorem stepOk_gettingPacket (h : Settled env packet s) (hact : ActivityOk packet s (.gettingPacket call)) :
    StepOk env packet (next env s (.gettingPacket call) draw) := by
  rw [next]
  split
  · next e herror =>
    refine .finish h fun hp => ?_
    rw [hp, h.stored] at herror
    cases herror
  · next pk hpk =>
    obtain ⟨hid, hne, -⟩ := getPacket_ok hpk
    refine .goOn h hact rfl rfl (valid_packet rfl (hid ▸ hne)) fun hp => ?_
    rw [hp, h.stored] at hpk
    exact (Except.ok.inj hpk).symm

theorem stepOk_checkingPrior (h : Settled env packet s) (hact : ActivityOk packet s (.checkingPrior call pk)) :
    StepOk env packet (next env s (.checkingPrior call pk) draw) := by
  have hpk := hact.stage call rfl
  rw [next]
  split
  · next prior hprior =>
    refine .afterPrior h hact rfl (hact.valid pk rfl) hpk fun hp => ?_
    rw [hp, appliedByTime_eq h.once] at hprior
    exact eq_singleton_of_mem h.once (List.mem_of_mem_head? hprior)
  · next hnone =>
    have hwinner : call.packetId = packet.packetId → call.winner = none := by
      intro hp
      rw [hp, appliedByTime_eq h.once, List.head?_eq_none_iff] at hnone
      cases hw : call.winner with
      | none => rfl
      | some e =>
        have happlied := hact.winner call rfl hp e hw
        rw [hnone] at happlied
        cases happlied
    exact .rejectOr h hact rfl (hact.valid pk rfl) (fun hp => ⟨hpk hp, hwinner hp⟩) rfl rfl
      fun _ hp => ⟨hpk hp, hwinner hp⟩

theorem stepOk_gettingTarget (h : Settled env packet s) (hact : ActivityOk packet s (.gettingTarget call pk)) :
    StepOk env packet (next env s (.gettingTarget call pk) draw) := by
  have hstage := hact.stage call rfl
  rw [next]
  refine .rejectOr h hact rfl (hact.valid pk rfl) hstage rfl rfl fun hfound hp =>
    ⟨(hstage hp).1, (hstage hp).2, ?_⟩
  cases htarget : s.db.getSession call.targetSessionId with
  | none =>
    rw [htarget] at hfound
    cases hfound
  | some row =>
    obtain ⟨hrow, hid⟩ := lookup_some htarget
    exact List.any_eq_true.mpr ⟨row, hrow, decide_eq_true hid⟩

theorem stepOk_applying (h : Settled env packet s) (hact : ActivityOk packet s (.applying call pk))
    (hfresh : getEventById s.db draw.freshId = none) : StepOk env packet (next env s (.applying call pk) draw) := by
  have hstage := hact.stage call rfl
  have hcont := isContinuation_appliedEvent (hact.valid pk rfl) call.targetSessionId draw.freshId draw.now
  -- the id is fresh and both sessions are there: only the unique index can refuse the event
  have hcases := fun hp : call.packetId = packet.packetId =>
    hcont.append_fresh env.rt hfresh (hstage hp).2.2 ((hstage hp).1 ▸ h.packet_stored.1)
  rw [next]
  split
  · next db id happend =>
    have hsettled := h.append hcont happend
    refine .finish hsettled fun hp => ⟨fun e he => ?_, _, rfl, fun e he => ?_, fun _ => ?_⟩
    · rw [(hstage hp).2.1] at he
      cases he
    · rw [(hstage hp).2.1] at he
      cases he
    · rcases hcases hp with ⟨db', row, happend', hevents, hid, hsid, htype, hparent⟩ | ⟨-, -, herror⟩
      · obtain ⟨rfl, rfl⟩ := Prod.mk.inj (Except.ok.inj (happend.symm.trans happend'))
        have hmem : row ∈ db.sessionEvents := hevents ▸ List.mem_append_right _ List.mem_cons_self
        exact ⟨row, mem_applied.mpr ⟨hmem, (hstage hp).1 ▸ hparent, htype⟩, hsid, congrArg some hid.symm⟩
      · rw [happend] at herror
        cases herror
  · next hrefused =>
    refine .goOn h hact rfl rfl (valid_packet rfl (hact.valid pk rfl)) fun hp => ?_
    rcases hcases hp with ⟨db', row, happend, -⟩ | ⟨-, happlied, -⟩
    · rw [hrefused] at happend
      cases happend
    · exact ⟨(hstage hp).1, (hstage hp).2.1, (hstage hp).1 ▸ happlied⟩
  · next e hne herror =>
    refine .finish h fun hp => ?_
    rcases hcases hp with ⟨db', row, happend, -⟩ | ⟨-, -, hrefused⟩
    · rw [herror] at happend
      cases happend
    · rw [herror] at hrefused
      exact absurd (Except.error.inj hrefused) hne

theorem stepOk_rereading (h : Settled env packet s) (hact : ActivityOk packet s (.rereading call pk)) :
    StepOk env packet (next env s (.rereading call pk) draw) := by
  have hstage := hact.stage call rfl
  rw [next]
  split
  · next prior hprior =>
    refine .afterPrior h hact rfl (hact.valid pk rfl) (fun hp => (hstage hp).1) fun hp => ?_
    rw [(hstage hp).1, appliedByTime_eq h.once] at hprior
    exact eq_singleton_of_mem h.once (List.mem_of_mem_head? hprior)
  · next hnone =>
    refine .finish h fun hp => ?_
    rw [(hstage hp).1, appliedByTime_eq h.once, List.head?_eq_none_iff] at hnone
    exact absurd hnone (hstage hp).2.2

theorem stepOk_rejecting {reason : String} (h : Settled env packet s)
    (hact : ActivityOk packet s (.rejecting call pk reason)) (hfresh : getEventById s.db draw.freshId = none) :
    StepOk env packet (next env s (.rejecting call pk reason) draw) := by
  have hstage := hact.stage call rfl
  obtain ⟨name, hname, hcont⟩ :=
    isContinuation_rejectedEvent (hact.valid pk rfl) call.targetSessionId reason draw
  rw [next]
  split
  · next db id happend =>
    have hsettled := h.append hcont happend
    refine .finish hsettled fun hp => ⟨fun e he => ?_, _, rfl, fun e he htarget => ?_, fun hstatus => ?_⟩
    · exact applied_eq_of_extends (hcont.append_extends happend) (hact.winner call rfl hp e he) hsettled.once
    · exact absurd htarget ((hstage hp).2 e he)
    · exact absurd rfl hstatus
  · next e herror =>
    refine .finish h fun hp => ?_
    have hpk := (hstage hp).1
    obtain ⟨hparent, hsession⟩ := h.packet_stored
    rcases hcont.append_fresh env.rt hfresh (hpk ▸ hsession) (hpk ▸ hparent) with ⟨db', row, happend, -⟩ | ⟨happlied, -⟩
    · rw [herror] at happend
      cases happend
    · exact absurd happlied hname

end Places

theorem stepOk_next (h : Settled env packet s) (hact : ActivityOk packet s act)
    (hfresh : getEventById s.db draw.freshId = none) : StepOk env packet (next env s act draw) := by
  cases act with
  | idle => exact ⟨h, hact⟩
  | gettingPacket call => exact stepOk_gettingPacket h hact
  | checkingPrior call pk => exact stepOk_checkingPrior h hact
  | checkingExpiry call pk =>
    have hstage := hact.stage call rfl
    exact .rejectOr h hact rfl (hact.valid pk rfl) hstage rfl rfl fun _ hp => hstage hp
  | gettingTarget call pk => exact stepOk_gettingTarget h hact
  | countingTurns call pk =>
    have hstage := hact.stage call rfl
    exact .rejectOr h hact rfl (hact.valid pk rfl) (fun hp => ⟨(hstage hp).1, (hstage hp).2.1⟩) rfl rfl
      fun _ hp => hstage hp
  | findingApplied call pk =>
    have hstage := hact.stage call rfl
    exact .rejectOr h hact rfl (hact.valid pk rfl) (fun hp => ⟨(hstage hp).1, (hstage hp).2.1⟩) rfl rfl
      fun _ hp => hstage hp
  | gettingRefs call pk =>
    have hstage := hact.stage call rfl
    rw [next]
    split
    · next hmissing =>
      refine .finish h fun hp => ?_
      obtain ⟨row, hrow, hid⟩ := List.any_eq_true.mp (hstage hp).2.2
      exact absurd (of_decide_eq_true hid) (lookup_eq_none.mp hmissing row hrow)
    · exact .rejectOr h hact rfl (hact.valid pk rfl) (fun hp => ⟨(hstage hp).1, (hstage hp).2.1⟩) rfl rfl
        fun _ hp => hstage hp
  | applying call pk => exact stepOk_applying h hact hfresh
  | rereading call pk => exact stepOk_rereading h hact
  | rejecting call pk reason => exact stepOk_rejecting h hact hfresh

end Packet

section Assertions

variable {env : ContinuationEnv} {packet : SessionContinuationPacket} {Process : Type}
variable {σ : System Process Shared Activity}

def start (db : SessionDb) : System Process Shared Activity := ⟨⟨db, []⟩, fun _ => .idle⟩

theorem annotated_start {db : SessionDb} (hsessions : ∀ e ∈ db.sessionEvents, db.hasSession e.sessionId = true)
    (hpacket : getPacket env db packet.packetId = .ok packet) (honce : (applied db packet.packetId).length ≤ 1) :
    Annotated (Settled env packet) (ActivityOk packet) (start db : System Process Shared Activity) :=
  ⟨⟨hsessions, honce, hpacket, fun _ hr => (List.not_mem_nil hr).elim⟩, fun _ => activityOk_idle⟩

theorem keeps_begin (h : Annotated (Settled env packet) (ActivityOk packet) σ) (t : Process) (call : ApplyCall) :
    Keeps (Settled env packet) (ActivityOk packet) σ t (begin σ.shared call) := by
  refine h.move ⟨fun _ hpk => (nomatch hpk), ?_, ?_⟩
  · rintro _ ⟨⟩ hp e he
    have hp : call.packetId = packet.packetId := hp
    have he : (applied σ.shared.db call.packetId).head? = some e := he
    rw [hp] at he
    exact eq_singleton_of_mem h.shared.once (List.mem_of_mem_head? he)
  · rintro _ ⟨⟩ _
    trivial

theorem keeps_next (h : Annotated (Settled env packet) (ActivityOk packet) σ) (t : Process) {draw : Draw}
    (hfresh : getEventById σ.shared.db draw.freshId = none) :
    Keeps (Settled env packet) (ActivityOk packet) σ t (next env σ.shared (σ.threads t) draw) := by
  obtain ⟨hshared, hown⟩ := stepOk_next h.shared (h.threads t) hfresh
  refine ⟨hshared, hown, fun t' _ => (h.threads t').extends ?_ hshared.once⟩
  rcases next_db env σ.shared (σ.threads t) draw (h.threads t).valid with hdb | ⟨a, name, pk, id, -, hcont, happend, -⟩
  · rw [hdb]
    exact .refl _
  · exact hcont.append_extends happend

end Assertions

variable {Process : Type} [DecidableEq Process]

/-- Every `uuid4` that is drawn is new. -/
def FreshDraws (σ : System Process Shared Activity) : Action Process ApplyCall Draw → Prop
  | .start _ _ => True
  | .advance _ draw => getEventById σ.shared.db draw.freshId = none

instance (σ : System Process Shared Activity) : (a : Action Process ApplyCall Draw) → Decidable (FreshDraws σ a)
  | .start _ _ => isTrue trivial
  | .advance _ draw => inferInstanceAs (Decidable (getEventById σ.shared.db draw.freshId = none))

/-- A packet is applied exactly once. -/
structure AppliedOnce (env : ContinuationEnv) (packet : SessionContinuationPacket)
    (σ : System Process Shared Activity) : Prop where
  unique : (applied σ.shared.db packet.packetId).length ≤ 1
  /-- An applied event that a call has found at its start is the one for ever. -/
  kept : ∀ r ∈ σ.shared.outcomes, r.call.packetId = packet.packetId → ∀ e, r.call.winner = some e →
    applied σ.shared.db packet.packetId = [e]
  /-- No call has raised. -/
  returned : ∀ r ∈ σ.shared.outcomes, r.call.packetId = packet.packetId → ∃ result, r.result = .ok result
  sameTarget : ∀ r ∈ σ.shared.outcomes, r.call.packetId = packet.packetId → ∀ e, r.call.winner = some e →
    r.call.targetSessionId = e.sessionId →
    r.result = .ok (applyResult packet r.call.targetSessionId (some e.eventId) .alreadyApplied)
  otherTarget : ∀ r ∈ σ.shared.outcomes, r.call.packetId = packet.packetId →
    ∀ e ∈ applied σ.shared.db packet.packetId, r.call.targetSessionId ≠ e.sessionId →
    ∃ result, r.result = .ok result ∧ result.status = .rejected
  /-- Once the packet is applied, its calls add no applied event to any session. -/
  noneAdded : ∀ t draw call, (σ.threads t).call = some call → call.packetId = packet.packetId →
    applied σ.shared.db packet.packetId ≠ [] →
    ∀ q, applied ((processes env).step σ (.advance t draw)).shared.db q = applied σ.shared.db q
  /-- A call comes to its end after at most ten steps of its process. -/
  ends : ∀ t draw, (σ.threads t).isIdle = false →
    (((processes env).step σ (.advance t draw)).threads t).stepsLeft < (σ.threads t).stepsLeft

section AppliedOnce

variable {env : ContinuationEnv} {packet : SessionContinuationPacket} {σ : System Process Shared Activity}

theorem Annotated.appliedOnce (h : Annotated (Settled env packet) (ActivityOk packet) σ) : AppliedOnce env packet σ := by
  have hdone := h.shared.outcomes
  refine ⟨h.shared.once, fun r hr hp => (hdone r hr hp).winner, fun r hr hp => ?_, fun r hr hp e he htarget => ?_,
    fun r hr hp e he htarget => ?_, fun t draw call hcall hp happlied q => ?_, fun t draw hidle => ?_⟩
  · obtain ⟨result, hresult, -⟩ := (hdone r hr hp).returned
    exact ⟨result, hresult⟩
  · obtain ⟨result, hresult, hwinner, -⟩ := (hdone r hr hp).returned
    rw [hresult, hwinner e he htarget]
  · obtain ⟨result, hresult, -, hstatus⟩ := (hdone r hr hp).returned
    refine ⟨result, hresult, ?_⟩
    by_contra hne
    obtain ⟨e', he', hsid, -⟩ := hstatus hne
    rw [eq_singleton_of_mem h.shared.once he] at he'
    rw [List.mem_singleton.mp he'] at hsid
    exact htarget hsid.symm
  · have hact := h.threads t
    have hstep : ((processes env).step σ (.advance t draw)).shared = (next env σ.shared (σ.threads t) draw).1 := rfl
    rw [hstep]
    rcases next_db env σ.shared (σ.threads t) draw hact.valid with hdb | ⟨a, name, pk, id, hpk, hcont, happend, happlying⟩
    · rw [hdb]
    · rcases hcont.applied_append happend q with heq | ⟨hname, rfl, hempty, -⟩
      · exact heq
      · obtain ⟨call', hact', -⟩ := happlying hname
        rw [hact'] at hcall hact
        obtain rfl := Option.some.inj hcall
        have hpk' : pk = packet := (hact.stage call' rfl hp).1
        exact absurd (hpk' ▸ hempty) happlied
  · rw [Threads.step, threads_become, if_pos rfl]
    exact stepsLeft_next env σ.shared draw hidle

end AppliedOnce

/-- In every run of processes that apply packets to sessions of one database, every packet is
applied at most once, and all other calls find out. -/
theorem continuation_applied_once (env : ContinuationEnv) (db : SessionDb)
    (hsessions : ∀ e ∈ db.sessionEvents, db.hasSession e.sessionId = true) (packet : SessionContinuationPacket)
    (hpacket : getPacket env db packet.packetId = .ok packet) (honce : (applied db packet.packetId).length ≤ 1)
    (actions : List (Action Process ApplyCall Draw))
    (hfresh : Guarded (processes env).step FreshDraws (start db) actions) :
    AppliedOnce env packet (run (processes env).step (start db) actions) :=
  Annotated.appliedOnce (annotated_run (fun _ t call hσ _ _ => keeps_begin hσ t call)
    (fun _ t _ hσ hok => keeps_next hσ t hok) (annotated_start hsessions hpacket honce) hfresh)

def appliedTo (db : SessionDb) (sessionId : String) : List SessionEventRow :=
  db.sessionEvents.filter fun e => e.sessionId = sessionId && e.eventType = "session.continuation.applied"

def checked : Activity → Option (ApplyCall × SessionContinuationPacket)
  | .gettingRefs call packet | .applying call packet => some (call, packet)
  | _ => none

/-- The process is about to insert an applied event into a session that another process has
already checked for another packet. -/
def Overlaps (target packetId : String) (act : Activity) : Bool :=
  (checked act).any fun (call, packet) => call.targetSessionId = target && packet.packetId ≠ packetId

def inserting : Activity → Option (ApplyCall × SessionContinuationPacket)
  | .applying call packet => some (call, packet)
  | _ => none

/-- No process inserts an applied event into a target that another one has checked for
another packet. -/
def NoOverlap (σ : System Process Shared Activity) : Action Process ApplyCall Draw → Prop
  | .start _ _ => True
  | .advance t _ => ∀ p ∈ inserting (σ.threads t), applied σ.shared.db p.2.packetId = [] →
    ∀ t', t' ≠ t → Overlaps p.1.targetSessionId p.2.packetId (σ.threads t') = false

instance [Fintype Process] (σ : System Process Shared Activity) :
    (a : Action Process ApplyCall Draw) → Decidable (NoOverlap σ a)
  | .start _ _ => isTrue trivial
  | .advance t _ => inferInstanceAs (Decidable (∀ p ∈ inserting (σ.threads t), applied σ.shared.db p.2.packetId = [] →
      ∀ t', t' ≠ t → Overlaps p.1.targetSessionId p.2.packetId (σ.threads t') = false))

def InitializedOnce (s : Shared) : Prop := ∀ sessionId, (appliedTo s.db sessionId).length ≤ 1

/-- A checked target holds applied events of the call's own packet only. -/
structure TargetOk (s : Shared) (act : Activity) : Prop where
  valid : ∀ pk, act.packet = some pk → pk.packetId ≠ ""
  empty : ∀ p ∈ checked act, ∀ e ∈ appliedTo s.db p.1.targetSessionId, e.parentEventId = some p.2.packetId

section Target

variable {env : ContinuationEnv} {s s' : Shared} {act : Activity} {draw : Draw} {db db' : SessionDb}

theorem mem_appliedTo {e : SessionEventRow} {sessionId : String} : e ∈ appliedTo db sessionId ↔
    e ∈ db.sessionEvents ∧ e.sessionId = sessionId ∧ e.eventType = "session.continuation.applied" := by
  simp [appliedTo]

theorem appliedIn_eq_nil {sessionId : String} (h : appliedIn db sessionId = []) : appliedTo db sessionId = [] := by
  rw [List.eq_nil_iff_forall_not_mem] at h ⊢
  intro e he
  obtain ⟨hmem, hsid, htype⟩ := mem_appliedTo.mp he
  refine h e (List.mem_filter.mpr ⟨?_, decide_eq_true htype⟩)
  rw [eventsOf, List.mem_insertionSort]
  exact List.mem_filter.mpr ⟨hmem, decide_eq_true hsid⟩

theorem appliedTo_append {rt : Runtime} {a : AppendEvent} {name packetId id : String}
    (h : IsContinuation a name packetId) (happend : appendEvent rt db a = .ok (db', id)) (sessionId : String) :
    appliedTo db' sessionId = appliedTo db sessionId ∨
      name = "session.continuation.applied" ∧ sessionId = a.sessionId ∧ applied db packetId = [] ∧
        ∃ row, appliedTo db' sessionId = appliedTo db sessionId ++ [row] ∧ row.parentEventId = some packetId := by
  obtain ⟨-, hevents | ⟨row, hevents, -, hsid, htype, hparent, -, hempty⟩⟩ := h.append_ok happend
  · left
    rw [appliedTo, hevents, appliedTo]
  · by_cases hrow : row.sessionId = sessionId ∧ row.eventType = "session.continuation.applied"
    · right
      have hname : name = "session.continuation.applied" := htype.symm.trans hrow.2
      refine ⟨hname, hrow.1.symm.trans hsid, hempty hname, row, ?_, hparent⟩
      rw [appliedTo, hevents, List.filter_append, appliedTo, List.filter_cons_of_pos (by simpa using hrow)]
      rfl
    · left
      rw [appliedTo, hevents, List.filter_append, List.filter_cons_of_neg (by simpa using hrow), appliedTo]
      simp

theorem TargetOk.of_eq (h : TargetOk s act)
    (heq : ∀ p ∈ checked act, appliedTo s'.db p.1.targetSessionId = appliedTo s.db p.1.targetSessionId) :
    TargetOk s' act :=
  ⟨h.valid, fun p hp => by rw [heq p hp]; exact h.empty p hp⟩

theorem targetOk_of_unchecked (hvalid : ∀ pk, act.packet = some pk → pk.packetId ≠ "") (h : checked act = none) :
    TargetOk s act :=
  ⟨hvalid, fun p hp => by rw [h] at hp; cases hp⟩

theorem targetOk_idle : TargetOk s .idle := targetOk_of_unchecked (fun _ hpk => nomatch hpk) rfl

theorem targetOk_gettingPacket (call : ApplyCall) : TargetOk s (.gettingPacket call) :=
  targetOk_of_unchecked (fun _ hpk => nomatch hpk) rfl

theorem TargetOk.rejectOr {call : ApplyCall} {packet : SessionContinuationPacket} (hvalid : packet.packetId ≠ "")
    {failure : Option String} {act' : Activity} (hpk : act'.packet = some packet)
    (hact : failure = none → ∀ p ∈ checked act', ∀ e ∈ appliedTo s.db p.1.targetSessionId,
      e.parentEventId = some p.2.packetId) :
    TargetOk (rejectOr s call packet failure act').1 (rejectOr s call packet failure act').2 := by
  cases failure with
  | some reason =>
    refine targetOk_of_unchecked ?_ rfl
    rintro _ ⟨⟩
    exact hvalid
  | none =>
    refine ⟨fun pk hpk' => ?_, hact rfl⟩
    obtain rfl := Option.some.inj (hpk.symm.trans hpk')
    exact hvalid

theorem TargetOk.afterPrior {call : ApplyCall} {packet : SessionContinuationPacket} (hvalid : packet.packetId ≠ "")
    (prior : SessionEventRow) :
    TargetOk (afterPrior s call packet prior).1 (afterPrior s call packet prior).2 := by
  rw [ContinuationApply.afterPrior]
  split
  · exact targetOk_idle
  · refine targetOk_of_unchecked ?_ rfl
    rintro _ ⟨⟩
    exact hvalid

theorem TargetOk.next (h : TargetOk s act) :
    TargetOk (ContinuationApply.next env s act draw).1 (ContinuationApply.next env s act draw).2 := by
  cases act with
  | idle => exact h
  | gettingPacket call =>
    rw [ContinuationApply.next]
    split
    · exact targetOk_idle
    · next pk hpk =>
      refine targetOk_of_unchecked ?_ rfl
      rintro _ ⟨⟩
      obtain ⟨hid, hne, -⟩ := getPacket_ok hpk
      exact hid ▸ hne
  | checkingPrior call pk =>
    rw [ContinuationApply.next]
    split
    · exact .afterPrior (h.valid pk rfl) _
    · exact .rejectOr (h.valid pk rfl) rfl (by rintro _ _ ⟨⟩)
  | checkingExpiry call pk => exact .rejectOr (h.valid pk rfl) rfl (by rintro _ _ ⟨⟩)
  | gettingTarget call pk => exact .rejectOr (h.valid pk rfl) rfl (by rintro _ _ ⟨⟩)
  | countingTurns call pk => exact .rejectOr (h.valid pk rfl) rfl (by rintro _ _ ⟨⟩)
  | findingApplied call pk =>
    rw [ContinuationApply.next]
    refine .rejectOr (h.valid pk rfl) rfl fun hfound => ?_
    rintro _ ⟨⟩ e he
    have hempty : appliedIn s.db call.targetSessionId = [] := by
      by_contra hne
      rw [if_pos hne] at hfound
      cases hfound
    rw [appliedIn_eq_nil hempty] at he
    cases he
  | gettingRefs call pk =>
    rw [ContinuationApply.next]
    split
    · exact targetOk_idle
    · exact .rejectOr (h.valid pk rfl) rfl fun _ => h.empty
  | applying call pk =>
    rw [ContinuationApply.next]
    split
    · exact targetOk_idle
    · refine targetOk_of_unchecked ?_ rfl
      rintro _ ⟨⟩
      exact h.valid pk rfl
    · exact targetOk_idle
  | rereading call pk =>
    rw [ContinuationApply.next]
    split
    · exact .afterPrior (h.valid pk rfl) _
    · exact targetOk_idle
  | rejecting call pk reason =>
    rw [ContinuationApply.next]
    split <;> exact targetOk_idle

theorem appliedTo_eq_nil {call : ApplyCall} {pk : SessionContinuationPacket} (h : TargetOk s (.applying call pk))
    (hempty : applied s.db pk.packetId = []) : appliedTo s.db call.targetSessionId = [] := by
  rw [List.eq_nil_iff_forall_not_mem]
  intro e he
  obtain ⟨hmem, -, htype⟩ := mem_appliedTo.mp he
  have happlied : e ∈ applied s.db pk.packetId := mem_applied.mpr ⟨hmem, h.empty (call, pk) rfl e he, htype⟩
  rw [hempty] at happlied
  cases happlied

end Target

theorem keeps_initializedOnce {Process : Type} (env : ContinuationEnv) {σ : System Process Shared Activity}
    (h : Annotated InitializedOnce TargetOk σ) (t : Process) (draw : Draw) (hok : NoOverlap σ (.advance t draw)) :
    Keeps InitializedOnce TargetOk σ t (next env σ.shared (σ.threads t) draw) := by
  have hvalid := (h.threads t).valid
  rcases next_db env σ.shared (σ.threads t) draw hvalid with hdb | ⟨a, name, pk, id, -, hcont, happend, happlying⟩
  · refine ⟨fun sid => ?_, (h.threads t).next, fun t' _ => (h.threads t').of_eq fun p _ => ?_⟩
    · rw [hdb]
      exact h.shared sid
    · rw [hdb]
  · have hadded := appliedTo_append hcont happend
    refine ⟨fun sid => ?_, (h.threads t).next, fun t' ht' => ⟨(h.threads t').valid, fun p hp e he => ?_⟩⟩
    · rcases hadded sid with heq | ⟨hname, rfl, hempty, row, hrow, -⟩
      · exact heq ▸ h.shared sid
      · obtain ⟨call, hact, htarget⟩ := happlying hname
        have hthread := h.threads t
        rw [hact] at hthread
        rw [hrow, htarget, appliedTo_eq_nil hthread hempty]
        exact le_rfl
    · rcases hadded p.1.targetSessionId with heq | ⟨hname, hsid, hempty, row, hrow, hparent⟩
      · exact (h.threads t').empty p hp e (heq ▸ he)
      · rw [hrow] at he
        rcases List.mem_append.mp he with he | he
        · exact (h.threads t').empty p hp e he
        · -- the other process has checked the same target, so it is for the same packet
          obtain ⟨call, hact, htarget⟩ := happlying hname
          have hno := hok (call, pk) (by rw [hact]; rfl) hempty t' ht'
          have hsame : p.2.packetId = pk.packetId := by
            simpa [Overlaps, Option.mem_def.mp hp, hsid, htarget] using hno
          rw [List.mem_singleton.mp he, hparent, hsame]

/-- In every run whose inserts do not overlap the checks of other packets, no session ever
holds two applied events. -/
theorem continuation_target_initialized_once (env : ContinuationEnv) (db : SessionDb)
    (hdb : ∀ sessionId, (appliedTo db sessionId).length ≤ 1) (actions : List (Action Process ApplyCall Draw))
    (hok : Guarded (processes env).step NoOverlap (start db) actions) (sessionId : String) :
    (appliedTo (run (processes env).step (start db) actions).shared.db sessionId).length ≤ 1 := by
  have hstart : Annotated InitializedOnce TargetOk (start db : System Process Shared Activity) :=
    ⟨hdb, fun _ => targetOk_idle⟩
  refine (annotated_run ?_ ?_ hstart hok).shared sessionId
  · intro σ t call hσ _ _
    exact hσ.move (targetOk_gettingPacket { call with winner := (applied σ.shared.db call.packetId).head? })
  · intro σ t draw hσ hno
    exact keeps_initializedOnce env hσ t draw hno

/-- The payload of a packet that resumes the agent `coder`. -/
def resumePayload (source : String) : Dict :=
  [("schema_version", .str "session_continuation.v1"), ("created_at_ms", .int 0), ("expires_at_ms", .int 60000),
    ("source_session_id", .str source), ("source_latest_seq", .int 0), ("source_agent_id", .str "coder"),
    ("target_agent_id", .str "coder"), ("continuation_kind", .str "same_agent_resume"),
    ("room_handoff_binding", .null), ("binding_mode", .str "local_session_store"), ("source_checkpoint_ref", .null),
    ("workspace_ref", .null), ("project_run_ref", .null), ("task_ref", .null), ("goal_ref", .null), ("phase", .null),
    ("cursor", .null), ("termination_reason", .null), ("plan_steps", .list []), ("intents", .list []),
    ("unresolved_clarification_ids", .list []), ("pending_input_refs", .list []), ("session_work_summary", .str ""),
    ("session_work_summary_ref", .null), ("memory_refs", .list []), ("artifact_refs", .list []),
    ("checkpoint_refs", .list []), ("project_refs", .list []), ("recent_event_refs", .list []),
    ("permission_refs", .list []), ("tool_profile_ids", .list []), ("omitted_field_reasons", .list []),
    ("redaction_summary", .dict [("omitted_fields", .int 0)]), ("owner_versions", .dict [])]

def validateResume (payload : Dict) : Except String ContinuationPayload :=
  match payload.get "expires_at_ms", payload.get "source_session_id", payload.get "source_latest_seq",
    payload.get "target_agent_id" with
  | .int expires, .str source, .int seq, .str agent =>
    .ok { expiresAtMs := expires, sourceSessionId := source, sourceLatestSeq := seq.toNat, targetAgentId := agent,
          modelDump := payload }
  | _, _, _, _ => .error "invalid payload"

def resumeEnv : ContinuationEnv := ⟨asciiRuntime, validateResume⟩

def packetDb : SessionDb :=
  let create (db : SessionDb) (sid : String) : SessionDb := committed db
    (insertSession db { sessionId := some sid, initialAgentId := some "coder", freshId := "", now := turnStart })
  let packet (db : SessionDb) (source packetId : String) : SessionDb := committed db (appendEvent asciiRuntime db
    { sessionId := source, eventType := some "session.continuation.packet_created", payload := resumePayload source,
      refs := [("source_session_id", .str source)], importance := 2, redaction := some "bounded",
      freshId := packetId, now := turnStart })
  packet (packet (["s1", "s2", "t1", "t2"].foldl create {}) "s1" "p1") "s2" "p2"

def resumePacket (packetId source : String) : SessionContinuationPacket where
  packetId := packetId
  eventSeq := 1
  eventTimestamp := turnStart
  sourceSessionId := source
  payload := { expiresAtMs := 60000, sourceSessionId := source, sourceLatestSeq := 0, targetAgentId := "coder",
               modelDump := resumePayload source }

def applyTo (target packetId : String) : ApplyCall := { targetSessionId := target, packetId := packetId }

def advances (t : Bool) (freshId : String) (steps : ℕ) : List (Action Bool ApplyCall Draw) :=
  List.replicate steps (.advance t ⟨freshId, turnStart, 1000⟩)

def statusOf (r : Outcome) : Option ApplyStatus := r.result.toOption.map ApplyResult.status

/-- Two processes apply one packet to two targets; both check before one of them inserts, and
the winner applies the packet again. -/
def racingTargets : List (Action Bool ApplyCall Draw) :=
  .start false (applyTo "t1" "p1") :: .start true (applyTo "t2" "p1") :: advances false "e1" 7 ++ advances true "e1" 7 ++
    advances false "e1" 1 ++ advances true "e2" 3 ++ .start false (applyTo "t1" "p1") :: advances false "e3" 2

theorem continuation_applied_once_racingTargets :
    (run (processes resumeEnv).step (start packetDb) racingTargets).shared.outcomes.map statusOf =
      [some .applied, some .rejected, some .alreadyApplied] ∧
    AppliedOnce resumeEnv (resumePacket "p1" "s1") (run (processes resumeEnv).step (start packetDb) racingTargets) := by
  refine ⟨by decide +kernel, ?_⟩
  exact continuation_applied_once resumeEnv packetDb (by decide +kernel) (resumePacket "p1" "s1") (by decide +kernel)
    (by decide +kernel) racingTargets (by decide +kernel)

def oneByOne : List (Action Bool ApplyCall Draw) :=
  .start false (applyTo "t1" "p1") :: advances false "e1" 8 ++ .start true (applyTo "t1" "p2") :: advances true "e2" 7

theorem continuation_target_oneByOne :
    (run (processes resumeEnv).step (start packetDb) oneByOne).shared.outcomes.map statusOf =
      [some .applied, some .rejected] ∧
    (appliedTo (run (processes resumeEnv).step (start packetDb) oneByOne).shared.db "t1").length ≤ 1 := by
  refine ⟨by decide +kernel, ?_⟩
  refine continuation_target_initialized_once resumeEnv packetDb ?_ oneByOne (by decide +kernel) "t1"
  intro sessionId
  have hnone : ∀ e ∈ packetDb.sessionEvents, e.eventType ≠ "session.continuation.applied" := by decide +kernel
  have hempty : appliedTo packetDb sessionId = [] := by
    rw [List.eq_nil_iff_forall_not_mem]
    intro e he
    obtain ⟨hmem, -, htype⟩ := mem_appliedTo.mp he
    exact hnone e hmem htype
  rw [hempty]
  exact Nat.zero_le 1

def racingPackets : List (Action Bool ApplyCall Draw) :=
  .start false (applyTo "t1" "p1") :: .start true (applyTo "t1" "p2") :: advances false "e1" 7 ++ advances true "e1" 7 ++
    advances false "e1" 1 ++ advances true "e2" 1

/-- Both packets are applied to the target. -/
theorem continuation_target_initialized_twice :
    ¬ ∀ (actions : List (Action Bool ApplyCall Draw)) (sessionId : String),
      (appliedTo (run (processes resumeEnv).step (start packetDb) actions).shared.db sessionId).length ≤ 1 := by
  intro honce
  have hlength : (appliedTo (run (processes resumeEnv).step (start packetDb) racingPackets).shared.db "t1").length = 2 := by
    decide +kernel
  have hle := honce racingPackets "t1"
  omega

end OpenMinion.ContinuationWinner
