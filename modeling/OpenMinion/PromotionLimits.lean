import Mathlib.Data.List.DropRight
import Mathlib.Logic.Function.Basic
import OpenMinion.IsoTimestamps
import OpenMinion.TransitionRuns

/-!
# Promotion rate limits

`PromotionRateLimiter` keeps the instants of the promotions that it allowed within the window. One that is exactly a
window old still counts, but the retry hint of a denial is the time until the oldest one is that old.
-/
namespace OpenMinion.PromotionLimits
open IsoTimestamps TransitionRuns

/-- `MemorySourceClass`. -/
inductive SourceClass
  | userInput | toolResult | llmExtracted | agentInferred | importedBundle
  deriving DecidableEq

structure RateLimit where
  sourceClass : SourceClass
  windowSeconds : ℕ
  maxPromotions : Option ℕ
  positive : ∀ m ∈ maxPromotions, 0 < m

inductive RateLimitReasonCode
  | allowed | rateLimited
  deriving DecidableEq

structure RateLimitDecision where
  allowed : Bool
  reasonCode : RateLimitReasonCode
  retryAfterSeconds : Option ℕ
  retryAfterMs : Option ℕ
  observedPromotions : ℕ
  maxPromotions : Option ℕ
  deriving DecidableEq

structure Policies where
  limit : SourceClass → Option RateLimit
  named : ∀ c policy, limit c = some policy → policy.sourceClass = c

def defaultMaxPromotions : SourceClass → Option ℕ
  | .userInput => none
  | .toolResult => some 100
  | .llmExtracted => some 50
  | .agentInferred => some 30
  | .importedBundle => some 200

def defaultRateLimits : Policies where
  limit c :=
    some
      { sourceClass := c
        windowSeconds := if c = .importedBundle then 0 else 3600
        maxPromotions := defaultMaxPromotions c
        positive := by cases c <;> decide }
  named c policy h := by
    rw [← Option.some.inj h]

structure PromotionRateLimiter where
  policies : Policies
  events : SourceClass → List DateTime

/-- `PromotionRateLimiter.__init__`; a dictionary without limits counts as none given. -/
def init (policies : Option Policies) : PromotionRateLimiter where
  policies :=
    match policies with
    | none => defaultRateLimits
    | some policies =>
      if [.userInput, .toolResult, .llmExtracted, .agentInferred, .importedBundle].all fun c => (policies.limit c).isNone then
        defaultRateLimits
      else policies
  events _ := []

/-- `_windowed_events`, with the limiter that has dropped the events before the window; it can raise `OverflowError`.
-/
def windowedEvents (limiter : PromotionRateLimiter) (policy : RateLimit) (now : DateTime) : Option PromotionRateLimiter :=
  if policy.maxPromotions = none then some limiter
  else
    (now.addSeconds (-policy.windowSeconds)).map fun windowStart =>
      let kept := (limiter.events policy.sourceClass).dropWhile fun e => e < windowStart
      { limiter with events := Function.update limiter.events policy.sourceClass kept }

/-- `_retry_after_seconds`; the sum can raise `OverflowError`. -/
def retryAfterSeconds (policy : RateLimit) (now : DateTime) (events : List DateTime) : Option (Option ℕ) :=
  if policy.maxPromotions = none then some none
  else
    match events with
    | [] => some none
    | e :: _ =>
      if policy.windowSeconds = 0 then some (some 0)
      else
        (e.addSeconds policy.windowSeconds).map fun earliest =>
          -- the difference in seconds, never below zero, rounded up
          some ((earliest.micros - now.micros + 999999) / 1000000)

/-- `assess`; no decision is an exception, of a class without a limit or of a time out of range. -/
def assess (limiter : PromotionRateLimiter) (c : SourceClass) (now : DateTime) :
    PromotionRateLimiter × Option RateLimitDecision :=
  match limiter.policies.limit c with
  | none => (limiter, none)
  | some policy =>
    match windowedEvents limiter policy now with
    | none => (limiter, none)
    | some limiter =>
      let events := limiter.events policy.sourceClass
      match policy.maxPromotions with
      | none => (limiter, some ⟨true, .allowed, none, none, events.length, none⟩)
      | some m =>
        if m ≤ events.length then
          (limiter, (retryAfterSeconds policy now events).map fun retry =>
            ⟨false, .rateLimited, retry, retry.map (· * 1000), events.length, some m⟩)
        else (limiter, some ⟨true, .allowed, none, none, events.length, some m⟩)

def record (limiter : PromotionRateLimiter) (c : SourceClass) (now : DateTime) : PromotionRateLimiter × Option Unit :=
  match limiter.policies.limit c with
  | none => (limiter, none)
  | some policy =>
    if policy.maxPromotions = none then (limiter, some ())
    else
      match windowedEvents limiter policy now with
      | none => (limiter, none)
      | some limiter =>
        ({ limiter with
            events := Function.update limiter.events policy.sourceClass (limiter.events policy.sourceClass ++ [now]) },
          some ())

def checkAndRecord (limiter : PromotionRateLimiter) (c : SourceClass) (now : DateTime) :
    PromotionRateLimiter × Option RateLimitDecision :=
  match assess limiter c now with
  | (limiter, none) => (limiter, none)
  | (limiter, some decision) =>
    if decision.allowed then
      let (limiter, recorded) := record limiter c now
      (limiter, recorded.map fun _ => decision)
    else (limiter, some decision)

structure Call where
  sourceClass : SourceClass
  now : DateTime

structure Trace where
  limiter : PromotionRateLimiter
  promotions : SourceClass → List DateTime

def isAllowed (decision : Option RateLimitDecision) : Bool := decision.any (·.allowed)

def Trace.call (trace : Trace) (call : Call) : Trace :=
  let (limiter, decision) := checkAndRecord trace.limiter call.sourceClass call.now
  { limiter,
    promotions :=
      if isAllowed decision then
        Function.update trace.promotions call.sourceClass (trace.promotions call.sourceClass ++ [call.now])
      else trace.promotions }

def traceOf (policies : Option Policies) (calls : List Call) : Trace := run Trace.call ⟨init policies, fun _ => []⟩ calls

def nextDecision (policies : Option Policies) (calls : List Call) (c : SourceClass) (now : DateTime) :
    Option RateLimitDecision :=
  (checkAndRecord (traceOf policies calls).limiter c now).2

def InOrder (calls : List Call) : Prop := (calls.map Call.now).Pairwise (· ≤ ·)

def inWindow (seconds : ℕ) (now e : DateTime) : Bool := now.micros ≤ e.micros + seconds * 1000000

theorem dropWhile_lt_eq_filter {events : List DateTime} (hsorted : events.Pairwise (· ≤ ·)) (start : DateTime) :
    (events.dropWhile fun e => e < start) = events.filter fun e => start ≤ e := by
  induction events with
  | nil => rfl
  | cons e events ih =>
    obtain ⟨hle, hsorted⟩ := List.pairwise_cons.mp hsorted
    by_cases he : e < start
    · rw [List.dropWhile_cons_of_pos (by simpa using he), ih hsorted, List.filter_cons_of_neg (by simpa using he)]
    · have hstart : start ≤ e := not_lt.mp he
      rw [List.dropWhile_cons_of_neg (by simpa using he), List.filter_cons_of_pos (by simpa using hstart)]
      congr 1
      refine (List.filter_eq_self.mpr fun e' he' => ?_).symm
      simpa using hstart.trans (hle e' he')

variable {limiter : PromotionRateLimiter} {c c' : SourceClass} {policy : RateLimit} {m : ℕ} {now start : DateTime}

def keptEvents (limiter : PromotionRateLimiter) (c : SourceClass) (start : DateTime) : List DateTime :=
  (limiter.events c).dropWhile fun e => e < start

def setEvents (limiter : PromotionRateLimiter) (c : SourceClass) (events : List DateTime) : PromotionRateLimiter :=
  { limiter with events := Function.update limiter.events c events }

@[simp] theorem setEvents_self (events : List DateTime) : (setEvents limiter c events).events c = events :=
  Function.update_self ..

theorem setEvents_of_ne (h : c' ≠ c) (events : List DateTime) : (setEvents limiter c' events).events c = limiter.events c :=
  Function.update_of_ne h.symm ..

@[simp] theorem setEvents_setEvents (events events' : List DateTime) :
    setEvents (setEvents limiter c events) c events' = setEvents limiter c events' := by
  simp [setEvents]

theorem windowedEvents_limited (hname : policy.sourceClass = c) (hmax : policy.maxPromotions = some m)
    (hstart : now.addSeconds (-policy.windowSeconds) = some start) :
    windowedEvents limiter policy now = some (setEvents limiter c (keptEvents limiter c start)) := by
  subst hname
  rw [windowedEvents, hmax, if_neg (by simp), hstart]
  rfl

theorem checkAndRecord_overflow (hlimit : limiter.policies.limit c = some policy) (hmax : policy.maxPromotions = some m)
    (hstart : now.addSeconds (-policy.windowSeconds) = none) : checkAndRecord limiter c now = (limiter, none) := by
  have hwindowed : windowedEvents limiter policy now = none := by
    rw [windowedEvents, hmax, if_neg (by simp), hstart]
    rfl
  simp only [checkAndRecord, assess, hlimit, hwindowed]

theorem checkAndRecord_allowed (hlimit : limiter.policies.limit c = some policy) (hmax : policy.maxPromotions = some m)
    (hstart : now.addSeconds (-policy.windowSeconds) = some start) (hroom : (keptEvents limiter c start).length < m) :
    checkAndRecord limiter c now =
      (setEvents limiter c (keptEvents limiter c start ++ [now]),
        some ⟨true, .allowed, none, none, (keptEvents limiter c start).length, some m⟩) := by
  have hname := limiter.policies.named c policy hlimit
  have hassess : assess limiter c now =
      (setEvents limiter c (keptEvents limiter c start),
        some ⟨true, .allowed, none, none, (keptEvents limiter c start).length, some m⟩) := by
    simp only [assess, hlimit, windowedEvents_limited hname hmax hstart, hmax, hname, setEvents_self]
    rw [if_neg (Nat.not_le.mpr hroom)]
  have hkept : keptEvents (setEvents limiter c (keptEvents limiter c start)) c start = keptEvents limiter c start := by
    rw [keptEvents, setEvents_self, keptEvents, List.dropWhile_idempotent]
  have hlimit' : (setEvents limiter c (keptEvents limiter c start)).policies.limit c = some policy := hlimit
  have hrecord : record (setEvents limiter c (keptEvents limiter c start)) c now =
      (setEvents limiter c (keptEvents limiter c start ++ [now]), some ()) := by
    simp only [record, hlimit', windowedEvents_limited hname hmax hstart, hkept, hname]
    rw [hmax, if_neg (by simp)]
    change (setEvents _ c _, some ()) = _
    simp only [setEvents_setEvents, setEvents_self]
  simp only [checkAndRecord, hassess, hrecord]
  rfl

theorem checkAndRecord_denied (hlimit : limiter.policies.limit c = some policy) (hmax : policy.maxPromotions = some m)
    (hstart : now.addSeconds (-policy.windowSeconds) = some start) (hfull : m ≤ (keptEvents limiter c start).length) :
    checkAndRecord limiter c now =
      (setEvents limiter c (keptEvents limiter c start),
        (retryAfterSeconds policy now (keptEvents limiter c start)).map fun retry =>
          ⟨false, .rateLimited, retry, retry.map (· * 1000), (keptEvents limiter c start).length, some m⟩) := by
  have hname := limiter.policies.named c policy hlimit
  have hassess : assess limiter c now =
      (setEvents limiter c (keptEvents limiter c start),
        (retryAfterSeconds policy now (keptEvents limiter c start)).map fun retry =>
          ⟨false, .rateLimited, retry, retry.map (· * 1000), (keptEvents limiter c start).length, some m⟩) := by
    simp only [assess, hlimit, windowedEvents_limited hname hmax hstart, hmax, hname, setEvents_self]
    rw [if_pos hfull]
  rw [checkAndRecord, hassess]
  cases retryAfterSeconds policy now (keptEvents limiter c start) with
  | none => rfl
  | some retry => rfl

theorem exists_setEvents (limiter : PromotionRateLimiter) (c : SourceClass) (now : DateTime) :
    ∃ events, (checkAndRecord limiter c now).1 = setEvents limiter c events := by
  have hsame : limiter = setEvents limiter c (limiter.events c) := by
    rw [setEvents, Function.update_eq_self]
  cases hlimit : limiter.policies.limit c with
  | none =>
    refine ⟨limiter.events c, ?_⟩
    simp only [checkAndRecord, assess, hlimit]
    exact hsame
  | some policy =>
    cases hmax : policy.maxPromotions with
    | none =>
      refine ⟨limiter.events c, ?_⟩
      have hwindowed : windowedEvents limiter policy now = some limiter := by
        rw [windowedEvents, if_pos hmax]
      simp only [checkAndRecord, assess, record, hlimit, hwindowed, hmax]
      exact hsame
    | some m =>
      cases hstart : now.addSeconds (-policy.windowSeconds) with
      | none =>
        refine ⟨limiter.events c, ?_⟩
        rw [checkAndRecord_overflow hlimit hmax hstart]
        exact hsame
      | some start =>
        by_cases hroom : (keptEvents limiter c start).length < m
        · exact ⟨_, congrArg Prod.fst (checkAndRecord_allowed hlimit hmax hstart hroom)⟩
        · exact ⟨_, congrArg Prod.fst (checkAndRecord_denied hlimit hmax hstart (Nat.not_lt.mp hroom))⟩

/-- The events of a class whose calls so far came no later than `last` are the promotions without some that no later
window reaches, and no window holds too many. -/
structure Tracked (c : SourceClass) (policy : RateLimit) (m last : ℕ) (trace : Trace) : Prop where
  limit : trace.limiter.policies.limit c = some policy
  upTo : ∀ e ∈ trace.promotions c, e.micros ≤ last
  sorted : (trace.promotions c).Pairwise (· ≤ ·)
  kept : ∃ gone, trace.promotions c = gone ++ trace.limiter.events c ∧
    ∀ e ∈ gone, e.micros + policy.windowSeconds * 1000000 < last
  windows : ∀ first, ((trace.promotions c).filter fun e =>
    first ≤ e.micros ∧ e.micros ≤ first + policy.windowSeconds * 1000000).length ≤ m

variable {last : ℕ} {trace : Trace}

theorem windowStart_iff (hstart : now.addSeconds (-policy.windowSeconds) = some start) (e : DateTime) :
    start ≤ e ↔ inWindow policy.windowSeconds now e = true := by
  rw [DateTime.addSeconds, addMicros_eq_some_iff] at hstart
  rw [inWindow, decide_eq_true_eq, ← not_lt, DateTime.lt_iff]
  omega

theorem Tracked.keptEvents_eq (h : Tracked c policy m last trace) (hlast : last ≤ now.micros)
    (hstart : now.addSeconds (-policy.windowSeconds) = some start) :
    keptEvents trace.limiter c start = (trace.promotions c).filter (inWindow policy.windowSeconds now) := by
  obtain ⟨gone, hpromotions, hgone⟩ := h.kept
  have hsorted := h.sorted
  rw [hpromotions] at hsorted ⊢
  have hnone : gone.filter (inWindow policy.windowSeconds now) = [] := by
    rw [List.filter_eq_nil_iff]
    intro e he
    have hlt := hgone e he
    rw [inWindow, decide_eq_true_eq]
    omega
  rw [keptEvents, dropWhile_lt_eq_filter (List.pairwise_append.mp hsorted).2.1, List.filter_append, hnone, List.nil_append]
  congr 1
  funext e
  rw [Bool.eq_iff_iff, decide_eq_true_iff]
  exact windowStart_iff hstart e

theorem Tracked.split (h : Tracked c policy m last trace) (hlast : last ≤ now.micros)
    (hstart : now.addSeconds (-policy.windowSeconds) = some start) :
    ∃ gone, trace.promotions c = gone ++ keptEvents trace.limiter c start ∧
      ∀ e ∈ gone, e.micros + policy.windowSeconds * 1000000 < now.micros := by
  obtain ⟨gone, hpromotions, hgone⟩ := h.kept
  refine ⟨gone ++ (trace.limiter.events c).takeWhile fun e => e < start, ?_, ?_⟩
  · rw [keptEvents, List.append_assoc, List.takeWhile_append_dropWhile, hpromotions]
  · intro e he
    rcases List.mem_append.mp he with he | he
    · exact (hgone e he).trans_le hlast
    · have hlt : e < start := by simpa using List.mem_takeWhile_imp he
      have hnot := mt (windowStart_iff hstart e).mpr (not_le.mpr hlt)
      rw [inWindow, decide_eq_true_eq] at hnot
      omega

theorem Tracked.mono (h : Tracked c policy m last trace) (hlast : last ≤ now.micros) :
    Tracked c policy m now.micros trace where
  limit := h.limit
  upTo e he := (h.upTo e he).trans hlast
  sorted := h.sorted
  kept := by
    obtain ⟨gone, hpromotions, hgone⟩ := h.kept
    exact ⟨gone, hpromotions, fun e he => (hgone e he).trans_le hlast⟩
  windows := h.windows

theorem call_limiter (trace : Trace) (call : Call) :
    (trace.call call).limiter = (checkAndRecord trace.limiter call.sourceClass call.now).1 := rfl

theorem Tracked.other (h : Tracked c policy m last trace) (hne : c' ≠ c) (hlast : last ≤ now.micros) :
    Tracked c policy m now.micros (trace.call ⟨c', now⟩) := by
  obtain ⟨events, hlimiter⟩ := exists_setEvents trace.limiter c' now
  have hpromotions : (trace.call ⟨c', now⟩).promotions c = trace.promotions c := by
    simp only [Trace.call]
    split
    · exact Function.update_of_ne hne.symm _ _
    · rfl
  have hevents : (trace.call ⟨c', now⟩).limiter.events c = trace.limiter.events c := by
    rw [call_limiter, hlimiter, setEvents_of_ne hne]
  have hpolicies : (trace.call ⟨c', now⟩).limiter.policies = trace.limiter.policies := by
    rw [call_limiter, hlimiter]
    rfl
  have hmono := h.mono hlast
  refine ⟨?_, ?_, ?_, ?_, ?_⟩
  · rw [hpolicies]
    exact hmono.limit
  · rw [hpromotions]
    exact hmono.upTo
  · rw [hpromotions]
    exact hmono.sorted
  · rw [hpromotions, hevents]
    exact hmono.kept
  · rw [hpromotions]
    exact hmono.windows

theorem Tracked.windows_snoc (h : Tracked c policy m last trace)
    (hroom : ((trace.promotions c).filter (inWindow policy.windowSeconds now)).length < m) (first : ℕ) :
    ((trace.promotions c ++ [now]).filter fun e =>
      first ≤ e.micros ∧ e.micros ≤ first + policy.windowSeconds * 1000000).length ≤ m := by
  rw [List.filter_append, List.length_append]
  by_cases hin : first ≤ now.micros ∧ now.micros ≤ first + policy.windowSeconds * 1000000
  · have hle : ((trace.promotions c).filter fun e =>
        first ≤ e.micros ∧ e.micros ≤ first + policy.windowSeconds * 1000000).length ≤
        ((trace.promotions c).filter (inWindow policy.windowSeconds now)).length := by
      refine (List.monotone_filter_right _ ?_).length_le
      intro e he
      rw [decide_eq_true_eq] at he
      rw [inWindow, decide_eq_true_eq]
      omega
    have hone : ([now].filter fun e =>
        first ≤ e.micros ∧ e.micros ≤ first + policy.windowSeconds * 1000000).length = 1 := by
      rw [List.filter_cons_of_pos (by simpa using hin)]
      rfl
    omega
  · have hnone : ([now].filter fun e =>
        first ≤ e.micros ∧ e.micros ≤ first + policy.windowSeconds * 1000000) = [] := by
      rw [List.filter_cons_of_neg (by simpa using hin)]
      rfl
    rw [hnone]
    exact h.windows first

theorem Tracked.own (h : Tracked c policy m last trace) (hmax : policy.maxPromotions = some m) (hlast : last ≤ now.micros) :
    Tracked c policy m now.micros (trace.call ⟨c, now⟩) := by
  cases hstart : now.addSeconds (-policy.windowSeconds) with
  | none =>
    have hcall : trace.call ⟨c, now⟩ = trace := by
      rw [Trace.call, checkAndRecord_overflow h.limit hmax hstart]
      rfl
    rw [hcall]
    exact h.mono hlast
  | some start =>
    obtain ⟨gone, hsplit, hgone⟩ := h.split hlast hstart
    by_cases hroom : (keptEvents trace.limiter c start).length < m
    · have hcall : trace.call ⟨c, now⟩ =
          ⟨setEvents trace.limiter c (keptEvents trace.limiter c start ++ [now]),
            Function.update trace.promotions c (trace.promotions c ++ [now])⟩ := by
        rw [Trace.call, checkAndRecord_allowed h.limit hmax hstart hroom]
        rfl
      rw [hcall]
      refine ⟨h.limit, ?_, ?_, ⟨gone, ?_, hgone⟩, ?_⟩
      · simp only [Function.update_self]
        intro e he
        rcases List.mem_append.mp he with he | he
        · exact (h.upTo e he).trans hlast
        · exact (congrArg DateTime.micros (List.mem_singleton.mp he)).le
      · simp only [Function.update_self]
        refine List.pairwise_append.mpr ⟨h.sorted, List.pairwise_singleton _ _, ?_⟩
        intro e he e' he'
        rw [List.mem_singleton.mp he', ← not_lt, DateTime.lt_iff]
        have hle := h.upTo e he
        omega
      · simp only [Function.update_self, setEvents_self]
        rw [hsplit, List.append_assoc]
      · simp only [Function.update_self]
        rw [h.keptEvents_eq hlast hstart] at hroom
        exact h.windows_snoc hroom
    · have hcall : trace.call ⟨c, now⟩ = ⟨setEvents trace.limiter c (keptEvents trace.limiter c start), trace.promotions⟩ := by
        rw [Trace.call, checkAndRecord_denied h.limit hmax hstart (Nat.not_lt.mp hroom)]
        cases retryAfterSeconds policy now (keptEvents trace.limiter c start) with
        | none => rfl
        | some retry => rfl
      rw [hcall]
      refine ⟨h.limit, (h.mono hlast).upTo, h.sorted, ⟨gone, ?_, hgone⟩, h.windows⟩
      rw [setEvents_self]
      exact hsplit

theorem Tracked.call (h : Tracked c policy m last trace) (hmax : policy.maxPromotions = some m) (call : Call)
    (hlast : last ≤ call.now.micros) : Tracked c policy m call.now.micros (trace.call call) := by
  obtain ⟨c', now⟩ := call
  by_cases hne : c' = c
  · subst hne
    exact h.own hmax hlast
  · exact h.other hne hlast

theorem Tracked.run (h : Tracked c policy m last trace) (hmax : policy.maxPromotions = some m) {calls : List Call}
    (horder : InOrder calls) (hlast : ∀ call ∈ calls, last ≤ call.now.micros) :
    ∃ last', Tracked c policy m last' (run Trace.call trace calls) ∧ ∀ t, last ≤ t → (∀ call ∈ calls, call.now.micros ≤ t) → last' ≤ t := by
  induction calls generalizing trace last with
  | nil => exact ⟨last, h, fun t ht _ => ht⟩
  | cons call calls ih =>
    obtain ⟨hhead, htail⟩ := List.pairwise_cons.mp horder
    have hstep := h.call hmax call (hlast call List.mem_cons_self)
    have hlater : ∀ call' ∈ calls, call.now.micros ≤ call'.now.micros := by
      intro call' hcall'
      have hle := hhead _ (List.mem_map_of_mem hcall')
      rw [← not_lt, DateTime.lt_iff] at hle
      exact not_lt.mp hle
    obtain ⟨last', htracked, hbound⟩ := ih hstep htail hlater
    refine ⟨last', htracked, ?_⟩
    intro t _ ht
    exact hbound t (ht call List.mem_cons_self) fun call' hcall' => ht call' (List.mem_cons_of_mem _ hcall')

theorem tracked_init {policies : Option Policies} (hlimit : (init policies).policies.limit c = some policy) :
    Tracked c policy m 0 ⟨init policies, fun _ => []⟩ where
  limit := hlimit
  upTo _ he := nomatch he
  sorted := List.Pairwise.nil
  kept := ⟨[], rfl, fun _ he => nomatch he⟩
  windows _ := Nat.zero_le m

theorem traceOf_tracked {policies : Option Policies} (hlimit : (init policies).policies.limit c = some policy)
    (hmax : policy.maxPromotions = some m) {calls post : List Call} (horder : InOrder (calls ++ ⟨c', now⟩ :: post)) :
    ∃ last, Tracked c policy m last (traceOf policies calls) ∧ last ≤ now.micros := by
  rw [InOrder, List.map_append, List.pairwise_append] at horder
  obtain ⟨last, htracked, hbound⟩ := (tracked_init hlimit).run hmax horder.1 fun _ _ => Nat.zero_le _
  refine ⟨last, htracked, hbound _ (Nat.zero_le _) ?_⟩
  intro call hcall
  have hle := horder.2.2 _ (List.mem_map_of_mem hcall) now List.mem_cons_self
  rw [← not_lt, DateTime.lt_iff] at hle
  exact not_lt.mp hle

/-- What a denial says: the window is full, and its hint is the time until its oldest promotion is as old
as the window, in whole seconds. -/
theorem Tracked.denied (h : Tracked c policy m last trace) (hmax : policy.maxPromotions = some m) (hlast : last ≤ now.micros)
    {d : RateLimitDecision} (hd : (checkAndRecord trace.limiter c now).2 = some d) (hdenied : d.allowed = false) :
    ∃ r e others, (trace.promotions c).filter (inWindow policy.windowSeconds now) = e :: others ∧ m ≤ others.length + 1 ∧
      d.retryAfterSeconds = some r ∧
      r = (e.micros + policy.windowSeconds * 1000000 - now.micros + 999999) / 1000000 := by
  cases hstart : now.addSeconds (-policy.windowSeconds) with
  | none =>
    rw [checkAndRecord_overflow h.limit hmax hstart] at hd
    cases hd
  | some start =>
    by_cases hroom : (keptEvents trace.limiter c start).length < m
    · rw [checkAndRecord_allowed h.limit hmax hstart hroom] at hd
      rw [← Option.some.inj hd] at hdenied
      cases hdenied
    · have hfull := Nat.not_lt.mp hroom
      rw [checkAndRecord_denied h.limit hmax hstart hfull] at hd
      have hkept := h.keptEvents_eq hlast hstart
      rw [hkept] at hd hfull
      cases hwindow : (trace.promotions c).filter (inWindow policy.windowSeconds now) with
      | nil =>
        rw [hwindow] at hfull
        have hpositive := policy.positive m hmax
        rw [List.length_nil] at hfull
        omega
      | cons e others =>
        rw [hwindow] at hd hfull
        obtain ⟨retry, hretry, hd⟩ := Option.map_eq_some_iff.mp hd
        rw [← hd]
        have hmem : e ∈ (trace.promotions c).filter (inWindow policy.windowSeconds now) := by
          rw [hwindow]
          exact List.mem_cons_self
        obtain ⟨hpromoted, hin⟩ := List.mem_filter.mp hmem
        have hupTo := h.upTo e hpromoted
        rw [inWindow, decide_eq_true_eq] at hin
        rw [retryAfterSeconds, hmax, if_neg (by simp)] at hretry
        split at hretry
        · next hzero =>
          rw [hzero] at hin
          refine ⟨0, e, others, rfl, hfull, (Option.some.inj hretry).symm, ?_⟩
          rw [hzero]
          omega
        · obtain ⟨earliest, hearliest, hretry⟩ := Option.map_eq_some_iff.mp hretry
          rw [DateTime.addSeconds, addMicros_eq_some_iff] at hearliest
          refine ⟨_, e, others, rfl, hfull, hretry.symm, ?_⟩
          have hmicros : earliest.micros = e.micros + policy.windowSeconds * 1000000 := by omega
          rw [hmicros]

theorem Tracked.window_le (h : Tracked c policy m last trace) (hlast : last ≤ now.micros) :
    ((trace.promotions c).filter (inWindow policy.windowSeconds now)).length ≤ m := by
  have heq : (trace.promotions c).filter (inWindow policy.windowSeconds now) =
      (trace.promotions c).filter fun e => now.micros - policy.windowSeconds * 1000000 ≤ e.micros ∧
        e.micros ≤ now.micros - policy.windowSeconds * 1000000 + policy.windowSeconds * 1000000 := by
    refine List.filter_congr fun e he => ?_
    have hupTo := h.upTo e he
    rw [inWindow, Bool.eq_iff_iff, decide_eq_true_eq, decide_eq_true_eq]
    omega
  rw [heq]
  exact h.windows _

theorem Tracked.isAllowed_iff (h : Tracked c policy m last trace) (hmax : policy.maxPromotions = some m)
    (hlast : last ≤ now.micros) (hreach : policy.windowSeconds * 1000000 ≤ now.micros) :
    isAllowed (checkAndRecord trace.limiter c now).2 = true ↔
      ((trace.promotions c).filter (inWindow policy.windowSeconds now)).length < m := by
  obtain ⟨start, hstart⟩ : ∃ start, now.addSeconds (-policy.windowSeconds) = some start := by
    refine ⟨⟨now.micros - policy.windowSeconds * 1000000, (Nat.sub_le _ _).trans_lt now.inRange⟩, ?_⟩
    rw [DateTime.addSeconds, addMicros_eq_some_iff]
    dsimp only
    omega
  rw [← h.keptEvents_eq hlast hstart]
  by_cases hroom : (keptEvents trace.limiter c start).length < m
  · rw [checkAndRecord_allowed h.limit hmax hstart hroom]
    exact iff_of_true rfl hroom
  · rw [checkAndRecord_denied h.limit hmax hstart (Nat.not_lt.mp hroom)]
    refine iff_of_false ?_ hroom
    cases retryAfterSeconds policy now (keptEvents trace.limiter c start) with
    | none => exact Bool.false_ne_true
    | some retry => exact Bool.false_ne_true

/-- The call at the hinted time is allowed exactly if the oldest promotion is then older than the window. -/
theorem Tracked.retry_iff (h : Tracked c policy m last trace) (hmax : policy.maxPromotions = some m) (hlast : last ≤ now.micros)
    {e : DateTime} {others : List DateTime}
    (hwindow : (trace.promotions c).filter (inWindow policy.windowSeconds now) = e :: others) (hfull : m ≤ others.length + 1)
    {last' : ℕ} {trace' : Trace} (h' : Tracked c policy m last' trace') {later : DateTime} (hlast' : last' ≤ later.micros)
    (hsame : trace'.promotions c = trace.promotions c)
    (hlater : later.micros =
      now.micros + (e.micros + policy.windowSeconds * 1000000 - now.micros + 999999) / 1000000 * 1000000) :
    isAllowed (checkAndRecord trace'.limiter c later).2 = true ↔ ¬ 1000000 ∣ now.micros - e.micros := by
  have hin : ∀ x ∈ e :: others, x.micros ≤ now.micros ∧ now.micros ≤ x.micros + policy.windowSeconds * 1000000 := by
    intro x hx
    rw [← hwindow] at hx
    obtain ⟨hpromoted, hx⟩ := List.mem_filter.mp hx
    rw [inWindow, decide_eq_true_eq] at hx
    exact ⟨(h.upTo x hpromoted).trans hlast, hx⟩
  have hsorted : (e :: others).Pairwise (· ≤ ·) := by
    rw [← hwindow]
    exact h.sorted.filter _
  have holdest : ∀ x ∈ e :: others, e.micros ≤ x.micros := by
    intro x hx
    rcases List.mem_cons.mp hx with rfl | hx
    · exact le_rfl
    · have hle := (List.pairwise_cons.mp hsorted).1 x hx
      rw [← not_lt, DateTime.lt_iff] at hle
      exact not_lt.mp hle
  have hfirst := hin e List.mem_cons_self
  have hlength : others.length + 1 ≤ m := by
    have hle := h.window_le hlast
    rw [hwindow] at hle
    exact hle
  -- what the later window holds is among what this one holds
  have hagain : (trace'.promotions c).filter (inWindow policy.windowSeconds later) =
      (e :: others).filter (inWindow policy.windowSeconds later) := by
    rw [hsame, ← hwindow, List.filter_filter]
    refine List.filter_congr fun x _ => ?_
    rw [Bool.eq_iff_iff, Bool.and_eq_true, inWindow, inWindow, decide_eq_true_eq, decide_eq_true_eq]
    omega
  rw [h'.isAllowed_iff hmax hlast' (by omega), hagain]
  by_cases hwhole : 1000000 ∣ now.micros - e.micros
  · have hall : (e :: others).filter (inWindow policy.windowSeconds later) = e :: others := by
      rw [List.filter_eq_self]
      intro x hx
      have hle := holdest x hx
      rw [inWindow, decide_eq_true_eq]
      omega
    rw [hall, List.length_cons]
    exact iff_of_false (by omega) (not_not.mpr hwhole)
  · have hgone : inWindow policy.windowSeconds later e = false := by
      rw [inWindow, decide_eq_false_iff_not]
      omega
    rw [List.filter_cons_of_neg (by rw [hgone]; exact Bool.false_ne_true)]
    have hle := List.length_filter_le (inWindow policy.windowSeconds later) others
    exact iff_of_true (by omega) hwhole

/-- No window holds more promotions than allowed, a denial comes with a full window, and the call at its hint is
allowed exactly if the oldest promotion was no whole number of seconds old. -/
theorem promotions_exact_iff {policies : Option Policies} (hlimit : (init policies).policies.limit c = some policy)
    (hmax : policy.maxPromotions = some m) {calls : List Call} (horder : InOrder calls) :
    (∀ first, (((traceOf policies calls).promotions c).filter fun e =>
      first ≤ e.micros ∧ e.micros ≤ first + policy.windowSeconds * 1000000).length ≤ m) ∧
    ∀ pre now post d, calls = pre ++ ⟨c, now⟩ :: post → nextDecision policies pre c now = some d → d.allowed = false →
      m ≤ (((traceOf policies pre).promotions c).filter fun e =>
        now.micros ≤ e.micros + policy.windowSeconds * 1000000 ∧ e.micros ≤ now.micros).length ∧
      ∃ r e, d.retryAfterSeconds = some r ∧
        ((traceOf policies pre).promotions c).find? (inWindow policy.windowSeconds now) = some e ∧
        ∀ mid later post', post = mid ++ ⟨c, later⟩ :: post' → later.micros = now.micros + r * 1000000 →
          (traceOf policies (pre ++ ⟨c, now⟩ :: mid)).promotions c = (traceOf policies pre).promotions c →
          (isAllowed (nextDecision policies (pre ++ ⟨c, now⟩ :: mid) c later) = true ↔ ¬ 1000000 ∣ now.micros - e.micros) := by
  constructor
  · obtain ⟨last, htracked, -⟩ := (tracked_init hlimit).run hmax horder fun _ _ => Nat.zero_le _
    exact htracked.windows
  · intro pre now post d hcalls hd hdenied
    subst hcalls
    obtain ⟨last, htracked, hlast⟩ := traceOf_tracked hlimit hmax horder
    obtain ⟨r, e, others, hwindow, hfull, hr, hvalue⟩ := htracked.denied hmax hlast hd hdenied
    refine ⟨?_, r, e, hr, ?_, ?_⟩
    · have hclosed : (((traceOf policies pre).promotions c).filter fun e =>
          now.micros ≤ e.micros + policy.windowSeconds * 1000000 ∧ e.micros ≤ now.micros) = e :: others := by
        rw [← hwindow]
        refine List.filter_congr fun x hx => ?_
        have hupTo := htracked.upTo x hx
        rw [inWindow, Bool.eq_iff_iff, decide_eq_true_eq, decide_eq_true_eq]
        omega
      rw [hclosed]
      exact hfull
    · rw [← List.head?_filter, hwindow]
      rfl
    · intro mid later post' hpost hlater hsame
      rw [hpost, ← List.cons_append, ← List.append_assoc] at horder
      obtain ⟨last', htracked', hlast'⟩ := traceOf_tracked hlimit hmax horder
      rw [hvalue] at hlater
      exact htracked.retry_iff hmax hlast hwindow hfull htracked' hlast' hsame hlater

def oncePerMinute : Policies where
  limit c := if c = .llmExtracted then some ⟨c, 60, some 1, by decide⟩ else none
  named c policy h := by
    split at h
    · rw [← Option.some.inj h]
    · cases h

theorem afterNoon_lt_endOfTime {seconds : ℕ} (h : seconds < 3600) : 63914961600000000 + seconds * 1000000 < endOfTime := by
  rw [endOfTime, microsPerDay]
  omega

def afterNoon (seconds : ℕ) (h : seconds < 3600) : DateTime where
  micros := 63914961600000000 + seconds * 1000000
  inRange := afterNoon_lt_endOfTime h

def promotedAtNoon : List Call := [⟨.llmExtracted, afterNoon 0 (by decide)⟩]

def deniedHalfway : List Call := promotedAtNoon ++ [⟨.llmExtracted, afterNoon 30 (by decide)⟩]

theorem deniedHalfway_inOrder : InOrder deniedHalfway := by
  rw [InOrder]
  decide

theorem promotions_exact_iff_oncePerMinute :
    (traceOf (some oncePerMinute) deniedHalfway).promotions .llmExtracted ≠ [] ∧
    ∀ first, (((traceOf (some oncePerMinute) deniedHalfway).promotions .llmExtracted).filter fun e =>
      first ≤ e.micros ∧ e.micros ≤ first + 60 * 1000000).length ≤ 1 := by
  have hlimit : (init (some oncePerMinute)).policies.limit .llmExtracted = some ⟨.llmExtracted, 60, some 1, by decide⟩ := rfl
  exact ⟨by decide, (promotions_exact_iff hlimit rfl deniedHalfway_inOrder).1⟩

/-- Half a minute after a promotion the hint is half a minute, and then the promotion still counts. -/
theorem retry_tooEarly :
    ∃ d, nextDecision (some oncePerMinute) promotedAtNoon .llmExtracted (afterNoon 30 (by decide)) = some d ∧
      d.allowed = false ∧ d.retryAfterSeconds = some 30 ∧
      isAllowed (nextDecision (some oncePerMinute) deniedHalfway .llmExtracted (afterNoon 60 (by decide))) = false :=
  ⟨⟨false, .rateLimited, some 30, some 30000, 1, some 1⟩, by decide, rfl, rfl, by decide⟩

end OpenMinion.PromotionLimits
