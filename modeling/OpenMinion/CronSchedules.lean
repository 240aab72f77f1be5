import OpenMinion.SessionTables

/-!
# Cron schedules

The due points that a job's schedule and misfire policy select at a tick. Time zones, the
deterministic jitter and the reading of ISO texts are parameters of the model.
-/
namespace OpenMinion.CronSchedules
open IsoTimestamps PythonText SessionTables

/-- A schedule as `normalize_schedule` leaves it. -/
inductive Schedule where
  | atTime (text : String)
  | every (everyMs jitterMs : ℤ)
  | cron (expr tz : String) (staggerMs : ℤ)
  deriving DecidableEq

def Schedule.isAt : Schedule → Bool
  | .atTime _ => true
  | _ => false

inductive MisfirePolicy where
  | skip
  | runOnce
  | catchUp (max : ℕ)
  deriving DecidableEq

structure ScheduleEnv where
  /-- `parse_iso_datetime`, `none` when it raises. -/
  parseIso : String → Option DateTime
  /-- `_deterministic_jitter_ms`. -/
  jitterMs : String → DateTime → ℤ → ℤ
  /-- `_next_cron_occurrence` of an expression in a time zone. -/
  nextCronOccurrence : String → String → DateTime → Except StoreError (Option DateTime)
  /-- `_deterministic_cron_stagger_ms`. -/
  staggerMs : String → String → ℤ → ℤ

/-- A sum that raises `OverflowError` outside the calendar. -/
def orOverflow (t : Option DateTime) : Except StoreError DateTime :=
  match t with
  | some t => .ok t
  | none => .error .overflowError

def addMilliseconds (t : DateTime) (ms : ℤ) : Except StoreError DateTime :=
  orOverflow (t.addMicros (ms * 1000))

def parseIsoDatetime (env : ScheduleEnv) (text : String) : Except StoreError DateTime :=
  match env.parseIso text with
  | some t => .ok t
  | none => .error (.valueError ("invalid isoformat string: " ++ text))

def computeNextDue (env : ScheduleEnv) (schedule : Schedule) (after : DateTime) (jobId : String)
    (lastDue : Option DateTime) : Except StoreError (Option DateTime) :=
  match schedule with
  | .atTime text => do
    let due ← parseIsoDatetime env text
    return if after < due then some due else none
  | .every everyMs jitterMs => do
    let next ← addMilliseconds (lastDue.getD after) everyMs
    if jitterMs > 0 then some <$> addMilliseconds next (env.jitterMs jobId next jitterMs)
    else return some next
  | .cron expr tz staggerMs => do
    match ← env.nextCronOccurrence expr tz after with
    | none => return none
    | some due =>
      if staggerMs ≤ 0 then return some due
      else some <$> addMilliseconds due (env.staggerMs jobId expr staggerMs)

/-- The loop that collects the due occurrences from a cursor, with the cursor it stops at;
the fuel is the loop's own limit. -/
def dueCandidates (env : ScheduleEnv) (schedule : Schedule) (jobId : String) (now : DateTime) :
    ℕ → DateTime → Except StoreError (List DateTime × Option DateTime)
  | 0, cursor => .ok ([], some cursor)
  | fuel + 1, cursor =>
    if now < cursor then .ok ([], some cursor)
    else if schedule.isAt then .ok ([cursor], none)
    else do
      match ← computeNextDue env schedule cursor jobId (some cursor) with
      | none => return ([cursor], none)
      | some next =>
        let (candidates, rest) ← dueCandidates env schedule jobId now fuel next
        return (cursor :: candidates, rest)

def selectByPolicy (policy : MisfirePolicy) (schedule : Schedule) (now : DateTime)
    (candidates recent : List DateTime) : List DateTime :=
  let staleOnly := !candidates.isEmpty && recent.isEmpty
  match policy with
  | .catchUp n =>
    let selected := recent.drop (recent.length - max 1 n)
    if selected.isEmpty && staleOnly && schedule.isAt then [now] else selected
  | .skip => recent.getLast?.toList
  | .runOnce =>
    let selected := recent.getLast?.toList
    if selected.isEmpty && staleOnly then [now] else selected

/-- `_select_due_points_for_job`. -/
def selectDuePoints (env : ScheduleEnv) (schedule : Schedule) (policy : MisfirePolicy)
    (maxLatenessS : ℤ) (jobId : String) (nextDueAt : Option String) (now : DateTime) :
    Except StoreError (List DateTime × Option DateTime) :=
  if stripOr nextDueAt = "" then .ok ([], none)
  else do
    let start ← parseIsoDatetime env (stripOr nextDueAt)
    let (candidates, cursor) ← dueCandidates env schedule jobId now 512 start
    let cutoff ← orOverflow (now.addSeconds (-max 0 maxLatenessS))
    let recent := candidates.filter fun t => cutoff ≤ t
    let selected := selectByPolicy policy schedule now candidates recent
    if schedule.isAt then return (selected, none)
    else match cursor with
      | some next => return (selected, some next)
      | none => return (selected, ← computeNextDue env schedule now jobId (some now))

def initialNextDue (env : ScheduleEnv) (schedule : Schedule) (now : DateTime) (jobId : String) :
    Except StoreError (Option String) :=
  match schedule with
  | .atTime text => .ok (some text)
  | _ => do
    let due ← computeNextDue env schedule now jobId none
    return due.map toIsoUtc

end OpenMinion.CronSchedules
