import OpenMinion.SessionTables

/-!
# Cron expressions

Five or six fields of numbers, ranges and steps, and the wall-clock times that match them.
-/
namespace OpenMinion.CronExpressions
open IsoTimestamps PythonText SessionTables

structure CronSpec where
  hasSeconds : Bool
  seconds : List ℕ
  minutes : List ℕ
  hours : List ℕ
  daysOfMonth : List ℕ
  months : List ℕ
  daysOfWeek : List ℕ
  domIsWildcard : Bool
  dowIsWildcard : Bool
  deriving DecidableEq

section
variable (digit : Char → Option ℕ)

/-- `int(text)` of decimal digits; longer texts raise `ValueError`. -/
def parseDigits (text : List Char) : Option ℕ :=
  if text = [] ∨ 4300 < text.length then none
  else text.foldlM (fun n c => (digit c).map (n * 10 + ·)) 0

def parseBase (minimum maximum : ℕ) (base : List Char) : Option (ℕ × ℕ) :=
  if base = ['*'] then some (minimum, maximum)
  else match base.span (· != '-') with
    | (number, []) => (parseDigits digit number).map fun n => (n, n)
    | (left, _ :: right) => do return (← parseDigits digit left, ← parseDigits digit right)

def parseStep : List Char → Option ℕ
  | [] => some 1
  | _ :: step => parseDigits digit step

/-- The values of one token; `upperBound` is 7 where Sunday may be written so. -/
def parseToken (minimum maximum upperBound : ℕ) (chunk : List Char) : Except StoreError (List ℕ) :=
  let (base, step) := chunk.span (· != '/')
  match parseBase digit minimum maximum base, parseStep digit step with
  | some (start, stop), some step =>
    if step = 0 then .error (.valueError "cron step must be > 0")
    else if start < minimum || upperBound < stop || stop < start then
      .error (.valueError ("cron field token out of range: " ++ String.ofList chunk))
    else .ok (List.range' start ((stop - start) / step + 1) step)
  | _, _ => .error (.valueError ("unsupported cron field token: " ++ String.ofList chunk))

def parseCronField (minimum maximum : ℕ) (allowSunday7 : Bool) (field : List Char) : Except StoreError (List ℕ) := do
  let chunks := (field.splitOn ',').filter fun chunk => chunk ≠ []
  let values ← chunks.mapM (parseToken digit minimum maximum (if allowSunday7 then 7 else maximum))
  let values := values.flatten.map fun v => if allowSunday7 && v = 7 then 0 else v
  if values = [] then .error (.valueError "cron field does not resolve to any values") else return values

/-- `expr.split()`. -/
def fieldsOf (expr : String) : List (List Char) := (expr.toList.splitOnP isSpace).filter fun field => field ≠ []

def parseFields (hasSeconds : Bool) (second minute hour dom month dow : List Char) : Except StoreError CronSpec := do
  let seconds ← parseCronField digit 0 59 false second
  let minutes ← parseCronField digit 0 59 false minute
  let hours ← parseCronField digit 0 23 false hour
  let daysOfMonth ← parseCronField digit 1 31 false dom
  let months ← parseCronField digit 1 12 false month
  let daysOfWeek ← parseCronField digit 0 6 true dow
  return ⟨hasSeconds, seconds, minutes, hours, daysOfMonth, months, daysOfWeek, dom = ['*'], dow = ['*']⟩

def parseCronExpression (expr : String) : Except StoreError CronSpec :=
  match fieldsOf expr with
  | [minute, hour, dom, month, dow] => parseFields digit false ['0'] minute hour dom month dow
  | [second, minute, hour, dom, month, dow] => parseFields digit true second minute hour dom month dow
  | _ => .error (.valueError "cron expr must have 5 or 6 fields")

end

def asciiDigit (c : Char) : Option ℕ := if c.isDigit then some (c.toNat - 48) else none

example : (parseCronExpression asciiDigit "*/20 1-2 * * 7").toOption =
    some ⟨false, [0], [0, 20, 40], [1, 2], List.range' 1 31, List.range' 1 12, [0], true, false⟩ := by decide +kernel

def second (w : DateTime) : ℕ := w.microOfDay / 1000000 % 60
def minute (w : DateTime) : ℕ := w.microOfDay / 60000000 % 60
def hour (w : DateTime) : ℕ := w.microOfDay / 3600000000
def month (w : DateTime) : ℕ := (ordinalToYmd w.ordinal).2.1
def day (w : DateTime) : ℕ := (ordinalToYmd w.ordinal).2.2

/-- `datetime.weekday()`: Monday is 0. -/
def weekday (w : DateTime) : ℕ := (w.ordinal + 6) % 7

def dayMatches (spec : CronSpec) (w : DateTime) : Bool :=
  let domMatch := spec.daysOfMonth.contains (day w)
  let dowMatch := spec.daysOfWeek.contains ((weekday w + 1) % 7)
  if spec.domIsWildcard && spec.dowIsWildcard then true
  else if spec.domIsWildcard then dowMatch
  else if spec.dowIsWildcard then domMatch
  else domMatch || dowMatch

def cronMatches (spec : CronSpec) (w : DateTime) : Bool :=
  spec.seconds.contains (second w) && spec.minutes.contains (minute w) && spec.hours.contains (hour w) &&
    spec.months.contains (month w) && dayMatches spec w

end OpenMinion.CronExpressions
