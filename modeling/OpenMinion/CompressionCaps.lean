import Mathlib.Algebra.Order.Ring.Unbundled.Rat
import Mathlib.Algebra.BigOperators.Group.List.Basic
import Mathlib.Algebra.Order.Ring.Int
import Mathlib.Data.List.Dedup
import Mathlib.Data.List.Sort
import Mathlib.Logic.Function.Basic
import OpenMinion.WordTexts

/-!
# Compression caps

`compress` turns its token budget into a number of blocks by their average size, and takes the best blocks up to that
number. Their tokens are not compared with the budget.
-/
namespace OpenMinion.CompressionCaps
open CompressionTiers JsonValues PythonText WordTexts

structure InputBlock where
  blockId : String
  type : String
  text : String
  refs : List String := []
  metadata : Dict := []

structure CompressionBudgets where
  maxOutputTokensTotal : ℤ
  maxOutputTokensByType : List (String × ℤ) := []
  reserveTokensForHeaders : ℤ := 0
  hardCap : Bool := true

structure CompressionPolicy where
  maxItemsPerSource : ℤ := 2
  allowEmptyAugmentation : Bool := true

structure CompressionRequest where
  requestId : String
  query : String
  blocks : List InputBlock
  budgets : CompressionBudgets
  policy : CompressionPolicy
  modeName : Option String := none
  retrievalQualityHint : Option String := none

inductive CompressionError where
  | validation (message : String)
  | budget (message : String)
  | method
  deriving DecidableEq

structure BudgetEnvelope where
  totalCap : ℤ
  reserveTokens : ℤ
  perTypeCaps : List (String × ℤ)
  hardCap : Bool

def plan (budgets : CompressionBudgets) : Except CompressionError BudgetEnvelope :=
  if budgets.maxOutputTokensTotal ≤ 0 then .error (.budget "total token budget must be positive")
  else if budgets.maxOutputTokensTotal - budgets.reserveTokensForHeaders ≤ 0 then .error (.budget "reserve consumes entire budget")
  else
    match budgets.maxOutputTokensByType.find? fun item => item.2 ≤ 0 with
    | some item => .error (.budget ("invalid per-type cap for " ++ item.1))
    | none => .ok {
        totalCap := budgets.maxOutputTokensTotal - budgets.reserveTokensForHeaders
        reserveTokens := budgets.reserveTokensForHeaders
        perTypeCaps := budgets.maxOutputTokensByType
        hardCap := budgets.hardCap }

def validate (r : CompressionRequest) : Except CompressionError Unit :=
  if r.requestId = "" then .error (.validation "request_id is required")
  else if r.query = "" then .error (.validation "query is required")
  else if r.blocks = [] then .error (.validation "blocks must not be empty")
  else if r.budgets.maxOutputTokensTotal ≤ 0 then .error (.validation "budgets.max_output_tokens_total must be positive")
  else .ok ()

/-- A float; the finite ones by their values. -/
inductive PyFloat where
  | finite (value : ℚ)
  | inf (negative : Bool)
  | nan
  deriving DecidableEq

namespace PyFloat

/-- `x < y`. -/
def lt : PyFloat → PyFloat → Bool
  | .finite x, .finite y => x < y
  | .inf negative, .finite _ => negative
  | .finite _, .inf negative => !negative
  | .inf negative, .inf negative' => negative && !negative'
  | .nan, _ | _, .nan => false

/-- `x == y`. -/
def eq (x y : PyFloat) : Bool := x ≠ .nan && x = y

end PyFloat

structure ScoredUnit where
  blockId : String
  blockType : String
  text : String
  refs : List String
  score : PyFloat
  trustValue : ℚ
  retrievalScore : PyFloat
  sourceId : String
  sourceIndex : ℤ
  unitOffset : ℕ

/-- `a.sort_key() < b.sort_key()`; the floats of the keys are negated. -/
def keyLt (a b : ScoredUnit) : Bool :=
  if !a.score.eq b.score then b.score.lt a.score
  else if a.trustValue ≠ b.trustValue then b.trustValue < a.trustValue
  else if !a.retrievalScore.eq b.retrievalScore then b.retrievalScore.lt a.retrievalScore
  else a.sourceIndex < b.sourceIndex || (a.sourceIndex = b.sourceIndex && a.unitOffset < b.unitOffset)

inductive ConversionError where
  | typeOrValue
  | overflow
  deriving DecidableEq

structure Platform where
  /-- `str.lower`. -/
  lower : String → String
  /-- `str(value)`. -/
  strOf : Json → String
  /-- `float(value)`, and `int(value)` or nothing where it raises. -/
  floatOf : Json → Except ConversionError PyFloat
  intOf : Json → Option ℤ
  /-- The rounded score of a retrieval score, a trust value, a prior of the type, the shared and the
  distinct terms of the query, and a recency. -/
  score : (retrieval : PyFloat) → (trust typePrior : ℚ) → (shared terms : ℕ) → (recency : PyFloat) → PyFloat
  /-- `list.sort`; what it leaves of keys with a NaN, which it cannot compare, depends on the algorithm. -/
  sorted : List ScoredUnit → List ScoredUnit
  sorted_perm : ∀ units, (sorted units).Perm units
  sorted_stable : ∀ units, (∀ unit ∈ units, unit.score ≠ .nan ∧ unit.retrievalScore ≠ .nan) →
    sorted units = units.insertionSort fun a b => !keyLt b a

def typePrior (type : String) : ℚ :=
  ([("retrieval", 1), ("dialogue", 4 / 5), ("memory", 7 / 10), ("skill", 3 / 5), ("wm", 3 / 5), ("episode", 13 / 20),
    ("episode_condensate", 13 / 20)].lookup type).getD (1 / 2)

section Compress
variable (platform : Platform)

/-- `_tokenize`, without repetitions. -/
def terms (payload : String) : List String := ((words payload).map platform.lower).dedup

end Compress

section
variable (platform : Platform) (r : CompressionRequest)

def cap : ℤ := r.budgets.maxOutputTokensTotal - r.budgets.reserveTokensForHeaders

end

section Selecting
variable {maxUnits : ℤ} {policy : CompressionPolicy}

end Selecting

def plainScore (retrieval : PyFloat) (trust prior : ℚ) (shared terms : ℕ) (recency : PyFloat) : PyFloat :=
  match retrieval, recency with
  | .finite retrieval, .finite recency =>
    .finite (9 / 20 * retrieval + 1 / 4 * trust + 3 / 20 * prior + 1 / 10 * (shared / terms) + 1 / 20 * recency)
  | .inf negative, .finite _ => .inf negative
  | _, _ => .nan

def plainPlatform : Platform where
  lower := id
  strOf
    | .str s => s
    | _ => ""
  floatOf
    | .float q => .ok (.finite q)
    | .int n => .ok (.finite n)
    | .inf negative => .ok (.inf negative)
    | .nan => .ok .nan
    | _ => .error .typeOrValue
  intOf
    | .int n => some n
    | _ => none
  score := plainScore
  sorted units := units.insertionSort fun a b => !keyLt b a
  sorted_perm := List.perm_insertionSort _
  sorted_stable _ _ := rfl

end OpenMinion.CompressionCaps
