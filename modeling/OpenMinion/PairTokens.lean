import Mathlib.Data.String.Basic
import Mathlib.Logic.Equiv.Basic
import OpenMinion.KeyedTables
import OpenMinion.PythonText
import OpenMinion.TransitionRuns

/-!
# Pairing tokens

Tokens that pair a chat with the control plane, by their hashes. A token is consumed at most once, and as it was
issued: in its channel, before it expires, by the account and in the chat that are expected.
-/
namespace OpenMinion.PairTokens
open KeyedTables PythonText TransitionRuns

structure PairToken where
  tokenHash : String
  channel : String
  tokenHint : String
  createdAtTs : ℤ
  expiresAtTs : ℤ
  usedAtTs : Option ℤ := none
  expectedAccountId : Option String := none
  expectedChatKey : Option String := none
  consumerAccountId : Option String := none
  consumerChatKey : Option String := none
  scopes : List String := []
  deriving DecidableEq

inductive PairError where
  | valueError (message : String)
  | keyError (key : String)
  | integrityError
  deriving DecidableEq

/-- `text[:4]`. -/
def hint (text : String) : String := String.ofList (text.toList.take 4)

/-- `hashed[:12]`. -/
def hashPrefix (hashed : String) : String := String.ofList (hashed.toList.take 12)

/-- What `token_hash` feeds to the hash: the pepper, if there is one, and the token. -/
def secret (pepper : Option String) (token : String) : String := pepper.getD "" ++ token

def scopesList (scopes : List String) : List String := (scopes.map strip).filter (· ≠ "")

/-- `_TOKEN_ALLOWED_RE`. -/
def isAllowedToken (token : String) : Bool :=
  token.toList.all (fun c => c.isAlphanum || c = '_' || c = '-') && 1 ≤ token.length && token.length ≤ 64

structure IssueCall where
  channel : String
  expectedAccountId : Option String := none
  expectedChatKey : Option String := none
  scopes : List String := []
  token : Option String := none
  ttlSeconds : ℤ
  hashPepper : Option String := none
  freshToken : String
  now : ℤ

/-- `token or secrets.token_urlsafe(24).rstrip("=")`. -/
def IssueCall.generated (c : IssueCall) : String :=
  match c.token with
  | none => c.freshToken
  | some token => if token = "" then c.freshToken else token

def IssueCall.secret (c : IssueCall) : String := PairTokens.secret c.hashPepper c.generated

def IssueCall.expiresAtTs (c : IssueCall) : ℤ := c.now + max 60 c.ttlSeconds

/-- A row of `bulk_insert_pair_tokens`, as the mapping that it is. -/
structure LegacyToken where
  tokenHash : Option String
  channel : Option String := none
  tokenHint : Option String := none
  createdAtTs : Option ℤ := none
  expiresAtTs : Option ℤ := none
  usedAtTs : Option ℤ := none
  expectedAccountId : Option String := none
  expectedChatKey : Option String := none
  expectedUserId : Option String := none
  expectedChatId : Option String := none
  consumerAccountId : Option String := none
  consumerChatKey : Option String := none
  scopes : List String := []

structure ConsumeCall where
  channel : String
  token : String
  consumerAccountId : String
  consumerChatKey : String
  hashPepper : Option String := none
  now : ℤ

def ConsumeCall.secret (c : ConsumeCall) : String := PairTokens.secret c.hashPepper c.token

structure IssuedToken where
  token : String
  tokenHint : String
  tokenHashPrefix : String
  expiresAtTs : ℤ
  scopes : List String
  deriving DecidableEq

structure ConsumeResult where
  ok : Bool
  reason : String
  tokenHint : String
  tokenHashPrefix : String
  scopes : List String := []
  deriving DecidableEq

section Calls

variable (digest : String → String)

/-- The row that `issue_pair_token` inserts. -/
def IssueCall.row (c : IssueCall) : PairToken where
  tokenHash := digest c.secret
  channel := strip c.channel
  tokenHint := hint c.generated
  createdAtTs := c.now
  expiresAtTs := c.expiresAtTs
  expectedAccountId := c.expectedAccountId
  expectedChatKey := c.expectedChatKey
  scopes := c.scopes.filter fun scope => strip scope ≠ ""

def issuePairToken (tokens : List PairToken) (c : IssueCall) : Except PairError IssuedToken × List PairToken :=
  if strip c.channel = "" then (.error (.valueError "channel is required"), tokens)
  else if isAllowedToken c.generated = false then
    (.error (.valueError "pair token must match channel-safe charset and length"), tokens)
  else
    let row := c.row digest
    match lookup PairToken.tokenHash row.tokenHash tokens with
    | some _ => (.error .integrityError, tokens)
    | none =>
      (.ok ⟨c.generated, row.tokenHint, hashPrefix row.tokenHash, row.expiresAtTs, row.scopes⟩, tokens ++ [row])

/-- `value or default` for a text and for a number. -/
def textOr (value : Option String) (fallback : String) : String :=
  match value with
  | none => fallback
  | some text => if text = "" then fallback else text

def numberOr (value : Option ℤ) (fallback : ℤ) : ℤ :=
  match value with
  | none => fallback
  | some n => if n = 0 then fallback else n

/-- The row that `bulk_insert_pair_tokens` inserts for a mapping with a hash. -/
def LegacyToken.row (r : LegacyToken) (tokenHash : String) (now : ℤ) : PairToken where
  tokenHash := tokenHash
  channel := textOr r.channel "telegram"
  tokenHint := textOr r.tokenHint (hint tokenHash)
  createdAtTs := numberOr r.createdAtTs now
  expiresAtTs := numberOr r.expiresAtTs 0
  usedAtTs := r.usedAtTs
  expectedAccountId := r.expectedAccountId.or (r.expectedUserId.map ("telegram-bot:user:" ++ ·))
  expectedChatKey := r.expectedChatKey.or (r.expectedChatId.map ("telegram-bot:chat:" ++ ·))
  consumerAccountId := r.consumerAccountId
  consumerChatKey := r.consumerChatKey
  scopes := scopesList r.scopes

/-- `INSERT .. ON CONFLICT(token_hash) DO NOTHING`. -/
def insertIfAbsent (row : PairToken) (tokens : List PairToken) : ℕ × List PairToken :=
  match lookup PairToken.tokenHash row.tokenHash tokens with
  | some _ => (0, tokens)
  | none => (1, tokens ++ [row])

/-- The loop of `bulk_insert_pair_tokens`, with the number of rows that it has copied. -/
def copyRows (now : ℤ) : List LegacyToken → ℕ → List PairToken → Except PairError (ℕ × List PairToken)
  | [], copied, tokens => .ok (copied, tokens)
  | r :: rows, copied, tokens =>
    match r.tokenHash with
    | none => .error (.keyError "token_hash")
    | some tokenHash =>
      let (count, tokens') := insertIfAbsent (r.row tokenHash now) tokens
      copyRows now rows (copied + count) tokens'

def bulkInsertPairTokens (tokens : List PairToken) (rows : List LegacyToken) (now : ℤ) :
    Except PairError ℕ × List PairToken :=
  match copyRows now rows 0 tokens with
  | .error error => (.error error, tokens)
  | .ok (copied, tokens') => (.ok copied, tokens')

/-- `_pair_expected_mismatch`; no text stands for the empty one. -/
def pairExpectedMismatch (row : PairToken) (consumerAccountId consumerChatKey : String) : Option String :=
  if row.expectedAccountId.any (· ≠ consumerAccountId) then some "user_mismatch"
  else if row.expectedChatKey.any (· ≠ consumerChatKey) then some "chat_mismatch"
  else none

/-- The `UPDATE` of `consume_pair_token`, and its `WHERE`. -/
def isConsumable (hashed channel : String) (now : ℤ) (row : PairToken) : Bool :=
  row.tokenHash = hashed && row.channel = channel && row.usedAtTs.isNone && now ≤ row.expiresAtTs

def markUsed (c : ConsumeCall) (row : PairToken) : PairToken :=
  { row with usedAtTs := some c.now, consumerAccountId := some c.consumerAccountId,
             consumerChatKey := some c.consumerChatKey }

def consumePairToken (tokens : List PairToken) (c : ConsumeCall) : ConsumeResult × List PairToken :=
  let channel := strip c.channel
  let hashed := digest c.secret
  let failure (reason tokenHint : String) : ConsumeResult := ⟨false, reason, tokenHint, hashPrefix hashed, []⟩
  match tokens.find? fun row => row.tokenHash = hashed && row.channel = channel with
  | none => (failure "invalid_token" (hint c.token), tokens)
  | some row =>
    let tokenHint := textOr (some row.tokenHint) (hint c.token)
    if row.usedAtTs.isSome then (failure "already_used" tokenHint, tokens)
    else if row.expiresAtTs < c.now then (failure "expired_token" tokenHint, tokens)
    else match pairExpectedMismatch row c.consumerAccountId c.consumerChatKey with
      | some mismatch => (failure mismatch tokenHint, tokens)
      | none =>
        let p := isConsumable hashed channel c.now
        let tokens' := updateWhere p (markUsed c) tokens
        if (tokens.filter p).length ≠ 1 then (failure "token_race" (hint c.token), tokens')
        else (⟨true, "paired", tokenHint, hashPrefix hashed, scopesList row.scopes⟩, tokens')

end Calls

inductive PairCall where
  | issue (call : IssueCall)
  | bulkInsert (rows : List LegacyToken) (now : ℤ)
  | consume (call : ConsumeCall)

inductive PairOutcome where
  | issued (result : Except PairError IssuedToken)
  | copied (result : Except PairError ℕ)
  | consumed (result : ConsumeResult)

def perform (digest : String → String) (tokens : List PairToken) (call : PairCall) :
    (PairCall × PairOutcome) × List PairToken :=
  match call with
  | .issue c =>
    let (result, tokens') := issuePairToken digest tokens c
    ((call, .issued result), tokens')
  | .bulkInsert rows now =>
    let (result, tokens') := bulkInsertPairTokens tokens rows now
    ((call, .copied result), tokens')
  | .consume c =>
    let (result, tokens') := consumePairToken digest tokens c
    ((call, .consumed result), tokens')

/-- The consumer that a row expects, in its channel and before it expires. -/
structure Admits (row : PairToken) (c : ConsumeCall) : Prop where
  channel : row.channel = strip c.channel
  unexpired : c.now ≤ row.expiresAtTs
  account : ∀ accountId, row.expectedAccountId = some accountId → accountId = c.consumerAccountId
  chat : ∀ chatKey, row.expectedChatKey = some chatKey → chatKey = c.consumerChatKey

section Spec

variable {digest : String → String} {tokens : List PairToken}

theorem issuePairToken_cases (digest : String → String) (tokens : List PairToken) (c : IssueCall) :
    (∃ error, issuePairToken digest tokens c = (.error error, tokens)) ∨
    ∃ issued, lookup PairToken.tokenHash (digest c.secret) tokens = none ∧
      issuePairToken digest tokens c = (.ok issued, tokens ++ [c.row digest]) := by
  rw [issuePairToken]
  split
  · exact .inl ⟨_, rfl⟩
  · split
    · exact .inl ⟨_, rfl⟩
    · dsimp only
      split
      · exact .inl ⟨_, rfl⟩
      · next habsent => exact .inr ⟨_, habsent, rfl⟩

/-- Rows are only added, each for a mapping of the batch, and with a new hash. -/
structure Copied (rows : List LegacyToken) (now : ℤ) (tokens tokens' : List PairToken) : Prop where
  unique : UniqueKey PairToken.tokenHash tokens'
  kept : ∀ row ∈ tokens, row ∈ tokens'
  origin : ∀ row ∈ tokens', row ∈ tokens ∨ ∃ r ∈ rows, ∃ tokenHash, r.tokenHash = some tokenHash ∧ row = r.row tokenHash now

theorem copied_insertIfAbsent (h : UniqueKey PairToken.tokenHash tokens) {r : LegacyToken} {tokenHash : String}
    (hhash : r.tokenHash = some tokenHash) (now : ℤ) :
    Copied [r] now tokens (insertIfAbsent (r.row tokenHash now) tokens).2 := by
  rw [insertIfAbsent]
  split
  · exact ⟨h, fun _ hrow => hrow, fun _ hrow => .inl hrow⟩
  · next habsent =>
    refine ⟨h.append_singleton fun row hrow => lookup_eq_none.mp habsent row hrow, ?_, ?_⟩
    · intro row hrow
      exact List.mem_append_left _ hrow
    · intro row hrow
      rcases List.mem_append.mp hrow with hrow | hrow
      · exact .inl hrow
      · exact .inr ⟨r, List.mem_singleton_self r, tokenHash, hhash, List.mem_singleton.mp hrow⟩

theorem copied_copyRows (h : UniqueKey PairToken.tokenHash tokens) {rows : List LegacyToken} {now : ℤ}
    {copied count : ℕ} {tokens' : List PairToken} (hrows : copyRows now rows copied tokens = .ok (count, tokens')) :
    Copied rows now tokens tokens' := by
  induction rows generalizing tokens copied with
  | nil =>
    obtain ⟨-, rfl⟩ := Prod.mk.inj (Except.ok.inj hrows)
    exact ⟨h, fun _ hrow => hrow, fun _ hrow => .inl hrow⟩
  | cons r rows ih =>
    rw [copyRows] at hrows
    cases hhash : r.tokenHash with
    | none =>
      rw [hhash] at hrows
      cases hrows
    | some tokenHash =>
      rw [hhash] at hrows
      have hfirst := copied_insertIfAbsent h hhash now
      have hrest := ih hfirst.unique hrows
      refine ⟨hrest.unique, fun row hrow => hrest.kept row (hfirst.kept row hrow), fun row hrow => ?_⟩
      rcases hrest.origin row hrow with hrow | ⟨r', hr', horigin⟩
      · rcases hfirst.origin row hrow with hrow | ⟨r', hr', horigin⟩
        · exact .inl hrow
        · rw [List.mem_singleton.mp hr'] at horigin
          exact .inr ⟨r, List.mem_cons_self, horigin⟩
      · exact .inr ⟨r', List.mem_cons_of_mem r hr', horigin⟩

theorem pairExpectedMismatch_none {row : PairToken} {accountId chatKey : String}
    (h : pairExpectedMismatch row accountId chatKey = none) :
    (∀ expected, row.expectedAccountId = some expected → expected = accountId) ∧
      ∀ expected, row.expectedChatKey = some expected → expected = chatKey := by
  rw [pairExpectedMismatch] at h
  split at h
  · cases h
  · next haccount =>
    split at h
    · cases h
    · next hchat =>
      constructor
      · intro expected hexpected
        simpa [hexpected] using haccount
      · intro expected hexpected
        simpa [hexpected] using hchat

/-- A call that fails changes nothing; one that returns ok marks the row of its token, which
was not used before. -/
theorem consumePairToken_cases (digest : String → String) (h : UniqueKey PairToken.tokenHash tokens) (c : ConsumeCall) :
    ((consumePairToken digest tokens c).1.ok = false ∧ (consumePairToken digest tokens c).2 = tokens) ∨
    ∃ row ∈ tokens, row.tokenHash = digest c.secret ∧ row.usedAtTs = none ∧ Admits row c ∧
      (consumePairToken digest tokens c).1.ok = true ∧
      (consumePairToken digest tokens c).2 =
        updateWhere (isConsumable (digest c.secret) (strip c.channel) c.now) (markUsed c) tokens := by
  rw [consumePairToken]
  dsimp only
  split
  · exact .inl ⟨rfl, rfl⟩
  · next row hfound =>
    have hrow : row ∈ tokens := List.mem_of_find?_eq_some hfound
    have hkeys : row.tokenHash = digest c.secret ∧ row.channel = strip c.channel := by
      simpa using List.find?_some hfound
    split
    · exact .inl ⟨rfl, rfl⟩
    · next hused =>
      have hunused : row.usedAtTs = none := by simpa using hused
      split
      · exact .inl ⟨rfl, rfl⟩
      · next hexpired =>
        have hunexpired : c.now ≤ row.expiresAtTs := not_lt.mp hexpired
        split
        · exact .inl ⟨rfl, rfl⟩
        · next hmismatch =>
          obtain ⟨haccount, hchat⟩ := pairExpectedMismatch_none hmismatch
          -- the row that was read satisfies the condition of the update, and no other has its hash
          have hconsumable : isConsumable (digest c.secret) (strip c.channel) c.now row = true := by
            simp [isConsumable, hkeys, hunused, hunexpired]
          have hle : (tokens.filter (isConsumable (digest c.secret) (strip c.channel) c.now)).length ≤ 1 := by
            apply h.length_filter_le_one
            intro x _ hx
            simp only [isConsumable, Bool.and_eq_true, decide_eq_true_eq] at hx
            exact hx.1.1.1
          have hpos := List.length_pos_of_mem (List.mem_filter.mpr ⟨hrow, hconsumable⟩)
          rw [if_neg (by omega)]
          exact .inr ⟨row, hrow, hkeys.1, hunused, ⟨hkeys.2, hunexpired, haccount, hchat⟩, rfl, rfl⟩

end Spec

abbrev Entry := PairCall × PairOutcome

/-- The call is a `consume_pair_token` for this token that returned ok. -/
def isPaired (text : String) : Entry → Bool
  | (.consume c, .consumed result) => result.ok && c.secret = text
  | _ => false

/-- The call issued the token that `c` consumes, or inserted its row, and admits the consumer. -/
def IssuedFor (digest : String → String) (c : ConsumeCall) : Entry → Prop
  | (.issue i, .issued (.ok _)) => i.secret = c.secret ∧ Admits (i.row digest) c
  | (.bulkInsert rows now, .copied (.ok _)) =>
    ∃ r ∈ rows, r.tokenHash = some (digest c.secret) ∧ Admits (r.row (digest c.secret) now) c
  | _ => False

def Inserted (digest : String → String) (row : PairToken) : Entry → Prop
  | (.issue i, .issued (.ok _)) => row = i.row digest
  | (.bulkInsert rows now, .copied (.ok _)) => ∃ r ∈ rows, r.tokenHash = some row.tokenHash ∧ row = r.row row.tokenHash now
  | _ => False

/-- Every token that was consumed had been issued for its consumer by then. -/
inductive AllIssued (digest : String → String) : List Entry → Prop where
  | nil : AllIssued digest []
  | snoc {history : List Entry} {e : Entry} (h : AllIssued digest history)
      (he : ∀ c result, e = (.consume c, .consumed result) → result.ok = true → ∃ e₀ ∈ history, IssuedFor digest c e₀) :
      AllIssued digest (history ++ [e])

def PairToken.unused (row : PairToken) : PairToken :=
  { row with usedAtTs := none, consumerAccountId := none, consumerChatKey := none }

structure Kept (digest : String → String) (history : List Entry) (tokens : List PairToken) : Prop where
  unique : UniqueKey PairToken.tokenHash tokens
  origin : ∀ row ∈ tokens, ∃ e ∈ history, ∃ row₀, Inserted digest row₀ e ∧ row₀.unused = row.unused
  used : ∀ text, history.countP (isPaired text) ≤ 1 ∧
    (0 < history.countP (isPaired text) → ∃ row ∈ tokens, row.tokenHash = digest text ∧ row.usedAtTs ≠ none)
  issued : AllIssued digest history

section Steps

variable {digest : String → String} {history : List Entry} {tokens : List PairToken}

theorem markUsed_unused (c : ConsumeCall) (row : PairToken) : (markUsed c row).unused = row.unused := rfl

theorem Admits.of_unused {row row₀ : PairToken} {c : ConsumeCall} (h : Admits row c) (heq : row₀.unused = row.unused) :
    Admits row₀ c := by
  simp only [PairToken.unused, PairToken.mk.injEq] at heq
  obtain ⟨-, hchannel, -, -, hexpires, -, haccount, hchat, -⟩ := heq
  constructor
  · rw [hchannel]
    exact h.channel
  · rw [hexpires]
    exact h.unexpired
  · rw [haccount]
    exact h.account
  · rw [hchat]
    exact h.chat

theorem Inserted.issuedFor (hdigest : Function.Injective digest) {row : PairToken} {e : Entry} {c : ConsumeCall}
    (h : Inserted digest row e) (hhash : row.tokenHash = digest c.secret) (hadmits : Admits row c) :
    IssuedFor digest c e := by
  match e, h with
  | (.issue i, .issued (.ok _)), h =>
    have hrow : row = i.row digest := h
    rw [hrow] at hhash hadmits
    exact ⟨hdigest hhash, hadmits⟩
  | (.bulkInsert rows now, .copied (.ok _)), h =>
    obtain ⟨r, hr, htoken, hrow⟩ := h
    rw [hhash] at htoken hrow
    rw [hrow] at hadmits
    exact ⟨r, hr, htoken, hadmits⟩

theorem countP_snoc {e : Entry} {text : String} (h : isPaired text e = false) :
    (history ++ [e]).countP (isPaired text) = history.countP (isPaired text) := by
  simp [List.countP_append, h]

/-- A call that pairs nothing keeps the invariant when it keeps the rows and adds only rows of its own. -/
theorem Kept.snoc (h : Kept digest history tokens) {e : Entry} (hunpaired : ∀ text, isPaired text e = false)
    {tokens' : List PairToken} (hunique : UniqueKey PairToken.tokenHash tokens') (hkept : ∀ row ∈ tokens, row ∈ tokens')
    (horigin : ∀ row ∈ tokens', row ∈ tokens ∨ Inserted digest row e) : Kept digest (history ++ [e]) tokens' where
  unique := hunique
  origin := by
    intro row hrow
    rcases horigin row hrow with hrow | hinserted
    · obtain ⟨e₀, he₀, hrest⟩ := h.origin row hrow
      exact ⟨e₀, List.mem_append_left _ he₀, hrest⟩
    · exact ⟨e, List.mem_append_right _ (List.mem_singleton_self e), row, hinserted, rfl⟩
  used := by
    intro text
    rw [countP_snoc (hunpaired text)]
    refine ⟨(h.used text).1, fun hpos => ?_⟩
    obtain ⟨row, hrow, hrest⟩ := (h.used text).2 hpos
    exact ⟨row, hkept row hrow, hrest⟩
  issued := by
    refine .snoc h.issued ?_
    rintro c result rfl hok
    have := hunpaired c.secret
    simp [isPaired, hok] at this

theorem Kept.issue (h : Kept digest history tokens) (c : IssueCall) :
    Kept digest (history ++ [(perform digest tokens (.issue c)).1]) (perform digest tokens (.issue c)).2 := by
  rcases issuePairToken_cases digest tokens c with ⟨error, heq⟩ | ⟨issued, habsent, heq⟩
  · simp only [perform, heq]
    exact h.snoc (fun _ => rfl) h.unique (fun _ hrow => hrow) fun _ hrow => .inl hrow
  · simp only [perform, heq]
    refine h.snoc (fun _ => rfl) (h.unique.append_singleton ?_) ?_ ?_
    · exact fun row hrow => lookup_eq_none.mp habsent row hrow
    · exact fun row hrow => List.mem_append_left _ hrow
    · intro row hrow
      rcases List.mem_append.mp hrow with hrow | hrow
      · exact .inl hrow
      · exact .inr (List.mem_singleton.mp hrow)

theorem Kept.bulkInsert (h : Kept digest history tokens) (rows : List LegacyToken) (now : ℤ) :
    Kept digest (history ++ [(perform digest tokens (.bulkInsert rows now)).1])
      (perform digest tokens (.bulkInsert rows now)).2 := by
  cases hcopy : copyRows now rows 0 tokens with
  | error error =>
    simp only [perform, bulkInsertPairTokens, hcopy]
    exact h.snoc (fun _ => rfl) h.unique (fun _ hrow => hrow) fun _ hrow => .inl hrow
  | ok result =>
    obtain ⟨count, tokens'⟩ := result
    have hcopied := copied_copyRows h.unique hcopy
    simp only [perform, bulkInsertPairTokens, hcopy]
    refine h.snoc (fun _ => rfl) hcopied.unique hcopied.kept fun row hrow => ?_
    rcases hcopied.origin row hrow with hrow | ⟨r, hr, tokenHash, htoken, rfl⟩
    · exact .inl hrow
    · exact .inr ⟨r, hr, htoken, rfl⟩

theorem Kept.unpaired (h : Kept digest history tokens) {row : PairToken} (hrow : row ∈ tokens) {text : String}
    (hhash : row.tokenHash = digest text) (hunused : row.usedAtTs = none) : history.countP (isPaired text) = 0 := by
  by_contra hne
  have hpos := Nat.pos_of_ne_zero hne
  obtain ⟨row', hrow', hhash', hused⟩ := (h.used text).2 hpos
  rw [h.unique.eq_of_key_eq hrow' hrow (hhash'.trans hhash.symm)] at hused
  exact hused hunused

private theorem used_markUsed {c : ConsumeCall} {hashed channel : String} {row : PairToken} (hrow : row ∈ tokens)
    (hused : row.usedAtTs ≠ none ∨ isConsumable hashed channel c.now row = true) :
    ∃ row' ∈ updateWhere (isConsumable hashed channel c.now) (markUsed c) tokens,
      row'.tokenHash = row.tokenHash ∧ row'.usedAtTs ≠ none := by
  refine ⟨_, mem_updateWhere.mpr ⟨row, hrow, rfl⟩, ?_⟩
  split
  · exact ⟨rfl, Option.some_ne_none c.now⟩
  · next hnot => exact ⟨rfl, hused.resolve_right hnot⟩

theorem Kept.consume (hdigest : Function.Injective digest) (h : Kept digest history tokens) (c : ConsumeCall) :
    Kept digest (history ++ [(perform digest tokens (.consume c)).1]) (perform digest tokens (.consume c)).2 := by
  rcases consumePairToken_cases digest h.unique c with ⟨hfail, heq⟩ | ⟨row, hrow, hhash, hunused, hadmits, hok, heq⟩
  · simp only [perform, heq]
    refine h.snoc ?_ h.unique (fun _ hrow => hrow) fun _ hrow => .inl hrow
    intro text
    simp [isPaired, hfail]
  · simp only [perform, heq]
    refine ⟨h.unique.updateWhere fun _ _ => rfl, ?_, ?_, ?_⟩
    · intro row' hrow'
      obtain ⟨row₁, hrow₁, rfl⟩ := mem_updateWhere.mp hrow'
      obtain ⟨e₀, he₀, row₀, hinserted, hsame⟩ := h.origin row₁ hrow₁
      refine ⟨e₀, List.mem_append_left _ he₀, row₀, hinserted, ?_⟩
      rw [hsame]
      split
      · exact (markUsed_unused c row₁).symm
      · rfl
    · intro text
      by_cases htext : c.secret = text
      · -- the token of this call, whose row was unused and is used now
        subst htext
        have hzero := h.unpaired hrow hhash hunused
        have hone : (history ++ [((.consume c, .consumed (consumePairToken digest tokens c).1) : Entry)]).countP
            (isPaired c.secret) = 1 := by
          simp [List.countP_append, hzero, isPaired, hok]
        rw [hone]
        refine ⟨le_rfl, fun _ => ?_⟩
        have hconsumable : isConsumable (digest c.secret) (strip c.channel) c.now row = true := by
          simp [isConsumable, hhash, hadmits.channel, hunused, hadmits.unexpired]
        obtain ⟨row', hrow', hhash', hused'⟩ := used_markUsed hrow (.inr hconsumable)
        exact ⟨row', hrow', hhash'.trans hhash, hused'⟩
      · rw [countP_snoc (by simp [isPaired, htext])]
        refine ⟨(h.used text).1, fun hpos => ?_⟩
        obtain ⟨row₁, hrow₁, hhash₁, hused₁⟩ := (h.used text).2 hpos
        obtain ⟨row', hrow', hhash', hused'⟩ := used_markUsed hrow₁ (.inl hused₁)
        exact ⟨row', hrow', hhash'.trans hhash₁, hused'⟩
    · refine .snoc h.issued ?_
      intro c' result hentry _
      obtain rfl : c = c' := PairCall.consume.inj (Prod.mk.inj hentry).1
      obtain ⟨e₀, he₀, row₀, hinserted, hsame⟩ := h.origin row hrow
      have hhash₀ : row₀.tokenHash = digest c.secret := by
        have := congrArg PairToken.tokenHash hsame
        exact this.trans hhash
      exact ⟨e₀, he₀, hinserted.issuedFor hdigest hhash₀ (hadmits.of_unused hsame)⟩

theorem Kept.perform (hdigest : Function.Injective digest) (h : Kept digest history tokens) (call : PairCall) :
    Kept digest (history ++ [(perform digest tokens call).1]) (perform digest tokens call).2 := by
  cases call with
  | issue c => exact h.issue c
  | bulkInsert rows now => exact h.bulkInsert rows now
  | consume c => exact h.consume hdigest c

theorem kept_nil : Kept digest [] [] where
  unique := UniqueKey.nil
  origin := by simp
  used := by simp
  issued := .nil

theorem kept_outcomes (hdigest : Function.Injective digest) (calls : List PairCall) :
    Kept digest (outcomes (PairTokens.perform digest) [] calls)
      (run (fun tokens call => (PairTokens.perform digest tokens call).2) [] calls) := by
  have hrun : Guarded (fun tokens call => (PairTokens.perform digest tokens call).2) (fun _ _ => True) [] calls :=
    .of_forall (fun _ _ => trivial) [] calls
  have hkept := hrun.outcomes_invariant (I := Kept digest) (fun _ _ call h _ => h.perform hdigest call) kept_nil
  simpa using hkept

theorem AllIssued.of_split (h : AllIssued digest history) {before after : List Entry} {c : ConsumeCall}
    {result : ConsumeResult} (hsplit : history = before ++ (PairCall.consume c, PairOutcome.consumed result) :: after)
    (hok : result.ok = true) : ∃ e ∈ before, IssuedFor digest c e := by
  induction h generalizing after with
  | nil => simp at hsplit
  | snoc hhistory he ih =>
    rcases List.eq_nil_or_concat after with rfl | ⟨after', e', rfl⟩
    · obtain ⟨rfl, hlast⟩ := List.append_inj' hsplit rfl
      exact he c result (List.singleton_inj.mp hlast) hok
    · rw [List.concat_eq_append, ← List.cons_append, ← List.append_assoc] at hsplit
      exact ih (List.append_inj' hsplit rfl).1

end Steps

/-- At most one call pairs with a token, and only after the token was issued for its channel,
for its time and for its consumer. -/
theorem consume_at_most_once {digest : String → String} (hdigest : Function.Injective digest) (calls : List PairCall) :
    (∀ text, (outcomes (perform digest) [] calls).countP (isPaired text) ≤ 1) ∧
    ∀ (before after : List Entry) (c : ConsumeCall) (result : ConsumeResult),
      outcomes (perform digest) [] calls = before ++ (PairCall.consume c, PairOutcome.consumed result) :: after →
      result.ok = true → ∃ e ∈ before, IssuedFor digest c e := by
  have hkept := kept_outcomes hdigest calls
  refine ⟨fun text => (hkept.used text).1, ?_⟩
  intro before after c result hsplit hok
  exact hkept.issued.of_split hsplit hok

def pairMeDigest : Equiv.Perm String :=
  Equiv.swap "pair-me" "508499891a8ecb2c56515e8b9794481bb087970f282e8054290f8fc468abd767"

def pairMeCalls : List PairCall :=
  [.issue ⟨"telegram", some "u1", some "c1", ["chat"], some "pair-me", 600, none, "x", 1000⟩,
    .consume ⟨"telegram", "pair-me", "u1", "c2", none, 1100⟩,
    .consume ⟨"telegram", "pair-me", "u1", "c1", none, 1200⟩,
    .consume ⟨"telegram", "pair-me", "u1", "c1", none, 1300⟩]

theorem consume_at_most_once_pairMe :
    ((outcomes (perform pairMeDigest) [] pairMeCalls).countP (isPaired "pair-me") = 1) ∧
    (∀ text, (outcomes (perform pairMeDigest) [] pairMeCalls).countP (isPaired text) ≤ 1) ∧
    ∀ (before after : List Entry) (c : ConsumeCall) (result : ConsumeResult),
      outcomes (perform pairMeDigest) [] pairMeCalls = before ++ (PairCall.consume c, PairOutcome.consumed result) :: after →
      result.ok = true → ∃ e ∈ before, IssuedFor pairMeDigest c e :=
  ⟨by decide +kernel, consume_at_most_once pairMeDigest.injective pairMeCalls⟩

end OpenMinion.PairTokens
