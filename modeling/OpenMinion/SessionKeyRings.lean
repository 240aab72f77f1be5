import Mathlib.Logic.Function.Basic
import OpenMinion.PythonValues
import OpenMinion.TransitionRuns

/-!
# Session key rings

An envelope names its key, its purpose and its record, which decryption compares with what was encrypted. A rotation
under a name that is in use replaces the key of the envelopes that name it.
-/
namespace OpenMinion.SessionKeyRings
open JsonValues PythonText PythonValues TransitionRuns

/-- `Fernet`: the key, the time and the random vector, and the document. A token is decrypted with the
key that it was made with; a malformed key cannot encrypt. -/
structure Cipher where
  encrypt : String → ℕ → Json → Option String
  decrypt : String → String → Option Json
  decrypt_encrypt : ∀ key salt document token, encrypt key salt document = some token → decrypt key token = some document

/-- `str` and `dict` of values that JSON has; `dict` can raise. -/
structure Platform where
  strOf : Json → String
  strOf_str : ∀ s, strOf (.str s) = s
  dictOf : Json → Option Dict
  dictOf_dict : ∀ items, dictOf (.dict items) = some items

inductive SessionEncryptionError
  | keyUnavailable (message : String)
  | identityMismatch (message : String)
  /-- An exception of another class. -/
  | other
  deriving DecidableEq

/-- `a == b` of dictionaries. -/
def sameDict (a b : Dict) : Bool := (Json.dict a).pyEq (.dict b)

structure Identity where
  items : List (String × String)
  distinct : (items.map Prod.fst).Nodup

def Identity.dict (identity : Identity) : Dict := identity.items.map fun item => (item.1, .str item.2)

structure Payload where
  items : PyItems
  wellFormed : WellFormed (.dict items)

def schemaVersion : String := "session_encryption.v1"

structure SessionEncryptionEnvelope where
  schemaVersion : String
  keyId : String
  purpose : String
  recordIdentity : Dict
  ciphertext : String

def SessionEncryptionEnvelope.toDict (envelope : SessionEncryptionEnvelope) : Dict :=
  [("schema_version", .str envelope.schemaVersion), ("key_id", .str envelope.keyId), ("purpose", .str envelope.purpose),
    ("record_identity", .dict envelope.recordIdentity), ("ciphertext", .str envelope.ciphertext)]

variable (platform : Platform) (cipher : Cipher)

/-- `str(value or "")`. -/
def textOr (value : Json) (default : String) : String := if value.truthy then platform.strOf value else default

/-- The items of `dict(value or {})`, each with `str`. -/
def identityOf (value : Json) : Option Dict :=
  ((if value.truthy then platform.dictOf value else some []) : Option Dict).map fun items =>
    items.map fun item => (item.1, .str (platform.strOf item.2))

def envelopeFromMapping (value : Dict) : Option SessionEncryptionEnvelope :=
  (identityOf platform (Dict.get value "record_identity")).map fun recordIdentity =>
    { schemaVersion := textOr platform (Dict.get value "schema_version") schemaVersion
      keyId := textOr platform (Dict.get value "key_id") ""
      purpose := textOr platform (Dict.get value "purpose") ""
      recordIdentity
      ciphertext := textOr platform (Dict.get value "ciphertext") "" }

structure FernetSessionKeyRing where
  keys : String → Option String
  activeKeyId : String
  active : (keys activeKeyId).isSome

def FernetSessionKeyRing.withKey (keys : String → Option String) (keyId key : String) : FernetSessionKeyRing where
  keys := Function.update keys keyId (some key)
  activeKeyId := keyId
  active := by
    rw [Function.update_self]
    rfl

/-- `FernetSessionKeyRing.__init__`; a key is generated when the active one is not given. -/
def FernetSessionKeyRing.init (activeKeyId : String) (keys : String → Option String) (generated : String) : FernetSessionKeyRing :=
  if h : (keys activeKeyId).isSome then ⟨keys, activeKeyId, h⟩ else .withKey keys activeKeyId generated

def document (payload : Payload) (purpose : String) (identity : Identity) : Json :=
  .dict
    [("plaintext", readBack (.dict payload.items)), ("purpose", .str purpose),
      ("record_identity", .dict (identity.dict.insertionSort fun a b => a.1 ≤ b.1))]

/-- `encrypt_session_payload`; without an envelope the payload has no JSON text or the key is malformed. -/
def encryptSessionPayload (ring : FernetSessionKeyRing) (payload : Payload) (purpose : String) (identity : Identity) (salt : ℕ) :
    Option Dict :=
  if dumpable (.dict payload.items) then
    (cipher.encrypt ((ring.keys ring.activeKeyId).get ring.active) salt (document payload purpose identity)).map fun token =>
      SessionEncryptionEnvelope.toDict ⟨schemaVersion, ring.activeKeyId, purpose, identity.dict, token⟩
  else none

def FernetSessionKeyRing.decrypt (ring : FernetSessionKeyRing) (envelope : SessionEncryptionEnvelope) :
    Except SessionEncryptionError Json :=
  match ring.keys envelope.keyId with
  | none => .error (.keyUnavailable ("missing session encryption key: " ++ envelope.keyId))
  | some key =>
    match cipher.decrypt key envelope.ciphertext with
    | none => .error (.keyUnavailable "session ciphertext could not be decrypted")
    | some (.dict payload) =>
      if !(Dict.get payload "purpose").pyEq (.str envelope.purpose) then
        .error (.identityMismatch "session ciphertext purpose mismatch")
      else
        let value := Dict.get payload "record_identity"
        match if value.truthy then platform.dictOf value else some [] with
        | none => .error .other
        | some identity =>
          if sameDict identity envelope.recordIdentity then .ok (Dict.get payload "plaintext")
          else .error (.identityMismatch "session ciphertext identity mismatch")
    | some _ => .error .other

def decryptSessionPayload (ring : FernetSessionKeyRing) (envelopePayload : Dict) (expectedIdentity : Identity) :
    Except SessionEncryptionError Dict :=
  match envelopeFromMapping platform envelopePayload with
  | none => .error .other
  | some envelope =>
    if sameDict envelope.recordIdentity expectedIdentity.dict then
      match ring.decrypt platform cipher envelope with
      | .error e => .error e
      | .ok (.dict items) => .ok items
      | .ok value => .ok [("value", value)]
    else .error (.identityMismatch "session ciphertext identity mismatch")

/-- `rotate`; an empty name raises `ValueError` and an empty key is none given. -/
def FernetSessionKeyRing.rotate (ring : FernetSessionKeyRing) (keyId : String) (key : Option String) (generated : String) :
    Option FernetSessionKeyRing :=
  let normalized := strip keyId
  if normalized = "" then none
  else some (.withKey ring.keys normalized (if key.getD "" = "" then generated else key.getD ""))

inductive Action
  | encrypt (payload : Payload) (purpose : String) (identity : Identity) (salt : ℕ)
  | rotate (keyId : String) (key : Option String) (generated : String)

structure Produced where
  payload : Payload
  purpose : String
  identity : Identity
  envelope : Dict

structure Session where
  ring : FernetSessionKeyRing
  produced : List Produced

def step (s : Session) : Action → Session
  | .encrypt payload purpose identity salt =>
    match encryptSessionPayload cipher s.ring payload purpose identity salt with
    | none => s
    | some envelope => { s with produced := s.produced ++ [⟨payload, purpose, identity, envelope⟩] }
  | .rotate keyId key generated =>
    match s.ring.rotate keyId key generated with
    | none => s
    | some ring => { s with ring }

def KeepsKeys (s : Session) : Action → Prop
  | .encrypt .. => True
  | .rotate keyId key generated =>
    ∀ ring, s.ring.rotate keyId key generated = some ring → ∀ name old, s.ring.keys name = some old → ring.keys name = some old

/-- The envelope is decrypted for its record, to the payload if JSON keeps that; for another record, and
with another purpose or record in it, it is rejected. -/
structure Bound (ring : FernetSessionKeyRing) (p : Produced) : Prop where
  own : ∃ items, decryptSessionPayload platform cipher ring p.envelope p.identity = .ok items ∧
    sameAs (.dict items) (.dict p.payload.items) = faithful (.dict p.payload.items)
  otherIdentity : ∀ other : Identity, sameDict p.identity.dict other.dict = false →
    ∃ e, decryptSessionPayload platform cipher ring p.envelope other = .error e
  changedPurpose : ∀ value expected, textOr platform value "" ≠ p.purpose →
    ∃ e, decryptSessionPayload platform cipher ring (Dict.set p.envelope "purpose" value) expected = .error e
  changedIdentity : ∀ value expected, (∀ identity ∈ identityOf platform value, sameDict p.identity.dict identity = false) →
    ∃ e, decryptSessionPayload platform cipher ring (Dict.set p.envelope "record_identity" value) expected = .error e

theorem sameDict_perm {a a' : Dict} (h : a.Perm a') (b : Dict) : sameDict a b = sameDict a' b := by
  have hitems : Json.pyEqItems a b = Json.pyEqItems a' b := by
    rw [Bool.eq_iff_iff, Json.pyEqItems_iff, Json.pyEqItems_iff]
    exact ⟨fun hall item hitem => hall item (h.mem_iff.mpr hitem), fun hall item hitem => hall item (h.mem_iff.mp hitem)⟩
  rw [sameDict, sameDict, Json.pyEq, Json.pyEq, hitems, h.length_eq]

theorem sameDict_self (identity : Identity) : sameDict identity.dict identity.dict = true := by
  have hkeys : (identity.dict.map Prod.fst).Nodup := by
    rw [Identity.dict, List.map_map]
    exact identity.distinct
  rw [sameDict, Json.pyEq, beq_self_eq_true, Bool.true_and, Json.pyEqItems_iff]
  intro item hitem
  refine ⟨item, ?_, ?_⟩
  · obtain ⟨front, back, hsplit⟩ := List.append_of_mem hitem
    rw [hsplit, List.map_append, List.map_cons, List.nodup_append] at hkeys
    have hfront : front.find? (·.1 == item.1) = none := by
      rw [List.find?_eq_none]
      intro other hother heq
      exact hkeys.2.2 other.1 (List.mem_map_of_mem hother) item.1 List.mem_cons_self (by simpa using heq)
    rw [hsplit, List.find?_append, hfront, List.find?_cons_of_pos (by simp)]
    rfl
  · obtain ⟨source, -, rfl⟩ := List.mem_map.mp hitem
    exact Json.pyEq_str.mpr rfl

theorem identityOf_dict (identity : Identity) : identityOf platform (.dict identity.dict) = some identity.dict := by
  have hitems : identity.dict.map (fun item => (item.1, Json.str (platform.strOf item.2))) = identity.dict := by
    rw [Identity.dict, List.map_map]
    refine List.map_congr_left fun item _ => ?_
    simp only [Function.comp_apply, platform.strOf_str]
  rw [identityOf]
  split
  · rw [platform.dictOf_dict, Option.map_some, hitems]
  · next hempty =>
    have hnil : identity.dict = [] := by simpa [Json.truthy] using hempty
    rw [hnil]
    rfl

theorem textOr_str (s : String) : textOr platform (.str s) "" = s := by
  rw [textOr]
  split
  · exact platform.strOf_str s
  · next hempty =>
    have hnil : s = "" := by simpa [Json.truthy] using hempty
    exact hnil.symm

/-- The envelope was made of those things with a key that its ring still has. -/
structure Sealed (ring : FernetSessionKeyRing) (p : Produced) : Prop where
  sealed : ∃ keyId key salt token, ring.keys keyId = some key ∧
    cipher.encrypt key salt (document p.payload p.purpose p.identity) = some token ∧
    p.envelope = SessionEncryptionEnvelope.toDict ⟨schemaVersion, keyId, p.purpose, p.identity.dict, token⟩

variable {platform} {cipher}

theorem decrypt_token {ring : FernetSessionKeyRing} {keyId key token purpose : String} {salt : ℕ} {payload : Payload}
    {identity : Identity} (hkey : ring.keys keyId = some key)
    (htoken : cipher.encrypt key salt (document payload purpose identity) = some token) {envelope : SessionEncryptionEnvelope}
    (hkeyId : envelope.keyId = keyId) (hciphertext : envelope.ciphertext = token) :
    ring.decrypt platform cipher envelope =
      if purpose = envelope.purpose then
        if sameDict identity.dict envelope.recordIdentity then .ok (readBack (.dict payload.items))
        else .error (.identityMismatch "session ciphertext identity mismatch")
      else .error (.identityMismatch "session ciphertext purpose mismatch") := by
  have hdocument := cipher.decrypt_encrypt key salt _ token htoken
  have hstored (sorted : Dict) : (if (Json.dict sorted).truthy then platform.dictOf (.dict sorted) else some []) = some sorted := by
    cases sorted with
    | nil => rfl
    | cons item items => exact platform.dictOf_dict _
  rw [document] at hdocument
  simp only [FernetSessionKeyRing.decrypt, hkeyId, hciphertext, hkey, hdocument]
  have hplaintext (a b c : Json) : Dict.get [("plaintext", a), ("purpose", b), ("record_identity", c)] "plaintext" = a := rfl
  have hstoredPurpose (a b c : Json) : Dict.get [("plaintext", a), ("purpose", b), ("record_identity", c)] "purpose" = b := rfl
  have hrecord (a b c : Json) : Dict.get [("plaintext", a), ("purpose", b), ("record_identity", c)] "record_identity" = c := rfl
  simp only [hplaintext, hstoredPurpose, hrecord]
  by_cases hpurpose : purpose = envelope.purpose
  · simp [hpurpose, hstored, sameDict_perm (List.perm_insertionSort _ identity.dict)]
  · have hne : (Json.str purpose).pyEq (.str envelope.purpose) = false := by
      rw [Bool.eq_false_iff, Ne, Json.pyEq_str, Json.str.injEq]
      exact hpurpose
    simp [hne, hpurpose]

variable {ring : FernetSessionKeyRing} {p : Produced}

/-- Whatever is done to its purpose and its record, the envelope of the mapping keeps key and token. -/
theorem Sealed.decrypt_changed (h : Sealed cipher ring p) {mapping : Dict} {expected : Identity}
    (hkeyId : Dict.get mapping "key_id" = Dict.get p.envelope "key_id")
    (hciphertext : Dict.get mapping "ciphertext" = Dict.get p.envelope "ciphertext") :
    decryptSessionPayload platform cipher ring mapping expected =
      match identityOf platform (Dict.get mapping "record_identity") with
      | none => .error .other
      | some recordIdentity =>
        if sameDict recordIdentity expected.dict then
          if p.purpose = textOr platform (Dict.get mapping "purpose") "" then
            if sameDict p.identity.dict recordIdentity then
              .ok (loadItems (readBackItems p.payload.items))
            else .error (.identityMismatch "session ciphertext identity mismatch")
          else .error (.identityMismatch "session ciphertext purpose mismatch")
        else .error (.identityMismatch "session ciphertext identity mismatch") := by
  obtain ⟨keyId, key, salt, token, hkey, htoken, henvelope⟩ := h.sealed
  have hkeyId : textOr platform (Dict.get mapping "key_id") "" = keyId := by
    rw [hkeyId, henvelope]
    exact textOr_str platform keyId
  have hciphertext : textOr platform (Dict.get mapping "ciphertext") "" = token := by
    rw [hciphertext, henvelope]
    exact textOr_str platform token
  rw [decryptSessionPayload, envelopeFromMapping]
  cases hidentity : identityOf platform (Dict.get mapping "record_identity") with
  | none => rfl
  | some recordIdentity =>
    simp only [Option.map_some]
    by_cases hsame : sameDict recordIdentity expected.dict = true
    · rw [if_pos hsame, if_pos hsame, decrypt_token hkey htoken hkeyId hciphertext]
      by_cases hpurpose : p.purpose = textOr platform (Dict.get mapping "purpose") ""
      · rw [if_pos hpurpose, if_pos hpurpose]
        by_cases hown : sameDict p.identity.dict recordIdentity = true
        · rw [if_pos hown, if_pos hown, readBack]
        · rw [if_neg hown, if_neg hown]
      · rw [if_neg hpurpose, if_neg hpurpose]
    · rw [if_neg hsame, if_neg hsame]

theorem Sealed.fields (h : Sealed cipher ring p) :
    Dict.get p.envelope "purpose" = .str p.purpose ∧ Dict.get p.envelope "record_identity" = .dict p.identity.dict := by
  obtain ⟨keyId, key, salt, token, -, -, henvelope⟩ := h.sealed
  rw [henvelope]
  exact ⟨rfl, rfl⟩

theorem Sealed.bound (h : Sealed cipher ring p) : Bound platform cipher ring p where
  own := by
    refine ⟨loadItems (readBackItems p.payload.items), ?_, ?_⟩
    · rw [h.decrypt_changed rfl rfl, h.fields.1, h.fields.2, identityOf_dict, textOr_str]
      dsimp only
      rw [if_pos (sameDict_self p.identity), if_pos rfl, if_pos (sameDict_self p.identity)]
    · have hsame := sameAs_readBack (.dict p.payload.items) p.payload.wellFormed
      rw [readBack] at hsame
      exact hsame
  otherIdentity other hother := by
    refine ⟨.identityMismatch "session ciphertext identity mismatch", ?_⟩
    rw [h.decrypt_changed rfl rfl, h.fields.2, identityOf_dict]
    dsimp only
    rw [hother, if_neg Bool.false_ne_true]
  changedPurpose value expected hvalue := by
    rw [h.decrypt_changed (Dict.get_set_of_ne (by decide) _ _) (Dict.get_set_of_ne (by decide) _ _), Dict.get_set_self,
      Dict.get_set_of_ne (by decide), h.fields.2, identityOf_dict]
    dsimp only
    rw [if_neg (Ne.symm hvalue)]
    split
    · exact ⟨_, rfl⟩
    · exact ⟨_, rfl⟩
  changedIdentity value expected hvalue := by
    rw [h.decrypt_changed (Dict.get_set_of_ne (by decide) _ _) (Dict.get_set_of_ne (by decide) _ _), Dict.get_set_self]
    cases hidentity : identityOf platform value with
    | none => exact ⟨_, rfl⟩
    | some recordIdentity =>
      dsimp only
      rw [hvalue recordIdentity hidentity, if_neg Bool.false_ne_true]
      split
      · split
        · exact ⟨_, rfl⟩
        · exact ⟨_, rfl⟩
      · exact ⟨_, rfl⟩

theorem Sealed.of_keys (h : Sealed cipher ring p) {ring' : FernetSessionKeyRing}
    (hkeys : ∀ name old, ring.keys name = some old → ring'.keys name = some old) : Sealed cipher ring' p := by
  obtain ⟨keyId, key, salt, token, hkey, htoken, henvelope⟩ := h.sealed
  exact ⟨keyId, key, salt, token, hkeys keyId key hkey, htoken, henvelope⟩

theorem step_sealed {s : Session} {action : Action} (h : ∀ p ∈ s.produced, Sealed cipher s.ring p) (hkeeps : KeepsKeys s action) :
    ∀ p ∈ (step cipher s action).produced, Sealed cipher (step cipher s action).ring p := by
  cases action with
  | encrypt payload purpose identity salt =>
    rw [step]
    split
    · exact h
    · next envelope henvelope =>
      intro p hp
      rcases List.mem_append.mp hp with hp | hp
      · exact h p hp
      · rw [List.mem_singleton.mp hp]
        rw [encryptSessionPayload] at henvelope
        split at henvelope
        · obtain ⟨token, htoken, hdict⟩ := Option.map_eq_some_iff.mp henvelope
          exact ⟨s.ring.activeKeyId, _, salt, token, (Option.some_get s.ring.active).symm, htoken, hdict.symm⟩
        · cases henvelope
  | rotate keyId key generated =>
    rw [step]
    split
    · exact h
    · next ring hring =>
      intro p hp
      exact (h p hp).of_keys (hkeeps ring hring)

/-- In every run whose rotations keep the keys, every envelope made so far is readable and bound to its record. -/
theorem envelopes_bound {activeKeyId generated : String} {keys : String → Option String} {actions : List Action}
    (hkeeps : Guarded (step cipher) KeepsKeys ⟨.init activeKeyId keys generated, []⟩ actions) :
    ∀ p ∈ (run (step cipher) ⟨.init activeKeyId keys generated, []⟩ actions).produced,
      Bound platform cipher (run (step cipher) ⟨.init activeKeyId keys generated, []⟩ actions).ring p := by
  have hsealed := hkeeps.invariant (I := fun s => ∀ p ∈ s.produced, Sealed cipher s.ring p)
    (fun s action h hok => step_sealed h hok) fun p hp => nomatch hp
  exact fun p hp => (hsealed p hp).bound

def cipherOf (document : Json) : Cipher where
  encrypt key _ d := if d = document then some ("token under " ++ key) else none
  decrypt key token := if token = "token under " ++ key then some document else none
  decrypt_encrypt key salt d token h := by
    split at h
    · next hd => rw [if_pos (Option.some.inj h).symm, hd]
    · cases h

/-- `str` and `dict` of strings and dictionaries. -/
def stringPlatform : Platform where
  strOf value :=
    match value with
    | .str s => s
    | _ => ""
  strOf_str s := Eq.refl s
  dictOf value :=
    match value with
    | .dict items => some items
    | _ => none
  dictOf_dict _ := rfl

def note : Payload where
  items := [(.str "text", .str "hello")]
  wellFormed := ⟨List.nodup_singleton _, trivial, trivial⟩

def firstSession : Identity where
  items := [("session_id", "s1")]
  distinct := List.nodup_singleton _

def noteCipher : Cipher := cipherOf (document note "event" firstSession)

/-- A note is encrypted with the key named `k1`. -/
def noteStart : Session := ⟨.init "k1" (fun name => if name = "k1" then some "first" else none) "generated", []⟩

def encryptNote : Action := .encrypt note "event" firstSession 0

theorem envelopes_bound_newName :
    (run (step noteCipher) noteStart [encryptNote, .rotate "k2" (some "second") "generated"]).produced ≠ [] ∧
    ∀ p ∈ (run (step noteCipher) noteStart [encryptNote, .rotate "k2" (some "second") "generated"]).produced,
      Bound stringPlatform noteCipher
        (run (step noteCipher) noteStart [encryptNote, .rotate "k2" (some "second") "generated"]).ring p := by
  refine ⟨List.cons_ne_nil _ _, envelopes_bound (.cons trivial (.cons ?_ (.nil _)))⟩
  intro ring hring name old hold
  have hkeys : ring.keys = Function.update (step noteCipher noteStart encryptNote).ring.keys "k2" (some "second") :=
    congrArg FernetSessionKeyRing.keys (Option.some.inj hring).symm
  have hunused : (step noteCipher noteStart encryptNote).ring.keys "k2" = none := rfl
  have hname : name ≠ "k2" := by
    rintro rfl
    have hsome := hunused.symm.trans hold
    cases hsome
  rw [hkeys, Function.update_of_ne hname]
  exact hold

/-- A rotation that gives `k1` another key loses the note. -/
theorem rotate_sameName_loses :
    ∃ p ∈ (run (step noteCipher) noteStart [encryptNote, .rotate "k1" (some "second") "generated"]).produced,
      decryptSessionPayload stringPlatform noteCipher
        (run (step noteCipher) noteStart [encryptNote, .rotate "k1" (some "second") "generated"]).ring p.envelope p.identity =
          .error (.keyUnavailable "session ciphertext could not be decrypted") := by
  refine ⟨_, List.mem_cons_self, ?_⟩
  rfl

end OpenMinion.SessionKeyRings
