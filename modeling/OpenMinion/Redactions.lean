import OpenMinion.KeyedTables
import OpenMinion.TextRedactions

/-!
# Redaction of payloads

`redact_mapping` looks at the key that is nearest to a text: under a sensitive one the text is replaced,
under another one it is redacted as free text.
-/
namespace OpenMinion.Redactions
open KeyedTables TextRedactions PythonText

variable {Other Scalar : Type}

/-- A key of a mapping: a text, or a value that `str` gives a text of. -/
abbrev Key (Other : Type) := String ⊕ Other

/-- The payloads; `scalar` holds the values that are neither texts nor mappings nor sequences. -/
inductive Payload (Other Scalar : Type) where
  | text (s : String)
  | scalar (v : Scalar)
  | list (items : List (Payload Other Scalar))
  | tuple (items : List (Payload Other Scalar))
  | mapping (items : List (Key Other × Payload Other Scalar))

structure Platform (Other : Type) where
  words : WordCharacters
  str : Other → String

variable (p : Platform Other)

/-- `str(key)` -/
def keyText : Key Other → String
  | .inl s => s
  | .inr k => p.str k

/-- `_SENSITIVE_KEY_RE` -/
def isSensitive (key : String) : Bool :=
  ["apikey", "api_key", "api-key", "token", "secret", "password", "authorization"].any fun part =>
    decide (part.toList <:+: key.toList.map foldCase)

def textItems (items : List (String × Payload Other Scalar)) : List (Key Other × Payload Other Scalar) :=
  items.map fun item => (.inl item.1, item.2)

mutual

/-- `_redact_value` -/
def redactValue (keyHint : String) : Payload Other Scalar → Payload Other Scalar × ℕ
  | .text s =>
    if isSensitive keyHint then if s ≠ "" then (.text (String.ofList mark), 1) else (.text s, 0)
    else (.text (redactSensitiveText p.words s).1, (redactSensitiveText p.words s).2)
  | .mapping items =>
    let redacted := redactEntries items [] 0
    (.mapping (textItems redacted.1), redacted.2)
  | .list items =>
    let redacted := redactItems keyHint items
    (.list redacted.1, redacted.2)
  | .tuple items =>
    let redacted := redactItems keyHint items
    (.list redacted.1, redacted.2)
  | .scalar v => (.scalar v, 0)

def redactItems (keyHint : String) : List (Payload Other Scalar) → List (Payload Other Scalar) × ℕ
  | [] => ([], 0)
  | item :: items =>
    let safe := redactValue keyHint item
    let rest := redactItems keyHint items
    (safe.1 :: rest.1, safe.2 + rest.2)

/-- The loop of `redact_mapping`, with what is redacted so far. -/
def redactEntries : List (Key Other × Payload Other Scalar) → List (String × Payload Other Scalar) → ℕ →
    List (String × Payload Other Scalar) × ℕ
  | [], redacted, total => (redacted, total)
  | (key, value) :: items, redacted, total =>
    let safe := redactValue (keyText p key) value
    redactEntries items (upsertRow Prod.fst (keyText p key, safe.1) redacted) (total + safe.2)

end

def redactMapping (payload : List (Key Other × Payload Other Scalar)) : List (String × Payload Other Scalar) × ℕ :=
  redactEntries p payload [] 0

variable (empty : Scalar → Prop)

mutual

/-- The payloads have one shape and the same keys, and where leaves of them differ a sensitive key is above and
neither leaf is empty. -/
def Differ : Bool → Payload Other Scalar → Payload Other Scalar → Prop
  | below, .text s, .text t => s = t ∨ (below = true ∧ s ≠ "" ∧ t ≠ "")
  | below, .text s, .scalar v => below = true ∧ s ≠ "" ∧ ¬empty v
  | below, .scalar v, .text s => below = true ∧ ¬empty v ∧ s ≠ ""
  | below, .scalar v, .scalar v' => v = v' ∨ (below = true ∧ ¬empty v ∧ ¬empty v')
  | below, .list items, .list items' => DifferItems below items items'
  | below, .tuple items, .tuple items' => DifferItems below items items'
  | below, .mapping items, .mapping items' => DifferEntries below items items'
  | _, _, _ => False

def DifferItems : Bool → List (Payload Other Scalar) → List (Payload Other Scalar) → Prop
  | _, [], [] => True
  | below, item :: items, item' :: items' => Differ below item item' ∧ DifferItems below items items'
  | _, _, _ => False

def DifferEntries : Bool → List (Key Other × Payload Other Scalar) → List (Key Other × Payload Other Scalar) → Prop
  | _, [], [] => True
  | below, (key, value) :: items, (key', value') :: items' =>
    key = key' ∧ Differ (below || isSensitive (keyText p key)) value value' ∧ DifferEntries below items items'
  | _, _, _ => False

end

mutual

/-- Two leaves look the same when they are redacted: texts below a sensitive key, or leaves with the same redaction as
free texts. An entry counts unless a later one has its key. -/
def Masked (keyHint : String) : Payload Other Scalar → Payload Other Scalar → Prop
  | .text s, .text t =>
    isSensitive keyHint = true ∨ (redactSensitiveText p.words s).1 = (redactSensitiveText p.words t).1
  | .scalar v, .scalar v' => v = v'
  | .list items, .list items' => MaskedItems keyHint items items'
  | .tuple items, .tuple items' => MaskedItems keyHint items items'
  | .mapping items, .mapping items' => MaskedEntries items items'
  | _, _ => False

def MaskedItems (keyHint : String) : List (Payload Other Scalar) → List (Payload Other Scalar) → Prop
  | item :: items, item' :: items' => Masked keyHint item item' ∧ MaskedItems keyHint items items'
  | _, _ => True

def MaskedEntries : List (Key Other × Payload Other Scalar) → List (Key Other × Payload Other Scalar) → Prop
  | (key, value) :: items, (_, value') :: items' =>
    ((∃ item ∈ items, keyText p item.1 = keyText p key) ∨ Masked (keyText p key) value value') ∧ MaskedEntries items items'
  | _, _ => True

end

section Written

variable {Value : Type}

def written (items before : List (String × Value)) : List (String × Value) :=
  items.foldl (fun d item => upsertRow Prod.fst item d) before

theorem written_cons (item : String × Value) (items before : List (String × Value)) :
    written (item :: items) before = written items (upsertRow Prod.fst item before) := rfl

theorem lookup_append (k : String) (l l' : List (String × Value)) :
    lookup Prod.fst k (l ++ l') = (lookup Prod.fst k l).or (lookup Prod.fst k l') := List.find?_append

theorem lookup_singleton (k : String) (item : String × Value) :
    lookup Prod.fst k [item] = if item.1 = k then some item else none := by
  by_cases hk : item.1 = k <;> simp [lookup, hk]

theorem uniqueKey_written (items : List (String × Value)) {before : List (String × Value)} (h : UniqueKey Prod.fst before) :
    UniqueKey Prod.fst (written items before) := by
  induction items generalizing before with
  | nil => exact h
  | cons item items ih => exact ih (h.upsertRow item)

theorem mem_written {items before : List (String × Value)} {item : String × Value} (h : item ∈ written items before) :
    item ∈ items ∨ item ∈ before := by
  induction items generalizing before with
  | nil => exact .inr h
  | cons first items ih =>
    obtain hmem | hmem := ih h
    · exact .inl (List.mem_cons_of_mem _ hmem)
    · obtain rfl | hmem := mem_upsertRow hmem
      · exact .inl List.mem_cons_self
      · exact .inr hmem

theorem written_of_unique {items before : List (String × Value)} (h : UniqueKey Prod.fst (before ++ items)) :
    written items before = before ++ items := by
  induction items generalizing before with
  | nil => exact (List.append_nil before).symm
  | cons item items ih =>
    have habsent : lookup Prod.fst item.1 before = none := by
      rw [lookup_eq_none]
      intro r hr hkey
      rw [UniqueKey, List.map_append] at h
      exact List.disjoint_of_nodup_append h (List.mem_map_of_mem hr) (hkey ▸ List.mem_map_of_mem List.mem_cons_self)
    rw [List.append_cons] at h ⊢
    rw [written_cons, upsertRow_of_absent habsent]
    exact ih h

theorem lookup_written (k : String) (items before : List (String × Value)) :
    lookup Prod.fst k (written items before) = (lookup Prod.fst k items.reverse).or (lookup Prod.fst k before) := by
  induction items generalizing before with
  | nil => rfl
  | cons item items ih =>
    rw [written_cons, ih, List.reverse_cons, lookup_append, Option.or_assoc, lookup_singleton]
    by_cases hk : k = item.1
    · rw [hk, lookup_upsertRow_self, if_pos rfl]
      rfl
    · rw [lookup_upsertRow_of_ne hk, if_neg (Ne.symm hk)]
      rfl

theorem map_fst_written {items items' before before' : List (String × Value)} (h : items.map Prod.fst = items'.map Prod.fst)
    (hbefore : before.map Prod.fst = before'.map Prod.fst) :
    (written items before).map Prod.fst = (written items' before').map Prod.fst := by
  have hupsert : ∀ (item : String × Value) (d : List (String × Value)), (upsertRow Prod.fst item d).map Prod.fst =
      if item.1 ∈ d.map Prod.fst then d.map Prod.fst else d.map Prod.fst ++ [item.1] := by
    intro item d
    rw [upsertRow]
    by_cases hmem : item.1 ∈ d.map Prod.fst
    · have hany : (d.any fun r => r.1 = item.1) = true := by
        obtain ⟨r, hr, hkey⟩ := List.mem_map.mp hmem
        exact List.any_eq_true.mpr ⟨r, hr, decide_eq_true hkey⟩
      rw [if_pos hany, if_pos hmem]
      exact map_key_updateWhere fun r hr => (of_decide_eq_true hr).symm
    · have hany : ¬(d.any fun r => r.1 = item.1) = true := by
        intro hany
        obtain ⟨r, hr, hkey⟩ := List.any_eq_true.mp hany
        exact hmem (List.mem_map.mpr ⟨r, hr, of_decide_eq_true hkey⟩)
      rw [if_neg hany, if_neg hmem, List.map_append, List.map_singleton]
  induction items generalizing items' before before' with
  | nil =>
    rw [List.map_nil, eq_comm, List.map_eq_nil_iff] at h
    subst h
    exact hbefore
  | cons item items ih =>
    cases items' with
    | nil => cases h
    | cons item' items' =>
      obtain ⟨hkey, hrest⟩ := List.cons.inj h
      rw [written_cons, written_cons]
      refine ih hrest ?_
      rw [hupsert, hupsert, hbefore, hkey]

def SameLast : List (String × Value) → List (String × Value) → Prop
  | (key, value) :: items, (_, value') :: items' =>
    ((∃ item ∈ items, item.1 = key) ∨ value = value') ∧ SameLast items items'
  | _, _ => True

theorem lookup_reverse_iff {items items' : List (String × Value)} (h : items.map Prod.fst = items'.map Prod.fst) :
    (∀ k, lookup Prod.fst k items.reverse = lookup Prod.fst k items'.reverse) ↔ SameLast items items' := by
  induction items generalizing items' with
  | nil =>
    rw [List.map_nil, eq_comm, List.map_eq_nil_iff] at h
    subst h
    simp [SameLast]
  | cons item items ih =>
    cases items' with
    | nil => cases h
    | cons item' items' =>
      obtain ⟨key, value⟩ := item
      obtain ⟨key', value'⟩ := item'
      obtain ⟨rfl, hrest⟩ := List.cons.inj h
      have hnone : ∀ k, lookup Prod.fst k items.reverse = none ↔ lookup Prod.fst k items'.reverse = none := by
        intro k
        rw [lookup_eq_none, lookup_eq_none]
        simp only [List.mem_reverse]
        rw [← List.forall_mem_map (f := Prod.fst) (P := (· ≠ k)), ← List.forall_mem_map (f := Prod.fst) (P := (· ≠ k)), hrest]
      simp only [List.reverse_cons, lookup_append, lookup_singleton, SameLast]
      rw [← ih hrest]
      constructor
      · intro hall
        constructor
        · by_cases hlater : ∃ item ∈ items, item.1 = key
          · exact .inl hlater
          · have hitems : lookup Prod.fst key items.reverse = none := by
              rw [lookup_eq_none]
              intro r hr hkey
              exact hlater ⟨r, List.mem_reverse.mp hr, hkey⟩
            have hkey := hall key
            rw [hitems, (hnone key).mp hitems] at hkey
            refine .inr ?_
            simpa using hkey
        · intro k
          have hk := hall k
          cases hitems : lookup Prod.fst k items.reverse with
          | none => rw [(hnone k).mp hitems]
          | some r =>
            cases hitems' : lookup Prod.fst k items'.reverse with
            | none => rw [(hnone k).mpr hitems'] at hitems; cases hitems
            | some r' =>
              rw [hitems, hitems'] at hk
              exact hk
      · rintro ⟨hsame, hall⟩ k
        rw [hall k]
        obtain ⟨r, hr, hkey⟩ | rfl := hsame
        · by_cases hk : key = k
          · have hsome : lookup Prod.fst k items'.reverse ≠ none := by
              rw [Ne, ← hnone, lookup_eq_none]
              intro hnot
              exact hnot r (List.mem_reverse.mpr hr) (hkey.trans hk)
            obtain ⟨r', hr'⟩ := Option.ne_none_iff_exists'.mp hsome
            rw [hr']
            rfl
          · simp [hk]
        · rfl

/-- Dictionaries with unique keys in one order are the same when they have the same values. -/
theorem eq_of_lookup {d d' : List (String × Value)} (hkeys : d.map Prod.fst = d'.map Prod.fst) (h : UniqueKey Prod.fst d)
    (hlookup : ∀ k, lookup Prod.fst k d = lookup Prod.fst k d') : d = d' := by
  have h' : UniqueKey Prod.fst d' := by rwa [UniqueKey, ← hkeys]
  refine List.ext_getElem ?_ ?_
  · have hlength := congrArg List.length hkeys
    rwa [List.length_map, List.length_map] at hlength
  · intro i hi hi'
    have hkey : d[i].1 = d'[i].1 := by
      have hget := List.getElem_of_eq hkeys (by simpa using hi)
      simpa using hget
    have hfound := h.lookup_eq_some_iff.mpr ⟨List.getElem_mem hi, rfl⟩
    rw [hlookup, hkey, h'.lookup_eq_some_iff.mpr ⟨List.getElem_mem hi', rfl⟩] at hfound
    exact (Option.some.inj hfound).symm

/-- **What is left is the same when the items are that no later one overwrites.** -/
theorem written_eq_iff {items items' : List (String × Value)} (h : items.map Prod.fst = items'.map Prod.fst) :
    written items [] = written items' [] ↔ SameLast items items' := by
  have hunique : ∀ l : List (String × Value), UniqueKey Prod.fst (written l []) := fun l => uniqueKey_written l .nil
  rw [← lookup_reverse_iff h]
  constructor
  · intro heq k
    have hk := congrArg (lookup Prod.fst k) heq
    rw [lookup_written, lookup_written] at hk
    simpa [lookup] using hk
  · intro hall
    refine eq_of_lookup (map_fst_written h rfl) (hunique items) ?_
    intro k
    rw [lookup_written, lookup_written, hall k]

end Written

variable {p} {empty}

def safeItems (p : Platform Other) (items : List (Key Other × Payload Other Scalar)) : List (String × Payload Other Scalar) :=
  items.map fun item => (keyText p item.1, (redactValue p (keyText p item.1) item.2).1)

theorem redactEntries_fst (items : List (Key Other × Payload Other Scalar)) (redacted : List (String × Payload Other Scalar))
    (total : ℕ) : (redactEntries p items redacted total).1 = written (safeItems p items) redacted := by
  induction items generalizing redacted total with
  | nil => simp [redactEntries, safeItems, written]
  | cons item items ih =>
    rw [redactEntries]
    exact ih _ _

theorem redactMapping_fst (items : List (Key Other × Payload Other Scalar)) :
    (redactMapping p items).1 = written (safeItems p items) [] := redactEntries_fst items [] 0

/-- A dictionary whose values are redacted already. -/
theorem redactMapping_safe {items : List (Key Other × Payload Other Scalar)}
    (h : ∀ item ∈ items, (redactValue p (keyText p item.1) (redactValue p (keyText p item.1) item.2).1).1 =
      (redactValue p (keyText p item.1) item.2).1) :
    (redactMapping p (textItems (redactMapping p items).1)).1 = (redactMapping p items).1 := by
  have hsafe : safeItems p (textItems (redactMapping p items).1) = (redactMapping p items).1 := by
    rw [safeItems, textItems, List.map_map]
    refine (List.map_congr_left ?_).trans (List.map_id _)
    intro item hitem
    rw [redactMapping_fst] at hitem
    obtain hitem | hitem := mem_written hitem
    · obtain ⟨source, hsource, rfl⟩ := List.mem_map.mp hitem
      exact Prod.ext rfl (h source hsource)
    · exact absurd hitem List.not_mem_nil
  have hunique : UniqueKey Prod.fst (redactMapping p items).1 := by
    rw [redactMapping_fst]
    exact uniqueKey_written _ .nil
  nth_rewrite 1 [redactMapping_fst]
  rw [hsafe]
  exact written_of_unique hunique

theorem mark_ne_nil : mark ≠ [] := List.cons_ne_nil _ _

theorem textItems_inj {items items' : List (String × Payload Other Scalar)} : textItems items = textItems items' ↔ items = items' := by
  have hinj : Function.Injective fun item : String × Payload Other Scalar => ((.inl item.1, item.2) : Key Other × Payload Other Scalar) := by
    rintro ⟨key, value⟩ ⟨key', value'⟩ h
    cases h
    rfl
  exact (List.map_injective_iff.mpr hinj).eq_iff

mutual

/-- **Redaction does not change what is redacted.** -/
theorem redactValue_redactValue (keyHint : String) : ∀ value : Payload Other Scalar,
    (redactValue p keyHint (redactValue p keyHint value).1).1 = (redactValue p keyHint value).1
  | .text s => by
    by_cases hkey : isSensitive keyHint = true
    · by_cases hs : s = ""
      · simp [redactValue, hkey, hs]
      · simp [redactValue, hkey, hs, mark_ne_nil]
    · simp [redactValue, hkey, redactSensitiveText_redactSensitiveText]
  | .scalar v => by simp [redactValue]
  | .list items => by
    simp only [redactValue]
    rw [redactItems_redactItems keyHint items]
  | .tuple items => by
    simp only [redactValue]
    rw [redactItems_redactItems keyHint items]
  | .mapping items => by
    have h := redactMapping_safe (redactValue_items items)
    simp only [redactValue]
    exact congrArg (fun safe => Payload.mapping (textItems safe)) h

theorem redactItems_redactItems (keyHint : String) : ∀ items : List (Payload Other Scalar),
    (redactItems p keyHint (redactItems p keyHint items).1).1 = (redactItems p keyHint items).1
  | [] => rfl
  | item :: items => by
    simp only [redactItems]
    rw [redactValue_redactValue keyHint item, redactItems_redactItems keyHint items]

theorem redactValue_items : ∀ items : List (Key Other × Payload Other Scalar), ∀ item ∈ items,
    (redactValue p (keyText p item.1) (redactValue p (keyText p item.1) item.2).1).1 = (redactValue p (keyText p item.1) item.2).1
  | [], item, h => absurd h List.not_mem_nil
  | (key, value) :: items, item, h => by
    obtain rfl | h := List.mem_cons.mp h
    · exact redactValue_redactValue (keyText p key) value
    · exact redactValue_items items item h

end

theorem map_fst_safeItems : ∀ {below : Bool} {items items' : List (Key Other × Payload Other Scalar)},
    DifferEntries p empty below items items' → (safeItems p items).map Prod.fst = (safeItems p items').map Prod.fst
  | _, [], [], _ => rfl
  | _, [], _ :: _, h => h.elim
  | _, _ :: _, [], h => h.elim
  | _, (key, value) :: items, (key', value') :: items', h => by
    obtain ⟨rfl, -, hrest⟩ := h
    simp only [safeItems, List.map_cons]
    exact congrArg _ (map_fst_safeItems hrest)

mutual

theorem redactValue_eq_iff {keyHint : String} {below : Bool} (hkey : isSensitive keyHint = true → below = true) :
    ∀ value value' : Payload Other Scalar, Differ p empty below value value' →
      ((redactValue p keyHint value).1 = (redactValue p keyHint value').1 ↔ Masked p keyHint value value')
  | .text s, .text t, h => by
    by_cases hsensitive : isSensitive keyHint = true
    · simp only [redactValue, Masked, hsensitive, ↓reduceIte, true_or, iff_true]
      obtain rfl | ⟨-, hs, ht⟩ := h
      · rfl
      · rw [if_pos hs, if_pos ht]
    · simp [redactValue, Masked, hsensitive]
  | .text s, .scalar v, _ => by
    simp only [redactValue, Masked, iff_false]
    split
    · split <;> simp
    · simp
  | .scalar v, .text s, _ => by
    simp only [redactValue, Masked, iff_false]
    split
    · split <;> simp
    · simp
  | .scalar v, .scalar v', _ => by simp [redactValue, Masked]
  | .list items, .list items', h => by
    simpa [redactValue, Masked] using redactItems_eq_iff hkey items items' h
  | .tuple items, .tuple items', h => by
    simpa [redactValue, Masked] using redactItems_eq_iff hkey items items' h
  | .mapping items, .mapping items', h => by
    simp only [redactValue, Masked, Payload.mapping.injEq, textItems_inj, redactEntries_fst]
    rw [written_eq_iff (map_fst_safeItems h)]
    exact sameLast_iff items items' h
  | .text _, .list _, h | .text _, .tuple _, h | .text _, .mapping _, h | .scalar _, .list _, h | .scalar _, .tuple _, h
  | .scalar _, .mapping _, h | .list _, .text _, h | .list _, .scalar _, h | .list _, .tuple _, h | .list _, .mapping _, h
  | .tuple _, .text _, h | .tuple _, .scalar _, h | .tuple _, .list _, h | .tuple _, .mapping _, h | .mapping _, .text _, h
  | .mapping _, .scalar _, h | .mapping _, .list _, h | .mapping _, .tuple _, h => h.elim

theorem redactItems_eq_iff {keyHint : String} {below : Bool} (hkey : isSensitive keyHint = true → below = true) :
    ∀ items items' : List (Payload Other Scalar), DifferItems p empty below items items' →
      ((redactItems p keyHint items).1 = (redactItems p keyHint items').1 ↔ MaskedItems p keyHint items items')
  | [], [], _ => by simp [redactItems, MaskedItems]
  | [], _ :: _, h => h.elim
  | _ :: _, [], h => h.elim
  | item :: items, item' :: items', h => by
    have hitem := redactValue_eq_iff hkey item item' h.1
    have hrest := redactItems_eq_iff hkey items items' h.2
    simp only [redactItems, MaskedItems, List.cons.injEq]
    exact and_congr hitem hrest

theorem sameLast_iff {below : Bool} : ∀ items items' : List (Key Other × Payload Other Scalar),
    DifferEntries p empty below items items' → (SameLast (safeItems p items) (safeItems p items') ↔ MaskedEntries p items items')
  | [], [], _ => by simp [safeItems, SameLast, MaskedEntries]
  | [], _ :: _, h => h.elim
  | _ :: _, [], h => h.elim
  | (key, value) :: items, (key', value') :: items', h => by
    obtain ⟨rfl, hvalue, hrest⟩ := h
    have hiff : (redactValue p (keyText p key) value).1 = (redactValue p (keyText p key) value').1 ↔ _ :=
      redactValue_eq_iff (by simp +contextual) value value' hvalue
    have hrest' := sameLast_iff items items' hrest
    simp only [safeItems, List.map_cons, SameLast, MaskedEntries]
    rw [← safeItems, ← safeItems, hrest', hiff]
    have hlater : (∃ item ∈ safeItems p items, item.1 = keyText p key) ↔ ∃ item ∈ items, keyText p item.1 = keyText p key := by
      constructor
      · rintro ⟨item, hitem, hkey⟩
        obtain ⟨source, hsource, rfl⟩ := List.mem_map.mp hitem
        exact ⟨source, hsource, hkey⟩
      · rintro ⟨source, hsource, hkey⟩
        exact ⟨_, List.mem_map_of_mem hsource, hkey⟩
    rw [hlater]

end

theorem redactMapping_eq_iff {below : Bool} {payload payload' : List (Key Other × Payload Other Scalar)}
    (h : DifferEntries p empty below payload payload') :
    (redactMapping p payload).1 = (redactMapping p payload').1 ↔ MaskedEntries p payload payload' := by
  rw [redactMapping_fst, redactMapping_fst, written_eq_iff (map_fst_safeItems h)]
  exact sameLast_iff payload payload' h

/-- **Redaction hides what is below sensitive keys just when every difference there is masked, and it is idempotent.** -/
theorem redaction_hides_iff (p : Platform Other) (empty : Scalar → Prop) (payload payload' : List (Key Other × Payload Other Scalar))
    (h : DifferEntries p empty false payload payload') :
    ((redactMapping p payload).1 = (redactMapping p payload').1 ↔ MaskedEntries p payload payload') ∧
      (redactMapping p (textItems (redactMapping p payload).1)).1 = (redactMapping p payload).1 :=
  ⟨redactMapping_eq_iff h, redactMapping_safe (redactValue_items payload)⟩

def asciiWords : WordCharacters where
  isWord c := c.isAlphanum || c == '_' || decide (c ∈ ['\u017f', '\u212a', '\u0130', '\u0131'])
  ascii c hc := by
    have hextra : c ∉ ['\u017f', '\u212a', '\u0130', '\u0131'] := by
      intro hmem
      simp only [List.mem_cons, List.not_mem_nil, or_false] at hmem
      obtain rfl | rfl | rfl | rfl := hmem <;> exact absurd hc (by decide)
    simp [hextra]
  space c hc := by
    have hfar : ∀ d ∈ ['\u017f', '\u212a', '\u0130', '\u0131'], (!isSpace d) = true := List.all_eq_true.mp (by decide)
    have hextra : c ∉ ['\u017f', '\u212a', '\u0130', '\u0131'] := by
      intro hmem
      have hfalse := hfar c hmem
      rw [hc] at hfalse
      cases hfalse
    have hunderscore : c ≠ '_' := by
      rintro rfl
      exact absurd hc (by decide)
    have halnum : c.isAlphanum = false := by
      simp only [isSpace, Bool.or_eq_true, Bool.and_eq_true, decide_eq_true_eq, beq_iff_eq, Char.toNat] at hc
      simp only [Char.isAlphanum, Char.isAlpha, Char.isUpper, Char.isLower, Char.isDigit, UInt32.le_iff_toNat_le, ge_iff_le,
        Bool.or_eq_false_iff, Bool.and_eq_false_iff, decide_eq_false_iff_not]
      have hletters : 'A'.val.toNat = 65 ∧ 'Z'.val.toNat = 90 ∧ 'a'.val.toNat = 97 ∧ 'z'.val.toNat = 122 := by decide
      have hdigits : '0'.val.toNat = 48 ∧ '9'.val.toNat = 57 := by decide
      omega
    simp [hextra, hunderscore, halnum]
  folded c hc := by simp [hc]

def platform : Platform Empty := ⟨asciiWords, Empty.elim⟩

def loginOf (token : String) : List (Key Empty × Payload Empty ℕ) :=
  [(.inl "user", .text "ada"), (.inl "login", .mapping [(.inl "token", .text token), (.inl "host", .text "example")])]

/-- A text under a sensitive key of a nested mapping is hidden. -/
theorem redaction_hides_iff_login :
    ((redactMapping platform (loginOf "abc")).1 = (redactMapping platform (loginOf "xyz")).1 ↔
        MaskedEntries platform (loginOf "abc") (loginOf "xyz")) ∧
      (redactMapping platform (textItems (redactMapping platform (loginOf "abc")).1)).1 =
        (redactMapping platform (loginOf "abc")).1 :=
  redaction_hides_iff platform (fun _ => False) _ _
    ⟨rfl, .inl rfl, rfl, ⟨rfl, .inr ⟨by decide, by decide, by decide⟩, rfl, .inl rfl, trivial⟩, trivial⟩

/-- The value of a mapping under a sensitive key is shown. -/
theorem nested_secret_shows : ¬∀ payload payload' : List (Key Empty × Payload Empty ℕ),
    DifferEntries platform (fun _ => False) false payload payload' →
      (redactMapping platform payload).1 = (redactMapping platform payload').1 := by
  intro h
  have hsecret : (false || isSensitive (keyText platform (.inl "secret")) || isSensitive (keyText platform (.inl "value"))) = true := by
    decide +kernel
  have hdiffer : DifferEntries platform (fun _ => False) false
      [(.inl "secret", (.mapping [(.inl "value", .text "hunter2")] : Payload Empty ℕ))]
      [(.inl "secret", .mapping [(.inl "value", .text "swordfish")])] :=
    ⟨rfl, ⟨rfl, .inr ⟨hsecret, by decide, by decide⟩, trivial⟩, trivial⟩
  have hmasked := (redactMapping_eq_iff hdiffer).mp (h _ _ hdiffer)
  have hsensitive : isSensitive (keyText platform (.inl "value")) = false := by decide +kernel
  have htexts : (redactSensitiveText asciiWords "hunter2").1 ≠ (redactSensitiveText asciiWords "swordfish").1 := by
    decide +kernel
  obtain ⟨⟨item, hitem, -⟩ | ⟨⟨item, hitem, -⟩ | hvalue | hsame, -⟩, -⟩ := hmasked
  · exact absurd hitem List.not_mem_nil
  · exact absurd hitem List.not_mem_nil
  · rw [hsensitive] at hvalue
    cases hvalue
  · exact htexts hsame

end OpenMinion.Redactions
