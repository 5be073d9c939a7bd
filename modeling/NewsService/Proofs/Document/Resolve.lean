import Mathlib.Data.List.Forall2
import NewsService.Document.Extended

/-!
# Resolving values

Resolving goes on until nothing is left to resolve. Main statement: a value that was resolved spells
itself, and so do the values inside it.
-/

namespace NewsService

namespace DecodeError

variable {α β : Type} {x : Except DecodeError α}

theorem map_eq_ok {f : α → β} {b : β} : f <$> x = .ok b ↔ ∃ a, x = .ok a ∧ f a = b := by
  cases x with
  | error e =>
    constructor
    · intro h
      cases h
    · rintro ⟨_, h, -⟩
      cases h
  | ok a =>
    constructor
    · intro h
      exact ⟨a, rfl, Except.ok.inj h⟩
    · rintro ⟨_, h, rfl⟩
      rw [Except.ok.inj h]
      rfl

theorem map_eq_error {f : α → β} {e : DecodeError} : f <$> x = .error e ↔ x = .error e := by
  cases x with
  | error e' =>
    constructor
    · intro h
      exact congrArg _ (Except.error.inj h)
    · intro h
      exact congrArg _ (Except.error.inj h)
  | ok a =>
    constructor
    · intro h
      cases h
    · intro h
      cases h

theorem exists_of_bind_eq_ok {f : α → Except DecodeError β} {b : β} (h : x >>= f = .ok b) :
    ∃ a, x = .ok a ∧ f a = .ok b := by
  cases x with
  | error e => cases h
  | ok a => exact ⟨a, rfl, h⟩

end DecodeError

namespace Value

open DecodeError

/-- Whether a value has no other values inside. -/
def isAtom : Value → Bool
  | .array _ => false
  | .document _ => false
  | .scopedCode _ _ => false
  | _ => true

theorem resolve_of_isAtom {v : Value} (h : v.isAtom = true) : v.resolve = .ok v := by
  cases v with
  | array items => cases h
  | document fields => cases h
  | scopedCode source scope => cases h
  | _ => rfl

theorem eq_some_of_expect {α : Type} {read : Value → Option α} {v : Value} {a : α}
    (h : v.expect read = .ok a) : read v = some a := by
  rw [expect] at h
  cases hread : read v with
  | none =>
    rw [hread] at h
    cases h
  | some b =>
    rw [hread] at h
    rw [Except.ok.inj h]

theorem isAtom_of_spelledUuid? {v w : Value} (h : v.spelledUuid? = some w) : w.isAtom = true := by
  obtain ⟨text, -, h⟩ := Option.bind_eq_some_iff.1 h
  -- the digits are found in one of several places, and then all go the same way
  have hdigits : ∀ digits? : Option (List Char),
      (digits?.bind fun digits => (Hex.decode? digits).bind fun octets =>
        some (.binary 4 octets)) = some w → w.isAtom = true := by
    intro digits? hw
    obtain ⟨digits, -, hw⟩ := Option.bind_eq_some_iff.1 hw
    obtain ⟨octets, -, hw⟩ := Option.bind_eq_some_iff.1 hw
    obtain rfl := Option.some.inj hw
    rfl
  dsimp only at h
  split at h
  · exact hdigits _ h
  split at h
  · exact hdigits _ h
  split at h
  · exact hdigits _ h
  split at h
  · exact hdigits _ h
  · exact hdigits _ h

/-- What a reserved key spells has no other values inside. -/
theorem isAtom_of_spelled {key : ReservedKey} {v w : Value} (h : v.spelled key = .ok w) :
    w.isAtom = true := by
  cases key with
  | oid | symbol | numberInt | numberLong | numberDouble =>
    obtain ⟨_, -, rfl⟩ := map_eq_ok.1 h
    rfl
  | numberDecimal | decimalOctets =>
    obtain ⟨_, -, h⟩ := exists_of_bind_eq_ok h
    obtain ⟨_, -, rfl⟩ := map_eq_ok.1 h
    rfl
  | timestamp | regularExpression =>
    obtain ⟨_, -, h⟩ := exists_of_bind_eq_ok h
    obtain rfl := Except.ok.inj h
    rfl
  | binary =>
    obtain ⟨⟨base64, subtype⟩, -, h⟩ := exists_of_bind_eq_ok h
    dsimp only at h
    split at h
    · obtain rfl := Except.ok.inj h
      rfl
    · cases h
  | dbPointer =>
    obtain ⟨⟨collection, id⟩, -, h⟩ := exists_of_bind_eq_ok h
    cases id with
    | error e => cases h
    | ok id =>
      obtain rfl := Except.ok.inj h
      rfl
  | uuid =>
    exact isAtom_of_spelledUuid? (eq_some_of_expect h)
  | date =>
    obtain ⟨_, -, rfl⟩ := Option.map_eq_some_iff.1 (eq_some_of_expect h)
    rfl
  | minKey | maxKey =>
    rw [spelled] at h
    split at h
    · obtain rfl := Except.ok.inj h
      rfl
    · cases h
  | undefined =>
    rw [spelled.eq_def] at h
    dsimp only at h
    split at h
    · obtain rfl := Except.ok.inj h
      rfl
    · cases h
  | code | scope => cases h

theorem resolve_scopedCode {fields : Document}
    (h : (Value.document fields).resolve = .ok (.document fields)) (source : String) :
    (Value.scopedCode source fields).resolve = .ok (.scopedCode source fields) := by
  rw [resolve] at h
  rw [resolve, h]
  rfl

mutual

/-- A value that was resolved spells itself. -/
theorem resolve_of_resolve : ∀ v w : Value, v.resolve = .ok w → w.resolve = .ok w
  | .array items, w, h => by
    rw [resolve] at h
    obtain ⟨ws, hws, hw⟩ := exists_of_bind_eq_ok h
    obtain rfl := Except.ok.inj hw
    rw [resolve, resolveItems_of_resolveItems items ws hws]
    rfl
  | .document fields, w, h => resolve_of_resolveFields fields w h
  | .scopedCode source scope, w, h => by
    rw [resolve] at h
    obtain ⟨bindings, hbindings, hw⟩ := exists_of_bind_eq_ok h
    have hfixed := resolve_of_resolveFields scope bindings hbindings
    split at hw
    · obtain rfl := Except.ok.inj hw
      exact resolve_scopedCode hfixed source
    · cases hw
  | .null, w, h | .boolean _, w, h | .int32 _, w, h | .int64 _, w, h | .double _, w, h
  | .string _, w, h | .objectId _, w, h | .dateTime _, w, h | .binary _ _, w, h | .undefined, w, h
  | .minKey, w, h | .maxKey, w, h | .symbol _, w, h | .code _, w, h | .regex _ _, w, h
  | .timestamp _ _, w, h | .decimal128 _, w, h | .pointer _ _, w, h => by
    obtain rfl := Except.ok.inj h
    rfl

theorem resolveItems_of_resolveItems :
    ∀ items ws : List Value, resolveItems items = .ok ws → resolveItems ws = .ok ws
  | [], ws, h => by
    obtain rfl := Except.ok.inj h
    rfl
  | v :: rest, ws, h => by
    rw [resolveItems] at h
    obtain ⟨w, hw, h⟩ := exists_of_bind_eq_ok h
    obtain ⟨items, hitems, h⟩ := exists_of_bind_eq_ok h
    obtain rfl := Except.ok.inj h
    rw [resolveItems, resolve_of_resolve v w hw, resolveItems_of_resolveItems rest items hitems]
    rfl

theorem resolve_of_resolveFields :
    ∀ (fields : List (String × Value)) (w : Value), resolveFields fields = .ok w →
      w.resolve = .ok w
  | [], w, h => by
    obtain rfl := Except.ok.inj h
    rfl
  | (key, v) :: rest, w, h => by
    rw [resolveFields.eq_def] at h
    dsimp only at h
    split at h
    · next hkey =>
      split at h
      · obtain rfl := Except.ok.inj h
        rfl
      · next source scope _ _ =>
        obtain ⟨bindings, hbindings, h⟩ := exists_of_bind_eq_ok h
        have hfixed := resolve_of_resolve scope bindings hbindings
        split at h
        · obtain rfl := Except.ok.inj h
          exact resolve_scopedCode hfixed source
        · cases h
      · cases h
    · next hkey =>
      obtain ⟨bindings, hbindings, h⟩ := exists_of_bind_eq_ok h
      have hfixed := resolve_of_resolve v bindings hbindings
      split at h
      · obtain ⟨source, -, h⟩ := exists_of_bind_eq_ok h
        obtain rfl := Except.ok.inj h
        exact resolve_scopedCode hfixed source
      · cases h
      · cases h
    · next reserved _ _ hkey =>
      exact resolve_of_isAtom (isAtom_of_spelled h)
    · next hkey =>
      obtain ⟨w', hw', h⟩ := exists_of_bind_eq_ok h
      obtain ⟨r, hr, h⟩ := exists_of_bind_eq_ok h
      have hfixed := resolve_of_resolveFields rest r hr
      split at h
      · next fields =>
        obtain rfl := Except.ok.inj h
        rw [resolve] at hfixed
        rw [resolve, resolveFields.eq_def]
        simp only [hkey, resolve_of_resolve v w' hw', hfixed]
        rfl
      · obtain rfl := Except.ok.inj h
        exact hfixed

end

/-! ## Inside resolved values -/

theorem resolveItems_of_array {items : List Value}
    (h : (Value.array items).resolve = .ok (.array items)) : resolveItems items = .ok items := by
  rw [resolve] at h
  obtain ⟨ws, hws, h⟩ := exists_of_bind_eq_ok h
  obtain rfl := Value.array.inj (Except.ok.inj h)
  exact hws

/-- The items of an array are resolved one by one. -/
theorem resolveItems_eq_ok {items resolved : List Value} :
    resolveItems items = .ok resolved ↔
      List.Forall₂ (fun v w => v.resolve = .ok w) items resolved := by
  induction items generalizing resolved with
  | nil =>
    rw [List.forall₂_nil_left_iff, resolveItems]
    constructor
    · intro h
      exact (Except.ok.inj h).symm
    · rintro rfl
      rfl
  | cons v rest ih =>
    rw [List.forall₂_cons_left_iff, resolveItems]
    constructor
    · intro h
      obtain ⟨w, hw, h⟩ := exists_of_bind_eq_ok h
      obtain ⟨ws, hws, h⟩ := exists_of_bind_eq_ok h
      exact ⟨w, ws, hw, ih.1 hws, (Except.ok.inj h).symm⟩
    · rintro ⟨w, ws, hw, hws, rfl⟩
      rw [hw, ih.2 hws]
      rfl

theorem resolve_of_mem_items {items : List Value} (h : resolveItems items = .ok items) :
    ∀ v ∈ items, v.resolve = .ok v := by
  intro v hv
  exact List.forall₂_same.1 (resolveItems_eq_ok.1 h) v hv

/-- What an entry of a document has to do with the entry that it is resolved to: its key is not
reserved, and its value is resolved. -/
structure ResolvesTo (entry resolved : String × Value) : Prop where
  key : resolved.1 = entry.1
  unreserved : ReservedKey.ofName? entry.1 = none
  value : entry.2.resolve = .ok resolved.2

/-- A document is resolved to a document entry by entry, and only if none of its keys is
reserved. -/
theorem resolveFields_eq_document {fields resolved : Document} :
    resolveFields fields = .ok (.document resolved) ↔
      List.Forall₂ ResolvesTo fields resolved := by
  induction fields generalizing resolved with
  | nil =>
    rw [List.forall₂_nil_left_iff, resolveFields]
    constructor
    · intro h
      exact (Value.document.inj (Except.ok.inj h)).symm
    · rintro rfl
      rfl
  | cons entry rest ih =>
    obtain ⟨key, v⟩ := entry
    rw [List.forall₂_cons_left_iff, resolveFields.eq_def]
    dsimp only
    constructor
    · intro h
      split at h
      · split at h
        · cases h
        · obtain ⟨bindings, -, h⟩ := exists_of_bind_eq_ok h
          split at h <;> cases h
        · cases h
      · obtain ⟨bindings, -, h⟩ := exists_of_bind_eq_ok h
        split at h
        · obtain ⟨source, -, h⟩ := exists_of_bind_eq_ok h
          cases h
        · cases h
        · cases h
      · cases isAtom_of_spelled h
      · next hkey =>
        obtain ⟨w, hw, h⟩ := exists_of_bind_eq_ok h
        obtain ⟨r, hr, h⟩ := exists_of_bind_eq_ok h
        split at h
        · obtain rfl := Value.document.inj (Except.ok.inj h)
          exact ⟨(key, w), _, ⟨rfl, hkey, hw⟩, ih.1 hr, rfl⟩
        · next hnot =>
          exact absurd (Except.ok.inj h) (hnot _)
    · rintro ⟨⟨key', w⟩, ws, ⟨hkey', hkey, hw⟩, hws, rfl⟩
      dsimp only at hkey' hkey hw
      subst hkey'
      simp only [hkey, hw, ih.2 hws]
      rfl

/-- In a document that spells itself all values were resolved. -/
theorem resolve_of_mem_fields {fields : Document}
    (h : resolveFields fields = .ok (.document fields)) :
    ∀ entry ∈ fields, entry.2.resolve = .ok entry.2 := by
  intro entry hentry
  exact (List.forall₂_same.1 (resolveFields_eq_document.1 h) entry hentry).value

/-- What a key leads to in a resolved document is what it led to before, resolved. -/
theorem exists_lookup_of_resolvesTo {fields resolved : Document}
    (h : List.Forall₂ ResolvesTo fields resolved) {key : String} {v : Value}
    (hv : fields.lookup key = some v) :
    ∃ w, resolved.lookup key = some w ∧ v.resolve = .ok w := by
  induction h with
  | nil => cases hv
  | @cons entry entry' rest rest' hentry _ ih =>
    obtain ⟨entryKey, stored⟩ := entry
    obtain ⟨entryKey', stored'⟩ := entry'
    obtain rfl : entryKey' = entryKey := hentry.key
    by_cases hkey : key = entryKey'
    · subst hkey
      rw [List.lookup_cons_self] at hv
      obtain rfl := Option.some.inj hv
      exact ⟨stored', List.lookup_cons_self, hentry.value⟩
    · rw [List.lookup_cons, beq_false_of_ne hkey] at hv
      obtain ⟨w, hw, hresolve⟩ := ih hv
      refine ⟨w, ?_, hresolve⟩
      rw [List.lookup_cons, beq_false_of_ne hkey]
      exact hw

/-- Without reserved keys a document spells nothing but a document. -/
theorem exists_document_of_resolve {fields : Document} {w : Value}
    (hkeys : ∀ entry ∈ fields, ReservedKey.ofName? entry.1 = none)
    (h : resolveFields fields = .ok w) : ∃ resolved, w = .document resolved := by
  induction fields generalizing w with
  | nil => exact ⟨[], (Except.ok.inj h).symm⟩
  | cons entry rest ih =>
    obtain ⟨key, v⟩ := entry
    obtain ⟨hkey, hrest⟩ := List.forall_mem_cons.1 hkeys
    rw [resolveFields.eq_def] at h
    simp only [hkey] at h
    obtain ⟨v', -, h⟩ := exists_of_bind_eq_ok h
    obtain ⟨w', hw', h⟩ := exists_of_bind_eq_ok h
    obtain ⟨resolved, rfl⟩ := ih hrest hw'
    exact ⟨_, (Except.ok.inj h).symm⟩

end Value

end NewsService
