import NewsService.Proofs.Document.Items
import NewsService.Proofs.Document.Resolve

/-!
# Resolving around a value

What becomes of a document when the value under one of its keys is another one. Under a key that is
not reserved a value is resolved by itself: the document is resolved to one with the resolved value
in the same place, or the value has no part in it. Main statement: documents are resolved alike when
they differ in values that are.
-/

namespace NewsService

/-- Whether two values are resolved to the same, failures included, or else to two values that are
the same in some respect. -/
def Value.ResolveAlike (Same : Value → Value → Prop) (v w : Value) : Prop :=
  v.resolve = w.resolve ∨ ∃ v' w', v.resolve = .ok v' ∧ w.resolve = .ok w' ∧ Same v' w'

/-- Whether two documents are resolved to the same, failures included, or else to two documents that
are the same in some respect. -/
def Document.ResolveAlike (Same : Document → Document → Prop) (d d' : Document) : Prop :=
  Value.resolveFields d = Value.resolveFields d' ∨
    ∃ r r', Value.resolveFields d = .ok (.document r) ∧
      Value.resolveFields d' = .ok (.document r') ∧ Same r r'

theorem Value.ResolveAlike.mono {Same Same' : Value → Value → Prop} {v w : Value}
    (h : ResolveAlike Same v w) (himp : ∀ v' w', Same v' w' → Same' v' w') :
    ResolveAlike Same' v w := by
  rcases h with hsame | ⟨v', w', hv, hw, hsame⟩
  · exact Or.inl hsame
  · exact Or.inr ⟨v', w', hv, hw, himp v' w' hsame⟩

theorem Document.ResolveAlike.mono {Same Same' : Document → Document → Prop} {d d' : Document}
    (h : ResolveAlike Same d d') (himp : ∀ r r', Same r r' → Same' r r') :
    ResolveAlike Same' d d' := by
  rcases h with hsame | ⟨r, r', hr, hr', hsame⟩
  · exact Or.inl hsame
  · exact Or.inr ⟨r, r', hr, hr', himp r r' hsame⟩

theorem Document.ResolveAlike.value {Same : Document → Document → Prop}
    {Same' : Value → Value → Prop} {d d' : Document} (h : ResolveAlike Same d d')
    (himp : ∀ r r', Same r r' → Same' (.document r) (.document r')) :
    Value.ResolveAlike Same' (.document d) (.document d') := by
  rcases h with hsame | ⟨r, r', hr, hr', hsame⟩
  · exact Or.inl hsame
  · exact Or.inr ⟨.document r, .document r', hr, hr', himp r r' hsame⟩

namespace Value

variable {d : Document} {key : String} {v w : Value}

theorem resolveFields_cons (hkey : ReservedKey.ofName? key = none) (v : Value) (rest : Document) :
    resolveFields ((key, v) :: rest) = do
      let w ← v.resolve
      match ← resolveFields rest with
      | .document fields => return .document ((key, w) :: fields)
      | spelled => return spelled := by
  have hdef := resolveFields.eq_def ((key, v) :: rest)
  simp only [hkey] at hdef
  exact hdef

/-- After a reserved key only the next field counts. -/
theorem resolveFields_reserved_cons {reserved : ReservedKey} {name : String}
    (h : ReservedKey.ofName? name = some reserved) (u : Value) (next : String × Value)
    (rest : Document) :
    resolveFields ((name, u) :: next :: rest) = resolveFields [(name, u), next] := by
  obtain ⟨key, v⟩ := next
  rw [resolveFields.eq_def, resolveFields.eq_def]
  simp only [h]
  cases reserved with
  | code =>
    cases u.text? with
    | none => rfl
    | some source =>
      by_cases hscope : key = "$scope"
      · subst hscope
        rfl
      · simp [hscope]
  | scope =>
    by_cases hcode : key = "$code"
    · subst hcode
      cases u.resolve with
      | error e => rfl
      | ok w => cases w <;> rfl
    · simp [hcode]
  | _ => rfl

/-- The next field counts only if its key is reserved, too. -/
theorem resolveFields_reserved_pair {reserved : ReservedKey} {name : String}
    (h : ReservedKey.ofName? name = some reserved) (u : Value)
    (hkey : ReservedKey.ofName? key = none) (v w : Value) :
    resolveFields [(name, u), (key, v)] = resolveFields [(name, u), (key, w)] := by
  have hscope : key ≠ "$scope" := by
    rintro rfl
    cases hkey
  have hcode : key ≠ "$code" := by
    rintro rfl
    cases hkey
  rw [resolveFields.eq_def, resolveFields.eq_def]
  simp only [h]
  cases reserved with
  | code => cases u.text? <;> simp [hscope]
  | scope => simp [hcode]
  | _ => rfl

theorem resolveFields_reserved {reserved : ReservedKey} {name : String}
    (h : ReservedKey.ofName? name = some reserved) (u : Value)
    (hkey : ReservedKey.ofName? key = none) (before after : Document) (v w : Value) :
    resolveFields ((name, u) :: (before ++ (key, v) :: after)) =
      resolveFields ((name, u) :: (before ++ (key, w) :: after)) := by
  cases before with
  | nil =>
    rw [List.nil_append, List.nil_append, resolveFields_reserved_cons h u (key, v),
      resolveFields_reserved_cons h u (key, w), resolveFields_reserved_pair h u hkey v w]
  | cons next before =>
    rw [List.cons_append, List.cons_append,
      resolveFields_reserved_cons h u next (before ++ (key, v) :: after),
      resolveFields_reserved_cons h u next (before ++ (key, w) :: after)]

/-- Documents are resolved alike when they differ in values that are: to the same, or with the
resolved values between the same fields. -/
theorem resolveAlike_of_value {Same : Value → Value → Prop}
    (hkey : ReservedKey.ofName? key = none) (h : ResolveAlike Same v w) (before after : Document) :
    Document.ResolveAlike
      (fun r r' => ∃ before' after' v' w', r = before' ++ (key, v') :: after' ∧
        r' = before' ++ (key, w') :: after' ∧ Same v' w')
      (before ++ (key, v) :: after) (before ++ (key, w) :: after) := by
  induction before with
  | nil =>
    rw [List.nil_append, List.nil_append, Document.ResolveAlike, resolveFields_cons hkey,
      resolveFields_cons hkey]
    rcases h with hsame | ⟨v', w', hv, hw, hsame⟩
    · exact Or.inl (by rw [hsame])
    · rw [hv, hw]
      -- if the rest spells something else than a document, the value is given up
      cases resolveFields after with
      | error e => exact Or.inl rfl
      | ok spelled =>
        cases spelled with
        | document fields =>
          exact Or.inr ⟨_, _, rfl, rfl, [], fields, v', w', rfl, rfl, hsame⟩
        | _ => exact Or.inl rfl
  | cons entry before ih =>
    obtain ⟨name, u⟩ := entry
    cases hname : ReservedKey.ofName? name with
    | some reserved =>
      -- the value stands behind a spelling and is not looked at
      exact Or.inl (resolveFields_reserved hname u hkey before after v w)
    | none =>
      rw [List.cons_append, List.cons_append, Document.ResolveAlike, resolveFields_cons hname,
        resolveFields_cons hname]
      rcases ih with hsame | ⟨_, _, hr, hr', before', after', v', w', rfl, rfl, hsame⟩
      · exact Or.inl (by rw [hsame])
      · rw [hr, hr']
        cases u.resolve with
        | error e => exact Or.inl rfl
        | ok u' =>
          exact Or.inr ⟨_, _, rfl, rfl, (name, u') :: before', after', v', w', rfl, rfl, hsame⟩

/-- Resolves the value of an entry. -/
def resolveEntry (entry : String × Value) : Except DecodeError (String × Value) :=
  (fun w => (entry.1, w)) <$> entry.2.resolve

/-- Without reserved keys a document is resolved entry by entry. -/
theorem resolveFields_of_unreserved (h : ∀ entry ∈ d, ReservedKey.ofName? entry.1 = none) :
    resolveFields d = .document <$> d.mapM resolveEntry := by
  induction d with
  | nil => rfl
  | cons entry rest ih =>
    obtain ⟨key, v⟩ := entry
    obtain ⟨hkey, hrest⟩ := List.forall_mem_cons.1 h
    rw [resolveFields_cons hkey, ih hrest, List.mapM_cons, resolveEntry]
    cases v.resolve with
    | error e => rfl
    | ok w =>
      cases rest.mapM resolveEntry with
      | error e => rfl
      | ok fields => rfl

theorem exists_key_of_mapM_resolveEntry {r : Document} (h : d.mapM resolveEntry = .ok r) :
    ∀ entry ∈ r, ∃ stored ∈ d, stored.1 = entry.1 := by
  intro entry hentry
  obtain ⟨i, hi, rfl⟩ := List.getElem_of_mem hentry
  have hitems := mapM_eq_ok.1 h
  obtain ⟨w, -, hw⟩ := DecodeError.map_eq_ok.1 (hitems.get (hitems.length_eq ▸ hi) hi)
  have hkey := congrArg Prod.fst hw
  exact ⟨_, List.getElem_mem (hitems.length_eq ▸ hi), hkey⟩

theorem resolveItems_eq_mapM (items : List Value) : resolveItems items = items.mapM resolve := by
  induction items with
  | nil => rfl
  | cons v rest ih => rw [resolveItems, List.mapM_cons, ih]

/-- Arrays are resolved alike when they differ in items that are. -/
theorem resolveAlike_of_item {Same : Value → Value → Prop} (h : ResolveAlike Same v w)
    (before after : List Value) :
    ResolveAlike
      (fun a a' => ∃ before' after' v' w', a = .array (before' ++ v' :: after') ∧
        a' = .array (before' ++ w' :: after') ∧ Same v' w')
      (.array (before ++ v :: after)) (.array (before ++ w :: after)) := by
  have hresolve : ∀ u : Value, (Value.array (before ++ u :: after)).resolve =
      .array <$> (before ++ u :: after).mapM resolve := by
    intro u
    rw [resolve, resolveItems_eq_mapM]
    rfl
  rw [ResolveAlike, hresolve, hresolve, mapM_around, mapM_around]
  rcases h with hsame | ⟨v', w', hv, hw, hsame⟩
  · exact Or.inl (by rw [hsame])
  · rw [hv, hw]
    cases before.mapM resolve with
    | error e => exact Or.inl rfl
    | ok before' =>
      cases after.mapM resolve with
      | error e => exact Or.inl rfl
      | ok after' => exact Or.inr ⟨_, _, rfl, rfl, before', after', v', w', rfl, rfl, hsame⟩

end Value

end NewsService
