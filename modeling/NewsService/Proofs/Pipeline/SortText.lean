import NewsService.Pipeline.Sort
import NewsService.Proofs.Text.CommaList

/-!
# Orders in requests

The keys of an order are the entries of a comma list. Each names a field, with a minus sign in front
for the descending direction, and of several keys for one field the last one counts. Main statement:
an order is read exactly from the texts whose keys are all known, and only the order of keys for one
field matters.
-/

namespace NewsService

/-- The fields by which results can be ordered. -/
inductive SortKey where
  | publishedDate | updatedAt
  deriving DecidableEq, Repr

namespace SortKey

/-- The name of a field in requests. -/
def name : SortKey → String
  | .publishedDate => "published_date"
  | .updatedAt => "updated_at"

/-- The key that asks for a field in a direction. -/
def entry (field : SortKey) : Direction → String
  | .ascending => field.name
  | .descending => "-" ++ field.name

/-- The direction of a field in an order, if it takes part. -/
def directionIn (field : SortKey) (s : SortOrder) : Option Direction :=
  match field with
  | .publishedDate => s.publishedDate
  | .updatedAt => s.updatedAt

/-- Whether a direction is that of the last key for a field; none if there is no such key. -/
def IsLast (field : SortKey) (keys : List String) : Option Direction → Prop
  | none => ∀ key ∈ keys, ∀ d, key ≠ field.entry d
  | some d => ∃ before after, keys = before ++ field.entry d :: after ∧
      ∀ key ∈ after, ∀ d', key ≠ field.entry d'

end SortKey

namespace SortOrder

/-- Whether a key is a known one. -/
def IsKey (key : String) : Prop :=
  ∃ field d, key = SortKey.entry field d

/-- Whether a name is what is left of a key when one minus sign in front, if there is any, is taken
off. -/
def LeavesName (key name : String) : Prop :=
  key = "-" ++ name ∨ key = name ∧ ∀ rest, name.toList ≠ '-' :: rest

/-- The keys of an order, each once. -/
def written (s : SortOrder) : List String :=
  [SortKey.publishedDate, .updatedAt].filterMap fun field => (field.directionIn s).map field.entry

/-- The body of the sort stage of an order. -/
def body (s : SortOrder) : Document :=
  (s.publishedDate.map fun d => ("publishedDate", .int32 d.number)).toList ++
    (s.updatedAt.map fun d => ("updatedAt", .int32 d.number)).toList

/-- Whether a list of keys becomes another when neighbours that are keys for different fields are
exchanged, again and again. The keys for one field keep their order. -/
inductive Exchanged : List String → List String → Prop
  | refl (keys : List String) : Exchanged keys keys
  | swap (before after : List String) {field other : SortKey} (h : field ≠ other)
      (d d' : Direction) :
      Exchanged (before ++ field.entry d :: other.entry d' :: after)
        (before ++ other.entry d' :: field.entry d :: after)
  | trans {a b c : List String} (first : Exchanged a b) (rest : Exchanged b c) : Exchanged a c

end SortOrder

/-! ## Keys for a field -/

namespace SortKey

variable {field other : SortKey} {keys : List String}

theorem entry_inj {d d' : Direction} : field.entry d = other.entry d' ↔ field = other ∧ d = d' := by
  cases field <;> cases other <;> cases d <;> cases d' <;> decide

/-- The direction for which a key asks, if it is one for the field. -/
def asked? (field : SortKey) (key : String) : Option Direction :=
  [Direction.ascending, .descending].find? fun d => key == field.entry d

theorem asked?_eq_some {key : String} {d : Direction} :
    field.asked? key = some d ↔ key = field.entry d := by
  constructor
  · intro h
    simpa using List.find?_some h
  · rintro rfl
    cases d <;> simp [asked?, entry_inj]

theorem asked?_eq_none {key : String} : field.asked? key = none ↔ ∀ d, key ≠ field.entry d := by
  rw [Option.eq_none_iff_forall_ne_some]
  simp only [ne_eq, asked?_eq_some]

@[simp]
theorem asked?_entry (field other : SortKey) (d : Direction) :
    field.asked? (other.entry d) = if field = other then some d else none := by
  split
  · next h => exact asked?_eq_some.2 (h ▸ rfl)
  · next h => exact asked?_eq_none.2 fun d' heq => h (entry_inj.1 heq).1.symm

theorem isLast_iff {d? : Option Direction} :
    field.IsLast keys d? ↔ (keys.filterMap field.asked?).getLast? = d? := by
  cases d? with
  | none =>
    rw [IsLast, List.getLast?_eq_none_iff, List.filterMap_eq_nil_iff]
    simp only [asked?_eq_none]
  | some d =>
    rw [IsLast, List.getLast?_filterMap, List.findSome?_eq_some_iff]
    simp only [asked?_eq_some, asked?_eq_none]
    constructor
    · rintro ⟨before, after, rfl, hafter⟩
      exact ⟨after.reverse, _, before.reverse, by simp, rfl, by simpa using hafter⟩
    · rintro ⟨after, _, before, hkeys, rfl, hafter⟩
      refine ⟨before.reverse, after.reverse, ?_, by simpa using hafter⟩
      rw [← List.reverse_reverse keys, hkeys]
      simp

end SortKey

/-! ## Reading keys -/

namespace SortOrder

variable {s t : SortOrder} {field other : SortKey} {keys : List String} {key text : String}

theorem eq_of_directionIn (h : ∀ field : SortKey, field.directionIn s = field.directionIn t) :
    s = t := by
  have hpublished : s.publishedDate = t.publishedDate := h .publishedDate
  have hupdated : s.updatedAt = t.updatedAt := h .updatedAt
  cases s
  cases t
  rw [SortOrder.mk.injEq]
  exact ⟨hpublished, hupdated⟩

theorem leavesName_iff {name : String} : LeavesName key name ↔ (cutEntry key).2 = name := by
  have hsigned : key = "-" ++ name ↔ key.toList = '-' :: name.toList := by
    rw [← String.toList_inj, String.toList_append]
    rfl
  unfold LeavesName cutEntry
  rw [hsigned]
  split
  · next rest hkey =>
    rw [hkey, List.cons_inj_right]
    constructor
    · rintro (rfl | ⟨rfl, hplain⟩)
      · exact String.ofList_toList
      · exact absurd hkey (hplain rest)
    · rintro rfl
      exact Or.inl String.toList_ofList.symm
  · next hplain =>
    constructor
    · rintro (h | ⟨h, -⟩)
      · exact absurd h (hplain _)
      · exact h
    · rintro rfl
      exact Or.inr ⟨rfl, hplain⟩

/-- A key for a field sets its direction and leaves the other field as it is. -/
theorem takeEntry_entry (s : SortOrder) (field : SortKey) (d : Direction) :
    ∃ t, takeEntry s (field.entry d) = .ok t ∧ ∀ other : SortKey,
      other.directionIn t = if other = field then some d else other.directionIn s := by
  have hcut : cutEntry (field.entry d) = (d, field.name) := by
    cases field <;> cases d <;> decide
  rw [takeEntry, hcut]
  cases field with
  | publishedDate =>
    refine ⟨_, if_pos rfl, fun other => ?_⟩
    cases other <;> rfl
  | updatedAt =>
    refine ⟨_, rfl, fun other => ?_⟩
    cases other <;> rfl

theorem takeEntry_of_not_isKey (h : ¬ IsKey key) (s : SortOrder) :
    takeEntry s key = .error ⟨(cutEntry key).2⟩ := by
  have hleaves : LeavesName key (cutEntry key).2 := leavesName_iff.2 rfl
  unfold takeEntry
  -- only what `LeavesName` says of the cut matters from here on
  generalize cutEntry key = cut at hleaves
  obtain ⟨d, name⟩ := cut
  have hne : ∀ field : SortKey, name ≠ field.name := by
    rintro field rfl
    rcases hleaves with hkey | ⟨hkey, -⟩
    · exact h ⟨field, .descending, hkey⟩
    · exact h ⟨field, .ascending, hkey⟩
  exact (if_neg (hne .publishedDate)).trans (if_neg (hne .updatedAt))

/-- Known keys are read one by one, and of several for one field the last one counts. -/
theorem foldlM_takeEntry (s : SortOrder) (h : ∀ key ∈ keys, IsKey key) :
    ∃ t, keys.foldlM takeEntry s = .ok t ∧ ∀ field : SortKey,
      field.directionIn t = (keys.filterMap field.asked?).getLast?.or (field.directionIn s) := by
  induction keys generalizing s with
  | nil => exact ⟨s, rfl, fun field => rfl⟩
  | cons key rest ih =>
    obtain ⟨⟨asked, d, rfl⟩, hrest⟩ := List.forall_mem_cons.1 h
    obtain ⟨s', hs', hset⟩ := takeEntry_entry s asked d
    obtain ⟨t, ht, hlast⟩ := ih s' hrest
    -- what `rest` says of a field overrides this key, and this key overrides the start
    refine ⟨t, ?_, fun field => ?_⟩
    · rw [List.foldlM_cons, hs']
      exact ht
    · rw [hlast, hset, List.filterMap_cons, SortKey.asked?_entry]
      by_cases hfield : field = asked
      · rw [if_pos hfield, if_pos hfield, List.getLast?_cons]
        cases (rest.filterMap field.asked?).getLast? <;> rfl
      · rw [if_neg hfield, if_neg hfield]

/-- The first key that is not known is the error. -/
theorem foldlM_takeEntry_of_not_isKey {before after : List String}
    (hbefore : ∀ key ∈ before, IsKey key) (h : ¬ IsKey key) (s : SortOrder) :
    (before ++ key :: after).foldlM takeEntry s = .error ⟨(cutEntry key).2⟩ := by
  obtain ⟨t, ht, -⟩ := foldlM_takeEntry s hbefore
  rw [List.foldlM_append, ht]
  show (key :: after).foldlM takeEntry t = _
  rw [List.foldlM_cons, takeEntry_of_not_isKey h]
  rfl

/-- Either all keys are known, or there is a first one that is not. -/
theorem isKey_or_first (keys : List String) :
    (∀ key ∈ keys, IsKey key) ∨ ∃ before key after, keys = before ++ key :: after ∧
      (∀ key ∈ before, IsKey key) ∧ ¬ IsKey key := by
  induction keys with
  | nil => exact Or.inl (by simp)
  | cons key rest ih =>
    by_cases hkey : IsKey key
    · rcases ih with hall | ⟨before, first, after, rfl, hbefore, hfirst⟩
      · exact Or.inl (List.forall_mem_cons.2 ⟨hkey, hall⟩)
      · exact Or.inr ⟨key :: before, first, after, rfl, List.forall_mem_cons.2 ⟨hkey, hbefore⟩,
          hfirst⟩
    · exact Or.inr ⟨[], key, rest, rfl, by simp, hkey⟩

/-! ## Reading texts -/

theorem parse_eq (h : Text.ListsEntries text keys) : parse text = keys.foldlM takeEntry {} := by
  rw [parse, Text.commaEntries_eq_iff.2 h]

/-- The order that is read from keys has the last direction for each field. -/
theorem parse_eq_ok (h : Text.ListsEntries text keys) :
    parse text = .ok s ↔ (∀ key ∈ keys, IsKey key) ∧
      ∀ field : SortKey, field.IsLast keys (field.directionIn s) := by
  rw [parse_eq h]
  rcases isKey_or_first keys with hkeys | ⟨before, key, after, rfl, hbefore, hkey⟩
  · obtain ⟨t, ht, hlast⟩ := foldlM_takeEntry {} hkeys
    have hnone : ∀ field : SortKey, field.directionIn {} = none := by
      intro field
      cases field <;> rfl
    have hlast : ∀ field : SortKey, field.IsLast keys (field.directionIn t) := by
      intro field
      rw [SortKey.isLast_iff, hlast, hnone, Option.or_none]
    rw [ht]
    constructor
    · intro hs
      rw [← Except.ok.inj hs]
      exact ⟨hkeys, hlast⟩
    · rintro ⟨-, hs⟩
      refine congrArg Except.ok (eq_of_directionIn fun field => ?_)
      rw [← SortKey.isLast_iff.1 (hs field), SortKey.isLast_iff.1 (hlast field)]
  · rw [foldlM_takeEntry_of_not_isKey hbefore hkey]
    constructor
    · intro hs
      cases hs
    · rintro ⟨hkeys, -⟩
      exact absurd (hkeys key (by simp)) hkey

theorem parse_eq_error (h : Text.ListsEntries text keys) {e : UnsupportedSortKey} :
    parse text = .error e ↔ ∃ before key after, keys = before ++ key :: after ∧
      (∀ key ∈ before, IsKey key) ∧ ¬ IsKey key ∧ LeavesName key e.name := by
  rw [parse_eq h]
  constructor
  · intro he
    rcases isKey_or_first keys with hkeys | ⟨before, key, after, rfl, hbefore, hkey⟩
    · obtain ⟨t, ht, -⟩ := foldlM_takeEntry {} hkeys
      rw [ht] at he
      cases he
    · rw [foldlM_takeEntry_of_not_isKey hbefore hkey] at he
      exact ⟨before, key, after, rfl, hbefore, hkey,
        leavesName_iff.2 (congrArg UnsupportedSortKey.name (Except.error.inj he))⟩
  · rintro ⟨before, key, after, rfl, hbefore, hkey, hname⟩
    rw [foldlM_takeEntry_of_not_isKey hbefore hkey, leavesName_iff.1 hname]

theorem exists_parse_eq_ok (h : Text.ListsEntries text keys) :
    (∃ s, parse text = .ok s) ↔ ∀ key ∈ keys, IsKey key := by
  constructor
  · rintro ⟨s, hs⟩
    exact ((parse_eq_ok h).1 hs).1
  · intro hkeys
    obtain ⟨t, ht, -⟩ := foldlM_takeEntry {} hkeys
    exact ⟨t, (parse_eq h).trans ht⟩

/-! ## Orders that are written -/

theorem filterMap_asked_written (s : SortOrder) (field : SortKey) :
    s.written.filterMap field.asked? = (field.directionIn s).toList := by
  obtain ⟨publishedDate, updatedAt⟩ := s
  cases field <;> cases publishedDate <;> cases updatedAt <;>
    simp [written, SortKey.directionIn]

theorem isKey_of_mem_written (h : key ∈ s.written) : IsKey key := by
  obtain ⟨field, -, hkey⟩ := List.mem_filterMap.1 h
  obtain ⟨d, -, rfl⟩ := Option.map_eq_some_iff.1 hkey
  exact ⟨field, d, rfl⟩

/-- The keys of an order are read as the order, in any order. -/
theorem parse_written (h : Text.ListsEntries text keys) (hkeys : keys.Perm s.written) :
    parse text = .ok s := by
  refine (parse_eq_ok h).2 ⟨fun key hkey => isKey_of_mem_written (hkeys.mem_iff.1 hkey), ?_⟩
  intro field
  have hperm := hkeys.filterMap field.asked?
  rw [filterMap_asked_written] at hperm
  rw [SortKey.isLast_iff]
  cases hd : field.directionIn s with
  | none =>
    rw [hd] at hperm
    rw [List.perm_nil.1 hperm]
    rfl
  | some d =>
    rw [hd] at hperm
    rw [List.perm_singleton.1 hperm]
    rfl

theorem Exchanged.perm {a b : List String} (h : Exchanged a b) : a.Perm b := by
  induction h with
  | refl keys => exact .refl keys
  | swap before after _ d d' => exact .append_left before (.swap _ _ after)
  | trans _ _ first rest => exact first.trans rest

/-- An exchange leaves the keys for each field in their order. -/
theorem Exchanged.filterMap_asked {a b : List String} (h : Exchanged a b) (field : SortKey) :
    a.filterMap field.asked? = b.filterMap field.asked? := by
  induction h with
  | refl keys => rfl
  | @swap before after first second hne d d' =>
    -- at most one of the two neighbours is a key for the field
    simp only [List.filterMap_append, List.filterMap_cons, SortKey.asked?_entry]
    by_cases hfirst : field = first
    · rw [if_pos hfirst, if_neg (hfirst ▸ hne)]
    · rw [if_neg hfirst]
  | trans _ _ first rest => exact first.trans rest

theorem parse_exchanged {text' : String} {keys' : List String} (h : Text.ListsEntries text keys)
    (h' : Text.ListsEntries text' keys') (hexchanged : Exchanged keys keys') :
    parse text = .ok s ↔ parse text' = .ok s := by
  rw [parse_eq_ok h, parse_eq_ok h']
  simp only [SortKey.isLast_iff, hexchanged.filterMap_asked, hexchanged.perm.mem_iff]

/-! ## The stage -/

/-- An order has one stage, with the date of publication in front; no fields, no stage. -/
theorem stages_toDocuments (s : SortOrder) :
    Pipeline.toDocuments s.stages = if s = {} then [] else [[("$sort", .document s.body)]] := by
  obtain ⟨publishedDate, updatedAt⟩ := s
  cases publishedDate <;> cases updatedAt <;> rfl

/-- Only a text without keys asks for no order. -/
theorem eq_empty_iff_of_parse (h : Text.ListsEntries text keys) (hs : parse text = .ok s) :
    s = {} ↔ keys = [] := by
  obtain ⟨hkeys, hlast⟩ := (parse_eq_ok h).1 hs
  constructor
  · rintro rfl
    refine List.eq_nil_iff_forall_not_mem.2 fun key hkey => ?_
    obtain ⟨field, d, hentry⟩ := hkeys key hkey
    have hnone : field.IsLast keys none := by
      have hfield := hlast field
      cases field <;> exact hfield
    exact hnone key hkey d hentry
  · rintro rfl
    refine eq_of_directionIn fun field => ?_
    have hfield := SortKey.isLast_iff.1 (hlast field)
    rw [← hfield]
    cases field <;> rfl

/-- A text lists keys in one way. It is read as an order when all keys are known ones; each field
has the direction of the last key for it, and the order is one stage with the date of publication in
front. Otherwise the first unknown key is the error, told without one minus sign. The keys of an
order are read as the order in whatever order they stand, and exchanging keys for different fields
changes nothing. -/
theorem orders_read_exactly (text : String) :
    ∃ keys, (∀ keys', Text.ListsEntries text keys' ↔ keys' = keys) ∧
      ((∃ s, parse text = .ok s) ↔ ∀ key ∈ keys, IsKey key) ∧
      (∀ s, parse text = .ok s →
        (∀ field : SortKey, field.IsLast keys (field.directionIn s)) ∧
        Pipeline.toDocuments s.stages =
          if keys = [] then [] else [[("$sort", .document s.body)]]) ∧
      (∀ e, parse text = .error e ↔ ∃ before key after, keys = before ++ key :: after ∧
        (∀ key ∈ before, IsKey key) ∧ ¬ IsKey key ∧ LeavesName key e.name) ∧
      (∀ s, keys.Perm s.written → parse text = .ok s) ∧
      ∀ text' keys', Text.ListsEntries text' keys' → Exchanged keys keys' →
        ∀ s, parse text = .ok s ↔ parse text' = .ok s := by
  have hkeys : Text.ListsEntries text (Text.commaEntries text) :=
    Text.listsEntries_commaEntries text
  refine ⟨Text.commaEntries text, fun keys' => ?_, exists_parse_eq_ok hkeys, fun s hs => ⟨?_, ?_⟩,
    fun e => parse_eq_error hkeys, fun s hperm => parse_written hkeys hperm, ?_⟩
  · rw [← Text.commaEntries_eq_iff, eq_comm]
  · exact ((parse_eq_ok hkeys).1 hs).2
  · rw [stages_toDocuments]
    exact if_congr (eq_empty_iff_of_parse hkeys hs) rfl rfl
  · intro text' keys' hkeys' hexchanged s
    exact parse_exchanged hkeys hkeys' hexchanged

theorem orders_read_exactly_padded :
    parse ",-updated_at\u3000,, published_date" =
      .ok { publishedDate := some .ascending, updatedAt := some .descending } ∧
    parse "published_date,- updated_at,title" = .error ⟨" updated_at"⟩ := by
  obtain ⟨keys, hunique, -, -, -, hwritten, -⟩ :=
    orders_read_exactly ",-updated_at\u3000,, published_date"
  obtain ⟨keys', hunique', -, -, herror, -⟩ :=
    orders_read_exactly "published_date,- updated_at,title"
  have hkeys : ["-updated_at", "published_date"] = keys :=
    (hunique _).1 (Text.commaEntries_eq_iff.1 (by decide))
  have hkeys' : ["published_date", "- updated_at", "title"] = keys' :=
    (hunique' _).1 (Text.commaEntries_eq_iff.1 (by decide))
  subst hkeys hkeys'
  refine ⟨hwritten _ (.swap _ _ _), (herror _).2 ⟨["published_date"], _, _, rfl, ?_, ?_, ?_⟩⟩
  · intro key hkey
    exact ⟨.publishedDate, .ascending, List.mem_singleton.1 hkey⟩
  · rintro ⟨field, d, hkey⟩
    cases field <;> cases d <;> exact absurd hkey (by decide)
  · exact Or.inl (by decide)

end SortOrder

end NewsService
