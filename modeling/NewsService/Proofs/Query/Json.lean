import NewsService.Proofs.Json.Loosened
import NewsService.Query.Json

/-!
# Queries survive JSON

Each member that a query knows has a form. Main statement: what is written for a query is read as
that query, also when members that ask for nothing are left out, members are reordered and unknown
ones added; and a value is read as some query exactly if each known member that it has is of its
form.
-/

namespace NewsService

open Json

/-! ## Members of single types -/

variable {j : Json}

theorem Json.asInt64?_eq_some {n : Int64} : j.asInt64? = some n ↔ j = .integer n.toInt := by
  constructor
  · intro h
    cases j with
    | integer m =>
      rw [asInt64?] at h
      split at h
      · next hrange =>
        rw [← Option.some.inj h, Int64.toInt_ofInt_of_le hrange.1
          (Int.lt_of_le_of_lt hrange.2 (by decide))]
      · cases h
    | _ => cases h
  · rintro rfl
    rw [asInt64?, if_pos ⟨Int64.minValue_le_toInt n, Int64.toInt_le n⟩, Int64.ofInt_toInt]

theorem Json.asString?_eq_some {s : String} : j.asString? = some s ↔ j = .string s := by
  cases j <;> simp [asString?]

theorem Json.asBool?_eq_some {b : Bool} : j.asBool? = some b ↔ j = .bool b := by
  cases j <;> simp [asBool?]

theorem Json.mapM_asString?_eq_some {items : List Json} {texts : List String} :
    items.mapM asString? = some texts ↔ items = texts.map .string := by
  induction items generalizing texts with
  | nil =>
    cases texts with
    | nil => simp
    | cons t rest => simp
  | cons item items ih =>
    rw [List.mapM_cons]
    cases texts with
    | nil => simp [Option.bind_eq_some_iff]
    | cons t rest => simp [Option.bind_eq_some_iff, asString?_eq_some, ih]

theorem Json.asStrings?_eq_some {texts : List String} :
    j.asStrings? = some texts ↔ j = .array (texts.map .string) := by
  cases j with
  | array items => rw [asStrings?, mapM_asString?_eq_some, Json.array.injEq]
  | _ => simp [asStrings?]

theorem Json.asWord?_eq_some {word : String} :
    j.asWord? = some word ↔ j = .string word ∨ j = .object [(word, .null)] := by
  unfold asWord?
  split
  · simp
  · simp
  · next hstring hobject =>
    constructor
    · intro h
      cases h
    · rintro (rfl | rfl)
      · exact absurd rfl (hstring word)
      · exact absurd rfl (hobject word)

theorem Direction.ofName?_eq_some {word : String} {d : Direction} :
    ofName? word = some d ↔ word = d.name := by
  constructor
  · intro h
    unfold ofName? at h
    split at h
    · rw [← Option.some.inj h]
      rfl
    · rw [← Option.some.inj h]
      rfl
    · cases h
  · rintro rfl
    cases d <;> rfl

theorem Direction.ofJson?_eq_some {d : Direction} :
    ofJson? j = some d ↔ j = .string d.name ∨ j = .object [(d.name, .null)] := by
  unfold ofJson?
  simp only [Option.bind_eq_bind, Option.bind_eq_some_iff, asWord?_eq_some, ofName?_eq_some]
  constructor
  · rintro ⟨word, hword, rfl⟩
    exact hword
  · intro h
    exact ⟨_, h, rfl⟩

/-! ## Forms -/

/-- A number of 64 bits, written without fraction and exponent. -/
def Json.IsNumber (j : Json) : Prop := ∃ n : Int64, j = .integer n.toInt

def Json.IsText (j : Json) : Prop := ∃ s, j = .string s

def Json.IsFlag (j : Json) : Prop := ∃ b, j = .bool b

/-- A list of strings and nothing else. -/
def Json.AreTexts (j : Json) : Prop := ∃ texts : List String, j = .array (texts.map .string)

/-- One of the two words for directions, plain or as the only name of an object. -/
def Json.IsDirection (j : Json) : Prop :=
  ∃ word ∈ ["asc", "desc"], j = .string word ∨ j = .object [(word, .null)]

/-- Null, or a value of a form. -/
def Json.OrNull (form : Json → Prop) (j : Json) : Prop := j = .null ∨ form j

/-- An object in which the members under some names have the forms that go with the names, or an
array with the items by position. Members may be missing, and others may be there. -/
def Json.HasForm (fields : List (String × (Json → Prop))) (j : Json) : Prop :=
  ∃ members, j.members? (fields.map Prod.fst) 0 = some members ∧
    ∀ field ∈ fields, ∀ found, members.lookup field.1 = some found → field.2 found

/-- The members of windows. -/
def Window.form : List (String × (Json → Prop)) :=
  [("offset", IsNumber), ("limit", IsNumber)]

/-- The members of filters. -/
def Filter.form : List (String × (Json → Prop)) :=
  [("slug", IsText), ("state", IsText), ("style", IsText), ("is_featured", OrNull IsFlag),
    ("categories", AreTexts), ("tags", AreTexts), ("ids", AreTexts)]

/-- The members of orders. -/
def SortOrder.form : List (String × (Json → Prop)) :=
  [("published_date", OrNull IsDirection), ("updated_at", OrNull IsDirection)]

/-- The members of queries. -/
def Query.form : List (String × (Json → Prop)) :=
  [("pagination", HasForm Window.form), ("filter", HasForm Filter.form),
    ("sort", HasForm SortOrder.form), ("full", IsFlag)]

/-! ## Records of members -/

theorem Window.ofJson?_eq_some {w : Window} :
    ofJson? j = some w ↔ ∃ members, j.members? (form.map Prod.fst) 0 = some members ∧
      member? members "offset" 0 asInt64? = some w.offset ∧
      member? members "limit" 0 asInt64? = some w.limit := by
  unfold ofJson? form
  simp only [Option.bind_eq_bind, Option.bind_eq_some_iff, Option.pure_def, Option.some.injEq]
  constructor
  · rintro ⟨members, hmembers, offset, hoffset, limit, hlimit, rfl⟩
    exact ⟨members, hmembers, hoffset, hlimit⟩
  · rintro ⟨members, hmembers, hoffset, hlimit⟩
    exact ⟨members, hmembers, _, hoffset, _, hlimit, rfl⟩

theorem Filter.ofJson?_eq_some {f : Filter} :
    ofJson? j = some f ↔ ∃ members, j.members? (form.map Prod.fst) 0 = some members ∧
      member? members "slug" "" asString? = some f.slug ∧
      member? members "state" "" asString? = some f.state ∧
      member? members "style" "" asString? = some f.style ∧
      member? members "is_featured" none (nullable? asBool?) = some f.isFeatured ∧
      member? members "categories" [] asStrings? = some f.categories ∧
      member? members "tags" [] asStrings? = some f.tags ∧
      member? members "ids" [] asStrings? = some f.ids := by
  unfold ofJson? form
  simp only [Option.bind_eq_bind, Option.bind_eq_some_iff, Option.pure_def, Option.some.injEq]
  constructor
  · rintro ⟨members, hmembers, slug, hslug, state, hstate, style, hstyle, featured, hfeatured,
      categories, hcategories, tags, htags, ids, hids, rfl⟩
    exact ⟨members, hmembers, hslug, hstate, hstyle, hfeatured, hcategories, htags, hids⟩
  · rintro ⟨members, hmembers, hslug, hstate, hstyle, hfeatured, hcategories, htags, hids⟩
    exact ⟨members, hmembers, _, hslug, _, hstate, _, hstyle, _, hfeatured, _, hcategories, _,
      htags, _, hids, rfl⟩

theorem SortOrder.ofJson?_eq_some {s : SortOrder} :
    ofJson? j = some s ↔ ∃ members, j.members? (form.map Prod.fst) 0 = some members ∧
      member? members "published_date" none (nullable? Direction.ofJson?) = some s.publishedDate ∧
      member? members "updated_at" none (nullable? Direction.ofJson?) = some s.updatedAt := by
  unfold ofJson? form
  simp only [Option.bind_eq_bind, Option.bind_eq_some_iff, Option.pure_def, Option.some.injEq]
  constructor
  · rintro ⟨members, hmembers, published, hpublished, updated, hupdated, rfl⟩
    exact ⟨members, hmembers, hpublished, hupdated⟩
  · rintro ⟨members, hmembers, hpublished, hupdated⟩
    exact ⟨members, hmembers, _, hpublished, _, hupdated, rfl⟩

theorem Query.ofJson?_eq_some {q : Query} :
    ofJson? j = some q ↔ ∃ members, j.members? (form.map Prod.fst) 0 = some members ∧
      member? members "pagination" {} Window.ofJson? = some q.window ∧
      member? members "filter" {} Filter.ofJson? = some q.filter ∧
      member? members "sort" {} SortOrder.ofJson? = some q.sort ∧
      member? members "full" false asBool? = some q.full := by
  unfold ofJson? form
  simp only [Option.bind_eq_bind, Option.bind_eq_some_iff, Option.pure_def, Option.some.injEq]
  constructor
  · rintro ⟨members, hmembers, window, hwindow, filter, hfilter, sort, hsort, full, hfull, rfl⟩
    exact ⟨members, hmembers, hwindow, hfilter, hsort, hfull⟩
  · rintro ⟨members, hmembers, hwindow, hfilter, hsort, hfull⟩
    exact ⟨members, hmembers, _, hwindow, _, hfilter, _, hsort, _, hfull, rfl⟩

/-! ## Looser forms -/

theorem Json.readsLoosened_number :
    ReadsLoosened asInt64? (fun n => .integer n.toInt) 0 :=
  readsLoosened_of_not_object (fun _ _ => nofun) fun _ => asInt64?_eq_some.2 rfl

theorem Json.readsLoosened_text : ReadsLoosened asString? .string "" :=
  readsLoosened_of_not_object (fun _ _ => nofun) fun _ => rfl

theorem Json.readsLoosened_flag : ReadsLoosened asBool? .bool false :=
  readsLoosened_of_not_object (fun _ _ => nofun) fun _ => rfl

theorem Json.readsLoosened_texts :
    ReadsLoosened asStrings? (fun texts => .array (texts.map .string)) [] :=
  readsLoosened_of_not_object (fun _ _ => nofun) fun _ => asStrings?_eq_some.2 rfl

theorem Json.readsLoosened_optional {α : Type} {read : Json → Option α} {write : α → Json}
    (hnull : ∀ a, write a ≠ .null) (hobject : ∀ a members, write a ≠ .object members)
    (hread : ∀ a, read (write a) = some a) :
    ReadsLoosened (nullable? read) (ofOption write) none := by
  refine readsLoosened_of_not_object (fun a? members => ?_) fun a? => ?_
  · cases a? with
    | none => exact nofun
    | some a => exact hobject a members
  · cases a? with
    | none => rfl
    | some a =>
      rw [ofOption, nullable?, hread]
      · rfl
      · exact hnull a

theorem Window.readsLoosened : ReadsLoosened ofJson? toJson {} := by
  intro w found h
  have hnames : (Window.form.map Prod.fst).Nodup := by decide
  obtain ⟨members, rfl, hmembers⟩ := h.exists_members hnames
  refine ofJson?_eq_some.2 ⟨members, rfl, ?_, ?_⟩
  · exact readsLoosened_number.member? (hmembers "offset" _ _ rfl rfl)
  · exact readsLoosened_number.member? (hmembers "limit" _ _ rfl rfl)

theorem Filter.readsLoosened : ReadsLoosened ofJson? toJson {} := by
  intro f found h
  have hnames : (Filter.form.map Prod.fst).Nodup := by decide
  obtain ⟨members, rfl, hmembers⟩ := h.exists_members hnames
  have hfeatured : ReadsLoosened (nullable? asBool?) (ofOption .bool) none :=
    readsLoosened_optional (fun _ => nofun) (fun _ _ => nofun) fun _ => rfl
  refine ofJson?_eq_some.2 ⟨members, rfl, ?_, ?_, ?_, ?_, ?_, ?_, ?_⟩
  · exact readsLoosened_text.member? (hmembers "slug" _ _ rfl rfl)
  · exact readsLoosened_text.member? (hmembers "state" _ _ rfl rfl)
  · exact readsLoosened_text.member? (hmembers "style" _ _ rfl rfl)
  · exact hfeatured.member? (hmembers "is_featured" _ _ rfl rfl)
  · exact readsLoosened_texts.member? (hmembers "categories" _ _ rfl rfl)
  · exact readsLoosened_texts.member? (hmembers "tags" _ _ rfl rfl)
  · exact readsLoosened_texts.member? (hmembers "ids" _ _ rfl rfl)

theorem SortOrder.readsLoosened : ReadsLoosened ofJson? toJson {} := by
  intro s found h
  have hnames : (SortOrder.form.map Prod.fst).Nodup := by decide
  obtain ⟨members, rfl, hmembers⟩ := h.exists_members hnames
  have hdirection : ReadsLoosened (nullable? Direction.ofJson?) (ofOption Direction.toJson) none :=
    readsLoosened_optional (fun _ => nofun) (fun _ _ => nofun)
      fun _ => Direction.ofJson?_eq_some.2 (Or.inl rfl)
  refine ofJson?_eq_some.2 ⟨members, rfl, ?_, ?_⟩
  · exact hdirection.member? (hmembers "published_date" _ _ rfl rfl)
  · exact hdirection.member? (hmembers "updated_at" _ _ rfl rfl)

theorem Query.readsLoosened : ReadsLoosened ofJson? toJson {} := by
  intro q found h
  have hnames : (Query.form.map Prod.fst).Nodup := by decide
  obtain ⟨members, rfl, hmembers⟩ := h.exists_members hnames
  refine ofJson?_eq_some.2 ⟨members, rfl, ?_, ?_, ?_, ?_⟩
  · exact Window.readsLoosened.member? (hmembers "pagination" _ _ rfl rfl)
  · exact Filter.readsLoosened.member? (hmembers "filter" _ _ rfl rfl)
  · exact SortOrder.readsLoosened.member? (hmembers "sort" _ _ rfl rfl)
  · exact readsLoosened_flag.member? (hmembers "full" _ _ rfl rfl)

/-! ## What is read -/

/-- A member is read as something if it is missing or has the form that its reader wants. -/
theorem Json.exists_member?_iff {α : Type} {members : List (String × Json)} {name : String}
    {default : α} {read : Json → Option α} {form : Json → Prop}
    (hread : ∀ found, (∃ a, read found = some a) ↔ form found) :
    (∃ a, member? members name default read = some a) ↔
      ∀ found, members.lookup name = some found → form found := by
  unfold member?
  cases members.lookup name with
  | none => simp
  | some found => simp [hread]

theorem Json.exists_asInt64?_iff (found : Json) :
    (∃ n, found.asInt64? = some n) ↔ found.IsNumber :=
  exists_congr fun _ => asInt64?_eq_some

theorem Json.exists_asString?_iff (found : Json) :
    (∃ s, found.asString? = some s) ↔ found.IsText :=
  exists_congr fun _ => asString?_eq_some

theorem Json.exists_asBool?_iff (found : Json) : (∃ b, found.asBool? = some b) ↔ found.IsFlag :=
  exists_congr fun _ => asBool?_eq_some

theorem Json.exists_asStrings?_iff (found : Json) :
    (∃ texts, found.asStrings? = some texts) ↔ found.AreTexts :=
  exists_congr fun _ => asStrings?_eq_some

theorem Json.exists_nullable?_iff {α : Type} {read : Json → Option α} {form : Json → Prop}
    (hread : ∀ found, (∃ a, read found = some a) ↔ form found) (found : Json) :
    (∃ a?, nullable? read found = some a?) ↔ found.OrNull form := by
  unfold OrNull
  rw [← hread]
  cases found <;> simp [nullable?]

theorem Direction.exists_ofJson?_iff (found : Json) :
    (∃ d, ofJson? found = some d) ↔ found.IsDirection := by
  simp only [ofJson?_eq_some]
  constructor
  · rintro ⟨d, hd⟩
    refine ⟨d.name, ?_, hd⟩
    cases d <;> decide
  · rintro ⟨word, hword, hfound⟩
    rcases List.mem_pair.1 hword with rfl | rfl
    · exact ⟨.ascending, hfound⟩
    · exact ⟨.descending, hfound⟩

theorem Window.exists_ofJson?_iff (found : Json) :
    (∃ w, ofJson? found = some w) ↔ found.HasForm form := by
  simp only [ofJson?_eq_some]
  constructor
  · rintro ⟨w, members, hmembers, hoffset, hlimit⟩
    refine ⟨members, hmembers, ?_⟩
    simp only [form, List.forall_mem_cons]
    exact ⟨(exists_member?_iff exists_asInt64?_iff).1 ⟨_, hoffset⟩,
      (exists_member?_iff exists_asInt64?_iff).1 ⟨_, hlimit⟩, List.forall_mem_nil _⟩
  · rintro ⟨members, hmembers, hforms⟩
    simp only [form, List.forall_mem_cons] at hforms
    obtain ⟨hoffset, hlimit, -⟩ := hforms
    obtain ⟨offset, hoffset⟩ := (exists_member?_iff exists_asInt64?_iff).2 hoffset
    obtain ⟨limit, hlimit⟩ := (exists_member?_iff exists_asInt64?_iff).2 hlimit
    exact ⟨⟨offset, limit⟩, members, hmembers, hoffset, hlimit⟩

theorem Filter.exists_ofJson?_iff (found : Json) :
    (∃ f, ofJson? found = some f) ↔ found.HasForm form := by
  simp only [ofJson?_eq_some]
  constructor
  · rintro ⟨f, members, hmembers, hslug, hstate, hstyle, hfeatured, hcategories, htags, hids⟩
    refine ⟨members, hmembers, ?_⟩
    simp only [form, List.forall_mem_cons]
    exact ⟨(exists_member?_iff exists_asString?_iff).1 ⟨_, hslug⟩,
      (exists_member?_iff exists_asString?_iff).1 ⟨_, hstate⟩,
      (exists_member?_iff exists_asString?_iff).1 ⟨_, hstyle⟩,
      (exists_member?_iff (exists_nullable?_iff exists_asBool?_iff)).1 ⟨_, hfeatured⟩,
      (exists_member?_iff exists_asStrings?_iff).1 ⟨_, hcategories⟩,
      (exists_member?_iff exists_asStrings?_iff).1 ⟨_, htags⟩,
      (exists_member?_iff exists_asStrings?_iff).1 ⟨_, hids⟩, List.forall_mem_nil _⟩
  · rintro ⟨members, hmembers, hforms⟩
    simp only [form, List.forall_mem_cons] at hforms
    obtain ⟨hslug, hstate, hstyle, hfeatured, hcategories, htags, hids, -⟩ := hforms
    obtain ⟨slug, hslug⟩ := (exists_member?_iff exists_asString?_iff).2 hslug
    obtain ⟨state, hstate⟩ := (exists_member?_iff exists_asString?_iff).2 hstate
    obtain ⟨style, hstyle⟩ := (exists_member?_iff exists_asString?_iff).2 hstyle
    obtain ⟨featured, hfeatured⟩ :=
      (exists_member?_iff (exists_nullable?_iff exists_asBool?_iff)).2 hfeatured
    obtain ⟨categories, hcategories⟩ := (exists_member?_iff exists_asStrings?_iff).2 hcategories
    obtain ⟨tags, htags⟩ := (exists_member?_iff exists_asStrings?_iff).2 htags
    obtain ⟨ids, hids⟩ := (exists_member?_iff exists_asStrings?_iff).2 hids
    exact ⟨⟨slug, state, style, featured, categories, tags, ids⟩, members, hmembers, hslug, hstate,
      hstyle, hfeatured, hcategories, htags, hids⟩

theorem SortOrder.exists_ofJson?_iff (found : Json) :
    (∃ s, ofJson? found = some s) ↔ found.HasForm form := by
  have hdirection := exists_nullable?_iff Direction.exists_ofJson?_iff
  simp only [ofJson?_eq_some]
  constructor
  · rintro ⟨s, members, hmembers, hpublished, hupdated⟩
    refine ⟨members, hmembers, ?_⟩
    simp only [form, List.forall_mem_cons]
    exact ⟨(exists_member?_iff hdirection).1 ⟨_, hpublished⟩,
      (exists_member?_iff hdirection).1 ⟨_, hupdated⟩, List.forall_mem_nil _⟩
  · rintro ⟨members, hmembers, hforms⟩
    simp only [form, List.forall_mem_cons] at hforms
    obtain ⟨hpublished, hupdated, -⟩ := hforms
    obtain ⟨published, hpublished⟩ := (exists_member?_iff hdirection).2 hpublished
    obtain ⟨updated, hupdated⟩ := (exists_member?_iff hdirection).2 hupdated
    exact ⟨⟨published, updated⟩, members, hmembers, hpublished, hupdated⟩

namespace Query

/-- A value is read as some query exactly if it has the form of one, all the way down. -/
theorem exists_ofJson?_iff (found : Json) :
    (∃ q, ofJson? found = some q) ↔ found.HasForm form := by
  simp only [ofJson?_eq_some]
  constructor
  · rintro ⟨q, members, hmembers, hwindow, hfilter, hsort, hfull⟩
    refine ⟨members, hmembers, ?_⟩
    simp only [form, List.forall_mem_cons]
    exact ⟨(exists_member?_iff Window.exists_ofJson?_iff).1 ⟨_, hwindow⟩,
      (exists_member?_iff Filter.exists_ofJson?_iff).1 ⟨_, hfilter⟩,
      (exists_member?_iff SortOrder.exists_ofJson?_iff).1 ⟨_, hsort⟩,
      (exists_member?_iff exists_asBool?_iff).1 ⟨_, hfull⟩, List.forall_mem_nil _⟩
  · rintro ⟨members, hmembers, hforms⟩
    simp only [form, List.forall_mem_cons] at hforms
    obtain ⟨hwindow, hfilter, hsort, hfull, -⟩ := hforms
    obtain ⟨window, hwindow⟩ := (exists_member?_iff Window.exists_ofJson?_iff).2 hwindow
    obtain ⟨filter, hfilter⟩ := (exists_member?_iff Filter.exists_ofJson?_iff).2 hfilter
    obtain ⟨sort, hsort⟩ := (exists_member?_iff SortOrder.exists_ofJson?_iff).2 hsort
    obtain ⟨full, hfull⟩ := (exists_member?_iff exists_asBool?_iff).2 hfull
    exact ⟨⟨window, filter, sort, full⟩, members, hmembers, hwindow, hfilter, hsort, hfull⟩

/-- Null is refused everywhere but in place of a flag or direction that may be missing. -/
theorem form_null_iff : ∀ field ∈ form ++ Window.form ++ Filter.form ++ SortOrder.form,
    field.2 .null ↔ field.1 ∈ ["is_featured", "published_date", "updated_at"] := by
  have hobject : ∀ fields, ¬ Json.HasForm fields .null := by
    rintro fields ⟨members, hmembers, -⟩
    cases hmembers
  simp [form, Window.form, Filter.form, SortOrder.form, hobject, IsFlag, IsNumber, IsText, AreTexts,
    OrNull]

/-- What is written for a query is read as the query, in every looser form of it. All else that is
read has the form of a query: one member in another form makes reading fail, and so does null
except in three places. -/
theorem survives_json :
    (∀ q : Query, ofJson? q.toJson = some q) ∧
    (∀ (q : Query) (j : Json), Loosened (toJson {}) q.toJson j → ofJson? j = some q) ∧
    (∀ j : Json, (∃ q, ofJson? j = some q) ↔ j.HasForm form) ∧
    ∀ field ∈ form ++ Window.form ++ Filter.form ++ SortOrder.form,
      field.2 .null ↔ field.1 ∈ ["is_featured", "published_date", "updated_at"] :=
  ⟨fun q => readsLoosened q _ (.same _ _), readsLoosened, exists_ofJson?_iff, form_null_iff⟩

/-- A query for the latest records. -/
def latest : Query :=
  { window := { limit := 10 }, sort := { publishedDate := some .descending } }

/-- That query in a looser form, with a given limit. -/
def latestJson (limit : Int) : Json :=
  .object [("sort", .object [("note", .null), ("published_date", .string "desc")]),
    ("depth", .integer 3), ("pagination", .object [("limit", .integer limit)])]

theorem survives_json_latest :
    Loosened (toJson {}) latest.toJson (latestJson 10) ∧ ofJson? (latestJson 10) = some latest ∧
      ofJson? (latestJson 9223372036854775808) = none := by
  obtain ⟨-, hloose, hform, -⟩ := survives_json
  have hwindow : Loosened (Window.toJson {}) latest.window.toJson
      (.object [("limit", .integer 10)]) :=
    .object (.leaveOut (.keep (.same _ _) .nil)) (List.forall_mem_nil _) (.refl _)
  have hsort : Loosened (SortOrder.toJson {}) latest.sort.toJson
      (.object [("note", .null), ("published_date", .string "desc")]) := by
    refine @Loosened.object _ _ _ [("note", .null)] _ (.keep (.same _ _) (.leaveOut .nil)) ?_
      (.swap _ _ _)
    simp
  have hquery : Loosened (toJson {}) latest.toJson (latestJson 10) := by
    refine @Loosened.object _ _ _ [("depth", .integer 3)] _
      (.keep hwindow (.leaveOut (.keep hsort (.leaveOut .nil)))) ?_
      (List.perm_append_singleton _ [_, _])
    simp
  refine ⟨hquery, hloose latest _ hquery, ?_⟩
  rw [Option.eq_none_iff_forall_ne_some]
  intro q hq
  obtain ⟨members, hmembers, hforms⟩ := (hform _).1 ⟨q, hq⟩
  obtain rfl := Option.some.inj hmembers
  obtain ⟨inner, hinner, hnumbers⟩ := hforms _ List.mem_cons_self _ rfl
  obtain rfl := Option.some.inj hinner
  obtain ⟨n, hn⟩ := hnumbers ("limit", IsNumber) (List.mem_cons_of_mem _ List.mem_cons_self) _ rfl
  have hle := n.toInt_lt
  rw [← Json.integer.inj hn] at hle
  omega

end Query

end NewsService
