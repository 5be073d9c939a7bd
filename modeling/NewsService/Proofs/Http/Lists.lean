import NewsService.Proofs.Http.Bounds
import NewsService.Proofs.Http.Requests
import NewsService.Proofs.Http.Single
import NewsService.Proofs.Text.Integer

/-!
# Requests for lists

The parameters of a list can be written in any order, among pairs of other names. Main statement: a
request for a list sends the calls of the query that its parameters denote, and a request that is
refused sends none.
-/

namespace NewsService.Http

namespace ListParams

/-! ## Written parameters -/

/-- The parameters that are texts, by name. -/
def texts (p : ListParams) : List (String × Option String) :=
  [("slug", p.slug), ("state", p.state), ("style", p.style), ("category_id", p.categoryId),
    ("tag_id", p.tagId), ("id", p.id), ("sort", p.sort)]

/-- The parameters that are truth values, by name. -/
def flags (p : ListParams) : List (String × Option Bool) :=
  [("is_featured", p.isFeatured), ("full", p.full)]

/-- The parameters that are integers, by name. -/
def numbers (p : ListParams) : List (String × Option Int64) :=
  [("limit", p.limit), ("offset", p.offset)]

/-- The names of all parameters. -/
def names : List String :=
  (texts {}).map Prod.fst ++ (flags {}).map Prod.fst ++ (numbers {}).map Prod.fst

/-- The text of a truth value. -/
def boolText (b : Bool) : String :=
  if b then "true" else "false"

/-- Whether parameters have a value under a name, written as a text. Integers may be written in any
way in which they can be spelled. -/
inductive Gives (p : ListParams) : String → String → Prop
  | text {name text : String} (h : (name, some text) ∈ p.texts) : Gives p name text
  | flag {name : String} {b : Bool} (h : (name, some b) ∈ p.flags) : Gives p name (boolText b)
  | number {name text : String} {n : Int64} (h : (name, some n) ∈ p.numbers)
      (htext : IntegerType.i64.Spells text.toList n.toInt) : Gives p name text

/-- Whether pairs list the parameters, in any order, each that has a value once. There may be pairs
of other names. -/
structure ListedIn (p : ListParams) (pairs : List (String × String)) : Prop where
  gives : ∀ pair ∈ pairs, pair.1 ∈ names → p.Gives pair.1 pair.2
  once : ((pairs.map Prod.fst).filter fun name => name ∈ names).Nodup
  complete : ∀ name text, p.Gives name text → name ∈ pairs.map Prod.fst

/-- Whether a query string writes the parameters. -/
def WrittenIn (p : ListParams) (query : String) : Prop :=
  ∃ pairs, Urlencoded.WrittenPairs pairs query ∧ p.ListedIn pairs

/-- Whether a text is no value of the parameter of a name. -/
def Refuses (name text : String) : Prop :=
  name ∈ (flags {}).map Prod.fst ∧ text ∉ ["true", "false"] ∨
    name ∈ (numbers {}).map Prod.fst ∧
      ∀ n, ¬ (IntegerType.i64.Spells text.toList n ∧ IntegerType.i64.Contains n)

/-! ## Values -/

variable {p : ListParams} {name text query : String} {seen : List String}
  {pairs : List (String × String)}

theorem readBool_boolText (b : Bool) : readBool (boolText b) = .ok b :=
  readBool_eq_ok.2 rfl

theorem readBool_refused (h : text ∉ ["true", "false"]) :
    ∃ cause, readBool text = .error cause := by
  cases hread : readBool text with
  | error cause => exact ⟨cause, rfl⟩
  | ok b =>
    rw [readBool_eq_ok.1 hread] at h
    exact absurd (by cases b <;> decide) h

theorem i64_contains_zero : IntegerType.i64.Contains 0 :=
  ⟨by decide, by decide⟩

theorem i64_contains_toInt (n : Int64) : IntegerType.i64.Contains n.toInt := by
  have hleast := n.le_toInt
  have hgreatest := n.toInt_lt
  unfold IntegerType.Contains IntegerType.i64
  dsimp only
  omega

theorem readInt64_of_spells {n : Int64} (h : IntegerType.i64.Spells text.toList n.toInt) :
    readInt64 text = .ok n := by
  have hread := (IntegerType.read_eq_ok i64_contains_zero).2 ⟨h, i64_contains_toInt n⟩
  unfold readInt64
  rw [hread]
  exact congrArg Except.ok (Int64.ofInt_toInt n)

theorem readInt64_refused
    (h : ∀ n, ¬ (IntegerType.i64.Spells text.toList n ∧ IntegerType.i64.Contains n)) :
    ∃ cause, readInt64 text = .error cause := by
  unfold readInt64
  cases hread : IntegerType.i64.read text with
  | ok n => exact absurd ((IntegerType.read_eq_ok i64_contains_zero).1 hread) (h n)
  | error cause => exact ⟨_, rfl⟩

/-! ## Reading what is written -/

/-- The parameters, as far as their names are in a list. -/
def keep (p : ListParams) (seen : List String) : ListParams where
  slug := if "slug" ∈ seen then p.slug else none
  state := if "state" ∈ seen then p.state else none
  style := if "style" ∈ seen then p.style else none
  isFeatured := if "is_featured" ∈ seen then p.isFeatured else none
  categoryId := if "category_id" ∈ seen then p.categoryId else none
  tagId := if "tag_id" ∈ seen then p.tagId else none
  id := if "id" ∈ seen then p.id else none
  sort := if "sort" ∈ seen then p.sort else none
  full := if "full" ∈ seen then p.full else none
  limit := if "limit" ∈ seen then p.limit else none
  offset := if "offset" ∈ seen then p.offset else none

/-- A pair that gives a parameter for the first time takes it up. -/
theorem takePair_gives (h : p.Gives name text) (hnew : name ∉ seen) :
    takePair known (p.keep seen) (name, text) = .ok (p.keep (seen ++ [name])) := by
  cases h with
  | text h =>
    simp only [texts, List.mem_cons, Prod.mk.injEq, List.not_mem_nil, or_false] at h
    rcases h with ⟨rfl, h⟩ | ⟨rfl, h⟩ | ⟨rfl, h⟩ | ⟨rfl, h⟩ | ⟨rfl, h⟩ | ⟨rfl, h⟩ | ⟨rfl, h⟩ <;>
    · refine (takePair_optional rfl ?_ rfl).trans ?_
      · exact if_neg hnew
      · simp [keep, ← h]
  | flag h =>
    simp only [flags, List.mem_cons, Prod.mk.injEq, List.not_mem_nil, or_false] at h
    rcases h with ⟨rfl, h⟩ | ⟨rfl, h⟩ <;>
    · refine (takePair_optional rfl ?_ (readBool_boolText _)).trans ?_
      · exact if_neg hnew
      · simp [keep, ← h]
  | number h htext =>
    simp only [numbers, List.mem_cons, Prod.mk.injEq, List.not_mem_nil, or_false] at h
    rcases h with ⟨rfl, h⟩ | ⟨rfl, h⟩ <;>
    · refine (takePair_optional rfl ?_ (readInt64_of_spells htext)).trans ?_
      · exact if_neg hnew
      · simp [keep, ← h]

theorem isKnown_of_not_mem (h : name ∉ names) : isKnown known name = false := by
  have hnames : known.map Parameter.name ⊆ names := by decide
  refine List.any_eq_false.2 fun parameter hparameter hname => h ?_
  rw [← eq_of_beq hname]
  exact hnames (List.mem_map_of_mem hparameter)

theorem keep_congr {seen' : List String} (h : ∀ known ∈ names, known ∈ seen ↔ known ∈ seen') :
    p.keep seen = p.keep seen' := by
  unfold keep
  simp only [h "slug" (by decide), h "state" (by decide), h "style" (by decide),
    h "is_featured" (by decide), h "category_id" (by decide), h "tag_id" (by decide),
    h "id" (by decide), h "sort" (by decide), h "full" (by decide), h "limit" (by decide),
    h "offset" (by decide)]

theorem keep_of_unknown (h : name ∉ names) : p.keep (seen ++ [name]) = p.keep seen := by
  refine keep_congr fun known hknown => ?_
  have hne : known ≠ name := by
    rintro rfl
    exact h hknown
  rw [List.mem_append, List.mem_singleton, or_iff_left hne]

theorem keep_of_complete (h : ∀ name text, p.Gives name text → name ∈ seen) : p.keep seen = p := by
  have hvalue : ∀ {α : Type} {name : String} {value : Option α},
      (∀ a, value = some a → name ∈ seen) → (if name ∈ seen then value else none) = value := by
    intro α name value hseen
    cases value with
    | none => exact ite_self none
    | some a => exact if_pos (hseen a rfl)
  have htext : ∀ {name value}, (name, value) ∈ p.texts →
      (if name ∈ seen then value else none) = value := by
    intro name value hmem
    refine hvalue ?_
    rintro text rfl
    exact h name text (.text hmem)
  have hflag : ∀ {name value}, (name, value) ∈ p.flags →
      (if name ∈ seen then value else none) = value := by
    intro name value hmem
    refine hvalue ?_
    rintro b rfl
    exact h name _ (.flag hmem)
  have hnumber : ∀ {name value}, (name, value) ∈ p.numbers →
      (if name ∈ seen then value else none) = value := by
    intro name value hmem
    refine hvalue ?_
    rintro n rfl
    exact h name _ (.number hmem (IntegerType.spells_toString rfl n.toInt))
  unfold keep
  rw [htext (by simp [texts] : ("slug", p.slug) ∈ p.texts),
    htext (by simp [texts] : ("state", p.state) ∈ p.texts),
    htext (by simp [texts] : ("style", p.style) ∈ p.texts),
    hflag (by simp [flags] : ("is_featured", p.isFeatured) ∈ p.flags),
    htext (by simp [texts] : ("category_id", p.categoryId) ∈ p.texts),
    htext (by simp [texts] : ("tag_id", p.tagId) ∈ p.texts),
    htext (by simp [texts] : ("id", p.id) ∈ p.texts),
    htext (by simp [texts] : ("sort", p.sort) ∈ p.texts),
    hflag (by simp [flags] : ("full", p.full) ∈ p.flags),
    hnumber (by simp [numbers] : ("limit", p.limit) ∈ p.numbers),
    hnumber (by simp [numbers] : ("offset", p.offset) ∈ p.numbers)]

/-- The pairs are taken up one by one, and what has been taken up so far are the parameters of the
names that have been seen. -/
theorem takePairs_keep (hgives : ∀ pair ∈ pairs, pair.1 ∈ names → p.Gives pair.1 pair.2)
    (honce : ((pairs.map Prod.fst).filter fun name => name ∈ names).Nodup)
    (hnew : ∀ pair ∈ pairs, pair.1 ∈ names → pair.1 ∉ seen) :
    pairs.foldlM (takePair known) (p.keep seen) = .ok (p.keep (seen ++ pairs.map Prod.fst)) := by
  -- names that are not known go into `seen`, too, where they keep nothing
  induction pairs generalizing seen with
  | nil =>
    rw [List.map_nil, List.append_nil]
    rfl
  | cons pair rest ih =>
    obtain ⟨name, text⟩ := pair
    obtain ⟨hgive, hgives⟩ := List.forall_mem_cons.1 hgives
    obtain ⟨hfirst, hnew⟩ := List.forall_mem_cons.1 hnew
    rw [List.map_cons] at honce
    have htake : takePair known (p.keep seen) (name, text) = .ok (p.keep (seen ++ [name])) := by
      by_cases hknown : name ∈ names
      · exact takePair_gives (hgive hknown) (hfirst hknown)
      · rw [takePair_of_unknown (isKnown_of_not_mem hknown), keep_of_unknown hknown]
    have hrest : ((rest.map Prod.fst).filter fun name => name ∈ names).Nodup :=
      honce.sublist ((List.sublist_cons_self _ _).filter _)
    have hlater : ∀ pair ∈ rest, pair.1 ∈ names → pair.1 ∉ seen ++ [name] := by
      intro pair hpair hknown hseen
      rcases List.mem_append.1 hseen with hseen | hname
      · exact hnew pair hpair hknown hseen
      · -- the name of a known parameter would stand twice among the names
        rw [List.mem_singleton.1 hname] at hknown
        rw [List.filter_cons_of_pos (by simpa using hknown), List.nodup_cons] at honce
        refine honce.1 (List.mem_filter.2 ⟨?_, by simpa using hknown⟩)
        exact List.mem_map.2 ⟨pair, hpair, List.mem_singleton.1 hname⟩
    have hseen : seen ++ name :: rest.map Prod.fst = seen ++ [name] ++ rest.map Prod.fst :=
      List.append_cons ..
    rw [List.foldlM_cons, htake, List.map_cons, hseen]
    exact ih hgives hrest hlater

theorem ofQueryString_of_written (h : p.WrittenIn query) : ofQueryString query = .ok p := by
  obtain ⟨pairs, hwritten, hlisted⟩ := h
  have hread : pairs.foldlM (takePair known) (p.keep []) =
      .ok (p.keep ([] ++ pairs.map Prod.fst)) :=
    takePairs_keep hlisted.gives hlisted.once fun _ _ _ => List.not_mem_nil
  rw [List.nil_append, keep_of_complete hlisted.complete] at hread
  unfold ofQueryString takeQueryString
  rw [Urlencoded.pairs_of_written hwritten]
  exact hread

/-- A value that is no value of its parameter refuses the query string. -/
theorem ofQueryString_refused (hpair : (name, text) ∈ Urlencoded.pairs query)
    (h : Refuses name text) : ∃ e, ofQueryString query = .error e := by
  have hrefused : ∀ q, ∃ e, takePair known q (name, text) = .error e := by
    rcases h with ⟨hname, htext⟩ | ⟨hname, htext⟩
    · obtain ⟨cause, hread⟩ := readBool_refused htext
      simp only [flags, List.map_cons, List.map_nil, List.mem_cons, List.not_mem_nil, or_false]
        at hname
      rcases hname with rfl | rfl
      · exact takePair_refused rfl hread
      · exact takePair_refused rfl hread
    · obtain ⟨cause, hread⟩ := readInt64_refused htext
      simp only [numbers, List.map_cons, List.map_nil, List.mem_cons, List.not_mem_nil, or_false]
        at hname
      rcases hname with rfl | rfl
      · exact takePair_refused rfl hread
      · exact takePair_refused rfl hread
  exact takePairs_refused hpair hrefused {}

/-! ## Writing parameters -/

/-- The pairs for the values in a table. -/
def given {α : Type} (write : α → String) (table : List (String × Option α)) :
    List (String × String) :=
  table.filterMap fun entry => entry.2.map fun a => (entry.1, write a)

theorem mem_given {α : Type} {write : α → String} {table : List (String × Option α)} :
    (name, text) ∈ given write table ↔ ∃ a, (name, some a) ∈ table ∧ write a = text := by
  unfold given
  rw [List.mem_filterMap]
  constructor
  · rintro ⟨⟨name', value⟩, hmem, hpair⟩
    obtain ⟨a, rfl, hpair⟩ := Option.map_eq_some_iff.1 hpair
    obtain ⟨rfl, rfl⟩ := Prod.mk.inj hpair
    exact ⟨a, hmem, rfl⟩
  · rintro ⟨a, hmem, rfl⟩
    exact ⟨_, hmem, rfl⟩

theorem map_given_sublist {α : Type} (write : α → String) (table : List (String × Option α)) :
    ((given write table).map Prod.fst).Sublist (table.map Prod.fst) := by
  have hkeyed := map_filterMap_keyed_sublist Prod.fst (fun entry => entry.2.map write) table
  simp only [Option.map_map] at hkeyed
  exact hkeyed

/-- The pairs that give the parameters. -/
def toPairs (p : ListParams) : List (String × String) :=
  given (fun text => text) p.texts ++ given boolText p.flags ++
    given (fun n => toString n.toInt) p.numbers

theorem mem_toPairs :
    (name, text) ∈ p.toPairs ↔
      (∃ value, (name, some value) ∈ p.texts ∧ value = text) ∨
      (∃ b, (name, some b) ∈ p.flags ∧ boolText b = text) ∨
      ∃ n, (name, some n) ∈ p.numbers ∧ toString n.toInt = text := by
  unfold toPairs
  rw [List.mem_append, List.mem_append, mem_given, mem_given, mem_given, or_assoc]

theorem listedIn_toPairs (p : ListParams) : p.ListedIn p.toPairs where
  gives := by
    rintro ⟨name, text⟩ hpair -
    rcases mem_toPairs.1 hpair with ⟨value, hmem, rfl⟩ | ⟨b, hmem, rfl⟩ | ⟨n, hmem, rfl⟩
    · exact .text hmem
    · exact .flag hmem
    · exact .number hmem (IntegerType.spells_toString rfl n.toInt)
  once := by
    have hnodup : names.Nodup := by decide
    have hsublist : (p.toPairs.map Prod.fst).Sublist names := by
      unfold toPairs
      rw [List.map_append, List.map_append]
      exact ((map_given_sublist _ p.texts).append (map_given_sublist boolText p.flags)).append
        (map_given_sublist _ p.numbers)
    exact (hnodup.sublist hsublist).sublist List.filter_sublist
  complete := by
    have hmem : ∀ {name text}, (name, text) ∈ p.toPairs → name ∈ p.toPairs.map Prod.fst :=
      List.mem_map_of_mem
    rintro name text h
    cases h with
    | text h => exact hmem (mem_toPairs.2 (Or.inl ⟨_, h, rfl⟩))
    | flag h => exact hmem (mem_toPairs.2 (Or.inr (Or.inl ⟨_, h, rfl⟩)))
    | number h htext => exact hmem (mem_toPairs.2 (Or.inr (Or.inr ⟨_, h, rfl⟩)))

/-- All parameters can be written. -/
theorem exists_writtenIn (p : ListParams) : ∃ query, p.WrittenIn query :=
  ⟨_, p.toPairs, Urlencoded.writtenPairs_escapePairs _, p.listedIn_toPairs⟩

end ListParams

namespace Server

variable {server : Server} {kind : Kind} {request : Request} {earlier : List Call}

/-! ## The calls -/

theorem listQuery_of_written {limits : Limits} {p : ListParams} {query : String}
    (h : p.WrittenIn query) :
    listQuery limits query = (p.toQuery limits).mapError .unsupportedSort := by
  unfold listQuery
  rw [ListParams.ofQueryString_of_written h]
  rfl

/-- A list that is refused sends nothing. -/
theorem handle_list_refused {failure : Failure} (hget : request.method = .get)
    (hpath : request.target.path = recordsPath kind)
    (h : listQuery server.limits request.target.query = .error failure) :
    (server.handle request earlier).1.status = failure.status ∧
      (server.handle request earlier).2 = earlier := by
  have hroute : Endpoint.ofPath? request.target.path = some (.records kind) := by
    rw [hpath, ofPath?_recordsPath]
  obtain ⟨hcalls, hstatus, -⟩ := handle_get server earlier hroute hget
  rw [hcalls, hstatus, get_records, list_of_refused h]
  exact ⟨status_response failure, rfl⟩

/-- A list that is not refused is the page that its query asks for. -/
theorem handle_list_page {q : Query} (hget : request.method = .get)
    (hpath : request.target.path = recordsPath kind)
    (h : listQuery server.limits request.target.query = .ok q) (earlier : List Call) :
    (server.handle request earlier).2 =
      (server.store.page kind q server.limits.queryTimeout earlier).2 ∧
    (server.handle request earlier).1.status =
      (respond (pageResult
        (server.store.page kind q server.limits.queryTimeout earlier).1)).status ∧
    (server.handle request earlier).1.body =
      (respond (pageResult
        (server.store.page kind q server.limits.queryTimeout earlier).1)).body := by
  have hroute : Endpoint.ofPath? request.target.path = some (.records kind) := by
    rw [hpath, ofPath?_recordsPath]
  obtain ⟨hcalls, hstatus, hbody⟩ := handle_get server earlier hroute hget
  rw [hcalls, hstatus, hbody, get_records, list_of_query h]
  exact ⟨rfl, rfl, rfl⟩

/-- A list sends the pipeline of the query that its parameters denote, however they are written, and
at most one more, which counts the matches of the same query; the answer is the page that comes of
it. A request whose parameters denote no query, or that has a truth value or an integer that is
none, is refused and sends nothing. -/
theorem lists_send_denoted_query (server : Server) (kind : Kind) (earlier : List Call) :
    (∀ p : ListParams, ∃ query, p.WrittenIn query) ∧
    ∀ request : Request, request.method = .get → request.target.path = recordsPath kind →
      (∀ p : ListParams, p.WrittenIn request.target.query →
        (∀ q, p.toQuery server.limits = .ok q →
          (∃ sent, (server.handle request earlier).2 = earlier ++ sent ∧
            (sent = [⟨kind.collection, q.pipeline kind server.store.relatedDepth⟩] ∨
              sent = [⟨kind.collection, q.pipeline kind server.store.relatedDepth⟩,
                ⟨kind.collection, q.countPipeline⟩])) ∧
          (server.handle request earlier).2 =
            (server.store.page kind q server.limits.queryTimeout earlier).2 ∧
          (server.handle request earlier).1.status =
            (respond (pageResult
              (server.store.page kind q server.limits.queryTimeout earlier).1)).status ∧
          (server.handle request earlier).1.body =
            (respond (pageResult
              (server.store.page kind q server.limits.queryTimeout earlier).1)).body) ∧
        ∀ key, p.toQuery server.limits = .error key →
          (server.handle request earlier).1.status = 400 ∧
            (server.handle request earlier).2 = earlier) ∧
      ∀ pair ∈ Urlencoded.pairs request.target.query, ListParams.Refuses pair.1 pair.2 →
        (server.handle request earlier).1.status = 400 ∧
          (server.handle request earlier).2 = earlier := by
  refine ⟨ListParams.exists_writtenIn, fun request hget hpath => ⟨fun p hwritten => ?_, ?_⟩⟩
  · have hquery : listQuery server.limits request.target.query =
        (p.toQuery server.limits).mapError .unsupportedSort := listQuery_of_written hwritten
    constructor
    · intro q hq
      rw [hq] at hquery
      obtain ⟨hcalls, hanswer⟩ := handle_list_page hget hpath hquery earlier
      refine ⟨?_, hcalls, hanswer⟩
      rw [hcalls]
      rcases Store.page_cases with ⟨e, hpage⟩ | ⟨result, hpage, -⟩
      · rw [hpage]
        exact ⟨_, rfl, Or.inl rfl⟩
      · rw [hpage]
        exact ⟨_, rfl, Or.inr rfl⟩
    · intro key hkey
      rw [hkey] at hquery
      exact handle_list_refused hget hpath hquery
  · rintro ⟨name, text⟩ hpair hrefuses
    obtain ⟨e, he⟩ := ListParams.ofQueryString_refused hpair hrefuses
    have hquery : listQuery server.limits request.target.query = .error (.queryString e) := by
      unfold listQuery
      rw [he]
      rfl
    exact handle_list_refused hget hpath hquery

/-- A request for posts: the size of the page has a sign, and there is a blank in the slug. -/
def postsByTitle : Request where
  target := ⟨"/v2/posts", "x&limit=%2B7&&slug=a+b"⟩

theorem postsByTitle_written :
    ListParams.WrittenIn { slug := some "a b", limit := some 7 } postsByTitle.target.query := by
  have hx : Urlencoded.WrittenPair ("x", "") (Utf8.ofString "x") :=
    .bare (Urlencoded.written_self rfl) (by decide)
  have hlimit : Urlencoded.WrittenPair ("limit", "+7")
      (Utf8.ofString "limit" ++ 0x3d :: [0x25, 0x32, 0x42, 0x37]) :=
    .full (Urlencoded.written_self rfl)
      (.escape rfl rfl (Urlencoded.written_self rfl))
  have hslug : Urlencoded.WrittenPair ("slug", "a b")
      (Utf8.ofString "slug" ++ 0x3d :: [0x61, 0x2b, 0x62]) :=
    .full (Urlencoded.written_self rfl)
      (.plain (by decide) (.blank (Urlencoded.written_self rfl)))
  have hwritten : Urlencoded.WrittenPairs [("x", ""), ("limit", "+7"), ("slug", "a b")]
      postsByTitle.target.query := by
    refine ⟨[Utf8.ofString "x", Utf8.ofString "limit" ++ 0x3d :: [0x25, 0x32, 0x42, 0x37], [],
      Utf8.ofString "slug" ++ 0x3d :: [0x61, 0x2b, 0x62]], rfl, ?_⟩
    show List.Forall₂ _ _ [_, _, _]
    exact .cons hx (.cons hlimit (.cons hslug .nil))
  have hseven : IntegerType.IsNumeral ['7'] := by
    refine ⟨List.cons_ne_nil _ _, fun c hc => ?_⟩
    rw [List.mem_singleton.1 hc]
    rfl
  refine ⟨_, hwritten, ?_, ?_, ?_⟩
  · rintro pair hpair hname
    simp only [List.mem_cons, List.not_mem_nil, or_false] at hpair
    rcases hpair with rfl | rfl | rfl
    · exact absurd hname (by decide)
    · exact .number (n := 7) (by simp [ListParams.numbers]) (.plus hseven)
    · exact .text (by simp [ListParams.texts])
  · decide
  · intro name text h
    cases h with
    | text h => simp_all [ListParams.texts]
    | flag h => simp [ListParams.flags] at h
    | number h htext => simp_all [ListParams.numbers]

/-- A request for topics with a size of the page that is no integer. -/
def topicsInPagesOfTen : Request where
  target := ⟨"/v2/topics", "limit=ten"⟩

theorem lists_send_denoted_query_posts :
    (∃ sent, (emptyServer.handle postsByTitle []).2 = [] ++ sent ∧
      (sent = [⟨.posts, Query.pipeline { window := ⟨0, 7⟩, filter := { slug := "a b" } } .post 1⟩] ∨
        sent = [⟨.posts, Query.pipeline { window := ⟨0, 7⟩, filter := { slug := "a b" } } .post 1⟩,
          ⟨.posts, Query.countPipeline { window := ⟨0, 7⟩, filter := { slug := "a b" } }⟩])) ∧
    (emptyServer.handle topicsInPagesOfTen []).1.status = 400 ∧
      (emptyServer.handle topicsInPagesOfTen []).2 = [] := by
  have hposts := (lists_send_denoted_query emptyServer .post []).2 postsByTitle rfl rfl
  have htopics := (lists_send_denoted_query emptyServer .topic []).2 topicsInPagesOfTen rfl rfl
  constructor
  · exact ((hposts.1 _ postsByTitle_written).1
      { window := ⟨0, 7⟩, filter := { slug := "a b" } } rfl).1
  · refine htopics.2 ("limit", "ten") (List.mem_singleton_self _) (Or.inr ⟨by decide, ?_⟩)
    intro n hspells
    have hread := (IntegerType.read_eq_ok ListParams.i64_contains_zero).2 hspells
    have hrefused : IntegerType.i64.read "ten" = .error .invalidDigit := rfl
    rw [hrefused] at hread
    cases hread

end Server

end NewsService.Http
