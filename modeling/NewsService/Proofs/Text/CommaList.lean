import Mathlib.Data.List.DropRight
import Mathlib.Data.List.Forall2
import Mathlib.Data.List.TakeWhile
import NewsService.Text.Blank

/-!
# Texts that list entries

A list can be written in many ways: with blanks around each entry, and with any number of empty or
blank pieces between the commas. Main statement: a text is read as the entries that it lists, and
entries joined by commas list themselves.
-/

namespace NewsService.Text

/-! ## Pieces and entries -/

/-- Whether a text can be an entry: it is not empty, has no comma, and neither begins nor ends with
a blank. -/
structure IsEntry (entry : String) : Prop where
  ne_empty : entry ≠ ""
  comma_free : ',' ∉ entry.toList
  head : ∀ c, entry.toList.head? = some c → isBlank c = false
  last : ∀ c, entry.toList.getLast? = some c → isBlank c = false

/-- Whether a piece is an entry with blanks around it. -/
def Surrounds (piece : List Char) (entry : String) : Prop :=
  IsEntry entry ∧ ∃ front back, piece = front ++ entry.toList ++ back ∧
    (∀ c ∈ front, isBlank c = true) ∧ ∀ c ∈ back, isBlank c = true

/-- Whether the pieces between commas hold some entries, one by one, and are blank otherwise. -/
inductive Hold : List (List Char) → List String → Prop
  | nil : Hold [] []
  | blank {piece : List Char} {pieces : List (List Char)} {entries : List String}
      (h : ∀ c ∈ piece, isBlank c = true) (hrest : Hold pieces entries) :
      Hold (piece :: pieces) entries
  | entry {piece : List Char} {entry : String} {pieces : List (List Char)} {entries : List String}
      (h : Surrounds piece entry) (hrest : Hold pieces entries) :
      Hold (piece :: pieces) (entry :: entries)

/-- Whether a text lists some entries between commas. -/
def ListsEntries (text : String) (entries : List String) : Prop :=
  ∃ pieces, text.toList = [','].intercalate pieces ∧ Hold pieces entries

/-! ## Trimming -/

variable {cs front back : List Char} {piece : List Char} {entry text : String}
  {pieces : List (List Char)} {entries : List String}

theorem trim_eq_rdropWhile (cs : List Char) :
    trim cs = (cs.dropWhile isBlank).rdropWhile isBlank := rfl

/-- Trimming takes blanks away, and nothing else. -/
theorem exists_eq_append_trim (cs : List Char) :
    ∃ front back, cs = front ++ trim cs ++ back ∧ (∀ c ∈ front, isBlank c = true) ∧
      ∀ c ∈ back, isBlank c = true := by
  refine ⟨cs.takeWhile isBlank, (cs.dropWhile isBlank).rtakeWhile isBlank, ?_,
    fun c hc => List.mem_takeWhile_imp hc, fun c hc => List.mem_rtakeWhile_imp hc⟩
  rw [trim_eq_rdropWhile, List.append_assoc, List.rdropWhile_append_rtakeWhile,
    List.takeWhile_append_dropWhile]

theorem isBlank_of_head_trim {c : Char} (h : (trim cs).head? = some c) : isBlank c = false := by
  obtain ⟨back, hback⟩ : trim cs <+: cs.dropWhile isBlank := List.rdropWhile_prefix isBlank _
  have hhead : (cs.dropWhile isBlank).head? = some c := by
    rw [← hback, List.head?_append, h]
    rfl
  have hnot := List.head?_dropWhile_not isBlank cs
  rw [hhead] at hnot
  exact hnot

theorem isBlank_of_last_trim {c : Char} (h : (trim cs).getLast? = some c) : isBlank c = false := by
  rw [trim_eq_rdropWhile] at h
  have hne : (cs.dropWhile isBlank).rdropWhile isBlank ≠ [] := by
    intro hnil
    rw [hnil] at h
    cases h
  have hnot := List.rdropWhile_last_not isBlank _ hne
  rw [List.getLast?_eq_some_getLast hne] at h
  rwa [Option.some.inj h, Bool.not_eq_true] at hnot

theorem trim_eq_nil_iff : trim cs = [] ↔ ∀ c ∈ cs, isBlank c = true := by
  rw [trim_eq_rdropWhile, List.rdropWhile_eq_nil_iff]
  constructor
  · intro h c hc
    rw [← List.takeWhile_append_dropWhile (p := isBlank) (l := cs), List.mem_append] at hc
    rcases hc with hc | hc
    · exact List.mem_takeWhile_imp hc
    · exact h c hc
  · intro h c hc
    exact h c ((List.dropWhile_suffix isBlank).subset hc)

/-- What begins and ends without blanks is found between blanks. -/
theorem trim_append (hfront : ∀ c ∈ front, isBlank c = true) (hback : ∀ c ∈ back, isBlank c = true)
    (hne : cs ≠ []) (hhead : ∀ c, cs.head? = some c → isBlank c = false)
    (hlast : ∀ c, cs.getLast? = some c → isBlank c = false) : trim (front ++ cs ++ back) = cs := by
  have hdrop : (cs ++ back).dropWhile isBlank = cs ++ back := by
    obtain ⟨c, rest, rfl⟩ := List.exists_cons_of_ne_nil hne
    rw [List.cons_append, List.dropWhile_cons_of_neg (by simp [hhead c rfl])]
  have hkeep : ∀ bs, (∀ c ∈ bs, isBlank c = true) → (cs ++ bs).rdropWhile isBlank = cs := by
    intro bs
    induction bs using List.reverseRecOn with
    | nil =>
      intro _
      rw [List.append_nil, List.rdropWhile_eq_self_iff]
      intro h
      rw [hlast _ (List.getLast?_eq_some_getLast h)]
      exact Bool.false_ne_true
    | append_singleton bs b ih =>
      intro hbs
      rw [← List.append_assoc, List.rdropWhile_concat_pos _ _ _ (hbs b (by simp))]
      exact ih fun c hc => hbs c (List.mem_append_left _ hc)
  rw [trim_eq_rdropWhile, List.append_assoc, List.dropWhile_append_of_pos hfront, hdrop,
    hkeep back hback]

/-! ## Reading -/

theorem not_mem_of_mem_splitOn {c : Char} (h : piece ∈ cs.splitOn c) : c ∉ piece := by
  rw [List.splitOn_eq_splitOnP] at h
  induction cs generalizing piece with
  | nil =>
    rw [List.splitOnP_nil, List.mem_singleton] at h
    rw [h]
    exact List.not_mem_nil
  | cons d rest ih =>
    rw [List.splitOnP_cons_eq_if_modifyHead] at h
    split at h
    · rcases List.mem_cons.1 h with rfl | h
      · exact List.not_mem_nil
      · exact ih h
    · next hd =>
      obtain ⟨first, others, hsplit⟩ :=
        List.exists_cons_of_ne_nil (List.splitOnP_ne_nil (fun x => x == c) rest)
      rw [hsplit] at h ih
      rcases List.mem_cons.1 h with rfl | h
      · rw [List.mem_cons, not_or]
        exact ⟨fun hc => hd (by simp [hc]), ih List.mem_cons_self⟩
      · exact ih (List.mem_cons_of_mem _ h)

theorem surrounds_iff (h : ',' ∉ piece) :
    Surrounds piece entry ↔ String.ofList (trim piece) = entry ∧ entry ≠ "" := by
  constructor
  · rintro ⟨hentry, front, back, rfl, hfront, hback⟩
    have hne : entry.toList ≠ [] := by
      simpa using hentry.ne_empty
    rw [trim_append hfront hback hne hentry.head hentry.last, String.ofList_toList]
    exact ⟨rfl, hentry.ne_empty⟩
  · rintro ⟨rfl, hne⟩
    obtain ⟨front, back, heq, hfront, hback⟩ := exists_eq_append_trim piece
    refine ⟨⟨hne, ?_, ?_, ?_⟩, front, back, ?_, hfront, hback⟩
    · rw [String.toList_ofList]
      intro hcomma
      rw [heq] at h
      exact h (by simp [hcomma])
    · rw [String.toList_ofList]
      exact fun c => isBlank_of_head_trim
    · rw [String.toList_ofList]
      exact fun c => isBlank_of_last_trim
    · rw [String.toList_ofList]
      exact heq

/-- Pieces hold what is left of them once they are trimmed, as far as anything is. -/
theorem hold_iff (h : ∀ piece ∈ pieces, ',' ∉ piece) :
    Hold pieces entries ↔
      (pieces.map fun piece => String.ofList (trim piece)).filter (fun entry => !entry.isEmpty) =
        entries := by
  induction pieces generalizing entries with
  | nil =>
    constructor
    · rintro ⟨⟩
      rfl
    · rintro rfl
      exact .nil
  | cons piece rest ih =>
    obtain ⟨hpiece, hrest⟩ := List.forall_mem_cons.1 h
    have hempty : String.ofList (trim piece) = "" ↔ ∀ c ∈ piece, isBlank c = true := by
      rw [← trim_eq_nil_iff, ← String.toList_inj, String.toList_ofList]
      rfl
    rw [List.map_cons]
    by_cases hblank : ∀ c ∈ piece, isBlank c = true
    · rw [List.filter_cons_of_neg (by simp [hempty.2 hblank]), ← ih hrest]
      constructor
      · intro hhold
        cases hhold with
        | blank _ hhold => exact hhold
        | entry hentry _ =>
          obtain ⟨rfl, hne⟩ := (surrounds_iff hpiece).1 hentry
          exact absurd (hempty.2 hblank) hne
      · exact .blank hblank
    · have hne := mt hempty.1 hblank
      rw [List.filter_cons_of_pos (by simp [hne])]
      constructor
      · intro hhold
        cases hhold with
        | blank hall _ => exact absurd hall hblank
        | entry hentry hhold =>
          rw [((surrounds_iff hpiece).1 hentry).1, (ih hrest).1 hhold]
      · rintro rfl
        exact .entry ((surrounds_iff hpiece).2 ⟨rfl, hne⟩) ((ih hrest).2 rfl)

theorem isEntry_of_hold (h : Hold pieces entries) : ∀ entry ∈ entries, IsEntry entry := by
  induction h with
  | nil => simp
  | blank _ _ ih => exact ih
  | entry hentry _ ih => exact List.forall_mem_cons.2 ⟨hentry.1, ih⟩

theorem not_mem_of_hold (h : Hold pieces entries) : ∀ piece ∈ pieces, ',' ∉ piece := by
  -- a comma is not a blank
  have hcomma : ∀ {cs : List Char}, (∀ c ∈ cs, isBlank c = true) → ',' ∉ cs := by
    intro cs hcs hmem
    exact absurd (hcs _ hmem) (by decide)
  induction h with
  | nil => simp
  | blank hblank _ ih => exact List.forall_mem_cons.2 ⟨hcomma hblank, ih⟩
  | entry hentry _ ih =>
    obtain ⟨hentry, front, back, rfl, hfront, hback⟩ := hentry
    refine List.forall_mem_cons.2 ⟨?_, ih⟩
    rw [List.mem_append, List.mem_append, not_or, not_or]
    exact ⟨⟨hcomma hfront, hentry.comma_free⟩, hcomma hback⟩

/-- A text is read as the entries that it lists. -/
theorem commaEntries_eq_iff : commaEntries text = entries ↔ ListsEntries text entries := by
  unfold commaEntries commaPieces
  constructor
  · intro h
    refine ⟨text.toList.splitOn ',', (List.intercalate_splitOn ',').symm, ?_⟩
    exact (hold_iff fun piece hpiece => not_mem_of_mem_splitOn hpiece).2 h
  · rintro ⟨pieces, htext, hhold⟩
    have hcommas := not_mem_of_hold hhold
    rw [htext]
    by_cases hne : pieces = []
    · subst hne
      cases hhold
      rfl
    · rw [List.splitOn_intercalate ',' hcommas hne]
      exact (hold_iff hcommas).1 hhold

theorem listsEntries_commaEntries (text : String) : ListsEntries text (commaEntries text) :=
  commaEntries_eq_iff.1 rfl

theorem isEntry_of_mem_commaEntries (h : entry ∈ commaEntries text) : IsEntry entry := by
  obtain ⟨pieces, -, hhold⟩ := listsEntries_commaEntries text
  exact isEntry_of_hold hhold entry h

/-- Entries joined by commas list themselves. -/
theorem listsEntries_join (h : ∀ entry ∈ entries, IsEntry entry) :
    ListsEntries (",".intercalate entries) entries := by
  refine ⟨entries.map String.toList, String.toList_intercalate, ?_⟩
  induction entries with
  | nil => exact .nil
  | cons entry rest ih =>
    obtain ⟨hentry, hrest⟩ := List.forall_mem_cons.1 h
    exact .entry ⟨hentry, [], [], by simp, by simp, by simp⟩ (ih hrest)

/-! ## All pieces -/

/-- Whether a piece without commas is a text with blanks around it, which neither begins nor ends
with a blank. -/
structure Wraps (piece : List Char) (inner : String) : Prop where
  comma_free : ',' ∉ piece
  blanks : ∃ front back, piece = front ++ inner.toList ++ back ∧
    (∀ c ∈ front, isBlank c = true) ∧ ∀ c ∈ back, isBlank c = true
  head : ∀ c, inner.toList.head? = some c → isBlank c = false
  last : ∀ c, inner.toList.getLast? = some c → isBlank c = false

/-- Whether some texts are what stands between the commas of a text, empty ones included. -/
def ListsPieces (text : String) (inners : List String) : Prop :=
  ∃ pieces, pieces ≠ [] ∧ text.toList = [','].intercalate pieces ∧
    List.Forall₂ Wraps pieces inners

theorem wraps_trim (h : ',' ∉ piece) : Wraps piece (String.ofList (trim piece)) where
  comma_free := h
  blanks := by
    rw [String.toList_ofList]
    exact exists_eq_append_trim piece
  head := by
    rw [String.toList_ofList]
    exact fun c => isBlank_of_head_trim
  last := by
    rw [String.toList_ofList]
    exact fun c => isBlank_of_last_trim

theorem listsPieces_commaPieces (text : String) : ListsPieces text (commaPieces text) := by
  refine ⟨text.toList.splitOn ',', List.splitOn_ne_nil ',' _,
    (List.intercalate_splitOn ',').symm, ?_⟩
  rw [commaPieces, List.forall₂_map_right_iff, List.forall₂_same]
  exact fun piece hpiece => wraps_trim (not_mem_of_mem_splitOn hpiece)

/-- A piece is trimmed to the text that it wraps, which may be empty. -/
theorem Wraps.trim_eq {inner : String} (h : Wraps piece inner) :
    String.ofList (trim piece) = inner := by
  obtain ⟨front, back, heq, hfront, hback⟩ := h.blanks
  by_cases hempty : inner.toList = []
  · have hblank : trim piece = [] := by
      rw [trim_eq_nil_iff, heq, hempty, List.append_nil]
      intro c hc
      rcases List.mem_append.1 hc with hc | hc
      · exact hfront c hc
      · exact hback c hc
    rw [hblank, ← hempty, String.ofList_toList]
  · rw [heq, trim_append hfront hback hempty h.head h.last, String.ofList_toList]

theorem comma_free_of_wraps {inners : List String} (h : List.Forall₂ Wraps pieces inners) :
    ∀ piece ∈ pieces, ',' ∉ piece := by
  induction h with
  | nil => simp
  | cons hpiece _ ih => exact List.forall_mem_cons.2 ⟨hpiece.comma_free, ih⟩

/-- What stands between the commas of a text is determined by it. -/
theorem commaPieces_eq_iff {inners : List String} :
    commaPieces text = inners ↔ ListsPieces text inners := by
  constructor
  · rintro rfl
    exact listsPieces_commaPieces text
  · rintro ⟨pieces, hne, htext, hwraps⟩
    have htrimmed : List.Forall₂ (fun piece inner => String.ofList (trim piece) = inner)
        pieces inners := hwraps.imp fun _ _ hpiece => hpiece.trim_eq
    rw [commaPieces, htext, List.splitOn_intercalate ',' (comma_free_of_wraps hwraps) hne,
      ← List.forall₂_eq_eq_eq, List.forall₂_map_left_iff]
    exact htrimmed

end NewsService.Text
