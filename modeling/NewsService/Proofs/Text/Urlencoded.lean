import Mathlib.Data.List.Forall2
import Mathlib.Data.List.TakeWhile
import NewsService.Proofs.ObjectId.Text
import NewsService.Proofs.Text.Utf8
import NewsService.Text.Urlencoded

/-!
# Written query strings and path segments

A text can be written with escapes in many ways: every octet may be escaped, in digits of either
case, and most may stand for themselves. Main statements: a path segment is read as the text that it
writes, and a query string as the pairs that it writes.
-/

namespace NewsService.Urlencoded

/-! ## Escapes -/

/-- Whether octets are written with escapes. Every octet may be escaped, and all but `%` may stand
for themselves. -/
inductive Escaped : List UInt8 → List UInt8 → Prop
  | nil : Escaped [] []
  | plain {b : UInt8} {octets written : List UInt8} (hb : b ≠ 0x25) (h : Escaped octets written) :
      Escaped (b :: octets) (b :: written)
  | escape {b high low : UInt8} {octets written : List UInt8}
      (hhigh : digitValue? high = some (b.toNat / 16))
      (hlow : digitValue? low = some (b.toNat % 16)) (h : Escaped octets written) :
      Escaped (b :: octets) (0x25 :: high :: low :: written)

theorem percentDecode_cons {b : UInt8} (hb : b ≠ 0x25) (rest : List UInt8) :
    percentDecode (b :: rest) = b :: percentDecode rest := by
  match rest with
  | [] => rfl
  | [_] => rfl
  | _ :: _ :: _ => rw [percentDecode, if_neg hb]

theorem percentDecode_escape {b high low : UInt8} (hhigh : digitValue? high = some (b.toNat / 16))
    (hlow : digitValue? low = some (b.toNat % 16)) (rest : List UInt8) :
    percentDecode (0x25 :: high :: low :: rest) = b :: percentDecode rest := by
  have hb : UInt8.ofNat (16 * (b.toNat / 16) + b.toNat % 16) = b := by
    rw [Nat.div_add_mod, UInt8.ofNat_toNat]
  rw [percentDecode, if_pos rfl, hhigh, hlow]
  dsimp only
  rw [hb]

theorem percentDecode_of_escaped {octets written : List UInt8} (h : Escaped octets written) :
    percentDecode written = octets := by
  induction h with
  | nil => rfl
  | plain hb _ ih => rw [percentDecode_cons hb, ih]
  | escape hhigh hlow _ ih => rw [percentDecode_escape hhigh hlow, ih]

/-- No octet is lost without another in its place. -/
theorem percentDecode_ne_nil {written : List UInt8} (h : written ≠ []) :
    percentDecode written ≠ [] := by
  match written with
  | [] => exact absurd rfl h
  | [_] => exact List.cons_ne_nil _ _
  | [_, _] => exact List.cons_ne_nil _ _
  | first :: high :: low :: rest =>
    rw [percentDecode]
    split
    · split <;> exact List.cons_ne_nil _ _
    · exact List.cons_ne_nil _ _

/-! ## Path segments -/

theorem segmentText?_of_escaped {segment text : String}
    (h : Escaped (Utf8.ofString text) (Utf8.ofString segment)) :
    segmentText? segment = some text := by
  unfold segmentText?
  rw [percentDecode_of_escaped h, Utf8.toString?_ofString]

theorem ofString_ne_nil {text : String} (h : text ≠ "") : Utf8.ofString text ≠ [] := by
  intro hnil
  have htext := Utf8.toStringLossy_ofString text
  rw [hnil] at htext
  exact h htext.symm

/-- A segment that is not empty does not write the empty text. -/
theorem segmentText?_ne_empty {segment text : String} (h : segmentText? segment = some text)
    (hne : segment ≠ "") : text ≠ "" :=
  Utf8.toString?_ne_empty h (percentDecode_ne_nil (ofString_ne_nil hne))

/-! ## Names and values of query strings -/

/-- Whether octets are written as a name or a value of a query string. A blank may also be `+`, and
`&`, `+`, `%` and, in a name, `=` do not stand for themselves. -/
inductive Written (inName : Bool) : List UInt8 → List UInt8 → Prop
  | nil : Written inName [] []
  | plain {b : UInt8} {octets written : List UInt8}
      (hb : b ≠ 0x25 ∧ b ≠ 0x26 ∧ b ≠ 0x2b ∧ (inName = true → b ≠ 0x3d))
      (h : Written inName octets written) : Written inName (b :: octets) (b :: written)
  | blank {octets written : List UInt8} (h : Written inName octets written) :
      Written inName (0x20 :: octets) (0x2b :: written)
  | escape {b high low : UInt8} {octets written : List UInt8}
      (hhigh : digitValue? high = some (b.toNat / 16))
      (hlow : digitValue? low = some (b.toNat % 16)) (h : Written inName octets written) :
      Written inName (b :: octets) (0x25 :: high :: low :: written)

variable {inName : Bool} {octets written : List UInt8}

theorem ne_of_digitValue? {b c : UInt8} {n : Nat} (h : digitValue? b = some n)
    (hc : digitValue? c = none) : b ≠ c := by
  rintro rfl
  rw [hc] at h
  cases h

/-- Whether an octet can stand for itself in a name or a value. -/
def standsForItself (inName : Bool) (b : UInt8) : Bool :=
  b != 0x25 && b != 0x26 && b != 0x2b && !(inName && b == 0x3d)

/-- Octets that need no escape are written as they are. -/
theorem written_self (h : octets.all (standsForItself inName) = true) :
    Written inName octets octets := by
  induction octets with
  | nil => exact .nil
  | cons b rest ih =>
    rw [List.all_cons, Bool.and_eq_true] at h
    refine .plain ?_ (ih h.2)
    cases inName <;> simpa [standsForItself, and_assoc] using h.1

theorem escaped_of_written (h : Written inName octets written) :
    Escaped octets (written.map fun b => if b = 0x2b then 0x20 else b) := by
  have hplus : digitValue? 0x2b = none := by decide
  induction h with
  | nil => exact .nil
  | plain hb _ ih =>
    rw [List.map_cons, if_neg hb.2.2.1]
    exact .plain hb.1 ih
  | blank _ ih =>
    rw [List.map_cons, if_pos rfl]
    exact .plain (by decide) ih
  | escape hhigh hlow _ ih =>
    rw [List.map_cons, List.map_cons, List.map_cons, if_neg (by decide),
      if_neg (ne_of_digitValue? hhigh hplus), if_neg (ne_of_digitValue? hlow hplus)]
    exact .escape hhigh hlow ih

theorem formText_of_written {text : String} (h : Written inName (Utf8.ofString text) written) :
    formText written = text := by
  unfold formText
  rw [percentDecode_of_escaped (escaped_of_written h), Utf8.toStringLossy_ofString]

/-- No separator stands in what is written. -/
theorem not_mem_written {b : UInt8} (hdigit : digitValue? b = none)
    (h : Written inName octets written) (hb : b = 0x26 ∨ b = 0x3d ∧ inName = true) :
    b ∉ written := by
  have hne : b ≠ 0x25 ∧ b ≠ 0x2b := by rcases hb with rfl | ⟨rfl, -⟩ <;> decide
  induction h with
  | nil => exact List.not_mem_nil
  | @plain c _ _ hc _ ih =>
    have hself : b ≠ c := by
      rcases hb with rfl | ⟨rfl, hname⟩
      · exact hc.2.1.symm
      · exact (hc.2.2.2 hname).symm
    exact List.not_mem_cons_of_ne_of_not_mem hself ih
  | blank _ ih => exact List.not_mem_cons_of_ne_of_not_mem hne.2 ih
  | escape hhigh hlow _ ih =>
    have hdigits : b ∉ _ :: _ :: _ :=
      List.not_mem_cons_of_ne_of_not_mem (ne_of_digitValue? hhigh hdigit).symm
        (List.not_mem_cons_of_ne_of_not_mem (ne_of_digitValue? hlow hdigit).symm ih)
    exact List.not_mem_cons_of_ne_of_not_mem hne.1 hdigits

/-! ## Query strings -/

/-- Whether a piece writes a pair: name and value around `=`, or a name alone for the empty
value. -/
inductive WrittenPair : String × String → List UInt8 → Prop
  | full {name value : String} {front back : List UInt8}
      (hname : Written true (Utf8.ofString name) front)
      (hvalue : Written false (Utf8.ofString value) back) :
      WrittenPair (name, value) (front ++ 0x3d :: back)
  | bare {name : String} {front : List UInt8} (hname : Written true (Utf8.ofString name) front)
      (hne : front ≠ []) : WrittenPair (name, "") front

/-- Whether a query string writes pairs, in order, in pieces between `&`. Pieces may be empty. -/
def WrittenPairs (pairs : List (String × String)) (query : String) : Prop :=
  ∃ pieces, Utf8.ofString query = [0x26].intercalate pieces ∧
    List.Forall₂ WrittenPair pairs (pieces.filter fun piece => !piece.isEmpty)

theorem cut_append {front : List UInt8} (h : 0x3d ∉ front) (back : List UInt8) :
    cut (front ++ 0x3d :: back) = (front, back) := by
  have hfront : ∀ b ∈ front, (b != 0x3d) = true := by
    intro b hb
    simp only [bne_iff_ne]
    rintro rfl
    exact h hb
  have hstop : (0x3d :: back).takeWhile (· != 0x3d) = [] := rfl
  have hrest : (0x3d :: back).dropWhile (· != 0x3d) = 0x3d :: back := rfl
  unfold cut
  rw [List.takeWhile_append_of_pos hfront, List.dropWhile_append_of_pos hfront, hstop, hrest,
    List.append_nil]
  rfl

theorem cut_bare {front : List UInt8} (h : 0x3d ∉ front) : cut front = (front, []) := by
  have hfront : ∀ b ∈ front, (b != 0x3d) = true := by
    intro b hb
    simp only [bne_iff_ne]
    rintro rfl
    exact h hb
  unfold cut
  rw [List.takeWhile_eq_self_iff.2 hfront, List.dropWhile_eq_nil_iff.2 hfront]
  rfl

/-- What a piece of a query string is read as. -/
def pairOfPiece? (piece : List UInt8) : Option (String × String) :=
  if piece.isEmpty then none else some (formText (cut piece).1, formText (cut piece).2)

theorem pairs_eq (query : String) :
    pairs query = ((Utf8.ofString query).splitOn 0x26).filterMap pairOfPiece? := rfl

variable {pair : String × String} {piece : List UInt8}

theorem pairOfPiece?_of_written (h : WrittenPair pair piece) : pairOfPiece? piece = some pair := by
  have hequals : digitValue? 0x3d = none := by decide
  unfold pairOfPiece?
  cases h with
  | @full name value front back hname hvalue =>
    have hnot : 0x3d ∉ front := not_mem_written hequals hname (Or.inr ⟨rfl, rfl⟩)
    rw [cut_append hnot, formText_of_written hname, formText_of_written hvalue]
    simp
  | bare hname hne =>
    have hnot : 0x3d ∉ piece := not_mem_written hequals hname (Or.inr ⟨rfl, rfl⟩)
    have hempty : formText [] = "" := rfl
    rw [cut_bare hnot, formText_of_written hname, hempty]
    simp [hne]

theorem not_mem_of_writtenPair (h : WrittenPair pair piece) : 0x26 ∉ piece := by
  have hamp : digitValue? 0x26 = none := by decide
  cases h with
  | full hname hvalue =>
    rw [List.mem_append, List.mem_cons]
    rintro (hfront | heq | hback)
    · exact not_mem_written hamp hname (Or.inl rfl) hfront
    · exact absurd heq (by decide)
    · exact not_mem_written hamp hvalue (Or.inl rfl) hback
  | bare hname _ => exact not_mem_written hamp hname (Or.inl rfl)

/-- A query string is read as the pairs that it writes. -/
theorem pairs_of_written {ps : List (String × String)} {query : String}
    (h : WrittenPairs ps query) : pairs query = ps := by
  obtain ⟨pieces, hquery, hpieces⟩ := h
  have hread : ∀ {ps : List (String × String)} {pieces : List (List UInt8)},
      List.Forall₂ WrittenPair ps (pieces.filter fun piece => !piece.isEmpty) →
        pieces.filterMap pairOfPiece? = ps := by
    intro ps pieces hpieces
    induction pieces generalizing ps with
    | nil => rw [List.forall₂_nil_right_iff.1 hpieces, List.filterMap_nil]
    | cons piece rest ih =>
      cases piece with
      | nil => exact ih hpieces
      | cons b bs =>
        rw [List.filter_cons_of_pos (by simp), List.forall₂_cons_right_iff] at hpieces
        obtain ⟨pair, ps, hpair, hrest, rfl⟩ := hpieces
        rw [List.filterMap_cons_some (pairOfPiece?_of_written hpair), ih hrest]
  have hsplit : (Utf8.ofString query).splitOn 0x26 = pieces ∨
      pieces = [] ∧ (Utf8.ofString query).splitOn 0x26 = [[]] := by
    rw [hquery]
    by_cases hnone : pieces = []
    · subst hnone
      exact Or.inr ⟨rfl, rfl⟩
    · refine Or.inl (List.splitOn_intercalate 0x26 (fun piece hpiece => ?_) hnone)
      cases piece with
      | nil => exact List.not_mem_nil
      | cons b bs =>
        have hmem : b :: bs ∈ pieces.filter fun piece => !piece.isEmpty :=
          List.mem_filter.2 ⟨hpiece, by simp⟩
        obtain ⟨i, hi, hget⟩ := List.getElem_of_mem hmem
        have hpair := hpieces.get (hpieces.length_eq ▸ hi) hi
        rw [List.get_eq_getElem, List.get_eq_getElem, hget] at hpair
        exact not_mem_of_writtenPair hpair
  rw [pairs_eq]
  rcases hsplit with hsplit | ⟨rfl, hsplit⟩
  · rw [hsplit, hread hpieces]
  · rw [hsplit, ← hread hpieces]
    rfl

/-! ## Escaping everything -/

/-- Octets with an escape for each. -/
def escapeAll (octets : List UInt8) : List Char :=
  octets.flatMap fun b => ['%', Hex.digit (b.toNat / 16), Hex.digit (b.toNat % 16)]

/-- A piece of a query string in which all but `=` is escaped. -/
def escapePair (pair : String × String) : List Char :=
  escapeAll (Utf8.ofString pair.1) ++ '=' :: escapeAll (Utf8.ofString pair.2)

/-- A query string in which all but its separators is escaped. -/
def escapePairs (pairs : List (String × String)) : String :=
  String.ofList (['&'].intercalate (pairs.map escapePair))

/-- The octets of characters below 128. -/
def asciiOctets (cs : List Char) : List UInt8 :=
  cs.map fun c => UInt8.ofNat c.toNat

theorem ofString_ascii {cs : List Char} (h : ∀ c ∈ cs, c.toNat < 0x80) :
    Utf8.ofString (String.ofList cs) = asciiOctets cs := by
  unfold Utf8.ofString Utf8.encode asciiOctets
  rw [String.toList_ofList]
  induction cs with
  | nil => rfl
  | cons c rest ih =>
    obtain ⟨hc, hrest⟩ := List.forall_mem_cons.1 h
    have hchar : Utf8.encodeChar c = [UInt8.ofNat c.toNat] := by
      unfold Utf8.encodeChar
      exact if_pos hc
    rw [List.flatMap_cons, hchar, ih hrest, List.map_cons, List.singleton_append]

theorem digit_ascii : ∀ n < 16, (Hex.digit n).toNat < 0x80 := by decide

theorem digitValue?_digit : ∀ n < 16, digitValue? (UInt8.ofNat (Hex.digit n).toNat) = some n := by
  decide

theorem escapeAll_ascii (octets : List UInt8) : ∀ c ∈ escapeAll octets, c.toNat < 0x80 := by
  intro c hc
  obtain ⟨b, -, hc⟩ := List.mem_flatMap.1 hc
  have hb : b.toNat < 256 := b.toNat_lt
  simp only [List.mem_cons, List.not_mem_nil, or_false] at hc
  rcases hc with rfl | rfl | rfl
  · decide
  · exact digit_ascii _ (by omega)
  · exact digit_ascii _ (by omega)

theorem written_escapeAll (inName : Bool) (octets : List UInt8) :
    Written inName octets (asciiOctets (escapeAll octets)) := by
  induction octets with
  | nil => exact .nil
  | cons b rest ih =>
    have hb : b.toNat < 256 := b.toNat_lt
    exact .escape (digitValue?_digit _ (by omega)) (digitValue?_digit _ (by omega)) ih

theorem escapePair_ascii (pair : String × String) : ∀ c ∈ escapePair pair, c.toNat < 0x80 := by
  intro c hc
  rcases List.mem_append.1 hc with hc | hc
  · exact escapeAll_ascii _ c hc
  · rcases List.mem_cons.1 hc with rfl | hc
    · decide
    · exact escapeAll_ascii _ c hc

theorem writtenPair_escapePair (pair : String × String) :
    WrittenPair pair (asciiOctets (escapePair pair)) := by
  have hpiece : asciiOctets (escapePair pair) =
      asciiOctets (escapeAll (Utf8.ofString pair.1)) ++
        0x3d :: asciiOctets (escapeAll (Utf8.ofString pair.2)) := by
    unfold asciiOctets escapePair
    rw [List.map_append, List.map_cons]
    rfl
  rw [hpiece]
  exact .full (written_escapeAll true _) (written_escapeAll false _)

/-- What stands in joined lists is the separator or stands in one of them. -/
theorem forall_mem_intercalate {α : Type} {P : α → Prop} {sep : α} {lists : List (List α)}
    (hsep : P sep) (h : ∀ l ∈ lists, ∀ a ∈ l, P a) : ∀ a ∈ [sep].intercalate lists, P a := by
  induction lists with
  | nil => exact fun a ha => absurd ha List.not_mem_nil
  | cons l rest ih =>
    obtain ⟨hl, hrest⟩ := List.forall_mem_cons.1 h
    cases rest with
    | nil => rwa [List.intercalate_singleton]
    | cons next more =>
      rw [List.intercalate_cons_cons]
      intro a ha
      rcases List.mem_append.1 ha with ha | ha
      · rcases List.mem_append.1 ha with ha | ha
        · exact hl a ha
        · rw [List.mem_singleton.1 ha]
          exact hsep
      · exact ih hrest a ha

theorem asciiOctets_intercalate (lists : List (List Char)) :
    asciiOctets (['&'].intercalate lists) = [0x26].intercalate (lists.map asciiOctets) := by
  unfold asciiOctets
  induction lists with
  | nil => rfl
  | cons l rest ih =>
    cases rest with
    | nil => rw [List.map_singleton, List.intercalate_singleton, List.intercalate_singleton]
    | cons next more =>
      rw [List.intercalate_cons_cons, List.map_append, List.map_append, ih]
      exact List.intercalate_cons_cons.symm

/-- All pairs can be written. -/
theorem writtenPairs_escapePairs (ps : List (String × String)) :
    WrittenPairs ps (escapePairs ps) := by
  refine ⟨ps.map fun pair => asciiOctets (escapePair pair), ?_, ?_⟩
  · have hascii : ∀ c ∈ ['&'].intercalate (ps.map escapePair), c.toNat < 0x80 := by
      refine forall_mem_intercalate (by decide) fun piece hpiece => ?_
      obtain ⟨pair, -, rfl⟩ := List.mem_map.1 hpiece
      exact escapePair_ascii pair
    unfold escapePairs
    rw [ofString_ascii hascii, asciiOctets_intercalate, List.map_map]
    rfl
  · have hne : ∀ piece ∈ ps.map fun pair => asciiOctets (escapePair pair),
        (!piece.isEmpty) = true := by
      intro piece hpiece
      obtain ⟨pair, -, rfl⟩ := List.mem_map.1 hpiece
      simp [asciiOctets, escapePair]
    rw [List.filter_eq_self.2 hne, List.forall₂_map_right_iff, List.forall₂_same]
    exact fun pair _ => writtenPair_escapePair pair

end NewsService.Urlencoded
