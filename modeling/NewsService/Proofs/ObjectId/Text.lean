import Mathlib.Data.List.Forall2
import NewsService.ObjectId

/-!
# Texts of identifiers

A text denotes an identifier when it is the written form of the identifier up to the case of its
digits. Main statement: reading a text gives the identifier that it denotes, and the texts that
denote one are those of twenty-four hexadecimal digits.
-/

namespace NewsService

/-! ## Digits -/

namespace Hex

theorem toNat_toLower (c : Char) :
    c.toLower.toNat = if 65 ≤ c.toNat ∧ c.toNat ≤ 90 then c.toNat + 32 else c.toNat := by
  have hge : c.val ≥ 'A'.val ↔ 65 ≤ c.toNat := Iff.rfl
  have hle : c.val ≤ 'Z'.val ↔ c.toNat ≤ 90 := Iff.rfl
  by_cases h : 65 ≤ c.toNat ∧ c.toNat ≤ 90
  · have hc : c.val.toNat ≤ 90 := h.2
    have hlower : c.toLower = ⟨c.val + 32, _⟩ := dif_pos ⟨hge.2 h.1, hle.2 h.2⟩
    rw [if_pos h, hlower]
    change (c.val + 32).toNat = c.val.toNat + 32
    rw [UInt32.toNat_add]
    simp only [UInt32.reduceToNat]
    omega
  · have hlower : c.toLower = c := dif_neg (by rwa [hge, hle])
    rw [if_neg h, hlower]

theorem toNat_digit : ∀ n < 16, (digit n).toNat = if n < 10 then 48 + n else 87 + n := by
  decide

/-- A digit of either case has the value that its lowercase form is written for. -/
theorem digitValue?_eq_some {c : Char} {n : Nat} :
    digitValue? c = some n ↔ n < 16 ∧ c.toLower = digit n := by
  have hle : ∀ a b : Char, a ≤ b ↔ a.toNat ≤ b.toNat := fun _ _ => Iff.rfl
  have hdigit : n < 16 ∧ c.toLower = digit n ↔
      n < 16 ∧ c.toLower.toNat = if n < 10 then 48 + n else 87 + n := by
    constructor
    · rintro ⟨hn, h⟩
      rw [h, toNat_digit n hn]
      exact ⟨hn, rfl⟩
    · rintro ⟨hn, h⟩
      rw [← toNat_digit n hn, Char.toNat_inj] at h
      exact ⟨hn, h⟩
  rw [hdigit, toNat_toLower]
  simp only [digitValue?, hle, Char.reduceToNat]
  grind

theorem encode_cons (b : UInt8) (rest : List UInt8) :
    encode (b :: rest) = digit (b.toNat / 16) :: digit (b.toNat % 16) :: encode rest := rfl

theorem length_encode (octets : List UInt8) : (encode octets).length = 2 * octets.length := by
  induction octets with
  | nil => rfl
  | cons b rest ih =>
    rw [encode_cons, List.length_cons, List.length_cons, ih, List.length_cons]
    omega

/-- Reading undoes writing, up to the case of digits. -/
theorem decode?_eq_some {cs : List Char} {octets : List UInt8} :
    decode? cs = some octets ↔ cs.map Char.toLower = encode octets := by
  induction cs using decode?.induct generalizing octets with
  | case1 =>
    cases octets <;> simp [decode?, encode]
  | case2 c =>
    have hlength := length_encode octets
    constructor
    · intro h
      cases h
    · intro h
      rw [← h] at hlength
      simp only [List.map_cons, List.map_nil, List.length_cons, List.length_nil] at hlength
      omega
  | case3 high low rest ih =>
    constructor
    · intro h
      obtain ⟨m, hm, h⟩ := Option.bind_eq_some_iff.1 h
      obtain ⟨n, hn, h⟩ := Option.bind_eq_some_iff.1 h
      obtain ⟨os, hos, h⟩ := Option.bind_eq_some_iff.1 h
      obtain rfl := Option.some.inj h
      obtain ⟨hm16, hhigh⟩ := digitValue?_eq_some.1 hm
      obtain ⟨hn16, hlow⟩ := digitValue?_eq_some.1 hn
      have hvalue : (UInt8.ofNat (16 * m + n)).toNat = 16 * m + n :=
        UInt8.toNat_ofNat_of_lt (Nat.lt_of_lt_of_le (by omega) (by decide : 256 ≤ UInt8.size))
      have hhalves : (16 * m + n) / 16 = m ∧ (16 * m + n) % 16 = n := by omega
      rw [encode_cons, hvalue, hhalves.1, hhalves.2, ← ih.1 hos, List.map_cons, List.map_cons,
        hhigh, hlow]
    · intro h
      cases octets with
      | nil => cases h
      | cons b os =>
        rw [encode_cons, List.map_cons, List.map_cons, List.cons.injEq, List.cons.injEq] at h
        obtain ⟨hhigh, hlow, hrest⟩ := h
        have hb : b.toNat < 256 := b.toNat_lt
        have hm : digitValue? high = some (b.toNat / 16) :=
          digitValue?_eq_some.2 ⟨by omega, hhigh⟩
        have hn : digitValue? low = some (b.toNat % 16) := digitValue?_eq_some.2 ⟨by omega, hlow⟩
        have hvalue : UInt8.ofNat (16 * (b.toNat / 16) + b.toNat % 16) = b := by
          rw [Nat.div_add_mod, UInt8.ofNat_toNat]
        rw [decode?, hm, hn, ih.2 hrest]
        exact congrArg (fun octet => some (octet :: os)) hvalue

/-- Pairs of digits, and nothing else, stand for octets. -/
theorem exists_decode? {cs : List Char} :
    (∃ octets, decode? cs = some octets) ↔
      cs.length % 2 = 0 ∧ ∀ c ∈ cs, isDigit c = true := by
  induction cs using decode?.induct with
  | case1 => simp [decode?]
  | case2 c => simp [decode?]
  | case3 high low rest ih =>
    have hlength : (high :: low :: rest).length % 2 = rest.length % 2 := by
      rw [List.length_cons, List.length_cons]
      omega
    rw [hlength, List.forall_mem_cons, List.forall_mem_cons, isDigit, isDigit, decode?]
    cases digitValue? high with
    | none => simp
    | some h =>
      cases digitValue? low with
      | none => simp
      | some l =>
        simp only [Option.isSome_some, true_and, ← ih]
        cases decode? rest <;> simp

/-- Octets are written in lowercase. -/
theorem map_toLower_encode (octets : List UInt8) :
    (encode octets).map Char.toLower = encode octets := by
  have hdigit : ∀ n < 16, (digit n).toLower = digit n := by decide
  induction octets with
  | nil => rfl
  | cons b rest ih =>
    have hb : b.toNat < 256 := b.toNat_lt
    rw [encode_cons, List.map_cons, List.map_cons, ih, hdigit _ (by omega), hdigit _ (by omega)]

theorem length_of_decode? {cs : List Char} {octets : List UInt8} (h : decode? cs = some octets) :
    cs.length = 2 * octets.length := by
  rw [← length_encode, ← decode?_eq_some.1 h, List.length_map]

theorem toNat_lt_of_isDigit {c : Char} (h : isDigit c = true) : c.toNat < 0x80 := by
  obtain ⟨n, hn⟩ := Option.isSome_iff_exists.1 h
  obtain ⟨hn16, hlower⟩ := digitValue?_eq_some.1 hn
  have hvalue := congrArg Char.toNat hlower
  rw [toNat_toLower, toNat_digit n hn16] at hvalue
  split at hvalue <;> split at hvalue <;> omega

end Hex

namespace ObjectId

/-! ## Octets of a text -/

/-- The characters that stand for octets. -/
theorem toNat_ofNat_octet (b : UInt8) : (Char.ofNat b.toNat).toNat = b.toNat := by
  have hvalid : Nat.isValidChar b.toNat := Or.inl (Nat.lt_trans b.toNat_lt (by decide))
  rw [Char.ofNat, dif_pos hvalid]
  rfl

/-- A character below 128 is its own octet. -/
theorem encodeChar_ascii {c : Char} (h : c.toNat < 0x80) :
    (Utf8.encodeChar c).map (fun b => Char.ofNat b.toNat) = [c] := by
  have hvalue : (UInt8.ofNat c.toNat).toNat = c.toNat :=
    UInt8.toNat_ofNat_of_lt (Nat.lt_trans h (by decide))
  simp [Utf8.encodeChar, h, hvalue]

/-- Any other character begins with an octet from 128 on. -/
theorem exists_octet_of_not_ascii {c : Char} (h : ¬ c.toNat < 0x80) :
    ∃ b ∈ Utf8.encodeChar c, 0x80 ≤ b.toNat := by
  have hc : c.toNat < 0x110000 := by
    rcases c.valid with hvalid | ⟨-, hvalid⟩
    · exact Nat.lt_trans hvalid (by decide)
    · exact hvalid
  have hvalue : ∀ n, 0x80 ≤ n → n < 256 → 0x80 ≤ (UInt8.ofNat n).toNat := by
    intro n hlow hhigh
    rw [UInt8.toNat_ofNat', Nat.mod_eq_of_lt hhigh]
    exact hlow
  rw [Utf8.encodeChar, if_neg h]
  split
  · exact ⟨_, List.mem_cons_self, hvalue _ (by omega) (by omega)⟩
  · split
    · exact ⟨_, List.mem_cons_self, hvalue _ (by omega) (by omega)⟩
    · exact ⟨_, List.mem_cons_self, hvalue _ (by omega) (by omega)⟩

/-- Texts whose characters, or whose octets, are all digits are their own octets. -/
theorem octetCharacters_of_digits {text : String}
    (h : (∀ c ∈ text.toList, Hex.isDigit c = true) ∨
      ∀ c ∈ octetCharacters text, Hex.isDigit c = true) :
    octetCharacters text = text.toList := by
  have hascii : ∀ c ∈ text.toList, c.toNat < 0x80 := by
    intro c hc
    rcases h with h | h
    · exact Hex.toNat_lt_of_isDigit (h c hc)
    · refine Decidable.byContradiction fun hnot => ?_
      obtain ⟨b, hb, hlow⟩ := exists_octet_of_not_ascii hnot
      have hmem : Char.ofNat b.toNat ∈ octetCharacters text :=
        List.mem_map.2 ⟨b, List.mem_flatMap.2 ⟨c, hc, hb⟩, rfl⟩
      have hsmall := Hex.toNat_lt_of_isDigit (h _ hmem)
      rw [toNat_ofNat_octet] at hsmall
      omega
  rw [octetCharacters, Utf8.ofString, Utf8.encode]
  generalize text.toList = cs at hascii
  induction cs with
  | nil => rfl
  | cons c rest ih =>
    rw [List.flatMap_cons, List.map_append, encodeChar_ascii (hascii c List.mem_cons_self),
      ih fun c hc => hascii c (List.mem_cons_of_mem _ hc)]
    rfl

/-! ## Identifiers -/

/-- Whether a text is well formed: twenty-four hexadecimal digits of either case. -/
def isWellFormed (text : String) : Bool :=
  decide (text.toList.length = 24) && text.toList.all Hex.isDigit

/-- Whether a text denotes an identifier: in lowercase it is the text of the identifier. -/
def Denotes (text : String) (id : ObjectId) : Prop :=
  text.toList.map Char.toLower = id.text.toList

/-- Whether the well-formed ones among some texts denote the identifiers of a list, one by one. -/
def DenoteList (texts : List String) (ids : List ObjectId) : Prop :=
  List.Forall₂ Denotes (texts.filter isWellFormed) ids

theorem denotes_iff {text : String} {id : ObjectId} :
    Denotes text id ↔ Hex.decode? text.toList = some id.octets := by
  rw [Denotes, ObjectId.text, String.toList_ofList, Hex.decode?_eq_some]

/-- The well-formed texts are those that denote an identifier. -/
theorem isWellFormed_iff {text : String} : isWellFormed text = true ↔ ∃ id, Denotes text id := by
  rw [isWellFormed, Bool.and_eq_true, decide_eq_true_iff, List.all_eq_true]
  constructor
  · rintro ⟨hlength, hdigits⟩
    obtain ⟨octets, hoctets⟩ := Hex.exists_decode?.2 ⟨by rw [hlength], hdigits⟩
    have htwelve := Hex.length_of_decode? hoctets
    exact ⟨⟨octets, by omega⟩, denotes_iff.2 hoctets⟩
  · rintro ⟨id, h⟩
    rw [denotes_iff] at h
    have hlength := Hex.length_of_decode? h
    exact ⟨by rw [hlength, id.length_eq], (Hex.exists_decode?.1 ⟨_, h⟩).2⟩

theorem ofOctets?_eq_some {octets : List UInt8} {id : ObjectId} :
    ofOctets? octets = some id ↔ octets = id.octets := by
  rw [ofOctets?]
  split
  · rw [Option.some.injEq]
    constructor
    · rintro rfl
      rfl
    · rintro rfl
      rfl
  · next h =>
    constructor
    · intro hnone
      cases hnone
    · rintro rfl
      exact absurd id.length_eq h

/-- What reading a text finds is what its octets spell. -/
theorem ofText?_eq (text : String) :
    ofText? text = (Hex.decode? (octetCharacters text)).bind ofOctets? := by
  have hrefused : ∀ h : ¬ ∃ octets, Hex.decode? (octetCharacters text) = some octets,
      Hex.decode? (octetCharacters text) = none := by
    intro h
    rwa [Option.eq_none_iff_forall_ne_some, ← not_exists]
  rw [ofText?, ofText]
  split
  · next hodd =>
    have hnone := hrefused fun h => by
      have heven := (Hex.exists_decode?.1 h).1
      omega
    rw [hnone]
    rfl
  · split
    · next c index hfind =>
      have hc : c ∈ octetCharacters text ∧ Hex.isDigit c = false := by
        have hmem := List.mem_of_find?_eq_some hfind
        have hbad := List.find?_some hfind
        exact ⟨List.fst_mem_of_mem_zipIdx hmem, by simpa using hbad⟩
      have hnone := hrefused fun h => by
        have hgood := (Hex.exists_decode?.1 h).2 c hc.1
        rw [hc.2] at hgood
        cases hgood
      rw [hnone]
      rfl
    · cases (Hex.decode? (octetCharacters text)).bind ofOctets? <;> rfl

/-- A text is read as the identifier that it denotes, and any other text is refused. -/
theorem ofText?_eq_some {text : String} {id : ObjectId} :
    ofText? text = some id ↔ Denotes text id := by
  rw [ofText?_eq, denotes_iff]
  simp only [Option.bind_eq_some_iff, ofOctets?_eq_some, exists_eq_right]
  constructor
  · intro h
    rwa [octetCharacters_of_digits (Or.inr (Hex.exists_decode?.1 ⟨_, h⟩).2)] at h
  · intro h
    rwa [octetCharacters_of_digits (Or.inl (Hex.exists_decode?.1 ⟨_, h⟩).2)]

/-- An identifier is read from its own text. -/
theorem ofText_text (id : ObjectId) : ofText id.text = .ok id := by
  have hdenotes : Denotes id.text id := by
    unfold Denotes text
    rw [String.toList_ofList, Hex.map_toLower_encode]
  have hread := ofText?_eq_some.2 hdenotes
  unfold ofText? at hread
  cases hresult : ofText id.text with
  | error e =>
    rw [hresult] at hread
    cases hread
  | ok found =>
    rw [hresult] at hread
    rw [Option.some.inj hread]

theorem mem_ofTexts {texts : List String} {id : ObjectId} :
    id ∈ ofTexts texts ↔ ∃ text ∈ texts, Denotes text id := by
  simp only [ofTexts, List.mem_filterMap, ofText?_eq_some]

/-- Reading a list of texts gives the identifiers that its well-formed texts denote. -/
theorem denoteList_iff {texts : List String} {ids : List ObjectId} :
    DenoteList texts ids ↔ ids = ofTexts texts := by
  rw [DenoteList]
  induction texts generalizing ids with
  | nil => exact List.forall₂_nil_left_iff
  | cons text rest ih =>
    cases hread : ofText? text with
    | none =>
      have hbad : ¬ isWellFormed text = true := by
        rw [isWellFormed_iff]
        rintro ⟨id, hid⟩
        rw [ofText?_eq_some.2 hid] at hread
        cases hread
      rw [List.filter_cons_of_neg hbad, ih, ofTexts, ofTexts, List.filterMap_cons_none hread]
    | some id =>
      have hid := ofText?_eq_some.1 hread
      rw [List.filter_cons_of_pos (isWellFormed_iff.2 ⟨id, hid⟩), List.forall₂_cons_left_iff,
        ofTexts, List.filterMap_cons_some hread]
      constructor
      · rintro ⟨other, ids', hother, hrest, rfl⟩
        have hsame : other = id := Option.some.inj ((ofText?_eq_some.2 hother).symm.trans hread)
        rw [hsame, ih.1 hrest, ofTexts]
      · rintro rfl
        exact ⟨id, _, hid, ih.2 rfl, rfl⟩

end ObjectId

end NewsService
