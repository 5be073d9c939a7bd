import NewsService.Text.Utf8

/-!
# Reading what was written in UTF-8

The octets of a text are read back as the text, whether reading is strict or lenient, and no octets
but none are read as the empty text.
-/

namespace NewsService.Utf8

/-! ## First octets -/

theorem lead_one {b : UInt8} (h : b.toNat < 0x80) : lead b = .whole (Char.ofNat b.toNat) := by
  unfold lead
  exact if_pos h

theorem lead_two {b : UInt8} (hlow : 0xc2 ≤ b.toNat) (hhigh : b.toNat < 0xe0) :
    lead b = .first ⟨1, b.toNat - 0xc0, 0x80, 0xbf⟩ := by
  have h₁ : ¬ b.toNat < 0x80 := by omega
  have h₂ : ¬ b.toNat < 0xc2 := by omega
  simp [lead, h₁, h₂, hhigh]

/-- The first of three octets leaves less room for the second one where that would be an overlong
form or a surrogate. -/
theorem lead_three {b : UInt8} (hlow : 0xe0 ≤ b.toNat) (hhigh : b.toNat < 0xf0) :
    lead b = .first ⟨2, b.toNat - 0xe0, if b.toNat = 0xe0 then 0xa0 else 0x80,
      if b.toNat = 0xed then 0x9f else 0xbf⟩ := by
  have h₁ : ¬ b.toNat < 0x80 := by omega
  have h₂ : ¬ b.toNat < 0xc2 := by omega
  have h₃ : ¬ b.toNat < 0xe0 := by omega
  by_cases hzero : b.toNat = 0xe0
  · simp [lead, hzero]
  · by_cases hsurrogate : b.toNat = 0xed
    · simp [lead, hsurrogate]
    · simp [lead, h₁, h₂, h₃, hzero, hsurrogate, hhigh]

theorem lead_four {b : UInt8} (hlow : 0xf0 ≤ b.toNat) (hhigh : b.toNat ≤ 0xf4) :
    lead b = .first ⟨3, b.toNat - 0xf0, if b.toNat = 0xf0 then 0x90 else 0x80,
      if b.toNat = 0xf4 then 0x8f else 0xbf⟩ := by
  have hcases : b.toNat = 0xf0 ∨ b.toNat = 0xf1 ∨ b.toNat = 0xf2 ∨ b.toNat = 0xf3 ∨
      b.toNat = 0xf4 := by omega
  rcases hcases with h | h | h | h | h <;> simp [lead, h]

/-! ## Further octets -/

section Further

variable {value low high n : Nat} {b : UInt8} (hb : b.toNat = n) (hlow : low ≤ n)
  (hhigh : n ≤ high) (rest : List UInt8)
include hb hlow hhigh

theorem decodeFrom_last :
    decodeFrom (some ⟨1, value, low, high⟩) (b :: rest) =
      some (Char.ofNat (value * 64 + (n - 0x80))) :: decodeFrom none rest := by
  subst hb
  rw [decodeFrom, if_pos ⟨hlow, hhigh⟩]
  rfl

theorem decodeFrom_next (missing : Nat) :
    decodeFrom (some ⟨missing + 2, value, low, high⟩) (b :: rest) =
      decodeFrom (some ⟨missing + 1, value * 64 + (n - 0x80), 0x80, 0xbf⟩) rest := by
  subst hb
  have hmore : ¬ missing + 2 ≤ 1 := by omega
  rw [decodeFrom, if_pos ⟨hlow, hhigh⟩]
  exact if_neg hmore

end Further

theorem toNat_octet {n : Nat} (h : n < 256) : (UInt8.ofNat n).toNat = n :=
  UInt8.toNat_ofNat_of_lt h

/-- A character that is written in front is read first. -/
theorem decodeFrom_encodeChar (c : Char) (rest : List UInt8) :
    decodeFrom none (encodeChar c ++ rest) = some c :: decodeFrom none rest := by
  have hvalid : c.toNat < 0xd800 ∨ 0xdfff < c.toNat ∧ c.toNat < 0x110000 := c.valid
  have htail : ∀ m, (UInt8.ofNat (0x80 + m % 64)).toNat = 0x80 + m % 64 := by
    intro m
    exact toNat_octet (by omega)
  unfold encodeChar
  -- one case for each number of octets; with three the bounds of the second octet depend on the
  -- first one, and the character's own bounds keep it within them
  by_cases h₁ : c.toNat < 0x80
  · have hb : (UInt8.ofNat c.toNat).toNat = c.toNat := toNat_octet (by omega)
    rw [if_pos h₁, List.singleton_append, decodeFrom, lead_one (by omega), hb, Char.ofNat_toNat]
  by_cases h₂ : c.toNat < 0x800
  · have hb : (UInt8.ofNat (0xc0 + c.toNat / 64)).toNat = 0xc0 + c.toNat / 64 :=
      toNat_octet (by omega)
    have hvalue : (0xc0 + c.toNat / 64 - 0xc0) * 64 + (0x80 + c.toNat / 1 % 64 - 0x80) =
        c.toNat := by omega
    rw [if_neg h₁, if_pos h₂, List.cons_append, List.singleton_append, decodeFrom,
      lead_two (by omega) (by omega), hb]
    dsimp only
    rw [decodeFrom_last (htail _) (by omega) (by omega), hvalue, Char.ofNat_toNat]
  by_cases h₃ : c.toNat < 0x10000
  · have hb : (UInt8.ofNat (0xe0 + c.toNat / 4096)).toNat = 0xe0 + c.toNat / 4096 :=
      toNat_octet (by omega)
    have hvalue : ((0xe0 + c.toNat / 4096 - 0xe0) * 64 + (0x80 + c.toNat / 64 % 64 - 0x80)) * 64 +
        (0x80 + c.toNat / 1 % 64 - 0x80) = c.toNat := by omega
    rw [if_neg h₁, if_neg h₂, if_pos h₃, List.cons_append, List.cons_append, List.singleton_append,
      decodeFrom, lead_three (by omega) (by omega), hb]
    dsimp only
    rw [decodeFrom_next (htail _) (by split <;> omega) (by split <;> omega),
      decodeFrom_last (htail _) (by omega) (by omega), hvalue, Char.ofNat_toNat]
  · have hb : (UInt8.ofNat (0xf0 + c.toNat / 262144)).toNat = 0xf0 + c.toNat / 262144 :=
      toNat_octet (by omega)
    have hvalue : (((0xf0 + c.toNat / 262144 - 0xf0) * 64 + (0x80 + c.toNat / 4096 % 64 - 0x80)) *
        64 + (0x80 + c.toNat / 64 % 64 - 0x80)) * 64 + (0x80 + c.toNat / 1 % 64 - 0x80) =
          c.toNat := by omega
    rw [if_neg h₁, if_neg h₂, if_neg h₃, List.cons_append, List.cons_append, List.cons_append,
      List.singleton_append, decodeFrom, lead_four (by omega) (by omega), hb]
    dsimp only
    rw [decodeFrom_next (htail _) (by split <;> omega) (by split <;> omega),
      decodeFrom_next (htail _) (by omega) (by omega),
      decodeFrom_last (htail _) (by omega) (by omega), hvalue, Char.ofNat_toNat]

/-! ## Texts -/

theorem decode_encode (cs : List Char) : decode (encode cs) = cs.map some := by
  unfold decode encode
  induction cs with
  | nil => rfl
  | cons c rest ih => rw [List.flatMap_cons, decodeFrom_encodeChar, ih, List.map_cons]

theorem toStringLossy_ofString (text : String) : toStringLossy (ofString text) = text := by
  unfold toStringLossy ofString
  rw [decode_encode, List.map_map]
  have hself : ((fun c : Option Char => c.getD (Char.ofNat 0xfffd)) ∘ some) = id := rfl
  rw [hself, List.map_id, String.ofList_toList]

theorem toString?_ofString (text : String) : toString? (ofString text) = some text := by
  have hall : ∀ cs : List Char, (cs.map some).mapM id = some cs := by
    intro cs
    induction cs with
    | nil => rfl
    | cons c rest ih => simp [ih]
  unfold toString? ofString
  rw [decode_encode, hall, Option.map_some, String.ofList_toList]

/-- What has begun is a character or a broken spot. -/
theorem decodeFrom_ne_nil {p? : Option Pending} {octets : List UInt8}
    (h : p? ≠ none ∨ octets ≠ []) : decodeFrom p? octets ≠ [] := by
  induction octets generalizing p? with
  | nil =>
    cases p? with
    | none => simp at h
    | some p => simp [decodeFrom]
  | cons octet rest ih =>
    cases p? with
    | none =>
      rw [decodeFrom]
      cases lead octet with
      | first p => exact ih (Or.inl (Option.some_ne_none p))
      | _ => exact List.cons_ne_nil _ _
    | some p =>
      rw [decodeFrom]
      split
      · dsimp only
        split
        · exact List.cons_ne_nil _ _
        · exact ih (Or.inl (Option.some_ne_none _))
      · cases lead octet <;> exact List.cons_ne_nil _ _

theorem toString?_ne_empty {octets : List UInt8} {text : String} (h : toString? octets = some text)
    (hne : octets ≠ []) : text ≠ "" := by
  unfold toString? decode at h
  obtain ⟨cs, hcs, rfl⟩ := Option.map_eq_some_iff.1 h
  have hread : decodeFrom none octets ≠ [] := decodeFrom_ne_nil (Or.inr hne)
  intro hempty
  obtain rfl : cs = [] := String.ofList_eq_empty_iff.1 hempty
  cases hlist : decodeFrom none octets with
  | nil => exact hread hlist
  | cons c? rest =>
    rw [hlist] at hcs
    cases c? <;> simp [Option.bind_eq_some_iff] at hcs

end NewsService.Utf8
