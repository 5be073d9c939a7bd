import NewsService.Proofs.Config.Bounds

/-!
# Reading integers

A text is read as an integer of a type when it spells the integer, with as many leading zeros as it
likes, and the integer lies in the range of the type. Every other text is refused.
-/

namespace NewsService.IntegerType

/-- The integer that a sign and a magnitude stand for. -/
def withSign (negative : Bool) (magnitude : Nat) : Int :=
  if negative then -magnitude else magnitude

/-- One or more digits. -/
def IsNumeral (cs : List Char) : Prop :=
  cs ≠ [] ∧ ∀ c ∈ cs, c.isDigit = true

/-- Whether a text spells an integer: in digits, behind a sign if there is one. Only a signed type
has a minus sign. -/
inductive Spells (t : IntegerType) : List Char → Int → Prop
  | bare {digits : List Char} (h : IsNumeral digits) :
      Spells t digits (withSign false (Nat.ofDigitChars 10 digits 0))
  | plus {digits : List Char} (h : IsNumeral digits) :
      Spells t ('+' :: digits) (withSign false (Nat.ofDigitChars 10 digits 0))
  | minus {digits : List Char} (h : IsNumeral digits) (hsigned : t.signed = true) :
      Spells t ('-' :: digits) (withSign true (Nat.ofDigitChars 10 digits 0))

variable {t : IntegerType} {n : Int}

/-! ## Digits -/

theorem le_ofDigitChars (cs : List Char) (m : Nat) : m ≤ Nat.ofDigitChars 10 cs m := by
  have h : 1 ≤ 10 ^ cs.length := Nat.one_le_pow _ _ (by decide)
  have hmul : 1 * m ≤ 10 ^ cs.length * m := Nat.mul_le_mul_right m h
  rw [Nat.ofDigitChars_eq_ofDigitChars_zero]
  omega

theorem withSign_next {c : Char} (hc : c.isDigit = true) (negative : Bool) (m : Nat) :
    (if negative then withSign negative m * 10 - ((c.toNat : Int) - 48)
      else withSign negative m * 10 + ((c.toNat : Int) - 48)) =
      withSign negative (10 * m + (c.toNat - '0'.toNat)) := by
  have hlow : 48 ≤ c.toNat := by
    simp only [Char.isDigit, Bool.and_eq_true, decide_eq_true_eq] at hc
    exact hc.1
  have hzero : '0'.toNat = 48 := rfl
  cases negative
  · simp only [withSign, Bool.false_eq_true, if_false]
    omega
  · simp only [withSign, if_true]
    omega

/-- With more digits a value only leaves a range that holds zero. -/
theorem contains_of_contains_ofDigitChars (hzero : t.Contains 0) {negative : Bool} {m : Nat}
    {cs : List Char} (h : t.Contains (withSign negative (Nat.ofDigitChars 10 cs m))) :
    t.Contains (withSign negative m) := by
  have hle := le_ofDigitChars cs m
  obtain ⟨hleast, hgreatest⟩ := hzero
  cases negative
  · simp only [Contains, withSign, Bool.false_eq_true, if_false] at h ⊢
    omega
  · simp only [Contains, withSign, if_true] at h ⊢
    omega

theorem readDigits_eq_ok (hzero : t.Contains 0) {negative : Bool} {m : Nat} {cs : List Char}
    (hm : t.Contains (withSign negative m)) :
    t.readDigits negative (withSign negative m) cs = .ok n ↔
      (∀ c ∈ cs, c.isDigit = true) ∧ n = withSign negative (Nat.ofDigitChars 10 cs m) ∧
        t.Contains n := by
  induction cs generalizing m with
  | nil =>
    rw [readDigits, Nat.ofDigitChars_nil]
    constructor
    · intro h
      obtain rfl := Except.ok.inj h
      exact ⟨by simp, rfl, hm⟩
    · rintro ⟨-, rfl, -⟩
      rfl
  | cons c rest ih =>
    rw [readDigits, Nat.ofDigitChars_cons, List.forall_mem_cons]
    by_cases hc : c.isDigit = true
    · rw [if_pos hc]
      dsimp only
      rw [withSign_next hc]
      by_cases hnext : t.Contains (withSign negative (10 * m + (c.toNat - '0'.toNat)))
      · rw [if_neg (Int.not_lt.2 hnext.2), if_neg (Int.not_lt.2 hnext.1), ih hnext]
        simp only [hc, true_and]
      · -- the value has left the range, and no further digit brings it back
        constructor
        · intro h
          split at h
          · cases h
          · next hgreatest =>
            split at h
            · cases h
            · next hleast => exact absurd ⟨Int.not_lt.1 hleast, Int.not_lt.1 hgreatest⟩ hnext
        · rintro ⟨-, rfl, hn⟩
          exact absurd (contains_of_contains_ofDigitChars hzero hn) hnext
    · rw [if_neg hc]
      constructor
      · intro h
        cases h
      · rintro ⟨⟨hdigit, -⟩, -⟩
        exact absurd hdigit hc

theorem readMagnitude_eq_ok (hzero : t.Contains 0) {negative : Bool} {cs : List Char} :
    t.readMagnitude negative cs = .ok n ↔
      IsNumeral cs ∧ n = withSign negative (Nat.ofDigitChars 10 cs 0) ∧ t.Contains n := by
  have hstart : withSign negative 0 = 0 := by cases negative <;> rfl
  cases cs with
  | nil =>
    constructor
    · intro h
      cases h
    · rintro ⟨⟨hne, -⟩, -⟩
      exact absurd rfl hne
  | cons c rest =>
    have hin : t.Contains (withSign negative 0) := by rwa [hstart]
    show t.readDigits negative 0 (c :: rest) = .ok n ↔ _
    rw [← hstart, readDigits_eq_ok hzero hin, IsNumeral]
    simp

/-! ## Texts -/

theorem IsNumeral.head_ne {c : Char} {cs : List Char} (h : IsNumeral (c :: cs)) :
    c ≠ '+' ∧ c ≠ '-' := by
  have hc := h.2 c List.mem_cons_self
  constructor
  · rintro rfl
    exact absurd hc (by decide)
  · rintro rfl
    exact absurd hc (by decide)

/-- A text is read as the integer that it spells, if the type has it. -/
theorem read_eq_ok (hzero : t.Contains 0) {text : String} :
    t.read text = .ok n ↔ t.Spells text.toList n ∧ t.Contains n := by
  unfold read
  generalize text.toList = cs
  split
  · constructor
    · intro h
      cases h
    · rintro ⟨hspells, -⟩
      cases hspells with
      | bare h => exact absurd rfl h.1
  · next digits =>
    rw [readMagnitude_eq_ok hzero]
    constructor
    · rintro ⟨hdigits, rfl, hn⟩
      exact ⟨.plus hdigits, hn⟩
    · rintro ⟨hspells, hn⟩
      cases hspells with
      | bare h => exact absurd rfl h.head_ne.1
      | plus h => exact ⟨h, rfl, hn⟩
  · next digits =>
    have hminus : t.Spells ('-' :: digits) n ↔
        t.signed = true ∧ IsNumeral digits ∧ n = withSign true (Nat.ofDigitChars 10 digits 0) := by
      constructor
      · intro hspells
        cases hspells with
        | bare h => exact absurd rfl h.head_ne.2
        | minus h hsigned => exact ⟨hsigned, h, rfl⟩
      · rintro ⟨hsigned, h, rfl⟩
        exact .minus h hsigned
    rw [hminus]
    by_cases hsigned : t.signed = true
    · rw [if_pos hsigned, readMagnitude_eq_ok hzero]
      simp only [hsigned, true_and, and_assoc]
    · rw [if_neg hsigned]
      constructor
      · intro h
        cases h
      · rintro ⟨⟨h, -⟩, -⟩
        exact absurd h hsigned
  · next hempty hplus hminus =>
    rw [readMagnitude_eq_ok hzero]
    constructor
    · rintro ⟨hdigits, rfl, hn⟩
      exact ⟨.bare hdigits, hn⟩
    · rintro ⟨hspells, hn⟩
      cases hspells with
      | bare h => exact ⟨h, rfl, hn⟩
      | plus h => exact absurd rfl (hplus _)
      | minus h => exact absurd rfl (hminus _)

/-- Every integer is spelled by its decimal text. -/
theorem spells_toString (hsigned : t.signed = true) (n : Int) : t.Spells (toString n).toList n := by
  have hnumeral : ∀ m : Nat, IsNumeral (Nat.toDigits 10 m) := by
    intro m
    exact ⟨Nat.toDigits_ne_nil, fun c hc => Nat.isDigit_of_mem_toDigits (by decide) (by decide) hc⟩
  cases n with
  | ofNat m =>
    have hbare := Spells.bare (t := t) (hnumeral m)
    rw [Nat.ofDigitChars_ten_toDigits] at hbare
    have htext : (toString (Int.ofNat m)).toList = Nat.toDigits 10 m := by
      show (Nat.repr m).toList = _
      exact Nat.toList_repr
    rw [htext]
    exact hbare
  | negSucc m =>
    have hminus := Spells.minus (hnumeral (m + 1)) hsigned
    rw [Nat.ofDigitChars_ten_toDigits] at hminus
    have htext : (toString (Int.negSucc m)).toList = '-' :: Nat.toDigits 10 (m + 1) := by
      show ("-" ++ Nat.repr (m + 1)).toList = _
      rw [String.toList_append, Nat.toList_repr]
      rfl
    rw [htext]
    exact hminus

end NewsService.IntegerType
