import Mathlib.Algebra.Group.Nat.Defs
import Mathlib.Data.List.TakeWhile
import NewsService.Calendar.Instant
import NewsService.Proofs.Calendar.Date

/-!
# Texts of instants

The numbers in the text of an instant are told apart by the marks between them: no mark is a digit,
and the sign of a year stands in front of its first digit. Main statement: the text of an instant
determines the instant, in all years that there are.
-/

namespace NewsService.Instant

/-! ## Numbers -/

/-- Whether a text does not begin with a digit, so that a number before it is complete. -/
def EndsNumber (cs : List Char) : Prop :=
  ∀ c, cs.head? = some c → c.isDigit = false

theorem endsNumber_cons {c : Char} (h : c.isDigit = false) (cs : List Char) :
    EndsNumber (c :: cs) := by
  intro d hd
  rwa [← Option.some.inj hd]

/-- Runs of digits that are followed by something else are equal when the whole texts are. -/
theorem digits_append_inj {as bs xs ys : List Char} (has : ∀ c ∈ as, c.isDigit = true)
    (hbs : ∀ c ∈ bs, c.isDigit = true) (hxs : EndsNumber xs) (hys : EndsNumber ys)
    (h : as ++ xs = bs ++ ys) : as = bs ∧ xs = ys := by
  have hrun : ∀ {ds zs : List Char}, (∀ c ∈ ds, c.isDigit = true) → EndsNumber zs →
      (ds ++ zs).takeWhile Char.isDigit = ds := by
    intro ds zs hds hzs
    have hnone : zs.takeWhile Char.isDigit = [] := by
      cases zs with
      | nil => rfl
      | cons c rest => exact List.takeWhile_cons_of_neg (by simp [hzs c rfl])
    rw [List.takeWhile_append_of_pos hds, hnone, List.append_nil]
  have hsame : as = bs := by
    rw [← hrun has hxs, h, hrun hbs hys]
  exact ⟨hsame, List.append_cancel_left (hsame ▸ h)⟩

variable {width m n : Nat} {xs ys : List Char}

theorem isDigit_of_mem_padded : ∀ c ∈ padded width n, c.isDigit = true := by
  intro c hc
  rcases List.mem_append.1 hc with hzero | hdigit
  · rw [List.eq_of_mem_replicate hzero]
    rfl
  · exact Nat.isDigit_of_mem_toDigits (by decide) (by decide) hdigit

theorem ofDigitChars_padded (width n : Nat) : Nat.ofDigitChars 10 (padded width n) 0 = n := by
  unfold padded
  dsimp only
  rw [Nat.ofDigitChars_append, Nat.ofDigitChars_replicate_zero, Nat.mul_zero,
    Nat.ofDigitChars_ten_toDigits]

theorem length_padded (hwidth : 0 < width) (h : n < 10 ^ width) :
    (padded width n).length = width := by
  have hle := (Nat.length_toDigits_le_iff (by decide) hwidth).2 h
  unfold padded
  dsimp only
  rw [List.length_append, List.length_replicate, Nat.sub_add_cancel hle]

theorem padded_append_inj {width' : Nat} (hxs : EndsNumber xs) (hys : EndsNumber ys)
    (h : padded width m ++ xs = padded width' n ++ ys) : m = n ∧ xs = ys := by
  obtain ⟨hdigits, hrest⟩ :=
    digits_append_inj isDigit_of_mem_padded isDigit_of_mem_padded hxs hys h
  refine ⟨?_, hrest⟩
  rw [← ofDigitChars_padded width m, hdigits, ofDigitChars_padded]

/-! ## Years -/

theorem exists_head_padded (width n : Nat) :
    ∃ c rest, padded width n = c :: rest ∧ c.isDigit = true := by
  have hne : padded width n ≠ [] := by
    intro hnil
    exact Nat.toDigits_ne_nil (List.append_eq_nil_iff.1 hnil).2
  obtain ⟨c, rest, hpadded⟩ := List.exists_cons_of_ne_nil hne
  have hdigit := isDigit_of_mem_padded c (hpadded ▸ List.mem_cons_self)
  exact ⟨c, rest, hpadded, hdigit⟩

/-- A year is a number, behind a sign if it does not have four digits. -/
theorem yearText_eq (year : Int) :
    yearText year =
      (if year < 0 then ['-'] else if 9999 < year then ['+'] else []) ++ padded 4 year.natAbs := by
  unfold yearText
  split
  · rfl
  · split <;> rfl

/-- What the first character of a year tells. -/
theorem sign_iff_head_yearText (year : Int) (rest : List Char) :
    ((yearText year ++ rest).head? = some '-' ↔ year < 0) ∧
      ((yearText year ++ rest).head? = some '+' ↔ 9999 < year) := by
  obtain ⟨c, digits, hdigits, hc⟩ := exists_head_padded 4 year.natAbs
  have hminus : c ≠ '-' := by
    rintro rfl
    cases hc
  have hplus : c ≠ '+' := by
    rintro rfl
    cases hc
  rw [yearText_eq, hdigits]
  split
  · simp
    omega
  · split
    · simp
      omega
    · simp [hminus, hplus]
      omega

theorem yearText_append_inj {y z : Int} (h : yearText y ++ '-' :: xs = yearText z ++ '-' :: ys) :
    y = z ∧ xs = ys := by
  obtain ⟨hminus, hplus⟩ := sign_iff_head_yearText y ('-' :: xs)
  rw [h] at hminus hplus
  have hneg : z < 0 ↔ y < 0 := (sign_iff_head_yearText z _).1.symm.trans hminus
  have hlarge : 9999 < z ↔ 9999 < y := (sign_iff_head_yearText z _).2.symm.trans hplus
  have hsign : (if z < 0 then ['-'] else if 9999 < z then ['+'] else []) =
      if y < 0 then ['-'] else if 9999 < y then ['+'] else [] := by
    simp only [hneg, hlarge]
  rw [yearText_eq, yearText_eq, hsign, List.append_assoc, List.append_assoc] at h
  have hends : ∀ cs, EndsNumber ('-' :: cs) := endsNumber_cons rfl
  obtain ⟨habs, hrest⟩ := padded_append_inj (hends xs) (hends ys) (List.append_cancel_left h)
  exact ⟨by omega, (List.cons.inj hrest).2⟩

/-! ## Fractions -/

/-- A fraction of a second is written in whole groups of digits, or not at all. -/
theorem fractionText_grouped_cases (h : n < 1000000000) :
    n = 0 ∧ fractionText .grouped n = [] ∨
      ∃ places k, 0 < places ∧ k < 10 ^ places ∧ n = k * 10 ^ (9 - places) ∧
        fractionText .grouped n = '.' :: padded places k := by
  unfold fractionText
  split
  · next hzero => exact Or.inl ⟨hzero, rfl⟩
  · refine Or.inr ?_
    dsimp only
    split
    · exact ⟨3, n / 1000000, by decide, by omega, by omega, rfl⟩
    · split
      · exact ⟨6, n / 1000, by decide, by omega, by omega, rfl⟩
      · exact ⟨9, n, by decide, by omega, by omega, rfl⟩

theorem fractionText_inj (hm : m < 1000000000) (hn : n < 1000000000)
    (h : fractionText .grouped m = fractionText .grouped n) : m = n := by
  rcases fractionText_grouped_cases hm with ⟨rfl, htext⟩ | ⟨places, k, hplaces, hk, rfl, htext⟩
  · rcases fractionText_grouped_cases hn with ⟨rfl, -⟩ | ⟨places', l, -, -, -, htext'⟩
    · rfl
    · rw [htext, htext'] at h
      cases h
  · rcases fractionText_grouped_cases hn with ⟨-, htext'⟩ | ⟨places', l, hplaces', hl, rfl, htext'⟩
    · rw [htext, htext'] at h
      cases h
    · rw [htext, htext'] at h
      have hdigits := (List.cons.inj h).2
      have hsame : places = places' := by
        rw [← length_padded hplaces hk, hdigits, length_padded hplaces' hl]
      have hvalue : k = l := by
        rw [← ofDigitChars_padded places k, hdigits, ofDigitChars_padded]
      rw [hsame, hvalue]

theorem endsNumber_fractionText (n : Nat) : EndsNumber (fractionText .grouped n ++ ['Z']) := by
  unfold fractionText
  split
  · exact endsNumber_cons rfl _
  · dsimp only
    split
    · exact endsNumber_cons rfl _
    · split
      · exact endsNumber_cons rfl _
      · exact endsNumber_cons rfl _

/-! ## Instants -/

/-- The text of an instant determines the instant. -/
theorem text_inj {i j : Instant} : i.text .grouped = j.text .grouped ↔ i = j := by
  refine ⟨fun h => ?_, fun h => by rw [h]⟩
  unfold text at h
  dsimp only at h
  rw [← String.toList_inj, String.toList_ofList, String.toList_ofList] at h
  simp only [List.append_assoc, List.cons_append] at h
  have hdash : ∀ cs, EndsNumber ('-' :: cs) := endsNumber_cons rfl
  have htime : ∀ cs, EndsNumber ('T' :: cs) := endsNumber_cons rfl
  have hcolon : ∀ cs, EndsNumber (':' :: cs) := endsNumber_cons rfl
  -- number by number, from the left
  obtain ⟨hyear, h⟩ := yearText_append_inj h
  obtain ⟨hmonth, h⟩ := padded_append_inj (hdash _) (hdash _) h
  obtain ⟨hday, h⟩ := padded_append_inj (htime _) (htime _) (List.cons.inj h).2
  obtain ⟨hhour, h⟩ := padded_append_inj (hcolon _) (hcolon _) (List.cons.inj h).2
  obtain ⟨hminute, h⟩ := padded_append_inj (hcolon _) (hcolon _) (List.cons.inj h).2
  obtain ⟨hsecond, h⟩ := padded_append_inj (endsNumber_fractionText _) (endsNumber_fractionText _)
    (List.cons.inj h).2
  have hfraction := fractionText_inj (by omega) (by omega) (List.append_cancel_right h)
  have hdate : Date.ofDayNumber (i.nanos / 1000000000 / 86400) =
      Date.ofDayNumber (j.nanos / 1000000000 / 86400) := by
    rw [Date.mk.injEq]
    exact ⟨hyear, hmonth, hday⟩
  rw [Date.ofDayNumber_inj] at hdate
  have hnanos : i.nanos = j.nanos := by omega
  cases i
  cases j
  exact congrArg Instant.mk hnanos

end NewsService.Instant
