import NewsService.Config

/-!
# Bounds of a configuration

A text is read as an integer of a type only if the integer lies in the range of the type, so nothing
is lost where settings become machine integers. Main statement: every configuration has page sizes
that are positive and in order, and a depth of joins within its bound.
-/

namespace NewsService

namespace IntegerType

variable {t : IntegerType} {n : Int}

/-- Whether an integer lies in the range of a type. -/
def Contains (t : IntegerType) (n : Int) : Prop :=
  t.least ≤ n ∧ n ≤ t.greatest

theorem contains_of_readDigits {negative : Bool} {value : Int} {cs : List Char}
    (hvalue : t.Contains value) (h : t.readDigits negative value cs = .ok n) : t.Contains n := by
  induction cs generalizing value with
  | nil =>
    obtain rfl := Except.ok.inj h
    exact hvalue
  | cons c rest ih =>
    rw [readDigits] at h
    split at h
    · -- the next value is looked at before the rest of the digits
      dsimp only at h
      generalize (if negative = true then value * 10 - ((c.toNat : Int) - 48)
        else value * 10 + ((c.toNat : Int) - 48)) = next at h
      split at h
      · cases h
      · next hgreatest =>
        split at h
        · cases h
        · next hleast => exact ih ⟨Int.not_lt.1 hleast, Int.not_lt.1 hgreatest⟩ h
    · cases h

theorem contains_of_readMagnitude (hzero : t.Contains 0) {negative : Bool} {cs : List Char}
    (h : t.readMagnitude negative cs = .ok n) : t.Contains n := by
  cases cs with
  | nil => cases h
  | cons c rest => exact contains_of_readDigits hzero h

theorem contains_of_read (hzero : t.Contains 0) {text : String} (h : t.read text = .ok n) :
    t.Contains n := by
  rw [read] at h
  split at h
  · cases h
  · exact contains_of_readMagnitude hzero h
  · split at h
    · exact contains_of_readMagnitude hzero h
    · cases h
  · exact contains_of_readMagnitude hzero h

end IntegerType

namespace Config

variable {env : Environment}

theorem contains_of_integer {t : IntegerType} (hzero : t.Contains 0) {setting default : String}
    {n : Int} (h : integer env t setting default = .ok n) : t.Contains n := by
  rw [integer] at h
  split at h
  · next hread =>
    obtain rfl := Except.ok.inj h
    exact IntegerType.contains_of_read hzero hread
  · cases h

/-- The settings behind a configuration, as far as they are bounded. -/
theorem settings_of_ofEnvironment {config : Config} (h : ofEnvironment env = .ok config) :
    ∃ defaultLimit maxLimit depth,
      integer env .i64 "NEWS_DEFAULT_LIMIT" "10" = .ok defaultLimit ∧
      integer env .i64 "NEWS_MAX_LIMIT" "50" = .ok maxLimit ∧
      0 < defaultLimit ∧ defaultLimit ≤ maxLimit ∧
      depth ≤ (maxRelatedDepth : Int) ∧
      config.limits.defaultLimit = Int64.ofInt defaultLimit ∧
      config.limits.maxLimit = Int64.ofInt maxLimit ∧
      config.relatedDepth = depth.toNat := by
  rw [ofEnvironment] at h
  simp only [bind, Except.bind] at h
  -- one split for each setting that can fail, in the order in which they are read
  split at h
  · cases h
  split at h
  · split at h
    · cases h
    split at h
    · cases h
    split at h
    · cases h
    next defaultLimit hdefault =>
    split at h
    · cases h
    next maxLimit hmax =>
    split at h
    · cases h
    next hlimits =>
    split at h
    · cases h
    next depth _ =>
    split at h
    · cases h
    next hdepth =>
    obtain rfl := Except.ok.inj h
    exact ⟨defaultLimit, maxLimit, depth, hdefault, hmax, by omega, by omega, by omega, rfl, rfl,
      rfl⟩
  · cases h

theorem toInt_ofInt_of_contains {n : Int} (h : IntegerType.i64.Contains n) :
    (Int64.ofInt n).toInt = n :=
  Int64.toInt_ofInt_of_le h.1 (Int.lt_of_le_of_lt h.2 (by decide))

/-- The page sizes of a configuration are positive and in order, and joins are followed to a depth
within the bound. -/
theorem bounds_of_ofEnvironment {config : Config} (h : ofEnvironment env = .ok config) :
    0 < config.limits.defaultLimit ∧ config.limits.defaultLimit ≤ config.limits.maxLimit ∧
      config.relatedDepth ≤ maxRelatedDepth := by
  obtain ⟨defaultLimit, maxLimit, depth, hdefault, hmax, hpos, hle, hdepth, hd, hm, hr⟩ :=
    settings_of_ofEnvironment h
  have hzero : IntegerType.i64.Contains 0 := ⟨by decide, by decide⟩
  have hdefault := toInt_ofInt_of_contains (contains_of_integer hzero hdefault)
  have hmax := toInt_ofInt_of_contains (contains_of_integer hzero hmax)
  rw [hd, hm, hr, Int64.lt_iff_toInt_lt, Int64.le_iff_toInt_le, hdefault, hmax, Int64.toInt_zero]
  exact ⟨hpos, hle, by omega⟩

end Config

end NewsService
