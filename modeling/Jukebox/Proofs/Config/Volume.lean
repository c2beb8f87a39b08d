import Jukebox.Config.Basic

/-!
# The loudness that tracks start with

The corrections of the loudness put its range in order first, then its default, and only then move
the default into the range.  Each of them keeps what the ones before it have settled, so at the end
all three numbers are in order, whatever they were at the beginning (`Volume.usable_validate`).
-/

namespace Jukebox

namespace Single

variable {x y z low high : Single}

theorem exists_finite (h : x.isFinite = true) : ∃ negative steps, x = .finite negative steps := by
  cases x with
  | finite negative steps => exact ⟨negative, steps, rfl⟩
  | _ => cases h

theorem ne_nan (h : x.isFinite = true) : (x == .nan) = false := by
  obtain ⟨negative, steps, rfl⟩ := exists_finite h
  rfl

/-- Finite numbers are ordered: one that is not less is at least as large. -/
theorem not_lt (hx : x.isFinite = true) (hy : y.isFinite = true) : (!x.lt y) = y.le x := by
  obtain ⟨a, m, rfl⟩ := exists_finite hx
  obtain ⟨b, n, rfl⟩ := exists_finite hy
  rw [lt, le, ← decide_not]
  exact decide_eq_decide.mpr Int.not_lt

theorem lt_eq_false (hx : x.isFinite = true) (hy : y.isFinite = true) (h : y.le x = true) :
    x.lt y = false := by
  rwa [← not_lt hx hy, Bool.not_eq_true'] at h

theorem le_refl (h : x.isFinite = true) : x.le x = true := by
  obtain ⟨a, m, rfl⟩ := exists_finite h
  exact decide_eq_true (Int.le_refl _)

theorem le_trans (hy : y.isFinite = true) (hxy : x.le y = true) (hyz : y.le z = true) :
    x.le z = true := by
  obtain ⟨b, n, rfl⟩ := exists_finite hy
  cases x with
  | nan => cases hxy
  | infinite a => cases z <;> simp_all [le]
  | finite a m =>
    cases z with
    | nan => cases hyz
    | infinite c => exact hyz
    | finite c k =>
      exact decide_eq_true (Int.le_trans (of_decide_eq_true hxy) (of_decide_eq_true hyz))

/-! ## Moving into a range -/

theorem clamp_cases (x low high : Single) :
    x.clamp low high = low ∨ x.clamp low high = high ∨
      (x.clamp low high = x ∧ x.lt low = false ∧ high.lt x = false) := by
  unfold clamp
  split
  · exact .inl rfl
  · next hlow =>
    split
    · exact .inr (.inl rfl)
    · next hhigh =>
      exact .inr (.inr ⟨rfl, Bool.eq_false_iff.mpr hlow, Bool.eq_false_iff.mpr hhigh⟩)

/-- A finite number that is moved into a range lies in the range. -/
theorem clamp_mem (hx : x.isFinite = true) (hlow : low.isFinite = true)
    (hhigh : high.isFinite = true) (h : low.le high = true) :
    (x.clamp low high).isFinite = true ∧ low.le (x.clamp low high) = true ∧
      (x.clamp low high).le high = true := by
  rcases clamp_cases x low high with heq | heq | ⟨heq, hbelow, habove⟩
  · rw [heq]
    exact ⟨hlow, le_refl hlow, h⟩
  · rw [heq]
    exact ⟨hhigh, h, le_refl hhigh⟩
  · rw [heq, ← not_lt hx hlow, ← not_lt hhigh hx, hbelow, habove]
    exact ⟨hx, rfl, rfl⟩

theorem max_eq_left (hx : x.isFinite = true) (hy : y.isFinite = true) (h : y.le x = true) :
    x.max y = x := by
  simp only [Single.max, ne_nan hx, ne_nan hy, lt_eq_false hx hy h, Bool.false_eq_true, if_false]

theorem min_eq_left (hx : x.isFinite = true) (hy : y.isFinite = true) (h : x.le y = true) :
    x.min y = x := by
  simp only [Single.min, ne_nan hx, ne_nan hy, lt_eq_false hy hx h, Bool.false_eq_true, if_false]

end Single

namespace Volume

variable {v : Volume}

/-- All three numbers are finite, and in order between zero and two. -/
structure Usable (v : Volume) : Prop where
  finite_min : v.min.isFinite = true
  finite_default : v.default.isFinite = true
  finite_max : v.max.isFinite = true
  zero_le_min : Single.zero.le v.min = true
  min_le_default : v.min.le v.default = true
  default_le_max : v.default.le v.max = true
  max_le_two : v.max.le (.ofNat 2) = true

/-! ## The range -/

theorem hasValidRange_iff :
    v.hasValidRange = true ↔ v.min.isFinite = true ∧ v.max.isFinite = true ∧
      Single.zero.le v.min = true ∧ v.max.le (.ofNat 2) = true ∧ v.min.le v.max = true := by
  rw [hasValidRange, Bool.and_eq_true, Bool.and_eq_true, Bool.and_eq_true, Bool.and_eq_true]
  constructor
  · rintro ⟨⟨⟨⟨hmin, hmax⟩, hzero⟩, htwo⟩, horder⟩
    rw [Single.not_lt hmin rfl] at hzero
    rw [Single.not_lt rfl hmax] at htwo
    rw [Single.not_lt hmax hmin] at horder
    exact ⟨hmin, hmax, hzero, htwo, horder⟩
  · rintro ⟨hmin, hmax, hzero, htwo, horder⟩
    rw [Single.not_lt hmin rfl, Single.not_lt rfl hmax, Single.not_lt hmax hmin]
    exact ⟨⟨⟨⟨hmin, hmax⟩, hzero⟩, htwo⟩, horder⟩

theorem usable_iff :
    Usable v ↔ v.hasValidRange = true ∧ v.default.isFinite = true ∧
      (v.min.le v.default && v.default.le v.max) = true := by
  rw [hasValidRange_iff, Bool.and_eq_true]
  constructor
  · rintro ⟨hmin, hdefault, hmax, hzero, hlow, hhigh, htwo⟩
    have horder := Single.le_trans hdefault hlow hhigh
    exact ⟨⟨hmin, hmax, hzero, htwo, horder⟩, hdefault, hlow, hhigh⟩
  · rintro ⟨⟨hmin, hmax, hzero, htwo, -⟩, hdefault, hlow, hhigh⟩
    exact ⟨hmin, hdefault, hmax, hzero, hlow, hhigh, htwo⟩

/-! ## The corrections, one after the other -/

theorem hasValidRange_correctRange (v : Volume) : v.correctRange.1.hasValidRange = true := by
  unfold correctRange
  split
  · assumption
  · rfl

theorem correctMissing_range (v : Volume) :
    v.correctMissing.1.min = v.min ∧ v.correctMissing.1.max = v.max := by
  unfold correctMissing
  split <;> exact ⟨rfl, rfl⟩

theorem hasValidRange_correctMissing (v : Volume) :
    v.correctMissing.1.hasValidRange = v.hasValidRange := by
  rw [hasValidRange, (correctMissing_range v).1, (correctMissing_range v).2, hasValidRange]

theorem isFinite_correctMissing (v : Volume) : v.correctMissing.1.default.isFinite = true := by
  unfold correctMissing
  split
  · assumption
  · rfl

theorem usable_correctOutside (hrange : v.hasValidRange = true)
    (hdefault : v.default.isFinite = true) : v.correctOutside.1.Usable := by
  unfold correctOutside
  split
  · next hinside => exact usable_iff.mpr ⟨hrange, hdefault, hinside⟩
  · obtain ⟨hmin, hmax, hzero, htwo, horder⟩ := hasValidRange_iff.mp hrange
    obtain ⟨hfinite, hlow, hhigh⟩ := Single.clamp_mem hdefault hmin hmax horder
    exact ⟨hmin, hfinite, hmax, hzero, hlow, hhigh, htwo⟩

/-- The loudness as it reaches the last correction, which moves the default into the range. -/
def beforeMoving (v : Volume) : Volume := v.correctRange.1.correctMissing.1

theorem validate_fst (v : Volume) : v.validate.1 = v.beforeMoving.correctOutside.1 := rfl

theorem hasValidRange_beforeMoving (v : Volume) : v.beforeMoving.hasValidRange = true := by
  rw [beforeMoving, hasValidRange_correctMissing]
  exact hasValidRange_correctRange v

/-- Whatever the three numbers were, they are usable once corrected. -/
theorem usable_validate (v : Volume) : v.validate.1.Usable := by
  rw [validate_fst]
  exact usable_correctOutside (hasValidRange_beforeMoving v) (isFinite_correctMissing _)

/-- Nothing is corrected where nothing has to be. -/
theorem validate_of_usable (h : v.Usable) : v.validate = (v, []) := by
  obtain ⟨hrange, hdefault, hinside⟩ := usable_iff.mp h
  have hfirst : v.correctRange = (v, []) := if_pos hrange
  have hsecond : v.correctMissing = (v, []) := if_pos hdefault
  have hthird : v.correctOutside = (v, []) := if_pos hinside
  simp only [validate, hfirst, hsecond, hthird, List.append_nil]

theorem start_of_usable (h : v.Usable) : v.start = v.default := by
  rw [start, Single.max_eq_left h.finite_default h.finite_min h.min_le_default,
    Single.min_eq_left h.finite_default h.finite_max h.default_le_max]

end Volume

end Jukebox
