import Mathlib

/-! # Amounts in the first unit that fits

An amount is written as a count of one of several units, rounded up, in the smallest
unit whose count stays within a cap. Amounts that are too large for every unit become
the cap in the largest one. Rounding this way is monotone and leaves what it gives as
it is, whatever the units are.
-/

/-- Units from the smallest to the largest, each with a name, and the cap on counts. -/
structure Scale (α : Type) where
  cap : Nat
  units : List (Nat × α)
  largest : Nat × α
  cap_pos : 0 < cap
  pos : ∀ u ∈ units, 0 < u.1
  sorted : units.Pairwise (fun u v => u.1 < v.1)
  largest_mem : largest ∈ units
  le_largest : ∀ u ∈ units, u.1 ≤ largest.1

namespace Scale

variable {α : Type} (s : Scale α)

def fit (n : Nat) : Option (Nat × α) := s.units.find? (fun u => n ⌈/⌉ u.1 ≤ s.cap)

def choice (n : Nat) : Nat × (Nat × α) :=
  match s.fit n with
  | some u => (n ⌈/⌉ u.1, u)
  | none => (s.cap, s.largest)

def round (n : Nat) : Nat := (s.choice n).2.1 * (s.choice n).1

variable {s} {n m : Nat} {u : Nat × α}

theorem fits_iff (hu : u ∈ s.units) : n ⌈/⌉ u.1 ≤ s.cap ↔ n ≤ u.1 * s.cap :=
  ceilDiv_le_iff_le_mul (s.pos u hu)

/-- The unit that is chosen is the one that fits where no smaller one does. -/
theorem fit_eq_some_iff : s.fit n = some u ↔
    u ∈ s.units ∧ n ≤ u.1 * s.cap ∧ ∀ v ∈ s.units, v.1 < u.1 → v.1 * s.cap < n := by
  constructor
  · intro h
    obtain ⟨hfits, before, later, hunits, hbefore⟩ := List.find?_eq_some_iff_append.mp h
    have hu : u ∈ s.units := List.mem_of_find?_eq_some h
    have hsorted := s.sorted
    rw [hunits, List.pairwise_append, List.pairwise_cons] at hsorted
    refine ⟨hu, (fits_iff hu).mp (by simpa using hfits), ?_⟩
    intro v hv hlt
    by_contra hle
    have hfit : v.1 > u.1 ∨ n ⌈/⌉ v.1 > s.cap ∨ v = u := by
      have hv' := hv
      rw [hunits, List.mem_append, List.mem_cons] at hv'
      rcases hv' with hv' | rfl | hv'
      · have hnot := hbefore v hv'
        simp only [Bool.not_eq_true', decide_eq_false_iff_not, not_le] at hnot
        exact .inr (.inl hnot)
      · exact .inr (.inr rfl)
      · exact .inl (hsorted.2.1.1 v hv')
    rcases hfit with h | h | rfl
    · omega
    · exact absurd ((fits_iff hv).mpr (Nat.le_of_not_lt hle)) (Nat.not_le_of_lt h)
    · omega
  · rintro ⟨hu, hfits, hsmaller⟩
    obtain ⟨before, later, hunits⟩ := List.append_of_mem hu
    refine List.find?_eq_some_iff_append.mpr ⟨by simpa using (fits_iff hu).mpr hfits, before, later,
      hunits, fun v hv => ?_⟩
    have hmem : v ∈ s.units := by simp [hunits, hv]
    have hsorted := s.sorted
    rw [hunits, List.pairwise_append] at hsorted
    have hlt := hsmaller v hmem (hsorted.2.2 v hv u List.mem_cons_self)
    simpa [fits_iff hmem] using hlt

theorem fit_eq_none_iff : s.fit n = none ↔ s.largest.1 * s.cap < n := by
  constructor
  · intro h
    have hlargest := List.find?_eq_none.mp h s.largest s.largest_mem
    simpa [fits_iff s.largest_mem] using hlargest
  · intro h
    refine List.find?_eq_none.mpr fun u hu => ?_
    have hle := Nat.mul_le_mul_right s.cap (s.le_largest u hu)
    simp only [fits_iff hu, decide_eq_true_eq, not_le]
    omega

theorem choice_spec (s : Scale α) (n : Nat) :
    (s.choice n).2 ∈ s.units ∧ (s.choice n).1 ≤ s.cap ∧
      ∀ v ∈ s.units, v.1 < (s.choice n).2.1 → v.1 * s.cap < n := by
  unfold choice
  cases h : s.fit n with
  | some u =>
      obtain ⟨hu, hfits, hsmaller⟩ := fit_eq_some_iff.mp h
      exact ⟨hu, (fits_iff hu).mpr hfits, hsmaller⟩
  | none =>
      have hlarge := fit_eq_none_iff.mp h
      refine ⟨s.largest_mem, Nat.le_refl _, fun v hv hlt => ?_⟩
      have hle := Nat.mul_le_mul_right s.cap (Nat.le_of_lt hlt)
      dsimp only at hle
      omega

theorem le_round (h : n ≤ s.largest.1 * s.cap) :
    n ≤ s.round n ∧ s.round n < n + (s.choice n).2.1 := by
  unfold round choice
  cases hfit : s.fit n with
  | none =>
      have hlarge := fit_eq_none_iff.mp hfit
      omega
  | some u =>
      have hpos := s.pos u (fit_eq_some_iff.mp hfit).1
      refine ⟨(ceilDiv_le_iff_le_mul hpos).mp (Nat.le_refl _), ?_⟩
      have hfloor := Nat.mul_div_le (n + u.1 - 1) u.1
      simp only [Nat.ceilDiv_eq_add_pred_div]
      omega

theorem slack_le {k : Nat}
    (hgrow : ∀ u ∈ s.units, u.1 = 1 ∨ ∃ v ∈ s.units, v.1 < u.1 ∧ k * u.1 ≤ v.1 * s.cap)
    (h : n ≤ s.largest.1 * s.cap) : k * (s.round n - n) ≤ n := by
  obtain ⟨hle, hlt⟩ := le_round h
  obtain ⟨hu, _, hsmaller⟩ := s.choice_spec n
  rcases hgrow _ hu with hone | ⟨v, hv, hless, hbound⟩
  · have hexact : s.round n - n = 0 := by omega
    rw [hexact, Nat.mul_zero]
    exact Nat.zero_le _
  · have hover := hsmaller v hv hless
    calc k * (s.round n - n) ≤ k * (s.choice n).2.1 := Nat.mul_le_mul_left k (by omega)
      _ ≤ v.1 * s.cap := hbound
      _ ≤ n := Nat.le_of_lt hover

theorem choice_of_large (h : s.largest.1 * s.cap < n) : s.choice n = (s.cap, s.largest) := by
  rw [choice, fit_eq_none_iff.mpr h]

theorem round_le (s : Scale α) (n : Nat) : s.round n ≤ (s.choice n).2.1 * s.cap :=
  Nat.mul_le_mul_left _ (s.choice_spec n).2.1

theorem choice_count (h : n ≤ s.largest.1 * s.cap) : (s.choice n).1 = n ⌈/⌉ (s.choice n).2.1 := by
  unfold choice
  cases hfit : s.fit n with
  | none =>
      have hlarge := fit_eq_none_iff.mp hfit
      omega
  | some u => rfl

theorem round_mono (s : Scale α) (h : n ≤ m) : s.round n ≤ s.round m := by
  obtain ⟨hu, _, hn⟩ := s.choice_spec n
  obtain ⟨hv, _, hm⟩ := s.choice_spec m
  have hround := s.round_le n
  have hround' := s.round_le m
  by_cases hlarge : s.largest.1 * s.cap < m
  · have hle := Nat.mul_le_mul_right s.cap (s.le_largest _ hu)
    have hlast : s.round m = s.largest.1 * s.cap := by rw [round, choice_of_large hlarge]
    omega
  · have hle := (le_round (Nat.le_of_not_lt hlarge)).1
    rcases Nat.lt_trichotomy (s.choice n).2.1 (s.choice m).2.1 with hlt | heq | hgt
    · -- a smaller unit does not fit the larger amount
      have hover := hm _ hu hlt
      omega
    · rw [round, round, choice_count (by omega), choice_count (Nat.le_of_not_lt hlarge), heq]
      have hmono := (gc_mul_ceilDiv (s.pos _ hv)).monotone_l h
      exact Nat.mul_le_mul_left _ hmono
    · -- nor does the smaller amount, which is no more than the larger one
      have hover := hn _ hv hgt
      omega

/-- What was written is written the same way again. -/
theorem choice_round (s : Scale α) (n : Nat) : s.choice (s.round n) = s.choice n := by
  have hspec := s.choice_spec n
  by_cases hlarge : s.largest.1 * s.cap < n
  · have hlast : s.round n = s.largest.1 * s.cap := by rw [round, choice_of_large hlarge]
    have hfit : s.fit (s.round n) = some s.largest := by
      refine fit_eq_some_iff.mpr ⟨s.largest_mem, Nat.le_of_eq hlast, fun v hv hlt => ?_⟩
      rw [hlast]
      exact Nat.mul_lt_mul_of_pos_right hlt s.cap_pos
    have hcount : s.round n ⌈/⌉ s.largest.1 = s.cap := by
      rw [hlast]
      exact smul_ceilDiv (s.pos _ s.largest_mem) _
    rw [choice_of_large hlarge, choice, hfit]
    simp only [hcount]
  · have hsmall := Nat.le_of_not_lt hlarge
    have hle := (le_round hsmall).1
    have hfit : s.fit (s.round n) = some (s.choice n).2 :=
      fit_eq_some_iff.mpr ⟨hspec.1, s.round_le n, fun v hv hlt =>
        Nat.lt_of_lt_of_le (hspec.2.2 v hv hlt) hle⟩
    have hcount : s.round n ⌈/⌉ (s.choice n).2.1 = (s.choice n).1 :=
      smul_ceilDiv (s.pos _ hspec.1) _
    rw [choice, hfit]
    simp only [hcount]

end Scale
