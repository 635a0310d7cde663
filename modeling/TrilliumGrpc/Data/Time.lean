import Mathlib

/-! # Durations and monotonic instants

A duration is a `u64` of seconds and a sub-second nanosecond count; an instant
has the same shape over `i64` seconds. Adding a duration to an instant is
partial: the sum has to stay inside the seconds' range.
-/

namespace Time

/-- A panic, with its message. -/
structure Panic where
  message : String
deriving DecidableEq, Repr

/-- A computation that may panic instead of returning. -/
abbrev MayPanic (α : Type) := Except Panic α

/-- `std::time::Duration`. -/
structure Duration where
  secs : Nat
  nanos : Nat
  secs_lt : secs < 2 ^ 64
  nanos_lt : nanos < 1000000000
deriving DecidableEq, Repr

/-- `std::time::Instant` on Linux. -/
structure Instant where
  secs : Int
  nanos : Nat
  secs_ge : -2 ^ 63 ≤ secs
  secs_lt : secs < 2 ^ 63
  nanos_lt : nanos < 1000000000
deriving DecidableEq, Repr

def Duration.asNanos (d : Duration) : Nat := d.secs * 1000000000 + d.nanos

theorem Duration.asNanos_inj {d d' : Duration} (h : d.asNanos = d'.asNanos) : d = d' := by
  obtain ⟨secs, nanos, _, hnanos⟩ := d
  obtain ⟨secs', nanos', _, hnanos'⟩ := d'
  simp only [Duration.asNanos] at h
  have hsecs : secs = secs' := by omega
  subst hsecs
  have hnanos : nanos = nanos' := by omega
  subst hnanos
  rfl

def Duration.zero : Duration := ⟨0, 0, by decide, by decide⟩

def epoch : Instant := ⟨0, 0, by decide, by decide, by decide⟩

namespace Instant

def toNanos (t : Instant) : Int := t.secs * 1000000000 + t.nanos

instance : LE Instant := ⟨fun a b => a.toNanos ≤ b.toNanos⟩

instance : LT Instant := ⟨fun a b => a.toNanos < b.toNanos⟩

instance (a b : Instant) : Decidable (a ≤ b) := inferInstanceAs (Decidable (a.toNanos ≤ b.toNanos))

instance (a b : Instant) : Decidable (a < b) := inferInstanceAs (Decidable (a.toNanos < b.toNanos))

theorem le_def {a b : Instant} : a ≤ b ↔ a.toNanos ≤ b.toNanos := Iff.rfl

theorem lt_def {a b : Instant} : a < b ↔ a.toNanos < b.toNanos := Iff.rfl

def later (a b : Instant) : Instant := if a ≤ b then b else a

theorem le_later_left (a b : Instant) : a ≤ a.later b := by
  unfold later
  split
  · assumption
  · exact Int.le_refl _

/-- `Instant::checked_add`: the seconds are added first, then the carry. -/
def checkedAdd (t : Instant) (d : Duration) : Option Instant :=
  if hs : t.secs + d.secs < 2 ^ 63 then
    if hn : t.nanos + d.nanos < 1000000000 then
      some ⟨t.secs + d.secs, t.nanos + d.nanos, by have := t.secs_ge; omega, hs, hn⟩
    else if hc : t.secs + d.secs + 1 < 2 ^ 63 then
      some ⟨t.secs + d.secs + 1, t.nanos + d.nanos - 1000000000,
        by have := t.secs_ge; omega, hc, by have := t.nanos_lt; have := d.nanos_lt; omega⟩
    else none
  else none

theorem checkedAdd_isSome_iff (t : Instant) (d : Duration) :
    (t.checkedAdd d).isSome ↔ t.toNanos + d.asNanos < 2 ^ 63 * 1000000000 := by
  have hn := t.nanos_lt
  have hd := d.nanos_lt
  simp only [checkedAdd, toNanos, Duration.asNanos]
  split
  · split
    · simp only [Option.isSome_some, true_iff]
      omega
    · split
      · simp only [Option.isSome_some, true_iff]
        omega
      · simp only [Option.isSome_none, Bool.false_eq_true, false_iff]
        omega
  · simp only [Option.isSome_none, Bool.false_eq_true, false_iff]
    omega

theorem checkedAdd_toNanos {t t' : Instant} {d : Duration} (h : t.checkedAdd d = some t') :
    t'.toNanos = t.toNanos + d.asNanos := by
  have hn := t.nanos_lt
  simp only [checkedAdd] at h
  split at h
  · split at h
    · cases h
      simp only [toNanos, Duration.asNanos]
      omega
    · split at h
      · cases h
        simp only [toNanos, Duration.asNanos]
        omega
      · simp at h
  · simp at h

/-- `Instant + Duration`. -/
def add (t : Instant) (d : Duration) : MayPanic Instant :=
  match t.checkedAdd d with
  | some sum => .ok sum
  | none => .error ⟨"overflow when adding duration to instant"⟩

theorem add_ok {t sum : Instant} {d : Duration} (h : t.add d = .ok sum) :
    sum.toNanos = t.toNanos + d.asNanos := by
  unfold add at h
  split at h
  · rename_i hc
    cases h
    exact checkedAdd_toNanos hc
  · simp at h

theorem exists_add_iff (t : Instant) (d : Duration) :
    (∃ sum, t.add d = .ok sum) ↔ t.toNanos + d.asNanos < 2 ^ 63 * 1000000000 := by
  rw [← checkedAdd_isSome_iff, add]
  cases t.checkedAdd d <;> simp

/-- `Instant::checked_duration_since`. -/
def checkedDurationSince (t earlier : Instant) : Option Duration :=
  if h : earlier ≤ t then
    some ⟨(t.toNanos - earlier.toNanos).toNat / 1000000000,
      (t.toNanos - earlier.toNanos).toNat % 1000000000,
      by
        have h1 := t.secs_lt
        have h2 := earlier.secs_ge
        have h3 := t.nanos_lt
        simp only [toNanos]
        omega,
      Nat.mod_lt _ (by decide)⟩
  else none

theorem checkedDurationSince_eq_none_iff (t earlier : Instant) :
    t.checkedDurationSince earlier = none ↔ t < earlier := by
  simp only [checkedDurationSince, le_def, lt_def]
  split
  · simp only [reduceCtorEq, false_iff]
    omega
  · simp only [true_iff]
    omega

/-- `Instant::saturating_duration_since`. -/
def saturatingDurationSince (t earlier : Instant) : Duration :=
  (t.checkedDurationSince earlier).getD .zero

end Instant

end Time
