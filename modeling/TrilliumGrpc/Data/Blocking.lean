import TrilliumGrpc.Async.Read

/-! # Blocking readers

The synchronous reader of a fixed byte string, read to its end through a buffer of any
size and under a limit on the bytes.
-/

namespace Blocking

open Async (Chunk)

/-- `Read::read`: an empty chunk is the end of the stream, an error is its text. -/
class Read (ρ : Type) where
  read : ρ → (len : Nat) → Except String (Chunk len) × ρ

/-- `Read::read_to_end`, where `room out` is the space the vector offers once it holds
`out`. -/
def readToEnd {ρ : Type} [Read ρ] (room : List UInt8 → ℕ+) :
    Nat → List UInt8 → ρ → Except String (List UInt8) × ρ
  | 0, out, r => (.ok out, r)
  | fuel + 1, out, r =>
      match Read.read r (room out) with
      | (.error e, r') => (.error e, r')
      | (.ok chunk, r') =>
          if chunk.1 = [] then (.ok out, r') else readToEnd room fuel (out ++ chunk.1) r'

/-- A reader that hands out a fixed byte string in chunks of its own choosing and then
ends cleanly or with a fault. -/
class Source (ρ : Type) extends Read ρ where
  rest : ρ → List UInt8
  fault : ρ → Option String
  chunk_spec : ∀ {r len chunk r'}, 0 < len → read r len = (.ok chunk, r') →
    rest r = chunk.1 ++ rest r' ∧ fault r' = fault r ∧
      (chunk.1 = [] → rest r = [] ∧ fault r = none)
  error_spec : ∀ {r len e r'}, 0 < len → read r len = (.error e, r') →
    rest r = [] ∧ rest r' = [] ∧ fault r = some e

def outcome (bytes : List UInt8) (fault : Option String) : Except String (List UInt8) :=
  fault.elim (.ok bytes) .error

namespace Source

variable {ρ : Type} [Source ρ]

/-- With a round for every byte and one for the end, all of the source is read. -/
theorem readToEnd_spec (room : List UInt8 → ℕ+) {fuel : Nat} {r : ρ}
    (hfuel : (rest r).length < fuel) (out : List UInt8) :
    (readToEnd room fuel out r).1 = outcome (out ++ rest r) (fault r) ∧
      rest (readToEnd room fuel out r).2 = [] := by
  induction fuel generalizing r out with
  | zero => exact absurd hfuel (Nat.not_lt_zero _)
  | succ fuel ih =>
      have hroom : 0 < (room out : Nat) := (room out).pos
      rw [readToEnd]
      rcases hread : Read.read r (room out : Nat) with ⟨stop | chunk, r'⟩
      · obtain ⟨hrest, hleft, hstop⟩ := error_spec hroom hread
        exact ⟨by rw [hstop]; rfl, hleft⟩
      · obtain ⟨hrest, hfault, hend⟩ := chunk_spec hroom hread
        by_cases hempty : chunk.1 = []
        · obtain ⟨hnil, hnone⟩ := hend hempty
          have hleft : rest r' = [] := by
            rw [hnil] at hrest
            exact (List.append_eq_nil_iff.mp hrest.symm).2
          simp only [hempty, if_true]
          exact ⟨by rw [hnil, hnone, List.append_nil]; rfl, hleft⟩
        · have hshort : (rest r').length < fuel := by
            have hpos := List.length_pos_iff.mpr hempty
            rw [hrest, List.length_append] at hfuel
            omega
          simp only [hempty, if_false]
          have hnext := ih hshort (out ++ chunk.1)
          rw [List.append_assoc, ← hrest, hfault] at hnext
          exact hnext

theorem readToEnd_invariant {P : ρ → Prop} (room : List UInt8 → ℕ+)
    (hstep : ∀ {r len}, 0 < len → P r → P (Read.read r len).2) (fuel : Nat) {r : ρ} (h : P r)
    (out : List UInt8) : P (readToEnd room fuel out r).2 := by
  induction fuel generalizing r out with
  | zero => exact h
  | succ fuel ih =>
      have hread := hstep (room out).pos h
      rw [readToEnd]
      rcases hnext : Read.read r (room out : Nat) with ⟨stop | chunk, r'⟩
      · rw [hnext] at hread
        exact hread
      · rw [hnext] at hread
        by_cases hempty : chunk.1 = []
        · simp only [hempty, if_true]
          exact hread
        · simp only [hempty, if_false]
          exact ih hread _

end Source

/-- `&[u8]` as a reader. -/
structure Slice where
  bytes : List UInt8

instance : Source Slice where
  read r len := (.ok ⟨r.bytes.take len, List.length_take_le _ _⟩, ⟨r.bytes.drop len⟩)
  rest := Slice.bytes
  fault _ := none
  chunk_spec := by
    intro r len chunk r' hlen h
    cases h
    refine ⟨(List.take_append_drop _ _).symm, rfl, fun hempty => ⟨?_, rfl⟩⟩
    rcases List.take_eq_nil_iff.mp hempty with hzero | hnil
    · exact absurd hzero (Nat.ne_of_gt hlen)
    · exact hnil
  error_spec := by
    intro r len e r' _ h
    cases h

/-! ## A limit on the bytes -/

/-- `std::io::Take`. -/
structure Take (ρ : Type) where
  inner : ρ
  limit : Nat

namespace Take

variable {ρ : Type}

/-- The inner reader is asked for no more than the limit, and not at all at zero. -/
def read [Read ρ] (t : Take ρ) (len : Nat) : Except String (Chunk len) × Take ρ :=
  if t.limit = 0 then (.ok ⟨[], Nat.zero_le len⟩, t)
  else
    match Read.read t.inner (min len t.limit) with
    | (.error e, inner) => (.error e, { t with inner })
    | (.ok chunk, inner) =>
        (.ok ⟨chunk.1, Nat.le_trans chunk.2 (Nat.min_le_left _ _)⟩,
          { inner, limit := t.limit - chunk.1.length })

instance [Read ρ] : Read (Take ρ) := ⟨read⟩

variable [Source ρ]

def rest (t : Take ρ) : List UInt8 := (Source.rest t.inner).take t.limit

def fault (t : Take ρ) : Option String :=
  if (Source.rest t.inner).length < t.limit then Source.fault t.inner else none

/-- Bytes only move off the front of the inner reader, and each counts towards the
limit. -/
def Step (t t' : Take ρ) (taken : List UInt8) : Prop :=
  Source.rest t.inner = taken ++ Source.rest t'.inner ∧ t.limit = taken.length + t'.limit ∧
    Source.fault t'.inner = Source.fault t.inner

theorem Step.rest_eq {t t' : Take ρ} {taken : List UInt8} (h : t.Step t' taken) :
    t.rest = taken ++ t'.rest := by
  rw [rest, h.1, h.2.1, List.take_length_add_append, rest]

theorem Step.drop_eq {t t' : Take ρ} {taken : List UInt8} (h : t.Step t' taken) :
    (Source.rest t.inner).drop t.limit = (Source.rest t'.inner).drop t'.limit := by
  rw [h.1, h.2.1, List.drop_length_add_append]

theorem Step.fault_eq {t t' : Take ρ} {taken : List UInt8} (h : t.Step t' taken) :
    t'.fault = t.fault := by
  rw [fault, fault, h.1, h.2.1, h.2.2, List.length_append]
  simp only [Nat.add_lt_add_iff_left]

theorem read_of_ok {t t' : Take ρ} {len : Nat} {chunk : Chunk len} (hlen : 0 < len)
    (h : t.read len = (.ok chunk, t')) :
    t.Step t' chunk.1 ∧ (chunk.1 = [] → t.rest = [] ∧ t.fault = none) := by
  unfold read at h
  split at h
  · rename_i hzero
    cases h
    refine ⟨⟨rfl, by simp, rfl⟩, fun _ => ⟨by simp [rest, hzero], by simp [fault, hzero]⟩⟩
  · rename_i hpos
    have hmin : 0 < min len t.limit := by omega
    split at h
    · cases h
    · rename_i piece inner hread
      cases h
      obtain ⟨hrest, hfault, hend⟩ := Source.chunk_spec hmin hread
      have hfits := piece.2
      refine ⟨⟨hrest, by simp only; omega, hfault⟩, fun hempty => ?_⟩
      obtain ⟨hnil, hnone⟩ := hend hempty
      exact ⟨by rw [rest, hnil, List.take_nil], by rw [fault, hnone, ite_self]⟩

theorem read_of_error {t t' : Take ρ} {len : Nat} {e : String} (hlen : 0 < len)
    (h : t.read len = (.error e, t')) :
    0 < t.limit ∧ t'.limit = t.limit ∧ Source.rest t.inner = [] ∧ Source.rest t'.inner = [] ∧
      Source.fault t.inner = some e := by
  unfold read at h
  split at h
  · cases h
  · rename_i hpos
    have hmin : 0 < min len t.limit := by omega
    split at h
    · rename_i e' inner hread
      cases h
      obtain ⟨hrest, hleft, hstop⟩ := Source.error_spec hmin hread
      exact ⟨by omega, rfl, hrest, hleft, hstop⟩
    · cases h

instance : Source (Take ρ) where
  read := read
  rest := rest
  fault := fault
  chunk_spec := by
    intro t len chunk t' hlen h
    obtain ⟨hstep, hend⟩ := read_of_ok hlen h
    exact ⟨hstep.rest_eq, hstep.fault_eq, hend⟩
  error_spec := by
    intro t len e t' hlen h
    obtain ⟨hpos, _, hrest, hleft, hstop⟩ := read_of_error hlen h
    refine ⟨by rw [rest, hrest, List.take_nil], by rw [rest, hleft, List.take_nil], ?_⟩
    rw [fault, hrest, List.length_nil, if_pos hpos, hstop]

theorem read_drop {t : Take ρ} {len : Nat} (hlen : 0 < len) :
    (Source.rest (t.read len).2.inner).drop (t.read len).2.limit =
      (Source.rest t.inner).drop t.limit := by
  rcases hread : t.read len with ⟨stop | chunk, t'⟩
  · obtain ⟨_, _, hrest, hleft, _⟩ := read_of_error hlen hread
    rw [hrest, hleft, List.drop_nil, List.drop_nil]
  · exact (read_of_ok hlen hread).1.drop_eq.symm

theorem readToEnd_take (room : List UInt8 → ℕ+) (r : ρ) (limit : Nat) :
    (readToEnd room (limit + 1) [] (⟨r, limit⟩ : Take ρ)).1 =
        outcome ((Source.rest r).take limit)
          (if (Source.rest r).length < limit then Source.fault r else none) ∧
      Source.rest (readToEnd room (limit + 1) [] (⟨r, limit⟩ : Take ρ)).2.inner =
        (Source.rest r).drop limit := by
  have hshort : (Source.rest (⟨r, limit⟩ : Take ρ)).length < limit + 1 :=
    Nat.lt_succ_of_le (List.length_take_le _ _)
  obtain ⟨hout, hleft⟩ := Source.readToEnd_spec room hshort []
  have hdrop := Source.readToEnd_invariant
    (P := fun t : Take ρ => (Source.rest t.inner).drop t.limit = (Source.rest r).drop limit)
    room (fun hlen h => (read_drop hlen).trans h) (limit + 1) (r := ⟨r, limit⟩) rfl []
  refine ⟨hout, ?_⟩
  -- Nothing is left within what remains of the limit, so all that is left is behind it.
  have hsplit := List.take_append_drop
    (readToEnd room (limit + 1) [] (⟨r, limit⟩ : Take ρ)).2.limit
    (Source.rest (readToEnd room (limit + 1) [] (⟨r, limit⟩ : Take ρ)).2.inner)
  have htake : (Source.rest (readToEnd room (limit + 1) [] (⟨r, limit⟩ : Take ρ)).2.inner).take
      (readToEnd room (limit + 1) [] (⟨r, limit⟩ : Take ρ)).2.limit = [] := hleft
  rw [htake, List.nil_append, hdrop] at hsplit
  exact hsplit.symm

end Take

end Blocking
