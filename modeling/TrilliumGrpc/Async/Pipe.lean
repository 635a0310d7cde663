import TrilliumGrpc.Async.Tally

/-! # The receiving end of a pipe

Bytes arrive from outside, in any pieces and at any time, and at last the end: an orderly
one with what comes along with it, or the break of the pipe. Reading moves bytes out
and changes nothing of what has come.
-/

namespace Async

/-- The bytes that were read, those that have arrived behind them, and the end once it has
come; `E` is what comes along with an orderly one. -/
structure Inbox (E : Type) where
  taken : List UInt8
  arrived : List UInt8
  ending : Option (Except String E)

namespace Inbox

variable {E : Type}

def empty : Inbox E := ⟨[], [], none⟩

def received (b : Inbox E) : List UInt8 := b.taken ++ b.arrived

def pollRead (b : Inbox E) (len : Nat) : Poll (Except String (Chunk len)) × Inbox E :=
  if b.arrived = [] then
    match b.ending with
    | none => (.pending, b)
    | some (.ok _) => (.ready (.ok ⟨[], Nat.zero_le len⟩), b)
    | some (.error e) => (.ready (.error e), b)
  else
    (.ready (.ok ⟨b.arrived.take len, List.length_take_le len b.arrived⟩),
      { b with taken := b.taken ++ b.arrived.take len, arrived := b.arrived.drop len })

instance (priority := 1100) : AsyncRead (Inbox E) where
  pollRead := pollRead

instance : TalliedRead (Inbox E) where
  toAsyncRead := inferInstance
  taken := Inbox.taken
  ended b := b.arrived = [] ∧ ∃ e, b.ending = some (.ok e)
  broken b e := b.ending = some (.error e)
  pending_taken {b b' len} h := by
    change b.pollRead len = _ at h
    by_cases hnil : b.arrived = []
    · rcases hend : b.ending with _ | (e | e) <;>
        simp only [pollRead, hnil, hend, ↓reduceIte, Prod.mk.injEq, reduceCtorEq, false_and] at h
      rw [← h.2]
    · simp [pollRead, hnil] at h
  chunk_taken {b b' len chunk} h := by
    change b.pollRead len = _ at h
    by_cases hnil : b.arrived = []
    · rcases hend : b.ending with _ | (e | e) <;>
        simp only [pollRead, hnil, hend, ↓reduceIte, Prod.mk.injEq, reduceCtorEq, false_and,
          Poll.ready.injEq, Except.ok.injEq] at h
      obtain ⟨rfl, rfl⟩ := h
      exact (List.append_nil _).symm
    · simp only [pollRead, hnil, ↓reduceIte, Prod.mk.injEq, Poll.ready.injEq,
        Except.ok.injEq] at h
      obtain ⟨rfl, rfl⟩ := h
      rfl
  chunk_ended {b b' len chunk} hpos h hempty := by
    change b.pollRead len = _ at h
    by_cases hnil : b.arrived = []
    · rcases hend : b.ending with _ | (e | e) <;>
        simp only [pollRead, hnil, hend, ↓reduceIte, Prod.mk.injEq, reduceCtorEq, false_and,
          Poll.ready.injEq, Except.ok.injEq] at h
      obtain ⟨rfl, rfl⟩ := h
      exact ⟨hnil, e, hend⟩
    · simp only [pollRead, hnil, ↓reduceIte, Prod.mk.injEq, Poll.ready.injEq,
        Except.ok.injEq] at h
      obtain ⟨rfl, rfl⟩ := h
      rcases List.take_eq_nil_iff.mp hempty with hzero | hnone
      · omega
      · exact absurd hnone hnil
  error_taken {b b' len e} h := by
    change b.pollRead len = _ at h
    by_cases hnil : b.arrived = []
    · rcases hend : b.ending with _ | (fault | e) <;>
        simp only [pollRead, hnil, hend, ↓reduceIte, Prod.mk.injEq, reduceCtorEq, false_and,
          Poll.ready.injEq, Except.error.injEq] at h
      obtain ⟨rfl, rfl⟩ := h
      exact ⟨rfl, hend⟩
    · simp [pollRead, hnil] at h

theorem received_pollRead (b : Inbox E) (len : Nat) :
    (AsyncRead.pollRead b len).2.received = b.received ∧
      (AsyncRead.pollRead b len).2.ending = b.ending := by
  change (b.pollRead len).2.received = b.received ∧ (b.pollRead len).2.ending = b.ending
  unfold pollRead
  split
  · split <;> exact ⟨rfl, rfl⟩
  · refine ⟨?_, rfl⟩
    rw [received, List.append_assoc, List.take_append_drop]
    rfl

/-- The next `n` bytes of what was written arrive; behind the end nothing does. -/
def arrive (b : Inbox E) (written : List UInt8) (n : Nat) : Inbox E :=
  match b.ending with
  | none => { b with arrived := b.arrived ++ (written.drop b.received.length).take n }
  | some _ => b

def stop (b : Inbox E) (ending : Except String E) : Inbox E :=
  match b.ending with
  | none => { b with ending := some ending }
  | some _ => b

def Fed (b : Inbox E) (written : List UInt8) : Prop := b.received <+: written

theorem fed_empty (written : List UInt8) : (empty : Inbox E).Fed written := List.nil_prefix

theorem Fed.mono {b : Inbox E} {written later : List UInt8} (h : b.Fed written)
    (hlater : written <+: later) : b.Fed later := h.trans hlater

theorem taken_prefix {b : Inbox E} {written : List UInt8} (h : b.Fed written) :
    b.taken <+: written := (List.prefix_append _ _).trans h

@[simp] theorem taken_arrive (b : Inbox E) (written : List UInt8) (n : Nat) :
    (b.arrive written n).taken = b.taken := by
  unfold arrive
  split <;> rfl

@[simp] theorem ending_arrive (b : Inbox E) (written : List UInt8) (n : Nat) :
    (b.arrive written n).ending = b.ending := by
  unfold arrive
  split <;> rfl

@[simp] theorem taken_stop (b : Inbox E) (ending : Except String E) :
    (b.stop ending).taken = b.taken := by
  unfold stop
  split <;> rfl

@[simp] theorem arrived_stop (b : Inbox E) (ending : Except String E) :
    (b.stop ending).arrived = b.arrived := by
  unfold stop
  split <;> rfl

@[simp] theorem received_stop (b : Inbox E) (ending : Except String E) :
    (b.stop ending).received = b.received := by
  rw [received, received, taken_stop, arrived_stop]

theorem ending_stop (b : Inbox E) (ending : Except String E) :
    (b.stop ending).ending = some (b.ending.getD ending) := by
  unfold stop
  cases h : b.ending with
  | none => rfl
  | some first => exact h

theorem Fed.arrive {b : Inbox E} {written : List UInt8} (h : b.Fed written) (n : Nat) :
    (b.arrive written n).Fed written := by
  unfold Inbox.arrive
  split
  · obtain ⟨later, rfl⟩ := h
    have hreceived : ({ b with arrived := b.arrived ++
        ((b.received ++ later).drop b.received.length).take n } : Inbox E).received =
          b.received ++ later.take n := by
      rw [List.drop_left' rfl, received, received, List.append_assoc]
    rw [Fed, hreceived]
    exact (List.prefix_append_right_inj _).mpr (List.take_prefix n later)
  · exact h

theorem arrive_of_ended {b : Inbox E} (h : b.ending.isSome) (written : List UInt8) (n : Nat) :
    b.arrive written n = b := by
  unfold arrive
  cases hend : b.ending with
  | none => simp [hend] at h
  | some ending => rfl

theorem stop_of_ended {b : Inbox E} (h : b.ending.isSome) (ending : Except String E) :
    b.stop ending = b := by
  unfold stop
  cases hend : b.ending with
  | none => simp [hend] at h
  | some first => rfl

theorem stopped_arrive {b : Inbox E} {fault : Option String} (h : TalliedRead.Stopped b fault)
    (written : List UInt8) (n : Nat) : TalliedRead.Stopped (b.arrive written n) fault := by
  have hsome : b.ending.isSome := by
    cases fault with
    | none =>
        obtain ⟨_, e, hend⟩ : b.arrived = [] ∧ ∃ e, b.ending = some (.ok e) := h
        rw [hend]
        rfl
    | some e =>
        have hend : b.ending = some (.error e) := h
        rw [hend]
        rfl
  rwa [arrive_of_ended hsome]

theorem stopped_stop {b : Inbox E} {fault : Option String} (h : TalliedRead.Stopped b fault)
    (ending : Except String E) : TalliedRead.Stopped (b.stop ending) fault := by
  have hsome : b.ending.isSome := by
    cases fault with
    | none =>
        obtain ⟨_, e, hend⟩ : b.arrived = [] ∧ ∃ e, b.ending = some (.ok e) := h
        rw [hend]
        rfl
    | some e =>
        have hend : b.ending = some (.error e) := h
        rw [hend]
        rfl
  rwa [stop_of_ended hsome]

end Inbox

end Async
