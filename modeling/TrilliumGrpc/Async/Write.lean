import TrilliumGrpc.Async.Read

/-! # Polled writers and whole-buffer writes

A writer accepts a prefix of what it is offered, or is not ready. `writeAll`
offers what is left until nothing is; it can stop between two accepted parts,
and what it has handed over by then stays handed over.
-/

namespace Async

/-- `poll_write` answers how many of the offered bytes it took; `poll_close`
ends the stream. -/
class AsyncWrite (ω : Type) where
  pollWrite : ω → (buf : List UInt8) → Poll (Except String (Fin (buf.length + 1))) × ω
  pollClose : ω → Poll (Except String Unit) × ω

/-- One poll of a whole-buffer write: its answer, what is still to be written,
what the writer took during this poll, and the writer. -/
structure WriteStep (ω : Type) where
  answer : Poll (Except String Unit)
  left : List UInt8
  accepted : List UInt8
  writer : ω

section

variable {ω : Type} [AsyncWrite ω]

/-- `while !buf.is_empty() { n = poll_write(buf); buf = buf[n..]; n == 0 → error }`. -/
def writeLoop : Nat → ω → List UInt8 → WriteStep ω
  | 0, w, buf => ⟨.ready (.ok ()), buf, [], w⟩
  | fuel + 1, w, buf =>
      if buf = [] then ⟨.ready (.ok ()), [], [], w⟩
      else
        match AsyncWrite.pollWrite w buf with
        | (.pending, w') => ⟨.pending, buf, [], w'⟩
        | (.ready (.error e), w') => ⟨.ready (.error e), buf, [], w'⟩
        | (.ready (.ok n), w') =>
            if n.1 = 0 then ⟨.ready (.error "write zero"), buf, [], w'⟩
            else
              let step := writeLoop fuel w' (buf.drop n.1)
              { step with accepted := buf.take n.1 ++ step.accepted }

def writeAll (w : ω) (buf : List UInt8) : WriteStep ω := writeLoop buf.length w buf

/-- No byte is dropped, repeated or reordered: what was taken and what is left
make up the buffer, and success leaves nothing. -/
structure WriteSpec (buf : List UInt8) (step : WriteStep ω) : Prop where
  split : step.accepted ++ step.left = buf
  done : step.answer = .ready (.ok ()) → step.left = []
  pending : step.answer = .pending → step.left ≠ []

theorem writeLoop_spec (fuel : Nat) (w : ω) (buf : List UInt8) (hfuel : buf.length ≤ fuel) :
    WriteSpec buf (writeLoop fuel w buf) := by
  induction fuel generalizing w buf with
  | zero =>
      have hnil : buf = [] := List.length_eq_zero_iff.mp (Nat.le_zero.mp hfuel)
      subst hnil
      exact ⟨rfl, fun _ => rfl, fun h => by simp [writeLoop] at h⟩
  | succ fuel ih =>
      rw [writeLoop]
      by_cases hnil : buf = []
      · rw [if_pos hnil]
        exact ⟨hnil.symm, fun _ => rfl, fun h => by simp at h⟩
      · rw [if_neg hnil]
        cases hp : AsyncWrite.pollWrite w buf with
        | mk answer w' =>
            cases answer with
            | pending => exact ⟨rfl, fun h => by simp at h, fun _ => hnil⟩
            | ready result =>
                cases result with
                | error e => exact ⟨rfl, fun h => by simp at h, fun h => by simp at h⟩
                | ok n =>
                    dsimp only
                    by_cases hzero : n.1 = 0
                    · rw [if_pos hzero]
                      exact ⟨rfl, fun h => by simp at h, fun h => by simp at h⟩
                    · rw [if_neg hzero]
                      have hdrop : (buf.drop n.1).length ≤ fuel := by
                        rw [List.length_drop]
                        omega
                      obtain ⟨hsplit, hdone, hpend⟩ := ih w' (buf.drop n.1) hdrop
                      refine ⟨?_, hdone, hpend⟩
                      rw [List.append_assoc, hsplit, List.take_append_drop]

theorem writeAll_spec (w : ω) (buf : List UInt8) : WriteSpec buf (writeAll w buf) :=
  writeLoop_spec buf.length w buf (Nat.le_refl _)

end

/-! ## Writers that keep what they were offered -/

/-- A writer, and every buffer it was polled with. -/
structure Logged (ω : Type) where
  inner : ω
  offers : List (List UInt8)

section

variable {ω : Type} [AsyncWrite ω]

instance : AsyncWrite (Logged ω) where
  pollWrite w buf :=
    let (answer, inner) := AsyncWrite.pollWrite w.inner buf
    (answer, ⟨inner, w.offers ++ [buf]⟩)
  pollClose w :=
    let (answer, inner) := AsyncWrite.pollClose w.inner
    (answer, ⟨inner, w.offers⟩)

@[simp] theorem Logged.offers_pollWrite (w : Logged ω) (buf : List UInt8) :
    (AsyncWrite.pollWrite w buf).2.offers = w.offers ++ [buf] := rfl

@[simp] theorem Logged.offers_pollClose (w : Logged ω) :
    (AsyncWrite.pollClose w).2.offers = w.offers := rfl

theorem Logged.offers_writeLoop (fuel : Nat) (w : Logged ω) (buf : List UInt8) :
    ∃ more, (writeLoop fuel w buf).writer.offers = w.offers ++ more ∧
      (0 < fuel → buf ≠ [] → more ≠ []) := by
  induction fuel generalizing w buf with
  | zero => exact ⟨[], (List.append_nil _).symm, fun h => absurd h (Nat.lt_irrefl _)⟩
  | succ fuel ih =>
      rw [writeLoop]
      by_cases hnil : buf = []
      · rw [if_pos hnil]
        exact ⟨[], (List.append_nil _).symm, fun _ h => absurd hnil h⟩
      · rw [if_neg hnil]
        have hoffer := w.offers_pollWrite buf
        rcases hpoll : AsyncWrite.pollWrite w buf with ⟨_ | e | n, w'⟩ <;> rw [hpoll] at hoffer
        · exact ⟨[buf], hoffer, fun _ _ => List.cons_ne_nil _ _⟩
        · exact ⟨[buf], hoffer, fun _ _ => List.cons_ne_nil _ _⟩
        · dsimp only at hoffer ⊢
          by_cases hzero : n.1 = 0
          · rw [if_pos hzero]
            exact ⟨[buf], hoffer, fun _ _ => List.cons_ne_nil _ _⟩
          · rw [if_neg hzero]
            obtain ⟨more, hmore, _⟩ := ih w' (buf.drop n.1)
            refine ⟨buf :: more, ?_, fun _ _ => List.cons_ne_nil _ _⟩
            rw [hmore, hoffer, List.append_assoc, List.singleton_append]

theorem Logged.offers_writeAll (w : Logged ω) (buf : List UInt8) :
    ∃ more, (writeAll w buf).writer.offers = w.offers ++ more ∧ (buf ≠ [] → more ≠ []) := by
  obtain ⟨more, hmore, hne⟩ := w.offers_writeLoop buf.length buf
  exact ⟨more, hmore, fun hbuf => hne (List.length_pos_iff.mpr hbuf) hbuf⟩

end

/-! ## Writers that only stall -/

/-- A writer that accepts every write in non-empty parts of its own choosing,
with `Pending`s in between, and never fails. -/
class ByteSink (ω : Type) extends AsyncWrite ω where
  write_ok : ∀ {w buf e w'}, pollWrite w buf ≠ (.ready (.error e), w')
  write_pos : ∀ {w buf n w'}, buf ≠ [] → pollWrite w buf = (.ready (.ok n), w') → 0 < n.1

theorem ByteSink.writeLoop_no_error {ω : Type} [ByteSink ω] (fuel : Nat) (w : ω)
    (buf : List UInt8) (e : String) : (writeLoop fuel w buf).answer ≠ .ready (.error e) := by
  induction fuel generalizing w buf with
  | zero => simp [writeLoop]
  | succ fuel ih =>
      rw [writeLoop]
      by_cases hnil : buf = []
      · simp [hnil]
      · rw [if_neg hnil]
        cases hp : AsyncWrite.pollWrite w buf with
        | mk answer w' =>
            cases answer with
            | pending => simp
            | ready result =>
                cases result with
                | error e' => exact absurd hp ByteSink.write_ok
                | ok n =>
                    have hpos := ByteSink.write_pos hnil hp
                    dsimp only
                    rw [if_neg (Nat.ne_of_gt hpos)]
                    exact ih w' (buf.drop n.1)

/-- The sink `turns`: an answer per write, everything once the script has run out. -/
structure SinkScript where
  turns : List Turn
deriving DecidableEq, Repr

def SinkScript.pollWrite (w : SinkScript) (buf : List UInt8) :
    Poll (Except String (Fin (buf.length + 1))) × SinkScript :=
  match w.turns with
  | [] => (.ready (.ok ⟨buf.length, Nat.lt_succ_self _⟩), w)
  | .pending :: turns => (.pending, ⟨turns⟩)
  | .chunk n :: turns =>
      (.ready (.ok ⟨min (n + 1) buf.length, Nat.lt_succ_of_le (Nat.min_le_right _ _)⟩), ⟨turns⟩)

namespace SinkScript

theorem pollWrite_ne_error {w w' : SinkScript} {buf : List UInt8} {e : String} :
    w.pollWrite buf ≠ (.ready (.error e), w') := by
  intro h
  unfold pollWrite at h
  split at h <;> simp at h

theorem pollWrite_pos {w w' : SinkScript} {buf : List UInt8} {n : Fin (buf.length + 1)}
    (hne : buf ≠ []) (h : w.pollWrite buf = (.ready (.ok n), w')) : 0 < n.1 := by
  have hpos := List.length_pos_iff.mpr hne
  unfold pollWrite at h
  split at h
  · simp only [Prod.mk.injEq, Poll.ready.injEq, Except.ok.injEq] at h
    rw [← h.1]
    exact hpos
  · simp at h
  · simp only [Prod.mk.injEq, Poll.ready.injEq, Except.ok.injEq] at h
    rw [← h.1]
    simp only [Nat.lt_min]
    omega

end SinkScript

instance : ByteSink SinkScript where
  pollWrite := SinkScript.pollWrite
  pollClose w := (.ready (.ok ()), w)
  write_ok := SinkScript.pollWrite_ne_error
  write_pos := SinkScript.pollWrite_pos

end Async
