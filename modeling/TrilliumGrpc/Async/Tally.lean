import TrilliumGrpc.Async.Stream

/-! # Readers that keep count of what they gave

Nothing is assumed of how a reader answers, only that it remembers the bytes it has
handed out and how it last stopped: `Tally` makes one of any reader, `Inbox` is the
receiving end of a pipe whose bytes, and end, arrive from outside. What a fill adds to
its buffer is what it took.
-/

namespace Async

def Poll.given {α : Type} : Poll α → List α
  | .pending => []
  | .ready a => [a]

section

variable {σ α : Type} (poll : σ → Poll (Option α) × σ)

/-- The answers of `n` polls, the end and what comes behind it included. -/
def answers : Nat → σ → List (Option α)
  | 0, _ => []
  | n + 1, s => (poll s).1.given ++ answers n (poll s).2

theorem answers_succ (n : Nat) (s : σ) :
    answers poll (n + 1) s = (poll s).1.given ++ answers poll n (poll s).2 := rfl

end

theorem answers_kept {σ α : Type} {poll : σ → Poll (Option α) × σ}
    (K : σ → List (Option α) → Prop)
    (hstep : ∀ s sofar, K s sofar → K (poll s).2 (sofar ++ (poll s).1.given)) (n : Nat) {s : σ}
    (h : K s []) : K (after poll n s) (answers poll n s) := by
  suffices hrun : ∀ n s sofar, K s sofar → K (after poll n s) (sofar ++ answers poll n s) from
    hrun n s [] h
  intro n
  induction n with
  | zero =>
      intro s sofar h
      rw [answers, List.append_nil]
      exact h
  | succ n ih =>
      intro s sofar h
      rw [after_succ, answers_succ, ← List.append_assoc]
      exact ih _ _ (hstep s sofar h)

/-- What every poll of a reader keeps, a fill from it keeps. -/
theorem fillLoop_kept {ρ : Type} [AsyncRead ρ] {K : ρ → Prop}
    (hpoll : ∀ r len, K r → K (AsyncRead.pollRead r len).2) {cap : Nat} (fuel : Nat) {r : ρ}
    (h : K r) (buf : FillBuf cap) : K (fillLoop fuel r buf).2 := by
  induction fuel generalizing r buf with
  | zero => exact h
  | succ fuel ih =>
      rw [fillLoop]
      by_cases hroom : buf.room = 0
      · rw [if_pos hroom]
        exact h
      · rw [if_neg hroom]
        have hnext := hpoll r buf.room h
        rcases hp : AsyncRead.pollRead r buf.room with ⟨_ | (e | chunk), r'⟩ <;>
          rw [hp] at hnext
        · exact hnext
        · exact hnext
        · dsimp only
          by_cases hnil : chunk.1 = []
          · rw [if_pos hnil]
            exact hnext
          · rw [if_neg hnil]
            exact ih hnext _

theorem fill_kept {ρ : Type} [AsyncRead ρ] {K : ρ → Prop}
    (hpoll : ∀ r len, K r → K (AsyncRead.pollRead r len).2) {cap : Nat} {r : ρ} (h : K r)
    (buf : FillBuf cap) : K (fill r buf).2 :=
  fillLoop_kept hpoll buf.room h buf

/-- A reader with the bytes it has handed out so far, and whether its answer was the
end of the stream or an error. -/
class TalliedRead (ρ : Type) extends AsyncRead ρ where
  taken : ρ → List UInt8
  ended : ρ → Prop
  broken : ρ → String → Prop
  pending_taken : ∀ {r r' : ρ} {len}, pollRead r len = (.pending, r') → taken r' = taken r
  chunk_taken : ∀ {r r' : ρ} {len chunk}, pollRead r len = (.ready (.ok chunk), r') →
    taken r' = taken r ++ chunk.1
  chunk_ended : ∀ {r r' : ρ} {len chunk}, 0 < len → pollRead r len = (.ready (.ok chunk), r') →
    chunk.1 = [] → ended r'
  error_taken : ∀ {r r' : ρ} {len e}, pollRead r len = (.ready (.error e), r') →
    taken r' = taken r ∧ broken r' e

namespace TalliedRead

variable {ρ : Type} [TalliedRead ρ]

/-- How a reader stopped: at the end of the stream, or with an error. -/
def Stopped (r : ρ) : Option String → Prop
  | none => ended r
  | some e => broken r e

/-- What an exact read of a partly filled buffer took, all of it for the buffer. -/
def FillTaken {cap : Nat} (r : ρ) (buf : FillBuf cap) : Fill cap × ρ → Prop
  | (.full buf', r') => ∃ new, taken r' = taken r ++ new ∧
      buf'.contents = buf.contents ++ new ∧ buf'.filled = cap
  | (.pending buf', r') => ∃ new, taken r' = taken r ++ new ∧
      buf'.contents = buf.contents ++ new ∧ buf'.filled < cap
  | (.eof buf', r') => ∃ new, taken r' = taken r ++ new ∧
      buf'.contents = buf.contents ++ new ∧ buf'.filled < cap ∧ ended r'
  | (.error e, r') => ∃ new, taken r' = taken r ++ new ∧
      buf.filled + new.length < cap ∧ broken r' e

/-- A chunk in front was taken with the rest. -/
theorem FillTaken.of_chunk {cap : Nat} {r r' : ρ} {buf : FillBuf cap} {chunk : Chunk buf.room}
    {out : Fill cap × ρ} (htaken : taken r' = taken r ++ chunk.1)
    (h : FillTaken r' (buf.write chunk) out) : FillTaken r buf out := by
  obtain ⟨stop, r''⟩ := out
  cases stop with
  | full buf' =>
      obtain ⟨new, hnew, hbytes, hfull⟩ := h
      refine ⟨chunk.1 ++ new, ?_, ?_, hfull⟩
      · rw [hnew, htaken, List.append_assoc]
      · rw [hbytes, FillBuf.contents_write, List.append_assoc]
  | pending buf' =>
      obtain ⟨new, hnew, hbytes, hlt⟩ := h
      refine ⟨chunk.1 ++ new, ?_, ?_, hlt⟩
      · rw [hnew, htaken, List.append_assoc]
      · rw [hbytes, FillBuf.contents_write, List.append_assoc]
  | eof buf' =>
      obtain ⟨new, hnew, hbytes, hlt, hend⟩ := h
      refine ⟨chunk.1 ++ new, ?_, ?_, hlt, hend⟩
      · rw [hnew, htaken, List.append_assoc]
      · rw [hbytes, FillBuf.contents_write, List.append_assoc]
  | error e =>
      obtain ⟨new, hnew, hlt, herr⟩ := h
      refine ⟨chunk.1 ++ new, ?_, ?_, herr⟩
      · rw [hnew, htaken, List.append_assoc]
      · simp only [FillBuf.write] at hlt
        rw [List.length_append]
        omega

theorem fillLoop_taken {cap : Nat} (fuel : Nat) (r : ρ) (buf : FillBuf cap)
    (hfuel : buf.room ≤ fuel) : FillTaken r buf (fillLoop fuel r buf) := by
  have hle := buf.filled_le
  induction fuel generalizing r buf with
  | zero =>
      simp only [FillBuf.room] at hfuel
      exact ⟨[], (List.append_nil _).symm, (List.append_nil _).symm, by omega⟩
  | succ fuel ih =>
      rw [fillLoop]
      by_cases hroom : buf.room = 0
      · rw [if_pos hroom]
        simp only [FillBuf.room] at hroom
        exact ⟨[], (List.append_nil _).symm, (List.append_nil _).symm, by omega⟩
      · rw [if_neg hroom]
        have hpos : 0 < buf.room := Nat.pos_of_ne_zero hroom
        have hlt : buf.filled < cap := Nat.lt_of_sub_pos hpos
        cases hp : AsyncRead.pollRead r buf.room with
        | mk answer r' =>
            cases answer with
            | pending =>
                exact ⟨[], by rw [pending_taken hp, List.append_nil], (List.append_nil _).symm, hlt⟩
            | ready result =>
                cases result with
                | error e =>
                    obtain ⟨htaken, herr⟩ := error_taken hp
                    exact ⟨[], by rw [htaken, List.append_nil], hlt, herr⟩
                | ok chunk =>
                    have htaken := chunk_taken hp
                    dsimp only
                    by_cases hnil : chunk.1 = []
                    · rw [if_pos hnil]
                      rw [hnil, List.append_nil] at htaken
                      exact ⟨[], by rw [htaken, List.append_nil], (List.append_nil _).symm, hlt,
                        chunk_ended hpos hp hnil⟩
                    · rw [if_neg hnil]
                      have hshrink := FillBuf.room_write buf chunk
                      have hne := List.length_pos_iff.mpr hnil
                      have hle := (buf.write chunk).filled_le
                      exact (ih r' (buf.write chunk) (by omega) hle).of_chunk htaken

theorem fill_taken {cap : Nat} (r : ρ) (buf : FillBuf cap) : FillTaken r buf (fill r buf) :=
  fillLoop_taken buf.room r buf (Nat.le_refl _)

end TalliedRead

/-! ## Any reader, tallied -/

/-- A reader, the bytes it has handed out, and how it stopped if it has. -/
structure Tally (ρ : Type) where
  reader : ρ
  taken : List UInt8
  stopped : Option (Option String)

namespace Tally

variable {ρ : Type} [AsyncRead ρ]

def new (reader : ρ) : Tally ρ := ⟨reader, [], none⟩

def pollRead (t : Tally ρ) (len : Nat) : Poll (Except String (Chunk len)) × Tally ρ :=
  match AsyncRead.pollRead t.reader len with
  | (.pending, reader) => (.pending, { t with reader })
  | (.ready (.error e), reader) =>
      (.ready (.error e), ⟨reader, t.taken, some (some e)⟩)
  | (.ready (.ok chunk), reader) =>
      (.ready (.ok chunk), ⟨reader, t.taken ++ chunk.1,
        if chunk.1 = [] then some none else t.stopped⟩)

instance : TalliedRead (Tally ρ) where
  pollRead := pollRead
  taken := Tally.taken
  ended t := t.stopped = some none
  broken t e := t.stopped = some (some e)
  pending_taken {t t' len} h := by
    cases hp : AsyncRead.pollRead t.reader len with
    | mk answer reader =>
        rcases answer with _ | (e | chunk) <;> simp only [pollRead, hp, Prod.mk.injEq] at h
        · rw [← h.2]
        · exact absurd h.1 (by simp)
        · exact absurd h.1 (by simp)
  chunk_taken {t t' len chunk} h := by
    cases hp : AsyncRead.pollRead t.reader len with
    | mk answer reader =>
        rcases answer with _ | (e | given) <;>
          simp only [pollRead, hp, Prod.mk.injEq, Poll.ready.injEq, reduceCtorEq, false_and,
            Except.ok.injEq] at h
        obtain ⟨rfl, rfl⟩ := h
        rfl
  chunk_ended {t t' len chunk} _ h hnil := by
    cases hp : AsyncRead.pollRead t.reader len with
    | mk answer reader =>
        rcases answer with _ | (e | given) <;>
          simp only [pollRead, hp, Prod.mk.injEq, Poll.ready.injEq, reduceCtorEq, false_and,
            Except.ok.injEq] at h
        obtain ⟨rfl, rfl⟩ := h
        exact if_pos hnil
  error_taken {t t' len e} h := by
    cases hp : AsyncRead.pollRead t.reader len with
    | mk answer reader =>
        rcases answer with _ | (fault | given) <;>
          simp only [pollRead, hp, Prod.mk.injEq, Poll.ready.injEq, reduceCtorEq, false_and,
            Except.error.injEq] at h
        obtain ⟨rfl, rfl⟩ := h
        exact ⟨rfl, rfl⟩

end Tally

end Async
