import Mathlib

/-! # Polled readers and exact fills

A reader is polled for at most a given number of bytes and may answer that it is
not ready. `fill` is the resumable exact read every length-prefixed protocol is
built from: it keeps what arrived so far in a partly filled buffer. The rules at
the end hold for any reader that hands out a fixed byte string, whatever its
chunk sizes and however often it stalls.
-/

namespace Async

inductive Poll (α : Type) where
  | pending
  | ready (value : α)
deriving DecidableEq, Repr

def Poll.map {α β : Type} (f : α → β) : Poll α → Poll β
  | .pending => .pending
  | .ready a => .ready (f a)

theorem eventually_of_succ {P : Nat → Prop} {N : Nat} (h : ∀ m ≥ N, P (m + 1)) :
    ∃ N', ∀ n ≥ N', P n := by
  refine ⟨N + 1, fun n hn => ?_⟩
  obtain ⟨m, rfl⟩ := Nat.exists_eq_add_of_le' (Nat.le_of_add_left_le hn)
  exact h m (by omega)

/-- What a read into a destination of `len` bytes can yield. -/
abbrev Chunk (len : Nat) := {bytes : List UInt8 // bytes.length ≤ len}

/-- `poll_read`: an empty chunk is the end of the stream, an error is its text. -/
class AsyncRead (ρ : Type) where
  pollRead : ρ → (len : Nat) → Poll (Except String (Chunk len)) × ρ

/-! ## Partly filled buffers -/

/-- A zero-initialised buffer of `cap` bytes whose first `filled` bytes are read. -/
structure FillBuf (cap : Nat) where
  bytes : List UInt8
  filled : Nat
  length_eq : bytes.length = cap
  filled_le : filled ≤ cap

namespace FillBuf

variable {cap : Nat}

def zeroed (cap : Nat) : FillBuf cap :=
  ⟨List.replicate cap 0, 0, List.length_replicate, Nat.zero_le cap⟩

def room (buf : FillBuf cap) : Nat := cap - buf.filled

def contents (buf : FillBuf cap) : List UInt8 := buf.bytes.take buf.filled

/-- The reader writes at `bytes[filled..]` and `filled` advances. -/
def write (buf : FillBuf cap) (chunk : Chunk buf.room) : FillBuf cap where
  bytes := buf.contents ++ chunk.1 ++ buf.bytes.drop (buf.filled + chunk.1.length)
  filled := buf.filled + chunk.1.length
  length_eq := by
    have hc := chunk.2
    have hf := buf.filled_le
    have hl := buf.length_eq
    simp only [room] at hc
    simp only [contents, List.length_append, List.length_take, List.length_drop]
    omega
  filled_le := by
    have hc := chunk.2
    have hf := buf.filled_le
    simp only [room] at hc
    omega

@[simp] theorem contents_length (buf : FillBuf cap) : buf.contents.length = buf.filled := by
  simp [contents, buf.length_eq, buf.filled_le]

@[simp] theorem contents_zeroed (cap : Nat) : (zeroed cap).contents = [] := rfl

@[simp] theorem contents_write (buf : FillBuf cap) (chunk : Chunk buf.room) :
    (buf.write chunk).contents = buf.contents ++ chunk.1 := by
  have hl := buf.contents_length
  simp only [contents] at hl
  simp only [write, contents]
  rw [List.take_left']
  simp [hl]

theorem room_write (buf : FillBuf cap) (chunk : Chunk buf.room) :
    (buf.write chunk).room = buf.room - chunk.1.length := by
  simp only [room, write]
  omega

theorem bytes_of_full (buf : FillBuf cap) (h : buf.filled = cap) : buf.bytes = buf.contents := by
  rw [contents, List.take_of_length_le (by rw [buf.length_eq, h])]

end FillBuf

/-! ## The exact read -/

inductive Fill (cap : Nat) where
  | full (buf : FillBuf cap)
  | pending (buf : FillBuf cap)
  | eof (buf : FillBuf cap)
  | error (e : String)

section Loop

variable {ρ : Type} [AsyncRead ρ] {cap : Nat}

/-- `while filled < cap { poll_read(&mut buf[filled..]) }`; every round that
goes on shrinks the room, so the room itself is fuel enough. -/
def fillLoop : Nat → ρ → FillBuf cap → Fill cap × ρ
  | 0, r, buf => (.full buf, r)
  | fuel + 1, r, buf =>
      if buf.room = 0 then (.full buf, r)
      else
        match AsyncRead.pollRead r buf.room with
        | (.pending, r') => (.pending buf, r')
        | (.ready (.error e), r') => (.error e, r')
        | (.ready (.ok chunk), r') =>
            if chunk.1 = [] then (.eof buf, r') else fillLoop fuel r' (buf.write chunk)

def fill (r : ρ) (buf : FillBuf cap) : Fill cap × ρ := fillLoop buf.room r buf

end Loop

/-! ## Readers of a fixed byte string -/

/-- A reader that hands out a fixed byte string in chunks of its own choosing,
with finitely many `Pending`s before each, and then ends cleanly or with a fault. -/
class ByteSource (ρ : Type) extends AsyncRead ρ where
  /-- The bytes still to be handed out. -/
  rest : ρ → List UInt8
  /-- The transport error that ends the stream, if any. -/
  fault : ρ → Option String
  /-- Bounds the `Pending`s before the next answer. -/
  stall : ρ → Nat
  fault_pollRead : ∀ r len, fault (pollRead r len).2 = fault r
  pending_spec : ∀ {r len r'}, pollRead r len = (.pending, r') →
    rest r' = rest r ∧ stall r' < stall r
  chunk_spec : ∀ {r len chunk r'}, 0 < len → pollRead r len = (.ready (.ok chunk), r') →
    rest r = chunk.1 ++ rest r' ∧ (chunk.1 = [] → rest r = [] ∧ fault r = none)
  error_spec : ∀ {r len e r'}, pollRead r len = (.ready (.error e), r') →
    rest r = [] ∧ fault r = some e

namespace ByteSource

variable {ρ : Type} [ByteSource ρ]

def Advanced (r' r : ρ) : Prop :=
  (rest r').length < (rest r).length ∨ (rest r' = rest r ∧ stall r' < stall r)

theorem advanced_wf : WellFounded (Advanced (ρ := ρ)) := by
  have hlex : WellFounded (InvImage (Prod.Lex (· < ·) (· < ·))
      (fun r : ρ => ((rest r).length, stall r))) :=
    InvImage.wf _ (WellFounded.prod_lex Nat.lt_wfRel.wf Nat.lt_wfRel.wf)
  refine Subrelation.wf ?_ hlex
  intro r' r h
  rcases h with h | ⟨hr, hs⟩
  · exact Prod.Lex.left _ _ h
  · simp only [InvImage, hr]
    exact Prod.Lex.right _ hs

theorem Advanced.length_le {r' r : ρ} (h : Advanced r' r) :
    (rest r').length ≤ (rest r).length := by
  rcases h with h | ⟨h, _⟩
  · exact Nat.le_of_lt h
  · rw [h]

/-- What an exact read of a partly filled buffer did to the source. -/
def FillSpec {cap : Nat} (r : ρ) (buf : FillBuf cap) : Fill cap × ρ → Prop
  | (.full buf', r') =>
      buf'.filled = cap ∧ buf'.contents ++ rest r' = buf.contents ++ rest r ∧ fault r' = fault r ∧
        (r' = r ∨ (rest r').length < (rest r).length)
  | (.pending buf', r') =>
      buf'.contents ++ rest r' = buf.contents ++ rest r ∧ fault r' = fault r ∧
        buf'.filled < cap ∧ Advanced r' r
  | (.eof buf', r') =>
      buf'.contents = buf.contents ++ rest r ∧ rest r' = [] ∧ fault r' = fault r ∧
        fault r = none ∧ buf'.filled < cap
  | (.error e, r') =>
      buf.filled + (rest r).length < cap ∧ fault r = some e ∧ fault r' = fault r

/-- A non-empty chunk only moves bytes from the source into the buffer. -/
theorem FillSpec.of_chunk {cap : Nat} {r r' : ρ} {buf : FillBuf cap} {chunk : Chunk buf.room}
    {out : Fill cap × ρ} (hrest : rest r = chunk.1 ++ rest r') (hfault : fault r' = fault r)
    (hne : chunk.1 ≠ []) (h : FillSpec r' (buf.write chunk) out) : FillSpec r buf out := by
  have hmoved : (buf.write chunk).contents ++ rest r' = buf.contents ++ rest r := by
    rw [FillBuf.contents_write, hrest, List.append_assoc]
  have hshort : (rest r').length < (rest r).length := by
    have := List.length_pos_iff.mpr hne
    rw [hrest, List.length_append]
    omega
  obtain ⟨stop, r''⟩ := out
  cases stop with
  | full buf' =>
      obtain ⟨hfull, hbytes, hf, hmove⟩ := h
      refine ⟨hfull, hbytes.trans hmoved, hf.trans hfault, .inr ?_⟩
      rcases hmove with rfl | h
      · exact hshort
      · omega
  | pending buf' =>
      obtain ⟨hbytes, hf, hlt, hadv⟩ := h
      have hle := hadv.length_le
      exact ⟨hbytes.trans hmoved, hf.trans hfault, hlt, .inl (by omega)⟩
  | eof buf' =>
      obtain ⟨hbytes, hnil, hf, hnone, hlt⟩ := h
      exact ⟨hbytes.trans hmoved, hnil, hf.trans hfault, hfault ▸ hnone, hlt⟩
  | error e =>
      obtain ⟨hlen, herr, hf⟩ := h
      refine ⟨?_, hfault ▸ herr, hf.trans hfault⟩
      rw [hrest, List.length_append]
      simp only [FillBuf.write] at hlen
      omega

theorem fillLoop_spec {cap : Nat} (fuel : Nat) (r : ρ) (buf : FillBuf cap)
    (hfuel : buf.room ≤ fuel) : FillSpec r buf (fillLoop fuel r buf) := by
  have hle := buf.filled_le
  induction fuel generalizing r buf with
  | zero =>
      simp only [FillBuf.room] at hfuel
      exact ⟨by omega, rfl, rfl, .inl rfl⟩
  | succ fuel ih =>
      rw [fillLoop]
      by_cases hroom : buf.room = 0
      · rw [if_pos hroom]
        simp only [FillBuf.room] at hroom
        exact ⟨by omega, rfl, rfl, .inl rfl⟩
      · rw [if_neg hroom]
        have hpos : 0 < buf.room := Nat.pos_of_ne_zero hroom
        have hlt : buf.filled < cap := Nat.lt_of_sub_pos hpos
        have hfault := fault_pollRead r buf.room
        cases hp : AsyncRead.pollRead r buf.room with
        | mk answer r' =>
            rw [hp] at hfault
            cases answer with
            | pending =>
                obtain ⟨hrest, hstall⟩ := pending_spec hp
                exact ⟨by rw [hrest], hfault, hlt, .inr ⟨hrest, hstall⟩⟩
            | ready result =>
                cases result with
                | error e =>
                    obtain ⟨hrest, herr⟩ := error_spec hp
                    exact ⟨by simpa [hrest] using hlt, herr, hfault⟩
                | ok chunk =>
                    obtain ⟨hrest, hend⟩ := chunk_spec hpos hp
                    dsimp only
                    by_cases hnil : chunk.1 = []
                    · rw [if_pos hnil]
                      obtain ⟨hr, hf⟩ := hend hnil
                      rw [hnil, hr] at hrest
                      exact ⟨by simp [hr], by simpa using hrest.symm, hfault, hf, hlt⟩
                    · rw [if_neg hnil]
                      have hshrink := FillBuf.room_write buf chunk
                      have hne := List.length_pos_iff.mpr hnil
                      have hle := (buf.write chunk).filled_le
                      exact (ih r' (buf.write chunk) (by omega) hle).of_chunk hrest hfault hnil

theorem fill_spec {cap : Nat} (r : ρ) (buf : FillBuf cap) : FillSpec r buf (fill r buf) :=
  fillLoop_spec buf.room r buf (Nat.le_refl _)

end ByteSource

/-! ## Scripted sources -/

/-- One answer of a scripted reader: not ready, or at most `n + 1` bytes. -/
inductive Turn where
  | pending
  | chunk (n : Nat)
deriving DecidableEq, Repr

/-- The byte string `bytes` under the schedule `turns`; a schedule that has run
out hands over whatever is asked for. -/
structure Script where
  bytes : List UInt8
  turns : List Turn
  fault : Option String
deriving DecidableEq, Repr

namespace Script

/-- The first `n` bytes, or the end of the stream. -/
def give (s : Script) (turns : List Turn) (n len : Nat) :
    Poll (Except String (Chunk len)) × Script :=
  match s.bytes, s.fault with
  | [], some e => (.ready (.error e), { s with turns })
  | bytes, _ =>
      (.ready (.ok ⟨bytes.take (min n len), by simp⟩),
        { s with bytes := bytes.drop (min n len), turns })

def pollRead (s : Script) (len : Nat) : Poll (Except String (Chunk len)) × Script :=
  match s.turns with
  | [] => s.give [] len len
  | .pending :: turns => (.pending, { s with turns })
  | .chunk n :: turns => s.give turns (n + 1) len

theorem give_fault (s : Script) (turns : List Turn) (n len : Nat) :
    (s.give turns n len).2.fault = s.fault := by
  unfold give
  split <;> rfl

theorem give_chunk {s s' : Script} {turns : List Turn} {n len : Nat} {chunk : Chunk len}
    (hn : 0 < n) (hlen : 0 < len) (h : s.give turns n len = (.ready (.ok chunk), s')) :
    s.bytes = chunk.1 ++ s'.bytes ∧ (chunk.1 = [] → s.bytes = [] ∧ s.fault = none) := by
  unfold give at h
  split at h
  · simp at h
  · rename_i hend
    simp only [Prod.mk.injEq, Poll.ready.injEq, Except.ok.injEq] at h
    obtain ⟨rfl, rfl⟩ := h
    refine ⟨(List.take_append_drop _ _).symm, fun hnil => ?_⟩
    have hb : s.bytes = [] := by
      rcases List.take_eq_nil_iff.mp hnil with h | h
      · omega
      · exact h
    refine ⟨hb, ?_⟩
    cases hf : s.fault with
    | none => rfl
    | some e => exact absurd hf (hend e hb)

theorem give_error {s s' : Script} {turns : List Turn} {n len : Nat} {e : String}
    (h : s.give turns n len = (.ready (.error e), s')) : s.bytes = [] ∧ s.fault = some e := by
  unfold give at h
  split at h
  · rename_i hb hf
    simp only [Prod.mk.injEq, Poll.ready.injEq, Except.error.injEq] at h
    exact ⟨hb, by rw [hf, h.1]⟩
  · simp at h

end Script

instance : ByteSource Script where
  pollRead := Script.pollRead
  rest s := s.bytes
  fault s := s.fault
  stall s := s.turns.length
  fault_pollRead s len := by
    unfold Script.pollRead
    split <;> simp [Script.give_fault]
  pending_spec {s len s'} h := by
    unfold Script.pollRead at h
    split at h
    · unfold Script.give at h
      split at h <;> simp at h
    · rename_i turns ht
      simp only [Prod.mk.injEq, true_and] at h
      subst h
      exact ⟨rfl, by simp [ht]⟩
    · unfold Script.give at h
      split at h <;> simp at h
  chunk_spec {s len chunk s'} hlen h := by
    unfold Script.pollRead at h
    split at h
    · exact Script.give_chunk hlen hlen h
    · simp at h
    · exact Script.give_chunk (Nat.succ_pos _) hlen h
  error_spec {s len e s'} h := by
    unfold Script.pollRead at h
    split at h
    · exact Script.give_error h
    · simp at h
    · exact Script.give_error h

end Async
