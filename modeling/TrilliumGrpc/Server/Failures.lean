import TrilliumGrpc.Server.Shapes
import TrilliumGrpc.StatusTrailers

/-! # The framework's own errors

Every error that the server side makes itself reports a failure and has no metadata. So a
status that is zero, or that has metadata, is the codec's or the user function's.
-/

namespace TrilliumGrpc

open Async HeaderMap Time

variable {φ H ρ Req Resp T F : Type}

/-- As the framework makes its errors. -/
def Status.Raised (s : Status) : Prop := s.code ≠ .ok ∧ s.metadata = .new

/-- A failure whose metadata can be built. -/
structure Status.Fails (H : Type) [HeaderMap H] [Base64] (s : Status) : Prop where
  code : s.code ≠ .ok
  metadata : s.metadata.Reachable H

theorem Status.raised_new {code : Code} (h : code ≠ .ok) (message : String) :
    (Status.new code message).Raised := ⟨h, rfl⟩

theorem Status.Raised.fails [HeaderMap H] [Base64] {s : Status} (h : s.Raised) : s.Fails H :=
  ⟨h.1, [], h.2.symm⟩

/-! ## Compression -/

theorem readCapped_error {r : Decoded} {maxSize : Nat} {ctx : String} {status : Status}
    (h : readCapped r maxSize ctx = .error status) : status.Raised := by
  rw [readCapped] at h
  dsimp only at h
  split at h
  · cases h
    exact Status.raised_new (by decide) _
  · split at h
    · cases h
      exact Status.raised_new (by decide) _
    · cases h

theorem mapError_error {α ε : Type} {f : ε → Status} {x : Except ε α} {status : Status}
    (hf : ∀ e, (f e).Raised) (h : x.mapError f = .error status) : status.Raised := by
  cases x with
  | error e => exact Except.error.inj h ▸ hf e
  | ok a => cases h

section

variable [CodecCrates]

theorem Encoding.compress_error {e : Encoding} {data : List UInt8} {status : Status}
    (h : e.compress data = .error status) : status.Raised := by
  cases e with
  | identity => cases h
  | gzip => exact mapError_error (fun _ => Status.raised_new (by decide) _) h
  | deflate => exact mapError_error (fun _ => Status.raised_new (by decide) _) h
  | zstd => exact mapError_error (fun _ => Status.raised_new (by decide) _) h

theorem Encoding.decompress_error {e : Encoding} {data : List UInt8} {maxSize : Nat}
    {status : Status} (h : e.decompress data maxSize = .error status) : status.Raised := by
  cases e with
  | identity =>
      rw [decompress] at h
      split at h
      · cases h
        exact Status.raised_new (by decide) _
      · cases h
  | gzip => exact readCapped_error h
  | deflate => exact readCapped_error h
  | zstd =>
      rw [decompress, zstdDecompress] at h
      split at h
      · cases h
        exact Status.raised_new (by decide) _
      · exact readCapped_error h

/-! ## Frames -/

theorem ReadConfig.deframe_error {cfg : ReadConfig T} {compressed : Bool} {payload : List UInt8}
    {status : Status} (h : cfg.deframe compressed payload = .error status) :
    status.Raised ∨ ∃ raw, cfg.decode raw = .error status := by
  rw [deframe] at h
  split at h
  · split at h
    · cases h
      exact .inl (Status.raised_new (by decide) _)
    · cases hraw : cfg.encoding.decompress payload cfg.maxMessageSize with
      | error own =>
          rw [hraw] at h
          cases h
          exact .inl (Encoding.decompress_error hraw)
      | ok raw =>
          rw [hraw] at h
          exact .inr ⟨raw, h⟩
  · exact .inr ⟨payload, h⟩

theorem framePayload_error {payload : List UInt8} {e : Encoding} {status : Status}
    (h : framePayload payload e = .error status) : status.Raised := by
  by_cases hidentity : e = .identity
  · subst hidentity
    cases h
  · rw [framePayload_of_ne hidentity] at h
    cases hout : e.compress payload with
    | error own =>
        rw [hout] at h
        cases h
        exact Encoding.compress_error hout
    | ok out => rw [hout] at h; cases h

theorem encodeFrame_eq {encode : Resp → Except Status (List UInt8)} {e : Encoding} {resp : Resp}
    {raw : List UInt8} (h : encode resp = .ok raw) :
    encodeFrame encode resp e = (framePayload raw e).map (fun out => frame out.1 out.2) := by
  rw [encodeFrame, h]
  rfl

variable [AsyncRead ρ]

theorem pollPayload_error {cfg : ReadConfig T} {r : ρ} {compressed : Bool} {len : Nat}
    {payload : FillBuf len} {status : Status}
    (h : (pollPayload cfg r compressed len payload).answer = .ready (some (.error status))) :
    status.Raised ∨ ∃ raw, cfg.decode raw = .error status := by
  rw [pollPayload] at h
  split at h
  · cases h
  · cases h
    exact .inl (Status.raised_new (by decide) _)
  · cases h
    exact .inl (Status.raised_new (by decide) _)
  · simp only [Poll.ready.injEq, Option.some.injEq] at h
    exact ReadConfig.deframe_error h

theorem pollReadMessage_error {cfg : ReadConfig T} {r : ρ} {state : ReadState} {status : Status}
    (h : (pollReadMessage cfg r state).answer = .ready (some (.error status))) :
    status.Raised ∨ ∃ raw, cfg.decode raw = .error status := by
  cases state with
  | done => cases h
  | readingPayload compressed len payload => exact pollPayload_error h
  | readingPrefix buf =>
      rw [pollReadMessage, pollPrefix] at h
      split at h
      · cases h
      · cases h
        exact .inl (Status.raised_new (by decide) _)
      · split at h
        · cases h
        · cases h
          exact .inl (Status.raised_new (by decide) _)
      · split at h
        · split at h
          · cases h
            exact .inl (Status.raised_new (by decide) _)
          · exact pollPayload_error h

theorem RequestStream.recv_config (requests : RequestStream T ρ) (future : RecvFuture) :
    (requests.recv future).2.1.config = requests.config := by
  have hconfig : requests.pollMessage.2.config = requests.config := rfl
  rw [recv]
  rcases hp : requests.pollMessage with ⟨_ | (_ | (own | message)), later⟩
  all_goals
    rw [hp] at hconfig
    exact hconfig

theorem RequestStream.recv_error {requests : RequestStream T ρ} {future : RecvFuture}
    {status : Status} (h : (requests.recv future).1 = .ready (.error status)) :
    status.Raised ∨ ∃ raw, requests.config.decode raw = .error status := by
  rw [recv] at h
  rcases hp : requests.pollMessage with ⟨_ | (_ | (own | message)), later⟩
  · rw [hp] at h; cases h
  · rw [hp] at h; cases h
  · rw [hp] at h
    cases h
    exact pollReadMessage_error (congrArg Prod.fst hp)
  · rw [hp] at h; cases h

end

/-! ## Calls -/

theorem Cancellation.polls_error {c : Cancellation} {started : Bool} {sig : Signals}
    {status : Status} (h : c.polls started sig = .error status) : status.Raised := by
  rw [polls] at h
  split at h
  · split at h
    · cases h
      exact Status.raised_new (by decide) _
    · cases h
  · split at h
    · cases h
      exact Status.raised_new (by decide) _
    · split at h
      · cases h
        exact Status.raised_new (by decide) _
      · cases h

/-- A poll is let through whole, or the framework's own error stands for it, or for its
answer. -/
theorem Cancellation.race_cases (c : Cancellation) (started : Bool) (sig : Signals)
    (poll : F → Poll (Except Status T) × F) (future : F) :
    (c.polls started sig = .ok () ∧ c.race started sig poll future = poll future) ∨
      ∃ status : Status, status.Raised ∧
        ((c.polls started sig = .error status ∧
            c.race started sig poll future = (.ready (.error status), future)) ∨
          c.polls started sig = .ok () ∧ ∃ future', poll future = (.pending, future') ∧
            c.race started sig poll future = (.ready (.error status), future')) := by
  rw [race]
  cases hpolls : c.polls started sig with
  | error status => exact .inr ⟨status, polls_error hpolls, .inl ⟨rfl, rfl⟩⟩
  | ok u =>
      dsimp only
      cases hp : poll future with
      | mk answer future' =>
          cases answer with
          | ready result => exact .inl ⟨rfl, rfl⟩
          | pending =>
              dsimp only
              by_cases hstop : sig.stopAfter = true
              · rw [if_pos hstop]
                exact .inr ⟨_, Status.raised_new (by decide) _, .inr ⟨rfl, _, rfl, rfl⟩⟩
              · rw [if_neg hstop]
                by_cases hdeadline : c.deadline.isSome ∧ sig.timer
                · rw [if_pos hdeadline]
                  exact .inr ⟨_, Status.raised_new (by decide) _, .inr ⟨rfl, _, rfl, rfl⟩⟩
                · rw [if_neg hdeadline]
                  exact .inl ⟨rfl, rfl⟩

/-- One that is refused before it starts is answered with an error of the framework's. -/
theorem startCall_error [HeaderMap H] [Features] {conn : Conn H ρ} {now now' : Instant}
    {status : Status} (h : startCall conn now now' = .ok (.error status)) : status.Raised := by
  rw [startCall] at h
  cases hencoding : extractRequestEncoding conn.requestHeaders with
  | error own =>
      rw [hencoding] at h
      cases h
      rw [extractRequestEncoding] at hencoding
      split at hencoding
      · cases hencoding
      · split at hencoding
        · cases hencoding
        · cases hencoding
          exact Status.raised_new (by decide) _
  | ok requestEncoding =>
      rw [hencoding] at h
      dsimp only at h
      rcases hdeadline : Cancellation.fromConn conn now with panic | (own | cancellation)
      · rw [hdeadline] at h; cases h
      · rw [hdeadline] at h
        cases h
        rw [Cancellation.fromConn] at hdeadline
        split at hdeadline
        · cases hdeadline
        · split at hdeadline
          · cases hdeadline
            exact Status.raised_new (by decide) _
          · split at hdeadline
            · obtain ⟨_, _, himpossible⟩ := exists_of_map_ok hdeadline
              cases himpossible
            · cases hdeadline
      · rw [hdeadline] at h
        obtain ⟨_, _, himpossible⟩ := exists_of_map_ok h
        cases himpossible

section

variable [HeaderMap H] [Base64]

/-- An empty body, and a `grpc-status` other than zero behind it. -/
def OneShotBody.Refuses (b : OneShotBody H) : Prop :=
  ByteSource.rest b = [] ∧ ∃ trailers code, b.trailers = some trailers ∧ code ≠ .ok ∧
    values trailers "grpc-status" = [.ofString (Code.asU8 code).repr]

theorem errorResponseWithTrailers_refuses (conn : Conn H ρ) {status : Status}
    (h : status.Fails H) (trailers : H) :
    (errorResponseWithTrailers conn status trailers).body.Refuses :=
  ⟨rfl, _, status.code, rfl, h.code, Status.values_status h.metadata.keys trailers⟩

theorem errorResponse_refuses (conn : Conn H ρ) {status : Status} (h : status.Fails H) :
    (errorResponse conn status).body.Refuses := errorResponseWithTrailers_refuses conn h empty

end

end TrilliumGrpc
