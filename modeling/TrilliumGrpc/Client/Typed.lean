import TrilliumGrpc.Client.Issue

/-! # Typed streaming calls

The handles of `src/client/typed.rs` that are streams of responses. A poll of the
stream moves the engine into the future of one `recv`, which hands it back when it
resolves; every other method expects the engine in its place.
-/

namespace TrilliumGrpc

open Async HeaderMap Time

variable {ρ ω H Req Resp : Type}

/-! ## Handles -/

/-- The engine between polls, and the `recv` that owns it while it runs. -/
structure StreamingConn (ρ ω H Req Resp : Type) where
  engine : Option (GrpcClientConn ρ ω H Req Resp)
  inFlight : Option (GrpcClientConn ρ ω H Req Resp × OpFuture H Req)

/-- The same fields, over a full-duplex engine. -/
abbrev BidiConn := StreamingConn

structure TypedCall (ρ ω H Req Resp : Type) where
  conn : StreamingConn ρ ω H Req Resp
  world : World H

def TypedCall.new (s : Call ρ ω H Req Resp) : TypedCall ρ ω H Req Resp :=
  ⟨⟨some s.conn, none⟩, s.world⟩

def enginePresent : Panic := ⟨"engine present between polls"⟩

def defaultTimeout [HeaderMap H] (defaultHeaders : H) : Option Duration :=
  (getStr defaultHeaders "grpc-timeout").bind parseGrpcTimeout

namespace StreamingConn

section

variable [HeaderMap H] [Features]

/-- The one request is buffered; it goes out with the first `recv`. -/
def serverStreaming [CodecCrates] (codec : Codec Req Resp) (defaultHeaders : H) (path : String)
    (request : Req) (now : Instant) : MayPanic (StreamingConn ρ ω H Req Resp) :=
  let engine : MayPanic (GrpcClientConn ρ ω H Req Resp) :=
    GrpcClientConn.new codec defaultHeaders path .new (defaultTimeout defaultHeaders) false now
  engine.map (fun engine => ⟨some (engine.bufferRequest request), none⟩)

def bidi (codec : Codec Req Resp) (defaultHeaders : H) (path : String) (now : Instant) :
    MayPanic (BidiConn ρ ω H Req Resp) :=
  let engine : MayPanic (GrpcClientConn ρ ω H Req Resp) :=
    GrpcClientConn.new codec defaultHeaders path .new (defaultTimeout defaultHeaders) true now
  engine.map (fun engine => ⟨some engine, none⟩)

end

/-- `engine` and `engine_mut`. -/
def engineRef (c : StreamingConn ρ ω H Req Resp) : MayPanic (GrpcClientConn ρ ω H Req Resp) :=
  match c.engine with
  | some engine => .ok engine
  | none => .error enginePresent

/-- The future a poll of the stream goes on with, a fresh one if there is none. -/
def launch (c : StreamingConn ρ ω H Req Resp) : MayPanic (StreamingConn ρ ω H Req Resp) :=
  match c.inFlight with
  | some _ => .ok c
  | none => c.engineRef.map (fun engine => ⟨none, some (engine, .start .recv)⟩)

end StreamingConn

/-- The item of a finished `recv`; no other answer comes from its future. -/
def Answer.streamItem : Answer Resp → Option (Except Status Resp)
  | .item (.ok message) => message.map .ok
  | .item (.error status) => some (.error status)
  | .unit _ => none

/-! ## Operations -/

/-- The methods that take the handle by reference. `call` makes the future of
`recv`, `send` or `close_send` and polls it as often as there are ticks. -/
inductive TypedOp (ρ ω H Req : Type) where
  | pollNext (tick : Tick ρ ω H)
  | call (op : Op Req) (ticks : List (Tick ρ ω H))
  | cancelHandle
  | metadata
  | trailers

inductive TypedAnswer (H Resp : Type) where
  | polled (answer : Poll (Option (Except Status Resp)))
  | called (answer : Option (Answer Resp))
  | handle
  | headers (headers : Option H)

namespace TypedCall

section

variable [ResponseBody ρ H] [AsyncWrite ω] [CodecCrates] [HeaderMap H] [Base64] [Features]

/-- One poll of the future in flight, which hands the engine back when it is done. -/
def pollInFlight (conn : StreamingConn ρ ω H Req Resp) (world : World H)
    (inFlight : GrpcClientConn ρ ω H Req Resp × OpFuture H Req) (tick : Tick ρ ω H) :
    Poll (Option (Except Status Resp)) × TypedCall ρ ω H Req Resp :=
  let step := Call.poll ⟨inFlight.1, world⟩ tick inFlight.2
  match step.answer with
  | .pending =>
      (.pending, ⟨⟨conn.engine, some (step.call.conn, step.future)⟩, step.call.world⟩)
  | .ready answer => (.ready answer.streamItem, ⟨⟨some step.call.conn, none⟩, step.call.world⟩)

def pollNext (s : TypedCall ρ ω H Req Resp) (tick : Tick ρ ω H) :
    MayPanic (Poll (Option (Except Status Resp)) × TypedCall ρ ω H Req Resp) := do
  let conn ← s.conn.launch
  match conn.inFlight with
  | some inFlight => .ok (pollInFlight conn s.world inFlight tick)
  | none => .error ⟨"called `Option::unwrap()` on a `None` value"⟩

/-- A future that is never polled does not run, so it does not ask for the engine. -/
def call (s : TypedCall ρ ω H Req Resp) (op : Op Req) :
    List (Tick ρ ω H) → MayPanic (Option (Answer Resp) × TypedCall ρ ω H Req Resp)
  | [] => .ok (none, s)
  | tick :: ticks =>
      s.conn.engineRef.map (fun engine =>
        let (answer, s', _) := Call.drive ⟨engine, s.world⟩ (.start op) (tick :: ticks)
        (answer, ⟨{ s.conn with engine := some s'.conn }, s'.world⟩))

def step (s : TypedCall ρ ω H Req Resp) :
    TypedOp ρ ω H Req → MayPanic (TypedAnswer H Resp × TypedCall ρ ω H Req Resp)
  | .pollNext tick => (s.pollNext tick).map (fun (answer, s') => (.polled answer, s'))
  | .call op ticks => (s.call op ticks).map (fun (answer, s') => (.called answer, s'))
  | .cancelHandle => s.conn.engineRef.map (fun _ => (.handle, s))
  | .metadata => s.conn.engineRef.map (fun engine => (.headers engine.headers, s))
  | .trailers => s.conn.engineRef.map (fun engine => (.headers engine.trailers, s))

/-- A panic ends the run. -/
def run (s : TypedCall ρ ω H Req Resp) :
    List (TypedOp ρ ω H Req) → MayPanic (List (TypedAnswer H Resp) × TypedCall ρ ω H Req Resp)
  | [] => .ok ([], s)
  | op :: ops => do
      let (answer, s') ← s.step op
      let (answers, s'') ← s'.run ops
      .ok (answer :: answers, s'')

end

end TypedCall

/-! ## Where the engine is -/

def TypedOp.UsesEngine : TypedOp ρ ω H Req → Prop
  | .pollNext _ => False
  | .call _ ticks => ticks ≠ []
  | _ => True

/-- Whether the last poll of the stream was not ready, given that it was not before
this answer. -/
def TypedAnswer.stillPending (pending : Bool) : TypedAnswer H Resp → Bool
  | .polled .pending => true
  | .polled (.ready _) => false
  | _ => pending

namespace TypedCall

/-- The engine is in exactly one of its two places. -/
structure Placed (s : TypedCall ρ ω H Req Resp) (pending : Bool) : Prop where
  engine : s.conn.engine.isSome = !pending
  inFlight : s.conn.inFlight.isSome = pending

theorem new_placed (s : Call ρ ω H Req Resp) : (new s).Placed false := ⟨rfl, rfl⟩

theorem Placed.engineRef {s : TypedCall ρ ω H Req Resp} (h : s.Placed false) :
    ∃ engine, s.conn.engine = some engine ∧ s.conn.engineRef = .ok engine := by
  obtain ⟨engine, hengine⟩ := Option.isSome_iff_exists.mp h.engine
  exact ⟨engine, hengine, by rw [StreamingConn.engineRef, hengine]⟩

theorem Placed.engineRef_panics {s : TypedCall ρ ω H Req Resp} (h : s.Placed true) :
    s.conn.engineRef = .error enginePresent := by
  have hnone : s.conn.engine = none := by simpa using h.engine
  rw [StreamingConn.engineRef, hnone]

theorem Placed.launch {s : TypedCall ρ ω H Req Resp} {pending : Bool} (h : s.Placed pending) :
    ∃ inFlight, s.conn.launch = .ok ⟨none, some inFlight⟩ := by
  obtain ⟨⟨engine, inFlight⟩, world⟩ := s
  cases pending with
  | false =>
      obtain ⟨e, hengine, href⟩ := h.engineRef
      have hflight : inFlight = none := by simpa using h.inFlight
      simp only at hengine href
      exact ⟨(e, .start .recv), by simp [StreamingConn.launch, hflight, hengine,
        StreamingConn.engineRef, Except.map]⟩
  | true =>
      have hnone : engine = none := by simpa using h.engine
      obtain ⟨flight, hflight⟩ := Option.isSome_iff_exists.mp h.inFlight
      simp only at hflight
      exact ⟨flight, by simp [StreamingConn.launch, hflight, hnone]⟩

section

variable [ResponseBody ρ H] [AsyncWrite ω] [CodecCrates] [HeaderMap H] [Base64] [Features]

theorem Placed.pollNext {s : TypedCall ρ ω H Req Resp} {pending : Bool} (h : s.Placed pending)
    (tick : Tick ρ ω H) : ∃ answer s', s.pollNext tick = .ok (answer, s') ∧
      s'.Placed (match answer with | .pending => true | .ready _ => false) := by
  obtain ⟨inFlight, hlaunch⟩ := h.launch
  simp only [TypedCall.pollNext, hlaunch, bind, Except.bind, pollInFlight]
  cases (Call.poll ⟨inFlight.1, s.world⟩ tick inFlight.2).answer with
  | pending => exact ⟨_, _, rfl, rfl, rfl⟩
  | ready answer => exact ⟨_, _, rfl, rfl, rfl⟩

theorem Placed.call {s : TypedCall ρ ω H Req Resp} (h : s.Placed false) (op : Op Req)
    (ticks : List (Tick ρ ω H)) :
    ∃ answer s', s.call op ticks = .ok (answer, s') ∧ s'.Placed false := by
  cases ticks with
  | nil => exact ⟨_, _, rfl, h⟩
  | cons tick ticks =>
      obtain ⟨engine, _, href⟩ := h.engineRef
      simp only [TypedCall.call, href, Except.map]
      exact ⟨_, _, rfl, rfl, h.inFlight⟩

/-- A method that finds the engine in place leaves it where its answer says. -/
theorem Placed.step {s : TypedCall ρ ω H Req Resp} {pending : Bool} (h : s.Placed pending)
    (op : TypedOp ρ ω H Req) (hplace : op.UsesEngine → pending = false) :
    ∃ answer s', s.step op = .ok (answer, s') ∧ s'.Placed (answer.stillPending pending) := by
  cases op with
  | pollNext tick =>
      obtain ⟨answer, s', hpoll, hplaced⟩ := h.pollNext tick
      refine ⟨.polled answer, s', by simp [TypedCall.step, hpoll, Except.map], ?_⟩
      cases answer with
      | pending => exact hplaced
      | ready item => exact hplaced
  | call op ticks =>
      cases ticks with
      | nil => exact ⟨.called none, s, rfl, h⟩
      | cons tick ticks =>
          obtain rfl := hplace (List.cons_ne_nil tick ticks)
          obtain ⟨answer, s', hcall, hplaced⟩ := h.call op (tick :: ticks)
          exact ⟨.called answer, s', by simp [TypedCall.step, hcall, Except.map], hplaced⟩
  | cancelHandle =>
      obtain rfl := hplace trivial
      obtain ⟨engine, _, href⟩ := h.engineRef
      exact ⟨.handle, s, by simp [TypedCall.step, href, Except.map], h⟩
  | metadata =>
      obtain rfl := hplace trivial
      obtain ⟨engine, _, href⟩ := h.engineRef
      exact ⟨.headers engine.headers, s, by simp [TypedCall.step, href, Except.map], h⟩
  | trailers =>
      obtain rfl := hplace trivial
      obtain ⟨engine, _, href⟩ := h.engineRef
      exact ⟨.headers engine.trailers, s, by simp [TypedCall.step, href, Except.map], h⟩

theorem Placed.step_panics {s : TypedCall ρ ω H Req Resp} (h : s.Placed true)
    {op : TypedOp ρ ω H Req} (huses : op.UsesEngine) : s.step op = .error enginePresent := by
  have href := h.engineRef_panics
  cases op with
  | pollNext tick => exact huses.elim
  | call op ticks =>
      cases ticks with
      | nil => exact absurd rfl huses
      | cons tick ticks => simp [TypedCall.step, TypedCall.call, href, Except.map]
  | cancelHandle => simp [TypedCall.step, href, Except.map]
  | metadata => simp [TypedCall.step, href, Except.map]
  | trailers => simp [TypedCall.step, href, Except.map]

/-- No method that needs the engine is called while the last poll of the stream was
not ready. -/
def BetweenPolls (s : TypedCall ρ ω H Req Resp) (pending : Bool) :
    List (TypedOp ρ ω H Req) → Prop
  | [] => True
  | op :: ops => (op.UsesEngine → pending = false) ∧
      ∀ answer s', s.step op = .ok (answer, s') →
        s'.BetweenPolls (answer.stillPending pending) ops

theorem Placed.run_iff {s : TypedCall ρ ω H Req Resp} {pending : Bool} (h : s.Placed pending)
    (ops : List (TypedOp ρ ω H Req)) :
    (∃ result, s.run ops = .ok result) ↔ s.BetweenPolls pending ops := by
  induction ops generalizing s pending with
  | nil => exact ⟨fun _ => trivial, fun _ => ⟨_, rfl⟩⟩
  | cons op ops ih =>
      by_cases hplace : op.UsesEngine → pending = false
      · obtain ⟨answer, s', hstep, hplaced⟩ := h.step op hplace
        have hrun : (∃ result, s.run (op :: ops) = .ok result) ↔
            ∃ result, s'.run ops = .ok result := by
          simp only [run, hstep, bind, Except.bind]
          cases s'.run ops <;> simp
        rw [hrun, ih hplaced, BetweenPolls]
        constructor
        · intro hnext
          refine ⟨hplace, fun answer' s'' heq => ?_⟩
          rw [hstep] at heq
          cases heq
          exact hnext
        · exact fun hnext => hnext.2 answer s' hstep
      · obtain ⟨huses, hpending⟩ := Classical.not_imp.mp hplace
        obtain rfl : pending = true := by simpa using hpending
        rw [BetweenPolls, run, h.step_panics huses]
        simp [bind, Except.bind, huses]

/-- A handle's run meets no missing engine exactly when its methods are called
between polls that were ready. -/
theorem engine_present_iff (s : Call ρ ω H Req Resp) (ops : List (TypedOp ρ ω H Req)) :
    (∃ result, (new s).run ops = .ok result) ↔ (new s).BetweenPolls false ops :=
  (new_placed s).run_iff ops

end

/-- The head is not in yet when the metadata is asked for. -/
theorem metadata_while_pending_panics :
    letI := storedCrates
    letI := standardNoPad
    letI := allFeatures
    (new (plainCall false)).run [.pollNext (quietTick .sent), .metadata] =
      .error enginePresent := by
  let _ := storedCrates
  let _ := standardNoPad
  let _ := allFeatures
  rfl

end TypedCall

end TrilliumGrpc
