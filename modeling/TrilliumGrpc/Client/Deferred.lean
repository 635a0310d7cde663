import TrilliumGrpc.Client.Terminal

/-! # Errors of a call's construction

The builders of a call do not fail. The first error among them is kept in the conn, and
the operation that would issue the request gives it back instead.
-/

namespace TrilliumGrpc

open Async HeaderMap Time

variable {ρ ω H Req Resp : Type}

/-! ## Builders -/

/-- The calls that add to a request before it is issued. -/
inductive BuilderCall (Req : Type) where
  | withAsciiMetadata (key value : String)
  | withBinaryMetadata (key : String) (value : List UInt8)
  | bufferRequest (message : Req)

def errorOf {ε α : Type} : Except ε α → Option ε
  | .error e => some e
  | .ok _ => none

def invalidMetadata [UnicodeTables] (e : MetadataError) : Status :=
  .invalidArgument ("invalid metadata: " ++ e.message)

/-- What a builder call has to record; the metadata that is there plays no part in it. -/
def BuilderCall.error [UnicodeTables] (encodeMessage : Req → Except Status (List UInt8)) :
    BuilderCall Req → Option Status
  | .withAsciiMetadata key value =>
      (errorOf (Metadata.new.insertAscii key value)).map invalidMetadata
  | .withBinaryMetadata key value =>
      (errorOf (Metadata.new.insertBinary key value)).map invalidMetadata
  | .bufferRequest message => errorOf (encodeMessage message)

theorem errorOf_insertAscii (m : Metadata) (key value : String) :
    errorOf (m.insertAscii key value) = errorOf (Metadata.new.insertAscii key value) := by
  unfold Metadata.insertAscii validateKey
  by_cases hk : isValidKey key <;> by_cases hr : isReserved key <;>
    by_cases hb : endsWithBin key <;> by_cases hv : isValidAsciiValue value <;>
      simp [hk, hr, hb, hv, errorOf, bind, Except.bind, pure, Except.pure, throw, throwThe,
        MonadExceptOf.throw]

theorem errorOf_insertBinary (m : Metadata) (key : String) (value : List UInt8) :
    errorOf (m.insertBinary key value) = errorOf (Metadata.new.insertBinary key value) := by
  unfold Metadata.insertBinary validateKey
  by_cases hk : isValidKey key <;> by_cases hr : isReserved key <;>
    by_cases hb : endsWithBin key <;>
      simp [hk, hr, hb, errorOf, bind, Except.bind, pure, Except.pure, throw, throwThe,
        MonadExceptOf.throw]

namespace GrpcClientConn

variable [CodecCrates] [UnicodeTables]

def build (c : GrpcClientConn ρ ω H Req Resp) : BuilderCall Req → GrpcClientConn ρ ω H Req Resp
  | .withAsciiMetadata key value => c.addAsciiMetadata key value
  | .withBinaryMetadata key value => c.addBinaryMetadata key value
  | .bufferRequest message => c.bufferRequest message

def builds (c : GrpcClientConn ρ ω H Req Resp) (calls : List (BuilderCall Req)) :
    GrpcClientConn ρ ω H Req Resp :=
  calls.foldl build c

structure Recorded (c c' : GrpcClientConn ρ ω H Req Resp) (error : Option Status) : Prop where
  pending : c'.inner.IsPending
  encode : c'.encodeMessage = c.encodeMessage
  initError : c'.initError = (c.initError <|> error)

theorem addMetadata_spec {c : GrpcClientConn ρ ω H Req Resp}
    (h : c.inner.IsPending) (insert : Metadata → Except MetadataError Metadata)
    {error : Option MetadataError} (herror : ∀ m, errorOf (insert m) = error) :
    c.Recorded (c.addMetadata insert) (error.map invalidMetadata) := by
  cases hinner : c.inner with
  | pending p =>
      have hp := herror p.requestMetadata
      cases hinsert : insert p.requestMetadata with
      | ok requestMetadata =>
          rw [hinsert] at hp
          subst hp
          refine ⟨?_, ?_, ?_⟩ <;> simp only [addMetadata, hinner, hinsert]
          · trivial
          · rfl
          · cases c.initError <;> rfl
      | error e =>
          rw [hinsert] at hp
          subst hp
          refine ⟨?_, ?_, ?_⟩ <;> simp only [addMetadata, hinner, hinsert]
          · trivial
          · rfl
          · rfl
  | _ => rw [hinner] at h; exact h.elim

omit [UnicodeTables] in
theorem bufferRequest_spec {c : GrpcClientConn ρ ω H Req Resp} (h : c.inner.IsPending)
    (message : Req) : c.Recorded (c.bufferRequest message) (errorOf (c.encodeMessage message)) := by
  cases hframe : c.encodeMessage message with
  | error status =>
      refine ⟨?_, ?_, ?_⟩ <;> simp only [bufferRequest, hframe]
      · exact h
      · rfl
      · rfl
  | ok frame =>
      cases hinner : c.inner with
      | pending p =>
          refine ⟨?_, ?_, ?_⟩ <;> simp only [bufferRequest, hframe, hinner]
          · trivial
          · rfl
          · cases c.initError <;> rfl
      | _ => rw [hinner] at h; exact h.elim

theorem build_spec {c : GrpcClientConn ρ ω H Req Resp} (h : c.inner.IsPending)
    (call : BuilderCall Req) : c.Recorded (c.build call) (call.error c.encodeMessage) := by
  cases call with
  | withAsciiMetadata key value =>
      exact addMetadata_spec h _ fun m => errorOf_insertAscii m key value
  | withBinaryMetadata key value =>
      exact addMetadata_spec h _ fun m => errorOf_insertBinary m key value
  | bufferRequest message => exact bufferRequest_spec h message

theorem builds_spec {c : GrpcClientConn ρ ω H Req Resp} (h : c.inner.IsPending)
    (calls : List (BuilderCall Req)) :
    c.Recorded (c.builds calls) (calls.findSome? (BuilderCall.error c.encodeMessage)) := by
  induction calls generalizing c with
  | nil => exact ⟨h, rfl, by simp [builds]⟩
  | cons call rest ih =>
      obtain ⟨hpending, hencode, herror⟩ := build_spec h call
      obtain ⟨hpending', hencode', herror'⟩ := ih hpending
      refine ⟨hpending', hencode'.trans hencode, ?_⟩
      rw [builds, List.foldl_cons, ← builds, herror', herror, hencode, List.findSome?_cons]
      cases c.initError with
      | some status => rfl
      | none => cases call.error c.encodeMessage <;> rfl

end GrpcClientConn

/-! ## Runs -/

namespace Call

def Barred (s : Call ρ ω H Req Resp) (e : Status) : Prop :=
  s.conn.inner.IsPending ∧ s.conn.initError = some e

def Over (s : Call ρ ω H Req Resp) : Prop :=
  match s.conn.inner with
  | .failed _ => True
  | .done _ _ => True
  | _ => False

def Settles (s : Call ρ ω H Req Resp) (step : OpStep ρ ω H Req Resp) (answer : Answer Resp)
    (after : Call ρ ω H Req Resp → Prop) : Prop :=
  step.answer = .ready answer ∧ step.call.world = s.world ∧ after step.call

section

variable [ResponseBody ρ H] [AsyncWrite ω] [CodecCrates] [HeaderMap H] [Base64] [Features]
variable {s : Call ρ ω H Req Resp} {e : Status}

theorem drive_of_ready {future : OpFuture H Req} {tick : Tick ρ ω H} {answer : Answer Resp}
    (h : (s.poll tick future).answer = .ready answer) (ticks : List (Tick ρ ω H)) :
    (s.drive future (tick :: ticks)).1 = some answer ∧
      (s.drive future (tick :: ticks)).2.1 = (s.poll tick future).call := by
  rw [drive]
  rcases hpoll : s.poll tick future with ⟨answer', s', future'⟩
  rw [hpoll] at h
  dsimp only at h
  subst h
  exact ⟨rfl, rfl⟩

theorem Barred.send (h : s.Barred e) (message : Req) (tick : Tick ρ ω H) :
    ∃ answer, s.Settles (s.poll tick (.start (.send message))) answer (Barred · e) := by
  obtain ⟨hpending, herror⟩ := h
  rw [poll, startSend]
  cases hframe : s.conn.encodeMessage message with
  | error status => exact ⟨_, rfl, rfl, hpending, herror⟩
  | ok frame =>
      cases hinner : s.conn.inner with
      | pending p =>
          dsimp only
          by_cases hclosed : p.sendClosed
          · rw [if_pos hclosed]
            exact ⟨_, rfl, rfl, hpending, herror⟩
          · rw [if_neg hclosed]
            exact ⟨_, rfl, rfl, trivial, herror⟩
      | _ => rw [hinner] at hpending; exact hpending.elim

theorem materialize_of_error (h : s.conn.initError = some e) (p : Pending H) (op : Op Req)
    (tick : Tick ρ ω H) : s.Settles (s.materialize p op tick) (op.failure e) Over := by
  rw [materialize, h]
  exact ⟨rfl, rfl, trivial⟩

theorem Barred.opens (h : s.Barred e) {op : Op Req} (hop : op.Opens) (tick : Tick ρ ω H) :
    s.Settles (s.poll tick (.start op)) (op.failure e) Over := by
  obtain ⟨hpending, herror⟩ := h
  cases hinner : s.conn.inner with
  | pending p =>
      cases op with
      | send message => cases hop
      | closeSend =>
          rw [poll, startClose, hinner]
          exact materialize_of_error herror _ _ tick
      | openHead =>
          rw [poll, startOpenHead, hinner]
          exact materialize_of_error herror _ _ tick
      | recv =>
          rw [poll, startRecv, hinner]
          exact materialize_of_error herror _ _ tick
  | _ => rw [hinner] at hpending; exact hpending.elim

theorem Over.poll (h : s.Over) (op : Op Req) (tick : Tick ρ ω H) :
    ∃ answer, s.Settles (s.poll tick (.start op)) answer Over := by
  rcases s with ⟨conn, world⟩
  cases hinner : conn.inner with
  | failed status =>
      cases op with
      | send message =>
          simp only [Call.poll, startSend, hinner]
          cases conn.encodeMessage message <;> exact ⟨_, rfl, rfl, h⟩
      | closeSend =>
          simp only [Call.poll, startClose, hinner]
          exact ⟨_, rfl, rfl, h⟩
      | openHead =>
          simp only [Call.poll, startOpenHead, hinner]
          exact ⟨_, rfl, rfl, h⟩
      | recv =>
          simp only [Call.poll, startRecv, deliver, hinner]
          exact ⟨_, rfl, rfl, trivial⟩
  | done responseHeaders trailers =>
      cases op with
      | send message =>
          simp only [Call.poll, startSend, hinner]
          cases conn.encodeMessage message <;> exact ⟨_, rfl, rfl, h⟩
      | closeSend =>
          simp only [Call.poll, startClose, hinner]
          exact ⟨_, rfl, rfl, h⟩
      | openHead =>
          simp only [Call.poll, startOpenHead, hinner]
          exact ⟨_, rfl, rfl, h⟩
      | recv =>
          simp only [Call.poll, startRecv, deliver, hinner]
          exact ⟨_, rfl, rfl, h⟩
  | _ => simp only [Over, hinner] at h

theorem Settles.drive {op : Op Req} {tick : Tick ρ ω H} {answer : Answer Resp}
    {after : Call ρ ω H Req Resp → Prop}
    (h : s.Settles (s.poll tick (.start op)) answer after) (ticks : List (Tick ρ ω H)) :
    (s.drive (.start op) (tick :: ticks)).1 = some answer ∧
      (s.drive (.start op) (tick :: ticks)).2.1.world = s.world ∧
      after (s.drive (.start op) (tick :: ticks)).2.1 := by
  obtain ⟨hanswer, hworld, hafter⟩ := h
  obtain ⟨hdrive, hcall⟩ := drive_of_ready hanswer ticks
  exact ⟨hdrive, hcall ▸ hworld, hcall ▸ hafter⟩

theorem Over.run (h : s.Over) (ops : List (Op Req × List (Tick ρ ω H))) :
    (s.run ops).2.world = s.world := by
  induction ops generalizing s with
  | nil => rfl
  | cons entry rest ih =>
      obtain ⟨op, ticks⟩ := entry
      rw [run_cons]
      cases ticks with
      | nil => exact ih h
      | cons tick ticks =>
          obtain ⟨answer, hsettles⟩ := h.poll op tick
          obtain ⟨_, hworld, hover⟩ := hsettles.drive ticks
          exact (ih hover).trans hworld

end

end Call

/-- The first operation of a run that was polled and would issue the request. -/
def firstPolled (ops : List (Op Req × List (Tick ρ ω H))) :
    Option (Op Req × List (Tick ρ ω H)) :=
  ops.find? fun entry => entry.1.Opens && !entry.2.isEmpty

def firstAnswered (log : List (Op Req × Option (Answer Resp))) :
    Option (Op Req × Option (Answer Resp)) :=
  log.find? fun entry => entry.1.Opens && entry.2.isSome

section

variable [ResponseBody ρ H] [AsyncWrite ω] [CodecCrates] [HeaderMap H] [Base64] [Features]

theorem Call.Barred.run {s : Call ρ ω H Req Resp} {e : Status} (h : s.Barred e)
    (ops : List (Op Req × List (Tick ρ ω H))) :
    (s.run ops).2.world = s.world ∧
      firstAnswered (s.run ops).1 =
        (firstPolled ops).map fun entry => (entry.1, some (entry.1.failure e)) := by
  induction ops generalizing s with
  | nil => exact ⟨rfl, rfl⟩
  | cons entry rest ih =>
      obtain ⟨op, ticks⟩ := entry
      rw [Call.run_cons, firstAnswered, firstPolled, List.find?_cons, List.find?_cons,
        ← firstAnswered, ← firstPolled]
      cases ticks with
      | nil =>
          have hnone : (s.drive (.start op) []).1 = none := rfl
          simp only [hnone, Option.isSome_none, List.isEmpty_nil, Bool.not_true, Bool.and_false]
          exact ih h
      | cons tick ticks =>
          by_cases hop : op.Opens
          · obtain ⟨hanswer, hworld, hover⟩ := (h.opens hop tick).drive ticks
            simp only [hanswer, hop, Option.isSome_some, List.isEmpty_cons, Bool.not_false,
              Bool.and_true]
            exact ⟨(hover.run rest).trans hworld, rfl⟩
          · cases op with
            | send message =>
                obtain ⟨answer, hsettles⟩ := h.send message tick
                obtain ⟨_, hworld, hbarred⟩ := hsettles.drive ticks
                obtain ⟨hrest, hfirst⟩ := ih hbarred
                exact ⟨hrest.trans hworld, hfirst⟩
            | _ => exact absurd rfl hop

/-- A call with an error among its builders puts nothing on the wire, and what would
have issued it first gives the first error. -/
theorem recorded_error_bars_call {c : GrpcClientConn ρ ω H Req Resp}
    (hpending : c.inner.IsPending) (hclean : c.initError = none) (calls : List (BuilderCall Req))
    {e : Status} (herror : calls.findSome? (BuilderCall.error c.encodeMessage) = some e)
    (w : World H) (ops : List (Op Req × List (Tick ρ ω H))) :
    ((⟨c.builds calls, w⟩ : Call ρ ω H Req Resp).run ops).2.world.requests = w.requests ∧
      ((⟨c.builds calls, w⟩ : Call ρ ω H Req Resp).run ops).2.world.live = w.live ∧
      firstAnswered ((⟨c.builds calls, w⟩ : Call ρ ω H Req Resp).run ops).1 =
        (firstPolled ops).map fun entry => (entry.1, some (entry.1.failure e)) := by
  obtain ⟨hbuilt, _, hinit⟩ := GrpcClientConn.builds_spec hpending calls
  have hbarred : (⟨c.builds calls, w⟩ : Call ρ ω H Req Resp).Barred e := by
    refine ⟨hbuilt, ?_⟩
    rw [hinit, hclean, herror]
    rfl
  obtain ⟨hworld, hfirst⟩ := hbarred.run ops
  exact ⟨congrArg World.requests hworld, congrArg World.live hworld, hfirst⟩

end

/-- A reserved key, then a send and a wait for the response. -/
theorem reserved_key_bars_call :
    letI := storedCrates
    letI := standardNoPad
    letI := allFeatures
    ((⟨(plainConn true).builds [.withAsciiMetadata "grpc-tag" "1"], .fresh epoch⟩ :
      Call ScriptedBody SinkScript HeaderList (List UInt8) (List UInt8)).run
        [(.send [7], [quietTick .connecting]), (.recv, [quietTick .sent])]).2.world.requests = [] := by
  let _ := storedCrates
  let _ := standardNoPad
  let _ := allFeatures
  exact (recorded_error_bars_call (c := plainConn true) trivial rfl
    [.withAsciiMetadata "grpc-tag" "1"] rfl (.fresh epoch) _).1

end TrilliumGrpc
