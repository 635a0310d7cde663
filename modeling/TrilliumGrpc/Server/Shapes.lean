import TrilliumGrpc.Server.Bidi
import TrilliumGrpc.Server.Body

/-! # The four call shapes

`unary_impl`, `client_streaming_impl`, `server_streaming_impl` and `bidi_prologue_impl` of
`src/server/dispatch.rs`, from the conn that preflight let through to the conn that is
handed back. A user function is a future that borrows the call's `GrpcServerConn` at each
poll; what the polls of its race meet is given.
-/

namespace TrilliumGrpc

open Async HeaderMap Time

variable {φ σ R H ρ Req Resp T F B : Type}

/-! ## Responses -/

/-- A conn that was given its body and halted. -/
structure Reply (H ρ B : Type) where
  conn : Conn H ρ
  body : B

def respond (conn : Conn H ρ) (body : B) : Reply H ρ B := ⟨conn, body⟩

section

variable [HeaderMap H] [Base64]

def errorResponseWithTrailers (conn : Conn H ρ) (status : Status) (trailers : H) :
    Reply H ρ (OneShotBody H) :=
  respond conn (.new [] (status.writeInto trailers))

def errorResponse (conn : Conn H ρ) (status : Status) : Reply H ρ (OneShotBody H) :=
  errorResponseWithTrailers conn status empty

def finishUnary [CodecCrates] (encode : Resp → Except Status (List UInt8)) (conn : Conn H ρ)
    (result : Except Status Resp) (responseEncoding : Encoding) (trailers : H) :
    Reply H ρ (OneShotBody H) :=
  match result with
  | .ok resp =>
      match encodeFrame encode resp responseEncoding with
      | .ok frame => respond conn (.new frame (Status.ok.writeInto trailers))
      | .error status => errorResponseWithTrailers conn status trailers
  | .error status => errorResponseWithTrailers conn status trailers

end

/-! ## User functions -/

/-- The future that a call of the function makes, and one poll of it. -/
structure Handler (φ H ρ Req T : Type) where
  call : Req → φ
  poll : φ → GrpcServerConn H ρ → Poll (Except Status T) × φ × GrpcServerConn H ρ

structure Handling (φ H ρ : Type) where
  future : φ
  grpc : GrpcServerConn H ρ

def Handler.resume (f : Handler φ H ρ Req T) (s : Handling φ H ρ) :
    Poll (Except Status T) × Handling φ H ρ :=
  match f.poll s.future s.grpc with
  | (answer, future, grpc) => (answer, ⟨future, grpc⟩)

/-! ## One request -/

def noRequest : Status :=
  .unimplemented "expected exactly one request message, but the request stream was empty"

def multipleRequests : Status :=
  .unimplemented "expected exactly one request message, but the request stream had more than one"

/-- The awaits of `read_one`, and of the user function behind it. -/
inductive OneRequestStage (φ ρ Req : Type) where
  | start
  | first (requests : RequestStream Req ρ) (future : RecvFuture)
  | second (request : Req) (requests : RequestStream Req ρ) (future : RecvFuture)
  | handling (future : φ)

/-- `async { let req = read_one(&mut grpc).await?; f(&mut grpc, req).await }`, with the
requests that the user function was called with. -/
structure OneRequest (φ H ρ Req : Type) where
  grpc : GrpcServerConn H ρ
  stage : OneRequestStage φ ρ Req
  invoked : List Req

namespace OneRequest

def new (grpc : GrpcServerConn H ρ) : OneRequest φ H ρ Req := ⟨grpc, .start, []⟩

/-- The conn, with its body where a stream that is dropped leaves it. -/
def release (s : OneRequest φ H ρ Req) : GrpcServerConn H ρ :=
  match s.stage with
  | .first requests _ => s.grpc.withBody requests.reader
  | .second _ requests _ => s.grpc.withBody requests.reader
  | _ => s.grpc

def pollHandler (f : Handler φ H ρ Req T) (s : OneRequest φ H ρ Req) (future : φ) :
    Poll (Except Status T) × OneRequest φ H ρ Req :=
  match f.poll future s.grpc with
  | (answer, future, grpc) => (answer, { s with grpc, stage := .handling future })

/-- The call of the user function, and the first poll of its future. -/
def invoke (f : Handler φ H ρ Req T) (s : OneRequest φ H ρ Req) (request : Req) :
    Poll (Except Status T) × OneRequest φ H ρ Req :=
  pollHandler f { s with invoked := s.invoked ++ [request] } (f.call request)

variable [AsyncRead ρ] [CodecCrates]

def pollSecond (f : Handler φ H ρ Req T) (s : OneRequest φ H ρ Req) (request : Req)
    (requests : RequestStream Req ρ) (future : RecvFuture) :
    Poll (Except Status T) × OneRequest φ H ρ Req :=
  match requests.recv future with
  | (.pending, requests, future) => (.pending, { s with stage := .second request requests future })
  | (.ready (.error status), requests, future) =>
      (.ready (.error status), { s with stage := .second request requests future })
  | (.ready (.ok (some _)), requests, future) =>
      (.ready (.error multipleRequests), { s with stage := .second request requests future })
  | (.ready (.ok none), requests, _) =>
      invoke f { s with grpc := s.grpc.withBody requests.reader } request

def pollFirst (f : Handler φ H ρ Req T) (s : OneRequest φ H ρ Req)
    (requests : RequestStream Req ρ) (future : RecvFuture) :
    Poll (Except Status T) × OneRequest φ H ρ Req :=
  match requests.recv future with
  | (.pending, requests, future) => (.pending, { s with stage := .first requests future })
  | (.ready (.error status), requests, future) =>
      (.ready (.error status), { s with stage := .first requests future })
  | (.ready (.ok none), requests, future) =>
      (.ready (.error noRequest), { s with stage := .first requests future })
  | (.ready (.ok (some request)), requests, _) => pollSecond f s request requests .unresumed

/-- One poll of the whole. -/
def poll (decode : List UInt8 → Except Status Req) (f : Handler φ H ρ Req T)
    (s : OneRequest φ H ρ Req) : Poll (Except Status T) × OneRequest φ H ρ Req :=
  match s.stage with
  | .start => pollFirst f s (s.grpc.requests decode) .unresumed
  | .first requests future => pollFirst f s requests future
  | .second request requests future => pollSecond f s request requests future
  | .handling future => pollHandler f s future

section

variable {f : Handler φ H ρ Req T} {K : GrpcServerConn H ρ → Prop}
  (hbody : ∀ grpc body, K grpc → K (grpc.withBody body))
  (hf : ∀ future grpc, K grpc → K (f.poll future grpc).2.2)

include hbody hf

theorem pollSecond_kept {s : OneRequest φ H ρ Req} (h : K s.grpc) (request : Req)
    (requests : RequestStream Req ρ) (future : RecvFuture) :
    K (pollSecond f s request requests future).2.grpc := by
  rw [pollSecond]
  rcases requests.recv future with ⟨_ | (status | _ | message), requests, future⟩
  · exact h
  · exact h
  · exact hf _ _ (hbody _ _ h)
  · exact h

theorem pollFirst_kept {s : OneRequest φ H ρ Req} (h : K s.grpc) (requests : RequestStream Req ρ)
    (future : RecvFuture) : K (pollFirst f s requests future).2.grpc := by
  rw [pollFirst]
  rcases requests.recv future with ⟨_ | (status | _ | request), requests, future⟩
  · exact h
  · exact h
  · exact h
  · exact pollSecond_kept hbody hf h request requests .unresumed

theorem poll_kept (decode : List UInt8 → Except Status Req) {s : OneRequest φ H ρ Req}
    (h : K s.grpc) : K (poll decode f s).2.grpc := by
  rw [poll]
  cases s.stage with
  | start => exact pollFirst_kept hbody hf h _ _
  | first requests future => exact pollFirst_kept hbody hf h requests future
  | second request requests future => exact pollSecond_kept hbody hf h request requests future
  | handling future => exact hf future s.grpc h

omit hf [AsyncRead ρ] [CodecCrates] in
theorem release_kept {s : OneRequest φ H ρ Req} (h : K s.grpc) : K s.release := by
  rw [release]
  cases s.stage with
  | first requests future => exact hbody _ _ h
  | second request requests future => exact hbody _ _ h
  | _ => exact h

end

end OneRequest

/-! ## Races -/

/-- The polls of a race: its result, if one of them ends it, and the future behind them. -/
def Cancellation.run (c : Cancellation) (poll : F → Poll (Except Status T) × F) :
    Bool → List Signals → F → Option (Except Status T) × F
  | _, [], future => (none, future)
  | started, sig :: sigs, future =>
      match c.race started sig poll future with
      | (.pending, future) => c.run poll true sigs future
      | (.ready result, future) => (some result, future)

theorem Cancellation.run_kept {c : Cancellation} {poll : F → Poll (Except Status T) × F}
    {Kept : F → Prop} (hpoll : ∀ s, Kept s → Kept (poll s).2) (started : Bool)
    (sigs : List Signals) {s : F} (hs : Kept s) : Kept (c.run poll started sigs s).2 := by
  induction sigs generalizing started s with
  | nil => exact hs
  | cons sig sigs ih =>
      have hrace : Kept (c.race started sig poll s).2 := by
        rcases c.race_state started sig poll s with heq | ⟨_, heq⟩
        · rwa [heq]
        · rw [heq]
          exact hpoll s hs
      rw [run]
      cases hp : c.race started sig poll s with
      | mk answer s' =>
          rw [hp] at hrace
          cases answer with
          | pending => exact ih true hrace
          | ready result => exact hrace

/-! ## Shapes -/

structure Admitted (H ρ : Type) where
  cancellation : Cancellation
  responseEncoding : Encoding
  grpc : GrpcServerConn H ρ

/-- How far a call has come: its response, once there is one, and the requests that the
user function was called with. -/
structure Dispatched (H ρ Req B : Type) where
  reply : Option (Reply H ρ B)
  invoked : List Req

/-- A server-streaming response. -/
inductive StreamReply (σ H Resp : Type) where
  | streaming (body : StreamBody σ H Resp)
  | failed (body : OneShotBody H)

/-- A bidi response: a conn that is upgraded has the call's state with it. -/
inductive BidiReply (R H Req Resp : Type) where
  | upgraded (state : BidiState H Req Resp) (responder : R)
  | rejected (body : OneShotBody H)

section

variable [HeaderMap H] [Features]

/-- The start of each: the two clock readings are `from_conn`'s and `GrpcServerConn::new`'s. -/
def startCall (conn : Conn H ρ) (now now' : Instant) : MayPanic (Except Status (Admitted H ρ)) :=
  match extractRequestEncoding conn.requestHeaders with
  | .error status => .ok (.error status)
  | .ok requestEncoding =>
      match Cancellation.fromConn conn now with
      | .error panic => .error panic
      | .ok (.error status) => .ok (.error status)
      | .ok (.ok cancellation) =>
          (GrpcServerConn.new conn requestEncoding now').map fun grpc =>
            .ok ⟨cancellation, negotiateResponseEncoding conn.requestHeaders, grpc⟩

/-- A call that is admitted starts on the conn as it is, with what its headers say. -/
theorem startCall_ok {conn : Conn H ρ} {now now' : Instant} {call : Admitted H ρ}
    (h : startCall conn now now' = .ok (.ok call)) :
    extractRequestEncoding conn.requestHeaders = .ok call.grpc.requestEncoding ∧
      call.responseEncoding = negotiateResponseEncoding conn.requestHeaders ∧
      call.grpc.conn = conn ∧ call.grpc.responseTrailers = empty := by
  rw [startCall] at h
  cases hencoding : extractRequestEncoding conn.requestHeaders with
  | error status => rw [hencoding] at h; cases h
  | ok requestEncoding =>
      rw [hencoding] at h
      dsimp only at h
      rcases hdeadline : Cancellation.fromConn conn now with panic | (status | cancellation)
      · rw [hdeadline] at h; cases h
      · rw [hdeadline] at h; cases h
      · rw [hdeadline] at h
        dsimp only at h
        rw [GrpcServerConn.new] at h
        cases htimeout : (getStr conn.requestHeaders "grpc-timeout").bind parseGrpcTimeout with
        | none =>
            rw [htimeout] at h
            cases h
            exact ⟨rfl, rfl, rfl, rfl⟩
        | some d =>
            rw [htimeout] at h
            dsimp only at h
            cases hsum : now'.add d with
            | error panic => rw [hsum] at h; cases h
            | ok instant =>
                rw [hsum] at h
                cases h
                exact ⟨rfl, rfl, rfl, rfl⟩

variable [AsyncRead ρ] [CodecCrates] [Base64]

def unaryImpl (decode : List UInt8 → Except Status Req) (encode : Resp → Except Status (List UInt8))
    (f : Handler φ H ρ Req Resp) (conn : Conn H ρ) (now now' : Instant) (sigs : List Signals) :
    MayPanic (Dispatched H ρ Req (OneShotBody H)) :=
  (startCall conn now now').map fun
    | .error status => ⟨some (errorResponse conn status), []⟩
    | .ok call =>
        let (result, s) :=
          call.cancellation.run (OneRequest.poll decode f) false sigs (.new call.grpc)
        let grpc := s.release
        ⟨result.map fun result =>
            finishUnary encode grpc.conn result call.responseEncoding grpc.responseTrailers,
          s.invoked⟩

omit [AsyncRead ρ] in
def clientStreamingImpl (encode : Resp → Except Status (List UInt8)) (f : Handler φ H ρ Unit Resp)
    (conn : Conn H ρ) (now now' : Instant) (sigs : List Signals) :
    MayPanic (Option (Reply H ρ (OneShotBody H))) :=
  (startCall conn now now').map fun
    | .error status => some (errorResponse conn status)
    | .ok call =>
        let (result, s) := call.cancellation.run f.resume false sigs ⟨f.call (), call.grpc⟩
        result.map fun result =>
          finishUnary encode s.grpc.conn result call.responseEncoding s.grpc.responseTrailers

def serverStreamingImpl (decode : List UInt8 → Except Status Req)
    (encode : Resp → Except Status (List UInt8)) (f : Handler φ H ρ Req σ) (conn : Conn H ρ)
    (now now' : Instant) (sigs : List Signals) :
    MayPanic (Dispatched H ρ Req (StreamReply σ H Resp)) :=
  (startCall conn now now').map fun
    | .error status => ⟨some ⟨conn, .failed (errorResponse conn status).body⟩, []⟩
    | .ok call =>
        let (result, s) :=
          call.cancellation.run (OneRequest.poll decode f) false sigs (.new call.grpc)
        let grpc := s.release
        ⟨result.map fun
          | .ok stream =>
              respond grpc.conn (.streaming
                (.new stream encode call.responseEncoding grpc.responseTrailers true))
          | .error status =>
              ⟨grpc.conn,
                .failed (errorResponseWithTrailers grpc.conn status grpc.responseTrailers).body⟩,
          s.invoked⟩

omit [AsyncRead ρ] [CodecCrates] in
def bidiPrologueImpl (decode : List UInt8 → Except Status Req)
    (encode : Resp → Except Status (List UInt8)) (prologue : Handler φ H ρ Unit R) (conn : Conn H ρ)
    (now now' : Instant) (sigs : List Signals) :
    MayPanic (Option (Reply H ρ (BidiReply R H Req Resp))) :=
  (startCall conn now now').map fun
    | .error status => some ⟨conn, .rejected (errorResponse conn status).body⟩
    | .ok call =>
        let (result, s) :=
          call.cancellation.run prologue.resume false sigs ⟨prologue.call (), call.grpc⟩
        let (conn, trailers) := (s.grpc.conn, s.grpc.responseTrailers)
        result.map fun
          | .ok responder =>
              ⟨conn, .upgraded
                { baseTrailers := trailers
                  decode
                  encode
                  requestEncoding := call.grpc.requestEncoding
                  responseEncoding := call.responseEncoding
                  deadline := s.grpc.deadline } responder⟩
          | .error status =>
              ⟨conn, .rejected (errorResponseWithTrailers conn status trailers).body⟩

end

end TrilliumGrpc
