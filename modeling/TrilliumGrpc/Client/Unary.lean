import TrilliumGrpc.Async.Drain
import TrilliumGrpc.Client.Deferred

/-! # Typed unary calls

The handle of `src/client/typed.rs` with one response, for unary and client-streaming
calls. Awaiting it drains the request stream into the engine, half-closes, and reads the
response up to its verdict. A step of the await is one poll of the future it stands at.
-/

namespace TrilliumGrpc

open Async HeaderMap Time

variable {ρ ω H Req Resp σ : Type}

/-! ## Handles -/

abbrev Outcome (Resp : Type) := Option Resp × Except Status Unit

structure UnaryConn (ρ ω H Req Resp σ : Type) where
  engine : GrpcClientConn ρ ω H Req Resp
  /-- The request source, until the call is awaited. -/
  requests : Option σ
  outcome : Option (Outcome Resp)

def notAwaited : Status := .internal "call has not been awaited"

def noMessage : Status := .internal "unary response had no message"

def multipleMessages : Status := .internal "unary response had multiple messages"

namespace UnaryConn

section

variable [HeaderMap H] [Features]

def unary [CodecCrates] (codec : Codec Req Resp) (defaultHeaders : H) (path : String)
    (request : Req) (now : Instant) : MayPanic (UnaryConn ρ ω H Req Resp σ) :=
  let engine : MayPanic (GrpcClientConn ρ ω H Req Resp) :=
    GrpcClientConn.new codec defaultHeaders path .new (defaultTimeout defaultHeaders) false now
  engine.map fun engine => ⟨engine.bufferRequest request, none, none⟩

def clientStreaming (codec : Codec Req Resp) (defaultHeaders : H) (path : String)
    (requests : σ) (now : Instant) : MayPanic (UnaryConn ρ ω H Req Resp σ) :=
  let engine : MayPanic (GrpcClientConn ρ ω H Req Resp) :=
    GrpcClientConn.new codec defaultHeaders path .new (defaultTimeout defaultHeaders) false now
  engine.map fun engine => ⟨engine, some requests, none⟩

end

def message (u : UnaryConn ρ ω H Req Resp σ) : Option Resp := u.outcome.bind Prod.fst

/-- The verdict, `Ok` before the call has run. -/
def status (u : UnaryConn ρ ω H Req Resp σ) : Except Status Unit :=
  (u.outcome.map Prod.snd).getD (.ok ())

def intoMessage (u : UnaryConn ρ ω H Req Resp σ) : Except Status Resp :=
  match u.outcome with
  | none => .error notAwaited
  | some (_, .error status) => .error status
  | some (none, .ok ()) => .error noMessage
  | some (some message, .ok ()) => .ok message

end UnaryConn

/-! ## Awaiting -/

inductive UnaryStage (H Req Resp σ : Type) where
  | pulling (requests : σ)
  | sending (requests : σ) (future : OpFuture H Req)
  | closing (future : OpFuture H Req)
  /-- The first `recv` of `read_unary`. -/
  | reading (future : OpFuture H Req)
  /-- The second, behind a message. -/
  | confirming (message : Resp) (future : OpFuture H Req)
  | finished (result : Except Status (Outcome Resp))

/-- A call under way, and the messages it has taken from its request stream. -/
structure UnaryAwait (ρ ω H Req Resp σ : Type) where
  call : Call ρ ω H Req Resp
  stage : UnaryStage H Req Resp σ
  pulled : List Req

/-- What an answer comes to; only a `recv` has an item. -/
def Answer.result : Answer Resp → Except Status (Option Resp)
  | .unit result => result.map fun _ => none
  | .item result => result

namespace UnaryAwait

section

variable [ResponseBody ρ H] [AsyncWrite ω] [CodecCrates] [HeaderMap H] [Base64] [Features]
  [AsyncStream σ Req]

/-- `into_future`, up to its first await. -/
def start (u : UnaryConn ρ ω H Req Resp σ) (world : World H) : UnaryAwait ρ ω H Req Resp σ :=
  { call := ⟨u.engine, world⟩
    stage :=
      match u.requests with
      | some requests => .pulling requests
      | none => .closing (.start .closeSend)
    pulled := [] }

/-- Where `read_unary` goes after its first `recv`. -/
def afterFirst : Except Status (Option Resp) → UnaryStage H Req Resp σ
  | .ok (some message) => .confirming message (.start .recv)
  | .ok none => .finished (.ok (none, .error noMessage))
  | .error status => .finished (.ok (none, .error status))

/-- And after its second. -/
def afterSecond (message : Resp) : Except Status (Option Resp) → Outcome Resp
  | .ok none => (some message, .ok ())
  | .ok (some _) => (none, .error multipleMessages)
  | .error status => (some message, .error status)

/-- One poll of the future that the call stands at, and what follows if it is ready. -/
def step (u : UnaryAwait ρ ω H Req Resp σ) (tick : Tick ρ ω H) : UnaryAwait ρ ω H Req Resp σ :=
  match u.stage with
  | .pulling requests =>
      match AsyncStream.pollNext requests with
      | (.pending, requests) => { u with stage := .pulling requests }
      | (.ready none, _) => { u with stage := .closing (.start .closeSend) }
      | (.ready (some message), requests) =>
          { u with
            stage := .sending requests (.start (.send message))
            pulled := u.pulled ++ [message] }
  | .sending requests future =>
      match u.call.poll tick future with
      | ⟨.pending, call, future⟩ => { u with call, stage := .sending requests future }
      | ⟨.ready answer, call, _⟩ =>
          match answer.result with
          | .error status => { u with call, stage := .finished (.error status) }
          | .ok _ => { u with call, stage := .pulling requests }
  | .closing future =>
      match u.call.poll tick future with
      | ⟨.pending, call, future⟩ => { u with call, stage := .closing future }
      | ⟨.ready answer, call, _⟩ =>
          match answer.result with
          | .error status => { u with call, stage := .finished (.error status) }
          | .ok _ => { u with call, stage := .reading (.start .recv) }
  | .reading future =>
      match u.call.poll tick future with
      | ⟨.pending, call, future⟩ => { u with call, stage := .reading future }
      | ⟨.ready answer, call, _⟩ => { u with call, stage := afterFirst answer.result }
  | .confirming message future =>
      match u.call.poll tick future with
      | ⟨.pending, call, future⟩ => { u with call, stage := .confirming message future }
      | ⟨.ready answer, call, _⟩ =>
          { u with call, stage := .finished (.ok (afterSecond message answer.result)) }
  | .finished _ => u

/-- As many polls as there are ticks. -/
def run (u : UnaryAwait ρ ω H Req Resp σ) (ticks : List (Tick ρ ω H)) :
    UnaryAwait ρ ω H Req Resp σ :=
  ticks.foldl step u

/-- What the await gives once it is through: the handle again, with its outcome. -/
def output (u : UnaryAwait ρ ω H Req Resp σ) :
    Option (Except Status (UnaryConn ρ ω H Req Resp σ)) :=
  match u.stage with
  | .finished result => some (result.map fun outcome => ⟨u.call.conn, none, some outcome⟩)
  | _ => none

@[simp] theorem run_nil (u : UnaryAwait ρ ω H Req Resp σ) : u.run [] = u := rfl

@[simp] theorem run_cons (u : UnaryAwait ρ ω H Req Resp σ) (tick : Tick ρ ω H)
    (ticks : List (Tick ρ ω H)) : u.run (tick :: ticks) = (u.step tick).run ticks := rfl

theorem run_append (u : UnaryAwait ρ ω H Req Resp σ) (ticks later : List (Tick ρ ω H)) :
    u.run (ticks ++ later) = (u.run ticks).run later :=
  List.foldl_append

end

end UnaryAwait

end TrilliumGrpc
