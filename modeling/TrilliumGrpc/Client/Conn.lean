import TrilliumGrpc.Async.Write
import TrilliumGrpc.ContentType
import TrilliumGrpc.Frame.Refinement
import TrilliumGrpc.Timeout

/-! # The client connection

`src/client/conn.rs`. Every operation is a future that may be suspended where the
source awaits; `poll` takes it from there on. What a poll meets outside the conn is
its `Tick`: the cancel flag, the clock and its timer, and the request future of
the HTTP client. The response body, its trailers and the write half of an upgrade
are the transport's.
-/

namespace TrilliumGrpc

open Async HeaderMap Time

/-- A response body, and the trailers once they are in. -/
class ResponseBody (ρ : Type) (H : outParam Type) extends AsyncRead ρ where
  trailers : ρ → Option H

/-! ## State -/

/-- What is known of a call before its request is issued. -/
structure Pending (H : Type) where
  /-- The headers the HTTP client starts each request from. -/
  defaultHeaders : H
  path : String
  contentType : String
  requestMetadata : Metadata
  body : List UInt8
  sendClosed : Bool

/-- The response side once the head is in; `R` is the owned reader. -/
structure Live (R H : Type) where
  reader : R
  responseHeaders : H
  readState : ReadState
  responseEncoding : Encoding
  headStatus : Option (Except Status Unit)

structure Duplex (ρ ω : Type) where
  reader : ρ
  writer : ω

inductive Inner (ρ ω H : Type) where
  | pending (p : Pending H)
  | reading (live : Live ρ H)
  | duplex (live : Live (Duplex ρ ω) H)
  | done (responseHeaders trailers : H)
  | failed (status : Status)

structure GrpcClientConn (ρ ω H Req Resp : Type) where
  inner : Inner ρ ω H
  decode : List UInt8 → Except Status Resp
  encode : Req → Except Status (List UInt8)
  outboundEncoding : Encoding
  maxMessageSize : Nat
  fullDuplex : Bool
  deadline : Option Instant
  initError : Option Status

/-- How one direction's messages become bytes and the other's are read. -/
structure Codec (Req Resp : Type) where
  contentTypeSuffix : String
  encode : Req → Except Status (List UInt8)
  decode : List UInt8 → Except Status Resp

/-- A request as the HTTP client puts it on the wire: with its end, or left open
behind the given bytes for the writes of an upgrade. -/
structure Request (H : Type) where
  path : String
  headers : H
  body : List UInt8
  endStream : Bool

structure Response (ρ ω H : Type) where
  status : Option Nat
  headers : H
  reader : ρ
  writer : ω

/-- The cancel flag all handles share, the clock as last read, and what the conn
has put on the wire: its requests, and the live writes behind them. -/
structure World (H : Type) where
  cancelled : Bool
  now : Instant
  requests : List (Request H)
  live : List UInt8

def World.fresh {H : Type} (now : Instant) : World H := ⟨false, now, [], []⟩

structure Call (ρ ω H Req Resp : Type) where
  conn : GrpcClientConn ρ ω H Req Resp
  world : World H

/-! ## What a poll meets -/

/-- Whether `cancel` has been called, the clock, and whether the timer has fired. -/
structure Moment where
  cancel : Bool
  now : Instant
  timer : Bool
deriving DecidableEq, Repr

/-- One poll of the request future: not sent yet, sent and waiting for the head,
failed before or after it was sent, or answered. -/
inductive NetPoll (ρ ω H : Type) where
  | connecting
  | sent
  | refused (e : String)
  | broken (e : String)
  | response (r : Response ρ ω H)

/-- The clock when a request is built, the signals of the race for the head, the
request future, and the signals of the race for a read or a write. -/
structure Tick (ρ ω H : Type) where
  build : Instant
  opening : Moment
  net : NetPoll ρ ω H
  live : Moment

variable {ρ ω H Req Resp : Type}

def World.observe (w : World H) (m : Moment) : World H :=
  { w with cancelled := w.cancelled || m.cancel, now := w.now.later m.now }

def callCancelled : Status := .cancelled "call cancelled"

def deadlinePassed : Status := .deadlineExceeded "deadline elapsed"

/-- What a race finds before it polls its future: a deadline that has passed when
the race starts, then the cancellation, then the timer. -/
def interrupt (deadline : Option Instant) (started : Bool) (w : World H) (timer : Bool) :
    Option Status :=
  match deadline with
  | none => if w.cancelled then some callCancelled else none
  | some deadline =>
      if ¬ started ∧ deadline.checkedDurationSince w.now = none then some deadlinePassed
      else if w.cancelled then some callCancelled
      else if timer then some deadlinePassed
      else none

/-! ## The response head -/

def httpToGrpcStatus (http : Nat) : Status :=
  let code : Code :=
    match http with
    | 400 => .internal
    | 401 => .unauthenticated
    | 403 => .permissionDenied
    | 404 => .unimplemented
    | 429 => .unavailable
    | 502 => .unavailable
    | 503 => .unavailable
    | 504 => .unavailable
    | _ => .unknown
  .new code ("HTTP " ++ http.repr)

/-- `{:?}` on an optional string. -/
def debugOption [UnicodeTables] : Option String → String
  | none => "None"
  | some s => "Some(" ++ debugStr s ++ ")"

structure Head (H : Type) where
  responseHeaders : H
  responseEncoding : Encoding
  headStatus : Option (Except Status Unit)

section

variable [HeaderMap H] [Base64] [Features]

def processHead (r : Response ρ ω H) : Except Status (Head H) :=
  if r.status ≠ some 200 then .error (httpToGrpcStatus (r.status.getD 0))
  else
    let ct := getStr r.headers "content-type"
    if (ct.bind parseGrpcContentType).isNone then
      .error (.new .unknown ("unexpected response content-type: " ++ debugOption ct))
    else
      let responseEncoding : Except Status Encoding :=
        match getStr r.headers "grpc-encoding" with
        | none => .ok .identity
        | some s =>
            match Encoding.fromGrpcEncoding s with
            | some e => .ok e
            | none => .error (.internal ("unsupported grpc-encoding " ++ debugStr s))
      responseEncoding.map (fun encoding =>
        { responseHeaders := r.headers
          responseEncoding := encoding
          headStatus :=
            if (getStr r.headers "grpc-status").isSome then some (Status.fromTrailers r.headers)
            else none })

end

def transportError (e : String) : Status := .unavailable ("transport error: " ++ e)

def sendError (e : String) : Status := .unavailable ("write error: " ++ e)

def closeError (e : String) : Status := .unavailable ("close error: " ++ e)

def sendAfterClose : Status := .internal "send after close_send"

def sendAfterResponse : Status := .internal "send after response started"

def trailersOnlyBody : Status :=
  .internal "trailers-only response (grpc-status in headers) carried a message body"

/-! ## Parts of the operations -/

namespace GrpcClientConn

/-- Record a fatal open error. -/
def fail (c : GrpcClientConn ρ ω H Req Resp) (status : Status) : GrpcClientConn ρ ω H Req Resp :=
  { c with inner := .failed status }

/-- A codec failure on a response is the server's fault. -/
def decodeResponse (decode : List UInt8 → Except Status Resp) (bytes : List UInt8) :
    Except Status Resp :=
  (decode bytes).mapError (fun status => .new .internal status.message)

/-- Nothing is put on the wire; the deadline counts from now. -/
def new [HeaderMap H] [Features] (codec : Codec Req Resp) (defaultHeaders : H) (path : String)
    (metadata : Metadata) (timeout : Option Duration) (fullDuplex : Bool) (now : Instant) :
    MayPanic (GrpcClientConn ρ ω H Req Resp) :=
  let outboundEncoding :=
    ((getStr defaultHeaders "grpc-encoding").bind Encoding.fromGrpcEncoding).getD .identity
  let deadline : MayPanic (Option Instant) :=
    match timeout with
    | none => .ok none
    | some d => (now.add d).map some
  deadline.map (fun deadline =>
    { inner := .pending
        { defaultHeaders
          path
          contentType := "application/grpc+" ++ codec.contentTypeSuffix
          requestMetadata := metadata
          body := []
          sendClosed := false }
      decode := decodeResponse codec.decode
      encode := codec.encode
      outboundEncoding
      maxMessageSize := defaultMaxMessageSize
      fullDuplex
      deadline
      initError := none })

def encodeMessage [CodecCrates] (c : GrpcClientConn ρ ω H Req Resp) (message : Req) :
    Except Status (List UInt8) :=
  encodeFrame c.encode message c.outboundEncoding

/-- Invalid metadata is kept for the time the request is issued; once it is, more
metadata is ignored. -/
def addMetadata [UnicodeTables] (c : GrpcClientConn ρ ω H Req Resp)
    (insert : Metadata → Except MetadataError Metadata) : GrpcClientConn ρ ω H Req Resp :=
  match c.inner with
  | .pending p =>
      match insert p.requestMetadata with
      | .ok requestMetadata => { c with inner := .pending { p with requestMetadata } }
      | .error e =>
          { c with
            initError :=
              c.initError <|> some (.invalidArgument ("invalid metadata: " ++ e.message)) }
  | _ => c

def addAsciiMetadata [UnicodeTables] (c : GrpcClientConn ρ ω H Req Resp) (key value : String) :
    GrpcClientConn ρ ω H Req Resp :=
  c.addMetadata (fun m => m.insertAscii key value)

def addBinaryMetadata [UnicodeTables] (c : GrpcClientConn ρ ω H Req Resp) (key : String)
    (value : List UInt8) : GrpcClientConn ρ ω H Req Resp :=
  c.addMetadata (fun m => m.insertBinary key value)

def setDeadlineFromNow (c : GrpcClientConn ρ ω H Req Resp) (timeout : Duration) (now : Instant) :
    MayPanic (GrpcClientConn ρ ω H Req Resp) :=
  (now.add timeout).map (fun deadline => { c with deadline := some deadline })

def bufferRequest [CodecCrates] (c : GrpcClientConn ρ ω H Req Resp) (message : Req) :
    GrpcClientConn ρ ω H Req Resp :=
  match c.encodeMessage message with
  | .ok frame =>
      match c.inner with
      | .pending p => { c with inner := .pending { p with body := p.body ++ frame } }
      | _ => c
  | .error status => { c with initError := c.initError <|> some status }

def headers (c : GrpcClientConn ρ ω H Req Resp) : Option H :=
  match c.inner with
  | .reading live => some live.responseHeaders
  | .duplex live => some live.responseHeaders
  | .done responseHeaders _ => some responseHeaders
  | _ => none

def trailers (c : GrpcClientConn ρ ω H Req Resp) : Option H :=
  match c.inner with
  | .done _ trailers => some trailers
  | _ => none

section

variable [HeaderMap H] [Base64] [Features]

def buildRequest (c : GrpcClientConn ρ ω H Req Resp) (p : Pending H) (now : Instant)
    (body : List UInt8) : Request H :=
  let headers := insert p.defaultHeaders "content-type" (.ofString p.contentType)
  let headers := insert headers "te" (.ofString "trailers")
  let headers := insert headers "grpc-accept-encoding" (.ofString Encoding.acceptedEncodings)
  let headers :=
    if c.outboundEncoding = .identity then headers
    else insert headers "grpc-encoding" (.ofString c.outboundEncoding.asGrpcEncoding)
  let headers :=
    match c.deadline with
    | none => headers
    | some deadline =>
        insert headers "grpc-timeout"
          (.ofString (formatGrpcTimeout (deadline.saturatingDurationSince now)))
  { path := p.path
    headers := p.requestMetadata.writeInto headers
    body
    endStream := !c.fullDuplex }

/-- A response that was accepted makes the conn live in its mode. -/
def goLive (c : GrpcClientConn ρ ω H Req Resp) (r : Response ρ ω H) (head : Head H) :
    GrpcClientConn ρ ω H Req Resp :=
  if c.fullDuplex then
    { c with
      inner := .duplex
        ⟨⟨r.reader, r.writer⟩, head.responseHeaders, .new, head.responseEncoding,
          head.headStatus⟩ }
  else
    { c with
      inner := .reading
        ⟨r.reader, head.responseHeaders, .new, head.responseEncoding, head.headStatus⟩ }

end

def isTrailersOnly (c : GrpcClientConn ρ ω H Req Resp) : Bool :=
  match c.inner with
  | .reading live => live.headStatus.isSome
  | .duplex live => live.headStatus.isSome
  | _ => false

def readConfig (c : GrpcClientConn ρ ω H Req Resp) (encoding : Encoding) : ReadConfig Resp :=
  ⟨c.decode, encoding, c.maxMessageSize⟩

section

variable [ResponseBody ρ H] [CodecCrates]

/-- The read both transports race. -/
def pollRead (c : GrpcClientConn ρ ω H Req Resp) :
    Poll (Option (Except Status Resp)) × GrpcClientConn ρ ω H Req Resp :=
  match c.inner with
  | .reading live =>
      let step := pollReadMessage (c.readConfig live.responseEncoding) live.reader live.readState
      (step.answer, { c with
        inner := .reading { live with reader := step.reader, readState := step.state } })
  | .duplex live =>
      let step :=
        pollReadMessage (c.readConfig live.responseEncoding) live.reader.reader live.readState
      (step.answer, { c with
        inner := .duplex { live with
          reader := { live.reader with reader := step.reader }, readState := step.state } })
  | _ => (.ready none, c)

variable [HeaderMap H] [Base64]

/-- The headers, the head's status and the trailers as they are at the end. -/
def ending (c : GrpcClientConn ρ ω H Req Resp) : H × Option (Except Status Unit) × H :=
  match c.inner with
  | .reading live =>
      (live.responseHeaders, live.headStatus, (ResponseBody.trailers live.reader).getD empty)
  | .duplex live =>
      (live.responseHeaders, live.headStatus,
        (ResponseBody.trailers live.reader.reader).getD empty)
  | _ => (empty, none, empty)

/-- The status at end-of-stream: the trailers', else the head's, else that of
trailers without one; and the conn is done. -/
def finishFromTrailers (c : GrpcClientConn ρ ω H Req Resp) :
    Except Status Unit × GrpcClientConn ρ ω H Req Resp :=
  match c.ending with
  | (responseHeaders, headStatus, trailers) =>
      if (getStr trailers "grpc-status").isSome then
        (Status.fromTrailers trailers, { c with inner := .done responseHeaders trailers })
      else
        match headStatus with
        | some status => (status, { c with inner := .done responseHeaders responseHeaders })
        | none =>
            (Status.fromTrailers trailers, { c with inner := .done responseHeaders trailers })

omit [CodecCrates] in
theorem finishFromTrailers_conn (c : GrpcClientConn ρ ω H Req Resp) :
    ∃ responseHeaders trailers,
      c.finishFromTrailers.2 = { c with inner := .done responseHeaders trailers } := by
  unfold finishFromTrailers
  split
  split
  · exact ⟨_, _, rfl⟩
  · split <;> exact ⟨_, _, rfl⟩

/-- What `read_one` makes of an item. -/
def readOutcome (c : GrpcClientConn ρ ω H Req Resp) :
    Option (Except Status Resp) → Except Status (Option Resp) × GrpcClientConn ρ ω H Req Resp
  | some (.ok message) =>
      if c.isTrailersOnly then (.error trailersOnlyBody, c.finishFromTrailers.2)
      else (.ok (some message), c)
  | some (.error status) => (.error status, c.finishFromTrailers.2)
  | none => (c.finishFromTrailers.1.map (fun _ => none), c.finishFromTrailers.2)

omit [CodecCrates] in
theorem readOutcome_conn (c : GrpcClientConn ρ ω H Req Resp) (item : Option (Except Status Resp)) :
    (∃ message, item = some (.ok message) ∧ c.isTrailersOnly = false ∧
        c.readOutcome item = (.ok (some message), c)) ∨
      ∃ responseHeaders trailers,
        (c.readOutcome item).2 = { c with inner := .done responseHeaders trailers } ∧
          ∀ message, (c.readOutcome item).1 ≠ .ok (some message) := by
  obtain ⟨responseHeaders, trailers, hdone⟩ := c.finishFromTrailers_conn
  match item with
  | none =>
      refine .inr ⟨responseHeaders, trailers, hdone, fun message => ?_⟩
      simp only [readOutcome]
      cases c.finishFromTrailers.1 <;> simp [Except.map]
  | some (.error status) => exact .inr ⟨responseHeaders, trailers, hdone, by simp [readOutcome]⟩
  | some (.ok message) =>
      simp only [readOutcome]
      cases ht : c.isTrailersOnly with
      | true => exact .inr ⟨responseHeaders, trailers, hdone, by simp⟩
      | false => exact .inl ⟨message, rfl, rfl, rfl⟩

end

end GrpcClientConn

end TrilliumGrpc
