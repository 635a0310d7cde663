import TrilliumGrpc.Async.Write
import TrilliumGrpc.Frame.Refinement

/-! # Request streams and channels

`src/server/streaming.rs`: the reading half handed to a service method, and the
read and write halves handed to a bidi responder over the upgraded transport.
-/

namespace TrilliumGrpc

open Async ByteSource

variable {ρ υ H T Req Resp : Type} [CodecCrates]

/-! ## Request streams -/

structure RequestStream (T ρ : Type) where
  reader : ρ
  state : ReadState
  config : ReadConfig T

/-- The future of `recv` keeps nothing between polls but that it was polled. -/
inductive RecvFuture where
  | unresumed
  | suspended
deriving DecidableEq, Repr

namespace RequestStream

def new (reader : ρ) (decode : List UInt8 → Except Status T) (encoding : Encoding) :
    RequestStream T ρ :=
  ⟨reader, .new, decode, encoding, defaultMaxMessageSize⟩

section

variable [AsyncRead ρ]

def pollMessage (s : RequestStream T ρ) :
    Poll (Option (Except Status T)) × RequestStream T ρ :=
  let step := pollReadMessage s.config s.reader s.state
  (step.answer, { s with reader := step.reader, state := step.state })

def recv (s : RequestStream T ρ) :
    RecvFuture → Poll (Except Status (Option T)) × RequestStream T ρ × RecvFuture
  | _ =>
      match s.pollMessage with
      | (.ready (some (.ok t)), s') => (.ready (.ok (some t)), s', .unresumed)
      | (.ready (some (.error e)), s') => (.ready (.error e), s', .unresumed)
      | (.ready none, s') => (.ready (.ok none), s', .unresumed)
      | (.pending, s') => (.pending, s', .suspended)

end

end RequestStream

/-- The item a finished `recv` stands for. -/
def recvItem : Except Status (Option T) → Option (Except Status T)
  | .ok (some t) => some (.ok t)
  | .ok none => none
  | .error e => some (.error e)

/-- A consumer of `recv` that drops its future and makes a fresh one after the
polls `drops` picks out. -/
structure RecvLoop (T ρ : Type) where
  stream : RequestStream T ρ
  future : RecvFuture
  polls : Nat

def RecvLoop.poll [AsyncRead ρ] (drops : Nat → Bool) (l : RecvLoop T ρ) :
    Poll (Option (Except Status T)) × RecvLoop T ρ :=
  let (answer, stream, future) := l.stream.recv l.future
  (answer.map recvItem, ⟨stream, if drops l.polls then .unresumed else future, l.polls + 1⟩)

theorem recvLoop_step [AsyncRead ρ] (drops : Nat → Bool) (l : RecvLoop T ρ) :
    (l.poll drops).1 = l.stream.pollMessage.1 ∧
      (l.poll drops).2.stream = l.stream.pollMessage.2 := by
  unfold RecvLoop.poll RequestStream.recv
  cases hp : l.stream.pollMessage with
  | mk answer s' =>
      match answer with
      | .pending => exact ⟨rfl, rfl⟩
      | .ready none => exact ⟨rfl, rfl⟩
      | .ready (some (.ok t)) => exact ⟨rfl, rfl⟩
      | .ready (some (.error e)) => exact ⟨rfl, rfl⟩

section

variable [ByteSource ρ]

theorem recvLoop_items (drops : Nat → Bool) (n : Nat) (l : RecvLoop T ρ) :
    items (RecvLoop.poll drops) isErr n l =
      items (readPoll l.stream.config) isErr n (l.stream.reader, l.stream.state) := by
  refine items_comap (fun l : RecvLoop T ρ => (l.stream.reader, l.stream.state))
    (fun l' => l'.stream.config = l.stream.config) ?_ n rfl
  intro l' hconfig
  obtain ⟨hanswer, hstream⟩ := recvLoop_step drops l'
  rw [hanswer, hstream, ← hconfig]
  exact ⟨rfl, rfl⟩

/-- The items of any byte source, polled message by message or through `recv`
futures that are dropped and made afresh at will, are those of the one-shot
parser: never another item, and in the end all of them. -/
theorem reads_eq_parse (cfg : ReadConfig T) (r : ρ) (drops : Nat → Bool) (future : RecvFuture) :
    (∀ n, items (readPoll cfg) isErr n (r, .new) <+: parse cfg (fault r) (rest r)) ∧
      (∃ N, ∀ n ≥ N, items (readPoll cfg) isErr n (r, .new) = parse cfg (fault r) (rest r)) ∧
      ∀ n, items (RecvLoop.poll drops) isErr n ⟨⟨r, .new, cfg⟩, future, 0⟩ =
        items (readPoll cfg) isErr n (r, .new) := by
  have hyields := readPoll_yields (ρ := ρ) cfg
  have hstart := follow_ahead_new cfg r
  exact ⟨fun n => hyields.items_prefix n hstart, hyields.items_eventually hstart,
    fun n => recvLoop_items drops n _⟩

end

/-! ## Channels -/

/-- The upgraded transport: the request body where the run phase left it, the
response side with a log of the bytes it took, and the trailers once sent. -/
structure Upgrade (ρ ω H : Type) where
  body : ρ
  writer : ω
  written : List UInt8
  trailers : Option H

structure Channel (ρ ω H Req Resp : Type) where
  upgrade : Upgrade ρ ω H
  responseTrailers : H
  state : ReadState
  decode : List UInt8 → Except Status Req
  encode : Resp → Except Status (List UInt8)
  inboundEncoding : Encoding
  outboundEncoding : Encoding
  maxMessageSize : Nat

/-- A `send` future suspended in `write_all`: its frame and what is left of it. -/
structure SendFuture where
  frame : List UInt8
  left : List UInt8
deriving DecidableEq, Repr

/-- Some of the frame has been handed over, and not all of it. -/
def SendFuture.Torn (fut : SendFuture) : Prop := fut.left.length < fut.frame.length

def writeError (e : String) : Status := .unavailable ("write error: " ++ e)

namespace Channel

variable {ω : Type}

def new (upgrade : Upgrade ρ ω H) (responseTrailers : H) (decode : List UInt8 → Except Status Req)
    (encode : Resp → Except Status (List UInt8)) (inboundEncoding outboundEncoding : Encoding) :
    Channel ρ ω H Req Resp :=
  ⟨upgrade, responseTrailers, .new, decode, encode, inboundEncoding, outboundEncoding,
    defaultMaxMessageSize⟩

def readConfig (c : Channel ρ ω H Req Resp) : ReadConfig Req :=
  ⟨c.decode, c.inboundEncoding, c.maxMessageSize⟩

/-- One poll of `recv`. -/
def recv [AsyncRead ρ] (c : Channel ρ ω H Req Resp) :
    Poll (Option (Except Status Req)) × Channel ρ ω H Req Resp :=
  let step := pollReadMessage c.readConfig c.upgrade.body c.state
  (step.answer, { c with upgrade := { c.upgrade with body := step.reader }, state := step.state })

def encodeMessage (c : Channel ρ ω H Req Resp) (value : Resp) : Except Status (List UInt8) :=
  encodeFrame c.encode value c.outboundEncoding

section

variable [AsyncWrite ω]

/-- The channel after a poll of `write_all`. -/
def wrote (c : Channel ρ ω H Req Resp) (step : WriteStep ω) : Channel ρ ω H Req Resp :=
  { c with
    upgrade := { c.upgrade with
      writer := step.writer
      written := c.upgrade.written ++ step.accepted } }

/-- A poll of `send` in `write_all`; a future that is not ready stays suspended. -/
def resumeSend (c : Channel ρ ω H Req Resp) (fut : SendFuture) :
    Poll (Except Status Unit) × Channel ρ ω H Req Resp × Option SendFuture :=
  let step := writeAll c.upgrade.writer fut.left
  match step.answer with
  | .pending => (.pending, c.wrote step, some { fut with left := step.left })
  | .ready result => (.ready (result.mapError writeError), c.wrote step, none)

/-- The first poll of `send`. -/
def startSend (c : Channel ρ ω H Req Resp) (value : Resp) :
    Poll (Except Status Unit) × Channel ρ ω H Req Resp × Option SendFuture :=
  match c.encodeMessage value with
  | .error status => (.ready (.error status), c, none)
  | .ok frame => c.resumeSend ⟨frame, frame⟩

end

end Channel

end TrilliumGrpc
