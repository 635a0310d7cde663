import TrilliumGrpc.Async.Read
import TrilliumGrpc.Frame.Writer

/-! # Reading frames

`src/frame/reader.rs`: the resumable two-phase read of one message. The source's
loop goes from the prefix to the payload and returns, so it is written as those
two phases.
-/

namespace TrilliumGrpc

open Async Bytes

inductive ReadState where
  | readingPrefix (buf : FillBuf prefixLen)
  | readingPayload (compressed : Bool) (len : Nat) (payload : FillBuf len)
  | done

def ReadState.new : ReadState := .readingPrefix (.zeroed prefixLen)

/-- The arguments of a read that stay the same from poll to poll. -/
structure ReadConfig (T : Type) where
  decode : List UInt8 → Except Status T
  encoding : Encoding
  maxMessageSize : Nat

/-- One call of `poll_read_message`. -/
structure ReadStep (ρ T : Type) where
  answer : Poll (Option (Except Status T))
  reader : ρ
  state : ReadState

/-- The compressed flag and the length of a five-byte prefix. -/
def parsePrefix (buf : List UInt8) : Bool × Nat :=
  (buf.getD 0 0 != 0,
    (fromBeBytes (buf.getD 1 0) (buf.getD 2 0) (buf.getD 3 0) (buf.getD 4 0)).toNat)

def readError (e : String) : Status := .unavailable ("read error: " ++ e)

def prefixEof : Status := .internal "unexpected EOF in frame prefix"

def payloadEof : Status := .internal "unexpected EOF in frame payload"

def notNegotiated : Status := .internal "received compressed message but no encoding negotiated"

def tooLong (len maxMessageSize : Nat) : Status :=
  .resourceExhausted
    ("received message of " ++ len.repr ++ " bytes exceeds limit of " ++ maxMessageSize.repr)

variable {ρ T : Type} [AsyncRead ρ] [CodecCrates]

/-- From the payload of a complete frame to its message. -/
def ReadConfig.deframe (cfg : ReadConfig T) (compressed : Bool) (payload : List UInt8) :
    Except Status T :=
  if compressed then
    if cfg.encoding = .identity then .error notNegotiated
    else
      match cfg.encoding.decompress payload cfg.maxMessageSize with
      | .ok bytes => cfg.decode bytes
      | .error status => .error status
  else cfg.decode payload

/-- The state is ready for the next frame before the message is decoded. -/
def pollPayload (cfg : ReadConfig T) (r : ρ) (compressed : Bool) (len : Nat)
    (payload : FillBuf len) : ReadStep ρ T :=
  match fill r payload with
  | (.pending payload', r') => ⟨.pending, r', .readingPayload compressed len payload'⟩
  | (.error e, r') => ⟨.ready (some (.error (readError e))), r', .done⟩
  | (.eof _, r') => ⟨.ready (some (.error payloadEof)), r', .done⟩
  | (.full payload', r') => ⟨.ready (some (cfg.deframe compressed payload'.bytes)), r', .new⟩

def pollPrefix (cfg : ReadConfig T) (r : ρ) (buf : FillBuf prefixLen) : ReadStep ρ T :=
  match fill r buf with
  | (.pending buf', r') => ⟨.pending, r', .readingPrefix buf'⟩
  | (.error e, r') => ⟨.ready (some (.error (readError e))), r', .done⟩
  | (.eof buf', r') =>
      if buf'.filled = 0 then ⟨.ready none, r', .done⟩
      else ⟨.ready (some (.error prefixEof)), r', .done⟩
  | (.full buf', r') =>
      let (compressed, len) := parsePrefix buf'.bytes
      if len > cfg.maxMessageSize then
        ⟨.ready (some (.error (tooLong len cfg.maxMessageSize))), r', .done⟩
      else pollPayload cfg r' compressed len (.zeroed len)

def pollReadMessage (cfg : ReadConfig T) (r : ρ) : ReadState → ReadStep ρ T
  | .done => ⟨.ready none, r, .done⟩
  | .readingPrefix buf => pollPrefix cfg r buf
  | .readingPayload compressed len payload => pollPayload cfg r compressed len payload

/-- `MessageStream`: a reader with the state of its current frame. -/
structure MessageStream (T ρ : Type) where
  reader : ρ
  state : ReadState
  config : ReadConfig T

namespace MessageStream

def new (reader : ρ) (decode : List UInt8 → Except Status T) : MessageStream T ρ :=
  ⟨reader, .new, decode, .identity, defaultMaxMessageSize⟩

def withMaxMessageSize (s : MessageStream T ρ) (max : Nat) : MessageStream T ρ :=
  { s with config := { s.config with maxMessageSize := max } }

def pollNext (s : MessageStream T ρ) : Poll (Option (Except Status T)) × MessageStream T ρ :=
  let step := pollReadMessage s.config s.reader s.state
  (step.answer, { s with reader := step.reader, state := step.state })

end MessageStream

end TrilliumGrpc
