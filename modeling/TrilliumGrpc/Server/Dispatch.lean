import TrilliumGrpc.ContentType
import TrilliumGrpc.Server.Streaming
import TrilliumGrpc.Timeout

/-! # Server dispatch

`src/server/dispatch.rs` and `src/server/grpc_conn.rs`: preflight, the encodings
of a call, its deadline, and the race of a handler against its cancellation. The
clock reading each function takes is an argument.
-/

namespace TrilliumGrpc

open Async Bytes HeaderMap Time

variable {H ρ T Req : Type} [HeaderMap H]

/-- What these functions read and set of a `trillium::Conn`. -/
structure Conn (H ρ : Type) where
  requestHeaders : H
  responseHeaders : H
  status : Option Nat
  requestBody : ρ
  /-- A `Runtime` is in the shared state. -/
  hasRuntime : Bool

section

variable [Features]

/-- The first build encoding the client lists, `Identity` aside. -/
def negotiateResponseEncoding (requestHeaders : H) : Encoding :=
  match getStr requestHeaders "grpc-accept-encoding" with
  | none => .identity
  | some accepted =>
      let accepted := (accepted.toList.splitOn ',').map trim
      ((Encoding.all.filter (fun e => e ≠ .identity)).find?
        (fun e => accepted.contains e.asGrpcEncoding.toList)).getD .identity

def extractRequestEncoding (requestHeaders : H) : Except Status Encoding :=
  match getStr requestHeaders "grpc-encoding" with
  | none => .ok .identity
  | some s =>
      match Encoding.fromGrpcEncoding s with
      | some e => .ok e
      | none =>
          .error (.unimplemented ("unsupported grpc-encoding " ++ debugStr s ++ "; accepted: " ++
            Encoding.acceptedEncodings))

/-- The response head a call starts from; a refused request has its HTTP status. -/
def prepareGrpcConn (conn : Conn H ρ) (codecSuffix : String) : Except (Conn H ρ) (Conn H ρ) :=
  let codecMatches :=
    (getStr conn.requestHeaders "content-type").bind parseGrpcContentType = some codecSuffix
  if ¬ codecMatches then .error { conn with status := some 415 }
  else if ¬ hasTeTrailers conn.requestHeaders then .error { conn with status := some 400 }
  else
    let contentType := "application/grpc+" ++ codecSuffix
    let responseEncoding := negotiateResponseEncoding conn.requestHeaders
    let headers := insert conn.responseHeaders "content-type" (.ofString contentType)
    let headers :=
      insert headers "grpc-accept-encoding" (.ofString Encoding.acceptedEncodings)
    let headers :=
      if responseEncoding = .identity then headers
      else insert headers "grpc-encoding" (.ofString responseEncoding.asGrpcEncoding)
    .ok { conn with responseHeaders := headers, status := some 200 }

end

/-! ## The deadline of a call -/

/-- The shutdown half of a cancellation is the environment's, see `Signals`. -/
structure Cancellation where
  deadline : Option Instant
deriving DecidableEq, Repr

def malformedTimeout [UnicodeTables] (header : String) : Status :=
  .invalidArgument ("malformed grpc-timeout " ++ debugStr header)

/-- `Instant::now() + duration` may panic, and so may a missing runtime. -/
def Cancellation.fromConn [UnicodeTables] (conn : Conn H ρ) (now : Instant) :
    MayPanic (Except Status Cancellation) :=
  match getStr conn.requestHeaders "grpc-timeout" with
  | none => .ok (.ok ⟨none⟩)
  | some header =>
      match parseGrpcTimeout header with
      | none => .ok (.error (malformedTimeout header))
      | some duration =>
          if conn.hasRuntime then (now.add duration).map (fun instant => .ok ⟨some instant⟩)
          else .error ⟨"trillium-grpc requires a Runtime in shared state"⟩

/-- What the environment shows one poll of a race: the clock, whether a shutdown is
seen before the handler is polled or once it was not ready, and the timer. -/
structure Signals where
  now : Instant
  stopBefore : Bool
  stopAfter : Bool
  timer : Bool
deriving DecidableEq, Repr

def shuttingDown : Status := .cancelled "connection shutting down"

def deadlineElapsed : Status := .deadlineExceeded "deadline elapsed"

/-- Whether the handler is polled at all. A deadline that has passed is noticed
at the first poll, before anything else runs. -/
def Cancellation.polls (c : Cancellation) (started : Bool) (sig : Signals) : Except Status Unit :=
  match c.deadline with
  | none => if sig.stopBefore then .error shuttingDown else .ok ()
  | some instant =>
      if ¬ started ∧ instant.checkedDurationSince sig.now = none then .error deadlineElapsed
      else if sig.stopBefore then .error shuttingDown
      else .ok ()

/-- One poll of `race`; whatever ends it drops the handler's future. -/
def Cancellation.race {φ : Type} (c : Cancellation) (started : Bool) (sig : Signals)
    (poll : φ → Poll (Except Status T) × φ) (fut : φ) : Poll (Except Status T) × φ :=
  match c.polls started sig with
  | .error status => (.ready (.error status), fut)
  | .ok () =>
      match poll fut with
      | (.ready result, fut') => (.ready result, fut')
      | (.pending, fut') =>
          if sig.stopAfter then (.ready (.error shuttingDown), fut')
          else if c.deadline.isSome ∧ sig.timer then (.ready (.error deadlineElapsed), fut')
          else (.pending, fut')

/-- The control surface of one call. -/
structure GrpcServerConn (H ρ : Type) where
  conn : Conn H ρ
  responseTrailers : H
  requestEncoding : Encoding
  deadline : Option Instant

def GrpcServerConn.new (conn : Conn H ρ) (requestEncoding : Encoding) (now : Instant) :
    MayPanic (GrpcServerConn H ρ) :=
  match (getStr conn.requestHeaders "grpc-timeout").bind parseGrpcTimeout with
  | none => .ok ⟨conn, empty, requestEncoding, none⟩
  | some d => (now.add d).map (fun instant => ⟨conn, empty, requestEncoding, some instant⟩)

/-- A typed stream over the body where it stands. -/
def GrpcServerConn.requests (grpc : GrpcServerConn H ρ)
    (decode : List UInt8 → Except Status Req) : RequestStream Req ρ :=
  .new grpc.conn.requestBody decode grpc.requestEncoding

/-- The conn with its body where a dropped stream left it. -/
def GrpcServerConn.withBody (grpc : GrpcServerConn H ρ) (body : ρ) : GrpcServerConn H ρ :=
  { grpc with conn := { grpc.conn with requestBody := body } }

/-- The header's time, added to `now`, stays inside the clock: or the header is
none of a call's, or it is refused because its value or its seconds exceed 64 bits. -/
def Fits (header : String) (now : Instant) : Prop :=
  ∀ value unit, Denotes header value unit → value < 2 ^ 64 →
    value * unit / 1000000000 < 2 ^ 64 → now.toNanos + (value * unit : Nat) < 2 ^ 63 * 1000000000

/-- Either the header is refused or the deadline is `now` plus its time. -/
def DeadlineComputed (header : String) (now : Instant) (deadline : Option Instant) : Prop :=
  match parseGrpcTimeout header with
  | none => deadline = none
  | some d => ∃ instant, deadline = some instant ∧ instant.toNanos = now.toNanos + d.asNanos

/-- `Cancellation::from_conn` meets the contract on a header. -/
def FromConnSafe [UnicodeTables] (conn : Conn H ρ) (header : String) (now : Instant) : Prop :=
  match Cancellation.fromConn conn now with
  | .error _ => False
  | .ok (.error status) => status.code = .invalidArgument ∧ parseGrpcTimeout header = none
  | .ok (.ok c) => c.deadline.isSome ∧ DeadlineComputed header now c.deadline

/-- `GrpcServerConn::new` meets the contract on a header. -/
def NewSafe (conn : Conn H ρ) (header : String) (requestEncoding : Encoding) (now : Instant) :
    Prop :=
  match GrpcServerConn.new conn requestEncoding now with
  | .error _ => False
  | .ok grpc => DeadlineComputed header now grpc.deadline

theorem fits_iff (header : String) (now : Instant) :
    Fits header now ↔ ∀ d, parseGrpcTimeout header = some d → ∃ sum, now.add d = .ok sum := by
  simp only [parseGrpcTimeout_eq_some_iff, Instant.exists_add_iff]
  constructor
  · rintro h d ⟨value, unit, hden, hvalue, hsecs, htotal⟩
    rw [htotal]
    exact h value unit hden hvalue hsecs
  · intro h value unit hden hvalue hsecs
    obtain ⟨d, hd⟩ : ∃ d, durationOfNanos (value * unit) = some d :=
      ⟨_, by rw [durationOfNanos, dif_pos hsecs]⟩
    have htotal := ((durationOfNanos_eq_some_iff _ _).mp hd).2
    rw [← htotal]
    exact h d ⟨value, unit, hden, hvalue, hsecs, htotal⟩

theorem fits_of_eight_digits {header : String} {value unit : Nat} {now : Instant}
    (h : Denotes header value unit) (hvalue : value ≤ maxTimeoutValue) (hnow : now.secs < 2 ^ 62) :
    Fits header now := by
  intro value' unit' h' _ _
  obtain ⟨rfl, rfl⟩ := h.unique h'
  have hunit := h.unit_le
  have htotal := Nat.mul_le_mul hvalue hunit
  have hnanos := now.nanos_lt
  simp only [maxTimeoutValue, Instant.toNanos] at htotal ⊢
  omega

/-- `from_conn` and `new`, each at its own reading of the clock, meet the contract
on a `grpc-timeout` header exactly when the header's time stays inside the clock. -/
theorem timeout_safe_iff [UnicodeTables] (conn : Conn H ρ) (header : String) (requestEncoding : Encoding)
    (now now' : Instant) (hheader : getStr conn.requestHeaders "grpc-timeout" = some header)
    (hruntime : conn.hasRuntime = true) :
    (FromConnSafe conn header now ↔ Fits header now) ∧
      (NewSafe conn header requestEncoding now' ↔ Fits header now') := by
  rw [fits_iff, fits_iff]
  unfold FromConnSafe NewSafe Cancellation.fromConn GrpcServerConn.new DeadlineComputed
  simp only [hheader, hruntime, if_true, Option.bind_some]
  cases hp : parseGrpcTimeout header with
  | none => simp [malformedTimeout, Status.invalidArgument, Status.new]
  | some d =>
      constructor
      · cases hadd : now.add d with
        | error p => simp [Except.map, hadd]
        | ok sum => simp [Except.map, hadd, Instant.add_ok hadd]
      · cases hadd : now'.add d with
        | error p => simp [Except.map, hadd]
        | ok sum => simp [Except.map, hadd, Instant.add_ok hadd]

/-- A request with one `grpc-timeout` header. -/
def timeoutConn (header : String) : Conn HeaderList Unit :=
  ⟨insert empty "grpc-timeout" (.ofString header), empty, none, (), true⟩

theorem timeout_safe_five_seconds :
    letI := plainTables
    FromConnSafe (timeoutConn "5S") "5S" ⟨1000, 0, by decide, by decide, by decide⟩ ∧
      NewSafe (timeoutConn "5S") "5S" .identity ⟨1001, 0, by decide, by decide, by decide⟩ := by
  let _ := plainTables
  have hden : Denotes "5S" 5 1000000000 :=
    ⟨['5'], 'S', by decide, by decide, by decide, by decide, rfl⟩
  have hsafe := timeout_safe_iff (timeoutConn "5S") "5S" .identity
    ⟨1000, 0, by decide, by decide, by decide⟩ ⟨1001, 0, by decide, by decide, by decide⟩
    (getStr_insert_self _ _ _) rfl
  exact ⟨hsafe.1.mpr (fits_of_eight_digits hden (by decide) (by decide)),
    hsafe.2.mpr (fits_of_eight_digits hden (by decide) (by decide))⟩

/-- Twenty digits of seconds fit in the parser's 64 bits and not in the clock's. -/
theorem timeout_panics :
    letI := plainTables
    ¬ FromConnSafe (timeoutConn "18446744073709551615S") "18446744073709551615S"
        ⟨1000, 0, by decide, by decide, by decide⟩ ∧
      ¬ NewSafe (timeoutConn "18446744073709551615S") "18446744073709551615S" .identity
        ⟨1000, 0, by decide, by decide, by decide⟩ := ⟨id, id⟩

end TrilliumGrpc
