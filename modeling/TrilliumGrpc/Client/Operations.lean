import TrilliumGrpc.Client.Conn

/-! # The operations of a client connection

`send`, `close_send`, `open_head` and `recv` of `src/client/conn.rs` as futures. A
suspended future says at which await it stands; dropping it there is not polling
it again, and all it did to the conn stays done.
-/

namespace TrilliumGrpc

open Async HeaderMap Time

inductive Op (Req : Type) where
  | send (message : Req)
  | closeSend
  | openHead
  | recv

def Op.Opens {Req : Type} : Op Req → Bool
  | .send _ => false
  | _ => true

/-- The request of a suspended open, and whether it is on the wire. -/
structure Opening (H : Type) where
  request : Request H
  sent : Bool

/-- An operation's future, by the await it is suspended at. -/
inductive OpFuture (H Req : Type) where
  | start (op : Op Req)
  | opening (op : Op Req) (o : Opening H)
  | writing (frame left : List UInt8)
  | closing
  | reading

/-- `recv` gives an item, every other operation nothing. -/
inductive Answer (Resp : Type) where
  | unit (result : Except Status Unit)
  | item (result : Except Status (Option Resp))

/-- One poll of an operation: its answer, the call, and the future if suspended. -/
structure OpStep (ρ ω H Req Resp : Type) where
  answer : Poll (Answer Resp)
  call : Call ρ ω H Req Resp
  future : OpFuture H Req

variable {ρ ω H Req Resp : Type}

/-- The error of an operation's first half, which `?` returns. -/
def Op.failure (op : Op Req) (status : Status) : Answer Resp :=
  match op with
  | .recv => .item (.error status)
  | _ => .unit (.error status)

def World.put (w : World H) (o : Opening H) : World H :=
  if o.sent then w else { w with requests := w.requests ++ [o.request] }

namespace Call

def finish (s : Call ρ ω H Req Resp) (op : Op Req) (answer : Answer Resp) :
    OpStep ρ ω H Req Resp :=
  ⟨.ready answer, s, .start op⟩

section

variable [ResponseBody ρ H] [AsyncWrite ω] [CodecCrates] [HeaderMap H] [Base64]

/-- A poll of `read_one`. -/
def pollReading (s : Call ρ ω H Req Resp) (started : Bool) (tick : Tick ρ ω H) :
    OpStep ρ ω H Req Resp :=
  let world := s.world.observe tick.live
  match interrupt s.conn.deadline started world tick.live.timer with
  | some status => finish ⟨s.conn, world⟩ .recv (.item (.error status))
  | none =>
      match s.conn.pollRead with
      | (.pending, conn) => ⟨.pending, ⟨conn, world⟩, .reading⟩
      | (.ready item, conn) =>
          let (result, conn) := conn.readOutcome item
          finish ⟨conn, world⟩ .recv (.item result)

/-- `recv` once the conn is no longer pending. -/
def deliver (s : Call ρ ω H Req Resp) (tick : Tick ρ ω H) : OpStep ρ ω H Req Resp :=
  match s.conn.inner with
  | .done _ _ => s.finish .recv (.item (.ok none))
  | .failed status =>
      finish ⟨{ s.conn with inner := .done empty empty }, s.world⟩ .recv (.item (.error status))
  | _ => s.pollReading false tick

/-- `close` of a live upgrade. -/
def pollClosing (s : Call ρ ω H Req Resp) (live : Live (Duplex ρ ω) H) : OpStep ρ ω H Req Resp :=
  let (answer, writer) := AsyncWrite.pollClose live.reader.writer
  let s : Call ρ ω H Req Resp := ⟨{ s.conn with
    inner := .duplex { live with reader := { live.reader with writer } } }, s.world⟩
  match answer with
  | .pending => ⟨.pending, s, .closing⟩
  | .ready result => s.finish .closeSend (.unit (result.mapError closeError))

def afterOpen (s : Call ρ ω H Req Resp) (op : Op Req) (tick : Tick ρ ω H) :
    OpStep ρ ω H Req Resp :=
  match op with
  | .recv => s.deliver tick
  | .closeSend =>
      match s.conn.inner with
      | .duplex live => s.pollClosing live
      | _ => s.finish op (.unit (.ok ()))
  | _ => s.finish op (.unit (.ok ()))

variable [Features]

/-- A poll of the race for the response head in `materialize_reading` and
`materialize_duplex`. -/
def pollOpening (s : Call ρ ω H Req Resp) (op : Op Req) (o : Opening H) (started : Bool)
    (tick : Tick ρ ω H) : OpStep ρ ω H Req Resp :=
  let world := s.world.observe tick.opening
  match interrupt s.conn.deadline started world tick.opening.timer with
  | some status => finish ⟨s.conn.fail status, world⟩ op (op.failure status)
  | none =>
      match tick.net with
      | .connecting => ⟨.pending, ⟨s.conn, world⟩, .opening op o⟩
      | .sent => ⟨.pending, ⟨s.conn, world.put o⟩, .opening op { o with sent := true }⟩
      | .refused e =>
          finish ⟨s.conn.fail (transportError e), world⟩ op (op.failure (transportError e))
      | .broken e =>
          finish ⟨s.conn.fail (transportError e), world.put o⟩ op (op.failure (transportError e))
      | .response r =>
          match processHead r with
          | .error status => finish ⟨s.conn.fail status, world.put o⟩ op (op.failure status)
          | .ok head => afterOpen ⟨s.conn.goLive r head, world.put o⟩ op tick

/-- `materialize_reading` and `materialize_duplex` up to the request: a deferred
error ends the call, else the body moves from the conn into the request. -/
def materialize (s : Call ρ ω H Req Resp) (p : Pending H) (op : Op Req) (tick : Tick ρ ω H) :
    OpStep ρ ω H Req Resp :=
  match s.conn.initError with
  | some status =>
      finish ⟨{ s.conn with initError := none }.fail status, s.world⟩ op (op.failure status)
  | none =>
      let now := s.world.now.later tick.build
      let conn := { s.conn with inner := .pending { p with body := [] } }
      pollOpening ⟨conn, { s.world with now }⟩ op ⟨conn.buildRequest p now p.body, false⟩ false tick

end

section

variable [AsyncWrite ω]

/-- A poll of `write_all` on a live upgrade, in its race. -/
def pollWriting (s : Call ρ ω H Req Resp) (live : Live (Duplex ρ ω) H) (frame left : List UInt8)
    (started : Bool) (tick : Tick ρ ω H) : OpStep ρ ω H Req Resp :=
  let world := s.world.observe tick.live
  match interrupt s.conn.deadline started world tick.live.timer with
  | some status => ⟨.ready (.unit (.error status)), ⟨s.conn, world⟩, .writing frame left⟩
  | none =>
      let step := writeAll live.reader.writer left
      let conn := { s.conn with
        inner := .duplex { live with reader := { live.reader with writer := step.writer } } }
      let world := { world with live := world.live ++ step.accepted }
      match step.answer with
      | .pending => ⟨.pending, ⟨conn, world⟩, .writing frame step.left⟩
      | .ready result =>
          ⟨.ready (.unit (result.mapError sendError)), ⟨conn, world⟩, .writing frame step.left⟩

end

section

variable [ResponseBody ρ H] [AsyncWrite ω] [CodecCrates] [HeaderMap H] [Base64] [Features]

def startSend (s : Call ρ ω H Req Resp) (message : Req) (tick : Tick ρ ω H) :
    OpStep ρ ω H Req Resp :=
  match s.conn.encodeMessage message with
  | .error status => s.finish (.send message) (.unit (.error status))
  | .ok frame =>
      match s.conn.inner with
      | .pending p =>
          if p.sendClosed then s.finish (.send message) (.unit (.error sendAfterClose))
          else
            finish ⟨{ s.conn with inner := .pending { p with body := p.body ++ frame } }, s.world⟩
              (.send message) (.unit (.ok ()))
      | .duplex live => s.pollWriting live frame frame false tick
      | _ => s.finish (.send message) (.unit (.error sendAfterResponse))

def startClose (s : Call ρ ω H Req Resp) (tick : Tick ρ ω H) : OpStep ρ ω H Req Resp :=
  match s.conn.inner with
  | .pending p =>
      let p := { p with sendClosed := true }
      materialize ⟨{ s.conn with inner := .pending p }, s.world⟩ p .closeSend tick
  | .duplex live => s.pollClosing live
  | _ => s.finish .closeSend (.unit (.ok ()))

def startOpenHead (s : Call ρ ω H Req Resp) (tick : Tick ρ ω H) : OpStep ρ ω H Req Resp :=
  match s.conn.inner with
  | .pending p => s.materialize p .openHead tick
  | _ => s.finish .openHead (.unit (.ok ()))

def startRecv (s : Call ρ ω H Req Resp) (tick : Tick ρ ω H) : OpStep ρ ω H Req Resp :=
  match s.conn.inner with
  | .pending p => s.materialize p .recv tick
  | _ => s.deliver tick

/-- One poll of a future. A future is only polled while its own operation holds
the conn, so the state it was suspended in is the state it finds. -/
def poll (s : Call ρ ω H Req Resp) (tick : Tick ρ ω H) : OpFuture H Req → OpStep ρ ω H Req Resp
  | .start (.send message) => s.startSend message tick
  | .start .closeSend => s.startClose tick
  | .start .openHead => s.startOpenHead tick
  | .start .recv => s.startRecv tick
  | .opening op o => s.pollOpening op o true tick
  | .reading => s.pollReading true tick
  | .writing frame left =>
      match s.conn.inner with
      | .duplex live => s.pollWriting live frame left true tick
      | _ => ⟨.pending, s, .writing frame left⟩
  | .closing =>
      match s.conn.inner with
      | .duplex live => s.pollClosing live
      | _ => ⟨.pending, s, .closing⟩

/-- Poll a future as long as there are ticks; `none` is a future that is dropped
where it stands. -/
def drive (s : Call ρ ω H Req Resp) : OpFuture H Req → List (Tick ρ ω H) →
    Option (Answer Resp) × Call ρ ω H Req Resp × OpFuture H Req
  | future, [] => (none, s, future)
  | future, tick :: ticks =>
      match s.poll tick future with
      | ⟨.ready answer, s', future'⟩ => (some answer, s', future')
      | ⟨.pending, s', future'⟩ => s'.drive future' ticks

/-- A sequence of operations, each with the polls it is given, and what each gave. -/
def run (s : Call ρ ω H Req Resp) : List (Op Req × List (Tick ρ ω H)) →
    List (Op Req × Option (Answer Resp)) × Call ρ ω H Req Resp
  | [] => ([], s)
  | (op, ticks) :: rest =>
      let (answer, s', _) := s.drive (.start op) ticks
      let (answers, s'') := s'.run rest
      ((op, answer) :: answers, s'')

theorem run_cons (s : Call ρ ω H Req Resp) (op : Op Req) (ticks : List (Tick ρ ω H))
    (rest : List (Op Req × List (Tick ρ ω H))) :
    s.run ((op, ticks) :: rest) =
      ((op, (s.drive (.start op) ticks).1) :: ((s.drive (.start op) ticks).2.1.run rest).1,
        ((s.drive (.start op) ticks).2.1.run rest).2) := rfl

end

end Call

end TrilliumGrpc
