import TrilliumGrpc.Client.Receiving

/-! # The response head of a call

`process_head` of `src/client/conn.rs` as a call meets it: the polls of an
operation up to the one that takes the head in, and what a refused head reports.
-/

namespace TrilliumGrpc

open Async HeaderMap

variable {ρ ω H Req Resp : Type}

/-! ## The two sources of a status -/

section

variable [HeaderMap H] {r : Response ρ ω H}

/-- The code `grpc-status` denotes. -/
def denotedCode (headers : H) : Option Code :=
  ((getStr headers "grpc-status").bind (Digits.parseUnsigned 256)).bind Code.fromU8

/-- The precedence of the status mapping: a valid code other than 0 in the head is
the one reported, and the HTTP status is only mapped when there is no `grpc-status`. -/
structure PrecedenceKept (r : Response ρ ω H) (reported : Status) : Prop where
  denoted : ∀ code, denotedCode r.headers = some code → code ≠ .ok → reported.code = code
  mapped : reported = httpToGrpcStatus (r.status.getD 0) → values r.headers "grpc-status" = []

theorem processHead_of_status [Base64] [Features] (h : r.status ≠ some 200) :
    processHead r = .error (httpToGrpcStatus (r.status.getD 0)) := by
  rw [processHead, if_pos h]

theorem precedenceKept_mapped_iff : PrecedenceKept r (httpToGrpcStatus (r.status.getD 0)) ↔
    values r.headers "grpc-status" = [] := by
  constructor
  · intro hkept
    exact hkept.mapped rfl
  · intro hnone
    refine ⟨?_, fun _ => hnone⟩
    intro code hcode
    rw [denotedCode, getStr_of_nil hnone] at hcode
    cases hcode

end

/-! ## The poll that takes the head in -/

/-- The call `materialize` hands to its first race. -/
def Call.requested (s : Call ρ ω H Req Resp) (tick : Tick ρ ω H) : Call ρ ω H Req Resp :=
  ⟨s.conn, { s.world with now := s.world.now.later tick.build }⟩

/-- What the race for the head finds, before it polls the request future. -/
def Call.raceInterrupted (s : Call ρ ω H Req Resp) (started : Bool) (tick : Tick ρ ω H) :
    Option Status :=
  interrupt s.conn.deadline started (s.world.observe tick.opening) tick.opening.timer

/-- This poll of an operation's future polls the request future. -/
inductive Call.PollsNet (s : Call ρ ω H Req Resp) (op : Op Req) (tick : Tick ρ ω H) :
    OpFuture H Req → Prop
  | first {p : Pending H} : op.Opens → s.conn.inner = .pending p → s.conn.initError = none →
      (s.requested tick).raceInterrupted false tick = none → PollsNet s op tick (.start op)
  | resumed (o : Opening H) : op.Opens → s.raceInterrupted true tick = none →
      PollsNet s op tick (.opening op o)

section

variable [ResponseBody ρ H] [AsyncWrite ω] [CodecCrates] [HeaderMap H] [Base64] [Features]
  {s : Call ρ ω H Req Resp} {op : Op Req} {tick : Tick ρ ω H} {r : Response ρ ω H}
  {future : OpFuture H Req}

/-- Only what is buffered for the request is taken out of the conn. -/
theorem Call.PollsNet.poll (h : s.PollsNet op tick future) :
    ∃ inner world o started, interrupt s.conn.deadline started (world.observe tick.opening)
        tick.opening.timer = none ∧
      s.poll tick future = Call.pollOpening ⟨{ s.conn with inner }, world⟩ op o started tick := by
  cases h with
  | resumed o hop hquiet => exact ⟨s.conn.inner, s.world, o, true, hquiet, rfl⟩
  | @first p hop hpending hinit hquiet =>
      have hmaterialize : ∀ p' : Pending H, ∀ inner, ∃ inner' o,
          Call.materialize ⟨{ s.conn with inner }, s.world⟩ p' op tick = Call.pollOpening
            ⟨{ s.conn with inner := inner' }, (s.requested tick).world⟩ op o false tick := by
        intro p' inner
        unfold Call.materialize
        split
        · rename_i hsome
          rw [hinit] at hsome
          cases hsome
        · exact ⟨_, _, rfl⟩
      cases op with
      | send message => cases hop
      | recv =>
          obtain ⟨inner, o, heq⟩ := hmaterialize p s.conn.inner
          refine ⟨inner, _, o, false, hquiet, ?_⟩
          simp only [Call.poll, Call.startRecv, hpending]
          exact heq
      | openHead =>
          obtain ⟨inner, o, heq⟩ := hmaterialize p s.conn.inner
          refine ⟨inner, _, o, false, hquiet, ?_⟩
          simp only [Call.poll, Call.startOpenHead, hpending]
          exact heq
      | closeSend =>
          obtain ⟨inner, o, heq⟩ := hmaterialize { p with sendClosed := true }
            (.pending { p with sendClosed := true })
          refine ⟨inner, _, o, false, hquiet, ?_⟩
          simp only [Call.poll, Call.startClose, hpending]
          exact heq

def Call.settle (s : Call ρ ω H Req Resp) (op : Op Req) (tick : Tick ρ ω H)
    (r : Response ρ ω H) : OpStep ρ ω H Req Resp :=
  match processHead r with
  | .error status => finish ⟨s.conn.fail status, s.world⟩ op (op.failure status)
  | .ok head => afterOpen ⟨s.conn.goLive r head, s.world⟩ op tick

theorem Call.PollsNet.poll_response (h : s.PollsNet op tick future)
    (hnet : tick.net = .response r) : ∃ inner world,
      s.poll tick future = Call.settle ⟨{ s.conn with inner }, world⟩ op tick r := by
  obtain ⟨inner, world, o, started, hquiet, hpoll⟩ := h.poll
  refine ⟨inner, (world.observe tick.opening).put o, ?_⟩
  rw [hpoll]
  cases hr : processHead r with
  | error status => simp only [Call.pollOpening, hquiet, hnet, Call.settle, hr]
  | ok head => simp only [Call.pollOpening, hquiet, hnet, Call.settle, hr]

theorem Call.PollsNet.poll_waiting (h : s.PollsNet op tick future)
    (hnet : tick.net = .connecting ∨ tick.net = .sent) :
    ∃ inner world o,
      s.poll tick future = ⟨.pending, ⟨{ s.conn with inner }, world⟩, .opening op o⟩ := by
  obtain ⟨inner, world, o, started, hquiet, hpoll⟩ := h.poll
  rcases hnet with hnet | hnet
  · refine ⟨inner, world.observe tick.opening, o, ?_⟩
    rw [hpoll]
    simp only [Call.pollOpening, hquiet, hnet]
  · refine ⟨inner, (world.observe tick.opening).put o, { o with sent := true }, ?_⟩
    rw [hpoll]
    simp only [Call.pollOpening, hquiet, hnet]

/-- Polled again and again, the operation takes the head of `r` in. -/
inductive Call.HeadComes (op : Op Req) (r : Response ρ ω H) :
    Call ρ ω H Req Resp → OpFuture H Req → List (Tick ρ ω H) → Prop
  | now {s : Call ρ ω H Req Resp} {future : OpFuture H Req} {tick : Tick ρ ω H}
      (ticks : List (Tick ρ ω H)) : s.PollsNet op tick future → tick.net = .response r →
      HeadComes op r s future (tick :: ticks)
  | later {s : Call ρ ω H Req Resp} {future : OpFuture H Req} {tick : Tick ρ ω H}
      {ticks : List (Tick ρ ω H)} : s.PollsNet op tick future →
      tick.net = .connecting ∨ tick.net = .sent →
      HeadComes op r (s.poll tick future).call (s.poll tick future).future ticks →
      HeadComes op r s future (tick :: ticks)

/-- The call that meets the head has the conn's settings, whatever was waited for. -/
theorem Call.HeadComes.settled {ticks : List (Tick ρ ω H)}
    (h : Call.HeadComes op r s future ticks) : ∃ inner world tick, ∀ answer,
      (Call.settle ⟨{ s.conn with inner }, world⟩ op tick r).answer = .ready answer →
        (s.drive future ticks).1 = some answer ∧ (s.drive future ticks).2.1 =
          (Call.settle ⟨{ s.conn with inner }, world⟩ op tick r).call := by
  induction h with
  | @now s future tick ticks hraces hnet =>
      obtain ⟨inner, world, hpoll⟩ := hraces.poll_response hnet
      refine ⟨inner, world, tick, ?_⟩
      intro answer hanswer
      rw [← hpoll] at hanswer ⊢
      rw [Call.drive]
      split
      · rename_i answer' s' future' hstep
        rw [hstep] at hanswer ⊢
        cases hanswer
        exact ⟨rfl, rfl⟩
      · rename_i s' future' hstep
        rw [hstep] at hanswer
        cases hanswer
  | @later s future tick ticks hraces hnet _ ih =>
      obtain ⟨inner, world, o, hpoll⟩ := hraces.poll_waiting hnet
      rw [hpoll] at ih
      simp only [Call.drive, hpoll]
      exact ih

omit [ResponseBody ρ H] [AsyncWrite ω] [CodecCrates] [HeaderMap H] [Base64] [Features] in
theorem Op.failure_inj {status status' : Status}
    (h : (op.failure status : Answer Resp) = op.failure status') : status = status' := by
  cases op <;> simpa [Op.failure] using h

theorem Call.HeadComes.refused {status : Status} (hr : processHead r = .error status)
    {ticks : List (Tick ρ ω H)} (h : Call.HeadComes op r s future ticks) :
    (s.drive future ticks).1 = some (op.failure status) ∧
      (s.drive future ticks).2.1.conn.inner = .failed status := by
  obtain ⟨inner, world, tick, hsettled⟩ := h.settled
  simp only [Call.settle, hr] at hsettled
  obtain ⟨hanswer, hcall⟩ := hsettled _ rfl
  exact ⟨hanswer, by rw [hcall]; rfl⟩

theorem Call.HeadComes.opened {head : Head H} (hr : processHead r = .ok head)
    {ticks : List (Tick ρ ω H)} (h : Call.HeadComes .openHead r s future ticks) :
    (s.drive future ticks).1 = some (.unit (.ok ())) ∧ ∃ writer, (s.drive future ticks).2.1.LiveAt
      (s.conn.readConfig head.responseEncoding) head writer (r.reader, .new) := by
  obtain ⟨inner, world, tick, hsettled⟩ := h.settled
  simp only [Call.settle, hr, Call.afterOpen] at hsettled
  obtain ⟨hanswer, hcall⟩ := hsettled _ rfl
  refine ⟨hanswer, if s.conn.fullDuplex then some r.writer else none, ?_⟩
  rw [hcall]
  simp only [Call.finish, GrpcClientConn.goLive]
  split
  · exact ⟨rfl, rfl⟩
  · exact ⟨rfl, rfl⟩

/-! ## A head with another HTTP status -/

/-- The operation fails with a status that keeps the precedence, and so does the conn. -/
def Call.ReportsByPrecedence (s : Call ρ ω H Req Resp) (op : Op Req) (r : Response ρ ω H)
    (future : OpFuture H Req) (ticks : List (Tick ρ ω H)) : Prop :=
  ∃ status, (s.drive future ticks).1 = some (op.failure status) ∧
    (s.drive future ticks).2.1.conn.inner = .failed status ∧ PrecedenceKept r status

/-- An operation that takes in a head with another HTTP status than 200 reports by the
precedence of the mapping exactly when the head has no `grpc-status`. -/
theorem grpcStatus_precedence_iff {ticks : List (Tick ρ ω H)}
    (h : Call.HeadComes op r s future ticks) (hstatus : r.status ≠ some 200) :
    s.ReportsByPrecedence op r future ticks ↔ values r.headers "grpc-status" = [] := by
  obtain ⟨hanswer, hinner⟩ := h.refused (processHead_of_status hstatus)
  rw [← precedenceKept_mapped_iff]
  constructor
  · rintro ⟨status, hreported, _, hkept⟩
    rw [hanswer] at hreported
    rwa [Op.failure_inj (Option.some.inj hreported)]
  · intro hkept
    exact ⟨_, hanswer, hinner, hkept⟩

end

def badGateway : Response ScriptedBody SinkScript HeaderList :=
  { status := some 503
    headers := empty
    reader := ⟨⟨[], [], none⟩, empty⟩
    writer := ⟨[]⟩ }

def statusBehindGateway : Response ScriptedBody SinkScript HeaderList :=
  { badGateway with headers := insert empty "grpc-status" (.ofString "5") }

theorem gateway_status_mapped :
    letI := storedCrates
    letI := standardNoPad
    letI := allFeatures
    (plainCall false).ReportsByPrecedence .recv badGateway (.start .recv)
      [quietTick .sent, quietTick (.response badGateway)] := by
  let _ := storedCrates
  let _ := standardNoPad
  let _ := allFeatures
  have hopens : (Op.recv : Op (List UInt8)).Opens := rfl
  have hcomes : Call.HeadComes .recv badGateway (plainCall false) (.start .recv)
      [quietTick .sent, quietTick (.response badGateway)] :=
    .later (.first hopens rfl rfl rfl) (.inr rfl) (.now [] (.resumed _ hopens rfl) rfl)
  exact (grpcStatus_precedence_iff hcomes (by decide)).mpr rfl

/-- `NotFound` is reported as `Unavailable`. -/
theorem gateway_hides_status :
    letI := storedCrates
    letI := standardNoPad
    letI := allFeatures
    ¬ (plainCall false).ReportsByPrecedence .recv statusBehindGateway (.start .recv)
      [quietTick (.response statusBehindGateway)] := by
  let _ := storedCrates
  let _ := standardNoPad
  let _ := allFeatures
  have hanswer : ((plainCall false).drive (.start .recv)
      [quietTick (.response statusBehindGateway)]).1 =
        some ((Op.recv : Op (List UInt8)).failure (.unavailable "HTTP 503")) := rfl
  have hdenoted : denotedCode statusBehindGateway.headers = some .notFound := by
    rw [denotedCode, statusBehindGateway, getStr_insert_self]
    decide
  rintro ⟨status, hreported, _, hkept⟩
  rw [hanswer] at hreported
  have hcode := hkept.denoted .notFound hdenoted (by decide)
  rw [← Op.failure_inj (Option.some.inj hreported)] at hcode
  cases hcode

end TrilliumGrpc
