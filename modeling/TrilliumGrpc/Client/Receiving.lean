import TrilliumGrpc.Client.Serving
import TrilliumGrpc.Frame.RoundTrip

/-! # Receiving a response

A live call without deadline or cancellation, behind any head and in either mode.
What a call answers depends on its source alone.
-/

namespace TrilliumGrpc

open Async ByteSource HeaderMap

/-! ## Bodies with trailers -/

/-- A response body of fixed bytes that has its trailers in, if it gets any, once its
end has been read. -/
class EndingSource (ρ : Type) (H : outParam Type) extends ByteSource ρ, ResponseBody ρ H where
  /-- The trailers behind the bytes. -/
  behind : ρ → Option H
  behind_pollRead : ∀ r len, behind (pollRead r len).2 = behind r
  trailers_end : ∀ {r len chunk r'}, 0 < len → pollRead r len = (.ready (.ok chunk), r') →
    chunk.1 = [] → trailers r' = behind r'

namespace EndingSource

variable {ρ H : Type} [EndingSource ρ H]

/-- An exact read leaves the trailers behind, and has them in where it meets the end. -/
theorem fillLoop_behind {cap : Nat} (fuel : Nat) (r : ρ) (buf : FillBuf cap) :
    behind (fillLoop fuel r buf).2 = behind r ∧
      ∀ buf', (fillLoop fuel r buf).1 = .eof buf' →
        ResponseBody.trailers (fillLoop fuel r buf).2 = behind r := by
  induction fuel generalizing r buf with
  | zero => exact ⟨rfl, by simp [fillLoop]⟩
  | succ fuel ih =>
      rw [fillLoop]
      by_cases hroom : buf.room = 0
      · rw [if_pos hroom]
        exact ⟨rfl, by simp⟩
      · rw [if_neg hroom]
        have hbehind := behind_pollRead r buf.room
        cases hp : AsyncRead.pollRead r buf.room with
        | mk answer r' =>
            rw [hp] at hbehind
            rcases answer with _ | (e | chunk)
            · exact ⟨hbehind, by simp⟩
            · exact ⟨hbehind, by simp⟩
            · dsimp only
              by_cases hnil : chunk.1 = []
              · rw [if_pos hnil]
                refine ⟨hbehind, fun buf' _ => ?_⟩
                rw [← hbehind]
                exact trailers_end (Nat.pos_of_ne_zero hroom) hp hnil
              · rw [if_neg hnil, ← hbehind]
                exact ih r' (buf.write chunk)

variable [CodecCrates] {T : Type}

theorem pollPayload_behind (cfg : ReadConfig T) (r : ρ) (compressed : Bool) (len : Nat)
    (payload : FillBuf len) : behind (pollPayload cfg r compressed len payload).reader = behind r ∧
      (pollPayload cfg r compressed len payload).answer ≠ .ready none := by
  have hfill := (fillLoop_behind payload.room r payload).1
  rw [← fill] at hfill
  unfold pollPayload
  cases hf : fill r payload with
  | mk stop r' =>
      rw [hf] at hfill
      cases stop <;> exact ⟨hfill, by simp⟩

/-- The end of the messages is the end of the body. -/
theorem pollReadMessage_behind (cfg : ReadConfig T) (r : ρ) {state : ReadState}
    (hlive : state ≠ .done) : behind (pollReadMessage cfg r state).reader = behind r ∧
      ((pollReadMessage cfg r state).answer = .ready none →
        ResponseBody.trailers (pollReadMessage cfg r state).reader = behind r) := by
  cases state with
  | done => exact absurd rfl hlive
  | readingPayload compressed len payload =>
      obtain ⟨hbehind, hne⟩ := pollPayload_behind cfg r compressed len payload
      exact ⟨hbehind, fun hend => absurd hend hne⟩
  | readingPrefix buf =>
      have hfill := fillLoop_behind buf.room r buf
      rw [← fill] at hfill
      simp only [pollReadMessage, pollPrefix]
      cases hf : fill r buf with
      | mk stop r' =>
          rw [hf] at hfill
          obtain ⟨hbehind, htrailers⟩ := hfill
          cases stop with
          | pending buf' => exact ⟨hbehind, by simp⟩
          | error e => exact ⟨hbehind, by simp⟩
          | eof buf' =>
              dsimp only
              split
              · exact ⟨hbehind, fun _ => htrailers buf' rfl⟩
              · exact ⟨hbehind, by simp⟩
          | full buf' =>
              dsimp only
              split
              · exact ⟨hbehind, by simp⟩
              · obtain ⟨hpayload, hne⟩ := pollPayload_behind cfg r' (parsePrefix buf'.bytes).1
                  (parsePrefix buf'.bytes).2 (.zeroed _)
                exact ⟨hpayload.trans hbehind, fun hend => absurd hend hne⟩

theorem readPoll_behind {cfg : ReadConfig T} {v v' : ρ × ReadState}
    {answer : Poll (Option (Except Status T))} (hlive : v.2 ≠ .done)
    (h : readPoll cfg v = (answer, v')) : behind v'.1 = behind v.1 ∧
      (answer = .ready none → ResponseBody.trailers v'.1 = behind v.1) := by
  have hread := pollReadMessage_behind cfg v.1 hlive
  simp only [readPoll, Prod.mk.injEq] at h
  obtain ⟨rfl, rfl⟩ := h
  exact hread

end EndingSource

/-- A response body of fixed bytes whose trailers are in once its end has been read. -/
class TrailedSource (ρ : Type) (H : outParam Type) extends ByteSource ρ, ResponseBody ρ H where
  /-- The trailers behind the bytes. -/
  coming : ρ → H
  coming_pollRead : ∀ r len, coming (pollRead r len).2 = coming r
  trailers_end : ∀ {r len chunk r'}, 0 < len → pollRead r len = (.ready (.ok chunk), r') →
    chunk.1 = [] → trailers r' = some (coming r')

instance {ρ H : Type} [TrailedSource ρ H] : EndingSource ρ H where
  behind r := some (TrailedSource.coming r)
  behind_pollRead r len := congrArg some (TrailedSource.coming_pollRead r len)
  trailers_end := TrailedSource.trailers_end

theorem ScriptedBody.pollRead_script {b b' : ScriptedBody} {len : Nat}
    {answer : Poll (Except String (Chunk len))} (h : AsyncRead.pollRead b len = (answer, b')) :
    AsyncRead.pollRead b.script len = (answer, b'.script) ∧ b'.sent = b.sent := by
  have heq : AsyncRead.pollRead b len = ((AsyncRead.pollRead b.script len).1,
      { b with script := (AsyncRead.pollRead b.script len).2 }) := rfl
  rw [heq, Prod.mk.injEq] at h
  obtain ⟨rfl, rfl⟩ := h
  exact ⟨rfl, rfl⟩

instance : TrailedSource ScriptedBody HeaderList where
  rest b := rest b.script
  fault b := fault b.script
  stall b := stall b.script
  coming b := b.sent
  fault_pollRead b len := fault_pollRead b.script len
  pending_spec h := pending_spec (ScriptedBody.pollRead_script h).1
  chunk_spec hlen h := chunk_spec hlen (ScriptedBody.pollRead_script h).1
  error_spec h := error_spec (ScriptedBody.pollRead_script h).1
  coming_pollRead _ _ := rfl
  trailers_end {b len chunk b'} hlen h hnil := by
    obtain ⟨hrest, hend⟩ := chunk_spec hlen (ScriptedBody.pollRead_script h).1
    rw [(hend hnil).1, hnil] at hrest
    exact if_pos hrest.symm

variable {ρ ω H Req Resp : Type}

/-! ## Behind a head -/

/-- The inner state of a live call in its mode: without a write half it is half-duplex. -/
def Head.live (head : Head H) (writer : Option ω) (v : ρ × ReadState) : Inner ρ ω H :=
  match writer with
  | none =>
      .reading ⟨v.1, head.responseHeaders, v.2, head.responseEncoding, head.headStatus⟩
  | some writer =>
      .duplex ⟨⟨v.1, writer⟩, head.responseHeaders, v.2, head.responseEncoding, head.headStatus⟩

/-- A `recv`, polled before or not. -/
def OpFuture.IsRecv : OpFuture H Req → Prop
  | .start .recv => True
  | .reading => True
  | _ => False

def OpFuture.started : OpFuture H Req → Bool
  | .start _ => false
  | _ => true

/-- What the race of a `recv` finds at this poll. -/
def Call.interrupted (s : Call ρ ω H Req Resp) (tick : Tick ρ ω H) (future : OpFuture H Req) :
    Option Status :=
  interrupt s.conn.deadline future.started (s.world.observe tick.live) tick.live.timer

/-- A live call behind `head`, with its reader and the state of its current frame at `v`. -/
structure Call.LiveAt (cfg : ReadConfig Resp) (head : Head H) (writer : Option ω)
    (v : ρ × ReadState) (s : Call ρ ω H Req Resp) : Prop where
  inner : s.conn.inner = head.live writer v
  config : s.conn.readConfig head.responseEncoding = cfg

/-- A live call behind `head` without deadline or cancellation, with its reader and the
state of its current frame at `v`. -/
structure Call.Receiving (cfg : ReadConfig Resp) (head : Head H) (writer : Option ω)
    (v : ρ × ReadState) (s : Call ρ ω H Req Resp) : Prop where
  inner : s.conn.inner = head.live writer v
  config : s.conn.readConfig head.responseEncoding = cfg
  deadline : s.conn.deadline = none
  cancelled : s.world.cancelled = false

def Call.Ended (responseHeaders : H) (s : Call ρ ω H Req Resp) : Prop :=
  ∃ trailers, s.conn.inner = .done responseHeaders trailers

theorem Call.Ended.isDone {responseHeaders : H} {s : Call ρ ω H Req Resp}
    (h : s.Ended responseHeaders) : s.conn.inner.IsDone := by
  obtain ⟨trailers, hinner⟩ := h
  rw [hinner]
  trivial

theorem Call.Receiving.known {cfg : ReadConfig Resp} {head : Head H} {writer : Option ω}
    {v : ρ × ReadState} {s : Call ρ ω H Req Resp} (h : s.Receiving cfg head writer v) :
    s.conn.headers = some head.responseHeaders ∧ s.conn.trailers = none := by
  rw [GrpcClientConn.headers, GrpcClientConn.trailers, h.inner]
  cases writer <;> exact ⟨rfl, rfl⟩

theorem Call.Ended.known {responseHeaders : H} {s : Call ρ ω H Req Resp}
    (h : s.Ended responseHeaders) :
    s.conn.headers = some responseHeaders ∧ s.conn.trailers.isSome := by
  obtain ⟨trailers, hinner⟩ := h
  rw [GrpcClientConn.headers, GrpcClientConn.trailers, hinner]
  exact ⟨rfl, rfl⟩

theorem GrpcClientConn.goLive_receiving {c : GrpcClientConn ρ ω H Req Resp}
    (hdeadline : c.deadline = none) (r : Response ρ ω H) (head : Head H) {w : World H}
    (hw : w.cancelled = false) : Call.Receiving (c.readConfig head.responseEncoding) head
      (if c.fullDuplex then some r.writer else none) (r.reader, .new)
      (⟨c.goLive r head, w⟩ : Call ρ ω H Req Resp) := by
  unfold GrpcClientConn.goLive
  split
  · exact ⟨rfl, rfl, hdeadline, hw⟩
  · exact ⟨rfl, rfl, hdeadline, hw⟩

section

variable [HeaderMap H] [Base64]

/-- The status at the end of the body: the trailers', else the head's, else that of
trailers without one. -/
def Head.finalStatus (head : Head H) (trailers : H) : Except Status Unit :=
  if (getStr trailers "grpc-status").isSome then Status.fromTrailers trailers
  else head.headStatus.getD (Status.fromTrailers trailers)

def closing (trailers : H) : Except Status (Option Resp) :=
  (Status.fromTrailers trailers).map (fun _ => none)

theorem Head.finalStatus_of_none {head : Head H} (h : head.headStatus = none) (trailers : H) :
    head.finalStatus trailers = Status.fromTrailers trailers := by
  rw [finalStatus, h, Option.getD_none, ite_self]

variable [ResponseBody ρ H]

theorem GrpcClientConn.finishFromTrailers_live {c : GrpcClientConn ρ ω H Req Resp} {head : Head H}
    {writer : Option ω} {v : ρ × ReadState} (h : c.inner = head.live writer v) :
    c.finishFromTrailers.1 = head.finalStatus ((ResponseBody.trailers v.1).getD empty) ∧
      ∃ trailers, c.finishFromTrailers.2.inner = .done head.responseHeaders trailers := by
  have hending : c.ending =
      (head.responseHeaders, head.headStatus, (ResponseBody.trailers v.1).getD empty) := by
    cases writer <;> simp only [ending, h, Head.live]
  rw [finishFromTrailers, hending, Head.finalStatus]
  dsimp only
  split
  · exact ⟨rfl, _, rfl⟩
  · cases head.headStatus with
    | none => exact ⟨rfl, _, rfl⟩
    | some status => exact ⟨rfl, _, rfl⟩

omit [HeaderMap H] [Base64] [ResponseBody ρ H] in
theorem GrpcClientConn.isTrailersOnly_live {c : GrpcClientConn ρ ω H Req Resp} {head : Head H}
    {writer : Option ω} {v : ρ × ReadState} (h : c.inner = head.live writer v) :
    c.isTrailersOnly = head.headStatus.isSome := by
  cases writer <;> simp only [isTrailersOnly, h, Head.live]

end

section

variable [EndingSource ρ H] [CodecCrates] {cfg : ReadConfig Resp} {head : Head H}
  {writer : Option ω} {v : ρ × ReadState}

theorem GrpcClientConn.pollRead_live {c : GrpcClientConn ρ ω H Req Resp}
    (h : c.inner = head.live writer v) (hconfig : c.readConfig head.responseEncoding = cfg) :
    c.pollRead = ((readPoll cfg v).1, { c with inner := head.live writer (readPoll cfg v).2 }) := by
  subst hconfig
  cases writer <;> simp only [pollRead, h, Head.live] <;> rfl

variable [AsyncWrite ω] [HeaderMap H] [Base64] [Features]

/-- One poll of a `recv` behind `head` that wins its race, as the source's answer has it. -/
def Head.LiveStep (cfg : ReadConfig Resp) (head : Head H) (writer : Option ω)
    (step : OpStep ρ ω H Req Resp) : Poll (Option (Except Status Resp)) × (ρ × ReadState) → Prop
  | (.pending, v') =>
      step.answer = .pending ∧ step.future = .reading ∧ step.call.LiveAt cfg head writer v'
  | (.ready (some (.ok message)), v') =>
      (head.headStatus = none → step.answer = .ready (.item (.ok (some message))) ∧
        step.call.LiveAt cfg head writer v') ∧
      (head.headStatus.isSome → step.answer = .ready (.item (.error trailersOnlyBody)) ∧
        step.call.Ended head.responseHeaders)
  | (.ready (some (.error status)), _) =>
      step.answer = .ready (.item (.error status)) ∧ step.call.Ended head.responseHeaders
  | (.ready none, v') =>
      step.answer = .ready (.item ((head.finalStatus
          ((ResponseBody.trailers v'.1).getD empty)).map (fun _ => none))) ∧
        step.call.Ended head.responseHeaders

namespace Call.LiveAt

variable {s : Call ρ ω H Req Resp}

theorem poll_eq (h : s.LiveAt cfg head writer v) {future : OpFuture H Req} (hrecv : future.IsRecv)
    (tick : Tick ρ ω H) : s.poll tick future = s.pollReading future.started tick := by
  cases future with
  | start op =>
      cases op with
      | recv => cases writer <;> simp only [Call.poll, startRecv, deliver, h.inner, Head.live,
          OpFuture.started]
      | _ => exact hrecv.elim
  | reading => rfl
  | _ => exact hrecv.elim

theorem poll_interrupted (h : s.LiveAt cfg head writer v) {future : OpFuture H Req}
    (hrecv : future.IsRecv) {tick : Tick ρ ω H} {status : Status}
    (hstop : s.interrupted tick future = some status) :
    (s.poll tick future).answer = .ready (.item (.error status)) := by
  rw [interrupted] at hstop
  rw [h.poll_eq hrecv, pollReading]
  dsimp only
  rw [hstop]
  rfl

theorem poll (h : s.LiveAt cfg head writer v) {future : OpFuture H Req} (hrecv : future.IsRecv)
    {tick : Tick ρ ω H} (hfree : s.interrupted tick future = none) :
    head.LiveStep cfg writer (s.poll tick future) (readPoll cfg v) ∧
      (s.poll tick future).call.conn.deadline = s.conn.deadline ∧
      (s.poll tick future).call.world = s.world.observe tick.live := by
  have hread := GrpcClientConn.pollRead_live h.inner h.config
  rw [interrupted] at hfree
  rw [h.poll_eq hrecv, pollReading]
  dsimp only
  rw [hfree, hread]
  cases hp : readPoll cfg v with
  | mk answer v' =>
      have hat : (⟨{ s.conn with inner := head.live writer v' }, s.world.observe tick.live⟩ :
          Call ρ ω H Req Resp).LiveAt cfg head writer v' := ⟨rfl, h.config⟩
      obtain ⟨hstatus, hended⟩ := GrpcClientConn.finishFromTrailers_live hat.inner
      have honly := GrpcClientConn.isTrailersOnly_live hat.inner
      obtain ⟨_, _, hdone⟩ := GrpcClientConn.finishFromTrailers_conn
        { s.conn with inner := head.live writer v' }
      have hkept : ({ s.conn with inner := head.live writer v' } :
          GrpcClientConn ρ ω H Req Resp).finishFromTrailers.2.deadline = s.conn.deadline := by
        rw [hdone]
      rcases answer with _ | (_ | (status | message))
      · exact ⟨⟨rfl, rfl, hat⟩, rfl, rfl⟩
      · refine ⟨⟨?_, hended⟩, hkept, rfl⟩
        simp only [finish, GrpcClientConn.readOutcome, hstatus]
      · exact ⟨⟨rfl, hended⟩, hkept, rfl⟩
      · simp only [GrpcClientConn.readOutcome, honly]
        cases hsome : head.headStatus.isSome with
        | false =>
            refine ⟨⟨fun _ => ⟨rfl, hat⟩, fun htrue => ?_⟩, rfl, rfl⟩
            simp [hsome] at htrue
        | true =>
            refine ⟨⟨fun hnone => ?_, fun _ => ⟨rfl, hended⟩⟩, hkept, rfl⟩
            simp [hnone] at hsome

end Call.LiveAt

/-- One poll of a `recv` behind `head`, as the source's answer has it. -/
def Head.RecvStep (cfg : ReadConfig Resp) (head : Head H) (writer : Option ω)
    (step : OpStep ρ ω H Req Resp) : Poll (Option (Except Status Resp)) × (ρ × ReadState) → Prop
  | (.pending, v') => step.Waits ∧ step.call.Receiving cfg head writer v'
  | (.ready (some (.ok message)), v') =>
      (head.headStatus = none → step.answer = .ready (.item (.ok (some message))) ∧
        step.call.Receiving cfg head writer v') ∧
      (head.headStatus.isSome → step.answer = .ready (.item (.error trailersOnlyBody)) ∧
        step.call.Ended head.responseHeaders)
  | (.ready (some (.error status)), _) =>
      step.answer = .ready (.item (.error status)) ∧ step.call.Ended head.responseHeaders
  | (.ready none, v') =>
      step.answer = .ready (.item ((head.finalStatus
          ((ResponseBody.trailers v'.1).getD empty)).map (fun _ => none))) ∧
        step.call.Ended head.responseHeaders

namespace Call.Receiving

variable {s : Call ρ ω H Req Resp}

omit [AsyncWrite ω] [Features] in
theorem pollReading_eq (h : s.Receiving cfg head writer v) (tick : Tick ρ ω H) (started : Bool) :
    s.pollReading started tick = s.deliver tick := by
  cases writer <;>
    simp only [Call.deliver, h.inner, Head.live, Call.pollReading, h.deadline, interrupt]

theorem poll_eq (h : s.Receiving cfg head writer v) (tick : Tick ρ ω H) :
    s.poll tick (.start .recv) = s.deliver tick := by
  cases writer <;> simp only [Call.poll, Call.startRecv, h.inner, Head.live]

theorem resumes (h : s.Receiving cfg head writer v) (tick : Tick ρ ω H) :
    s.poll tick .reading = s.poll tick (.start .recv) := by
  rw [h.poll_eq, ← h.pollReading_eq tick true]
  rfl

theorem poll (h : s.Receiving cfg head writer v) {tick : Tick ρ ω H}
    (hquiet : tick.live.cancel = false) :
    head.RecvStep cfg writer (s.poll tick (.start .recv)) (readPoll cfg v) := by
  have hworld : (s.world.observe tick.live).cancelled = false := by
    simp [World.observe, h.cancelled, hquiet]
  have hfree : s.interrupted tick (.start .recv) = none := by
    simp [interrupted, interrupt, h.deadline, hworld]
  have hrecv : (OpFuture.start .recv : OpFuture H Req).IsRecv := trivial
  obtain ⟨hstep, hdeadline, hafter⟩ := LiveAt.poll ⟨h.inner, h.config⟩ hrecv hfree
  -- the step leaves the call as free of deadline and cancellation as it found it
  have hat : ∀ {v'}, (s.poll tick (.start .recv)).call.LiveAt cfg head writer v' →
      (s.poll tick (.start .recv)).call.Receiving cfg head writer v' := by
    intro v' hlive
    exact ⟨hlive.inner, hlive.config, hdeadline.trans h.deadline,
      (congrArg World.cancelled hafter).trans hworld⟩
  cases hp : readPoll cfg v with
  | mk answer v' =>
      rw [hp] at hstep
      rcases answer with _ | (_ | (status | message))
      · obtain ⟨hpending, hreading, hlive⟩ := hstep
        exact ⟨⟨hpending, hreading, (hat hlive).resumes⟩, hat hlive⟩
      · exact hstep
      · exact hstep
      · refine ⟨fun hnone => ?_, hstep.2⟩
        obtain ⟨hanswer, hlive⟩ := hstep.1 hnone
        exact ⟨hanswer, hat hlive⟩

end Call.Receiving

end

/-! ## A body of complete frames -/

/-- A live call without deadline or cancellation, with its reader and the state of
its current frame at `v`, whose head had no status. -/
structure Call.At (cfg : ReadConfig Resp) (v : ρ × ReadState) (s : Call ρ ω H Req Resp) : Prop where
  inner : ∃ responseHeaders,
    s.conn.inner = .reading ⟨v.1, responseHeaders, v.2, cfg.encoding, none⟩
  config : s.conn.readConfig cfg.encoding = cfg
  deadline : s.conn.deadline = none
  cancelled : s.world.cancelled = false

section

variable [TrailedSource ρ H] [AsyncWrite ω] [CodecCrates] [HeaderMap H] [Base64] [Features]

/-- One poll of a `recv`, as the source's answer has it. -/
def RecvStep (cfg : ReadConfig Resp) (step : OpStep ρ ω H Req Resp) :
    Poll (Option (Except Status Resp)) × (ρ × ReadState) → Prop
  | (.pending, v') => step.answer = .pending ∧ step.future = .reading ∧ step.call.At cfg v'
  | (.ready (some (.ok message)), v') =>
      step.answer = .ready (.item (.ok (some message))) ∧ step.call.At cfg v'
  | (.ready (some (.error status)), _) =>
      step.answer = .ready (.item (.error status)) ∧ step.call.conn.inner.IsDone
  | (.ready none, v') =>
      step.answer = .ready (.item (closing ((ResponseBody.trailers v'.1).getD empty))) ∧
        step.call.conn.inner.IsDone

namespace Call.At

variable {cfg : ReadConfig Resp} {v : ρ × ReadState} {s : Call ρ ω H Req Resp}

omit [AsyncWrite ω] [HeaderMap H] [Base64] [CodecCrates] [Features] [TrailedSource ρ H] in
theorem iff_receiving : s.At cfg v ↔ ∃ responseHeaders,
    s.Receiving cfg ⟨responseHeaders, cfg.encoding, none⟩ none v := by
  constructor
  · intro h
    obtain ⟨responseHeaders, hinner⟩ := h.inner
    exact ⟨responseHeaders, hinner, h.config, h.deadline, h.cancelled⟩
  · rintro ⟨responseHeaders, h⟩
    exact ⟨⟨responseHeaders, h.inner⟩, h.config, h.deadline, h.cancelled⟩

theorem poll_reading (h : s.At cfg v) (tick : Tick ρ ω H) :
    s.poll tick .reading = s.poll tick (.start .recv) := by
  obtain ⟨responseHeaders, hreceiving⟩ := iff_receiving.mp h
  exact hreceiving.resumes tick

theorem poll (h : s.At cfg v) {tick : Tick ρ ω H} (hquiet : tick.live.cancel = false) :
    RecvStep cfg (s.poll tick (.start .recv)) (readPoll cfg v) := by
  obtain ⟨responseHeaders, hreceiving⟩ := iff_receiving.mp h
  have hpoll := hreceiving.poll hquiet
  cases hp : readPoll cfg v with
  | mk answer v' =>
      rw [hp] at hpoll
      rcases answer with _ | (_ | (status | message))
      · exact ⟨hpoll.1.pending, hpoll.1.reading, iff_receiving.mpr ⟨_, hpoll.2⟩⟩
      · obtain ⟨hanswer, hended⟩ := hpoll
        rw [Head.finalStatus_of_none rfl] at hanswer
        exact ⟨hanswer, hended.isDone⟩
      · exact ⟨hpoll.1, hpoll.2.isDone⟩
      · obtain ⟨hanswer, hthere⟩ := hpoll.1 rfl
        exact ⟨hanswer, iff_receiving.mpr ⟨_, hthere⟩⟩

end Call.At

/-- The source has the frames of `left` still to give, and these trailers behind them. -/
structure Coming (cfg : ReadConfig Resp) (left : List (Resp × List UInt8)) (trailers : H)
    (v : ρ × ReadState) : Prop where
  holding : Holding cfg left v
  unfinished : v.2 ≠ .done
  behind : TrailedSource.coming v.1 = trailers

def ComingStep (cfg : ReadConfig Resp) (left : List (Resp × List UInt8)) (trailers : H)
    (v : ρ × ReadState) : Poll (Option (Except Status Resp)) × (ρ × ReadState) → Prop
  | (.pending, v') => Coming cfg left trailers v' ∧ Advanced v'.1 v.1
  | (.ready (some message), v') => ∃ x left', left = x :: left' ∧ message = .ok x.1 ∧
      Coming cfg left' trailers v'
  | (.ready none, v') => left = [] ∧ ResponseBody.trailers v'.1 = some trailers

variable {cfg : ReadConfig Resp} {encode : Resp → Except Status (List UInt8)}
  {left : List (Resp × List UInt8)} {trailers : H} {v : ρ × ReadState}
  {s : Call ρ ω H Req Resp}

omit [AsyncWrite ω] [HeaderMap H] [Base64] [Features] in
theorem Coming.step [LawfulCrates] (hcap : cfg.maxMessageSize < 2 ^ 32)
    (hleft : ∀ x ∈ left, Carries cfg encode x.1 x.2) (h : Coming cfg left trailers v) :
    ComingStep cfg left trailers v (readPoll cfg v) := by
  have hstep := h.holding.step hcap hleft
  cases hp : readPoll cfg v with
  | mk answer v' =>
      obtain ⟨hsame, hend⟩ := EndingSource.readPoll_behind h.unfinished hp
      have hbehind : TrailedSource.coming v'.1 = trailers :=
        (Option.some.inj hsame).trans h.behind
      rw [hp] at hstep
      match answer with
      | .pending =>
          exact ⟨⟨hstep.1, (readPoll_pending hp).2.1, hbehind⟩, hstep.2⟩
      | .ready none => exact ⟨hstep.1, (hend rfl).trans (congrArg some h.behind)⟩
      | .ready (some message) =>
          obtain ⟨x, left', hl, hm, hfault, hrest, hnew⟩ := hstep
          obtain ⟨r', state'⟩ := v'
          subst hnew
          exact ⟨x, left', hl, hm, Holding.new hfault hrest, by simp [ReadState.new], hbehind⟩

/-- Finitely many polls lead to the next answer, and what follows it is assumed. -/
theorem Coming.serves_of_later [LawfulCrates] (hcap : cfg.maxMessageSize < 2 ^ 32)
    (hleft : ∀ x ∈ left, Carries cfg encode x.1 x.2)
    (hlater : ∀ x left' (v' : ρ × ReadState), left = x :: left' → Coming cfg left' trailers v' →
      Serves (fun v (s : Call ρ ω H Req Resp) => s.At cfg v) (fun s => s.conn.inner.IsDone)
        (closing trailers) (left'.map Prod.fst) v')
    (hv : Coming cfg left trailers v) :
    Serves (fun v (s : Call ρ ω H Req Resp) => s.At cfg v) (fun s => s.conn.inner.IsDone)
      (closing trailers) (left.map Prod.fst) v := by
  have hwf : WellFounded (fun v' v : ρ × ReadState => Advanced v'.1 v.1) :=
    InvImage.wf Prod.fst advanced_wf
  induction v using hwf.induction with
  | h v ih =>
      have hstep := hv.step hcap hleft
      cases hp : readPoll cfg v with
      | mk answer v' =>
          rw [hp] at hstep
          rcases answer with _ | (_ | message)
          · obtain ⟨hnext, hadv⟩ := hstep
            apply Serves.later (fun s tick hs hquiet => ?_) (ih v' hadv hnext)
            have hpoll := hs.poll hquiet
            rw [hp] at hpoll
            obtain ⟨hpending, hreading, hat⟩ := hpoll
            exact ⟨⟨hpending, hreading, hat.poll_reading⟩, hat⟩
          · obtain ⟨rfl, htrailers⟩ := hstep
            apply Serves.last
            intro s tick hs hquiet
            have hpoll := hs.poll hquiet
            rw [hp] at hpoll
            obtain ⟨hanswer, hdone⟩ := hpoll
            rw [htrailers, Option.getD_some] at hanswer
            exact ⟨hanswer, hdone⟩
          · obtain ⟨x, left', rfl, rfl, hnext⟩ := hstep
            apply Serves.message (fun s tick hs hquiet => ?_) (hlater x left' v' rfl hnext)
            have hpoll := hs.poll hquiet
            rw [hp] at hpoll
            exact hpoll

theorem Coming.serves [LawfulCrates] (hcap : cfg.maxMessageSize < 2 ^ 32)
    (hleft : ∀ x ∈ left, Carries cfg encode x.1 x.2) (hv : Coming cfg left trailers v) :
    Serves (fun v (s : Call ρ ω H Req Resp) => s.At cfg v) (fun s => s.conn.inner.IsDone)
      (closing trailers) (left.map Prod.fst) v := by
  induction left generalizing v with
  | nil => exact hv.serves_of_later hcap hleft (fun _ _ _ h => by simp at h)
  | cons x left ih =>
      apply hv.serves_of_later hcap hleft
      intro y left' v' h hv'
      obtain ⟨rfl, rfl⟩ := List.cons.inj h
      exact ih (fun z hz => hleft z (List.mem_cons_of_mem _ hz)) hv'

variable (ω Req) in
/-- Calls of `recv` that are polled often enough return all that is to come. -/
def ReturnsAll (cfg : ReadConfig Resp) (left : List (Resp × List UInt8)) (trailers : H)
    (v : ρ × ReadState) : Prop :=
  ∃ N, ∀ (s : Call ρ ω H Req Resp), s.At cfg v → ∀ ticks : List (List (Tick ρ ω H)),
    Uncancelled ticks → (∀ polls ∈ ticks, N ≤ polls.length) → s.received ticks =
      (replies (left.map Prod.fst) (closing trailers) ticks.length).take ticks.length

theorem Call.At.received_prefix [LawfulCrates] (hcap : cfg.maxMessageSize < 2 ^ 32)
    (hleft : ∀ x ∈ left, Carries cfg encode x.1 x.2) (hv : Coming cfg left trailers v)
    (hs : s.At cfg v) (ticks : List (List (Tick ρ ω H))) (hquiet : Uncancelled ticks) :
    s.received ticks <+: replies (left.map Prod.fst) (closing trailers) ticks.length :=
  ((hv.serves hcap hleft).served (fun _ hdone => hdone) hs ticks hquiet).replied

theorem Coming.returnsAll [LawfulCrates] (hcap : cfg.maxMessageSize < 2 ^ 32)
    (hleft : ∀ x ∈ left, Carries cfg encode x.1 x.2) (hv : Coming cfg left trailers v) :
    ReturnsAll ω Req cfg left trailers v :=
  (hv.serves hcap hleft).received fun _ hdone => hdone

end

end TrilliumGrpc
