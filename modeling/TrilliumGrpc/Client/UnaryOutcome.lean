import TrilliumGrpc.Client.UnaryVerdict

/-! # The outcome of a unary call

What an awaited call makes of an accepted response, in every case: the outcome that
`read_unary` draws from the results which the response's verdict has one `recv` after
another give.
-/

namespace TrilliumGrpc

open Async ByteSource HeaderMap Time

variable {ρ ω H Req Resp σ : Type} [HeaderMap H] [Base64]

/-- The results of a call's `recv`s, by the head's headers, the messages of the body with the
error that ends them, and the trailers. -/
def resultsOf (headers trailers : H) (messages : List Resp) (failure : Option Status) :
    List (Except Status (Option Resp)) :=
  (verdict headers trailers messages failure).1.map (fun m => .ok (some m)) ++
    [(verdict headers trailers messages failure).2]

theorem resultsOf_cons {headers : H} (h : (getStr headers "grpc-status").isSome = false)
    (trailers : H) (m : Resp) (messages : List Resp) (failure : Option Status) :
    resultsOf headers trailers (m :: messages) failure =
      .ok (some m) :: resultsOf headers trailers messages failure := by
  rw [resultsOf, verdict_cons h]
  rfl

theorem resultsOf_refused {headers : H} (h : (getStr headers "grpc-status").isSome = true)
    (trailers : H) (m : Resp) (messages : List Resp) (failure : Option Status) :
    resultsOf headers trailers (m :: messages) failure = [.error trailersOnlyBody] := by
  rw [resultsOf, verdict_refused h]
  rfl

theorem resultsOf_failed (headers trailers : H) (status : Status) :
    resultsOf headers trailers ([] : List Resp) (some status) = [.error status] := by
  rw [resultsOf, verdict_failed]
  rfl

theorem Head.Accepted.resultsOf_ended {head : Head H} (h : head.Accepted) (trailers : H) :
    resultsOf head.responseHeaders trailers ([] : List Resp) none =
      [(head.finalStatus trailers).map (fun _ => none)] := by
  rw [resultsOf, h.verdict_ended]
  rfl

theorem Head.Accepted.isSome_eq {head : Head H} (h : head.Accepted) :
    (getStr head.responseHeaders "grpc-status").isSome = head.headStatus.isSome := by
  rw [h]
  cases getStr head.responseHeaders "grpc-status" <;> rfl

variable [EndingSource ρ H] [AsyncWrite ω] [CodecCrates] [Features] [AsyncStream σ Req]
  {cfg : ReadConfig Resp} {head : Head H} {writer : Option ω} {v : ρ × ReadState}
  {messages : List Resp} {failure : Option Status} {trailers : Option H}

namespace UnaryAwait

variable {u : UnaryAwait ρ ω H Req Resp σ}

/-- Behind a message: the next of the results settles the outcome. -/
theorem outcome_of_confirming {m : Resp} {future : OpFuture H Req}
    (hstage : u.stage = .confirming m future) (hrecv : future.IsRecv)
    (hlive : u.call.LiveAt cfg head writer v) (hhead : head.Accepted)
    (hnone : head.headStatus = none) (hv : Remaining cfg messages failure trailers v)
    {ticks : List (Tick ρ ω H)} (hwhole : u.Uninterrupted ticks) {outcome : Outcome Resp}
    (hdone : (u.run ticks).outcome = some outcome) :
    readUnary (.ok (some m) :: resultsOf head.responseHeaders (trailers.getD empty) messages
      failure) = some outcome := by
  induction ticks generalizing u future v with
  | nil => simp [UnaryAwait.outcome, hstage] at hdone
  | cons tick ticks ih =>
      rw [run_cons] at hdone
      obtain ⟨hfree, hwhole⟩ := hwhole
      rw [Interrupted, hstage] at hfree
      have hrace : u.call.interrupted tick future = none := not_not.mp hfree
      have hpoll := (hlive.poll hrecv hrace).1
      have hnext := hv.step
      cases hp : readPoll cfg v with
      | mk answer v' =>
          rw [hp] at hpoll hnext
          rcases answer with _ | (_ | (status | second))
          · obtain ⟨hanswer, hreading, hthere⟩ := hpoll
            have hstep := step_confirming_pending hstage hanswer
            rw [hreading] at hstep
            rw [hstep] at hdone hwhole
            exact ih (u := { u with
              call := (u.call.poll tick future).call, stage := .confirming m .reading })
              rfl trivial hthere hnext.1 hwhole hdone
          · obtain ⟨rfl, rfl, rfl⟩ := hnext
            rw [step_confirming_ready hstage hpoll.1, run_finished rfl] at hdone
            rw [hhead.resultsOf_ended, readUnary]
            exact hdone
          · obtain ⟨rfl, rfl⟩ := hnext
            rw [step_confirming_ready hstage hpoll.1, run_finished rfl] at hdone
            rw [resultsOf_failed, readUnary]
            exact hdone
          · obtain ⟨messages', rfl, _⟩ := hnext
            rw [step_confirming_ready hstage (hpoll.1 hnone).1, run_finished rfl] at hdone
            have hheaders : (getStr head.responseHeaders "grpc-status").isSome = false := by
              rw [hhead.isSome_eq, hnone]
              rfl
            rw [resultsOf_cons hheaders, readUnary]
            exact hdone

theorem outcome_of_reading {future : OpFuture H Req} (hstage : u.stage = .reading future)
    (hrecv : future.IsRecv) (hlive : u.call.LiveAt cfg head writer v) (hhead : head.Accepted)
    (hv : Remaining cfg messages failure trailers v) {ticks : List (Tick ρ ω H)}
    (hwhole : u.Uninterrupted ticks) {outcome : Outcome Resp}
    (hdone : (u.run ticks).outcome = some outcome) :
    readUnary (resultsOf head.responseHeaders (trailers.getD empty) messages failure) =
      some outcome := by
  induction ticks generalizing u future v with
  | nil => simp [UnaryAwait.outcome, hstage] at hdone
  | cons tick ticks ih =>
      rw [run_cons] at hdone
      obtain ⟨hfree, hwhole⟩ := hwhole
      rw [Interrupted, hstage] at hfree
      have hrace : u.call.interrupted tick future = none := not_not.mp hfree
      have hpoll := (hlive.poll hrecv hrace).1
      have hnext := hv.step
      cases hp : readPoll cfg v with
      | mk answer v' =>
          rw [hp] at hpoll hnext
          rcases answer with _ | (_ | (status | first))
          · obtain ⟨hanswer, hreading, hthere⟩ := hpoll
            have hstep := step_reading_pending hstage hanswer
            rw [hreading] at hstep
            rw [hstep] at hdone hwhole
            exact ih (u := { u with
              call := (u.call.poll tick future).call, stage := .reading .reading })
              rfl trivial hthere hnext.1 hwhole hdone
          · obtain ⟨rfl, rfl, rfl⟩ := hnext
            rw [step_reading_ready hstage hpoll.1] at hdone
            rw [hhead.resultsOf_ended]
            -- no message, whatever the trailers say
            cases hfinal : head.finalStatus ((ResponseBody.trailers v'.1).getD empty) with
            | error status =>
                rw [hfinal, run_finished (by rfl)] at hdone
                exact hdone
            | ok ended =>
                rw [hfinal, run_finished (by rfl)] at hdone
                exact hdone
          · obtain ⟨rfl, rfl⟩ := hnext
            rw [step_reading_ready hstage hpoll.1, run_finished (by rfl)] at hdone
            rw [resultsOf_failed]
            exact hdone
          · obtain ⟨messages', rfl, hrest⟩ := hnext
            cases hstatus : head.headStatus with
            | some headStatus =>
                have hanswer := (hpoll.2 (by rw [hstatus]; rfl)).1
                rw [step_reading_ready hstage hanswer, run_finished (by rfl)] at hdone
                have hheaders : (getStr head.responseHeaders "grpc-status").isSome = true := by
                  rw [hhead.isSome_eq, hstatus]
                  rfl
                rw [resultsOf_refused hheaders]
                exact hdone
            | none =>
                obtain ⟨hanswer, hthere⟩ := hpoll.1 hstatus
                have hheaders : (getStr head.responseHeaders "grpc-status").isSome = false := by
                  rw [hhead.isSome_eq, hstatus]
                  rfl
                rw [step_reading_ready hstage hanswer] at hdone hwhole
                rw [resultsOf_cons hheaders]
                exact outcome_of_confirming (by rfl) (by trivial) hthere hhead hstatus hrest hwhole
                  hdone

theorem Accepts.liveAt_of_before {u : UnaryAwait ρ ω H Req Resp σ} (hbefore : u.BeforeHead)
    {tick : Tick ρ ω H} {r : Response ρ ω H} (haccepts : u.Accepts tick r head) :
    (u.step tick).call.LiveAt ((u.step tick).call.conn.readConfig head.responseEncoding) head none
      (r.reader, .new) := by
  obtain ⟨hnet, hhead, ⟨future, hclosing⟩, hreading⟩ := haccepts
  obtain ⟨_, r', head', hnet', hhead', hconn⟩ := (step_closing hclosing hbefore tick).2 _ hreading
  rw [hnet] at hnet'
  cases hnet'
  rw [hhead] at hhead'
  cases hhead'
  rw [BeforeHead, hclosing] at hbefore
  refine ⟨?_, rfl⟩
  rw [hconn]
  simp [GrpcClientConn.goLive, hbefore.1.2, Head.live]

theorem Accepts.liveAt {c : UnaryConn ρ ω H Req Resp σ} (hunopened : c.engine.Unopened)
    {world : World H} {before : List (Tick ρ ω H)} {tick : Tick ρ ω H} {r : Response ρ ω H}
    (haccepts : ((UnaryAwait.start c world).run before).Accepts tick r head) :
    (((UnaryAwait.start c world).run before).step tick).call.LiveAt
      ((((UnaryAwait.start c world).run before).step tick).call.conn.readConfig
        head.responseEncoding) head none (r.reader, .new) :=
  haccepts.liveAt_of_before
    (kept_of_step (fun _ tick h => h.step tick) (beforeHead_start hunopened world) before)

end UnaryAwait

/-! ## The outcome of any response -/

/-- The message and the verdict of a call, by the messages that its response's verdict
delivers and how it ends. -/
def unaryOutcome : List Resp → Except Status (Option Resp) → Outcome Resp
  | [], .error status => (none, .error status)
  | [], .ok _ => (none, .error noMessage)
  | [m], .error status => (some m, .error status)
  | [m], .ok _ => (some m, .ok ())
  | _ :: _ :: _, _ => (none, .error multipleMessages)

/-- What `into_message` makes of an outcome. -/
def Outcome.message : Outcome Resp → Except Status Resp
  | (_, .error status) => .error status
  | (none, .ok ()) => .error noMessage
  | (some message, .ok ()) => .ok message

omit [HeaderMap H] [Base64] [EndingSource ρ H] [AsyncWrite ω] [CodecCrates] [Features]
  [AsyncStream σ Req] in
theorem intoMessage_eq {u : UnaryConn ρ ω H Req Resp σ} {outcome : Outcome Resp}
    (h : u.outcome = some outcome) : u.intoMessage = Outcome.message outcome := by
  rw [UnaryConn.intoMessage, h]
  rcases outcome with ⟨_ | message, status | ok⟩ <;> rfl

omit [EndingSource ρ H] [AsyncWrite ω] [CodecCrates] [Features] [AsyncStream σ Req] in
theorem closing_ne_message (trailers : H) (m : Resp) :
    (closing trailers : Except Status (Option Resp)) ≠ .ok (some m) := by
  rw [closing]
  cases Status.fromTrailers trailers <;> simp [Except.map]

omit [EndingSource ρ H] [AsyncWrite ω] [CodecCrates] [Features] [AsyncStream σ Req] in
theorem verdict_ne_message (headers trailers : H) (messages : List Resp)
    (failure : Option Status) (m : Resp) :
    (verdict headers trailers messages failure).2 ≠ .ok (some m) := by
  unfold verdict
  split
  · cases messages with
    | cons _ _ => simp
    | nil =>
        cases failure with
        | some status => simp [trailersOnlyEnd]
        | none =>
            simp only [trailersOnlyEnd]
            split <;> exact closing_ne_message _ m
  · cases failure with
    | some status => simp
    | none => exact closing_ne_message trailers m

omit [EndingSource ρ H] [AsyncWrite ω] [CodecCrates] [Features] [AsyncStream σ Req] in
theorem readUnary_resultsOf (headers trailers : H) (messages : List Resp)
    (failure : Option Status) : readUnary (resultsOf headers trailers messages failure) =
      some (unaryOutcome (verdict headers trailers messages failure).1
        (verdict headers trailers messages failure).2) := by
  have hends := verdict_ne_message headers trailers messages failure
  rw [resultsOf]
  revert hends
  rcases verdict headers trailers messages failure with ⟨_ | ⟨m, _ | ⟨second, later⟩⟩, ending⟩
  · rcases ending with status | _ | last
    · exact fun _ => rfl
    · exact fun _ => rfl
    · exact fun hends => absurd rfl (hends last)
  · rcases ending with status | _ | last
    · exact fun _ => rfl
    · exact fun _ => rfl
    · exact fun hends => absurd rfl (hends last)
  · exact fun _ => rfl

/-- Once a head is accepted, an await that is polled often enough is through. If no poll
loses its race, its outcome is the response's: the one message that the verdict delivers,
also in front of a failure; the failure; or that there was no message, or more than one,
which no status then overrides. -/
theorem awaited_outcome_of_verdict {c : UnaryConn ρ ω H Req Resp σ}
    (hunopened : c.engine.Unopened) (world : World H) (before : List (Tick ρ ω H))
    {tick : Tick ρ ω H} {r : Response ρ ω H} {head : Head H}
    (haccepts : ((UnaryAwait.start c world).run before).Accepts tick r head) :
    let u := ((UnaryAwait.start c world).run before).step tick
    let cfg := u.call.conn.readConfig head.responseEncoding
    ∃ (messages : List Resp) (failure : Option Status), parse cfg (fault r.reader) (rest r.reader) =
      messages.map (fun m => some (.ok m)) ++ [failure.map .error] ∧
      let told := verdict r.headers ((EndingSource.behind r.reader).getD empty) messages failure
      (∃ N, ∀ ticks, N ≤ ticks.length → ∃ awaited, (u.run ticks).output = some (.ok awaited)) ∧
        ∀ ticks awaited, (u.run ticks).output = some (.ok awaited) → u.Uninterrupted ticks →
          awaited.outcome = some (unaryOutcome told.1 told.2) := by
  intro u cfg
  obtain ⟨messages, failure, hparse⟩ := parse_shape cfg (fault r.reader) (rest r.reader)
  have hlive : u.call.LiveAt cfg head none (r.reader, .new) := haccepts.liveAt hunopened
  have hv : Remaining cfg messages failure (EndingSource.behind r.reader) (r.reader, .new) :=
    ⟨by rw [← follow_ahead_new, hparse], by simp [ReadState.new], rfl⟩
  obtain ⟨hheaders, hhead⟩ := processHead_ok haccepts.head
  refine ⟨messages, failure, hparse, ?_, fun ticks awaited houtput hwhole => ?_⟩
  · obtain ⟨N, hN⟩ : ∃ N, ∀ u : UnaryAwait ρ ω H Req Resp σ,
        u.AtRecv cfg head none (false, (r.reader, .new)) → ∀ ticks, N ≤ ticks.length →
          (u.run ticks).outcome ≠ none := UnaryAwait.awaiting_ends hv
    refine ⟨N, fun ticks hlong => ?_⟩
    have hends := hN u ⟨hlive, .start .recv, trivial, haccepts.reading⟩ ticks hlong
    obtain ⟨outcome, houtcome⟩ := Option.ne_none_iff_exists'.mp hends
    exact ⟨_, UnaryAwait.output_eq_ok_iff.mpr ⟨outcome, houtcome, rfl⟩⟩
  · obtain ⟨outcome, houtcome, rfl⟩ := UnaryAwait.output_eq_ok_iff.mp houtput
    have hresults := UnaryAwait.outcome_of_reading haccepts.reading trivial hlive hhead hv hwhole
      houtcome
    rw [hheaders, readUnary_resultsOf] at hresults
    exact hresults.symm

omit [Base64] [CodecCrates] [Features] in
theorem piece_outcome :
    letI := storedCrates
    letI := standardNoPad
    letI := allFeatures
    ∃ N, ∀ ticks, N ≤ ticks.length → ∃ awaited, (pieceAwait.run ticks).output = some (.ok awaited) ∧
      (pieceAwait.Uninterrupted ticks → awaited.outcome = some (some [7], .ok ())) := by
  let _ := storedCrates
  let _ := standardNoPad
  let _ := allFeatures
  obtain ⟨head, hhead⟩ : ∃ head, processHead pieceResponse = .ok head := ⟨_, rfl⟩
  have haccepts : ((UnaryAwait.start plainStreaming (.fresh epoch)).run streamingTicks).Accepts
      (quietTick (.response pieceResponse)) pieceResponse head := by
    refine ⟨rfl, hhead, ⟨_, rfl⟩, ?_⟩
    cases hhead
    rfl
  obtain ⟨messages, failure, hparse, ⟨N, hends⟩, hresult⟩ :=
    awaited_outcome_of_verdict (c := plainStreaming) ⟨trivial, rfl⟩ (.fresh epoch) streamingTicks
      haccepts
  have hconfig : pieceAwait.call.conn.readConfig head.responseEncoding =
      ⟨.ok, .identity, defaultMaxMessageSize⟩ := by
    cases hhead
    rfl
  have hbody : SingleFrame (pieceAwait.call.conn.readConfig head.responseEncoding)
      (fault pieceResponse.reader) (rest pieceResponse.reader) [7] := by
    rw [hconfig]
    exact ⟨rfl, 0, [7], rfl, by decide, by decide, rfl⟩
  have hone : messages = [[7]] ∧ failure = none := by
    have hall := (parse_eq_single_iff.mpr hbody).symm.trans hparse
    rcases messages with _ | ⟨m, _ | ⟨second, later⟩⟩
    · simp at hall
    · cases failure with
      | none => simpa using hall.symm
      | some status => simp at hall
    · simp at hall
  obtain ⟨rfl, rfl⟩ := hone
  have htold : verdict pieceResponse.headers ((EndingSource.behind pieceResponse.reader).getD empty)
      [([7] : List UInt8)] none = ([[7]], .ok none) := by decide +kernel
  rw [htold] at hresult
  refine ⟨N, fun ticks hlong => ?_⟩
  obtain ⟨awaited, houtput⟩ := hends ticks hlong
  exact ⟨awaited, houtput, hresult ticks awaited houtput⟩

end TrilliumGrpc
