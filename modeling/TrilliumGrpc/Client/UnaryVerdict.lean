import TrilliumGrpc.Async.Steps
import TrilliumGrpc.Client.Unary
import TrilliumGrpc.Client.Verdict
import TrilliumGrpc.Frame.Single

/-! # The verdict of a unary call

What an awaited call makes of its response. The two `recv`s of `read_unary` stand for any
two that follow each other; whether they give one message and then the end depends on
the body, the head, the trailers and the races of their polls.
-/

namespace TrilliumGrpc

open Async ByteSource HeaderMap Time

variable {ρ ω H Req Resp σ : Type}

/-! ## One `recv` after another -/

namespace Call

section

variable [ResponseBody ρ H] [AsyncWrite ω] [CodecCrates] [HeaderMap H] [Base64] [Features]

/-- What one `recv` after another gives over these polls, from a suspended one on. -/
def successive (s : Call ρ ω H Req Resp) :
    OpFuture H Req → List (Tick ρ ω H) → List (Except Status (Option Resp))
  | _, [] => []
  | future, tick :: ticks =>
      match s.poll tick future with
      | ⟨.pending, call, future⟩ => call.successive future ticks
      | ⟨.ready answer, call, _⟩ => answer.result :: call.successive (.start .recv) ticks

variable {s : Call ρ ω H Req Resp} {future : OpFuture H Req} {tick : Tick ρ ω H}

theorem successive_of_pending (h : (s.poll tick future).answer = .pending)
    (ticks : List (Tick ρ ω H)) : s.successive future (tick :: ticks) =
      (s.poll tick future).call.successive (s.poll tick future).future ticks := by
  rw [successive]
  cases hp : s.poll tick future with
  | mk answer call later =>
      rw [hp] at h
      cases h
      rfl

theorem successive_of_ready {answer : Answer Resp}
    (h : (s.poll tick future).answer = .ready answer) (ticks : List (Tick ρ ω H)) :
    s.successive future (tick :: ticks) =
      answer.result :: (s.poll tick future).call.successive (.start .recv) ticks := by
  rw [successive]
  cases hp : s.poll tick future with
  | mk answer call later =>
      rw [hp] at h
      cases h
      rfl

end

end Call

/-- `read_unary`, by what its `recv`s give. -/
def readUnary : List (Except Status (Option Resp)) → Option (Outcome Resp)
  | .ok (some message) :: result :: _ => some (UnaryAwait.afterSecond message result)
  | .ok none :: _ => some (none, .error noMessage)
  | .error status :: _ => some (none, .error status)
  | _ => none

theorem afterSecond_eq_ok_iff {message m : Resp} {result : Except Status (Option Resp)} :
    UnaryAwait.afterSecond message result = (some m, .ok ()) ↔
      message = m ∧ result = .ok none := by
  rcases result with status | _ | second <;> simp [UnaryAwait.afterSecond]

theorem readUnary_eq_ok_iff {results : List (Except Status (Option Resp))} {m : Resp} :
    readUnary results = some (some m, .ok ()) ↔ results.take 2 = [.ok (some m), .ok none] := by
  match results with
  | [] => simp [readUnary]
  | .error status :: _ => simp [readUnary]
  | .ok none :: _ => simp [readUnary]
  | [.ok (some message)] => simp [readUnary]
  | .ok (some message) :: result :: later => simp [readUnary, afterSecond_eq_ok_iff]

theorem UnaryConn.intoMessage_eq_ok_iff {u : UnaryConn ρ ω H Req Resp σ} {m : Resp} :
    u.intoMessage = .ok m ↔ u.outcome = some (some m, .ok ()) := by
  unfold intoMessage
  cases houtcome : u.outcome with
  | none => simp
  | some outcome =>
      rcases outcome with ⟨_ | message, status | ok⟩ <;> simp

namespace UnaryAwait

def outcome (u : UnaryAwait ρ ω H Req Resp σ) : Option (Outcome Resp) :=
  match u.stage with
  | .finished (.ok outcome) => some outcome
  | _ => none

theorem output_eq_ok_iff {u : UnaryAwait ρ ω H Req Resp σ} {awaited : UnaryConn ρ ω H Req Resp σ} :
    u.output = some (.ok awaited) ↔
      ∃ outcome, u.outcome = some outcome ∧ awaited = ⟨u.call.conn, none, some outcome⟩ := by
  unfold output outcome
  cases u.stage with
  | finished result => cases result <;> simp [Except.map, eq_comm]
  | _ => simp

section

variable [ResponseBody ρ H] [AsyncWrite ω] [CodecCrates] [HeaderMap H] [Base64] [Features]
  [AsyncStream σ Req] {u : UnaryAwait ρ ω H Req Resp σ}

theorem run_finished {result : Except Status (Outcome Resp)} (h : u.stage = .finished result)
    (ticks : List (Tick ρ ω H)) : u.run ticks = u := by
  induction ticks with
  | nil => rfl
  | cons tick ticks ih =>
      have hstep : u.step tick = u := by rw [step, h]
      rw [run_cons, hstep, ih]

/-! ## A poll of either `recv` -/

theorem step_reading_pending {future : OpFuture H Req} {tick : Tick ρ ω H}
    (hstage : u.stage = .reading future) (h : (u.call.poll tick future).answer = .pending) :
    u.step tick = { u with
      call := (u.call.poll tick future).call
      stage := .reading (u.call.poll tick future).future } := by
  rw [step, hstage]
  dsimp only
  cases hp : u.call.poll tick future with
  | mk answer call later =>
      rw [hp] at h
      cases h
      rfl

theorem step_reading_ready {future : OpFuture H Req} {tick : Tick ρ ω H} {answer : Answer Resp}
    (hstage : u.stage = .reading future)
    (h : (u.call.poll tick future).answer = .ready answer) :
    u.step tick = { u with
      call := (u.call.poll tick future).call, stage := afterFirst answer.result } := by
  rw [step, hstage]
  dsimp only
  cases hp : u.call.poll tick future with
  | mk answer call later =>
      rw [hp] at h
      cases h
      rfl

theorem step_confirming_pending {message : Resp} {future : OpFuture H Req} {tick : Tick ρ ω H}
    (hstage : u.stage = .confirming message future)
    (h : (u.call.poll tick future).answer = .pending) :
    u.step tick = { u with
      call := (u.call.poll tick future).call
      stage := .confirming message (u.call.poll tick future).future } := by
  rw [step, hstage]
  dsimp only
  cases hp : u.call.poll tick future with
  | mk answer call later =>
      rw [hp] at h
      cases h
      rfl

theorem step_confirming_ready {message : Resp} {future : OpFuture H Req} {tick : Tick ρ ω H}
    {answer : Answer Resp} (hstage : u.stage = .confirming message future)
    (h : (u.call.poll tick future).answer = .ready answer) :
    u.step tick = { u with
      call := (u.call.poll tick future).call
      stage := .finished (.ok (afterSecond message answer.result)) } := by
  rw [step, hstage]
  dsimp only
  cases hp : u.call.poll tick future with
  | mk answer call later =>
      rw [hp] at h
      cases h
      rfl

/-! ## The outcome by the results -/

theorem outcome_confirming {message : Resp} {future : OpFuture H Req}
    (hstage : u.stage = .confirming message future) (ticks : List (Tick ρ ω H)) :
    (u.run ticks).outcome = readUnary (.ok (some message) :: u.call.successive future ticks) := by
  induction ticks generalizing u future with
  | nil => simp [outcome, hstage, Call.successive, readUnary]
  | cons tick ticks ih =>
      rw [run_cons]
      cases hanswer : (u.call.poll tick future).answer with
      | pending =>
          rw [step_confirming_pending hstage hanswer, Call.successive_of_pending hanswer]
          exact ih rfl
      | ready answer =>
          rw [step_confirming_ready hstage hanswer, Call.successive_of_ready hanswer,
            run_finished rfl]
          rfl

theorem outcome_reading {future : OpFuture H Req} (hstage : u.stage = .reading future)
    (ticks : List (Tick ρ ω H)) :
    (u.run ticks).outcome = readUnary (u.call.successive future ticks) := by
  induction ticks generalizing u future with
  | nil => simp [outcome, hstage, Call.successive, readUnary]
  | cons tick ticks ih =>
      rw [run_cons]
      cases hanswer : (u.call.poll tick future).answer with
      | pending =>
          rw [step_reading_pending hstage hanswer, Call.successive_of_pending hanswer]
          exact ih rfl
      | ready answer =>
          rw [step_reading_ready hstage hanswer, Call.successive_of_ready hanswer]
          rcases hresult : answer.result with status | _ | message
          · rw [run_finished rfl]
            rfl
          · rw [run_finished rfl]
            rfl
          · exact outcome_confirming rfl ticks

/-! ## Races -/

omit [ResponseBody ρ H] [AsyncWrite ω] [CodecCrates] [HeaderMap H] [Base64] [Features]
  [AsyncStream σ Req] in
/-- The deadline or a cancel takes this poll of a `recv`. -/
def Interrupted (u : UnaryAwait ρ ω H Req Resp σ) (tick : Tick ρ ω H) : Prop :=
  match u.stage with
  | .reading future => u.call.interrupted tick future ≠ none
  | .confirming _ future => u.call.interrupted tick future ≠ none
  | _ => False

def Uninterrupted (u : UnaryAwait ρ ω H Req Resp σ) : List (Tick ρ ω H) → Prop
  | [] => True
  | tick :: ticks => ¬ u.Interrupted tick ∧ (u.step tick).Uninterrupted ticks

theorem uninterrupted_finished {result : Except Status (Outcome Resp)}
    (h : u.stage = .finished result) (ticks : List (Tick ρ ω H)) : u.Uninterrupted ticks := by
  induction ticks with
  | nil => trivial
  | cons tick ticks ih =>
      have hstep : u.step tick = u := by rw [step, h]
      refine ⟨?_, hstep.symm ▸ ih⟩
      rw [Interrupted, h]
      exact id

end

end UnaryAwait

/-! ## The outcome by the response -/

section

variable [EndingSource ρ H] [AsyncWrite ω] [CodecCrates] [HeaderMap H] [Base64] [Features]
  [AsyncStream σ Req] {u : UnaryAwait ρ ω H Req Resp σ} {cfg : ReadConfig Resp} {head : Head H}
  {writer : Option ω} {v : ρ × ReadState} {messages : List Resp} {failure : Option Status}
  {trailers : Option H}

omit [EndingSource ρ H] [AsyncWrite ω] [CodecCrates] [Features] [AsyncStream σ Req] in
theorem fromTrailers_eq_ok_iff {trailers : H} :
    (Status.fromTrailers trailers).map (fun _ => (none : Option Resp)) = .ok none ↔
      Status.trailersCode trailers = .ok := by
  unfold Status.fromTrailers
  split <;> simp [Except.map, *]

namespace UnaryAwait

/-- Behind a message, all is well exactly if nothing but a good end is left and every
poll wins its race. -/
theorem confirmed_iff {m : Resp} {future : OpFuture H Req}
    (hstage : u.stage = .confirming m future) (hrecv : future.IsRecv)
    (hlive : u.call.LiveAt cfg head writer v) (hnone : head.headStatus = none)
    (hv : Remaining cfg messages failure trailers v) {ticks : List (Tick ρ ω H)}
    {outcome : Outcome Resp} (hdone : (u.run ticks).outcome = some outcome) (message : Resp) :
    outcome = (some message, .ok ()) ↔ m = message ∧ messages = [] ∧ failure = none ∧
      Status.trailersCode (trailers.getD empty) = .ok ∧ u.Uninterrupted ticks := by
  induction ticks generalizing u future v with
  | nil => simp [UnaryAwait.outcome, hstage] at hdone
  | cons tick ticks ih =>
      rw [run_cons] at hdone
      rw [Uninterrupted, Interrupted, hstage]
      dsimp only
      cases hrace : u.call.interrupted tick future with
      | some status =>
          have hanswer := hlive.poll_interrupted hrecv hrace
          rw [step_confirming_ready hstage hanswer, run_finished rfl] at hdone
          cases hdone
          simp [afterSecond_eq_ok_iff, Answer.result]
      | none =>
          have hpoll := (hlive.poll hrecv hrace).1
          have hnext := hv.step
          cases hp : readPoll cfg v with
          | mk answer v' =>
              rw [hp] at hpoll hnext
              rcases answer with _ | (_ | (status | second))
              · obtain ⟨hanswer, hreading, hthere⟩ := hpoll
                have hstep := step_confirming_pending hstage hanswer
                rw [hreading] at hstep
                rw [hstep] at hdone ⊢
                rw [ih (u := { u with
                  call := (u.call.poll tick future).call, stage := .confirming m .reading })
                  rfl trivial hthere hnext.1 hdone]
                simp
              · obtain ⟨rfl, rfl, rfl⟩ := hnext
                rw [step_confirming_ready hstage hpoll.1] at hdone ⊢
                rw [run_finished rfl] at hdone
                cases hdone
                rw [afterSecond_eq_ok_iff, Head.finalStatus_of_none hnone, Answer.result,
                  fromTrailers_eq_ok_iff]
                simp [uninterrupted_finished]
              · obtain ⟨rfl, rfl⟩ := hnext
                rw [step_confirming_ready hstage hpoll.1] at hdone
                rw [run_finished rfl] at hdone
                cases hdone
                simp [afterSecond_eq_ok_iff, Answer.result]
              · obtain ⟨messages', rfl, _⟩ := hnext
                rw [step_confirming_ready hstage (hpoll.1 hnone).1] at hdone
                rw [run_finished rfl] at hdone
                cases hdone
                simp [afterSecond_eq_ok_iff, Answer.result]

theorem single_iff {future : OpFuture H Req} (hstage : u.stage = .reading future)
    (hrecv : future.IsRecv) (hlive : u.call.LiveAt cfg head writer v)
    (hv : Remaining cfg messages failure trailers v) {ticks : List (Tick ρ ω H)}
    {outcome : Outcome Resp} (hdone : (u.run ticks).outcome = some outcome) (message : Resp) :
    outcome = (some message, .ok ()) ↔ head.headStatus = none ∧ messages = [message] ∧
      failure = none ∧ Status.trailersCode (trailers.getD empty) = .ok ∧
      u.Uninterrupted ticks := by
  induction ticks generalizing u future v with
  | nil => simp [UnaryAwait.outcome, hstage] at hdone
  | cons tick ticks ih =>
      rw [run_cons] at hdone
      rw [Uninterrupted, Interrupted, hstage]
      dsimp only
      cases hrace : u.call.interrupted tick future with
      | some status =>
          have hanswer := hlive.poll_interrupted hrecv hrace
          rw [step_reading_ready hstage hanswer, run_finished rfl] at hdone
          cases hdone
          simp
      | none =>
          have hpoll := (hlive.poll hrecv hrace).1
          have hnext := hv.step
          cases hp : readPoll cfg v with
          | mk answer v' =>
              rw [hp] at hpoll hnext
              rcases answer with _ | (_ | (status | first))
              · obtain ⟨hanswer, hreading, hthere⟩ := hpoll
                have hstep := step_reading_pending hstage hanswer
                rw [hreading] at hstep
                rw [hstep] at hdone ⊢
                rw [ih (u := { u with
                  call := (u.call.poll tick future).call, stage := .reading .reading })
                  rfl trivial hthere hnext.1 hdone]
                simp
              · obtain ⟨rfl, rfl, rfl⟩ := hnext
                rw [step_reading_ready hstage hpoll.1] at hdone
                -- no message, whatever the trailers say
                cases hfinal : head.finalStatus ((ResponseBody.trailers v'.1).getD empty) with
                | error status =>
                    rw [hfinal, run_finished (by rfl)] at hdone
                    cases hdone
                    simp
                | ok ended =>
                    rw [hfinal, run_finished (by rfl)] at hdone
                    cases hdone
                    simp
              · obtain ⟨rfl, rfl⟩ := hnext
                rw [step_reading_ready hstage hpoll.1, run_finished (by rfl)] at hdone
                cases hdone
                simp
              · obtain ⟨messages', rfl, hrest⟩ := hnext
                cases hhead : head.headStatus with
                | some headStatus =>
                    have hanswer := (hpoll.2 (by rw [hhead]; rfl)).1
                    rw [step_reading_ready hstage hanswer, run_finished (by rfl)] at hdone
                    cases hdone
                    simp
                | none =>
                    obtain ⟨hanswer, hthere⟩ := hpoll.1 hhead
                    rw [step_reading_ready hstage hanswer] at hdone ⊢
                    rw [confirmed_iff (by rfl) (by trivial) hthere hhead hrest hdone]
                    simp [and_assoc]

/-! ## The await ends -/

omit [AsyncStream σ Req] in
theorem recv_waits {s : Call ρ ω H Req Resp} {future : OpFuture H Req} (hrecv : future.IsRecv)
    (hlive : s.LiveAt cfg head writer v) {v' : ρ × ReadState}
    (hp : readPoll cfg v = (.pending, v')) (tick : Tick ρ ω H) :
    (∃ status, (s.poll tick future).answer = .ready (.item (.error status))) ∨
      (s.poll tick future).answer = .pending ∧ (s.poll tick future).future = .reading ∧
        (s.poll tick future).call.LiveAt cfg head writer v' := by
  cases hrace : s.interrupted tick future with
  | some status => exact .inl ⟨status, hlive.poll_interrupted hrecv hrace⟩
  | none =>
      have hpoll := (hlive.poll hrecv hrace).1
      rw [hp] at hpoll
      exact .inr hpoll

omit [AsyncStream σ Req] in
/-- Once it is ready, so is the `recv`. -/
theorem recv_ready {s : Call ρ ω H Req Resp} {future : OpFuture H Req} (hrecv : future.IsRecv)
    (hlive : s.LiveAt cfg head writer v) {v' : ρ × ReadState}
    {item : Option (Except Status Resp)} (hp : readPoll cfg v = (.ready item, v'))
    (tick : Tick ρ ω H) :
    ∃ result, (s.poll tick future).answer = .ready (.item result) ∧
      ∀ m, result = .ok (some m) →
        item = some (.ok m) ∧ (s.poll tick future).call.LiveAt cfg head writer v' := by
  cases hrace : s.interrupted tick future with
  | some status => exact ⟨_, hlive.poll_interrupted hrecv hrace, nofun⟩
  | none =>
      have hpoll := (hlive.poll hrecv hrace).1
      rw [hp] at hpoll
      rcases item with _ | (status | message)
      · refine ⟨_, hpoll.1, fun m hm => ?_⟩
        cases hfinal : head.finalStatus ((ResponseBody.trailers v'.1).getD empty) with
        | error status => rw [hfinal] at hm; cases hm
        | ok ended => rw [hfinal] at hm; cases hm
      · exact ⟨_, hpoll.1, nofun⟩
      · cases hhead : head.headStatus with
        | none =>
            obtain ⟨hanswer, hthere⟩ := hpoll.1 hhead
            refine ⟨_, hanswer, fun m hm => ?_⟩
            cases hm
            exact ⟨rfl, hthere⟩
        | some status => exact ⟨_, (hpoll.2 (by rw [hhead]; rfl)).1, nofun⟩

/-- The await stands at one of its two `recv`s, with its source at the given place. -/
def AtRecv (cfg : ReadConfig Resp) (head : Head H) (writer : Option ω)
    (place : Bool × (ρ × ReadState)) (u : UnaryAwait ρ ω H Req Resp σ) : Prop :=
  u.call.LiveAt cfg head writer place.2 ∧ ∃ future : OpFuture H Req, future.IsRecv ∧
    match place.1 with
    | false => u.stage = .reading future
    | true => ∃ m, u.stage = .confirming m future

omit [AsyncWrite ω] [HeaderMap H] [Base64] [Features] [AsyncStream σ Req] in
def SomeRemain (cfg : ReadConfig Resp) (failure : Option Status) (trailers : Option H)
    (place : Bool × (ρ × ReadState)) : Prop :=
  ∃ messages, Remaining cfg messages failure trailers place.2

theorem outcome_step (u : UnaryAwait ρ ω H Req Resp σ) (tick : Tick ρ ω H)
    (h : u.outcome ≠ none) : (u.step tick).outcome ≠ none := by
  have hsame : u.step tick = u := by
    rw [step]
    cases hstage : u.stage with
    | finished result => rfl
    | _ => simp [outcome, hstage] at h
  rwa [hsame]

/-- However their races go, two `recv`s that are polled often enough are through. -/
theorem awaiting_ends (hv : Remaining cfg messages failure trailers v) :
    ∃ N, ∀ u : UnaryAwait ρ ω H Req Resp σ, u.AtRecv cfg head writer (false, v) →
      ∀ ticks, N ≤ ticks.length → (u.run ticks).outcome ≠ none := by
  -- the second `recv` comes behind the first, and the source advances within each
  have hwf : WellFounded (Prod.Lex (· > ·) fun v' v : ρ × ReadState => Advanced v'.1 v.1) :=
    WellFounded.prod_lex (wellFounded_gt (α := Bool)) (InvImage.wf Prod.fst advanced_wf)
  have hremains : SomeRemain cfg failure trailers (false, v) := ⟨messages, hv⟩
  refine ends_of_progress hwf outcome_step ?_ hremains
  rintro ⟨second, v⟩ ⟨messages, hv⟩
  have hnext := hv.step
  cases hp : readPoll cfg v with
  | mk answer v' =>
      rw [hp] at hnext
      cases answer with
      | pending =>
          refine .inr ⟨(second, v'), .right _ hnext.2, ⟨messages, hnext.1⟩, ?_⟩
          rintro u tick ⟨hlive, future, hrecv, hstage⟩
          rcases recv_waits hrecv hlive hp tick with
            ⟨status, hanswer⟩ | ⟨hanswer, hreading, hthere⟩
          · cases second with
            | false =>
                rw [step_reading_ready hstage hanswer]
                exact .inl (Option.some_ne_none _)
            | true =>
                obtain ⟨m, hstage⟩ := hstage
                rw [step_confirming_ready hstage hanswer]
                exact .inl (Option.some_ne_none _)
          · cases second with
            | false =>
                rw [step_reading_pending hstage hanswer, hreading]
                exact .inr ⟨hthere, .reading, trivial, rfl⟩
            | true =>
                obtain ⟨m, hstage⟩ := hstage
                rw [step_confirming_pending hstage hanswer, hreading]
                exact .inr ⟨hthere, .reading, trivial, m, rfl⟩
      | ready item =>
          cases second with
          | true =>
              refine .inl ?_
              rintro u tick ⟨hlive, future, hrecv, m, hstage⟩
              obtain ⟨result, hanswer, _⟩ := recv_ready hrecv hlive hp tick
              rw [step_confirming_ready hstage hanswer]
              exact Option.some_ne_none _
          | false =>
              -- only a message leads on to the second
              have hfirst : ∀ (u : UnaryAwait ρ ω H Req Resp σ) tick,
                  u.AtRecv cfg head writer (false, v) → (u.step tick).outcome ≠ none ∨
                    ∃ m, item = some (.ok m) ∧
                      (u.step tick).AtRecv cfg head writer (true, v') := by
                rintro u tick ⟨hlive, future, hrecv, hstage⟩
                obtain ⟨result, hanswer, hmessage⟩ := recv_ready hrecv hlive hp tick
                rw [step_reading_ready hstage hanswer]
                rcases result with status | _ | m
                · exact .inl (Option.some_ne_none _)
                · exact .inl (Option.some_ne_none _)
                · obtain ⟨hitem, hthere⟩ := hmessage m rfl
                  exact .inr ⟨m, hitem, hthere, .start .recv, trivial, m, rfl⟩
              rcases item with _ | (status | message)
              · exact .inl fun u tick hu => (hfirst u tick hu).resolve_right (by simp)
              · exact .inl fun u tick hu => (hfirst u tick hu).resolve_right (by simp)
              · obtain ⟨messages', _, hrest⟩ := hnext
                refine .inr ⟨(true, v'), .left _ _ rfl, ⟨messages', hrest⟩, fun u tick hu => ?_⟩
                exact (hfirst u tick hu).imp_right fun ⟨_, _, hthere⟩ => hthere

end UnaryAwait

end

/-! ## Up to the head -/

def GrpcClientConn.Unopened (c : GrpcClientConn ρ ω H Req Resp) : Prop :=
  c.inner.IsPending ∧ c.fullDuplex = false

/-- The engine of a new call, with its request in the body or with a stream to drain. -/
theorem UnaryConn.unopened [CodecCrates] [HeaderMap H] [Features] {codec : Codec Req Resp}
    {defaultHeaders : H} {path : String} {request : Req} {requests : σ} {now : Instant}
    {c : UnaryConn ρ ω H Req Resp σ}
    (h : unary codec defaultHeaders path request now = .ok c ∨
      clientStreaming codec defaultHeaders path requests now = .ok c) : c.engine.Unopened := by
  have hnew : ∀ {engine : GrpcClientConn ρ ω H Req Resp},
      GrpcClientConn.new codec defaultHeaders path .new (defaultTimeout defaultHeaders) false now =
        .ok engine → engine.Unopened := by
    intro engine hengine
    obtain ⟨deadline, _, rfl⟩ := exists_of_map_ok hengine
    exact ⟨trivial, rfl⟩
  rcases h with hunary | hstreaming
  · obtain ⟨engine, hengine, rfl⟩ := exists_of_map_ok hunary
    obtain ⟨hpending, hmode⟩ := hnew hengine
    rw [GrpcClientConn.bufferRequest]
    cases engine.encodeMessage request with
    | error status => exact ⟨hpending, hmode⟩
    | ok frame =>
        dsimp only
        cases hinner : engine.inner with
        | pending p => exact ⟨trivial, hmode⟩
        | _ => rw [hinner] at hpending; exact hpending.elim
  · obtain ⟨engine, hengine, rfl⟩ := exists_of_map_ok hstreaming
    exact hnew hengine

section

variable [ResponseBody ρ H] [AsyncWrite ω] [CodecCrates] [HeaderMap H] [Base64] [Features]

/-- How a poll of the half-close leaves an engine that had not opened. -/
def Call.ClosingStep (c : GrpcClientConn ρ ω H Req Resp) (tick : Tick ρ ω H)
    (step : OpStep ρ ω H Req Resp) : Prop :=
  match step.answer with
  | .pending => step.call.conn.Unopened ∧ ∃ o, step.future = .opening .closeSend o
  | .ready (.unit (.ok _)) => ∃ r head, tick.net = .response r ∧ processHead r = .ok head ∧
      step.call.conn = c.goLive r head
  | .ready (.unit (.error _)) => True
  | .ready (.item _) => False

theorem Call.pollOpening_closing {c : GrpcClientConn ρ ω H Req Resp} (hc : c.Unopened)
    (w : World H) (o : Opening H) (started : Bool) (tick : Tick ρ ω H) :
    ClosingStep c tick ((⟨c, w⟩ : Call ρ ω H Req Resp).pollOpening .closeSend o started tick) := by
  rw [pollOpening]
  dsimp only
  cases interrupt c.deadline started (w.observe tick.opening) tick.opening.timer with
  | some status => trivial
  | none =>
      cases hnet : tick.net with
      | connecting => exact ⟨hc, o, rfl⟩
      | sent => exact ⟨hc, _, rfl⟩
      | refused e => trivial
      | broken e => trivial
      | response r =>
          dsimp only
          cases hhead : processHead r with
          | error status => trivial
          | ok head =>
              have hinner : (c.goLive r head).inner = .reading ⟨r.reader, head.responseHeaders,
                  .new, head.responseEncoding, head.headStatus⟩ := by
                simp [GrpcClientConn.goLive, hc.2]
              simp only [afterOpen, hinner]
              exact ⟨r, head, hnet, hhead, rfl⟩

theorem Call.poll_closing {s : Call ρ ω H Req Resp} (hc : s.conn.Unopened)
    {future : OpFuture H Req}
    (hfuture : future = .start .closeSend ∨ ∃ o, future = .opening .closeSend o)
    (tick : Tick ρ ω H) : ClosingStep s.conn tick (s.poll tick future) := by
  rcases hfuture with rfl | ⟨o, rfl⟩
  · obtain ⟨⟨inner, decode, encode, outbound, max, mode, deadline, error⟩, world⟩ := s
    cases inner with
    | pending p =>
        cases error with
        | some status => trivial
        | none =>
            let opened : GrpcClientConn ρ ω H Req Resp :=
              ⟨.pending { p with sendClosed := true, body := [] }, decode, encode, outbound, max,
                mode, deadline, none⟩
            exact pollOpening_closing (c := opened) ⟨trivial, hc.2⟩ _ _ false tick
    | _ => exact hc.1.elim
  · exact pollOpening_closing hc s.world o true tick

end

namespace UnaryAwait

section

variable [ResponseBody ρ H] [AsyncWrite ω] [CodecCrates] [HeaderMap H] [Base64] [Features]
  [AsyncStream σ Req] {u : UnaryAwait ρ ω H Req Resp σ}

omit [ResponseBody ρ H] [AsyncWrite ω] [CodecCrates] [HeaderMap H] [Base64] [Features]
  [AsyncStream σ Req] in
def BeforeHead (u : UnaryAwait ρ ω H Req Resp σ) : Prop :=
  match u.stage with
  | .pulling _ => u.call.conn.Unopened
  | .sending _ future => u.call.conn.Unopened ∧ ∃ message, future = .start (.send message)
  | .closing future => u.call.conn.Unopened ∧
      (future = .start .closeSend ∨ ∃ o, future = .opening .closeSend o)
  | _ => True

theorem step_closing {future : OpFuture H Req} (hstage : u.stage = .closing future)
    (hu : u.BeforeHead) (tick : Tick ρ ω H) :
    (u.step tick).BeforeHead ∧ ∀ later, (u.step tick).stage = .reading later →
      later = .start .recv ∧ ∃ r head, tick.net = .response r ∧ processHead r = .ok head ∧
        (u.step tick).call.conn = u.call.conn.goLive r head := by
  rw [BeforeHead, hstage] at hu
  obtain ⟨hunopened, hfuture⟩ := hu
  have hpoll := Call.poll_closing hunopened hfuture tick
  rw [step, hstage]
  dsimp only
  rcases hp : u.call.poll tick future with ⟨_ | ((status | ok) | result), call, later⟩
  · rw [hp] at hpoll
    exact ⟨⟨hpoll.1, .inr hpoll.2⟩, nofun⟩
  · exact ⟨trivial, nofun⟩
  · rw [hp] at hpoll
    refine ⟨trivial, fun later hlater => ?_⟩
    cases hlater
    exact ⟨rfl, hpoll⟩
  · rw [hp] at hpoll
    exact hpoll.elim

theorem BeforeHead.step (h : u.BeforeHead) (tick : Tick ρ ω H) : (u.step tick).BeforeHead := by
  cases hstage : u.stage with
  | pulling requests =>
      rw [BeforeHead, hstage] at h
      rw [UnaryAwait.step, hstage]
      dsimp only
      rcases AsyncStream.pollNext requests with ⟨_ | _ | message, left⟩
      · exact h
      · exact ⟨h, .inl rfl⟩
      · exact ⟨h, message, rfl⟩
  | sending requests future =>
      rw [BeforeHead, hstage] at h
      obtain ⟨⟨hpending, hmode⟩, message, rfl⟩ := h
      rw [UnaryAwait.step, hstage]
      dsimp only
      cases hinner : u.call.conn.inner with
      | pending p =>
          rw [Call.poll, Call.startSend, hinner]
          cases u.call.conn.encodeMessage message with
          | error status => trivial
          | ok frame =>
              dsimp only
              cases p.sendClosed with
              | true => trivial
              | false => exact ⟨trivial, hmode⟩
      | _ => rw [hinner] at hpending; exact hpending.elim
  | closing future => exact (step_closing hstage h tick).1
  | reading future =>
      rw [UnaryAwait.step, hstage]
      dsimp only
      split
      · trivial
      · rename_i answer call later hp
        rcases answer.result with status | _ | message <;> trivial
  | confirming m future =>
      rw [UnaryAwait.step, hstage]
      dsimp only
      split <;> trivial
  | finished result =>
      rw [UnaryAwait.step, hstage]
      exact h

omit [ResponseBody ρ H] [AsyncWrite ω] [CodecCrates] [HeaderMap H] [Base64] [Features]
  [AsyncStream σ Req] in
theorem beforeHead_start {c : UnaryConn ρ ω H Req Resp σ} (hc : c.engine.Unopened)
    (world : World H) : (start c world).BeforeHead := by
  rw [start, BeforeHead]
  cases c.requests with
  | none => exact ⟨hc, .inl rfl⟩
  | some requests => exact hc

end

end UnaryAwait

/-! ## One message and a good end -/

section

variable [EndingSource ρ H] [AsyncWrite ω] [CodecCrates] [HeaderMap H] [Base64] [Features]
  [AsyncStream σ Req]

/-- The body is one frame that comes to `message`, the head has no status, and the trailers
say zero. -/
structure SingleResponse (cfg : ReadConfig Resp) (r : Response ρ ω H) (message : Resp) : Prop where
  body : SingleFrame cfg (fault r.reader) (rest r.reader) message
  head : getStr r.headers "grpc-status" = none
  trailers : ∃ text, getStr ((EndingSource.behind r.reader).getD empty) "grpc-status" = some text ∧
    Digits.parseUnsigned 256 text = some 0

/-- The head of `r` comes in at this poll, and is accepted. -/
structure UnaryAwait.Accepts (u : UnaryAwait ρ ω H Req Resp σ) (tick : Tick ρ ω H)
    (r : Response ρ ω H) (head : Head H) : Prop where
  net : tick.net = .response r
  head : processHead r = .ok head
  closing : ∃ future, u.stage = .closing future
  reading : (u.step tick).stage = .reading (.start .recv)

omit [EndingSource ρ H] [AsyncWrite ω] [CodecCrates] [Features] [AsyncStream σ Req] in
theorem Head.Accepted.headStatus_eq_none_iff {head : Head H} (h : head.Accepted) :
    head.headStatus = none ↔ getStr head.responseHeaders "grpc-status" = none := by
  rw [Accepted] at h
  rw [h]
  cases getStr head.responseHeaders "grpc-status" <;> simp

omit [AsyncWrite ω] [AsyncStream σ Req] in
theorem singleResponse_iff {cfg : ReadConfig Resp} {r : Response ρ ω H} {head : Head H}
    (hhead : processHead r = .ok head) {messages : List Resp} {failure : Option Status}
    (hparse : parse cfg (fault r.reader) (rest r.reader) =
      messages.map (fun m => some (.ok m)) ++ [failure.map .error]) (message : Resp) :
    SingleResponse cfg r message ↔ head.headStatus = none ∧ messages = [message] ∧
      failure = none ∧ Status.trailersCode ((EndingSource.behind r.reader).getD empty) = .ok := by
  obtain ⟨hheaders, haccepted⟩ := processHead_ok hhead
  rw [haccepted.headStatus_eq_none_iff, hheaders]
  have hbody : SingleFrame cfg (fault r.reader) (rest r.reader) message ↔
      messages = [message] ∧ failure = none := by
    rw [← parse_eq_single_iff, hparse]
    match messages, failure with
    | [], none => simp
    | [], some status => simp
    | [m], none => simp
    | [m], some status => simp
    | m :: second :: messages, _ => simp
  constructor
  · rintro ⟨hone, hnone, hzero⟩
    exact ⟨hnone, (hbody.mp hone).1, (hbody.mp hone).2, Status.trailersCode_eq_ok_iff.mpr hzero⟩
  · rintro ⟨hnone, hmessages, hfailure, hcode⟩
    exact ⟨hbody.mpr ⟨hmessages, hfailure⟩, hnone, Status.trailersCode_eq_ok_iff.mp hcode⟩

/-- Once the head is in, an await that is polled often enough is through; and its
`into_message` gives a message exactly if one `recv` and then another give it and the
end, which is if the response is that message and a good end and no poll up to its
verdict lost its race. -/
theorem intoMessage_ok_iff {c : UnaryConn ρ ω H Req Resp σ} (hunopened : c.engine.Unopened)
    (world : World H) (before : List (Tick ρ ω H)) {tick : Tick ρ ω H} {r : Response ρ ω H}
    {head : Head H} (haccepts : ((UnaryAwait.start c world).run before).Accepts tick r head) :
    let u := ((UnaryAwait.start c world).run before).step tick
    let cfg := u.call.conn.readConfig head.responseEncoding
    (∃ N, ∀ ticks, N ≤ ticks.length → ∃ awaited, (u.run ticks).output = some (.ok awaited)) ∧
      ∀ ticks awaited, (u.run ticks).output = some (.ok awaited) →
        (∀ message, awaited.intoMessage = .ok message ↔
          (u.call.successive (.start .recv) ticks).take 2 = [.ok (some message), .ok none]) ∧
        (∀ message, awaited.intoMessage = .ok message ↔
          SingleResponse cfg r message ∧ u.Uninterrupted ticks) ∧
        ((∀ message, ¬ (SingleResponse cfg r message ∧ u.Uninterrupted ticks)) →
          ∃ status, awaited.intoMessage = .error status) := by
  intro u cfg
  have hbefore : ((UnaryAwait.start c world).run before).BeforeHead :=
    kept_of_step (fun _ tick h => h.step tick) (UnaryAwait.beforeHead_start hunopened world) before
  obtain ⟨hnet, hhead, ⟨future, hclosing⟩, hreading⟩ := haccepts
  obtain ⟨_, r', head', hnet', hhead', hconn⟩ :=
    (UnaryAwait.step_closing hclosing hbefore tick).2 _ hreading
  rw [hnet] at hnet'
  cases hnet'
  rw [hhead] at hhead'
  cases hhead'
  rw [UnaryAwait.BeforeHead, hclosing] at hbefore
  have hlive : u.call.LiveAt cfg head none (r.reader, .new) := by
    refine ⟨?_, rfl⟩
    rw [hconn]
    simp [GrpcClientConn.goLive, hbefore.1.2, Head.live]
  obtain ⟨messages, failure, hparse⟩ := parse_shape cfg (fault r.reader) (rest r.reader)
  have hv : Remaining cfg messages failure (EndingSource.behind r.reader) (r.reader, .new) :=
    ⟨by rw [← follow_ahead_new, hparse], by simp [ReadState.new], rfl⟩
  refine ⟨?_, fun ticks awaited houtput => ?_⟩
  · obtain ⟨N, hN⟩ : ∃ N, ∀ u : UnaryAwait ρ ω H Req Resp σ,
        u.AtRecv cfg head none (false, (r.reader, .new)) → ∀ ticks, N ≤ ticks.length →
          (u.run ticks).outcome ≠ none := UnaryAwait.awaiting_ends hv
    refine ⟨N, fun ticks hlong => ?_⟩
    have hends := hN u ⟨hlive, .start .recv, trivial, hreading⟩ ticks hlong
    obtain ⟨outcome, houtcome⟩ := Option.ne_none_iff_exists'.mp hends
    exact ⟨_, UnaryAwait.output_eq_ok_iff.mpr ⟨outcome, houtcome, rfl⟩⟩
  · obtain ⟨outcome, houtcome, rfl⟩ := UnaryAwait.output_eq_ok_iff.mp houtput
    have hmessage : ∀ message, UnaryConn.intoMessage
        (⟨(u.run ticks).call.conn, none, some outcome⟩ : UnaryConn ρ ω H Req Resp σ) =
          .ok message ↔ SingleResponse cfg r message ∧ u.Uninterrupted ticks := by
      intro message
      rw [UnaryConn.intoMessage_eq_ok_iff, Option.some_inj, singleResponse_iff hhead hparse,
        UnaryAwait.single_iff (u := u) hreading trivial hlive hv houtcome]
      simp only [and_assoc]
    refine ⟨fun message => ?_, hmessage, fun hnever => ?_⟩
    · rw [UnaryConn.intoMessage_eq_ok_iff, ← houtcome, UnaryAwait.outcome_reading hreading,
        readUnary_eq_ok_iff]
    · cases hresult : UnaryConn.intoMessage
          (⟨(u.run ticks).call.conn, none, some outcome⟩ : UnaryConn ρ ω H Req Resp σ) with
      | ok message => exact absurd ((hmessage message).mp hresult) (hnever message)
      | error status => exact ⟨status, rfl⟩

end

def pieceResponse : Response ScriptedBody SinkScript HeaderList :=
  { emptyResponse with
    reader := ⟨⟨[0, 0, 0, 0, 1, 7], [.pending, .chunk 3], none⟩,
      insert empty "grpc-status" (.ofString "0")⟩ }

/-- A client-streaming call of one message, without a deadline. -/
def plainStreaming : UnaryConn ScriptedBody SinkScript HeaderList (List UInt8) (List UInt8)
    (ItemScript (List UInt8)) :=
  ⟨plainConn false, some ⟨[(false, [7])]⟩, none⟩

def streamingTicks : List (Tick ScriptedBody SinkScript HeaderList) :=
  [quietTick .connecting, quietTick .connecting, quietTick .connecting, quietTick .sent]

def pieceAwait [CodecCrates] [Base64] [Features] :
    UnaryAwait ScriptedBody SinkScript HeaderList (List UInt8) (List UInt8)
      (ItemScript (List UInt8)) :=
  ((UnaryAwait.start plainStreaming (.fresh epoch)).run streamingTicks).step
    (quietTick (.response pieceResponse))

theorem piece_response_given :
    letI := storedCrates
    letI := standardNoPad
    letI := allFeatures
    ∃ N, ∀ ticks, N ≤ ticks.length → ∃ awaited, (pieceAwait.run ticks).output = some (.ok awaited) ∧
      (pieceAwait.Uninterrupted ticks → awaited.intoMessage = .ok [7]) := by
  let _ := storedCrates
  let _ := standardNoPad
  let _ := allFeatures
  obtain ⟨head, hhead⟩ : ∃ head, processHead pieceResponse = .ok head := ⟨_, rfl⟩
  have haccepts : ((UnaryAwait.start plainStreaming (.fresh epoch)).run streamingTicks).Accepts
      (quietTick (.response pieceResponse)) pieceResponse head := by
    refine ⟨rfl, hhead, ⟨_, rfl⟩, ?_⟩
    cases hhead
    rfl
  obtain ⟨⟨N, hends⟩, hresult⟩ := intoMessage_ok_iff (c := plainStreaming) ⟨trivial, rfl⟩
    (.fresh epoch) streamingTicks haccepts
  refine ⟨N, fun ticks hlong => ?_⟩
  obtain ⟨awaited, houtput⟩ := hends ticks hlong
  have hconfig : pieceAwait.call.conn.readConfig head.responseEncoding =
      ⟨.ok, .identity, defaultMaxMessageSize⟩ := by
    cases hhead
    rfl
  have hbody : SingleFrame (pieceAwait.call.conn.readConfig head.responseEncoding)
      (fault pieceResponse.reader) (rest pieceResponse.reader) [7] := by
    rw [hconfig]
    exact ⟨rfl, 0, [7], rfl, by decide, by decide, rfl⟩
  have hzero : getStr ((EndingSource.behind pieceResponse.reader).getD empty) "grpc-status" =
      some "0" := by decide
  have hsingle := (hresult ticks awaited houtput).2.1 [7]
  exact ⟨awaited, houtput, fun hraces => hsingle.mpr ⟨⟨hbody, by decide, "0", hzero, by decide⟩, hraces⟩⟩

end TrilliumGrpc
