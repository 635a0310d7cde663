import TrilliumGrpc.Frame.Single
import TrilliumGrpc.Server.Announced
import TrilliumGrpc.Server.Failures

/-! # Exactly one request

`read_one` in front of the user function of a unary or server-streaming call. A good first
message is held back until the body is known to end behind it, so a body that is rejected
has called nobody.
-/

namespace TrilliumGrpc

open Async ByteSource HeaderMap Time

variable {φ σ H ρ Req Resp T F B : Type}

/-! ## Polls that nothing cancels -/

namespace Cancellation

def Spares (c : Cancellation) (started : Bool) (sig : Signals) : Prop :=
  c.polls started sig = .ok () ∧ sig.stopAfter = false ∧ (c.deadline.isSome → sig.timer = false)

def Uncancelled (c : Cancellation) : Bool → List Signals → Prop
  | _, [] => True
  | started, sig :: sigs => c.Spares started sig ∧ c.Uncancelled true sigs

variable {c : Cancellation} {started : Bool} {sig : Signals}

theorem race_spared (h : c.Spares started sig) (poll : F → Poll (Except Status T) × F)
    (future : F) : c.race started sig poll future = poll future := by
  obtain ⟨hpolls, hstop, htimer⟩ := h
  rw [race, hpolls]
  dsimp only
  rcases poll future with ⟨_ | result, future'⟩
  · have hdeadline : ¬ (c.deadline.isSome ∧ sig.timer) := by
      rintro ⟨hsome, hfired⟩
      rw [htimer hsome] at hfired
      cases hfired
    simp only [hstop, Bool.false_eq_true, if_false, hdeadline]
  · rfl

theorem run_of_pending (h : c.Spares started sig) {poll : F → Poll (Except Status T) × F}
    {future future' : F} (hp : poll future = (.pending, future')) (sigs : List Signals) :
    c.run poll started (sig :: sigs) future = c.run poll true sigs future' := by
  rw [run, race_spared h, hp]

theorem run_of_ready (h : c.Spares started sig) {poll : F → Poll (Except Status T) × F}
    {future future' : F} {result : Except Status T} (hp : poll future = (.ready result, future'))
    (sigs : List Signals) : c.run poll started (sig :: sigs) future = (some result, future') := by
  rw [run, race_spared h, hp]

theorem exists_of_poll {Holds : Bool → List Signals → Prop} (N : Nat)
    (h : ∀ started sig sigs, c.Spares started sig → c.Uncancelled true sigs → N ≤ sigs.length →
      Holds started (sig :: sigs)) :
    ∃ N, ∀ started sigs, c.Uncancelled started sigs → N ≤ sigs.length → Holds started sigs := by
  refine ⟨N + 1, fun started sigs hwhole hlong => ?_⟩
  cases sigs with
  | nil => simp at hlong
  | cons sig sigs => exact h started sig sigs hwhole.1 hwhole.2 (Nat.le_of_succ_le_succ hlong)

end Cancellation

/-! ## Request streams -/

section

variable [ByteSource ρ] [CodecCrates]

/-- `items` is what a reader of the stream still gets. -/
def RequestStream.Ahead (requests : RequestStream Req ρ) (cfg : ReadConfig Req)
    (items : List (Option (Except Status Req))) : Prop :=
  requests.config = cfg ∧
    items = (ahead cfg (requests.reader, requests.state)).follow cfg (fault requests.reader)

/-- What a poll of `recv` makes of the items. -/
def RequestStream.Received (cfg : ReadConfig Req) (items : List (Option (Except Status Req)))
    (reader : ρ) : Poll (Except Status (Option Req)) × RequestStream Req ρ × RecvFuture → Prop
  | (.pending, later, _) => later.Ahead cfg items ∧ Advanced later.reader reader
  | (.ready (.ok none), _, _) => items = [none]
  | (.ready (.ok (some message)), later, _) =>
      ∃ left, items = some (.ok message) :: left ∧ later.Ahead cfg left
  | (.ready (.error status), _, _) => items = [some (.error status)] ∧
      (status.Raised ∨ ∃ raw, cfg.decode raw = .error status)

theorem RequestStream.recv_received {requests : RequestStream Req ρ} {cfg : ReadConfig Req}
    {items : List (Option (Except Status Req))} (h : requests.Ahead cfg items)
    (future : RecvFuture) : Received cfg items requests.reader (requests.recv future) := by
  obtain ⟨rfl, hitems⟩ := h
  have hyields := readPoll_yields (ρ := ρ) requests.config
  have hpoll : readPoll requests.config (requests.reader, requests.state) =
      (requests.pollMessage.1, (requests.pollMessage.2.reader, requests.pollMessage.2.state)) :=
    rfl
  have hconfig : requests.pollMessage.2.config = requests.config := rfl
  have herror : ∀ status, (requests.recv future).1 = .ready (.error status) →
      status.Raised ∨ ∃ raw, requests.config.decode raw = .error status :=
    fun _ h => recv_error h
  rw [recv] at herror ⊢
  rcases hp : requests.pollMessage with ⟨_ | (_ | (status | message)), later⟩
  · rw [hp] at hpoll hconfig
    obtain ⟨hlater, hadv⟩ := hyields.pending hitems hpoll
    exact ⟨⟨hconfig, hlater⟩, hadv⟩
  · rw [hp] at hpoll
    exact hyields.ended hitems hpoll
  · rw [hp] at hpoll herror
    obtain ⟨left, rfl, hleft⟩ := hyields.item hitems hpoll
    exact ⟨congrArg _ hleft, herror status rfl⟩
  · rw [hp] at hpoll hconfig
    obtain ⟨left, rfl, hleft⟩ := hyields.item hitems hpoll
    exact ⟨left, rfl, hconfig, hleft⟩

end

/-! ## The reads in front of a call -/

namespace OneRequest

variable [ByteSource ρ] [CodecCrates] {decode : List UInt8 → Except Status Req}
  {f : Handler φ H ρ Req T} {cfg : ReadConfig Req} {items : List (Option (Except Status Req))}
  {s : OneRequest φ H ρ Req}

/-- `items` are those of the whole body. The function is called behind a message and the
end, and nowhere else. -/
def Reading (decode : List UInt8 → Except Status Req) (cfg : ReadConfig Req)
    (items : List (Option (Except Status Req))) (s : OneRequest φ H ρ Req) : Prop :=
  match s.stage with
  | .start => s.invoked = [] ∧ (s.grpc.requests decode).Ahead cfg items
  | .first requests _ => s.invoked = [] ∧ requests.Ahead cfg items
  | .second message requests _ =>
      s.invoked = [] ∧ ∃ left, items = some (.ok message) :: left ∧ requests.Ahead cfg left
  | .handling _ => ∃ message, s.invoked = [message] ∧ items = [some (.ok message), none]

/-- A result is that of the call with the one message, or a failure without a call. -/
def Settled [HeaderMap H] [Base64] (items : List (Option (Except Status Req)))
    (result : Except Status T) (s : OneRequest φ H ρ Req) : Prop :=
  (∃ message, s.invoked = [message] ∧ items = [some (.ok message), none]) ∨
    s.invoked = [] ∧ (∀ message, items ≠ [some (.ok message), none]) ∧
      ∃ status, result = .error status ∧ status.Fails H

def Called (s : OneRequest φ H ρ Req) : Prop :=
  (∃ future, s.stage = .handling future) ∧ s.invoked ≠ []

omit [CodecCrates] in
/-- How far the reads have come: the message that is waited for, and the reader. -/
def place (s : OneRequest φ H ρ Req) : Nat × ρ :=
  match s.stage with
  | .first requests _ => (1, requests.reader)
  | .second _ requests _ => (0, requests.reader)
  | _ => (1, s.grpc.conn.requestBody)

variable [HeaderMap H] [Base64]

def Polled (decode : List UInt8 → Except Status Req) (cfg : ReadConfig Req)
    (items : List (Option (Except Status Req))) (before : Nat × ρ) :
    Poll (Except Status T) × OneRequest φ H ρ Req → Prop
  | (.pending, s) => s.Reading decode cfg items ∧
      (s.invoked = [] → Prod.Lex (· < ·) Advanced s.place before)
  | (.ready result, s) => s.Settled items result

theorem pollHandler_polled {message : Req} (hinvoked : s.invoked = [message])
    (hitems : items = [some (.ok message), none]) (future : φ) (before : Nat × ρ) :
    Polled decode cfg items before (pollHandler f s future) := by
  rw [pollHandler]
  rcases f.poll future s.grpc with ⟨_ | result, future', grpc⟩
  · refine ⟨⟨message, hinvoked, hitems⟩, fun hnone => ?_⟩
    rw [show s.invoked = [] from hnone] at hinvoked
    cases hinvoked
  · exact .inl ⟨message, hinvoked, hitems⟩

variable (hdecode : ∀ raw status, cfg.decode raw = .error status → status.Fails H)

include hdecode

omit [ByteSource ρ] [CodecCrates] in
theorem settled_of_failed {status : Status} {result : Except Status T}
    (hinvoked : s.invoked = []) (hitems : ∀ message, items ≠ [some (.ok message), none])
    (hstatus : status.Raised ∨ ∃ raw, cfg.decode raw = .error status)
    (hresult : result = .error status) : s.Settled items result := by
  refine .inr ⟨hinvoked, hitems, status, hresult, ?_⟩
  rcases hstatus with hraised | ⟨raw, hraw⟩
  · exact hraised.fails
  · exact hdecode raw status hraw

theorem pollSecond_polled {message : Req} {requests : RequestStream Req ρ}
    {left : List (Option (Except Status Req))} (hinvoked : s.invoked = [])
    (hitems : items = some (.ok message) :: left) (hahead : requests.Ahead cfg left)
    (future : RecvFuture) :
    Polled decode cfg items (0, requests.reader) (pollSecond f s message requests future) := by
  have hrecv := RequestStream.recv_received hahead future
  rw [pollSecond]
  rcases hp : requests.recv future with ⟨_ | (status | _ | second), later, future'⟩
  · rw [hp] at hrecv
    exact ⟨⟨hinvoked, left, hitems, hrecv.1⟩, fun _ => .right 0 hrecv.2⟩
  · rw [hp] at hrecv
    obtain ⟨rfl, hstatus⟩ := hrecv
    refine settled_of_failed hdecode hinvoked (fun m h => ?_) hstatus rfl
    rw [hitems] at h
    cases h
  · rw [hp] at hrecv
    have hsingle : items = [some (.ok message), none] := by
      rw [hitems, show left = [none] from hrecv]
    refine pollHandler_polled ?_ hsingle _ _
    rw [hinvoked, List.nil_append]
  · rw [hp] at hrecv
    obtain ⟨left', rfl, _⟩ := hrecv
    refine settled_of_failed hdecode hinvoked (fun m h => ?_)
      (.inl (Status.raised_new (by decide) _)) rfl
    rw [hitems] at h
    cases h

theorem pollFirst_polled {requests : RequestStream Req ρ} (hinvoked : s.invoked = [])
    (hahead : requests.Ahead cfg items) (future : RecvFuture) :
    Polled decode cfg items (1, requests.reader) (pollFirst f s requests future) := by
  have hrecv := RequestStream.recv_received hahead future
  rw [pollFirst]
  rcases hp : requests.recv future with ⟨_ | (status | _ | message), later, future'⟩
  · rw [hp] at hrecv
    exact ⟨⟨hinvoked, hrecv.1⟩, fun _ => .right 1 hrecv.2⟩
  · rw [hp] at hrecv
    obtain ⟨rfl, hstatus⟩ := hrecv
    refine settled_of_failed hdecode hinvoked (fun m h => ?_) hstatus rfl
    cases h
  · rw [hp] at hrecv
    refine settled_of_failed hdecode hinvoked (fun m h => ?_)
      (.inl (Status.raised_new (by decide) _)) rfl
    rw [show items = [none] from hrecv] at h
    cases h
  · rw [hp] at hrecv
    obtain ⟨left, hitems, hlater⟩ := hrecv
    have hsecond : Polled decode cfg items (0, later.reader)
        (pollSecond f s message later .unresumed) :=
      pollSecond_polled hdecode hinvoked hitems hlater .unresumed
    dsimp only
    rcases hq : pollSecond f s message later .unresumed with ⟨_ | result, s'⟩
    · rw [hq] at hsecond
      refine ⟨hsecond.1, fun hnone => ?_⟩
      rcases Prod.lex_def.mp (hsecond.2 hnone) with hlt | ⟨hzero, _⟩
      · exact absurd hlt (Nat.not_lt_zero _)
      · exact Prod.lex_def.mpr (.inl (by rw [hzero]; exact Nat.one_pos))
    · rw [hq] at hsecond
      exact hsecond

theorem poll_polled (hs : s.Reading decode cfg items) :
    Polled decode cfg items s.place (poll decode f s) := by
  rw [poll, place]
  rw [Reading] at hs
  cases hstage : s.stage with
  | start =>
      rw [hstage] at hs
      exact pollFirst_polled hdecode hs.1 hs.2 .unresumed
  | first requests future =>
      rw [hstage] at hs
      exact pollFirst_polled hdecode hs.1 hs.2 future
  | second message requests future =>
      rw [hstage] at hs
      obtain ⟨hinvoked, left, hitems, hahead⟩ := hs
      exact pollSecond_polled hdecode hinvoked hitems hahead future
  | handling future =>
      rw [hstage] at hs
      obtain ⟨message, hinvoked, hitems⟩ := hs
      exact pollHandler_polled hinvoked hitems future _

/-! ## Races over the reads -/

variable {c : Cancellation}

def Raced (decode : List UInt8 → Except Status Req) (cfg : ReadConfig Req)
    (items : List (Option (Except Status Req))) :
    Option (Except Status T) × OneRequest φ H ρ Req → Prop
  | (none, s) => s.Reading decode cfg items
  | (some result, s) => s.Settled items result ∨
      s.Reading decode cfg items ∧ ∃ status, result = .error status ∧ status.Fails H

theorem run_raced (hs : s.Reading decode cfg items) (started : Bool) (sigs : List Signals) :
    Raced decode cfg items (c.run (poll decode f) started sigs s) := by
  induction sigs generalizing s started with
  | nil => exact hs
  | cons sig sigs ih =>
      have hpolled := poll_polled (f := f) hdecode hs
      rw [Cancellation.run]
      rcases c.race_cases started sig (poll decode f) s with
        ⟨_, hrace⟩ | ⟨status, hraised, ⟨_, hrace⟩ | ⟨_, s', hpending, hrace⟩⟩
      · rw [hrace]
        rcases hp : poll decode f s with ⟨_ | result, s'⟩
        · rw [hp] at hpolled
          exact ih hpolled.1 true
        · rw [hp] at hpolled
          exact .inl hpolled
      · rw [hrace]
        exact .inr ⟨hs, status, rfl, hraised.fails⟩
      · rw [hrace]
        rw [hpending] at hpolled
        exact .inr ⟨hpolled.1, status, rfl, hraised.fails⟩

theorem run_settled (hs : s.Reading decode cfg items) {started : Bool} {sigs : List Signals}
    (hwhole : c.Uncancelled started sigs) {result : Except Status T} {s' : OneRequest φ H ρ Req}
    (hrun : c.run (poll decode f) started sigs s = (some result, s')) :
    s'.Settled items result := by
  induction sigs generalizing s started with
  | nil => cases hrun
  | cons sig sigs ih =>
      have hpolled := poll_polled (f := f) hdecode hs
      rcases hp : poll decode f s with ⟨_ | answer, next⟩
      · rw [hp] at hpolled
        rw [Cancellation.run_of_pending hwhole.1 hp] at hrun
        exact ih hpolled.1 hwhole.2 hrun
      · rw [hp] at hpolled
        rw [Cancellation.run_of_ready hwhole.1 hp] at hrun
        cases hrun
        exact hpolled

omit [HeaderMap H] [Base64] hdecode in
theorem run_called (hs : s.Called) (started : Bool) (sigs : List Signals) :
    (c.run (poll decode f) started sigs s).2.Called := by
  have hpoll : ∀ s : OneRequest φ H ρ Req, s.Called → (poll decode f s).2.Called := by
    rintro s ⟨⟨future, hstage⟩, hinvoked⟩
    rw [poll, hstage]
    exact ⟨⟨_, rfl⟩, hinvoked⟩
  exact Cancellation.run_kept hpoll started sigs hs

omit [HeaderMap H] [Base64] hdecode in
theorem Reading.called (hs : s.Reading decode cfg items) (hinvoked : s.invoked ≠ []) :
    s.Called := by
  refine ⟨?_, hinvoked⟩
  rw [Reading] at hs
  cases hstage : s.stage with
  | handling future => exact ⟨future, rfl⟩
  | start => rw [hstage] at hs; exact absurd hs.1 hinvoked
  | first requests future => rw [hstage] at hs; exact absurd hs.1 hinvoked
  | second message requests future => rw [hstage] at hs; exact absurd hs.1 hinvoked

omit [HeaderMap H] [Base64] hdecode in
theorem Reading.invoked (hs : s.Reading decode cfg items) : s.invoked = [] ∨
    ∃ message, s.invoked = [message] ∧ items = [some (.ok message), none] := by
  rw [Reading] at hs
  cases hstage : s.stage with
  | handling future => rw [hstage] at hs; exact .inr hs
  | start => rw [hstage] at hs; exact .inl hs.1
  | first requests future => rw [hstage] at hs; exact .inl hs.1
  | second message requests future => rw [hstage] at hs; exact .inl hs.1

omit hdecode in
theorem Raced.verdict {result : Option (Except Status T)}
    (h : Raced decode cfg items (result, s)) :
    (∃ message, s.invoked = [message] ∧ items = [some (.ok message), none]) ∨
      s.invoked = [] ∧ ∀ answer, result = some answer →
        ∃ status, answer = .error status ∧ status.Fails H := by
  cases result with
  | none =>
      rcases Reading.invoked h with hnone | hcalled
      · exact .inr ⟨hnone, nofun⟩
      · exact .inl hcalled
  | some answer =>
      rcases h with (hcalled | ⟨hnone, _, hfailed⟩) | ⟨hreading, hfailed⟩
      · exact .inl hcalled
      · exact .inr ⟨hnone, fun _ h => Option.some.inj h ▸ hfailed⟩
      · rcases hreading.invoked with hnone | hcalled
        · exact .inr ⟨hnone, fun _ h => Option.some.inj h ▸ hfailed⟩
        · exact .inl hcalled

/-- If nothing cancels it, a race comes to its end or to the call. -/
theorem run_through (hs : s.Reading decode cfg items) :
    ∃ N, ∀ started sigs, c.Uncancelled started sigs → N ≤ sigs.length →
      (c.run (poll decode f) started sigs s).1.isSome ∨
        (c.run (poll decode f) started sigs s).2.invoked ≠ [] := by
  have hwf : WellFounded (Prod.Lex (· < ·) (Advanced (ρ := ρ))) :=
    WellFounded.prod_lex Nat.lt_wfRel.wf advanced_wf
  -- Induction on how far the reads have come.
  induction hplace : s.place using hwf.induction generalizing s with
  | h place ih =>
      subst hplace
      have hpolled := poll_polled (f := f) hdecode hs
      rcases hp : poll decode f s with ⟨_ | result, s'⟩
      · rw [hp] at hpolled
        by_cases hinvoked : s'.invoked = []
        · obtain ⟨N, hN⟩ := ih s'.place (hpolled.2 hinvoked) hpolled.1 rfl
          refine Cancellation.exists_of_poll N fun started sig sigs hspares hwhole hlong => ?_
          rw [Cancellation.run_of_pending hspares hp]
          exact hN true sigs hwhole hlong
        · refine Cancellation.exists_of_poll 0 fun started sig sigs hspares _ _ => ?_
          rw [Cancellation.run_of_pending hspares hp]
          exact .inr (run_called (hpolled.1.called hinvoked) true sigs).2
      · refine Cancellation.exists_of_poll 0 fun started sig sigs hspares _ _ => ?_
        rw [Cancellation.run_of_ready hspares hp]
        exact .inl rfl

end OneRequest

/-! ## Calls -/

/-- What a call makes of its body: `single` says of a message that the body is just that.
However the call goes, the user function is called with that message only, and no response
without a call is a success. One that nothing cancels comes to the call or to the refusal. -/
structure ExactlyOne (single : Req → Prop) (refuses : B → Prop) (c : Cancellation)
    (dispatch : List Signals → Dispatched H ρ Req B) : Prop where
  sound : ∀ sigs, (∃ message, single message ∧ (dispatch sigs).invoked = [message]) ∨
    (dispatch sigs).invoked = [] ∧ ∀ reply, (dispatch sigs).reply = some reply →
      refuses reply.body
  complete : ∃ N, ∀ sigs, c.Uncancelled false sigs → N ≤ sigs.length →
    (∀ message, single message → (dispatch sigs).invoked = [message]) ∧
      ((∀ message, ¬ single message) → (dispatch sigs).invoked = [] ∧
        ∃ reply, (dispatch sigs).reply = some reply ∧ refuses reply.body)

/-- The body of a stream's response that never started. -/
def StreamReply.Refuses [HeaderMap H] [Base64] : StreamReply σ H Resp → Prop
  | .streaming _ => False
  | .failed body => body.Refuses

section

variable [ByteSource ρ] [CodecCrates] [HeaderMap H] [Base64]
  {decode : List UInt8 → Except Status Req}

/-- A response that is made of the result, whatever the user function's is, and that
refuses with every failure. -/
theorem exactlyOne_of_run (hdecode : ∀ raw status, decode raw = .error status → status.Fails H)
    (f : Handler φ H ρ Req T) (c : Cancellation) (grpc : GrpcServerConn H ρ)
    (refuses : B → Prop) (answer : Except Status T → GrpcServerConn H ρ → Reply H ρ B)
    (hanswer : ∀ status grpc, status.Fails H → refuses (answer (.error status) grpc).body) :
    ExactlyOne (SingleFrame ⟨decode, grpc.requestEncoding, defaultMaxMessageSize⟩
      (fault grpc.conn.requestBody) (rest grpc.conn.requestBody)) refuses c
      fun sigs => ⟨(c.run (OneRequest.poll decode f) false sigs (.new grpc)).1.map fun result =>
          answer result (c.run (OneRequest.poll decode f) false sigs (.new grpc)).2.release,
        (c.run (OneRequest.poll decode f) false sigs (.new grpc)).2.invoked⟩ := by
  have hstart : (OneRequest.new grpc : OneRequest φ H ρ Req).Reading decode
      ⟨decode, grpc.requestEncoding, defaultMaxMessageSize⟩
      (parse ⟨decode, grpc.requestEncoding, defaultMaxMessageSize⟩
        (fault grpc.conn.requestBody) (rest grpc.conn.requestBody)) :=
    ⟨rfl, rfl, follow_ahead_new _ _⟩
  obtain ⟨N, hN⟩ := OneRequest.run_through (f := f) (c := c) hdecode hstart
  refine ⟨fun sigs => ?_, N, fun sigs hwhole hlong => ?_⟩
  · have hraced := OneRequest.run_raced (f := f) (c := c) hdecode hstart false sigs
    rcases hraced.verdict with ⟨message, hinvoked, hitems⟩ | ⟨hinvoked, hfailed⟩
    · exact .inl ⟨message, parse_eq_single_iff.mp hitems, hinvoked⟩
    · refine .inr ⟨hinvoked, fun reply hreply => ?_⟩
      obtain ⟨result, hresult, rfl⟩ := Option.map_eq_some_iff.mp hreply
      obtain ⟨status, rfl, hstatus⟩ := hfailed result hresult
      exact hanswer status _ hstatus
  · have hraced := OneRequest.run_raced (f := f) (c := c) hdecode hstart false sigs
    have hthrough := hN false sigs hwhole hlong
    cases hrun : c.run (OneRequest.poll decode f) false sigs (.new grpc) with
    | mk result s =>
        rw [hrun] at hraced hthrough
        rcases hraced.verdict with ⟨message, hinvoked, hitems⟩ | ⟨hinvoked, hfailed⟩
        · refine ⟨fun single hsingle => ?_, fun hnone => ?_⟩
          · rw [← parse_eq_single_iff, hitems] at hsingle
            cases hsingle
            exact hinvoked
          · exact absurd (parse_eq_single_iff.mp hitems) (hnone message)
        · cases result with
          | none =>
              rcases hthrough with hsome | hcalled
              · cases hsome
              · exact absurd hinvoked hcalled
          | some answer =>
              obtain ⟨message, hcalled, _⟩ | ⟨_, hitems, _⟩ :=
                OneRequest.run_settled hdecode hstart hwhole hrun
              · rw [hinvoked] at hcalled
                cases hcalled
              · refine ⟨fun single hsingle => ?_, fun _ => ⟨hinvoked, _, rfl, ?_⟩⟩
                · exact absurd (parse_eq_single_iff.mpr hsingle) (hitems single)
                · obtain ⟨status, rfl, hstatus⟩ := hfailed answer rfl
                  exact hanswer status _ hstatus

/-- What a server-streaming call answers once its race is over. -/
def finishStreaming (encode : Resp → Except Status (List UInt8)) (responseEncoding : Encoding)
    (result : Except Status σ) (grpc : GrpcServerConn H ρ) :
    Reply H ρ (StreamReply σ H Resp) :=
  match result with
  | .ok stream => respond grpc.conn (.streaming
      (.new stream encode responseEncoding grpc.responseTrailers true))
  | .error status => ⟨grpc.conn,
      .failed (errorResponseWithTrailers grpc.conn status grpc.responseTrailers).body⟩

variable [Features]

/-- The user function of a unary or server-streaming call is called exactly if the body is
one frame with a message that can be read, and then once with that message. Of every other
body the response is empty, with a failure behind it. -/
theorem called_for_one_request
    (hdecode : ∀ raw status, decode raw = .error status → status.Fails H)
    (encode : Resp → Except Status (List UInt8)) (f : Handler φ H ρ Req Resp)
    (g : Handler φ H ρ Req σ) (conn : Conn H ρ) (now now' : Instant) :
    (∀ call, startCall conn now now' = .ok (.ok call) →
      let single := SingleFrame ⟨decode, call.grpc.requestEncoding, defaultMaxMessageSize⟩
        (fault conn.requestBody) (rest conn.requestBody)
      (∃ out, (∀ sigs, unaryImpl decode encode f conn now now' sigs = .ok (out sigs)) ∧
        ExactlyOne single OneShotBody.Refuses call.cancellation out) ∧
      ∃ out, (∀ sigs, serverStreamingImpl decode encode g conn now now' sigs = .ok (out sigs)) ∧
        ExactlyOne single StreamReply.Refuses call.cancellation out) ∧
    ∀ status, startCall conn now now' = .ok (.error status) → ∀ sigs,
      (∃ reply, unaryImpl decode encode f conn now now' sigs = .ok ⟨some reply, []⟩ ∧
        reply.body.Refuses) ∧
      ∃ reply, serverStreamingImpl decode encode g conn now now' sigs = .ok ⟨some reply, []⟩ ∧
        reply.body.Refuses := by
  refine ⟨fun call hadmitted => ?_, fun status hadmitted sigs => ?_⟩
  · have hconn : call.grpc.conn = conn := (startCall_ok hadmitted).2.2.1
    have hunary := exactlyOne_of_run hdecode f call.cancellation call.grpc OneShotBody.Refuses
      (fun result grpc => finishUnary encode grpc.conn result call.responseEncoding
        grpc.responseTrailers)
      fun status grpc h => errorResponseWithTrailers_refuses grpc.conn h grpc.responseTrailers
    have hstreaming := exactlyOne_of_run (B := StreamReply σ H Resp) hdecode g call.cancellation
      call.grpc StreamReply.Refuses (finishStreaming encode call.responseEncoding)
      fun status grpc h => errorResponseWithTrailers_refuses grpc.conn h grpc.responseTrailers
    rw [hconn] at hunary hstreaming
    refine ⟨⟨_, fun sigs => ?_, hunary⟩, _, fun sigs => ?_, hstreaming⟩
    · rw [unaryImpl, hadmitted]
      rfl
    · rw [serverStreamingImpl, hadmitted]
      rfl
  · have hfails : status.Fails H := (startCall_error hadmitted).fails
    refine ⟨⟨errorResponse conn status, ?_, errorResponse_refuses conn hfails⟩,
      ⟨conn, .failed (errorResponse conn status).body⟩, ?_, errorResponse_refuses conn hfails⟩
    · rw [unaryImpl, hadmitted]
      rfl
    · rw [serverStreamingImpl, hadmitted]
      rfl

end

/-- A body of one frame, in chunks, and an echo that is called with its byte. -/
theorem echo_called :
    letI := storedCrates
    letI := standardNoPad
    letI := allFeatures
    ∃ call, startCall gzipConn epoch epoch = .ok (.ok call) ∧
      ∃ N, ∀ sigs, call.cancellation.Uncancelled false sigs → N ≤ sigs.length →
        ∃ out, unaryImpl .ok .ok echoHandler gzipConn epoch epoch sigs = .ok out ∧
          out.invoked = [[7]] := by
  let _ := storedCrates
  let _ := standardNoPad
  let _ := allFeatures
  obtain ⟨call, hadmitted⟩ : ∃ call, startCall gzipConn epoch epoch = .ok (.ok call) := ⟨_, rfl⟩
  have hdecode : ∀ raw status, (.ok raw : Except Status (List UInt8)) = .error status →
      status.Fails HeaderList := nofun
  have hcap : 1 ≤ defaultMaxMessageSize := by decide
  have hsingle : SingleFrame ⟨.ok, call.grpc.requestEncoding, defaultMaxMessageSize⟩ none
      gzipConn.requestBody.bytes [7] :=
    ⟨rfl, 0, [7], rfl, by decide, hcap, rfl⟩
  obtain ⟨⟨out, hout, hone⟩, _⟩ := (called_for_one_request (σ := Unit) hdecode .ok
    echoHandler ⟨id, fun future grpc => (.ready (.ok ()), future, grpc)⟩ gzipConn epoch
    epoch).1 call hadmitted
  obtain ⟨N, hN⟩ := hone.complete
  exact ⟨call, hadmitted, N, fun sigs hwhole hlong =>
    ⟨out sigs, hout sigs, (hN sigs hwhole hlong).1 [7] hsingle⟩⟩

end TrilliumGrpc
