import TrilliumGrpc.Client.HalfClose
import TrilliumGrpc.Client.Stopped
import TrilliumGrpc.Client.Unary

/-! # Sends of a cancelled call

The write of a live full-duplex call races the cancellation. A send that only adds to the
body of a pending call does not, and neither does the loop that drains the request stream
of an awaited client-streaming call.
-/

namespace TrilliumGrpc

open Async HeaderMap Time

variable {ρ ω H Req Resp σ : Type}

namespace Call

/-! ## One send -/

section

variable [CodecCrates]

/-- A send whose write races the cancellation, or whose message fails to encode with the
same code. -/
def Races (s : Call ρ ω H Req Resp) (message : Req) : Prop :=
  match s.conn.encodeMessage message, s.conn.inner with
  | .error status, _ => status.code = .cancelled
  | .ok _, .duplex _ => True
  | .ok _, _ => False

/-- No deadline, and some handle was cancelled. -/
def CancelledOnly (s : Call ρ ω H Req Resp) : Prop :=
  s.world.cancelled = true ∧ s.conn.deadline = none

omit [CodecCrates] in
theorem CancelledOnly.interrupt {s : Call ρ ω H Req Resp} (h : s.CancelledOnly) (started : Bool)
    (moment : Moment) (timer : Bool) :
    TrilliumGrpc.interrupt s.conn.deadline started (s.world.observe moment) timer =
      some callCancelled := by
  simp [TrilliumGrpc.interrupt, h.2, World.observe, h.1]

variable [ResponseBody ρ H] [AsyncWrite ω] [HeaderMap H] [Base64] [Features]

/-- The send fails with `Cancelled`, and neither the body nor the writer gets anything. -/
def SendCancelled (s : Call ρ (Logged ω) H Req Resp) (message : Req)
    (ticks : List (Tick ρ (Logged ω) H)) : Prop :=
  (∃ status, (s.drive (.start (.send message)) ticks).1 = some (.unit (.error status)) ∧
      status.code = .cancelled) ∧
    (s.drive (.start (.send message)) ticks).2.1.body = s.body ∧
    (s.drive (.start (.send message)) ticks).2.1.offers = s.offers

/-- What the first poll of a send on a cancelled call gives, by the branch it takes. -/
theorem CancelledOnly.poll_send {s : Call ρ ω H Req Resp} (h : s.CancelledOnly) (message : Req)
    (tick : Tick ρ ω H) : ∃ result conn world,
      (s.poll tick (.start (.send message))).answer = .ready (.unit result) ∧
      (s.poll tick (.start (.send message))).call = ⟨conn, world⟩ ∧
      ((∃ status, result = .error status ∧ status.code = .cancelled) ↔ s.Races message) ∧
      (s.Races message → conn = s.conn) := by
  rw [poll, startSend, Races]
  cases hframe : s.conn.encodeMessage message with
  | error status =>
      refine ⟨.error status, s.conn, s.world, rfl, rfl, ?_, fun _ => rfl⟩
      simp
  | ok frame =>
      cases hinner : s.conn.inner with
      | pending p =>
          dsimp only
          split
          · refine ⟨_, s.conn, s.world, rfl, rfl, ?_, False.elim⟩
            simp [sendAfterClose, Status.internal, Status.new]
          · refine ⟨_, _, s.world, rfl, rfl, ?_, False.elim⟩
            simp
      | duplex live =>
          simp only [pollWriting, h.interrupt]
          refine ⟨_, s.conn, _, rfl, rfl, ?_, fun _ => rfl⟩
          simp [callCancelled, Status.cancelled, Status.new]
      | _ =>
          refine ⟨_, s.conn, s.world, rfl, rfl, ?_, False.elim⟩
          simp [sendAfterResponse, Status.internal, Status.new]

theorem sendCancelled_iff {s : Call ρ (Logged ω) H Req Resp} (h : s.CancelledOnly)
    (message : Req) (tick : Tick ρ (Logged ω) H) (ticks : List (Tick ρ (Logged ω) H)) :
    s.SendCancelled message (tick :: ticks) ↔ s.Races message := by
  obtain ⟨result, conn, world, hanswer, hcall, hcode, hconn⟩ := h.poll_send message tick
  obtain ⟨hdrive, hafter⟩ := drive_of_ready hanswer ticks
  rw [hcall] at hafter
  rw [SendCancelled, hdrive, hafter]
  constructor
  · rintro ⟨⟨status, hstatus, hcancelled⟩, _⟩
    cases hstatus
    exact hcode.mp ⟨status, rfl, hcancelled⟩
  · intro hraces
    obtain ⟨status, rfl, hcancelled⟩ := hcode.mpr hraces
    rw [hconn hraces]
    exact ⟨⟨status, rfl, hcancelled⟩, rfl, rfl⟩

theorem CancelledOnly.drive {s : Call ρ ω H Req Resp} (h : s.CancelledOnly) (op : Op Req)
    (ticks : List (Tick ρ ω H)) : (s.drive (.start op) ticks).2.1.CancelledOnly := by
  have hheld := (Stopped.drive (Or.inl h.1) (Or.inr ⟨op, rfl⟩) ticks).1
  exact ⟨hheld.cancelled h.1, hheld.deadline.trans h.2⟩

/-! ## Runs -/

/-- A send that is polled is cancelled. -/
def CancelsSends (s : Call ρ (Logged ω) H Req Resp) (op : Op Req)
    (ticks : List (Tick ρ (Logged ω) H)) : Prop :=
  ∀ message, op = .send message → ticks ≠ [] → s.SendCancelled message ticks

def RacesSends (s : Call ρ ω H Req Resp) (op : Op Req) (ticks : List (Tick ρ ω H)) : Prop :=
  ∀ message, op = .send message → ticks ≠ [] → s.Races message

theorem cancelsSends_iff {s : Call ρ (Logged ω) H Req Resp} (h : s.CancelledOnly) (op : Op Req)
    (ticks : List (Tick ρ (Logged ω) H)) : s.CancelsSends op ticks ↔ s.RacesSends op ticks := by
  cases ticks with
  | nil => exact iff_of_true (fun _ _ hne => absurd rfl hne) fun _ _ hne => absurd rfl hne
  | cons tick ticks =>
      apply forall_congr'
      intro message
      exact imp_congr_right fun _ => imp_congr_right fun _ =>
        sendCancelled_iff h message tick ticks

end

end Call

/-! ## The drained request stream -/

section

variable [AsyncStream σ Req]

def offered (n : Nat) (requests : σ) : List Req :=
  (items AsyncStream.pollNext (fun _ => false) n requests).reduceOption

theorem offered_of_pending {requests left : σ}
    (h : AsyncStream.pollNext requests = (.pending, left)) (n : Nat) :
    offered (n + 1) requests = offered n left := by
  rw [offered, items_of_pending h, offered]

theorem offered_of_none {requests left : σ}
    (h : AsyncStream.pollNext requests = (.ready none, left)) (n : Nat) :
    offered n requests = [] := by
  cases n with
  | zero => rfl
  | succ n => rw [offered, items_of_none h]; rfl

theorem offered_of_some {requests left : σ} {message : Req}
    (h : AsyncStream.pollNext requests = (.ready (some message), left)) (n : Nat) :
    offered (n + 1) requests = message :: offered n left := by
  rw [offered, items_of_some h]
  rfl

end

namespace UnaryAwait

/-- The engine of a call whose request stream is being drained. -/
def Open (u : UnaryAwait ρ ω H Req Resp σ) : Prop :=
  ∃ p, u.call.conn.inner = .pending p ∧ p.sendClosed = false

def Drained (u : UnaryAwait ρ ω H Req Resp σ) : Prop :=
  match u.stage with
  | .pulling _ => False
  | .sending _ _ => False
  | _ => True

section

variable [ResponseBody ρ H] [AsyncWrite ω] [CodecCrates] [HeaderMap H] [Base64] [Features]
  [AsyncStream σ Req] {u : UnaryAwait ρ ω H Req Resp σ}

theorem step_of_pending {requests left : σ} (hstage : u.stage = .pulling requests)
    (h : AsyncStream.pollNext requests = (.pending, left)) (tick : Tick ρ ω H) :
    u.step tick = { u with stage := .pulling left } := by
  rw [step, hstage]
  dsimp only
  rw [h]

theorem step_of_none {requests left : σ} (hstage : u.stage = .pulling requests)
    (h : AsyncStream.pollNext requests = (.ready none, left)) (tick : Tick ρ ω H) :
    u.step tick = { u with stage := .closing (.start .closeSend) } := by
  rw [step, hstage]
  dsimp only
  rw [h]

theorem step_of_some {requests left : σ} {message : Req} (hstage : u.stage = .pulling requests)
    (h : AsyncStream.pollNext requests = (.ready (some message), left)) (tick : Tick ρ ω H) :
    u.step tick =
      { u with
        stage := .sending left (.start (.send message)), pulled := u.pulled ++ [message] } := by
  rw [step, hstage]
  dsimp only
  rw [h]

theorem step_of_sent {requests : σ} {message : Req} {frame : List UInt8}
    (hstage : u.stage = .sending requests (.start (.send message))) (hopen : u.Open)
    (hframe : u.call.conn.encodeMessage message = .ok frame) (tick : Tick ρ ω H) :
    ∃ call, u.step tick = { u with call, stage := .pulling requests } ∧
      (u.step tick).Open ∧ call.conn.encodeMessage = u.call.conn.encodeMessage := by
  obtain ⟨p, hinner, hclosed⟩ := hopen
  refine ⟨⟨{ u.call.conn with inner := .pending { p with body := p.body ++ frame } },
    u.call.world⟩, ?_, ⟨{ p with body := p.body ++ frame }, ?_, hclosed⟩, rfl⟩
  · simp only [step, hstage, Call.poll, Call.startSend, hframe, hinner, hclosed]
    rfl
  · simp only [step, hstage, Call.poll, Call.startSend, hframe, hinner, hclosed]
    rfl

theorem step_of_unencodable {requests : σ} {message : Req} {status : Status}
    (hstage : u.stage = .sending requests (.start (.send message)))
    (hframe : u.call.conn.encodeMessage message = .error status) (tick : Tick ρ ω H) :
    u.step tick = { u with stage := .finished (.error status) } := by
  simp only [step, hstage, Call.poll, Call.startSend, hframe]
  rfl

theorem Drained.step (h : u.Drained) (tick : Tick ρ ω H) :
    (u.step tick).Drained ∧ (u.step tick).pulled = u.pulled := by
  have hafter : ∀ result, Drained (σ := σ) { u with stage := afterFirst result } := by
    intro result
    cases result with
    | error status => trivial
    | ok item => cases item <;> trivial
  rw [UnaryAwait.step]
  cases hstage : u.stage with
  | pulling requests => rw [Drained, hstage] at h; exact h.elim
  | sending requests future => rw [Drained, hstage] at h; exact h.elim
  | closing future =>
      dsimp only
      split
      · exact ⟨trivial, rfl⟩
      · split <;> exact ⟨trivial, rfl⟩
  | reading future =>
      dsimp only
      split
      · exact ⟨trivial, rfl⟩
      · exact ⟨hafter _, rfl⟩
  | confirming message future =>
      dsimp only
      split <;> exact ⟨trivial, rfl⟩
  | finished result => exact ⟨h, rfl⟩

theorem Drained.run (h : u.Drained) (ticks : List (Tick ρ ω H)) :
    (u.run ticks).pulled = u.pulled := by
  induction ticks generalizing u with
  | nil => rfl
  | cons tick ticks ih =>
      obtain ⟨hdrained, hpulled⟩ := h.step tick
      rw [run_cons, ih hdrained, hpulled]

/-! ## What is taken after a cancel -/

omit [ResponseBody ρ H] [AsyncWrite ω] [CodecCrates] [HeaderMap H] [Base64] [Features] in
/-- The stream gives one message at most, or the first that it gives does not encode. -/
def AtMostOne (encodeMessage : Req → Except Status (List UInt8)) (requests : σ) : Prop :=
  ∀ n first more, offered n requests = first :: more →
    more = [] ∨ ∃ status, encodeMessage first = .error status

theorem run_of_dry {requests : σ} (hstage : u.stage = .pulling requests)
    (hdry : ∀ n, offered n requests = []) (ticks : List (Tick ρ ω H)) :
    (u.run ticks).pulled = u.pulled := by
  induction ticks generalizing u requests with
  | nil => rfl
  | cons tick ticks ih =>
      rw [run_cons]
      rcases hpoll : AsyncStream.pollNext requests with ⟨_ | _ | message, left⟩
      · rw [step_of_pending hstage hpoll, ih rfl fun n => ?_]
        rw [← offered_of_pending hpoll]
        exact hdry (n + 1)
      · rw [step_of_none hstage hpoll]
        exact Drained.run (u := { u with stage := .closing (.start .closeSend) }) trivial ticks
      · have hone := hdry 1
        rw [offered_of_some hpoll] at hone
        cases hone

/-- A message in hand whose stream is dry is the last one. -/
theorem run_of_last {requests : σ} {message : Req}
    (hstage : u.stage = .sending requests (.start (.send message))) (hopen : u.Open)
    (hlast : (∃ status, u.call.conn.encodeMessage message = .error status) ∨
      ∀ n, offered n requests = []) (ticks : List (Tick ρ ω H)) :
    (u.run ticks).pulled = u.pulled := by
  cases ticks with
  | nil => rfl
  | cons tick ticks =>
      rw [run_cons]
      cases hframe : u.call.conn.encodeMessage message with
      | error status =>
          rw [step_of_unencodable hstage hframe]
          exact Drained.run (u := { u with stage := .finished (.error status) }) trivial ticks
      | ok frame =>
          obtain ⟨call, hstep, _, _⟩ := step_of_sent hstage hopen hframe tick
          have hdry : ∀ n, offered n requests = [] := by
            rcases hlast with ⟨status, herror⟩ | hdry
            · rw [hframe] at herror
              cases herror
            · exact hdry
          rw [hstep]
          exact run_of_dry (u := { u with call, stage := .pulling requests }) rfl hdry ticks

theorem run_of_atMostOne {requests : σ} (hstage : u.stage = .pulling requests) (hopen : u.Open)
    (hone : AtMostOne u.call.conn.encodeMessage requests) (ticks : List (Tick ρ ω H)) :
    (u.run ticks).pulled.length ≤ u.pulled.length + 1 := by
  induction ticks generalizing u requests with
  | nil => exact Nat.le_succ _
  | cons tick ticks ih =>
      rw [run_cons]
      rcases hpoll : AsyncStream.pollNext requests with ⟨_ | _ | message, left⟩
      · rw [step_of_pending hstage hpoll]
        apply ih (u := { u with stage := .pulling left }) rfl hopen
        intro n first more hoffered
        rw [← offered_of_pending hpoll] at hoffered
        exact hone (n + 1) first more hoffered
      · rw [step_of_none hstage hpoll]
        rw [Drained.run (u := { u with stage := .closing (.start .closeSend) }) trivial ticks]
        exact Nat.le_succ _
      · rw [step_of_some hstage hpoll]
        have hlast : (∃ status, u.call.conn.encodeMessage message = .error status) ∨
            ∀ n, offered n left = [] := by
          by_cases herror : ∃ status, u.call.conn.encodeMessage message = .error status
          · exact Or.inl herror
          · refine Or.inr fun n => ?_
            exact (hone (n + 1) message _ (offered_of_some hpoll n)).resolve_right herror
        rw [run_of_last (u := { u with
          stage := .sending left (.start (.send message)), pulled := u.pulled ++ [message] })
          rfl hopen hlast ticks]
        exact Nat.le_of_eq (List.length_append)

/-- A tick of any kind: nothing of it matters to the draining of a pending call. -/
def idleTick : Tick ρ ω H := ⟨epoch, ⟨false, epoch, false⟩, .connecting, ⟨false, epoch, false⟩⟩

theorem reaches_next {requests : σ} {n : Nat} {message : Req} {more : List Req}
    (hstage : u.stage = .pulling requests) (hopen : u.Open)
    (hoffered : offered n requests = message :: more) :
    ∃ (ticks : List (Tick ρ ω H)) (left : σ) (m : Nat),
      u.run ticks = { u with
        stage := .sending left (.start (.send message)), pulled := u.pulled ++ [message] } ∧
      offered m left = more := by
  induction n generalizing u requests with
  | zero => cases hoffered
  | succ n ih =>
      rcases hpoll : AsyncStream.pollNext requests with ⟨_ | _ | message', left⟩
      · rw [offered_of_pending hpoll] at hoffered
        obtain ⟨ticks, left', m, hrun, hleft⟩ :=
          ih (u := { u with stage := .pulling left }) rfl hopen hoffered
        refine ⟨idleTick :: ticks, left', m, ?_, hleft⟩
        rw [run_cons, step_of_pending hstage hpoll, hrun]
      · rw [offered_of_none hpoll] at hoffered
        cases hoffered
      · rw [offered_of_some hpoll] at hoffered
        cases hoffered
        exact ⟨[idleTick], left, n, step_of_some hstage hpoll _, rfl⟩

theorem reaches_second {requests : σ} {n : Nat} {first second : Req} {more : List Req}
    {frame : List UInt8} (hstage : u.stage = .pulling requests) (hopen : u.Open)
    (hoffered : offered n requests = first :: second :: more)
    (hframe : u.call.conn.encodeMessage first = .ok frame) :
    ∃ ticks : List (Tick ρ ω H), (u.run ticks).pulled = u.pulled ++ [first] ++ [second] := by
  obtain ⟨ticks, left, m, hrun, hleft⟩ := reaches_next hstage hopen hoffered
  obtain ⟨call, hstep, hopen', _⟩ := step_of_sent (u := { u with
    stage := .sending left (.start (.send first)), pulled := u.pulled ++ [first] }) rfl hopen
    hframe idleTick
  rw [hstep] at hopen'
  obtain ⟨ticks', left', _, hrun', _⟩ := reaches_next (u := { u with
    call, stage := .pulling left, pulled := u.pulled ++ [first] }) rfl hopen' hleft
  refine ⟨ticks ++ idleTick :: ticks', ?_⟩
  rw [run_append, hrun, run_cons, hstep, hrun']

/-! ## Runs from the start -/

/-- A call that was awaited with an open engine is open as long as it drains its stream,
and the message it sends is one that it has not sent yet. -/
def Feeding (u : UnaryAwait ρ ω H Req Resp σ) : Prop :=
  match u.stage with
  | .pulling _ => u.Open
  | .sending _ future => u.Open ∧ ∃ message, future = .start (.send message)
  | _ => True

omit [ResponseBody ρ H] [AsyncWrite ω] [CodecCrates] [HeaderMap H] [Base64] [Features]
  [AsyncStream σ Req] in
theorem Feeding.of_drained (h : u.Drained) : u.Feeding := by
  rw [Drained] at h
  rw [Feeding]
  cases hstage : u.stage with
  | pulling requests => rw [hstage] at h; exact h.elim
  | sending requests future => rw [hstage] at h; exact h.elim
  | _ => trivial

theorem Feeding.step (h : u.Feeding) (tick : Tick ρ ω H) : (u.step tick).Feeding := by
  by_cases hdrained : u.Drained
  · exact .of_drained (hdrained.step tick).1
  rw [Feeding] at h
  rw [Drained] at hdrained
  cases hstage : u.stage with
  | pulling requests =>
      rw [hstage] at h
      rcases hpoll : AsyncStream.pollNext requests with ⟨_ | _ | message, left⟩
      · rw [step_of_pending hstage hpoll]
        exact h
      · rw [step_of_none hstage hpoll]
        trivial
      · rw [step_of_some hstage hpoll]
        exact ⟨h, message, rfl⟩
  | sending requests future =>
      rw [hstage] at h
      obtain ⟨hopen, message, rfl⟩ := h
      cases hframe : u.call.conn.encodeMessage message with
      | error status =>
          rw [step_of_unencodable hstage hframe]
          trivial
      | ok frame =>
          obtain ⟨call, hstep, hopen', _⟩ := step_of_sent hstage hopen hframe tick
          rw [hstep] at hopen' ⊢
          exact hopen'
  | _ => rw [hstage] at hdrained; exact absurd trivial hdrained

theorem Feeding.run (h : u.Feeding) (ticks : List (Tick ρ ω H)) : (u.run ticks).Feeding := by
  induction ticks generalizing u with
  | nil => exact h
  | cons tick ticks ih => exact ih (h.step tick)

omit [ResponseBody ρ H] [AsyncWrite ω] [HeaderMap H] [Base64] [Features] in
def TakesAtMostOne (u : UnaryAwait ρ ω H Req Resp σ) : Prop :=
  match u.stage with
  | .pulling requests => AtMostOne u.call.conn.encodeMessage requests
  | .sending requests (.start (.send message)) =>
      (∃ status, u.call.conn.encodeMessage message = .error status) ∨
        AtMostOne u.call.conn.encodeMessage requests
  | _ => True

theorem atMostOne_of_run {requests : σ} (hstage : u.stage = .pulling requests) (hopen : u.Open)
    (h : ∀ ticks, (u.run ticks).pulled.length ≤ u.pulled.length + 1) :
    AtMostOne u.call.conn.encodeMessage requests := by
  intro n first more hoffered
  cases hframe : u.call.conn.encodeMessage first with
  | error status => exact Or.inr ⟨status, rfl⟩
  | ok frame =>
      cases more with
      | nil => exact Or.inl rfl
      | cons second more =>
          obtain ⟨ticks, hpulled⟩ := reaches_second hstage hopen hoffered hframe
          have hlength := h ticks
          rw [hpulled, List.length_append, List.length_append] at hlength
          simp at hlength

theorem takesAtMostOne_iff (h : u.Feeding) :
    (∀ ticks, (u.run ticks).pulled.length ≤ u.pulled.length + 1) ↔ u.TakesAtMostOne := by
  by_cases hdrained : u.Drained
  · refine iff_of_true (fun ticks => ?_) ?_
    · rw [hdrained.run ticks]
      exact Nat.le_succ _
    · rw [Drained] at hdrained
      rw [TakesAtMostOne]
      cases hstage : u.stage with
      | sending requests future => rw [hstage] at hdrained; exact hdrained.elim
      | pulling requests => rw [hstage] at hdrained; exact hdrained.elim
      | _ => trivial
  rw [Feeding] at h
  rw [Drained] at hdrained
  rw [TakesAtMostOne]
  cases hstage : u.stage with
  | pulling requests =>
      rw [hstage] at h
      exact ⟨atMostOne_of_run hstage h, fun hone => run_of_atMostOne hstage h hone⟩
  | sending requests future =>
      rw [hstage] at h
      obtain ⟨hopen, message, rfl⟩ := h
      dsimp only
      cases hframe : u.call.conn.encodeMessage message with
      | error status =>
          refine iff_of_true (fun ticks => ?_) (Or.inl ⟨status, rfl⟩)
          rw [run_of_last hstage hopen (Or.inl ⟨status, hframe⟩) ticks]
          exact Nat.le_succ _
      | ok frame =>
          -- The message in hand goes into the body, and the stream decides as before.
          have hstep := fun tick => step_of_sent hstage hopen hframe tick
          rw [or_iff_right (by simp)]
          obtain ⟨call, hidle, hopen', hencode⟩ := hstep idleTick
          constructor
          · intro hruns
            rw [← hencode]
            rw [hidle] at hopen'
            apply atMostOne_of_run (u := { u with call, stage := .pulling requests }) rfl hopen'
            intro ticks
            have hlater := hruns (idleTick :: ticks)
            rw [run_cons, hidle] at hlater
            exact hlater
          · intro hone ticks
            cases ticks with
            | nil => exact Nat.le_succ _
            | cons tick ticks =>
                obtain ⟨call', htick, hopen'', hencode'⟩ := hstep tick
                rw [run_cons]
                rw [htick] at hopen'' ⊢
                rw [← hencode'] at hone
                exact run_of_atMostOne (u := { u with call := call', stage := .pulling requests })
                  rfl hopen'' hone ticks
  | _ => rw [hstage] at hdrained; exact absurd trivial hdrained

/-- `cancel` on some handle of the call. -/
def cancel (u : UnaryAwait ρ ω H Req Resp σ) : UnaryAwait ρ ω H Req Resp σ :=
  { u with call := ⟨u.call.conn, { u.call.world with cancelled := true }⟩ }

omit [ResponseBody ρ H] [AsyncWrite ω] [CodecCrates] [HeaderMap H] [Base64] [Features]
  [AsyncStream σ Req] in
theorem Feeding.cancel (h : u.Feeding) : u.cancel.Feeding := by
  rw [Feeding] at h ⊢
  rw [UnaryAwait.cancel]
  cases hstage : u.stage with
  | pulling requests => rw [hstage] at h; exact h
  | sending requests future => rw [hstage] at h; exact h
  | _ => trivial

end

end UnaryAwait

section

variable [ResponseBody ρ H] [AsyncWrite ω] [CodecCrates] [HeaderMap H] [Base64] [Features]
  [AsyncStream σ Req]

/-- After a cancel and without a deadline, every send is cancelled exactly if every one
races the cancellation; and an awaited client-streaming call takes at most one message
more exactly if there is no more to take. -/
theorem cancel_stops_sends_iff :
    (∀ (s : Call ρ (Logged ω) H Req Resp), s.world.cancelled = true → s.conn.deadline = none →
      ∀ ops, s.Each Call.CancelsSends ops ↔ s.Each Call.RacesSends ops) ∧
    ∀ (c : GrpcClientConn ρ ω H Req Resp) (p : Pending H), c.inner = .pending p →
      p.sendClosed = false → ∀ (requests : σ) (world : World H) (before : List (Tick ρ ω H)),
      ((∀ ticks, ((((UnaryAwait.start ⟨c, some requests, none⟩ world).run before).cancel).run
          ticks).pulled.length ≤
        (((UnaryAwait.start ⟨c, some requests, none⟩ world).run before).cancel).pulled.length + 1) ↔
      (((UnaryAwait.start ⟨c, some requests, none⟩ world).run before).cancel).TakesAtMostOne) := by
  constructor
  · intro s hcancelled hdeadline ops
    apply Call.Each.congr (I := Call.CancelledOnly)
    · intro s op ticks hs
      exact hs.drive op ticks
    · intro s op ticks hs
      exact Call.cancelsSends_iff hs op ticks
    · exact ⟨hcancelled, hdeadline⟩
  · intro c p hinner hclosed requests world before
    have hstart : (UnaryAwait.start ⟨c, some requests, none⟩ world :
        UnaryAwait ρ ω H Req Resp σ).Feeding := ⟨p, hinner, hclosed⟩
    exact UnaryAwait.takesAtMostOne_iff (hstart.run before).cancel

end

/-- A pending full-duplex call over a transport that takes everything. -/
def sinkCall : Call ScriptedBody (Logged SinkScript) HeaderList (List UInt8) (List UInt8) :=
  loggedCall

def cancelledDuplex : Call ScriptedBody (Logged SinkScript) HeaderList (List UInt8) (List UInt8) :=
  ⟨{ sinkCall.conn with
      inner := .duplex ⟨⟨emptyResponse.reader, ⟨emptyResponse.writer, []⟩⟩, empty, .new,
        .identity, none⟩ },
    { sinkCall.world with cancelled := true }⟩

def cancelledPending : Call ScriptedBody (Logged SinkScript) HeaderList (List UInt8) (List UInt8) :=
  ⟨sinkCall.conn, { sinkCall.world with cancelled := true }⟩

theorem offered_empty (n : Nat) :
    offered n (⟨[]⟩ : ItemScript (List UInt8)) = [] :=
  have hpoll : AsyncStream.pollNext (⟨[]⟩ : ItemScript (List UInt8)) = (.ready none, ⟨[]⟩) := rfl
  offered_of_none hpoll n

theorem cancelled_write_stops :
    letI := storedCrates
    letI := standardNoPad
    letI := allFeatures
    cancelledDuplex.Each Call.CancelsSends [(.send [7], [openedTick ⟨[]⟩])] ∧
      ∀ ticks, ((((UnaryAwait.start ⟨plainConn false, some ⟨[(false, [7])]⟩, none⟩
          (World.fresh epoch)).run []).cancel).run ticks :
        UnaryAwait ScriptedBody SinkScript HeaderList (List UInt8) (List UInt8)
          (ItemScript (List UInt8))).pulled.length ≤ 1 := by
  let _ := storedCrates
  let _ := standardNoPad
  let _ := allFeatures
  constructor
  · refine ((cancel_stops_sends_iff (σ := ItemScript (List UInt8))).1 cancelledDuplex rfl rfl
      _).mpr ⟨?_, trivial⟩
    intro message hop _
    cases hop
    trivial
  · apply ((cancel_stops_sends_iff (σ := ItemScript (List UInt8))).2 (plainConn false) _ rfl rfl
      ⟨[(false, [7])]⟩ (.fresh epoch) []).mpr
    intro n first more hoffered
    cases n with
    | zero => cases hoffered
    | succ n =>
        have hpoll : AsyncStream.pollNext (⟨[(false, [7])]⟩ : ItemScript (List UInt8)) =
            (.ready (some [7]), ⟨[]⟩) := rfl
        rw [offered_of_some hpoll, offered_empty] at hoffered
        cases hoffered
        exact Or.inl rfl

/-- A cancelled call that is pending takes a message into its body. -/
theorem cancelled_pending_sends :
    letI := storedCrates
    letI := standardNoPad
    letI := allFeatures
    ¬ cancelledPending.Each Call.CancelsSends [(.send [7], [openedTick ⟨[]⟩])] := by
  let _ := storedCrates
  let _ := standardNoPad
  let _ := allFeatures
  rintro ⟨hcancels, _⟩
  obtain ⟨⟨status, hanswer, _⟩, _⟩ := hcancels [7] rfl (List.cons_ne_nil _ _)
  have hsent : (cancelledPending.drive (.start (.send [7])) [openedTick ⟨[]⟩]).1 =
      some (.unit (.ok ())) := rfl
  rw [hsent] at hanswer
  cases hanswer

end TrilliumGrpc
