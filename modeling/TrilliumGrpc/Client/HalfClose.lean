import TrilliumGrpc.Client.Deferred

/-! # Sends after the half-close

`close_send` marks a pending call, and a call that is live in full duplex has only its
writer closed. What a send then does to the request body and to the writer is read off
a writer that keeps every buffer it is offered.
-/

namespace TrilliumGrpc

open Async HeaderMap Time

variable {ρ ω H Req Resp : Type}

def OpFuture.Silent : OpFuture H Req → Prop
  | .start (.send _) => False
  | .writing _ _ => False
  | _ => True

namespace Call

/-! ## What a call has to send -/

def body (s : Call ρ ω H Req Resp) : List UInt8 :=
  match s.conn.inner with
  | .pending p => p.body
  | _ => []

def offers (s : Call ρ (Logged ω) H Req Resp) : List (List UInt8) :=
  match s.conn.inner with
  | .duplex live => live.reader.writer.offers
  | _ => []

theorem body_of_opened {s : Call ρ ω H Req Resp} (h : ¬ s.conn.inner.IsPending) :
    s.body = [] := by
  unfold body
  split
  · rename_i p hinner
    rw [hinner] at h
    exact absurd trivial h
  · rfl

/-- Nothing was added to the body, and the transport took nothing. -/
def Unsent (s s' : Call ρ ω H Req Resp) : Prop :=
  (s'.body = s.body ∨ s'.body = []) ∧ s'.world.live = s.world.live

theorem Unsent.refl (s : Call ρ ω H Req Resp) : s.Unsent s := ⟨Or.inl rfl, rfl⟩

theorem Unsent.trans {s s' s'' : Call ρ ω H Req Resp} (h : s.Unsent s') (h' : s'.Unsent s'') :
    s.Unsent s'' := by
  refine ⟨?_, h'.2.trans h.2⟩
  rcases h'.1 with hbody | hnil
  · rcases h.1 with hbody' | hnil'
    · exact Or.inl (hbody.trans hbody')
    · exact Or.inr (hbody.trans hnil')
  · exact Or.inr hnil

theorem Unsent.of_opened {s s' : Call ρ ω H Req Resp} (hopened : ¬ s'.conn.inner.IsPending)
    (hlive : s'.world.live = s.world.live) : s.Unsent s' :=
  ⟨Or.inr (body_of_opened hopened), hlive⟩

/-! ## Calls that were half-closed -/

/-- A half-closed call, as long as it is pending, knows that it is. -/
def HalfClosed (s : Call ρ ω H Req Resp) : Prop :=
  ∀ p, s.conn.inner = .pending p → p.sendClosed = true

theorem HalfClosed.of_opened {s : Call ρ ω H Req Resp} (h : ¬ s.conn.inner.IsPending) :
    s.HalfClosed := by
  intro p hinner
  rw [hinner] at h
  exact absurd trivial h

/-- What a poll of anything but a send does: nothing is sent, and a half-close stays. -/
structure Leaves (s : Call ρ ω H Req Resp) (step : OpStep ρ ω H Req Resp) : Prop where
  unsent : s.Unsent step.call
  closed : s.HalfClosed → step.call.HalfClosed
  silent : step.answer = .pending → step.future.Silent

theorem Leaves.after {s s' : Call ρ ω H Req Resp} {step : OpStep ρ ω H Req Resp}
    (h : s'.Leaves step) (hunsent : s.Unsent s') (hclosed : s.HalfClosed → s'.HalfClosed) :
    s.Leaves step :=
  ⟨hunsent.trans h.unsent, fun hs => h.closed (hclosed hs), h.silent⟩

theorem Leaves.finish {s : Call ρ ω H Req Resp} {conn : GrpcClientConn ρ ω H Req Resp}
    {world : World H} (hopened : ¬ conn.inner.IsPending) (hlive : world.live = s.world.live)
    (op : Op Req) (answer : Answer Resp) : s.Leaves (Call.finish ⟨conn, world⟩ op answer) :=
  ⟨.of_opened hopened hlive, fun _ => .of_opened hopened, nofun⟩

theorem Leaves.failed {s : Call ρ ω H Req Resp} {c : GrpcClientConn ρ ω H Req Resp}
    {status : Status} {world : World H} (hlive : world.live = s.world.live) (op : Op Req)
    (answer : Answer Resp) : s.Leaves (Call.finish ⟨c.fail status, world⟩ op answer) :=
  .finish id hlive op answer

theorem Leaves.of_quiet {s : Call ρ ω H Req Resp} {step : OpStep ρ ω H Req Resp}
    (h : Quiet s step.call) (hsilent : step.answer = .pending → step.future.Silent) :
    s.Leaves step :=
  ⟨.of_opened h.opened h.live, fun _ => .of_opened h.opened, hsilent⟩

theorem live_put (w : World H) (o : Opening H) : (w.put o).live = w.live := by
  unfold World.put
  split <;> rfl

section

variable [ResponseBody ρ H] [AsyncWrite ω] [CodecCrates] [HeaderMap H] [Base64] [Features]
variable {s : Call ρ ω H Req Resp}

omit [AsyncWrite ω] [Features] in
theorem Leaves.pollReading (started : Bool) (tick : Tick ρ ω H) :
    s.Leaves (s.pollReading started tick) := by
  by_cases hopened : s.conn.inner.IsPending
  · unfold Call.pollReading
    dsimp only
    cases interrupt s.conn.deadline started (s.world.observe tick.live) tick.live.timer with
    | some status => exact ⟨⟨Or.inl rfl, rfl⟩, id, nofun⟩
    | none =>
        cases hinner : s.conn.inner with
        | pending p =>
            obtain ⟨responseHeaders, trailers, hdone⟩ := s.conn.finishFromTrailers_conn
            simp only [GrpcClientConn.pollRead, hinner, GrpcClientConn.readOutcome, hdone]
            apply finish
            · exact id
            · rfl
        | _ => rw [hinner] at hopened; exact hopened.elim
  · apply of_quiet (Quiet.pollReading hopened started tick)
    intro hpending
    rw [Quiet.pollReading_future hpending]
    trivial

omit [Features] in
theorem Leaves.afterOpen (hopened : ¬ s.conn.inner.IsPending) (op : Op Req)
    (tick : Tick ρ ω H) : s.Leaves (s.afterOpen op tick) := by
  apply of_quiet (Quiet.afterOpen hopened op tick)
  intro hpending
  rcases Quiet.afterOpen_future hpending with ⟨_, hfuture⟩ | ⟨_, hfuture⟩ <;> rw [hfuture] <;>
    trivial

theorem Leaves.pollOpening (op : Op Req) (o : Opening H) (started : Bool) (tick : Tick ρ ω H) :
    s.Leaves (s.pollOpening op o started tick) := by
  unfold Call.pollOpening
  dsimp only
  cases interrupt s.conn.deadline started (s.world.observe tick.opening) tick.opening.timer with
  | some status => exact .failed (by rfl) _ _
  | none =>
      cases tick.net with
      | connecting => exact ⟨⟨Or.inl rfl, rfl⟩, id, fun _ => trivial⟩
      | sent => exact ⟨⟨Or.inl rfl, live_put _ _⟩, id, fun _ => trivial⟩
      | refused e => exact .failed (by rfl) _ _
      | broken e => exact .failed (by exact live_put _ _) _ _
      | response r =>
          dsimp only
          cases processHead r with
          | error status => exact .failed (by exact live_put _ _) _ _
          | ok head =>
              have hopened := (goLive_encodeMessage s.conn r head).2
              exact (Leaves.afterOpen hopened op tick).after (.of_opened hopened (live_put _ _))
                fun _ => .of_opened hopened

theorem Leaves.materialize {p : Pending H} (hinner : s.conn.inner = .pending p) (op : Op Req)
    (tick : Tick ρ ω H) : s.Leaves (s.materialize p op tick) := by
  unfold Call.materialize
  cases s.conn.initError with
  | some status => exact .failed (by rfl) _ _
  | none =>
      refine (Leaves.pollOpening op _ false tick).after ⟨Or.inr rfl, rfl⟩ ?_
      intro hclosed p' hp'
      cases hp'
      exact hclosed p hinner

omit [CodecCrates] [ResponseBody ρ H] [HeaderMap H] [Base64] [Features] in
theorem Leaves.pollClosing (live : Live (Duplex ρ ω) H) :
    s.Leaves (s.pollClosing live) := by
  apply of_quiet (Quiet.pollClosing s live)
  intro hpending
  rw [Quiet.pollClosing_future hpending]
  trivial

omit [AsyncWrite ω] [Features] in
theorem Leaves.deliver (hopened : ¬ s.conn.inner.IsPending) (tick : Tick ρ ω H) :
    s.Leaves (s.deliver tick) := by
  apply of_quiet (Quiet.deliver hopened tick)
  intro hpending
  rw [Quiet.deliver_future hpending]
  trivial

theorem Leaves.startClose (tick : Tick ρ ω H) : s.Leaves (s.startClose tick) := by
  unfold Call.startClose
  cases hinner : s.conn.inner with
  | pending p =>
      refine (Leaves.materialize rfl .closeSend tick).after ⟨Or.inl ?_, rfl⟩ ?_
      · simp only [body, hinner]
      · intro _ p' hp'
        cases hp'
        rfl
  | duplex live => exact .pollClosing live
  | _ => exact ⟨.refl s, id, nofun⟩

theorem startClose_closed (tick : Tick ρ ω H) : (s.startClose tick).call.HalfClosed := by
  unfold Call.startClose
  cases hinner : s.conn.inner with
  | pending p =>
      apply (Leaves.materialize rfl .closeSend tick).closed
      intro p' hp'
      cases hp'
      rfl
  | duplex live => exact .of_opened (Quiet.pollClosing s live).opened
  | _ => exact .of_opened (by simp only [finish, hinner]; exact id)

theorem Leaves.startOpenHead (tick : Tick ρ ω H) : s.Leaves (s.startOpenHead tick) := by
  unfold Call.startOpenHead
  cases hinner : s.conn.inner with
  | pending p => exact .materialize hinner .openHead tick
  | _ => exact ⟨.refl s, id, nofun⟩

theorem Leaves.startRecv (tick : Tick ρ ω H) : s.Leaves (s.startRecv tick) := by
  unfold Call.startRecv
  cases hinner : s.conn.inner with
  | pending p => exact .materialize hinner .recv tick
  | _ => exact .deliver (by rw [hinner]; exact id) tick

theorem Leaves.poll {future : OpFuture H Req} (h : future.Silent) (tick : Tick ρ ω H) :
    s.Leaves (s.poll tick future) := by
  cases future with
  | start op =>
      cases op with
      | send message => exact h.elim
      | closeSend => exact .startClose tick
      | openHead => exact .startOpenHead tick
      | recv => exact .startRecv tick
  | opening op o => exact .pollOpening op o true tick
  | reading => exact .pollReading true tick
  | writing frame left => exact h.elim
  | closing =>
      rw [Call.poll]
      cases hinner : s.conn.inner with
      | duplex live => exact .pollClosing live
      | _ => exact ⟨.refl s, id, fun _ => trivial⟩

theorem drive_silent {future : OpFuture H Req} (h : future.Silent) (ticks : List (Tick ρ ω H)) :
    s.Unsent (s.drive future ticks).2.1 ∧
      (s.HalfClosed → (s.drive future ticks).2.1.HalfClosed) := by
  induction ticks generalizing s future with
  | nil => exact ⟨.refl s, id⟩
  | cons tick ticks ih =>
      obtain ⟨hunsent, hclosed, hsilent⟩ := Leaves.poll (s := s) h tick
      rw [drive]
      rcases hpoll : s.poll tick future with ⟨_ | answer, s', future'⟩
      · rw [hpoll] at hunsent hclosed hsilent
        obtain ⟨hunsent', hclosed'⟩ := ih (s := s') (hsilent rfl)
        exact ⟨hunsent.trans hunsent', fun hs => hclosed' (hclosed hs)⟩
      · rw [hpoll] at hunsent hclosed
        exact ⟨hunsent, hclosed⟩

theorem drive_close (tick : Tick ρ ω H) (ticks : List (Tick ρ ω H)) :
    (s.drive (.start .closeSend) (tick :: ticks)).2.1.HalfClosed := by
  have hclosed := s.startClose_closed tick
  have hsilent := (Leaves.startClose (s := s) tick).silent
  rw [drive, poll]
  rcases hpoll : s.startClose tick with ⟨_ | answer, s', future'⟩
  · rw [hpoll] at hclosed hsilent
    exact (drive_silent (hsilent rfl) ticks).2 hclosed
  · rw [hpoll] at hclosed
    exact hclosed

end

/-! ## Sends -/

section

variable [ResponseBody ρ H] [AsyncWrite ω] [CodecCrates] [HeaderMap H] [Base64] [Features]
variable {s : Call ρ (Logged ω) H Req Resp}

/-- A send that does not reach the writer: its message does not encode, the call is not
live in full duplex, or its race is lost before the write is polled. -/
def Refuses (s : Call ρ ω H Req Resp) (message : Req) (tick : Tick ρ ω H) : Prop :=
  match s.conn.encodeMessage message, s.conn.inner with
  | .ok _, .duplex _ =>
      interrupt s.conn.deadline false (s.world.observe tick.live) tick.live.timer ≠ none
  | _, _ => True

/-- The send gives an error, and neither the body nor the writer gets anything. -/
def SendsNothing (s : Call ρ (Logged ω) H Req Resp) (message : Req)
    (ticks : List (Tick ρ (Logged ω) H)) : Prop :=
  (∃ status, (s.drive (.start (.send message)) ticks).1 = some (.unit (.error status))) ∧
    (s.drive (.start (.send message)) ticks).2.1.body = s.body ∧
    (s.drive (.start (.send message)) ticks).2.1.offers = s.offers

omit [ResponseBody ρ H] [HeaderMap H] [Base64] [Features] [AsyncWrite ω] in
theorem encodeMessage_ne_nil {c : GrpcClientConn ρ ω H Req Resp} {message : Req}
    {bytes : List UInt8} (h : c.encodeMessage message = .ok bytes) : bytes ≠ [] := by
  obtain ⟨flag, payload, rfl⟩ := encodeFrame_ok h
  exact List.cons_ne_nil _ _

omit [ResponseBody ρ H] [CodecCrates] [HeaderMap H] [Base64] [Features] in
theorem offers_pollWriting (live : Live (Duplex ρ (Logged ω)) H) (frame left : List UInt8)
    (started : Bool) (tick : Tick ρ (Logged ω) H) (hinner : s.conn.inner = .duplex live) :
    ∃ live' more, (s.pollWriting live frame left started tick).call.conn.inner = .duplex live' ∧
      live'.reader.writer.offers = live.reader.writer.offers ++ more ∧
      (interrupt s.conn.deadline started (s.world.observe tick.live) tick.live.timer = none →
        left ≠ [] → more ≠ []) := by
  unfold pollWriting
  dsimp only
  cases hrace : interrupt s.conn.deadline started (s.world.observe tick.live) tick.live.timer with
  | some status => exact ⟨live, [], hinner, (List.append_nil _).symm, nofun⟩
  | none =>
      obtain ⟨more, hmore, hne⟩ := live.reader.writer.offers_writeAll left
      dsimp only
      split <;> exact ⟨_, more, rfl, hmore, fun _ => hne⟩

theorem offers_drive (live : Live (Duplex ρ (Logged ω)) H) (frame left : List UInt8)
    (ticks : List (Tick ρ (Logged ω) H)) (hinner : s.conn.inner = .duplex live) :
    ∃ live' more, (s.drive (.writing frame left) ticks).2.1.conn.inner = .duplex live' ∧
      live'.reader.writer.offers = live.reader.writer.offers ++ more := by
  induction ticks generalizing s live left with
  | nil => exact ⟨live, [], hinner, (List.append_nil _).symm⟩
  | cons tick ticks ih =>
      obtain ⟨live', more, hinner', hmore, _⟩ :=
        s.offers_pollWriting live frame left true tick hinner
      obtain ⟨left', hfuture⟩ := s.pollWriting_future live frame left true tick
      rw [drive, poll, hinner]
      dsimp only
      rcases hpoll : s.pollWriting live frame left true tick with ⟨_ | answer, s', future'⟩ <;>
        rw [hpoll] at hinner' hfuture <;> dsimp only at hinner' hfuture ⊢
      · obtain ⟨live'', more', hinner'', hmore'⟩ := ih live' left' hinner'
        rw [hfuture]
        exact ⟨live'', more ++ more', hinner'', by rw [hmore', hmore, List.append_assoc]⟩
      · exact ⟨live', more, hinner', hmore⟩

/-- A send on a live call offers its frame at its first poll, unless that is interrupted. -/
theorem offers_send {live : Live (Duplex ρ (Logged ω)) H} {message : Req} {bytes : List UInt8}
    (hinner : s.conn.inner = .duplex live) (hframe : s.conn.encodeMessage message = .ok bytes)
    (tick : Tick ρ (Logged ω) H) (ticks : List (Tick ρ (Logged ω) H)) :
    ∃ live' more, (s.drive (.start (.send message)) (tick :: ticks)).2.1.conn.inner =
        .duplex live' ∧ live'.reader.writer.offers = live.reader.writer.offers ++ more ∧
      (s.Refuses message tick ∨ more ≠ []) := by
  obtain ⟨live', more, hinner', hmore, hne⟩ :=
    s.offers_pollWriting live bytes bytes false tick hinner
  obtain ⟨left', hfuture⟩ := s.pollWriting_future live bytes bytes false tick
  have hoffered : s.Refuses message tick ∨ more ≠ [] := by
    rw [Refuses, hframe, hinner]
    by_cases hrace : interrupt s.conn.deadline false (s.world.observe tick.live)
        tick.live.timer = none
    · exact Or.inr (hne hrace (encodeMessage_ne_nil hframe))
    · exact Or.inl hrace
  rw [drive, poll, startSend, hframe, hinner]
  dsimp only
  rcases hpoll : s.pollWriting live bytes bytes false tick with ⟨_ | answer, s', future'⟩ <;>
    rw [hpoll] at hinner' hfuture <;> dsimp only at hinner' hfuture ⊢
  · obtain ⟨live'', more', hinner'', hmore'⟩ := offers_drive live' bytes left' ticks hinner'
    rw [hfuture]
    refine ⟨live'', more ++ more', hinner'', by rw [hmore', hmore, List.append_assoc], ?_⟩
    exact hoffered.imp_right fun hne' => List.append_ne_nil_of_left_ne_nil hne' _
  · exact ⟨live', more, hinner', hmore, hoffered⟩

theorem send_refused (hclosed : s.HalfClosed) {message : Req} {tick : Tick ρ (Logged ω) H}
    (h : s.Refuses message tick) : ∃ status world,
      (s.poll tick (.start (.send message))).answer = .ready (.unit (.error status)) ∧
      (s.poll tick (.start (.send message))).call = ⟨s.conn, world⟩ ∧
      world.live = s.world.live := by
  rw [poll, startSend]
  cases hframe : s.conn.encodeMessage message with
  | error status => exact ⟨status, s.world, rfl, rfl, rfl⟩
  | ok bytes =>
      cases hinner : s.conn.inner with
      | pending p =>
          dsimp only
          rw [if_pos (hclosed p hinner)]
          exact ⟨_, s.world, rfl, rfl, rfl⟩
      | duplex live =>
          rw [Refuses, hframe, hinner] at h
          obtain ⟨status, hrace⟩ := Option.ne_none_iff_exists'.mp h
          simp only [pollWriting, hrace]
          exact ⟨status, _, rfl, rfl, rfl⟩
      | _ => exact ⟨_, s.world, rfl, rfl, rfl⟩

theorem drive_refused (hclosed : s.HalfClosed) {message : Req} {tick : Tick ρ (Logged ω) H}
    (h : s.Refuses message tick) (ticks : List (Tick ρ (Logged ω) H)) :
    s.SendsNothing message (tick :: ticks) ∧
      s.Unsent (s.drive (.start (.send message)) (tick :: ticks)).2.1 := by
  obtain ⟨status, world, hanswer, hcall, hlive⟩ := send_refused hclosed h
  obtain ⟨hdrive, hafter⟩ := drive_of_ready hanswer ticks
  rw [hcall] at hafter
  refine ⟨⟨⟨status, hdrive⟩, ?_, ?_⟩, ?_⟩
  · rw [hafter]
    rfl
  · rw [hafter]
    rfl
  · rw [hafter]
    exact ⟨Or.inl rfl, hlive⟩

theorem sendsNothing_iff (hclosed : s.HalfClosed) (message : Req) (tick : Tick ρ (Logged ω) H)
    (ticks : List (Tick ρ (Logged ω) H)) :
    s.SendsNothing message (tick :: ticks) ↔ s.Refuses message tick := by
  constructor
  · rintro ⟨_, _, hoffers⟩
    cases hframe : s.conn.encodeMessage message with
    | error status => rw [Refuses, hframe]; trivial
    | ok bytes =>
        cases hinner : s.conn.inner with
        | duplex live =>
            obtain ⟨live', more, hinner', hmore, hoffered⟩ := offers_send hinner hframe tick ticks
            rw [offers, offers, hinner', hinner] at hoffers
            dsimp only at hoffers
            rw [hmore] at hoffers
            exact hoffered.resolve_right fun hne => hne (List.append_right_eq_self.mp hoffers)
        | _ => rw [Refuses, hframe, hinner]; trivial
  · intro h
    exact (drive_refused hclosed h ticks).1

omit [ResponseBody ρ H] [AsyncWrite ω] [HeaderMap H] [Base64] [Features] in
theorem Refuses.of_not_live {message : Req} {tick : Tick ρ (Logged ω) H}
    (h : ¬ ∃ live bytes, s.conn.inner = .duplex live ∧ s.conn.encodeMessage message = .ok bytes) :
    s.Refuses message tick := by
  rw [Refuses]
  cases hframe : s.conn.encodeMessage message with
  | error status => trivial
  | ok bytes =>
      cases hinner : s.conn.inner with
      | duplex live => exact absurd ⟨live, bytes, hinner, hframe⟩ h
      | _ => trivial

/-- A half-close stays over every operation. -/
theorem drive_closed (hclosed : s.HalfClosed) (op : Op Req)
    (ticks : List (Tick ρ (Logged ω) H)) : (s.drive (.start op) ticks).2.1.HalfClosed := by
  match op, ticks with
  | .send message, [] => exact hclosed
  | .send message, tick :: ticks =>
      by_cases hwrites : ∃ live bytes, s.conn.inner = .duplex live ∧
          s.conn.encodeMessage message = .ok bytes
      · obtain ⟨live, bytes, hinner, hframe⟩ := hwrites
        obtain ⟨live', _, hinner', _⟩ := offers_send hinner hframe tick ticks
        exact .of_opened (by rw [hinner']; exact id)
      · obtain ⟨status, world, hanswer, hcall, _⟩ := send_refused hclosed (.of_not_live hwrites)
        rw [(drive_of_ready hanswer ticks).2, hcall]
        exact hclosed
  | .closeSend, ticks =>
      have hsilent : (OpFuture.start .closeSend : OpFuture H Req).Silent := trivial
      exact (drive_silent hsilent ticks).2 hclosed
  | .openHead, ticks =>
      have hsilent : (OpFuture.start .openHead : OpFuture H Req).Silent := trivial
      exact (drive_silent hsilent ticks).2 hclosed
  | .recv, ticks =>
      have hsilent : (OpFuture.start .recv : OpFuture H Req).Silent := trivial
      exact (drive_silent hsilent ticks).2 hclosed

end

/-! ## Runs -/

section

variable [ResponseBody ρ H] [AsyncWrite ω] [CodecCrates] [HeaderMap H] [Base64] [Features]

def Each (P : Call ρ ω H Req Resp → Op Req → List (Tick ρ ω H) → Prop) :
    Call ρ ω H Req Resp → List (Op Req × List (Tick ρ ω H)) → Prop
  | _, [] => True
  | s, (op, ticks) :: rest => P s op ticks ∧ Each P (s.drive (.start op) ticks).2.1 rest

theorem Each.congr {P Q : Call ρ ω H Req Resp → Op Req → List (Tick ρ ω H) → Prop}
    {I : Call ρ ω H Req Resp → Prop}
    (hstep : ∀ {s} op ticks, I s → I (s.drive (.start op) ticks).2.1)
    (hiff : ∀ {s} op ticks, I s → (P s op ticks ↔ Q s op ticks))
    (ops : List (Op Req × List (Tick ρ ω H))) {s : Call ρ ω H Req Resp} (h : I s) :
    s.Each P ops ↔ s.Each Q ops := by
  induction ops generalizing s with
  | nil => exact Iff.rfl
  | cons entry rest ih =>
      obtain ⟨op, ticks⟩ := entry
      exact and_congr (hiff op ticks h) (ih (hstep op ticks h))

/-- Nothing is added to the body or taken by the transport, and a send that is polled
gives an error without offering anything. -/
def NothingMore (s : Call ρ (Logged ω) H Req Resp) (op : Op Req)
    (ticks : List (Tick ρ (Logged ω) H)) : Prop :=
  s.Unsent (s.drive (.start op) ticks).2.1 ∧
    ∀ message, op = .send message → ticks ≠ [] → s.SendsNothing message ticks

def RefusesSends (s : Call ρ ω H Req Resp) (op : Op Req) (ticks : List (Tick ρ ω H)) : Prop :=
  ∀ message tick rest, op = .send message → ticks = tick :: rest → s.Refuses message tick

theorem nothingMore_iff {s : Call ρ (Logged ω) H Req Resp} (op : Op Req)
    (ticks : List (Tick ρ (Logged ω) H)) (hclosed : s.HalfClosed) :
    s.NothingMore op ticks ↔ s.RefusesSends op ticks := by
  have hsilent : (OpFuture.start op : OpFuture H Req).Silent →
      (∀ message, op ≠ .send message) → (s.NothingMore op ticks ↔ s.RefusesSends op ticks) := by
    intro hsilent hop
    exact iff_of_true ⟨(drive_silent hsilent ticks).1, fun message h => absurd h (hop message)⟩
      fun message _ _ h => absurd h (hop message)
  match op, ticks with
  | .send message, [] =>
      refine iff_of_true ⟨.refl s, fun _ _ h => absurd rfl h⟩ ?_
      intro _ _ _ _ hticks
      cases hticks
  | .send message, tick :: ticks =>
      constructor
      · rintro ⟨_, hnothing⟩ message' tick' rest hop hticks
        cases hop
        cases hticks
        exact (sendsNothing_iff hclosed message tick ticks).mp
          (hnothing message rfl (List.cons_ne_nil _ _))
      · intro hrefuses
        obtain ⟨hnothing, hunsent⟩ :=
          drive_refused hclosed (hrefuses message tick ticks rfl rfl) ticks
        refine ⟨hunsent, ?_⟩
        intro message' hop _
        cases hop
        exact hnothing
  | .closeSend, ticks => exact hsilent trivial nofun
  | .openHead, ticks => exact hsilent trivial nofun
  | .recv, ticks => exact hsilent trivial nofun

end

end Call

section

variable [ResponseBody ρ H] [AsyncWrite ω] [CodecCrates] [HeaderMap H] [Base64] [Features]

/-- From any call and run, nothing is sent after a `close_send` that was polled exactly
if every later send that is polled is refused. -/
theorem nothing_sent_after_close_iff (s : Call ρ (Logged ω) H Req Resp)
    (before : List (Op Req × List (Tick ρ (Logged ω) H))) (tick : Tick ρ (Logged ω) H)
    (ticks : List (Tick ρ (Logged ω) H)) (later : List (Op Req × List (Tick ρ (Logged ω) H))) :
    ((s.run before).2.drive (.start .closeSend) (tick :: ticks)).2.1.Each Call.NothingMore later ↔
      ((s.run before).2.drive (.start .closeSend) (tick :: ticks)).2.1.Each Call.RefusesSends
        later := by
  apply Call.Each.congr (I := Call.HalfClosed)
  · intro s op ticks hclosed
    exact Call.drive_closed hclosed op ticks
  · intro s op ticks hclosed
    exact Call.nothingMore_iff op ticks hclosed
  · exact Call.drive_close tick ticks

end

/-- A stream that takes everything until it is closed, and refuses it from then on. -/
structure ClosingStream where
  closed : Bool

instance : AsyncWrite ClosingStream where
  pollWrite w buf :=
    (.ready (bif w.closed then .error "stream closed" else .ok (Fin.last buf.length)), w)
  pollClose _ := (.ready (.ok ()), ⟨true⟩)

def loggedCall : Call ScriptedBody (Logged ω) HeaderList (List UInt8) (List UInt8) :=
  ⟨{ inner := .pending ⟨empty, "/chat", "application/grpc+proto", .new, [], false⟩
     decode := .ok
     encode := .ok
     outboundEncoding := .identity
     maxMessageSize := defaultMaxMessageSize
     fullDuplex := true
     deadline := none
     initError := none }, .fresh epoch⟩

def openedTick (writer : ω) : Tick ScriptedBody (Logged ω) HeaderList :=
  ⟨epoch, ⟨false, epoch, false⟩,
    .response ⟨emptyResponse.status, emptyResponse.headers, emptyResponse.reader,
      ⟨writer, []⟩⟩,
    ⟨false, epoch, false⟩⟩

/-- A full-duplex call is opened and half-closed, and a send hands its frame to the transport
all the same, though that has been closed and refuses it. -/
theorem send_after_close_written :
    letI := storedCrates
    letI := standardNoPad
    letI := allFeatures
    let tick := openedTick (⟨false⟩ : ClosingStream)
    ¬ ((loggedCall.run []).2.drive (.start .closeSend) [tick]).2.1.Each Call.NothingMore
      [(.send [7], [tick])] := by
  let _ := storedCrates
  let _ := standardNoPad
  let _ := allFeatures
  intro tick
  rintro ⟨⟨_, hnothing⟩, _⟩
  obtain ⟨_, _, hoffers⟩ := hnothing [7] rfl (List.cons_ne_nil _ _)
  have hbefore : ((loggedCall.run []).2.drive (.start .closeSend) [tick]).2.1.offers = [] := rfl
  have hoffered : (((loggedCall.run []).2.drive (.start .closeSend) [tick]).2.1.drive
      (.start (.send [7])) [tick]).2.1.offers = [frame 0 [7]] := rfl
  rw [hbefore, hoffered] at hoffers
  cases hoffers

end TrilliumGrpc
