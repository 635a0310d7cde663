import TrilliumGrpc.Client.Receiving

/-! # The verdict on a response

What the caller of an arbitrary response is told. A status in the head only counts
behind a body without messages and trailers without a status of their own.
-/

namespace TrilliumGrpc

open Async ByteSource HeaderMap Time

/-! ## Items of a body -/

section

variable {T : Type} [CodecCrates]

theorem parse_shape (cfg : ReadConfig T) (fault : Option String) (bytes : List UInt8) :
    ∃ (messages : List T) (failure : Option Status), parse cfg fault bytes =
      messages.map (fun m => some (.ok m)) ++ [failure.map .error] := by
  fun_induction parse cfg fault bytes with
  | case1 bytes h => exact ⟨[], none, rfl⟩
  | case2 bytes status h => exact ⟨[], some status, rfl⟩
  | case3 bytes status rest h => exact ⟨[], some status, rfl⟩
  | case4 bytes message rest h ih =>
      obtain ⟨messages, failure, hrest⟩ := ih
      exact ⟨message :: messages, failure, by rw [hrest]; rfl⟩

end

/-! ## What the caller is told -/

section

variable {ρ ω H Req Resp : Type} [HeaderMap H] [Base64]

/-- The end of a body without messages behind a head with a status. -/
def trailersOnlyEnd (headers trailers : H) (failure : Option Status) :
    Except Status (Option Resp) :=
  match failure with
  | some status => .error status
  | none =>
      if (getStr trailers "grpc-status").isSome then closing trailers else closing headers

/-- The messages that are delivered, and how the call ends, by the head's headers, the
messages of the body with the error that ends them, and the trailers. -/
def verdict (headers trailers : H) (messages : List Resp) (failure : Option Status) :
    List Resp × Except Status (Option Resp) :=
  if (getStr headers "grpc-status").isSome then
    match messages with
    | _ :: _ => ([], .error trailersOnlyBody)
    | [] => ([], trailersOnlyEnd headers trailers failure)
  else
    match failure with
    | some status => (messages, .error status)
    | none => (messages, closing trailers)

theorem closing_of_zero {trailers : H} (h : getStr trailers "grpc-status" = some "0") :
    (closing trailers : Except Status (Option Resp)) = .ok none := by
  have hcode : Status.trailersCode trailers = .ok := by
    rw [Status.trailersCode, h]
    decide
  rw [closing, Status.fromTrailers, if_pos hcode]
  rfl

theorem closing_of_absent {trailers : H} (h : getStr trailers "grpc-status" = none) :
    ∃ status, (closing trailers : Except Status (Option Resp)) = .error status ∧
      status.code = .unknown := by
  have hcode : Status.trailersCode trailers = .unknown := by
    rw [Status.trailersCode, h]
    rfl
  have hne : ¬ Status.trailersCode trailers = .ok := by
    rw [hcode]
    decide
  rw [closing, Status.fromTrailers, if_neg hne]
  exact ⟨_, rfl, hcode⟩

theorem verdict_cons {headers : H} (h : (getStr headers "grpc-status").isSome = false)
    (trailers : H) (m : Resp) (messages : List Resp) (failure : Option Status) :
    verdict headers trailers (m :: messages) failure =
      (m :: (verdict headers trailers messages failure).1,
        (verdict headers trailers messages failure).2) := by
  simp only [verdict, h, Bool.false_eq_true, if_false]
  cases failure <;> rfl

theorem verdict_refused {headers : H} (h : (getStr headers "grpc-status").isSome = true)
    (trailers : H) (m : Resp) (messages : List Resp) (failure : Option Status) :
    verdict headers trailers (m :: messages) failure = ([], .error trailersOnlyBody) := by
  simp only [verdict, h, if_true]

theorem verdict_failed (headers trailers : H) (status : Status) :
    verdict headers trailers ([] : List Resp) (some status) = ([], .error status) := by
  rw [verdict, trailersOnlyEnd]
  split <;> rfl

/-- A head with its status read off it, as an accepted response has it. -/
def Head.Accepted (head : Head H) : Prop :=
  head.headStatus = if (getStr head.responseHeaders "grpc-status").isSome then
    some (Status.fromTrailers head.responseHeaders) else none

theorem Head.Accepted.verdict_ended {head : Head H} (h : head.Accepted) (trailers : H) :
    verdict head.responseHeaders trailers ([] : List Resp) none =
      ([], (head.finalStatus trailers).map (fun _ => none)) := by
  rw [verdict, trailersOnlyEnd, Head.finalStatus, h]
  cases getStr head.responseHeaders "grpc-status" with
  | none => cases getStr trailers "grpc-status" <;> rfl
  | some code => cases getStr trailers "grpc-status" <;> rfl

/-- What an accepted head is of its response. -/
theorem processHead_ok [Features] {r : Response ρ ω H} {head : Head H}
    (h : processHead r = .ok head) : head.responseHeaders = r.headers ∧ head.Accepted := by
  unfold processHead at h
  dsimp only at h
  split at h
  · cases h
  · split at h
    · cases h
    · cases hname : getStr r.headers "grpc-encoding" with
      | none =>
          rw [hname] at h
          cases h
          exact ⟨rfl, rfl⟩
      | some name =>
          rw [hname] at h
          dsimp only at h
          cases hencoding : Encoding.fromGrpcEncoding name with
          | none =>
              rw [hencoding] at h
              cases h
          | some encoding =>
              rw [hencoding] at h
              cases h
              exact ⟨rfl, rfl⟩

/-! ## Any response -/

variable [EndingSource ρ H] [AsyncWrite ω] [CodecCrates] [Features] {cfg : ReadConfig Resp}
  {head : Head H} {writer : Option ω} {v : ρ × ReadState} {messages : List Resp}
  {failure : Option Status} {trailers : Option H}

/-- The items that the source still has to give, and the trailers behind them. -/
structure Remaining (cfg : ReadConfig Resp) (messages : List Resp) (failure : Option Status)
    (trailers : Option H) (v : ρ × ReadState) : Prop where
  items : (ahead cfg v).follow cfg (fault v.1) =
    messages.map (fun m => some (.ok m)) ++ [failure.map .error]
  unfinished : v.2 ≠ .done
  behind : EndingSource.behind v.1 = trailers

def RemainingStep (cfg : ReadConfig Resp) (messages : List Resp) (failure : Option Status)
    (trailers : Option H) (v : ρ × ReadState) :
    Poll (Option (Except Status Resp)) × (ρ × ReadState) → Prop
  | (.pending, v') => Remaining cfg messages failure trailers v' ∧ Advanced v'.1 v.1
  | (.ready (some (.ok message)), v') => ∃ messages', messages = message :: messages' ∧
      Remaining cfg messages' failure trailers v'
  | (.ready (some (.error status)), _) => messages = [] ∧ failure = some status
  | (.ready none, v') => messages = [] ∧ failure = none ∧ ResponseBody.trailers v'.1 = trailers

omit [HeaderMap H] [Base64] [AsyncWrite ω] [Features] in
theorem Remaining.step (h : Remaining cfg messages failure trailers v) :
    RemainingStep cfg messages failure trailers v (readPoll cfg v) := by
  have hyields := readPoll_yields (ρ := ρ) cfg
  cases hp : readPoll cfg v with
  | mk answer v' =>
      obtain ⟨hsame, hend⟩ := EndingSource.readPoll_behind h.unfinished hp
      rcases answer with _ | (_ | message)
      · obtain ⟨hitems, hadv⟩ := hyields.pending h.items.symm hp
        exact ⟨⟨hitems.symm, (readPoll_pending hp).2.1, hsame.trans h.behind⟩, hadv⟩
      · have hitems := hyields.ended h.items.symm hp
        cases messages with
        | nil =>
            cases failure with
            | none => exact ⟨rfl, rfl, (hend rfl).trans h.behind⟩
            | some status => simp at hitems
        | cons m messages => simp at hitems
      · obtain ⟨later, hitems, hlater⟩ := hyields.item h.items.symm hp
        cases messages with
        | nil =>
            cases failure with
            | none => simp at hitems
            | some status =>
                simp only [List.map_nil, List.nil_append, Option.map_some, List.cons.injEq,
                  Option.some.injEq] at hitems
                obtain ⟨rfl, _⟩ := hitems
                exact ⟨rfl, rfl⟩
        | cons m messages =>
            simp only [List.map_cons, List.cons_append, List.cons.injEq,
              Option.some.injEq] at hitems
            obtain ⟨rfl, rfl⟩ := hitems
            rw [isErr, if_neg Bool.false_ne_true] at hlater
            refine ⟨messages, rfl, hlater.symm, ?_, hsame.trans h.behind⟩
            obtain ⟨_, ⟨status, _, herror, _⟩ | ⟨_, hnew⟩⟩ := readPoll_some hp
            · cases herror
            · rw [hnew]
              simp [ReadState.new]

/-- Finitely many polls lead to the next answer, and what follows it is assumed. -/
theorem Head.Accepted.serves_of_later (hhead : head.Accepted)
    (hlater : ∀ m messages' (v' : ρ × ReadState), messages = m :: messages' →
      Remaining cfg messages' failure trailers v' →
      Serves (fun v (s : Call ρ ω H Req Resp) => s.Receiving cfg head writer v)
        (fun s => s.Ended head.responseHeaders)
        (verdict head.responseHeaders (trailers.getD empty) messages' failure).2
        (verdict head.responseHeaders (trailers.getD empty) messages' failure).1 v')
    (hv : Remaining cfg messages failure trailers v) :
    Serves (fun v (s : Call ρ ω H Req Resp) => s.Receiving cfg head writer v)
      (fun s => s.Ended head.responseHeaders)
      (verdict head.responseHeaders (trailers.getD empty) messages failure).2
      (verdict head.responseHeaders (trailers.getD empty) messages failure).1 v := by
  have hwf : WellFounded (fun v' v : ρ × ReadState => Advanced v'.1 v.1) :=
    InvImage.wf Prod.fst advanced_wf
  induction v using hwf.induction with
  | h v ih =>
      have hstep := hv.step
      cases hp : readPoll cfg v with
      | mk answer v' =>
          rw [hp] at hstep
          -- what the poll of any call that stands here comes to
          have hpoll : ∀ (s : Call ρ ω H Req Resp) tick, s.Receiving cfg head writer v →
              tick.live.cancel = false →
                head.RecvStep cfg writer (s.poll tick (.start .recv)) (answer, v') := by
            intro s tick hs hquiet
            rw [← hp]
            exact hs.poll hquiet
          rcases answer with _ | (_ | (status | message))
          · obtain ⟨hnext, hadv⟩ := hstep
            exact .later hpoll (ih v' hadv hnext)
          · obtain ⟨rfl, rfl, htrailers⟩ := hstep
            rw [hhead.verdict_ended, ← htrailers]
            exact .last hpoll
          · obtain ⟨rfl, rfl⟩ := hstep
            rw [verdict_failed]
            exact .last hpoll
          · obtain ⟨messages', rfl, hnext⟩ := hstep
            cases hsome : (getStr head.responseHeaders "grpc-status").isSome with
            | false =>
                have hnone : head.headStatus = none := by
                  rw [hhead, hsome]
                  rfl
                rw [verdict_cons hsome]
                apply Serves.message _ (hlater message messages' v' rfl hnext)
                intro s tick hs hquiet
                exact (hpoll s tick hs hquiet).1 hnone
            | true =>
                have hstatus : head.headStatus.isSome = true := by
                  rw [hhead, hsome]
                  rfl
                rw [verdict_refused hsome]
                apply Serves.last
                intro s tick hs hquiet
                exact (hpoll s tick hs hquiet).2 hstatus

theorem Head.Accepted.serves (hhead : head.Accepted)
    (hv : Remaining cfg messages failure trailers v) :
    Serves (fun v (s : Call ρ ω H Req Resp) => s.Receiving cfg head writer v)
      (fun s => s.Ended head.responseHeaders)
      (verdict head.responseHeaders (trailers.getD empty) messages failure).2
      (verdict head.responseHeaders (trailers.getD empty) messages failure).1 v := by
  induction messages generalizing v with
  | nil => exact hhead.serves_of_later (fun _ _ _ h => by simp at h) hv
  | cons m messages ih =>
      apply hhead.serves_of_later _ hv
      intro m' messages' v' h hv'
      obtain ⟨rfl, rfl⟩ := List.cons.inj h
      exact ih hv'

/-- The `recv` that gets a call its head goes on as one of the live call. -/
theorem Call.pollOpening_recv {c : GrpcClientConn ρ ω H Req Resp} (hdeadline : c.deadline = none)
    {r : Response ρ ω H} {head : Head H} (hhead : processHead r = .ok head) {w : World H}
    (hw : w.cancelled = false) (o : Opening H) (started : Bool) {tick : Tick ρ ω H}
    (hquiet : tick.opening.cancel = false) (hnet : tick.net = .response r) :
    (⟨c, w⟩ : Call ρ ω H Req Resp).pollOpening .recv o started tick =
      (⟨c.goLive r head, (w.observe tick.opening).put o⟩ : Call ρ ω H Req Resp).poll tick
        (.start .recv) := by
  have hworld : (w.observe tick.opening).cancelled = false := by
    simp [World.observe, hw, hquiet]
  have hput : ((w.observe tick.opening).put o).cancelled = false := by
    unfold World.put
    split
    · exact hworld
    · exact hworld
  have hinterrupt : interrupt c.deadline started (w.observe tick.opening) tick.opening.timer =
      none := by
    simp [interrupt, hdeadline, hworld]
  rw [(GrpcClientConn.goLive_receiving hdeadline r head hput).poll_eq, pollOpening]
  dsimp only
  rw [hinterrupt, hnet]
  dsimp only
  rw [hhead]
  rfl

theorem Call.Receiving.told {last : Except Status (Option Resp)} {s : Call ρ ω H Req Resp}
    (hserves : Serves (fun v (s : Call ρ ω H Req Resp) => s.Receiving cfg head writer v)
      (fun s => s.Ended head.responseHeaders) last messages v)
    (hs : s.Receiving cfg head writer v) (ticks : List (List (Tick ρ ω H)))
    (hquiet : Uncancelled ticks) :
    s.received ticks <+: replies messages last ticks.length ∧
      (s.run (recvs ticks)).2.conn.headers = some head.responseHeaders ∧
      ((s.run (recvs ticks)).2.conn.trailers.isSome ↔
        messages.length < (s.received ticks).length) := by
  have hserved := hserves.served (fun _ hended => hended.isDone) hs ticks hquiet
  refine ⟨hserved.replied, ?_⟩
  rcases Nat.lt_or_ge messages.length (s.received ticks).length with hpast | hwithin
  · obtain ⟨hheaders, htrailers⟩ := (hserved.ended hpast).known
    exact ⟨hheaders, iff_of_true htrailers hpast⟩
  · obtain ⟨v', hstands⟩ := hserved.standing hwithin
    obtain ⟨hheaders, htrailers⟩ := hstands.known
    refine ⟨hheaders, iff_of_false ?_ (Nat.not_lt.mpr hwithin)⟩
    show ¬ (s.receive ticks).2.conn.trailers.isSome = true
    simp [htrailers]

/-- Whatever a peer answers, and however its body arrives: the results of one `recv` after
another are the messages that its verdict delivers, then how it ends, once, and then the
end; the headers are the head's all along, and the trailers are known from the call's
end on. -/
theorem Call.response_verdict {c : GrpcClientConn ρ ω H Req Resp} (hdeadline : c.deadline = none)
    {r : Response ρ ω H} {head : Head H} (hhead : processHead r = .ok head) :
    let trailers := (EndingSource.behind r.reader).getD empty
    ∃ (messages : List Resp) (failure : Option Status) (delivered : List Resp)
      (last : Except Status (Option Resp)),
      -- the body's frames in order and the first error, and what they come to
      parse (c.readConfig head.responseEncoding) (fault r.reader) (rest r.reader) =
        messages.map (fun m => some (.ok m)) ++ [failure.map .error] ∧
      verdict r.headers trailers messages failure = (delivered, last) ∧
      (getStr r.headers "grpc-status" = none → failure = none →
        (getStr trailers "grpc-status" = some "0" → last = .ok none) ∧
        (getStr trailers "grpc-status" = none →
          ∃ status, last = .error status ∧ status.code = .unknown)) ∧
      -- the `recv` that gets the head goes on as those behind it
      (∀ (w : World H) o started tick, w.cancelled = false → tick.opening.cancel = false →
        tick.net = .response r →
        (⟨c, w⟩ : Call ρ ω H Req Resp).pollOpening .recv o started tick =
          (⟨c.goLive r head, (w.observe tick.opening).put o⟩ : Call ρ ω H Req Resp).poll tick
            (.start .recv)) ∧
      ∀ w : World H, w.cancelled = false →
        let s : Call ρ ω H Req Resp := ⟨c.goLive r head, w⟩
        (∀ ticks, Uncancelled ticks →
          s.received ticks <+: replies delivered last ticks.length ∧
          (s.run (recvs ticks)).2.conn.headers = some r.headers ∧
          ((s.run (recvs ticks)).2.conn.trailers.isSome ↔
            delivered.length < (s.received ticks).length)) ∧
        ∃ N, ∀ ticks, Uncancelled ticks → (∀ polls ∈ ticks, N ≤ polls.length) →
          s.received ticks = (replies delivered last ticks.length).take ticks.length := by
  intro trailers
  obtain ⟨messages, failure, hparse⟩ :=
    parse_shape (c.readConfig head.responseEncoding) (fault r.reader) (rest r.reader)
  obtain ⟨hheaders, haccepted⟩ := processHead_ok hhead
  rw [← hheaders]
  have hv : Remaining (c.readConfig head.responseEncoding) messages failure
      (EndingSource.behind r.reader) (r.reader, .new) :=
    ⟨by rw [← follow_ahead_new, hparse], by simp [ReadState.new], rfl⟩
  refine ⟨messages, failure, (verdict head.responseHeaders trailers messages failure).1,
    (verdict head.responseHeaders trailers messages failure).2, hparse, rfl, ?_, ?_, ?_⟩
  · intro hnone hclean
    subst hclean
    simp only [verdict, hnone, Option.isSome_none, Bool.false_eq_true, if_false]
    exact ⟨closing_of_zero, closing_of_absent⟩
  · intro w o started tick hw hquiet hnet
    exact Call.pollOpening_recv hdeadline hhead hw o started hquiet hnet
  · intro w hw
    have hs := GrpcClientConn.goLive_receiving hdeadline r head hw
    have hserves : Serves (fun v (s : Call ρ ω H Req Resp) => s.Receiving _ head
        (if c.fullDuplex then some r.writer else none) v) _ _ _ (r.reader, .new) :=
      haccepted.serves hv
    refine ⟨fun ticks hquiet => Call.Receiving.told hserves hs ticks hquiet, ?_⟩
    obtain ⟨N, hN⟩ := hserves.received (fun _ hended => hended.isDone)
    exact ⟨N, hN _ hs⟩

end

/-! ## A message behind a status -/

/-- A head that already says zero, and a message in pieces behind it. -/
def hastyResponse : Response ScriptedBody SinkScript HeaderList :=
  { status := some 200
    headers := insert (insert empty "content-type" (.ofString "application/grpc")) "grpc-status"
      (.ofString "0")
    reader := ⟨⟨[0, 0, 0, 0, 1, 7], [.pending, .chunk 3], none⟩, empty⟩
    writer := ⟨[]⟩ }

theorem hasty_response_refused :
    letI := storedCrates
    letI := standardNoPad
    letI := allFeatures
    ∃ head, processHead hastyResponse = .ok head ∧ ∃ N, ∀ ticks, Uncancelled ticks →
      (∀ polls ∈ ticks, N ≤ polls.length) →
      (Call.mk ((plainConn true).goLive hastyResponse head) (.fresh epoch)).received ticks =
        (replies [] (.error trailersOnlyBody) ticks.length).take ticks.length := by
  let _ := storedCrates
  let _ := standardNoPad
  let _ := allFeatures
  obtain ⟨head, hhead⟩ : ∃ head, processHead hastyResponse = .ok head := ⟨_, rfl⟩
  have hencoding : head.responseEncoding = .identity := by
    cases hhead
    rfl
  obtain ⟨messages, failure, delivered, last, hparse, hverdict, _, _, hruns⟩ :=
    Call.response_verdict (c := plainConn true) rfl hhead
  have hsome : (getStr hastyResponse.headers "grpc-status").isSome = true := by decide
  have hone : parse ((plainConn true).readConfig head.responseEncoding)
      (fault hastyResponse.reader) (rest hastyResponse.reader) = [some (.ok [7]), none] := by
    rw [hencoding, parse_eq_follow]
    have hnext : parseOne ((plainConn true).readConfig .identity) (fault hastyResponse.reader)
        (rest hastyResponse.reader) = .item (.ok [7]) [] := rfl
    rw [hnext, Parsed.follow, parse_eq_follow]
    rfl
  rw [hone] at hparse
  refine ⟨head, hhead, ?_⟩
  cases messages with
  | nil => simp at hparse
  | cons m messages =>
      rw [verdict_refused hsome, Prod.mk.injEq] at hverdict
      obtain ⟨rfl, rfl⟩ := hverdict
      exact (hruns (.fresh epoch) rfl).2

end TrilliumGrpc
