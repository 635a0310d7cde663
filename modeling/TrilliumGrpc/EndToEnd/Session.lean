import TrilliumGrpc.Async.Steps
import TrilliumGrpc.Client.History
import TrilliumGrpc.Server.Handover
import TrilliumGrpc.Server.History

/-! # A full-duplex session

A client's upgraded call and the server's responder, with a pipe in each direction. At
any time the client starts, goes on with or drops an operation, the responder is polled
in its race, bytes that were written arrive or do not, and a pipe breaks; the ends of
the two directions come behind what was written in front of them. In whatever order
this happens, each side reads the messages that the other has sent, in their order.
-/

namespace TrilliumGrpc

open Async HeaderMap TalliedRead Time

variable {ω ω' H Req Resp : Type}

/-- The two sides; whether the responder has been polled and how its race ended; and how
the pipe to the client broke. -/
structure Session (ω ω' H Req Resp : Type) where
  client : Calling ω H Req Resp
  server : Answering (Inbox Unit) ω' H Req Resp
  started : Bool
  outcome : Option (Except Status Unit)
  broken : List String

inductive Event (ω H Req Resp : Type) where
  | start (tick : Tick (Inbox H) ω H) (op : Op Req)
  | resume (tick : Tick (Inbox H) ω H)
  | drop
  | respond (sig : Signals) (p : ResponderPoll H Resp)
  /-- The next bytes of the requests arrive. -/
  | toServer (n : Nat)
  /-- The end of the requests arrives. -/
  | endToServer
  | breakToServer (e : String)
  | toClient (n : Nat)
  /-- The trailers arrive. -/
  | endToClient
  | breakToClient (e : String)

def outcomeStatus : Except Status Unit → Status
  | .ok () => .ok
  | .error status => status

namespace Session

def upgrade (s : Session ω ω' H Req Resp) : Upgrade (Inbox Unit) ω' H :=
  s.server.state.channel.upgrade

/-- What goes to the server: nothing behind the end of the requests. -/
def requestBytes (s : Session ω ω' H Req Resp) : List UInt8 :=
  match s.client.closed with
  | none => s.client.call.world.issued
  | some (_, len) => s.client.call.world.issued.take len

def bringToServer (s : Session ω ω' H Req Resp) (body : Inbox Unit) : Session ω ω' H Req Resp :=
  { s with
    server := { s.server with
      state := { s.server.state with
        channel := { s.server.state.channel with upgrade := { s.upgrade with body } } } } }

/-- The end of the race: the responder is dropped with the send it has suspended, and the
trailers are sent. -/
def finish [HeaderMap H] [Base64] (s : Session ω ω' H Req Resp)
    (server : Answering (Inbox Unit) ω' H Req Resp) (result : Except Status Unit) :
    Session ω ω' H Req Resp :=
  let channel := server.state.channel
  let trailers := (outcomeStatus result).writeInto channel.responseTrailers
  { s with
    server := ⟨⟨{ channel with upgrade := { channel.upgrade with trailers := some trailers } }, none⟩,
      server.out.drop, server.received⟩
    outcome := some result }

variable [AsyncWrite ω] [AsyncWrite ω'] [CodecCrates] [HeaderMap H] [Base64] [Features]

def step (c : Cancellation) (s : Session ω ω' H Req Resp) :
    Event ω H Req Resp → Session ω ω' H Req Resp
  | .start tick op => { s with client := s.client.start tick op }
  | .resume tick => { s with client := s.client.resume tick }
  | .drop => { s with client := s.client.drop }
  | .respond sig p =>
      match s.outcome with
      | some _ => s
      | none =>
          match c.race s.started sig (Answering.poll p) s.server with
          | (.pending, server) => { s with server, started := true }
          | (.ready result, server) => s.finish server result
  | .toServer n => s.bringToServer (s.upgrade.body.arrive s.requestBytes n)
  | .endToServer =>
      match s.client.closed with
      | none => s
      | some (_, len) =>
          if s.upgrade.body.received.length = len then s.bringToServer (s.upgrade.body.stop (.ok ()))
          else s
  | .breakToServer e => s.bringToServer (s.upgrade.body.stop (.error e))
  | .toClient n => { s with client := s.client.bring (fun b => b.arrive s.upgrade.written n) }
  | .endToClient =>
      match s.upgrade.trailers with
      | none => s
      | some trailers =>
          { s with
            client := s.client.bring (fun b =>
              if b.received.length = s.upgrade.written.length then b.stop (.ok trailers) else b) }
  | .breakToClient e =>
      { s with
        client := s.client.bring (fun b => b.stop (.error e))
        broken := s.broken ++ [e] }

def run (c : Cancellation) (s : Session ω ω' H Req Resp) (events : List (Event ω H Req Resp)) :
    Session ω ω' H Req Resp := events.foldl (step c) s

end Session

/-! ## What every step keeps -/

/-- What is known of the pipe to the client: it brings what was written; it ends with the
trailers behind all of it, or broken. -/
structure Session.ToClient (s : Session ω ω' H Req Resp) (b : Inbox H) : Prop where
  fed : b.Fed s.upgrade.written
  ended : ∀ trailers, b.ending = some (.ok trailers) →
    s.upgrade.trailers = some trailers ∧ b.received = s.upgrade.written
  broken : ∀ e, b.ending = some (.error e) → e ∈ s.broken

variable [CodecCrates] [HeaderMap H] [Base64]

/-- The two histories are in step with what the pipes have brought. -/
structure Session.Kept (cfgC : ReadConfig Resp) (head : Head H) (cfgS : ReadConfig Req)
    (encodeReq : Req → Except Status (List UInt8)) (encodeResp : Resp → Except Status (List UInt8))
    (s : Session ω ω' H Req Resp) : Prop where
  client : s.client.Kept cfgC head encodeReq s.ToClient
  server : s.server.Kept cfgS encodeResp
  fed : s.upgrade.body.Fed s.requestBytes
  requestsEnd : ∀ e, s.upgrade.body.ending = some (.ok e) →
    ∃ k, s.client.closed = some (k, s.upgrade.body.received.length)
  finished : ∀ trailers, s.upgrade.trailers = some trailers → ∃ result,
    s.outcome = some result ∧ s.server.out.sending = none ∧
      trailers = (outcomeStatus result).writeInto s.server.state.channel.responseTrailers
  running : s.outcome = none → s.upgrade.trailers = none

namespace Session.Kept

variable {cfgC : ReadConfig Resp} {head : Head H} {cfgS : ReadConfig Req}
  {encodeReq : Req → Except Status (List UInt8)} {encodeResp : Resp → Except Status (List UInt8)}
  {s : Session ω ω' H Req Resp}

omit [CodecCrates] [HeaderMap H] [Base64] in
theorem toClient_pollRead (s : Session ω ω' H Req Resp) (b : Inbox H) (len : Nat)
    (h : s.ToClient b) : s.ToClient (AsyncRead.pollRead b len).2 := by
  obtain ⟨hreceived, hending⟩ := b.received_pollRead len
  refine ⟨?_, ?_, ?_⟩
  · rw [Inbox.Fed, hreceived]
    exact h.fed
  · rw [hreceived, hending]
    exact h.ended
  · rw [hending]
    exact h.broken

/-- A step of the client's. -/
theorem client_goes (h : s.Kept cfgC head cfgS encodeReq encodeResp) {client : Calling ω H Req Resp}
    (hgoes : s.client.Goes cfgC head encodeReq s.ToClient client) :
    Session.Kept cfgC head cfgS encodeReq encodeResp { s with client } := by
  have hbytes : s.requestBytes <+: ({ s with client } : Session ω ω' H Req Resp).requestBytes := by
    have hissued := hgoes.issued
    unfold Session.requestBytes
    rcases hgoes.closed with hsame | ⟨hnone, k, hsome⟩
    · rw [hsame]
      cases hc : s.client.closed with
      | none => exact hissued
      | some x => exact hissued.take _
    · rw [hnone, hsome]
      dsimp only
      rw [List.take_length]
      exact hissued
  refine ⟨hgoes.kept.mono (fun b hb => ⟨hb.fed, hb.ended, hb.broken⟩), h.server,
    h.fed.mono hbytes, ?_, h.finished, h.running⟩
  intro e hend
  obtain ⟨k, hk⟩ := h.requestsEnd e hend
  rcases hgoes.closed with hsame | ⟨hnone, _⟩
  · exact ⟨k, hsame.trans hk⟩
  · rw [hnone] at hk
    cases hk

theorem bringToServer (h : s.Kept cfgC head cfgS encodeReq encodeResp) {body : Inbox Unit}
    (htaken : body.taken = s.upgrade.body.taken)
    (hstopped : ∀ fault, Stopped s.upgrade.body fault → Stopped body fault)
    (hfed : body.Fed s.requestBytes)
    (hend : ∀ e, body.ending = some (.ok e) → ∃ k, s.client.closed = some (k, body.received.length)) :
    (s.bringToServer body).Kept cfgC head cfgS encodeReq encodeResp := by
  refine ⟨h.client.mono (fun b hb => ⟨hb.fed, hb.ended, hb.broken⟩), ?_, hfed, hend, h.finished,
    h.running⟩
  exact ⟨h.server.sending, h.server.reads, h.server.encodes, h.server.frames,
    h.server.consumed.moved htaken hstopped⟩

/-- The responder goes on. -/
theorem responds (h : s.Kept cfgC head cfgS encodeReq encodeResp)
    {server : Answering (Inbox Unit) ω' H Req Resp} (hserver : server.Kept cfgS encodeResp)
    (hmoves : s.server.Moves server) (hnone : s.outcome = none) (started : Bool) :
    Session.Kept cfgC head cfgS encodeReq encodeResp { s with server, started } := by
  have hrunning := h.running hnone
  have htrailers : server.state.channel.upgrade.trailers = none := hmoves.trailers.trans hrunning
  refine ⟨h.client.mono (fun b hb => ⟨hb.fed.mono hmoves.written, fun trailers he => ?_, hb.broken⟩),
    hserver, ?_, fun e he => ?_, fun trailers ht => ?_, fun _ => htrailers⟩
  · rw [(hb.ended trailers he).1] at hrunning
    cases hrunning
  · change server.state.channel.upgrade.body.received <+: s.requestBytes
    rw [hmoves.received]
    exact h.fed
  · change server.state.channel.upgrade.body.ending = _ at he
    rw [hmoves.ending] at he
    obtain ⟨k, hk⟩ := h.requestsEnd e he
    refine ⟨k, ?_⟩
    change s.client.closed = some (k, server.state.channel.upgrade.body.received.length)
    rw [hmoves.received]
    exact hk
  · change server.state.channel.upgrade.trailers = _ at ht
    rw [htrailers] at ht
    cases ht

theorem finish (h : s.Kept cfgC head cfgS encodeReq encodeResp)
    {server : Answering (Inbox Unit) ω' H Req Resp} (hserver : server.Kept cfgS encodeResp)
    (hmoves : s.server.Moves server) (hnone : s.outcome = none) (result : Except Status Unit) :
    (s.finish server result).Kept cfgC head cfgS encodeReq encodeResp := by
  have hgone := h.responds hserver hmoves hnone s.started
  have hrunning := h.running hnone
  refine ⟨h.client.mono (fun b hb => ⟨hb.fed.mono hmoves.written, fun trailers he => ?_, hb.broken⟩),
    ?_, hgone.fed, hgone.requestsEnd, fun trailers ht => ?_, fun habs => ?_⟩
  · rw [(hb.ended trailers he).1] at hrunning
    cases hrunning
  · exact ⟨rfl, hserver.reads, hserver.encodes, hserver.frames.drop, hserver.consumed⟩
  · change some _ = some trailers at ht
    rw [Option.some.injEq] at ht
    exact ⟨result, rfl, rfl, ht.symm⟩
  · cases habs

variable [AsyncWrite ω'] in
theorem respond (h : s.Kept cfgC head cfgS encodeReq encodeResp) (c : Cancellation)
    (sig : Signals) (p : ResponderPoll H Resp) (hnone : s.outcome = none) :
    match c.race s.started sig (Answering.poll p) s.server with
    | (.pending, server) =>
        Session.Kept cfgC head cfgS encodeReq encodeResp { s with server, started := true }
    | (.ready result, server) =>
        (s.finish server result).Kept cfgC head cfgS encodeReq encodeResp := by
  have hstate : ((c.race s.started sig (Answering.poll p) s.server).2.Kept cfgS encodeResp) ∧
      s.server.Moves (c.race s.started sig (Answering.poll p) s.server).2 := by
    rcases c.race_state s.started sig (Answering.poll p) s.server with hsame | ⟨_, hpolled⟩
    · rw [hsame]
      exact ⟨h.server, .refl _⟩
    · rw [hpolled]
      exact ⟨h.server.foldl p.ops, s.server.foldl_moves p.ops⟩
  obtain ⟨hkept, hmoves⟩ := hstate
  cases hr : c.race s.started sig (Answering.poll p) s.server with
  | mk answer server =>
      rw [hr] at hkept hmoves
      cases answer with
      | pending => exact h.responds hkept hmoves hnone true
      | ready result => exact h.finish hkept hmoves hnone result

/-- The pipe to the client brings something. -/
theorem bringToClient (h : s.Kept cfgC head cfgS encodeReq encodeResp) {f : Inbox H → Inbox H}
    (htaken : ∀ b, (f b).taken = b.taken)
    (hstopped : ∀ b fault, Stopped b fault → Stopped (f b) fault) (more : List String)
    (hkeeps : ∀ b, s.ToClient b → (f b).Fed s.upgrade.written ∧
      (∀ trailers, (f b).ending = some (.ok trailers) →
        s.upgrade.trailers = some trailers ∧ (f b).received = s.upgrade.written) ∧
      ∀ e, (f b).ending = some (.error e) → e ∈ s.broken ++ more) :
    Session.Kept cfgC head cfgS encodeReq encodeResp
      { s with client := s.client.bring f, broken := s.broken ++ more } := by
  have himp : ∀ b, s.ToClient b → Session.ToClient
      { s with client := s.client.bring f, broken := s.broken ++ more } b :=
    fun b hb => ⟨hb.fed, hb.ended, fun e he => List.mem_append_left _ (hb.broken e he)⟩
  obtain ⟨hkept, _, hclosed, _, _, hworld⟩ := h.client.bring htaken hstopped himp
    (fun b hb => ⟨(hkeeps b hb).1, (hkeeps b hb).2.1, (hkeeps b hb).2.2⟩)
  refine ⟨hkept, h.server, ?_, fun e he => ?_, h.finished, h.running⟩
  · have hbytes : ({ s with client := s.client.bring f, broken := s.broken ++ more } :
        Session ω ω' H Req Resp).requestBytes = s.requestBytes := by
      simp only [Session.requestBytes, hclosed, hworld]
    rw [hbytes]
    exact h.fed
  · obtain ⟨k, hk⟩ := h.requestsEnd e he
    exact ⟨k, hclosed.trans hk⟩

variable [AsyncWrite ω] [AsyncWrite ω'] [Features]

theorem step (h : s.Kept cfgC head cfgS encodeReq encodeResp) (hhead : head.headStatus = none)
    (c : Cancellation) (event : Event ω H Req Resp) :
    (s.step c event).Kept cfgC head cfgS encodeReq encodeResp := by
  cases event with
  | start tick op =>
      exact h.client_goes (h.client.start (toClient_pollRead s) hhead tick op)
  | resume tick => exact h.client_goes (h.client.resume (toClient_pollRead s) hhead tick)
  | drop =>
      exact h.client_goes ⟨h.client.drop, List.prefix_rfl, .inl rfl⟩
  | respond sig p =>
      simp only [Session.step]
      split
      · exact h
      · rename_i ho
        have hresponds := h.respond c sig p ho
        rcases hr : c.race s.started sig (Answering.poll p) s.server with ⟨_ | result, server⟩ <;>
          rw [hr] at hresponds <;> exact hresponds
  | toServer n =>
      refine h.bringToServer (Inbox.taken_arrive _ _ _)
        (fun fault hf => Inbox.stopped_arrive hf _ _) (h.fed.arrive n) (fun e he => ?_)
      rw [Inbox.ending_arrive] at he
      obtain ⟨k, hk⟩ := h.requestsEnd e he
      have hended : s.upgrade.body.ending.isSome := by rw [he]; rfl
      rw [Inbox.arrive_of_ended hended]
      exact ⟨k, hk⟩
  | endToServer =>
      simp only [Session.step]
      cases hc : s.client.closed with
      | none => exact h
      | some x =>
          obtain ⟨k, len⟩ := x
          dsimp only
          split
          · rename_i hlen
            refine h.bringToServer (Inbox.taken_stop _ _)
              (fun fault hf => Inbox.stopped_stop hf _) ?_ (fun e _ => ?_)
            · rw [Inbox.Fed, Inbox.received_stop]
              exact h.fed
            · rw [Inbox.received_stop, hlen]
              exact ⟨k, hc⟩
          · exact h
  | breakToServer e =>
      refine h.bringToServer (Inbox.taken_stop _ _) (fun fault hf => Inbox.stopped_stop hf _) ?_
        (fun e' he => ?_)
      · rw [Inbox.Fed, Inbox.received_stop]
        exact h.fed
      · rw [Inbox.ending_stop] at he
        cases hend : s.upgrade.body.ending with
        | none =>
            rw [hend] at he
            cases he
        | some first =>
            rw [hend, Option.getD_some] at he
            rw [Inbox.received_stop]
            exact h.requestsEnd e' (hend.trans he)
  | toClient n =>
      have hkept := h.bringToClient (f := fun b => b.arrive s.upgrade.written n)
        (fun b => Inbox.taken_arrive _ _ _) (fun b fault hf => Inbox.stopped_arrive hf _ _) []
        (fun b hb => ⟨hb.fed.arrive n, fun trailers he => ?_, fun e he => ?_⟩)
      · rwa [List.append_nil] at hkept
      · rw [Inbox.ending_arrive] at he
        have hended : b.ending.isSome := by rw [he]; rfl
        rw [Inbox.arrive_of_ended hended]
        exact hb.ended trailers he
      · rw [Inbox.ending_arrive] at he
        rw [List.append_nil]
        exact hb.broken e he
  | endToClient =>
      simp only [Session.step]
      cases ht : s.upgrade.trailers with
      | none => exact h
      | some trailers =>
          dsimp only
          have hkept := h.bringToClient (f := fun b =>
            if b.received.length = s.upgrade.written.length then b.stop (.ok trailers) else b)
            (fun b => ?_) (fun b fault hf => ?_) [] (fun b hb => ?_)
          · rwa [List.append_nil] at hkept
          · split
            · exact Inbox.taken_stop _ _
            · rfl
          · split
            · exact Inbox.stopped_stop hf _
            · exact hf
          · rw [List.append_nil]
            split
            · rename_i hlen
              have hall := hb.fed.eq_of_length hlen
              refine ⟨by rw [Inbox.Fed, Inbox.received_stop]; exact hb.fed, fun t he => ?_,
                fun e he => ?_⟩
              · rw [Inbox.received_stop]
                rw [Inbox.ending_stop] at he
                cases hend : b.ending with
                | none =>
                    rw [hend, Option.getD_none, Option.some.injEq, Except.ok.injEq] at he
                    exact ⟨by rw [ht, he], hall⟩
                | some first =>
                    rw [hend, Option.getD_some] at he
                    exact hb.ended t (hend.trans he)
              · rw [Inbox.ending_stop] at he
                cases hend : b.ending with
                | none =>
                    rw [hend] at he
                    cases he
                | some first =>
                    rw [hend, Option.getD_some] at he
                    exact hb.broken e (hend.trans he)
            · exact ⟨hb.fed, hb.ended, hb.broken⟩
  | breakToClient e =>
      refine h.bringToClient (fun b => Inbox.taken_stop _ _)
        (fun b fault hf => Inbox.stopped_stop hf _) [e] (fun b hb => ⟨?_, fun t he => ?_,
          fun e' he => ?_⟩)
      · rw [Inbox.Fed, Inbox.received_stop]
        exact hb.fed
      · rw [Inbox.received_stop]
        rw [Inbox.ending_stop] at he
        cases hend : b.ending with
        | none =>
            rw [hend] at he
            cases he
        | some first =>
            rw [hend, Option.getD_some] at he
            exact hb.ended t (hend.trans he)
      · rw [Inbox.ending_stop] at he
        cases hend : b.ending with
        | none =>
            rw [hend, Option.getD_none, Option.some.injEq, Except.error.injEq] at he
            exact List.mem_append_right _ (List.mem_singleton.mpr he.symm)
        | some first =>
            rw [hend, Option.getD_some] at he
            exact List.mem_append_left _ (hb.broken e' (hend.trans he))

theorem run (h : s.Kept cfgC head cfgS encodeReq encodeResp) (hhead : head.headStatus = none)
    (c : Cancellation) (events : List (Event ω H Req Resp)) :
    (s.run c events).Kept cfgC head cfgS encodeReq encodeResp :=
  kept_of_step (fun _ event hs => hs.step hhead c event) h events

end Session.Kept

/-! ## Whole sessions -/

/-- A session as it begins: the head is accepted, the messages `first` went out with the
request, and the pipes have brought nothing yet. -/
def Session.opened (c : GrpcClientConn (Inbox H) ω H Req Resp) (head : Head H) (writer : ω)
    (w : World H) (first : List Req) (b : BidiState H Req Resp) (writer' : ω') :
    Session ω ω' H Req Resp :=
  { client :=
      { call := ⟨c.goLive ⟨some 200, head.responseHeaders, .empty, writer⟩ head, w⟩
        future := none
        out := ⟨first, none, false⟩
        received := []
        verdict := none
        closed := none }
    server := .start (b.start ⟨.empty, writer', [], none⟩)
    started := false
    outcome := none
    broken := [] }

theorem Session.opened_kept {c : GrpcClientConn (Inbox H) ω H Req Resp} (hfull : c.fullDuplex = true)
    (head : Head H) (writer : ω) {w : World H} {first : List Req} {fs : List (List UInt8)}
    (hfirst : List.Forall₂ (fun m f => c.encodeMessage m = .ok f) first fs)
    (hissued : w.issued = fs.flatten) (b : BidiState H Req Resp) (writer' : ω') :
    (Session.opened c head writer w first b writer').Kept (c.readConfig head.responseEncoding) head
      b.readConfig c.encodeMessage (fun v => encodeFrame b.encode v b.responseEncoding) := by
  have hgo : c.goLive ⟨some 200, head.responseHeaders, .empty, writer⟩ head =
      { c with inner := head.live (some writer) (.empty, .new) } := by
    rw [GrpcClientConn.goLive, if_pos hfull]
    rfl
  unfold Session.opened
  rw [hgo]
  refine ⟨⟨?_, rfl, fun _ => ⟨fs, [], hfirst, ?_, rfl⟩, rfl, fun k len h => (by cases h)⟩, ?_, ?_,
    fun e h => (by cases h), fun trailers h => (by cases h), fun _ => rfl⟩
  · exact .live writer .empty .new ⟨rfl, rfl⟩ (.start rfl) rfl
      ⟨Inbox.fed_empty _, fun trailers h => (by cases h), fun e h => (by cases h)⟩
  · rw [List.append_nil]
    exact hissued
  · exact ⟨rfl, rfl, rfl, fun _ => ⟨[], [], .nil, rfl, rfl⟩, .start rfl⟩
  · exact Inbox.fed_empty _

def pipedConn : GrpcClientConn (Inbox HeaderList) SinkScript HeaderList (List UInt8) (List UInt8) :=
  { inner := .pending ⟨empty, "/echo", "application/grpc+proto", .new, [], false⟩
    decode := .ok
    encode := .ok
    outboundEncoding := .identity
    maxMessageSize := defaultMaxMessageSize
    fullDuplex := true
    deadline := none
    initError := none }

def pipedHead : Head HeaderList := ⟨empty, .identity, none⟩

def pipedTick : Tick (Inbox HeaderList) SinkScript HeaderList :=
  ⟨epoch, ⟨false, epoch, false⟩, .connecting, ⟨false, epoch, false⟩⟩

/-- A request goes out in two writes and arrives in two pieces; the responder answers it and
returns; the client reads the answer and the end. -/
def echoed : List (Event SinkScript HeaderList (List UInt8) (List UInt8)) :=
  [.start pipedTick (.send [7]), .toServer 6,
    .respond ⟨epoch, false, false, false⟩ ⟨[.recv], .pending⟩,
    .resume pipedTick, .toServer 6,
    .respond ⟨epoch, false, false, false⟩ ⟨[.recv, .send [8, 9]], .pending⟩,
    .start pipedTick .closeSend, .endToServer,
    .respond ⟨epoch, false, false, false⟩ ⟨[.recv], .ready (.ok ())⟩,
    .start pipedTick .recv, .toClient 4, .resume pipedTick, .toClient 9, .endToClient,
    .resume pipedTick, .start pipedTick .recv]

def echoedSession : Session SinkScript SinkScript HeaderList (List UInt8) (List UInt8) :=
  letI := storedCrates
  letI := standardNoPad
  letI := allFeatures
  (Session.opened pipedConn pipedHead ⟨[.chunk 2, .pending]⟩ (.fresh epoch) [] plainBidi ⟨[]⟩).run
    ⟨plainBidi.deadline⟩ echoed

omit [CodecCrates] [HeaderMap H] [Base64] in
theorem echoed_readable (cfg : ReadConfig (List UInt8)) (hdecode : cfg.decode = .ok)
    (hplain : cfg.encoding = .identity) (hmax : cfg.maxMessageSize = defaultMaxMessageSize) :
    @Outgoing.Readable _ storedCrates cfg .ok echoedSession.client.out ∧
      @Outgoing.Readable _ storedCrates cfg .ok echoedSession.server.out := by
  let _ := storedCrates
  have hclient : echoedSession.client.out.sent = [[7]] ∧
      echoedSession.client.out.sending = none := by decide +kernel
  have hserver : echoedSession.server.out.sent = [[8, 9]] ∧
      echoedSession.server.out.sending = none := by decide +kernel
  refine ⟨⟨fun m hm => readable_plain hdecode hplain ?_, fun m fut h => ?_⟩,
    ⟨fun m hm => readable_plain hdecode hplain ?_, fun m fut h => ?_⟩⟩
  · rw [hclient.1] at hm
    rw [List.mem_singleton.mp hm, hmax]
    decide
  · rw [hclient.2] at h
    cases h
  · rw [hserver.1] at hm
    rw [List.mem_singleton.mp hm, hmax]
    decide
  · rw [hserver.2] at h
    cases h

variable [LawfulCrates] [AsyncWrite ω] [AsyncWrite ω'] [Features]

/-- In every interleaving the responder's `recv`s give the messages that the client has
sent, in their order and each once; behind them the end, once all that were sent before
`close_send` have been read, or that the pipe broke. -/
theorem requests_kept_in_order {c : GrpcClientConn (Inbox H) ω H Req Resp}
    (hfull : c.fullDuplex = true) {head : Head H} (hhead : head.headStatus = none) (writer : ω)
    {w : World H} {first : List Req} {fs : List (List UInt8)}
    (hfirst : List.Forall₂ (fun m f => c.encodeMessage m = .ok f) first fs)
    (hissued : w.issued = fs.flatten) {b : BidiState H Req Resp}
    (hencoding : b.requestEncoding = c.outboundEncoding) (writer' : ω')
    (events : List (Event ω H Req Resp)) :
    let s := (Session.opened c head writer w first b writer').run ⟨b.deadline⟩ events
    s.client.out.torn = false → s.client.out.Readable b.readConfig c.encode →
      InOrder s.upgrade.body s.client.out.sent (s.client.closed.map Prod.fst)
        s.server.received := by
  intro s hwhole hread
  have h := (Session.opened_kept hfull head writer hfirst hissued b writer').run hhead
    ⟨b.deadline⟩ events
  have hframes : s.client.out.Frames (encodeFrame c.encode · b.readConfig.encoding)
      s.client.call.world.issued := by
    change s.client.out.Frames (encodeFrame c.encode · b.requestEncoding) _
    rw [hencoding]
    exact h.client.frames
  have hfed : s.upgrade.body.Fed s.client.call.world.issued := by
    refine h.fed.mono ?_
    unfold Session.requestBytes
    split
    · exact List.prefix_rfl
    · exact List.take_prefix _ _
  refine h.server.consumed.in_order (by decide : defaultMaxMessageSize < 2 ^ 32) hframes hwhole hread
    hfed ?_ ?_
  · intro e hend
    obtain ⟨k, hk⟩ := h.requestsEnd e hend
    obtain ⟨_, _, fs, hfs, hbytes⟩ := h.client.closed k _ hk hwhole
    refine ⟨k, fs, ?_, ?_, ?_⟩
    · rw [hk]
      rfl
    · change List.Forall₂ (fun m f => encodeFrame c.encode m b.requestEncoding = .ok f) _ fs
      rw [hencoding]
      exact hfs
    · rw [← hbytes]
      exact List.prefix_iff_eq_take.mp hfed
  · intro k hk
    obtain ⟨x, hx, rfl⟩ := Option.map_eq_some_iff.mp hk
    exact (h.client.closed x.1 x.2 hx hwhole).1

omit [CodecCrates] [Base64] [LawfulCrates] [Features] in
theorem echoed_requests_in_order :
    InOrder echoedSession.upgrade.body [[7]] (some 1) echoedSession.server.received := by
  let _ := storedCrates
  let _ := standardNoPad
  let _ := allFeatures
  have _ := storedCrates_lawful
  have h := requests_kept_in_order (c := pipedConn) rfl (show pipedHead.headStatus = none from rfl)
    (⟨[.chunk 2, .pending]⟩ : SinkScript) (w := .fresh epoch) .nil rfl (b := plainBidi)
    rfl (⟨[]⟩ : SinkScript) echoed
  have hsent : echoedSession.client.out.sent = [[7]] := by decide +kernel
  have hclosed : echoedSession.client.closed.map Prod.fst = some 1 := by decide +kernel
  have htorn : echoedSession.client.out.torn = false := by decide +kernel
  have hread := (echoed_readable plainBidi.readConfig rfl rfl rfl).1
  unfold echoedSession at hsent hclosed htorn hread ⊢
  generalize (Session.opened pipedConn pipedHead (⟨[.chunk 2, .pending]⟩ : SinkScript)
    (.fresh epoch) [] plainBidi (⟨[]⟩ : SinkScript)).run ⟨plainBidi.deadline⟩ echoed = s
      at h hsent hclosed htorn hread ⊢
  rw [← hsent, ← hclosed]
  exact h htorn hread

omit [AsyncWrite ω] [AsyncWrite ω'] [Features] in
/-- What the client has read at any time. -/
theorem Session.Kept.responses {cfgC : ReadConfig Resp} {head : Head H} {cfgS : ReadConfig Req}
    {encodeReq : Req → Except Status (List UInt8)} {encode : Resp → Except Status (List UInt8)}
    {s : Session ω ω' H Req Resp}
    (h : s.Kept cfgC head cfgS encodeReq (encodeFrame encode · cfgC.encoding))
    (hcap : cfgC.maxMessageSize < 2 ^ 32) (hwhole : s.server.out.torn = false)
    (hread : s.server.out.Readable cfgC encode) {b : Inbox H} (hb : s.ToClient b)
    {state : ReadState} {answers : List (Option (Except Status Resp))}
    (hconsumed : Consumed cfgC b state answers) :
    InOrder b s.server.out.sent (some s.server.out.sent.length) answers := by
  refine hconsumed.in_order hcap h.server.frames hwhole hread hb.fed ?_ ?_
  · intro trailers hend
    obtain ⟨hsent, hall⟩ := hb.ended trailers hend
    obtain ⟨_, _, hnone, _⟩ := h.finished trailers hsent
    obtain ⟨fs, accepted, hfs, hwritten, hsending⟩ := h.server.frames hwhole
    rw [hnone] at hsending
    subst hsending
    rw [List.append_nil] at hwritten
    refine ⟨_, fs, rfl, ?_, hall.trans hwritten⟩
    rw [List.take_length]
    exact hfs
  · intro k hk
    cases hk
    exact Nat.le_refl _

/-- In every interleaving the client has received a front of the messages that the
responder has sent, in their order and each once. -/
theorem responses_kept_in_order {c : GrpcClientConn (Inbox H) ω H Req Resp}
    (hfull : c.fullDuplex = true) (hcap : c.maxMessageSize < 2 ^ 32) {head : Head H}
    (hhead : head.headStatus = none) (writer : ω) {w : World H} {first : List Req}
    {fs : List (List UInt8)} (hfirst : List.Forall₂ (fun m f => c.encodeMessage m = .ok f) first fs)
    (hissued : w.issued = fs.flatten) {b : BidiState H Req Resp}
    (hencoding : b.responseEncoding = head.responseEncoding) (writer' : ω')
    (events : List (Event ω H Req Resp)) :
    let s := (Session.opened c head writer w first b writer').run ⟨b.deadline⟩ events
    s.server.out.torn = false →
      s.server.out.Readable (c.readConfig head.responseEncoding) b.encode →
      s.client.received <+: s.server.out.sent := by
  intro s hwhole hread
  have h := (Session.opened_kept hfull head writer hfirst hissued b writer').run hhead
    ⟨b.deadline⟩ events
  rw [hencoding] at h
  have hfront : ∀ {b : Inbox H} {state : ReadState} (last : List (Option (Except Status Resp))),
      s.ToClient b → messagesOf last = [] →
      Consumed (c.readConfig head.responseEncoding) b state
        (s.client.received.map (fun m => some (.ok m)) ++ last) →
      s.client.received <+: s.server.out.sent := by
    intro b state last hb hlast hconsumed
    obtain ⟨k, tail, _, hall, htail⟩ := h.responses hcap hwhole hread hb hconsumed
    have hnothing : messagesOf tail = [] := by
      rcases htail with rfl | ⟨n, rfl, _⟩ | ⟨e, n, rfl, _⟩
      · rfl
      · simp [messagesOf]
      · simp [messagesOf]
    have hmessages := congrArg messagesOf hall
    rw [messagesOf_append, messagesOf_append, hlast, hnothing, List.append_nil,
      List.append_nil] at hmessages
    rw [hmessages]
    exact List.take_prefix _ _
  cases h.client.stage with
  | live writer b state upgraded consumed verdict pipe =>
      exact hfront [] pipe rfl (by rw [List.append_nil]; exact consumed)
  | ended b state last done idle consumed ends verdict pipe =>
      refine hfront [last] pipe ?_ consumed
      rcases last with _ | (_ | m)
      · rfl
      · rfl
      · exact absurd rfl (ends m)

omit [CodecCrates] [Base64] [LawfulCrates] [Features] in
theorem echoed_responses_in_order : echoedSession.client.received <+: [[8, 9]] := by
  let _ := storedCrates
  let _ := standardNoPad
  let _ := allFeatures
  have _ := storedCrates_lawful
  have h := responses_kept_in_order (c := pipedConn) rfl (by decide)
    (show pipedHead.headStatus = none from rfl)
    (⟨[.chunk 2, .pending]⟩ : SinkScript) (w := .fresh epoch) .nil rfl (b := plainBidi)
    rfl (⟨[]⟩ : SinkScript) echoed
  have hsent : echoedSession.server.out.sent = [[8, 9]] := by decide +kernel
  have htorn : echoedSession.server.out.torn = false := by decide +kernel
  have hread := (echoed_readable (pipedConn.readConfig pipedHead.responseEncoding) rfl rfl rfl).2
  unfold echoedSession at hsent htorn hread ⊢
  generalize (Session.opened pipedConn pipedHead (⟨[.chunk 2, .pending]⟩ : SinkScript)
    (.fresh epoch) [] plainBidi (⟨[]⟩ : SinkScript)).run ⟨plainBidi.deadline⟩ echoed = s
      at h hsent htorn hread ⊢
  rw [← hsent]
  exact h htorn hread

def resultCode : Except Status (Option Resp) → Code
  | .ok _ => .ok
  | .error status => status.code

/-- In every interleaving: the end of the call, as the client's `recv` tells it, is that of
the responder's race, whose code it has, and by then the client has received every message
that was sent; or the pipe to the client broke, and it tells that. -/
theorem outcome_agreed {c : GrpcClientConn (Inbox H) ω H Req Resp}
    (hfull : c.fullDuplex = true) (hcap : c.maxMessageSize < 2 ^ 32) {head : Head H}
    (hhead : head.headStatus = none) (writer : ω) {w : World H} {first : List Req}
    {fs : List (List UInt8)} (hfirst : List.Forall₂ (fun m f => c.encodeMessage m = .ok f) first fs)
    (hissued : w.issued = fs.flatten) {b : BidiState H Req Resp}
    (hencoding : b.responseEncoding = head.responseEncoding) (writer' : ω')
    (events : List (Event ω H Req Resp)) (result : Except Status (Option Resp)) :
    let s := (Session.opened c head writer w first b writer').run ⟨b.deadline⟩ events
    s.server.out.torn = false →
      s.server.out.Readable (c.readConfig head.responseEncoding) b.encode →
      (∀ status, s.outcome = some (.error status) →
        ∀ entry ∈ status.metadata.entries, OwnKey entry.1) →
      s.client.verdict = some result →
      (∃ outcome, s.outcome = some outcome ∧ s.client.received = s.server.out.sent ∧
          result = closing
            ((outcomeStatus outcome).writeInto s.server.state.channel.responseTrailers) ∧
          resultCode result = (outcomeStatus outcome).code) ∨
        ∃ e ∈ s.broken, result = .error (readError e) := by
  intro s hwhole hread hkeys hresult
  have h := (Session.opened_kept hfull head writer hfirst hissued b writer').run hhead
    ⟨b.deadline⟩ events
  rw [hencoding] at h
  cases h.client.stage with
  | live writer b state upgraded consumed verdict pipe =>
      have hnone : s.client.verdict = none := verdict
      rw [hnone] at hresult
      cases hresult
  | ended b state last done idle consumed ends verdict pipe =>
      have htold : s.client.verdict = some (told b last) := verdict
      rw [htold, Option.some.injEq] at hresult
      subst hresult
      rcases (h.responses hcap hwhole hread pipe consumed).stopped ends with
        ⟨rfl, htotal, hbegin, hspent, trailers, hend⟩ | ⟨e, rfl, hbroken⟩
      · obtain ⟨hsent, _⟩ := pipe.ended trailers hend
        obtain ⟨outcome, houtcome, _, rfl⟩ := h.finished trailers hsent
        rw [Option.some.injEq] at htotal
        have htrailers : (ResponseBody.trailers b).getD empty =
            (outcomeStatus outcome).writeInto s.server.state.channel.responseTrailers := by
          simp only [ResponseBody.trailers, hspent, hend]
          rfl
        refine .inl ⟨outcome, houtcome, hbegin.eq_of_length htotal.symm, ?_, ?_⟩
        · rw [told, htrailers]
        · rw [told, htrailers, closing, Status.fromTrailers, Status.trailersCode_writeInto]
          · split
            · rename_i hok
              exact hok.symm
            · rfl
          · rcases outcome with status | _
            · exact hkeys status houtcome
            · simp [outcomeStatus, Status.ok, Metadata.new]
      · exact .inr ⟨e, pipe.broken e hbroken, rfl⟩

omit [CodecCrates] [Base64] [LawfulCrates] [Features] in
theorem echoed_outcome_agreed :
    echoedSession.outcome = some (.ok ()) ∧ echoedSession.client.received = [[8, 9]] := by
  let _ := storedCrates
  let _ := standardNoPad
  let _ := allFeatures
  have _ := storedCrates_lawful
  have h := outcome_agreed (c := pipedConn) rfl (by decide)
    (show pipedHead.headStatus = none from rfl)
    (⟨[.chunk 2, .pending]⟩ : SinkScript) (w := .fresh epoch) .nil rfl (b := plainBidi)
    rfl (⟨[]⟩ : SinkScript) echoed (.ok none)
  have hsent : echoedSession.server.out.sent = [[8, 9]] := by decide +kernel
  have htorn : echoedSession.server.out.torn = false := by decide +kernel
  have houtcome : echoedSession.outcome = some (.ok ()) := by decide +kernel
  have hverdict : echoedSession.client.verdict = some (.ok none) := by decide +kernel
  have hbroken : echoedSession.broken = [] := by decide +kernel
  have hread := (echoed_readable (pipedConn.readConfig pipedHead.responseEncoding) rfl rfl rfl).2
  unfold echoedSession at hsent htorn houtcome hverdict hbroken hread ⊢
  generalize (Session.opened pipedConn pipedHead (⟨[.chunk 2, .pending]⟩ : SinkScript)
    (.fresh epoch) [] plainBidi (⟨[]⟩ : SinkScript)).run ⟨plainBidi.deadline⟩ echoed = s
      at h hsent htorn houtcome hverdict hbroken hread ⊢
  have hkeys : ∀ status, s.outcome = some (.error status) →
      ∀ entry ∈ status.metadata.entries, OwnKey entry.1 := by
    intro status hstatus
    rw [houtcome] at hstatus
    cases hstatus
  rcases h htorn hread hkeys hverdict with ⟨outcome, _, hreceived, _⟩ | ⟨e, he, _⟩
  · exact ⟨houtcome, hreceived.trans hsent⟩
  · rw [hbroken] at he
    cases he

end TrilliumGrpc
