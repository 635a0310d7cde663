import TrilliumGrpc.Frame.RoundTrip
import TrilliumGrpc.Server.Answered

/-! # Functions that take their requests one by one

The user function of a client-streaming call is any program over `GrpcServerConn::requests`;
what one poll of it does is the list of operations it makes, a suspended `recv` that is
dropped with its stream among them.
-/

namespace TrilliumGrpc

open Async ByteSource HeaderMap

variable {H ρ Req Resp T : Type}

inductive RequestOp (H : Type) where
  /-- Poll a `recv`, on a fresh stream if none is in hand. -/
  | recv
  /-- Drop the stream, and the `recv` that it has suspended. -/
  | drop
  | editHeaders (f : H → H)
  | editTrailers (f : H → H)

structure TakerPoll (H Resp : Type) where
  ops : List (RequestOp H)
  outcome : Poll (Except Status Resp)

/-- The future of such a function: the polls to come, its stream, what its `recv`s gave, and
whether one of them was dropped while it was suspended. -/
structure Taking (H ρ Req Resp : Type) where
  polls : List (TakerPoll H Resp)
  stream : Option (RequestStream Req ρ)
  future : RecvFuture
  got : List (Option (Except Status Req))
  torn : Bool

namespace Taking

/-- The conn behind the function: a stream that is in hand is dropped with it. -/
def release (s : Taking H ρ Req Resp) (grpc : GrpcServerConn H ρ) : GrpcServerConn H ρ :=
  match s.stream with
  | none => grpc
  | some stream => grpc.withBody stream.reader

variable [AsyncRead ρ] [CodecCrates]

def perform (decode : List UInt8 → Except Status Req)
    (s : Taking H ρ Req Resp × GrpcServerConn H ρ) :
    RequestOp H → Taking H ρ Req Resp × GrpcServerConn H ρ
  | .recv =>
      match (s.1.stream.getD (s.2.requests decode)).recv s.1.future with
      | (.pending, stream, future) => ({ s.1 with stream := some stream, future }, s.2)
      | (.ready result, stream, future) =>
          ({ s.1 with stream := some stream, future, got := s.1.got ++ [recvItem result] }, s.2)
  | .drop =>
      ({ s.1 with
          stream := none
          future := .unresumed
          torn := s.1.torn || decide (s.1.future = .suspended) },
        s.1.release s.2)
  | .editHeaders f =>
      (s.1, { s.2 with conn := { s.2.conn with responseHeaders := f s.2.conn.responseHeaders } })
  | .editTrailers f => (s.1, { s.2 with responseTrailers := f s.2.responseTrailers })

def handler (decode : List UInt8 → Except Status Req) (polls : List (TakerPoll H Resp)) :
    Handler (Taking H ρ Req Resp) H ρ Unit Resp where
  call _ := ⟨polls, none, .unresumed, [], false⟩
  poll s grpc :=
    match s.polls with
    | [] => (.pending, s, grpc)
    | p :: later =>
        let (s, grpc) := p.ops.foldl (perform decode) ({ s with polls := later }, grpc)
        match p.outcome with
        | .pending => (.pending, s, grpc)
        | .ready result => (.ready result, s, s.release grpc)

end Taking

/-! ## The polls of a race -/

namespace Taking

variable [AsyncRead ρ] [CodecCrates]

theorem foldl_polls (decode : List UInt8 → Except Status Req) (ops : List (RequestOp H))
    (s : Taking H ρ Req Resp × GrpcServerConn H ρ) :
    (ops.foldl (perform decode) s).1.polls = s.1.polls := by
  have hstep : ∀ (t : Taking H ρ Req Resp × GrpcServerConn H ρ) (op : RequestOp H),
      t.1.polls = s.1.polls → (perform decode t op).1.polls = s.1.polls := by
    intro t op ht
    rw [← ht]
    cases op with
    | recv =>
        rw [perform]
        split
        · rfl
        · rfl
    | _ => rfl
  exact kept_of_step hstep rfl ops

/-- A function one of whose polls is ready ends a race that nothing cancels. -/
theorem run_ends (decode : List UInt8 → Except Status Req) (start : List (TakerPoll H Resp))
    {c : Cancellation} {started : Bool} {sigs : List Signals} (hwhole : c.Uncancelled started sigs)
    {s : Taking H ρ Req Resp} {grpc : GrpcServerConn H ρ}
    (hready : ∃ p ∈ s.polls, p.outcome ≠ .pending) (hlong : s.polls.length ≤ sigs.length) :
    (c.run (handler decode start).resume started sigs ⟨s, grpc⟩).1.isSome := by
  induction sigs generalizing started s grpc with
  | nil =>
      obtain ⟨p, hp, _⟩ := hready
      rw [List.length_eq_zero_iff.mp (Nat.le_zero.mp hlong)] at hp
      cases hp
  | cons sig sigs ih =>
      obtain ⟨ready, hmem, hready⟩ := hready
      cases hpolls : s.polls with
      | nil =>
          rw [hpolls] at hmem
          cases hmem
      | cons p later =>
          rcases hfold : p.ops.foldl (perform decode) ({ s with polls := later }, grpc) with
            ⟨t, left⟩
          have hlater : t.polls = later := by
            have hpolls := foldl_polls decode p.ops ({ s with polls := later }, grpc)
            rw [hfold] at hpolls
            exact hpolls
          cases houtcome : p.outcome with
          | pending =>
              have hp : (handler decode start).resume ⟨s, grpc⟩ = (.pending, ⟨t, left⟩) := by
                simp only [Handler.resume, handler, hpolls, hfold, houtcome]
              rw [Cancellation.run_of_pending hwhole.1 hp]
              refine ih hwhole.2 ⟨ready, ?_, hready⟩ ?_
              · rw [hlater]
                rw [hpolls] at hmem
                rcases List.mem_cons.mp hmem with rfl | hmem
                · exact absurd houtcome hready
                · exact hmem
              · rw [hpolls] at hlong
                rw [hlater]
                exact Nat.le_of_succ_le_succ hlong
          | ready result =>
              have hp : (handler decode start).resume ⟨s, grpc⟩ =
                  (.ready result, ⟨t, t.release left⟩) := by
                simp only [Handler.resume, handler, hpolls, hfold, houtcome]
              rw [Cancellation.run_of_ready hwhole.1 hp]
              rfl

end Taking

/-! ## What the function gets -/

/-- The answers of `recv` calls on a stream of these messages: a front of them, and nothing
but the end behind all of them. -/
def Received (messages : List Req) (got : List (Option (Except Status Req))) : Prop :=
  ∃ taken left ends, messages = taken ++ left ∧
    got = taken.map (fun m => some (.ok m)) ++ List.replicate ends none ∧ (ends ≠ 0 → left = [])

namespace Taking

def view (s : Taking H ρ Req Resp) (grpc : GrpcServerConn H ρ) : ρ × ReadState :=
  match s.stream with
  | none => (grpc.conn.requestBody, .new)
  | some stream => (stream.reader, stream.state)

variable [ByteSource ρ] [CodecCrates]

/-- Between two operations the frames of `left` are still to come, with none of them begun
unless a `recv` is suspended. -/
structure Ahead (cfg : ReadConfig Req) (left : List (Req × List UInt8))
    (s : Taking H ρ Req Resp) (grpc : GrpcServerConn H ρ) : Prop where
  stream : ∀ stream, s.stream = some stream → stream.config = cfg
  encoding : grpc.requestEncoding = cfg.encoding
  holding : Holding cfg left (s.view grpc)
  between : s.future = .unresumed → rest (s.view grpc).1 = wire left

/-- Unless a `recv` was dropped part-way, the function has got a front of `sent`, and what is
left of it is ahead. -/
def InOrder (cfg : ReadConfig Req) (sent : List (Req × List UInt8))
    (s : Taking H ρ Req Resp × GrpcServerConn H ρ) : Prop :=
  s.1.torn = false → ∃ taken left ends, sent = taken ++ left ∧ Ahead cfg left s.1 s.2 ∧
    s.1.got = taken.map (fun x => some (.ok x.1)) ++ List.replicate ends none ∧
      (ends ≠ 0 → left = [])

variable {cfg : ReadConfig Req} {encode : Req → Except Status (List UInt8)}
  {sent left : List (Req × List UInt8)} {s : Taking H ρ Req Resp} {grpc : GrpcServerConn H ρ}

theorem InOrder.received (h : InOrder cfg sent (s, grpc)) (hwhole : s.torn = false) :
    Received (sent.map Prod.fst) s.got := by
  obtain ⟨taken, left, ends, rfl, _, hgot, hends⟩ := h hwhole
  refine ⟨taken.map Prod.fst, left.map Prod.fst, ends, List.map_append, ?_, ?_⟩
  · rw [hgot, List.map_map]
    rfl
  · intro hne
    rw [hends hne]
    rfl

theorem Ahead.requests (h : Ahead cfg left s grpc)
    (hcap : cfg.maxMessageSize = defaultMaxMessageSize) :
    (s.stream.getD (grpc.requests cfg.decode)).config = cfg ∧
      ((s.stream.getD (grpc.requests cfg.decode)).reader,
        (s.stream.getD (grpc.requests cfg.decode)).state) = s.view grpc := by
  unfold view
  cases hstream : s.stream with
  | none =>
      refine ⟨?_, rfl⟩
      obtain ⟨decode, encoding, maxMessageSize⟩ := cfg
      dsimp only at hcap
      rw [hcap]
      simp only [Option.getD_none, GrpcServerConn.requests, RequestStream.new, h.encoding]
  | some stream => exact ⟨h.stream stream hstream, rfl⟩

/-- What a poll of `recv` on the stream in hand comes to. -/
theorem Ahead.recv [LawfulCrates] (hcap : cfg.maxMessageSize = defaultMaxMessageSize)
    (hleft : ∀ x ∈ left, Carries cfg encode x.1 x.2) (h : Ahead cfg left s grpc) :
    match (s.stream.getD (grpc.requests cfg.decode)).recv s.future with
    | (.pending, stream, future) => future = .suspended ∧ stream.config = cfg ∧
        Holding cfg left (stream.reader, stream.state)
    | (.ready result, stream, future) => future = .unresumed ∧ stream.config = cfg ∧
        ∃ left', Holding cfg left' (stream.reader, stream.state) ∧ rest stream.reader = wire left' ∧
          ((recvItem result = none ∧ left = [] ∧ left' = []) ∨
            ∃ x, recvItem result = some (.ok x.1) ∧ left = x :: left') := by
  obtain ⟨hconfig, hview⟩ := h.requests hcap
  generalize s.stream.getD (grpc.requests cfg.decode) = stream at hconfig hview
  have hstep := h.holding.step (by rw [hcap]; decide) hleft
  rw [← hview, readPoll, ← hconfig] at hstep
  rw [RequestStream.recv, RequestStream.pollMessage]
  rcases hp : pollReadMessage stream.config stream.reader stream.state with
    ⟨_ | _ | status | m, body, state⟩
  · rw [hp] at hstep
    exact ⟨rfl, hconfig, hconfig ▸ hstep.1⟩
  · rw [hp] at hstep
    obtain ⟨hnil, hend, hspent, hdone⟩ := hstep
    exact ⟨rfl, hconfig, [], Holding.ended hend hspent hdone, hspent, .inl ⟨rfl, hnil, rfl⟩⟩
  · rw [hp] at hstep
    obtain ⟨x, left', _, hmessage, _⟩ := hstep
    cases hmessage
  · rw [hp] at hstep
    obtain ⟨x, left', hl, hmessage, hend, hrest, rfl⟩ := hstep
    cases hmessage
    exact ⟨rfl, hconfig, left', Holding.new hend hrest, hrest, .inr ⟨x, rfl, hl⟩⟩

theorem InOrder.recv [LawfulCrates] (hcap : cfg.maxMessageSize = defaultMaxMessageSize)
    (hsent : ∀ x ∈ sent, Carries cfg encode x.1 x.2) (h : InOrder cfg sent (s, grpc)) :
    InOrder cfg sent (perform cfg.decode (s, grpc) .recv) := by
  by_cases hwhole : s.torn = false
  · obtain ⟨taken, left, ends, rfl, hahead, hgot, hends⟩ := h hwhole
    have hleft : ∀ x ∈ left, Carries cfg encode x.1 x.2 :=
      fun x hx => hsent x (List.mem_append_right _ hx)
    have hrecv := hahead.recv hcap hleft
    rw [perform]
    rcases hp : (s.stream.getD (grpc.requests cfg.decode)).recv s.future with
      ⟨_ | result, stream, future⟩
    · rw [hp] at hrecv
      obtain ⟨rfl, hconfig, hholding⟩ := hrecv
      refine fun _ => ⟨taken, left, ends, rfl, ⟨?_, hahead.encoding, hholding, nofun⟩, hgot, hends⟩
      rintro _ ⟨⟩
      exact hconfig
    · rw [hp] at hrecv
      obtain ⟨rfl, hconfig, left', hholding, hrest, hitem⟩ := hrecv
      have hahead' : ∀ got, Ahead cfg left'
          { s with stream := some stream, future := .unresumed, got } grpc := by
        refine fun got => ⟨?_, hahead.encoding, hholding, fun _ => hrest⟩
        rintro _ ⟨⟩
        exact hconfig
      intro _
      rcases hitem with ⟨hnone, rfl, rfl⟩ | ⟨x, hsome, rfl⟩
      · refine ⟨taken, [], ends + 1, rfl, hahead' _, ?_, fun _ => rfl⟩
        dsimp only
        rw [hgot, hnone, List.append_assoc, ← List.replicate_succ']
      · have hzero : ends = 0 := by
          by_contra hne
          cases hends hne
        subst hzero
        refine ⟨taken ++ [x], left', 0, by simp, hahead' _, ?_, fun hne => absurd rfl hne⟩
        dsimp only
        rw [hgot, hsome]
        simp
  · intro hlater
    refine absurd ?_ hwhole
    rw [perform] at hlater
    split at hlater
    · exact hlater
    · exact hlater

omit [ByteSource ρ] [CodecCrates] in
theorem view_release (s : Taking H ρ Req Resp) (grpc : GrpcServerConn H ρ) :
    s.view (s.release grpc) = s.view grpc ∧
      (s.release grpc).requestEncoding = grpc.requestEncoding ∧
      (s.release grpc).conn.requestBody = (s.view grpc).1 := by
  unfold view release
  cases s.stream with
  | none => exact ⟨rfl, rfl, rfl⟩
  | some stream => exact ⟨rfl, rfl, rfl⟩

theorem InOrder.drop (decode : List UInt8 → Except Status Req) (h : InOrder cfg sent (s, grpc)) :
    InOrder cfg sent (perform decode (s, grpc) .drop) := by
  intro hlater
  obtain ⟨hwhole, hbetween⟩ := Bool.or_eq_false_iff.mp hlater
  obtain ⟨taken, left, ends, rfl, hahead, hgot, hends⟩ := h hwhole
  obtain ⟨_, hencoding, hbody⟩ := view_release s grpc
  have hunresumed : s.future = .unresumed := by
    cases hfuture : s.future with
    | unresumed => rfl
    | suspended => rw [hfuture] at hbetween; cases hbetween
  have hrest := hahead.between hunresumed
  refine ⟨taken, left, ends, rfl, ⟨nofun, hencoding.trans hahead.encoding, ?_, fun _ => ?_⟩, hgot,
    hends⟩
  · change Holding cfg left ((s.release grpc).conn.requestBody, .new)
    rw [hbody]
    exact Holding.new hahead.holding.ends hrest
  · change rest (s.release grpc).conn.requestBody = wire left
    rw [hbody]
    exact hrest

theorem InOrder.of_view {grpc' : GrpcServerConn H ρ} (h : InOrder cfg sent (s, grpc))
    (hview : s.view grpc' = s.view grpc)
    (hencoding : grpc'.requestEncoding = grpc.requestEncoding) :
    InOrder cfg sent (s, grpc') := by
  intro hwhole
  obtain ⟨taken, left, ends, hsplit, hahead, hgot, hends⟩ := h hwhole
  exact ⟨taken, left, ends, hsplit,
    ⟨hahead.stream, hencoding.trans hahead.encoding, hview ▸ hahead.holding,
      hview ▸ hahead.between⟩,
    hgot, hends⟩

theorem InOrder.poll_next (h : InOrder cfg sent (s, grpc)) (polls : List (TakerPoll H Resp)) :
    InOrder cfg sent ({ s with polls }, grpc) := by
  intro hwhole
  obtain ⟨taken, left, ends, hsplit, hahead, hgot, hends⟩ := h hwhole
  exact ⟨taken, left, ends, hsplit,
    ⟨hahead.stream, hahead.encoding, hahead.holding, hahead.between⟩, hgot, hends⟩

variable [LawfulCrates]

theorem InOrder.perform (hcap : cfg.maxMessageSize = defaultMaxMessageSize)
    (hsent : ∀ x ∈ sent, Carries cfg encode x.1 x.2) (h : InOrder cfg sent (s, grpc))
    (op : RequestOp H) : InOrder cfg sent (perform cfg.decode (s, grpc) op) := by
  cases op with
  | recv => exact h.recv hcap hsent
  | drop => exact h.drop cfg.decode
  | editHeaders f => exact h.of_view rfl rfl
  | editTrailers f => exact h.of_view rfl rfl

theorem InOrder.poll (hcap : cfg.maxMessageSize = defaultMaxMessageSize)
    (hsent : ∀ x ∈ sent, Carries cfg encode x.1 x.2) (start : List (TakerPoll H Resp))
    (h : InOrder cfg sent (s, grpc)) :
    InOrder cfg sent ((handler cfg.decode start).poll s grpc).2 := by
  have hstep : ∀ (t : Taking H ρ Req Resp × GrpcServerConn H ρ) (op : RequestOp H),
      InOrder cfg sent t → InOrder cfg sent (Taking.perform cfg.decode t op) :=
    fun _ op ht => InOrder.perform hcap hsent ht op
  simp only [handler]
  cases hpolls : s.polls with
  | nil => exact h
  | cons p later =>
      dsimp only
      have hafter := kept_of_step hstep (h.poll_next later) p.ops
      rcases hfold : p.ops.foldl (Taking.perform cfg.decode) ({ s with polls := later }, grpc) with
        ⟨t, left⟩
      rw [hfold] at hafter
      cases p.outcome with
      | pending => exact hafter
      | ready result =>
          obtain ⟨hview, hencoding, _⟩ := view_release t left
          exact hafter.of_view hview hencoding

theorem run_received (hcap : cfg.maxMessageSize = defaultMaxMessageSize)
    (hsent : ∀ x ∈ sent, Carries cfg encode x.1 x.2)
    (hencoding : grpc.requestEncoding = cfg.encoding)
    (hend : fault grpc.conn.requestBody = none) (hrest : rest grpc.conn.requestBody = wire sent)
    (polls : List (TakerPoll H Resp)) (c : Cancellation) (sigs : List Signals) :
    let f : Handler (Taking H ρ Req Resp) H ρ Unit Resp := handler cfg.decode polls
    let s := (c.run f.resume false sigs ⟨f.call (), grpc⟩).2
    s.future.torn = false → Received (sent.map Prod.fst) s.future.got := by
  intro f s
  have hstart : InOrder cfg sent ((f.call () : Taking H ρ Req Resp), grpc) :=
    fun _ => ⟨[], sent, 0, rfl, ⟨nofun, hencoding, Holding.new hend hrest, fun _ => hrest⟩, rfl,
      fun hne => absurd rfl hne⟩
  have hpoll : ∀ s : Handling (Taking H ρ Req Resp) H ρ, InOrder cfg sent (s.future, s.grpc) →
      InOrder cfg sent ((f.resume s).2.future, (f.resume s).2.grpc) :=
    fun s hs => InOrder.poll hcap hsent polls hs
  have hkept : InOrder cfg sent (s.future, s.grpc) :=
    Cancellation.run_kept (c := c) hpoll false sigs hstart
  exact hkept.received

end Taking

end TrilliumGrpc
