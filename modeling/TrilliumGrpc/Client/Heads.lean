import TrilliumGrpc.Client.Deferred
import TrilliumGrpc.Client.Stopped

/-! # The heads of requests

What the head of every request is built from that a call puts on the wire, whatever its
user does with it.
-/

namespace TrilliumGrpc

open Async HeaderMap Time

variable {ρ ω H Req Resp : Type}

/-- All that the head of a request depends on, the clock aside. -/
structure Blueprint (H : Type) where
  defaultHeaders : H
  path : String
  contentType : String
  metadata : Metadata
  outboundEncoding : Encoding
  deadline : Option Instant

def GrpcClientConn.blueprint (c : GrpcClientConn ρ ω H Req Resp) (p : Pending H) : Blueprint H :=
  ⟨p.defaultHeaders, p.path, p.contentType, p.requestMetadata, c.outboundEncoding, c.deadline⟩

namespace Call

section

variable [HeaderMap H] [Base64] [Features]

/-- A request built in this time, from a conn with such a blueprint. -/
def BuiltFrom (ρ ω Req Resp : Type) (K : Blueprint H → Prop) (since now : Instant)
    (r : Request H) : Prop :=
  ∃ (c : GrpcClientConn ρ ω H Req Resp) (p : Pending H) (built : Instant) (body : List UInt8),
    since ≤ built ∧ built ≤ now ∧ K (c.blueprint p) ∧ r = c.buildRequest p built body

/-- Later than `before`, and the requests that have come since are built from such
blueprints. -/
def Issued (ρ ω Req Resp : Type) (K : Blueprint H → Prop) (before w : World H) : Prop :=
  before.now ≤ w.now ∧
    ∃ new, w.requests = before.requests ++ new ∧
      ∀ r ∈ new, BuiltFrom ρ ω Req Resp K before.now w.now r

/-- The requests that the call has put on the wire since `before` are built from such
blueprints, and what it has in hand for the next one is such a blueprint. -/
structure Drafted (K : Blueprint H → Prop) (before : World H)
    (s : Call ρ ω H Req Resp) : Prop where
  pending : ∀ p, s.conn.inner = .pending p → K (s.conn.blueprint p)
  requests : Issued ρ ω Req Resp K before s.world

/-- The request of a suspended open is built from one, too; a read is past its opening. -/
def FutureDrafted (K : Blueprint H → Prop) (since : Instant) (s : Call ρ ω H Req Resp) :
    OpFuture H Req → Prop
  | .opening _ o => BuiltFrom ρ ω Req Resp K since s.world.now o.request
  | .reading => ¬ s.conn.inner.IsPending
  | _ => True

def StepDrafted (K : Blueprint H → Prop) (before : World H)
    (step : OpStep ρ ω H Req Resp) : Prop :=
  step.call.Drafted K before ∧
    (step.answer = .pending → step.call.FutureDrafted K before.now step.future)

variable {K : Blueprint H → Prop} {before : World H} {s s' : Call ρ ω H Req Resp}

theorem BuiltFrom.mono {since now now' : Instant} {r : Request H}
    (h : BuiltFrom ρ ω Req Resp K since now r) (hnow : now ≤ now') :
    BuiltFrom ρ ω Req Resp K since now' r := by
  obtain ⟨c, p, built, body, hsince, hbuilt, hK, hr⟩ := h
  exact ⟨c, p, built, body, hsince, Int.le_trans hbuilt hnow, hK, hr⟩

theorem Issued.later {w w' : World H} (h : Issued ρ ω Req Resp K before w)
    (hrequests : w'.requests = w.requests) (hnow : w.now ≤ w'.now) :
    Issued ρ ω Req Resp K before w' := by
  obtain ⟨hsince, new, hnew, hbuilt⟩ := h
  exact ⟨Int.le_trans hsince hnow, new, hrequests.trans hnew, fun r hr => (hbuilt r hr).mono hnow⟩

theorem Issued.put {w : World H} {o : Opening H} (h : Issued ρ ω Req Resp K before w)
    (ho : BuiltFrom ρ ω Req Resp K before.now w.now o.request) :
    Issued ρ ω Req Resp K before (w.put o) := by
  unfold World.put
  split
  · exact h
  · obtain ⟨hsince, new, hnew, hbuilt⟩ := h
    refine ⟨hsince, new ++ [o.request], ?_, ?_⟩
    · rw [hnew, List.append_assoc]
    · intro r hr
      rcases List.mem_append.mp hr with hr | hr
      · exact hbuilt r hr
      · exact List.mem_singleton.mp hr ▸ ho

theorem Drafted.opened (h : s.Drafted K before) (hrequests : s'.world.requests = s.world.requests)
    (hnow : s.world.now ≤ s'.world.now) (hopened : ¬ s'.conn.inner.IsPending) :
    s'.Drafted K before where
  pending p hp := absurd (by rw [hp]; trivial) hopened
  requests := h.requests.later hrequests hnow

theorem Drafted.finish (h : s.Drafted K before) (op : Op Req) (answer : Answer Resp) :
    StepDrafted K before (s.finish op answer) :=
  ⟨h, fun hpending => by cases hpending⟩

end

/-! ## The clock goes on -/

section

variable [ResponseBody ρ H] [CodecCrates] [HeaderMap H] [Base64]

theorem pollReading_now (s : Call ρ ω H Req Resp) (started : Bool) (tick : Tick ρ ω H) :
    s.world.now ≤ (s.pollReading started tick).call.world.now := by
  have hnow := Instant.le_later_left s.world.now tick.live.now
  unfold Call.pollReading
  dsimp only
  split
  · exact hnow
  · split
    · exact hnow
    · exact hnow

theorem deliver_now (s : Call ρ ω H Req Resp) (tick : Tick ρ ω H) :
    s.world.now ≤ (s.deliver tick).call.world.now := by
  unfold Call.deliver
  split
  · exact Int.le_refl _
  · exact Int.le_refl _
  · exact s.pollReading_now false tick

variable [AsyncWrite ω]

omit [ResponseBody ρ H] [CodecCrates] [HeaderMap H] [Base64] in
theorem pollClosing_now (s : Call ρ ω H Req Resp) (live : Live (Duplex ρ ω) H) :
    (s.pollClosing live).call.world = s.world := by
  unfold Call.pollClosing
  split
  dsimp only
  split <;> rfl

theorem afterOpen_now (s : Call ρ ω H Req Resp) (op : Op Req) (tick : Tick ρ ω H) :
    s.world.now ≤ (s.afterOpen op tick).call.world.now := by
  unfold Call.afterOpen
  split
  · exact s.deliver_now tick
  · split
    · rw [pollClosing_now]
      exact Int.le_refl _
    · exact Int.le_refl _
  · exact Int.le_refl _

end

/-! ## One poll -/

section

variable [ResponseBody ρ H] [AsyncWrite ω] [CodecCrates] [HeaderMap H] [Base64] [Features]
  {K : Blueprint H → Prop} {before : World H} {s : Call ρ ω H Req Resp}

omit [AsyncWrite ω] in
theorem Drafted.pollReading (h : s.Drafted K before) (hopened : ¬ s.conn.inner.IsPending)
    (started : Bool) (tick : Tick ρ ω H) : StepDrafted K before (s.pollReading started tick) := by
  have hquiet := Quiet.pollReading hopened started tick
  refine ⟨h.opened hquiet.requests (s.pollReading_now started tick) hquiet.opened, ?_⟩
  intro hpending
  rw [Quiet.pollReading_future hpending]
  exact hquiet.opened

omit [AsyncWrite ω] in
theorem Drafted.deliver (h : s.Drafted K before) (hopened : ¬ s.conn.inner.IsPending)
    (tick : Tick ρ ω H) : StepDrafted K before (s.deliver tick) := by
  have hquiet := Quiet.deliver hopened tick
  refine ⟨h.opened hquiet.requests (s.deliver_now tick) hquiet.opened, ?_⟩
  intro hpending
  rw [Quiet.deliver_future hpending]
  exact hquiet.opened

omit [ResponseBody ρ H] [CodecCrates] in
theorem Drafted.pollClosing (h : s.Drafted K before) (live : Live (Duplex ρ ω) H) :
    StepDrafted K before (s.pollClosing live) := by
  have hquiet := Quiet.pollClosing s live
  have hnow : s.world.now ≤ (s.pollClosing live).call.world.now := by
    rw [pollClosing_now]
    exact Int.le_refl _
  refine ⟨h.opened hquiet.requests hnow hquiet.opened, ?_⟩
  intro hpending
  rw [Quiet.pollClosing_future hpending]
  trivial

theorem Drafted.afterOpen (h : s.Drafted K before) (hopened : ¬ s.conn.inner.IsPending)
    (op : Op Req) (tick : Tick ρ ω H) : StepDrafted K before (s.afterOpen op tick) := by
  have hquiet := Quiet.afterOpen hopened op tick
  refine ⟨h.opened hquiet.requests (s.afterOpen_now op tick) hquiet.opened, ?_⟩
  intro hpending
  rcases Quiet.afterOpen_future hpending with ⟨_, hfuture⟩ | ⟨_, hfuture⟩
  · rw [hfuture]
    exact hquiet.opened
  · rw [hfuture]
    trivial

theorem Drafted.pollOpening (h : s.Drafted K before) (op : Op Req) {o : Opening H}
    (ho : BuiltFrom ρ ω Req Resp K before.now s.world.now o.request) (started : Bool)
    (tick : Tick ρ ω H) : StepDrafted K before (s.pollOpening op o started tick) := by
  have hnow : s.world.now ≤ (s.world.observe tick.opening).now := Instant.le_later_left _ _
  have hobserved : Issued ρ ω Req Resp K before (s.world.observe tick.opening) :=
    h.requests.later rfl hnow
  have hput := hobserved.put (ho.mono hnow)
  -- a call whose opening failed is past it
  have hfailed : ∀ (w : World H) (status status' : Status), Issued ρ ω Req Resp K before w →
      StepDrafted K before (Call.finish ⟨s.conn.fail status, w⟩ op (op.failure status')) := by
    intro w status status' hw
    refine Drafted.finish ⟨?_, hw⟩ _ _
    intro p hp
    cases hp
  unfold Call.pollOpening
  dsimp only
  cases interrupt s.conn.deadline started (s.world.observe tick.opening) tick.opening.timer with
  | some status => exact hfailed _ _ _ hobserved
  | none =>
      cases tick.net with
      | connecting => exact ⟨⟨h.pending, hobserved⟩, fun _ => ho.mono hnow⟩
      | sent =>
          refine ⟨⟨h.pending, hput⟩, fun _ => ?_⟩
          have hclock : ((s.world.observe tick.opening).put o).now =
              (s.world.observe tick.opening).now := by
            unfold World.put
            split <;> rfl
          change BuiltFrom ρ ω Req Resp K before.now ((s.world.observe tick.opening).put o).now
            o.request
          rw [hclock]
          exact ho.mono hnow
      | refused e => exact hfailed _ _ _ hobserved
      | broken e => exact hfailed _ _ _ hput
      | response r =>
          dsimp only
          cases processHead r with
          | error status => exact hfailed _ _ _ hput
          | ok head =>
              have hopened := (goLive_encodeMessage s.conn r head).2
              have hlive : Drafted K before (⟨s.conn.goLive r head,
                  (s.world.observe tick.opening).put o⟩ : Call ρ ω H Req Resp) :=
                ⟨fun p hp => absurd (by rw [hp]; trivial) hopened, hput⟩
              exact hlive.afterOpen hopened op tick

theorem Drafted.materialize (h : s.Drafted K before) {p : Pending H} (hp : K (s.conn.blueprint p))
    (op : Op Req) (tick : Tick ρ ω H) : StepDrafted K before (s.materialize p op tick) := by
  unfold Call.materialize
  cases s.conn.initError with
  | some status =>
      have hfailed : Drafted K before (⟨{ s.conn with initError := none }.fail status, s.world⟩ :
          Call ρ ω H Req Resp) := by
        refine ⟨?_, h.requests⟩
        intro q hq
        cases hq
      exact hfailed.finish _ _
  | none =>
      have hnow : s.world.now ≤ s.world.now.later tick.build := Instant.le_later_left _ _
      have hbuilding : Drafted K before (⟨{ s.conn with inner := .pending { p with body := [] } },
          { s.world with now := s.world.now.later tick.build }⟩ : Call ρ ω H Req Resp) := by
        refine ⟨?_, h.requests.later rfl hnow⟩
        rintro q hq
        cases hq
        exact hp
      exact hbuilding.pollOpening op
        ⟨_, p, _, _, Int.le_trans h.requests.1 hnow, Int.le_refl _, hp, rfl⟩ false tick

omit [ResponseBody ρ H] [CodecCrates] in
theorem Drafted.pollWriting (h : s.Drafted K before) (live : Live (Duplex ρ ω) H)
    (hopened : ¬ s.conn.inner.IsPending) (frame left : List UInt8) (started : Bool)
    (tick : Tick ρ ω H) : StepDrafted K before (s.pollWriting live frame left started tick) := by
  have hnow : s.world.now ≤ (s.world.observe tick.live).now := Instant.le_later_left _ _
  unfold Call.pollWriting
  dsimp only
  cases interrupt s.conn.deadline started (s.world.observe tick.live) tick.live.timer with
  | some status => exact ⟨h.opened rfl hnow hopened, fun hpending => by cases hpending⟩
  | none =>
      dsimp only
      split
      · exact ⟨h.opened rfl hnow id, fun _ => trivial⟩
      · exact ⟨h.opened rfl hnow id, fun hpending => by cases hpending⟩

omit [ResponseBody ρ H] in
theorem Drafted.startSend (h : s.Drafted K before) (message : Req) (tick : Tick ρ ω H) :
    StepDrafted K before (s.startSend message tick) := by
  unfold Call.startSend
  cases s.conn.encodeMessage message with
  | error status => exact h.finish _ _
  | ok frame =>
      cases hinner : s.conn.inner with
      | pending p =>
          dsimp only
          split
          · exact h.finish _ _
          · have hbuffered : Drafted K before (⟨{ s.conn with
                inner := .pending { p with body := p.body ++ frame } }, s.world⟩ :
                Call ρ ω H Req Resp) := by
              refine ⟨?_, h.requests⟩
              rintro q hq
              cases hq
              exact h.pending p hinner
            exact hbuffered.finish _ _
      | duplex live =>
          refine h.pollWriting live ?_ frame frame false tick
          rw [hinner]
          exact id
      | _ => exact h.finish _ _

/-- Whatever is polled, the requests stay what they are drafted to be. -/
theorem Drafted.poll (h : s.Drafted K before) {future : OpFuture H Req}
    (hfuture : s.FutureDrafted K before.now future) (tick : Tick ρ ω H) :
    StepDrafted K before (s.poll tick future) := by
  cases future with
  | start op =>
      cases op with
      | send message => exact h.startSend message tick
      | closeSend =>
          show StepDrafted K before (s.startClose tick)
          unfold startClose
          cases hinner : s.conn.inner with
          | pending p =>
              have hclosed : Drafted K before (⟨{ s.conn with
                  inner := .pending { p with sendClosed := true } }, s.world⟩ :
                  Call ρ ω H Req Resp) := by
                refine ⟨?_, h.requests⟩
                rintro q hq
                cases hq
                exact h.pending p hinner
              exact hclosed.materialize (p := { p with sendClosed := true }) (h.pending p hinner) _
                tick
          | duplex live => exact h.pollClosing live
          | _ => exact h.finish _ _
      | openHead =>
          show StepDrafted K before (s.startOpenHead tick)
          unfold startOpenHead
          cases hinner : s.conn.inner with
          | pending p => exact h.materialize (h.pending p hinner) _ tick
          | _ => exact h.finish _ _
      | recv =>
          show StepDrafted K before (s.startRecv tick)
          unfold startRecv
          cases hinner : s.conn.inner with
          | pending p => exact h.materialize (h.pending p hinner) _ tick
          | _ =>
              refine h.deliver ?_ tick
              rw [hinner]
              exact id
  | opening op o => exact h.pollOpening op hfuture true tick
  | reading => exact h.pollReading hfuture true tick
  | writing frame left =>
      simp only [Call.poll]
      split
      · rename_i live hinner
        refine h.pollWriting live ?_ frame left true tick
        rw [hinner]
        exact id
      · exact ⟨h, fun _ => trivial⟩
  | closing =>
      simp only [Call.poll]
      split
      · exact h.pollClosing _
      · exact ⟨h, fun _ => trivial⟩

/-! ## Whole runs -/

theorem Drafted.drive (h : s.Drafted K before) {future : OpFuture H Req}
    (hfuture : s.FutureDrafted K before.now future) (ticks : List (Tick ρ ω H)) :
    (s.drive future ticks).2.1.Drafted K before := by
  induction ticks generalizing s future with
  | nil => exact h
  | cons tick ticks ih =>
      have hstep := h.poll hfuture tick
      unfold Call.drive
      cases hp : s.poll tick future with
      | mk answer s' future' =>
          rw [hp] at hstep
          cases answer with
          | pending => exact ih hstep.1 (hstep.2 rfl)
          | ready answer => exact hstep.1

end

end Call

/-! ## Setters -/

/-- The metadata entry that an action adds to a pending call, if it is accepted. -/
def Action.entry : Action ρ ω H Req → Option (String × MetadataValue)
  | .addAsciiMetadata key value =>
      if (errorOf (Metadata.new.insertAscii key value)).isNone then some (key, .ascii value)
      else none
  | .addBinaryMetadata key value =>
      if (errorOf (Metadata.new.insertBinary key value)).isNone then some (key, .binary value)
      else none
  | _ => none

def Action.SetsTimeout : Action ρ ω H Req → Prop
  | .withTimeout _ _ => True
  | _ => False

/-- What a blueprint has become by these actions: the accepted metadata stands behind what
was there, in their order, and nothing but a timeout changes the deadline. -/
structure Blueprint.After (start : Blueprint H) (log : List (Action ρ ω H Req))
    (b : Blueprint H) : Prop where
  defaults : b.defaultHeaders = start.defaultHeaders
  path : b.path = start.path
  contentType : b.contentType = start.contentType
  encoding : b.outboundEncoding = start.outboundEncoding
  metadata : b.metadata.entries = start.metadata.entries ++ log.filterMap Action.entry
  built : start.metadata.Built → b.metadata.Built
  deadline : (∀ action ∈ log, ¬ action.SetsTimeout) → b.deadline = start.deadline

namespace Blueprint.After

variable {start b : Blueprint H} {log : List (Action ρ ω H Req)}

theorem refl (start : Blueprint H) : start.After ([] : List (Action ρ ω H Req)) start :=
  ⟨rfl, rfl, rfl, rfl, (List.append_nil _).symm, id, fun _ => rfl⟩

theorem snoc (h : start.After log b) {action : Action ρ ω H Req} (hentry : action.entry = none)
    {deadline : Option Instant} (hdeadline : ¬ action.SetsTimeout → deadline = b.deadline) :
    start.After (log ++ [action]) { b with deadline } := by
  refine ⟨h.defaults, h.path, h.contentType, h.encoding, ?_, h.built, ?_⟩
  · rw [List.filterMap_append, List.filterMap_cons_none hentry, List.filterMap_nil,
      List.append_nil]
    exact h.metadata
  · intro hnone
    refine (hdeadline (hnone action (by simp))).trans (h.deadline fun earlier hmem => ?_)
    exact hnone earlier (List.mem_append_left _ hmem)

theorem insert (h : start.After log b) {action : Action ρ ω H Req} {m' : Metadata}
    (hmetadata : m'.entries = b.metadata.entries ++ action.entry.toList)
    (hbuilt : b.metadata.Built → m'.Built) :
    start.After (log ++ [action]) { b with metadata := m' } := by
  refine ⟨h.defaults, h.path, h.contentType, h.encoding, ?_,
    fun hstart => hbuilt (h.built hstart),
    fun hnone => h.deadline fun earlier hmem => hnone earlier (List.mem_append_left _ hmem)⟩
  have hlast : [action].filterMap Action.entry = action.entry.toList := by
    cases hentry : action.entry with
    | none => rw [List.filterMap_cons_none hentry]; rfl
    | some entry => rw [List.filterMap_cons_some hentry]; rfl
  rw [List.filterMap_append, hlast, ← List.append_assoc, ← h.metadata]
  exact hmetadata

end Blueprint.After

namespace GrpcClientConn

variable {c : GrpcClientConn ρ ω H Req Resp}

theorem addMetadata_blueprint [UnicodeTables]
    {insert : Metadata → Except MetadataError Metadata} {q : Pending H}
    (h : (c.addMetadata insert).inner = .pending q) : ∃ p, c.inner = .pending p ∧
      (c.addMetadata insert).blueprint q =
        { c.blueprint p with
          metadata := (insert p.requestMetadata).toOption.getD p.requestMetadata } := by
  rw [addMetadata] at h ⊢
  cases hinner : c.inner with
  | pending p =>
      refine ⟨p, rfl, ?_⟩
      simp only [hinner] at h ⊢
      cases hinsert : insert p.requestMetadata with
      | ok m =>
          simp only [hinsert] at h ⊢
          cases h
          rfl
      | error e =>
          simp only [hinsert] at h ⊢
          cases h
          rfl
  | _ =>
      simp only [hinner] at h
      cases h

theorem bufferRequest_blueprint [CodecCrates] {message : Req} {q : Pending H}
    (h : (c.bufferRequest message).inner = .pending q) : ∃ p, c.inner = .pending p ∧
      (c.bufferRequest message).blueprint q = c.blueprint p := by
  rw [bufferRequest] at h ⊢
  cases hframe : c.encodeMessage message with
  | error status =>
      rw [hframe] at h
      exact ⟨q, h, rfl⟩
  | ok frame =>
      rw [hframe] at h
      dsimp only at h ⊢
      cases hinner : c.inner with
      | pending p =>
          simp only [hinner] at h ⊢
          cases h
          exact ⟨p, rfl, rfl⟩
      | _ =>
          simp only [hinner] at h
          cases h

end GrpcClientConn

namespace Call

/-- The call has in hand what the actions so far have made of its start. -/
def Follows (start : Blueprint H) (log : List (Action ρ ω H Req))
    (s : Call ρ ω H Req Resp) : Prop :=
  ∀ p, s.conn.inner = .pending p → start.After log (s.conn.blueprint p)

variable {start : Blueprint H} {log : List (Action ρ ω H Req)} {s : Call ρ ω H Req Resp}

theorem Follows.fresh {p : Pending H} (hinner : s.conn.inner = .pending p) :
    s.Follows (s.conn.blueprint p) ([] : List (Action ρ ω H Req)) := by
  intro q hq
  rw [hinner] at hq
  cases hq
  exact .refl _

theorem Follows.addMetadata [UnicodeTables] (h : s.Follows start log) {action : Action ρ ω H Req}
    (insert : Metadata → Except MetadataError Metadata)
    (hok : ∀ m m', insert m = .ok m' →
      m'.entries = m.entries ++ action.entry.toList ∧ (m.Built → m'.Built))
    (herror : ∀ m e, insert m = .error e → action.entry = none) :
    (⟨s.conn.addMetadata insert, s.world⟩ : Call ρ ω H Req Resp).Follows start
      (log ++ [action]) := by
  intro q hq
  obtain ⟨p, hp, hblueprint⟩ := GrpcClientConn.addMetadata_blueprint hq
  have hafter := h p hp
  change start.After (log ++ [action]) ((s.conn.addMetadata insert).blueprint q)
  rw [hblueprint]
  cases hinsert : insert p.requestMetadata with
  | ok m =>
      obtain ⟨hentries, hbuilt⟩ := hok _ _ hinsert
      exact hafter.insert hentries hbuilt
  | error e =>
      refine hafter.insert ?_ id
      rw [herror _ _ hinsert]
      exact (List.append_nil _).symm

variable [HeaderMap H] [Base64] [Features] [ResponseBody ρ H] [AsyncWrite ω] [CodecCrates]

/-- An action puts requests on the wire, if any, that are built from what is in hand. -/
theorem Follows.act (h : s.Follows start log) (action : Action ρ ω H Req) :
    (s.act action).2.Follows start (log ++ [action]) ∧
      Issued ρ ω Req Resp (start.After log) s.world (s.act action).2.world := by
  have hissued : ∀ {w : World H}, w.requests = s.world.requests → s.world.now ≤ w.now →
      Issued ρ ω Req Resp (start.After log) s.world w :=
    fun hrequests hnow =>
      ⟨hnow, [], by rw [hrequests, List.append_nil], fun r hr => by cases hr⟩
  have hsame := hissued rfl (Int.le_refl _)
  have hnow : ∀ now, s.world.now ≤ s.world.now.later now := fun now => Instant.le_later_left _ _
  have hkept : action.entry = none → ∀ p, s.conn.inner = .pending p →
      start.After (log ++ [action]) (s.conn.blueprint p) :=
    fun hentry p hp => (h p hp).snoc hentry fun _ => rfl
  cases action with
  | operate op ticks =>
      have hdrafted : s.Drafted (start.After log) s.world := ⟨h, hsame⟩
      obtain ⟨hpending, hrequests⟩ :=
        hdrafted.drive (show s.FutureDrafted _ _ (.start op) from trivial) ticks
      exact ⟨fun p hp => (hpending p hp).snoc rfl fun _ => rfl, hrequests⟩
  | addAsciiMetadata key value =>
      refine ⟨h.addMetadata (fun m => m.insertAscii key value) ?_ ?_, hsame⟩
      · intro m m' hinsert
        have hnone := errorOf_insertAscii m key value
        rw [hinsert] at hnone
        refine ⟨?_, fun hbuilt => .ascii hbuilt hinsert⟩
        rw [Action.entry, ← hnone]
        exact (Metadata.insertAscii_ok hinsert).2
      · intro m e hinsert
        have hsome := errorOf_insertAscii m key value
        rw [hinsert] at hsome
        rw [Action.entry, ← hsome]
        rfl
  | addBinaryMetadata key value =>
      refine ⟨h.addMetadata (fun m => m.insertBinary key value) ?_ ?_, hsame⟩
      · intro m m' hinsert
        have hnone := errorOf_insertBinary m key value
        rw [hinsert] at hnone
        refine ⟨?_, fun hbuilt => .binary hbuilt hinsert⟩
        rw [Action.entry, ← hnone]
        exact (Metadata.insertBinary_ok hinsert).2
      · intro m e hinsert
        have hsome := errorOf_insertBinary m key value
        rw [hinsert] at hsome
        rw [Action.entry, ← hsome]
        rfl
  | bufferRequest message =>
      refine ⟨fun q hq => ?_, hsame⟩
      obtain ⟨p, hp, hblueprint⟩ := GrpcClientConn.bufferRequest_blueprint hq
      change start.After (log ++ [.bufferRequest message])
        ((s.conn.bufferRequest message).blueprint q)
      rw [hblueprint]
      exact hkept rfl p hp
  | withTimeout timeout now =>
      cases hset : s.conn.setDeadlineFromNow timeout (s.world.now.later now) with
      | ok conn =>
          simp only [Call.act, hset]
          refine ⟨fun p hp => ?_, hissued rfl (hnow now)⟩
          rw [GrpcClientConn.setDeadlineFromNow] at hset
          cases hadd : (s.world.now.later now).add timeout with
          | error panic => rw [hadd] at hset; cases hset
          | ok deadline =>
              rw [hadd] at hset
              cases hset
              exact (h p hp).snoc rfl fun hnone => absurd trivial hnone
      | error panic =>
          simp only [Call.act, hset]
          exact ⟨hkept rfl, hissued rfl (hnow now)⟩
  | cancel => exact ⟨hkept rfl, hsame⟩
  | wait now => exact ⟨hkept rfl, hissued rfl (hnow now)⟩

theorem acts_append (s : Call ρ ω H Req Resp) (actions later : List (Action ρ ω H Req)) :
    (s.acts (actions ++ later)).2 = ((s.acts actions).2.acts later).2 := by
  induction actions generalizing s with
  | nil => rfl
  | cons action rest ih => exact ih _

theorem Follows.acts (h : s.Follows start []) (actions : List (Action ρ ω H Req)) :
    (s.acts actions).2.Follows start actions ∧ s.world.now ≤ (s.acts actions).2.world.now := by
  induction actions using List.reverseRecOn with
  | nil => exact ⟨h, Int.le_refl _⟩
  | append_singleton front action ih =>
      rw [acts_append]
      obtain ⟨hfollows, hissued⟩ := ih.1.act action
      exact ⟨hfollows, Int.le_trans ih.2 hissued.1⟩

/-- The action that puts a request on the wire, behind those in front of it. -/
def Sends (s : Call ρ ω H Req Resp) (front : List (Action ρ ω H Req))
    (action : Action ρ ω H Req) (r : Request H) : Prop :=
  ∃ new, (s.acts (front ++ [action])).2.world.requests =
    (s.acts front).2.world.requests ++ new ∧ r ∈ new

/-- Every request that a call puts on the wire, in whatever run, is built from what the
actions in front of the one that sends it have made of its start. -/
theorem acts_built {p : Pending H} (hinner : s.conn.inner = .pending p)
    (hnone : s.world.requests = []) (actions : List (Action ρ ω H Req)) {r : Request H}
    (hr : r ∈ (s.acts actions).2.world.requests) :
    ∃ front action, front ++ [action] <+: actions ∧ s.Sends front action r ∧
      BuiltFrom ρ ω Req Resp ((s.conn.blueprint p).After front) (s.acts front).2.world.now
        (s.acts actions).2.world.now r := by
  induction actions using List.reverseRecOn with
  | nil =>
      change r ∈ s.world.requests at hr
      rw [hnone] at hr
      cases hr
  | append_singleton front action ih =>
      obtain ⟨hsince, new, hnew, hbuilt⟩ := (((Follows.fresh hinner).acts front).1.act action).2
      have hstep : (s.acts (front ++ [action])).2 = ((s.acts front).2.act action).2 :=
        acts_append s front [action]
      rw [← hstep] at hsince hnew hbuilt
      rw [hnew] at hr
      rcases List.mem_append.mp hr with hr | hr
      · obtain ⟨earlier, sending, hfront, hsent, hearlier⟩ := ih hr
        exact ⟨earlier, sending, hfront.trans (List.prefix_append _ _), hsent,
          hearlier.mono hsince⟩
      · exact ⟨front, action, List.prefix_rfl, ⟨new, hnew, hr⟩, hbuilt r hr⟩

end Call

end TrilliumGrpc
