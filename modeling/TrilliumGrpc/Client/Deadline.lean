import TrilliumGrpc.Client.Typed
import TrilliumGrpc.MetadataRuns
import TrilliumGrpc.TimeoutFormat

/-! # The deadline of a call

A timeout reaches a call by `with_timeout`, by `GrpcClientConn::new`, or as the default
of the service client, which is kept in its default headers (`src/client/service_client.rs`).
-/

namespace TrilliumGrpc

open Async HeaderMap Time

variable {ρ ω H Req Resp : Type} [HeaderMap H]

/-- `set_default_timeout`, on the client's default headers. -/
def setDefaultTimeout [Removable H] (defaultHeaders : H) (d : Duration) : H :=
  if d = .zero then Removable.remove defaultHeaders "grpc-timeout"
  else insert defaultHeaders "grpc-timeout" (.ofString (formatGrpcTimeout d))

theorem defaultTimeout_zero [Removable H] (defaultHeaders : H) :
    values (setDefaultTimeout defaultHeaders .zero) "grpc-timeout" = [] ∧
      defaultTimeout (setDefaultTimeout defaultHeaders .zero) = none := by
  have hvalues : values (setDefaultTimeout defaultHeaders .zero) "grpc-timeout" = [] := by
    rw [setDefaultTimeout, if_pos rfl, Removable.values_remove, if_pos (SameName.refl _)]
  exact ⟨hvalues, by rw [defaultTimeout, getStr_of_nil hvalues]; rfl⟩

theorem defaultTimeout_of_ne_zero [Removable H] (defaultHeaders : H) {d : Duration}
    (h : d ≠ .zero) : defaultTimeout (setDefaultTimeout defaultHeaders d) =
      parseGrpcTimeout (formatGrpcTimeout d) := by
  rw [defaultTimeout, setDefaultTimeout, if_neg h, getStr_insert_self, Option.bind_some]

/-! ## What a timeout is worth on the wire -/

def longestTimeout : Nat := maxTimeoutValue * hour

theorem min_le_round (n : Nat) : min n longestTimeout ≤ timeoutScale.round n := by
  have hlimit : timeoutScale.largest.1 * timeoutScale.cap = longestTimeout :=
    Nat.mul_comm hour maxTimeoutValue
  by_cases hsmall : n ≤ timeoutScale.largest.1 * timeoutScale.cap
  · exact Nat.le_trans (Nat.min_le_left _ _) (Scale.le_round hsmall).1
  · rw [Scale.round, Scale.choice_of_large (Nat.lt_of_not_le hsmall), hlimit]
    exact Nat.min_le_right _ _

theorem round_le_longest (n : Nat) : timeoutScale.round n ≤ longestTimeout := by
  have hunit := timeoutScale.le_largest _ (timeoutScale.choice_spec n).1
  have hlimit : timeoutScale.largest.1 * timeoutScale.cap = longestTimeout :=
    Nat.mul_comm hour maxTimeoutValue
  rw [← hlimit]
  exact Nat.le_trans (timeoutScale.round_le n) (Nat.mul_le_mul_right timeoutScale.cap hunit)

theorem parse_format_covers (d : Duration) : ∃ sent,
    parseGrpcTimeout (formatGrpcTimeout d) = some sent ∧
      min d.asNanos longestTimeout ≤ sent.asNanos ∧ sent.asNanos ≤ longestTimeout := by
  obtain ⟨sent, hparse, hround⟩ := parse_format d
  have hcovers := min_le_round d.asNanos
  have hlimit := round_le_longest d.asNanos
  rw [← hround] at hcovers hlimit
  exact ⟨sent, hparse, hcovers, hlimit⟩

/-! ## The request of a call with a deadline -/

section Request

variable [Base64] [Features]

theorem values_timeout (c : GrpcClientConn ρ ω H Req Resp) {p : Pending H}
    (hkeys : p.requestMetadata.Reachable H) (later : Instant) (body : List UInt8) :
    values (c.buildRequest p later body).headers "grpc-timeout" =
      match c.deadline with
      | none => values p.defaultHeaders "grpc-timeout"
      | some deadline =>
          [.ofString (formatGrpcTimeout (deadline.saturatingDurationSince later))] := by
  have htype : ¬ SameName "grpc-timeout" "content-type" := by decide
  have hte : ¬ SameName "grpc-timeout" "te" := by decide
  have haccept : ¬ SameName "grpc-timeout" "grpc-accept-encoding" := by decide
  have hencoding : ¬ SameName "grpc-timeout" "grpc-encoding" := by decide
  unfold GrpcClientConn.buildRequest
  dsimp only
  rw [Metadata.values_writeInto_reserved hkeys.keys _ _ (by decide)]
  cases c.deadline with
  | some deadline => exact values_insert_self _ _ _
  | none =>
      dsimp only
      split <;> simp only [values_insert_other _ _ htype, values_insert_other _ _ hte,
        values_insert_other _ _ haccept, values_insert_other _ _ hencoding]

/-- At every clock the request names no less than the time that remains, up to the
longest time there is a header for; and without a deadline what the defaults name. -/
def Advertises (c : GrpcClientConn ρ ω H Req Resp) : Prop :=
  ∀ (p : Pending H) (later : Instant) (body : List UInt8), p.requestMetadata.Reachable H →
    match c.deadline with
    | none => values (c.buildRequest p later body).headers "grpc-timeout" =
        values p.defaultHeaders "grpc-timeout"
    | some deadline => ∃ text sent,
        getStr (c.buildRequest p later body).headers "grpc-timeout" = some text ∧
        parseGrpcTimeout text = some sent ∧
        min (deadline.saturatingDurationSince later).asNanos longestTimeout ≤ sent.asNanos

theorem advertises (c : GrpcClientConn ρ ω H Req Resp) : Advertises c := by
  intro p later body hkeys
  have hvalues := values_timeout c hkeys later body
  cases hdeadline : c.deadline with
  | none =>
      rw [hdeadline] at hvalues
      exact hvalues
  | some deadline =>
      rw [hdeadline] at hvalues
      obtain ⟨sent, hparse, hcovers, _⟩ :=
        parse_format_covers (deadline.saturatingDurationSince later)
      refine ⟨_, sent, ?_, hparse, hcovers⟩
      rw [getStr_of_singleton hvalues, HeaderValue.asStr_ofString]

end Request

/-! ## The ways a timeout is set -/

/-- Where a timeout enters a call: on a connection that is there, with a connection that
is made, or by the client's defaults, from which every typed call takes it. -/
inductive TimeoutEntry (ρ ω H Req Resp : Type) where
  | withTimeout (c : GrpcClientConn ρ ω H Req Resp)
  | new (codec : Codec Req Resp) (defaultHeaders : H) (path : String) (metadata : Metadata)
      (fullDuplex : Bool)
  | withDefaultTimeout (codec : Codec Req Resp) (defaultHeaders : H) (path : String)
      (metadata : Metadata) (fullDuplex : Bool)

namespace TimeoutEntry

def IsDefault : TimeoutEntry ρ ω H Req Resp → Prop
  | withDefaultTimeout .. => True
  | _ => False

/-- The call with its timeout, as it is made at the given clock. -/
def build [Removable H] [Features] (entry : TimeoutEntry ρ ω H Req Resp) (d : Duration)
    (now : Instant) : MayPanic (GrpcClientConn ρ ω H Req Resp) :=
  match entry with
  | withTimeout c => c.setDeadlineFromNow d now
  | new codec defaultHeaders path metadata fullDuplex =>
      GrpcClientConn.new codec defaultHeaders path metadata (some d) fullDuplex now
  | withDefaultTimeout codec defaultHeaders path metadata fullDuplex =>
      let defaultHeaders := setDefaultTimeout defaultHeaders d
      GrpcClientConn.new codec defaultHeaders path metadata (defaultTimeout defaultHeaders)
        fullDuplex now

end TimeoutEntry

/-- The call is made. Its deadline leaves the time that was asked for, and no less than
the longest time of a header where the defaults carry it in one; a default that was
cleared leaves no deadline. Its requests advertise the time that remains. -/
def TimeoutEntry.Usable [Removable H] [Base64] [Features] (entry : TimeoutEntry ρ ω H Req Resp)
    (d : Duration) (now : Instant) : Prop :=
  ∃ c, entry.build d now = .ok c ∧ Advertises c ∧
    match c.deadline with
    | none => entry.IsDefault ∧ d = .zero ∧
        ∃ p, c.inner = .pending p ∧ values p.defaultHeaders "grpc-timeout" = []
    | some deadline =>
        now.toNanos + (min d.asNanos longestTimeout : Nat) ≤ deadline.toNanos ∧
          (¬ entry.IsDefault → deadline.toNanos = now.toNanos + d.asNanos)

section Usable

variable [Features]

theorem new_with_timeout (codec : Codec Req Resp) (defaultHeaders : H) (path : String)
    (metadata : Metadata) (d : Duration) (fullDuplex : Bool) (now : Instant) :
    (∃ c : GrpcClientConn ρ ω H Req Resp, GrpcClientConn.new codec defaultHeaders path metadata
        (some d) fullDuplex now = .ok c) ↔ ∃ sum, now.add d = .ok sum := by
  unfold GrpcClientConn.new
  dsimp only
  cases now.add d with
  | error e => simp [Except.map]
  | ok sum => simp [Except.map]

theorem deadline_of_new {codec : Codec Req Resp} {defaultHeaders : H} {path : String}
    {metadata : Metadata} {timeout : Option Duration} {fullDuplex : Bool} {now : Instant}
    {c : GrpcClientConn ρ ω H Req Resp}
    (h : GrpcClientConn.new codec defaultHeaders path metadata timeout fullDuplex now = .ok c) :
    (∃ p, c.inner = .pending p ∧ p.defaultHeaders = defaultHeaders) ∧
      match timeout with
      | none => c.deadline = none
      | some d => ∃ sum, now.add d = .ok sum ∧ c.deadline = some sum := by
  unfold GrpcClientConn.new at h
  dsimp only at h
  cases timeout with
  | none =>
      cases h
      exact ⟨⟨_, rfl, rfl⟩, rfl⟩
  | some d =>
      cases hadd : now.add d with
      | error e =>
          simp only [hadd] at h
          cases h
      | ok sum =>
          simp only [hadd] at h
          cases h
          exact ⟨⟨_, rfl, rfl⟩, sum, hadd, rfl⟩

variable [Base64] [Removable H]

theorem usable_of_deadline {entry : TimeoutEntry ρ ω H Req Resp} {d : Duration} {now : Instant}
    {c : GrpcClientConn ρ ω H Req Resp} {deadline : Instant} (hbuild : entry.build d now = .ok c)
    (hdeadline : c.deadline = some deadline)
    (hcovers : now.toNanos + (min d.asNanos longestTimeout : Nat) ≤ deadline.toNanos)
    (hexact : ¬ entry.IsDefault → deadline.toNanos = now.toNanos + d.asNanos) :
    entry.Usable d now := by
  refine ⟨c, hbuild, advertises c, ?_⟩
  rw [hdeadline]
  exact ⟨hcovers, hexact⟩

theorem usable_of_add {entry : TimeoutEntry ρ ω H Req Resp} {d : Duration} {now sum : Instant}
    {c : GrpcClientConn ρ ω H Req Resp} (hbuild : entry.build d now = .ok c)
    (hadd : now.add d = .ok sum) (hdeadline : c.deadline = some sum) : entry.Usable d now := by
  have hsum := Instant.add_ok hadd
  apply usable_of_deadline hbuild hdeadline
  · have hmin := Nat.min_le_left d.asNanos longestTimeout
    omega
  · exact fun _ => hsum

/-- The defaults carry no more than the longest time of a header, by which the clock can
always be moved. -/
theorem usable_default (codec : Codec Req Resp) (defaultHeaders : H) (path : String)
    (metadata : Metadata) (fullDuplex : Bool) (d : Duration) {now : Instant}
    (hnow : now.secs < 2 ^ 62) :
    (TimeoutEntry.withDefaultTimeout codec defaultHeaders path metadata fullDuplex :
      TimeoutEntry ρ ω H Req Resp).Usable d now := by
  by_cases hzero : d = .zero
  · subst hzero
    obtain ⟨hvalues, hnone⟩ := defaultTimeout_zero defaultHeaders
    obtain ⟨c, hc⟩ : ∃ c : GrpcClientConn ρ ω H Req Resp, GrpcClientConn.new codec
        (setDefaultTimeout defaultHeaders .zero) path metadata none fullDuplex now = .ok c :=
      ⟨_, rfl⟩
    obtain ⟨⟨p, hpending, hdefaults⟩, hdeadline⟩ := deadline_of_new hc
    refine ⟨c, by rw [TimeoutEntry.build, hnone]; exact hc, advertises c, ?_⟩
    rw [hdeadline]
    exact ⟨trivial, rfl, p, hpending, hdefaults ▸ hvalues⟩
  · obtain ⟨sent, hparse, hcovers, hlimit⟩ := parse_format_covers d
    have hroom : now.toNanos + sent.asNanos < 2 ^ 63 * 1000000000 := by
      have hnanos := now.nanos_lt
      have hlongest : longestTimeout = 359999996400000000000 := by decide
      rw [Instant.toNanos]
      omega
    obtain ⟨sum, hadd⟩ := (Instant.exists_add_iff now sent).mpr hroom
    have hsum := Instant.add_ok hadd
    obtain ⟨c, hc⟩ := (new_with_timeout (ρ := ρ) (ω := ω) codec
      (setDefaultTimeout defaultHeaders d) path metadata sent fullDuplex now).mpr ⟨sum, hadd⟩
    obtain ⟨_, sum', hadd', hdeadline⟩ := deadline_of_new hc
    rw [hadd] at hadd'
    cases hadd'
    have hbuild : (TimeoutEntry.withDefaultTimeout codec defaultHeaders path metadata fullDuplex :
        TimeoutEntry ρ ω H Req Resp).build d now = .ok c := by
      rw [TimeoutEntry.build, defaultTimeout_of_ne_zero _ hzero, hparse]
      exact hc
    apply usable_of_deadline hbuild hdeadline
    · omega
    · exact fun hdirect => absurd trivial hdirect

/-- A timeout is usable from the defaults always, and directly exactly when the clock has
room for it. -/
theorem timeout_usable_iff (entry : TimeoutEntry ρ ω H Req Resp) (d : Duration) {now : Instant}
    (hnow : now.secs < 2 ^ 62) : entry.Usable d now ↔
      entry.IsDefault ∨ now.toNanos + d.asNanos < 2 ^ 63 * 1000000000 := by
  rw [← Instant.exists_add_iff]
  cases entry with
  | withTimeout c =>
      rw [or_iff_right (by exact id)]
      constructor
      · rintro ⟨c', hbuild, _⟩
        rw [TimeoutEntry.build, GrpcClientConn.setDeadlineFromNow] at hbuild
        cases hadd : now.add d with
        | error e => rw [hadd] at hbuild; cases hbuild
        | ok sum => exact ⟨sum, rfl⟩
      · rintro ⟨sum, hadd⟩
        have hbuild : (TimeoutEntry.withTimeout c).build d now =
            .ok { c with deadline := some sum } := by
          rw [TimeoutEntry.build, GrpcClientConn.setDeadlineFromNow, hadd]
          rfl
        exact usable_of_add hbuild hadd rfl
  | new codec defaultHeaders path metadata fullDuplex =>
      rw [or_iff_right (by exact id)]
      constructor
      · rintro ⟨c, hbuild, _⟩
        exact (new_with_timeout codec defaultHeaders path metadata d fullDuplex now).mp ⟨c, hbuild⟩
      · rintro ⟨sum, hadd⟩
        obtain ⟨c, hc⟩ := (new_with_timeout (ρ := ρ) (ω := ω) codec defaultHeaders path metadata d
          fullDuplex now).mpr ⟨sum, hadd⟩
        obtain ⟨_, sum', hadd', hdeadline⟩ := deadline_of_new hc
        exact usable_of_add hc hadd' hdeadline
  | withDefaultTimeout codec defaultHeaders path metadata fullDuplex =>
      exact iff_of_true (usable_default codec defaultHeaders path metadata fullDuplex d hnow)
        (Or.inl trivial)

end Usable

/-- `Duration::MAX`. -/
def maxDuration : Duration := ⟨2 ^ 64 - 1, 999999999, by decide, by decide⟩

def uptime : Instant := ⟨1000, 0, by decide, by decide, epoch.nanos_lt⟩

theorem default_usable_max :
    letI := standardNoPad
    letI := allFeatures
    (TimeoutEntry.withDefaultTimeout ⟨"proto", .ok, .ok⟩ empty "/echo" .new false :
      TimeoutEntry ScriptedBody SinkScript HeaderList (List UInt8) (List UInt8)).Usable
        maxDuration uptime := by
  let _ := standardNoPad
  let _ := allFeatures
  exact (timeout_usable_iff _ _ (by decide)).mpr (Or.inl trivial)

/-- The largest duration as the timeout of one call panics. -/
theorem timeout_max_unusable :
    letI := standardNoPad
    letI := allFeatures
    ¬ (TimeoutEntry.withTimeout (plainConn false)).Usable maxDuration uptime := by
  let _ := standardNoPad
  let _ := allFeatures
  rintro ⟨c, hbuild, _⟩
  have hpanic : uptime.add maxDuration = .error ⟨"overflow when adding duration to instant"⟩ := by
    decide
  rw [TimeoutEntry.build, GrpcClientConn.setDeadlineFromNow, hpanic] at hbuild
  cases hbuild

end TrilliumGrpc
