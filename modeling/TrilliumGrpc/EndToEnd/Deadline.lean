import TrilliumGrpc.Client.Deadline
import TrilliumGrpc.EndToEnd.RequestHead

/-! # A deadline on both sides

The deadline of a call, as the time that a request names and as the deadline that the
server computes from it.
-/

namespace TrilliumGrpc

open Async HeaderMap Time

variable {φ ρ ρ' ω ω' H Req Resp T : Type}

/-! ## The time that is named -/

theorem round_slack {n : Nat} (h : n ≤ longestTimeout) :
    99999 * (timeoutScale.round n - n) ≤ n := by
  refine Scale.slack_le ?_ ?_
  · intro u hu
    change u ∈ timeoutUnits at hu
    simp only [timeoutUnits, List.mem_cons, List.not_mem_nil, or_false] at hu
    rcases hu with rfl | rfl | rfl | rfl | rfl | rfl
    · exact .inl rfl
    · exact .inr ⟨(1, 'n'), by decide, by decide, by decide⟩
    · exact .inr ⟨(1000, 'u'), by decide, by decide, by decide⟩
    · exact .inr ⟨(1000000, 'm'), by decide, by decide, by decide⟩
    · exact .inr ⟨(1000000000, 'S'), by decide, by decide, by decide⟩
    · exact .inr ⟨(60000000000, 'M'), by decide, by decide, by decide⟩
  · have hlimit : timeoutScale.largest.1 * timeoutScale.cap = longestTimeout :=
      Nat.mul_comm hour maxTimeoutValue
    rw [hlimit]
    exact h

theorem asNanos_saturatingDurationSince (t earlier : Instant) :
    (t.saturatingDurationSince earlier).asNanos = (t.toNanos - earlier.toNanos).toNat := by
  unfold Instant.saturatingDurationSince Instant.checkedDurationSince
  split
  · rw [Option.getD_some, Duration.asNanos]
    exact Nat.div_add_mod' _ _
  · rename_i hlate
    have hlate : ¬ earlier.toNanos ≤ t.toNanos := hlate
    rw [Option.getD_none]
    have hzero : Duration.zero.asNanos = 0 := rfl
    omega

/-! ## Races before the deadline -/

/-- A timer that does not fire before the deadline it was set for. -/
def Signals.Punctual (sig : Signals) (deadline : Instant) : Prop :=
  sig.timer = true → deadline ≤ sig.now

/-- At these moments the call's deadline has not passed, and the server's timer for its own
keeps time. -/
def Signals.Before (sig : Signals) (deadline own : Instant) : Prop :=
  sig.now < deadline ∧ sig.Punctual own

section

variable {deadline own : Instant} (hle : deadline ≤ own)

include hle

theorem Cancellation.race_before {sig : Signals} (h : sig.Before deadline own) (started : Bool)
    (poll : φ → Poll (Except Status T) × φ) (fut : φ) :
    Cancellation.race ⟨some own⟩ started sig poll fut =
      Cancellation.race ⟨none⟩ started sig poll fut := by
  obtain ⟨hbefore, hpunctual⟩ := h
  have hearly : sig.now < own := Int.lt_of_lt_of_le hbefore hle
  have hremains : own.checkedDurationSince sig.now ≠ none := by
    rw [ne_eq, Instant.checkedDurationSince_eq_none_iff]
    exact Int.not_lt.mpr (Int.le_of_lt hearly)
  have htimer : sig.timer = false := by
    by_contra hfired
    exact absurd (hpunctual (by simpa using hfired)) (Int.not_le.mpr hearly)
  have hpolls : Cancellation.polls ⟨some own⟩ started sig =
      Cancellation.polls ⟨none⟩ started sig := by
    simp only [Cancellation.polls, hremains, and_false, if_false]
  simp only [Cancellation.race, hpolls, htimer, Bool.false_eq_true, and_false, if_false]

theorem Cancellation.run_before (poll : φ → Poll (Except Status T) × φ) (started : Bool)
    {sigs : List Signals} (h : ∀ sig ∈ sigs, sig.Before deadline own) (fut : φ) :
    Cancellation.run ⟨some own⟩ poll started sigs fut =
      Cancellation.run ⟨none⟩ poll started sigs fut := by
  induction sigs generalizing started fut with
  | nil => rfl
  | cons sig sigs ih =>
      rw [Cancellation.run, Cancellation.run,
        Cancellation.race_before hle (h sig List.mem_cons_self)]
      rcases Cancellation.race ⟨none⟩ started sig poll fut with ⟨_ | result, fut'⟩
      · exact ih true (fun later hlater => h later (List.mem_cons_of_mem _ hlater)) fut'
      · rfl

theorem driveLoop_before [AsyncRead ρ'] [AsyncWrite ω'] [CodecCrates] (started : Bool)
    {polls : List (Signals × ResponderPoll H Resp)} (h : ∀ p ∈ polls, p.1.Before deadline own)
    (s : Responding ρ' ω' H Req Resp) :
    driveLoop ⟨some own⟩ started polls s = driveLoop ⟨none⟩ started polls s := by
  induction polls generalizing started s with
  | nil => rfl
  | cons p polls ih =>
      obtain ⟨sig, p⟩ := p
      rw [driveLoop, driveLoop, Cancellation.race_before hle (h _ List.mem_cons_self)]
      rcases Cancellation.race ⟨none⟩ started sig (Responding.poll p) s with ⟨_ | result, s'⟩
      · exact ih true (fun later hlater => h later (List.mem_cons_of_mem _ hlater)) s'
      · rfl

end

/-! ## The server's deadlines -/

/-- The time that a server has by its own clock is what remains of the call's, and little
more. -/
structure Advances (remaining : Nat) (now own : Instant) : Prop where
  no_less : min remaining longestTimeout ≤ own.toNanos - now.toNanos
  little_more : remaining ≤ longestTimeout →
    own.toNanos ≤ now.toNanos + remaining + remaining / 99999

theorem Advances.of_sent {d sent : Duration} {now own : Instant}
    (hround : sent.asNanos = timeoutScale.round d.asNanos)
    (hown : own.toNanos = now.toNanos + sent.asNanos) : Advances d.asNanos now own where
  no_less := by
    have hcovers := min_le_round d.asNanos
    omega
  little_more hsmall := by
    have hslack := round_slack hsmall
    omega

section

variable [HeaderMap H] {conn : Conn H ρ} {text : String} {sent : Duration}
  (htext : getStr conn.requestHeaders "grpc-timeout" = some text)
  (hparse : parseGrpcTimeout text = some sent)

include htext hparse

theorem fromConn_of_header [UnicodeTables] (hruntime : conn.hasRuntime = true)
    {now own : Instant} (hown : now.add sent = .ok own) :
    Cancellation.fromConn conn now = .ok (.ok ⟨some own⟩) := by
  simp only [Cancellation.fromConn, htext, hparse, hruntime, if_true, hown, Except.map]

theorem new_of_header (e : Encoding) {now own : Instant} (hown : now.add sent = .ok own) :
    GrpcServerConn.new conn e now = .ok ⟨conn, empty, e, some own⟩ := by
  simp only [GrpcServerConn.new, htext, Option.bind_some, hparse, hown, Except.map]

end

/-- Both readings of a header that is written for what remains succeed. -/
theorem deadlines_of_timeout [HeaderMap H] [UnicodeTables] {conn : Conn H ρ}
    (hruntime : conn.hasRuntime = true) {d : Duration} (htimeout : values conn.requestHeaders "grpc-timeout" =
      [.ofString (formatGrpcTimeout d)]) {now now' : Instant} (hnow : now.secs < 2 ^ 62)
    (hnow' : now'.secs < 2 ^ 62) (e : Encoding) :
    ∃ own own', Cancellation.fromConn conn now = .ok (.ok ⟨some own⟩) ∧
      GrpcServerConn.new conn e now' = .ok ⟨conn, empty, e, some own'⟩ ∧
      Advances d.asNanos now own ∧ Advances d.asNanos now' own' := by
  obtain ⟨sent, hparse, hround⟩ := parse_format d
  have hlimit := round_le_longest d.asNanos
  rw [← hround] at hlimit
  have hlongest : longestTimeout = 359999996400000000000 := by decide
  have hroom : ∀ t : Instant, t.secs < 2 ^ 62 → ∃ sum, t.add sent = .ok sum := by
    intro t ht
    have hnanos := t.nanos_lt
    refine (Instant.exists_add_iff t sent).mpr ?_
    rw [Instant.toNanos]
    omega
  obtain ⟨own, hown⟩ := hroom now hnow
  obtain ⟨own', hown'⟩ := hroom now' hnow'
  have htext : getStr conn.requestHeaders "grpc-timeout" = some (formatGrpcTimeout d) := by
    rw [getStr_of_singleton htimeout, HeaderValue.asStr_ofString]
  exact ⟨own, own', fromConn_of_header htext hparse hruntime hown,
    new_of_header htext hparse e hown', .of_sent hround (Instant.add_ok hown),
    .of_sent hround (Instant.add_ok hown')⟩

/-! ## From the call to the server -/

/-- On one clock: whenever a request of a call with a deadline reaches a server, both of the
server's deadlines are set, neither of them before the call's unless that is further away
than any header can say, and hardly after what remained of it when the request was built;
and as long as the call's deadline has not passed, whatever races against the server's goes
as if there were none. -/
theorem deadline_carried [HeaderMap H] [ResponseBody ρ H] [AsyncWrite ω] [CodecCrates] [Base64]
    [Features] [AsyncRead ρ'] [AsyncWrite ω'] {s : Call ρ ω H Req Resp} {p : Pending H}
    (hinner : s.conn.inner = .pending p) (hbuilt : p.requestMetadata.Built)
    (hnone : s.world.requests = []) {deadline : Instant}
    (hdeadline : s.conn.deadline = some deadline)
    {actions : List (Action ρ ω H Req)} (hkeeps : ∀ action ∈ actions, ¬ action.SetsTimeout)
    {r : Request H} (hr : r ∈ (s.acts actions).2.world.requests)
    {conn : Conn H ρ'} (hheaders : conn.requestHeaders = r.headers)
    (hruntime : conn.hasRuntime = true) {now now' : Instant}
    (hlater : (s.acts actions).2.world.now ≤ now) (hlater' : now ≤ now')
    (hnow' : now'.secs < 2 ^ 62) (e : Encoding) :
    ∃ built own own', s.world.now ≤ built ∧ built ≤ (s.acts actions).2.world.now ∧
      Cancellation.fromConn conn now = .ok (.ok ⟨some own⟩) ∧
      GrpcServerConn.new conn e now' = .ok ⟨conn, empty, e, some own'⟩ ∧
      let remaining := (deadline.toNanos - built.toNanos).toNat
      Advances remaining now own ∧ Advances remaining now' own' ∧
      (remaining ≤ longestTimeout → deadline ≤ own ∧ deadline ≤ own' ∧
        (∀ {φ T : Type} (poll : φ → Poll (Except Status T) × φ) sigs fut,
          (∀ sig ∈ sigs, sig.Before deadline own) →
            Cancellation.run ⟨some own⟩ poll false sigs fut =
              Cancellation.run ⟨none⟩ poll false sigs fut) ∧
        ∀ polls (responding : Responding ρ' ω' H Req Resp),
          (∀ poll ∈ polls, poll.1.Before deadline own') →
            driveLoop ⟨some own'⟩ false polls responding =
              driveLoop ⟨none⟩ false polls responding) := by
  obtain ⟨front, action, hfront, _, c, q, built, body, hsince, hearly, hafter, rfl⟩ :=
    Call.acts_built hinner hnone actions hr
  have hsame : c.deadline = some deadline := by
    refine (hafter.deadline fun action hmem => hkeeps action (hfront.subset ?_)).trans hdeadline
    exact List.mem_append_left _ hmem
  have hvalues := values_timeout c (hafter.built hbuilt).reachable built body
  rw [hsame] at hvalues
  dsimp only at hvalues
  rw [← hheaders] at hvalues
  have hnow : now.secs < 2 ^ 62 := by
    have horder : now.toNanos ≤ now'.toNanos := hlater'
    have hnanos := now'.nanos_lt
    simp only [Instant.toNanos] at horder
    omega
  obtain ⟨own, own', hconn, hnew, hadvances, hadvances'⟩ :=
    deadlines_of_timeout hruntime hvalues hnow hnow' e
  rw [asNanos_saturatingDurationSince] at hadvances hadvances'
  have hstart : s.world.now ≤ (s.acts front).2.world.now :=
    ((Call.Follows.fresh hinner).acts front).2
  refine ⟨built, own, own', Int.le_trans hstart hsince, hearly, hconn, hnew, hadvances, hadvances',
    fun hsmall => ?_⟩
  have hbefore : built.toNanos ≤ now.toNanos := Int.le_trans hearly hlater
  have horder : now.toNanos ≤ now'.toNanos := hlater'
  have hown : deadline ≤ own := by
    have hcovers := hadvances.no_less
    rw [Nat.min_eq_left hsmall] at hcovers
    rw [Instant.le_def]
    omega
  have hown' : deadline ≤ own' := by
    have hcovers := hadvances'.no_less
    rw [Nat.min_eq_left hsmall] at hcovers
    rw [Instant.le_def]
    omega
  exact ⟨hown, hown', fun poll sigs fut h => Cancellation.run_before hown poll false h fut,
    fun polls responding h => driveLoop_before hown' false h responding⟩

def oneSecond : Instant := ⟨1, 0, by decide, by decide, epoch.nanos_lt⟩

def secondCall : Call ScriptedBody SinkScript HeaderList (List UInt8) (List UInt8) :=
  ⟨{ plainConn false with deadline := some oneSecond }, .fresh epoch⟩

theorem second_carried :
    letI := storedCrates
    letI := standardNoPad
    letI := allFeatures
    ∃ r own, (secondCall.acts [.operate .openHead [quietTick .sent]]).2.world.requests = [r] ∧
      Cancellation.fromConn ⟨r.headers, empty, none, (⟨[], [], none⟩ : Script), true⟩ epoch =
        .ok (.ok ⟨some own⟩) ∧ oneSecond ≤ own := by
  let _ := storedCrates
  let _ := standardNoPad
  let _ := allFeatures
  have hlength : (secondCall.acts [.operate .openHead [quietTick .sent]]).2.world.requests.length =
      1 := by decide +kernel
  obtain ⟨r, hone⟩ := List.length_eq_one_iff.mp hlength
  have hr : r ∈ (secondCall.acts [.operate .openHead [quietTick .sent]]).2.world.requests := by
    rw [hone]
    exact List.mem_singleton_self r
  have hkeeps : ∀ action ∈ [Action.operate .openHead [quietTick .sent]],
      ¬ (action : Action ScriptedBody SinkScript HeaderList (List UInt8)).SetsTimeout := by
    simp [Action.SetsTimeout]
  let arrived : Conn HeaderList Script := ⟨r.headers, empty, none, ⟨[], [], none⟩, true⟩
  have hheaders : arrived.requestHeaders = r.headers := rfl
  have hlater : (secondCall.acts [.operate .openHead [quietTick .sent]]).2.world.now ≤ epoch := by
    decide +kernel
  have hlater' : epoch ≤ epoch := by decide
  obtain ⟨built, own, _, hbuilt, _, hconn, _, _, _, hsmall⟩ :=
    @deadline_carried _ _ _ SinkScript _ _ _ _ _ _ _ _ _ _ _ secondCall _ rfl .new rfl _ rfl _
      hkeeps _ hr _ hheaders rfl _ _ hlater hlater' (by decide) .identity
  refine ⟨r, own, hone, hconn, (hsmall ?_).1⟩
  have hboot : (0 : Int) ≤ built.toNanos := hbuilt
  have hsecond : oneSecond.toNanos = 1000000000 := rfl
  have hlongest : longestTimeout = 359999996400000000000 := by decide
  omega

end TrilliumGrpc
