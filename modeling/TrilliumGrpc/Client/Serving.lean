import TrilliumGrpc.Client.Terminal

/-! # One `recv` after another

A call that is only received from, each `recv` awaited or dropped where it stands. A
call is served by what each poll of a `recv` comes to; from that follows what a whole
run of them returns, and where it leaves the call.
-/

namespace TrilliumGrpc

open Async HeaderMap

variable {ρ ω H Req Resp : Type}

/-! ## Runs of `recv` -/

/-- The result of a `recv`. -/
def Answer.received : Answer Resp → Option (Except Status (Option Resp))
  | .unit _ => none
  | .item result => some result

/-- Calls of `recv`, each with the polls it is given. -/
def recvs (ticks : List (List (Tick ρ ω H))) : List (Op Req × List (Tick ρ ω H)) :=
  ticks.map (fun polls => (.recv, polls))

/-- No poll of theirs meets a cancellation. -/
def Uncancelled (ticks : List (List (Tick ρ ω H))) : Prop :=
  ∀ polls ∈ ticks, ∀ tick ∈ polls, tick.live.cancel = false

theorem Uncancelled.cons {tick : Tick ρ ω H} {polls : List (Tick ρ ω H)}
    {rest : List (List (Tick ρ ω H))} (h : Uncancelled ((tick :: polls) :: rest)) :
    tick.live.cancel = false ∧ Uncancelled (polls :: rest) ∧ Uncancelled rest := by
  have hrest : Uncancelled rest := fun p hp => h p (List.mem_cons_of_mem _ hp)
  have hfirst := h _ List.mem_cons_self
  refine ⟨hfirst tick List.mem_cons_self, fun p hp => ?_, hrest⟩
  rcases List.mem_cons.mp hp with rfl | hp
  · exact fun t ht => hfirst t (List.mem_cons_of_mem _ ht)
  · exact hrest p hp

/-- The messages, how the call ends, and the end from then on. -/
def replies (messages : List Resp) (last : Except Status (Option Resp)) (after : Nat) :
    List (Except Status (Option Resp)) :=
  messages.map (fun m => .ok (some m)) ++ last :: List.replicate after (.ok none)

theorem replies_prefix_succ (messages : List Resp) (last : Except Status (Option Resp))
    (after : Nat) : replies messages last after <+: replies messages last (after + 1) := by
  refine ⟨[.ok none], ?_⟩
  rw [replies, replies, List.append_assoc, List.cons_append, List.replicate_succ']

theorem replies_take (messages : List Resp) (last : Except Status (Option Resp)) (n : Nat) :
    (replies messages last (n + 1)).take n = (replies messages last n).take n := by
  obtain ⟨later, hlater⟩ := replies_prefix_succ messages last n
  rw [← hlater, List.take_append_of_le_length]
  simp only [replies, List.length_append, List.length_cons, List.length_replicate]
  omega

section

variable [ResponseBody ρ H] [AsyncWrite ω] [CodecCrates] [HeaderMap H] [Base64] [Features]

/-- A poll of a `recv` that is not ready, behind which a `recv` of its own would do
what the suspended one does. -/
structure OpStep.Waits (step : OpStep ρ ω H Req Resp) : Prop where
  pending : step.answer = .pending
  reading : step.future = .reading
  resumes : ∀ tick, step.call.poll tick .reading = step.call.poll tick (.start .recv)

namespace Call

/-- What they return; one that is dropped returns nothing. -/
def received (s : Call ρ ω H Req Resp) (ticks : List (List (Tick ρ ω H))) :
    List (Except Status (Option Resp)) :=
  (s.run (recvs ticks)).1.filterMap (fun entry => entry.2.bind Answer.received)

def receive (s : Call ρ ω H Req Resp) (ticks : List (List (Tick ρ ω H))) :
    List (Except Status (Option Resp)) × Call ρ ω H Req Resp :=
  (s.received ticks, (s.run (recvs ticks)).2)

variable {s : Call ρ ω H Req Resp}

theorem receive_cons (polls : List (Tick ρ ω H)) (rest : List (List (Tick ρ ω H))) :
    s.receive (polls :: rest) =
      (((s.drive (.start .recv) polls).1.bind Answer.received).toList ++
        ((s.drive (.start .recv) polls).2.1.receive rest).1,
        ((s.drive (.start .recv) polls).2.1.receive rest).2) := by
  simp only [receive, received, recvs, List.map_cons, run_cons, List.filterMap_cons]
  cases (s.drive (.start .recv) polls).1.bind Answer.received <;> rfl

theorem receive_undriven (rest : List (List (Tick ρ ω H))) :
    s.receive ([] :: rest) = s.receive rest := by
  rw [receive_cons]
  rfl

theorem receive_of_ready {tick : Tick ρ ω H} {result : Except Status (Option Resp)}
    (h : (s.poll tick (.start .recv)).answer = .ready (.item result))
    (polls : List (Tick ρ ω H)) (rest : List (List (Tick ρ ω H))) :
    s.receive ((tick :: polls) :: rest) =
      (result :: ((s.poll tick (.start .recv)).call.receive rest).1,
        ((s.poll tick (.start .recv)).call.receive rest).2) := by
  rw [receive_cons, drive]
  cases hp : s.poll tick (.start .recv) with
  | mk answer s' future =>
      rw [hp] at h
      cases h
      rfl

theorem receive_of_waits {tick : Tick ρ ω H} (h : (s.poll tick (.start .recv)).Waits)
    (polls : List (Tick ρ ω H)) (rest : List (List (Tick ρ ω H))) :
    s.receive ((tick :: polls) :: rest) =
      (s.poll tick (.start .recv)).call.receive (polls :: rest) := by
  rw [receive_cons, receive_cons, drive]
  cases hp : s.poll tick (.start .recv) with
  | mk answer s' future =>
      rw [hp] at h
      obtain ⟨hpending, hreading, hresumes⟩ := h
      cases hpending
      cases hreading
      cases polls with
      | nil => rfl
      | cons next polls =>
          dsimp only at hresumes ⊢
          rw [drive, drive, hresumes]

theorem receive_of_done (h : s.conn.inner.IsDone) (ticks : List (List (Tick ρ ω H))) :
    (s.receive ticks).1 <+: List.replicate ticks.length (.ok none) ∧ (s.receive ticks).2 = s ∧
      ((∀ polls ∈ ticks, polls ≠ []) →
        (s.receive ticks).1 = List.replicate ticks.length (.ok none)) := by
  induction ticks with
  | nil => exact ⟨List.prefix_rfl, rfl, fun _ => rfl⟩
  | cons polls rest ih =>
      obtain ⟨hbegins, hsame, hall⟩ := ih
      cases polls with
      | nil =>
          rw [receive_undriven]
          refine ⟨hbegins.trans ⟨[.ok none], ?_⟩, hsame, by simp⟩
          rw [List.length_cons, List.replicate_succ']
      | cons tick polls =>
          obtain ⟨responseHeaders, trailers, hinner⟩ := h.exists
          have hpoll : s.poll tick (.start .recv) = s.finish .recv (.item (.ok none)) := by
            simp [poll, startRecv, deliver, hinner]
          rw [receive_of_ready (by rw [hpoll]; rfl), hpoll, List.length_cons, List.replicate_succ]
          refine ⟨(List.prefix_cons_inj _).mpr hbegins, hsame, ?_⟩
          intro hne
          exact congrArg _ (hall fun p hp => hne p (List.mem_cons_of_mem _ hp))

end Call

/-! ## Calls that are served -/

/-- Any call that stands at `v` has these messages to come and then this result, behind
which it has ended; its first polls may not be ready, but only finitely many are not. -/
inductive Serves {V : Type} (Stands : V → Call ρ ω H Req Resp → Prop)
    (Ended : Call ρ ω H Req Resp → Prop) (last : Except Status (Option Resp)) :
    List Resp → V → Prop
  | later {messages v v'}
      (h : ∀ s tick, Stands v s → tick.live.cancel = false →
        (s.poll tick (.start .recv)).Waits ∧ Stands v' (s.poll tick (.start .recv)).call)
      (next : Serves Stands Ended last messages v') : Serves Stands Ended last messages v
  | message {m messages v v'}
      (h : ∀ s tick, Stands v s → tick.live.cancel = false →
        (s.poll tick (.start .recv)).answer = .ready (.item (.ok (some m))) ∧
          Stands v' (s.poll tick (.start .recv)).call)
      (next : Serves Stands Ended last messages v') : Serves Stands Ended last (m :: messages) v
  | last {v}
      (h : ∀ s tick, Stands v s → tick.live.cancel = false →
        (s.poll tick (.start .recv)).answer = .ready (.item last) ∧
          Ended (s.poll tick (.start .recv)).call) : Serves Stands Ended last [] v

/-- What calls of `recv` have returned is the beginning of the replies; up to the
messages the call still stands somewhere, and past them it has ended. -/
structure Served {V : Type} (Stands : V → Call ρ ω H Req Resp → Prop)
    (Ended : Call ρ ω H Req Resp → Prop) (last : Except Status (Option Resp))
    (messages : List Resp) (calls : Nat)
    (out : List (Except Status (Option Resp)) × Call ρ ω H Req Resp) : Prop where
  replied : out.1 <+: replies messages last calls
  standing : out.1.length ≤ messages.length → ∃ v, Stands v out.2
  ended : messages.length < out.1.length → Ended out.2

section

variable {V : Type} {Stands : V → Call ρ ω H Req Resp → Prop} {Ended : Call ρ ω H Req Resp → Prop}
  {last : Except Status (Option Resp)} {messages : List Resp} {v : V} {s : Call ρ ω H Req Resp}

theorem Served.of_first (hs : Stands v s)
    (hfirst : ∀ tick polls rest, Uncancelled ((tick :: polls) :: rest) →
      Served Stands Ended last messages (rest.length + 1) (s.receive ((tick :: polls) :: rest)))
    (ticks : List (List (Tick ρ ω H))) (hquiet : Uncancelled ticks) :
    Served Stands Ended last messages ticks.length (s.receive ticks) := by
  induction ticks with
  | nil =>
      have hnone : (s.receive []).1 = [] := rfl
      refine ⟨List.nil_prefix, fun _ => ⟨v, hs⟩, ?_⟩
      intro hlen
      simp [hnone] at hlen
  | cons polls rest ih =>
      cases polls with
      | nil =>
          have hrest := ih fun p hp => hquiet p (List.mem_cons_of_mem _ hp)
          rw [Call.receive_undriven]
          exact ⟨hrest.replied.trans (replies_prefix_succ _ _ _), hrest.standing, hrest.ended⟩
      | cons tick polls => exact hfirst tick polls rest hquiet

/-- Whatever is awaited and whatever is dropped, nothing but the messages in order,
the call's end and then nothing more is ever returned. -/
theorem Serves.served (hdone : ∀ s, Ended s → s.conn.inner.IsDone)
    (h : Serves Stands Ended last messages v) (hs : Stands v s)
    (ticks : List (List (Tick ρ ω H))) (hquiet : Uncancelled ticks) :
    Served Stands Ended last messages ticks.length (s.receive ticks) := by
  induction h generalizing s ticks with
  | later h next ih =>
      apply Served.of_first hs ?_ ticks hquiet
      intro tick polls rest hquiet
      obtain ⟨hnow, hnext, _⟩ := hquiet.cons
      obtain ⟨hwaits, hs'⟩ := h s tick hs hnow
      rw [Call.receive_of_waits hwaits]
      exact ih hs' (polls :: rest) hnext
  | message h next ih =>
      apply Served.of_first hs ?_ ticks hquiet
      intro tick polls rest hquiet
      obtain ⟨hnow, _, hlater⟩ := hquiet.cons
      obtain ⟨hanswer, hs'⟩ := h s tick hs hnow
      have hrest := ih hs' rest hlater
      rw [Call.receive_of_ready hanswer]
      refine ⟨?_, fun hlen => hrest.standing (Nat.le_of_succ_le_succ hlen),
        fun hlen => hrest.ended (Nat.lt_of_succ_lt_succ hlen)⟩
      exact (List.prefix_cons_inj _).mpr (hrest.replied.trans (replies_prefix_succ _ _ _))
  | last h =>
      apply Served.of_first hs ?_ ticks hquiet
      intro tick polls rest hquiet
      obtain ⟨hnow, _, _⟩ := hquiet.cons
      obtain ⟨hanswer, hended⟩ := h s tick hs hnow
      obtain ⟨hbegins, hsame, _⟩ := Call.receive_of_done (hdone _ hended) rest
      rw [Call.receive_of_ready hanswer]
      refine ⟨(List.prefix_cons_inj _).mpr (hbegins.trans ⟨[.ok none], ?_⟩), ?_, ?_⟩
      · rw [List.replicate_succ']
      · intro hlen
        simp at hlen
      · intro _
        exact hsame.symm ▸ hended

/-- Calls that get a poll each at least, by what the first poll does. -/
theorem Call.received_eq {N : Nat}
    (hfirst : ∀ tick polls rest, Uncancelled ((tick :: polls) :: rest) →
      (∀ p ∈ polls :: rest, N ≤ p.length) → (∀ p ∈ rest, p ≠ []) →
      (s.receive ((tick :: polls) :: rest)).1 =
        (replies messages last (rest.length + 1)).take (rest.length + 1))
    (ticks : List (List (Tick ρ ω H))) (hquiet : Uncancelled ticks)
    (hlong : ∀ polls ∈ ticks, N + 1 ≤ polls.length) :
    s.received ticks = (replies messages last ticks.length).take ticks.length := by
  cases ticks with
  | nil => rfl
  | cons polls rest =>
      have hpolls := hlong polls List.mem_cons_self
      have hrest : ∀ p ∈ rest, N + 1 ≤ p.length := fun p hp => hlong p (List.mem_cons_of_mem _ hp)
      cases polls with
      | nil => simp at hpolls
      | cons tick polls =>
          refine hfirst tick polls rest hquiet (fun p hp => ?_) fun p hp hnil => ?_
          · rcases List.mem_cons.mp hp with rfl | hp
            · exact Nat.le_of_succ_le_succ hpolls
            · exact Nat.le_of_succ_le (hrest p hp)
          · have hlen := hrest p hp
            simp [hnil] at hlen

/-- Calls of `recv` that are polled often enough return all that is to come. -/
theorem Serves.received (hdone : ∀ s, Ended s → s.conn.inner.IsDone)
    (h : Serves Stands Ended last messages v) :
    ∃ N, ∀ s, Stands v s → ∀ ticks : List (List (Tick ρ ω H)), Uncancelled ticks →
      (∀ polls ∈ ticks, N ≤ polls.length) →
      s.received ticks = (replies messages last ticks.length).take ticks.length := by
  induction h with
  | later h next ih =>
      obtain ⟨N, hN⟩ := ih
      refine ⟨N + 1, fun s hs => Call.received_eq ?_⟩
      intro tick polls rest hquiet hlong _
      obtain ⟨hnow, hnext, _⟩ := hquiet.cons
      obtain ⟨hwaits, hs'⟩ := h s tick hs hnow
      rw [Call.receive_of_waits hwaits]
      exact hN _ hs' (polls :: rest) hnext hlong
  | message h next ih =>
      obtain ⟨N, hN⟩ := ih
      refine ⟨N + 1, fun s hs => Call.received_eq ?_⟩
      intro tick polls rest hquiet hlong _
      obtain ⟨hnow, _, hlater⟩ := hquiet.cons
      obtain ⟨hanswer, hs'⟩ := h s tick hs hnow
      have hrest := hN _ hs' rest hlater fun p hp => hlong p (List.mem_cons_of_mem _ hp)
      rw [← replies_take] at hrest
      rw [Call.receive_of_ready hanswer]
      exact congrArg (List.cons _) hrest
  | last h =>
      refine ⟨1, fun s hs => Call.received_eq (N := 0) ?_⟩
      intro tick polls rest hquiet _ hne
      obtain ⟨hnow, _, _⟩ := hquiet.cons
      obtain ⟨hanswer, hended⟩ := h s tick hs hnow
      rw [Call.receive_of_ready hanswer, (Call.receive_of_done (hdone _ hended) rest).2.2 hne]
      simp [replies, List.take_replicate]

end

end

end TrilliumGrpc
