import TrilliumGrpc.Async.Stream
import TrilliumGrpc.Frame.Reference

/-! # The incremental reader against the one-shot parser

Whole runs of `poll_read_message`: the items of a run are the reference's, and an
error is final exactly when it is a framing error.
-/

namespace TrilliumGrpc

open Async ByteSource

variable {ρ T : Type} [CodecCrates]

def Parsed.follow (cfg : ReadConfig T) (fault : Option String) :
    Parsed T → List (Option (Except Status T))
  | .eof => [none]
  | .failed status => [some (.error status)]
  | .item (.error status) _ => [some (.error status)]
  | .item (.ok message) rest => some (.ok message) :: parse cfg fault rest

theorem parse_eq_follow (cfg : ReadConfig T) (fault : Option String) (bytes : List UInt8) :
    parse cfg fault bytes = (parseOne cfg fault bytes).follow cfg fault := by
  rw [parse]
  split <;> rename_i h <;> rw [h] <;> rfl

omit [CodecCrates] in
def isErr : Except Status T → Bool
  | .ok _ => false
  | .error _ => true

variable [ByteSource ρ]

/-- A reader and the state of its current frame, polled for the next item. -/
def readPoll (cfg : ReadConfig T) (s : ρ × ReadState) :
    Poll (Option (Except Status T)) × (ρ × ReadState) :=
  let step := pollReadMessage cfg s.1 s.2
  (step.answer, (step.reader, step.state))

def ahead (cfg : ReadConfig T) (s : ρ × ReadState) : Parsed T :=
  s.2.resume cfg (fault s.1) (rest s.1)

theorem readPoll_spec {cfg : ReadConfig T} {s s' : ρ × ReadState}
    {answer : Poll (Option (Except Status T))} (h : readPoll cfg s = (answer, s')) :
    ReadSpec cfg s.1 (ahead cfg s) ⟨answer, s'.1, s'.2⟩ := by
  simp only [readPoll, Prod.mk.injEq] at h
  obtain ⟨rfl, rfl⟩ := h
  exact pollReadMessage_spec cfg s.1 s.2

theorem readPoll_pending {cfg : ReadConfig T} {s s' : ρ × ReadState}
    (h : readPoll cfg s = (.pending, s')) :
    (fault s'.1, ahead cfg s') = (fault s.1, ahead cfg s) ∧ s'.2 ≠ .done ∧
      Advanced s'.1 s.1 := by
  obtain ⟨hfault, hsame, hspec⟩ := readPoll_spec h
  have hahead : ahead cfg s' = ahead cfg s := by
    rw [← hsame, ← hfault]
    rfl
  exact ⟨Prod.ext hfault hahead, hspec⟩

theorem readPoll_none {cfg : ReadConfig T} {s s' : ρ × ReadState}
    (h : readPoll cfg s = (.ready none, s')) :
    ahead cfg s = .eof ∧ s'.2 = .done ∧ fault s'.1 = fault s.1 ∧
      (rest s'.1).length ≤ (rest s.1).length := by
  obtain ⟨hfault, hspec⟩ := readPoll_spec h
  exact ⟨hspec.1, hspec.2.1, hfault, hspec.2.2⟩

theorem readPoll_some {cfg : ReadConfig T} {s s' : ρ × ReadState} {message : Except Status T}
    (h : readPoll cfg s = (.ready (some message), s')) : fault s'.1 = fault s.1 ∧
      ((∃ status, ahead cfg s = .failed status ∧ message = .error status ∧ s'.2 = .done) ∨
        (ahead cfg s = .item message (rest s'.1) ∧ s'.2 = .new)) := by
  obtain ⟨hfault, hspec⟩ := readPoll_spec h
  exact ⟨hfault, hspec⟩

/-- The reader yields the reference's items from wherever it stands. -/
theorem readPoll_yields (cfg : ReadConfig T) :
    Yields (readPoll cfg) isErr
      (fun (s : ρ × ReadState) l => l = (ahead cfg s).follow cfg (fault s.1))
      (fun s' s => Advanced s'.1 s.1) where
  wf := InvImage.wf Prod.fst advanced_wf
  pending {s s' l} hl h := by
    obtain ⟨hview, _, hadv⟩ := readPoll_pending h
    simp only [Prod.mk.injEq] at hview
    rw [hview.1, hview.2]
    exact ⟨hl, hadv⟩
  ended {s s' l} hl h := by
    rw [hl, (readPoll_none h).1, Parsed.follow]
  item {s s' l message} hl h := by
    subst hl
    obtain ⟨hfault, ⟨status, hahead, rfl, _⟩ | ⟨hahead, hstate⟩⟩ := readPoll_some h
    · exact ⟨[], by rw [hahead, Parsed.follow], rfl⟩
    · rw [hahead]
      cases message with
      | error status => exact ⟨[], rfl, rfl⟩
      | ok m =>
          refine ⟨parse cfg (fault s.1) (rest s'.1), rfl, ?_⟩
          rw [isErr, if_neg Bool.false_ne_true, ahead, hstate, ReadState.resume_new, hfault,
            ← parse_eq_follow]

theorem follow_ahead_new (cfg : ReadConfig T) (r : ρ) :
    parse cfg (fault r) (rest r) = (ahead cfg (r, .new)).follow cfg (fault r) := by
  rw [ahead, ReadState.resume_new, ← parse_eq_follow]

/-! ## Errors that end the stream -/

/-- Every frame in front of the first framing error has a message. -/
def AllDeframe (cfg : ReadConfig T) (bytes : List UInt8) : Prop :=
  ∀ f ∈ frames cfg.maxMessageSize bytes, ∃ message, cfg.deframe f.1 f.2 = .ok message

/-- The next answer carries a message if it is one, and so do those after it. -/
def Parsed.Sound (cfg : ReadConfig T) : Parsed T → Prop
  | .item message rest => (∃ m, message = .ok m) ∧ AllDeframe cfg rest
  | _ => True

theorem allDeframe_iff (cfg : ReadConfig T) (fault : Option String) (bytes : List UInt8) :
    AllDeframe cfg bytes ↔ (parseOne cfg fault bytes).Sound cfg := by
  unfold AllDeframe parseOne
  rw [frames]
  cases hs : scan cfg.maxMessageSize bytes with
  | frame compressed payload rest => simp [Scan.verdict, Parsed.Sound, AllDeframe]
  | oversized len => simp [Scan.verdict, Parsed.Sound]
  | boundary => cases fault <;> simp [Scan.verdict, endOfBytes, Parsed.Sound]
  | shortPrefix => cases fault <;> simp [Scan.verdict, endOfBytes, Parsed.Sound]
  | shortPayload => cases fault <;> simp [Scan.verdict, endOfBytes, Parsed.Sound]

/-- After any error the state is `Done`, and every later poll answers the end
without touching the reader. -/
def ErrorsTerminal (cfg : ReadConfig T) (s : ρ × ReadState) : Prop :=
  ∀ n status s', readPoll cfg (after (readPoll cfg) n s) = (.ready (some (.error status)), s') →
    s'.2 = .done ∧ ∀ k, readPoll cfg (after (readPoll cfg) k s') = (.ready none, s')

theorem readPoll_done (cfg : ReadConfig T) (r : ρ) :
    readPoll cfg (r, .done) = (.ready none, (r, .done)) := rfl

theorem after_done (cfg : ReadConfig T) (r : ρ) (k : Nat) :
    after (readPoll cfg) k (r, .done) = (r, .done) := by
  induction k with
  | zero => rfl
  | succ k ih => rw [after_succ, readPoll_done, ih]

theorem ErrorsTerminal.after {cfg : ReadConfig T} {s : ρ × ReadState}
    (h : ErrorsTerminal cfg s) (n : Nat) : ErrorsTerminal cfg (after (readPoll cfg) n s) := by
  intro m status s' hp
  rw [← after_add] at hp
  exact h (m + n) status s' hp

theorem sound_readPoll {cfg : ReadConfig T} {s : ρ × ReadState}
    (h : (ahead cfg s).Sound cfg) : (ahead cfg (readPoll cfg s).2).Sound cfg := by
  cases hp : readPoll cfg s with
  | mk answer s' =>
      cases answer with
      | pending =>
          have hview := (readPoll_pending hp).1
          simp only [Prod.mk.injEq] at hview
          rw [hview.2]
          exact h
      | ready result =>
          cases result with
          | none =>
              rw [ahead, (readPoll_none hp).2.1]
              exact trivial
          | some message =>
              obtain ⟨_, ⟨status, _, _, hstate⟩ | ⟨hahead, hstate⟩⟩ := readPoll_some hp
              · rw [ahead, hstate]
                exact trivial
              · rw [hahead] at h
                rw [ahead, hstate, ReadState.resume_new, ← allDeframe_iff]
                exact h.2

theorem sound_after {cfg : ReadConfig T} {s : ρ × ReadState} (h : (ahead cfg s).Sound cfg)
    (n : Nat) : (ahead cfg (after (readPoll cfg) n s)).Sound cfg := by
  induction n generalizing s with
  | zero => exact h
  | succ n ih =>
      rw [after_succ]
      exact ih (sound_readPoll h)

theorem ErrorsTerminal.of_sound {cfg : ReadConfig T} {s : ρ × ReadState}
    (h : (ahead cfg s).Sound cfg) : ErrorsTerminal cfg s := by
  intro n status s' hp
  have hsound := sound_after h n
  obtain ⟨_, ⟨_, _, _, hstate⟩ | ⟨hahead, _⟩⟩ := readPoll_some hp
  · obtain ⟨r', st'⟩ := s'
    subst hstate
    refine ⟨rfl, fun k => ?_⟩
    rw [after_done, readPoll_done]
  · rw [hahead] at hsound
    obtain ⟨⟨m, hm⟩, _⟩ := hsound
    simp at hm

/-- The frame ahead is answered in full after finitely many polls. -/
theorem exists_item {cfg : ReadConfig T} {r : ρ} {message : Except Status T} {left : List UInt8}
    (h : parseOne cfg (fault r) (rest r) = .item message left) :
    ∃ n s', readPoll cfg (after (readPoll cfg) n (r, .new)) = (.ready (some message), s') ∧
      s'.2 = .new ∧ rest s'.1 = left ∧ fault s'.1 = fault r := by
  have hpending : ∀ {s s' : ρ × ReadState}, readPoll cfg s = (.pending, s') →
      (fault s'.1, ahead cfg s') = (fault s.1, ahead cfg s) ∧ Advanced s'.1 s.1 :=
    fun hp => ⟨(readPoll_pending hp).1, (readPoll_pending hp).2.2⟩
  obtain ⟨n, result, s', hready, hview⟩ := exists_ready
    (fun s => (fault s.1, ahead cfg s)) (InvImage.wf Prod.fst advanced_wf) hpending (r, .new)
  have hnew : ahead cfg (r, .new) = .item message left := by
    rw [ahead, ReadState.resume_new, h]
  rw [hnew, Prod.mk.injEq] at hview
  cases result with
  | none =>
      have heof := (readPoll_none hready).1
      rw [hview.2] at heof
      simp at heof
  | some message' =>
      obtain ⟨hfault, ⟨status, hahead, _, _⟩ | ⟨hahead, hstate⟩⟩ := readPoll_some hready
      · rw [hview.2] at hahead
        simp at hahead
      · rw [hview.2, Parsed.item.injEq] at hahead
        obtain ⟨rfl, rfl⟩ := hahead
        exact ⟨n, s', hready, hstate, rfl, hfault.trans hview.1⟩

theorem AllDeframe.of_errorsTerminal {cfg : ReadConfig T} {r : ρ}
    (h : ErrorsTerminal cfg (r, .new)) : AllDeframe cfg (rest r) := by
  -- Induction on the bytes left: each frame is reached, and an error there is not final.
  induction hlen : (rest r).length using Nat.strongRecOn generalizing r with
  | ind len ih =>
      subst hlen
      rw [allDeframe_iff cfg (fault r)]
      cases hp : parseOne cfg (fault r) (rest r) with
      | eof => exact trivial
      | failed status => exact trivial
      | item message left =>
          obtain ⟨n, ⟨r', st'⟩, hready, hstate, hrest, _⟩ := exists_item hp
          cases message with
          | error status =>
              have hdone := (h n status _ hready).1
              rw [hstate] at hdone
              simp [ReadState.new] at hdone
          | ok m =>
              have hshort := parseOne_item_length hp
              have hlater := h.after (n + 1)
              rw [Nat.add_comm, after_add, after_succ, hready] at hlater
              subst hstate
              rw [← hrest] at hshort ⊢
              exact ⟨⟨m, rfl⟩, ih _ hshort hlater rfl⟩

/-- Errors are final in a run exactly when no complete frame fails to give its
message: the errors of decompressing and decoding leave the state ready for the
next frame. -/
theorem errorsTerminal_iff (cfg : ReadConfig T) (r : ρ) :
    ErrorsTerminal cfg (r, .new) ↔ AllDeframe cfg (rest r) := by
  refine ⟨AllDeframe.of_errorsTerminal, fun h => ErrorsTerminal.of_sound ?_⟩
  rw [ahead, ReadState.resume_new]
  exact (allDeframe_iff cfg _ _).mp h

omit [CodecCrates] in
/-- A compressed frame without a negotiated encoding, then a plain empty frame:
the first is an error, and the stream goes on. -/
theorem compressed_frame_not_terminal :
    letI := storedCrates
    ¬ ErrorsTerminal (T := List UInt8) ⟨.ok, .identity, defaultMaxMessageSize⟩
      ((⟨[1, 0, 0, 0, 0, 0, 0, 0, 0, 0], [], none⟩ : Script), .new) := by
  intro h
  have hdone : ReadState.new = .done := (h 0 notNegotiated _ rfl).1
  simp [ReadState.new] at hdone

end TrilliumGrpc
