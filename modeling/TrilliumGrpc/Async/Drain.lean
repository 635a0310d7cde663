import TrilliumGrpc.Async.Read

/-! # Draining

A consumer that reads a reader to its end with buffers of its own sizes, and streams
that hand out a fixed list of items.
-/

namespace Async

section

variable {ρ : Type} [AsyncRead ρ]

/-- The bytes of at most `n` reads, the `k`-th into `lens k` bytes, and the reader
behind the read that found the end. -/
def drain : Nat → (Nat → Nat) → ρ → List UInt8 × Option ρ
  | 0, _, _ => ([], none)
  | n + 1, lens, r =>
      match AsyncRead.pollRead r (lens 0) with
      | (.pending, r') => drain n (fun k => lens (k + 1)) r'
      | (.ready (.error _), _) => ([], none)
      | (.ready (.ok chunk), r') =>
          if chunk.1 = [] then ([], some r')
          else
            let (bytes, last) := drain n (fun k => lens (k + 1)) r'
            (chunk.1 ++ bytes, last)

variable {lens : Nat → Nat}

theorem drain_of_pending {r r' : ρ} (h : AsyncRead.pollRead r (lens 0) = (.pending, r')) (n : Nat) :
    drain (n + 1) lens r = drain n (fun k => lens (k + 1)) r' := by
  rw [drain, h]

theorem drain_of_end {r r' : ρ} {chunk : Chunk (lens 0)} (hnil : chunk.1 = [])
    (h : AsyncRead.pollRead r (lens 0) = (.ready (.ok chunk), r')) (n : Nat) :
    drain (n + 1) lens r = ([], some r') := by
  rw [drain, h]
  dsimp only
  rw [if_pos hnil]

theorem drain_of_chunk {r r' : ρ} {chunk : Chunk (lens 0)} (hne : chunk.1 ≠ [])
    (h : AsyncRead.pollRead r (lens 0) = (.ready (.ok chunk), r')) (n : Nat) :
    drain (n + 1) lens r = (chunk.1 ++ (drain n (fun k => lens (k + 1)) r').1,
      (drain n (fun k => lens (k + 1)) r').2) := by
  rw [drain, h]
  dsimp only
  rw [if_neg hne]

/-- What every read preserves holds where the end was found, and the read that found
it had room. -/
theorem drain_last {Inv : ρ → Prop}
    (hstep : ∀ {r len}, 0 < len → Inv r → Inv (AsyncRead.pollRead r len).2) (n : Nat) {r last : ρ}
    (hlens : ∀ k, 0 < lens k) (hr : Inv r) (h : (drain n lens r).2 = some last) :
    ∃ r' len, Inv r' ∧ 0 < len ∧ ∃ chunk : Chunk len, chunk.1 = [] ∧
      AsyncRead.pollRead r' len = (.ready (.ok chunk), last) := by
  induction n generalizing lens r with
  | zero => simp [drain] at h
  | succ n ih =>
      have hnext := hstep (hlens 0) hr
      have hlens' : ∀ k, 0 < lens (k + 1) := fun k => hlens (k + 1)
      cases hp : AsyncRead.pollRead r (lens 0) with
      | mk answer r' =>
          rw [hp] at hnext
          match answer with
          | .pending =>
              rw [drain_of_pending hp] at h
              exact ih hlens' hnext h
          | .ready (.error e) => simp [drain, hp] at h
          | .ready (.ok chunk) =>
              by_cases hnil : chunk.1 = []
              · rw [drain_of_end hnil hp, Option.some.injEq] at h
                subst h
                exact ⟨r, lens 0, hr, hlens 0, chunk, hnil, hp⟩
              · rw [drain_of_chunk hnil hp] at h
                exact ih hlens' hnext h

end

open ByteSource

section

variable {ρ : Type} [ByteSource ρ] {lens : Nat → Nat}

theorem drain_eq (n : Nat) {r last : ρ} (hlens : ∀ k, 0 < lens k)
    (h : (drain n lens r).2 = some last) : (drain n lens r).1 = rest r := by
  induction n generalizing lens r with
  | zero => simp [drain] at h
  | succ n ih =>
      have hlens' : ∀ k, 0 < lens (k + 1) := fun k => hlens (k + 1)
      cases hp : AsyncRead.pollRead r (lens 0) with
      | mk answer r' =>
          match answer with
          | .pending =>
              rw [drain_of_pending hp] at h ⊢
              rw [ih hlens' h, (pending_spec hp).1]
          | .ready (.error e) => simp [drain, hp] at h
          | .ready (.ok chunk) =>
              obtain ⟨hrest, hend⟩ := chunk_spec (hlens 0) hp
              by_cases hnil : chunk.1 = []
              · rw [drain_of_end hnil hp, (hend hnil).1]
              · rw [drain_of_chunk hnil hp] at h ⊢
                rw [ih hlens' h, hrest]

/-- A source without a fault is read to its end by enough reads. -/
theorem drain_ends {r : ρ} (hlens : ∀ k, 0 < lens k) (hfault : fault r = none) :
    ∃ N, ∀ n ≥ N, ∃ last, (drain n lens r).2 = some last := by
  have hwf : WellFounded (Advanced : ρ → ρ → Prop) := advanced_wf
  induction r using hwf.induction generalizing lens with
  | h r ih =>
      have hlens' : ∀ k, 0 < lens (k + 1) := fun k => hlens (k + 1)
      have hfault' := fault_pollRead r (lens 0)
      have hgo : ∀ r', Advanced r' r → fault r' = none →
          (∀ n, (drain (n + 1) lens r).2 = (drain n (fun k => lens (k + 1)) r').2) →
          ∃ N, ∀ n ≥ N, ∃ last, (drain n lens r).2 = some last := by
        intro r' hadv hf heq
        obtain ⟨N, hN⟩ := ih r' hadv hlens' hf
        refine eventually_of_succ (N := N) (fun m hm => ?_)
        rw [heq]
        exact hN m hm
      cases hp : AsyncRead.pollRead r (lens 0) with
      | mk answer r' =>
          rw [hp] at hfault'
          match answer with
          | .pending =>
              exact hgo r' (.inr (pending_spec hp)) (hfault'.trans hfault)
                (fun n => by rw [drain_of_pending hp])
          | .ready (.error e) =>
              have hsome := (error_spec hp).2
              rw [hfault] at hsome
              cases hsome
          | .ready (.ok chunk) =>
              obtain ⟨hrest, _⟩ := chunk_spec (hlens 0) hp
              by_cases hnil : chunk.1 = []
              · refine eventually_of_succ (N := 0) (fun m _ => ?_)
                exact ⟨r', by rw [drain_of_end hnil hp]⟩
              · have hpos := List.length_pos_iff.mpr hnil
                refine hgo r' (.inl ?_) (hfault'.trans hfault)
                  (fun n => by rw [drain_of_chunk hnil hp])
                rw [hrest, List.length_append]
                omega

end

/-! ## Futures -/

/-- `Future::poll`. -/
class AsyncFuture (φ : Type) (α : outParam Type) where
  poll : φ → Poll α × φ

/-- A future that answers its polls one by one, and stays pending when they run out. -/
structure FutureScript (α : Type) where
  turns : List (Option α)

instance (α : Type) : AsyncFuture (FutureScript α) α where
  poll f :=
    match f.turns with
    | [] => (.pending, f)
    | none :: turns => (.pending, ⟨turns⟩)
    | some a :: turns => (.ready a, ⟨turns⟩)

/-! ## Streams of fixed items -/

/-- `poll_next`. -/
class AsyncStream (σ : Type) (α : outParam Type) where
  pollNext : σ → Poll (Option α) × σ

/-- A stream that hands out a fixed list of items, with finitely many `Pending`s
before each and before its end. -/
class ItemSource (σ : Type) (α : outParam Type) extends AsyncStream σ α where
  /-- The items still to be handed out. -/
  items : σ → List α
  /-- Bounds the `Pending`s before the next answer. -/
  delay : σ → Nat
  pending_spec : ∀ {s s'}, pollNext s = (.pending, s') → items s' = items s ∧ delay s' < delay s
  item_spec : ∀ {s s' a}, pollNext s = (.ready (some a), s') → items s = a :: items s'
  end_spec : ∀ {s s'}, pollNext s = (.ready none, s') → items s = []

/-- The items `left`, with a `Pending` before every one that is paired with `true`. -/
structure ItemScript (α : Type) where
  left : List (Bool × α)

instance (α : Type) : ItemSource (ItemScript α) α where
  pollNext s :=
    match s.left with
    | [] => (.ready none, s)
    | (true, a) :: left => (.pending, ⟨(false, a) :: left⟩)
    | (false, a) :: left => (.ready (some a), ⟨left⟩)
  items s := s.left.map Prod.snd
  delay s :=
    match s.left with
    | (true, _) :: _ => 1
    | _ => 0
  pending_spec {s s'} h := by
    split at h
    · simp at h
    · rename_i hleft
      cases h
      simp [hleft]
    · simp at h
  item_spec {s s' a} h := by
    split at h
    · simp at h
    · simp at h
    · rename_i hleft
      cases h
      simp [hleft]
  end_spec {s s'} h := by
    split at h
    · rename_i hleft
      simp [hleft]
    · simp at h
    · simp at h

end Async
