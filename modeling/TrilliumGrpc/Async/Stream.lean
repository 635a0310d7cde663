import TrilliumGrpc.Async.Read

/-! # Polled streams

A stream is a state with a poll function. `items` is what a consumer collects
that polls it over and over; `Yields` is the one-poll condition from which the
collected items follow, however often the stream is not ready.
-/

namespace Async

section

variable {σ τ α : Type} (poll : σ → Poll (Option α) × σ) (stop : α → Bool)

/-- The items of at most `n` polls, up to the end or the first item at which the
consumer stops. -/
def items : Nat → σ → List (Option α)
  | 0, _ => []
  | n + 1, s =>
      match poll s with
      | (.pending, s') => items n s'
      | (.ready none, _) => [none]
      | (.ready (some a), s') => some a :: if stop a then [] else items n s'

variable {poll stop} in
theorem items_of_pending {s s' : σ} (h : poll s = (.pending, s')) (n : Nat) :
    items poll stop (n + 1) s = items poll stop n s' := by
  rw [items, h]

variable {poll stop} in
theorem items_of_none {s s' : σ} (h : poll s = (.ready none, s')) (n : Nat) :
    items poll stop (n + 1) s = [none] := by
  rw [items, h]

variable {poll stop} in
theorem items_of_some {s s' : σ} {a : α} (h : poll s = (.ready (some a), s')) (n : Nat) :
    items poll stop (n + 1) s = some a :: if stop a then [] else items poll stop n s' := by
  rw [items, h]

variable {poll stop} in
theorem items_comap {poll' : τ → Poll (Option α) × τ} (f : τ → σ) (P : τ → Prop)
    (hstep : ∀ t, P t → poll (f t) = ((poll' t).1, f (poll' t).2) ∧ P (poll' t).2)
    (n : Nat) {t : τ} (ht : P t) : items poll' stop n t = items poll stop n (f t) := by
  induction n generalizing t with
  | zero => rfl
  | succ n ih =>
      obtain ⟨heq, hnext⟩ := hstep t ht
      cases hp : poll' t with
      | mk answer t' =>
          rw [hp] at heq hnext
          cases answer with
          | pending => rw [items_of_pending hp, items_of_pending heq, ih hnext]
          | ready result =>
              cases result with
              | none => rw [items_of_none hp, items_of_none heq]
              | some a => rw [items_of_some hp, items_of_some heq, ih hnext]

/-- The state after `n` polls, whatever they answered. -/
def after (n : Nat) (s : σ) : σ := (fun s => (poll s).2)^[n] s

theorem after_succ (n : Nat) (s : σ) : after poll (n + 1) s = after poll n (poll s).2 :=
  Function.iterate_succ_apply _ n s

theorem after_add (m n : Nat) (s : σ) :
    after poll (m + n) s = after poll m (after poll n s) :=
  Function.iterate_add_apply _ m n s

/-- `R s l` says that `l` is still to come from `s`. One poll gives what the list
has next, and only finitely many polls in a row give nothing. -/
structure Yields (R : σ → List (Option α) → Prop) (before : σ → σ → Prop) : Prop where
  wf : WellFounded before
  pending : ∀ {s s' l}, R s l → poll s = (.pending, s') → R s' l ∧ before s' s
  ended : ∀ {s s' l}, R s l → poll s = (.ready none, s') → l = [none]
  item : ∀ {s s' l a}, R s l → poll s = (.ready (some a), s') →
    ∃ l', l = some a :: l' ∧ if stop a then l' = [] else R s' l'

variable {poll stop} {R : σ → List (Option α) → Prop} {before : σ → σ → Prop}

namespace Yields

/-- Nothing but the list is ever collected. -/
theorem items_prefix (h : Yields poll stop R before) (n : Nat) {s : σ} {l : List (Option α)}
    (hl : R s l) : items poll stop n s <+: l := by
  induction n generalizing s l with
  | zero => exact List.nil_prefix
  | succ n ih =>
      cases hp : poll s with
      | mk answer s' =>
          cases answer with
          | pending =>
              rw [items_of_pending hp]
              exact ih (h.pending hl hp).1
          | ready result =>
              cases result with
              | none =>
                  have hall : items poll stop (n + 1) s = l := by
                    rw [items_of_none hp, h.ended hl hp]
                  exact hall ▸ List.prefix_rfl
              | some a =>
                  obtain ⟨l', rfl, hnext⟩ := h.item hl hp
                  rw [items_of_some hp, List.prefix_cons_inj]
                  by_cases hs : stop a
                  · rw [if_pos hs]
                    exact List.nil_prefix
                  · rw [if_neg hs] at hnext ⊢
                    exact ih hnext

/-- With enough polls all that is to come has come. -/
theorem items_eventually (h : Yields poll stop R before) {s : σ} {l : List (Option α)}
    (hl : R s l) : ∃ N, ∀ n ≥ N, items poll stop n s = l := by
  -- Outer induction: the items still to come; inner: the polls before the next one.
  induction hlen : l.length using Nat.strongRecOn generalizing s l with
  | ind len outer =>
      subst hlen
      induction s using h.wf.induction with
      | h s inner =>
          cases hp : poll s with
          | mk answer s' =>
              cases answer with
              | pending =>
                  obtain ⟨hnext, hbefore⟩ := h.pending hl hp
                  obtain ⟨N, hN⟩ := inner s' hbefore hnext
                  refine eventually_of_succ (N := N) (fun m hm => ?_)
                  rw [items_of_pending hp]
                  exact hN m hm
              | ready result =>
                  cases result with
                  | none =>
                      refine eventually_of_succ (N := 0) (fun m _ => ?_)
                      rw [items_of_none hp, h.ended hl hp]
                  | some a =>
                      obtain ⟨l', rfl, hnext⟩ := h.item hl hp
                      by_cases hs : stop a
                      · refine eventually_of_succ (N := 0) (fun m _ => ?_)
                        rw [if_pos hs] at hnext
                        rw [items_of_some hp, if_pos hs, hnext]
                      · rw [if_neg hs] at hnext
                        obtain ⟨N, hN⟩ := outer l'.length (Nat.lt_succ_self _) hnext rfl
                        refine eventually_of_succ (N := N) (fun m hm => ?_)
                        rw [items_of_some hp, if_neg hs, hN m hm]

end Yields

theorem exists_ready {β : Type} (view : σ → β) (hwf : WellFounded before)
    (hpending : ∀ {s s'}, poll s = (.pending, s') → view s' = view s ∧ before s' s) (s : σ) :
    ∃ n result s', poll (after poll n s) = (.ready result, s') ∧
      view (after poll n s) = view s := by
  induction s using hwf.induction with
  | h s ih =>
      cases hp : poll s with
      | mk answer s' =>
          cases answer with
          | pending =>
              obtain ⟨hsame, hbefore⟩ := hpending hp
              obtain ⟨n, result, s'', hready, hview⟩ := ih s' hbefore
              refine ⟨n + 1, result, s'', ?_⟩
              rw [after_succ, hp]
              exact ⟨hready, hview.trans hsame⟩
          | ready result => exact ⟨0, result, s', hp, rfl⟩

end

end Async
