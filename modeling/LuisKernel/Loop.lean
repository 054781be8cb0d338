import Mathlib.Tactic.Common

/-!
# Loops

A loop is a step that gives the next state, or the result. Its runs are bounded by a number of
steps (`exec`), and `Reaches` says how many are enough.

* A loop that takes some more steps for each step of another one, and shows the same states at
  the end of them, has the same result (`exec_of_simulates`).
-/

namespace Loop

variable {S T D : Type*} {step : S → S ⊕ D}

variable (step) in
/-- At most `n` steps. -/
def exec : ℕ → S ⊕ D → S ⊕ D
  | 0, r => r
  | _ + 1, .inr d => .inr d
  | n + 1, .inl s => exec n (step s)

@[simp] theorem exec_done (n : ℕ) (d : D) : exec step n (.inr d) = .inr d := by
  rcases n with _ | n
  · rfl
  · rfl

theorem exec_succ (n : ℕ) (s : S) : exec step (n + 1) (.inl s) = exec step n (step s) := rfl

theorem exec_add (m n : ℕ) (r : S ⊕ D) :
    exec step (m + n) r = exec step n (exec step m r) := by
  induction m generalizing r with
  | zero =>
    rw [Nat.zero_add]
    rfl
  | succ m ih =>
    rw [Nat.succ_add]
    rcases r with s | d
    · exact ih _
    · rw [exec_done, exec_done, exec_done]

/-- What has ended stays so. -/
theorem exec_of_le {m n : ℕ} {r : S ⊕ D} {d : D} (h : exec step m r = .inr d) (hmn : m ≤ n) :
    exec step n r = .inr d := by
  rw [← Nat.add_sub_cancel' hmn, exec_add, h, exec_done]

variable (step) in
/-- The loop gets from `r` to `r'` in at most `n` steps. -/
def Reaches (n : ℕ) (r r' : S ⊕ D) : Prop := ∃ k ≤ n, exec step k r = r'

theorem Reaches.refl (n : ℕ) (r : S ⊕ D) : Reaches step n r r := ⟨0, Nat.zero_le n, rfl⟩

theorem Reaches.trans {m n : ℕ} {r₁ r₂ r₃ : S ⊕ D} (h₁ : Reaches step m r₁ r₂)
    (h₂ : Reaches step n r₂ r₃) : Reaches step (m + n) r₁ r₃ := by
  obtain ⟨k, hk, rfl⟩ := h₁
  obtain ⟨l, hl, rfl⟩ := h₂
  exact ⟨k + l, Nat.add_le_add hk hl, exec_add k l r₁⟩

theorem Reaches.head {n : ℕ} {s : S} {r : S ⊕ D} (h : Reaches step n (step s) r) :
    Reaches step (n + 1) (.inl s) r := by
  obtain ⟨k, hk, rfl⟩ := h
  exact ⟨k + 1, Nat.succ_le_succ hk, rfl⟩

theorem Reaches.mono {m n : ℕ} {r r' : S ⊕ D} (h : Reaches step m r r') (hmn : m ≤ n) :
    Reaches step n r r' := by
  obtain ⟨k, hk, hr⟩ := h
  exact ⟨k, Nat.le_trans hk hmn, hr⟩

theorem Reaches.exec_eq {m n : ℕ} {r : S ⊕ D} {d : D} (h : Reaches step m r (.inr d))
    (hmn : m ≤ n) : exec step n r = .inr d := by
  obtain ⟨k, hk, hr⟩ := h
  exact exec_of_le hr (Nat.le_trans hk hmn)

/-- In at most `m` steps, the loop gets from `t` to a state that shows `r`, or to the same
    result. -/
def Follows (step' : T → T ⊕ D) (Shows : T → S → Prop) (m : ℕ) (t : T) : S ⊕ D → Prop
  | .inl s => ∃ t', Reaches step' m (.inl t) (.inl t') ∧ Shows t' s
  | .inr d => Reaches step' m (.inl t) (.inr d)

section

variable {step' : T → T ⊕ D} {Shows : T → S → Prop} {m n : ℕ} {t t' : T} {r : S ⊕ D}

theorem Follows.mono (h : Follows step' Shows m t r) (hmn : m ≤ n) :
    Follows step' Shows n t r := by
  rcases r with s | d
  · obtain ⟨t', hreach, hshows⟩ := h
    exact ⟨t', hreach.mono hmn, hshows⟩
  · exact Reaches.mono h hmn

theorem Follows.head (ht : step' t = .inl t') (h : Follows step' Shows m t' r) :
    Follows step' Shows (m + 1) t r := by
  rcases r with s | d
  · obtain ⟨t'', hreach, hshows⟩ := h
    exact ⟨t'', .head (ht ▸ hreach), hshows⟩
  · exact Reaches.head (ht ▸ h)

theorem follows_one {s : S} (ht : step' t = .inl t') (hshows : Shows t' s) :
    Follows step' Shows 1 t (.inl s) :=
  ⟨t', .head (ht ▸ .refl _ _), hshows⟩

theorem follows_done {d : D} (ht : step' t = .inr d) : Follows step' Shows 1 t (.inr d) :=
  Reaches.head (ht ▸ .refl _ _)

end

/-- Every step of the first loop is followed by the second, in at most `m` steps. -/
def Simulates (step : S → S ⊕ D) (step' : T → T ⊕ D) (Shows : T → S → Prop) (m : ℕ) : Prop :=
  ∀ t s, Shows t s → Follows step' Shows m t (step s)

theorem exec_of_simulates {step' : T → T ⊕ D} {Shows : T → S → Prop} {m : ℕ}
    (hsim : Simulates step step' Shows m) {t : T} {s : S} (hshows : Shows t s) {n : ℕ} {d : D}
    (h : exec step n (.inl s) = .inr d) : exec step' (n * m) (.inl t) = .inr d := by
  suffices hreach : Reaches step' (n * m) (.inl t) (.inr d) from hreach.exec_eq (Nat.le_refl _)
  induction n generalizing s t with
  | zero => cases h
  | succ n ih =>
    have hstep := hsim t s hshows
    rw [exec_succ] at h
    rw [Nat.succ_mul, Nat.add_comm]
    rcases hs : step s with s' | d'
    · rw [hs] at hstep h
      obtain ⟨t', hreach, hshows'⟩ := hstep
      exact hreach.trans (ih hshows' h)
    · rw [hs] at hstep h
      rw [exec_done] at h
      cases h
      exact Reaches.mono hstep (Nat.le_add_right _ _)

end Loop
