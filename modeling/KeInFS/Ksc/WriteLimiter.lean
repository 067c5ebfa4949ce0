import KeInFS.Library.Run
import KeInFS.Control.Records

/-! The adaptive gate of the fragment writes: a semaphore whose permits are forgotten after a 429 and added
back after clean batches. A mutex covers the target and the debt; the semaphore is outside it. -/

namespace KeInFS

def adaptiveInflightAfter429 (current maximum : Nat) (advertised : Option Nat) : Nat :=
  let target := match advertised with
    | some advertised => min advertised current
    | none => current / 2
  min (max target 1) (max maximum 1)

def adaptiveInflightAfterSuccess (current maximum step : Nat) : Nat :=
  min (max (saturatingAdd current step) 1) (max maximum 1)

def adaptiveInflightRecoveryStep : Nat := 4

/-- A pending acquire keeps the target it started under until the target grows; `grants` lists these with
the number of permits held from the grant on. -/
structure WriteSemaphore where
  available : Nat
  held : Nat := 0
  waiting : List (Option Nat) := []
  grants : List (Option Nat × Nat) := []

namespace WriteSemaphore

def grant (s : WriteSemaphore) (ceiling : Option Nat) : WriteSemaphore :=
  { s with held := s.held + 1, grants := s.grants ++ [(ceiling, s.held + 1)] }

/-- A permit goes to the oldest waiter, and is available only when nobody waits. -/
def addPermits : Nat → WriteSemaphore → WriteSemaphore
  | 0, s => s
  | n + 1, ⟨available, held, [], grants⟩ => addPermits n ⟨available + 1, held, [], grants⟩
  | n + 1, ⟨available, held, ceiling :: waiting, grants⟩ =>
    addPermits n (grant ⟨available, held, waiting, grants⟩ ceiling)

def acquireOwned (s : WriteSemaphore) (ceiling : Option Nat) : WriteSemaphore :=
  if 0 < s.available then { s with available := s.available - 1 }.grant ceiling
  else { s with waiting := s.waiting ++ [ceiling] }

def dropPermit (s : WriteSemaphore) : WriteSemaphore := addPermits 1 { s with held := s.held - 1 }

structure Serves (n : Nat) (s t : WriteSemaphore) : Prop where
  total : t.available + t.held = s.available + s.held + n
  queued : t.waiting ≠ [] → s.waiting ≠ [] ∧ t.available = s.available
  left : ∀ c ∈ t.waiting, c ∈ s.waiting
  granted : ∀ c k, (c, k) ∈ t.grants → (c, k) ∈ s.grants ∨ c ∈ s.waiting ∧ k ≤ s.available + s.held + n

theorem addPermits_serves (n : Nat) (s : WriteSemaphore) : Serves n s (addPermits n s) := by
  fun_induction addPermits n s with
  | case1 => exact ⟨rfl, fun h => ⟨h, rfl⟩, fun _ h => h, fun _ _ h => Or.inl h⟩
  | case2 n available held grants ih =>
    obtain ⟨total, queued, left, granted⟩ := ih
    dsimp only at total
    refine ⟨?_, fun h => absurd rfl (queued h).1, left, fun c k h => ?_⟩
    · dsimp only
      omega
    · exact (granted c k h).imp_right fun h => absurd h.1 List.not_mem_nil
  | case3 n available held ceiling waiting grants ih =>
    obtain ⟨total, queued, left, granted⟩ := ih
    have hn : available + (held + 1) + n = available + held + (n + 1) := by omega
    refine ⟨total.trans hn, fun h => ⟨List.cons_ne_nil _ _, (queued h).2⟩,
      fun c h => List.mem_cons_of_mem _ (left c h), fun c k h => ?_⟩
    rcases granted c k h with h | ⟨h, hk⟩
    · rcases List.mem_append.mp h with h | h
      · exact Or.inl h
      · cases List.mem_singleton.mp h
        exact Or.inr ⟨List.mem_cons_self, by dsimp only; omega⟩
    · exact Or.inr ⟨List.mem_cons_of_mem _ h, hk.trans_eq hn⟩

/-- Dropping the held permits serves the queue from its front. When none is held nobody waits, and the next
acquire is granted at once. -/
def Live (s : WriteSemaphore) : Prop :=
  (∀ n ≤ s.waiting.length, s.waiting ≠ [] → 0 < s.held ∧ dropPermit^[n] s = { s with
    waiting := s.waiting.drop n
    grants := s.grants ++ (s.waiting.take n).map fun c => (c, s.held) }) ∧
  (s.held = 0 → s.waiting = [] ∧ ∀ c, (s.acquireOwned c).grants = s.grants ++ [(c, 1)])

theorem dropPermit_iterate {s : WriteSemaphore} {n : Nat} (held : 0 < s.held) (hn : n ≤ s.waiting.length) :
    dropPermit^[n] s = { s with
      waiting := s.waiting.drop n
      grants := s.grants ++ (s.waiting.take n).map fun c => (c, s.held) } := by
  induction n generalizing s with
  | zero => simp
  | succ n ih =>
    obtain ⟨available, _ | held', _ | ⟨c, waiting⟩, grants⟩ := s
    · simp at hn
    · simp at held
    · simp at hn
    · refine (ih (s := ⟨available, held' + 1, waiting, grants ++ [(c, held' + 1)]⟩) held (by simpa using hn)).trans ?_
      simp

theorem live_of_queued {s : WriteSemaphore} (queued : s.waiting ≠ [] → s.available = 0)
    (issued : 0 < s.available + s.held) : s.Live := by
  refine ⟨fun n hn hw => ?_, fun none => ?_⟩
  · have held : 0 < s.held := by
      have := queued hw
      omega
    exact ⟨held, dropPermit_iterate held hn⟩
  · have free : 0 < s.available := by omega
    refine ⟨by_contra fun hw => ?_, fun c => ?_⟩
    · have := queued hw
      omega
    · rw [acquireOwned, if_pos free, grant, none]

end WriteSemaphore

/-- `paid` are the acquires between their reconciliation and the semaphore. -/
structure AdaptiveWriteLimiter where
  semaphore : WriteSemaphore
  maximum : Nat
  target : Nat
  forgetDebt : Nat := 0
  paid : List (Option Nat) := []

namespace AdaptiveWriteLimiter

def new (initial maximum : Nat) : AdaptiveWriteLimiter :=
  let maximum := max maximum 1
  let initial := min (max initial 1) maximum
  { semaphore := { available := initial }, maximum, target := initial }

/-- Other tasks use the semaphore between the reading of the available permits and `try_acquire_many`, which
takes a u32: the reading is any number. -/
def payForgetDebt (s : AdaptiveWriteLimiter) (reading : Nat) : AdaptiveWriteLimiter :=
  let forgettable := min (min s.forgetDebt reading) s.maximum
  if 0 < forgettable ∧ forgettable % 2 ^ 32 ≤ s.semaphore.available then
    { s with
      semaphore := { s.semaphore with available := s.semaphore.available - forgettable % 2 ^ 32 }
      forgetDebt := s.forgetDebt - forgettable }
  else s

def lower (s : AdaptiveWriteLimiter) (next : Nat) : AdaptiveWriteLimiter :=
  { s with forgetDebt := s.forgetDebt + (s.target - next), target := next }

def noteRateLimited (s : AdaptiveWriteLimiter) (advertised : Option Nat) (reading : Nat) : AdaptiveWriteLimiter :=
  let next := adaptiveInflightAfter429 s.target s.maximum advertised
  if next < s.target then (s.lower next).payForgetDebt reading else s

/-- `note_success` after its reconciliation. The acquires that are pending have started before the growth. -/
def grow (s : AdaptiveWriteLimiter) : AdaptiveWriteLimiter :=
  let next := adaptiveInflightAfterSuccess s.target s.maximum adaptiveInflightRecoveryStep
  if s.target < next then
    let debtCancelled := min (next - s.target) s.forgetDebt
    let waiting := s.semaphore.waiting.map fun _ => none
    { s with
      semaphore := .addPermits (next - s.target - debtCancelled) { s.semaphore with waiting }
      target := next
      forgetDebt := s.forgetDebt - debtCancelled
      paid := s.paid.map fun _ => none }
  else s

end AdaptiveWriteLimiter

open AdaptiveWriteLimiter

/-- An acquire reconciles, and later enters the semaphore as number `i` of those that have. -/
inductive LimiterStep
  | acquire (reading : Nat)
  | enter (i : Nat) (ceiling : Option Nat)
  | dropPermit
  | noteRateLimited (advertised : Option Nat) (reading : Nat)
  | noteSuccess (reading : Nat)

def limiterSystem (initial maximum : Nat) : LabelledSystem AdaptiveWriteLimiter LimiterStep where
  initial s := s = new initial maximum
  enabled s
    | .enter i ceiling => s.paid[i]? = some ceiling
    | .dropPermit => 0 < s.semaphore.held
    | _ => True
  next s
    | .acquire reading => { s.payForgetDebt reading with paid := s.paid ++ [some s.target] }
    | .enter i ceiling => { s with paid := s.paid.eraseIdx i, semaphore := s.semaphore.acquireOwned ceiling }
    | .dropPermit => { s with semaphore := s.semaphore.dropPermit }
    | .noteRateLimited advertised reading => s.noteRateLimited advertised reading
    | .noteSuccess reading => (s.payForgetDebt reading).grow

variable {initial maximum : Nat} {s : AdaptiveWriteLimiter} {a : LimiterStep}

instance : Decidable ((limiterSystem initial maximum).enabled s a) :=
  match a with
  | .enter i ceiling => inferInstanceAs (Decidable (s.paid[i]? = some ceiling))
  | .dropPermit => inferInstanceAs (Decidable (0 < s.semaphore.held))
  | .acquire _ | .noteRateLimited _ _ | .noteSuccess _ => inferInstanceAs (Decidable True)

namespace AdaptiveWriteLimiter

/-- The permits are those of the target and the debt. -/
structure Conserved (s : AdaptiveWriteLimiter) : Prop where
  permits : s.semaphore.available + s.semaphore.held = s.target + s.forgetDebt
  issued : s.target + s.forgetDebt ≤ s.maximum
  positive : 1 ≤ s.target
  small : s.maximum < 2 ^ 32
  queued : s.semaphore.waiting ≠ [] → s.semaphore.available = 0

theorem Conserved.pays (h : s.Conserved) (reading : Nat) :
    ∃ k, (s.forgetDebt ≤ reading → s.forgetDebt ≤ s.semaphore.available → k = s.forgetDebt) ∧
      k ≤ s.semaphore.available ∧ k ≤ s.forgetDebt ∧ s.payForgetDebt reading = { s with
        semaphore := { s.semaphore with available := s.semaphore.available - k }
        forgetDebt := s.forgetDebt - k } := by
  obtain ⟨_, _, _, _, _⟩ := h
  have hmod : min (min s.forgetDebt reading) s.maximum % 2 ^ 32 = min (min s.forgetDebt reading) s.maximum :=
    Nat.mod_eq_of_lt (by omega)
  unfold payForgetDebt
  dsimp only
  rw [hmod]
  split
  · exact ⟨_, by omega, by omega, by omega, rfl⟩
  · exact ⟨0, by omega, by omega, by omega, rfl⟩

theorem Conserved.payForgetDebt (h : s.Conserved) (reading : Nat) : (s.payForgetDebt reading).Conserved := by
  obtain ⟨k, _, _, _, he⟩ := h.pays reading
  obtain ⟨_, _, positive, small, queued⟩ := h
  rw [he]
  refine ⟨?_, ?_, positive, small, fun hne => ?_⟩ <;> dsimp only
  · omega
  · omega
  · rw [queued hne, Nat.zero_sub]

theorem Conserved.lower (h : s.Conserved) {advertised : Option Nat}
    (lower : adaptiveInflightAfter429 s.target s.maximum advertised < s.target) : (s.lower
      (adaptiveInflightAfter429 s.target s.maximum advertised)).Conserved := by
  obtain ⟨_, _, _, small, queued⟩ := h
  have hnext : 1 ≤ adaptiveInflightAfter429 s.target s.maximum advertised :=
    Nat.le_min.mpr ⟨Nat.le_max_right _ _, Nat.le_max_right _ _⟩
  refine ⟨?_, ?_, hnext, small, queued⟩ <;> dsimp only [AdaptiveWriteLimiter.lower] <;> omega

theorem Conserved.grow (h : s.Conserved) : s.grow.Conserved := by
  unfold AdaptiveWriteLimiter.grow
  dsimp only
  split
  · obtain ⟨_, _, _, small, queued⟩ := h
    obtain ⟨total, hq, _, _⟩ := WriteSemaphore.addPermits_serves _ _
    have hnext : adaptiveInflightAfterSuccess s.target s.maximum adaptiveInflightRecoveryStep ≤ s.maximum := by
      unfold adaptiveInflightAfterSuccess
      omega
    refine ⟨total.trans ?_, ?_, ?_, small, fun hne => (hq hne).2.trans (queued (by simpa using (hq hne).1))⟩ <;>
      dsimp only <;> omega
  · exact h

theorem Conserved.step (h : s.Conserved) (ha : (limiterSystem initial maximum).enabled s a) :
    ((limiterSystem initial maximum).next s a).Conserved := by
  cases a with
  | acquire reading => exact { h.payForgetDebt reading with }
  | enter =>
    obtain ⟨permits, issued, positive, small, queued⟩ := h
    simp only [limiterSystem, WriteSemaphore.acquireOwned]
    split
    · refine ⟨?_, issued, positive, small, fun hne => ?_⟩ <;> dsimp only [WriteSemaphore.grant]
      · omega
      · have := queued hne
        omega
    · exact ⟨permits, issued, positive, small, fun _ => by dsimp only; omega⟩
  | dropPermit =>
    have hheld : 0 < s.semaphore.held := ha
    obtain ⟨_, issued, positive, small, queued⟩ := h
    obtain ⟨total, hq, _, _⟩ := WriteSemaphore.addPermits_serves 1 { s.semaphore with held := s.semaphore.held - 1 }
    refine ⟨total.trans ?_, issued, positive, small, fun hne => (hq hne).2.trans (queued (hq hne).1)⟩
    change s.semaphore.available + (s.semaphore.held - 1) + 1 = s.target + s.forgetDebt
    omega
  | noteRateLimited advertised reading =>
    simp only [limiterSystem, AdaptiveWriteLimiter.noteRateLimited]
    split
    next lower => exact (h.lower lower).payForgetDebt reading
    · exact h
  | noteSuccess reading =>
    simp only [limiterSystem]
    exact (h.payForgetDebt reading).grow

theorem conserved_of_reachable (small : maximum < 2 ^ 32) (h : (limiterSystem initial maximum).Reachable s) :
    s.Conserved := by
  refine h.invariant ?_ (fun _ _ hs ha => hs.step ha)
  rintro _ rfl
  refine ⟨?_, ?_, ?_, ?_, nofun⟩ <;> dsimp only [new] <;> omega

end AdaptiveWriteLimiter

/-- The permits in use and free are those of the target and the debt, and no acquire is stuck. -/
theorem permits_conserved {initial maximum : Nat} (small : maximum < 2 ^ 32) {s : AdaptiveWriteLimiter}
    (h : (limiterSystem initial maximum).Reachable s) :
    s.semaphore.available + s.semaphore.held = s.target + s.forgetDebt ∧ s.target + s.forgetDebt ≤ s.maximum ∧
    (1 ≤ s.target ∧ s.target ≤ s.maximum) ∧ s.semaphore.Live := by
  obtain ⟨permits, issued, positive, _, queued⟩ := conserved_of_reachable small h
  exact ⟨permits, issued, ⟨positive, by omega⟩, WriteSemaphore.live_of_queued queued (by omega)⟩

theorem permits_conserved_shrunk : ∃ s, (limiterSystem 2 8).Reachable s ∧ s.target = 1 ∧ s.forgetDebt = 0 ∧
    s.semaphore.available + s.semaphore.held = s.target + s.forgetDebt := by
  obtain ⟨s, h, ht, hd⟩ : ∃ s, (limiterSystem 2 8).Reachable s ∧ s.target = 1 ∧ s.forgetDebt = 0 :=
    LabelledSystem.exists_of_run [.noteRateLimited none 2] rfl (by decide +kernel)
  exact ⟨s, h, ht, hd, (permits_conserved (by decide) h).1⟩

/-- Debt of 2^32 permits is struck off and none is forgotten. -/
theorem truncated_forget_leaks : ∃ s, (limiterSystem (2 ^ 32 + 1) (2 ^ 32 + 1)).Reachable s ∧
    s.semaphore.available + s.semaphore.held = 2 ^ 32 + 1 ∧ s.target + s.forgetDebt = 1 :=
  LabelledSystem.exists_of_run [.noteRateLimited (some 1) (2 ^ 32 + 1)] rfl (by decide +kernel)

/-- An acquire pays off the whole debt. -/
def Clears (s : AdaptiveWriteLimiter) : LimiterStep → Prop
  | .acquire reading => s.forgetDebt ≤ reading ∧ s.forgetDebt ≤ s.semaphore.available
  | _ => True

namespace AdaptiveWriteLimiter

structure Within (s : AdaptiveWriteLimiter) : Prop where
  pending : ∀ ceiling, some ceiling ∈ s.paid ∨ some ceiling ∈ s.semaphore.waiting → s.target + s.forgetDebt ≤ ceiling
  granted : ∀ ceiling k, (some ceiling, k) ∈ s.semaphore.grants → k ≤ ceiling

theorem Within.payForgetDebt (h : s.Within) (conserved : s.Conserved) (reading : Nat) :
    (s.payForgetDebt reading).Within := by
  obtain ⟨k, _, _, _, he⟩ := conserved.pays reading
  rw [he]
  refine ⟨fun T hT => ?_, h.granted⟩
  have := h.pending T hT
  dsimp only
  omega

theorem Within.grow (h : s.Within) : s.grow.Within := by
  unfold AdaptiveWriteLimiter.grow
  dsimp only
  split
  · obtain ⟨_, _, left, granted⟩ := WriteSemaphore.addPermits_serves _ _
    refine ⟨fun T hT => ?_, fun T k hk => ?_⟩
    · rcases hT with hT | hT
      · simp at hT
      · simpa using left _ hT
    · rcases granted _ _ hk with hk | ⟨hT, _⟩
      · exact h.granted T k hk
      · simp at hT
  · exact h

theorem Within.step (h : s.Within) (conserved : s.Conserved) (ha : (limiterSystem initial maximum).enabled s a)
    (clears : Clears s a) : ((limiterSystem initial maximum).next s a).Within := by
  have permits := conserved.permits
  cases a with
  | acquire reading =>
    obtain ⟨k, hfull, _, _, he⟩ := conserved.pays reading
    simp only [limiterSystem, he]
    refine ⟨fun T hT => ?_, h.granted⟩
    rcases or_assoc.mp (hT.imp_left List.mem_append.mp) with hT | hT | hT
    · have := h.pending T (.inl hT)
      dsimp only
      omega
    · cases List.mem_singleton.mp hT
      have := hfull clears.1 clears.2
      dsimp only
      omega
    · have := h.pending T (.inr hT)
      dsimp only
      omega
  | enter i ceiling =>
    have hmem : ceiling ∈ s.paid := List.mem_of_getElem? ha
    simp only [limiterSystem, WriteSemaphore.acquireOwned]
    split
    · refine ⟨fun T hT => h.pending T (hT.imp_left List.mem_of_mem_eraseIdx), fun T k hk => ?_⟩
      rcases List.mem_append.mp hk with hk | hk
      · exact h.granted T k hk
      · cases List.mem_singleton.mp hk
        have := h.pending T (.inl hmem)
        dsimp only
        omega
    · refine ⟨fun T hT => h.pending T ?_, h.granted⟩
      rcases hT with hT | hT
      · exact .inl (List.mem_of_mem_eraseIdx hT)
      · rcases List.mem_append.mp hT with hT | hT
        · exact .inr hT
        · exact .inl (List.mem_singleton.mp hT ▸ hmem)
  | dropPermit =>
    have hheld : 0 < s.semaphore.held := ha
    obtain ⟨_, _, left, granted⟩ :=
      WriteSemaphore.addPermits_serves 1 { s.semaphore with held := s.semaphore.held - 1 }
    refine ⟨fun T hT => h.pending T (hT.imp_right (left _)), fun T k hk => ?_⟩
    rcases granted _ _ hk with hk | ⟨hT, hk⟩
    · exact h.granted T k hk
    · have := h.pending T (.inr hT)
      dsimp only at hk
      omega
  | noteRateLimited advertised reading =>
    simp only [limiterSystem, AdaptiveWriteLimiter.noteRateLimited]
    split
    next lower =>
      refine Within.payForgetDebt (s := s.lower _) ⟨fun T hT => ?_, h.granted⟩ (conserved.lower lower) reading
      have := h.pending T hT
      dsimp only [AdaptiveWriteLimiter.lower]
      omega
    · exact h
  | noteSuccess reading =>
    simp only [limiterSystem]
    exact (h.payForgetDebt conserved reading).grow

end AdaptiveWriteLimiter

end KeInFS
