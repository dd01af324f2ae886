import Mathlib.Data.List.Basic
import Mathlib.Logic.Function.Basic
import Mathlib.Order.WellFounded

namespace OperationQueues

inductive Stage where
  | pending
  | running
  | done
  deriving DecidableEq

inductive Event (O : Type) where
  | start (o : O)
  | finish (o : O)
  deriving DecidableEq

variable {O : Type} [DecidableEq O] (operations : List O) (dependencies : O → List O)

def isReady (s : O → Stage) (o : O) : Bool := (dependencies o).all fun d => s d == .done

def step (s : O → Stage) : Event O → Option (O → Stage)
  | .start o =>
    if o ∈ operations ∧ s o = .pending ∧ isReady dependencies s o = true then
      some (Function.update s o .running)
    else none
  | .finish o =>
    if o ∈ operations ∧ s o = .running then some (Function.update s o .done) else none

def Ordered (s : O → Stage) : Prop := ∀ o, s o ≠ .pending → ∀ d ∈ dependencies o, s d = .done

def Complete (s : O → Stage) : Prop := ∀ o ∈ operations, s o = .done

variable {operations dependencies} {s t : O → Stage} {o : O}

omit [DecidableEq O] in
theorem isReady_iff : isReady dependencies s o = true ↔ ∀ d ∈ dependencies o, s d = .done := by
  simp [isReady]

theorem step_start : step operations dependencies s (.start o) = some t ↔
    o ∈ operations ∧ s o = .pending ∧ (∀ d ∈ dependencies o, s d = .done) ∧
      t = Function.update s o .running := by
  rw [step, ← isReady_iff]
  split <;> rename_i h
  · simp [h, eq_comm]
  · simp only [reduceCtorEq, false_iff]
    rintro ⟨ho, hp, hd, -⟩
    exact h ⟨ho, hp, hd⟩

theorem step_finish : step operations dependencies s (.finish o) = some t ↔
    o ∈ operations ∧ s o = .running ∧ t = Function.update s o .done := by
  rw [step]
  split <;> rename_i h
  · simp [h, eq_comm]
  · simp only [reduceCtorEq, false_iff]
    rintro ⟨ho, hr, -⟩
    exact h ⟨ho, hr⟩

theorem done_of_step {e : Event O} (h : step operations dependencies s e = some t)
    (hd : s o = .done) : t o = .done := by
  cases e with
  | start p =>
    obtain ⟨-, hp, -, rfl⟩ := step_start.mp h
    have hne : o ≠ p := by
      rintro rfl
      simp [hd] at hp
    rwa [Function.update_of_ne hne]
  | finish p =>
    obtain ⟨-, -, rfl⟩ := step_finish.mp h
    by_cases hop : o = p
    · rw [hop, Function.update_self]
    · rwa [Function.update_of_ne hop]

theorem step_ordered {e : Event O} (h : step operations dependencies s e = some t)
    (hs : Ordered dependencies s) : Ordered dependencies t := by
  intro o ho d hd
  refine done_of_step h ?_
  cases e with
  | start p =>
    obtain ⟨-, -, hr, rfl⟩ := step_start.mp h
    by_cases hop : o = p
    · exact hr d (hop ▸ hd)
    · rw [Function.update_of_ne hop] at ho
      exact hs o ho d hd
  | finish p =>
    obtain ⟨-, hp, rfl⟩ := step_finish.mp h
    by_cases hop : o = p
    · exact hs o (by simp [hop, hp]) d hd
    · rw [Function.update_of_ne hop] at ho
      exact hs o ho d hd

-- the least operation that is not done has all its dependencies behind it
theorem progress (hw : WellFounded fun d o => d ∈ dependencies o)
    (hc : ∀ o ∈ operations, ∀ d ∈ dependencies o, d ∈ operations)
    (hn : ¬ Complete operations s) : ∃ e t, step operations dependencies s e = some t := by
  simp only [Complete, not_forall] at hn
  obtain ⟨o, ho, hod⟩ := hn
  let left : Set O := {o | o ∈ operations ∧ s o ≠ .done}
  obtain ⟨p, ⟨hp, hpd⟩, hmin⟩ := hw.has_min left ⟨o, ho, hod⟩
  have hdone : ∀ d ∈ dependencies p, s d = .done := by
    intro d hd
    by_contra hsd
    exact hmin d ⟨hc p hp d hd, hsd⟩ hd
  cases hs : s p with
  | pending => exact ⟨.start p, _, step_start.mpr ⟨hp, hs, hdone, rfl⟩⟩
  | running => exact ⟨.finish p, _, step_finish.mpr ⟨hp, hs, rfl⟩⟩
  | done => exact absurd hs hpd

end OperationQueues
