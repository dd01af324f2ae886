import Mathlib.Data.Fintype.Basic
import Mathlib.Logic.Function.Basic

-- numbered cells that show rows; no cell shows two rows
structure ReusePool (R C : Type) where
  cells : Nat → C
  screen : R → Option Nat
  apart : ∀ {row row' cell}, screen row = some cell → screen row' = some cell → row = row'

namespace ReusePool

variable {R C : Type}

def fresh (cell : C) : ReusePool R C where
  cells _ := cell
  screen _ := none
  apart h := nomatch h

def shown (pool : ReusePool R C) (row : R) : Option C := (pool.screen row).map pool.cells

def Free (pool : ReusePool R C) (cell : Nat) : Prop := ∀ row, pool.screen row ≠ some cell

instance [Fintype R] (pool : ReusePool R C) (cell : Nat) : Decidable (pool.Free cell) :=
  inferInstanceAs (Decidable (∀ row, pool.screen row ≠ some cell))

section Operations

variable [DecidableEq R]

theorem apart_update {screen : R → Option Nat} {cell : Nat}
    (apart : ∀ {row row' cell}, screen row = some cell → screen row' = some cell → row = row')
    (free : ∀ row, screen row ≠ some cell) (row : R) {row₁ row₂ : R} {cell' : Nat}
    (h₁ : Function.update screen row (some cell) row₁ = some cell')
    (h₂ : Function.update screen row (some cell) row₂ = some cell') : row₁ = row₂ := by
  rw [Function.update_apply] at h₁ h₂
  split at h₁ <;> split at h₂
  · rename_i he₁ he₂
    rw [he₁, he₂]
  · obtain rfl := Option.some.inj h₁
    exact absurd h₂ (free row₂)
  · obtain rfl := Option.some.inj h₂
    exact absurd h₁ (free row₁)
  · exact apart h₁ h₂

def configured (pool : ReusePool R C) (row : R) (cell : Nat) (configure : C → C)
    (free : pool.Free cell) : ReusePool R C where
  cells := Function.update pool.cells cell (configure (pool.cells cell))
  screen := Function.update pool.screen row (some cell)
  apart := apart_update pool.apart free row

-- a cell that is on the screen is not dequeued
def dequeue [Fintype R] (row : R) (cell : Nat) (configure : C → C) (pool : ReusePool R C) :
    Option (ReusePool R C) :=
  if free : pool.Free cell then some (pool.configured row cell configure free) else none

theorem screen_of_release {screen : R → Option Nat} {row row' : R} {cell : Nat}
    (h : Function.update screen row none row' = some cell) : screen row' = some cell := by
  rw [Function.update_apply] at h
  split at h
  · cases h
  · exact h

def release (row : R) (pool : ReusePool R C) : ReusePool R C where
  cells := pool.cells
  screen := Function.update pool.screen row none
  apart h₁ h₂ := pool.apart (screen_of_release h₁) (screen_of_release h₂)

def modify (row : R) (f : C → C) (pool : ReusePool R C) : ReusePool R C :=
  match pool.screen row with
  | some cell => { pool with cells := Function.update pool.cells cell (f (pool.cells cell)) }
  | none => pool

variable {pool next : ReusePool R C} {row : R} {cell : Nat} {configure f : C → C}

theorem shown_configured (free : pool.Free cell) :
    (pool.configured row cell configure free).shown =
      Function.update pool.shown row (some (configure (pool.cells cell))) := by
  funext row'
  rw [Function.update_apply]
  split
  · rename_i he
    subst he
    simp [shown, configured]
  · rename_i hne
    simp only [shown, configured, Function.update_of_ne hne]
    cases hs : pool.screen row' with
    | none => rfl
    | some cell' =>
      have hc : cell' ≠ cell := fun he => free row' (he ▸ hs)
      simp [hc]

theorem shown_dequeue [Fintype R] (h : pool.dequeue row cell configure = some next) :
    next.shown = Function.update pool.shown row (some (configure (pool.cells cell))) := by
  rw [dequeue] at h
  split at h
  · obtain rfl := Option.some.inj h
    exact shown_configured _
  · cases h

theorem shown_release :
    (pool.release row).shown = Function.update pool.shown row none := by
  funext row'
  simp only [shown, release, Function.update_apply]
  split <;> rfl

theorem shown_modify :
    (pool.modify row f).shown = Function.update pool.shown row ((pool.shown row).map f) := by
  unfold modify
  split
  · rename_i cell hs
    funext row'
    rw [Function.update_apply]
    split
    · rename_i he
      subst he
      simp [shown, hs]
    · rename_i hne
      rw [shown, shown]
      cases hs' : pool.screen row' with
      | none => rfl
      | some cell' =>
        have hc : cell' ≠ cell := fun he => hne (pool.apart (he ▸ hs') hs)
        simp [hc]
  · rename_i hs
    have hn : pool.shown row = none := by rw [shown, hs, Option.map_none]
    rw [hn, Option.map_none, ← hn, Function.update_eq_self]

end Operations

def Each (P : R → C → Prop) (pool : ReusePool R C) : Prop :=
  ∀ row cell, pool.shown row = some cell → P row cell

theorem each_fresh {P : R → C → Prop} (cell : C) : (fresh cell : ReusePool R C).Each P :=
  fun _ _ h => nomatch h

section Each

variable [DecidableEq R] {P Q : R → C → Prop} {pool next : ReusePool R C} {row : R} {cell : C}

theorem Each.place (h : pool.Each P)
    (hs : next.shown = Function.update pool.shown row (some cell))
    (hne : ∀ row' cell, row' ≠ row → P row' cell → Q row' cell) (hc : Q row cell) :
    next.Each Q := by
  intro row' cell' hc'
  rw [hs, Function.update_apply] at hc'
  split at hc'
  · rename_i he
    obtain rfl := Option.some.inj hc'
    exact he ▸ hc
  · rename_i hn
    exact hne row' cell' hn (h row' cell' hc')

theorem Each.release (h : pool.Each P) (row : R) : (pool.release row).Each P := by
  intro row' cell' hc'
  rw [shown_release, Function.update_apply] at hc'
  split at hc'
  · cases hc'
  · exact h row' cell' hc'

theorem shown_modify_of_shown {f : C → C} (h : pool.shown row = some cell) :
    (pool.modify row f).shown = Function.update pool.shown row (some (f cell)) := by
  rw [shown_modify, h, Option.map_some]

end Each

end ReusePool
