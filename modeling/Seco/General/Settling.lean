import Mathlib.Algebra.Order.Ring.Nat
import Seco.General.Runs

open Runs

-- the steps a system makes on its own each do one unit of the work that the others give it
structure Settling {S E : Type} (step : S → E → Option S) (own : E → Bool) (gain : E → Nat)
    (work : S → Nat) (I : S → Prop) : Prop where
  keeps : ∀ {s e t}, I s → step s e = some t → I t
  balance : ∀ {s e t}, I s → step s e = some t →
    (if own e then 1 else 0) + work t = work s + gain e
  outside : ∀ {e}, own e = true → gain e = 0
  progress : ∀ {s}, I s → work s ≠ 0 → ∃ e t, own e = true ∧ step s e = some t

namespace Settling

variable {S E : Type} {step : S → E → Option S} {own : E → Bool} {gain : E → Nat}
variable {work : S → Nat} {I : S → Prop} {s t : S} {es : List E}

theorem run (h : Settling step own gain work I) (hs : I s) (ht : run step es s = some t) :
    es.countP own + work t = work s + (es.map gain).sum := by
  induction es generalizing s with
  | nil =>
    obtain rfl := Option.some.inj ht
    simp
  | cons e es ih =>
    obtain ⟨u, hu, ht⟩ := run_cons.mp ht
    have hstep : (if own e then 1 else 0) + work u = work s + gain e := h.balance hs hu
    have hrest : es.countP own + work t = work u + (es.map gain).sum := ih (h.keeps hs hu) ht
    rw [List.countP_cons, List.map_cons, List.sum_cons]
    omega

theorem at_rest_iff (h : Settling step own gain work I) (hs : I s) :
    (∀ e, own e = true → step s e = none) ↔ work s = 0 := by
  constructor
  · intro hrest
    by_contra hw
    obtain ⟨e, t, ho, ht⟩ := h.progress hs hw
    exact Option.some_ne_none t (ht.symm.trans (hrest e ho))
  · intro hw e ho
    cases ht : step s e with
    | none => rfl
    | some t =>
      have hstep := h.balance hs ht
      rw [if_pos ho, h.outside ho, hw] at hstep
      omega

theorem settles (h : Settling step own gain work I) (hs : I s) :
    ∃ fs t, (∀ e ∈ fs, own e = true) ∧ Runs.run step fs s = some t ∧ work t = 0 := by
  induction hn : work s generalizing s with
  | zero => exact ⟨[], s, by simp, rfl, hn⟩
  | succ n ih =>
    obtain ⟨e, u, ho, hu⟩ := h.progress hs (by omega)
    have hstep := h.balance hs hu
    rw [if_pos ho, h.outside ho, hn] at hstep
    obtain ⟨fs, t, hown, ht, hw⟩ := ih (h.keeps hs hu) (by omega)
    refine ⟨e :: fs, t, ?_, run_cons.mpr ⟨u, hu, ht⟩, hw⟩
    rw [List.forall_mem_cons]
    exact ⟨ho, hown⟩

end Settling
