import Seco.General.Runs

structure Machine (S E O : Type) where
  next : S → E → S
  out : S → E → O

namespace Machine

variable {S T E O : Type} (M : Machine S E O) (N : Machine T E O)

def after (s : S) (es : List E) : S := es.foldl M.next s

def outputs : S → List E → List O
  | _, [] => []
  | s, e :: es => M.out s e :: outputs (M.next s e) es

variable {M N} {s : S} {t : T} {e : E} {es : List E}

@[simp] theorem after_nil : M.after s [] = s := rfl

@[simp] theorem after_cons : M.after s (e :: es) = M.after (M.next s e) es := rfl

theorem after_append (es fs : List E) : M.after s (es ++ fs) = M.after (M.after s es) fs :=
  List.foldl_append

theorem outputs_append (es fs : List E) :
    M.outputs s (es ++ fs) = M.outputs s es ++ M.outputs (M.after s es) fs := by
  induction es generalizing s with
  | nil => rfl
  | cons e es ih => rw [List.cons_append, outputs, ih, outputs, List.cons_append, after_cons]

theorem outputs_eq_iff : M.outputs s es = N.outputs t es ↔
    ∀ pre e post, es = pre ++ e :: post →
      M.out (M.after s pre) e = N.out (N.after t pre) e := by
  induction es generalizing s t with
  | nil => simp [outputs]
  | cons a es ih =>
    rw [outputs, outputs, List.cons.injEq, ih]
    constructor
    · rintro ⟨ha, h⟩ pre e post he
      cases pre with
      | nil =>
        obtain ⟨rfl, rfl⟩ := List.cons.inj he
        exact ha
      | cons b pre =>
        obtain ⟨rfl, rfl⟩ := List.cons.inj he
        exact h pre e post rfl
    · intro h
      refine ⟨h [] a es rfl, fun pre e post he => ?_⟩
      exact h (a :: pre) e post (by rw [he, List.cons_append])

open Runs

-- what a step means to the machine is a list of its events, with one output for each
structure Simulates {A : Type} (step : T → A → Option T) (events : A → List E)
    (outs : T → A → List O) (M : Machine S E O) (R : T → S → Prop) : Prop where
  keeps : ∀ {t s a t'}, R t s → step t a = some t' → R t' (M.after s (events a))
  outputs : ∀ {t s a t'}, R t s → step t a = some t' → outs t a = M.outputs s (events a)

theorem Simulates.run {A : Type} {step : T → A → Option T} {events : A → List E}
    {outs : T → A → List O} {R : T → S → Prop} (hs : Simulates step events outs M R) {t t' : T}
    {as : List A} (hr : R t s) (h : Runs.run step as t = some t') :
    R t' (M.after s (as.flatMap events)) ∧
      collect step outs as t = M.outputs s (as.flatMap events) := by
  induction as generalizing t s with
  | nil =>
    obtain rfl := Option.some.inj h
    exact ⟨hr, rfl⟩
  | cons a as ih =>
    obtain ⟨u, hu, ht⟩ := run_cons.mp h
    obtain ⟨hlast, hcollect⟩ := ih (hs.keeps hr hu) ht
    rw [List.flatMap_cons, after_append, outputs_append]
    refine ⟨hlast, ?_⟩
    rw [collect, hs.outputs hr hu, hu, Option.map_some, Option.getD_some, hcollect]

end Machine
