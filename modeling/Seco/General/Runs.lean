import Mathlib.Tactic.Common

namespace Runs

variable {S E : Type} (step : S → E → Option S)

def run : List E → S → Option S
  | [], s => some s
  | e :: es, s => (step s e).bind (run es)

def EachStep (P : S → E → S → Prop) : List E → S → Prop
  | [], _ => True
  | e :: es, s => ∀ t, step s e = some t → P s e t ∧ EachStep P es t

def Always (Q : S → Prop) (es : List E) (s : S) : Prop :=
  Q s ∧ EachStep step (fun _ _ t => Q t) es s

def collect {O : Type} (out : S → E → List O) : List E → S → List O
  | [], _ => []
  | e :: es, s => out s e ++ ((step s e).map (collect out es)).getD []

variable {step} {I : S → Prop} {P Q : S → E → S → Prop} {es : List E} {s t : S}

theorem run_cons {e : E} :
    run step (e :: es) s = some t ↔ ∃ u, step s e = some u ∧ run step es u = some t := by
  simp [run, Option.bind_eq_some_iff]

theorem run_append {es fs : List E} :
    run step (es ++ fs) s = some t ↔ ∃ u, run step es s = some u ∧ run step fs u = some t := by
  induction es generalizing s with
  | nil => simp [run]
  | cons e es ih =>
    simp only [List.cons_append, run_cons, ih]
    constructor
    · rintro ⟨v, hv, u, hu, ht⟩
      exact ⟨u, ⟨v, hv, hu⟩, ht⟩
    · rintro ⟨u, ⟨v, hv, hu⟩, ht⟩
      exact ⟨v, hv, u, hu, ht⟩

theorem run_concat {e : E} :
    run step (es ++ [e]) s = some t ↔ ∃ u, run step es s = some u ∧ step u e = some t := by
  simp [run_append, run]

theorem run_invariant (hI : ∀ s e t, I s → step s e = some t → I t) (hs : I s)
    (h : run step es s = some t) : I t := by
  induction es generalizing s with
  | nil => exact Option.some.inj h ▸ hs
  | cons e es ih =>
    obtain ⟨u, hu, ht⟩ := run_cons.mp h
    exact ih (hI s e u hs hu) ht

theorem eachStep_iff_pre : EachStep step P es s ↔
    ∀ pre e post u t, es = pre ++ e :: post → run step pre s = some u → step u e = some t →
      P u e t := by
  induction es generalizing s with
  | nil => simp [EachStep]
  | cons a es ih =>
    constructor
    · intro h pre e post u t he hu ht
      cases pre with
      | nil =>
        obtain ⟨rfl, rfl⟩ := List.cons.inj he
        obtain rfl := Option.some.inj hu
        exact (h t ht).1
      | cons b pre =>
        obtain ⟨rfl, rfl⟩ := List.cons.inj he
        obtain ⟨v, hv, hu⟩ := run_cons.mp hu
        exact ih.mp (h v hv).2 pre e post u t rfl hu ht
    · intro h v hv
      refine ⟨h [] a es s v rfl rfl hv, ih.mpr fun pre e post u t he hu ht => ?_⟩
      exact h (a :: pre) e post u t (by rw [he, List.cons_append]) (run_cons.mpr ⟨v, hv, hu⟩) ht

theorem eachStep_concat {e : E} (h : run step es s = some t) :
    EachStep step P (es ++ [e]) s ↔ EachStep step P es s ∧ ∀ u, step t e = some u → P t e u := by
  induction es generalizing s with
  | nil =>
    obtain rfl := Option.some.inj h
    simp [EachStep]
  | cons a es ih =>
    obtain ⟨v, hv, ht⟩ := run_cons.mp h
    simp only [List.cons_append, EachStep, hv, Option.some.injEq, forall_eq', ih ht, and_assoc]

theorem eachStep_iff (hI : ∀ s e t, I s → step s e = some t → P s e t → I t)
    (h : ∀ s e t, I s → step s e = some t → (P s e t ↔ Q s e t)) (hs : I s) :
    EachStep step P es s ↔ EachStep step Q es s := by
  induction es generalizing s with
  | nil => exact Iff.rfl
  | cons e es ih =>
    refine forall_congr' fun t => forall_congr' fun ht => ?_
    rw [h s e t hs ht]
    refine and_congr_right fun hq => ih (hI s e t hs ht ?_)
    exact (h s e t hs ht).mpr hq

theorem eachStep_of_invariant (h : ∀ s e t, I s → step s e = some t → Q s e t ∧ I t)
    (hs : I s) : EachStep step Q es s := by
  induction es generalizing s with
  | nil => trivial
  | cons e es ih => exact fun t ht => ⟨(h s e t hs ht).1, ih (h s e t hs ht).2⟩

theorem EachStep.always (h : EachStep step P es s)
    (hI : ∀ s e t, I s → step s e = some t → P s e t → I t) (hs : I s) : Always step I es s := by
  refine ⟨hs, ?_⟩
  induction es generalizing s with
  | nil => trivial
  | cons e es ih =>
    intro t ht
    have hi : I t := hI s e t hs ht (h t ht).1
    exact ⟨hi, ih (h t ht).2 hi⟩

theorem EachStep.mono (h : EachStep step P es s) (hPQ : ∀ s e t, P s e t → Q s e t) :
    EachStep step Q es s := by
  induction es generalizing s with
  | nil => trivial
  | cons e es ih => exact fun t ht => ⟨hPQ _ _ _ (h t ht).1, ih (h t ht).2⟩

theorem collect_append {O : Type} {out : S → E → List O} (h : run step es s = some t)
    (fs : List E) :
    collect step out (es ++ fs) s = collect step out es s ++ collect step out fs t := by
  induction es generalizing s with
  | nil =>
    obtain rfl := Option.some.inj h
    rfl
  | cons e es ih =>
    obtain ⟨u, hu, ht⟩ := run_cons.mp h
    simp only [List.cons_append, collect, hu, Option.map_some, Option.getD_some, ih ht,
      List.append_assoc]

theorem collect_concat {O : Type} {out : S → E → List O} (h : run step es s = some t) (e : E) :
    collect step out (es ++ [e]) s = collect step out es s ++ out t e := by
  rw [collect_append h, collect]
  cases step t e <;> simp [collect]

end Runs
