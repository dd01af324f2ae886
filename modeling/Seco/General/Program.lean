import Mathlib.Tactic.Common

abbrev Program (S E α : Type) := StateT S (Except E) α

namespace Program

variable {S E α β : Type}

@[simp] theorem ok_bind (a : α) (f : α → Except E β) : (Except.ok a >>= f) = f a := rfl

@[simp] theorem error_bind (e : E) (f : α → Except E β) :
    ((Except.error e : Except E α) >>= f) = .error e := rfl

@[simp] theorem pure_eq_ok (a : α) : (pure a : Except E α) = .ok a := rfl

@[simp] theorem map_ok (f : α → β) (a : α) : f <$> (Except.ok a : Except E α) = .ok (f a) := rfl

@[simp] theorem map_error (f : α → β) (e : E) :
    f <$> (Except.error e : Except E α) = .error e := rfl

@[simp] theorem throw_eq_error (e : E) : (throw e : Except E α) = .error e := rfl

abbrev Returns (p : Program S E α) (s : S) (a : α) (t : S) : Prop := p.run s = .ok (a, t)

abbrev Raises (p : Program S E α) (s : S) (e : E) : Prop := p.run s = .error e

theorem returns_bind_iff {p : Program S E α} {f : α → Program S E β} {s u : S} {b : β} :
    Returns (p >>= f) s b u ↔ ∃ a t, Returns p s a t ∧ Returns (f a) t b u := by
  simp only [Returns, StateT.run_bind]
  cases p.run s with
  | error e => simp
  | ok r => obtain ⟨a, t⟩ := r; simp

theorem raises_bind_iff {p : Program S E α} {f : α → Program S E β} {s : S} {e : E} :
    Raises (p >>= f) s e ↔ Raises p s e ∨ ∃ a t, Returns p s a t ∧ Raises (f a) t e := by
  simp only [Raises, Returns, StateT.run_bind]
  cases p.run s with
  | error e => simp
  | ok r => obtain ⟨a, t⟩ := r; simp

theorem returns_unique {p : Program S E α} {s t u : S} {a b : α} (ht : Returns p s a t)
    (hu : Returns p s b u) : a = b ∧ t = u :=
  Prod.mk.inj (Except.ok.inj (ht.symm.trans hu))

def Triple (P : S → Prop) (p : Program S E α) (Q : α → S → Prop) (X : E → Prop) : Prop :=
  ∀ s, P s → (∀ a t, Returns p s a t → Q a t) ∧ ∀ e, Raises p s e → X e

section Triple

variable {P P' : S → Prop} {Q Q' : α → S → Prop} {R : β → S → Prop} {X : E → Prop}

theorem triple_of_run {p : Program S E α}
    (h : ∀ s, P s → (∃ a t, Returns p s a t ∧ Q a t) ∨ ∃ e, Raises p s e ∧ X e) :
    Triple P p Q X := by
  intro s hs
  rcases h s hs with ⟨a, t, ht, hq⟩ | ⟨e, he, hx⟩
  · refine ⟨fun b u hu => ?_, fun e he => absurd (ht.symm.trans he) (by simp)⟩
    obtain ⟨rfl, rfl⟩ := returns_unique ht hu
    exact hq
  · refine ⟨fun b u hu => absurd (he.symm.trans hu) (by simp), fun e' he' => ?_⟩
    have hee : e = e' := Except.error.inj (he.symm.trans he')
    exact hee ▸ hx

theorem triple_pure {a : α} (h : ∀ s, P s → Q a s) : Triple P (pure a : Program S E α) Q X := by
  exact triple_of_run fun s hs => .inl ⟨a, s, rfl, h s hs⟩

theorem triple_bind {p : Program S E α} {f : α → Program S E β} (hp : Triple P p Q X)
    (hf : ∀ a, Triple (Q a) (f a) R X) : Triple P (p >>= f) R X := by
  intro s hs
  constructor
  · intro b u hr
    obtain ⟨a, t, ha, hb⟩ := returns_bind_iff.mp hr
    exact (hf a t ((hp s hs).1 a t ha)).1 b u hb
  · intro e he
    rcases raises_bind_iff.mp he with he | ⟨a, t, ha, hb⟩
    · exact (hp s hs).2 e he
    · exact (hf a t ((hp s hs).1 a t ha)).2 e hb

theorem triple_conseq {p : Program S E α} (hp : Triple P p Q X) (hP : ∀ s, P' s → P s)
    (hQ : ∀ a s, Q a s → Q' a s) : Triple P' p Q' X := by
  intro s hs
  obtain ⟨hr, he⟩ := hp s (hP s hs)
  exact ⟨fun a t h => hQ a t (hr a t h), he⟩

end Triple

end Program
