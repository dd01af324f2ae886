import Seco.ViewLayer.RoutesPresenter

namespace Seco

open RoutesPresenter Runs

def Truthful (s : Requests) : Prop := s.view.hud = true ↔ s.outstanding ≠ []

def OnlyOutstanding (s : Requests) : Event → Requests → Prop
  | .issue _, _ => True
  | .deliver number _, _ => ∀ r ∈ s.outstanding, r.1 = number

variable {s t : Requests}

theorem truthful_issue (request : Request) (s : Requests) : Truthful (issue request s) := by
  simp [Truthful, issue, RoutesVC.presentActivityIndicator]

theorem truthful_delivered_iff {number : Nat} {response : Response}
    (h : step s (.deliver number response) = some t) :
    Truthful t ↔ ∀ r ∈ s.outstanding, r.1 = number := by
  obtain ⟨request, f, _, hf, rfl⟩ := step_deliver h
  -- `dismiss` hides the indicator whatever is still outstanding
  simp [Truthful, delivered, block_hud hf, List.filter_eq_nil_iff]

theorem truthful_step_iff {e : Event} (h : step s e = some t) :
    Truthful t ↔ OnlyOutstanding s e t := by
  cases e with
  | issue request =>
    obtain rfl : issue request s = t := Option.some.inj h
    exact iff_true_intro (truthful_issue request s)
  | deliver number response => exact truthful_delivered_iff h

theorem truthful_init : Truthful {} := by simp [Truthful]

theorem indicator_truthful_iff (es : List Event) :
    Always step Truthful es {} ↔ EachStep step OnlyOutstanding es {} := by
  have h : EachStep step (fun _ _ t => Truthful t) es {} ↔ EachStep step OnlyOutstanding es {} :=
    eachStep_iff (I := fun _ => True) (fun _ _ _ _ _ _ => trivial)
      (fun _ _ _ _ ht => truthful_step_iff ht) trivial
  exact ⟨fun ha => h.mp ha.2, fun ho => ⟨truthful_init, h.mpr ho⟩⟩

theorem overlapping_requests_not_truthful :
    ¬ Always step Truthful
      [.issue .fetchRoutes, .issue (.fetchIssue "C-243"), .deliver 1 (.issue none)] {} := by
  intro ⟨_, h⟩
  obtain ⟨_, h⟩ := h _ rfl
  obtain ⟨_, h⟩ := h _ rfl
  obtain ⟨ht, _⟩ := h _ rfl
  exact absurd (ht.mpr (by decide)) (by decide)

end Seco
