import Seco.ViewLayer.FormView

namespace Seco

open Program

section Reopens

variable (count : String → Nat) (c : Call)

def saveAll : List (Nat × IssueUI) → App Main Unit
  | [] => pure ()
  | (form, issueUI) :: forms => do
    let _isWrongFilled ← FormView.action count c form issueUI
    saveAll forms

def Reopens (form : Nat) (issueUI : IssueUI) (others : List (Nat × IssueUI)) (now : Date)
    (w : World Main) : Prop :=
  ∃ w₁ w₂ w₃ issue presented,
    Returns (FormView.action count c form issueUI) w false w₁ ∧
    Returns (saveAll count c others) w₁ () w₂ ∧
    Returns (RoutesPresenter.fetchIssue c issueUI.route) w₂ () w₃ ∧
    w₃.client.queue = w₂.client.queue ++ [.fetchedIssue issueUI.route issue] ∧
    (RoutesPresenter.fetchedIssue issueUI.route issue w₃.client.view).onGetIssueInternalPublisher =
      w₃.client.view.onGetIssueInternalPublisher ++ [presented] ∧
    IssueUI.initIssue now presented = issueUI

end Reopens

variable {count : String → Nat} {c : Call} {id : Nat} {w : World Main} {issueUI : IssueUI}
  {others : List (Nat × IssueUI)}

theorem Held.saved (h : Held c id none w) (form : Nat) (issue : Issue) :
    Held c id none (w.saved form issue) := h.stored _ _ _

theorem stored_saved (form : Nat) (issue : Issue) (route : String) :
    stored (w.saved form issue).file route =
      if route = issue.route then some issue else stored w.file route :=
  stored_put issue w.file route

variable (count) in
theorem saveAll_run (hc : c.commits = true) (h : Held c id none w) (route : String)
    (ho : ∀ other ∈ others, other.2.route ≠ route) :
    ∃ v, Returns (saveAll count c others) w () v ∧ Held c id none v ∧
      stored v.file route = stored w.file route := by
  induction others generalizing w with
  | nil => exact ⟨w, rfl, h, rfl⟩
  | cons other others ih =>
    obtain ⟨form, other⟩ := other
    have hr : route ≠ other.route := (ho _ List.mem_cons_self).symm
    have hos := fun o hm => ho o (List.mem_cons_of_mem _ hm)
    cases hv : FormView.isFormProperlyFilled count other with
    | false =>
      obtain ⟨v, hs, hh, hl⟩ := ih h hos
      exact ⟨v, returns_bind_iff.mpr ⟨true, w, action_rejects hv, hs⟩, hh, hl⟩
    | true =>
      obtain ⟨v, hs, hh, hl⟩ := ih (h.saved form (Issue.initIssueUI other)) hos
      refine ⟨v, returns_bind_iff.mpr ⟨false, _, action_run h hc hv, hs⟩, hh, ?_⟩
      rw [hl, stored_saved, Issue.initIssueUI_route, if_neg hr]

theorem presented_issue {w₂ w₃ : World Main} {issue : Option Issue} {presented : Issue}
    (h : Held c id none w₂) (hs : stored w₂.file issueUI.route = some (Issue.initIssueUI issueUI))
    (hf : Returns (RoutesPresenter.fetchIssue c issueUI.route) w₂ () w₃)
    (hq : w₃.client.queue = w₂.client.queue ++ [.fetchedIssue issueUI.route issue])
    (hp : (RoutesPresenter.fetchedIssue issueUI.route issue
        w₃.client.view).onGetIssueInternalPublisher =
      w₃.client.view.onGetIssueInternalPublisher ++ [presented]) :
    presented = Issue.initIssueUI issueUI := by
  obtain ⟨-, rfl⟩ := returns_unique (fetchIssue_run h issueUI.route) hf
  have hi : issue = some (Issue.initIssueUI issueUI) := by
    simpa [World.fetching, hs, eq_comm] using hq
  subst hi
  have he := List.append_cancel_left hp
  rw [RoutesPresenter.uwpIssue_some (Issue.initIssueUI_route issueUI)] at he
  exact (List.cons.inj he).1.symm

theorem reopens_iff_presented (hw : Idle c w) (hc : c.commits = true) (form : Nat) (now : Date)
    (hv : FormView.isFormProperlyFilled count issueUI = true)
    (ho : ∀ other ∈ others, other.2.route ≠ issueUI.route) :
    Reopens count c form issueUI others now w ↔
      IssueUI.initIssue now (Issue.initIssueUI issueUI) = issueUI := by
  obtain ⟨id, h⟩ := hw
  have hsave : Returns (FormView.action count c form issueUI) w false _ := action_run h hc hv
  obtain ⟨v, hothers, hh, hl⟩ :=
    saveAll_run count hc (h.saved form (Issue.initIssueUI issueUI)) issueUI.route ho
  have hstored : stored v.file issueUI.route = some (Issue.initIssueUI issueUI) := by
    rw [hl, stored_saved, Issue.initIssueUI_route, if_pos rfl]
  constructor
  · rintro ⟨w₁, w₂, w₃, issue, presented, h₁, h₂, h₃, hq, hp, hi⟩
    obtain ⟨-, rfl⟩ := returns_unique hsave h₁
    obtain ⟨-, rfl⟩ := returns_unique hothers h₂
    rwa [presented_issue hh hstored h₃ hq hp] at hi
  · intro hi
    refine ⟨_, v, _, some (Issue.initIssueUI issueUI), Issue.initIssueUI issueUI, hsave, hothers,
      fetchIssue_run hh issueUI.route, ?_, ?_, hi⟩
    · simp [World.fetching, hstored]
    · simp [RoutesPresenter.fetchedIssue, RoutesVC.onGetIssue, RoutesVC.removeActivityIndicator,
        RoutesPresenter.uwpIssue_some (Issue.initIssueUI_route issueUI)]

theorem reopens_iff (hw : Idle c w) (hc : c.commits = true) (form : Nat) (now : Date)
    (hv : FormView.isFormProperlyFilled count issueUI = true)
    (ho : ∀ other ∈ others, other.2.route ≠ issueUI.route) :
    Reopens count c form issueUI others now w ↔
      0 ≤ issueUI.timestamp.timeIntervalSince1970 ∨ issueUI.timestamp = now :=
  (reopens_iff_presented hw hc form now hv ho).trans (IssueUI.initIssue_initIssueUI_iff now issueUI)

theorem reopens_after_other_save :
    let c : Call := ⟨0, true, true⟩
    let other : IssueUI := { FormView.previews ⟨-5⟩ with route := "C-244" }
    Reopens String.length c 0 (FormView.previews ⟨123⟩) [(1, other)] ⟨1586000000⟩
      (DBManager.init c [{ route := "asdf" }] 1 {}) :=
  (reopens_iff (idle_init _ rfl _ _ _) rfl 0 _ (FormView.isFormProperlyFilled_previews ⟨123⟩)
    (by simp [FormView.previews])).mpr (.inl (by decide))

theorem before_1970_not_reopened :
    let c : Call := ⟨0, true, true⟩
    ¬ Reopens String.length c 0 (FormView.previews ⟨-86400⟩) [] ⟨1586000000⟩
      (DBManager.init c [] 0 {}) := by
  intro c h
  have hi := (reopens_iff_presented (idle_init c rfl [] 0 {}) rfl 0 ⟨1586000000⟩
    (FormView.isFormProperlyFilled_previews ⟨-86400⟩) (by simp)).mp h
  exact absurd (congrArg IssueUI.timestamp hi) (by decide)

end Seco
