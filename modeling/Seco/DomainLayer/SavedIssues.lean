import Seco.DomainLayer.Dismissal

namespace Seco

open Program Runs MainFlowCoordinator

def replay (issues : List Issue) (m : IssueMap) : IssueMap :=
  issues.foldl (fun m issue => m.insert issue.route issue) m

theorem replay_append (earlier later : List Issue) (m : IssueMap) :
    replay (earlier ++ later) m = replay later (replay earlier m) := List.foldl_append

section Saves

variable (count : String → Nat)

def saves (s : MainFlowCoordinator) : UserEvent → List Issue
  | .ok =>
    match s.viewControllers with
    | .formVC form :: _ =>
      if FormView.isFormProperlyFilled count form.issueUI then [Issue.initIssueUI form.issueUI]
      else []
    | _ => []
  | _ => []

end Saves

variable {count : String → Nat} {c : Call} {s t u : MainFlowCoordinator} {m : IssueMap}
  {es : List UserEvent} {e : UserEvent}

theorem refines_of_file (hr : Refines c s.world m) (hi : Idle c t.world)
    (hf : t.world.file = s.world.file) : Refines c t.world m :=
  ⟨hi, hf ▸ hr.represents⟩

theorem step_ok_cases (hi : Idle c s.world) (hc : c.commits = true)
    (h : step count c s .ok = some t) :
    (saves count s .ok = [] ∧ t.world = s.world) ∨
    ∃ id issue, saves count s .ok = [issue] ∧ t.world = s.world.saved id issue := by
  obtain ⟨id, hw⟩ := hi
  simp only [step] at h
  split at h
  next form below hv =>
    cases hf : FormView.isFormProperlyFilled count form.issueUI with
    | false =>
      rw [(action_rejects hf : _ = _)] at h
      obtain rfl := Option.some.inj h
      exact .inl ⟨by simp [saves, hv, hf], rfl⟩
    | true =>
      rw [(action_run hw hc hf : _ = _)] at h
      obtain rfl := Option.some.inj h
      exact .inr ⟨form.id, Issue.initIssueUI form.issueUI, by simp [saves, hv, hf], rfl⟩
  next => cases h

theorem saves_of_ne_ok (he : e ≠ .ok) : saves count s e = [] := by
  cases e <;> first | rfl | exact absurd rfl he

theorem step_unsaved (hc : c.commits = true) (hs : Consistent c s) (hn : saves count s e = [])
    (h : step count c s e = some t) : t.world.file = s.world.file ∧
      t.world.applicationIconBadgeNumber = s.world.applicationIconBadgeNumber := by
  cases e with
  | accessoryTap route =>
    obtain rfl := step_accessoryTap hs.idle h
    exact ⟨rfl, rfl⟩
  | edit issueUI =>
    obtain ⟨form, below, hv, rfl⟩ := step_edit h
    exact ⟨rfl, rfl⟩
  | ok =>
    rcases step_ok_cases hs.idle hc h with ⟨-, hw⟩ | ⟨id, issue, hi, -⟩
    · rw [hw]
      exact ⟨rfl, rfl⟩
    · rw [hn] at hi
      cases hi
  | back =>
    obtain ⟨form, below, hv, rfl⟩ := step_back h
    exact ⟨rfl, rfl⟩
  | runBlock now =>
    obtain ⟨block, queue, hq, rfl⟩ := step_runBlock h
    cases block with
    | fetchedIssue route issue =>
      rw [runBlock_fetchedIssue hs.published]
      exact ⟨rfl, rfl⟩
    | dismiss form => exact ⟨rfl, rfl⟩

theorem step_refines (hc : c.commits = true) (hs : Consistent c s) (hr : Refines c s.world m)
    (h : step count c s e = some t) : Refines c t.world (replay (saves count s e) m) := by
  have hi : Idle c t.world := (consistent_step hc hs h).idle
  rcases eq_or_ne e .ok with rfl | he
  · rcases step_ok_cases hs.idle hc h with ⟨hn, hw⟩ | ⟨id, issue, hn, hw⟩
    · rw [hn]
      exact refines_of_file hr hi (congrArg World.file hw)
    · rw [hn]
      refine ⟨hi, ?_⟩
      rw [hw]
      exact hr.represents.upsert IssueDB.route overwrites (IssueDB.initIssue issue)
  · have hn : saves count s e = [] := saves_of_ne_ok he
    rw [hn]
    exact refines_of_file hr hi (step_unsaved hc hs hn h).1

theorem step_badge (hc : c.commits = true) (hs : Consistent c s)
    (h : step count c s e = some t) :
    t.world.applicationIconBadgeNumber =
      if saves count s e = [] then s.world.applicationIconBadgeNumber else t.world.file.length := by
  rcases eq_or_ne (saves count s e) [] with hn | hn
  · rw [if_pos hn]
    exact (step_unsaved hc hs hn h).2
  · have he : e = .ok := by_contra fun he => hn (saves_of_ne_ok he)
    subst he
    rcases step_ok_cases hs.idle hc h with ⟨hn', -⟩ | ⟨id, issue, -, hw⟩
    · exact absurd hn' hn
    · rw [if_neg hn, hw]
      rfl

end Seco
