import Seco.DataLayer.Operations

namespace Seco

open Program Op

variable {σ : Type} {c : Call} {id : Nat} {w : World σ}

def Call.failing (c : Call) : Call := { c with commits := false }

def Call.committing (c : Call) : Call := { c with commits := true }

theorem Held.failing {tx : Option (List IssueDB)} (h : Held c id tx w) :
    Held c.failing id tx w := ⟨h.thread, h.realm⟩

theorem Held.committing {tx : Option (List IssueDB)} (h : Held c.failing id tx w) :
    Held c.committing id tx w := ⟨h.thread, h.realm⟩

def results (c : Call) (ops : List Op) (w : World σ) : Except Raise (List Answer) :=
  ((performAll c ops).run w).map Prod.fst

structure Undisturbed (c : Call) (w v : World σ) : Prop where
  getIssue : ∀ route, results c [.getIssue route] v = results c [.getIssue route] w
  getIssues : results c [.getIssues] v = results c [.getIssues] w
  later : ∀ ops, results c ops v = results c ops w

theorem create_fails (h : Held c id none w) (hc : c.commits = false) {issueDB : IssueDB}
    {onComplete : List Op} (hr : onComplete.all reads = true) :
    Returns (perform c (.create issueDB onComplete)) w .done
      (w.writing c id (put issueDB w.file)) := by
  have hk := handler_run (h.writing (put issueDB w.file)) hr
  refine returns_bind_iff.mpr ⟨(), _, ?_, rfl⟩
  cases hl : KeyedRows.lookup IssueDB.route issueDB.route w.file with
  | none => exact create_new_fails h hc hl hk
  | some row => exact (create_stored_fails h hc hl hk).trans hk

theorem write_fails (h : Held c id none w) (hc : c.commits = false) {op : Op}
    (hw : op.reads = false) (hr : op.handlerReads = true) :
    Returns (op.perform c) w .done (w.writing c id (op.effect w.file)) := by
  cases op with
  | create issueDB onComplete => exact create_fails h hc hr
  | reset =>
    have hs : Returns (DBManager.reset c) w () (w.writing c id []) := by
      simp [Returns, reset_run h, hc]
    exact returns_bind_iff.mpr ⟨(), _, hs, rfl⟩
  | getIssue route => simp [reads] at hw
  | getIssues => simp [reads] at hw

theorem after_failed_write (h : Held c id none w) {op : Op} (hw : op.reads = false)
    (hr : op.handlerReads = true) :
    ∃ v, Returns (op.perform c.failing) w .done v ∧
      results c.committing [.getIssues] v = .ok [.issues (op.effect w.file)] ∧
      ∀ op' : Op, op'.reads = false →
        Raises (op'.perform c.committing) v .alreadyInTransaction := by
  have hv : Held c.committing id (some (op.effect w.file))
      (w.writing c.failing id (op.effect w.file)) := (h.failing.writing _).committing
  refine ⟨_, write_fails h.failing rfl hw hr, ?_, fun op' hw' => writes_nested hv hw'⟩
  simp [results, performAll, perform, getIssues_run hv, Except.map]

theorem not_undisturbed {v : World σ} {rows : List IssueDB} (h : Held c id none w)
    (hv : Held c id (some rows) v) : ¬ Undisturbed c.committing w v := by
  intro hu
  have hx := hu.later [.create {} []]
  have hc : Raises (performAll c.committing [.create {} []]) v .alreadyInTransaction :=
    performAll_cons_raises (writes_nested hv.failing.committing rfl)
  obtain ⟨answers, ho⟩ : ∃ answers, Returns (performAll c.committing [.create {} []]) w answers
      { w with file := effects [.create {} []] w.file } :=
    performAll_run rfl h.failing.committing rfl
  rw [results, results, hc, ho] at hx
  cases hx

theorem failed_write_never_undisturbed {tx : Option (List IssueDB)} {v : World σ} {op : Op}
    {answer : Answer} (h : Held c id tx w) (hw : op.reads = false)
    (hv : Returns (op.perform c.failing) w answer v) : ¬ Undisturbed c.committing w v := by
  cases tx with
  | some rows => exact absurd ((writes_nested h.failing hw).symm.trans hv) (by simp)
  | none =>
    cases hr : op.handlerReads with
    | false => exact absurd ((perform_nested h.failing hr).symm.trans hv) (by simp)
    | true =>
      obtain ⟨-, rfl⟩ := returns_unique (write_fails h.failing rfl hw hr) hv
      exact not_undisturbed h (h.writing _)

theorem failed_reset_never_undisturbed :
    let c : Call := ⟨0, true, true⟩
    let w := DBManager.init c [{ route := "1" }] 0 ()
    ∃ v, Returns (perform c.failing .reset) w .done v ∧ ¬ Undisturbed c.committing w v := by
  intro c w
  have hv : Returns (perform c.failing .reset) w .done (w.writing c 0 []) := rfl
  exact ⟨_, hv, failed_write_never_undisturbed (held_init c rfl _ _ _) rfl hv⟩

theorem failed_create_visible :
    ∃ v, Returns (perform ⟨0, true, false⟩ (.create { route := "1" } []))
        (DBManager.init ⟨0, true, true⟩ [] 0 ()) .done v ∧
      ¬ Undisturbed ⟨0, true, true⟩ (DBManager.init ⟨0, true, true⟩ [] 0 ()) v := by
  refine ⟨_, rfl, fun h => ?_⟩
  exact absurd h.getIssues (by decide)

end Seco
