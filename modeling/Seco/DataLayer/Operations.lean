import Seco.DataLayer.Create

namespace Seco

open Program

variable {σ : Type}

inductive Op where
  | create (issueDB : IssueDB) (onComplete : List Op)
  | getIssue (route : String)
  | getIssues
  | reset

inductive Answer where
  | done
  | issue (found : Option IssueDB)
  | issues (rows : List IssueDB)
  deriving DecidableEq

namespace Op

mutual

def perform (c : Call) : Op → App σ Answer
  | .create issueDB onComplete => do
    DBManager.create c issueDB (do
      let _ ← performAll c onComplete
      pure ())
    pure .done
  | .getIssue route => do
    let found ← DBManager.getIssue c route
    pure (.issue (found.map ManagedIssueDB.issueDB))
  | .getIssues => do
    let rows ← DBManager.getIssues c
    pure (.issues rows)
  | .reset => do
    DBManager.reset c
    pure .done

def performAll (c : Call) : List Op → App σ (List Answer)
  | [] => pure []
  | op :: ops => do
    let answer ← perform c op
    let answers ← performAll c ops
    pure (answer :: answers)

end

mutual

def started : Op → List Op
  | .create issueDB onComplete => .create issueDB [] :: startedAll onComplete
  | .getIssue route => [.getIssue route]
  | .getIssues => [.getIssues]
  | .reset => [.reset]

def startedAll : List Op → List Op
  | [] => []
  | op :: ops => started op ++ startedAll ops

end

def reads : Op → Bool
  | .getIssue _ | .getIssues => true
  | .create _ _ | .reset => false

def handlerReads : Op → Bool
  | .create _ onComplete => onComplete.all reads
  | .getIssue _ | .getIssues | .reset => true

def effect : Op → List IssueDB → List IssueDB
  | .create issueDB _, rows => put issueDB rows
  | .getIssue _, rows | .getIssues, rows => rows
  | .reset, _ => []

def effects (ops : List Op) (rows : List IssueDB) : List IssueDB :=
  ops.foldl (fun rows op => op.effect rows) rows

theorem startedAll_reads {ops : List Op} (h : ops.all reads = true) : startedAll ops = ops := by
  induction ops with
  | nil => rfl
  | cons op ops ih =>
    simp only [List.all_cons, Bool.and_eq_true] at h
    cases op <;> simp_all [startedAll, started, reads]

end Op

open Op

variable {c : Call} {id : Nat} {tx : Option (List IssueDB)} {w : World σ}

theorem reads_run (h : Held c id tx w) {op : Op} (hr : op.reads = true) :
    ∃ answer, Returns (op.perform c) w answer w := by
  cases op with
  | getIssue route =>
    exact ⟨_, returns_bind_iff.mpr ⟨_, w, getIssue_run h route, rfl⟩⟩
  | getIssues =>
    exact ⟨_, returns_bind_iff.mpr ⟨_, w, getIssues_run h, rfl⟩⟩
  | create issueDB onComplete => simp [reads] at hr
  | reset => simp [reads] at hr

theorem writes_nested {rows : List IssueDB} (h : Held c id (some rows) w) {op : Op}
    (hr : op.reads = false) : Raises (op.perform c) w .alreadyInTransaction := by
  cases op with
  | getIssue route => simp [reads] at hr
  | getIssues => simp [reads] at hr
  | create issueDB onComplete => exact raises_bind_iff.mpr (.inl (create_nested h))
  | reset => exact raises_bind_iff.mpr (.inl (reset_nested h))

theorem performAll_cons_run {op : Op} {ops : List Op} {answer : Answer} {answers : List Answer}
    {u v : World σ} (ho : Returns (op.perform c) w answer u)
    (hs : Returns (performAll c ops) u answers v) :
    Returns (performAll c (op :: ops)) w (answer :: answers) v :=
  returns_bind_iff.mpr ⟨answer, u, ho, returns_bind_iff.mpr ⟨answers, v, hs, rfl⟩⟩

theorem performAll_cons_raises {op : Op} {ops : List Op} {e : Raise}
    (ho : Raises (op.perform c) w e) : Raises (performAll c (op :: ops)) w e :=
  raises_bind_iff.mpr (.inl ho)

theorem performAll_cons_raises_later {op : Op} {ops : List Op} {answer : Answer} {u : World σ}
    {e : Raise} (ho : Returns (op.perform c) w answer u) (hs : Raises (performAll c ops) u e) :
    Raises (performAll c (op :: ops)) w e :=
  raises_bind_iff.mpr (.inr ⟨answer, u, ho, raises_bind_iff.mpr (.inl hs)⟩)

theorem readsAll_run (h : Held c id tx w) {ops : List Op} (hr : ops.all reads = true) :
    ∃ answers, Returns (performAll c ops) w answers w := by
  induction ops with
  | nil => exact ⟨[], rfl⟩
  | cons op ops ih =>
    simp only [List.all_cons, Bool.and_eq_true] at hr
    obtain ⟨answer, ha⟩ := reads_run h hr.1
    obtain ⟨answers, hs⟩ := ih hr.2
    exact ⟨_, performAll_cons_run ha hs⟩

theorem writesAll_nested {rows : List IssueDB} (h : Held c id (some rows) w) {ops : List Op}
    (hr : ops.all reads = false) : Raises (performAll c ops) w .alreadyInTransaction := by
  induction ops with
  | nil => simp at hr
  | cons op ops ih =>
    cases ho : op.reads with
    | false => exact performAll_cons_raises (writes_nested h ho)
    | true =>
      obtain ⟨answer, ha⟩ := reads_run h ho
      exact performAll_cons_raises_later ha (ih (by simpa [ho] using hr))

theorem handler_run (h : Held c id tx w) {onComplete : List Op}
    (hr : onComplete.all reads = true) :
    (do let _ ← performAll c onComplete; pure () : App σ Unit).run w =
      .ok ((), w.notified w.applicationIconBadgeNumber w.client) := by
  obtain ⟨answers, ha⟩ := readsAll_run h hr
  exact returns_bind_iff.mpr ⟨answers, w, ha, rfl⟩

theorem perform_run (hc : c.commits = true) (h : Held c id none w) {op : Op}
    (hr : op.handlerReads = true) :
    ∃ answer, Returns (op.perform c) w answer { w with file := op.effect w.file } := by
  cases op with
  | create issueDB onComplete =>
    have hk := handler_run (h.writing (put issueDB w.file)) hr
    refine ⟨.done, ?_⟩
    exact returns_bind_iff.mpr ⟨(), _, create_commits h hc hk, rfl⟩
  | getIssue route => exact reads_run h rfl
  | getIssues => exact reads_run h rfl
  | reset =>
    have hs : Returns (DBManager.reset c) w () { w with file := [] } := by
      simp [Returns, reset_run h, hc]
    exact ⟨.done, returns_bind_iff.mpr ⟨(), _, hs, rfl⟩⟩

theorem perform_nested (h : Held c id none w) {op : Op} (hr : op.handlerReads = false) :
    Raises (op.perform c) w .alreadyInTransaction := by
  cases op with
  | create issueDB onComplete =>
    have hs := writesAll_nested (h.writing (put issueDB w.file)) hr
    have hk : (do let _ ← performAll c onComplete; pure () : App σ Unit).run
        (w.writing c id (put issueDB w.file)) = .error .alreadyInTransaction :=
      raises_bind_iff.mpr (.inl hs)
    exact raises_bind_iff.mpr (.inl (create_raises h hk))
  | getIssue route => simp [handlerReads] at hr
  | getIssues => simp [handlerReads] at hr
  | reset => simp [handlerReads] at hr

theorem Held.effect (h : Held c id tx w) (rows : List IssueDB) :
    Held c id tx { w with file := rows } := ⟨h.thread, h.realm⟩

theorem performAll_run (hc : c.commits = true) (h : Held c id none w) {ops : List Op}
    (hr : ops.all handlerReads = true) :
    ∃ answers, Returns (performAll c ops) w answers { w with file := effects ops w.file } := by
  induction ops generalizing w with
  | nil => exact ⟨[], rfl⟩
  | cons op ops ih =>
    simp only [List.all_cons, Bool.and_eq_true] at hr
    obtain ⟨answer, ha⟩ := perform_run hc h hr.1
    obtain ⟨answers, hs⟩ := ih (h.effect (op.effect w.file)) hr.2
    exact ⟨_, performAll_cons_run ha hs⟩

theorem performAll_nested (hc : c.commits = true) (h : Held c id none w) {ops : List Op}
    (hr : ops.all handlerReads = false) :
    Raises (performAll c ops) w .alreadyInTransaction := by
  induction ops generalizing w with
  | nil => simp at hr
  | cons op ops ih =>
    cases ho : op.handlerReads with
    | false => exact performAll_cons_raises (perform_nested h ho)
    | true =>
      obtain ⟨answer, ha⟩ := perform_run hc h ho
      exact performAll_cons_raises_later ha (ih (h.effect _) (by simpa [ho] using hr))

end Seco
