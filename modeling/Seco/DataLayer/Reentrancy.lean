import Seco.DataLayer.Operations

namespace Seco

open Program Op

variable {σ : Type} {c : Call} {w : World σ}

theorem effects_reads {ops : List Op} (h : ops.all reads = true) (rows : List IssueDB) :
    effects ops rows = rows := by
  induction ops generalizing rows with
  | nil => rfl
  | cons op ops ih =>
    simp only [List.all_cons, Bool.and_eq_true] at h
    cases op with
    | getIssue route => exact ih h.2 rows
    | getIssues => exact ih h.2 rows
    | create issueDB onComplete => simp [reads] at h
    | reset => simp [reads] at h

theorem handlerReads_of_reads {op : Op} (h : op.reads = true) : op.handlerReads = true := by
  cases op <;> simp_all [reads, handlerReads]

theorem effects_started {op : Op} (h : op.handlerReads = true) (rows : List IssueDB) :
    effects (started op) rows = op.effect rows := by
  cases op with
  | create issueDB onComplete =>
    rw [started, startedAll_reads h]
    exact effects_reads h (put issueDB rows)
  | getIssue route => rfl
  | getIssues => rfl
  | reset => rfl

theorem effects_startedAll {ops : List Op} (h : ops.all handlerReads = true)
    (rows : List IssueDB) : effects (startedAll ops) rows = effects ops rows := by
  induction ops generalizing rows with
  | nil => rfl
  | cons op ops ih =>
    simp only [List.all_cons, Bool.and_eq_true] at h
    calc effects (started op ++ startedAll ops) rows
        = effects (startedAll ops) (effects (started op) rows) := List.foldl_append
      _ = effects ops (op.effect rows) := by rw [effects_started h.1, ih h.2]

theorem started_handlerReads {op : Op} (h : op.handlerReads = true) :
    (started op).all handlerReads = true := by
  cases op with
  | create issueDB onComplete =>
    rw [started, startedAll_reads h, List.all_cons, Bool.and_eq_true]
    refine ⟨rfl, List.all_eq_true.mpr fun op hop => handlerReads_of_reads ?_⟩
    exact List.all_eq_true.mp h op hop
  | getIssue route => rfl
  | getIssues => rfl
  | reset => rfl

theorem startedAll_handlerReads {ops : List Op} (h : ops.all handlerReads = true) :
    (startedAll ops).all handlerReads = true := by
  induction ops with
  | nil => rfl
  | cons op ops ih =>
    simp only [List.all_cons, Bool.and_eq_true] at h
    rw [startedAll, List.all_append, started_handlerReads h.1, ih h.2]
    rfl

def RunsInStartOrder (c : Call) (ops : List Op) (w : World σ) : Prop :=
  ¬ Raises (performAll c ops) w .alreadyInTransaction ∧
    ∃ answers v answers' v', Returns (performAll c ops) w answers v ∧
      Returns (performAll c (startedAll ops)) w answers' v' ∧ v.file = v'.file

theorem runsInStartOrder_iff (hc : c.commits = true) (hw : Idle c w) (ops : List Op) :
    RunsInStartOrder c ops w ↔ ops.all handlerReads = true := by
  obtain ⟨id, h⟩ := hw
  constructor
  · intro ⟨hn, _⟩
    by_contra hr
    exact hn (performAll_nested hc h (by simpa using hr))
  · intro hr
    obtain ⟨answers, hv⟩ := performAll_run hc h hr
    obtain ⟨answers', hv'⟩ := performAll_run hc h (startedAll_handlerReads hr)
    refine ⟨?_, answers, _, answers', _, hv, hv', (effects_startedAll hr w.file).symm⟩
    intro he
    exact absurd (hv.symm.trans he) (by simp)

theorem runsInStartOrder_reading_handler :
    RunsInStartOrder ⟨0, true, true⟩
      [.create { route := "1" } [.getIssue "1", .getIssues]]
      (DBManager.init ⟨0, true, true⟩ [] 0 ()) :=
  (runsInStartOrder_iff rfl (idle_init _ rfl _ _ _) _).mpr rfl

theorem nested_create_raises :
    ¬ RunsInStartOrder ⟨0, true, true⟩
      [.create { route := "1" } [.create { route := "2" } []]]
      (DBManager.init ⟨0, true, true⟩ [] 0 ()) := fun h => h.1 rfl

end Seco
