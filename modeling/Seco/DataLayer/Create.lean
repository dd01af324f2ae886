import Seco.DataLayer.DBManager

namespace Seco

open DBManager Program

variable {σ : Type} {c : Call} {id : Nat} {tx : Option (List IssueDB)} {w : World σ}

theorem overwrites : KeyedRows.Overwrites IssueDB.route overwrite := by
  intro new old h
  obtain ⟨route, name, surename, email, timestamp, report, phone⟩ := new
  change old.route = route at h
  subst h
  rfl

def put (issueDB : IssueDB) (rows : List IssueDB) : List IssueDB :=
  KeyedRows.upsert IssueDB.route overwrite issueDB rows

def World.stored (w : World σ) (rows : List IssueDB) (badge : Int) (client : σ) : World σ :=
  { w with file := rows, applicationIconBadgeNumber := badge, client := client }

theorem Held.stored (h : Held c id tx w) (rows : List IssueDB) (badge : Int) (client : σ) :
    Held c id tx (w.stored rows badge client) := ⟨h.thread, h.realm⟩

variable {issueDB : IssueDB} {onComplete : App σ Unit} {rows : List IssueDB}

theorem lookup_isEmpty {route : String} {row : IssueDB}
    (h : KeyedRows.lookup IssueDB.route route rows = some row) : rows.isEmpty = false := by
  cases rows with
  | nil => simp at h
  | cons row rows => rfl

theorem create_new (h : Held c id none w)
    (hl : KeyedRows.lookup IssueDB.route issueDB.route w.file = none) :
    (create c issueDB onComplete).run w =
      ((Realm.write c (do Realm.add c issueDB; onComplete)).run w).map
        fun r => ((), r.2) := by
  simp only [create, StateT.run_bind, resetHandlerIfNecessary_run h, getIssue_run h, ok_bind,
    Option.getD_none, hl, Option.map_none]
  cases (Realm.write c (do Realm.add c issueDB; onComplete)).run w <;> rfl

theorem create_stored {row : IssueDB} (h : Held c id none w)
    (hl : KeyedRows.lookup IssueDB.route issueDB.route w.file = some row) :
    (create c issueDB onComplete).run w =
      (Realm.write c (do
        Realm.assign c ⟨id, row⟩ (overwrite issueDB)
        onComplete)).run w >>= fun r =>
          if r.1 then .ok ((), r.2) else onComplete.run r.2 := by
  simp only [create, rename, StateT.run_bind, resetHandlerIfNecessary_run h, getIssue_run h,
    objects_run h, ok_bind, Option.getD_none, hl, Option.map_some, lookup_isEmpty hl,
    Bool.false_eq_true, ↓reduceIte]
  congr 1
  funext r
  obtain ⟨committed, v⟩ := r
  cases committed <;> rfl

theorem block_new (h : Held c id none w)
    (hl : KeyedRows.lookup IssueDB.route issueDB.route w.file = none) :
    (do Realm.add c issueDB; onComplete).run (w.writing c id w.file) =
      onComplete.run (w.writing c id (put issueDB w.file)) := by
  simp only [StateT.run_bind, add_run (h.writing w.file) issueDB hl, ok_bind, put,
    KeyedRows.upsert, hl]
  rfl

theorem block_stored {row : IssueDB} (h : Held c id none w)
    (hl : KeyedRows.lookup IssueDB.route issueDB.route w.file = some row) :
    (do Realm.assign c ⟨id, row⟩ (overwrite issueDB); onComplete).run (w.writing c id w.file) =
      onComplete.run (w.writing c id (put issueDB w.file)) := by
  have hr : row.route = issueDB.route := KeyedRows.key_of_lookup IssueDB.route hl
  simp only [StateT.run_bind, assign_run (h.writing w.file) row, ok_bind, put,
    KeyedRows.upsert, hl, hr]
  rfl

theorem Held.eta_stored (h : Held c id none w) (badge : Int) (client : σ) :
    { (w.writing c id rows).notified badge client with
      file := rows, realm := some ⟨id, c.thread, none⟩ } = w.stored rows badge client := by
  simp [World.writing, World.notified, World.stored, ← h.realm]

theorem write_block_raises {block : App σ Unit} {e : Raise} (h : Held c id none w)
    (hb : block.run (w.writing c id w.file) = .error e) :
    (Realm.write c block).run w = .error e := by
  simp only [Realm.write, StateT.run_bind, beginWrite_run h, ok_bind, hb, error_bind]

section Outcomes

variable {badge : Int} {client : σ}

theorem create_commits (h : Held c id none w) (hc : c.commits = true)
    (hk : onComplete.run (w.writing c id (put issueDB w.file)) =
      .ok ((), (w.writing c id (put issueDB w.file)).notified badge client)) :
    (create c issueDB onComplete).run w =
      .ok ((), w.stored (put issueDB w.file) badge client) := by
  have hv := (h.writing (put issueDB w.file)).notified badge client
  cases hl : KeyedRows.lookup IssueDB.route issueDB.route w.file with
  | none =>
    rw [create_new h hl, write_run h ((block_new h hl).trans hk) hv]
    simp [Except.map, hc, h.eta_stored]
  | some row =>
    rw [create_stored h hl, write_run h ((block_stored h hl).trans hk) hv]
    simp [hc, h.eta_stored]

theorem create_new_fails (h : Held c id none w) (hc : c.commits = false)
    (hl : KeyedRows.lookup IssueDB.route issueDB.route w.file = none)
    (hk : onComplete.run (w.writing c id (put issueDB w.file)) =
      .ok ((), (w.writing c id (put issueDB w.file)).notified badge client)) :
    (create c issueDB onComplete).run w =
      .ok ((), (w.writing c id (put issueDB w.file)).notified badge client) := by
  have hv := (h.writing (put issueDB w.file)).notified badge client
  rw [create_new h hl, write_run h ((block_new h hl).trans hk) hv]
  simp [Except.map, hc]

-- the `catch` of `rename` calls `onComplete` a second time
theorem create_stored_fails {row : IssueDB} (h : Held c id none w) (hc : c.commits = false)
    (hl : KeyedRows.lookup IssueDB.route issueDB.route w.file = some row)
    (hk : onComplete.run (w.writing c id (put issueDB w.file)) =
      .ok ((), (w.writing c id (put issueDB w.file)).notified badge client)) :
    (create c issueDB onComplete).run w =
      onComplete.run ((w.writing c id (put issueDB w.file)).notified badge client) := by
  have hv := (h.writing (put issueDB w.file)).notified badge client
  rw [create_stored h hl, write_run h ((block_stored h hl).trans hk) hv]
  simp [hc]

theorem create_raises {e : Raise} (h : Held c id none w)
    (hk : onComplete.run (w.writing c id (put issueDB w.file)) = .error e) :
    (create c issueDB onComplete).run w = .error e := by
  cases hl : KeyedRows.lookup IssueDB.route issueDB.route w.file with
  | none =>
    rw [create_new h hl, write_block_raises h ((block_new h hl).trans hk)]
    rfl
  | some row =>
    rw [create_stored h hl, write_block_raises h ((block_stored h hl).trans hk)]
    rfl

theorem create_nested (h : Held c id (some rows) w) :
    (create c issueDB onComplete).run w = .error .alreadyInTransaction := by
  simp only [create, StateT.run_bind, resetHandlerIfNecessary_run h, getIssue_run h, ok_bind,
    Option.getD_some]
  cases hl : KeyedRows.lookup IssueDB.route issueDB.route rows with
  | none => simp only [Option.map_none, StateT.run_bind, write_raises h, error_bind]
  | some row =>
    simp only [Option.map_some, rename, StateT.run_bind, resetHandlerIfNecessary_run h,
      objects_run h, ok_bind, Option.getD_some, lookup_isEmpty hl, Bool.false_eq_true,
      ↓reduceIte, write_raises h, error_bind]

theorem reset_run (h : Held c id none w) :
    (reset c).run w = .ok ((), if c.commits then { w with file := [] } else w.writing c id []) := by
  have hb : (Realm.deleteAll c).run (w.writing c id w.file) = .ok ((), w.writing c id []) := by
    rw [deleteAll_run (h.writing w.file)]
    rfl
  simp only [reset, StateT.run_bind, resetHandlerIfNecessary_run h, ok_bind,
    write_run h hb (h.writing [])]
  cases c.commits <;> simp [World.writing, ← h.realm]

theorem reset_nested (h : Held c id (some rows) w) :
    (reset c).run w = .error .alreadyInTransaction := by
  simp only [reset, StateT.run_bind, resetHandlerIfNecessary_run h, ok_bind, write_raises h,
    error_bind]

end Outcomes

end Seco
