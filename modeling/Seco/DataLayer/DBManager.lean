import Seco.DataLayer.Realm

namespace Seco

namespace DBManager

variable {σ : Type}

def opening (c : Call) (w : World σ) : World σ :=
  if c.opens then { w with realm := some ⟨w.opened, c.thread, none⟩, opened := w.opened + 1 }
  else w

-- the `catch` only prints: `realm` keeps the handle it had
def setRealmHandlers (c : Call) : App σ Unit := do
  let w ← get
  modify (opening c)
  if c.opens then Realm.release c w.realm else pure ()

def resetHandlerIfNecessary (c : Call) : App σ Unit := do
  let w ← get
  if w.thread = c.thread then pure ()
  else do
    setRealmHandlers c
    modify fun w => { w with thread := c.thread }

def init (c : Call) (file : List IssueDB) (badge : Int) (client : σ) : World σ :=
  opening c ⟨file, 0, c.thread, none, badge, client⟩

def getIssues (c : Call) : App σ (List IssueDB) := do
  resetHandlerIfNecessary c
  Realm.objects c

def getIssue (c : Call) (route : String) : App σ (Option ManagedIssueDB) := do
  resetHandlerIfNecessary c
  let realm ← Realm.current c
  let rows ← Realm.objects c
  match KeyedRows.lookup IssueDB.route route rows with
  | none => pure none
  | some uwpFoundMachine => pure (some ⟨realm.id, uwpFoundMachine⟩)

def overwrite (newIssueDB issueDB : IssueDB) : IssueDB :=
  { issueDB with
    name := newIssueDB.name
    surename := newIssueDB.surename
    email := newIssueDB.email
    timestamp := newIssueDB.timestamp
    report := newIssueDB.report
    phone := newIssueDB.phone }

def rename (c : Call) (issueDB : ManagedIssueDB) (newIssueDB : IssueDB)
    (onComplete : App σ Unit) : App σ Unit := do
  resetHandlerIfNecessary c
  let rows ← Realm.objects c
  if rows.isEmpty then pure ()
  else do
    let committed ← Realm.write c (do
      Realm.assign c issueDB (overwrite newIssueDB)
      onComplete)
    if committed then pure () else onComplete

def create (c : Call) (issueDB : IssueDB) (onComplete : App σ Unit) : App σ Unit := do
  resetHandlerIfNecessary c
  match ← getIssue c issueDB.route with
  | some foundIssueDB => rename c foundIssueDB issueDB onComplete
  | none => do
    let _committed ← Realm.write c (do
      Realm.add c issueDB
      onComplete)
    pure ()

def reset (c : Call) : App σ Unit := do
  resetHandlerIfNecessary c
  let _committed ← Realm.write c (Realm.deleteAll c)
  pure ()

end DBManager

section Held

open DBManager Program

variable {σ : Type} {c : Call} {id : Nat} {tx : Option (List IssueDB)} {w : World σ}

structure Held (c : Call) (id : Nat) (tx : Option (List IssueDB)) (w : World σ) : Prop where
  thread : w.thread = c.thread
  realm : w.realm = some ⟨id, c.thread, tx⟩

def Idle (c : Call) (w : World σ) : Prop := ∃ id, Held c id none w

theorem Idle.of_handle {v : World σ} (h : Idle c w) (ht : v.thread = w.thread)
    (hr : v.realm = w.realm) : Idle c v := by
  obtain ⟨id, hw⟩ := h
  exact ⟨id, ht.trans hw.thread, hr.trans hw.realm⟩

def World.writing (w : World σ) (c : Call) (id : Nat) (rows : List IssueDB) : World σ :=
  { w with realm := some ⟨id, c.thread, some rows⟩ }

def World.notified (w : World σ) (badge : Int) (client : σ) : World σ :=
  { w with applicationIconBadgeNumber := badge, client := client }

theorem Held.writing (h : Held c id tx w) (rows : List IssueDB) :
    Held c id (some rows) (w.writing c id rows) := ⟨h.thread, rfl⟩

theorem Held.notified (h : Held c id tx w) (badge : Int) (client : σ) :
    Held c id tx (w.notified badge client) := ⟨h.thread, h.realm⟩

theorem held_init (c : Call) (h : c.opens = true) (file : List IssueDB) (badge : Int) (s : σ) :
    Held c 0 none (DBManager.init c file badge s) := by
  constructor <;> simp [DBManager.init, opening, h]

theorem idle_init (c : Call) (h : c.opens = true) (file : List IssueDB) (badge : Int) (s : σ) :
    Idle c (DBManager.init c file badge s) := ⟨0, held_init c h file badge s⟩

theorem current_run (h : Held c id tx w) :
    (Realm.current c).run w = .ok (⟨id, c.thread, tx⟩, w) := by
  simp [Realm.current, h.realm]

theorem objects_run (h : Held c id tx w) :
    (Realm.objects c).run w = .ok (tx.getD w.file, w) := by
  simp [Realm.objects, current_run h, Realm.rows]

theorem isInWriteTransaction_run (h : Held c id tx w) :
    (Realm.isInWriteTransaction).run w = .ok (tx.isSome, w) := by
  simp [Realm.isInWriteTransaction, h.realm]

theorem resetHandlerIfNecessary_run (h : Held c id tx w) :
    (resetHandlerIfNecessary c).run w = .ok ((), w) := by
  simp [resetHandlerIfNecessary, h.thread]

theorem getIssues_run (h : Held c id tx w) :
    (getIssues c).run w = .ok (tx.getD w.file, w) := by
  simp [getIssues, resetHandlerIfNecessary_run h, objects_run h]

theorem getIssue_run (h : Held c id tx w) (route : String) :
    (getIssue c route).run w =
      .ok ((KeyedRows.lookup IssueDB.route route (tx.getD w.file)).map (⟨id, ·⟩), w) := by
  simp only [getIssue, StateT.run_bind, resetHandlerIfNecessary_run h, current_run h,
    objects_run h, ok_bind]
  cases KeyedRows.lookup IssueDB.route route (tx.getD w.file) <;> rfl

theorem beginWrite_run (h : Held c id none w) :
    (Realm.beginWrite c).run w = .ok ((), w.writing c id w.file) := by
  simp [Realm.beginWrite, current_run h, Realm.setTransaction, World.writing]

theorem beginWrite_raises {rows : List IssueDB} (h : Held c id (some rows) w) :
    (Realm.beginWrite c).run w = .error .alreadyInTransaction := by
  simp [Realm.beginWrite, current_run h]

theorem add_run {rows : List IssueDB} (h : Held c id (some rows) w) (issueDB : IssueDB)
    (hn : KeyedRows.lookup IssueDB.route issueDB.route rows = none) :
    (Realm.add c issueDB).run w = .ok ((), w.writing c id (rows ++ [issueDB])) := by
  simp [Realm.add, current_run h, hn, Realm.setTransaction, World.writing]

theorem deleteAll_run {rows : List IssueDB} (h : Held c id (some rows) w) :
    (Realm.deleteAll c).run w = .ok ((), w.writing c id []) := by
  simp [Realm.deleteAll, current_run h, Realm.setTransaction, World.writing]

theorem assign_run {rows : List IssueDB} (h : Held c id (some rows) w) (issueDB : IssueDB)
    (f : IssueDB → IssueDB) :
    (Realm.assign c ⟨id, issueDB⟩ f).run w =
      .ok ((), w.writing c id (KeyedRows.modify IssueDB.route issueDB.route f rows)) := by
  simp [Realm.assign, current_run h, Realm.setTransaction, World.writing]

theorem write_run {block : App σ Unit} {rows : List IssueDB} {v : World σ}
    (h : Held c id none w) (hb : block.run (w.writing c id w.file) = .ok ((), v))
    (hv : Held c id (some rows) v) :
    (Realm.write c block).run w =
      .ok (if c.commits then (true, { v with file := rows, realm := some ⟨id, c.thread, none⟩ })
        else (false, v)) := by
  simp only [Realm.write, StateT.run_bind, beginWrite_run h, hb, ok_bind,
    isInWriteTransaction_run hv, current_run hv, Option.isSome_some, ↓reduceIte,
    Realm.commitWrite]
  cases c.commits <;> simp [Realm.setTransaction]

theorem write_raises {block : App σ Unit} {rows : List IssueDB} (h : Held c id (some rows) w) :
    (Realm.write c block).run w = .error .alreadyInTransaction := by
  simp [Realm.write, beginWrite_raises h]

end Held

end Seco
