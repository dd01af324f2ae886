import Seco.DataLayer.Operations

namespace Seco

open Program Op DBManager

variable {σ α : Type} {c : Call} {id : Nat} {w : World σ}

def Raise.confinement : Raise → Bool
  | .nilRealm | .incorrectThread | .foreignObject => true
  | .alreadyInTransaction | .outsideTransaction | .duplicateKey | .releasedInTransaction => false

def HeldBy (c : Call) (id : Nat) (w : World σ) : Prop := ∃ tx, Held c id tx w

abbrev Keeps (c : Call) (id : Nat) (p : App σ α) : Prop :=
  Triple (HeldBy c id) p (fun _ => HeldBy c id) (fun e => e.confinement = false)

theorem keeps_of_run {p : App σ α}
    (h : ∀ w tx, Held c id tx w →
      (∃ a v, Returns p w a v ∧ HeldBy c id v) ∨ ∃ e, Raises p w e ∧ e.confinement = false) :
    Keeps c id p := triple_of_run fun w ⟨tx, hw⟩ => h w tx hw

theorem keeps_of_transaction {p : App σ α}
    (ho : ∀ w, Held c id none w → Raises p w .outsideTransaction)
    (hi : ∀ w rows, Held c id (some rows) w →
      (∃ a v, Returns p w a v ∧ HeldBy c id v) ∨ ∃ e, Raises p w e ∧ e.confinement = false) :
    Keeps c id p :=
  keeps_of_run fun w tx h => by
    cases tx with
    | none => exact .inr ⟨.outsideTransaction, ho w h, rfl⟩
    | some rows => exact hi w rows h

theorem keeps_objects : Keeps c id (Realm.objects c : App σ (List IssueDB)) :=
  keeps_of_run fun w tx h => .inl ⟨_, w, objects_run h, tx, h⟩

theorem keeps_resetHandlerIfNecessary : Keeps c id (resetHandlerIfNecessary c : App σ Unit) :=
  keeps_of_run fun w tx h => .inl ⟨_, w, resetHandlerIfNecessary_run h, tx, h⟩

theorem keeps_getIssues : Keeps c id (getIssues c : App σ (List IssueDB)) :=
  keeps_of_run fun w tx h => .inl ⟨_, w, getIssues_run h, tx, h⟩

theorem keeps_beginWrite : Keeps c id (Realm.beginWrite c : App σ Unit) :=
  keeps_of_run fun w tx h => by
    cases tx with
    | none => exact .inl ⟨(), _, beginWrite_run h, _, h.writing _⟩
    | some rows => exact .inr ⟨_, beginWrite_raises h, rfl⟩

theorem keeps_isInWriteTransaction : Keeps c id (Realm.isInWriteTransaction : App σ Bool) :=
  keeps_of_run fun w tx h => .inl ⟨_, w, isInWriteTransaction_run h, tx, h⟩

theorem keeps_commitWrite : Keeps c id (Realm.commitWrite c : App σ Bool) := by
  refine keeps_of_transaction (fun w h => ?_) fun w rows h => ?_
  · simp [Raises, Realm.commitWrite, current_run h]
  · cases hc : c.commits with
    | false =>
      exact .inl ⟨false, w, by simp [Returns, Realm.commitWrite, current_run h, hc], _, h⟩
    | true =>
      refine .inl ⟨true, { w with file := rows, realm := some ⟨id, c.thread, none⟩ }, ?_,
        none, h.thread, rfl⟩
      simp [Returns, Realm.commitWrite, current_run h, hc, Realm.setTransaction]

theorem keeps_write {block : App σ Unit} (hb : Keeps c id block) :
    Keeps c id (Realm.write c block) := by
  refine triple_bind keeps_beginWrite fun _ => triple_bind hb fun _ => ?_
  refine triple_bind keeps_isInWriteTransaction fun inside => ?_
  cases inside with
  | false => exact triple_pure fun _ h => h
  | true => exact keeps_commitWrite

theorem keeps_add (issueDB : IssueDB) : Keeps c id (Realm.add c issueDB : App σ Unit) := by
  refine keeps_of_transaction (fun w h => ?_) fun w rows h => ?_
  · simp [Raises, Realm.add, current_run h]
  · cases hl : KeyedRows.lookup IssueDB.route issueDB.route rows with
    | none => exact .inl ⟨(), _, add_run h issueDB hl, _, h.writing _⟩
    | some row => exact .inr ⟨.duplicateKey, by simp [Raises, Realm.add, current_run h, hl], rfl⟩

theorem keeps_deleteAll : Keeps c id (Realm.deleteAll c : App σ Unit) := by
  refine keeps_of_transaction (fun w h => ?_) fun w rows h => ?_
  · simp [Raises, Realm.deleteAll, current_run h]
  · exact .inl ⟨(), _, deleteAll_run h, _, h.writing _⟩

theorem keeps_assign (issueDB : IssueDB) (f : IssueDB → IssueDB) :
    Keeps c id (Realm.assign c ⟨id, issueDB⟩ f : App σ Unit) := by
  refine keeps_of_transaction (fun w h => ?_) fun w rows h => ?_
  · simp [Raises, Realm.assign, current_run h]
  · exact .inl ⟨(), _, assign_run h issueDB f, _, h.writing _⟩

theorem getIssue_managed (route : String) :
    Triple (HeldBy c id) (getIssue c route : App σ (Option ManagedIssueDB))
      (fun found w => HeldBy c id w ∧ ∀ object ∈ found, object.realm = id)
      (fun e => e.confinement = false) := by
  refine triple_of_run fun w ⟨tx, h⟩ => .inl ⟨_, w, getIssue_run h route, ⟨tx, h⟩, ?_⟩
  intro object ho
  obtain ⟨row, _, rfl⟩ := Option.map_eq_some_iff.mp ho
  rfl

theorem keeps_rename (issueDB newIssueDB : IssueDB) {onComplete : App σ Unit}
    (hk : Keeps c id onComplete) : Keeps c id (rename c ⟨id, issueDB⟩ newIssueDB onComplete) := by
  refine triple_bind keeps_resetHandlerIfNecessary fun _ => triple_bind keeps_objects fun rows => ?_
  cases rows.isEmpty with
  | true => exact triple_pure fun _ h => h
  | false =>
    have hb := triple_bind (keeps_assign issueDB (overwrite newIssueDB)) fun _ => hk
    refine triple_bind (keeps_write hb) fun committed => ?_
    cases committed with
    | true => exact triple_pure fun _ h => h
    | false => exact hk

theorem keeps_create (issueDB : IssueDB) {onComplete : App σ Unit} (hk : Keeps c id onComplete) :
    Keeps c id (DBManager.create c issueDB onComplete) := by
  refine triple_bind keeps_resetHandlerIfNecessary fun _ => ?_
  refine triple_bind (getIssue_managed issueDB.route) fun found => ?_
  cases found with
  | none =>
    refine triple_bind (triple_conseq (keeps_write (triple_bind (keeps_add issueDB) fun _ => hk))
      (fun w h => h.1) fun _ w h => h) fun _ => ?_
    exact triple_pure fun _ h => h
  | some object =>
    obtain ⟨realm, row⟩ := object
    intro w ⟨hw, hm⟩
    obtain rfl : realm = id := hm _ rfl
    exact keeps_rename row issueDB hk w hw

theorem keeps_reset : Keeps c id (DBManager.reset c : App σ Unit) :=
  triple_bind keeps_resetHandlerIfNecessary fun _ =>
    triple_bind (keeps_write keeps_deleteAll) fun _ => triple_pure fun _ h => h

mutual

theorem keeps_perform : ∀ op : Op, Keeps c id (op.perform c : App σ Answer)
  | .create issueDB onComplete =>
    triple_bind
      (keeps_create issueDB
        (triple_bind (keeps_performAll onComplete) fun _ => triple_pure fun _ h => h))
      fun _ => triple_pure fun _ h => h
  | .getIssue route =>
    triple_bind (triple_conseq (getIssue_managed route) (fun _ h => h) fun _ _ h => h.1)
      fun _ => triple_pure fun _ h => h
  | .getIssues => triple_bind keeps_getIssues fun _ => triple_pure fun _ h => h
  | .reset => triple_bind keeps_reset fun _ => triple_pure fun _ h => h

theorem keeps_performAll : ∀ ops : List Op, Keeps c id (performAll c ops : App σ (List Answer))
  | [] => triple_pure fun _ h => h
  | op :: ops =>
    triple_bind (keeps_perform op) fun _ =>
      triple_bind (keeps_performAll ops) fun _ => triple_pure fun _ h => h

end

def rehandled (c : Call) (w : World σ) : World σ :=
  if w.thread = c.thread then w else { opening c w with thread := c.thread }

theorem rehandled_same (h : w.thread = c.thread) : rehandled c w = w := if_pos h

theorem rehandled_moved (h : w.thread ≠ c.thread) :
    rehandled c w = { opening c w with thread := c.thread } := if_neg h

theorem held_rehandled (h : w.thread ≠ c.thread) (ho : c.opens = true) :
    Held c w.opened none (rehandled c w) := by
  rw [rehandled_moved h]
  exact ⟨rfl, by simp [opening, ho]⟩

-- a handle in a transaction of another thread is replaced: the program stops there
def Interrupted (c : Call) (w : World σ) : Prop :=
  w.thread ≠ c.thread ∧ c.opens = true ∧
    ∃ realm ∈ w.realm, realm.transaction.isSome = true ∧ realm.thread ≠ c.thread

theorem resetHandlerIfNecessary_raises (h : Interrupted c w) :
    Raises (resetHandlerIfNecessary c) w .releasedInTransaction := by
  obtain ⟨ht, ho, realm, hr, hrel⟩ := h
  obtain hr : w.realm = some realm := hr
  simp [Raises, resetHandlerIfNecessary, ht, setRealmHandlers, ho, hr, Realm.release, hrel]

theorem release_run {realm : Option Realm}
    (h : ∀ r ∈ realm, ¬ (r.transaction.isSome = true ∧ r.thread ≠ c.thread)) :
    (Realm.release c realm).run w = .ok ((), w) := by
  cases realm with
  | none => rfl
  | some r => rw [Realm.release, if_neg (h r rfl), StateT.run_pure, pure_eq_ok]

theorem resetHandlerIfNecessary_rehandled (h : ¬ Interrupted c w) :
    (resetHandlerIfNecessary c).run w = .ok ((), rehandled c w) := by
  rcases eq_or_ne w.thread c.thread with ht | ht
  · simp [resetHandlerIfNecessary, rehandled, ht]
  · cases ho : c.opens with
    | false => simp [resetHandlerIfNecessary, rehandled, ht, setRealmHandlers, ho]
    | true =>
      have hr : (Realm.release c w.realm).run (opening c w) = .ok ((), opening c w) :=
        release_run fun r hr hrel => h ⟨ht, ho, r, hr, hrel⟩
      simp [resetHandlerIfNecessary, rehandled, ht, setRealmHandlers, ho, hr]

theorem rehandled_thread : (rehandled c w).thread = c.thread := by
  by_cases h : w.thread = c.thread <;> simp [rehandled, h]

theorem not_interrupted_rehandled : ¬ Interrupted c (rehandled c w) :=
  fun h => h.1 rehandled_thread

theorem bind_rehandled (h : ¬ Interrupted c w) (f : Unit → App σ α) :
    (resetHandlerIfNecessary c >>= f).run w =
      (resetHandlerIfNecessary c >>= f).run (rehandled c w) := by
  have he : rehandled c (rehandled c w) = rehandled c w := rehandled_same rehandled_thread
  simp only [StateT.run_bind, resetHandlerIfNecessary_rehandled h,
    resetHandlerIfNecessary_rehandled not_interrupted_rehandled, he, ok_bind]

theorem run_bind_congr {β : Type} {p : App σ α} {f : α → App σ β} {v : World σ}
    (h : p.run w = p.run v) : (p >>= f).run w = (p >>= f).run v := by
  simp only [StateT.run_bind, h]

theorem perform_begins (op : Op) : ∃ (α : Type) (f : Unit → App σ α) (g : α → App σ Answer),
    op.perform c = (resetHandlerIfNecessary c >>= f) >>= g := by
  cases op with
  | create issueDB onComplete => exact ⟨_, _, _, rfl⟩
  | getIssue route => exact ⟨_, _, _, rfl⟩
  | getIssues => exact ⟨_, _, _, rfl⟩
  | reset => exact ⟨_, _, _, rfl⟩

theorem perform_rehandled (h : ¬ Interrupted c w) (op : Op) :
    (op.perform c).run w = (op.perform c).run (rehandled c w) := by
  obtain ⟨α, f, g, he⟩ := perform_begins (c := c) op
  rw [he]
  exact run_bind_congr (bind_rehandled h f)

theorem perform_interrupted (h : Interrupted c w) (op : Op) :
    Raises (op.perform c) w .releasedInTransaction := by
  obtain ⟨α, f, g, he⟩ := perform_begins (c := c) op
  rw [he]
  exact raises_bind_iff.mpr (.inl (raises_bind_iff.mpr (.inl (resetHandlerIfNecessary_raises h))))

def performCalls : List (Call × Op) → App σ Unit
  | [] => pure ()
  | (c, op) :: calls => do
    let _ ← op.perform c
    performCalls calls

def Confined (calls : List (Call × Op)) (w : World σ) : Prop :=
  ∀ e, Raises (performCalls calls) w e → e.confinement = false

theorem confined_cons {op : Op} {calls : List (Call × Op)} :
    Confined ((c, op) :: calls) w ↔
      (∀ e, Raises (op.perform c) w e → e.confinement = false) ∧
        ∀ answer v, Returns (op.perform c) w answer v → Confined calls v := by
  constructor
  · intro h
    refine ⟨fun e he => h e (raises_bind_iff.mpr (.inl he)), fun answer v hv e he => ?_⟩
    exact h e (raises_bind_iff.mpr (.inr ⟨answer, v, hv, he⟩))
  · intro ⟨hr, hs⟩ e he
    rcases raises_bind_iff.mp he with he | ⟨answer, v, hv, he⟩
    · exact hr e he
    · exact hs answer v hv e he

def InTime (thread : Thread) (opened : Bool) (c : Call) : Prop :=
  if c.thread = thread then opened = true else c.opens = true

-- `opened` tells whether the last attempt to open a handle for `thread` succeeded
def OpensInTime (thread : Thread) (opened : Bool) : List (Call × Op) → World σ → Prop
  | [], _ => True
  | (c, op) :: calls, w => InTime thread opened c ∧
      ∀ answer v, Returns (op.perform c) w answer v → OpensInTime c.thread true calls v

structure Tracks (thread : Thread) (opened : Bool) (w : World σ) : Prop where
  recorded : w.thread = thread
  held : opened = true → ∃ id tx, w.realm = some ⟨id, thread, tx⟩
  unopened : opened = false → w.realm = none

structure Stray (c : Call) (w : World σ) : Prop where
  thread : w.thread = c.thread
  realm : ∀ realm ∈ w.realm, realm.thread ≠ c.thread

section Tracks

variable {thread : Thread} {opened : Bool}

theorem tracks_init (c : Call) (file : List IssueDB) (badge : Int) (client : σ) :
    Tracks c.thread c.opens (DBManager.init c file badge client) := by
  constructor
  · cases ho : c.opens <;> simp [DBManager.init, opening, ho]
  · intro ho
    exact ⟨0, none, (held_init c ho file badge client).realm⟩
  · intro ho
    simp [DBManager.init, opening, ho]

theorem HeldBy.tracks {id : Nat} (h : HeldBy c id w) : Tracks c.thread true w := by
  obtain ⟨tx, hw⟩ := h
  exact ⟨hw.thread, fun _ => ⟨id, tx, hw.realm⟩, fun e => by cases e⟩

theorem Tracks.heldBy_rehandled (h : Tracks thread opened w) (hc : InTime thread opened c) :
    ∃ id, HeldBy c id (rehandled c w) := by
  by_cases ht : c.thread = thread
  · rw [InTime, if_pos ht] at hc
    obtain ⟨id, tx, hr⟩ := h.held hc
    have hw : w.thread = c.thread := h.recorded.trans ht.symm
    rw [rehandled_same hw]
    exact ⟨id, tx, hw, ht ▸ hr⟩
  · rw [InTime, if_neg ht] at hc
    have hw : w.thread ≠ c.thread := fun e => ht (e.symm.trans h.recorded)
    exact ⟨w.opened, none, held_rehandled hw hc⟩

theorem Tracks.realm_thread (h : Tracks thread opened w) :
    ∀ realm ∈ w.realm, realm.thread = thread := by
  intro realm hm
  cases opened with
  | false => simp [h.unopened rfl] at hm
  | true =>
    obtain ⟨id, tx, hr⟩ := h.held rfl
    obtain rfl : ⟨id, thread, tx⟩ = realm := Option.some.inj (hr.symm.trans hm)
    rfl

theorem Tracks.stray_rehandled (h : Tracks thread opened w) (hc : ¬ InTime thread opened c) :
    Stray c (rehandled c w) := by
  refine ⟨rehandled_thread, ?_⟩
  by_cases ht : c.thread = thread
  · rw [InTime, if_pos ht, Bool.not_eq_true] at hc
    rw [rehandled_same (h.recorded.trans ht.symm)]
    simp [h.unopened hc]
  · -- the attempt failed: the handle of the thread recorded before is kept
    rw [InTime, if_neg ht, Bool.not_eq_true] at hc
    rw [rehandled_moved fun e => ht (e.symm.trans h.recorded)]
    intro realm hm
    rw [h.realm_thread realm (by simpa [opening, hc] using hm)]
    exact Ne.symm ht

end Tracks

theorem Stray.current_faults (h : Stray c w) :
    ∃ e, Raises (Realm.current c) w e ∧ (e = .nilRealm ∨ e = .incorrectThread) := by
  cases hr : w.realm with
  | none => exact ⟨.nilRealm, by simp [Raises, Realm.current, hr], .inl rfl⟩
  | some realm =>
    have hn : realm.thread ≠ c.thread := h.realm realm (by simp [hr])
    exact ⟨.incorrectThread, by simp [Raises, Realm.current, hr, hn], .inr rfl⟩

theorem Stray.perform_faults (h : Stray c w) (op : Op) :
    ∃ e, Raises (op.perform c) w e ∧ (e = .nilRealm ∨ e = .incorrectThread) := by
  obtain ⟨e, he, hf⟩ := h.current_faults
  have hr : Returns (resetHandlerIfNecessary c) w () w := by
    simp [Returns, resetHandlerIfNecessary, h.thread]
  have hg (route : String) : Raises (DBManager.getIssue c route) w e :=
    raises_bind_iff.mpr (.inr ⟨(), w, hr, raises_bind_iff.mpr (.inl he)⟩)
  refine ⟨e, ?_, hf⟩
  cases op with
  | create issueDB onComplete =>
    refine raises_bind_iff.mpr (.inl (raises_bind_iff.mpr (.inr ⟨(), w, hr, ?_⟩)))
    exact raises_bind_iff.mpr (.inl (hg issueDB.route))
  | getIssue route => exact raises_bind_iff.mpr (.inl (hg route))
  | getIssues =>
    refine raises_bind_iff.mpr (.inl (raises_bind_iff.mpr (.inr ⟨(), w, hr, ?_⟩)))
    exact raises_bind_iff.mpr (.inl he)
  | reset =>
    refine raises_bind_iff.mpr (.inl (raises_bind_iff.mpr (.inr ⟨(), w, hr, ?_⟩)))
    have hb : Raises (Realm.beginWrite c) w e := raises_bind_iff.mpr (.inl he)
    exact raises_bind_iff.mpr (.inl (raises_bind_iff.mpr (.inl hb)))

theorem Tracks.inTime_of_interrupted {thread : Thread} {opened : Bool}
    (h : Tracks thread opened w) (hi : Interrupted c w) : InTime thread opened c := by
  have ht : c.thread ≠ thread := fun e => hi.1 (h.recorded.trans e.symm)
  rw [InTime, if_neg ht]
  exact hi.2.1

theorem Tracks.perform_late {thread : Thread} {opened : Bool} (h : Tracks thread opened w)
    (hc : ¬ InTime thread opened c) (op : Op) :
    ∃ e, Raises (op.perform c) w e ∧ (e = .nilRealm ∨ e = .incorrectThread) := by
  obtain ⟨e, he, hf⟩ := (h.stray_rehandled hc).perform_faults op
  have hi : ¬ Interrupted c w := fun hi => hc (h.inTime_of_interrupted hi)
  exact ⟨e, (perform_rehandled hi op).trans he, hf⟩

theorem Tracks.perform_confined_iff {thread : Thread} {opened : Bool} (h : Tracks thread opened w)
    (op : Op) :
    (∀ e, Raises (op.perform c) w e → e.confinement = false) ↔ InTime thread opened c := by
  constructor
  · intro hw
    by_contra hc
    obtain ⟨e, he, hf⟩ := h.perform_late hc op
    have hn := hw e he
    rcases hf with rfl | rfl <;> cases hn
  · intro hc e he
    rcases em (Interrupted c w) with hi | hi
    · obtain rfl : Raise.releasedInTransaction = e :=
        Except.error.inj ((perform_interrupted hi op).symm.trans he)
      rfl
    · obtain ⟨id, hu⟩ := h.heldBy_rehandled hc
      exact (keeps_perform op _ hu).2 e ((perform_rehandled hi op).symm.trans he)

theorem Tracks.perform_tracks {thread : Thread} {opened : Bool} (h : Tracks thread opened w)
    (hc : InTime thread opened c) {op : Op} {answer : Answer} {v : World σ}
    (hv : Returns (op.perform c) w answer v) : Tracks c.thread true v := by
  have hi : ¬ Interrupted c w := fun hi =>
    absurd ((perform_interrupted hi op).symm.trans hv) (by simp)
  obtain ⟨id, hu⟩ := h.heldBy_rehandled hc
  exact ((keeps_perform op _ hu).1 answer v ((perform_rehandled hi op).symm.trans hv)).tracks

theorem Tracks.confined_iff {calls : List (Call × Op)} {thread : Thread} {opened : Bool}
    (h : Tracks thread opened w) : Confined calls w ↔ OpensInTime thread opened calls w := by
  induction calls generalizing w thread opened with
  | nil =>
    refine iff_of_true (fun e he => ?_) trivial
    cases he
  | cons call calls ih =>
    obtain ⟨c, op⟩ := call
    rw [confined_cons, h.perform_confined_iff, OpensInTime]
    refine and_congr_right fun hc => forall_congr' fun answer => forall_congr' fun v => ?_
    exact forall_congr' fun hv => ih (h.perform_tracks hc hv)

theorem Tracks.perform_own_record {thread : Thread} {opened : Bool} (h : Tracks thread opened w)
    (op : Op) : ¬ Raises (op.perform c) w .foreignObject := by
  intro hf
  by_cases hc : InTime thread opened c
  · have hn := (h.perform_confined_iff op).mpr hc .foreignObject hf
    cases hn
  · obtain ⟨e, he, hr⟩ := h.perform_late hc op
    have heq := Except.error.inj (he.symm.trans hf)
    rcases hr with rfl | rfl <;> cases heq

theorem Tracks.own_record {calls : List (Call × Op)} {thread : Thread} {opened : Bool}
    (h : Tracks thread opened w) : ¬ Raises (performCalls calls) w .foreignObject := by
  induction calls generalizing w thread opened with
  | nil =>
    intro hf
    cases hf
  | cons call calls ih =>
    obtain ⟨c, op⟩ := call
    intro hf
    rcases raises_bind_iff.mp hf with hf | ⟨answer, v, hv, hf⟩
    · exact h.perform_own_record op hf
    · by_cases hc : InTime thread opened c
      · exact ih (h.perform_tracks hc hv) hf
      · obtain ⟨e, he, -⟩ := h.perform_late hc op
        exact absurd (he.symm.trans hv) (by simp)

theorem create_renames_own_record (c : Call) (file : List IssueDB) (badge : Int) (client : σ)
    (calls : List (Call × Op)) :
    ¬ Raises (performCalls calls) (DBManager.init c file badge client) .foreignObject :=
  (tracks_init c file badge client).own_record

theorem handle_confinement_iff (c : Call) (file : List IssueDB) (badge : Int) (client : σ)
    (calls : List (Call × Op)) :
    Confined calls (DBManager.init c file badge client) ↔
      OpensInTime c.thread c.opens calls (DBManager.init c file badge client) :=
  (tracks_init c file badge client).confined_iff

theorem lost_handle_not_confined :
    ¬ Confined [(⟨1, false, true⟩, .getIssues)] (DBManager.init ⟨0, true, true⟩ [] 0 ()) := by
  intro h
  exact absurd (h .incorrectThread rfl) (by decide)

end Seco
