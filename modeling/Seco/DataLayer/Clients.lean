import Seco.DataLayer.Create
import Seco.General.Runs

namespace Seco

open Runs

inductive Phase where
  | idle
  | queried (snapshot : List IssueDB)
  | done
  | raised
  deriving DecidableEq

structure Clients where
  latest : List IssueDB
  older : List (List IssueDB)
  phase : Nat → Phase
  commits : List Nat

inductive ClientEvent where
  | query (client lag : Nat)
  | write (client : Nat)
  deriving DecidableEq

namespace Clients

def init (rows : List IssueDB) : Clients := ⟨rows, [], fun _ => .idle, []⟩

-- the body of `create` after `getIssue` answered from `snapshot`; `none` when `add` raises
def write (issueDB : IssueDB) (snapshot latest : List IssueDB) : Option (List IssueDB) :=
  match KeyedRows.lookup IssueDB.route issueDB.route snapshot with
  | some foundIssueDB =>
    if snapshot.isEmpty then some latest
    else some (KeyedRows.modify IssueDB.route foundIssueDB.route
      (DBManager.overwrite issueDB) latest)
  | none =>
    if (KeyedRows.lookup IssueDB.route issueDB.route latest).isSome then none
    else some (latest ++ [issueDB])

def moved (s : Clients) (client : Nat) (phase : Phase) : Clients :=
  { s with phase := Function.update s.phase client phase }

def committed (s : Clients) (client : Nat) (rows : List IssueDB) : Clients where
  latest := rows
  older := s.latest :: s.older
  phase := Function.update s.phase client .done
  commits := client :: s.commits

variable (issues : Nat → IssueDB)

def step (s : Clients) : ClientEvent → Option Clients
  | .query client lag =>
    match s.phase client with
    | .idle => (s.latest :: s.older)[lag]?.map fun snapshot => s.moved client (.queried snapshot)
    | .queried _ | .done | .raised => none
  | .write client =>
    match s.phase client with
    | .queried snapshot =>
      match write (issues client) snapshot s.latest with
      | some rows => some (s.committed client rows)
      | none => some (s.moved client .raised)
    | .idle | .done | .raised => none

def lastWritten (rows : List IssueDB) (commits : List Nat) (route : String) : Option IssueDB :=
  ((commits.find? fun client => decide ((issues client).route = route)).map issues).or
    (KeyedRows.lookup IssueDB.route route rows)

variable {issues} {s t : Clients} {client lag : Nat} {rows snapshot : List IssueDB}

theorem step_query (h : step issues s (.query client lag) = some t) :
    ∃ snapshot, s.phase client = .idle ∧ (s.latest :: s.older)[lag]? = some snapshot ∧
      t = s.moved client (.queried snapshot) := by
  cases hp : s.phase client with
  | idle =>
    simp only [step, hp] at h
    obtain ⟨snapshot, hv, rfl⟩ := Option.map_eq_some_iff.mp h
    exact ⟨snapshot, rfl, hv, rfl⟩
  | queried snapshot => simp [step, hp] at h
  | done => simp [step, hp] at h
  | raised => simp [step, hp] at h

theorem step_write (h : step issues s (.write client) = some t) :
    ∃ snapshot, s.phase client = .queried snapshot ∧
      ((∃ rows, write (issues client) snapshot s.latest = some rows ∧
        t = s.committed client rows) ∨
      write (issues client) snapshot s.latest = none ∧ t = s.moved client .raised) := by
  cases hp : s.phase client with
  | queried snapshot =>
    refine ⟨snapshot, rfl, ?_⟩
    cases hw : write (issues client) snapshot s.latest with
    | some rows => exact .inl ⟨rows, rfl, by simpa [step, hp, hw, eq_comm] using h⟩
    | none => exact .inr ⟨rfl, by simpa [step, hp, hw, eq_comm] using h⟩
  | idle => simp [step, hp] at h
  | done => simp [step, hp] at h
  | raised => simp [step, hp] at h

theorem write_eq_none_iff {issueDB : IssueDB} {latest : List IssueDB} :
    write issueDB snapshot latest = none ↔
      issueDB.route ∈ latest.map IssueDB.route ∧ issueDB.route ∉ snapshot.map IssueDB.route := by
  rw [← KeyedRows.lookup_isSome_iff, ← KeyedRows.lookup_eq_none_iff]
  cases hs : KeyedRows.lookup IssueDB.route issueDB.route snapshot with
  | none => simp [write, hs, Option.isSome_iff_ne_none]
  | some found => simp [write, hs, lookup_isEmpty hs]

theorem write_eq_put {issueDB : IssueDB} {latest : List IssueDB}
    (hsub : snapshot.map IssueDB.route ⊆ latest.map IssueDB.route)
    (h : write issueDB snapshot latest = some rows) : rows = put issueDB latest := by
  cases hs : KeyedRows.lookup IssueDB.route issueDB.route snapshot with
  | none =>
    cases hl : KeyedRows.lookup IssueDB.route issueDB.route latest with
    | none => simpa [write, hs, hl, put, KeyedRows.upsert, eq_comm] using h
    | some row => simp [write, hs, hl] at h
  | some found =>
    have hm : issueDB.route ∈ latest.map IssueDB.route :=
      hsub ((KeyedRows.lookup_isSome_iff IssueDB.route).mp (by simp [hs]))
    obtain ⟨row, hl⟩ := Option.isSome_iff_exists.mp
      ((KeyedRows.lookup_isSome_iff IssueDB.route).mpr hm)
    have hr : found.route = issueDB.route := KeyedRows.key_of_lookup IssueDB.route hs
    simpa [write, hs, lookup_isEmpty hs, put, KeyedRows.upsert, hl, hr, eq_comm] using h

theorem routes_subset_put (issueDB : IssueDB) (rows : List IssueDB) :
    rows.map IssueDB.route ⊆ (put issueDB rows).map IssueDB.route := by
  intro route h
  rw [← KeyedRows.lookup_isSome_iff, put, KeyedRows.lookup_upsert IssueDB.route overwrites]
  by_cases hr : route = issueDB.route
  · simp [hr]
  · simpa [hr] using (KeyedRows.lookup_isSome_iff IssueDB.route).mpr h

structure Consistent (issues : Nat → IssueDB) (rows : List IssueDB) (s : Clients) : Prop where
  nodup : (s.latest.map IssueDB.route).Nodup
  older : ∀ version ∈ s.latest :: s.older,
    version.map IssueDB.route ⊆ s.latest.map IssueDB.route
  snapshots : ∀ client snapshot, s.phase client = .queried snapshot →
    snapshot.map IssueDB.route ⊆ s.latest.map IssueDB.route
  lastWritten : ∀ route, KeyedRows.lookup IssueDB.route route s.latest =
    lastWritten issues rows s.commits route

theorem consistent_init (hn : (rows.map IssueDB.route).Nodup) :
    Consistent issues rows (init rows) where
  nodup := hn
  older := by simp [init]
  snapshots := by simp [init]
  lastWritten := by simp [init, Clients.lastWritten]

theorem Consistent.moved (h : Consistent issues rows s) {phase : Phase}
    (hp : ∀ snapshot, phase = .queried snapshot →
      snapshot.map IssueDB.route ⊆ s.latest.map IssueDB.route) :
    Consistent issues rows (s.moved client phase) where
  nodup := h.nodup
  older := h.older
  snapshots := by
    intro other snapshot ho
    by_cases hc : other = client
    · subst hc
      exact hp snapshot (by simpa [Clients.moved] using ho)
    · exact h.snapshots other snapshot (by simpa [Clients.moved, hc] using ho)
  lastWritten := h.lastWritten

theorem Consistent.committed (h : Consistent issues rows s) :
    Consistent issues rows (s.committed client (put (issues client) s.latest)) where
  nodup := KeyedRows.nodup_upsert IssueDB.route overwrites (issues client) h.nodup
  older := by
    intro version hv
    rcases List.mem_cons.mp hv with rfl | hv
    · exact List.Subset.refl _
    · exact List.Subset.trans (h.older version hv) (routes_subset_put _ _)
  snapshots := by
    intro other snapshot ho
    by_cases hc : other = client
    · subst hc
      simp [Clients.committed] at ho
    · have hs := h.snapshots other snapshot (by simpa [Clients.committed, hc] using ho)
      exact List.Subset.trans hs (routes_subset_put _ _)
  lastWritten := by
    intro route
    have hl := h.lastWritten route
    rw [Clients.lastWritten] at hl ⊢
    simp only [Clients.committed, put, KeyedRows.lookup_upsert IssueDB.route overwrites, hl]
    by_cases hr : (issues client).route = route
    · simp [hr]
    · simp [hr, Ne.symm hr]

theorem consistent_step {e : ClientEvent} (h : Consistent issues rows s)
    (ht : step issues s e = some t) : Consistent issues rows t := by
  cases e with
  | query client lag =>
    obtain ⟨snapshot, -, hv, rfl⟩ := step_query ht
    refine h.moved fun other ho => ?_
    obtain rfl : snapshot = other := Phase.queried.inj ho
    exact h.older snapshot (List.mem_of_getElem? hv)
  | write client =>
    obtain ⟨snapshot, hp, ⟨rows', hw, rfl⟩ | ⟨-, rfl⟩⟩ := step_write ht
    · obtain rfl := write_eq_put (h.snapshots client snapshot hp) hw
      exact h.committed
    · exact h.moved (by simp)

def NoDuplicateAdd (_ : Clients) : ClientEvent → Clients → Prop
  | .query _ _, _ => True
  | .write client, t => t.phase client ≠ .raised

section Schedule

variable (issues : Nat → IssueDB)

-- the clients whose transactions are among the events, in order
def writers (es : List ClientEvent) : List Nat :=
  es.filterMap fun e =>
    match e with
    | .query _ _ => none
    | .write client => some client

-- those whose commits are in the version that a query reads after the events
def readable (es : List ClientEvent) (lag : Nat) : List Nat :=
  (writers es).take ((writers es).length - lag)

def Writes (clients : List Nat) (route : String) : Prop :=
  ∃ client ∈ clients, (issues client).route = route

-- what the client's query read has the client's route, if any transaction so far stored it
def QuerySees (rows : List IssueDB) (es : List ClientEvent) (client : Nat) : Prop :=
  ∀ (i lag : Nat), es[i]? = some (.query client lag) →
    (issues client).route ∉ rows.map IssueDB.route →
    Writes issues (writers es) (issues client).route →
      Writes issues (readable (es.take i) lag) (issues client).route

def SeesStored (rows : List IssueDB) (es : List ClientEvent) : Prop :=
  ∀ (i client : Nat), es[i]? = some (.write client) → QuerySees issues rows (es.take i) client

structure Follows (rows : List IssueDB) (es : List ClientEvent) (s : Clients) : Prop where
  versions : ∀ lag version, (s.latest :: s.older)[lag]? = some version → ∀ route,
    route ∈ version.map IssueDB.route ↔
      route ∈ rows.map IssueDB.route ∨ Writes issues (readable es lag) route
  idle : ∀ client, s.phase client = .idle →
    ∀ (i lag : Nat), es[i]? ≠ some (.query client lag)
  queried : ∀ client snapshot, s.phase client = .queried snapshot →
    (∃ (i lag : Nat), es[i]? = some (.query client lag)) ∧
    ∀ (i lag : Nat), es[i]? = some (.query client lag) → ∀ route,
      route ∈ snapshot.map IssueDB.route ↔
        route ∈ rows.map IssueDB.route ∨ Writes issues (readable (es.take i) lag) route

variable {issues} {es : List ClientEvent} {e : ClientEvent}

theorem getElem?_concat_cases {i : Nat} {x : ClientEvent} (h : (es ++ [e])[i]? = some x) :
    (es[i]? = some x ∧ (es ++ [e]).take i = es.take i) ∨
      i = es.length ∧ x = e ∧ (es ++ [e]).take i = es := by
  rcases Nat.lt_or_ge i es.length with hi | hi
  · rw [List.getElem?_append_left hi] at h
    exact .inl ⟨h, List.take_append_of_le_length hi.le⟩
  · have hlt : i < (es ++ [e]).length := (List.getElem?_eq_some_iff.mp h).1
    obtain rfl : i = es.length := by
      rw [List.length_append, List.length_singleton] at hlt
      omega
    rw [List.getElem?_concat_length] at h
    exact .inr ⟨rfl, (Option.some.inj h).symm, List.take_left⟩

theorem getElem?_concat_of_some {i : Nat} {x : ClientEvent} (h : es[i]? = some x) :
    (es ++ [e])[i]? = some x ∧ (es ++ [e]).take i = es.take i := by
  have hi : i < es.length := (List.getElem?_eq_some_iff.mp h).1
  exact ⟨by rw [List.getElem?_append_left hi, h], List.take_append_of_le_length hi.le⟩

theorem readable_zero (es : List ClientEvent) : readable es 0 = writers es := by simp [readable]

theorem writes_concat {clients : List Nat} {route : String} :
    Writes issues (clients ++ [client]) route ↔
      Writes issues clients route ∨ (issues client).route = route := by
  simp [Writes, or_and_right, exists_or]

@[simp] theorem writers_concat_query : writers (es ++ [.query client lag]) = writers es := by
  simp [writers]

@[simp] theorem writers_concat_write :
    writers (es ++ [.write client]) = writers es ++ [client] := by
  simp [writers]

theorem seesStored_concat : SeesStored issues rows (es ++ [e]) ↔
    SeesStored issues rows es ∧ ∀ client, e = .write client → QuerySees issues rows es client := by
  constructor
  · intro h
    refine ⟨fun i client hi => ?_, fun client he => ?_⟩
    · obtain ⟨hi', ht⟩ := getElem?_concat_of_some (e := e) hi
      exact ht ▸ h i client hi'
    · have hl := h es.length client (he ▸ List.getElem?_concat_length)
      rwa [List.take_left] at hl
  · rintro ⟨h, hlast⟩ i client hi
    rcases getElem?_concat_cases hi with ⟨hi, ht⟩ | ⟨-, he, ht⟩
    · rw [ht]
      exact h i client hi
    · rw [ht]
      exact hlast client he.symm

theorem follows_init : Follows issues rows [] (init rows) where
  versions := by
    intro lag version hv route
    obtain rfl : version = rows := by
      cases lag <;> simp_all [init]
    simp [readable, writers, Writes]
  idle := by simp
  queried := by simp [init]

theorem Follows.query (h : Follows issues rows es s) {version : List IssueDB}
    (hi : s.phase client = .idle) (hv : (s.latest :: s.older)[lag]? = some version) :
    Follows issues rows (es ++ [.query client lag]) (s.moved client (.queried version)) where
  versions := by
    intro lag' version' hv' route
    rw [h.versions lag' version' hv' route, readable, readable, writers_concat_query]
  idle := by
    intro other ho i lag' he
    have hne : other ≠ client := by
      rintro rfl
      simp [moved] at ho
    rcases getElem?_concat_cases he with ⟨he, -⟩ | ⟨-, he, -⟩
    · exact h.idle other (by simpa [moved, hne] using ho) i lag' he
    · exact hne (ClientEvent.query.inj he).1
  queried := by
    intro other snapshot ho
    rcases eq_or_ne other client with rfl | hne
    · obtain rfl : version = snapshot := by simpa [moved] using ho
      refine ⟨⟨_, lag, List.getElem?_concat_length⟩, fun i lag' he route => ?_⟩
      rcases getElem?_concat_cases he with ⟨he, -⟩ | ⟨-, he, ht⟩
      · exact absurd he (h.idle other hi i lag')
      · obtain rfl := (ClientEvent.query.inj he).2
        rw [ht, h.versions lag' version hv route]
    · obtain ⟨⟨i, lag', he⟩, hs⟩ := h.queried other snapshot (by simpa [moved, hne] using ho)
      refine ⟨⟨i, lag', (getElem?_concat_of_some he).1⟩, fun i lag' he route => ?_⟩
      rcases getElem?_concat_cases he with ⟨he, ht⟩ | ⟨-, he, -⟩
      · rw [ht, hs i lag' he route]
      · exact absurd (ClientEvent.query.inj he).1 hne

theorem mem_routes_put {issueDB : IssueDB} {route : String} :
    route ∈ (put issueDB rows).map IssueDB.route ↔
      route ∈ rows.map IssueDB.route ∨ issueDB.route = route := by
  rw [← KeyedRows.lookup_isSome_iff, ← KeyedRows.lookup_isSome_iff, put,
    KeyedRows.lookup_upsert IssueDB.route overwrites]
  by_cases hr : route = issueDB.route
  · simp [hr]
  · simp [hr, Ne.symm hr]

theorem Follows.write (h : Follows issues rows es s) :
    Follows issues rows (es ++ [.write client])
      (s.committed client (put (issues client) s.latest)) where
  versions := by
    intro lag version hv route
    cases lag with
    | zero =>
      obtain rfl : put (issues client) s.latest = version := by simpa [committed] using hv
      rw [mem_routes_put, h.versions 0 s.latest rfl route, readable_zero, readable_zero,
        writers_concat_write, writes_concat, or_assoc]
    | succ lag =>
      rw [h.versions lag version hv route, readable, readable, writers_concat_write,
        List.length_append, List.length_singleton, Nat.add_sub_add_right,
        List.take_append_of_le_length (Nat.sub_le _ _)]
  idle := by
    intro other ho i lag he
    have hne : other ≠ client := by
      rintro rfl
      simp [committed] at ho
    rcases getElem?_concat_cases he with ⟨he, -⟩ | ⟨-, he, -⟩
    · exact h.idle other (by simpa [committed, hne] using ho) i lag he
    · cases he
  queried := by
    intro other snapshot ho
    have hne : other ≠ client := by
      rintro rfl
      simp [committed] at ho
    obtain ⟨⟨i, lag, he⟩, hs⟩ := h.queried other snapshot (by simpa [committed, hne] using ho)
    refine ⟨⟨i, lag, (getElem?_concat_of_some he).1⟩, fun i lag he route => ?_⟩
    rcases getElem?_concat_cases he with ⟨he, ht⟩ | ⟨-, he, -⟩
    · rw [ht, hs i lag he route]
    · cases he

theorem Follows.write_ne_none_iff (h : Follows issues rows es s)
    (hp : s.phase client = .queried snapshot) :
    Clients.write (issues client) snapshot s.latest ≠ none ↔ QuerySees issues rows es client := by
  obtain ⟨⟨i, lag, he⟩, hs⟩ := h.queried client snapshot hp
  rw [ne_eq, write_eq_none_iff, h.versions 0 s.latest rfl, readable_zero]
  constructor
  · intro hw i lag he hrow hwrites
    by_contra hno
    exact hw ⟨.inr hwrites, fun hm => ((hs i lag he _).mp hm).elim hrow hno⟩
  · rintro hall ⟨hlatest, hsnapshot⟩
    rw [hs i lag he] at hsnapshot
    obtain ⟨hrow, hno⟩ := not_or.mp hsnapshot
    exact hno (hall i lag he hrow (hlatest.resolve_left hrow))

theorem noDuplicateAdd_iff (hn : (rows.map IssueDB.route).Nodup)
    (h : run (step issues) es (init rows) = some t) :
    (EachStep (step issues) NoDuplicateAdd es (init rows) ↔ SeesStored issues rows es) ∧
    (EachStep (step issues) NoDuplicateAdd es (init rows) → Follows issues rows es t) := by
  induction es using List.reverseRecOn generalizing t with
  | nil =>
    obtain rfl := Option.some.inj h
    exact ⟨⟨fun _ => by simp [SeesStored], fun _ => trivial⟩, fun _ => follows_init⟩
  | append_singleton es e ih =>
    obtain ⟨s, hs, ht⟩ := run_concat.mp h
    obtain ⟨hiff, hfollows⟩ := ih hs
    rw [eachStep_concat hs, seesStored_concat, ← hiff]
    cases e with
    | query client lag =>
      obtain ⟨version, hi, hv, rfl⟩ := step_query ht
      exact ⟨by simp [NoDuplicateAdd], fun hd => (hfollows hd.1).query hi hv⟩
    | write client =>
      simp only [ht, Option.some.injEq, forall_eq', ClientEvent.write.injEq]
      obtain ⟨snapshot, hp, ⟨rows', hw, rfl⟩ | ⟨hw, rfl⟩⟩ := step_write ht
      · have hc : Consistent issues rows s :=
          run_invariant (fun _ _ _ => consistent_step) (consistent_init hn) hs
        refine ⟨and_congr_right fun hd => ?_, fun hd => ?_⟩
        · rw [← (hfollows hd).write_ne_none_iff hp]
          simp [hw, NoDuplicateAdd, committed]
        · obtain rfl := write_eq_put (hc.snapshots client snapshot hp) hw
          exact (hfollows hd.1).write
      · have hraise : ¬ NoDuplicateAdd s (.write client) (s.moved client .raised) := by
          simp [NoDuplicateAdd, moved]
        refine ⟨and_congr_right fun hd => ?_, fun hd => absurd hd.2 hraise⟩
        rw [← (hfollows hd).write_ne_none_iff hp]
        simp [hraise, hw]

end Schedule

structure AtomicUpsert (issues : Nat → IssueDB) (rows : List IssueDB) (es : List ClientEvent) :
    Prop where
  noDuplicateAdd : EachStep (step issues) NoDuplicateAdd es (init rows)
  uniqueRoutes : Always (step issues) (fun s => (s.latest.map IssueDB.route).Nodup) es (init rows)
  lastWriter : Always (step issues)
    (fun s => ∀ route, KeyedRows.lookup IssueDB.route route s.latest =
      lastWritten issues rows s.commits route) es (init rows)

theorem always_consistent (hn : (rows.map IssueDB.route).Nodup) (es : List ClientEvent) :
    Always (step issues) (Consistent issues rows) es (init rows) :=
  (eachStep_of_invariant (Q := fun _ _ _ => True) (I := Consistent issues rows)
    (fun _ _ _ h ht => ⟨trivial, consistent_step h ht⟩) (consistent_init hn)).always
    (fun _ _ _ h ht _ => consistent_step h ht) (consistent_init hn)

theorem atomicUpsert_iff {es : List ClientEvent} (hn : (rows.map IssueDB.route).Nodup)
    (h : run (step issues) es (init rows) = some t) :
    AtomicUpsert issues rows es ↔ SeesStored issues rows es := by
  have hc : Always (step issues) (Consistent issues rows) es (init rows) := always_consistent hn es
  refine ⟨fun ha => (noDuplicateAdd_iff hn h).1.mp ha.noDuplicateAdd,
    fun hsees => ⟨(noDuplicateAdd_iff hn h).1.mpr hsees, ?_, ?_⟩⟩
  · exact ⟨hc.1.nodup, hc.2.mono fun _ _ _ ht => ht.nodup⟩
  · exact ⟨hc.1.lastWritten, hc.2.mono fun _ _ _ ht => ht.lastWritten⟩

def tripOf (client : Nat) : IssueDB := { route := if client = 2 then "C-244" else "C-243" }

theorem atomicUpsert_overlapping :
    AtomicUpsert tripOf []
      [.query 0 0, .write 0, .query 1 0, .query 2 1, .write 2, .write 1] := by
  have hrun : run (step tripOf)
      [.query 0 0, .write 0, .query 1 0, .query 2 1, .write 2, .write 1] (init []) = some _ := rfl
  refine (atomicUpsert_iff (show ([].map IssueDB.route).Nodup from .nil) hrun).mpr
    fun j client hj i lag hi hrow hwrites => ?_
  rcases j with _ | _ | _ | _ | _ | _ | j <;> simp at hj <;> subst hj
  · simp [Writes, writers] at hwrites
  · simp [Writes, writers, tripOf] at hwrites
  · rcases i with _ | _ | _ | _ | _ | i <;> simp at hi
    exact ⟨0, by simp [readable, writers, ← hi], rfl⟩

theorem overlapping_creates_not_atomic :
    ¬ AtomicUpsert (fun _ => { route := "C-243" }) []
      [.query 0 0, .query 1 0, .write 0, .write 1] := by
  intro ⟨h, _, _⟩
  obtain ⟨_, h⟩ := h _ rfl
  obtain ⟨_, h⟩ := h _ rfl
  obtain ⟨_, h⟩ := h _ rfl
  obtain ⟨hn, _⟩ := h _ rfl
  exact hn rfl

end Clients

section Create

open Program DBManager

variable {σ : Type} {c : Call} {id : Nat} {w : World σ}

def DBManager.existenceQuery (c : Call) (route : String) : App σ (Option ManagedIssueDB) := do
  resetHandlerIfNecessary c
  getIssue c route

def DBManager.writeTransaction (c : Call) (issueDB : IssueDB) (onComplete : App σ Unit) :
    Option ManagedIssueDB → App σ Unit
  | some foundIssueDB => rename c foundIssueDB issueDB onComplete
  | none => do
    let _committed ← Realm.write c (do
      Realm.add c issueDB
      onComplete)
    pure ()

def World.reading (w : World σ) (rows : List IssueDB) : World σ := { w with file := rows }

theorem create_eq (c : Call) (issueDB : IssueDB) (onComplete : App σ Unit) :
    create c issueDB onComplete =
      existenceQuery c issueDB.route >>= writeTransaction c issueDB onComplete := by
  simp only [create, existenceQuery, bind_assoc]
  congr! 2

theorem Held.reading (hw : Held c id none w) (rows : List IssueDB) :
    Held c id none (w.reading rows) := ⟨hw.thread, hw.realm⟩

theorem existenceQuery_run (hw : Held c id none w) (route : String) (snapshot : List IssueDB) :
    Returns (existenceQuery c route) (w.reading snapshot)
      ((KeyedRows.lookup IssueDB.route route snapshot).map (⟨id, ·⟩))
      (w.reading snapshot) := by
  have hr : Held c id none (w.reading snapshot) := hw.reading snapshot
  simp only [Returns, existenceQuery, StateT.run_bind, resetHandlerIfNecessary_run hr, ok_bind,
    getIssue_run hr]
  rfl

theorem realm_write_reading (hw : Held c id none w) (hc : c.commits = true)
    {latest rows : List IssueDB} {block : App σ Unit}
    (hb : block.run ((w.reading latest).writing c id latest) =
      .ok ((), (w.reading latest).writing c id rows)) :
    (Realm.write c block).run (w.reading latest) = .ok (true, w.reading rows) := by
  have hr : Held c id none (w.reading latest) := hw.reading latest
  rw [write_run hr hb (hr.writing rows), if_pos hc]
  simp [World.writing, World.reading, ← hw.realm]

theorem writeTransaction_run (hw : Held c id none w) (hc : c.commits = true)
    (issueDB : IssueDB) (snapshot latest : List IssueDB) :
    (writeTransaction c issueDB (pure ())
      ((KeyedRows.lookup IssueDB.route issueDB.route snapshot).map (⟨id, ·⟩))).run
        (w.reading latest) =
      match Clients.write issueDB snapshot latest with
      | some rows => .ok ((), w.reading rows)
      | none => .error .duplicateKey := by
  have hr : Held c id none (w.reading latest) := hw.reading latest
  cases hs : KeyedRows.lookup IssueDB.route issueDB.route snapshot with
  | none =>
    cases hl : KeyedRows.lookup IssueDB.route issueDB.route latest with
    | none =>
      have hb : (do Realm.add c issueDB; pure ()).run
          ((w.reading latest).writing c id latest) =
          .ok ((), (w.reading latest).writing c id (latest ++ [issueDB])) := by
        simp only [StateT.run_bind, add_run (hr.writing latest) issueDB hl, ok_bind]
        rfl
      simp only [Option.map_none, writeTransaction, StateT.run_bind,
        realm_write_reading hw hc hb, ok_bind, Clients.write, hs, hl]
      rfl
    | some row =>
      have hb : (do Realm.add c issueDB; pure ()).run
          ((w.reading latest).writing c id latest) = .error .duplicateKey := by
        simp only [StateT.run_bind, Realm.add, current_run (hr.writing latest), ok_bind, hl]
        rfl
      simp only [Option.map_none, writeTransaction, StateT.run_bind, write_block_raises hr hb,
        error_bind, Clients.write, hs, hl]
      rfl
  | some found =>
    have hb : (do Realm.assign c ⟨id, found⟩ (overwrite issueDB); pure ()).run
        ((w.reading latest).writing c id latest) =
        .ok ((), (w.reading latest).writing c id
          (KeyedRows.modify IssueDB.route found.route (overwrite issueDB) latest)) := by
      simp only [StateT.run_bind, assign_run (hr.writing latest) found, ok_bind]
      rfl
    simp only [Option.map_some, writeTransaction, rename, StateT.run_bind,
      resetHandlerIfNecessary_run hr, objects_run hr, ok_bind, Option.getD_none, Clients.write, hs,
      lookup_isEmpty hs]
    cases latest with
    | nil => rfl
    | cons row rows =>
      have hne : (w.reading (row :: rows)).file.isEmpty = false := rfl
      simp only [hne, Bool.false_eq_true, ↓reduceIte, StateT.run_bind,
        realm_write_reading hw hc hb, ok_bind]
      rfl

-- a client's two events are the two parts of `create_eq`, each run on the version it reads
theorem Clients.step_write_create {issues : Nat → IssueDB} {s t : Clients} {client : Nat}
    (hw : Held c id none w) (hc : c.commits = true)
    (ht : Clients.step issues s (.write client) = some t) :
    ∃ snapshot found, s.phase client = .queried snapshot ∧
      Returns (existenceQuery c (issues client).route) (w.reading snapshot) found
        (w.reading snapshot) ∧
      (Returns (writeTransaction c (issues client) (pure ()) found) (w.reading s.latest) ()
          (w.reading t.latest) ∧ t = s.committed client t.latest ∨
        Raises (writeTransaction c (issues client) (pure ()) found) (w.reading s.latest)
          .duplicateKey ∧ t = s.moved client .raised) := by
  obtain ⟨snapshot, hp, hcase⟩ := Clients.step_write ht
  have hrun := writeTransaction_run hw hc (issues client) snapshot s.latest
  refine ⟨snapshot, _, hp, existenceQuery_run hw (issues client).route snapshot, ?_⟩
  rcases hcase with ⟨rows, hwrite, rfl⟩ | ⟨hwrite, rfl⟩
  · rw [hwrite] at hrun
    exact .inl ⟨hrun, rfl⟩
  · rw [hwrite] at hrun
    exact .inr ⟨hrun, rfl⟩

end Create

end Seco
