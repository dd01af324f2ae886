import Mathlib.Logic.Function.Basic
import Seco.ViewLayer.RoutesPresenter

namespace Seco

-- `row` is the index path that the cell's `onGetIssue` closure captures
structure RouteListCell where
  routeVM : RouteVM
  row : Nat
  deriving DecidableEq

structure RouteList where
  routesVM : List RouteVM := []
  cells : Nat → Option RouteListCell := fun _ => none

inductive ListEvent where
  | set (routes : List RouteVM)
  | cellForRowAt (cell row : Nat)
  | handleTap (cell : Nat)
  deriving DecidableEq

namespace RouteList

open Runs

def set (routes : List RouteVM) (routeList : RouteList) : RouteList :=
  { routeList with routesVM := routes }

def cellForRowAt (cell row : Nat) (routeList : RouteList) : Option RouteList :=
  routeList.routesVM[row]?.map fun routeVM =>
    { routeList with cells := Function.update routeList.cells cell (some ⟨routeVM, row⟩) }

-- `none` where `routesVM[indexPath.row]` is out of range
def onGetIssue (row : Nat) (routeList : RouteList) : Option RouteVM := routeList.routesVM[row]?

def step (routeList : RouteList) : ListEvent → Option RouteList
  | .set routes => some (routeList.set routes)
  | .cellForRowAt cell row => routeList.cellForRowAt cell row
  | .handleTap cell => (routeList.cells cell).map fun _ => routeList

def TapOpens (routeList : RouteList) (event : ListEvent) (_ : RouteList) : Prop :=
  ∀ cell, event = .handleTap cell → ∃ shown, routeList.cells cell = some shown ∧
    routeList.onGetIssue shown.row = some shown.routeVM

def current (events : List ListEvent) : List RouteVM :=
  events.foldl (fun routes event =>
    match event with
    | .set routes => routes
    | _ => routes) []

@[simp] theorem current_set (events : List ListEvent) (routes : List RouteVM) :
    current (events ++ [.set routes]) = routes := by simp [current]

@[simp] theorem current_cellForRowAt (events : List ListEvent) (cell row : Nat) :
    current (events ++ [.cellForRowAt cell row]) = current events := by simp [current]

@[simp] theorem current_handleTap (events : List ListEvent) (cell : Nat) :
    current (events ++ [.handleTap cell]) = current events := by simp [current]

variable {events : List ListEvent} {routeList next : RouteList} {cell row : Nat}
  {shown : RouteListCell}

theorem step_cases {event : ListEvent} (h : step routeList event = some next) :
    (∃ routes, event = .set routes ∧ next = routeList.set routes) ∨
    (∃ cell row routeVM, event = .cellForRowAt cell row ∧ routeList.routesVM[row]? = some routeVM ∧
      next.routesVM = routeList.routesVM ∧
      next.cells = Function.update routeList.cells cell (some ⟨routeVM, row⟩)) ∨
    ∃ cell shown, event = .handleTap cell ∧ routeList.cells cell = some shown ∧
      next = routeList := by
  cases event with
  | set routes => exact .inl ⟨routes, rfl, (Option.some.inj h).symm⟩
  | cellForRowAt cell row =>
    obtain ⟨routeVM, hr, rfl⟩ := Option.map_eq_some_iff.mp h
    exact .inr (.inl ⟨cell, row, routeVM, rfl, hr, rfl, rfl⟩)
  | handleTap cell =>
    obtain ⟨shown, hs, rfl⟩ := Option.map_eq_some_iff.mp h
    exact .inr (.inr ⟨cell, shown, rfl, hs, rfl⟩)

theorem run_routesVM (h : run step events {} = some routeList) :
    routeList.routesVM = current events := by
  induction events using List.reverseRecOn generalizing routeList with
  | nil =>
    obtain rfl := Option.some.inj h
    rfl
  | append_singleton events event ih =>
    obtain ⟨u, hu, hs⟩ := run_concat.mp h
    obtain ⟨routes, rfl, rfl⟩ | ⟨cell, row, routeVM, rfl, -, hr, -⟩ | ⟨cell, shown, rfl, -, rfl⟩ :=
      step_cases hs
    · simp [RouteList.set]
    · rw [current_cellForRowAt, hr, ih hu]
    · rw [current_handleTap, ih hu]

structure ConfiguredAt (events : List ListEvent) (cell row : Nat) (pre post : List ListEvent) :
    Prop where
  eq : events = pre ++ .cellForRowAt cell row :: post
  last : ∀ row', .cellForRowAt cell row' ∉ post

theorem ConfiguredAt.concat {pre post : List ListEvent} {event : ListEvent}
    (h : ConfiguredAt events cell row pre post) (he : ∀ row', event ≠ .cellForRowAt cell row') :
    ConfiguredAt (events ++ [event]) cell row pre (post ++ [event]) where
  eq := by simp [h.eq]
  last row' := by simp [h.last row', (he row').symm]

theorem run_cells (h : run step events {} = some routeList)
    (hc : routeList.cells cell = some shown) :
    ∃ pre post, ConfiguredAt events cell shown.row pre post ∧
      (current pre)[shown.row]? = some shown.routeVM := by
  induction events using List.reverseRecOn generalizing routeList with
  | nil =>
    obtain rfl := Option.some.inj h
    cases hc
  | append_singleton events event ih =>
    obtain ⟨u, hu, hs⟩ := run_concat.mp h
    obtain ⟨routes, rfl, rfl⟩ | ⟨cell', row, routeVM, rfl, hr, -, hcs⟩ | ⟨cell', _, rfl, -, rfl⟩ :=
      step_cases hs
    · obtain ⟨pre, post, hp, hv⟩ := ih hu hc
      exact ⟨pre, _, hp.concat (by simp), hv⟩
    · by_cases he : cell' = cell
      · subst he
        rw [hcs, Function.update_self] at hc
        obtain rfl := Option.some.inj hc
        exact ⟨events, [], ⟨rfl, by simp⟩, run_routesVM hu ▸ hr⟩
      · rw [hcs, Function.update_of_ne (Ne.symm he)] at hc
        obtain ⟨pre, post, hp, hv⟩ := ih hu hc
        exact ⟨pre, _, hp.concat (by simp [he]), hv⟩
    · obtain ⟨pre, post, hp, hv⟩ := ih hu hc
      exact ⟨pre, _, hp.concat (by simp), hv⟩

theorem step_cells {event : ListEvent} (h : step routeList event = some next)
    (he : ∀ row, event ≠ .cellForRowAt cell row) : next.cells cell = routeList.cells cell := by
  obtain ⟨routes, rfl, rfl⟩ | ⟨cell', row, routeVM, rfl, -, -, hcs⟩ | ⟨cell', _, rfl, -, rfl⟩ :=
    step_cases h
  · rfl
  · have hne : cell' ≠ cell := fun hc => he row (by rw [hc])
    rw [hcs, Function.update_of_ne hne.symm]
  · rfl

theorem run_frame (h : run step events routeList = some next)
    (he : ∀ row, .cellForRowAt cell row ∉ events) : next.cells cell = routeList.cells cell := by
  induction events generalizing routeList with
  | nil =>
    obtain rfl := Option.some.inj h
    rfl
  | cons event events ih =>
    obtain ⟨u, hu, hn⟩ := run_cons.mp h
    rw [ih hn fun row hm => he row (List.mem_cons_of_mem event hm)]
    exact step_cells hu fun row hc => he row (by simp [hc])

theorem run_configured {pre post : List ListEvent} (h : run step events {} = some routeList)
    (hp : ConfiguredAt events cell row pre post) :
    ∃ routeVM, routeList.cells cell = some ⟨routeVM, row⟩ ∧ (current pre)[row]? = some routeVM := by
  rw [hp.eq, run_append] at h
  obtain ⟨u, hu, hn⟩ := h
  obtain ⟨v, hv, hn⟩ := run_cons.mp hn
  obtain ⟨routeVM, hr, rfl⟩ := Option.map_eq_some_iff.mp hv
  refine ⟨routeVM, ?_, run_routesVM hu ▸ hr⟩
  rw [run_frame hn hp.last]
  exact Function.update_self ..

theorem taps_open_iff (events : List ListEvent) (last : RouteList)
    (h : run step events {} = some last) :
    EachStep step TapOpens events {} ↔
      ∀ before cell after, events = before ++ .handleTap cell :: after →
        ∀ row pre post, ConfiguredAt before cell row pre post →
          (current before)[row]? = (current pre)[row]? := by
  rw [eachStep_iff_pre]
  constructor
  · intro ht before cell after he row pre post hp
    rw [he, run_append] at h
    obtain ⟨u, hu, hn⟩ := h
    obtain ⟨v, hv, -⟩ := run_cons.mp hn
    obtain ⟨shown, hs, ho⟩ := ht before (.handleTap cell) after u v he hu hv cell rfl
    obtain ⟨routeVM, hc, hr⟩ := run_configured hu hp
    obtain rfl := Option.some.inj (hs.symm.trans hc)
    rw [hr, ← run_routesVM hu]
    exact ho
  · rintro hc before event after u v he hu hv cell rfl
    obtain ⟨shown, hs, -⟩ := Option.map_eq_some_iff.mp hv
    obtain ⟨pre, post, hp, hr⟩ := run_cells hu hs
    refine ⟨shown, hs, ?_⟩
    rw [onGetIssue, run_routesVM hu, hc before cell after he shown.row pre post hp, hr]

def plain (route : String) : RouteVM := ⟨route, "", "", "", []⟩

def replaced (routes : List RouteVM) : List ListEvent :=
  [.set [plain "R1"], .cellForRowAt 0 0, .set routes, .handleTap 0]

theorem taps_open_iff_replaced :
    EachStep step TapOpens (replaced [plain "R1", plain "R2"]) {} := by
  refine (taps_open_iff _ _ rfl).mpr fun before cell after he row pre post hp => ?_
  obtain ⟨hp, -⟩ := hp
  rcases before with _ | ⟨a, _ | ⟨b, _ | ⟨c, _ | ⟨d, before⟩⟩⟩⟩ <;> simp [replaced] at he
  obtain ⟨rfl, rfl, rfl, rfl, -⟩ := he
  rcases pre with _ | ⟨a, _ | ⟨b, _ | ⟨c, pre⟩⟩⟩ <;> simp at hp
  obtain ⟨rfl, rfl, -⟩ := hp
  rfl

theorem shown_of_tapOpens {routes : List RouteVM} (h : EachStep step TapOpens (replaced routes) {}) :
    routes[0]? = some (plain "R1") := by
  have ht := ((((h _ rfl).2 _ rfl).2 _ rfl).2 _ rfl).1
  obtain ⟨shown, hs, ho⟩ := ht 0 rfl
  obtain rfl : shown = ⟨plain "R1", 0⟩ := (Option.some.inj hs).symm
  exact ho

theorem not_tapOpens : (∀ routes, (run step (replaced routes) {}).isSome = true) ∧
    ¬ EachStep step TapOpens (replaced [plain "R2"]) {} ∧
    ¬ EachStep step TapOpens (replaced []) {} := by
  refine ⟨fun _ => rfl, fun h => ?_, fun h => ?_⟩
  · exact absurd (shown_of_tapOpens h) (by decide)
  · cases shown_of_tapOpens h

end RouteList

end Seco
