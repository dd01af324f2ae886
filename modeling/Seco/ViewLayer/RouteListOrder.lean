import Seco.ViewLayer.RoutesPresenter

namespace Seco

open RoutesPresenter Runs

def arrivals (es : List Event) : List (Nat × List Route) := es.filterMap Event.arrival

def arrivalNumbers (es : List Event) : List Nat := (arrivals es).map Prod.fst

def NeverOlder (s : Requests) (_ : Event) (t : Requests) : Prop :=
  ∀ m ∈ s.shown, ∃ n ∈ t.shown, m ≤ n

def ShowsNewest (es : List Event) (t : Requests) : Prop :=
  ∀ a ∈ arrivals es, (∀ b ∈ arrivals es, b.1 ≤ a.1) →
    t.view.routeList = a.2.map RouteVM.initRoute

variable {s t u : Requests} {es : List Event} {e : Event}

theorem shown_step (h : step s e = some t) : t.shown = (e.arrival.map Prod.fst).or s.shown := by
  cases e with
  | issue request =>
    obtain rfl : issue request s = t := Option.some.inj h
    rfl
  | deliver number response =>
    obtain ⟨request, f, _, _, rfl⟩ := step_deliver h
    rfl

theorem routeList_step (h : step s e = some t) :
    t.view.routeList =
      (e.arrival.map fun a => a.2.map RouteVM.initRoute).getD s.view.routeList := by
  cases e with
  | issue request =>
    obtain rfl : issue request s = t := Option.some.inj h
    rfl
  | deliver number response =>
    obtain ⟨request, f, _, hf, rfl⟩ := step_deliver h
    rcases block_cases hf with ⟨result, rfl, rfl⟩ | ⟨result, rfl, rfl⟩ | ⟨route, issue, rfl, rfl⟩
    · cases result <;> rfl
    · cases result <;> rfl
    · rfl

theorem arrivals_cons : arrivals (e :: es) = e.arrival.toList ++ arrivals es := by
  cases h : e.arrival <;> simp [arrivals, h]

theorem arrivalNumbers_cons :
    arrivalNumbers (e :: es) = (e.arrival.map Prod.fst).toList ++ arrivalNumbers es := by
  rw [arrivalNumbers, arrivals_cons, List.map_append, ← Option.toList_map]
  rfl

theorem neverOlder_iff (h : run step es s = some t) :
    EachStep step NeverOlder es s ↔ (s.shown.toList ++ arrivalNumbers es).Pairwise (· ≤ ·) := by
  induction es generalizing s with
  | nil => cases s.shown <;> simp [EachStep, arrivalNumbers, arrivals]
  | cons e es ih =>
    obtain ⟨u, hu, ht⟩ := run_cons.mp h
    have hs := shown_step hu
    have hc : EachStep step NeverOlder (e :: es) s ↔
        NeverOlder s e u ∧ EachStep step NeverOlder es u := by
      simp only [EachStep, hu, Option.some.injEq, forall_eq']
    rw [hc, ih ht, arrivalNumbers_cons]
    cases he : e.arrival with
    | none =>
      rw [he, Option.map_none, Option.none_or] at hs
      have hn : NeverOlder s e u := fun m hm => ⟨m, hs ▸ hm, le_refl m⟩
      simp [hs, hn]
    | some a =>
      rw [he, Option.map_some, Option.some_or] at hs
      cases hm : s.shown with
      | none => simp [NeverOlder, hm, hs]
      | some m =>
        simp only [NeverOlder, hm, hs, Option.mem_def, Option.some.injEq, forall_eq',
          exists_eq_left', Option.map_some, Option.toList_some, List.cons_append, List.nil_append,
          List.pairwise_cons, List.mem_cons, forall_eq_or_imp]
        constructor
        · rintro ⟨hma, hall, hp⟩
          exact ⟨⟨hma, fun n hn => hma.trans (hall n hn)⟩, hall, hp⟩
        · rintro ⟨⟨hma, -⟩, hall, hp⟩
          exact ⟨hma, hall, hp⟩

theorem routeList_run (h : run step es s = some t) :
    t.view.routeList =
      ((arrivals es).getLast?.map fun a => a.2.map RouteVM.initRoute).getD s.view.routeList := by
  induction es generalizing s with
  | nil =>
    obtain rfl : s = t := by simpa [run] using h
    rfl
  | cons e es ih =>
    obtain ⟨u, hu, ht⟩ := run_cons.mp h
    rw [ih ht, routeList_step hu, arrivals_cons, List.getLast?_append]
    cases (arrivals es).getLast? <;> cases e.arrival <;> rfl

theorem arrivalNumbers_fresh (hn : Numbered s) (h : run step es s = some t) :
    (arrivalNumbers es).Nodup ∧
      ∀ n ∈ arrivalNumbers es, n ∈ s.outstanding.map Prod.fst ∨ s.issued ≤ n := by
  induction es generalizing s with
  | nil => simp [arrivalNumbers, arrivals]
  | cons e es ih =>
    obtain ⟨u, hu, ht⟩ := run_cons.mp h
    obtain ⟨hd, hall⟩ := ih (numbered_step hn hu) ht
    cases e with
    | issue request =>
      obtain rfl : issue request s = u := Option.some.inj hu
      refine ⟨hd, fun n hm => ?_⟩
      rcases hall n hm with ho | ho
      · simp only [issue, List.map_append, List.map_cons, List.map_nil, List.mem_append,
          List.mem_singleton] at ho
        rcases ho with ho | rfl
        · exact .inl ho
        · exact .inr (le_refl _)
      · exact .inr (Nat.le_of_succ_le ho)
    | deliver number response =>
      obtain ⟨request, f, hmem, _, rfl⟩ := step_deliver hu
      have hlt : number < s.issued := hn.issued _ hmem
      have hnot : number ∉ arrivalNumbers es := by
        intro hm
        rcases hall number hm with ho | ho
        · obtain ⟨r, hr, he⟩ := List.mem_map.mp ho
          exact absurd he (by simpa using (List.mem_filter.mp hr).2)
        · exact absurd hlt (not_lt.mpr ho)
      have hold (n : Nat) (hm : n ∈ arrivalNumbers es) :
          n ∈ s.outstanding.map Prod.fst ∨ s.issued ≤ n := by
        refine (hall n hm).imp (fun ho => ?_) id
        exact List.map_subset Prod.fst List.filter_sublist.subset ho
      rw [arrivalNumbers_cons]
      cases ha : (Event.deliver number response).arrival with
      | none => exact ⟨hd, hold⟩
      | some a =>
        obtain ⟨routes, rfl, _⟩ := Event.arrival_deliver ha
        refine ⟨List.nodup_cons.mpr ⟨hnot, hd⟩, fun n hm => ?_⟩
        rcases List.mem_cons.mp hm with rfl | hm
        · exact .inl (List.mem_map.mpr ⟨_, hmem, rfl⟩)
        · exact hold n hm

theorem showsNewest_of_pairwise (h : run step es {} = some t)
    (hp : (arrivalNumbers es).Pairwise (· < ·)) : ShowsNewest es t := by
  intro a ha hmax
  rw [routeList_run h]
  obtain ⟨pre, last, hl⟩ : ∃ pre last, arrivals es = pre ++ [last] :=
    ⟨_, _, (List.dropLast_append_getLast (List.ne_nil_of_mem ha)).symm⟩
  rw [arrivalNumbers, hl, List.map_append, List.pairwise_append] at hp
  rw [hl] at ha hmax ⊢
  rcases List.mem_append.mp ha with hm | hm
  · have hlt : a.1 < last.1 := hp.2.2 a.1 (List.mem_map_of_mem hm) last.1 (by simp)
    exact absurd hlt (not_lt.mpr (hmax last (by simp)))
  · obtain rfl : a = last := by simpa using hm
    simp

theorem route_list_order_iff (h : run step es {} = some t) :
    EachStep step NeverOlder es {} ∧ ShowsNewest es t ↔
      (arrivalNumbers es).Pairwise (· < ·) := by
  rw [neverOlder_iff h]
  constructor
  · intro ⟨hp, _⟩
    have hd := (arrivalNumbers_fresh numbered_init h).1
    exact (List.pairwise_and_iff.mpr ⟨hp, hd⟩).imp fun hab => lt_of_le_of_ne hab.1 hab.2
  · intro hp
    exact ⟨hp.imp le_of_lt, showsNewest_of_pairwise h hp⟩

def plainRoute (route : String) : Route := ⟨route, "", "", "", "", "", [], false⟩

theorem route_list_order_after_failure :
    let es : List Event :=
      [.issue .fetchRoutes, .issue .fetchRoutes, .issue .fetchRoutes,
        .deliver 0 (.routes (.ok [plainRoute "R1"])), .deliver 2 (.routes (.ok [plainRoute "R2"])),
        .deliver 1 (.routes (.error ⟨"seco", -4⟩))]
    ∃ t, run step es {} = some t ∧ EachStep step NeverOlder es {} ∧ ShowsNewest es t :=
  ⟨_, rfl, (route_list_order_iff rfl).mpr (by decide)⟩

theorem late_routes_replace_newer :
    let es : List Event :=
      [.issue .fetchRoutes, .issue .fetchRoutes, .deliver 1 (.routes (.ok [plainRoute "R2"])),
        .deliver 0 (.routes (.ok [plainRoute "R1"]))]
    ∃ t, run step es {} = some t ∧ t.view.routeList = [RouteVM.initRoute (plainRoute "R1")] ∧
      ¬ EachStep step NeverOlder es {} ∧ ¬ ShowsNewest es t := by
  refine ⟨_, rfl, rfl, fun h => ?_, fun h => ?_⟩
  · obtain ⟨_, h⟩ := h _ rfl
    obtain ⟨_, h⟩ := h _ rfl
    obtain ⟨_, h⟩ := h _ rfl
    obtain ⟨hn, _⟩ := h _ rfl
    obtain ⟨n, ht, hle⟩ := hn 1 rfl
    obtain rfl : 0 = n := Option.some.inj ht
    exact absurd hle (by decide)
  · exact absurd (h (1, [plainRoute "R2"]) (by decide) (by decide)) (by decide)

end Seco
