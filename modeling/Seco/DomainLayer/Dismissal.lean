import Seco.DomainLayer.MainFlowCoordinator

namespace Seco

open Program Runs MainFlowCoordinator

def Stacked (viewControllers : List ViewController) (presented : Nat) : Prop :=
  ∃ forms : List Form, viewControllers = forms.map .formVC ++ [.routesVC] ∧
    (forms.map Form.id).Nodup ∧ ∀ form ∈ forms, form.id < presented

section Stacked

variable {viewControllers below : List ViewController} {presented : Nat} {form form' : Form}

theorem stacked_root (presented : Nat) : Stacked [.routesVC] presented :=
  ⟨[], rfl, .nil, by simp⟩

theorem Stacked.getLast? (h : Stacked viewControllers presented) :
    viewControllers.getLast? = some .routesVC := by
  obtain ⟨forms, rfl, -⟩ := h
  simp

theorem Stacked.push (h : Stacked viewControllers presented) (hf : form.id = presented) :
    Stacked (.formVC form :: viewControllers) (presented + 1) := by
  obtain ⟨forms, rfl, hn, hb⟩ := h
  refine ⟨form :: forms, rfl, List.nodup_cons.mpr ⟨fun hm => ?_, hn⟩, fun other ho => ?_⟩
  · obtain ⟨other, ho, he⟩ := List.mem_map.mp hm
    exact absurd (hb other ho) (by omega)
  · rcases List.mem_cons.mp ho with rfl | ho
    · omega
    · exact Nat.lt_succ_of_lt (hb other ho)

theorem stacked_cons (h : Stacked (.formVC form :: below) presented) :
    ∃ forms : List Form, below = forms.map .formVC ++ [.routesVC] ∧
      form.id ∉ forms.map Form.id ∧ Stacked below presented ∧ form.id < presented := by
  obtain ⟨forms, he, hn, hb⟩ := h
  cases forms with
  | nil => simp at he
  | cons top forms =>
    obtain ⟨ht, rfl⟩ := List.cons.inj he
    obtain rfl : form = top := ViewController.formVC.inj ht
    obtain ⟨hnot, hn⟩ := List.nodup_cons.mp hn
    exact ⟨forms, rfl, hnot, ⟨forms, rfl, hn, fun f hf => hb f (by simp [hf])⟩, hb form (by simp)⟩

theorem Stacked.tail (h : Stacked (.formVC form :: below) presented) :
    Stacked below presented := by
  obtain ⟨_, _, _, hs, _⟩ := stacked_cons h
  exact hs

theorem Stacked.replace (h : Stacked (.formVC form :: below) presented)
    (hf : form'.id = form.id) : Stacked (.formVC form' :: below) presented := by
  obtain ⟨forms, rfl, hnot, ⟨forms', he, hn, hb⟩, hlt⟩ := stacked_cons h
  refine ⟨form' :: forms', by rw [he]; rfl, List.nodup_cons.mpr ⟨?_, hn⟩, fun f hm => ?_⟩
  · obtain rfl : forms = forms' :=
      List.map_injective_iff.mpr (fun _ _ => ViewController.formVC.inj)
        (List.append_cancel_right he)
    rwa [hf]
  · rcases List.mem_cons.mp hm with rfl | hm
    · omega
    · exact hb f hm

theorem Stacked.root_or_form (h : Stacked viewControllers presented) :
    viewControllers = [.routesVC] ∨
      ∃ form below, viewControllers = .formVC form :: below ∧
        popViewController viewControllers = below := by
  obtain ⟨forms, rfl, -, -⟩ := h
  cases forms with
  | nil => exact .inl rfl
  | cons form forms =>
    refine .inr ⟨form, forms.map .formVC ++ [.routesVC], rfl, ?_⟩
    cases forms <;> rfl

theorem Stacked.pop (h : Stacked viewControllers presented) :
    Stacked (popViewController viewControllers) presented := by
  rcases h.root_or_form with rfl | ⟨form, below, rfl, hp⟩
  · exact stacked_root presented
  · rw [hp]
    exact h.tail

def others (id : Nat) (viewControllers : List ViewController) : List ViewController :=
  viewControllers.filter fun viewController => decide (viewController.form ≠ some id)

theorem mem_others {id : Nat} {viewController : ViewController} :
    viewController ∈ others id viewControllers ↔
      viewController ∈ viewControllers ∧ viewController.form ≠ some id := by
  simp [others]

theorem others_top {forms : List Form} (h : form.id ∉ forms.map Form.id) :
    others form.id (.formVC form :: (forms.map .formVC ++ [.routesVC])) =
      forms.map .formVC ++ [.routesVC] := by
  rw [others, List.filter_cons_of_neg (by simp), List.filter_eq_self]
  intro viewController hm
  rcases List.mem_append.mp hm with hm | hm
  · obtain ⟨other, ho, rfl⟩ := List.mem_map.mp hm
    have hne : other.id ≠ form.id := fun he => h (List.mem_map.mpr ⟨other, ho, he⟩)
    simpa using hne
  · obtain rfl : viewController = .routesVC := by simpa using hm
    simp

theorem Stacked.pop_eq_others_iff (h : Stacked viewControllers presented) (id : Nat) :
    popViewController viewControllers = others id viewControllers ↔
      viewControllers.head?.bind ViewController.form = some id ∨ viewControllers = [.routesVC] := by
  rcases h.root_or_form with rfl | ⟨form, below, rfl, hp⟩
  · simp [popViewController, others]
  · obtain ⟨forms, rfl, hnot, -⟩ := stacked_cons h
    rw [hp]
    by_cases hid : form.id = id
    · subst hid
      simp [others_top hnot]
    · -- another form is on top: the pop takes it, the form that was saved does not match it
      have hne : forms.map ViewController.formVC ++ [.routesVC] ≠
          others id (.formVC form :: (forms.map ViewController.formVC ++ [.routesVC])) := by
        intro he
        have hm : .formVC form ∈ forms.map ViewController.formVC ++ [.routesVC] :=
          he ▸ mem_others.mpr ⟨List.mem_cons_self, by simpa using hid⟩
        have hm' : form ∈ forms := by simpa using hm
        exact hnot (List.mem_map_of_mem hm')
      simp [hid, hne]

end Stacked

variable {count : String → Nat} {c : Call} {s t : MainFlowCoordinator}

structure Consistent (c : Call) (s : MainFlowCoordinator) : Prop where
  idle : Idle c s.world
  published : s.world.client.view.onGetIssueInternalPublisher = []
  stacked : Stacked s.viewControllers s.presented
  saved : ∀ form, .dismiss form ∈ s.world.client.queue → form ∈ s.saved

def Accounted (s : MainFlowCoordinator) : Prop :=
  ∀ form < s.presented,
    some form ∈ s.viewControllers.map ViewController.form ∨ form ∈ s.saved ∨ form ∈ s.left

def ClosesOwn (s : MainFlowCoordinator) : UserEvent → MainFlowCoordinator → Prop
  | .runBlock _, t => ∀ form, s.world.client.queue.head? = some (.dismiss form) →
      t.viewControllers = others form s.viewControllers
  | _, _ => True

def SavedOnTop (s : MainFlowCoordinator) : UserEvent → MainFlowCoordinator → Prop
  | .runBlock _, _ => ∀ form, s.world.client.queue.head? = some (.dismiss form) →
      s.viewControllers.head?.bind ViewController.form = some form ∨
        s.viewControllers = [.routesVC]
  | _, _ => True

theorem closesOwn_iff {e : UserEvent} (hs : Consistent c s) (h : step count c s e = some t) :
    ClosesOwn s e t ↔ SavedOnTop s e t := by
  cases e with
  | runBlock now =>
    obtain ⟨block, queue, hq, rfl⟩ := step_runBlock h
    simp only [ClosesOwn, SavedOnTop, hq, List.head?_cons, Option.some.injEq]
    refine forall_congr' fun form => forall_congr' fun hb => ?_
    subst hb
    exact hs.stacked.pop_eq_others_iff form
  | accessoryTap route => exact Iff.rfl
  | edit issueUI => exact Iff.rfl
  | ok => exact Iff.rfl
  | back => exact Iff.rfl

theorem consistent_step {e : UserEvent} (hc : c.commits = true) (hs : Consistent c s)
    (h : step count c s e = some t) : Consistent c t := by
  cases e with
  | accessoryTap route =>
    obtain rfl := step_accessoryTap hs.idle h
    refine ⟨hs.idle.of_handle rfl rfl, hs.published, hs.stacked, fun form hm => ?_⟩
    exact hs.saved form (by simpa [World.fetching] using hm)
  | edit issueUI =>
    obtain ⟨form, below, hv, rfl⟩ := step_edit h
    exact ⟨hs.idle, hs.published, (hv ▸ hs.stacked).replace rfl, hs.saved⟩
  | ok =>
    obtain ⟨form, below, hv, rfl | rfl⟩ := step_ok hs.idle hc h
    · exact ⟨hs.idle, hs.published, (hv ▸ hs.stacked).replace rfl, hs.saved⟩
    · refine ⟨hs.idle.of_handle rfl rfl, hs.published, (hv ▸ hs.stacked).replace rfl,
        fun other hm => ?_⟩
      rcases List.mem_append.mp hm with hm | hm
      · exact List.mem_cons_of_mem _ (hs.saved other hm)
      · obtain rfl : other = form.id := by simpa using hm
        exact List.mem_cons_self
  | back =>
    obtain ⟨form, below, hv, rfl⟩ := step_back h
    exact ⟨hs.idle, hs.published, (hv ▸ hs.stacked).tail, hs.saved⟩
  | runBlock now =>
    obtain ⟨block, queue, hq, rfl⟩ := step_runBlock h
    have hsaved : ∀ form, .dismiss form ∈ queue → form ∈ s.saved :=
      fun form hm => hs.saved form (by simp [hq, hm])
    cases block with
    | fetchedIssue route issue =>
      rw [runBlock_fetchedIssue hs.published]
      exact ⟨hs.idle.of_handle rfl rfl, rfl, hs.stacked.push rfl, hsaved⟩
    | dismiss form =>
      exact ⟨hs.idle.of_handle rfl rfl, hs.published, hs.stacked.pop, hsaved⟩

theorem accounted_step {e : UserEvent} (hc : c.commits = true) (hs : Consistent c s)
    (h : step count c s e = some t) (ho : SavedOnTop s e t) (ha : Accounted s) : Accounted t := by
  cases e with
  | accessoryTap route =>
    obtain rfl := step_accessoryTap hs.idle h
    exact ha
  | edit issueUI =>
    obtain ⟨form, below, hv, rfl⟩ := step_edit h
    intro other hlt
    simpa [hv, edited] using ha other hlt
  | ok =>
    obtain ⟨form, below, hv, rfl | rfl⟩ := step_ok hs.idle hc h
    · intro other hlt
      simpa [hv, accepted] using ha other hlt
    · intro other hlt
      have hother := ha other hlt
      rw [hv] at hother
      exact hother.imp_right (Or.imp_left (List.mem_cons_of_mem form.id))
  | back =>
    obtain ⟨form, below, hv, rfl⟩ := step_back h
    intro other hlt
    have hother := ha other hlt
    simp only [hv, ViewController.form_formVC, List.map_cons, List.mem_cons,
      Option.some.injEq] at hother ⊢
    rcases hother with (rfl | hm) | hm | hm
    · exact .inr (.inr (.inl rfl))
    · exact .inl hm
    · exact .inr (.inl hm)
    · exact .inr (.inr (.inr hm))
  | runBlock now =>
    obtain ⟨block, queue, hq, rfl⟩ := step_runBlock h
    cases block with
    | fetchedIssue route issue =>
      rw [runBlock_fetchedIssue hs.published]
      intro other hlt
      rcases Nat.lt_succ_iff_lt_or_eq.mp hlt with hlt | rfl
      · exact (ha other hlt).imp_left (List.mem_cons_of_mem _)
      · exact .inl List.mem_cons_self
    | dismiss form =>
      intro other hlt
      have hsaved : form ∈ s.saved := hs.saved form (by simp [hq])
      have hpop := (hs.stacked.pop_eq_others_iff form).mpr (ho form (by simp [hq]))
      refine (ha other hlt).elim (fun hm => ?_) .inr
      obtain ⟨viewController, hv, he⟩ := List.mem_map.mp hm
      by_cases hf : other = form
      · exact .inr (.inl (hf ▸ hsaved))
      · refine .inl (List.mem_map.mpr ⟨viewController, ?_, he⟩)
        change viewController ∈ popViewController s.viewControllers
        rw [hpop]
        exact mem_others.mpr ⟨hv, by simpa [he] using hf⟩

structure ClosesOnlyOwn (count : String → Nat) (c : Call) (es : List UserEvent)
    (s : MainFlowCoordinator) : Prop where
  closesOwn : EachStep (step count c) ClosesOwn es s
  accounted : Always (step count c) Accounted es s
  root : Always (step count c) (fun s => s.viewControllers.getLast? = some .routesVC) es s

theorem consistent_init {w : World Main} (hw : Idle c w) (hm : w.client = {}) :
    Consistent c { world := w } :=
  ⟨hw, by simp [hm], stacked_root 0, by simp [hm]⟩

theorem always_closesOnlyOwn {es : List UserEvent} (hc : c.commits = true)
    (hs : Consistent c s ∧ Accounted s) (ho : EachStep (step count c) SavedOnTop es s) :
    Always (step count c) (fun s => Consistent c s ∧ Accounted s) es s :=
  ho.always (fun _ _ _ hs ht ho =>
    ⟨consistent_step hc hs.1 ht, accounted_step hc hs.1 ht ho hs.2⟩) hs

theorem closesOnlyOwn_iff {w : World Main} (hc : c.commits = true) (hw : Idle c w)
    (hm : w.client = {}) (es : List UserEvent) :
    ClosesOnlyOwn count c es { world := w } ↔
      EachStep (step count c) SavedOnTop es { world := w } := by
  have hs := consistent_init hw hm
  have h : EachStep (step count c) ClosesOwn es { world := w } ↔
      EachStep (step count c) SavedOnTop es { world := w } :=
    eachStep_iff (I := Consistent c) (fun _ _ _ hs ht _ => consistent_step hc hs ht)
      (fun _ _ _ hs ht => closesOwn_iff hs ht) hs
  refine ⟨fun ho => h.mp ho.closesOwn, fun ho => ?_⟩
  have ha := always_closesOnlyOwn hc ⟨hs, fun _ hlt => absurd hlt (Nat.not_lt_zero _)⟩ ho
  exact ⟨h.mpr ho, ⟨ha.1.2, ha.2.mono fun _ _ _ ht => ht.2⟩,
    ⟨rfl, ha.2.mono fun _ _ _ ht => ht.1.stacked.getLast?⟩⟩

theorem closesOnlyOwn_one_form :
    let c : Call := ⟨0, true, true⟩
    ClosesOnlyOwn String.length c
      [.accessoryTap "asdf", .runBlock ⟨0⟩, .edit (FormView.previews ⟨0⟩), .ok, .runBlock ⟨1⟩]
      { world := DBManager.init c [] 0 {} } := by
  intro c
  have hf := FormView.isFormProperlyFilled_previews ⟨0⟩
  have hw := held_init c rfl [] 0 ({} : Main)
  refine (closesOnlyOwn_iff rfl (idle_init _ rfl _ _ _) rfl _).mpr ?_
  refine fun s₁ h₁ => ⟨trivial, fun s₂ h₂ => ⟨fun form hq => ?_, fun s₃ h₃ =>
    ⟨trivial, fun s₄ h₄ => ⟨trivial, fun s₅ h₅ => ⟨fun form hq => ?_, trivial⟩⟩⟩⟩⟩
  · obtain rfl := Option.some.inj h₁
    cases hq
  · obtain rfl := Option.some.inj h₁
    obtain rfl := Option.some.inj h₂
    obtain rfl := Option.some.inj h₃
    obtain rfl := Option.some.inj (h₄.symm.trans (step_ok_accepts rfl ⟨rfl, hw.realm⟩ rfl hf))
    obtain rfl : 0 = form := by cases hq; rfl
    exact .inl rfl

theorem second_ok_pops_another_form :
    let c : Call := ⟨0, true, true⟩
    ¬ ClosesOnlyOwn String.length c
      [.accessoryTap "asdf", .accessoryTap "asdf", .runBlock ⟨0⟩, .runBlock ⟨0⟩,
        .edit (FormView.previews ⟨0⟩), .ok, .ok, .runBlock ⟨1⟩, .runBlock ⟨1⟩]
      { world := DBManager.init c [] 0 {} } := by
  intro c ⟨h, _, _⟩
  obtain ⟨_, h⟩ := h _ rfl
  obtain ⟨_, h⟩ := h _ rfl
  obtain ⟨_, h⟩ := h _ rfl
  obtain ⟨_, h⟩ := h _ rfl
  obtain ⟨_, h⟩ := h _ rfl
  have hf := FormView.isFormProperlyFilled_previews ⟨0⟩
  have hw := held_init c rfl [] 0 ({} : Main)
  obtain ⟨_, h⟩ := h _ (step_ok_accepts rfl ⟨rfl, hw.realm⟩ rfl hf)
  obtain ⟨_, h⟩ := h _ (step_ok_accepts rfl ⟨rfl, hw.realm⟩ rfl hf)
  obtain ⟨_, h⟩ := h _ rfl
  obtain ⟨ho, _⟩ := h _ rfl
  exact absurd (congrArg List.length (ho 1 rfl)) (by decide)

end Seco
